import QuoteDesk.CommandLine
import QuoteDesk.Desk.Basic
/-!
Loads a configuration, sets up the desk and shows the settings it would work with. Left out is what would
come next: a desk that polls until it is interrupted, its requests over the network and its log.
-/
namespace QuoteDesk

def helpText : String :=
  "Quotes swaps of tokens from the order books of a maker

Usage: quotedesk [OPTIONS]

Options:
  -c, --config <CONFIG>  Configuration file path (can also be set via DEXALOT_CONFIG env var)
  -h, --help             Print help
  -V, --version          Print version"

def versionText : String := "quotedesk 0.1.0"

def contentOf (path : String) : IO FileContent := do
  try
    return .text (← IO.FS.readFile path)
  catch
    | .noFileOrDirectory _ _ _ => return .missing
    | e => return .unreadable (toString e)

def serve (path : Option String) : IO UInt32 := do
  let environment ← IO.getEnv "DEXALOT_CONFIG"
  let content ← contentOf (Config.pathFor path environment)
  let opened : Except ConfigError (Config × Desk) := do
    let config ← Config.load path content
    return (config, ← Desk.ofConfig config)
  match opened with
  | .error e =>
    IO.eprintln ("Error: " ++ (DeskError.config e).message)
    return 1
  | .ok (config, _) =>
    IO.print config.write
    return 0

def runCommand (words : List String) : IO UInt32 := do
  match Command.read words with
  | .error e =>
    IO.eprintln ("error: " ++ e.message)
    return 2
  | .ok .help =>
    IO.println helpText
    return 0
  | .ok .version =>
    IO.println versionText
    return 0
  | .ok (.serve path) => serve path

end QuoteDesk

def main (words : List String) : IO UInt32 := QuoteDesk.runCommand words
