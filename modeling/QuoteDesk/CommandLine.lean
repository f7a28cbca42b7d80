/-!
The command line: which configuration to work with.

The path of the file follows `-c` or `--config`, as the next word or in the same one.
-/
namespace QuoteDesk

inductive Command where
  | serve (path : Option String)
  | help
  | version
  deriving DecidableEq

inductive CommandError where
  | missingValue (option : String)
  | repeated (option : String)
  | unknown (word : String)
  deriving DecidableEq

def CommandError.message : CommandError → String
  | .missingValue option => "a value is required for '" ++ option ++ "' but none was supplied"
  | .repeated option => "the argument '" ++ option ++ "' cannot be used multiple times"
  | .unknown word => "unexpected argument '" ++ word ++ "' found"

namespace Command

def optionName : String := "--config <CONFIG>"

def after? (mark word : String) : Option String :=
  if mark.toList.isPrefixOf word.toList then some (.ofList (word.toList.drop mark.length))
  else none

def pathIn? (word : String) : Option String :=
  (after? "--config=" word).or ((after? "-c=" word).or (after? "-c" word))

def withPath (path : Option String) (new : String) : Except CommandError (Option String) :=
  if path.isSome then .error (.repeated optionName) else .ok (some new)

def readFrom (path : Option String) : List String → Except CommandError Command
  | [] => .ok (.serve path)
  | ["-c"] => .error (.missingValue optionName)
  | ["--config"] => .error (.missingValue optionName)
  | word :: next :: rest =>
    if word = "-c" ∨ word = "--config" then do readFrom (← withPath path next) rest
    else readWord word (next :: rest)
  | [word] => readWord word []
where
  readWord (word : String) (rest : List String) : Except CommandError Command :=
    if word = "-h" ∨ word = "--help" then .ok .help
    else if word = "-V" ∨ word = "--version" then .ok .version
    else match pathIn? word with
      | some new => do readFrom (← withPath path new) rest
      | none => .error (.unknown word)

def read (words : List String) : Except CommandError Command := readFrom none words

end Command
end QuoteDesk
