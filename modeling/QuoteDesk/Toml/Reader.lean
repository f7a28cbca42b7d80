import QuoteDesk.Toml.Draft
import QuoteDesk.Toml.Lexical
/-!
Reading configuration files.

A file is a sequence of lines: keys with values, and headers that name the table to which the keys
below them belong.
-/
namespace QuoteDesk.Toml

abbrev KeyValue := List String × String × Toml

def splitKey : List String → Option (List String × String)
  | [] => none
  | [name] => some ([], name)
  | part :: rest => (splitKey rest).map fun (path, name) => (part :: path, name)

def inlineTable? (values : List KeyValue) : Option Toml :=
  (Draft.addValues values []).map fun es => (Draft.table false false es).toToml

def expectWord (word : List Char) (v : Toml) (cs : List Char) : Option (Toml × List Char) :=
  if word.isPrefixOf cs then some (v, cs.drop word.length) else none

mutual

/-- A value. The first argument bounds the steps, the second the nesting. -/
def scanValue : Nat → Nat → List Char → Option (Toml × List Char)
  | 0, _, _ => none
  | steps + 1, depth, cs =>
    match cs with
    | '"' :: _ => (scanString cs).map fun (s, r) => (.string (String.ofList s), r)
    | '\'' :: _ => (scanString cs).map fun (s, r) => (.string (String.ofList s), r)
    | '[' :: rest =>
      if depth ≤ 1 then none
      else (scanItems steps (depth - 1) rest).map fun (vs, r) => (.array vs, r)
    | '\x7b' :: rest =>
      if depth ≤ 1 then none
      else match skipSpace rest with
        | '\x7d' :: rest => some (.table [], rest)
        | rest =>
          match scanPairs steps (depth - 1) rest with
          | some (values, r) => (inlineTable? values).map (·, r)
          | none => none
    | 't' :: _ => expectWord ['t', 'r', 'u', 'e'] (.boolean true) cs
    | 'f' :: _ => expectWord ['f', 'a', 'l', 's', 'e'] (.boolean false) cs
    | _ => scanNumber cs

def scanItems : Nat → Nat → List Char → Option (List Toml × List Char)
  | 0, _, _ => none
  | steps + 1, depth, cs =>
    match skipFill false cs with
    | none => none
    | some (']' :: rest) => some ([], rest)
    | some cs =>
      match scanValue steps depth cs with
      | none => none
      | some (v, rest) =>
        match skipFill false rest with
        | some (',' :: rest) => (scanItems steps depth rest).map fun (vs, r) => (v :: vs, r)
        | some (']' :: rest) => some ([v], rest)
        | _ => none

/-- The pairs of a table between braces that has at least one, up to the closing brace. -/
def scanPairs : Nat → Nat → List Char → Option (List KeyValue × List Char)
  | 0, _, _ => none
  | steps + 1, depth, cs =>
    match scanKey cs with
    | none => none
    | some (key, rest) =>
      match splitKey key, expectChar '=' rest with
      | some (path, name), some rest =>
        match scanValue steps depth (skipSpace rest) with
        | none => none
        | some (v, rest) =>
          match skipSpace rest with
          | ',' :: rest =>
            (scanPairs steps depth rest).map fun (ps, r) => ((path, name, v) :: ps, r)
          | '\x7d' :: rest => some ([(path, name, v)], rest)
          | _ => none
      | _, _ => none

end

inductive Line where
  | blank
  | value (v : KeyValue)
  | header (path : List String) (name : String) (isItem : Bool)

def scanHeader (isItem : Bool) (cs : List Char) : Option (Line × List Char) := do
  let (key, rest) ← scanKey cs
  let (path, name) ← splitKey key
  let rest ← expectChar ']' rest
  let rest ← if isItem then expectChar ']' rest else some rest
  return (.header path name isItem, ← endLine? rest)

def scanKeyValue (cs : List Char) : Option (Line × List Char) := do
  let (key, rest) ← scanKey cs
  let (path, name) ← splitKey key
  let rest ← expectChar '=' rest
  let (v, rest) ← scanValue (2 * rest.length + 2) maxDepth (skipSpace rest)
  return (.value (path, name, v), ← endLine? rest)

def scanLine (cs : List Char) : Option (Line × List Char) :=
  match cs with
  | '#' :: _ => (endLine? cs).map (.blank, ·)
  | '\n' :: _ => (endLine? cs).map (.blank, ·)
  | '\r' :: _ => (endLine? cs).map (.blank, ·)
  | '[' :: '[' :: rest => scanHeader true rest
  | '[' :: rest => scanHeader false rest
  | _ => scanKeyValue cs

def scanLines : Nat → List Char → Option (List Line)
  | 0, _ => none
  | steps + 1, cs =>
    match skipSpace cs with
    | [] => some []
    | cs =>
      match scanLine cs with
      | none => none
      | some (line, rest) => (scanLines steps rest).map (line :: ·)

def sectionsOf : List Line → List KeyValue × List Draft.Section
  | [] => ([], [])
  | .blank :: rest => sectionsOf rest
  | .value v :: rest =>
    let (top, ss) := sectionsOf rest
    (v :: top, ss)
  | .header path name isItem :: rest =>
    let (below, ss) := sectionsOf rest
    ([], ⟨path, name, isItem, below⟩ :: ss)

/-- A mark of the byte order at the start of a file does not count. -/
def dropByteOrderMark : List Char → List Char
  | '\ufeff' :: rest => rest
  | cs => cs

def read (s : String) : Option (List (String × Toml)) := do
  let cs := dropByteOrderMark s.toList
  let (top, sections) := sectionsOf (← scanLines (cs.length + 1) cs)
  let es ← Draft.addValues top []
  let es ← sections.foldlM Draft.addSection es
  return Draft.fieldsOf es

end QuoteDesk.Toml
