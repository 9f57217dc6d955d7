import Switchboard.Toml.Quoted
import Switchboard.Toml.Scalar
import Switchboard.Toml.Tree

/-!
# TOML documents

Reading a whole document: values of all kinds, keys, and the lines that set keys and open tables.
Only acceptance and values matter, so a reader that fails says nothing about the reason.
-/

namespace Switchboard.Toml

open Text

/-- How deeply arrays and inline tables may be nested, and how many parts a key may have. -/
def nestingLimit : Nat := 79

/-! ## Keys -/

/-- Whether a character may stand in a key without quotes. -/
def isBareKeyChar (c : Char) : Bool :=
  c.isAlphanum || c == '-' || c == '_'

/-- Reads one part of a key. -/
def keyPart? (cs : List Char) : Option (String × List Char) :=
  match cs with
  | '"' :: _ => quotedLine? cs
  | '\x27' :: _ => quotedLine? cs
  | cs =>
    let bare := cs.takeWhile isBareKeyChar
    if bare.isEmpty then none else some (.ofList bare, cs.dropWhile isBareKeyChar)

/-- Reads a key whose parts are separated by full stops, with the blanks around it. -/
def keyParts? (limit : Nat) (cs : List Char) : Option (List String × List Char) :=
  match limit with
  | 0 => none
  | limit + 1 =>
    match keyPart? (skipSpace cs) with
    | none => none
    | some (part, rest) =>
      match skipSpace rest with
      | '.' :: rest => (keyParts? limit rest).map fun p => (part :: p.1, p.2)
      | rest => some ([part], rest)

/-- Reads a key as the way to its last part and that part. -/
def key? (cs : List Char) : Option ((List String × String) × List Char) := do
  let (parts, rest) ← keyParts? nestingLimit cs
  let last ← parts.getLast?
  some ((parts.dropLast, last), rest)

/-! ## Values -/

/-- Reads the items of an array up to its closing bracket. -/
def arrayItems? (value : Reader Value) (fuel : Nat) (cs : List Char) :
    Option (List Value × List Char) :=
  match fuel with
  | 0 => none
  | fuel + 1 => do
    match ← skipFiller? cs with
    | ']' :: rest => some ([], rest)
    | cs =>
      let (item, rest) ← value cs
      match ← skipFiller? rest with
      | ',' :: rest => (arrayItems? value fuel rest).map fun p => (item :: p.1, p.2)
      | ']' :: rest => some ([item], rest)
      | _ => none

/-- Reads a key, the equals sign and a value, with the blanks around them. -/
def keyValue? (value : Reader Value) (cs : List Char) :
    Option ((List String × String × Value) × List Char) := do
  let ((path, key), rest) ← key? cs
  let rest ← expect '=' rest
  let (v, rest) ← value (skipSpace rest)
  some ((path, key, v), rest)

/-- Reads the entries of an inline table up to its closing brace; the table must not be empty. -/
def inlineEntries? (value : Reader Value) (fuel : Nat) (t : Tree) (cs : List Char) :
    Option (Tree × List Char) :=
  match fuel with
  | 0 => none
  | fuel + 1 => do
    let ((path, key, v), rest) ← keyValue? value cs
    let t ← t.addValue path key v
    match skipSpace rest with
    | ',' :: rest => inlineEntries? value fuel t rest
    | '\x7d' :: rest => some (t, rest)
    | _ => none

/-- Reads an inline table after its opening brace. -/
def inlineTable? (value : Reader Value) (cs : List Char) : Option (Value × List Char) :=
  match skipSpace cs with
  | '\x7d' :: rest => some (.table [], rest)
  | cs => (inlineEntries? value (cs.length + 1) .root cs).map fun p =>
      (.table (Tree.entriesValue p.1.entries), p.2)

/-- Reads a value; arrays and inline tables may be nested `depth` deep. -/
def value? (depth : Nat) (cs : List Char) : Option (Value × List Char) :=
  match cs with
  | '"' :: _ => (quoted? cs).map fun p => (.string p.1, p.2)
  | '\x27' :: _ => (quoted? cs).map fun p => (.string p.1, p.2)
  | '[' :: rest =>
    match depth with
    | 0 => none
    | depth + 1 =>
      (arrayItems? (value? depth) (rest.length + 1) rest).map fun p => (.array p.1, p.2)
  | '\x7b' :: rest =>
    match depth with
    | 0 => none
    | depth + 1 => inlineTable? (value? depth) rest
  | cs => scalar? cs

/-! ## Lines -/

/-- A document being read: its tables, and the way to the one whose lines are being read. -/
structure Draft where
  tree : Tree
  way : List String

/-- Reads a header after its opening brackets. -/
def header? (closing : List Char) (cs : List Char) :
    Option ((List String × String) × List Char) := do
  let (name, rest) ← key? cs
  if closing.isPrefixOf rest then
    let rest ← restOfLine? (rest.drop closing.length)
    some (name, rest)
  else none

/-- Reads one line that is not blank. -/
def line? (d : Draft) (cs : List Char) : Option (Draft × List Char) :=
  match cs with
  | '#' :: _ => (restOfLine? cs).map fun rest => (d, rest)
  | '\n' :: rest => some (d, rest)
  | '\r' :: _ => (lineEnd? cs).map fun rest => (d, rest)
  | '[' :: '[' :: rest => do
    let ((path, key), rest) ← header? [']', ']'] rest
    let tree ← d.tree.openElement path key
    some (⟨tree, path ++ [key]⟩, rest)
  | '[' :: rest => do
    let ((path, key), rest) ← header? [']'] rest
    let tree ← d.tree.openTable path key
    some (⟨tree, path ++ [key]⟩, rest)
  | cs => do
    let ((path, key, v), rest) ← keyValue? (value? nestingLimit) cs
    let rest ← restOfLine? rest
    let tree ← d.tree.descend .implied (·.addValue path key v) d.way
    some ({ d with tree }, rest)

/-- Reads the lines of a document. -/
def lines? (fuel : Nat) (d : Draft) (cs : List Char) : Option Tree :=
  match skipSpace cs, fuel with
  | [], _ => some d.tree
  | _, 0 => none
  | cs, fuel + 1 => (line? d cs).bind fun p => lines? fuel p.1 p.2

/-- Drops a byte order mark. -/
def skipMark : List Char → List Char
  | '\uFEFF' :: cs => cs
  | cs => cs

/-- Reads a document as the entries of its table. -/
def parse? (text : String) : Option (List (String × Value)) :=
  let cs := skipMark text.toList
  (lines? (cs.length + 1) ⟨.root, []⟩ cs).map fun t => Tree.entriesValue t.entries

end Switchboard.Toml
