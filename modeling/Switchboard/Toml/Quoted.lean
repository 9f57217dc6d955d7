import Switchboard.Text.Numeral

/-!
# TOML texts and blanks

Quoted texts in their four forms, and what may stand between values: blanks, comments and ends of
lines. A line ends with a line feed or with a carriage return and a line feed; within a text of
several lines both are read as a line feed.
-/

namespace Switchboard.Toml

open Text

/-- A reader takes something from the front of a text and leaves the rest. -/
abbrev Reader (α : Type) := List Char → Option (α × List Char)

/-- Whether a character separates words within a line. -/
def isSpace (c : Char) : Bool :=
  c == ' ' || c == '\t'

/-- Drops the blanks at the front. -/
def skipSpace (cs : List Char) : List Char :=
  cs.dropWhile isSpace

/-- Drops the end of a line. -/
def lineEnd? : List Char → Option (List Char)
  | '\n' :: cs => some cs
  | '\r' :: '\n' :: cs => some cs
  | _ => none

/-- Whether a character may stand in a comment, or in a text in which nothing is escaped. -/
def isPlain (c : Char) : Bool :=
  c == '\t' || (0x20 ≤ c.toNat && c.toNat != 0x7F)

/-- Drops a comment, if there is one. -/
def skipComment (cs : List Char) : List Char :=
  match cs with
  | '#' :: cs => cs.dropWhile isPlain
  | cs => cs

/-- Drops blanks and a comment up to the end of the line or of the document. -/
def restOfLine? (cs : List Char) : Option (List Char) :=
  match skipComment (skipSpace cs) with
  | [] => some []
  | cs => lineEnd? cs

/-- Drops blanks, comments and ends of lines; `none` where something else interrupts them. -/
def skipLines? (fuel : Nat) (cs : List Char) : Option (List Char) :=
  match fuel with
  | 0 => some cs
  | fuel + 1 =>
    match skipSpace cs with
    | '#' :: rest => (lineEnd? (skipComment ('#' :: rest))).bind (skipLines? fuel)
    | '\n' :: rest => skipLines? fuel rest
    | '\r' :: rest => (lineEnd? ('\r' :: rest)).bind (skipLines? fuel)
    | rest => some rest

/-- Drops everything between two values of an array. -/
def skipFiller? (cs : List Char) : Option (List Char) :=
  skipLines? (cs.length + 1) cs

/-- The character that a one-letter escape stands for. -/
def shortEscape? : Char → Option Char
  | 'b' => some '\x08'
  | 't' => some '\t'
  | 'n' => some '\n'
  | 'f' => some '\x0c'
  | 'r' => some '\r'
  | '"' => some '"'
  | '\\' => some '\\'
  | _ => none

/-- Reads the hexadecimal number of a character, of exactly `width` digits. -/
def codePoint? (width : Nat) (cs : List Char) : Option (Char × List Char) :=
  if (cs.take width).length = width then
    ((digits? 16 (cs.take width)).filter (·.isValidChar)).map fun n => (.ofNat n, cs.drop width)
  else none

/-- Reads what follows a backslash. -/
def escape? : Reader Char
  | 'u' :: cs => codePoint? 4 cs
  | 'U' :: cs => codePoint? 8 cs
  | e :: cs => (shortEscape? e).map fun c => (c, cs)
  | [] => none

/-- Reads a text on one line after its opening quote, escapes included. -/
def basicText? (fuel : Nat) (cs : List Char) : Option (List Char × List Char) :=
  match fuel with
  | 0 => none
  | fuel + 1 =>
    match cs with
    | '"' :: rest => some ([], rest)
    | '\\' :: rest => do
      let (c, rest) ← escape? rest
      let (text, rest) ← basicText? fuel rest
      some (c :: text, rest)
    | c :: rest =>
      if isPlain c then (basicText? fuel rest).map fun p => (c :: p.1, p.2) else none
    | [] => none

/-- Reads a text on one line after its opening apostrophe, without escapes. -/
def literalText? (cs : List Char) : Option (List Char × List Char) :=
  match cs.dropWhile (fun c => isPlain c && c != '\x27') with
  | '\x27' :: rest => some (cs.takeWhile (fun c => isPlain c && c != '\x27'), rest)
  | _ => none

/-- Drops the blanks and ends of lines after a backslash at the end of a line. -/
def skipFold? (cs : List Char) : Option (List Char) :=
  (lineEnd? (skipSpace cs)).map fun cs => skipBlankLines cs.length cs
where
  /-- Drops blanks and ends of lines. -/
  skipBlankLines : Nat → List Char → List Char
    | 0, cs => cs
    | fuel + 1, cs =>
      match lineEnd? (skipSpace cs) with
      | some rest => skipBlankLines fuel rest
      | none => skipSpace cs

/-- Reads a text of several lines after its three opening delimiters. Up to two delimiters may
stand in front of the three that close it. -/
def multilineText? (delimiter : Char) (escapes : Bool) (fuel : Nat) (cs : List Char) :
    Option (List Char × List Char) :=
  match fuel with
  | 0 => none
  | fuel + 1 =>
    match cs with
    | [] => none
    | c :: rest =>
      if c = delimiter then
        let run := (cs.takeWhile (· == delimiter)).length
        if run < 3 then
          (multilineText? delimiter escapes fuel (cs.drop run)).map fun p =>
            (List.replicate run delimiter ++ p.1, p.2)
        else
          let inner := min run 5 - 3
          some (List.replicate inner delimiter, cs.drop (inner + 3))
      else if escapes ∧ c = '\\' then
        match skipFold? rest with
        | some rest => multilineText? delimiter escapes fuel rest
        | none => do
          let (d, rest) ← escape? rest
          let (text, rest) ← multilineText? delimiter escapes fuel rest
          some (d :: text, rest)
      else if isPlain c then
        (multilineText? delimiter escapes fuel rest).map fun p => (c :: p.1, p.2)
      else
        match lineEnd? cs with
        | some rest => (multilineText? delimiter escapes fuel rest).map fun p => ('\n' :: p.1, p.2)
        | none => none

/-- Drops the end of a line right after the opening delimiters of a text of several lines. -/
def skipFirstLineEnd (cs : List Char) : List Char :=
  (lineEnd? cs).getD cs

/-- Reads a quoted text on one line. -/
def quotedLine? : Reader String
  | '"' :: cs => (basicText? (cs.length + 1) cs).map fun p => (.ofList p.1, p.2)
  | '\x27' :: cs => (literalText? cs).map fun p => (.ofList p.1, p.2)
  | _ => none

/-- Reads a quoted text in any form. -/
def quoted? (cs : List Char) : Option (String × List Char) :=
  match cs with
  | '"' :: '"' :: '"' :: cs =>
    (multilineText? '"' true (cs.length + 1) (skipFirstLineEnd cs)).map fun p => (.ofList p.1, p.2)
  | '\x27' :: '\x27' :: '\x27' :: cs =>
    (multilineText? '\x27' false (cs.length + 1) (skipFirstLineEnd cs)).map fun p =>
      (.ofList p.1, p.2)
  | cs => quotedLine? cs

end Switchboard.Toml
