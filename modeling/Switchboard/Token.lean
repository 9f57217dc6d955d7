import Switchboard.Text.Quoted

/-!
# Reply tokens

What the host reads in place of a handler's output: an array literal whose first item says how the
call went. `Token.render` writes a token and `Token.read?` reads one. Texts in a token are quoted,
so that no text ends a token early.
-/

namespace Switchboard

/-- A reply in the form of an array literal. -/
inductive Token where
  | ok
  | failed
  | notReady
  | tooLarge
  | okText (text : String)
  | error (reason : String)
  | deferred (id : UInt64)
  deriving DecidableEq, Repr

namespace Token

/-- The array literal of a token. -/
def render : Token → String
  | ok => "[1]"
  | failed => "[0]"
  | notReady => "[3]"
  | tooLarge => "[5]"
  | okText text => "[1," ++ Text.Quoted.quote text ++ "]"
  | error reason => "[0," ++ Text.Quoted.quote reason ++ "]"
  | deferred id => "[2," ++ Text.Quoted.quote (toString id) ++ "]"

/-- The bytes of a `deferred` token besides the digits of its id. -/
def overhead : Nat := 6

/-- The text item of an array literal after its first item, if it ends the literal. -/
def readItem? (cs : List Char) : Option String :=
  match Text.Quoted.unquote? cs with
  | some (text, [']']) => some (.ofList text)
  | _ => none

/-- Reads an array literal as a token. -/
def readChars? : List Char → Option Token
  | ['[', '1', ']'] => some ok
  | ['[', '0', ']'] => some failed
  | ['[', '3', ']'] => some notReady
  | ['[', '5', ']'] => some tooLarge
  | '[' :: '1' :: ',' :: rest => (readItem? rest).map okText
  | '[' :: '0' :: ',' :: rest => (readItem? rest).map error
  | '[' :: '2' :: ',' :: rest => (readItem? rest).bind fun t => (Text.word? t).map deferred
  | _ => none

/-- Reads an array literal as a token. -/
def read? (s : String) : Option Token :=
  readChars? s.toList

end Token

end Switchboard
