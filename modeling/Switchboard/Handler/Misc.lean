import Std.Data.ExtTreeSet
import Switchboard.Crc32
import Switchboard.Surroundings
import Switchboard.Text.Blank
import Switchboard.Text.Cut
import Switchboard.Text.Utf8
import Switchboard.Token

/-!
# Small utilities

A handler that needs nothing but its surroundings: the time of day, a checksum, distinct random
words, and an echo.
-/

namespace Switchboard.Misc

open Text

/-- The token for a date and time of day. -/
def timeText (d : DateTime) : String :=
  "[1,[" ++ ",".intercalate
    ([d.year, d.month, d.day, d.hour, d.minute, d.second].map toString) ++ "]]"

/-- An error token as an answer. -/
def refuse (reason : String) : Outcome :=
  .reply (Token.error reason).render

/-! ## Time of day -/

/-- The largest number of hours by which the time can be shifted. -/
def maxShift : Nat := 24

/-- The local time, some hours ahead of now. -/
def localTime (clock : Clock) (hours : Int) : DateTime :=
  let t := clock.now + hours * 3600
  .ofSeconds (t + clock.zone t)

/-- Answers with the local time, shifted by the given number of hours. The least signed word has
no absolute value among the signed words, so the handler breaks off on it. -/
def time (clock : Clock) (shift : Option String) : Outcome :=
  match shift.map trim with
  | none => .reply (timeText (localTime clock 0))
  | some text =>
    if text = "" then .reply (timeText (localTime clock 0))
    else
      match signedWord? text with
      | none => refuse "Invalid Offset"
      | some hours =>
        if hours = -(signedBound : Int) then .panic
        else if hours.natAbs ≤ maxShift then .reply (timeText (localTime clock hours))
        else refuse "Invalid Offset"

/-! ## Random words -/

/-- The largest number of words in one answer. -/
def maxWords : Nat := 1000

/-- The greatest length of a word. -/
def maxLength : Nat := 256

/-- A character of the alphabet by its place: capitals, small letters, digits. -/
def letter (n : Fin alphabetSize) : Char :=
  if n.1 < 26 then .ofNat ('A'.toNat + n.1)
  else if n.1 < 52 then .ofNat ('a'.toNat + (n.1 - 26))
  else .ofNat ('0'.toNat + (n.1 - 52))

/-- The text of a word. -/
def spell {length : Nat} (word : Word length) : String :=
  .ofList (word.toList.map letter)

/-- The word of a length that has this place in counting order, the first character counting
fastest. -/
def nthWord (length n : Nat) : Word length :=
  .ofFn fun i => ⟨n / Nat.pow alphabetSize i.1 % alphabetSize, Nat.mod_lt _ (by decide)⟩

/-- Where the drawing of different words stands. -/
structure Drawing where
  /-- The words that have come up. -/
  seen : Std.ExtTreeSet String
  /-- The words to answer with, each from when it came up first. -/
  kept : List String

namespace Drawing

/-- Before the first word is drawn. -/
def start : Drawing where
  seen := ∅
  kept := []

/-- One turn: a word that comes up for the first time is kept. -/
def turn (candidate : String) (d : Drawing) : Drawing :=
  if candidate ∈ d.seen then d
  else { seen := d.seen.insert candidate, kept := d.kept ++ [candidate] }

/-- Draws these words in turn, for as long as some are missing. -/
def draw (count : Nat) : List String → Drawing → Drawing
  | [], d => d
  | candidate :: rest, d =>
    if d.kept.length < count then (d.turn candidate).draw count rest else d

end Drawing

/-- The first `count` different words among those drawn. Should the draws not suffice, words in
counting order follow them, so that every possible number of words is reached. -/
def distinctWords (count length : Nat) (drawn : List (Word length)) : List String :=
  (Drawing.start.draw count
    ((drawn ++ (List.range count).map (nthWord length)).map spell)).kept

/-- A power, if it fits a 64-bit word. -/
def wordPower? (base exponent : Nat) : Option Nat :=
  (some (base.pow exponent)).filter (· < wordBound)

/-- The number and the length of the words asked for, or why there are none. There are more words
than anybody asks for when their number does not fit a word. -/
def wordRequest (args : String) : Except String (Nat × Nat) :=
  match cut? ':' args with
  | none => .error "Invalid Format"
  | some (count, length) =>
    match unsigned? wordBound (trim count), unsigned? wordBound (trim length) with
    | some count, some length =>
      if count = 0 ∨ maxWords < count ∨ length = 0 ∨ maxLength < length then
        .error "Invalid Range"
      else if (wordPower? alphabetSize length).any (· < count) then .error "Invalid Range"
      else .ok (count, length)
    | _, _ => .error "Invalid Format"

/-- The token for a list of words. -/
def wordsText (words : List String) : String :=
  "[1,[" ++ ",".intercalate (words.map Quoted.quote) ++ "]]"

/-- Answers with distinct random words. -/
def randomWords (draw : (length : Nat) → List (Word length)) (args : String) : Outcome :=
  match wordRequest args with
  | .error reason => refuse reason
  | .ok (count, length) =>
    .reply (wordsText (distinctWords count length (draw length)))

/-! ## Requests -/

/-- The checksum of a text as a token. -/
def checksumText (text : String) : String :=
  (Token.okText (toString (Crc32.ofBytes (Utf8.encode text)).toNat)).render

/-- Answers a request: a name, and after a colon what it is asked about. -/
def execute (w : Surroundings) (request : String) : Outcome :=
  match cut? ':' request with
  | none =>
    if request = "TIME" then time w.clock none
    else if request = "UTC_TIME" then .reply (timeText (.ofSeconds w.clock.now))
    else refuse "Unknown MISC Command"
  | some (name, args) =>
    if name = "TIME" then time w.clock (some args)
    else if name = "CRC32" then .reply (checksumText args)
    else if name = "RANDOM_UNIQUE_STRING" then randomWords w.words args
    else if name = "TEST" then .reply args
    else refuse "Unknown MISC Command"

end Switchboard.Misc
