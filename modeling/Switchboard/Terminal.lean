import Switchboard.Exchange.Call
import Switchboard.Settings.Loading
import Switchboard.Terminal.Arguments

/-!
# Terminal sessions

A stand-in for the host: lines of input are trimmed and, unless they are empty, carried out as host
calls, each of which prints its reply as one line. `quit` or `exit` ends the session.
-/

namespace Switchboard.Terminal

/-- How the program is used. -/
def usage : String :=
  "Run the rconext extension from stdin\n" ++
  "\n" ++
  "Usage: rconext-console [OPTIONS]\n" ++
  "\n" ++
  "Options:\n" ++
  "      --test                 Deterministic request ids, starting at 1\n" ++
  "  -c, --config <CONFIG>      Configuration file (defaults to " ++
    "RCONEXT_CONFIG or rconext.toml)\n" ++
  "      --capacity <CAPACITY>  Output buffer size in bytes; " ++
    "must leave room for a [2,\"id\"] token [default: 10240]\n" ++
  "  -h, --help                 Print help\n" ++
  "  -V, --version              Print version\n"

/-- Which version is running. -/
def versionLine : String :=
  "rconext-console " ++ Exchange.version ++ "\n"

/-- How a session ends. -/
inductive Ending where
  | done
  | failed
  | misused
  | aborted
  deriving DecidableEq, Repr

/-- The exit code of an ending. -/
def Ending.code : Ending → UInt32
  | done => 0
  | failed => 1
  | misused => 2
  | aborted => 101

/-- How a session ends whose exchange is not opened. -/
def Ending.ofOpeningFault : Exchange.OpeningFault → Ending
  | .refused _ => failed
  | .tooManyWorkers => aborted

/-! ## Opening -/

/-- The file of settings of a session. -/
def Options.path (env : Settings.Environment) (o : Options) : String :=
  o.config.getD (Settings.path env)

/-- Opens the exchange of a session with loaded settings. -/
def Options.launch (processors : Nat) (draw : UInt64) (s : Settings) (o : Options) :
    Except Exchange.OpeningFault Exchange :=
  Exchange.launch { s with testMode := s.testMode || o.testMode } processors draw

/-! ## Lines -/

/-- The lines of an input. The last one need not end with a newline. -/
def splitLines (input : List UInt8) : List (List UInt8) :=
  match input with
  | [] => []
  | b :: bs =>
    if b = 0x0A then [] :: splitLines bs
    else
      match splitLines bs with
      | [] => [[b]]
      | line :: lines => (b :: line) :: lines

/-- A line holds no newline. -/
theorem newline_not_mem_of_mem_splitLines {input line : List UInt8} (h : line ∈ splitLines input) :
    0x0A ∉ line := by
  induction input generalizing line with
  | nil => cases h
  | cons b bs ih =>
    rw [splitLines] at h
    split at h
    · rcases List.mem_cons.1 h with rfl | h
      · exact List.not_mem_nil
      · exact ih h
    · next hb =>
      split at h
      · rw [List.mem_singleton.1 h]
        simpa using Ne.symm hb
      · next first rest hs =>
        rcases List.mem_cons.1 h with rfl | h
        · -- the byte in front is no newline, and the rest of the line is a line of the rest
          have hfirst : 0x0A ∉ first := ih (by rw [hs]; exact List.mem_cons_self)
          simpa using ⟨Ne.symm hb, hfirst⟩
        · exact ih (by rw [hs]; exact List.mem_cons_of_mem _ h)

/-- What a line of input means. -/
inductive Entry where
  | blank
  | leave
  | call (line : String)
  deriving DecidableEq, Repr

/-- What a text typed in means. -/
def Entry.ofText (text : String) : Entry :=
  let line := Text.trim text
  if line = "" then blank
  else if line = "quit" ∨ line = "exit" then leave
  else call line

/-- What a line of input means, if it is UTF-8. -/
def Entry.ofBytes? (bytes : List UInt8) : Option Entry :=
  (Text.Utf8.decode? bytes).map ofText

/-! ## Sessions -/

/-- What becomes of a line. -/
inductive Reaction where
  | silent
  | print (reply : String)
  | finish (ending : Ending)
  deriving DecidableEq, Repr

/-- Carries out a line of input. -/
def react (w : Surroundings) (capacity : Nat) (bytes : List UInt8) (x : Exchange) :
    Reaction × Exchange :=
  match Entry.ofBytes? bytes with
  | none => (.finish .failed, x)
  | some .blank => (.silent, x)
  | some .leave => (.finish .done, x)
  | some (.call line) =>
    match x.call w line capacity with
    | (.reply text, x) => (.print text, x)
    | (.panic, x) => (.finish .aborted, x)

/-- What a session printed, and how it ended. -/
structure Transcript where
  replies : List String
  ending : Ending
  deriving DecidableEq, Repr

/-- The output of a session: a line per reply. -/
def Transcript.output (t : Transcript) : String :=
  String.join (t.replies.map (· ++ "\n"))

/-- What a session meets from outside: the surroundings of its calls, and what the workers get
done after each line. -/
structure Course where
  /-- The surroundings while this many lines are still to come. -/
  surroundings : Nat → Surroundings
  /-- What the workers get done while this many lines are still to come. -/
  work : Nat → Exchange → Exchange

/-- Carries out lines of input one after the other. -/
def converse (c : Course) (capacity : Nat) : List (List UInt8) → Exchange → Transcript
  | [], _ => ⟨[], .done⟩
  | bytes :: rest, x =>
    match react (c.surroundings rest.length) capacity bytes x with
    | (.finish ending, _) => ⟨[], ending⟩
    | (.silent, x) => converse c capacity rest (c.work rest.length x)
    | (.print reply, x) =>
      let t := converse c capacity rest (c.work rest.length x)
      ⟨reply :: t.replies, t.ending⟩

end Switchboard.Terminal
