import Switchboard.Ids
import Std.Data.ExtTreeMap

/-!
# Stored results

Results that wait for the host, by request id. An entry is parked when its id is issued, completed
when its text is known, and erased when the host has collected it, which frees the id.

The free ids and the entries are guarded separately, so an operation that touches both has two
sections, between which others may act. The sections are definitions of their own (`issue` then
`park`; `withdraw`, `withdrawChunk` or `discard` then `release`), and the whole operations are
made of them.
-/

namespace Switchboard

/-- A stored result. -/
inductive StoredResult where
  /-- The id is issued and the text not known yet. -/
  | pending
  /-- The text that is still to be collected. -/
  | ready (text : String)
  deriving DecidableEq, Repr

/-- What the host gets when it collects. -/
inductive Fetch where
  /-- There is no entry, or its text has been collected to the end. -/
  | missing
  | notReady
  /-- The text does not fit; the entry stays. -/
  | tooLarge
  /-- The text, or its next piece. -/
  | data (text : String)
  deriving DecidableEq, Repr

/-- The free ids and the stored results. -/
structure ResultStore where
  ids : FreeIds
  entries : Std.ExtTreeMap RequestId StoredResult

/-- The longest prefix of at most `capacity` bytes, and what follows it. -/
def splitBytes (capacity : Nat) : List Char → List Char × List Char
  | [] => ([], [])
  | c :: cs =>
    if c.utf8Size ≤ capacity then
      let r := splitBytes (capacity - c.utf8Size) cs
      (c :: r.1, r.2)
    else ([], c :: cs)

/-- The next piece of a text: as many characters as fit, but at least one. -/
def splitPiece (capacity : Nat) (cs : List Char) : List Char × List Char :=
  match splitBytes capacity cs with
  | ([], c :: rest) => ([c], rest)
  | r => r

namespace ResultStore

/-- A store in which every id is free. -/
def ofIds (ids : FreeIds) : ResultStore :=
  ⟨ids, ∅⟩

/-! ## Sections -/

/-- First section of issuing an id: takes it from the free ids. -/
def issue (s : ResultStore) : Option (RequestId × ResultStore) :=
  s.ids.allocate.map fun r => (r.1, { s with ids := r.2 })

/-- Second section of issuing an id: parks an entry under it. -/
def park (id : RequestId) (entry : StoredResult) (s : ResultStore) : ResultStore :=
  { s with entries := s.entries.insert id entry }

/-- First section of collecting a whole text: erases the entry if its text fits. The flag says
whether it did, and with it whether the second section follows. -/
def withdraw (id : RequestId) (capacity : Nat) (s : ResultStore) : Fetch × Bool × ResultStore :=
  match s.entries[id]? with
  | none => (.missing, false, s)
  | some .pending => (.notReady, false, s)
  | some (.ready text) =>
    if capacity < text.utf8ByteSize then (.tooLarge, false, s)
    else (.data text, true, { s with entries := s.entries.erase id })

/-- First section of collecting a piece: shortens the text by the piece, or erases an entry whose
text has been collected to the end. -/
def withdrawChunk (id : RequestId) (capacity : Nat) (s : ResultStore) :
    Fetch × Bool × ResultStore :=
  match s.entries[id]? with
  | none => (.missing, false, s)
  | some .pending => (.notReady, false, s)
  | some (.ready text) =>
    -- the last piece left an empty text, and this call finds the end
    if text = "" then (.missing, true, { s with entries := s.entries.erase id })
    else
      let r := splitPiece capacity text.toList
      (.data (.ofList r.1), false,
        { s with entries := s.entries.insert id (.ready (.ofList r.2)) })

/-- First section of cancelling: erases the entry. -/
def discard (id : RequestId) (s : ResultStore) : Bool × ResultStore :=
  (s.entries.contains id, { s with entries := s.entries.erase id })

/-- Second section of collecting and cancelling: frees the id. -/
def release (id : RequestId) (s : ResultStore) : ResultStore :=
  { s with ids := s.ids.free id }

/-! ## Operations -/

/-- Issues an id for a result whose text is not known yet. -/
def reserve (s : ResultStore) : Except CallFault RequestId × ResultStore :=
  match s.issue with
  | none => (.error .idSpaceExhausted, s)
  | some (id, s) => (.ok id, s.park id .pending)

/-- Issues an id for a result that is there. -/
def storeReady (text : String) (s : ResultStore) : Except CallFault RequestId × ResultStore :=
  match s.issue with
  | none => (.error .idSpaceExhausted, s)
  | some (id, s) => (.ok id, s.park id (.ready text))

/-- Publishes the text of an issued id; without an entry nothing happens. A second publication
overwrites the first. -/
def complete (id : RequestId) (text : String) (s : ResultStore) : ResultStore :=
  if s.entries.contains id then { s with entries := s.entries.insert id (.ready text) } else s

/-- Takes back an issued id whose work was never accepted. -/
def cancel (id : RequestId) (s : ResultStore) : ResultStore :=
  match s.discard id with
  | (true, s) => s.release id
  | (false, s) => s

/-- Collects a whole text, if it fits. -/
def take (id : RequestId) (capacity : Nat) (s : ResultStore) : Fetch × ResultStore :=
  match s.withdraw id capacity with
  | (fetch, true, s) => (fetch, s.release id)
  | (fetch, false, s) => (fetch, s)

/-- Collects the next piece of a text. -/
def takeChunk (id : RequestId) (capacity : Nat) (s : ResultStore) : Fetch × ResultStore :=
  match s.withdrawChunk id capacity with
  | (fetch, true, s) => (fetch, s.release id)
  | (fetch, false, s) => (fetch, s)

end ResultStore

end Switchboard
