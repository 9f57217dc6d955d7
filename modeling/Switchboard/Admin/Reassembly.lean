import Std.Data.ExtTreeMap

/-!
# Answers in parts

Parts of answers, held by sequence number until all parts of an answer are there. Sequence numbers
come round after 256 commands, so an answer that stays incomplete is dropped after a while instead
of being mixed with a later one.

Times are milliseconds; the age of what lies in the future is 0.
-/

namespace Switchboard.Admin

/-- The parts of one answer so far. -/
structure PartialAnswer where
  total : UInt8
  parts : Std.ExtTreeMap UInt8 (List UInt8)
  /-- When the first part came. -/
  started : Nat

/-- The incomplete answers. -/
structure Reassembly where
  /-- How long an incomplete answer is held. -/
  ttl : Nat
  held : Std.ExtTreeMap UInt8 PartialAnswer

namespace Reassembly

/-- Nothing held. -/
def empty (ttl : Nat) : Reassembly :=
  ⟨ttl, ∅⟩

/-- Drops the answers that have been incomplete for too long. -/
def sweep (now : Nat) (r : Reassembly) : Reassembly :=
  { r with held := r.held.filter fun _ a => now - a.started < r.ttl }

/-- The answer that a part belongs to. A change of the number of parts starts afresh. -/
def answerFor (sequence total : UInt8) (now : Nat) (r : Reassembly) : PartialAnswer :=
  match r.held[sequence]? with
  | some a => if a.total = total then a else ⟨total, ∅, now⟩
  | none => ⟨total, ∅, now⟩

/-- The parts joined in order of their places. -/
def PartialAnswer.join (a : PartialAnswer) : List UInt8 :=
  a.parts.toList.flatMap (·.2)

/-- Adds a part; a part of the same place is replaced. When as many parts are there as the answer
has, it is handed out and no longer held. -/
def insert (sequence total index : UInt8) (data : List UInt8) (now : Nat) (r : Reassembly) :
    Option (List UInt8) × Reassembly :=
  let r := r.sweep now
  let a := r.answerFor sequence total now
  let a := { a with parts := a.parts.insert index data }
  if a.parts.size < total.toNat then (none, { r with held := r.held.insert sequence a })
  else (some (PartialAnswer.join a), { r with held := r.held.erase sequence })

end Reassembly

end Switchboard.Admin
