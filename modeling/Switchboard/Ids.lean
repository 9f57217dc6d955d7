import Switchboard.Command

/-!
# Free request ids

The ids of a range that are not in use, kept as half-open intervals in ascending order with at
least one used id between neighbours. Taking an id takes the lowest; giving one back joins it to
the intervals it touches. Ids outside the range and ids that are free already are given back
without effect.
-/

namespace Switchboard

/-- The ids from `start` up to, not including, `stop`. -/
structure Interval where
  start : RequestId
  /-- First id after the interval. -/
  stop : RequestId
  deriving DecidableEq, Repr

/-- Whether an id lies in an interval. -/
def Interval.holds (iv : Interval) (id : RequestId) : Bool :=
  iv.start ≤ id && id < iv.stop

/-- A range of ids with those of them that are free. -/
structure FreeIds where
  /-- All ids that are ever issued. -/
  range : Interval
  /-- The free ids, lowest first. -/
  intervals : List Interval
  deriving DecidableEq, Repr

namespace FreeIds

/-- All ids of a range, which must not be empty and must not hold 0. -/
def ofRange (first last : UInt64) : Except CallFault FreeIds :=
  if first = 0 ∨ last ≤ first then .error (.invalidIdRange first last)
  else .ok ⟨⟨first, last⟩, [⟨first, last⟩]⟩

/-- The largest distance by which a random start is moved. -/
def maxOffset : UInt64 := 1000000

/-- The number of offsets to choose from: at most half of the range is given up. -/
def offsetBound (first last : UInt64) : UInt64 :=
  min maxOffset ((last - first) / 2)

/-- A random number as an offset to the start of the range. -/
def offset (first last draw : UInt64) : UInt64 :=
  if offsetBound first last = 0 then 0 else draw % offsetBound first last

/-- The ids of a range whose start is moved up by a random offset. -/
def ofRandomized (first last draw : UInt64) : Except CallFault FreeIds :=
  if first = 0 ∨ last ≤ first then .error (.invalidIdRange first last)
  else ofRange (first + offset first last draw) last

/-- Takes the lowest free id. -/
def allocate (ids : FreeIds) : Option (RequestId × FreeIds) :=
  match ids.intervals with
  | [] => none
  | iv :: rest =>
    some (iv.start, { ids with
      intervals := if iv.start + 1 < iv.stop then ⟨iv.start + 1, iv.stop⟩ :: rest else rest })

/-- Adds an id to ascending intervals, joining it to the neighbours it touches. -/
def insert (id : RequestId) : List Interval → List Interval
  | [] => [⟨id, id + 1⟩]
  | iv :: rest =>
    -- before the interval, apart from it or touching it
    if id + 1 < iv.start then ⟨id, id + 1⟩ :: iv :: rest
    else if id + 1 = iv.start then ⟨id, iv.stop⟩ :: rest
    -- within it: the id is free already
    else if id < iv.stop then iv :: rest
    -- right behind it, where it may close the gap to the next one
    else if id = iv.stop then
      match rest with
      | next :: rest =>
        if id + 1 = next.start then ⟨iv.start, next.stop⟩ :: rest
        else ⟨iv.start, id + 1⟩ :: next :: rest
      | [] => [⟨iv.start, id + 1⟩]
    else iv :: insert id rest

/-- Gives an id back. -/
def free (id : RequestId) (ids : FreeIds) : FreeIds :=
  if ids.range.holds id then { ids with intervals := insert id ids.intervals } else ids

/-- The number of free ids. -/
def count (ids : FreeIds) : UInt64 :=
  ids.intervals.foldr (fun iv n => iv.stop - iv.start + n) 0

end FreeIds

end Switchboard
