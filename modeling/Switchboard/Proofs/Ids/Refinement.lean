import Switchboard.Proofs.Ids.Canonical
import Switchboard.Results

/-!
# Free ids as a set

What a run of issuing and giving back does to the free ids, compared with what it does to a plain
set of numbers (`IdSet`). Issuing takes the least number of the set, giving back adds a number of
the range. The intervals follow the set step by step (`represents_step`), hence along every run
(`represents_run`), and because a set has one canonical list of intervals, they depend on nothing
but the set.
-/

namespace Switchboard

namespace FreeIds

/-- The free ids, by number. -/
def toFinset (ids : FreeIds) : Finset Nat :=
  idsOf ids.intervals

/-- Whether the free ids are kept in canonical form. -/
def WellFormed (ids : FreeIds) : Prop :=
  Canonical ids.range ids.intervals

/-! ## What each operation does to the set -/

theorem toFinset_subset {ids : FreeIds} (h : ids.WellFormed) :
    ids.toFinset ⊆ ids.range.toFinset :=
  h.idsOf_subset

/-- A usable range has all its ids free at first. -/
theorem ofRange_eq_ok {first last : UInt64} (hfirst : 1 ≤ first) (hlast : first < last) :
    ofRange first last = .ok ⟨⟨first, last⟩, [⟨first, last⟩]⟩ := by
  rw [ofRange, if_neg]
  rw [UInt64.le_iff_toNat_le] at hfirst
  rw [UInt64.lt_iff_toNat_lt] at hlast
  rw [← UInt64.toNat_inj, UInt64.le_iff_toNat_le]
  have hone : (1 : UInt64).toNat = 1 := rfl
  have hzero : (0 : UInt64).toNat = 0 := rfl
  omega

theorem wellFormed_of_ofRange {first last : UInt64} {ids : FreeIds}
    (h : ofRange first last = .ok ids) :
    ids.WellFormed ∧ ids.toFinset = ids.range.toFinset := by
  unfold ofRange at h
  split at h
  · cases h
  · next hrange =>
    cases h
    rw [not_or, UInt64.not_le, UInt64.lt_iff_toNat_lt] at hrange
    refine ⟨.cons hrange.2 ⟨Nat.le_refl _, Nat.le_refl _⟩ (by simp) (.nil _), ?_⟩
    exact Finset.union_empty _

theorem allocate_eq_none_iff {ids : FreeIds} (h : ids.WellFormed) :
    ids.allocate = none ↔ ids.toFinset = ∅ := by
  obtain ⟨range, ivs⟩ := ids
  cases ivs with
  | nil => simp [allocate, toFinset]
  | cons iv rest =>
    refine ⟨fun hnone => by simp [allocate] at hnone, fun hempty => ?_⟩
    have hmem : iv.start.toNat ∈ idsOf (iv :: rest) := h.start_mem
    rw [show idsOf (iv :: rest) = ∅ from hempty] at hmem
    exact absurd hmem (Finset.notMem_empty _)

/-- **Issuing takes the least free id.** -/
theorem allocate_spec {ids left : FreeIds} {id : RequestId} (h : ids.WellFormed)
    (ha : ids.allocate = some (id, left)) :
    left.range = ids.range ∧ left.WellFormed ∧ id.toNat ∈ ids.toFinset ∧
      (∀ n ∈ ids.toFinset, id.toNat ≤ n) ∧ left.toFinset = ids.toFinset.erase id.toNat := by
  obtain ⟨range, ivs⟩ := ids
  cases ivs with
  | nil => simp [allocate] at ha
  | cons iv rest =>
    have heq : iv.start = id ∧ (⟨range, dropLowest (iv :: rest)⟩ : FreeIds) = left := by
      simpa [allocate, dropLowest] using ha
    obtain ⟨rfl, rfl⟩ := heq
    exact ⟨rfl, canonical_dropLowest h, h.start_mem, fun n => h.start_le, idsOf_dropLowest h⟩

/-- **Giving back adds an id of the range, and nothing else.** -/
theorem free_spec {ids : FreeIds} (h : ids.WellFormed) (id : RequestId) :
    (ids.free id).range = ids.range ∧ (ids.free id).WellFormed ∧
      (ids.free id).toFinset =
        if id.toNat ∈ ids.range.toFinset then Insert.insert id.toNat ids.toFinset
        else ids.toFinset := by
  unfold free
  split
  · next hin =>
    rw [Interval.holds_iff] at hin
    have hbounds := Interval.mem_toFinset.1 hin
    rw [if_pos hin]
    exact ⟨rfl, canonical_insert h hbounds, idsOf_insert h hbounds⟩
  · next hout =>
    rw [Interval.holds_iff] at hout
    rw [if_neg hout]
    exact ⟨rfl, h, rfl⟩

/-- Giving back the id that was just issued restores the intervals. -/
theorem free_allocate {ids left : FreeIds} {id : RequestId} (h : ids.WellFormed)
    (ha : ids.allocate = some (id, left)) : left.free id = ids := by
  obtain ⟨hrange, hleft, hmem, -, hset⟩ := allocate_spec h ha
  obtain ⟨hrange', hfreed, hset'⟩ := free_spec hleft id
  have hin : id.toNat ∈ left.range.toFinset := hrange ▸ toFinset_subset h hmem
  have hsame : (left.free id).toFinset = ids.toFinset := by
    rw [hset', if_pos hin, hset, Finset.insert_erase hmem]
  -- intervals in canonical form are determined by the ids in them
  have hcanonical : Canonical (left.free id).range ids.intervals := (hrange'.trans hrange) ▸ h
  have hintervals : (left.free id).intervals = ids.intervals := hfreed.unique hcanonical hsame
  calc left.free id = ⟨(left.free id).range, (left.free id).intervals⟩ := rfl
    _ = ids := by rw [hrange', hrange, hintervals]

end FreeIds

/-! ## Runs -/

/-- What is done with the free ids. -/
inductive IdEvent where
  /-- An id is issued, if there is one. -/
  | allocate
  /-- An id is given back; it need not have been issued. -/
  | free (id : RequestId)
  deriving DecidableEq, Repr

/-- One step of the free ids. -/
def FreeIds.step (ids : FreeIds) : IdEvent → FreeIds
  | .allocate => (ids.allocate.map (·.2)).getD ids
  | .free id => ids.free id

/-- A run of the free ids. -/
def FreeIds.run (ids : FreeIds) (events : List IdEvent) : FreeIds :=
  events.foldl step ids

namespace IdSet

/-- One step of a set of numbers: the least is taken, or a number of the range is added. -/
def step (range : Interval) (S : Finset Nat) : IdEvent → Finset Nat
  | .allocate => if h : S.Nonempty then S.erase (S.min' h) else S
  | .free id => if id.toNat ∈ range.toFinset then insert id.toNat S else S

/-- A run of a set that starts with the whole range. -/
def run (range : Interval) (events : List IdEvent) : Finset Nat :=
  events.foldl (step range) range.toFinset

/-- The numbers of the range that a run has issued and not taken back. -/
def outstanding (range : Interval) (events : List IdEvent) : Finset Nat :=
  range.toFinset \ run range events

end IdSet

namespace FreeIds

/-- Whether free ids in canonical form stand for a set of numbers of a range. -/
structure Represents (ids : FreeIds) (range : Interval) (S : Finset Nat) : Prop where
  range_eq : ids.range = range
  wellFormed : ids.WellFormed
  toFinset_eq : ids.toFinset = S

variable {ids : FreeIds} {range : Interval} {S : Finset Nat}

/-- The id that is issued is the least number of the set. -/
theorem Represents.allocate_eq_some (h : ids.Represents range S) (hS : S.Nonempty) :
    ∃ id left, ids.allocate = some (id, left) ∧ id.toNat = S.min' hS ∧
      left.Represents range (S.erase (S.min' hS)) := by
  obtain ⟨rfl, hwf, rfl⟩ := h
  cases ha : ids.allocate with
  | none => exact absurd ((allocate_eq_none_iff hwf).1 ha) hS.ne_empty
  | some r =>
    obtain ⟨hrange, hleft, hmem, hleast, hset⟩ := allocate_spec hwf ha
    have hmin : r.1.toNat = ids.toFinset.min' hS :=
      Nat.le_antisymm (hleast _ (Finset.min'_mem _ hS)) (Finset.min'_le _ _ hmem)
    exact ⟨r.1, r.2, rfl, hmin, hrange, hleft, hmin ▸ hset⟩

/-- **One step keeps the intervals and the set together.** -/
theorem represents_step (h : ids.Represents range S) (event : IdEvent) :
    (ids.step event).Represents range (IdSet.step range S event) := by
  cases event with
  | allocate =>
    rw [IdSet.step, step]
    split
    · next hS =>
      obtain ⟨id, left, ha, -, hleft⟩ := h.allocate_eq_some hS
      rw [ha]
      exact hleft
    · next hS =>
      have hempty : ids.toFinset = ∅ := h.toFinset_eq.trans (Finset.not_nonempty_iff_eq_empty.1 hS)
      rw [(allocate_eq_none_iff h.wellFormed).2 hempty]
      exact h
  | free id =>
    obtain ⟨rfl, hwf, rfl⟩ := h
    obtain ⟨hrange, hfree, hset⟩ := free_spec hwf id
    exact ⟨hrange, hfree, hset⟩

/-- A run keeps the intervals and the set together: induction on the run. -/
theorem represents_foldl (h : ids.Represents range S) (events : List IdEvent) :
    (ids.run events).Represents range (events.foldl (IdSet.step range) S) := by
  induction events generalizing ids S with
  | nil => exact h
  | cons event events ih => exact ih (represents_step h event)

theorem represents_run (h : ids.Represents range range.toFinset) (events : List IdEvent) :
    (ids.run events).Represents range (IdSet.run range events) :=
  represents_foldl h events

/-- The set of a run stays within the range. -/
theorem Represents.subset (h : ids.Represents range S) : S ⊆ range.toFinset := by
  obtain ⟨rfl, hwf, rfl⟩ := h
  exact toFinset_subset hwf

/-- Free ids that stand for the same set are the same intervals. -/
theorem Represents.intervals_eq {ids' : FreeIds} (h : ids.Represents range S)
    (h' : ids'.Represents range S) : ids.intervals = ids'.intervals := by
  obtain ⟨rfl, hwf, rfl⟩ := h
  obtain ⟨hrange, hwf', hset⟩ := h'
  exact Canonical.unique hwf (hrange ▸ hwf') hset.symm

/-! ## Words that do not wrap -/

/-- Whether no sum and no difference of words that the operations form wraps: the id after an
issued one, the id after one that is given back, and the widths of the intervals with their sum. -/
structure Exact (ids : FreeIds) : Prop where
  succ_issued : ∀ iv ∈ ids.intervals, iv.start.toNat + 1 < UInt64.size
  succ_returned : ∀ id, ids.range.holds id = true → id.toNat + 1 < UInt64.size
  width : ∀ iv ∈ ids.intervals, iv.start.toNat ≤ iv.stop.toNat
  total : (ids.intervals.map fun iv => iv.stop.toNat - iv.start.toNat).sum < UInt64.size

theorem WellFormed.exact (h : ids.WellFormed) : ids.Exact where
  succ_issued := by
    intro iv hmem
    have := h.nonempty iv hmem
    have := iv.stop.toNat_lt_size
    omega
  succ_returned := by
    intro id hid
    have := (Interval.mem_toFinset.1 (Interval.holds_iff.1 hid)).2
    have := ids.range.stop.toNat_lt_size
    omega
  width := fun iv hmem => Nat.le_of_lt (h.nonempty iv hmem)
  total := by
    have hsum := sum_card_eq_card h
    simp only [card_toFinset] at hsum
    rw [hsum]
    exact card_lt_size h

/-! ## The theorem -/

/-- **Free ids are a set of numbers.** Over a usable range, after any run: the intervals are the one
canonical form of the set that the run leaves; issuing takes the least number of the set and fails,
changing nothing, exactly when it is empty; the count is the size of the set; no word wraps; and
runs that leave the same ids outstanding leave the same intervals. -/
theorem intervals_follow_free_set {first last : UInt64} (hfirst : 1 ≤ first)
    (hlast : first < last) :
    ∃ ids, ofRange first last = .ok ids ∧ ∀ events : List IdEvent,
      (Canonical ⟨first, last⟩ (ids.run events).intervals ∧
        idsOf (ids.run events).intervals = IdSet.run ⟨first, last⟩ events ∧
        ∀ ivs, Canonical ⟨first, last⟩ ivs → idsOf ivs = IdSet.run ⟨first, last⟩ events →
          ivs = (ids.run events).intervals) ∧
      (∀ hS : (IdSet.run ⟨first, last⟩ events).Nonempty, ∃ id left,
        (ids.run events).allocate = some (id, left) ∧
        id.toNat = (IdSet.run ⟨first, last⟩ events).min' hS ∧
        (ids.run events).step .allocate = left) ∧
      ((ids.run events).allocate = none ↔ IdSet.run ⟨first, last⟩ events = ∅) ∧
      (IdSet.run ⟨first, last⟩ events = ∅ →
        (ids.run events).step .allocate = ids.run events ∧
        ∀ entries text,
          ResultStore.reserve ⟨ids.run events, entries⟩ =
            (.error .idSpaceExhausted, ⟨ids.run events, entries⟩) ∧
          ResultStore.storeReady text ⟨ids.run events, entries⟩ =
            (.error .idSpaceExhausted, ⟨ids.run events, entries⟩)) ∧
      (ids.run events).count.toNat = (IdSet.run ⟨first, last⟩ events).card ∧
      (ids.run events).Exact ∧
      ∀ others, IdSet.outstanding ⟨first, last⟩ others = IdSet.outstanding ⟨first, last⟩ events →
        (ids.run others).intervals = (ids.run events).intervals := by
  refine ⟨_, ofRange_eq_ok hfirst hlast, fun events => ?_⟩
  have hstart := wellFormed_of_ofRange (ofRange_eq_ok hfirst hlast)
  have hfresh : Represents ⟨⟨first, last⟩, [⟨first, last⟩]⟩ ⟨first, last⟩ _ :=
    ⟨rfl, hstart.1, hstart.2⟩
  have hrun := represents_run hfresh
  generalize FreeIds.mk ⟨first, last⟩ [⟨first, last⟩] = ids at hrun ⊢
  have h := hrun events
  have hwf : Canonical ⟨first, last⟩ (ids.run events).intervals := h.range_eq ▸ h.wellFormed
  have hnone : (ids.run events).allocate = none ↔ IdSet.run ⟨first, last⟩ events = ∅ := by
    rw [allocate_eq_none_iff h.wellFormed, h.toFinset_eq]
  refine ⟨⟨hwf, h.toFinset_eq, ?_⟩, ?_, hnone, ?_, ?_, h.wellFormed.exact, ?_⟩
  · intro ivs hivs hset
    exact hivs.unique hwf (hset.trans h.toFinset_eq.symm)
  · intro hS
    obtain ⟨id, left, ha, hmin, -⟩ := h.allocate_eq_some hS
    refine ⟨id, left, ha, hmin, ?_⟩
    rw [step, ha]
    rfl
  · intro hempty
    have ha := hnone.2 hempty
    refine ⟨?_, fun entries text => ?_⟩
    · rw [step, ha]
      rfl
    · simp [ResultStore.reserve, ResultStore.storeReady, ResultStore.issue, ha]
  · exact (count_eq_card h.wellFormed).trans (congrArg Finset.card h.toFinset_eq)
  · intro others hout
    have hset : IdSet.run ⟨first, last⟩ others = IdSet.run ⟨first, last⟩ events := by
      have hsub := (hrun others).subset
      have hsub' := h.subset
      rw [IdSet.outstanding, IdSet.outstanding] at hout
      rw [← Finset.sdiff_sdiff_eq_self hsub, hout, Finset.sdiff_sdiff_eq_self hsub']
    exact (hset ▸ hrun others).intervals_eq h

/-- The two ids below the last word: both can be issued, then none is left, and once both are back,
the higher one first and an id from elsewhere in between, the range is whole again. -/
theorem intervals_follow_free_set_below_last_word :
    (1 : UInt64) ≤ 18446744073709551613 ∧
    (18446744073709551613 : UInt64) < 18446744073709551615 ∧
    ∃ ids, ofRange 18446744073709551613 18446744073709551615 = .ok ids ∧
      (ids.run [.allocate, .allocate]).allocate = none ∧
      (ids.run [.allocate, .allocate, .free 18446744073709551614, .free 7,
        .free 18446744073709551613]).intervals = ids.intervals := by
  have hfirst : (1 : UInt64) ≤ 18446744073709551613 := by decide
  have hlast : (18446744073709551613 : UInt64) < 18446744073709551615 := by decide
  obtain ⟨ids, hids, h⟩ := intervals_follow_free_set hfirst hlast
  have hnone := (h [.allocate, .allocate]).2.2.1.2 (by decide +kernel)
  have hback := (h []).2.2.2.2.2.2 [.allocate, .allocate, .free 18446744073709551614, .free 7,
    .free 18446744073709551613] (by decide +kernel)
  exact ⟨hfirst, hlast, ids, hids, hnone, hback⟩

end FreeIds

end Switchboard
