import Mathlib.Algebra.GroupWithZero.Nat
import Mathlib.Data.Finset.Max
import Mathlib.Order.Interval.Finset.Nat
import Switchboard.Ids

/-!
# Canonical intervals

A list of intervals stands for a set of ids, here taken by number (`idsOf`). It is *canonical* for a
range when its intervals are not empty, lie in the range, ascend, and leave at least one id out
between neighbours (`Canonical`). Two facts carry the rest of the theory of free ids:

* **`Canonical.unique`**: a set has at most one canonical list.
* **`canonical_insert`, `idsOf_insert`**: adding an id of the range keeps a list canonical and adds
  exactly that id to its set. `canonical_dropLowest` and `idsOf_dropLowest` say the same of taking
  the lowest id away.

All comparisons of words are moved to numbers at once; the only sum, `id + 1`, does not wrap because
an id of a range lies below the end of the range.
-/

namespace Switchboard

/-- The ids of an interval, by number. -/
def Interval.toFinset (iv : Interval) : Finset Nat :=
  Finset.Ico iv.start.toNat iv.stop.toNat

@[simp] theorem Interval.mem_toFinset {iv : Interval} {n : Nat} :
    n ∈ iv.toFinset ↔ iv.start.toNat ≤ n ∧ n < iv.stop.toNat :=
  Finset.mem_Ico

theorem Interval.holds_iff {iv : Interval} {id : RequestId} :
    iv.holds id = true ↔ id.toNat ∈ iv.toFinset := by
  simp [Interval.holds, UInt64.le_iff_toNat_le, UInt64.lt_iff_toNat_lt]

/-- The number of the id after one that is not the last word. -/
theorem toNat_succ {id : RequestId} {bound : UInt64} (h : id.toNat < bound.toNat) :
    (id + 1).toNat = id.toNat + 1 := by
  have hb : bound.toNat < UInt64.size := bound.toNat_lt_size
  rw [UInt64.toNat_add, Nat.mod_eq_of_lt]
  · rfl
  · exact Nat.lt_of_le_of_lt h hb

namespace FreeIds

/-- The ids of a list of intervals, by number. -/
def idsOf (ivs : List Interval) : Finset Nat :=
  ivs.foldr (fun iv S => iv.toFinset ∪ S) ∅

@[simp] theorem idsOf_nil : idsOf [] = ∅ := rfl

@[simp] theorem idsOf_cons (iv : Interval) (ivs : List Interval) :
    idsOf (iv :: ivs) = iv.toFinset ∪ idsOf ivs := rfl

theorem mem_idsOf {ivs : List Interval} {n : Nat} :
    n ∈ idsOf ivs ↔ ∃ iv ∈ ivs, n ∈ iv.toFinset := by
  induction ivs with
  | nil => simp
  | cons iv ivs ih => rw [idsOf_cons, Finset.mem_union, ih, List.exists_mem_cons_iff]

/-- Non-empty intervals of a range in ascending order, with at least one id left out between
neighbours. -/
structure Canonical (range : Interval) (ivs : List Interval) : Prop where
  nonempty : ∀ iv ∈ ivs, iv.start.toNat < iv.stop.toNat
  within : ∀ iv ∈ ivs, range.start.toNat ≤ iv.start.toNat ∧ iv.stop.toNat ≤ range.stop.toNat
  separated : ivs.Pairwise fun a b => a.stop.toNat < b.start.toNat

namespace Canonical

variable {range iv : Interval} {ivs rest : List Interval}

theorem nil (range : Interval) : Canonical range [] :=
  ⟨by simp, by simp, .nil⟩

theorem cons (hne : iv.start.toNat < iv.stop.toNat)
    (hin : range.start.toNat ≤ iv.start.toNat ∧ iv.stop.toNat ≤ range.stop.toNat)
    (hsep : ∀ next ∈ ivs, iv.stop.toNat < next.start.toNat) (h : Canonical range ivs) :
    Canonical range (iv :: ivs) :=
  ⟨List.forall_mem_cons.2 ⟨hne, h.nonempty⟩, List.forall_mem_cons.2 ⟨hin, h.within⟩,
    .cons hsep h.separated⟩

theorem head (h : Canonical range (iv :: ivs)) : iv.start.toNat < iv.stop.toNat :=
  h.nonempty iv List.mem_cons_self

theorem head_within (h : Canonical range (iv :: ivs)) :
    range.start.toNat ≤ iv.start.toNat ∧ iv.stop.toNat ≤ range.stop.toNat :=
  h.within iv List.mem_cons_self

theorem gap (h : Canonical range (iv :: ivs)) :
    ∀ next ∈ ivs, iv.stop.toNat < next.start.toNat :=
  (List.pairwise_cons.1 h.separated).1

theorem tail (h : Canonical range (iv :: ivs)) : Canonical range ivs :=
  ⟨(List.forall_mem_cons.1 h.nonempty).2, (List.forall_mem_cons.1 h.within).2,
    (List.pairwise_cons.1 h.separated).2⟩

/-- All ids behind the first interval lie beyond the id that is left out after it. -/
theorem stop_lt_of_mem_tail (h : Canonical range (iv :: ivs)) {n : Nat} (hn : n ∈ idsOf ivs) :
    iv.stop.toNat < n := by
  obtain ⟨next, hmem, hin⟩ := mem_idsOf.1 hn
  exact Nat.lt_of_lt_of_le (h.gap next hmem) (Interval.mem_toFinset.1 hin).1

/-- The ids of canonical intervals lie in the range. -/
theorem idsOf_subset (h : Canonical range ivs) : idsOf ivs ⊆ range.toFinset := by
  intro n hn
  obtain ⟨iv, hmem, hin⟩ := mem_idsOf.1 hn
  have hrange := h.within iv hmem
  rw [Interval.mem_toFinset] at hin ⊢
  omega

/-! ## A set has one canonical list

The first interval can be read off the set: it starts at the lowest id, and it stops at the lowest
number above that is left out. -/

theorem start_mem (h : Canonical range (iv :: ivs)) : iv.start.toNat ∈ idsOf (iv :: ivs) :=
  Finset.mem_union_left _ (Interval.mem_toFinset.2 ⟨Nat.le_refl _, h.head⟩)

theorem stop_not_mem (h : Canonical range (iv :: ivs)) : iv.stop.toNat ∉ idsOf (iv :: ivs) := by
  rw [idsOf_cons, Finset.mem_union, Interval.mem_toFinset]
  rintro (⟨-, hlt⟩ | hrest)
  · exact Nat.lt_irrefl _ hlt
  · exact Nat.lt_irrefl _ (h.stop_lt_of_mem_tail hrest)

theorem start_le (h : Canonical range (iv :: ivs)) {n : Nat} (hn : n ∈ idsOf (iv :: ivs)) :
    iv.start.toNat ≤ n := by
  rw [idsOf_cons, Finset.mem_union, Interval.mem_toFinset] at hn
  rcases hn with ⟨hle, -⟩ | hrest
  · exact hle
  · have := h.head
    have := h.stop_lt_of_mem_tail hrest
    omega

/-- Where two lists of one set start alike and the first is canonical, its first interval does not
stop before the other's does. -/
theorem stop_le {iv' : Interval} {ivs' : List Interval} (h : Canonical range (iv :: ivs))
    (hstart : iv.start.toNat = iv'.start.toNat)
    (heq : idsOf (iv :: ivs) = idsOf (iv' :: ivs')) : iv'.stop.toNat ≤ iv.stop.toNat := by
  by_contra hlt
  have hhead := h.head
  have hmem : iv.stop.toNat ∈ idsOf (iv' :: ivs') :=
    Finset.mem_union_left _ (Interval.mem_toFinset.2 (by omega))
  exact h.stop_not_mem (heq ▸ hmem)

theorem idsOf_tail (h : Canonical range (iv :: ivs)) :
    idsOf ivs = idsOf (iv :: ivs) \ iv.toFinset := by
  ext n
  rw [Finset.mem_sdiff, idsOf_cons, Finset.mem_union, Interval.mem_toFinset]
  constructor
  · intro hn
    have := h.stop_lt_of_mem_tail hn
    exact ⟨Or.inr hn, by omega⟩
  · rintro ⟨hin | hn, hout⟩
    · exact absurd hin hout
    · exact hn

/-- **A set has at most one canonical list.** Induction on the two lists side by side. -/
theorem unique {ivs ivs' : List Interval} (h : Canonical range ivs) (h' : Canonical range ivs')
    (heq : idsOf ivs = idsOf ivs') : ivs = ivs' := by
  induction ivs generalizing ivs' with
  | nil =>
    cases ivs' with
    | nil => rfl
    | cons iv' ivs' => exact absurd (heq ▸ h'.start_mem) (Finset.notMem_empty _)
  | cons iv ivs ih =>
    cases ivs' with
    | nil => exact absurd (heq ▸ h.start_mem) (Finset.notMem_empty _)
    | cons iv' ivs' =>
      have hstart : iv.start.toNat = iv'.start.toNat :=
        Nat.le_antisymm (h.start_le (heq ▸ h'.start_mem)) (h'.start_le (heq ▸ h.start_mem))
      have hstop : iv.stop.toNat = iv'.stop.toNat :=
        Nat.le_antisymm (h'.stop_le hstart.symm heq.symm) (h.stop_le hstart heq)
      have hhead : iv = iv' := by
        rw [UInt64.toNat_inj] at hstart hstop
        show Interval.mk iv.start iv.stop = Interval.mk iv'.start iv'.stop
        rw [hstart, hstop]
      subst hhead
      have htail : idsOf ivs = idsOf ivs' := by
        rw [h.idsOf_tail, h'.idsOf_tail, heq]
      rw [ih h.tail h'.tail htail]

end Canonical

/-! ## Adding an id

The cases are those of `insert`: the id lies before the first interval, touches it, lies in it,
lies right behind it, or lies further up. -/

/-- What lies above a bound stays above it when an id above it is added. -/
theorem lt_start_of_mem_insert {id : RequestId} {ivs : List Interval} {b : Nat}
    (hid : b < id.toNat) (hivs : ∀ iv ∈ ivs, b < iv.start.toNat) :
    ∀ iv ∈ insert id ivs, b < iv.start.toNat := by
  fun_induction insert id ivs with
  | case1 => simpa using hid
  | case2 iv rest _ => exact List.forall_mem_cons.2 ⟨hid, hivs⟩
  | case3 iv rest _ _ => exact List.forall_mem_cons.2 ⟨hid, (List.forall_mem_cons.1 hivs).2⟩
  | case4 => exact hivs
  | case5 iv _ _ _ _ next rest _ =>
    have h := List.forall_mem_cons.1 hivs
    exact List.forall_mem_cons.2 ⟨h.1, (List.forall_mem_cons.1 h.2).2⟩
  | case6 iv _ _ _ _ next rest _ =>
    have h := List.forall_mem_cons.1 hivs
    exact List.forall_mem_cons.2 ⟨h.1, h.2⟩
  | case7 iv => simpa using hivs
  | case8 iv rest _ _ _ _ ih =>
    have h := List.forall_mem_cons.1 hivs
    exact List.forall_mem_cons.2 ⟨h.1, ih h.2⟩

variable {range : Interval} {ivs : List Interval} {id : RequestId}

/-- **Adding an id of the range keeps a list canonical.** -/
theorem canonical_insert (h : Canonical range ivs)
    (hid : range.start.toNat ≤ id.toNat ∧ id.toNat < range.stop.toNat) :
    Canonical range (insert id ivs) := by
  have hsucc : (id + 1).toNat = id.toNat + 1 := toNat_succ hid.2
  fun_induction insert id ivs with
  | case1 =>
    refine .cons ?_ ?_ (by simp) (.nil range)
    · show id.toNat < (id + 1).toNat
      omega
    · show range.start.toNat ≤ id.toNat ∧ (id + 1).toNat ≤ range.stop.toNat
      omega
  | case2 iv rest hbefore =>
    rw [UInt64.lt_iff_toNat_lt] at hbefore
    refine .cons ?_ ?_ ?_ h
    · show id.toNat < (id + 1).toNat
      omega
    · show range.start.toNat ≤ id.toNat ∧ (id + 1).toNat ≤ range.stop.toNat
      omega
    · intro next hnext
      rcases List.mem_cons.1 hnext with rfl | hnext
      · exact hbefore
      · have := h.head
        have := h.gap next hnext
        show (id + 1).toNat < next.start.toNat
        omega
  | case3 iv rest _ htouch =>
    rw [← UInt64.toNat_inj] at htouch
    have hhead := h.head
    have hwithin := h.head_within
    refine .cons ?_ ?_ h.gap h.tail
    · show id.toNat < iv.stop.toNat
      omega
    · show range.start.toNat ≤ id.toNat ∧ iv.stop.toNat ≤ range.stop.toNat
      omega
  | case4 => exact h
  | case5 iv _ _ _ hbehind next rest htouch =>
    have hnext := h.gap next List.mem_cons_self
    have hhead := h.head
    have hhead' := h.tail.head
    refine .cons ?_ ⟨h.head_within.1, h.tail.head_within.2⟩ h.tail.gap h.tail.tail
    show iv.start.toNat < next.stop.toNat
    omega
  | case6 iv _ _ _ hbehind next rest hapart =>
    rw [← UInt64.toNat_inj] at hbehind hapart
    have hnext := h.gap next List.mem_cons_self
    have hhead := h.head
    refine .cons ?_ ⟨h.head_within.1, ?_⟩ ?_ h.tail
    · show iv.start.toNat < (id + 1).toNat
      omega
    · show (id + 1).toNat ≤ range.stop.toNat
      omega
    · intro later hlater
      show (id + 1).toNat < later.start.toNat
      rcases List.mem_cons.1 hlater with rfl | hlater
      · omega
      · have := h.tail.head
        have := h.tail.gap later hlater
        omega
  | case7 iv _ _ _ hbehind =>
    rw [← UInt64.toNat_inj] at hbehind
    have hhead := h.head
    refine .cons ?_ ⟨h.head_within.1, ?_⟩ (by simp) (.nil range)
    · show iv.start.toNat < (id + 1).toNat
      omega
    · show (id + 1).toNat ≤ range.stop.toNat
      omega
  | case8 iv rest _ _ hafter hapart ih =>
    rw [UInt64.lt_iff_toNat_lt] at hafter
    rw [← UInt64.toNat_inj] at hapart
    exact .cons h.head h.head_within (lt_start_of_mem_insert (by omega) h.gap) (ih h.tail)

theorem mem_singleton {id : RequestId} (hsucc : (id + 1).toNat = id.toNat + 1) {n : Nat} :
    n ∈ (Interval.mk id (id + 1)).toFinset ↔ n = id.toNat := by
  rw [Interval.mem_toFinset]
  show id.toNat ≤ n ∧ n < (id + 1).toNat ↔ n = id.toNat
  omega

/-- **Adding an id of the range adds exactly that id.** -/
theorem idsOf_insert (h : Canonical range ivs)
    (hid : range.start.toNat ≤ id.toNat ∧ id.toNat < range.stop.toNat) :
    idsOf (insert id ivs) = Insert.insert id.toNat (idsOf ivs) := by
  have hsucc : (id + 1).toNat = id.toNat + 1 := toNat_succ hid.2
  ext n
  rw [Finset.mem_insert]
  fun_induction insert id ivs with
  | case1 => rw [idsOf_cons, Finset.mem_union, mem_singleton hsucc]
  | case2 iv rest _ => rw [idsOf_cons, Finset.mem_union, mem_singleton hsucc]
  | case3 iv rest _ htouch =>
    rw [← UInt64.toNat_inj] at htouch
    have hhead := h.head
    simp only [idsOf_cons, Finset.mem_union, Interval.mem_toFinset]
    grind
  | case4 iv rest hbefore htouch hin =>
    rw [UInt64.lt_iff_toNat_lt] at hbefore hin
    rw [← UInt64.toNat_inj] at htouch
    have hmem : id.toNat ∈ idsOf (iv :: rest) :=
      Finset.mem_union_left _ (Interval.mem_toFinset.2 (by omega))
    exact ⟨Or.inr, fun hn => hn.elim (fun heq => heq ▸ hmem) fun hn => hn⟩
  | case5 iv _ _ _ hbehind next rest htouch =>
    rw [← UInt64.toNat_inj] at hbehind htouch
    have hhead := h.head
    have hnext := h.tail.head
    simp only [idsOf_cons, Finset.mem_union, Interval.mem_toFinset]
    grind
  | case6 iv _ _ _ hbehind next rest hapart =>
    rw [← UInt64.toNat_inj] at hbehind
    have hhead := h.head
    simp only [idsOf_cons, Finset.mem_union, Interval.mem_toFinset, hsucc]
    grind
  | case7 iv _ _ _ hbehind =>
    rw [← UInt64.toNat_inj] at hbehind
    have hhead := h.head
    simp only [idsOf_cons, idsOf_nil, Finset.union_empty, Interval.mem_toFinset, hsucc]
    omega
  | case8 iv rest _ _ _ _ ih =>
    rw [idsOf_cons, idsOf_cons, Finset.mem_union, ih h.tail, Finset.mem_union, or_left_comm]

/-! ## Taking the lowest id -/

/-- Intervals without their lowest id. -/
def dropLowest : List Interval → List Interval
  | [] => []
  | iv :: rest => if iv.start + 1 < iv.stop then ⟨iv.start + 1, iv.stop⟩ :: rest else rest

/-- **Taking the lowest id away keeps a list canonical.** -/
theorem canonical_dropLowest (h : Canonical range ivs) : Canonical range (dropLowest ivs) := by
  cases ivs with
  | nil => exact h
  | cons iv rest =>
    have hsucc : (iv.start + 1).toNat = iv.start.toNat + 1 := toNat_succ h.head
    rw [dropLowest]
    split
    · next hlt =>
      rw [UInt64.lt_iff_toNat_lt] at hlt
      have hwithin := h.head_within
      refine .cons hlt ⟨?_, hwithin.2⟩ h.gap h.tail
      show range.start.toNat ≤ (iv.start + 1).toNat
      omega
    · exact h.tail

/-- **Taking the lowest id away takes exactly that id away.** -/
theorem idsOf_dropLowest {iv : Interval} {rest : List Interval} (h : Canonical range (iv :: rest)) :
    idsOf (dropLowest (iv :: rest)) = (idsOf (iv :: rest)).erase iv.start.toNat := by
  have hhead := h.head
  have hsucc : (iv.start + 1).toNat = iv.start.toNat + 1 := toNat_succ hhead
  ext n
  have hrest : n ∈ idsOf rest → iv.stop.toNat < n := h.stop_lt_of_mem_tail
  rw [Finset.mem_erase, idsOf_cons, Finset.mem_union, Interval.mem_toFinset, dropLowest]
  split
  · rw [idsOf_cons, Finset.mem_union, Interval.mem_toFinset]
    show (iv.start + 1).toNat ≤ n ∧ n < iv.stop.toNat ∨ n ∈ idsOf rest ↔ _
    grind
  · next hlast =>
    rw [UInt64.lt_iff_toNat_lt] at hlast
    grind

/-! ## Counting -/

theorem card_toFinset (iv : Interval) : iv.toFinset.card = iv.stop.toNat - iv.start.toNat :=
  Nat.card_Ico _ _

/-- A set of ids of a range has fewer ids than there are words. -/
theorem card_lt_size (h : Canonical range ivs) : (idsOf ivs).card < UInt64.size := by
  have hsub := Finset.card_le_card h.idsOf_subset
  have hlast := range.stop.toNat_lt_size
  rw [card_toFinset] at hsub
  omega

/-- **The widths of canonical intervals add up to the number of their ids.** -/
theorem sum_card_eq_card (h : Canonical range ivs) :
    (ivs.map fun iv => iv.toFinset.card).sum = (idsOf ivs).card := by
  induction ivs with
  | nil => rfl
  | cons iv rest ih =>
    have hdisj : Disjoint iv.toFinset (idsOf rest) := by
      rw [Finset.disjoint_left]
      intro n hn hrest
      have := h.stop_lt_of_mem_tail hrest
      have := (Interval.mem_toFinset.1 hn).2
      omega
    rw [List.map_cons, List.sum_cons, ih h.tail, idsOf_cons, Finset.card_union_of_disjoint hdisj]

/-- The sum of words does not wrap, so it is the sum of numbers. -/
theorem count_eq_card (h : Canonical range ivs) :
    (ivs.foldr (fun iv n => iv.stop - iv.start + n) (0 : UInt64)).toNat = (idsOf ivs).card := by
  induction ivs with
  | nil => rfl
  | cons iv rest ih =>
    have hle : iv.start ≤ iv.stop := UInt64.le_iff_toNat_le.2 (Nat.le_of_lt h.head)
    have hsum := sum_card_eq_card h
    rw [List.map_cons, List.sum_cons, sum_card_eq_card h.tail, card_toFinset] at hsum
    rw [List.foldr_cons, UInt64.toNat_add, ih h.tail, UInt64.toNat_sub_of_le _ _ hle, hsum]
    exact Nat.mod_eq_of_lt (card_lt_size h)

end FreeIds

end Switchboard
