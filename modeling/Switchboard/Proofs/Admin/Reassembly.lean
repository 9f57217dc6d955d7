import Mathlib.Data.Fintype.Card
import Mathlib.Data.List.FinRange
import Mathlib.Data.List.Sort
import Switchboard.Admin.Reassembly

/-!
# What a reassembly holds

Every lookup after a sweep or a part is a lookup before it: a sweep filters by age, a part acts on
its own sequence number after the sweep. Two notions are built on that:

* **`AgreesApart`**: two reassemblies hold the same unexpired answers except for one sequence
  number. Sweeps and parts keep this, also when a part of the excepted answer comes on one side.
* **`Gathers`**: of an answer that is split into parts, those of given places are held
  (`HoldsParts`) and do not expire before a deadline. A map that holds all parts lists them in the
  order of their places (`HoldsParts.toList_eq`), so joining it gives the answer back.
-/

namespace Switchboard.Admin

namespace Reassembly

variable {r r' : Reassembly} {sequence total index : UInt8} {data : List UInt8} {now later : Nat}

/-! ## What is held after an operation -/

theorem getElem?_sweep (now : Nat) (r : Reassembly) (q : UInt8) :
    (r.sweep now).held[q]? = r.held[q]?.filter fun a => now - a.started < r.ttl := by
  rw [sweep, Std.ExtTreeMap.getElem?_filter']

/-- What a later sweep drops does not depend on an earlier one. -/
theorem getElem?_sweep_sweep (h : now ≤ later) (q : UInt8) :
    ((r.sweep now).sweep later).held[q]? = (r.sweep later).held[q]? := by
  rw [getElem?_sweep, getElem?_sweep, getElem?_sweep, Option.filter_filter]
  congr 1
  funext a
  -- what is young enough later was so before
  have himp : later - a.started < r.ttl → now - a.started < r.ttl := by omega
  show (decide (now - a.started < r.ttl) && decide (later - a.started < r.ttl)) = _
  by_cases hlater : later - a.started < r.ttl
  · rw [decide_eq_true hlater, decide_eq_true (himp hlater)]
    rfl
  · rw [decide_eq_false hlater, Bool.and_false]

/-- The answer that a part belongs to, with the part. -/
def answerWith (sequence total index : UInt8) (data : List UInt8) (now : Nat) (r : Reassembly) :
    PartialAnswer :=
  let a := (r.sweep now).answerFor sequence total now
  { a with parts := a.parts.insert index data }

theorem insert_eq (sequence total index : UInt8) (data : List UInt8) (now : Nat) (r : Reassembly) :
    r.insert sequence total index data now =
      let a := r.answerWith sequence total index data now
      if a.parts.size < total.toNat then
        (none, { r.sweep now with held := (r.sweep now).held.insert sequence a })
      else (some (PartialAnswer.join a),
        { r.sweep now with held := (r.sweep now).held.erase sequence }) :=
  rfl

theorem insert_ttl (sequence total index : UInt8) (data : List UInt8) (now : Nat)
    (r : Reassembly) : (r.insert sequence total index data now).2.ttl = r.ttl := by
  rw [insert_eq]
  dsimp only
  split <;> rfl

/-- A part leaves the answers of other sequence numbers as the sweep before it left them. -/
theorem getElem?_insert_of_ne {q : UInt8} (hne : sequence ≠ q) :
    (r.insert sequence total index data now).2.held[q]? = (r.sweep now).held[q]? := by
  rw [insert_eq]
  dsimp only
  split
  · simp [Std.ExtTreeMap.getElem?_insert, hne]
  · simp [Std.ExtTreeMap.getElem?_erase, hne]

theorem insert_of_lt
    (h : (r.answerWith sequence total index data now).parts.size < total.toNat) :
    (r.insert sequence total index data now).1 = none ∧
      (r.insert sequence total index data now).2.held[sequence]? =
        some (r.answerWith sequence total index data now) := by
  rw [insert_eq]
  simp [h]

theorem insert_of_not_lt
    (h : ¬ (r.answerWith sequence total index data now).parts.size < total.toNat) :
    (r.insert sequence total index data now).1 =
        some (PartialAnswer.join (r.answerWith sequence total index data now)) ∧
      (r.insert sequence total index data now).2.held[sequence]? = none := by
  rw [insert_eq]
  simp [h]

/-- What a part does to the answer it belongs to depends on nothing else that is held. -/
theorem answerWith_congr (total index : UInt8) (data : List UInt8)
    (h : (r.sweep now).held[sequence]? = (r'.sweep now).held[sequence]?) :
    r.answerWith sequence total index data now = r'.answerWith sequence total index data now := by
  rw [answerWith, answerWith, answerFor, answerFor, h]

theorem insert_congr (h : (r.sweep now).held[sequence]? = (r'.sweep now).held[sequence]?) :
    (r.insert sequence total index data now).1 = (r'.insert sequence total index data now).1 ∧
      (r.insert sequence total index data now).2.held[sequence]? =
        (r'.insert sequence total index data now).2.held[sequence]? := by
  have hanswer := answerWith_congr total index data h
  by_cases hlt : (r.answerWith sequence total index data now).parts.size < total.toNat
  · obtain ⟨hnone, hheld⟩ := insert_of_lt hlt
    rw [hanswer] at hlt
    obtain ⟨hnone', hheld'⟩ := insert_of_lt hlt
    rw [hnone, hnone', hheld, hheld', hanswer]
    exact ⟨rfl, rfl⟩
  · obtain ⟨hsome, hheld⟩ := insert_of_not_lt hlt
    rw [hanswer] at hlt
    obtain ⟨hsome', hheld'⟩ := insert_of_not_lt hlt
    rw [hsome, hsome', hheld, hheld', hanswer]
    exact ⟨rfl, rfl⟩

/-! ## Agreement apart from one sequence number -/

/-- From a time on, two reassemblies hold the same unexpired answers, except perhaps for one
sequence number. -/
structure AgreesApart (sequence : UInt8) (since : Nat) (r r' : Reassembly) : Prop where
  ttl_eq : r.ttl = r'.ttl
  held_eq : ∀ q ≠ sequence, ∀ now ≥ since, (r.sweep now).held[q]? = (r'.sweep now).held[q]?

theorem AgreesApart.refl (sequence : UInt8) (since : Nat) (r : Reassembly) :
    AgreesApart sequence since r r :=
  ⟨rfl, fun _ _ _ _ => rfl⟩

variable {since : Nat}

theorem AgreesApart.mono (h : AgreesApart sequence since r r') (hlater : since ≤ later) :
    AgreesApart sequence later r r' :=
  ⟨h.ttl_eq, fun q hq now hnow => h.held_eq q hq now (Nat.le_trans hlater hnow)⟩

theorem AgreesApart.sweep (h : AgreesApart sequence since r r') (hnow : since ≤ now) :
    AgreesApart sequence now (r.sweep now) (r'.sweep now) := by
  refine ⟨h.ttl_eq, fun q hq later hlater => ?_⟩
  rw [getElem?_sweep_sweep hlater, getElem?_sweep_sweep hlater]
  exact h.held_eq q hq later (Nat.le_trans hnow hlater)

theorem getElem?_sweep_insert_of_ne {q : UInt8} (hne : sequence ≠ q) (h : now ≤ later) :
    ((r.insert sequence total index data now).2.sweep later).held[q]? =
      (r.sweep later).held[q]? := by
  have htwice := getElem?_sweep_sweep (r := r) h q
  rw [getElem?_sweep] at htwice
  rw [getElem?_sweep, getElem?_insert_of_ne hne, insert_ttl]
  exact htwice

/-- A part for the excepted sequence number, added on one side, only sweeps the others. -/
theorem AgreesApart.insert_left (h : AgreesApart sequence since r r') (hnow : since ≤ now) :
    AgreesApart sequence now (r.insert sequence total index data now).2 r' := by
  refine ⟨(insert_ttl ..).trans h.ttl_eq, fun q hq later hlater => ?_⟩
  rw [getElem?_sweep_insert_of_ne hq.symm hlater]
  exact h.held_eq q hq later (Nat.le_trans hnow hlater)

theorem AgreesApart.insert (h : AgreesApart sequence since r r') (hnow : since ≤ now)
    (part : UInt8) :
    AgreesApart sequence now (r.insert part total index data now).2
      (r'.insert part total index data now).2 := by
  refine ⟨(insert_ttl ..).trans (h.ttl_eq.trans (insert_ttl ..).symm), fun q hq later hlater => ?_⟩
  by_cases heq : part = q
  · subst heq
    rw [getElem?_sweep, getElem?_sweep, insert_ttl, insert_ttl, h.ttl_eq,
      (insert_congr (h.held_eq part hq now hnow)).2]
  · rw [getElem?_sweep_insert_of_ne heq hlater, getElem?_sweep_insert_of_ne heq hlater]
    exact h.held_eq q hq later (Nat.le_trans hnow hlater)

end Reassembly

/-! ## The parts of one answer -/

/-- Whether a map holds just those parts of a split whose places are given. -/
def HoldsParts (parts : List (List UInt8)) (places : Finset (Fin parts.length))
    (m : Std.ExtTreeMap UInt8 (List UInt8)) : Prop :=
  ∀ k v, m[k]? = some v ↔ ∃ i ∈ places, UInt8.ofNat i = k ∧ parts.get i = v

variable {parts : List (List UInt8)} {m : Std.ExtTreeMap UInt8 (List UInt8)}
  {places : Finset (Fin parts.length)}

theorem toNat_ofNat_place (hlen : parts.length ≤ 255) (i : Fin parts.length) :
    (UInt8.ofNat i).toNat = i := by
  have hlt := i.isLt
  exact UInt8.toNat_ofNat_of_lt' (by show i.val < 256; omega)

theorem toNat_ofNat_length (hlen : parts.length ≤ 255) :
    (UInt8.ofNat parts.length).toNat = parts.length :=
  UInt8.toNat_ofNat_of_lt' (by show parts.length < 256; omega)

theorem place_eq_of_ofNat_eq (hlen : parts.length ≤ 255) {i j : Fin parts.length}
    (h : UInt8.ofNat i = UInt8.ofNat j) : i = j := by
  have hnat := congrArg UInt8.toNat h
  rw [toNat_ofNat_place hlen, toNat_ofNat_place hlen] at hnat
  exact Fin.ext hnat

theorem holdsParts_empty (parts : List (List UInt8)) : HoldsParts parts ∅ ∅ := by
  intro k v
  simp

theorem HoldsParts.insert (h : HoldsParts parts places m) (hlen : parts.length ≤ 255)
    (i : Fin parts.length) :
    HoldsParts parts (insert i places) (m.insert (UInt8.ofNat i) (parts.get i)) := by
  intro k v
  rw [Std.ExtTreeMap.getElem?_insert]
  split
  · next hcompare =>
    have hk := Std.LawfulEqOrd.compare_eq_iff_eq.1 hcompare
    constructor
    · intro hv
      exact ⟨i, Finset.mem_insert_self i places, hk, Option.some.inj hv⟩
    · rintro ⟨j, -, hj, rfl⟩
      rw [place_eq_of_ofNat_eq hlen (hj.trans hk.symm)]
  · next hcompare =>
    have hk : UInt8.ofNat i ≠ k := fun heq => hcompare (Std.LawfulEqOrd.compare_eq_iff_eq.2 heq)
    rw [h k v]
    constructor
    · rintro ⟨j, hj, hjk, hv⟩
      exact ⟨j, Finset.mem_insert_of_mem hj, hjk, hv⟩
    · rintro ⟨j, hj, hjk, hv⟩
      rcases Finset.mem_insert.1 hj with rfl | hj
      · exact absurd hjk hk
      · exact ⟨j, hj, hjk, hv⟩

instance keyLt_antisymm : Std.Antisymm fun a b : UInt8 × List UInt8 => a.1 < b.1 :=
  ⟨fun _ _ h h' => absurd h' (UInt8.not_lt.2 (UInt8.le_of_lt h))⟩

instance keyLt_irrefl : Std.Irrefl fun a b : UInt8 × List UInt8 => a.1 < b.1 :=
  ⟨fun _ h => UInt8.lt_irrefl _ h⟩

/-- The parts stand in the order of their places. -/
theorem HoldsParts.toList_eq (h : HoldsParts parts places m) (hlen : parts.length ≤ 255) :
    m.toList = ((List.finRange parts.length).filter (· ∈ places)).map
      fun i : Fin parts.length => (UInt8.ofNat i, parts.get i) := by
  have hleft : m.toList.Pairwise fun a b => a.1 < b.1 := by
    have hordered := Std.ExtTreeMap.ordered_keys_toList (t := m)
    exact hordered.imp fun hab => Std.compare_eq_lt.1 hab
  have hright : (((List.finRange parts.length).filter (· ∈ places)).map
      fun i : Fin parts.length => (UInt8.ofNat i, parts.get i)).Pairwise fun a b => a.1 < b.1 := by
    rw [List.pairwise_map]
    refine ((List.pairwise_lt_finRange _).filter _).imp fun hij => ?_
    rw [UInt8.lt_iff_toNat_lt, toNat_ofNat_place hlen, toNat_ofNat_place hlen]
    exact hij
  -- both lists ascend strictly, so their members decide
  refine hleft.eq_of_mem_iff hright fun ⟨k, v⟩ => ?_
  rw [Std.ExtTreeMap.mem_toList_iff_getElem?_eq_some, h k v]
  simp

theorem HoldsParts.size_eq (h : HoldsParts parts places m) (hlen : parts.length ≤ 255) :
    m.size = places.card := by
  rw [← Std.ExtTreeMap.length_toList, h.toList_eq hlen, List.length_map]
  rw [← List.toFinset_card_of_nodup ((List.nodup_finRange _).filter _)]
  congr 1
  ext i
  simp

theorem HoldsParts.join_eq (h : HoldsParts parts Finset.univ m) (hlen : parts.length ≤ 255) :
    m.toList.flatMap (·.2) = parts.flatten := by
  have hall : (List.finRange parts.length).filter (· ∈ Finset.univ) =
      List.finRange parts.length := by
    simp
  have hparts : (List.finRange parts.length).map (fun i => parts.get i) = parts :=
    List.map_getElem_finRange parts
  rw [h.toList_eq hlen, hall, List.flatMap_map]
  show (List.finRange parts.length).flatMap (fun i => parts.get i) = parts.flatten
  rw [List.flatMap_def, hparts]

namespace Reassembly

variable {r : Reassembly} {sequence : UInt8} {now deadline : Nat}

/-- Whether nothing is held for a sequence number, or just the parts of a split whose places are
given, in an answer that does not expire before a deadline. -/
def Gathers (sequence : UInt8) (parts : List (List UInt8)) (deadline : Nat)
    (places : Finset (Fin parts.length)) (r : Reassembly) : Prop :=
  match r.held[sequence]? with
  | none => places = ∅
  | some a => a.total.toNat = parts.length ∧ HoldsParts parts places a.parts ∧
      a.started ≤ deadline ∧ deadline < a.started + r.ttl

theorem gathers_of_none (parts : List (List UInt8)) (deadline : Nat)
    (h : r.held[sequence]? = none) : Gathers sequence parts deadline ∅ r := by
  rw [Gathers, h]

/-- A sweep before the deadline drops nothing of the answer. -/
theorem Gathers.getElem?_sweep (h : Gathers sequence parts deadline places r)
    (hnow : now ≤ deadline) : (r.sweep now).held[sequence]? = r.held[sequence]? := by
  rw [Reassembly.getElem?_sweep]
  rw [Gathers] at h
  cases hheld : r.held[sequence]? with
  | none => rfl
  | some a =>
    rw [hheld] at h
    obtain ⟨-, -, hstarted, hdue⟩ := h
    have halive : now - a.started < r.ttl := by omega
    simp [halive]

theorem Gathers.sweep (h : Gathers sequence parts deadline places r) (hnow : now ≤ deadline) :
    Gathers sequence parts deadline places (r.sweep now) := by
  have hkept := h.getElem?_sweep hnow
  rw [Gathers, hkept]
  exact h

/-- A part of another answer before the deadline changes nothing of this one. -/
theorem Gathers.insert_of_ne (h : Gathers sequence parts deadline places r) (hnow : now ≤ deadline)
    {q total index : UInt8} (hne : q ≠ sequence) (data : List UInt8) :
    Gathers sequence parts deadline places (r.insert q total index data now).2 := by
  rw [Gathers, getElem?_insert_of_ne hne, h.getElem?_sweep hnow, insert_ttl]
  exact h

/-- What a further part makes of the answer. -/
theorem Gathers.answerWith (h : Gathers sequence parts deadline places r)
    (hlen : parts.length ≤ 255) (hnow : now ≤ deadline) (i : Fin parts.length)
    {a : PartialAnswer}
    (ha : a = r.answerWith sequence (.ofNat parts.length) (.ofNat i) (parts.get i) now) :
    a.total.toNat = parts.length ∧ HoldsParts parts (Insert.insert i places) a.parts ∧
      a.started ≤ deadline ∧ (deadline < now + r.ttl → deadline < a.started + r.ttl) := by
  have htotal := toNat_ofNat_length hlen
  rw [Reassembly.answerWith, answerFor, h.getElem?_sweep hnow] at ha
  rw [Gathers] at h
  cases hheld : r.held[sequence]? with
  | none =>
    -- the first part of the answer starts it
    rw [hheld] at h ha
    subst h ha
    exact ⟨htotal, (holdsParts_empty parts).insert hlen i, hnow, id⟩
  | some b =>
    rw [hheld] at h ha
    obtain ⟨hcount, hparts, hstarted, hdue⟩ := h
    have hsame : b.total = .ofNat parts.length := UInt8.toNat_inj.1 (hcount.trans htotal.symm)
    simp only [if_pos hsame] at ha
    subst ha
    exact ⟨hcount, hparts.insert hlen i, hstarted, fun _ => hdue⟩

/-- As long as a part is missing, a part that comes in time is added to the answer. -/
theorem Gathers.insert (h : Gathers sequence parts deadline places r) (hlen : parts.length ≤ 255)
    (hnow : now ≤ deadline) (hdue : deadline < now + r.ttl) {i : Fin parts.length}
    (hmissing : Insert.insert i places ≠ Finset.univ) :
    (r.insert sequence (.ofNat parts.length) (.ofNat i) (parts.get i) now).1 = none ∧
      Gathers sequence parts deadline (Insert.insert i places)
        (r.insert sequence (.ofNat parts.length) (.ofNat i) (parts.get i) now).2 := by
  obtain ⟨htotal, hparts, hstarted, halive⟩ := h.answerWith hlen hnow i rfl
  have hcard := (Finset.card_lt_iff_ne_univ _).2 hmissing
  rw [Fintype.card_fin, ← hparts.size_eq hlen] at hcard
  have hlt := Nat.lt_of_lt_of_eq hcard (toNat_ofNat_length hlen).symm
  obtain ⟨hnone, hheld⟩ := insert_of_lt hlt
  refine ⟨hnone, ?_⟩
  rw [Gathers, hheld, insert_ttl]
  exact ⟨htotal, hparts, hstarted, halive hdue⟩

/-- The last missing part brings the whole, and nothing stays held. -/
theorem Gathers.complete (h : Gathers sequence parts deadline places r)
    (hlen : parts.length ≤ 255) (hnow : now ≤ deadline) {i : Fin parts.length}
    (hall : Insert.insert i places = Finset.univ) :
    (r.insert sequence (.ofNat parts.length) (.ofNat i) (parts.get i) now).1 = some parts.flatten ∧
      (r.insert sequence (.ofNat parts.length) (.ofNat i) (parts.get i) now).2.held[sequence]? =
        none := by
  obtain ⟨htotal, hparts, -⟩ := h.answerWith hlen hnow i rfl
  rw [hall] at hparts
  have hsize := hparts.size_eq hlen
  rw [Finset.card_univ, Fintype.card_fin] at hsize
  have hnot := Nat.not_lt.2 (Nat.le_of_eq ((toNat_ofNat_length hlen).trans hsize.symm))
  obtain ⟨hsome, hheld⟩ := insert_of_not_lt hnot
  rw [hsome, hheld, PartialAnswer.join, hparts.join_eq hlen]
  exact ⟨rfl, rfl⟩

end Reassembly

end Switchboard.Admin
