import Switchboard.Proofs.Admin.Origins

/-!
# What an answer is joined of

A reassembly hands an answer out as soon as it holds as many parts as the answer has. It counts them
and does not look which they are, so that the right ones are there has to follow from how they came:

* **`Joins`**: the answer that a part joins. It is the one that is held, unless that is too old or
  has another number of parts; then the part is the first of a new one.
* **`Ends`**: an event ends what is held for a sequence number. What is held after any other event
  was held before it, perhaps with one part more (`held_step`).
* **`Latest`**: of all the parts that came for a place of an answer, the last one, and nothing has
  ended the answer since.
* **`Traced`**: after every run, each part that is held is the latest for its place, came no earlier
  than the answer began, and is one of fewer parts than the answer has (`traced_run`).

Parts whose places lie below their number and that are as many as that number are all of them
(`exists_holdsParts`), so what is handed out is the whole answer.
-/

namespace Switchboard.Admin

/-! ## All parts -/

/-- Places below a number, as many as that number, are all the places below it. -/
theorem mem_of_size {m : Std.ExtTreeMap UInt8 (List UInt8)} {total : UInt8}
    (hplaces : ∀ i ∈ m, i < total) (hfull : total.toNat ≤ m.size) {i : UInt8} (hi : i < total) :
    i ∈ m := by
  have hsubset : (m.keys.map UInt8.toNat).toFinset ⊆ Finset.range total.toNat := by
    intro n hn
    obtain ⟨k, hk, rfl⟩ := List.mem_map.1 (List.mem_toFinset.1 hn)
    exact Finset.mem_range.2 (UInt8.lt_iff_toNat_lt.1 (hplaces k (Std.ExtTreeMap.mem_keys.1 hk)))
  have hnodup : (m.keys.map UInt8.toNat).Nodup :=
    Std.ExtTreeMap.nodup_keys.map fun _ _ => UInt8.toNat_inj.1
  have hcard : (Finset.range total.toNat).card ≤ (m.keys.map UInt8.toNat).toFinset.card := by
    rw [Finset.card_range, List.toFinset_card_of_nodup hnodup, List.length_map,
      Std.ExtTreeMap.length_keys]
    exact hfull
  have hall := Finset.eq_of_subset_of_card_le hsubset hcard
  have hmem : i.toNat ∈ (m.keys.map UInt8.toNat).toFinset :=
    hall ▸ Finset.mem_range.2 (UInt8.lt_iff_toNat_lt.1 hi)
  obtain ⟨k, hk, hki⟩ := List.mem_map.1 (List.mem_toFinset.1 hmem)
  exact UInt8.toNat_inj.1 hki ▸ Std.ExtTreeMap.mem_keys.1 hk

/-- As many parts as an answer has are the answer, split into its parts. -/
theorem exists_holdsParts {m : Std.ExtTreeMap UInt8 (List UInt8)} {total : UInt8}
    (hplaces : ∀ i ∈ m, i < total) (hfull : total.toNat ≤ m.size) :
    ∃ parts : List (List UInt8), parts.length = total.toNat ∧
      HoldsParts parts Finset.univ m := by
  let parts := (List.range total.toNat).map fun i => (m[UInt8.ofNat i]?).getD []
  have hlength : parts.length = total.toNat := by simp [parts]
  refine ⟨parts, hlength, fun k v => ?_⟩
  constructor
  · intro hv
    have hk : k < total := hplaces k (Std.ExtTreeMap.getElem?_eq_some_iff.1 hv).1
    have hlt : k.toNat < parts.length := hlength ▸ UInt8.lt_iff_toNat_lt.1 hk
    refine ⟨⟨k.toNat, hlt⟩, Finset.mem_univ _, UInt8.ofNat_toNat, ?_⟩
    simp [parts, hv]
  · rintro ⟨i, -, rfl, rfl⟩
    have hlt : UInt8.ofNat i < total := by
      rw [UInt8.lt_iff_toNat_lt, toNat_ofNat_place (by have := total.toNat_lt; omega)]
      omega
    have hmem : UInt8.ofNat i ∈ m := mem_of_size hplaces hfull hlt
    simp [parts, Std.ExtTreeMap.getElem?_eq_some_getElem hmem]

/-! ## Runs -/

/-- What happens to a reassembly. -/
inductive PartEvent where
  | part (q total index : UInt8) (data : List UInt8) (now : Nat)
  | sweep (now : Nat)
  deriving DecidableEq, Repr

namespace PartEvent

/-- When an event happens. -/
def time : PartEvent → Nat
  | part _ _ _ _ now | sweep now => now

/-- Whether the place of a part lies below the number of parts. -/
def Fits : PartEvent → Prop
  | part _ total index _ _ => index < total
  | sweep _ => True

instance : DecidablePred Fits
  | part _ total index _ _ => inferInstanceAs (Decidable (index < total))
  | sweep _ => inferInstanceAs (Decidable True)

/-- Whether a part comes for a place of the answer with a sequence number. -/
def Fills (q i : UInt8) : PartEvent → Prop
  | part q' _ index _ _ => q' = q ∧ index = i
  | sweep _ => False

end PartEvent

namespace Reassembly

variable {r : Reassembly} {q total index : UInt8} {data : List UInt8} {now started : Nat}
  {event : PartEvent} {events : List PartEvent} {a : PartialAnswer} {p : AnswerPart}

/-- One event, and the answer that it completes. -/
def step (event : PartEvent) (r : Reassembly) : Option (List UInt8) × Reassembly :=
  match event with
  | .part q total index data now => r.insert q total index data now
  | .sweep now => (none, r.sweep now)

/-- The reassembly after a run. -/
def run (events : List PartEvent) (r : Reassembly) : Reassembly :=
  events.foldl (fun r e => (r.step e).2) r

theorem run_concat (events : List PartEvent) (event : PartEvent) (r : Reassembly) :
    r.run (events ++ [event]) = ((r.run events).step event).2 :=
  List.foldl_append

theorem step_ttl (event : PartEvent) (r : Reassembly) : (r.step event).2.ttl = r.ttl := by
  cases event with
  | part q total index data now => exact insert_ttl q total index data now r
  | sweep now => rfl

/-! ## What a part joins, and what an event ends -/

/-- The answer that a part joins, with the part. -/
inductive Joins (r : Reassembly) (q total index : UInt8) (data : List UInt8) (now : Nat) :
    PartialAnswer → Prop where
  | first : Joins r q total index data now
      ⟨total, (∅ : Std.ExtTreeMap UInt8 (List UInt8)).insert index data, now⟩
  | further {a : PartialAnswer} (hheld : r.held[q]? = some a) (hyoung : now - a.started < r.ttl)
      (htotal : a.total = total) :
      Joins r q total index data now { a with parts := a.parts.insert index data }

theorem joins_answerWith (r : Reassembly) (q total index : UInt8) (data : List UInt8)
    (now : Nat) : Joins r q total index data now (r.answerWith q total index data now) := by
  unfold answerWith answerFor
  dsimp only
  cases hswept : (r.sweep now).held[q]? with
  | none => exact .first
  | some a =>
    dsimp only
    by_cases htotal : a.total = total
    · rw [if_pos htotal]
      rw [getElem?_sweep] at hswept
      obtain ⟨hheld, hyoung⟩ := Option.filter_eq_some_iff.1 hswept
      exact .further hheld (of_decide_eq_true hyoung) htotal
    · rw [if_neg htotal]
      exact .first

theorem Joins.total_eq (h : Joins r q total index data now a) : a.total = total := by
  cases h with
  | first => rfl
  | further hheld hyoung htotal => exact htotal

theorem Joins.size_pos (h : Joins r q total index data now a) : 0 < a.parts.size := by
  have hmem : index ∈ a.parts := by
    cases h <;> exact Std.ExtTreeMap.mem_insert_self
  rw [← Std.ExtTreeMap.length_keys]
  exact List.length_pos_of_mem (Std.ExtTreeMap.mem_keys.2 hmem)

/-- An event drops what is held for a sequence number: it finds it too old, or it brings a part of
an answer with another number of parts. -/
inductive Drops (q : UInt8) (r : Reassembly) : PartEvent → Prop where
  | expired {event : PartEvent} {a : PartialAnswer} (hheld : r.held[q]? = some a)
      (hold : r.ttl ≤ event.time - a.started) : Drops q r event
  | recounted {total index : UInt8} {data : List UInt8} {now : Nat} {a : PartialAnswer}
      (hheld : r.held[q]? = some a) (htotal : a.total ≠ total) :
      Drops q r (.part q total index data now)

/-- An event ends what is held for a sequence number: it drops it, or completes it. -/
inductive Ends (q : UInt8) (r : Reassembly) : PartEvent → Prop where
  | dropped {event : PartEvent} (hdrops : Drops q r event) : Ends q r event
  | completed {total index : UInt8} {data whole : List UInt8} {now : Nat}
      (hwhole : (r.insert q total index data now).1 = some whole) :
      Ends q r (.part q total index data now)

/-- What is young enough at an event, and of which the event brings no part, is not ended by it. -/
theorem not_ends_of_other (hheld : r.held[q]? = some a) (hyoung : event.time - a.started < r.ttl)
    (hother : ∀ i, ¬ event.Fills q i) : ¬ Ends q r event := by
  rintro (⟨⟨hheld', hold⟩ | ⟨hheld', htotal⟩⟩ | ⟨hwhole⟩)
  · cases hheld.symm.trans hheld'
    omega
  · exact hother _ ⟨rfl, rfl⟩
  · exact hother _ ⟨rfl, rfl⟩

/-- A part that joins an answer and does not complete it does not end it. -/
theorem not_drops_of_further (hheld : r.held[q]? = some a) (hyoung : now - a.started < r.ttl)
    (htotal : a.total = total) : ¬ Drops q r (.part q total index data now) := by
  rintro (⟨hheld', hold⟩ | ⟨hheld', htotal'⟩)
  · cases hheld.symm.trans hheld'
    exact Nat.not_lt.2 hold hyoung
  · cases hheld.symm.trans hheld'
    exact htotal' htotal

/-- **What is held after an event**: what was held before and is not ended, or the answer that a
part has joined, some parts of which are still missing. -/
theorem held_step (h : (r.step event).2.held[q]? = some a) :
    (r.held[q]? = some a ∧ ¬ Ends q r event ∧ ∀ i, ¬ event.Fills q i) ∨
      ∃ total index data now, event = .part q total index data now ∧
        (r.insert q total index data now).1 = none ∧
        a = r.answerWith q total index data now ∧ a.parts.size < total.toNat := by
  -- what a sweep leaves was held before and is young enough
  have hswept {now : Nat} (ha : (r.sweep now).held[q]? = some a) :
      r.held[q]? = some a ∧ now - a.started < r.ttl := by
    rw [getElem?_sweep] at ha
    obtain ⟨hheld, hyoung⟩ := Option.filter_eq_some_iff.1 ha
    exact ⟨hheld, of_decide_eq_true hyoung⟩
  cases event with
  | sweep now =>
    obtain ⟨hheld, hyoung⟩ := hswept h
    have hother (i : UInt8) : ¬ (PartEvent.sweep now).Fills q i := not_false
    exact Or.inl ⟨hheld, not_ends_of_other hheld hyoung hother, hother⟩
  | part q' total index data now =>
    change (r.insert q' total index data now).2.held[q]? = some a at h
    by_cases hq : q' = q
    · subst hq
      right
      by_cases hlt : (r.answerWith q' total index data now).parts.size < total.toNat
      · obtain ⟨hnone, hheld⟩ := insert_of_lt hlt
        cases hheld.symm.trans h
        exact ⟨total, index, data, now, rfl, hnone, rfl, hlt⟩
      · rw [(insert_of_not_lt hlt).2] at h
        cases h
    · left
      rw [getElem?_insert_of_ne hq] at h
      obtain ⟨hheld, hyoung⟩ := hswept h
      have hother (i : UInt8) : ¬ (PartEvent.part q' total index data now).Fills q i :=
        fun hfills => hq hfills.1
      exact ⟨hheld, not_ends_of_other hheld hyoung hother, hother⟩

/-! ## The latest part for a place -/

/-- A part came in a run at time `t`, and since then none came for its place and nothing has ended
what is held for its sequence number. -/
def Latest (r : Reassembly) (events : List PartEvent) (q total : UInt8) (t : Nat)
    (p : AnswerPart) : Prop :=
  ∃ old recent, events = old ++ .part q total p.1 p.2 t :: recent ∧
    (∀ e ∈ recent, ¬ e.Fills q p.1) ∧
    ∀ mid e rest, recent = mid ++ e :: rest →
      ¬ Ends q (r.run (old ++ .part q total p.1 p.2 t :: mid)) e

variable {t : Nat}

theorem latest_concat_part (r : Reassembly) (events : List PartEvent) (q total index : UInt8)
    (data : List UInt8) (now : Nat) :
    Latest r (events ++ [.part q total index data now]) q total now (index, data) := by
  refine ⟨events, [], rfl, nofun, fun mid e rest h => ?_⟩
  exact absurd h (List.append_ne_nil_of_right_ne_nil mid (List.cons_ne_nil e rest)).symm

theorem Latest.concat (h : Latest r events q total t p) (hfills : ¬ event.Fills q p.1)
    (hends : ¬ Ends q (r.run events) event) : Latest r (events ++ [event]) q total t p := by
  obtain ⟨old, recent, rfl, hother, hkept⟩ := h
  refine ⟨old, recent ++ [event], by simp, fun e he => ?_, fun mid e rest heq => ?_⟩
  · rcases List.mem_append.1 he with he | he
    · exact hother e he
    · cases List.mem_singleton.1 he
      exact hfills
  · -- the event in question is the last one, or it was there before
    rcases List.eq_nil_or_concat rest with rfl | ⟨rest, last, rfl⟩
    · obtain ⟨rfl, hevent⟩ := List.append_inj' heq rfl
      cases hevent
      exact hends
    · have hsplit : recent ++ [event] = (mid ++ e :: rest) ++ [last] := by simpa using heq
      exact hkept mid e rest (List.append_inj' hsplit rfl).1

/-! ## What is held after a run -/

/-- What is known of everything that a reassembly holds, when it has held nothing before a run. -/
structure Traced (ttl : Nat) (events : List PartEvent) (r : Reassembly) : Prop where
  ttl_eq : r.ttl = ttl
  /-- An answer began at one of the events. -/
  begun : ∀ (q : UInt8) (a : PartialAnswer), r.held[q]? = some a →
    ∃ e ∈ events, a.started = e.time
  latest : ∀ (q : UInt8) (a : PartialAnswer) (i : UInt8) (d : List UInt8),
    r.held[q]? = some a → a.parts[i]? = some d →
      ∃ t, a.started ≤ t ∧ Latest (empty ttl) events q a.total t (i, d)
  places : ∀ (q : UInt8) (a : PartialAnswer), r.held[q]? = some a → ∀ i ∈ a.parts, i < a.total
  missing : ∀ (q : UInt8) (a : PartialAnswer), r.held[q]? = some a →
    0 < a.parts.size ∧ a.parts.size < a.total.toNat

variable {ttl : Nat}

theorem traced_empty (ttl : Nat) : Traced ttl [] (empty ttl) := by
  have hnone {q : UInt8} {a : PartialAnswer} (h : (empty ttl).held[q]? = some a) : False := by
    rw [show (empty ttl).held = ∅ from rfl, Std.ExtTreeMap.getElem?_empty] at h
    cases h
  exact ⟨rfl, fun _ _ h => (hnone h).elim, fun _ _ _ _ h => (hnone h).elim,
    fun _ _ h => (hnone h).elim, fun _ _ h => (hnone h).elim⟩

section Joined

variable (h : Traced ttl events r) (hjoins : Joins r q total index data now a)

include h hjoins

/-- The places of an answer that a part has joined. -/
theorem Traced.places_of_joins (hindex : index < total) : ∀ i ∈ a.parts, i < total := by
  intro i hi
  cases hjoins with
  | first =>
    rcases Std.ExtTreeMap.mem_insert.1 hi with heq | hmem
    · exact Std.LawfulEqOrd.compare_eq_iff_eq.1 heq ▸ hindex
    · simp at hmem
  | further hheld hyoung htotal =>
    rcases Std.ExtTreeMap.mem_insert.1 hi with heq | hmem
    · exact Std.LawfulEqOrd.compare_eq_iff_eq.1 heq ▸ hindex
    · exact htotal ▸ h.places q _ hheld i hmem

/-- Of the parts of an answer that a part has joined, the others were the latest for their places,
and their answer is not dropped. -/
theorem Traced.latest_of_joins {i : UInt8} {d : List UInt8} (hd : a.parts[i]? = some d) :
    (i = index ∧ d = data) ∨
      i ≠ index ∧ ¬ Drops q r (.part q total index data now) ∧ now - a.started < ttl ∧
        ∃ t, a.started ≤ t ∧ Latest (empty ttl) events q total t (i, d) := by
  cases hjoins with
  | first =>
    rw [Std.ExtTreeMap.getElem?_insert] at hd
    split at hd
    · next heq =>
      cases hd
      exact Or.inl ⟨(Std.LawfulEqOrd.compare_eq_iff_eq.1 heq).symm, rfl⟩
    · simp at hd
  | further hheld hyoung htotal =>
    rw [Std.ExtTreeMap.getElem?_insert] at hd
    split at hd
    · next heq =>
      cases hd
      exact Or.inl ⟨(Std.LawfulEqOrd.compare_eq_iff_eq.1 heq).symm, rfl⟩
    · next hne =>
      obtain ⟨t, ht, hlatest⟩ := h.latest q _ i d hheld hd
      have hi : i ≠ index := fun heq => hne (Std.LawfulEqOrd.compare_eq_iff_eq.2 heq.symm)
      exact Or.inr ⟨hi, not_drops_of_further hheld hyoung htotal, h.ttl_eq ▸ hyoung, t, ht,
        htotal ▸ hlatest⟩

/-- An answer that a part has joined began with that part, or earlier. -/
theorem Traced.started_of_joins (htimes : ∀ e ∈ events, e.time ≤ now) :
    a.started ≤ now ∧ (a.started = now ∨ ∃ e ∈ events, a.started = e.time) := by
  cases hjoins with
  | first => exact ⟨Nat.le_refl now, Or.inl rfl⟩
  | further hheld hyoung htotal =>
    obtain ⟨e, he, hbegun⟩ := h.begun q _ hheld
    exact ⟨hbegun ▸ htimes e he, Or.inr ⟨e, he, hbegun⟩⟩

end Joined

/-- **One event.** -/
theorem Traced.step (h : Traced ttl events ((empty ttl).run events)) (hfits : event.Fits)
    (htimes : ∀ e ∈ events, e.time ≤ event.time) :
    Traced ttl (events ++ [event]) ((empty ttl).run (events ++ [event])) := by
  rw [run_concat]
  generalize hr : (empty ttl).run events = r at h ⊢
  refine ⟨(step_ttl event r).trans h.ttl_eq, fun q a ha => ?_, fun q a i d ha hd => ?_,
    fun q a ha => ?_, fun q a ha => ?_⟩
  · rcases held_step ha with ⟨hheld, -, -⟩ | ⟨total, index, data, now, rfl, -, rfl, -⟩
    · obtain ⟨e, he, hbegun⟩ := h.begun q a hheld
      exact ⟨e, List.mem_append_left _ he, hbegun⟩
    · have hjoins := joins_answerWith r q total index data now
      rcases (h.started_of_joins hjoins htimes).2 with hbegun | ⟨e, he, hbegun⟩
      · exact ⟨_, List.mem_append_right _ List.mem_cons_self, hbegun⟩
      · exact ⟨e, List.mem_append_left _ he, hbegun⟩
  · rcases held_step ha with ⟨hheld, hends, hother⟩ | ⟨total, index, data, now, rfl, hnone, rfl, -⟩
    · obtain ⟨t, ht, hlatest⟩ := h.latest q a i d hheld hd
      exact ⟨t, ht, hlatest.concat (hother i) (hr ▸ hends)⟩
    · have hjoins := joins_answerWith r q total index data now
      rw [hjoins.total_eq]
      rcases h.latest_of_joins hjoins hd with ⟨rfl, rfl⟩ | ⟨hi, hdrops, -, t, ht, hlatest⟩
      · exact ⟨now, (h.started_of_joins hjoins htimes).1,
          latest_concat_part (empty ttl) events q total i d now⟩
      · refine ⟨t, ht, hlatest.concat (fun hfills => hi hfills.2.symm) ?_⟩
        rw [hr]
        rintro (hdropped | hwhole)
        · exact hdrops hdropped
        · cases hnone.symm.trans hwhole
  · rcases held_step ha with ⟨hheld, -, -⟩ | ⟨total, index, data, now, rfl, -, rfl, -⟩
    · exact h.places q a hheld
    · have hjoins := joins_answerWith r q total index data now
      rw [hjoins.total_eq]
      exact h.places_of_joins hjoins hfits
  · rcases held_step ha with ⟨hheld, -, -⟩ | ⟨total, index, data, now, rfl, -, rfl, hlt⟩
    · exact h.missing q a hheld
    · have hjoins := joins_answerWith r q total index data now
      rw [hjoins.total_eq]
      exact ⟨hjoins.size_pos, hlt⟩

/-- **Everything that is held after a run** can be traced to its events. -/
theorem traced_run (ttl : Nat) (hfits : ∀ e ∈ events, e.Fits)
    (htimes : events.Pairwise fun e e' => e.time ≤ e'.time) :
    Traced ttl events ((empty ttl).run events) := by
  induction events using List.reverseRecOn with
  | nil => exact traced_empty ttl
  | append_singleton events event ih =>
    obtain ⟨hbefore, hevent⟩ := List.forall_mem_append.1 hfits
    obtain ⟨hordered, -, hlast⟩ := List.pairwise_append.1 htimes
    exact (ih hbefore hordered).step (hevent event List.mem_cons_self)
      fun e he => hlast e he event List.mem_cons_self

/-! ## The theorem -/

/-- **An answer is joined of the latest parts.** Take any run of parts and sweeps, in which time
does not go back and the place of every part lies below the number of parts that it names.

A part that completes an answer has it handed out whole: as many pieces as the part says, in the
order of their places. One of them is the data of that part. Each other is what came last for its
place, with the same number of parts; it came less than the holding time before, and neither has an
answer of that sequence number been completed since, nor one been dropped, for its age or for
another number of parts. After it nothing is held for that sequence number, and for the others what
the sweep has left.

At any moment an answer that is held has some of its parts and lacks some, and the places of those
it has lie below their number. -/
theorem answer_joins_latest_parts
    (htimes : (events ++ [event]).Pairwise fun e e' => e.time ≤ e'.time)
    (hfits : ∀ e ∈ events ++ [event], e.Fits) :
    (∀ q total index data now whole, event = .part q total index data now →
      (((empty ttl).run events).step event).1 = some whole →
      (∃ parts : List (List UInt8), parts.length = total.toNat ∧ whole = parts.flatten ∧
        ∀ (i : UInt8) d, parts[i.toNat]? = some d →
          (i = index ∧ d = data) ∨
            i ≠ index ∧ ¬ Drops q ((empty ttl).run events) event ∧
              ∃ t, Latest (empty ttl) events q total t (i, d) ∧ now - t < ttl) ∧
      ∀ q', (((empty ttl).run events).step event).2.held[q']? =
        if q' = q then none else (((empty ttl).run events).sweep now).held[q']?) ∧
    ∀ (q : UInt8) (a : PartialAnswer),
      (((empty ttl).run events).step event).2.held[q]? = some a →
      (0 < a.parts.size ∧ a.parts.size < a.total.toNat) ∧ ∀ i ∈ a.parts, i < a.total := by
  have hafter := traced_run ttl hfits htimes
  rw [run_concat] at hafter
  refine ⟨?_, fun q a ha => ⟨hafter.missing q a ha, hafter.places q a ha⟩⟩
  rintro q total index data now whole rfl hwhole
  obtain ⟨hbefore, hevent⟩ := List.forall_mem_append.1 hfits
  have htraced := traced_run ttl hbefore (List.pairwise_append.1 htimes).1
  generalize (empty ttl).run events = r at hwhole htraced ⊢
  have hindex : index < total := hevent _ List.mem_cons_self
  have hjoins := joins_answerWith r q total index data now
  -- the answer would have been kept if a part of it were missing
  have hfull : ¬ (r.answerWith q total index data now).parts.size < total.toNat := fun hlt => by
    cases (insert_of_lt hlt).1.symm.trans hwhole
  obtain ⟨hsome, hgone⟩ := insert_of_not_lt hfull
  cases hsome.symm.trans hwhole
  constructor
  · obtain ⟨parts, hlength, hholds⟩ :=
      exists_holdsParts (htraced.places_of_joins hjoins hindex) (Nat.not_lt.1 hfull)
    have hshort : parts.length ≤ 255 := by
      have := total.toNat_lt
      omega
    refine ⟨parts, hlength, hholds.join_eq hshort, fun i d hd => ?_⟩
    obtain ⟨hi, rfl⟩ := List.getElem?_eq_some_iff.1 hd
    have hheld := (hholds i parts[i.toNat]).2
      ⟨⟨i.toNat, hi⟩, Finset.mem_univ _, UInt8.ofNat_toNat, rfl⟩
    refine (htraced.latest_of_joins hjoins hheld).imp_right ?_
    rintro ⟨hne, hdrops, hyoung, t, ht, hlatest⟩
    exact ⟨hne, hdrops, t, hlatest, by omega⟩
  · intro q'
    by_cases hq : q' = q
    · rw [if_pos hq, hq]
      exact hgone
    · rw [if_neg hq]
      exact getElem?_insert_of_ne (Ne.symm hq)

/-- A first part of three gives way to one of two, which comes again before the second does. -/
def recountedParts : List PartEvent :=
  [.part 7 3 0 [1] 0, .part 7 2 0 [2] 5, .part 7 2 0 [3] 10]

theorem answer_joins_latest_parts_recounted :
    (((empty 120000).run recountedParts).step (.part 7 2 1 [4] 20)).1 = some [3, 4] ∧
    ∃ parts : List (List UInt8), parts.length = 2 ∧ [3, 4] = parts.flatten ∧
      ∀ (i : UInt8) d, parts[i.toNat]? = some d → (i = 1 ∧ d = [4]) ∨
        i ≠ 1 ∧ ∃ t, Latest (empty 120000) recountedParts 7 2 t (i, d) ∧ 20 - t < 120000 := by
  have htimes : (recountedParts ++ [PartEvent.part 7 2 1 [4] 20]).Pairwise
      fun e e' => e.time ≤ e'.time := by
    decide
  have hfits : ∀ e ∈ recountedParts ++ [PartEvent.part 7 2 1 [4] 20], e.Fits := by
    decide
  have hwhole : (((empty 120000).run recountedParts).step (.part 7 2 1 [4] 20)).1 =
      some [3, 4] := by
    decide +kernel
  obtain ⟨⟨parts, hlength, hjoined, hlatest⟩, -⟩ :=
    (answer_joins_latest_parts htimes hfits).1 7 2 1 [4] 20 [3, 4] rfl hwhole
  refine ⟨hwhole, parts, hlength, hjoined, fun i d hd => (hlatest i d hd).imp_right ?_⟩
  rintro ⟨hne, -, hearlier⟩
  exact ⟨hne, hearlier⟩

end Reassembly

end Switchboard.Admin
