import Switchboard.Proofs.Exchange.Reservations

/-!
# Every id comes from the configured range

The range of ids is looked at twice, when settings are checked and when the free ids are made; in
between the start of the range may be moved up at random. The sums and differences are of words.

* **`exists_draw_iff`**, **`two_mul_offset_lt`**: which offsets can be drawn, and that each of them
  leaves more than half of the range.
* **`ServesFrom`**: what is left of a configured range. A usable range leaves it, with a random
  start or without (`servesFrom_freeIds`).
* **`IdsWithin`**: the ids that an exchange issues, keeps results under and answers with are ids of
  a range. From the moment when it opens they are ids of the configured one (`idsWithin_afterAll`).
* **`validated_ids_serve`**: settings that are accepted open an exchange that issues ids of the
  configured range only; a range for which settings are refused makes no free ids either.
-/

namespace Switchboard

/-! ## The random start -/

namespace FreeIds

variable {first last : UInt64}

theorem toNat_span (h : first < last) : (last - first).toNat = last.toNat - first.toNat :=
  UInt64.toNat_sub_of_le _ _ (UInt64.le_of_lt h)

theorem two_mul_offsetBound_le (first last : UInt64) :
    2 * (offsetBound first last).toNat ≤ (last - first).toNat := by
  have hhalf : ((last - first) / 2).toNat = (last - first).toNat / 2 := UInt64.toNat_div _ _
  show 2 * (if maxOffset ≤ (last - first) / 2 then maxOffset else (last - first) / 2).toNat ≤ _
  split
  · next hle =>
    have hle' := UInt64.le_iff_toNat_le.1 hle
    omega
  · omega

/-- The offsets that can be drawn. -/
theorem exists_draw_iff (first last k : UInt64) :
    (∃ draw, offset first last draw = k) ↔ k = 0 ∨ k < offsetBound first last := by
  by_cases hzero : offsetBound first last = 0
  · have hoffset (draw : UInt64) : offset first last draw = 0 := if_pos hzero
    simp only [hoffset, hzero, UInt64.not_lt_zero, or_false, exists_const]
    exact eq_comm
  · have hoffset (draw : UInt64) : offset first last draw = draw % offsetBound first last :=
      if_neg hzero
    have hpos : 0 < offsetBound first last := UInt64.pos_iff_ne_zero.2 hzero
    simp only [hoffset]
    constructor
    · rintro ⟨draw, rfl⟩
      exact .inr (UInt64.mod_lt draw hpos)
    · intro hk
      have hlt : k < offsetBound first last := by
        rcases hk with rfl | hlt
        · exact hpos
        · exact hlt
      exact ⟨k, UInt64.mod_eq_of_lt hlt⟩

/-- An offset gives up less than half of the range. -/
theorem two_mul_offset_lt (h : first < last) (draw : UInt64) :
    2 * (offset first last draw).toNat < last.toNat - first.toNat := by
  have hspan := toNat_span h
  have hbound := two_mul_offsetBound_le first last
  have hlt : first.toNat < last.toNat := UInt64.lt_iff_toNat_lt.1 h
  rcases (exists_draw_iff first last _).1 ⟨draw, rfl⟩ with hzero | hoffset
  · rw [hzero]
    show 2 * 0 < _
    omega
  · have hoffset' := UInt64.lt_iff_toNat_lt.1 hoffset
    omega

/-- The start is moved without wrapping. -/
theorem toNat_add_offset (h : first < last) (draw : UInt64) :
    (first + offset first last draw).toNat = first.toNat + (offset first last draw).toNat := by
  have hoffset := two_mul_offset_lt h draw
  have hlast : last.toNat < UInt64.size := last.toNat_lt_size
  rw [UInt64.toNat_add]
  apply Nat.mod_eq_of_lt
  show _ < UInt64.size
  omega

/-- What free ids leave of a range: an interval of more than half of it, at its end, and at first
all of the interval is free. -/
structure ServesFrom (first last : UInt64) (ids : FreeIds) : Prop where
  first_le : first.toNat ≤ ids.range.start.toNat
  stop_eq : ids.range.stop = last
  nonempty : ids.range.start.toNat < ids.range.stop.toNat
  half : last.toNat - first.toNat ≤ 2 * (ids.range.stop.toNat - ids.range.start.toNat)
  intervals_eq : ids.intervals = [ids.range]

theorem servesFrom_ofRange (hfirst : 1 ≤ first) (h : first < last) :
    ∃ ids, ofRange first last = .ok ids ∧ ServesFrom first last ids := by
  have hlt : first.toNat < last.toNat := UInt64.lt_iff_toNat_lt.1 h
  refine ⟨_, ofRange_eq_ok hfirst h, Nat.le_refl _, rfl, hlt, ?_, rfl⟩
  show last.toNat - first.toNat ≤ 2 * (last.toNat - first.toNat)
  omega

theorem servesFrom_ofRandomized (hfirst : 1 ≤ first) (h : first < last) (draw : UInt64) :
    ∃ ids, ofRandomized first last draw = .ok ids ∧ ServesFrom first last ids := by
  have hstart := toNat_add_offset h draw
  have hoffset := two_mul_offset_lt h draw
  have hone : 1 ≤ first.toNat := UInt64.le_iff_toNat_le.1 hfirst
  have hfirst' : 1 ≤ first + offset first last draw := by
    rw [UInt64.le_iff_toNat_le, hstart]
    show 1 ≤ _
    omega
  have hlast' : first + offset first last draw < last := by
    rw [UInt64.lt_iff_toNat_lt, hstart]
    omega
  have hrange : ofRandomized first last draw = ofRange (first + offset first last draw) last := by
    apply if_neg
    rintro (rfl | hempty)
    · exact absurd hone (by decide)
    · exact UInt64.not_le.2 h hempty
  refine ⟨_, hrange.trans (ofRange_eq_ok hfirst' hlast'), ?_, rfl,
    UInt64.lt_iff_toNat_lt.1 hlast', ?_, rfl⟩
  · show first.toNat ≤ (first + offset first last draw).toNat
    omega
  · show _ ≤ 2 * (last.toNat - (first + offset first last draw).toNat)
    omega

/-- At least half of a range can be issued. -/
theorem ServesFrom.half_le_count {ids : FreeIds} (h : ServesFrom first last ids) :
    last.toNat - first.toNat ≤ 2 * ids.count.toNat := by
  have hwidth : ids.count.toNat = ids.range.stop.toNat - ids.range.start.toNat := by
    rw [count, h.intervals_eq, List.foldr_cons, List.foldr_nil, UInt64.add_zero]
    exact toNat_span (UInt64.lt_iff_toNat_lt.2 h.nonempty)
  rw [hwidth]
  exact h.half

theorem ServesFrom.holds {ids : FreeIds} (h : ServesFrom first last ids) {id : RequestId}
    (hid : ids.range.holds id = true) : Interval.holds ⟨first, last⟩ id = true := by
  rw [Interval.holds_iff, Interval.mem_toFinset] at hid ⊢
  exact ⟨Nat.le_trans h.first_le hid.1, h.stop_eq ▸ hid.2⟩

end FreeIds

/-! ## Settings -/

namespace Settings

variable {s : Settings}

theorem usable_of_invalidity?_eq_none (h : s.invalidity? = none) :
    1 ≤ s.idRangeStart ∧ s.idRangeStart < s.idRangeEnd := by
  unfold invalidity? at h
  split at h
  · cases h
  · next hfirst =>
    split at h
    · cases h
    · next hempty =>
      have hpos := UInt64.lt_iff_toNat_lt.1 (UInt64.pos_iff_ne_zero.2 hfirst)
      exact ⟨UInt64.le_iff_toNat_le.2 hpos, UInt64.not_le.1 hempty⟩

/-- What is wrong with a console is not the range. -/
theorem sectionInvalidity?_ne {name : String} {c : ConsoleSection} {reason : Invalidity}
    (h : sectionInvalidity? name c = some reason) :
    reason ≠ .firstIdZero ∧ reason ≠ .emptyIdRange := by
  unfold sectionInvalidity? at h
  split at h
  · cases h
    exact ⟨nofun, nofun⟩
  · split at h
    · cases h
      exact ⟨nofun, nofun⟩
    · cases h

/-- Only a range that cannot be used is refused as one. -/
theorem unusable_of_refused
    (h : s.invalidity? = some .firstIdZero ∨ s.invalidity? = some .emptyIdRange) :
    s.idRangeStart = 0 ∨ s.idRangeEnd ≤ s.idRangeStart := by
  by_cases hfirst : s.idRangeStart = 0
  · exact .inl hfirst
  · by_cases hempty : s.idRangeEnd ≤ s.idRangeStart
    · exact .inr hempty
    · rw [invalidity?, if_neg hfirst, if_neg hempty] at h
      rcases h with h | h
      · obtain ⟨p, -, hsection⟩ := List.exists_of_findSome?_eq_some h
        exact absurd rfl (sectionInvalidity?_ne hsection).1
      · obtain ⟨p, -, hsection⟩ := List.exists_of_findSome?_eq_some h
        exact absurd rfl (sectionInvalidity?_ne hsection).2

end Settings

namespace Exchange

variable {x : Exchange} {s : Settings}

/-- **A range that is accepted makes free ids**, with any random number. -/
theorem servesFrom_freeIds (h : s.invalidity? = none) (draw : UInt64) :
    ∃ ids, freeIds s draw = .ok ids ∧ FreeIds.ServesFrom s.idRangeStart s.idRangeEnd ids := by
  obtain ⟨hfirst, hlast⟩ := Settings.usable_of_invalidity?_eq_none h
  unfold freeIds
  split
  · exact FreeIds.servesFrom_ofRandomized hfirst hlast draw
  · exact FreeIds.servesFrom_ofRange hfirst hlast

/-! ## Issued ids -/

/-- The ids of an exchange are ids of a range: the one that it would issue next, those under which
it keeps results, and those that it answers calls with. And no word wraps. -/
structure IdsWithin (range : Interval) (x : Exchange) : Prop where
  issued : ∀ id store, x.store.issue = some (id, store) → range.holds id = true
  kept : ∀ id ∈ x.store.entries, range.holds id = true
  answered : ∀ event id handler payload, Defers x event id handler payload → range.holds id = true
  exact : x.store.ids.Exact

theorem idsWithin_of_sound {range : Interval} (h : x.store.Sound range) : IdsWithin range x := by
  have hkept {y : Exchange} (hy : y.store.Sound range) {id : RequestId}
      (hmem : id ∈ y.store.entries) : range.holds id = true :=
    Interval.holds_iff.2 (hy.of_mem_entries hmem).1
  refine ⟨fun id store hissue => ResultStore.holds_of_issue h hissue, fun id => hkept h, ?_,
    h.wellFormed.exact⟩
  intro event id handler payload hdefers
  -- the answer of a call is an id under which there is an entry since the call
  rcases hdefers.issues h with ⟨text, -, hissues⟩ | hissues
  · apply hkept hissues.sound
    rw [hissues.entries_eq]
    exact Std.ExtTreeMap.mem_insert_self
  · apply hkept hissues.sound
    rw [hissues.entries_eq]
    exact Std.ExtTreeMap.mem_insert_self

theorem IdsWithin.mono {range range' : Interval} (h : IdsWithin range x)
    (hle : ∀ id, range.holds id = true → range'.holds id = true) : IdsWithin range' x where
  issued := fun id store hissue => hle id (h.issued id store hissue)
  kept := fun id hmem => hle id (h.kept id hmem)
  answered := fun event id handler payload hdefers =>
    hle id (h.answered event id handler payload hdefers)
  exact := h.exact

/-- The ids of every run come from the configured range. -/
theorem idsWithin_afterAll {ids : FreeIds} {draw : UInt64} (hids : freeIds s draw = .ok ids)
    (hserves : FreeIds.ServesFrom s.idRangeStart s.idRangeEnd ids) (hstore : x.store = .ofIds ids)
    (os : List Occurrence) : IdsWithin ⟨s.idRangeStart, s.idRangeEnd⟩ (x.afterAll os) := by
  obtain ⟨hwf, hset⟩ := wellFormed_of_freeIds hids
  have hsound : x.store.Sound ids.range := by
    rw [hstore]
    exact ResultStore.sound_ofIds hwf hset
  exact (idsWithin_of_sound (sound_afterAll hsound os)).mono fun id hid => hserves.holds hid

/-! ## The theorem -/

/-- **Accepted settings have ids that work.** For settings that are accepted, with any bounds of the
range: the span of the range is no wrapped difference, the offsets that can be drawn are those below
a bound, and 0; and with every random number the start is moved without wrapping and an exchange
opens. Its ids are an interval, not empty, at the end of the configured range; at least half of the
configured ids are free; and after anything that happens to it later, all ids that it issues, keeps
results under or answers with are in the configured range, and no word wraps. Conversely a range for
which settings are refused makes no free ids, with or without a random start. -/
theorem validated_ids_serve (s : Settings) :
    (s.invalidity? = none →
      (s.idRangeEnd - s.idRangeStart).toNat = s.idRangeEnd.toNat - s.idRangeStart.toNat ∧
      s.idRangeStart.toNat < s.idRangeEnd.toNat ∧
      (∀ k, (∃ draw, FreeIds.offset s.idRangeStart s.idRangeEnd draw = k) ↔
        k = 0 ∨ k < FreeIds.offsetBound s.idRangeStart s.idRangeEnd) ∧
      ∀ (draw : UInt64) (pool : Pool Task),
        (s.idRangeStart + FreeIds.offset s.idRangeStart s.idRangeEnd draw).toNat =
          s.idRangeStart.toNat + (FreeIds.offset s.idRangeStart s.idRangeEnd draw).toNat ∧
        ∃ x, create s pool draw = .ok x ∧
          FreeIds.ServesFrom s.idRangeStart s.idRangeEnd x.store.ids ∧
          s.idRangeEnd.toNat - s.idRangeStart.toNat ≤ 2 * x.store.ids.count.toNat ∧
          ∀ os : List Occurrence, IdsWithin ⟨s.idRangeStart, s.idRangeEnd⟩ (x.afterAll os)) ∧
    (s.invalidity? = some .firstIdZero ∨ s.invalidity? = some .emptyIdRange →
      FreeIds.ofRange s.idRangeStart s.idRangeEnd =
        .error (.invalidIdRange s.idRangeStart s.idRangeEnd) ∧
      ∀ draw, FreeIds.ofRandomized s.idRangeStart s.idRangeEnd draw =
        .error (.invalidIdRange s.idRangeStart s.idRangeEnd)) := by
  constructor
  · intro hvalid
    obtain ⟨-, hlast⟩ := Settings.usable_of_invalidity?_eq_none hvalid
    refine ⟨FreeIds.toNat_span hlast, UInt64.lt_iff_toNat_lt.1 hlast,
      FreeIds.exists_draw_iff _ _, fun draw pool => ⟨FreeIds.toNat_add_offset hlast draw, ?_⟩⟩
    obtain ⟨ids, hids, hserves⟩ := servesFrom_freeIds hvalid draw
    have hcreate := congrArg (Except.map fun ids => ({
      settings := s, store := .ofIds ids, databases := ∅, registry := ∅, link := none,
      locked := false, pool, stopped := false } : Exchange)) hids
    exact ⟨_, hcreate, hserves, hserves.half_le_count, idsWithin_afterAll hids hserves rfl⟩
  · intro hrefused
    have hunusable := Settings.unusable_of_refused hrefused
    exact ⟨if_pos hunusable, fun draw => if_pos hunusable⟩

/-- The last ids that there are, with a random start. -/
def lastIds : Settings :=
  { idRangeStart := 18446744073709551600, idRangeEnd := 18446744073709551615 }

def noIds : Settings :=
  { idRangeStart := 18446744073709551615, idRangeEnd := 18446744073709551615 }

theorem validated_ids_serve_to_the_last_word :
    lastIds.usesRandomIds = true ∧
    (∃ x, create lastIds (.ofSize 1) 17 = .ok x ∧
      x.store.ids.range = ⟨18446744073709551603, 18446744073709551615⟩ ∧
      IdsWithin ⟨18446744073709551600, 18446744073709551615⟩ (x.afterAll [.event echoSetup])) ∧
    FreeIds.ofRandomized noIds.idRangeStart noIds.idRangeEnd 17 =
      .error (.invalidIdRange noIds.idRangeStart noIds.idRangeEnd) := by
  have hvalid : lastIds.invalidity? = none := rfl
  have hrefused : noIds.invalidity? = some .emptyIdRange := by decide +kernel
  obtain ⟨-, -, -, hopens⟩ := (validated_ids_serve lastIds).1 hvalid
  obtain ⟨-, x, hcreate, -, -, hwithin⟩ := hopens 17 (.ofSize 1)
  refine ⟨by decide, ⟨x, hcreate, ?_, hwithin [.event echoSetup]⟩,
    ((validated_ids_serve noIds).2 (.inr hrefused)).2 17⟩
  cases hcreate
  decide +kernel

end Exchange

end Switchboard
