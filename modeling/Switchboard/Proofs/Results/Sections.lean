import Switchboard.Proofs.Ids.Refinement

/-!
# Operations in two sections

The free ids and the stored results are guarded separately, so any number of callers can be between
the two sections of an operation at once. `SharedStore` is a store with what those callers carry
(`Transit`), and a run lets callers enter and leave their operations in any order.

The invariant is a count (`places`): every id of the range is in one place, free, stored or carried
by one caller, and every other id is in none. A section moves an id from one place to another or
moves nothing, so each step keeps the count (`balanced_step`).

* **`ids_in_one_place`**: after every run every id of the range is in exactly one place, no caller
  is about to park an entry where one is, and once nobody is between two sections the free ids and
  the stored results add up to the range.
-/

namespace Switchboard

/-! ## Callers and their sections -/

/-- What a caller asks of a store. -/
inductive StoreOperation where
  | reserve
  | storeReady (text : String)
  | complete (id : RequestId) (text : String)
  | cancel (id : RequestId)
  | take (id : RequestId) (capacity : Nat)
  | takeChunk (id : RequestId) (capacity : Nat)
  deriving DecidableEq, Repr

/-- What a caller between its two sections has still to do. -/
inductive Transit where
  /-- An id is issued, its entry is not parked yet. -/
  | parking (id : RequestId) (entry : StoredResult)
  /-- An entry is erased, its id is not freed yet. -/
  | releasing (id : RequestId)
  deriving DecidableEq, Repr

/-- The id that a caller carries from one section to the other. -/
def Transit.id : Transit → RequestId
  | parking id _ => id
  | releasing id => id

/-- The second section. -/
def Transit.leave (s : ResultStore) : Transit → ResultStore
  | parking id entry => s.park id entry
  | releasing id => s.release id

/-- The id that a first section carries out of the store, if the second section follows. -/
def StoreOperation.releasingIf (id : RequestId) (follows : Bool) : Option Transit :=
  if follows then some (.releasing id) else none

/-- The first section, with what is left to do after it. -/
def StoreOperation.enter (s : ResultStore) : StoreOperation → Option Transit × ResultStore
  | reserve =>
    match s.issue with
    | none => (none, s)
    | some (id, s) => (some (.parking id .pending), s)
  | storeReady text =>
    match s.issue with
    | none => (none, s)
    | some (id, s) => (some (.parking id (.ready text)), s)
  | complete id text => (none, s.complete id text)
  | cancel id => (releasingIf id (s.discard id).1, (s.discard id).2)
  | take id capacity =>
    (releasingIf id (s.withdraw id capacity).2.1, (s.withdraw id capacity).2.2)
  | takeChunk id capacity =>
    (releasingIf id (s.withdrawChunk id capacity).2.1, (s.withdrawChunk id capacity).2.2)

/-- A whole operation, done by one caller without interruption. -/
def StoreOperation.perform (s : ResultStore) : StoreOperation → ResultStore
  | reserve => s.reserve.2
  | storeReady text => (s.storeReady text).2
  | complete id text => s.complete id text
  | cancel id => s.cancel id
  | take id capacity => (s.take id capacity).2
  | takeChunk id capacity => (s.takeChunk id capacity).2

/-- The two sections in a row are the whole operation. -/
theorem StoreOperation.perform_eq_leave_enter (s : ResultStore) (op : StoreOperation) :
    op.perform s = match op.enter s with
      | (some t, s) => t.leave s
      | (none, s) => s := by
  cases op with
  | reserve =>
    unfold perform enter ResultStore.reserve
    cases s.issue <;> rfl
  | storeReady text =>
    unfold perform enter ResultStore.storeReady
    cases s.issue <;> rfl
  | complete id text => rfl
  | cancel id =>
    simp only [perform, enter, ResultStore.cancel, releasingIf]
    obtain ⟨follows, s'⟩ := s.discard id
    cases follows <;> rfl
  | take id capacity =>
    simp only [perform, enter, ResultStore.take, releasingIf]
    obtain ⟨fetch, follows, s'⟩ := s.withdraw id capacity
    cases follows <;> rfl
  | takeChunk id capacity =>
    simp only [perform, enter, ResultStore.takeChunk, releasingIf]
    obtain ⟨fetch, follows, s'⟩ := s.withdrawChunk id capacity
    cases follows <;> rfl

/-! ## What a first section can do

It carries an issued id, which is no longer free, or the id of an entry that it has erased, or
nothing. -/

/-- How a first section ends. -/
inductive Entered (s s' : ResultStore) : Option Transit → Prop where
  | issued {id : RequestId} (entry : StoredResult) (hids : s.ids.allocate = some (id, s'.ids))
      (hentries : s'.entries = s.entries) : Entered s s' (some (.parking id entry))
  | erased {id : RequestId} (hmem : id ∈ s.entries) (hids : s'.ids = s.ids)
      (hentries : s'.entries = s.entries.erase id) : Entered s s' (some (.releasing id))
  | done (hids : s'.ids = s.ids) (hentries : ∀ id, id ∈ s'.entries ↔ id ∈ s.entries) :
      Entered s s' none

theorem mem_of_getElem?_eq_some {entries : Std.ExtTreeMap RequestId StoredResult}
    {id : RequestId} {entry : StoredResult} (h : entries[id]? = some entry) : id ∈ entries := by
  rw [Std.ExtTreeMap.mem_iff_isSome_getElem?, h]
  rfl

/-- Writing over an entry adds no id. -/
theorem mem_insert_of_mem {entries : Std.ExtTreeMap RequestId StoredResult} {id : RequestId}
    (hmem : id ∈ entries) (entry : StoredResult) (id' : RequestId) :
    id' ∈ entries.insert id entry ↔ id' ∈ entries := by
  rw [Std.ExtTreeMap.mem_insert, Std.LawfulEqOrd.compare_eq_iff_eq]
  constructor
  · rintro (rfl | h)
    · exact hmem
    · exact h
  · exact Or.inr

theorem entered_issue {s : ResultStore} {id : RequestId} {s' : ResultStore}
    (h : s.issue = some (id, s')) (entry : StoredResult) :
    Entered s s' (some (.parking id entry)) := by
  obtain ⟨r, ha, heq⟩ := Option.map_eq_some_iff.1 h
  cases heq
  exact .issued entry ha rfl

theorem entered_withdraw (s : ResultStore) (id : RequestId) (capacity : Nat) :
    Entered s (s.withdraw id capacity).2.2
      (StoreOperation.releasingIf id (s.withdraw id capacity).2.1) := by
  unfold ResultStore.withdraw
  split
  · exact .done rfl fun _ => Iff.rfl
  · exact .done rfl fun _ => Iff.rfl
  · next text hentry =>
    split
    · exact .done rfl fun _ => Iff.rfl
    · exact .erased (mem_of_getElem?_eq_some hentry) rfl rfl

theorem entered_withdrawChunk (s : ResultStore) (id : RequestId) (capacity : Nat) :
    Entered s (s.withdrawChunk id capacity).2.2
      (StoreOperation.releasingIf id (s.withdrawChunk id capacity).2.1) := by
  unfold ResultStore.withdrawChunk
  split
  · exact .done rfl fun _ => Iff.rfl
  · exact .done rfl fun _ => Iff.rfl
  · next text hentry =>
    have hmem := mem_of_getElem?_eq_some hentry
    split
    · exact .erased hmem rfl rfl
    · exact .done rfl (mem_insert_of_mem hmem _)

/-- **What a first section can do.** -/
theorem entered_enter (s : ResultStore) (op : StoreOperation) :
    Entered s (op.enter s).2 (op.enter s).1 := by
  cases op with
  | reserve =>
    rw [StoreOperation.enter]
    split
    · exact .done rfl fun _ => Iff.rfl
    · next h => exact entered_issue h _
  | storeReady text =>
    rw [StoreOperation.enter]
    split
    · exact .done rfl fun _ => Iff.rfl
    · next h => exact entered_issue h _
  | complete id text =>
    show Entered s (s.complete id text) none
    unfold ResultStore.complete
    split
    · next hmem => exact .done rfl (mem_insert_of_mem hmem _)
    · exact .done rfl fun _ => Iff.rfl
  | cancel id =>
    show Entered s (s.discard id).2 (StoreOperation.releasingIf id (s.discard id).1)
    cases hmem : (s.discard id).1 with
    | true => exact .erased hmem rfl rfl
    | false =>
      refine .done rfl fun id' => ?_
      show id' ∈ s.entries.erase id ↔ id' ∈ s.entries
      rw [Std.ExtTreeMap.mem_erase]
      refine and_iff_right_of_imp fun h heq => ?_
      rw [Std.LawfulEqOrd.compare_eq_iff_eq] at heq
      subst heq
      exact Bool.false_ne_true (hmem.symm.trans h)
  | take id capacity => exact entered_withdraw s id capacity
  | takeChunk id capacity => exact entered_withdrawChunk s id capacity

/-- A store with the callers that are between two sections. -/
structure SharedStore where
  store : ResultStore
  transit : List Transit

/-- What happens to a shared store. -/
inductive SectionEvent where
  /-- A caller does the first section of an operation. -/
  | enter (op : StoreOperation)
  /-- The caller at this place of those between two sections does its second. -/
  | leave (place : Nat)
  deriving DecidableEq, Repr

namespace SharedStore

/-- One section. -/
def step (x : SharedStore) : SectionEvent → SharedStore
  | .enter op => ⟨(op.enter x.store).2, x.transit ++ (op.enter x.store).1.toList⟩
  | .leave place =>
    match x.transit[place]? with
    | none => x
    | some t => ⟨t.leave x.store, x.transit.eraseIdx place⟩

/-- A run over fresh ids. -/
def run (ids : FreeIds) (events : List SectionEvent) : SharedStore :=
  events.foldl step ⟨.ofIds ids, []⟩

/-! ## The count

Each place counts an id once or not at all; each of the moves below takes an id out of one place or
puts it into one, and leaves all other ids where they are. -/

/-- Whether an id is free, as a number. -/
def freeAt (id : RequestId) (ids : FreeIds) : Nat :=
  if id.toNat ∈ ids.toFinset then 1 else 0

/-- Whether a result is stored under an id, as a number. -/
def storedAt (id : RequestId) (entries : Std.ExtTreeMap RequestId StoredResult) : Nat :=
  if id ∈ entries then 1 else 0

/-- Number of callers that carry an id. -/
def carriedAt (id : RequestId) (transit : List Transit) : Nat :=
  transit.countP (·.id = id)

/-- Number of places where an id is: the free ids, the stored results, the callers. -/
def places (id : RequestId) (x : SharedStore) : Nat :=
  freeAt id x.store.ids + storedAt id x.store.entries + carriedAt id x.transit

theorem freeAt_allocate {ids left : FreeIds} {id : RequestId} (h : ids.WellFormed)
    (ha : ids.allocate = some (id, left)) (id' : RequestId) :
    freeAt id' ids = freeAt id' left + if id = id' then 1 else 0 := by
  obtain ⟨-, -, hfree, -, hset⟩ := FreeIds.allocate_spec h ha
  rw [freeAt, freeAt, hset]
  by_cases heq : id = id'
  · subst heq
    simp [hfree]
  · have hne : id'.toNat ≠ id.toNat := fun hid => heq (UInt64.toNat_inj.1 hid).symm
    simp [heq, hne]

theorem freeAt_free {ids : FreeIds} {id : RequestId} (h : ids.WellFormed)
    (hin : id.toNat ∈ ids.range.toFinset) (hout : id.toNat ∉ ids.toFinset) (id' : RequestId) :
    freeAt id' (ids.free id) = freeAt id' ids + if id = id' then 1 else 0 := by
  obtain ⟨-, -, hset⟩ := FreeIds.free_spec h id
  rw [if_pos hin] at hset
  rw [freeAt, freeAt, hset]
  by_cases heq : id = id'
  · subst heq
    simp [hout]
  · have hne : id'.toNat ≠ id.toNat := fun hid => heq (UInt64.toNat_inj.1 hid).symm
    simp [heq, hne]

theorem storedAt_erase {entries : Std.ExtTreeMap RequestId StoredResult} {id : RequestId}
    (hmem : id ∈ entries) (id' : RequestId) :
    storedAt id' entries = storedAt id' (entries.erase id) + if id = id' then 1 else 0 := by
  by_cases heq : id = id'
  · subst heq
    simp [storedAt, hmem]
  · simp [storedAt, heq]

theorem storedAt_insert {entries : Std.ExtTreeMap RequestId StoredResult} {id : RequestId}
    (hout : id ∉ entries) (entry : StoredResult) (id' : RequestId) :
    storedAt id' (entries.insert id entry) = storedAt id' entries + if id = id' then 1 else 0 := by
  by_cases heq : id = id'
  · subst heq
    simp [storedAt, hout]
  · simp [storedAt, heq]

theorem carriedAt_append (transit : List Transit) (t : Transit) (id : RequestId) :
    carriedAt id (transit ++ [t]) = carriedAt id transit + if t.id = id then 1 else 0 := by
  simp [carriedAt, List.countP_append, List.countP_singleton]

theorem carriedAt_eraseIdx {transit : List Transit} {place : Nat} {t : Transit}
    (h : transit[place]? = some t) (id : RequestId) :
    carriedAt id transit = carriedAt id (transit.eraseIdx place) + if t.id = id then 1 else 0 := by
  obtain ⟨hlt, rfl⟩ := List.getElem?_eq_some_iff.1 h
  have hperm := List.getElem_cons_eraseIdx_perm hlt
  rw [carriedAt, ← hperm.countP_eq, List.countP_cons]
  simp [carriedAt]

/-! ## The invariant -/

/-- Whether every id of a range is in one place, and every other id in none. -/
structure Balanced (range : Interval) (x : SharedStore) : Prop where
  range_eq : x.store.ids.range = range
  wellFormed : x.store.ids.WellFormed
  places_eq : ∀ id, places id x = if id.toNat ∈ range.toFinset then 1 else 0

variable {range : Interval} {x : SharedStore}

theorem balanced_ofIds {ids : FreeIds} (h : ids.WellFormed)
    (hset : ids.toFinset = ids.range.toFinset) : Balanced ids.range ⟨.ofIds ids, []⟩ := by
  refine ⟨rfl, h, fun id => ?_⟩
  have hstored : storedAt id ∅ = 0 := by simp [storedAt]
  show freeAt id ids + storedAt id ∅ + carriedAt id [] = _
  rw [freeAt, hstored, hset, carriedAt, List.countP_nil, Nat.add_zero]

/-- **A first section keeps the count.** -/
theorem balanced_enter (h : Balanced range x) {s' : ResultStore} {t : Option Transit}
    (hentered : Entered x.store s' t) : Balanced range ⟨s', x.transit ++ t.toList⟩ := by
  cases hentered with
  | @issued id entry hids hentries =>
    obtain ⟨hrange, hwf, -⟩ := FreeIds.allocate_spec h.wellFormed hids
    refine ⟨hrange.trans h.range_eq, hwf, fun id' => ?_⟩
    rw [← h.places_eq id', places, places, freeAt_allocate h.wellFormed hids id']
    show freeAt id' s'.ids + storedAt id' s'.entries +
      carriedAt id' (x.transit ++ [.parking id entry]) = _
    rw [hentries, carriedAt_append, Transit.id]
    omega
  | @erased id hmem hids hentries =>
    refine ⟨hids ▸ h.range_eq, hids ▸ h.wellFormed, fun id' => ?_⟩
    rw [← h.places_eq id', places, places, storedAt_erase hmem id']
    show freeAt id' s'.ids + storedAt id' s'.entries +
      carriedAt id' (x.transit ++ [.releasing id]) = _
    rw [hids, hentries, carriedAt_append, Transit.id]
    omega
  | done hids hentries =>
    refine ⟨hids ▸ h.range_eq, hids ▸ h.wellFormed, fun id' => ?_⟩
    rw [← h.places_eq id', places, places]
    show freeAt id' s'.ids + storedAt id' s'.entries + carriedAt id' (x.transit ++ []) = _
    rw [hids, List.append_nil, storedAt, storedAt]
    simp only [hentries]

/-- What a caller carries is an id of the range that is neither free nor stored. -/
theorem Balanced.of_mem_transit (h : Balanced range x) {t : Transit} (ht : t ∈ x.transit) :
    t.id.toNat ∈ range.toFinset ∧ t.id.toNat ∉ x.store.ids.toFinset ∧
      t.id ∉ x.store.entries := by
  have hpos : 0 < carriedAt t.id x.transit := List.countP_pos_iff.2 ⟨t, ht, by simp⟩
  have hcount := h.places_eq t.id
  rw [places] at hcount
  refine ⟨?_, ?_, ?_⟩
  · by_contra hout
    rw [if_neg hout] at hcount
    omega
  · intro hfree
    rw [freeAt, if_pos hfree] at hcount
    split at hcount <;> omega
  · intro hmem
    rw [storedAt, if_pos hmem] at hcount
    split at hcount <;> omega

/-- What is stored is an id of the range that is not free. -/
theorem Balanced.of_mem_entries (h : Balanced range x) {id : RequestId}
    (hmem : id ∈ x.store.entries) :
    id.toNat ∈ range.toFinset ∧ id.toNat ∉ x.store.ids.toFinset := by
  have hcount := h.places_eq id
  rw [places, storedAt, if_pos hmem] at hcount
  refine ⟨?_, ?_⟩
  · by_contra hout
    rw [if_neg hout] at hcount
    omega
  · intro hfree
    rw [freeAt, if_pos hfree] at hcount
    split at hcount <;> omega

/-- **A second section keeps the count.** -/
theorem balanced_leave (h : Balanced range x) {place : Nat} {t : Transit}
    (ht : x.transit[place]? = some t) :
    Balanced range ⟨t.leave x.store, x.transit.eraseIdx place⟩ := by
  obtain ⟨hin, hnotFree, hnotMem⟩ := h.of_mem_transit (List.mem_of_getElem? ht)
  cases t with
  | parking id entry =>
    refine ⟨h.range_eq, h.wellFormed, fun id' => ?_⟩
    rw [← h.places_eq id', places, places, carriedAt_eraseIdx ht id']
    show freeAt id' x.store.ids + storedAt id' (x.store.entries.insert id entry) + _ = _
    have hout : id ∉ x.store.entries := hnotMem
    rw [storedAt_insert hout, Transit.id]
    show _ + carriedAt id' (x.transit.eraseIdx place) = _
    omega
  | releasing id =>
    have hmem : id.toNat ∈ x.store.ids.range.toFinset := h.range_eq ▸ hin
    have hout : id.toNat ∉ x.store.ids.toFinset := hnotFree
    obtain ⟨hrange, hwf, -⟩ := FreeIds.free_spec h.wellFormed id
    refine ⟨hrange.trans h.range_eq, hwf, fun id' => ?_⟩
    rw [← h.places_eq id', places, places, carriedAt_eraseIdx ht id']
    show freeAt id' (x.store.ids.free id) + storedAt id' x.store.entries + _ = _
    rw [freeAt_free h.wellFormed hmem hout, Transit.id]
    show _ + carriedAt id' (x.transit.eraseIdx place) = _
    omega

/-- **Every step keeps the count.** -/
theorem balanced_step (h : Balanced range x) (event : SectionEvent) :
    Balanced range (x.step event) := by
  cases event with
  | enter op => exact balanced_enter h (entered_enter x.store op)
  | leave place =>
    rw [step]
    split
    · exact h
    · next t ht => exact balanced_leave h ht

theorem balanced_foldl (h : Balanced range x) (events : List SectionEvent) :
    Balanced range (events.foldl step x) := by
  induction events generalizing x with
  | nil => exact h
  | cons event events ih => exact ih (balanced_step h event)

/-! ## Nobody between two sections -/

/-- The ids of stored results, by number. -/
def storedIds (entries : Std.ExtTreeMap RequestId StoredResult) : Finset Nat :=
  (entries.keys.map UInt64.toNat).toFinset

theorem toNat_mem_storedIds {entries : Std.ExtTreeMap RequestId StoredResult} {id : RequestId} :
    id.toNat ∈ storedIds entries ↔ id ∈ entries := by
  simp [storedIds, UInt64.toNat_inj]

theorem exists_of_mem_storedIds {entries : Std.ExtTreeMap RequestId StoredResult} {n : Nat}
    (h : n ∈ storedIds entries) : ∃ id : RequestId, id ∈ entries ∧ id.toNat = n := by
  simpa [storedIds] using h

theorem card_storedIds (entries : Std.ExtTreeMap RequestId StoredResult) :
    (storedIds entries).card = entries.size := by
  have hnodup : (entries.keys.map UInt64.toNat).Nodup :=
    Std.ExtTreeMap.nodup_keys.map fun _ _ => UInt64.toNat_inj.1
  rw [storedIds, List.toFinset_card_of_nodup hnodup, List.length_map, Std.ExtTreeMap.length_keys]

/-- With nobody between two sections an id of the range is either free or stored. -/
theorem Balanced.mem_range_iff (h : Balanced range x) (hidle : x.transit = []) (id : RequestId) :
    id.toNat ∈ range.toFinset ↔
      Xor (id.toNat ∈ x.store.ids.toFinset) (id ∈ x.store.entries) := by
  have hcount := h.places_eq id
  rw [places, hidle, carriedAt, List.countP_nil, freeAt, storedAt] at hcount
  by_cases hfree : id.toNat ∈ x.store.ids.toFinset <;> by_cases hmem : id ∈ x.store.entries <;>
    by_cases hin : id.toNat ∈ range.toFinset <;> simp_all [Xor]

theorem exists_id_of_mem_toFinset {n : Nat} (h : n ∈ range.toFinset) :
    ∃ id : RequestId, id.toNat = n := by
  have hlast := range.stop.toNat_lt_size
  have hlt := (Interval.mem_toFinset.1 h).2
  exact ⟨.ofNat n, UInt64.toNat_ofNat_of_lt' (Nat.lt_trans hlt hlast)⟩

/-- With nobody between two sections the range consists of the stored and the free ids. -/
theorem Balanced.storedIds_union (h : Balanced range x) (hidle : x.transit = []) :
    storedIds x.store.entries ∪ x.store.ids.toFinset = range.toFinset := by
  ext n
  rw [Finset.mem_union]
  constructor
  · rintro (hstored | hfree)
    · obtain ⟨id, hmem, rfl⟩ := exists_of_mem_storedIds hstored
      exact (h.of_mem_entries hmem).1
    · exact h.range_eq ▸ FreeIds.toFinset_subset h.wellFormed hfree
  · intro hin
    obtain ⟨id, rfl⟩ := exists_id_of_mem_toFinset hin
    rcases (h.mem_range_iff hidle id).1 hin with ⟨hfree, -⟩ | ⟨hmem, -⟩
    · exact Or.inr hfree
    · exact Or.inl (toNat_mem_storedIds.2 hmem)

/-- **The free ids and the stored results add up to the range.** -/
theorem Balanced.size_add_count (h : Balanced range x) (hidle : x.transit = []) :
    x.store.entries.size + x.store.ids.count.toNat = range.stop.toNat - range.start.toNat := by
  have hdisj : Disjoint (storedIds x.store.entries) x.store.ids.toFinset := by
    rw [Finset.disjoint_left]
    intro n hstored hfree
    obtain ⟨id, hmem, rfl⟩ := exists_of_mem_storedIds hstored
    exact (h.of_mem_entries hmem).2 hfree
  calc x.store.entries.size + x.store.ids.count.toNat
      = (storedIds x.store.entries).card + x.store.ids.toFinset.card := by
        rw [card_storedIds, FreeIds.count, FreeIds.count_eq_card h.wellFormed]
        rfl
    _ = range.toFinset.card := by
        rw [← h.storedIds_union hidle, Finset.card_union_of_disjoint hdisj]
    _ = range.stop.toNat - range.start.toNat := FreeIds.card_toFinset range

/-! ## The theorem -/

/-- **Every id is in exactly one place.** Over a usable range, after any sections of any callers:
nobody is about to park an entry where one is; every id of the range is in exactly one place and
every other id in none; and once nobody is between two sections, the free ids and the stored results
partition the range. -/
theorem ids_in_one_place {first last : UInt64} (hfirst : 1 ≤ first) (hlast : first < last) :
    ∃ ids, FreeIds.ofRange first last = .ok ids ∧ ∀ events : List SectionEvent,
      (∀ id entry, .parking id entry ∈ (run ids events).transit →
        id ∉ (run ids events).store.entries) ∧
      (∀ id, places id (run ids events) = if first ≤ id ∧ id < last then 1 else 0) ∧
      ((run ids events).transit = [] →
        (∀ id, first ≤ id ∧ id < last ↔
          Xor (id.toNat ∈ (run ids events).store.ids.toFinset)
            (id ∈ (run ids events).store.entries)) ∧
        (run ids events).store.entries.size + (run ids events).store.ids.count.toNat =
          last.toNat - first.toNat) := by
  refine ⟨_, FreeIds.ofRange_eq_ok hfirst hlast, fun events => ?_⟩
  obtain ⟨hwf, hset⟩ := FreeIds.wellFormed_of_ofRange (FreeIds.ofRange_eq_ok hfirst hlast)
  have h := balanced_foldl (balanced_ofIds hwf hset) events
  have hin (id : RequestId) : id.toNat ∈ Interval.toFinset ⟨first, last⟩ ↔
      first ≤ id ∧ id < last := by
    rw [Interval.mem_toFinset, UInt64.le_iff_toNat_le, UInt64.lt_iff_toNat_lt]
  refine ⟨fun id entry ht => (h.of_mem_transit ht).2.2, fun id => ?_, fun hidle => ⟨?_, ?_⟩⟩
  · rw [← if_congr (hin id) rfl rfl]
    exact h.places_eq id
  · intro id
    rw [← hin]
    exact h.mem_range_iff hidle id
  · exact h.size_add_count hidle

/-- Two callers take ids, and before either parks its entry a third asks for one of the ids and
finds nothing: the id is with its caller, and in the end two entries and one free id are left. -/
theorem ids_in_one_place_between_sections :
    (1 : UInt64) ≤ 1 ∧ (1 : UInt64) < 4 ∧
    ∃ ids, FreeIds.ofRange 1 4 = .ok ids ∧
      places 2 (run ids [.enter .reserve, .enter .reserve, .enter (.take 2 9)]) = 1 ∧
      (run ids [.enter .reserve, .enter .reserve, .enter (.take 2 9), .leave 1,
        .leave 0]).store.entries.size +
      (run ids [.enter .reserve, .enter .reserve, .enter (.take 2 9), .leave 1,
        .leave 0]).store.ids.count.toNat = 3 := by
  have hfirst : (1 : UInt64) ≤ 1 := by decide
  have hlast : (1 : UInt64) < 4 := by decide
  obtain ⟨ids, hids, h⟩ := ids_in_one_place hfirst hlast
  refine ⟨hfirst, hlast, ids, hids, (h _).2.1 2, ((h _).2.2 ?_).2⟩
  cases hids
  decide +kernel

end SharedStore

end Switchboard
