import Switchboard.Proofs.Results.Sections

/-!
# Whole operations on stored results

What an operation does when nobody comes between its sections. A store is `Sound` for a range when
its ids are balanced with no caller between two sections; every whole operation keeps a store sound,
because it is its two sections in a row. Beside that, each operation gets one statement of what it
does to the entries: an id that is issued had no entry (`issue_fresh`), and collecting hands out the
front of a text and keeps the rest (`Fetched`).
-/

namespace Switchboard

/-! ## Cutting a text -/

/-- Nothing is lost between the two parts of a text cut by bytes. -/
theorem splitBytes_append (capacity : Nat) (cs : List Char) :
    (splitBytes capacity cs).1 ++ (splitBytes capacity cs).2 = cs := by
  induction cs generalizing capacity with
  | nil => rfl
  | cons c cs ih =>
    rw [splitBytes]
    split
    · exact congrArg (c :: ·) (ih _)
    · rfl

/-- Nothing is lost between a piece and what follows it. -/
theorem splitPiece_append (capacity : Nat) (cs : List Char) :
    (splitPiece capacity cs).1 ++ (splitPiece capacity cs).2 = cs := by
  have h := splitBytes_append capacity cs
  rw [splitPiece]
  split
  · next c rest heq =>
    rw [heq] at h
    exact h
  · exact h

/-! ## What is handed out -/

/-- The text that a collection hands out, if it hands out any. -/
def Fetch.text : Fetch → String
  | .data text => text
  | _ => ""

theorem Fetch.text_of_not_data {fetch : Fetch} (hnot : ∀ text, fetch ≠ .data text) :
    fetch.text = "" := by
  cases fetch with
  | data text => exact absurd rfl (hnot text)
  | missing => rfl
  | notReady => rfl
  | tooLarge => rfl

namespace ResultStore

variable {range : Interval} {s s' : ResultStore} {id : RequestId}

/-! ## Soundness -/

/-- Whether every id of a range is either free or stored, and no other id is. -/
def Sound (range : Interval) (s : ResultStore) : Prop :=
  SharedStore.Balanced range ⟨s, []⟩

theorem sound_ofIds {ids : FreeIds} (h : ids.WellFormed)
    (hset : ids.toFinset = ids.range.toFinset) : Sound ids.range (.ofIds ids) :=
  SharedStore.balanced_ofIds h hset

/-- **Every whole operation keeps a store sound.** -/
theorem sound_perform (h : Sound range s) (op : StoreOperation) : Sound range (op.perform s) := by
  have henter := SharedStore.balanced_enter h (entered_enter s op)
  rw [StoreOperation.perform_eq_leave_enter]
  cases hop : op.enter s with
  | mk t s' =>
    rw [hop] at henter
    cases t with
    | none => exact henter
    | some t =>
      have hplace : [t][0]? = some t := rfl
      exact SharedStore.balanced_leave henter hplace

/-! ## Issuing -/

/-- **An id that is issued had no entry**, and gets the one that is parked under it. -/
theorem issue_fresh (h : Sound range s) (hissue : s.issue = some (id, s'))
    (entry : StoredResult) :
    id ∉ s.entries ∧ (s'.park id entry).entries = s.entries.insert id entry := by
  obtain ⟨r, ha, heq⟩ := Option.map_eq_some_iff.1 hissue
  cases heq
  obtain ⟨-, -, hfree, -⟩ := FreeIds.allocate_spec h.wellFormed ha
  exact ⟨fun hmem => (h.of_mem_entries hmem).2 hfree, rfl⟩

/-- Only ids of the range are issued. -/
theorem holds_of_issue (h : Sound range s) (hissue : s.issue = some (id, s')) :
    range.holds id = true := by
  obtain ⟨r, ha, heq⟩ := Option.map_eq_some_iff.1 hissue
  cases heq
  obtain ⟨-, -, hfree, -⟩ := FreeIds.allocate_spec h.wellFormed ha
  rw [Interval.holds_iff, ← h.range_eq]
  exact FreeIds.toFinset_subset h.wellFormed hfree

theorem reserve_ok (h : Sound range s) (hok : s.reserve = (.ok id, s')) :
    id ∉ s.entries ∧ s'.entries = s.entries.insert id .pending := by
  unfold reserve at hok
  cases hissue : s.issue with
  | none => simp [hissue] at hok
  | some r =>
    simp only [hissue, Prod.mk.injEq, Except.ok.injEq] at hok
    obtain ⟨rfl, rfl⟩ := hok
    exact issue_fresh h hissue _

theorem storeReady_ok {text : String} (h : Sound range s)
    (hok : s.storeReady text = (.ok id, s')) :
    id ∉ s.entries ∧ s'.entries = s.entries.insert id (.ready text) := by
  unfold storeReady at hok
  cases hissue : s.issue with
  | none => simp [hissue] at hok
  | some r =>
    simp only [hissue, Prod.mk.injEq, Except.ok.injEq] at hok
    obtain ⟨rfl, rfl⟩ := hok
    exact issue_fresh h hissue _

theorem reserve_error {fault : CallFault} (herror : s.reserve = (.error fault, s')) :
    fault = .idSpaceExhausted ∧ s' = s := by
  unfold reserve at herror
  cases hissue : s.issue with
  | none =>
    simp only [hissue, Prod.mk.injEq, Except.error.injEq] at herror
    exact ⟨herror.1.symm, herror.2.symm⟩
  | some r => simp [hissue] at herror

theorem storeReady_error {text : String} {fault : CallFault}
    (herror : s.storeReady text = (.error fault, s')) : s' = s := by
  unfold storeReady at herror
  cases hissue : s.issue with
  | none =>
    simp only [hissue, Prod.mk.injEq] at herror
    exact herror.2.symm
  | some r => simp [hissue] at herror

/-- **Cancelling what was just reserved undoes it**, in the entries and in the intervals. -/
theorem cancel_reserve (h : Sound range s) (hok : s.reserve = (.ok id, s')) :
    s'.cancel id = s := by
  unfold reserve at hok
  cases hissue : s.issue with
  | none => simp [hissue] at hok
  | some r =>
    simp only [hissue, Prod.mk.injEq, Except.ok.injEq] at hok
    obtain ⟨rfl, rfl⟩ := hok
    obtain ⟨r', ha, rfl⟩ := Option.map_eq_some_iff.1 hissue
    obtain ⟨id, left⟩ := r'
    have hids : left.free id = s.ids := FreeIds.free_allocate h.wellFormed ha
    have hout : id ∉ s.entries := (issue_fresh h hissue .pending).1
    have hentries : (s.entries.insert id .pending).erase id = s.entries := by
      refine Std.ExtTreeMap.ext_getElem? fun id' => ?_
      rw [Std.ExtTreeMap.getElem?_erase, Std.ExtTreeMap.getElem?_insert]
      by_cases heq : id = id'
      · subst heq
        simp [Std.ExtTreeMap.getElem?_eq_none hout]
      · simp [heq]
    have hmem : (s.entries.insert id .pending).contains id = true :=
      Std.ExtTreeMap.contains_insert_self
    simp only [cancel, discard, park, release, hmem, hentries, hids]

/-! ## Collecting -/

/-- What collecting from an id hands out, and what it does to the entries. -/
inductive Fetched (s : ResultStore) (id : RequestId) : Fetch → ResultStore → Prop where
  /-- The whole text is handed out and the entry erased. -/
  | whole {text : String} {s' : ResultStore} (hready : s.entries[id]? = some (.ready text))
      (hentries : s'.entries = s.entries.erase id) : Fetched s id (.data text) s'
  /-- The front of the text is handed out and the rest kept. -/
  | piece {text front rest : String} {s' : ResultStore}
      (hready : s.entries[id]? = some (.ready text)) (htext : front ++ rest = text)
      (hentries : s'.entries = s.entries.insert id (.ready rest)) :
      Fetched s id (.data front) s'
  /-- The text has been handed out to the end, and the entry is erased. -/
  | drained {s' : ResultStore} (hready : s.entries[id]? = some (.ready ""))
      (hentries : s'.entries = s.entries.erase id) : Fetched s id .missing s'
  /-- Nothing is handed out and nothing changed. -/
  | refused {fetch : Fetch} (hnot : ∀ text, fetch ≠ .data text) : Fetched s id fetch s

theorem fetched_take (s : ResultStore) (id : RequestId) (capacity : Nat) :
    Fetched s id (s.take id capacity).1 (s.take id capacity).2 := by
  unfold take withdraw
  cases hentry : s.entries[id]? with
  | none => exact .refused fun _ => nofun
  | some entry =>
    cases entry with
    | pending => exact .refused fun _ => nofun
    | ready text =>
      by_cases hlarge : capacity < text.utf8ByteSize
      · simp only [hlarge, ↓reduceIte]
        exact .refused fun _ => nofun
      · simp only [hlarge, ↓reduceIte]
        exact .whole hentry rfl

theorem fetched_takeChunk (s : ResultStore) (id : RequestId) (capacity : Nat) :
    Fetched s id (s.takeChunk id capacity).1 (s.takeChunk id capacity).2 := by
  unfold takeChunk withdrawChunk
  cases hentry : s.entries[id]? with
  | none => exact .refused fun _ => nofun
  | some entry =>
    cases entry with
    | pending => exact .refused fun _ => nofun
    | ready text =>
      by_cases hempty : text = ""
      · subst hempty
        simp only [↓reduceIte]
        exact .drained hentry rfl
      · simp only [hempty, ↓reduceIte]
        refine .piece hentry ?_ rfl
        rw [← String.ofList_append, splitPiece_append, String.ofList_toList]

/-! ## Entries after an operation -/

theorem getElem?_insert_of_ne {entries : Std.ExtTreeMap RequestId StoredResult}
    {id id' : RequestId} (hne : id ≠ id') (entry : StoredResult) :
    (entries.insert id entry)[id']? = entries[id']? := by
  rw [Std.ExtTreeMap.getElem?_insert, if_neg (fun h => hne (Std.LawfulEqOrd.compare_eq_iff_eq.1 h))]

theorem getElem?_erase_of_ne {entries : Std.ExtTreeMap RequestId StoredResult}
    {id id' : RequestId} (hne : id ≠ id') : (entries.erase id)[id']? = entries[id']? := by
  rw [Std.ExtTreeMap.getElem?_erase, if_neg (fun h => hne (Std.LawfulEqOrd.compare_eq_iff_eq.1 h))]

theorem getElem?_complete_of_ne {id' : RequestId} (hne : id ≠ id') (text : String) :
    (s.complete id text).entries[id']? = s.entries[id']? := by
  unfold complete
  split
  · exact getElem?_insert_of_ne hne _
  · rfl

theorem getElem?_complete (hmem : id ∈ s.entries) (text : String) :
    (s.complete id text).entries[id]? = some (.ready text) := by
  have hcontains : s.entries.contains id = true := hmem
  rw [complete, if_pos hcontains]
  exact Std.ExtTreeMap.getElem?_insert_self

/-- Collecting from one id leaves the entries of the others. -/
theorem Fetched.getElem?_of_ne {fetch : Fetch} {id' : RequestId} (h : s.Fetched id fetch s')
    (hne : id ≠ id') : s'.entries[id']? = s.entries[id']? := by
  cases h with
  | whole hready hentries => rw [hentries, getElem?_erase_of_ne hne]
  | piece hready htext hentries => rw [hentries, getElem?_insert_of_ne hne]
  | drained hready hentries => rw [hentries, getElem?_erase_of_ne hne]
  | refused hnot => rfl

/-- Collecting from a pending entry hands out nothing. -/
theorem Fetched.of_pending {fetch : Fetch} (h : s.Fetched id fetch s')
    (hpending : s.entries[id]? = some .pending) :
    s'.entries[id]? = some .pending ∧ fetch.text = "" := by
  cases h with
  | whole hready => rw [hpending] at hready; cases hready
  | piece hready => rw [hpending] at hready; cases hready
  | drained hready => rw [hpending] at hready; cases hready
  | refused hnot => exact ⟨hpending, Fetch.text_of_not_data hnot⟩

/-- Collecting hands out the front of a text and keeps the rest, or hands out all that is left and
erases the entry. -/
theorem Fetched.of_ready {fetch : Fetch} {text : String} (h : s.Fetched id fetch s')
    (hready : s.entries[id]? = some (.ready text)) :
    (∃ rest, s'.entries[id]? = some (.ready rest) ∧ fetch.text ++ rest = text) ∨
      id ∉ s'.entries ∧ fetch.text = text := by
  cases h with
  | @whole text' _ hready' hentries =>
    rw [hready] at hready'
    cases hready'
    rw [hentries]
    exact Or.inr ⟨by simp, rfl⟩
  | @piece text' front rest _ hready' htext hentries =>
    rw [hready] at hready'
    cases hready'
    rw [hentries]
    exact Or.inl ⟨rest, Std.ExtTreeMap.getElem?_insert_self, htext⟩
  | drained hready' hentries =>
    rw [hready] at hready'
    cases hready'
    rw [hentries]
    exact Or.inr ⟨by simp, rfl⟩
  | refused hnot =>
    rw [Fetch.text_of_not_data hnot]
    exact Or.inl ⟨text, hready, String.empty_append⟩

/-- Collecting adds no entry. -/
theorem Fetched.mem_of_mem {fetch : Fetch} {id' : RequestId} (h : s.Fetched id fetch s')
    (hmem : id' ∈ s'.entries) : id' ∈ s.entries := by
  cases h with
  | whole hready hentries => exact Std.ExtTreeMap.mem_of_mem_erase (hentries ▸ hmem)
  | piece hready htext hentries =>
    exact (mem_insert_of_mem (mem_of_getElem?_eq_some hready) _ id').1 (hentries ▸ hmem)
  | drained hready hentries => exact Std.ExtTreeMap.mem_of_mem_erase (hentries ▸ hmem)
  | refused hnot => exact hmem

/-- An entry that is pending after a collection was so before. -/
theorem Fetched.pending_of_pending {fetch : Fetch} {id' : RequestId} (h : s.Fetched id fetch s')
    (hpending : s'.entries[id']? = some .pending) : s.entries[id']? = some .pending := by
  by_cases heq : id = id'
  · subst heq
    cases h with
    | whole hready hentries => simp [hentries] at hpending
    | piece hready htext hentries => simp [hentries] at hpending
    | drained hready hentries => simp [hentries] at hpending
    | refused hnot => exact hpending
  · rwa [h.getElem?_of_ne heq] at hpending

/-- Publishing adds no entry. -/
theorem mem_of_mem_complete {id' : RequestId} {text : String}
    (hmem : id' ∈ (s.complete id text).entries) : id' ∈ s.entries := by
  unfold complete at hmem
  split at hmem
  · next hid => exact (mem_insert_of_mem hid _ id').1 hmem
  · exact hmem

/-- An entry that is pending after a publication was so before, and is not the one published. -/
theorem pending_of_complete {id' : RequestId} {text : String}
    (hpending : (s.complete id text).entries[id']? = some .pending) :
    s.entries[id']? = some .pending ∧ id ≠ id' := by
  have hne : id ≠ id' := by
    rintro rfl
    have hmem : id ∈ s.entries := mem_of_mem_complete (mem_of_getElem?_eq_some hpending)
    rw [getElem?_complete hmem] at hpending
    cases hpending
  rw [getElem?_complete_of_ne hne] at hpending
  exact ⟨hpending, hne⟩

end ResultStore

end Switchboard
