import Switchboard.Proofs.Results.Store
import Switchboard.Proofs.Text.Boundaries

/-!
# Collecting a text to the end

The host collects a result whole or in pieces, and may change its mind and its capacity from one
call to the next. Three facts settle what it ends up with:

* **`NextPiece`**: a piece is the longest front of a text that fits, or its first character when not
  even that fits. So it is never empty, and what is left is shorter.
* **`collects_collect`**: one call, by what it finds (`Collects`). A text that is handed out leaves
  the rest under its id, and an entry that is erased leaves the id free.
* **`left_drain`**: the pieces and what is left make up the text, after any calls. Each call for a
  piece has shortened what is left, and when nothing is left the next one erases the entry.
-/

namespace Switchboard

open Text

/-! ## The next piece -/

/-- How the next piece is cut off a text. -/
structure NextPiece (capacity : Nat) (text front rest : String) : Prop where
  append : front ++ rest = text
  ne_empty : front ≠ ""
  /-- The cut is where stepping back from the capacity finds a boundary. -/
  boundary : cutAt? (chunkBoundary capacity text.toList) text.toList =
    some (front.toList, rest.toList)
  /-- Either the piece fits, or it is a single character and no front of the text fits. -/
  fits : front.utf8ByteSize ≤ capacity ∨
    front.length = 1 ∧ ∀ a b, a ++ b = text → a ≠ "" → capacity < a.utf8ByteSize
  longest : ∀ a b, a ++ b = text → a.utf8ByteSize ≤ capacity → a.length ≤ front.length

/-- A front of a text that fits is no longer than what is cut off by bytes. -/
theorem length_le_splitBytes {capacity : Nat} {cs a b : List Char} (happ : a ++ b = cs)
    (hfits : utf8Length a ≤ capacity) : a.length ≤ (splitBytes capacity cs).1.length := by
  induction cs generalizing capacity a with
  | nil =>
    rw [(List.append_eq_nil_iff.1 happ).1]
    exact Nat.zero_le _
  | cons c cs ih =>
    cases a with
    | nil => exact Nat.zero_le _
    | cons d a =>
      rw [List.cons_append] at happ
      obtain ⟨rfl, hrest⟩ := List.cons.inj happ
      rw [utf8Length_cons] at hfits
      have hd : d.utf8Size ≤ capacity := by omega
      have hleft : utf8Length a ≤ capacity - d.utf8Size := by omega
      rw [splitBytes, if_pos hd]
      exact Nat.succ_le_succ (ih hrest hleft)

/-- A piece is what is cut off by bytes, or a first character that does not fit. -/
theorem splitPiece_cases (capacity : Nat) (c : Char) (cs : List Char) :
    (splitPiece capacity (c :: cs) = splitBytes capacity (c :: cs) ∧
        (splitBytes capacity (c :: cs)).1 ≠ []) ∨
      capacity < c.utf8Size ∧ splitPiece capacity (c :: cs) = ([c], cs) := by
  by_cases hc : c.utf8Size ≤ capacity
  · left
    unfold splitPiece
    rw [splitBytes, if_pos hc]
    exact ⟨rfl, List.cons_ne_nil _ _⟩
  · right
    unfold splitPiece
    rw [splitBytes, if_neg hc]
    exact ⟨Nat.lt_of_not_le hc, rfl⟩

/-- **The piece that is cut off** a text which is not empty. -/
theorem nextPiece_splitPiece (capacity : Nat) {text : String} (hne : text ≠ "") :
    NextPiece capacity text (.ofList (splitPiece capacity text.toList).1)
      (.ofList (splitPiece capacity text.toList).2) := by
  obtain ⟨c, cs, hcs⟩ := List.exists_cons_of_ne_nil (mt String.toList_eq_nil_iff.1 hne)
  have hcut := cutAt?_chunkBoundary capacity (c :: cs)
  have happend : String.ofList (splitPiece capacity (c :: cs)).1 ++
      String.ofList (splitPiece capacity (c :: cs)).2 = text := by
    rw [← String.ofList_append, splitPiece_append, ← hcs, String.ofList_toList]
  have hfront {a b : String} (h : a ++ b = text) : a.toList ++ b.toList = c :: cs := by
    rw [← hcs, ← h, String.toList_append]
  rw [hcs]
  rcases splitPiece_cases capacity c cs with ⟨hpiece, hsome⟩ | ⟨hlarge, hpiece⟩
  · rw [hpiece] at hcut happend ⊢
    refine ⟨happend, mt String.ofList_eq_empty_iff.1 hsome, ?_, Or.inl ?_, fun a b h ha => ?_⟩
    · rw [hcs, hcut, String.toList_ofList, String.toList_ofList]
    · rw [← utf8Length_toList, String.toList_ofList]
      exact (utf8Length_splitBytes capacity (c :: cs)).1
    · rw [← utf8Length_toList] at ha
      rw [← String.length_toList, ← String.length_toList, String.toList_ofList]
      exact length_le_splitBytes (hfront h) ha
  · rw [hpiece] at hcut happend ⊢
    -- the first character is part of every front that is not empty
    have hall (a b : String) (h : a ++ b = text) (ha : a ≠ "") : capacity < a.utf8ByteSize := by
      obtain ⟨d, ds, hds⟩ := List.exists_cons_of_ne_nil (mt String.toList_eq_nil_iff.1 ha)
      have hsplit := hfront h
      rw [hds, List.cons_append] at hsplit
      obtain ⟨rfl, -⟩ := List.cons.inj hsplit
      rw [← utf8Length_toList, hds, utf8Length_cons]
      omega
    refine ⟨happend, mt String.ofList_eq_empty_iff.1 (List.cons_ne_nil c []), ?_,
      Or.inr ⟨String.length_ofList, hall⟩, fun a b h ha => ?_⟩
    · rw [hcs, hcut, String.toList_ofList, String.toList_ofList]
    · by_cases hempty : a = ""
      · rw [hempty]
        exact Nat.zero_le _
      · have := hall a b h hempty
        omega

theorem NextPiece.length_rest_lt {capacity : Nat} {text front rest : String}
    (h : NextPiece capacity text front rest) : rest.length < text.length := by
  have hpos : front.length ≠ 0 := mt String.length_eq_zero_iff.1 h.ne_empty
  rw [← h.append, String.length_append]
  omega

/-! ## One call -/

/-- A call that collects. -/
inductive Collection where
  | whole (capacity : Nat)
  | piece (capacity : Nat)
  deriving DecidableEq, Repr

/-- Whether a call asks for a piece. -/
def Collection.isPiece : Collection → Bool
  | whole _ => false
  | piece _ => true

namespace ResultStore

variable {range : Interval} {s s' : ResultStore} {id : RequestId} {text : String}

/-- What a call hands out, and the store after it. -/
def collect (id : RequestId) (collection : Collection) (s : ResultStore) : Fetch × ResultStore :=
  match collection with
  | .whole capacity => s.take id capacity
  | .piece capacity => s.takeChunk id capacity

/-- An entry is erased, and its id is free again. -/
structure Erased (id : RequestId) (s s' : ResultStore) : Prop where
  entries_eq : s'.entries = s.entries.erase id
  ids_eq : s'.ids.toFinset = insert id.toNat s.ids.toFinset

/-- What a call can do, by what it finds under its id. -/
inductive Collects (id : RequestId) (s : ResultStore) :
    Collection → Fetch → ResultStore → Prop where
  | absent {collection : Collection} (habsent : id ∉ s.entries) :
      Collects id s collection .missing s
  | pending {collection : Collection} (hpending : s.entries[id]? = some .pending) :
      Collects id s collection .notReady s
  | tooLarge {capacity : Nat} {text : String} (hready : s.entries[id]? = some (.ready text))
      (hlarge : capacity < text.utf8ByteSize) : Collects id s (.whole capacity) .tooLarge s
  | whole {capacity : Nat} {text : String} {s' : ResultStore}
      (hready : s.entries[id]? = some (.ready text)) (hfits : text.utf8ByteSize ≤ capacity)
      (herased : Erased id s s') : Collects id s (.whole capacity) (.data text) s'
  | piece {capacity : Nat} {text front rest : String}
      (hready : s.entries[id]? = some (.ready text)) (hpiece : NextPiece capacity text front rest) :
      Collects id s (.piece capacity) (.data front)
        { s with entries := s.entries.insert id (.ready rest) }
  | drained {capacity : Nat} {s' : ResultStore} (hready : s.entries[id]? = some (.ready ""))
      (herased : Erased id s s') : Collects id s (.piece capacity) .missing s'

/-- Erasing an entry and releasing its id. -/
theorem erased_release (h : Sound range s) (hmem : id ∈ s.entries) :
    Erased id s (release id { s with entries := s.entries.erase id }) := by
  have hin : id.toNat ∈ s.ids.range.toFinset := by
    rw [h.range_eq]
    exact (h.of_mem_entries hmem).1
  obtain ⟨-, -, hset⟩ := FreeIds.free_spec h.wellFormed id
  rw [if_pos hin] at hset
  exact ⟨rfl, hset⟩

/-- **One call**, in a store that is sound. -/
theorem collects_collect (h : Sound range s) (id : RequestId) (collection : Collection) :
    Collects id s collection (s.collect id collection).1 (s.collect id collection).2 := by
  cases hentry : s.entries[id]? with
  | none =>
    have habsent : id ∉ s.entries := fun hmem => by
      simp [Std.ExtTreeMap.getElem?_eq_some_getElem hmem] at hentry
    cases collection <;> simp only [collect, take, withdraw, takeChunk, withdrawChunk, hentry] <;>
      exact .absent habsent
  | some entry =>
    have hmem : id ∈ s.entries := mem_of_getElem?_eq_some hentry
    have herased := erased_release h hmem
    cases entry with
    | pending =>
      cases collection <;> simp only [collect, take, withdraw, takeChunk, withdrawChunk, hentry] <;>
        exact .pending hentry
    | ready text =>
      cases collection with
      | whole capacity =>
        simp only [collect, take, withdraw, hentry]
        by_cases hlarge : capacity < text.utf8ByteSize
        · rw [if_pos hlarge]
          exact .tooLarge hentry hlarge
        · rw [if_neg hlarge]
          exact .whole hentry (Nat.not_lt.1 hlarge) herased
      | piece capacity =>
        simp only [collect, takeChunk, withdrawChunk, hentry]
        by_cases hempty : text = ""
        · rw [if_pos hempty]
          exact .drained (hempty ▸ hentry) herased
        · rw [if_neg hempty]
          exact .piece hentry (nextPiece_splitPiece capacity hempty)

/-! ## Any calls -/

/-- What calls in a row hand out, and the store after them. -/
def drain (id : RequestId) : List Collection → ResultStore → List Fetch × ResultStore
  | [], s => ([], s)
  | collection :: collections, s =>
    let (fetch, s) := s.collect id collection
    let (fetches, s) := s.drain id collections
    (fetch :: fetches, s)

/-- The texts that are handed out, in a row. -/
def handedOut (fetches : List Fetch) : String :=
  String.join (fetches.map Fetch.text)

theorem handedOut_cons (fetch : Fetch) (fetches : List Fetch) :
    handedOut (fetch :: fetches) = fetch.text ++ handedOut fetches := by
  rw [handedOut, List.map_cons, String.join_cons]
  rfl

/-- A call is one of the operations on a store. -/
theorem sound_collect (h : Sound range s) (id : RequestId) (collection : Collection) :
    Sound range (s.collect id collection).2 := by
  cases collection with
  | whole capacity => exact sound_perform h (.take id capacity)
  | piece capacity => exact sound_perform h (.takeChunk id capacity)

/-- Nothing is collected where there is no entry. -/
theorem collect_of_absent (habsent : id ∉ s.entries) (collection : Collection) :
    s.collect id collection = (.missing, s) := by
  have hentry : s.entries[id]? = none := Std.ExtTreeMap.getElem?_eq_none habsent
  cases collection <;> simp only [collect, take, withdraw, takeChunk, withdrawChunk, hentry]

theorem drain_of_absent (habsent : id ∉ s.entries) (collections : List Collection) :
    handedOut (s.drain id collections).1 = "" ∧ (s.drain id collections).2 = s := by
  induction collections with
  | nil => exact ⟨rfl, rfl⟩
  | cons collection collections ih =>
    simp only [drain, collect_of_absent habsent, handedOut_cons]
    exact ⟨String.empty_append.trans ih.1, ih.2⟩

/-- What is left of a text under its id when some of it has been handed out; nothing, once its entry
is erased. -/
inductive Left (id : RequestId) (text handed : String) (s : ResultStore) : String → Prop where
  | kept {rest : String} (hready : s.entries[id]? = some (.ready rest))
      (htext : handed ++ rest = text) : Left id text handed s rest
  | erased (habsent : id ∉ s.entries) (hfree : id.toNat ∈ s.ids.toFinset)
      (htext : handed = text) : Left id text handed s ""

variable {front handed rest last : String}

/-- What is left of the rest is left of the text. -/
theorem Left.prepend (h : Left id rest handed s last) (hfront : front ++ rest = text) :
    Left id text (front ++ handed) s last := by
  cases h with
  | kept hready htext =>
    apply Left.kept hready
    rw [String.append_assoc, htext, hfront]
  | erased habsent hfree htext =>
    apply Left.erased habsent hfree
    rw [htext, hfront]

theorem Erased.absent_and_free (h : Erased id s s') :
    id ∉ s'.entries ∧ id.toNat ∈ s'.ids.toFinset := by
  rw [h.entries_eq, h.ids_eq]
  exact ⟨fun hmem => (Std.ExtTreeMap.mem_erase.1 hmem).1 Std.ReflCmp.compare_self,
    Finset.mem_insert_self _ _⟩

/-- An erased entry stays erased. -/
theorem Erased.left_drain (h : Erased id s s') (collections : List Collection) :
    Left id "" (handedOut (s'.drain id collections).1) (s'.drain id collections).2 "" := by
  obtain ⟨habsent, hfree⟩ := h.absent_and_free
  obtain ⟨hhanded, hstore⟩ := drain_of_absent habsent collections
  rw [hhanded, hstore]
  exact .erased habsent hfree rfl

/-- **Any calls.** What has been handed out and what is left make up the text, and every call for a
piece has shortened what is left. -/
theorem left_drain (h : Sound range s) (hready : s.entries[id]? = some (.ready text))
    (collections : List Collection) :
    ∃ rest, Left id text (handedOut (s.drain id collections).1) (s.drain id collections).2 rest ∧
      rest.length ≤ text.length - collections.countP Collection.isPiece := by
  induction collections generalizing s text with
  | nil => exact ⟨text, .kept hready String.empty_append, Nat.le_refl _⟩
  | cons collection collections ih =>
    have hsound := sound_collect h id collection
    have hcollects := collects_collect h id collection
    simp only [drain, handedOut_cons, List.countP_cons]
    generalize s.collect id collection = r at hsound hcollects ⊢
    obtain ⟨fetch, s'⟩ := r
    cases hcollects with
    | absent habsent => exact absurd (mem_of_getElem?_eq_some hready) habsent
    | pending hpending => cases hready.symm.trans hpending
    | tooLarge hready' hlarge =>
      obtain ⟨rest, hleft, hlength⟩ := ih hsound hready
      exact ⟨rest, hleft.prepend String.empty_append, hlength⟩
    | whole hready' hfits hgone =>
      cases hready.symm.trans hready'
      exact ⟨"", (hgone.left_drain collections).prepend String.append_empty, Nat.zero_le _⟩
    | drained hready' hgone =>
      cases hready.symm.trans hready'
      exact ⟨"", (hgone.left_drain collections).prepend String.empty_append, Nat.zero_le _⟩
    | @piece capacity text' front rest hready' hpiece =>
      cases hready.symm.trans hready'
      have hshort := hpiece.length_rest_lt
      obtain ⟨last, hleft, hlength⟩ := ih hsound Std.ExtTreeMap.getElem?_insert_self
      refine ⟨last, hleft.prepend hpiece.append, ?_⟩
      simp only [Collection.isPiece, if_true]
      omega

/-- When nothing is left, a call for a piece finds nothing and erases the entry. -/
theorem Left.takeChunk_of_empty (h : Left id text handed s "") (hsound : Sound range s)
    (capacity : Nat) :
    (s.takeChunk id capacity).1 = .missing ∧ id ∉ (s.takeChunk id capacity).2.entries ∧
      id.toNat ∈ (s.takeChunk id capacity).2.ids.toFinset := by
  have hcollects := collects_collect hsound id (.piece capacity)
  change Collects id s _ (s.takeChunk id capacity).1 (s.takeChunk id capacity).2 at hcollects
  cases h with
  | erased habsent hfree htext =>
    rw [show s.takeChunk id capacity = (.missing, s) from
      collect_of_absent habsent (.piece capacity)]
    exact ⟨rfl, habsent, hfree⟩
  | kept hready htext =>
    generalize s.takeChunk id capacity = r at hcollects ⊢
    obtain ⟨fetch, s'⟩ := r
    cases hcollects with
    | absent habsent => exact absurd (mem_of_getElem?_eq_some hready) habsent
    | pending hpending => cases hready.symm.trans hpending
    | drained hready' hgone => exact ⟨rfl, hgone.absent_and_free⟩
    | piece hready' hpiece =>
      cases hready.symm.trans hready'
      exact absurd hpiece.length_rest_lt (Nat.not_lt_zero _)

theorem sound_drain (h : Sound range s) (id : RequestId) (collections : List Collection) :
    Sound range (s.drain id collections).2 := by
  induction collections generalizing s with
  | nil => exact h
  | cons collection collections ih => exact ih (sound_collect h id collection)

theorem sound_foldl (h : Sound range s) (operations : List StoreOperation) :
    Sound range (operations.foldl StoreOperation.perform s) := by
  induction operations generalizing s with
  | nil => exact h
  | cons op operations ih => exact ih (sound_perform h op)

/-! ## The theorem -/

/-- **A stored text is collected to the end.** Take any usable range of ids and a store after any
operations.

Every call does one of these things, and nothing else. Where there is no entry it finds nothing;
where the text is not known yet, or is asked for whole and does not fit, it says so; and the store
is as before. A whole text that fits is handed out, its entry erased and its id freed. The piece
that is handed out is the longest front of the text that fits, cut off at a character boundary, or a
single character if none fits, and the entry keeps the rest. Where nothing is left, the entry is
erased and the id freed.

Take any calls for an id that has a text, of both kinds and with any capacities. What they hand out
in a row is the text up to what is left under the id, and it is the whole text when the entry is
erased. After as many calls for a piece as the text has characters, one more finds nothing, and then
the entry is erased and the id free. -/
theorem texts_drain_in_pieces {first last : UInt64} {ids : FreeIds}
    (hids : FreeIds.ofRange first last = .ok ids) (operations : List StoreOperation)
    (id : RequestId) :
    let s := operations.foldl StoreOperation.perform (.ofIds ids)
    (∀ collection,
      Collects id s collection (s.collect id collection).1 (s.collect id collection).2) ∧
    ∀ text, s.entries[id]? = some (.ready text) → ∀ collections,
      (∃ rest,
        Left id text (handedOut (s.drain id collections).1) (s.drain id collections).2 rest) ∧
      (text.length ≤ collections.countP Collection.isPiece → ∀ capacity,
        let r := (s.drain id collections).2.takeChunk id capacity
        r.1 = .missing ∧ id ∉ r.2.entries ∧ id.toNat ∈ r.2.ids.toFinset) := by
  intro s
  obtain ⟨hwf, hset⟩ := FreeIds.wellFormed_of_ofRange hids
  have hsound : Sound ids.range s := sound_foldl (sound_ofIds hwf hset) operations
  refine ⟨collects_collect hsound id, fun text hready collections => ?_⟩
  obtain ⟨rest, hleft, hlength⟩ := left_drain hsound hready collections
  refine ⟨⟨rest, hleft⟩, fun hall capacity => ?_⟩
  have hempty : rest = "" := String.length_eq_zero_iff.1 (by omega)
  exact (hempty ▸ hleft).takeChunk_of_empty (sound_drain hsound id collections) capacity

/-- Three characters of four bytes, with a capacity that changes. -/
theorem texts_drain_in_pieces_of_any_size :
    let s := StoreOperation.perform (.ofIds ⟨⟨1, 4⟩, [⟨1, 4⟩]⟩) (.storeReady "hé!")
    let r := s.drain 1 [.piece 2, .whole 1, .piece 0, .piece 5]
    FreeIds.ofRange 1 4 = .ok ⟨⟨1, 4⟩, [⟨1, 4⟩]⟩ ∧
    r.1 = [.data "h", .tooLarge, .data "é", .data "!"] ∧
    (r.2.takeChunk 1 0).1 = .missing ∧ 1 ∉ (r.2.takeChunk 1 0).2.entries ∧
    1 ∈ (r.2.takeChunk 1 0).2.ids.toFinset := by
  intro s r
  have hids : FreeIds.ofRange 1 4 = .ok ⟨⟨1, 4⟩, [⟨1, 4⟩]⟩ := rfl
  have hready : s.entries[(1 : RequestId)]? = some (.ready "hé!") := by decide +kernel
  have hhanded : r.1 = [.data "h", .tooLarge, .data "é", .data "!"] := by decide +kernel
  obtain ⟨-, h⟩ := texts_drain_in_pieces hids [.storeReady "hé!"] 1
  obtain ⟨-, hend⟩ := h "hé!" hready [.piece 2, .whole 1, .piece 0, .piece 5]
  exact ⟨hids, hhanded, hend (by decide) 0⟩

end ResultStore

end Switchboard
