import Mathlib.Algebra.BigOperators.Fin
import Mathlib.Data.List.Nodup
import Switchboard.Handler.Misc
import Switchboard.Proofs.Text.Fields

/-!
# Distinct words

Words are drawn until enough different ones have come up. Nothing bounds the draws, so that the
drawing can end at all depends on there being enough words of the length asked for; and what it ends
with depends on the draws alone.

* **`Asks`**: a request that names a number and a length within the bounds, and no more words than
  there are. Those are taken, and no others (`wordRequest_eq_ok_iff`).
* **`nodup_counted`**: in counting order the words of a length are all different, so that fewer than
  there are never exhaust them.
* **`Gathered`**: what is kept of some draws is the first different ones among them, up to the
  number asked for, and nothing else counts as seen. One turn keeps it so (`gathered_concat`), and
  so does any number of turns (`gathered_draw`).
-/

namespace Switchboard.Misc

open Text

/-! ## Requests -/

/-- Asks for so many words of such a length: two numerals around a colon, with blanks anywhere about
them, within the bounds, and no more words than there are. -/
structure Asks (args : String) (count length : Nat) : Prop where
  numerals : ∃ front back frontText backText : String, args = front ++ ":" ++ back ∧
    Stripped front frontText ∧ Numeral frontText count ∧
    Stripped back backText ∧ Numeral backText length
  one_le_count : 1 ≤ count
  count_le : count ≤ 1000
  one_le_length : 1 ≤ length
  length_le : length ≤ 256
  possible : count ≤ 62 ^ length

/-- A numeral between blanks holds no colon. -/
theorem colon_not_mem_of_numeral {s text : String} {n : Nat} (hs : Stripped s text)
    (htext : Numeral text n) : ':' ∉ s.toList := by
  obtain ⟨⟨front, back, heq, hfront, hback⟩, -⟩ := hs
  obtain ⟨ds, hds, -, hdigits, -⟩ := htext
  have hblank {cs : List Char} (h : ∀ c ∈ cs, isBlank c = true) : ':' ∉ cs := fun hcolon =>
    absurd (h _ hcolon) (by decide)
  have hdigit : ':' ∉ ds := fun hcolon => absurd (hdigits _ hcolon) (by decide)
  have hmiddle : ':' ∉ text.toList := by
    rcases hds with hds | hds
    · rw [hds]
      exact hdigit
    · rw [hds]
      exact List.not_mem_cons_of_ne_of_not_mem (by decide) hdigit
  rw [heq]
  simp [hblank hfront, hblank hback, hmiddle]

/-- A power that fits no word is more than what any word says. -/
theorem any_wordPower?_lt {base exponent count : Nat} (hcount : count < wordBound) :
    (wordPower? base exponent).any (· < count) = true ↔ base ^ exponent < count := by
  have hpower : wordPower? base exponent = (some (base ^ exponent)).filter (· < wordBound) := rfl
  rw [hpower]
  by_cases hfits : base ^ exponent < wordBound
  · simp [Option.filter, hfits]
  · simp [Option.filter, hfits]
    omega

theorem wordRequest_eq_ok_iff {args : String} {count length : Nat} :
    wordRequest args = .ok (count, length) ↔ Asks args count length := by
  have hbound : 1000 < wordBound := by decide
  constructor
  · intro h
    unfold wordRequest at h
    split at h
    · cases h
    · next front back hcut =>
      split at h
      · next n m hn hm =>
        split at h
        · cases h
        · next hrange =>
          split at h
          · cases h
          · next hpossible =>
            obtain ⟨rfl, rfl⟩ := Prod.mk.inj (Except.ok.inj h)
            rw [unsigned?_eq_some_iff] at hn hm
            rw [any_wordPower?_lt hn.2] at hpossible
            simp only [maxWords, maxLength] at hrange
            exact {
              numerals := ⟨front, back, _, _, (cut?_eq_some_iff.1 hcut).1, trim_eq_iff.1 rfl, hn.1,
                trim_eq_iff.1 rfl, hm.1⟩
              one_le_count := by omega
              count_le := by omega
              one_le_length := by omega
              length_le := by omega
              possible := Nat.not_lt.1 hpossible }
      · cases h
  · rintro ⟨⟨front, back, frontText, backText, rfl, hfront, hcount, hback, hlength⟩, hone, hle,
      hone', hle', hpossible⟩
    have hcut : cut? ':' (front ++ ":" ++ back) = some (front, back) :=
      cut?_eq_some_iff.2 ⟨rfl, colon_not_mem_of_numeral hfront hcount⟩
    have hn : unsigned? wordBound (trim front) = some count := by
      rw [trim_eq_iff.2 hfront]
      exact unsigned?_eq_some_iff.2 ⟨hcount, by omega⟩
    have hm : unsigned? wordBound (trim back) = some length := by
      rw [trim_eq_iff.2 hback]
      exact unsigned?_eq_some_iff.2 ⟨hlength, by omega⟩
    have hrange : ¬ (count = 0 ∨ maxWords < count ∨ length = 0 ∨ maxLength < length) := by
      simp only [maxWords, maxLength]
      omega
    have hpower : ¬ (wordPower? alphabetSize length).any (· < count) = true := by
      rw [any_wordPower?_lt (by omega)]
      exact Nat.not_lt.2 hpossible
    simp only [wordRequest, hcut, hn, hm, if_neg hrange, if_neg hpower]

/-- A request that is not taken is refused for one of two reasons. -/
theorem wordRequest_eq_error {args reason : String} (h : wordRequest args = .error reason) :
    reason = "Invalid Format" ∨ reason = "Invalid Range" := by
  unfold wordRequest at h
  split at h
  · exact Or.inl (Except.error.inj h).symm
  · split at h
    · split at h
      · exact Or.inr (Except.error.inj h).symm
      · split at h
        · exact Or.inr (Except.error.inj h).symm
        · cases h
    · exact Or.inl (Except.error.inj h).symm

theorem execute_randomWords (w : Surroundings) (args : String) :
    execute w ("RANDOM_UNIQUE_STRING:" ++ args) = randomWords w.words args := by
  have hcut : cut? ':' ("RANDOM_UNIQUE_STRING:" ++ args) = some ("RANDOM_UNIQUE_STRING", args) :=
    cut?_eq_some_iff.2 ⟨rfl, by decide⟩
  simp [execute, hcut]

/-! ## Words -/

theorem isAlphanum_letter : ∀ n : Fin alphabetSize, (letter n).isAlphanum = true := by
  decide

theorem letter_injective : Function.Injective letter := by
  unfold Function.Injective
  decide +kernel

variable {length : Nat}

theorem length_spell (word : Word length) : (spell word).length = length := by
  simp [spell]

theorem isAlphanum_of_mem_spell {word : Word length} {c : Char} (h : c ∈ (spell word).toList) :
    c.isAlphanum = true := by
  rw [spell, String.toList_ofList] at h
  obtain ⟨n, -, rfl⟩ := List.mem_map.1 h
  exact isAlphanum_letter n

theorem spell_injective : Function.Injective (@spell length) := by
  intro word other h
  have hletters : word.toList.map letter = other.toList.map letter := String.ofList_injective h
  exact Vector.toList_inj.1 (List.map_injective_iff.2 letter_injective hletters)

/-- Different words of one length, made of letters and digits. -/
def AreDistinct (length : Nat) (words : List String) : Prop :=
  words.Nodup ∧
    ∀ word ∈ words, word.length = length ∧ ∀ c ∈ word.toList, c.isAlphanum = true

/-- The words of a length in counting order are numbered by their characters as digits. -/
theorem nthWord_eq {n : Nat} (h : n < alphabetSize ^ length) :
    nthWord length n = .ofFn (finFunctionFinEquiv.symm ⟨n, h⟩) := rfl

/-- **Counted words are all different**, as long as there are that many. -/
theorem nodup_counted {count : Nat} (h : count ≤ alphabetSize ^ length) :
    ((List.range count).map fun n => spell (nthWord length n)).Nodup := by
  refine List.Nodup.map_on ?_ List.nodup_range
  intro n hn m hm heq
  have hn : n < alphabetSize ^ length := (List.mem_range.1 hn).trans_le h
  have hm : m < alphabetSize ^ length := (List.mem_range.1 hm).trans_le h
  have hword : nthWord length n = nthWord length m := spell_injective heq
  rw [nthWord_eq hn, nthWord_eq hm] at hword
  have hlist := congrArg Vector.toList hword
  rw [Vector.toList_ofFn, Vector.toList_ofFn] at hlist
  have hdigits := List.ofFn_injective hlist
  exact congrArg Fin.val (finFunctionFinEquiv.symm.injective hdigits)

/-! ## Turns -/

namespace Drawing

variable {count : Nat} {drawn : List String} {d : Drawing}

/-- What is kept of some draws. -/
structure Gathered (count : Nat) (drawn : List String) (d : Drawing) : Prop where
  kept_eq : d.kept = drawn.eraseDups.take count
  mem_seen : ∀ word, word ∈ d.seen ↔ word ∈ d.kept
  nodup : d.kept.Nodup

theorem gathered_start (count : Nat) : start.Gathered count [] where
  kept_eq := List.take_nil.symm
  mem_seen _ := by simp [start]
  nodup := List.nodup_nil

theorem draw_append (count : Nat) (drawn later : List String) (d : Drawing) :
    d.draw count (drawn ++ later) = (d.draw count drawn).draw count later := by
  induction drawn generalizing d with
  | nil => rfl
  | cons candidate drawn ih =>
    rw [List.cons_append, draw, draw]
    split
    · exact ih _
    · next hfull =>
      cases later with
      | nil => rfl
      | cons next later => rw [draw, if_neg hfull]

/-- Nothing is drawn once enough words are there. -/
theorem draw_of_full (h : ¬ d.kept.length < count) (later : List String) :
    d.draw count later = d := by
  cases later with
  | nil => rfl
  | cons next later => rw [draw, if_neg h]

/-- While words are missing, whatever has been drawn is kept. -/
theorem Gathered.kept_of_missing (h : d.Gathered count drawn) (hmissing : d.kept.length < count) :
    d.kept = drawn.eraseDups := by
  have hkept := h.kept_eq
  rw [hkept, List.length_take] at hmissing
  rw [hkept]
  exact List.take_of_length_le (by omega)

theorem eraseDups_concat (drawn : List String) (candidate : String) :
    (drawn ++ [candidate]).eraseDups =
      drawn.eraseDups ++ if candidate ∈ drawn then [] else [candidate] := by
  rw [List.eraseDups_append]
  by_cases hold : candidate ∈ drawn
  · simp [List.cons_removeAll, hold]
  · simp [List.cons_removeAll, hold, List.eraseDups_cons]

/-- **One turn** keeps a word that comes up for the first time, and no other. -/
theorem gathered_concat (h : d.Gathered count drawn) (candidate : String) :
    (d.draw count [candidate]).Gathered count (drawn ++ [candidate]) := by
  by_cases hmissing : d.kept.length < count
  · have hkept : d.kept = drawn.eraseDups := h.kept_of_missing hmissing
    have hdraw : d.draw count [candidate] = d.turn candidate := by
      rw [draw, if_pos hmissing, draw]
    have hseen : candidate ∈ d.seen ↔ candidate ∈ drawn := by
      rw [h.mem_seen, hkept, List.mem_eraseDups]
    rw [hdraw, turn]
    split
    · next hold =>
      refine { h with kept_eq := ?_ }
      rw [eraseDups_concat, if_pos (hseen.1 hold), List.append_nil]
      exact h.kept_eq
    · next hnew =>
      refine { kept_eq := ?_, mem_seen := fun word => ?_, nodup := ?_ }
      · rw [eraseDups_concat, if_neg (mt hseen.2 hnew), ← hkept, List.take_of_length_le]
        rw [List.length_append]
        exact hmissing
      · rw [Std.ExtTreeSet.mem_insert, Std.LawfulEqOrd.compare_eq_iff_eq, h.mem_seen,
          List.mem_append, List.mem_singleton, or_comm, eq_comm]
      · have hout : candidate ∉ d.kept := mt (h.mem_seen candidate).2 hnew
        exact List.nodup_append.2 ⟨h.nodup, List.nodup_singleton candidate, by grind⟩
  · -- the loop is over, and the draw is not looked at
    rw [draw_of_full hmissing]
    refine { h with kept_eq := ?_ }
    have hlength := congrArg List.length h.kept_eq
    rw [List.length_take] at hlength
    rw [eraseDups_concat, List.take_append_of_le_length (by omega)]
    exact h.kept_eq

theorem gathered_draw (count : Nat) (drawn : List String) :
    (start.draw count drawn).Gathered count drawn := by
  induction drawn using List.reverseRecOn with
  | nil => exact gathered_start count
  | append_singleton drawn candidate ih =>
    rw [draw_append]
    exact gathered_concat ih candidate

/-- While words are missing, every word that was drawn counts as seen. -/
theorem Gathered.mem_seen_of_drawn (h : d.Gathered count drawn) (hmissing : d.kept.length < count)
    {word : String} (hword : word ∈ drawn) : word ∈ d.seen := by
  rw [h.mem_seen, h.kept_of_missing hmissing]
  exact List.mem_eraseDups.2 hword

/-- **While words are missing, some word has not come up**: those that have are fewer than are asked
for, and so fewer than there are. -/
theorem Gathered.exists_unseen (h : d.Gathered count drawn) (hmissing : d.kept.length < count)
    (hcount : count ≤ alphabetSize ^ length) :
    ∃ n < count, spell (nthWord length n) ∉ d.seen := by
  by_contra hall
  simp only [not_exists, not_and, not_not] at hall
  have hsub : (List.range count).map (fun n => spell (nthWord length n)) ⊆ d.kept := by
    intro word hword
    obtain ⟨n, hn, rfl⟩ := List.mem_map.1 hword
    exact (h.mem_seen _).1 (hall n (List.mem_range.1 hn))
  have hlength := (nodup_counted hcount).length_le_of_subset hsub
  rw [List.length_map, List.length_range] at hlength
  omega

theorem Gathered.length_le (h : d.Gathered count drawn) : d.kept.length ≤ count := by
  rw [h.kept_eq]
  exact List.length_take_le _ _

theorem Gathered.areDistinct (h : d.Gathered count drawn)
    (hdrawn : ∀ word ∈ drawn, ∃ spelled : Word length, spell spelled = word) :
    AreDistinct length d.kept := by
  refine ⟨h.nodup, fun word hword => ?_⟩
  rw [h.kept_eq] at hword
  obtain ⟨spelled, rfl⟩ := hdrawn word (List.mem_eraseDups.1 (List.mem_of_mem_take hword))
  exact ⟨length_spell spelled, fun c hc => isAlphanum_of_mem_spell hc⟩

/-- The drawing after so many words of a stream. -/
def after (count : Nat) (stream : Nat → Word length) (turns : Nat) : Drawing :=
  start.draw count ((List.range turns).map fun i => spell (stream i))

end Drawing

/-! ## Answers -/

/-- A request is answered with as many words as it asks for, whatever is drawn. -/
theorem length_distinctWords {count : Nat} (h : count ≤ alphabetSize ^ length)
    (drawn : List (Word length)) : (distinctWords count length drawn).length = count := by
  have hgathered := Drawing.gathered_draw count
    ((drawn ++ (List.range count).map (nthWord length)).map spell)
  refine Nat.le_antisymm hgathered.length_le (Nat.not_lt.1 fun hmissing => ?_)
  -- the counted words come up in the end, and there are enough of them
  obtain ⟨n, hn, hunseen⟩ := hgathered.exists_unseen hmissing h
  refine hunseen (hgathered.mem_seen_of_drawn hmissing (List.mem_map_of_mem ?_))
  exact List.mem_append_right _ (List.mem_map_of_mem (List.mem_range.2 hn))

theorem areDistinct_distinctWords (count : Nat) (drawn : List (Word length)) :
    AreDistinct length (distinctWords count length drawn) := by
  refine (Drawing.gathered_draw count _).areDistinct fun word hword => ?_
  obtain ⟨spelled, -, rfl⟩ := List.mem_map.1 hword
  exact ⟨spelled, rfl⟩

/-- Draws that suffice are all that is answered with. -/
theorem distinctWords_of_full {count n : Nat} {stream : Nat → Word length}
    (h : (Drawing.after count stream n).kept.length = count) (later : List (Word length)) :
    distinctWords count length ((List.range n).map stream ++ later) =
      (Drawing.after count stream n).kept := by
  have hfull : ¬ (Drawing.after count stream n).kept.length < count := by omega
  have hprefix : ((List.range n).map stream).map spell =
      (List.range n).map fun i => spell (stream i) := List.map_map
  rw [distinctWords, List.append_assoc, List.map_append, hprefix, Drawing.draw_append]
  exact congrArg Drawing.kept (Drawing.draw_of_full hfull _)

theorem execute_of_asks {args : String} {count : Nat} (h : Asks args count length)
    (w : Surroundings) :
    execute w ("RANDOM_UNIQUE_STRING:" ++ args) =
      .reply (wordsText (distinctWords count length (w.words length))) := by
  rw [execute_randomWords, randomWords, wordRequest_eq_ok_iff.2 h]

/-- **Random words are different words, and enough of them.** A request is taken exactly when it
names a number and a length within the bounds, for which there are that many words, and otherwise
refused, whatever is drawn. For a request that is taken, and every stream of words: as long as words
are missing, some word has not been drawn yet; what is kept after any number of turns is the first
different words of the stream, in the order in which they came up, made of letters and digits; and
when enough are kept, these are the answer, whatever would be drawn later. And in any surroundings
the answer has as many words as were asked for. -/
theorem distinct_words_drawn (args : String) :
    (∀ w, execute w "RANDOM_UNIQUE_STRING" = refuse "Unknown MISC Command") ∧
    (∀ count length, wordRequest args = .ok (count, length) ↔ Asks args count length) ∧
    ((∀ count length, ¬ Asks args count length) →
      ∃ reason ∈ ["Invalid Format", "Invalid Range"],
        ∀ w, execute w ("RANDOM_UNIQUE_STRING:" ++ args) = refuse reason) ∧
    ∀ count length, Asks args count length →
      (∀ (stream : Nat → Word length) (n : Nat),
        ((Drawing.after count stream n).kept.length < count →
          ∃ word, spell word ∉ (Drawing.after count stream n).seen ∧ ∀ i < n, stream i ≠ word) ∧
        (Drawing.after count stream n).kept =
          ((List.range n).map fun i => spell (stream i)).eraseDups.take count ∧
        AreDistinct length (Drawing.after count stream n).kept ∧
        ((Drawing.after count stream n).kept.length = count →
          ∀ w later, w.words length = (List.range n).map stream ++ later →
            execute w ("RANDOM_UNIQUE_STRING:" ++ args) =
              .reply (wordsText (Drawing.after count stream n).kept))) ∧
      ∀ w, ∃ words, execute w ("RANDOM_UNIQUE_STRING:" ++ args) = .reply (wordsText words) ∧
        words.length = count ∧ AreDistinct length words := by
  refine ⟨fun w => rfl, fun count length => wordRequest_eq_ok_iff, fun hasks => ?_,
    fun count length hasks => ⟨?_, ?_⟩⟩
  · cases hrequest : wordRequest args with
    | ok asked => exact absurd (wordRequest_eq_ok_iff.1 hrequest) (hasks asked.1 asked.2)
    | error reason =>
      refine ⟨reason, by simpa using wordRequest_eq_error hrequest, fun w => ?_⟩
      rw [execute_randomWords, randomWords, hrequest]
  · intro stream n
    have hgathered : (Drawing.after count stream n).Gathered count
        ((List.range n).map fun i => spell (stream i)) := Drawing.gathered_draw count _
    refine ⟨fun hmissing => ?_, hgathered.kept_eq, hgathered.areDistinct fun word hword => ?_,
      fun hfull w later hdrawn => ?_⟩
    · obtain ⟨k, -, hunseen⟩ := hgathered.exists_unseen hmissing hasks.possible
      refine ⟨nthWord length k, hunseen, fun i hi heq => ?_⟩
      rw [← heq] at hunseen
      exact hunseen
        (hgathered.mem_seen_of_drawn hmissing (List.mem_map_of_mem (List.mem_range.2 hi)))
    · obtain ⟨i, -, rfl⟩ := List.mem_map.1 hword
      exact ⟨stream i, rfl⟩
    · rw [execute_of_asks hasks, hdrawn, distinctWords_of_full hfull]
  · intro w
    exact ⟨_, execute_of_asks hasks w, length_distinctWords hasks.possible _,
      areDistinct_distinctWords count _⟩

/-- A stream in which each word comes twice. -/
def stammer (length turn : Nat) : Word length :=
  nthWord length (turn / 2)

/-- Surroundings in which words are drawn from that stream. -/
def stammering : Surroundings where
  clock := { now := 0, zone := fun _ => 0 }
  words length := (List.range 4).map (stammer length)
  lookup _ := none

theorem distinct_words_drawn_of_repeated :
    ((∀ count length, ¬ Asks "63:1" count length) ∧
      ∃ reason ∈ ["Invalid Format", "Invalid Range"],
        ∀ w, execute w ("RANDOM_UNIQUE_STRING:" ++ "63:1") = refuse reason) ∧
    Asks " +2 :1" 2 1 ∧
    ((Drawing.after 2 (stammer 1) 2).kept.length < 2 ∧
      ∃ word, spell word ∉ (Drawing.after 2 (stammer 1) 2).seen ∧ ∀ i < 2, stammer 1 i ≠ word) ∧
    (Drawing.after 2 (stammer 1) 3).kept.length = 2 ∧
    stammering.words 1 = (List.range 3).map (stammer 1) ++ [stammer 1 3] ∧
    execute stammering ("RANDOM_UNIQUE_STRING:" ++ " +2 :1") = .reply "[1,[\"A\",\"B\"]]" := by
  obtain ⟨-, htaken, hrefused, -⟩ := distinct_words_drawn "63:1"
  have hnone : ∀ count length, ¬ Asks "63:1" count length := fun count length hasks => by
    have hrequest := (htaken count length).2 hasks
    cases hrequest.symm.trans (rfl : wordRequest "63:1" = .error "Invalid Range")
  obtain ⟨-, htaken, -, hanswered⟩ := distinct_words_drawn " +2 :1"
  have hasks : Asks " +2 :1" 2 1 := (htaken 2 1).1 rfl
  obtain ⟨hturns, -⟩ := hanswered 2 1 hasks
  obtain ⟨hunseen, htwo, -, -⟩ := hturns (stammer 1) 2
  obtain ⟨-, hthree, -, hdone⟩ := hturns (stammer 1) 3
  have hmissing : (Drawing.after 2 (stammer 1) 2).kept.length < 2 := by
    rw [htwo]
    decide +kernel
  have hkept : (Drawing.after 2 (stammer 1) 3).kept = ["A", "B"] := by
    rw [hthree]
    decide +kernel
  have hfull : (Drawing.after 2 (stammer 1) 3).kept.length = 2 := by
    rw [hkept]
    rfl
  refine ⟨⟨hnone, hrefused hnone⟩, hasks, ⟨hmissing, hunseen hmissing⟩, hfull, rfl, ?_⟩
  rw [hdone hfull stammering [stammer 1 3] rfl, hkept]
  decide +kernel

end Switchboard.Misc
