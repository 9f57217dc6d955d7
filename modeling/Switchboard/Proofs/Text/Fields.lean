import Mathlib.Data.List.Basic
import Std.Data.String.ToNat
import Switchboard.Text.Blank
import Switchboard.Text.Cut
import Switchboard.Text.Numeral

/-!
# What fields are

A line is read by trimming, cutting and reading numerals. This module says what the results are
without going through the reading:

* **`Stripped`**: a text without the blanks around it; there is exactly one (`trim_eq_iff`).
* **`cut?_eq_some_iff`**: the two sides of the first separator.
* **`Numeral`**: an optional plus sign and decimal digits, with the value of the digits. Those that
  fit a word are read (`word?_eq_some_iff`), and the plain decimal of a word is one of them
  (`numeral_toString`).
-/

namespace Switchboard.Text

/-! ## Trimming -/

/-- Neither end is blank. -/
structure Trimmed (cs : List Char) : Prop where
  head : ∀ c, cs.head? = some c → isBlank c = false
  last : ∀ c, cs.getLast? = some c → isBlank c = false

theorem Trimmed.concat {cs : List Char} {c : Char} (h : Trimmed cs) (hc : isBlank c = false) :
    Trimmed (cs ++ [c]) := by
  refine ⟨fun d hd => ?_, fun d hd => ?_⟩
  · cases cs with
    | nil =>
      cases hd
      exact hc
    | cons first cs => exact h.head d hd
  · rw [List.getLast?_concat] at hd
    cases hd
    exact hc

theorem trimmed_of_ends {c d : Char} (cs : List Char) (hc : isBlank c = false)
    (hd : isBlank d = false) : Trimmed (c :: (cs ++ [d])) := by
  refine ⟨fun e he => ?_, fun e he => ?_⟩
  · cases he
    exact hc
  · rw [← List.cons_append, List.getLast?_concat] at he
    cases he
    exact hd

/-- The second text is the first one without the blanks at its two ends. -/
def Stripped (s text : String) : Prop :=
  (∃ front back : List Char, s.toList = front ++ text.toList ++ back ∧
    (∀ c ∈ front, isBlank c = true) ∧ ∀ c ∈ back, isBlank c = true) ∧ Trimmed text.toList

theorem trimStart_append {front cs : List Char} (hfront : ∀ c ∈ front, isBlank c = true) :
    trimStart (front ++ cs) = trimStart cs := by
  induction front with
  | nil => rfl
  | cons c front ih =>
    have hc : isBlank c = true := hfront c List.mem_cons_self
    have hrest := ih fun d hd => hfront d (List.mem_cons_of_mem _ hd)
    rw [trimStart, List.cons_append, List.dropWhile_cons, if_pos hc]
    exact hrest

theorem trimStart_of_head {cs : List Char} (h : ∀ c, cs.head? = some c → isBlank c = false) :
    trimStart cs = cs := by
  cases cs with
  | nil => rfl
  | cons c cs =>
    have hc : isBlank c = false := h c rfl
    simp [trimStart, hc]

theorem trimChars_append {front cs back : List Char} (hfront : ∀ c ∈ front, isBlank c = true)
    (hback : ∀ c ∈ back, isBlank c = true) (hcs : Trimmed cs) :
    trimChars (front ++ cs ++ back) = cs := by
  cases cs with
  | nil =>
    -- all of it is blank, and taken away from the front
    have hblank : trimStart back = [] := by
      rw [← List.append_nil back, trimStart_append hback]
      rfl
    rw [List.append_nil, trimChars, trimStart_append hfront, hblank]
    rfl
  | cons c cs =>
    have hrest : trimStart (c :: cs ++ back) = c :: cs ++ back := trimStart_of_head hcs.head
    have hlast : trimStart (c :: cs).reverse = (c :: cs).reverse := by
      apply trimStart_of_head
      rw [List.head?_reverse]
      exact hcs.last
    rw [List.append_assoc, trimChars, trimStart_append hfront, hrest, List.reverse_append,
      trimStart_append (by simpa using hback), hlast, List.reverse_reverse]

theorem trim_eq_iff {s text : String} : trim s = text ↔ Stripped s text := by
  constructor
  · rintro rfl
    obtain ⟨front, back, heq, hfront, hback⟩ := exists_blank_append_trim s.toList
    refine ⟨⟨front, back, ?_, hfront, hback⟩, ?_⟩
    · rw [toList_trim]
      exact heq
    · rw [toList_trim]
      exact ⟨fun c => isBlank_head_trimChars, fun c => isBlank_getLast_trimChars⟩
  · rintro ⟨⟨front, back, heq, hfront, hback⟩, htrimmed⟩
    rw [← String.toList_inj, toList_trim, heq, trimChars_append hfront hback htrimmed]

theorem Stripped.ne_empty {s text : String} (h : Stripped s text) (htext : text ≠ "") : s ≠ "" := by
  obtain ⟨⟨front, back, heq, -⟩, -⟩ := h
  rintro rfl
  apply htext
  rw [← String.toList_inj]
  exact (List.append_eq_nil_iff.1 (List.append_eq_nil_iff.1 heq.symm).1).2

/-- A text with no blank at either end is all that stripping leaves of it. -/
theorem stripped_self {text : String} (h : Trimmed text.toList) : Stripped text text :=
  ⟨⟨[], [], by simp, nofun, nofun⟩, h⟩

/-! ## Cutting -/

theorem cut?_eq_some_iff {sep : Char} {s a b : String} :
    cut? sep s = some (a, b) ↔ s = a ++ sep.toString ++ b ∧ sep ∉ a.toList := by
  unfold cut?
  simp only [Option.map_eq_some_iff, Prod.mk.injEq, Prod.exists, cutChars?_eq_some_iff]
  constructor
  · rintro ⟨front, back, ⟨heq, hsep⟩, rfl, rfl⟩
    refine ⟨?_, by rwa [String.toList_ofList]⟩
    rw [← String.toList_inj, heq]
    simp
  · rintro ⟨rfl, hsep⟩
    exact ⟨a.toList, b.toList, ⟨by simp, hsep⟩, String.ofList_toList, String.ofList_toList⟩

theorem cut?_eq_none_iff {sep : Char} {s : String} : cut? sep s = none ↔ sep ∉ s.toList := by
  rw [cut?, Option.map_eq_none_iff, cutChars?_eq_none_iff]

/-! ## Numerals -/

/-- An optional plus sign and decimal digits, with the value of the digits. -/
def Numeral (s : String) (n : Nat) : Prop :=
  ∃ ds : List Char, (s.toList = ds ∨ s.toList = '+' :: ds) ∧ ds ≠ [] ∧
    (∀ d ∈ ds, d.isDigit = true) ∧ n = Nat.ofDigitChars 10 ds 0

theorem Numeral.ne_empty {s : String} {n : Nat} (h : Numeral s n) : s ≠ "" := by
  obtain ⟨ds, hds, hne, -⟩ := h
  rintro rfl
  rcases hds with hds | hds
  · exact hne hds.symm
  · cases hds

theorem isDigitOf_ten (c : Char) : isDigitOf 10 c = c.isDigit := by
  unfold isDigitOf digitValue
  cases hdigit : c.isDigit with
  | true =>
    have hrange : c.toNat ≤ 57 := by
      simp only [Char.isDigit, Bool.and_eq_true, decide_eq_true_eq] at hdigit
      exact hdigit.2
    rw [if_pos rfl, decide_eq_true_eq]
    show c.toNat - 48 < 10
    omega
  | false =>
    -- letters count from ten on
    rw [if_neg Bool.false_ne_true, decide_eq_false_iff_not]
    split
    · omega
    · split <;> omega

theorem digitsValue_ten {ds : List Char} (h : ∀ d ∈ ds, d.isDigit = true) :
    digitsValue 10 ds = Nat.ofDigitChars 10 ds 0 := by
  rw [digitsValue, Nat.ofDigitChars_eq_foldl]
  refine List.foldl_ext _ _ 0 fun n d hd => ?_
  rw [digitValue, if_pos (h d hd)]

theorem digits?_eq_some_iff {ds : List Char} {n : Nat} :
    digits? 10 ds = some n ↔
      ds ≠ [] ∧ (∀ d ∈ ds, d.isDigit = true) ∧ n = Nat.ofDigitChars 10 ds 0 := by
  have hall : ds.all (isDigitOf 10) = true ↔ ∀ d ∈ ds, d.isDigit = true := by
    simp only [List.all_eq_true, isDigitOf_ten]
  unfold digits?
  rw [Option.ite_none_right_eq_some, hall, and_assoc]
  refine and_congr_right fun _ => and_congr_right fun hdigits => ?_
  rw [digitsValue_ten hdigits, Option.some.injEq, eq_comm]

theorem digits?_dropPlus {cs : List Char} {n : Nat} :
    digits? 10 (dropPlus cs) = some n ↔
      ∃ ds, (cs = ds ∨ cs = '+' :: ds) ∧ digits? 10 ds = some n := by
  constructor
  · intro h
    unfold dropPlus at h
    split at h
    · next ds => exact ⟨ds, Or.inr rfl, h⟩
    · exact ⟨cs, Or.inl rfl, h⟩
  · rintro ⟨ds, rfl | rfl, h⟩
    · -- a plus sign is no digit, so there is none to drop
      have hplus (rest : List Char) : cs ≠ '+' :: rest := by
        rintro rfl
        have hdigit := (digits?_eq_some_iff.1 h).2.1 '+' List.mem_cons_self
        exact absurd hdigit (by decide)
      unfold dropPlus
      split
      · next rest => exact absurd rfl (hplus rest)
      · exact h
    · exact h

theorem unsigned?_eq_some_iff {bound n : Nat} {s : String} :
    unsigned? bound s = some n ↔ Numeral s n ∧ n < bound := by
  rw [unsigned?, numeral?, Option.filter_eq_some_iff, digits?_dropPlus, decide_eq_true_eq]
  simp only [digits?_eq_some_iff, Numeral]

/-- **The numerals that are read are those that fit a word.** -/
theorem word?_eq_some_iff {s : String} {w : UInt64} : word? s = some w ↔ Numeral s w.toNat := by
  have hw : w.toNat < wordBound := w.toNat_lt
  simp only [word?, Option.map_eq_some_iff, unsigned?_eq_some_iff]
  constructor
  · rintro ⟨n, ⟨hn, hlt⟩, rfl⟩
    rwa [UInt64.toNat_ofNat_of_lt' hlt]
  · intro h
    exact ⟨w.toNat, ⟨h, hw⟩, UInt64.ofNat_toNat⟩

theorem toList_toString_word (w : UInt64) : (toString w).toList = Nat.toDigits 10 w.toNat := by
  simp [toString]

theorem isDigit_of_mem_repr {n : Nat} {c : Char} (h : c ∈ n.repr.toList) : c.isDigit = true := by
  rw [Nat.toList_repr] at h
  exact Nat.isDigit_of_mem_toDigits (by decide) (Nat.le_refl 10) h

theorem numeral_toString (w : UInt64) : Numeral (toString w) w.toNat := by
  refine ⟨Nat.toDigits 10 w.toNat, Or.inl (toList_toString_word w), Nat.toDigits_ne_nil,
    fun d hd => ?_, ?_⟩
  · exact Nat.isDigit_of_mem_toDigits (by decide) (Nat.le_refl 10) hd
  · exact (Nat.ofDigitChars_toDigits (by decide) (Nat.le_refl 10)).symm

theorem isBlank_of_isDigit {c : Char} (h : c.isDigit = true) : isBlank c = false := by
  simp only [Char.isDigit, Bool.and_eq_true, decide_eq_true_eq] at h
  have hlow : 48 ≤ c.toNat := h.1
  have hhigh : c.toNat ≤ 57 := h.2
  simp [isBlank, blankRanges]
  omega

theorem trimmed_toString (w : UInt64) : Trimmed (toString w).toList := by
  have hdigit {c : Char} (hc : c ∈ (toString w).toList) : isBlank c = false :=
    isBlank_of_isDigit (isDigit_of_mem_repr hc)
  exact ⟨fun c hc => hdigit (List.mem_of_head? hc), fun c hc => hdigit (List.mem_of_getLast? hc)⟩

end Switchboard.Text
