/-!
# Blanks

The characters with the Unicode property `White_Space`, and `trim`, which strips them from both
ends of a text. Main statements: what `trim` removes is blank (`exists_blank_append_trim`), and a
trimmed text neither starts nor ends with a blank (`isBlank_head_trimChars`,
`isBlank_getLast_trimChars`).
-/

namespace Switchboard.Text

/-- The code points with the property `White_Space`, as closed ranges. -/
def blankRanges : List (Nat × Nat) :=
  [(0x9, 0xD), (0x20, 0x20), (0x85, 0x85), (0xA0, 0xA0), (0x1680, 0x1680), (0x2000, 0x200A),
   (0x2028, 0x2029), (0x202F, 0x202F), (0x205F, 0x205F), (0x3000, 0x3000)]

/-- Whether a character has the property `White_Space`. -/
def isBlank (c : Char) : Bool :=
  blankRanges.any fun r => r.1 ≤ c.toNat && c.toNat ≤ r.2

/-- Strips the blanks at the front. -/
def trimStart (cs : List Char) : List Char :=
  cs.dropWhile isBlank

/-- Strips the blanks at both ends. -/
def trimChars (cs : List Char) : List Char :=
  (trimStart (trimStart cs).reverse).reverse

/-- The text without the blanks at its two ends. -/
def trim (s : String) : String :=
  .ofList (trimChars s.toList)

/-! ## What trimming removes and what it leaves -/

@[simp] theorem toList_trim (s : String) : (trim s).toList = trimChars s.toList := by
  simp [trim]

/-- Every blank of the core library's class is a blank here. -/
theorem isBlank_of_isWhitespace {c : Char} (h : c.isWhitespace = true) : isBlank c = true := by
  simp only [Char.isWhitespace, Bool.or_eq_true, decide_eq_true_eq] at h
  rcases h with ((rfl | rfl) | rfl) | rfl <;> rfl

theorem exists_blank_append_trimStart (cs : List Char) :
    ∃ pre, cs = pre ++ trimStart cs ∧ ∀ c ∈ pre, isBlank c = true := by
  induction cs with
  | nil => exact ⟨[], rfl, by simp⟩
  | cons c cs ih =>
    obtain ⟨pre, h, hb⟩ := ih
    by_cases hc : isBlank c = true
    · exact ⟨c :: pre, by simpa [trimStart, hc] using h, by simpa [hc] using hb⟩
    · exact ⟨[], by simp [trimStart, hc], by simp⟩

/-- A text is its trimmed form between two runs of blanks. -/
theorem exists_blank_append_trim (cs : List Char) :
    ∃ pre post, cs = pre ++ trimChars cs ++ post ∧
      (∀ c ∈ pre, isBlank c = true) ∧ ∀ c ∈ post, isBlank c = true := by
  obtain ⟨pre, hpre, hb⟩ := exists_blank_append_trimStart cs
  obtain ⟨post, hpost, hb'⟩ := exists_blank_append_trimStart (trimStart cs).reverse
  refine ⟨pre, post.reverse, ?_, hb, by simpa using hb'⟩
  have h := congrArg List.reverse hpost
  simp only [List.reverse_reverse, List.reverse_append] at h
  rw [List.append_assoc, trimChars, ← h]
  exact hpre

theorem isBlank_head_trimStart {cs : List Char} {c : Char} (h : (trimStart cs).head? = some c) :
    isBlank c = false := by
  induction cs with
  | nil => simp [trimStart] at h
  | cons d ds ih =>
    unfold trimStart at h
    rw [List.dropWhile_cons] at h
    split at h
    · exact ih h
    · simp_all

theorem isBlank_head_trimChars {cs : List Char} {c : Char} (h : (trimChars cs).head? = some c) :
    isBlank c = false := by
  -- what is stripped at the end leaves the first character alone
  obtain ⟨post, hpost, -⟩ := exists_blank_append_trimStart (trimStart cs).reverse
  have hsplit : trimStart cs = trimChars cs ++ post.reverse := by
    rw [trimChars, ← List.reverse_append, ← hpost, List.reverse_reverse]
  have hhead : (trimStart cs).head? = some c := by
    rw [hsplit, List.head?_append, h]
    rfl
  exact isBlank_head_trimStart hhead

theorem isBlank_getLast_trimChars {cs : List Char} {c : Char}
    (h : (trimChars cs).getLast? = some c) : isBlank c = false := by
  rw [trimChars, List.getLast?_reverse] at h
  exact isBlank_head_trimStart h

end Switchboard.Text
