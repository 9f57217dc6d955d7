/-!
# Cutting a text

A command line and its fields are cut at the first colon; only the last field may hold colons of
its own. Main statement: `cutChars?` finds the first separator and nothing else
(`cutChars?_eq_some_iff`, `cutChars?_eq_none_iff`).

A text can also be cut at a byte offset, but not inside a character (`cutAt?_eq_some_iff`).
-/

namespace Switchboard.Text

/-- What stands before and after the first `sep`, if there is one. -/
def cutChars? (sep : Char) : List Char → Option (List Char × List Char)
  | [] => none
  | c :: cs =>
    if c = sep then some ([], cs)
    else (cutChars? sep cs).map fun p => (c :: p.1, p.2)

/-- The texts before and after the first `sep`, if there is one. -/
def cut? (sep : Char) (s : String) : Option (String × String) :=
  (cutChars? sep s.toList).map fun p => (.ofList p.1, .ofList p.2)

theorem cutChars?_eq_some_iff {sep : Char} {cs a b : List Char} :
    cutChars? sep cs = some (a, b) ↔ cs = a ++ sep :: b ∧ sep ∉ a := by
  induction cs generalizing a with
  | nil => simp [cutChars?]
  | cons c cs ih =>
    unfold cutChars?
    split
    · next h =>
      subst h
      cases a <;> grind
    · next h =>
      cases a with
      | nil => simp; grind
      | cons d ds =>
        simp only [Option.map_eq_some_iff, Prod.mk.injEq, List.cons.injEq]
        constructor
        · rintro ⟨⟨x, y⟩, hx, ⟨rfl, rfl⟩, rfl⟩
          have := ih.1 hx
          grind
        · rintro ⟨h1, h2⟩
          exact ⟨(ds, b), ih.2 (by grind), by grind, rfl⟩

theorem cutChars?_eq_none_iff {sep : Char} {cs : List Char} :
    cutChars? sep cs = none ↔ sep ∉ cs := by
  induction cs with
  | nil => simp [cutChars?]
  | cons c cs ih =>
    unfold cutChars?
    split
    · next h => simp [h]
    · next h => simp [ih, Ne.symm h]

/-! ## Byte offsets -/

/-- The number of bytes of some characters. -/
def utf8Length : List Char → Nat
  | [] => 0
  | c :: cs => c.utf8Size + utf8Length cs

@[simp] theorem utf8Length_nil : utf8Length [] = 0 :=
  rfl

@[simp] theorem utf8Length_cons (c : Char) (cs : List Char) :
    utf8Length (c :: cs) = c.utf8Size + utf8Length cs :=
  rfl

@[simp] theorem utf8Length_append (a b : List Char) :
    utf8Length (a ++ b) = utf8Length a + utf8Length b := by
  induction a with
  | nil => exact (Nat.zero_add _).symm
  | cons c a ih => rw [List.cons_append, utf8Length_cons, utf8Length_cons, ih, Nat.add_assoc]

/-- The two parts of a text at a byte offset; none if the offset is inside a character or behind
the end. -/
def cutAt? : Nat → List Char → Option (List Char × List Char)
  | 0, cs => some ([], cs)
  | _ + 1, [] => none
  | n + 1, c :: cs =>
    if c.utf8Size ≤ n + 1 then
      (cutAt? (n + 1 - c.utf8Size) cs).map fun p => (c :: p.1, p.2)
    else none

/-- What stands between two byte offsets, if the text can be cut at both. -/
def slice? (start stop : Nat) (cs : List Char) : Option (List Char) :=
  (cutAt? start cs).bind fun p => (cutAt? (stop - start) p.2).map (·.1)

/-- The parts at an offset are the ones that make the text, the first of them so many bytes long. -/
theorem cutAt?_eq_some_iff {n : Nat} {a b cs : List Char} :
    cutAt? n cs = some (a, b) ↔ a ++ b = cs ∧ utf8Length a = n := by
  induction cs generalizing n a b with
  | nil =>
    cases n with
    | zero => cases a <;> simp [cutAt?, eq_comm]
    | succ n => cases a <;> simp [cutAt?]
  | cons c cs ih =>
    have hpos := c.utf8Size_pos
    cases n with
    | zero =>
      cases a with
      | nil => simp [cutAt?, eq_comm]
      | cons d ds => simp [cutAt?, Nat.ne_of_gt d.utf8Size_pos]
    | succ n =>
      unfold cutAt?
      split
      · next hfits =>
        simp only [Option.map_eq_some_iff, Prod.mk.injEq, Prod.exists, ih]
        constructor
        · rintro ⟨front, rest, ⟨rfl, hlen⟩, rfl, rfl⟩
          refine ⟨rfl, ?_⟩
          rw [utf8Length_cons, hlen]
          omega
        · rintro ⟨happ, hlen⟩
          cases a with
          | nil => cases hlen
          | cons d ds =>
            obtain ⟨rfl, rfl⟩ := List.cons.inj happ
            rw [utf8Length_cons] at hlen
            exact ⟨ds, b, ⟨rfl, by omega⟩, rfl, rfl⟩
      · next hlarge =>
        simp only [reduceCtorEq, false_iff, not_and]
        intro happ hlen
        cases a with
        | nil => cases hlen
        | cons d ds =>
          obtain ⟨rfl, -⟩ := List.cons.inj happ
          rw [utf8Length_cons] at hlen
          omega

/-- What was put between two texts is found between its offsets. -/
theorem slice?_append (front middle back : List Char) :
    slice? (utf8Length front) (utf8Length front + utf8Length middle) (front ++ (middle ++ back)) =
      some middle := by
  rw [slice?, cutAt?_eq_some_iff.2 ⟨rfl, rfl⟩, Option.bind_some, Nat.add_sub_cancel_left,
    cutAt?_eq_some_iff.2 ⟨rfl, rfl⟩, Option.map_some]

end Switchboard.Text
