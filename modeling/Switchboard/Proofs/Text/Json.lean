import Switchboard.Text.Quoted

/-!
# JSON texts

What a JSON text says, as a relation between texts and values: the grammar of the format, each rule
of which takes a piece off the front of a text and says what is left. A number is kept as it is
written.

* **`Contents`**, **`Number`**: what stands between quotes, and the literals of numbers.
* **`Reads`**, with `Items` and `Members`: a value at the front of a text.
* **`Denotes`**: a whole text with blanks around it.
* **`Reads.unique`**, **`Denotes.unique`**: the grammar is unambiguous, so a text has one value at
  most.
* **`reads_quote`**: a quoted text is a JSON string, and has the text as its value.
-/

namespace Switchboard

open Text Quoted

/-- A JSON value. Numbers are as they are written, and members in the order in which they are. -/
inductive Json where
  | null
  | bool (b : Bool)
  | number (literal : String)
  | string (text : String)
  | array (items : List Json)
  | object (members : List (String × Json))

namespace Json

/-! ## The grammar -/

def isSpace (c : Char) : Bool :=
  c = ' ' || c = '\t' || c = '\n' || c = '\r'

/-- What is left after the blanks at the front. -/
def skip (cs : List Char) : List Char :=
  cs.dropWhile isSpace

def Digits (ds : List Char) : Prop :=
  ds ≠ [] ∧ ∀ d ∈ ds, d.isDigit = true

/-- A literal of a number: an optional sign, digits without a leading zero, an optional fraction,
and an optional exponent. -/
def Number (literal : List Char) : Prop :=
  ∃ sign whole fraction exponent : List Char, literal = sign ++ (whole ++ (fraction ++ exponent)) ∧
    (sign = [] ∨ sign = ['-']) ∧
    (whole = ['0'] ∨ Digits whole ∧ whole.head? ≠ some '0') ∧
    (fraction = [] ∨ ∃ ds, Digits ds ∧ fraction = '.' :: ds) ∧
    (exponent = [] ∨ ∃ mark plus ds, (mark = 'e' ∨ mark = 'E') ∧
      (plus = [] ∨ plus = ['+'] ∨ plus = ['-']) ∧ Digits ds ∧ exponent = mark :: (plus ++ ds))

/-- Whether a character can stand in a literal of a number. -/
def isNumberChar (c : Char) : Bool :=
  c.isDigit || c = '-' || c = '+' || c = '.' || c = 'e' || c = 'E'

/-- What follows an opening quote: the text, and what is left after the closing quote. A code point
beyond the first plane may be written as two numbers, each for one half of it. -/
inductive Contents : List Char → List Char → List Char → Prop where
  | close (rest : List Char) : Contents ('"' :: rest) [] rest
  | plain {c : Char} {cs text rest : List Char} (hquote : c ≠ '"') (hescape : c ≠ '\\')
      (hcontrol : 0x20 ≤ c.toNat) (h : Contents cs text rest) : Contents (c :: cs) (c :: text) rest
  | short {e c : Char} {cs text rest : List Char} (he : shortEscape? e = some c)
      (h : Contents cs text rest) : Contents ('\\' :: e :: cs) (c :: text) rest
  | numbered {x y z w : Char} {n : Nat} {cs text rest : List Char}
      (hn : digits? 16 [x, y, z, w] = some n) (hvalid : n.isValidChar)
      (h : Contents cs text rest) :
      Contents ('\\' :: 'u' :: x :: y :: z :: w :: cs) (.ofNat n :: text) rest
  | halves {x y z w x' y' z' w' : Char} {high low : Nat} {cs text rest : List Char}
      (hhigh : digits? 16 [x, y, z, w] = some high) (hlow : digits? 16 [x', y', z', w'] = some low)
      (hhighRange : 0xD800 ≤ high ∧ high < 0xDC00) (hlowRange : 0xDC00 ≤ low ∧ low < 0xE000)
      (h : Contents cs text rest) :
      Contents ('\\' :: 'u' :: x :: y :: z :: w :: '\\' :: 'u' :: x' :: y' :: z' :: w' :: cs)
        (.ofNat (0x10000 + (high - 0xD800) * 0x400 + (low - 0xDC00)) :: text) rest

mutual

/-- A value at the front of a text, and what is left after it. -/
inductive Reads : List Char → Json → List Char → Prop where
  | nullWord (rest : List Char) : Reads ('n' :: 'u' :: 'l' :: 'l' :: rest) .null rest
  | trueWord (rest : List Char) : Reads ('t' :: 'r' :: 'u' :: 'e' :: rest) (.bool true) rest
  | falseWord (rest : List Char) :
      Reads ('f' :: 'a' :: 'l' :: 's' :: 'e' :: rest) (.bool false) rest
  /-- A literal goes on for as long as it can. -/
  | number {cs literal rest : List Char} (hsplit : cs = literal ++ rest) (hnumber : Number literal)
      (hnext : ∀ c, rest.head? = some c → isNumberChar c = false) :
      Reads cs (.number (.ofList literal)) rest
  | string {cs text rest : List Char} (htext : Contents cs text rest) :
      Reads ('"' :: cs) (.string (.ofList text)) rest
  | emptyArray {cs rest : List Char} (hclose : skip cs = ']' :: rest) :
      Reads ('[' :: cs) (.array []) rest
  | array {cs rest : List Char} {items : List Json} (hitems : Items cs items rest) :
      Reads ('[' :: cs) (.array items) rest
  | emptyObject {cs rest : List Char} (hclose : skip cs = '\x7d' :: rest) :
      Reads ('\x7b' :: cs) (.object []) rest
  | object {cs rest : List Char} {members : List (String × Json)}
      (hmembers : Members cs members rest) : Reads ('\x7b' :: cs) (.object members) rest

/-- One or more items, and what is left after the bracket that closes them. -/
inductive Items : List Char → List Json → List Char → Prop where
  | last {cs after rest : List Char} {item : Json} (hitem : Reads (skip cs) item after)
      (hclose : skip after = ']' :: rest) : Items cs [item] rest
  | more {cs after next rest : List Char} {item : Json} {items : List Json}
      (hitem : Reads (skip cs) item after) (hcomma : skip after = ',' :: next)
      (hitems : Items next items rest) : Items cs (item :: items) rest

/-- A name and a value, and what is left after them. -/
inductive Member : List Char → String × Json → List Char → Prop where
  | mk {cs front text middle back after : List Char} {value : Json}
      (hquote : skip cs = '"' :: front) (htext : Contents front text middle)
      (hcolon : skip middle = ':' :: back) (hvalue : Reads (skip back) value after) :
      Member cs (.ofList text, value) after

/-- One or more members, and what is left after the brace that closes them. -/
inductive Members : List Char → List (String × Json) → List Char → Prop where
  | last {cs after rest : List Char} {member : String × Json} (hmember : Member cs member after)
      (hclose : skip after = '\x7d' :: rest) : Members cs [member] rest
  | more {cs after next rest : List Char} {member : String × Json} {members : List (String × Json)}
      (hmember : Member cs member after) (hcomma : skip after = ',' :: next)
      (hmembers : Members next members rest) : Members cs (member :: members) rest

end

/-- A whole text says this value. -/
def Denotes (s : String) (value : Json) : Prop :=
  ∃ rest, Reads (skip s.toList) value rest ∧ skip rest = []

/-! ## Where pieces end -/

theorem Digits.chars {ds : List Char} (h : Digits ds) : ∀ d ∈ ds, isNumberChar d = true := by
  intro d hd
  simp [isNumberChar, h.2 d hd]

theorem Number.chars {literal : List Char} (h : Number literal) :
    literal ≠ [] ∧ ∀ c ∈ literal, isNumberChar c = true := by
  obtain ⟨sign, whole, fraction, exponent, rfl, hsign, hwhole, hfraction, hexponent⟩ := h
  have hsign : ∀ c ∈ sign, isNumberChar c = true := by
    rcases hsign with rfl | rfl
    · nofun
    · exact List.forall_mem_singleton.2 rfl
  have hne : whole ≠ [] := by
    rcases hwhole with rfl | ⟨hdigits, -⟩
    · nofun
    · exact hdigits.1
  have hwhole : ∀ c ∈ whole, isNumberChar c = true := by
    rcases hwhole with rfl | ⟨hdigits, -⟩
    · exact List.forall_mem_singleton.2 rfl
    · exact hdigits.chars
  have hfraction : ∀ c ∈ fraction, isNumberChar c = true := by
    rcases hfraction with rfl | ⟨ds, hdigits, rfl⟩
    · nofun
    · exact List.forall_mem_cons.2 ⟨rfl, hdigits.chars⟩
  have hexponent : ∀ c ∈ exponent, isNumberChar c = true := by
    rcases hexponent with rfl | ⟨mark, plus, ds, hmark, hplus, hdigits, rfl⟩
    · nofun
    · have hmark : isNumberChar mark = true := by
        rcases hmark with rfl | rfl <;> rfl
      have hplus : ∀ c ∈ plus, isNumberChar c = true := by
        rcases hplus with rfl | rfl | rfl
        · nofun
        · exact List.forall_mem_singleton.2 rfl
        · exact List.forall_mem_singleton.2 rfl
      exact List.forall_mem_cons.2 ⟨hmark, List.forall_mem_append.2 ⟨hplus, hdigits.chars⟩⟩
  refine ⟨by simp [hne], ?_⟩
  exact List.forall_mem_append.2 ⟨hsign, List.forall_mem_append.2 ⟨hwhole,
    List.forall_mem_append.2 ⟨hfraction, hexponent⟩⟩⟩

/-- A literal starts with a character of its own. -/
theorem Number.ne_cons {literal rest cs : List Char} {c : Char} (h : Number literal)
    (hc : isNumberChar c = false) : c :: cs ≠ literal ++ rest := by
  intro heq
  obtain ⟨hne, hchars⟩ := h.chars
  cases literal with
  | nil => exact hne rfl
  | cons d literal =>
    obtain ⟨rfl, -⟩ := List.cons.inj heq
    exact Bool.false_ne_true (hc.symm.trans (hchars _ List.mem_cons_self))

/-- Where a literal ends is seen at the character after it. -/
theorem Number.eq_takeWhile {literal rest : List Char} (h : Number literal)
    (hnext : ∀ c, rest.head? = some c → isNumberChar c = false) :
    (literal ++ rest).takeWhile isNumberChar = literal := by
  have hrest : rest.takeWhile isNumberChar = [] := by
    cases rest with
    | nil => rfl
    | cons c rest => exact List.takeWhile_cons_of_neg (by simp [hnext c rfl])
  rw [List.takeWhile_append_of_pos h.chars.2, hrest, List.append_nil]

/-- No value starts with a closing bracket. -/
theorem not_reads_bracket {cs rest : List Char} {value : Json} :
    ¬ Reads (']' :: cs) value rest := by
  intro h
  cases h with
  | number hsplit hnumber hnext => exact hnumber.ne_cons rfl hsplit

theorem not_items_bracket {cs back rest : List Char} {items : List Json}
    (hclose : skip cs = ']' :: back) : ¬ Items cs items rest := by
  intro h
  cases h with
  | last hitem _ =>
    rw [hclose] at hitem
    exact not_reads_bracket hitem
  | more hitem _ _ =>
    rw [hclose] at hitem
    exact not_reads_bracket hitem

theorem not_members_brace {cs back rest : List Char} {members : List (String × Json)}
    (hclose : skip cs = '\x7d' :: back) : ¬ Members cs members rest := by
  have hmember {member : String × Json} {after : List Char} : ¬ Member cs member after := by
    rintro ⟨hquote, -, -, -⟩
    cases hclose.symm.trans hquote
  intro h
  cases h with
  | last hfirst _ => exact hmember hfirst
  | more hfirst _ _ => exact hmember hfirst

/-! ## The grammar is unambiguous -/

theorem Contents.unique {cs text text' rest rest' : List Char} (h : Contents cs text rest)
    (h' : Contents cs text' rest') : text = text' ∧ rest = rest' := by
  induction h generalizing text' rest' with
  | close rest =>
    cases h' with
    | close => exact ⟨rfl, rfl⟩
    | plain hquote => exact absurd rfl hquote
  | plain hquote hescape hcontrol _ ih =>
    cases h' with
    | close => exact absurd rfl hquote
    | plain _ _ _ h' =>
      obtain ⟨rfl, rfl⟩ := ih h'
      exact ⟨rfl, rfl⟩
    | short => exact absurd rfl hescape
    | numbered => exact absurd rfl hescape
    | halves => exact absurd rfl hescape
  | short he _ ih =>
    cases h' with
    | plain _ hescape => exact absurd rfl hescape
    | short he' h' =>
      obtain ⟨rfl, rfl⟩ := ih h'
      obtain rfl := Option.some.inj (he.symm.trans he')
      exact ⟨rfl, rfl⟩
    | numbered => cases he
    | halves => cases he
  | numbered hn hvalid _ ih =>
    cases h' with
    | plain _ hescape => exact absurd rfl hescape
    | short he => cases he
    | numbered hn' _ h' =>
      obtain ⟨rfl, rfl⟩ := ih h'
      obtain rfl := Option.some.inj (hn.symm.trans hn')
      exact ⟨rfl, rfl⟩
    | halves hhigh _ hrange =>
      -- the number of a half is no code point of its own
      obtain rfl := Option.some.inj (hn.symm.trans hhigh)
      unfold Nat.isValidChar at hvalid
      omega
  | halves hhigh hlow hrange _ _ ih =>
    cases h' with
    | plain _ hescape => exact absurd rfl hescape
    | short he => cases he
    | numbered hn hvalid =>
      obtain rfl := Option.some.inj (hn.symm.trans hhigh)
      unfold Nat.isValidChar at hvalid
      omega
    | halves hhigh' hlow' _ _ h' =>
      obtain ⟨rfl, rfl⟩ := ih h'
      obtain rfl := Option.some.inj (hhigh.symm.trans hhigh')
      obtain rfl := Option.some.inj (hlow.symm.trans hlow')
      exact ⟨rfl, rfl⟩

mutual

theorem Reads.unique {cs rest rest' : List Char} {value value' : Json} :
    Reads cs value rest → Reads cs value' rest' → value = value' ∧ rest = rest'
  | .nullWord _, h' => by
    cases h' with
    | nullWord => exact ⟨rfl, rfl⟩
    | number hsplit hnumber => exact absurd hsplit (hnumber.ne_cons rfl)
  | .trueWord _, h' => by
    cases h' with
    | trueWord => exact ⟨rfl, rfl⟩
    | number hsplit hnumber => exact absurd hsplit (hnumber.ne_cons rfl)
  | .falseWord _, h' => by
    cases h' with
    | falseWord => exact ⟨rfl, rfl⟩
    | number hsplit hnumber => exact absurd hsplit (hnumber.ne_cons rfl)
  | .number hsplit hnumber hnext, h' => by
    cases h' with
    | number hsplit' hnumber' hnext' =>
      have hliteral := hnumber.eq_takeWhile hnext
      rw [← hsplit, hsplit', hnumber'.eq_takeWhile hnext'] at hliteral
      subst hliteral
      obtain rfl := List.append_cancel_left (hsplit.symm.trans hsplit')
      exact ⟨rfl, rfl⟩
    | _ => exact absurd hsplit (hnumber.ne_cons rfl)
  | .string htext, h' => by
    cases h' with
    | string htext' =>
      obtain ⟨rfl, rfl⟩ := htext.unique htext'
      exact ⟨rfl, rfl⟩
    | number hsplit hnumber => exact absurd hsplit (hnumber.ne_cons rfl)
  | .emptyArray hclose, h' => by
    cases h' with
    | emptyArray hclose' =>
      cases hclose.symm.trans hclose'
      exact ⟨rfl, rfl⟩
    | array hitems => exact absurd hitems (not_items_bracket hclose)
    | number hsplit hnumber => exact absurd hsplit (hnumber.ne_cons rfl)
  | .array hitems, h' => by
    cases h' with
    | emptyArray hclose => exact absurd hitems (not_items_bracket hclose)
    | array hitems' =>
      obtain ⟨rfl, rfl⟩ := Items.unique hitems hitems'
      exact ⟨rfl, rfl⟩
    | number hsplit hnumber => exact absurd hsplit (hnumber.ne_cons rfl)
  | .emptyObject hclose, h' => by
    cases h' with
    | emptyObject hclose' =>
      cases hclose.symm.trans hclose'
      exact ⟨rfl, rfl⟩
    | object hmembers => exact absurd hmembers (not_members_brace hclose)
    | number hsplit hnumber => exact absurd hsplit (hnumber.ne_cons rfl)
  | .object hmembers, h' => by
    cases h' with
    | emptyObject hclose => exact absurd hmembers (not_members_brace hclose)
    | object hmembers' =>
      obtain ⟨rfl, rfl⟩ := Members.unique hmembers hmembers'
      exact ⟨rfl, rfl⟩
    | number hsplit hnumber => exact absurd hsplit (hnumber.ne_cons rfl)

theorem Items.unique {cs rest rest' : List Char} {items items' : List Json} :
    Items cs items rest → Items cs items' rest' → items = items' ∧ rest = rest'
  | .last hitem hclose, h' => by
    cases h' with
    | last hitem' hclose' =>
      obtain ⟨rfl, rfl⟩ := Reads.unique hitem hitem'
      cases hclose.symm.trans hclose'
      exact ⟨rfl, rfl⟩
    | more hitem' hcomma _ =>
      obtain ⟨rfl, rfl⟩ := Reads.unique hitem hitem'
      cases hclose.symm.trans hcomma
  | .more hitem hcomma hitems, h' => by
    cases h' with
    | last hitem' hclose =>
      obtain ⟨rfl, rfl⟩ := Reads.unique hitem hitem'
      cases hclose.symm.trans hcomma
    | more hitem' hcomma' hitems' =>
      obtain ⟨rfl, rfl⟩ := Reads.unique hitem hitem'
      cases hcomma.symm.trans hcomma'
      obtain ⟨rfl, rfl⟩ := Items.unique hitems hitems'
      exact ⟨rfl, rfl⟩

theorem Member.unique {cs rest rest' : List Char} {member member' : String × Json} :
    Member cs member rest → Member cs member' rest' → member = member' ∧ rest = rest'
  | .mk hquote htext hcolon hvalue, h' => by
    cases h' with
    | mk hquote' htext' hcolon' hvalue' =>
      cases hquote.symm.trans hquote'
      obtain ⟨rfl, rfl⟩ := htext.unique htext'
      cases hcolon.symm.trans hcolon'
      obtain ⟨rfl, rfl⟩ := Reads.unique hvalue hvalue'
      exact ⟨rfl, rfl⟩

theorem Members.unique {cs rest rest' : List Char} {members members' : List (String × Json)} :
    Members cs members rest → Members cs members' rest' → members = members' ∧ rest = rest'
  | .last hmember hclose, h' => by
    cases h' with
    | last hmember' hclose' =>
      obtain ⟨rfl, rfl⟩ := Member.unique hmember hmember'
      cases hclose.symm.trans hclose'
      exact ⟨rfl, rfl⟩
    | more hmember' hcomma _ =>
      obtain ⟨rfl, rfl⟩ := Member.unique hmember hmember'
      cases hclose.symm.trans hcomma
  | .more hmember hcomma hmembers, h' => by
    cases h' with
    | last hmember' hclose =>
      obtain ⟨rfl, rfl⟩ := Member.unique hmember hmember'
      cases hclose.symm.trans hcomma
    | more hmember' hcomma' hmembers' =>
      obtain ⟨rfl, rfl⟩ := Member.unique hmember hmember'
      cases hcomma.symm.trans hcomma'
      obtain ⟨rfl, rfl⟩ := Members.unique hmembers hmembers'
      exact ⟨rfl, rfl⟩

end

/-- **A text says one value at most.** -/
theorem Denotes.unique {s : String} {value value' : Json} (h : Denotes s value)
    (h' : Denotes s value') : value = value' := by
  obtain ⟨rest, hreads, -⟩ := h
  obtain ⟨rest', hreads', -⟩ := h'
  exact (hreads.unique hreads').1

/-! ## Digits and quoted texts -/

theorem isSpace_of_isDigit {d : Char} (hd : d.isDigit = true) : isSpace d = false := by
  have hne {c : Char} (hc : c.isDigit = false) : d ≠ c := by
    rintro rfl
    exact Bool.false_ne_true (hc.symm.trans hd)
  simp [isSpace, hne (c := ' ') rfl, hne (c := '\t') rfl, hne (c := '\n') rfl, hne (c := '\r') rfl]

/-- A digit on its own is a number. -/
theorem reads_digit {d c : Char} (hd : d.isDigit = true) (hc : isNumberChar c = false)
    (rest : List Char) :
    Reads (skip (d :: c :: rest)) (.number (.ofList [d])) (c :: rest) := by
  have hwhole : [d] = ['0'] ∨ Digits [d] ∧ [d].head? ≠ some '0' := by
    by_cases hzero : d = '0'
    · exact Or.inl (congrArg (fun e => [e]) hzero)
    · exact Or.inr ⟨⟨nofun, List.forall_mem_singleton.2 hd⟩, by simp [hzero]⟩
  rw [skip, List.dropWhile_cons_of_neg (by simp [isSpace_of_isDigit hd])]
  refine .number rfl ⟨[], [d], [], [], rfl, Or.inl rfl, hwhole, Or.inl rfl, Or.inl rfl⟩ ?_
  rintro e ⟨⟩
  exact hc

/-- What the reader of quoted texts takes is what stands between the quotes of a JSON string. -/
theorem contents_of_body? {cs text rest : List Char} (h : body? cs = some (text, rest)) :
    Contents cs text rest := by
  fun_induction body? cs generalizing text rest with
  | case1 => cases h
  | case2 back =>
    cases h
    exact .close back
  | case3 x y z w back n hn _ ih =>
    obtain ⟨⟨text, rest⟩, hback, heq⟩ := Option.map_eq_some_iff.1 h
    cases heq
    obtain ⟨hdigits, hvalid⟩ := Option.filter_eq_some_iff.1 hn
    exact .numbered hdigits (of_decide_eq_true hvalid) (ih hback)
  | case4 => cases h
  | case5 e back _ d hd _ ih =>
    obtain ⟨⟨text, rest⟩, hback, heq⟩ := Option.map_eq_some_iff.1 h
    cases heq
    exact .short hd (ih hback)
  | case6 => cases h
  | case7 => cases h
  | case8 => cases h
  | case9 c back hquote hescape hcontrol ih =>
    obtain ⟨⟨text, rest⟩, hback, heq⟩ := Option.map_eq_some_iff.1 h
    cases heq
    exact .plain hquote hescape (Nat.not_lt.1 hcontrol) (ih hback)

/-- **A quoted text is a JSON string**, and says the text. -/
theorem reads_quote (cs rest : List Char) :
    Reads (quoteChars cs ++ rest) (.string (.ofList cs)) rest := by
  have hcontents := contents_of_body? (body?_flatMap_escape cs rest)
  have hquote : quoteChars cs ++ rest = '"' :: (cs.flatMap escape ++ '"' :: rest) := by
    simp [quoteChars]
  rw [hquote]
  exact .string hcontents

end Json

end Switchboard
