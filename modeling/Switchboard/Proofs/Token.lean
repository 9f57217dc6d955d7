import Mathlib.Data.List.Basic
import Std.Data.String.ToNat
import Switchboard.Proofs.Text.Boundaries
import Switchboard.Proofs.Text.Fields
import Switchboard.Proofs.Text.Json
import Switchboard.Token

/-!
# Tokens told apart

A token is a JSON text, and a JSON text says one value at most. So a host that knows JSON, and
nothing else, tells the tokens apart.

* **`Token.value`**: what a token says. `denotes_render` is that its rendering says this, and
  `render_injective` follows: no two tokens are rendered alike.
* **`Text.Quoted.le_toNat_of_mem_quote`**: control characters do not stand in a quoted text.
* **`utf8ByteSize_render_deferred`**: digits need no escapes, so a `deferred` token has one byte for
  each digit beside its overhead.
* **`tokens_unambiguous`**: all of it for every token.
-/

namespace Switchboard

/-- Digits stand for themselves between quotes. -/
theorem Text.Quoted.quote_of_isDigit {s : String} (h : ∀ c ∈ s.toList, c.isDigit = true) :
    quote s = "\"" ++ s ++ "\"" := by
  have hescape (c : Char) (hc : c ∈ s.toList) : escape c = [c] := by
    have hdigit := h c hc
    have hne {d : Char} (hd : d.isDigit = false) : c ≠ d := by
      rintro rfl
      exact Bool.false_ne_true (hd.symm.trans hdigit)
    have hlow : ¬ c.toNat < 0x20 := by
      simp only [Char.isDigit, Bool.and_eq_true, decide_eq_true_eq] at hdigit
      have : 48 ≤ c.toNat := hdigit.1
      omega
    simp only [escape, hne (d := '"') rfl, hne (d := '\\') rfl, hne (d := '\x08') rfl,
      hne (d := '\x0c') rfl, hne (d := '\n') rfl, hne (d := '\r') rfl, hne (d := '\t') rfl, hlow,
      ↓reduceIte]
  have hsame : s.toList.flatMap escape = s.toList := by
    rw [List.flatMap_congr hescape, List.flatMap_singleton']
  apply String.toList_injective
  simp [quote, quoteChars, hsame]

/-- No character below a blank stands for itself between quotes. -/
theorem Text.Quoted.le_toNat_of_mem_escape {c d : Char} (h : d ∈ escape c) : 0x20 ≤ d.toNat := by
  have hdigit : ∀ n < 16, 0x20 ≤ (hexDigit n).toNat := by decide
  have hshort {short : Char} (hlow : 0x20 ≤ short.toNat) : ∀ d ∈ ['\\', short], 0x20 ≤ d.toNat :=
    List.forall_mem_cons.2 ⟨by decide, List.forall_mem_singleton.2 hlow⟩
  unfold escape at h
  split at h
  · exact hshort (by decide) d h
  split at h
  · exact hshort (by decide) d h
  split at h
  · exact hshort (by decide) d h
  split at h
  · exact hshort (by decide) d h
  split at h
  · exact hshort (by decide) d h
  split at h
  · exact hshort (by decide) d h
  split at h
  · exact hshort (by decide) d h
  split at h
  · have hhigh : 0x20 ≤ (hexDigit (c.toNat / 16)).toNat := hdigit _ (by omega)
    have hlow : 0x20 ≤ (hexDigit (c.toNat % 16)).toNat := hdigit _ (by omega)
    have hall : ∀ d ∈ ['\\', 'u', '0', '0', hexDigit (c.toNat / 16), hexDigit (c.toNat % 16)],
        0x20 ≤ d.toNat := by
      simp [hhigh, hlow]
    exact hall d h
  · next hcontrol =>
    obtain rfl := List.mem_singleton.1 h
    exact Nat.not_lt.1 hcontrol

theorem Text.Quoted.le_toNat_of_mem_quote {s : String} {c : Char} (h : c ∈ (quote s).toList) :
    0x20 ≤ c.toNat := by
  rw [quote, String.toList_ofList, quoteChars, List.mem_cons, List.mem_append] at h
  rcases h with rfl | h | h
  · decide
  · obtain ⟨d, -, hd⟩ := List.mem_flatMap.1 h
    exact le_toNat_of_mem_escape hd
  · obtain rfl := List.mem_singleton.1 h
    decide

namespace Token

/-- A `deferred` token has one byte for each digit of its id beside the overhead. -/
theorem utf8ByteSize_render_deferred (id : UInt64) :
    (deferred id).render.utf8ByteSize = overhead + (toString id).length := by
  have hdigits (c : Char) (hc : c ∈ (toString id).toList) : c.isDigit = true :=
    Text.isDigit_of_mem_repr hc
  have hsize := Text.utf8ByteSize_of_isDigit hdigits
  show ("[2," ++ Text.Quoted.quote (toString id) ++ "]").utf8ByteSize = _
  rw [Text.Quoted.quote_of_isDigit hdigits]
  simp only [String.utf8ByteSize_append, hsize]
  show 3 + (1 + (toString id).length + 1) + 1 = 6 + (toString id).length
  omega

/-! ## Tokens as JSON texts -/

/-- What a token says as a JSON text. -/
def value : Token → Json
  | ok => .array [.number "1"]
  | failed => .array [.number "0"]
  | notReady => .array [.number "3"]
  | tooLarge => .array [.number "5"]
  | okText text => .array [.number "1", .string text]
  | error reason => .array [.number "0", .string reason]
  | deferred id => .array [.number "2", .string (toString id.toNat)]

theorem value_injective : Function.Injective value := by
  intro token token' h
  cases token <;> cases token' <;> simp_all [value]
  exact UInt64.toNat_inj.1 h

section Items

variable {d : Char} (hd : d.isDigit = true)
include hd

/-- A digit alone in brackets. -/
theorem denotes_digit :
    Json.Denotes (.ofList ['[', d, ']']) (.array [.number (.ofList [d])]) := by
  refine ⟨[], ?_, rfl⟩
  rw [String.toList_ofList]
  exact .array (.last (Json.reads_digit hd rfl []) rfl)

/-- A digit and a quoted text in brackets. -/
theorem denotes_item (text : String) :
    Json.Denotes (.ofList ('[' :: d :: ',' :: (Text.Quoted.quoteChars text.toList ++ [']'])))
      (.array [.number (.ofList [d]), .string text]) := by
  have htext := Json.reads_quote text.toList [']']
  rw [String.ofList_toList] at htext
  refine ⟨[], ?_, rfl⟩
  rw [String.toList_ofList]
  exact .array (.more (Json.reads_digit hd rfl _) rfl (.last htext rfl))

end Items

/-- **A token is a JSON text**, and says what it stands for. -/
theorem denotes_render (token : Token) : Json.Denotes token.render token.value := by
  have hitem (front : String) (d : Char) (hd : d.isDigit = true)
      (hfront : front = .ofList ['[', d, ',']) (text : String) :
      Json.Denotes (front ++ Text.Quoted.quote text ++ "]")
        (.array [.number (.ofList [d]), .string text]) := by
    have hlist : front ++ Text.Quoted.quote text ++ "]" =
        .ofList ('[' :: d :: ',' :: (Text.Quoted.quoteChars text.toList ++ [']'])) := by
      apply String.toList_injective
      simp [hfront, Text.Quoted.quote]
    rw [hlist]
    exact denotes_item hd text
  cases token with
  | ok => exact denotes_digit (d := '1') rfl
  | failed => exact denotes_digit (d := '0') rfl
  | notReady => exact denotes_digit (d := '3') rfl
  | tooLarge => exact denotes_digit (d := '5') rfl
  | okText text => exact hitem "[1," '1' rfl rfl text
  | error reason => exact hitem "[0," '0' rfl rfl reason
  | deferred id => exact hitem "[2," '2' rfl rfl (toString id)

/-- **No two tokens are rendered alike.** -/
theorem render_injective : Function.Injective render := by
  intro token token' h
  have hvalue := denotes_render token
  rw [h] at hvalue
  exact value_injective (hvalue.unique (denotes_render token'))

theorem denotes_render_iff {token : Token} {value : Json} :
    Json.Denotes token.render value ↔ value = token.value := by
  constructor
  · intro h
    exact h.unique (denotes_render token)
  · rintro rfl
    exact denotes_render token

/-- The rendering of a `deferred` token determines the id. -/
theorem render_deferred_inj {id id' : UInt64} (h : (deferred id).render = (deferred id').render) :
    id = id' :=
  deferred.inj (render_injective h)

theorem render_error_ne_deferred (reason : String) (id : UInt64) :
    (error reason).render ≠ (deferred id).render :=
  render_injective.ne nofun

theorem render_error_ne_ok (reason : String) : (error reason).render ≠ ok.render :=
  render_injective.ne nofun

theorem le_toNat_of_mem_render {token : Token} {c : Char} (h : c ∈ token.render.toList) :
    0x20 ≤ c.toNat := by
  have hplain {s : String} (hs : s.toList.all (0x20 ≤ ·.toNat) = true) (hc : c ∈ s.toList) :
      0x20 ≤ c.toNat := of_decide_eq_true (List.all_eq_true.1 hs c hc)
  have hitem {front s : String} (hfront : front.toList.all (0x20 ≤ ·.toNat) = true)
      (hc : c ∈ (front ++ Text.Quoted.quote s ++ "]").toList) : 0x20 ≤ c.toNat := by
    rw [String.toList_append, String.toList_append, List.mem_append, List.mem_append] at hc
    rcases hc with (hc | hc) | hc
    · exact hplain hfront hc
    · exact Text.Quoted.le_toNat_of_mem_quote hc
    · exact hplain (s := "]") rfl hc
  cases token with
  | ok => exact hplain rfl h
  | failed => exact hplain rfl h
  | notReady => exact hplain rfl h
  | tooLarge => exact hplain rfl h
  | okText text => exact hitem rfl h
  | error reason => exact hitem rfl h
  | deferred id => exact hitem rfl h

theorem readItem?_quoteChars (cs : List Char) :
    readItem? (Text.Quoted.quoteChars cs ++ [']']) = some (.ofList cs) := by
  simp only [readItem?, Text.Quoted.unquote?_quote_append]

/-- A token is read back. -/
theorem read?_render (token : Token) : read? token.render = some token := by
  have hquote (front s : String) : (front ++ Text.Quoted.quote s ++ "]").toList =
      front.toList ++ (Text.Quoted.quoteChars s.toList ++ [']']) := by
    simp [Text.Quoted.quote]
  cases token with
  | ok => rfl
  | failed => rfl
  | notReady => rfl
  | tooLarge => rfl
  | okText text =>
    rw [read?, render, hquote]
    simp [readChars?, readItem?_quoteChars]
  | error reason =>
    rw [read?, render, hquote]
    simp [readChars?, readItem?_quoteChars]
  | deferred id =>
    have hword : Text.word? (toString id) = some id :=
      Text.word?_eq_some_iff.2 (Text.numeral_toString id)
    rw [read?, render, hquote]
    simp [readChars?, readItem?_quoteChars, hword]

/-! ## The theorem -/

/-- **Tokens are unambiguous.** A token is a JSON array of a number that says how the call went and,
for three of them, a text; it is no other JSON value. No control character stands in it, and a
`deferred` token has six bytes beside the digits of its id. A token is read back from its rendering,
so that different tokens are rendered differently. -/
theorem tokens_unambiguous :
    (∀ reason value, Json.Denotes (error reason).render value ↔
      value = .array [.number "0", .string reason]) ∧
    (∀ text value, Json.Denotes (okText text).render value ↔
      value = .array [.number "1", .string text]) ∧
    (∀ id value, Json.Denotes (deferred id).render value ↔
      value = .array [.number "2", .string (toString id.toNat)]) ∧
    (∀ id, (deferred id).render.utf8ByteSize = 6 + (toString id.toNat).length) ∧
    (∀ token : Token, ∀ c ∈ token.render.toList, 0x20 ≤ c.toNat) ∧
    (∀ token : Token, read? token.render = some token) ∧
    Function.Injective render :=
  ⟨fun _ _ => denotes_render_iff, fun _ _ => denotes_render_iff, fun _ _ => denotes_render_iff,
    utf8ByteSize_render_deferred, fun _ _ => le_toNat_of_mem_render, read?_render, render_injective⟩

theorem tokens_unambiguous_of_escaped :
    ('u' ∈ (error "\x01\"]").render.toList ∧ 0x20 ≤ 'u'.toNat) ∧
    (error "\x01\"]").render = "[0,\"\\u0001\\\"]\"]" ∧
    Json.Denotes (error "\x01\"]").render (.array [.number "0", .string "\x01\"]"]) ∧
    (error "1").render ≠ (okText "1").render := by
  obtain ⟨herror, -, -, -, hraw, -, hinjective⟩ := tokens_unambiguous
  have hmem : 'u' ∈ (error "\x01\"]").render.toList := by
    decide +kernel
  refine ⟨⟨hmem, hraw _ _ hmem⟩, by decide +kernel, (herror _ _).2 rfl, fun h => ?_⟩
  exact absurd (hinjective h) nofun

end Token

end Switchboard
