import Switchboard.Proofs.Exchange.BreakingOff

/-!
# Replies fit the buffer

The host hands in a buffer of some capacity, and a reply is at most as long, unless the call was
refused: an error token is as long as its wording. The size of a reply has a reason of its own for
each command:

* the output of a handler that is run at once leaves the overhead of a `deferred` token free, or is
  stored and replaced by such a token, which has one byte for each digit of its id
  (`Token.utf8ByteSize_render_deferred`);
* a whole text is handed out only if it fits, and a piece fits or is a single character
  (`utf8Length_splitPiece_le`);
* the other tokens have three bytes, the version has five, and the capacity has no more digits than
  its value.

So there is room for every reply as soon as there is room for the `deferred` tokens of all ids that
are ever issued (`HasRoom`).
-/

namespace Switchboard.Exchange

variable {x : Exchange} {w : Surroundings} {range : Interval} {capacity : Nat}

/-! ## Room for a reply -/

/-- A buffer takes the `deferred` tokens of all ids of a range, which leaves room for the other
replies of a fixed size. -/
structure HasRoom (range : Interval) (capacity : Nat) : Prop where
  seven_le : 7 ≤ capacity
  digits_le : ∀ id : RequestId, range.holds id = true → (toString id).length ≤ capacity - 6

/-- What a call ends with fits the buffer, or it is no reply, or the reply is an error token. -/
inductive Fits (capacity : Nat) : Except Fault Outcome → Prop where
  | refused (fault : Fault) : Fits capacity (.error fault)
  | brokeOff : Fits capacity (.ok .panic)
  | replied {text : String} (hsize : text.utf8ByteSize ≤ capacity) :
      Fits capacity (.ok (.reply text))

theorem HasRoom.fits_deferred (h : HasRoom range capacity) {id : RequestId}
    (hid : range.holds id = true) : Fits capacity (.ok (.reply (Token.deferred id).render)) := by
  have hdigits := h.digits_le id hid
  have hroom := h.seven_le
  refine .replied ?_
  rw [Token.utf8ByteSize_render_deferred, Token.overhead]
  omega

/-- Every text of three bytes fits, so the tokens without an item do. -/
theorem HasRoom.fits_short (h : HasRoom range capacity) {text : String}
    (hshort : text.utf8ByteSize = 3) : Fits capacity (.ok (.reply text)) := by
  have hroom := h.seven_le
  exact .replied (by omega)

/-- A number is never smaller than the number of its digits. -/
theorem utf8ByteSize_toString_le (hpos : 0 < capacity) :
    (toString capacity).utf8ByteSize ≤ capacity := by
  have hdigits (c : Char) (hc : c ∈ capacity.repr.toList) : c.isDigit = true :=
    Text.isDigit_of_mem_repr hc
  show capacity.repr.utf8ByteSize ≤ capacity
  rw [Text.utf8ByteSize_of_isDigit hdigits, Nat.length_repr_le_iff hpos]
  exact Nat.lt_pow_self (by decide)

/-! ## Handlers -/

theorem fits_runInline (h : HasRoom range capacity) (hsound : x.store.Sound range)
    (w : Surroundings) (protocol payload : String) :
    Fits capacity (x.runInline w protocol payload capacity).1 := by
  unfold runInline dispatch
  cases x.registry[protocol]? with
  | none => exact .refused _
  | some handler =>
    dsimp only
    generalize handler.execute w payload x.link = answer
    obtain ⟨outcome, link⟩ := answer
    cases outcome with
    | panic => exact .brokeOff
    | reply text =>
      dsimp only
      split
      · next hfits => exact .replied (Nat.le_trans hfits (Nat.sub_le capacity Token.overhead))
      · unfold ResultStore.storeReady
        cases hissue : x.store.issue with
        | none => exact .refused _
        | some r => exact h.fits_deferred (ResultStore.holds_of_issue hsound hissue)

theorem fits_runBackground (h : HasRoom range capacity) (protocol payload : String)
    (x : Exchange) : Fits capacity (x.runBackground protocol payload).1 := by
  unfold runBackground
  split
  · exact .refused _
  · split
    · exact .refused _
    · exact h.fits_short rfl

theorem fits_runKept (h : HasRoom range capacity) (hsound : x.store.Sound range)
    (protocol payload : String) : Fits capacity (x.runKept protocol payload).1 := by
  unfold runKept
  split
  · exact .refused _
  · unfold ResultStore.reserve
    cases hissue : x.store.issue with
    | none => exact .refused _
    | some r =>
      dsimp only
      split
      · exact .refused _
      · exact h.fits_deferred (ResultStore.holds_of_issue hsound hissue)

/-! ## Stored texts -/

theorem fits_take (h : HasRoom range capacity) (id : RequestId) (s : ResultStore) :
    Fits capacity (.ok (.reply (fetchText (s.take id capacity).1))) := by
  unfold ResultStore.take ResultStore.withdraw
  cases s.entries[id]? with
  | none => exact .replied (Nat.zero_le capacity)
  | some entry =>
    cases entry with
    | pending => exact h.fits_short rfl
    | ready text =>
      dsimp only
      by_cases hlarge : capacity < text.utf8ByteSize
      · rw [if_pos hlarge]
        exact h.fits_short rfl
      · rw [if_neg hlarge]
        exact .replied (Nat.not_lt.1 hlarge)

theorem fits_takeChunk (h : HasRoom range capacity) (id : RequestId) (s : ResultStore) :
    Fits capacity (.ok (.reply (fetchText (s.takeChunk id capacity).1))) := by
  unfold ResultStore.takeChunk ResultStore.withdrawChunk
  cases s.entries[id]? with
  | none => exact .replied (Nat.zero_le capacity)
  | some entry =>
    cases entry with
    | pending => exact h.fits_short rfl
    | ready text =>
      dsimp only
      by_cases hempty : text = ""
      · rw [if_pos hempty]
        exact .replied (Nat.zero_le capacity)
      · rw [if_neg hempty]
        -- a character that is too wide for some buffers is not for this one
        have hpiece := utf8Length_splitPiece_le capacity text.toList
        have hroom := h.seven_le
        refine .replied ?_
        show (String.ofList (splitPiece capacity text.toList).1).utf8ByteSize ≤ capacity
        rw [← Text.utf8Length_toList, String.toList_ofList]
        omega

/-! ## Administrative commands -/

theorem fits_setupResult (h : HasRoom range capacity) {α β : Type} (family : α → Fault)
    (r : Except α β × Exchange) : Fits capacity (setupResult family r).1 := by
  obtain ⟨result, y⟩ := r
  cases result with
  | error fault => exact .refused _
  | ok b => exact h.fits_short rfl

theorem fits_runSystem (h : HasRoom range capacity) (w : Surroundings) (command : SystemCommand)
    (x : Exchange) : Fits capacity (x.runSystem w command capacity).1 := by
  have hroom := h.seven_le
  unfold runSystem
  split
  · exact .refused _
  · cases command with
    | version =>
      refine .replied ?_
      show 5 ≤ capacity
      omega
    | outputSize => exact .replied (utf8ByteSize_toString_le (by omega))
    | lock => exact h.fits_short rfl
    | lockStatus =>
      dsimp only
      cases x.locked <;> exact h.fits_short rfl
    | startConsole config =>
      dsimp only
      split
      · exact .brokeOff
      · exact fits_setupResult h _ _
    | bindDatabase config id => exact fits_setupResult h _ _
    | addHandler database kind name initArgs => exact fits_setupResult h _ _

/-! ## Calls -/

/-- **Every command has its size**, one case for each. -/
theorem fits_execute (h : HasRoom range capacity) (hsound : x.store.Sound range)
    (w : Surroundings) (command : Command) : Fits capacity (x.execute w command capacity).1 := by
  cases command with
  | run mode protocol payload =>
    cases mode with
    | inline => exact fits_runInline h hsound w protocol payload
    | background => exact fits_runBackground h protocol payload x
    | kept => exact fits_runKept h hsound protocol payload
  | take id => exact fits_take h id x.store
  | takeChunk id => exact fits_takeChunk h id x.store
  | system command => exact fits_runSystem h w command x

theorem fits_attempt (h : HasRoom range capacity) (hsound : x.store.Sound range)
    (w : Surroundings) (line : String) : Fits capacity (x.attempt w line capacity).1 := by
  unfold attempt
  cases Command.parse line with
  | error fault => exact .refused _
  | ok command => exact fits_execute h hsound w command

/-- **Replies fit the buffer.** Take any moment after an exchange was opened, with host calls,
workers and engines in any order before it, a buffer of seven bytes at least, and suppose that every
id that the exchange can issue has at least six digits fewer than the buffer has bytes. Whatever the
line is, and whatever the handlers answer, the reply is at most as long as the buffer, unless the
call failed and the reply is the error token for its fault. -/
theorem replies_fit_buffer {s : Settings} {processors : Nat} {draw : UInt64}
    (hlaunch : launch s processors draw = .ok x) (os : List Occurrence) (hcapacity : 7 ≤ capacity)
    (hids : ∀ id : RequestId, x.store.ids.range.holds id = true →
      (toString id).length ≤ capacity - 6)
    (w : Surroundings) (line : String) {reply : String}
    (hreply : ((x.afterAll os).call w line capacity).1 = .reply reply) :
    reply.utf8ByteSize ≤ capacity ∨
      ∃ fault, ((x.afterAll os).attempt w line capacity).1 = .error fault ∧
        reply = (Token.error fault.hostMessage).render := by
  obtain ⟨range, hstart, -⟩ := consistent_launch hlaunch
  have hroom : HasRoom range capacity := ⟨hcapacity, hstart.sound.range_eq ▸ hids⟩
  have hfits := fits_attempt hroom (sound_afterAll hstart.sound os) w line
  rw [call_eq] at hreply
  generalize ((x.afterAll os).attempt w line capacity).1 = result at hfits hreply ⊢
  cases hfits with
  | refused fault => exact Or.inr ⟨fault, rfl, (Outcome.reply.inj hreply).symm⟩
  | brokeOff => cases hreply
  | replied hsize =>
    cases hreply
    exact Or.inl hsize

/-! The tightest buffer. -/

/-- The settings have nine ids, of one digit each. -/
def nineIds : Settings :=
  { testMode := true, idRangeEnd := 10 }

/-- The exchange that these settings open. -/
def nineIdsStart : Exchange :=
  { echoStart with
    settings := nineIds
    store := .ofIds ⟨⟨1, 10⟩, [⟨1, 10⟩]⟩ }

/-- An output of two bytes is stored for want of one, and the token for it fills the buffer. -/
theorem replies_fit_buffer_to_the_byte :
    launch nineIds 1 0 = .ok nineIdsStart ∧
    (∀ id : RequestId, nineIdsStart.store.ids.range.holds id = true →
      (toString id).length ≤ 7 - 6) ∧
    ((nineIdsStart.afterAll utilitiesSetup).call echoSurroundings "0:m:TEST:ab" 7).1 =
      .reply "[2,\"1\"]" ∧
    "[2,\"1\"]".utf8ByteSize ≤ 7 := by
  have hlaunch : launch nineIds 1 0 = .ok nineIdsStart := rfl
  have hids (id : RequestId) (hid : nineIdsStart.store.ids.range.holds id = true) :
      (toString id).length ≤ 7 - 6 := by
    have hlt : id.toNat < 10 := (Interval.mem_toFinset.1 (Interval.holds_iff.1 hid)).2
    exact (Nat.length_repr_le_iff (by decide)).2 hlt
  have hreply : ((nineIdsStart.afterAll utilitiesSetup).call echoSurroundings "0:m:TEST:ab" 7).1 =
      .reply "[2,\"1\"]" := by
    decide +kernel
  refine ⟨hlaunch, hids, hreply, ?_⟩
  rcases replies_fit_buffer hlaunch utilitiesSetup (by decide) hids echoSurroundings _ hreply with
    hfits | ⟨fault, -, hreply⟩
  · exact hfits
  · exact absurd hreply.symm (Token.render_error_ne_deferred _ 1)

end Switchboard.Exchange
