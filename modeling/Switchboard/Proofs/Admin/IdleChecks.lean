import Switchboard.Proofs.Admin.IdleTimes

/-!
# Idle checks that find nothing due

A loop looks at the idle time whenever it wakes up, so it depends on chance how often a session is
asked. A check that finds nothing due still drops the incomplete answers that are too old. Here it
is shown that nobody notices:

* **`sweep_sweep`**, **`insert_sweep`**: what is dropped by a sweep would be dropped by the next
  sweep or the next part, before anything is done with it.
* **`Alike`**: two sessions that become equal when they are swept. One event answers the same in
  both, and they stay alike (`Alike.step`).
* **`checks_unnoticed`**: a run with additional checks against the run without them.
-/

namespace Switchboard.Admin

namespace Reassembly

variable {now later : Nat}

theorem sweep_sweep (h : now ≤ later) (r : Reassembly) :
    (r.sweep now).sweep later = r.sweep later := by
  have hheld : ((r.sweep now).sweep later).held = (r.sweep later).held :=
    Std.ExtTreeMap.ext_getElem? fun q => getElem?_sweep_sweep h q
  show Reassembly.mk r.ttl ((r.sweep now).sweep later).held = _
  rw [hheld]
  rfl

/-- A part sweeps before it is added, so it finds nothing that a sweep has left out. -/
theorem insert_sweep (sequence total index : UInt8) (data : List UInt8) (now : Nat)
    (r : Reassembly) :
    (r.sweep now).insert sequence total index data now =
      r.insert sequence total index data now := by
  unfold insert
  rw [sweep_sweep (Nat.le_refl now)]

end Reassembly

/-! ## Additional checks -/

/-- A moment of a run: something that happens to the session, or a check made in addition. -/
inductive Moment where
  | own (event : SessionEvent)
  | check (now : Nat)
  deriving DecidableEq, Repr

namespace Moment

def event : Moment → SessionEvent
  | own event => event
  | check now => .poll now

def own? : Moment → Option SessionEvent
  | own event => some event
  | check _ => none

end Moment

namespace Session

variable {s s' : Session} {since now later : Nat} {event : SessionEvent} {moments : List Moment}

/-- What happens to a session in a run with additional checks, without these checks. -/
def ownHistory (s : Session) : List Moment → List SessionRecord
  | [] => []
  | .own event :: moments => ⟨event, (s.step event).1⟩ :: ownHistory (s.step event).2 moments
  | .check now :: moments => ownHistory (s.poll now).2 moments

/-- Whether nothing is due at the additional checks of a run. -/
def ChecksIdle (s : Session) : List Moment → Prop
  | [] => True
  | .own event :: moments => ChecksIdle (s.step event).2 moments
  | .check now :: moments => (s.poll now).1 = .nothing ∧ ChecksIdle (s.poll now).2 moments

instance decidableChecksIdle (s : Session) :
    (moments : List Moment) → Decidable (s.ChecksIdle moments)
  | [] => inferInstanceAs (Decidable True)
  | .own event :: moments => decidableChecksIdle (s.step event).2 moments
  | .check now :: moments =>
    have := decidableChecksIdle (s.poll now).2 moments
    inferInstanceAs (Decidable (_ ∧ _))

theorem ChecksIdle.append_left {moments' : List Moment} (h : s.ChecksIdle (moments ++ moments')) :
    s.ChecksIdle moments := by
  induction moments generalizing s with
  | nil => exact trivial
  | cons moment moments ih =>
    cases moment with
    | own event => exact ih h
    | check now => exact ⟨h.1, ih h.2⟩

/-! ## Sweeping sessions -/

/-- Drops the incomplete answers that are too old. -/
def sweep (now : Nat) (s : Session) : Session :=
  { s with reassembly := s.reassembly.sweep now }

theorem sweep_sweep (h : now ≤ later) (s : Session) :
    (s.sweep now).sweep later = s.sweep later := by
  unfold sweep
  rw [Reassembly.sweep_sweep h]

/-- A check that finds nothing due sweeps, and does nothing else. -/
theorem poll_of_nothing (h : (s.poll now).1 = .nothing) : (s.poll now).2 = s.sweep now := by
  have hpolled := polled_poll s now
  rw [h] at hpolled
  generalize (s.poll now).2 = s' at hpolled ⊢
  cases hpolled with
  | nothing hexpired => rfl

theorem poll_sweep (now : Nat) (s : Session) : (s.sweep now).poll now = s.poll now := by
  simp only [poll, sweep, Reassembly.sweep_sweep (Nat.le_refl now)]

/-- A part makes up for a sweep right before it; any other packet can as well come before the
sweep. -/
theorem onPacket_sweep (packet : ServerPacket) (now : Nat) (s : Session) :
    (s.sweep now).onPacket packet now = s.onPacket packet now ∨
      (s.sweep now).onPacket packet now =
        ((s.onPacket packet now).1, (s.onPacket packet now).2.sweep now) := by
  obtain ⟨state, timings, lastActivity, keepaliveSent, reassembly⟩ := s
  cases packet with
  | loginResponse success =>
    right
    cases state with
    | awaitingLogin => cases success <;> rfl
    | disconnected | loggedIn => rfl
  | commandResponse sequence part data =>
    cases state with
    | loggedIn =>
      cases part with
      | none => exact .inr rfl
      | some part =>
        left
        simp only [onPacket, sweep, ne_eq, not_true_eq_false, ↓reduceIte, Reassembly.insert_sweep]
        rfl
    | disconnected | awaitingLogin => exact .inr rfl
  | serverMessage sequence message =>
    right
    cases state <;> rfl

/-- **A sweep right before an event** is made up for by the event, or can as well come after it. -/
theorem step_sweep (event : SessionEvent) (s : Session) :
    (s.sweep event.time).step event = s.step event ∨
      (s.sweep event.time).step event =
        ((s.step event).1, (s.step event).2.sweep event.time) := by
  cases event with
  | connect now => exact .inr rfl
  | socketError now => exact .inr rfl
  | packet packet now =>
    rcases onPacket_sweep packet now s with heq | heq
    · left
      simp only [step, SessionEvent.time, heq]
    · right
      simp only [step, SessionEvent.time, heq]
  | datagram bytes now =>
    cases hdecode : ServerPacket.decode bytes with
    | error defect =>
      right
      simp only [step, hdecode]
    | ok packet =>
      rcases onPacket_sweep packet now s with heq | heq
      · left
        simp only [step, hdecode, SessionEvent.time, heq]
      · right
        simp only [step, hdecode, SessionEvent.time, heq]
  | poll now =>
    left
    show (SessionAnswer.due ((s.sweep now).poll now).1, ((s.sweep now).poll now).2) = _
    rw [poll_sweep]
    rfl

/-! ## Sessions that are alike -/

/-- From a time on, two sessions differ at most in incomplete answers that are too old. -/
def Alike (since : Nat) (s s' : Session) : Prop :=
  ∀ now, since ≤ now → s.sweep now = s'.sweep now

theorem Alike.refl (since : Nat) (s : Session) : Alike since s s :=
  fun _ _ => rfl

theorem Alike.state_eq (h : Alike since s s') : s.state = s'.state := by
  show (s.sweep since).state = (s'.sweep since).state
  rw [h since (Nat.le_refl since)]

/-- An additional check on one side. -/
theorem Alike.sweep_left (h : Alike since s s') (hnow : since ≤ now) :
    Alike now (s.sweep now) s' := by
  intro later hlater
  rw [sweep_sweep hlater]
  exact h later (Nat.le_trans hnow hlater)

/-- An event has the answer that it would have after a sweep, and a sweep after the event makes the
difference up. -/
theorem step_alike_sweep (event : SessionEvent) (s : Session) :
    ((s.sweep event.time).step event).1 = (s.step event).1 ∧
      Alike event.time ((s.sweep event.time).step event).2 (s.step event).2 := by
  rcases step_sweep event s with heq | heq
  · rw [heq]
    exact ⟨rfl, .refl _ _⟩
  · rw [heq]
    exact ⟨rfl, (Alike.refl _ _).sweep_left (Nat.le_refl _)⟩

/-- **One event on both sides**: it has the same answer, and leaves the sessions alike. -/
theorem Alike.step (h : Alike since s s') (htime : since ≤ event.time) :
    (s.step event).1 = (s'.step event).1 ∧
      Alike event.time (s.step event).2 (s'.step event).2 := by
  obtain ⟨hanswer, halike⟩ := step_alike_sweep event s
  obtain ⟨hanswer', halike'⟩ := step_alike_sweep event s'
  have hswept : s.sweep event.time = s'.sweep event.time := h event.time htime
  rw [hswept] at hanswer halike
  exact ⟨hanswer.symm.trans hanswer',
    fun later hlater => (halike later hlater).symm.trans (halike' later hlater)⟩

/-! ## Runs -/

/-- **A run with additional checks**, beside the run without them. -/
theorem Alike.run (h : Alike since s s')
    (htimes : moments.Pairwise fun m m' => m.event.time ≤ m'.event.time)
    (hsince : ∀ m ∈ moments, since ≤ m.event.time) (hidle : s.ChecksIdle moments) :
    s.ownHistory moments = s'.history (moments.filterMap Moment.own?) ∧
      (s.run (moments.map Moment.event)).state =
        (s'.run (moments.filterMap Moment.own?)).state := by
  induction moments generalizing s s' since with
  | nil => exact ⟨rfl, h.state_eq⟩
  | cons moment moments ih =>
    obtain ⟨hlater, hrest⟩ := List.pairwise_cons.1 htimes
    have hnow : since ≤ moment.event.time := hsince moment List.mem_cons_self
    cases moment with
    | own event =>
      have htime : since ≤ event.time := hnow
      obtain ⟨hanswer, hnext⟩ := h.step htime
      obtain ⟨hhistory, hstate⟩ := ih hnext hrest hlater hidle
      refine ⟨?_, hstate⟩
      show _ :: _ = SessionRecord.mk event (s'.step event).1 :: _
      rw [hanswer, hhistory]
    | check now =>
      obtain ⟨hnothing, hidle⟩ := hidle
      -- the session without the check stays where it is
      have hnext : Alike now (s.poll now).2 s' := by
        rw [poll_of_nothing hnothing]
        exact h.sweep_left hnow
      exact ih hnext hrest hlater hidle

/-! ## The theorem -/

/-- **Nobody notices a check that finds nothing due.** Let something happen to a session, and let
checks be made in addition, at any times in between, that all find nothing due. Then everything that
happens has the answer that it has without these checks; and after each moment the login stands
where it stands without them. -/
theorem checks_unnoticed (s : Session) (moments : List Moment)
    (htimes : moments.Pairwise fun m m' => m.event.time ≤ m'.event.time)
    (hidle : s.ChecksIdle moments) :
    s.ownHistory moments = s.history (moments.filterMap Moment.own?) ∧
    ∀ front back, moments = front ++ back →
      (s.run (front.map Moment.event)).state = (s.run (front.filterMap Moment.own?)).state := by
  have halike : Alike 0 s s := .refl 0 s
  refine ⟨(halike.run htimes (fun _ _ => Nat.zero_le _) hidle).1, ?_⟩
  rintro front back rfl
  obtain ⟨htimes, -, -⟩ := List.pairwise_append.1 htimes
  exact (halike.run htimes (fun _ _ => Nat.zero_le _) hidle.append_left).2

/-- A part of an answer that never becomes whole, and another answer in two parts under the same
number. When the second one begins, the first is too old, and a check has dropped it already. -/
def checkedRun : List Moment :=
  [.own (.connect 0), .own (.packet (.loginResponse true) 1),
    .own (.packet (.commandResponse 5 (some ⟨2, 0⟩) [97]) 2), .check 9, .check 12,
    .own (.packet (.commandResponse 5 (some ⟨2, 1⟩) [99]) 13), .check 13,
    .own (.packet (.commandResponse 5 (some ⟨2, 0⟩) [98]) 14)]

theorem checks_unnoticed_of_expired :
    ((start ⟨30000, 45000, 5000, 10⟩ 0).run ((checkedRun.take 4).map Moment.event)).pending = 1 ∧
    ((start ⟨30000, 45000, 5000, 10⟩ 0).run ((checkedRun.take 5).map Moment.event)).pending = 0 ∧
    (start ⟨30000, 45000, 5000, 10⟩ 0).ownHistory checkedRun =
      (start ⟨30000, 45000, 5000, 10⟩ 0).history (checkedRun.filterMap Moment.own?) := by
  refine ⟨by decide +kernel, by decide +kernel, ?_⟩
  apply (checks_unnoticed _ checkedRun _ _).1
  · decide
  · decide +kernel

end Session

end Switchboard.Admin
