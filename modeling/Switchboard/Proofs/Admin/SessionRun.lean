import Switchboard.Admin.Session
import Switchboard.Proofs.Admin.Framing
import Switchboard.Proofs.Admin.Reassembly

/-!
# Runs of a session

Everything that can happen to a session, one event at a time, with what the session answers. As long
as a session stays logged in, what it holds is what its packets and polls put into the reassembly
(`run_reassembly`): the idle times play no part in it.
-/

namespace Switchboard.Admin

/-- What happens to a session. -/
inductive SessionEvent where
  | connect (now : Nat)
  | socketError (now : Nat)
  | packet (packet : ServerPacket) (now : Nat)
  | datagram (bytes : List UInt8) (now : Nat)
  | poll (now : Nat)
  deriving DecidableEq, Repr

/-- When an event happens. -/
def SessionEvent.time : SessionEvent → Nat
  | connect now | socketError now | packet _ now | datagram _ now | poll now => now

/-- The packet that comes with an event. -/
def SessionEvent.packet? : SessionEvent → Option ServerPacket
  | packet p _ => some p
  | datagram bytes _ => (ServerPacket.decode bytes).toOption
  | _ => none

/-- What a session makes of an event. -/
inductive SessionAnswer where
  /-- There is nothing to answer. -/
  | done
  /-- The datagram was no packet and is dropped. -/
  | dropped (defect : Defect)
  | received (inbound : Inbound)
  | due (action : IdleAction)
  deriving DecidableEq, Repr

namespace Session

variable {s : Session}

/-- One event. -/
def step (s : Session) : SessionEvent → SessionAnswer × Session
  | .connect now => (.done, s.connect now)
  | .socketError now => (.done, s.onSocketError now)
  | .packet packet now => (.received (s.onPacket packet now).1, (s.onPacket packet now).2)
  | .datagram bytes now =>
    match ServerPacket.decode bytes with
    | .error defect => (.dropped defect, s)
    | .ok packet => (.received (s.onPacket packet now).1, (s.onPacket packet now).2)
  | .poll now => (.due (s.poll now).1, (s.poll now).2)

/-- The session after a run. -/
def run (s : Session) (events : List SessionEvent) : Session :=
  events.foldl (fun s event => (s.step event).2) s

/-- Whether a session is one that can come about. -/
def Reachable (timings : Timings) (s : Session) : Prop :=
  ∃ now events, s = (start timings now).run events

/-- Whether a session is logged in throughout a run, from before its first event on. -/
def StaysLoggedIn (s : Session) (events : List SessionEvent) : Prop :=
  ∀ front back, events = front ++ back → (s.run front).state = .loggedIn

theorem run_append (events events' : List SessionEvent) (s : Session) :
    s.run (events ++ events') = (s.run events).run events' :=
  List.foldl_append

theorem staysLoggedIn_nil : s.StaysLoggedIn [] ↔ s.state = .loggedIn := by
  constructor
  · intro h
    exact h [] [] rfl
  · intro hstate front back heq
    obtain ⟨rfl, rfl⟩ := List.append_eq_nil_iff.1 heq.symm
    exact hstate

theorem staysLoggedIn_cons {event : SessionEvent} {events : List SessionEvent} :
    s.StaysLoggedIn (event :: events) ↔
      s.state = .loggedIn ∧ (s.step event).2.StaysLoggedIn events := by
  constructor
  · intro h
    refine ⟨h [] (event :: events) rfl, fun front back heq => ?_⟩
    exact h (event :: front) back (congrArg (event :: ·) heq)
  · rintro ⟨hstate, h⟩ front back heq
    cases front with
    | nil => exact hstate
    | cons first front =>
      obtain ⟨rfl, hrest⟩ := List.cons.inj heq
      exact h front back hrest

theorem StaysLoggedIn.append_left {events events' : List SessionEvent}
    (h : s.StaysLoggedIn (events ++ events')) : s.StaysLoggedIn events := by
  intro front back heq
  exact h front (back ++ events') (by rw [heq, List.append_assoc])

/-! ## What is held -/

/-- What an event puts into the reassembly of a session that is logged in. -/
def feed (r : Reassembly) (event : SessionEvent) : Reassembly :=
  match event with
  | .poll now => r.sweep now
  | event =>
    match event.packet? with
    | some (.commandResponse sequence (some part) data) =>
      (r.insert sequence part.total part.index data event.time).2
    | _ => r

/-- An event leaves what is held, or sweeps it, or brings a part. -/
theorem feed_cases (event : SessionEvent) :
    (∀ r, feed r event = r) ∨ (∀ r, feed r event = r.sweep event.time) ∨
      ∃ sequence part data, event.packet? = some (.commandResponse sequence (some part) data) ∧
        ∀ r, feed r event =
          (r.insert sequence part.total part.index data event.time).2 := by
  by_cases hpoll : ∃ now, event = .poll now
  · obtain ⟨now, rfl⟩ := hpoll
    exact Or.inr (Or.inl fun r => rfl)
  · have hfeed (r : Reassembly) : feed r event =
        match event.packet? with
        | some (.commandResponse sequence (some part) data) =>
          (r.insert sequence part.total part.index data event.time).2
        | _ => r := by
      cases event with
      | poll now => exact absurd ⟨now, rfl⟩ hpoll
      | _ => rfl
    by_cases hpart : ∃ sequence part data,
        event.packet? = some (.commandResponse sequence (some part) data)
    · obtain ⟨sequence, part, data, hpacket⟩ := hpart
      exact Or.inr (Or.inr ⟨sequence, part, data, hpacket, fun r => by rw [hfeed, hpacket]⟩)
    · refine Or.inl fun r => ?_
      rw [hfeed]
      split
      · next sequence part data hpacket => exact absurd ⟨sequence, part, data, hpacket⟩ hpart
      · rfl

theorem onPacket_reassembly (hstate : s.state = .loggedIn) (packet : ServerPacket) (now : Nat) :
    (s.onPacket packet now).2.reassembly = feed s.reassembly (.packet packet now) := by
  cases packet with
  | loginResponse success => simp [onPacket, hstate, feed, SessionEvent.packet?]
  | serverMessage sequence message =>
    simp [onPacket, hstate, feed, SessionEvent.packet?, touch]
  | commandResponse sequence part data =>
    cases part with
    | none => simp [onPacket, hstate, feed, SessionEvent.packet?, touch]
    | some part =>
      simp only [onPacket, hstate, feed, SessionEvent.packet?, SessionEvent.time]
      cases s.reassembly.insert sequence part.total part.index data now with
      | mk whole r => cases whole <;> rfl

theorem poll_reassembly (now : Nat) (s : Session) :
    (s.poll now).2.reassembly = s.reassembly.sweep now := by
  unfold poll
  dsimp only
  split <;> split <;> try split
  all_goals rfl

theorem step_reassembly (hstate : s.state = .loggedIn) (event : SessionEvent) :
    (s.step event).2.reassembly = feed s.reassembly event := by
  cases event with
  | connect now => rfl
  | socketError now => rfl
  | packet packet now => exact onPacket_reassembly hstate packet now
  | poll now => exact poll_reassembly now s
  | datagram bytes now =>
    rw [step]
    split
    · next hdecode => simp [feed, SessionEvent.packet?, hdecode, Except.toOption]
    · next packet hdecode =>
      rw [onPacket_reassembly hstate]
      simp [feed, SessionEvent.packet?, hdecode, Except.toOption, SessionEvent.time]

/-- **What a session holds that stays logged in.** -/
theorem run_reassembly {events : List SessionEvent} (h : s.StaysLoggedIn events) :
    (s.run events).reassembly = events.foldl feed s.reassembly := by
  induction events generalizing s with
  | nil => rfl
  | cons event events ih =>
    obtain ⟨hstate, hrest⟩ := staysLoggedIn_cons.1 h
    rw [List.foldl_cons, ← step_reassembly hstate]
    exact ih hrest

theorem feed_ttl (r : Reassembly) (event : SessionEvent) : (feed r event).ttl = r.ttl := by
  rcases feed_cases event with h | h | ⟨sequence, part, data, -, h⟩
  · rw [h]
  · rw [h]
    rfl
  · rw [h]
    exact Reassembly.insert_ttl ..

/-- A packet for a session that is not logged in puts nothing into its reassembly. -/
theorem onPacket_reassembly_of_ne (hstate : s.state ≠ .loggedIn) (packet : ServerPacket)
    (now : Nat) : (s.onPacket packet now).2.reassembly = s.reassembly := by
  cases packet with
  | loginResponse success =>
    unfold onPacket
    dsimp only
    split
    · rfl
    · split <;> rfl
  | serverMessage sequence message => simp [onPacket, hstate]
  | commandResponse sequence part data => simp [onPacket, hstate]

/-- **What an event does to what is held**: it leaves it, or sweeps it, or brings a part to a
session that is logged in. -/
theorem reassembly_step (event : SessionEvent) (s : Session) :
    (s.step event).2.reassembly = s.reassembly ∨
      (s.step event).2.reassembly = s.reassembly.sweep event.time ∨
      ∃ sequence part data, s.state = .loggedIn ∧
        event.packet? = some (.commandResponse sequence (some part) data) ∧
        (s.step event).2.reassembly =
          (s.reassembly.insert sequence part.total part.index data event.time).2 := by
  by_cases hstate : s.state = .loggedIn
  · rw [step_reassembly hstate]
    rcases feed_cases event with hfeed | hfeed | ⟨sequence, part, data, hpacket, hfeed⟩
    · exact Or.inl (hfeed s.reassembly)
    · exact Or.inr (Or.inl (hfeed s.reassembly))
    · exact Or.inr (Or.inr ⟨sequence, part, data, hstate, hpacket, hfeed s.reassembly⟩)
  · cases event with
    | connect now => exact Or.inl rfl
    | socketError now => exact Or.inl rfl
    | packet packet now => exact Or.inl (onPacket_reassembly_of_ne hstate packet now)
    | poll now => exact Or.inr (Or.inl (poll_reassembly now s))
    | datagram bytes now =>
      left
      rw [step]
      split
      · rfl
      · exact onPacket_reassembly_of_ne hstate _ now

theorem step_ttl (event : SessionEvent) (s : Session) :
    (s.step event).2.reassembly.ttl = s.reassembly.ttl := by
  rcases reassembly_step event s with hsame | hswept | ⟨sequence, part, data, -, -, hpart⟩
  · rw [hsame]
  · rw [hswept]
    rfl
  · rw [hpart]
    exact Reassembly.insert_ttl ..

theorem run_ttl (events : List SessionEvent) (s : Session) :
    (s.run events).reassembly.ttl = s.reassembly.ttl := by
  induction events generalizing s with
  | nil => rfl
  | cons event events ih => exact (ih (s.step event).2).trans (step_ttl event s)

/-- Incomplete answers are held for as long as the timings say. -/
theorem Reachable.ttl_eq {timings : Timings} (h : Reachable timings s) :
    s.reassembly.ttl = timings.multipartTtl := by
  obtain ⟨now, events, rfl⟩ := h
  exact run_ttl events (start timings now)

end Session

end Switchboard.Admin
