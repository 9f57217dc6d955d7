import Switchboard.Admin.Link

/-!
# What a step of a link does

A step of a link mixes its queue, its session and its socket. This module takes them apart once, so
that no invariant has to open the steps again:

* **`Heard`**, **`Polled`**: what a session makes of a packet and of an idle check.
* **`Connects`**, **`Transmits`**: how an attempt at a login, and at sending anything, can end.
* **`Incident`**: what bears on the login, read off the effects of a step and off what caused it.
* **`Turn`**: the eight things a step can be, each with its result.
-/

namespace Switchboard.Admin

/-! ## Packets and idle checks -/

/-- Whether a packet is one that a session in this state waits for. -/
def ServerPacket.Fits (packet : ServerPacket) (state : LoginState) : Prop :=
  match packet with
  | .loginResponse _ => state = .awaitingLogin
  | .commandResponse .. | .serverMessage .. => state = .loggedIn

namespace Session

/-- What a session makes of a packet. -/
inductive Heard (s : Session) (now : Nat) : ServerPacket → Inbound → Session → Prop where
  | ignored {packet : ServerPacket} (hfits : ¬ packet.Fits s.state) : Heard s now packet .ignored s
  | accepted (hstate : s.state = .awaitingLogin) :
      Heard s now (.loginResponse true) .loggedIn { s.touch now with state := .loggedIn }
  | rejected (hstate : s.state = .awaitingLogin) :
      Heard s now (.loginResponse false) .loginRejected { s.touch now with state := .disconnected }
  | response {sequence : UInt8} {part : Option PartHeader} {data : List UInt8} {text : String}
      {r : Reassembly} (hstate : s.state = .loggedIn) :
      Heard s now (.commandResponse sequence part data) (.response sequence text)
        { s.touch now with reassembly := r }
  | stored {sequence : UInt8} {part : Option PartHeader} {data : List UInt8} {r : Reassembly}
      (hstate : s.state = .loggedIn) :
      Heard s now (.commandResponse sequence part data) (.stored sequence)
        { s.touch now with reassembly := r }
  | event {sequence : UInt8} {message : List UInt8} (hstate : s.state = .loggedIn) :
      Heard s now (.serverMessage sequence message)
        (.event sequence (Text.Utf8.decodeLossy message)) (s.touch now)

theorem heard_onPacket (s : Session) (packet : ServerPacket) (now : Nat) :
    Heard s now packet (s.onPacket packet now).1 (s.onPacket packet now).2 := by
  cases packet with
  | loginResponse success =>
    by_cases hstate : s.state = .awaitingLogin
    · cases success with
      | true =>
        simp only [onPacket, hstate, ne_eq, not_true_eq_false, ↓reduceIte]
        exact .accepted hstate
      | false =>
        simp only [onPacket, hstate, ne_eq, not_true_eq_false, ↓reduceIte]
        exact .rejected hstate
    · simp only [onPacket, ne_eq, hstate, not_false_eq_true, ↓reduceIte]
      exact .ignored hstate
  | commandResponse sequence part data =>
    by_cases hstate : s.state = .loggedIn
    · cases part with
      | none =>
        simp only [onPacket, hstate, ne_eq, not_true_eq_false, ↓reduceIte]
        exact .response hstate
      | some part =>
        simp only [onPacket, hstate, ne_eq, not_true_eq_false, ↓reduceIte]
        cases s.reassembly.insert sequence part.total part.index data now with
        | mk whole r =>
          cases whole with
          | none => exact .stored hstate
          | some whole => exact .response hstate
    · simp only [onPacket, ne_eq, hstate, not_false_eq_true, ↓reduceIte]
      exact .ignored hstate
  | serverMessage sequence message =>
    by_cases hstate : s.state = .loggedIn
    · simp only [onPacket, hstate, ne_eq, not_true_eq_false, ↓reduceIte]
      exact .event hstate
    · simp only [onPacket, ne_eq, hstate, not_false_eq_true, ↓reduceIte]
      exact .ignored hstate

/-- Whether a session that is being logged in, or is logged in, has been idle for too long. -/
def Expired (s : Session) (now : Nat) : Prop :=
  s.state ≠ .disconnected ∧ s.timings.timeout ≤ now - s.lastActivity

instance (s : Session) (now : Nat) : Decidable (s.Expired now) :=
  inferInstanceAs (Decidable (_ ∧ _))

/-- What an idle check finds due. -/
inductive Polled (s : Session) (now : Nat) : IdleAction → Session → Prop where
  | nothing (hexpired : ¬ s.Expired now) :
      Polled s now .nothing { s with reassembly := s.reassembly.sweep now }
  | keepalive (hstate : s.state = .loggedIn) (hexpired : ¬ s.Expired now) :
      Polled s now .sendKeepAlive
        { s with reassembly := s.reassembly.sweep now, keepaliveSent := true }
  | retry (hstate : s.state = .disconnected) :
      Polled s now .reconnect { s with reassembly := s.reassembly.sweep now }
  | timedOut (hexpired : s.Expired now) :
      Polled s now .reconnect
        { s with reassembly := s.reassembly.sweep now, state := .disconnected }

theorem polled_poll (s : Session) (now : Nat) : Polled s now (s.poll now).1 (s.poll now).2 := by
  obtain ⟨state, timings, lastActivity, keepaliveSent, reassembly⟩ := s
  cases state with
  | disconnected =>
    simp only [poll]
    split
    · exact .retry rfl
    · exact .nothing fun h => h.1 rfl
  | awaitingLogin =>
    simp only [poll]
    split
    · next hidle => exact .timedOut ⟨nofun, hidle⟩
    · next hidle =>
      -- a keepalive is due in a session that is logged in, and in no other
      rw [if_neg (fun h => nomatch h.1)]
      exact .nothing fun h => hidle h.2
  | loggedIn =>
    simp only [poll]
    split
    · next hidle => exact .timedOut ⟨nofun, hidle⟩
    · next hidle =>
      split
      · exact .keepalive rfl fun h => hidle h.2
      · exact .nothing fun h => hidle h.2

end Session

/-! ## Sending and connecting -/

namespace Link

variable {l l' : Link} {now : Nat}

/-- How an attempt at sending a packet ends. -/
inductive Transmits (l : Link) (now : Nat) (packet : ClientPacket) :
    Bool → List Effect → Link → Prop where
  | taken (hopen : l.socketOpen = true) : Transmits l now packet true [.sent packet true] l
  | refused (hopen : l.socketOpen = true) :
      Transmits l now packet false [.sent packet false] (l.dropSocket now)
  | untried (hclosed : l.socketOpen = false) : Transmits l now packet false [] l

theorem transmits_transmit (packet : ClientPacket) (success : Bool) (now : Nat) (l : Link) :
    Transmits l now packet (l.transmit packet success now).1 (l.transmit packet success now).2.1
      (l.transmit packet success now).2.2 := by
  unfold transmit
  cases hopen : l.socketOpen with
  | false => exact .untried hopen
  | true =>
    cases success with
    | false => exact .refused hopen
    | true => exact .taken hopen

/-- What it takes to have a socket, for a link that connects. -/
inductive Opens (l : Link) : List Effect → Prop where
  | already (hopen : l.socketOpen = true) : Opens l []
  | fresh (hclosed : l.socketOpen = false) : Opens l [.opened true]

/-- How an attempt at a login ends. -/
inductive Connects (l : Link) (now : Nat) : List Effect → Link → Prop where
  | unopened (hclosed : l.socketOpen = false) :
      Connects l now [.opened false] { l with session := l.session.onSocketError now }.publish
  | taken {opening : List Effect} (hopening : Opens l opening) :
      Connects l now (opening ++ [.sent (.login l.endpoint.password) true])
        { l with socketOpen := true, session := l.session.connect now }.publish
  | refused {opening : List Effect} (hopening : Opens l opening) :
      Connects l now (opening ++ [.sent (.login l.endpoint.password) false])
        ({ l with socketOpen := true, session := l.session.connect now }.dropSocket now).publish

theorem connects_connect (answers : Answers) (now : Nat) (l : Link) :
    Connects l now (l.connect answers now).1 (l.connect answers now).2 := by
  obtain ⟨opens, sends⟩ := answers
  cases hopen : l.socketOpen with
  | true =>
    have hopening : Opens l [] := .already hopen
    cases sends with
    | true =>
      simp only [connect, transmit, hopen, Bool.not_true, Bool.false_and, Bool.false_eq_true,
        ↓reduceIte]
      exact .taken hopening
    | false =>
      simp only [connect, transmit, hopen, Bool.not_true, Bool.false_and, Bool.false_eq_true,
        ↓reduceIte]
      exact .refused hopening
  | false =>
    have hopening : Opens l [.opened true] := .fresh hopen
    cases opens with
    | false =>
      have hresult : l.connect ⟨false, sends⟩ now =
          ([.opened false], { l with session := l.session.onSocketError now }.publish) := by
        simp only [connect, hopen, Bool.not_false, Bool.and_self, ↓reduceIte]
      rw [hresult]
      exact .unopened hopen
    | true =>
      cases sends with
      | true =>
        simp only [connect, transmit, hopen, Bool.not_true, Bool.and_false, Bool.false_eq_true,
          ↓reduceIte]
        exact .taken hopening
      | false =>
        simp only [connect, transmit, hopen, Bool.not_true, Bool.and_false, Bool.false_eq_true,
          ↓reduceIte]
        exact .refused hopening

section Reading

/-! What reads neither openings nor logins finds nothing in an attempt at a login, and what does not
read a packet finds nothing in an attempt at sending it. -/

variable {α : Type} {f : Effect → Option α} {effects : List Effect}

theorem Transmits.filterMap_eq_nil {packet : ClientPacket} {taken : Bool}
    (h : Transmits l now packet taken effects l')
    (hsent : ∀ success, f (.sent packet success) = none) : effects.filterMap f = [] := by
  cases h with
  | taken hopen => exact List.filterMap_cons_none (hsent true)
  | refused hopen => exact List.filterMap_cons_none (hsent false)
  | untried hclosed => rfl

theorem Opens.filterMap_eq_nil (h : Opens l effects)
    (hopened : ∀ success, f (.opened success) = none) : effects.filterMap f = [] := by
  cases h with
  | already hopen => rfl
  | fresh hclosed => exact List.filterMap_cons_none (hopened true)

theorem Connects.filterMap_eq_nil (h : Connects l now effects l')
    (hopened : ∀ success, f (.opened success) = none)
    (hlogin : ∀ password success, f (.sent (.login password) success) = none) :
    effects.filterMap f = [] := by
  cases h with
  | unopened hclosed => exact List.filterMap_cons_none (hopened false)
  | taken hopening =>
    rw [List.filterMap_append, hopening.filterMap_eq_nil hopened]
    exact List.filterMap_cons_none (hlogin _ true)
  | refused hopening =>
    rw [List.filterMap_append, hopening.filterMap_eq_nil hopened]
    exact List.filterMap_cons_none (hlogin _ false)

end Reading

end Link

/-! ## Incidents -/

/-- Something that bears on the login of a link. -/
inductive Incident where
  | opened (success : Bool)
  /-- A packet was handed to the socket, which took it or refused it. -/
  | handed (packet : ClientPacket) (success : Bool)
  /-- A datagram was processed that answers the pending login. -/
  | answered (datagram : List UInt8) (success : Bool)
  | timedOut
  | receptionFailed
  deriving DecidableEq, Repr

def Effect.incident? : Effect → Option Incident
  | .opened success => some (.opened success)
  | .sent packet success => some (.handed packet success)
  | .published _ => none

def ClientPacket.isLogin : ClientPacket → Bool
  | login _ => true
  | command .. | acknowledge _ => false

/-- A packet is an incident when it answers a pending login. -/
def ServerPacket.incident? (bytes : List UInt8) (s : Session) : ServerPacket → Option Incident
  | loginResponse success =>
    if s.state = .awaitingLogin then some (.answered bytes success) else none
  | commandResponse .. | serverMessage .. => none

namespace Link

variable {l l' : Link} {now : Nat} {event : LinkEvent}

/-- What an event brings about before the link does anything. -/
def cause? (event : LinkEvent) (l : Link) : Option Incident :=
  match event, l.phase with
  | .receive (.datagram bytes) _ _, .waiting =>
    match l.socketOpen, ServerPacket.decode bytes with
    | true, .ok packet => packet.incident? bytes l.session
    | _, _ => none
  | .receive .failure _ _, .waiting => if l.socketOpen then some .receptionFailed else none
  | .poll _ now, .polling => if l.session.Expired now then some .timedOut else none
  | _, _ => none

/-- The incidents of a step, in the order in which they happen. -/
def incidentsOf (event : LinkEvent) (l : Link) : List Incident :=
  (l.cause? event).toList ++ (l.step event).1.filterMap Effect.incident?

/-- The incidents of a run. -/
def incidents : List LinkEvent → Link → List Incident
  | [], _ => []
  | event :: events, l => l.incidentsOf event ++ (l.step event).2.incidents events

theorem run_fst_cons (events : List LinkEvent) :
    (l.run (event :: events)).1 = (l.step event).1 ++ ((l.step event).2.run events).1 := rfl

theorem run_fst_append (events later : List LinkEvent) (l : Link) :
    (l.run (events ++ later)).1 = (l.run events).1 ++ ((l.run events).2.run later).1 := by
  induction events generalizing l with
  | nil => rfl
  | cons event events ih =>
    rw [List.cons_append, run_fst_cons, run_fst_cons, ih, List.append_assoc]
    rfl

theorem run_snd_append (events later : List LinkEvent) (l : Link) :
    (l.run (events ++ later)).2 = ((l.run events).2.run later).2 := by
  induction events generalizing l with
  | nil => rfl
  | cons event events ih => exact ih (l.step event).2

/-! ## Steps -/

/-- What a step can be. -/
inductive Turn (l : Link) : LinkEvent → List Effect → Link → Prop where
  | enqueued (text : String) : Turn l (.enqueue text) [] (l.enqueue text)
  | stopped : Turn l .stop [] l.stop
  | proceeded : Turn l .proceed [] l.proceed
  | connected {answers : Answers} {now : Nat} (hphase : l.phase = .connecting) :
      Turn l (.connect answers now) (l.connect answers now).1
        { (l.connect answers now).2 with phase := .looping }
  | received {arrival : Arrival} {acknowledges : Bool} {now : Nat} (hphase : l.phase = .waiting) :
      Turn l (.receive arrival acknowledges now) (l.receive arrival acknowledges now).1
        { (l.receive arrival acknowledges now).2 with phase := .received }
  | polled {answers : Answers} {now : Nat} (hphase : l.phase = .polling) :
      Turn l (.poll answers now) (l.poll answers now).1
        { (l.poll answers now).2 with phase := .draining }
  | sent {success : Bool} {now : Nat} {text : String} {rest : List String}
      (hphase : l.phase = .flushing (text :: rest)) :
      Turn l (.send success now) (l.send success now).1 (l.send success now).2
  /-- The event does not fit the phase. -/
  | idle {event : LinkEvent} (hevent : ∀ text, event ≠ .enqueue text)
      (hcause : l.cause? event = none) : Turn l event [] l

theorem turn_step (l : Link) (event : LinkEvent) :
    Turn l event (l.step event).1 (l.step event).2 := by
  cases event with
  | enqueue text => exact .enqueued text
  | stop => exact .stopped
  | proceed => exact .proceeded
  | connect answers now =>
    by_cases hphase : l.phase = .connecting
    · have hstep : l.step (.connect answers now) =
          ((l.connect answers now).1, { (l.connect answers now).2 with phase := .looping }) := by
        simp only [step, hphase]
      rw [hstep]
      exact .connected hphase
    · have hstep : l.step (.connect answers now) = ([], l) := by
        cases hp : l.phase <;> simp_all [step]
      rw [hstep]
      exact .idle nofun rfl
  | receive arrival acknowledges now =>
    by_cases hphase : l.phase = .waiting
    · have hstep : l.step (.receive arrival acknowledges now) =
          ((l.receive arrival acknowledges now).1,
            { (l.receive arrival acknowledges now).2 with phase := .received }) := by
        simp only [step, hphase]
      rw [hstep]
      exact .received hphase
    · have hstep : l.step (.receive arrival acknowledges now) = ([], l) := by
        cases hp : l.phase <;> simp_all [step]
      have hcause : l.cause? (.receive arrival acknowledges now) = none := by
        cases hp : l.phase <;> simp_all [cause?]
      rw [hstep]
      exact .idle nofun hcause
  | poll answers now =>
    by_cases hphase : l.phase = .polling
    · have hstep : l.step (.poll answers now) =
          ((l.poll answers now).1, { (l.poll answers now).2 with phase := .draining }) := by
        simp only [step, hphase]
      rw [hstep]
      exact .polled hphase
    · have hstep : l.step (.poll answers now) = ([], l) := by
        cases hp : l.phase <;> simp_all [step]
      have hcause : l.cause? (.poll answers now) = none := by
        cases hp : l.phase <;> simp_all [cause?]
      rw [hstep]
      exact .idle nofun hcause
  | send success now =>
    by_cases hphase : ∃ text rest, l.phase = .flushing (text :: rest)
    · obtain ⟨text, rest, hphase⟩ := hphase
      have hstep : l.step (.send success now) = l.send success now := by
        simp only [step, hphase]
      rw [hstep]
      exact .sent hphase
    · have hstep : l.step (.send success now) = ([], l) := by
        cases hp : l.phase with
        | flushing unsent =>
          cases unsent with
          | nil => simp only [step, send, hp]
          | cons text rest => exact absurd ⟨text, rest, hp⟩ hphase
        | _ => simp only [step, hp]
      rw [hstep]
      exact .idle nofun rfl

end Link

end Switchboard.Admin
