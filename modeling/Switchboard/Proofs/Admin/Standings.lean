import Switchboard.Proofs.Admin.LinkSteps

/-!
# How a link stands to its console

Of all that a link is made of, only two things decide what it may send: whether it has a socket, and
where its login stands. They go together, so that four of the six combinations are left.

* **`Passes`**: the four standings of a link, from having no socket to being logged in, and the
  incidents that lead from one to another.
* **`Poised`**: a link stands in a way, and is logged in while it sends commands.
* **`path_step`**, **`path_run`**: whatever the network does, a step of a link leads along this
  small automaton by the incidents that it has, and so does a run.
-/

namespace Switchboard.Admin

/-! ## Standings -/

/-- How a link stands to its console. -/
inductive Standing where
  /-- Without a socket. -/
  | closed
  /-- With a socket, but neither logged in nor waiting to be. -/
  | idle
  | pending
  | loggedIn
  deriving DecidableEq, Repr

namespace Standing

def state : Standing → LoginState
  | closed | idle => .disconnected
  | pending => .awaitingLogin
  | loggedIn => .loggedIn

def hasSocket : Standing → Bool
  | closed => false
  | idle | pending | loggedIn => true

end Standing

/-- What can happen to a link that stands in one way, and how it stands then. -/
inductive Passes : Standing → Incident → Standing → Prop where
  | opens : Passes .closed (.opened true) .idle
  | staysClosed : Passes .closed (.opened false) .closed
  | login {s : Standing} (password : String) (hsocket : s.hasSocket = true) :
      Passes s (.handed (.login password) true) .pending
  | loginRefused {s : Standing} (password : String) (hsocket : s.hasSocket = true) :
      Passes s (.handed (.login password) false) .closed
  | uses {packet : ClientPacket} (hpacket : packet.isLogin = false) :
      Passes .loggedIn (.handed packet true) .loggedIn
  | useRefused {packet : ClientPacket} (hpacket : packet.isLogin = false) :
      Passes .loggedIn (.handed packet false) .closed
  | accepted {datagram : List UInt8}
      (hdecode : ServerPacket.decode datagram = .ok (.loginResponse true)) :
      Passes .pending (.answered datagram true) .loggedIn
  | rejected {datagram : List UInt8}
      (hdecode : ServerPacket.decode datagram = .ok (.loginResponse false)) :
      Passes .pending (.answered datagram false) .idle
  | timesOut {s : Standing} (hstate : s.state ≠ .disconnected) : Passes s .timedOut .idle
  | fails {s : Standing} (hsocket : s.hasSocket = true) : Passes s .receptionFailed .closed

/-- A course of incidents. -/
inductive Path : Standing → List Incident → Standing → Prop where
  | nil (s : Standing) : Path s [] s
  | cons {s m t : Standing} {i : Incident} {is : List Incident} (hhere : Passes s i m)
      (hrest : Path m is t) : Path s (i :: is) t

namespace Path

variable {s m t : Standing} {i : Incident} {is js : List Incident}

theorem single (h : Passes s i t) : Path s [i] t :=
  .cons h (.nil t)

theorem append (h : Path s is m) (h' : Path m js t) : Path s (is ++ js) t := by
  induction h with
  | nil s => exact h'
  | cons hhere _ ih => exact .cons hhere (ih h')

/-- A course can be cut before any of its incidents. -/
theorem cut (h : Path s (is ++ i :: js) t) :
    ∃ m m', Path s is m ∧ Passes m i m' ∧ Path m' js t := by
  induction is generalizing s with
  | nil =>
    cases h with
    | cons hhere hrest => exact ⟨s, _, .nil s, hhere, hrest⟩
  | cons first is ih =>
    cases h with
    | cons hhere hrest =>
      obtain ⟨m, m', hbefore, hmiddle, hafter⟩ := ih hrest
      exact ⟨m, m', .cons hhere hbefore, hmiddle, hafter⟩

end Path

namespace Link

variable {l l' : Link} {now : Nat} {s : Standing} {effects : List Effect}

/-- A link stands as its session and its socket say. -/
structure Stands (l : Link) (s : Standing) : Prop where
  state_eq : l.session.state = s.state
  socket_eq : l.socketOpen = s.hasSocket

theorem stands_dropSocket (now : Nat) (l : Link) : (l.dropSocket now).Stands .closed :=
  ⟨rfl, rfl⟩

theorem Stands.eq_loggedIn (h : l.Stands s) (hstate : l.session.state = .loggedIn) :
    s = .loggedIn := by
  have hs := h.state_eq.symm.trans hstate
  cases s with
  | loggedIn => rfl
  | closed => cases hs
  | idle => cases hs
  | pending => cases hs

theorem Stands.eq_pending (h : l.Stands s) (hstate : l.session.state = .awaitingLogin) :
    s = .pending := by
  have hs := h.state_eq.symm.trans hstate
  cases s with
  | pending => rfl
  | closed => cases hs
  | idle => cases hs
  | loggedIn => cases hs

/-- A link without a socket has no login either. -/
theorem Stands.socketOpen (h : l.Stands s) (hstate : l.session.state ≠ .disconnected) :
    l.socketOpen = true := by
  rw [h.socket_eq]
  cases s with
  | closed => exact absurd h.state_eq hstate
  | idle => rfl
  | pending => rfl
  | loggedIn => rfl

/-- A link that is logged in sends what it sends, or loses its socket. -/
theorem path_transmits {packet : ClientPacket} {taken : Bool} (h : l.Stands .loggedIn)
    (hpacket : packet.isLogin = false) (htransmits : Transmits l now packet taken effects l') :
    effects = [.sent packet taken] ∧
      ∃ s', Path .loggedIn (effects.filterMap Effect.incident?) s' ∧ l'.Stands s' ∧
        (taken = true → s' = .loggedIn) := by
  cases htransmits with
  | taken hopen => exact ⟨rfl, .loggedIn, .single (.uses hpacket), h, fun _ => rfl⟩
  | refused hopen =>
    exact ⟨rfl, .closed, .single (.useRefused hpacket), stands_dropSocket now l, nofun⟩
  | untried hclosed =>
    -- nothing is left untried, for a login needs a socket
    have hopen : l.socketOpen = true := h.socket_eq
    rw [hclosed] at hopen
    cases hopen

theorem path_opens (h : l.Stands s) {opening : List Effect} (hopening : Opens l opening) :
    ∃ m, Path s (opening.filterMap Effect.incident?) m ∧ m.hasSocket = true := by
  cases hopening with
  | already hopen => exact ⟨s, .nil s, h.socket_eq.symm.trans hopen⟩
  | fresh hclosed =>
    have hs : s.hasSocket = false := h.socket_eq.symm.trans hclosed
    cases s with
    | closed => exact ⟨.idle, .single .opens, rfl⟩
    | idle => cases hs
    | pending => cases hs
    | loggedIn => cases hs

theorem path_connects (h : l.Stands s) (hconnects : Connects l now effects l') :
    ∃ s', Path s (effects.filterMap Effect.incident?) s' ∧ l'.Stands s' := by
  cases hconnects with
  | unopened hclosed =>
    have hs : s.hasSocket = false := h.socket_eq.symm.trans hclosed
    cases s with
    | closed => exact ⟨.closed, .single .staysClosed, rfl, hclosed⟩
    | idle => cases hs
    | pending => cases hs
    | loggedIn => cases hs
  | taken hopening =>
    obtain ⟨m, hpath, hsocket⟩ := path_opens h hopening
    rw [List.filterMap_append]
    exact ⟨.pending, hpath.append (.single (.login _ hsocket)), rfl, rfl⟩
  | refused hopening =>
    obtain ⟨m, hpath, hsocket⟩ := path_opens h hopening
    rw [List.filterMap_append]
    exact ⟨.closed, hpath.append (.single (.loginRefused _ hsocket)), rfl, rfl⟩

/-- Handling a packet: only the answer to a pending login moves a link by itself; the message of a
console moves it when it cannot be acknowledged. -/
theorem path_handle (h : l.Stands s) {bytes : List UInt8} {packet : ServerPacket}
    (hdecode : ServerPacket.decode bytes = .ok packet) (acknowledges : Bool) (now : Nat) :
    ∃ s', Path s ((packet.incident? bytes l.session).toList ++
        (l.handle bytes acknowledges now).1.filterMap Effect.incident?) s' ∧
      (l.handle bytes acknowledges now).2.Stands s' := by
  have hheard := Session.heard_onPacket l.session packet now
  unfold handle
  rw [hdecode]
  dsimp only
  generalize l.session.onPacket packet now = result at hheard ⊢
  obtain ⟨inbound, session⟩ := result
  dsimp only at hheard ⊢
  cases hheard with
  | ignored hfits =>
    have hnone : packet.incident? bytes l.session = none := by
      cases packet with
      | loginResponse success => exact if_neg hfits
      | commandResponse => rfl
      | serverMessage => rfl
    rw [hnone]
    exact ⟨s, .nil s, h.state_eq, h.socket_eq⟩
  | accepted hstate =>
    obtain rfl := h.eq_pending hstate
    simp only [ServerPacket.incident?, if_pos hstate]
    exact ⟨.loggedIn, .single (.accepted hdecode), rfl, h.socket_eq⟩
  | rejected hstate =>
    obtain rfl := h.eq_pending hstate
    simp only [ServerPacket.incident?, if_pos hstate]
    exact ⟨.idle, .single (.rejected hdecode), rfl, h.socket_eq⟩
  | response hstate => exact ⟨s, .nil s, h.state_eq, h.socket_eq⟩
  | stored hstate => exact ⟨s, .nil s, h.state_eq, h.socket_eq⟩
  | @event sequence message hstate =>
    obtain rfl := h.eq_loggedIn hstate
    have htouched : { l with session := l.session.touch now }.Stands .loggedIn :=
      ⟨hstate, h.socket_eq⟩
    obtain ⟨-, s', hpath, hstands, -⟩ := path_transmits htouched rfl
      (transmits_transmit (.acknowledge sequence) acknowledges now _)
    -- the listeners are told after the acknowledgement, which is no incident
    refine ⟨s', ?_, hstands.state_eq, hstands.socket_eq⟩
    dsimp only [ServerPacket.incident?, Option.toList_none, List.nil_append]
    rw [List.filterMap_append]
    exact hpath.append (.nil s')

theorem path_receive (h : l.Stands s) (hphase : l.phase = .waiting) (arrival : Arrival)
    (acknowledges : Bool) (now : Nat) :
    ∃ s', Path s ((l.cause? (.receive arrival acknowledges now)).toList ++
        (l.receive arrival acknowledges now).1.filterMap Effect.incident?) s' ∧
      (l.receive arrival acknowledges now).2.Stands s' := by
  cases hopen : l.socketOpen with
  | false =>
    have hcause : l.cause? (.receive arrival acknowledges now) = none := by
      cases arrival with
      | silence => simp only [cause?]
      | failure => simp only [cause?, hphase, hopen, Bool.false_eq_true, ↓reduceIte]
      | datagram bytes => simp only [cause?, hphase, hopen]
    have hreceive : l.receive arrival acknowledges now = ([], l) := by
      simp only [receive, hopen, Bool.false_eq_true, ↓reduceIte]
    rw [hcause, hreceive]
    exact ⟨s, .nil s, h⟩
  | true =>
    have hsocket : s.hasSocket = true := h.socket_eq.symm.trans hopen
    unfold receive
    rw [if_pos hopen]
    cases arrival with
    | silence =>
      simp only [cause?]
      exact ⟨s, .nil s, h⟩
    | failure =>
      simp only [cause?, hphase, hopen, ↓reduceIte]
      exact ⟨.closed, .single (.fails hsocket), stands_dropSocket now l⟩
    | datagram bytes =>
      cases hdecode : ServerPacket.decode bytes with
      | error defect =>
        simp only [cause?, hphase, handle, hopen, hdecode]
        exact ⟨s, .nil s, h⟩
      | ok packet =>
        simp only [cause?, hphase, hopen, hdecode]
        exact path_handle h hdecode acknowledges now

theorem path_poll (h : l.Stands s) (hphase : l.phase = .polling) (answers : Answers) (now : Nat) :
    ∃ s', Path s ((l.cause? (.poll answers now)).toList ++
        (l.poll answers now).1.filterMap Effect.incident?) s' ∧
      (l.poll answers now).2.Stands s' := by
  have hpolled := Session.polled_poll l.session now
  have hcause : l.cause? (.poll answers now) =
      if l.session.Expired now then some .timedOut else none := by
    simp only [cause?, hphase]
  rw [hcause]
  unfold poll
  generalize l.session.poll now = result at hpolled ⊢
  obtain ⟨action, session⟩ := result
  dsimp only at hpolled ⊢
  cases hpolled with
  | nothing hexpired =>
    rw [if_neg hexpired]
    exact ⟨s, .nil s, h.state_eq, h.socket_eq⟩
  | keepalive hstate hexpired =>
    obtain rfl := h.eq_loggedIn hstate
    rw [if_neg hexpired]
    dsimp only
    have hstands : ({ l with session := { l.session with
        reassembly := l.session.reassembly.sweep now, keepaliveSent := true } } :
          Link).takeSequence.2.Stands .loggedIn := ⟨hstate, h.socket_eq⟩
    obtain ⟨-, s', hpath, hstands, -⟩ := path_transmits hstands rfl
      (transmits_transmit (.command l.sequence "") answers.sends now _)
    exact ⟨s', hpath, hstands⟩
  | retry hstate =>
    rw [if_neg fun hexpired => hexpired.1 hstate]
    have hstands : ({ l with session := { l.session with
        reassembly := l.session.reassembly.sweep now } } : Link).Stands s :=
      ⟨h.state_eq, h.socket_eq⟩
    exact path_connects hstands (connects_connect answers now _)
  | timedOut hexpired =>
    rw [if_pos hexpired]
    have hstate : s.state ≠ .disconnected := h.state_eq ▸ hexpired.1
    -- the time-out comes first, and the attempt at a new login after it
    have hidle : ({ l with session := { l.session with
        reassembly := l.session.reassembly.sweep now, state := .disconnected } } :
          Link).Stands .idle := ⟨rfl, h.socketOpen hexpired.1⟩
    obtain ⟨s', hpath, hstands⟩ := path_connects hidle (connects_connect answers now _)
    exact ⟨s', .cons (.timesOut hstate) hpath, hstands⟩

/-! ## Steps lead along the standings -/

/-- How a link stands; while it sends commands it is logged in. -/
structure Poised (l : Link) (s : Standing) : Prop extends Stands l s where
  flushing : ∀ unsent, l.phase = .flushing unsent → s = .loggedIn

theorem poised_start (name : String) (endpoint : Endpoint) (now : Nat) :
    (start name endpoint now).Poised .closed where
  state_eq := rfl
  socket_eq := rfl
  flushing := nofun

theorem poised_proceed (h : l.Poised s) : l.proceed.Poised s := by
  have hstands (l' : Link) (hsession : l'.session = l.session)
      (hsocket : l'.socketOpen = l.socketOpen) : l'.Stands s :=
    ⟨hsession ▸ h.state_eq, hsocket ▸ h.socket_eq⟩
  cases hphase : l.phase with
  | connecting =>
    simp only [proceed, hphase]
    exact h
  | looping =>
    simp only [proceed, hphase]
    split <;> exact ⟨hstands _ rfl rfl, nofun⟩
  | waiting =>
    simp only [proceed, hphase]
    exact h
  | received =>
    simp only [proceed, hphase]
    split <;> exact ⟨hstands _ rfl rfl, nofun⟩
  | polling =>
    simp only [proceed, hphase]
    exact h
  | draining =>
    simp only [proceed, hphase]
    split
    · next hcan =>
      -- the one place where a flush begins
      have hlogged : s = .loggedIn := h.eq_loggedIn (of_decide_eq_true hcan)
      exact ⟨hstands _ rfl rfl, fun _ _ => hlogged⟩
    · exact ⟨hstands _ rfl rfl, nofun⟩
  | flushing unsent =>
    cases unsent with
    | nil =>
      simp only [proceed, hphase]
      exact ⟨hstands _ rfl rfl, nofun⟩
    | cons text rest =>
      simp only [proceed, hphase]
      exact h
  | requeueing unsent =>
    simp only [proceed, hphase]
    exact ⟨hstands _ rfl rfl, nofun⟩
  | publishing =>
    simp only [proceed, hphase]
    exact ⟨hstands _ rfl rfl, nofun⟩
  | ended =>
    simp only [proceed, hphase]
    exact h

/-- Sending the next command of a flush. -/
theorem send_flushing {text : String} {rest : List String}
    (hphase : l.phase = .flushing (text :: rest)) (success : Bool) (now : Nat) :
    ∃ taken effects l', Transmits l.takeSequence.2 now (.command l.sequence text) taken effects l' ∧
      l.send success now =
        (effects, { l' with
          phase := if taken then .flushing rest else .requeueing (text :: rest) }) := by
  refine ⟨_, _, _, transmits_transmit (.command l.sequence text) success now l.takeSequence.2, ?_⟩
  simp only [send, hphase, takeSequence]

theorem path_send (h : l.Poised s) {text : String} {rest : List String}
    (hphase : l.phase = .flushing (text :: rest)) (success : Bool) (now : Nat) :
    ∃ s', Path s ((l.send success now).1.filterMap Effect.incident?) s' ∧
      (l.send success now).2.Poised s' := by
  obtain rfl := h.flushing _ hphase
  obtain ⟨taken, effects, l', htransmits, hsend⟩ := send_flushing hphase success now
  obtain ⟨-, s', hpath, hstands, htaken⟩ :=
    path_transmits (l := l.takeSequence.2) ⟨h.state_eq, h.socket_eq⟩ rfl htransmits
  rw [hsend]
  refine ⟨s', hpath, ⟨hstands.state_eq, hstands.socket_eq⟩, fun unsent hflushing => ?_⟩
  cases taken with
  | true => exact htaken rfl
  | false => cases hflushing

/-- **Every step leads along the standings**, by the incidents that it has. -/
theorem path_step (h : l.Poised s) (event : LinkEvent) :
    ∃ s', Path s (l.incidentsOf event) s' ∧ (l.step event).2.Poised s' := by
  have hturn := turn_step l event
  unfold incidentsOf
  generalize l.step event = result at hturn ⊢
  obtain ⟨effects, l'⟩ := result
  dsimp only at hturn ⊢
  cases hturn with
  | enqueued text => exact ⟨s, .nil s, ⟨h.state_eq, h.socket_eq⟩, h.flushing⟩
  | stopped => exact ⟨s, .nil s, ⟨h.state_eq, h.socket_eq⟩, h.flushing⟩
  | proceeded => exact ⟨s, .nil s, poised_proceed h⟩
  | @connected answers now hphase =>
    obtain ⟨s', hpath, hstands⟩ := path_connects h.toStands (connects_connect answers now l)
    exact ⟨s', hpath, ⟨hstands.state_eq, hstands.socket_eq⟩, nofun⟩
  | @received arrival acknowledges now hphase =>
    obtain ⟨s', hpath, hstands⟩ := path_receive h.toStands hphase arrival acknowledges now
    exact ⟨s', hpath, ⟨hstands.state_eq, hstands.socket_eq⟩, nofun⟩
  | @polled answers now hphase =>
    obtain ⟨s', hpath, hstands⟩ := path_poll h.toStands hphase answers now
    exact ⟨s', hpath, ⟨hstands.state_eq, hstands.socket_eq⟩, nofun⟩
  | @sent success now text rest hphase => exact path_send h hphase success now
  | idle hevent hcause =>
    rw [hcause]
    exact ⟨s, .nil s, h⟩

/-- **Every run leads along the standings.** -/
theorem path_run (h : l.Poised s) (events : List LinkEvent) :
    ∃ s', Path s (l.incidents events) s' ∧ (l.run events).2.Poised s' := by
  induction events generalizing l s with
  | nil => exact ⟨s, .nil s, h⟩
  | cons event events ih =>
    obtain ⟨m, hhere, hmiddle⟩ := path_step h event
    obtain ⟨s', hrest, hlast⟩ := ih hmiddle
    exact ⟨s', hhere.append hrest, hlast⟩

end Link

end Switchboard.Admin
