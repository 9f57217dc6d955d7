import Switchboard.Proofs.Admin.Listeners

/-!
# The state that a link shows

A link keeps three things in step: its socket, its session, and the copy of the state that others
see. The socket is given up from within every attempt at sending, and these stand at four places of
the loop, just before or just after the session changes.

* **`Shown`**: others see the state of the session until the loop ends, and a disconnected link from
  then on. Each part of a round publishes that state or keeps it published (`published_connect`,
  `Published.receive`, `Published.poll`, `Published.send`), so that every step shows it
  (`shown_step`).
* **`due`**: the packets that a step is to send, read off the session and not off the socket.
  `sent_step` says that these are handed to the socket, so that none is skipped for want of one.
* **`login_backed_and_shown`**: the two for every run.
-/

namespace Switchboard.Admin

namespace Receipt

/-- The acknowledgement that the message of a datagram asks for, with what the socket says to it. -/
def acknowledgement? (r : Receipt) : Option (ClientPacket × Bool) :=
  (r.message?.bind Message.acknowledgement?).map fun sequence =>
    (.acknowledge sequence, r.acknowledges)

end Receipt

namespace Link

variable {l l' : Link} {s : Standing} {now : Nat} {effects : List Effect}

/-! ## What others see -/

/-- Others see where the login stands. -/
def Published (l : Link) : Prop :=
  l.published = l.session.state

/-- What others see in a phase: the state of the session, and after the end a disconnected link. -/
def Shown (l : Link) : Prop :=
  l.published = if l.phase = .ended then .disconnected else l.session.state

/-- What is shown depends on the session and on the copy, and on nothing else before the end. -/
theorem Published.shown (h : l.Published) (hcopy : l'.published = l.published)
    (hsession : l'.session = l.session) (hphase : l'.phase ≠ .ended) : l'.Shown := by
  unfold Shown
  rw [if_neg hphase, hcopy, hsession]
  exact h

theorem Shown.published (h : l.Shown) (hphase : l.phase ≠ .ended) : l.Published :=
  h.trans (if_neg hphase)

theorem published_publish (l : Link) : l.publish.Published := rfl

theorem published_dropSocket (now : Nat) (l : Link) : (l.dropSocket now).Published := rfl

theorem Published.transmits {packet : ClientPacket} {taken : Bool} (h : l.Published)
    (htransmits : Transmits l now packet taken effects l') : l'.Published := by
  cases htransmits with
  | taken hopen => exact h
  | refused hopen => exact published_dropSocket now l
  | untried hclosed => exact h

/-- However an attempt at a login ends, its outcome is shown. -/
theorem published_connect (answers : Answers) (now : Nat) (l : Link) :
    (l.connect answers now).2.Published := by
  have hconnects := connects_connect answers now l
  generalize l.connect answers now = result at hconnects ⊢
  obtain ⟨effects, l'⟩ := result
  cases hconnects with
  | unopened hclosed => exact published_publish _
  | taken hopening => exact published_publish _
  | refused hopening => exact published_publish _

theorem Published.receive (h : l.Published) (arrival : Arrival) (acknowledges : Bool) (now : Nat) :
    (l.receive arrival acknowledges now).2.Published := by
  unfold Link.receive
  split
  · cases arrival with
    | silence => exact h
    | failure => exact published_dropSocket now l
    | datagram bytes =>
      show (l.handle bytes acknowledges now).2.Published
      unfold handle
      split
      · exact h
      · dsimp only
        -- a packet that is handled is shown at the end, whatever came of it
        split <;> exact published_publish _
  · exact h

theorem Published.poll (h : l.Published) (answers : Answers) (now : Nat) :
    (l.poll answers now).2.Published := by
  have hpolled := Session.polled_poll l.session now
  unfold Link.poll
  generalize l.session.poll now = result at hpolled ⊢
  obtain ⟨action, session⟩ := result
  cases hpolled with
  | nothing hexpired => exact h
  | keepalive hstate hexpired =>
    have hnext : ({ l with session := { l.session with
        reassembly := l.session.reassembly.sweep now, keepaliveSent := true } } :
          Link).takeSequence.2.Published := h
    have hsent := hnext.transmits
      (transmits_transmit (.command l.sequence "") answers.sends now _)
    exact hsent
  | retry hstate => exact published_connect answers now _
  | timedOut hexpired => exact published_connect answers now _

theorem Published.send (h : l.Published) {text : String} {rest : List String}
    (hphase : l.phase = .flushing (text :: rest)) (success : Bool) (now : Nat) :
    (l.send success now).2.Published := by
  obtain ⟨taken, effects, l', htransmits, hsend⟩ := send_flushing hphase success now
  rw [hsend]
  have hnext : l.takeSequence.2.Published := h
  have hsent := hnext.transmits htransmits
  exact hsent

theorem shown_start (name : String) (endpoint : Endpoint) (now : Nat) :
    (start name endpoint now).Shown := rfl

theorem shown_proceed (h : l.Shown) : l.proceed.Shown := by
  have hpublished {phase : Phase} (hphase : l.phase = phase) (hend : phase ≠ .ended) :
      l.Published := h.published (hphase ▸ hend)
  cases hphase : l.phase with
  | looping | received =>
    simp only [proceed, hphase]
    split
    · exact (hpublished hphase (by simp)).shown rfl rfl (by simp)
    · rfl
  | draining =>
    simp only [proceed, hphase]
    split <;> exact (hpublished hphase (by simp)).shown rfl rfl (by simp)
  | flushing pending =>
    cases pending with
    | nil =>
      simp only [proceed, hphase]
      exact (hpublished hphase (by simp)).shown rfl rfl (by simp)
    | cons text rest =>
      simp only [proceed, hphase]
      exact h
  | requeueing unsent =>
    simp only [proceed, hphase]
    exact (hpublished hphase (by simp)).shown rfl rfl (by simp)
  | publishing =>
    simp only [proceed, hphase]
    exact (published_publish l).shown rfl rfl (by simp)
  | connecting | waiting | polling | ended =>
    simp only [proceed, hphase]
    exact h

/-- **Every step shows where the login stands.** -/
theorem shown_step (h : l.Shown) (event : LinkEvent) : (l.step event).2.Shown := by
  have hturn := turn_step l event
  generalize l.step event = result at hturn ⊢
  obtain ⟨effects, l'⟩ := result
  dsimp only at hturn ⊢
  -- what is no end of the loop starts from a state that is shown
  have hpublished {phase : Phase} (hphase : l.phase = phase) (hend : phase ≠ .ended) :
      l.Published := h.published (hphase ▸ hend)
  cases hturn with
  | enqueued text => exact h
  | stopped => exact h
  | proceeded => exact shown_proceed h
  | @connected answers now hphase => exact (published_connect answers now l).shown rfl rfl nofun
  | @received arrival acknowledges now hphase =>
    exact ((hpublished hphase nofun).receive arrival acknowledges now).shown rfl rfl nofun
  | @polled answers now hphase =>
    exact ((hpublished hphase nofun).poll answers now).shown rfl rfl nofun
  | @sent success now text rest hphase =>
    refine ((hpublished hphase nofun).send hphase success now).shown rfl rfl ?_
    obtain ⟨taken, effects, l', -, hsend⟩ := send_flushing hphase success now
    rw [hsend]
    cases taken <;> nofun
  | idle hevent hcause => exact h

theorem shown_run (h : l.Shown) (events : List LinkEvent) : (l.run events).2.Shown := by
  induction events generalizing l with
  | nil => exact h
  | cons event events ih => exact ih (shown_step h event)

/-- A link that has ended stays so. -/
theorem ended_step (h : l.phase = .ended) (event : LinkEvent) :
    (l.step event).2.phase = .ended := by
  have hturn := turn_step l event
  generalize l.step event = result at hturn ⊢
  obtain ⟨effects, l'⟩ := result
  dsimp only at hturn ⊢
  cases hturn with
  | enqueued text => exact h
  | stopped => exact h
  | proceeded =>
    simp only [proceed, h]
  | @connected answers now hphase => cases h.symm.trans hphase
  | @received arrival acknowledges now hphase => cases h.symm.trans hphase
  | @polled answers now hphase => cases h.symm.trans hphase
  | @sent success now text rest hphase => cases h.symm.trans hphase
  | idle hevent hcause => exact h

theorem ended_run (h : l.phase = .ended) (events : List LinkEvent) :
    (l.run events).2.phase = .ended := by
  induction events generalizing l with
  | nil => exact h
  | cons event events ih => exact ih (ended_step h event)

/-! ## What is to be sent -/

/-- The login of an attempt at one, unless there is no socket for it. -/
def loginDue (answers : Answers) (l : Link) : List (ClientPacket × Bool) :=
  if l.socketOpen || answers.opens then [(.login l.endpoint.password, answers.sends)] else []

/-- The packets that a step is to send, with what the socket says to them. Whether there is a socket
counts for a login only, which opens one. -/
def due (event : LinkEvent) (l : Link) : List (ClientPacket × Bool) :=
  match event, l.phase with
  | .connect answers _, .connecting => l.loginDue answers
  | .receive .., .waiting => ((l.receipt? event).bind Receipt.acknowledgement?).toList
  | .poll answers now, .polling =>
    match (l.session.poll now).1 with
    | .nothing => []
    | .sendKeepAlive => [(.command l.sequence "", answers.sends)]
    | .reconnect => l.loginDue answers
  | .send success _, .flushing (text :: _) => [(.command l.sequence text, success)]
  | _, _ => []

theorem sent_transmit (hopen : l.socketOpen = true) (packet : ClientPacket) (success : Bool)
    (now : Nat) :
    (l.transmit packet success now).2.1.filterMap sentPacket? = [(packet, success)] := by
  rw [transmit_of_open hopen]
  rfl

theorem sent_connect (answers : Answers) (now : Nat) (l : Link) :
    (l.connect answers now).1.filterMap sentPacket? = l.loginDue answers := by
  obtain ⟨opens, sends⟩ := answers
  unfold connect loginDue
  cases hopen : l.socketOpen with
  | true =>
    simp only [Bool.not_true, Bool.false_and, Bool.false_eq_true, ↓reduceIte, Bool.true_or]
    rw [transmit_of_open rfl]
    rfl
  | false =>
    cases opens with
    | false => rfl
    | true =>
      simp only [Bool.not_false, Bool.not_true, Bool.and_false, Bool.false_eq_true, ↓reduceIte,
        Bool.or_true]
      rw [transmit_of_open rfl]
      rfl

theorem sent_handle (hopen : l.socketOpen = true) (bytes : List UInt8) (acknowledges : Bool)
    (now : Nat) : (l.handle bytes acknowledges now).1.filterMap sentPacket? =
      (Receipt.acknowledgement? ⟨bytes, l.session, now, acknowledges⟩).toList := by
  unfold handle Receipt.acknowledgement? Receipt.message? Receipt.inbound?
  cases ServerPacket.decode bytes with
  | error defect => rfl
  | ok packet =>
    dsimp only [Except.toOption, Option.map_some, Option.bind_some]
    generalize l.session.onPacket packet now = result
    obtain ⟨inbound, session⟩ := result
    cases inbound with
    | event sequence text =>
      have hsession : ({ l with session := session } : Link).socketOpen = true := hopen
      dsimp only
      rw [transmit_of_open hsession]
      rfl
    | response sequence text => rfl
    | loggedIn | loginRejected | stored _ | ignored => rfl

theorem sent_receive (arrival : Arrival) (acknowledges : Bool) (now : Nat)
    (hphase : l.phase = .waiting) :
    (l.receive arrival acknowledges now).1.filterMap sentPacket? =
      ((l.receipt? (.receive arrival acknowledges now)).bind Receipt.acknowledgement?).toList := by
  unfold receive receipt?
  rw [hphase]
  cases hopen : l.socketOpen with
  | false => cases arrival <;> rfl
  | true =>
    cases arrival with
    | silence => rfl
    | failure => rfl
    | datagram bytes => exact sent_handle hopen bytes acknowledges now

/-- A keepalive is due in a session that is logged in, which has a socket. -/
theorem sent_poll (h : l.Stands s) (answers : Answers) (now : Nat) :
    (l.poll answers now).1.filterMap sentPacket? =
      match (l.session.poll now).1 with
      | .nothing => []
      | .sendKeepAlive => [(.command l.sequence "", answers.sends)]
      | .reconnect => l.loginDue answers := by
  have hpolled := Session.polled_poll l.session now
  unfold poll
  generalize l.session.poll now = result at hpolled ⊢
  obtain ⟨action, session⟩ := result
  cases hpolled with
  | nothing hexpired => rfl
  | keepalive hstate hexpired =>
    have hopen : l.socketOpen = true := h.socketOpen (by simp [hstate])
    have hnext : ({ l with session := { l.session with
        reassembly := l.session.reassembly.sweep now, keepaliveSent := true } } :
          Link).takeSequence.2.socketOpen = true := hopen
    exact sent_transmit hnext (.command l.sequence "") answers.sends now
  | retry hstate => exact sent_connect answers now _
  | timedOut hexpired => exact sent_connect answers now _

theorem sent_send (h : l.Poised s) {text : String} {rest : List String}
    (hphase : l.phase = .flushing (text :: rest)) (success : Bool) (now : Nat) :
    (l.send success now).1.filterMap sentPacket? = [(.command l.sequence text, success)] := by
  obtain rfl := h.flushing _ hphase
  simp only [send, hphase]
  exact sent_transmit (l := l.takeSequence.2) h.socket_eq (.command l.sequence text) success now

/-- **A step sends what is due**, and nothing else. -/
theorem sent_step (h : l.Poised s) (event : LinkEvent) :
    (l.step event).1.filterMap sentPacket? = l.due event := by
  cases event with
  | enqueue text => rfl
  | stop => rfl
  | proceed => rfl
  | connect answers now =>
    cases hphase : l.phase with
    | connecting =>
      simp only [step, due, hphase]
      exact sent_connect answers now l
    | _ => simp only [step, due, hphase, List.filterMap_nil]
  | receive arrival acknowledges now =>
    cases hphase : l.phase with
    | waiting =>
      simp only [step, due, hphase]
      exact sent_receive arrival acknowledges now hphase
    | _ => simp only [step, due, hphase, List.filterMap_nil]
  | poll answers now =>
    cases hphase : l.phase with
    | polling =>
      simp only [step, due, hphase]
      exact sent_poll h.toStands answers now
    | _ => simp only [step, due, hphase, List.filterMap_nil]
  | send success now =>
    cases hphase : l.phase with
    | flushing unsent =>
      cases unsent with
      | nil => simp only [step, due, send, hphase, List.filterMap_nil]
      | cons text rest =>
        simp only [step, due, hphase]
        exact sent_send h hphase success now
    | _ => simp only [step, due, hphase, List.filterMap_nil]

/-! ## The theorem -/

/-- **A login has a socket, and others see where it stands.** In every run, whatever the network
does: a link that is logged in, or waits for the answer to its login, has a socket; what a step is
to send by the session is handed to the socket, and nothing else is; until the loop has ended,
others see the state of the session; and from the end on they see a disconnected link. -/
theorem login_backed_and_shown (name : String) (endpoint : Endpoint) (now : Nat)
    (events : List LinkEvent) :
    (((start name endpoint now).run events).2.session.state ≠ .disconnected →
      ((start name endpoint now).run events).2.socketOpen = true) ∧
    (∀ event, (((start name endpoint now).run events).2.step event).1.filterMap sentPacket? =
      ((start name endpoint now).run events).2.due event) ∧
    (((start name endpoint now).run events).2.phase ≠ .ended →
      ((start name endpoint now).run events).2.published =
        ((start name endpoint now).run events).2.session.state) ∧
    (((start name endpoint now).run events).2.phase = .ended →
      ∀ later, (((start name endpoint now).run events).2.run later).2.published =
        .disconnected) := by
  obtain ⟨s, -, hpoised⟩ := path_run (poised_start name endpoint now) events
  have hshown := shown_run (shown_start name endpoint now) events
  refine ⟨hpoised.socketOpen, sent_step hpoised, hshown.published, fun hended later => ?_⟩
  exact (shown_run hshown later).trans (if_pos (ended_run hended later))

/-- A login that is granted to a link that is stopped in the middle of the round. -/
def lastRound : List LinkEvent :=
  [.connect ⟨true, true⟩ 0, .proceed, .receive (.datagram (frame .login [1])) true 1, .stop]

theorem login_backed_and_shown_of_stopped :
    (((start "main" localConsole 0).run lastRound).2.session.state ≠ .disconnected ∧
      ((start "main" localConsole 0).run lastRound).2.socketOpen = true) ∧
    (((start "main" localConsole 0).run lastRound).2.phase ≠ .ended ∧
      ((start "main" localConsole 0).run lastRound).2.published =
        ((start "main" localConsole 0).run lastRound).2.session.state) ∧
    ((start "main" localConsole 0).run (lastRound ++ [.proceed])).2.phase = .ended ∧
    (((start "main" localConsole 0).run (lastRound ++ [.proceed])).2.run
      [.enqueue "players", .proceed]).2.published = .disconnected := by
  obtain ⟨hbacked, -, hshown, -⟩ := login_backed_and_shown "main" localConsole 0 lastRound
  obtain ⟨-, -, -, hended⟩ := login_backed_and_shown "main" localConsole 0 (lastRound ++ [.proceed])
  have hstate : ((start "main" localConsole 0).run lastRound).2.session.state ≠ .disconnected := by
    decide +kernel
  have hphase : ((start "main" localConsole 0).run lastRound).2.phase ≠ .ended := by
    decide +kernel
  have hend : ((start "main" localConsole 0).run (lastRound ++ [.proceed])).2.phase = .ended := by
    decide +kernel
  exact ⟨⟨hstate, hbacked hstate⟩, ⟨hphase, hshown hphase⟩, hend, hended hend _⟩

end Link

end Switchboard.Admin
