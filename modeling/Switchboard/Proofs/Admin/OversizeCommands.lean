import Switchboard.Proofs.Admin.CommandOrder
import Switchboard.Proofs.Admin.Framing
import Switchboard.Proofs.Admin.LoginGuard
import Switchboard.Proofs.Text.Boundaries

/-!
# Commands that are too long

No datagram is longer than `maxDatagram`, and a command of any length may be queued. A flush takes a
refused command for a failure of the network, which a new login gets over: it gives the socket up
and puts the command back, first in line. So a command that is too long is never sent, and nothing
behind it is.

* **`fits`**, **`SocketByLength`**: which commands a datagram can carry, and a socket that refuses
  just the packets that are too long.
* **`Flushing`**: how far a flush has come. One step keeps it (`flushing_step`).
* **`Rounds`**: flushes of a link that is logged in, each with a new login behind it if need be.
* **`take_delivered`**: what rounds send of a queue is what stands in front of its first command
  that is too long.
* **`rounds_of_stuck`**: a queue with such a command in front stays as it is for any number of
  rounds.
-/

namespace Switchboard.Admin

/-! ## What a datagram carries -/

/-- Whether a datagram can carry a packet. -/
def ClientPacket.carried (packet : ClientPacket) : Bool :=
  packet.encode.length ≤ maxDatagram

/-- Whether a datagram can carry a command; its number takes one byte, whichever it is. -/
def fits (text : String) : Bool :=
  (ClientPacket.command 0 text).carried

theorem carried_command (sequence : UInt8) (text : String) :
    (ClientPacket.command sequence text).carried = fits text := by
  unfold fits ClientPacket.carried ClientPacket.encode
  simp only [length_frame, List.length_cons]

/-- Header and number leave 65498 bytes for the text. -/
theorem fits_iff (text : String) : fits text = true ↔ text.utf8ByteSize ≤ 65498 := by
  unfold fits ClientPacket.carried ClientPacket.encode
  rw [decide_eq_true_iff, length_frame, List.length_cons, Text.Utf8.length_encode, headerLength,
    maxDatagram]
  omega

/-- The socket takes the packets that a datagram can carry, and no others. -/
def SocketByLength (effects : List Effect) : Prop :=
  ∀ packet success, .sent packet success ∈ effects → success = packet.carried

variable {effects later : List Effect} {text : String}

theorem socketByLength_append :
    SocketByLength (effects ++ later) ↔ SocketByLength effects ∧ SocketByLength later := by
  constructor
  · intro h
    exact ⟨fun packet success hmem => h packet success (List.mem_append_left later hmem),
      fun packet success hmem => h packet success (List.mem_append_right effects hmem)⟩
  · rintro ⟨hbefore, hafter⟩ packet success hmem
    rcases List.mem_append.1 hmem with hmem | hmem
    · exact hbefore packet success hmem
    · exact hafter packet success hmem

/-- A socket that goes by the length takes only commands that fit. -/
theorem fits_of_mem_takenTexts (h : SocketByLength effects)
    (hmem : text ∈ takenTexts (attempts effects)) : fits text = true := by
  unfold takenTexts attempts at hmem
  obtain ⟨attempt, hattempt, rfl⟩ := List.mem_map.1 hmem
  obtain ⟨hattempt, hsuccess⟩ := List.mem_filter.1 hattempt
  obtain ⟨effect, heffect, hread⟩ := List.mem_filterMap.1 hattempt
  cases effect with
  | sent packet success =>
    cases packet with
    | command sequence text =>
      cases hread
      rw [← carried_command sequence, ← h _ _ heffect]
      exact hsuccess
    | login password => cases hread
    | acknowledge sequence => cases hread
  | opened success => cases hread
  | published message => cases hread

theorem fits_of_mem_delivered {event : LinkEvent} (h : SocketByLength effects)
    (hmem : text ∈ event.delivered effects) : fits text = true := by
  cases event with
  | poll answers now => cases hmem
  | _ => exact fits_of_mem_takenTexts h hmem

namespace Link

variable {l l' : Link} {s : Standing} {event : LinkEvent} {queue done : List String}

theorem delivered_append (events later : List LinkEvent) (l : Link) :
    l.delivered (events ++ later) = l.delivered events ++ (l.run events).2.delivered later := by
  induction events generalizing l with
  | nil => rfl
  | cons event events ih =>
    rw [List.cons_append, delivered, delivered, ih, List.append_assoc]
    rfl

theorem fits_of_delivered {events : List LinkEvent} (h : SocketByLength (l.run events).1)
    (hmem : text ∈ l.delivered events) : fits text = true := by
  induction events generalizing l with
  | nil => cases hmem
  | cons event events ih =>
    rw [run_fst_cons] at h
    obtain ⟨hhere, hlater⟩ := socketByLength_append.1 h
    rcases List.mem_append.1 hmem with hmem | hmem
    · exact fits_of_mem_delivered hhere hmem
    · exact ih hlater hmem

/-! ## One flush -/

/-- How far the flush of a queue has come: it goes on, with what is not sent yet, or everything in
front of the first command that is too long has been sent. -/
def Flushing (queue done : List String) (l : Link) : Prop :=
  (∃ unsent, l.phase = .flushing unsent ∧ done ++ unsent = queue) ∨ queue.takeWhile fits <+: done

/-- Nothing behind a command that is too long counts. -/
theorem takeWhile_prefix_of_refused (hlong : fits text = false) (done rest : List String) :
    (done ++ text :: rest).takeWhile fits <+: done := by
  induction done with
  | nil => simp [hlong]
  | cons first done ih =>
    rw [List.cons_append, List.takeWhile_cons]
    split
    · exact (List.prefix_cons_inj first).2 ih
    · exact List.nil_prefix

theorem flushing_send (hpoised : l.Poised s) {rest : List String}
    (hphase : l.phase = .flushing (text :: rest)) (hqueue : done ++ text :: rest = queue)
    (success : Bool) (now : Nat) (hsocket : SocketByLength (l.send success now).1) :
    Flushing queue (done ++ takenTexts (attempts (l.send success now).1))
      (l.send success now).2 := by
  obtain rfl := hpoised.flushing _ hphase
  obtain ⟨taken, effects, l', htransmits, hsend⟩ := send_flushing hphase success now
  obtain ⟨htried, -⟩ := numbers_transmits htransmits hpoised.socket_eq
  rw [hsend] at hsocket ⊢
  rw [htried]
  subst hqueue
  cases htransmits with
  | taken hopen => exact .inl ⟨rest, rfl, List.append_assoc done [text] rest⟩
  | refused hopen =>
    -- the socket refuses nothing that fits
    have hlong : false = ClientPacket.carried _ := hsocket _ false List.mem_cons_self
    rw [carried_command] at hlong
    right
    exact (takeWhile_prefix_of_refused hlong.symm done rest).trans (List.prefix_append done [])
  | untried hclosed =>
    have hopen : l.socketOpen = true := hpoised.socket_eq
    exact absurd (hopen.symm.trans hclosed) Bool.noConfusion

/-- **One step of a flush.** -/
theorem flushing_step (hpoised : l.Poised s) (h : Flushing queue done l)
    (hsocket : SocketByLength (l.step event).1) :
    Flushing queue (done ++ event.delivered (l.step event).1) (l.step event).2 := by
  rcases h with ⟨unsent, hphase, hqueue⟩ | hdone
  · have hturn := turn_step l event
    generalize l.step event = result at hturn hsocket ⊢
    obtain ⟨effects, l'⟩ := result
    dsimp only at hturn hsocket ⊢
    have hstays {l' : Link} (hphase' : l'.phase = .flushing unsent) :
        Flushing queue (done ++ []) l' := by
      rw [List.append_nil]
      exact .inl ⟨unsent, hphase', hqueue⟩
    cases hturn with
    | enqueued text => exact hstays hphase
    | stopped => exact hstays hphase
    | proceeded =>
      cases unsent with
      | nil =>
        -- the flush is over, and everything has been sent
        rw [List.append_nil] at hqueue
        subst hqueue
        right
        exact (List.takeWhile_prefix fits).trans (List.prefix_append done _)
      | cons text rest =>
        have hproceed : l.proceed = l := by simp only [proceed, hphase]
        rw [hproceed]
        exact hstays hphase
    | connected hother =>
      rw [hphase] at hother
      cases hother
    | received hother =>
      rw [hphase] at hother
      cases hother
    | polled hother =>
      rw [hphase] at hother
      cases hother
    | @sent success now text rest hother =>
      rw [hphase] at hother
      cases hother
      exact flushing_send hpoised hphase hqueue success now hsocket
    | idle hevent hcause =>
      have hnone : event.delivered [] = [] := by
        cases event <;> rfl
      rw [hnone]
      exact hstays hphase
  · exact .inr (hdone.trans (List.prefix_append done _))

theorem flushing_run {events : List LinkEvent} (hpoised : l.Poised s) (h : Flushing queue done l)
    (hsocket : SocketByLength (l.run events).1) :
    Flushing queue (done ++ l.delivered events) (l.run events).2 := by
  induction events generalizing l s done with
  | nil =>
    rw [delivered, List.append_nil]
    exact h
  | cons event events ih =>
    rw [run_fst_cons] at hsocket
    obtain ⟨hhere, hlater⟩ := socketByLength_append.1 hsocket
    obtain ⟨m, -, hmiddle⟩ := path_step hpoised event
    rw [delivered, ← List.append_assoc]
    exact ih hmiddle (flushing_step hpoised h hhere) hlater

/-! ## Rounds -/

/-- The link is about to look at its queue, is logged in and has a socket. -/
structure Ready (l : Link) : Prop where
  phase_eq : l.phase = .draining
  state_eq : l.session.state = .loggedIn
  socketOpen : l.socketOpen = true

/-- The link goes through rounds, with a socket that goes by the length: each begins with a flush
and ends when the next one can begin, so with a new login behind it if the socket was lost. -/
def Rounds : List (List LinkEvent) → Link → Prop
  | [], l => l.Ready
  | round :: rounds, l =>
    l.Ready ∧ SocketByLength (l.run (.proceed :: round)).1 ∧
      (l.run (.proceed :: round)).2.Rounds rounds

/-- All that happens in rounds. -/
def roundEvents (rounds : List (List LinkEvent)) : List LinkEvent :=
  rounds.flatMap (.proceed :: ·)

variable {rounds : List (List LinkEvent)}

theorem Rounds.ready (h : l.Rounds rounds) : l.Ready := by
  cases rounds with
  | nil => exact h
  | cons round rounds => exact h.1

theorem Rounds.socketByLength (h : l.Rounds rounds) :
    SocketByLength (l.run (roundEvents rounds)).1 := by
  induction rounds generalizing l with
  | nil => exact fun packet success hmem => absurd hmem List.not_mem_nil
  | cons round rounds ih =>
    obtain ⟨-, hhere, hlater⟩ := h
    show SocketByLength (l.run ((.proceed :: round) ++ roundEvents rounds)).1
    rw [run_fst_append]
    exact socketByLength_append.2 ⟨hhere, ih hlater⟩

/-- A flush takes the whole queue. -/
theorem Ready.proceed (h : l.Ready) : Flushing l.outbox [] l.proceed := by
  refine .inl ⟨l.outbox, ?_, rfl⟩
  simp [Link.proceed, h.phase_eq, Session.canSend, h.state_eq]

/-- One round sends everything in front of the first command that is too long. -/
theorem takeWhile_prefix_of_round {round : List LinkEvent} (hpoised : l.Poised s) (h : l.Ready)
    (hsocket : SocketByLength (l.run (.proceed :: round)).1)
    (hready : (l.run (.proceed :: round)).2.Ready) :
    l.outbox.takeWhile fits <+: l.delivered (.proceed :: round) := by
  have hflushing : Flushing l.outbox (l.delivered (.proceed :: round))
      (l.run (.proceed :: round)).2 :=
    flushing_run (poised_proceed hpoised) h.proceed hsocket
  rcases hflushing with ⟨unsent, hphase, -⟩ | hdone
  · -- the next round can begin, so the flush is over
    rw [hready.phase_eq] at hphase
    cases hphase
  · exact hdone

theorem prefix_takeWhile {front list : List String} (h : front <+: list)
    (hall : ∀ text ∈ front, fits text = true) : front <+: list.takeWhile fits := by
  obtain ⟨rest, rfl⟩ := h
  rw [List.takeWhile_append_of_pos hall]
  exact List.prefix_append front _

/-- **What rounds send of a queue** stands in front of the first command that is too long. -/
theorem take_delivered (hpoised : l.Poised s) (h : l.Rounds rounds)
    (hsome : rounds = [] → l.outbox = []) :
    (l.delivered (roundEvents rounds)).take l.outbox.length = l.outbox.takeWhile fits := by
  have hfits : ∀ text ∈ l.delivered (roundEvents rounds), fits text = true := fun text hmem =>
    fits_of_delivered h.socketByLength hmem
  -- nothing overtakes: what is sent, cut to the length of the queue, stands in front in the queue
  have hsent : (l.delivered (roundEvents rounds)).take l.outbox.length <+: l.outbox := by
    have hstream := stream_run hpoised (roundEvents rounds)
    have hdrained : l.unsent = l.outbox := by
      simp only [unsent, drained, h.ready.phase_eq, List.nil_append]
    rw [hdrained] at hstream
    have hqueue := List.prefix_append l.outbox (enqueuedTexts (roundEvents rounds))
    rw [← hstream] at hqueue
    have hcut := (List.take_prefix l.outbox.length (l.delivered (roundEvents rounds))).trans
      (List.prefix_append _ (l.run (roundEvents rounds)).2.unsent)
    exact List.prefix_of_prefix_length_le hcut hqueue (List.length_take_le _ _)
  have hfirst : l.outbox.takeWhile fits <+: l.delivered (roundEvents rounds) := by
    cases rounds with
    | nil =>
      rw [hsome rfl]
      exact List.nil_prefix
    | cons round rounds =>
      obtain ⟨hready, hsocket, hlater⟩ := h
      have hround := takeWhile_prefix_of_round hpoised hready hsocket hlater.ready
      show _ <+: l.delivered ((.proceed :: round) ++ roundEvents rounds)
      rw [delivered_append]
      exact hround.trans (List.prefix_append _ _)
  have hlength : (l.outbox.takeWhile fits).length ≤ l.outbox.length :=
    (List.takeWhile_prefix fits).length_le
  have hle := prefix_takeWhile hsent fun text hmem => hfits text (List.mem_of_mem_take hmem)
  have hge := List.prefix_take_iff.2 ⟨hfirst, hlength⟩
  exact hle.eq_of_length_le hge.length_le

/-- What stands in front is all that fits just if nothing that fits stands behind something that
does not. -/
theorem takeWhile_eq_filter_iff (queue : List String) :
    queue.takeWhile fits = queue.filter fits ↔
      queue.Pairwise fun earlier later => fits later = true → fits earlier = true := by
  induction queue with
  | nil => simp
  | cons text queue ih =>
    rw [List.takeWhile_cons, List.filter_cons, List.pairwise_cons]
    cases hfits : fits text with
    | true => simpa using ih
    | false =>
      simp only [Bool.false_eq_true, ↓reduceIte, imp_false]
      constructor
      · intro hnil
        have hnone := List.filter_eq_nil_iff.1 hnil.symm
        refine ⟨hnone, List.pairwise_of_forall_mem_list fun earlier _ later hlater hfit => ?_⟩
        exact absurd hfit (hnone later hlater)
      · rintro ⟨hnone, -⟩
        exact (List.filter_eq_nil_iff.2 hnone).symm

/-! ## A queue that is stuck -/

/-- A link that can try again, and has a command in front of its queue. -/
structure Stuck (text : String) (rest : List String) (l : Link) : Prop extends Ready l where
  running : l.running = true
  outbox_eq : l.outbox = text :: rest
  keepalive_pos : 0 < l.session.timings.keepalive
  timeout_pos : 0 < l.session.timings.timeout
  carried : (ClientPacket.login l.endpoint.password).carried = true

/-- The first command of a flush is refused, and the loop goes on. -/
def refusal (now : Nat) : List LinkEvent :=
  [.send false now, .proceed, .proceed, .proceed, .receive .silence true now, .proceed]

/-- A login is sent and granted, and the loop goes on. -/
def relogin (now : Nat) : List LinkEvent :=
  [.poll ⟨true, true⟩ now, .proceed, .proceed, .proceed,
    .receive (.datagram (frame .login [1])) true now, .proceed, .poll ⟨true, true⟩ now]

/-- A round in which the first command is refused. -/
def retryRound (receiveTimeout now : Nat) : List LinkEvent :=
  refusal now ++ relogin (now + receiveTimeout)

/-- A command that the socket refuses is put back, and the login is lost. -/
theorem run_refusal {rest : List String} (h : l.Ready) (hrunning : l.running = true)
    (houtbox : l.outbox = text :: rest) (now : Nat) :
    l.run (.proceed :: refusal now) =
      ([.sent (.command l.sequence text) false],
        { l with
          sequence := l.sequence + 1, published := .disconnected, socketOpen := false,
          session := l.session.onSocketError now, phase := .polling }) := by
  obtain ⟨hphase, hstate, hopen⟩ := h
  obtain ⟨name, endpoint, outbox, sequence, running, published, session, socketOpen, phase⟩ := l
  obtain ⟨state, timings, lastActivity, keepaliveSent, reassembly⟩ := session
  dsimp only at hphase hstate hopen hrunning houtbox
  subst hphase hstate hopen hrunning houtbox
  simp [refusal, run, step, proceed, send, takeSequence, transmit, dropSocket, publish, receive,
    Session.canSend, Session.onSocketError]

/-- After the receive timeout there is a new login, which is granted. -/
theorem run_relogin (hphase : l.phase = .polling) (hrunning : l.running = true)
    (hclosed : l.socketOpen = false) (hstate : l.session.state = .disconnected)
    (hkeepalive : 0 < l.session.timings.keepalive) (htimeout : 0 < l.session.timings.timeout)
    {now : Nat} (hdue : l.session.timings.receiveTimeout ≤ now - l.session.lastActivity) :
    l.run (relogin now) =
      ([.opened true, .sent (.login l.endpoint.password) true],
        { l with
          published := .loggedIn, socketOpen := true, phase := .draining,
          session :=
            { l.session with
              state := .loggedIn, lastActivity := now, keepaliveSent := false,
              reassembly := (l.session.reassembly.sweep now).sweep now } }) := by
  have hdecode : ServerPacket.decode (frame .login [1]) = .ok (.loginResponse true) := by
    rw [ServerPacket.decode_frame]
    rfl
  obtain ⟨name, endpoint, outbox, sequence, running, published, session, socketOpen, phase⟩ := l
  obtain ⟨state, timings, lastActivity, keepaliveSent, reassembly⟩ := session
  dsimp only at hphase hstate hclosed hrunning hkeepalive htimeout hdue
  subst hphase hstate hclosed hrunning
  have hkeepalive' : timings.keepalive ≠ 0 := Nat.ne_of_gt hkeepalive
  have htimeout' : timings.timeout ≠ 0 := Nat.ne_of_gt htimeout
  simp [relogin, run, step, proceed, transmit, publish, receive, poll, connect, handle, hdecode,
    Session.canSend, Session.poll, Session.connect, Session.onPacket, Session.touch, hdue,
    hkeepalive', htimeout']

theorem run_retryRound {rest : List String} (h : Stuck text rest l) (now : Nat) :
    let round := retryRound l.session.timings.receiveTimeout now
    (l.run (.proceed :: round)).1 =
        [.sent (.command l.sequence text) false, .opened true,
          .sent (.login l.endpoint.password) true] ∧
      Stuck text rest (l.run (.proceed :: round)).2 ∧
      (l.run (.proceed :: round)).2.session.timings = l.session.timings := by
  intro round
  let middle : Link := { l with
    sequence := l.sequence + 1, published := .disconnected, socketOpen := false,
    session := l.session.onSocketError now, phase := .polling }
  have hrefused := run_refusal h.toReady h.running h.outbox_eq now
  have hdue : l.session.timings.receiveTimeout ≤ now + l.session.timings.receiveTimeout - now := by
    omega
  have hrelogin := run_relogin (l := middle) rfl h.running rfl rfl h.keepalive_pos h.timeout_pos
    hdue
  have hround : LinkEvent.proceed :: round =
      (.proceed :: refusal now) ++ relogin (now + l.session.timings.receiveTimeout) := rfl
  rw [hround, run_fst_append, run_snd_append, hrefused]
  show _ ++ (middle.run _).1 = _ ∧ Stuck text rest (middle.run _).2 ∧ _
  rw [hrelogin]
  exact ⟨rfl, ⟨⟨rfl, rfl, rfl⟩, h.running, h.outbox_eq, h.keepalive_pos, h.timeout_pos, h.carried⟩,
    rfl⟩

/-- **A command that is too long stays in front** of its queue for any number of rounds. -/
theorem rounds_of_stuck {rest : List String} (h : Stuck text rest l) (hlong : fits text = false)
    (times : List Nat) :
    l.Rounds (times.map (retryRound l.session.timings.receiveTimeout)) := by
  induction times generalizing l with
  | nil => exact h.toReady
  | cons now times ih =>
    obtain ⟨heffects, hstuck, htimings⟩ := run_retryRound h now
    refine ⟨h.toReady, ?_, ?_⟩
    · rw [heffects]
      intro packet success hmem
      simp only [List.mem_cons, List.not_mem_nil, or_false] at hmem
      rcases hmem with heq | heq | heq
      · cases heq
        rw [carried_command, hlong]
      · cases heq
      · cases heq
        exact h.carried.symm
    · have hnext := ih hstuck
      rwa [htimings] at hnext

theorem delivered_of_stuck (hpoised : l.Poised s) {rest : List String} (h : Stuck text rest l)
    (hlong : fits text = false) (hrounds : l.Rounds rounds) :
    l.delivered (roundEvents rounds) = [] := by
  cases rounds with
  | nil => rfl
  | cons round rounds =>
    have hsent := take_delivered hpoised hrounds nofun
    rw [h.outbox_eq, List.takeWhile_cons, hlong] at hsent
    rcases List.take_eq_nil_iff.1 hsent with hempty | hnone
    · cases hempty
    · exact hnone

/-! ## The theorem -/

/-- **A flush stops at a command that is too long, and so does every later one.** Let a link that is
logged in and has a socket go through rounds, any number from one on, and let the socket refuse just
the packets that no datagram can carry. Then of the commands that were queued before, those in front
of the first one that is too long are sent, and no others, whatever the number of rounds. So all
that fit are sent just if none of them stands behind one that does not. -/
theorem flushes_stop_at_oversize (name : String) (endpoint : Endpoint) (now : Nat)
    (events : List LinkEvent) (rounds : List (List LinkEvent)) :
    let l := ((start name endpoint now).run events).2
    let sent := (l.delivered (roundEvents rounds)).take l.outbox.length
    l.Rounds rounds → (rounds = [] → l.outbox = []) →
    sent = l.outbox.takeWhile fits ∧
    (sent = l.outbox.filter fits ↔
      l.outbox.Pairwise fun earlier later => fits later = true → fits earlier = true) := by
  intro l sent hrounds hsome
  obtain ⟨s, -, hpoised⟩ := path_run (poised_start name endpoint now) events
  have hsent : sent = l.outbox.takeWhile fits := take_delivered hpoised hrounds hsome
  refine ⟨hsent, ?_⟩
  rw [hsent]
  exact takeWhile_eq_filter_iff l.outbox

/-- A login that is granted, up to the first look at the queue. -/
def grantedLogin : List LinkEvent :=
  [.connect ⟨true, true⟩ 0, .proceed, .receive (.datagram (frame .login [1])) true 1, .proceed,
    .poll ⟨true, true⟩ 2]

/-- A round in which one command is sent. -/
def sendingRound : List LinkEvent :=
  [.send true 3, .proceed, .proceed, .proceed, .receive .silence true 4, .proceed,
    .poll ⟨true, true⟩ 5]

theorem flushes_stop_at_oversize_of_fitting :
    let l := ((start "main" localConsole 0).run (grantedLogin ++ [.enqueue "players"])).2
    l.outbox = ["players"] ∧ l.Rounds [sendingRound] ∧
    (l.delivered (roundEvents [sendingRound])).take l.outbox.length =
      l.outbox.takeWhile fits := by
  intro l
  have houtbox : l.outbox = ["players"] := by decide +kernel
  have heffects : (l.run (.proceed :: sendingRound)).1 = [.sent (.command 0 "players") true] := by
    decide +kernel
  have hcarried : (ClientPacket.command 0 "players").carried = true := by decide +kernel
  have hrounds : l.Rounds [sendingRound] := by
    refine ⟨⟨by decide +kernel, by decide +kernel, by decide +kernel⟩, ?_,
      ⟨by decide +kernel, by decide +kernel, by decide +kernel⟩⟩
    rw [heffects]
    intro packet success hmem
    cases List.mem_singleton.1 hmem
    exact hcarried.symm
  exact ⟨houtbox, hrounds, (flushes_stop_at_oversize "main" localConsole 0 _ [sendingRound]
    hrounds nofun).1⟩

theorem fits_zeros (n : Nat) :
    fits (.ofList (List.replicate n '0')) = true ↔ n ≤ 65498 := by
  have hdigits : ∀ c ∈ (String.ofList (List.replicate n '0')).toList, c.isDigit = true := by
    intro c hc
    rw [String.toList_ofList] at hc
    rw [List.eq_of_mem_replicate hc]
    rfl
  rw [fits_iff, Text.utf8ByteSize_of_isDigit hdigits, String.length_ofList, List.length_replicate]

/-- One byte more than a command may have. -/
def oversize : String :=
  .ofList (List.replicate 65499 '0')

theorem fits_oversize : fits oversize = false := by
  have hlong : ¬ 65499 ≤ 65498 := by decide
  exact Bool.eq_false_iff.2 fun h => hlong ((fits_zeros 65499).1 h)

/-- A command that is too long, and one behind it that is not. -/
def crowdedQueue : List LinkEvent :=
  grantedLogin ++ [.enqueue oversize, .enqueue "players"]

theorem run_crowdedQueue : ((start "main" localConsole 0).run crowdedQueue).2 =
    (((start "main" localConsole 0).run grantedLogin).2.enqueue oversize).enqueue "players" := by
  rw [crowdedQueue, run_snd_append]
  rfl

theorem stuck_crowdedQueue :
    Stuck oversize ["players"] ((start "main" localConsole 0).run crowdedQueue).2 := by
  have houtbox : ((start "main" localConsole 0).run grantedLogin).2.outbox = [] := by
    decide +kernel
  rw [run_crowdedQueue]
  generalize hlink : ((start "main" localConsole 0).run grantedLogin).2 = l at houtbox ⊢
  refine ⟨⟨?_, ?_, ?_⟩, ?_, ?_, ?_, ?_, ?_⟩
  · show l.phase = .draining
    rw [← hlink]
    decide +kernel
  · show l.session.state = .loggedIn
    rw [← hlink]
    decide +kernel
  · show l.socketOpen = true
    rw [← hlink]
    decide +kernel
  · show l.running = true
    rw [← hlink]
    decide +kernel
  · show l.outbox ++ [oversize] ++ ["players"] = _
    rw [houtbox]
    rfl
  · show 0 < l.session.timings.keepalive
    rw [← hlink]
    decide +kernel
  · show 0 < l.session.timings.timeout
    rw [← hlink]
    decide +kernel
  · show (ClientPacket.login l.endpoint.password).carried = true
    rw [← hlink]
    decide +kernel

theorem receiveTimeout_crowdedQueue :
    ((start "main" localConsole 0).run crowdedQueue).2.session.timings.receiveTimeout = 1000 := by
  rw [run_crowdedQueue]
  unfold enqueue
  decide +kernel

/-- In as many rounds as there are commands, one that fits is not sent. -/
theorem fitting_command_unsent :
    let l := ((start "main" localConsole 0).run crowdedQueue).2
    let rounds := [retryRound 1000 3, retryRound 1000 1004]
    l.outbox = [oversize, "players"] ∧ l.Rounds rounds ∧ rounds.length = l.outbox.length ∧
    fits "players" = true ∧ "players" ∉ l.delivered (roundEvents rounds) := by
  have hstuck := stuck_crowdedQueue
  have htimeout := receiveTimeout_crowdedQueue
  obtain ⟨s, -, hpoised⟩ := path_run (poised_start "main" localConsole 0) crowdedQueue
  generalize ((start "main" localConsole 0).run crowdedQueue).2 = l at hstuck htimeout hpoised ⊢
  intro l rounds
  have hrounds : l.Rounds rounds := by
    have h := rounds_of_stuck hstuck fits_oversize [3, 1004]
    rwa [htimeout] at h
  refine ⟨hstuck.outbox_eq, hrounds, ?_, by decide +kernel, ?_⟩
  · rw [hstuck.outbox_eq]
    rfl
  · rw [delivered_of_stuck hpoised hstuck fits_oversize hrounds]
    exact List.not_mem_nil

end Link

end Switchboard.Admin
