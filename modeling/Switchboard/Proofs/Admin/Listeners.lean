import Mathlib.Data.List.Basic
import Switchboard.Proofs.Admin.LoginGuard

/-!
# What listeners are told

While a link runs, datagrams come in, acknowledgements go out, and listeners are told. The three
belong together: whatever else a link sends, and whenever its socket fails, it acknowledges and
tells only what a datagram brought, and at once.

* **`Receipt`**: a datagram that came in, with the session that it came for.
* **`Notice`**: an acknowledgement that is tried, or a message that is told.
* **`notices_step`**, **`notices_run`**: the notices of a step are those of the datagram that it
  received, if it received one; the notices of a run are those of its receipts, in order.
* **`step_of_refused`**: an acknowledgement that is refused.
* **`listeners_told_as_received`**: the three courses of a run side by side.
-/

namespace Switchboard.Admin

/-! ## Receipts and notices -/

/-- A datagram that came in, with the session that it came for. -/
structure Receipt where
  datagram : List UInt8
  session : Session
  now : Nat
  /-- Whether the socket takes an acknowledgement. -/
  acknowledges : Bool

/-- An acknowledgement that was handed to the socket, which took it or refused it, or a message that
listeners were told. -/
inductive Notice where
  | acknowledged (sequence : UInt8) (success : Bool)
  | published (message : Message)
  deriving DecidableEq, Repr

def Inbound.message? : Inbound → Option Message
  | response sequence text => some (.commandResponse sequence text)
  | event sequence text => some (.serverEvent sequence text)
  | loggedIn | loginRejected | stored _ | ignored => none

namespace Message

/-- The sequence number under which a message is to be acknowledged. -/
def acknowledgement? : Message → Option UInt8
  | commandResponse .. => none
  | serverEvent sequence _ => some sequence

/-- All that a message gives rise to. -/
def notices (acknowledges : Bool) (message : Message) : List Notice :=
  (message.acknowledgement?.map (.acknowledged · acknowledges)).toList ++ [.published message]

end Message

namespace Receipt

/-- What the session makes of the datagram, if it is a packet. -/
def inbound? (r : Receipt) : Option Inbound :=
  (ServerPacket.decode r.datagram).toOption.map fun packet => (r.session.onPacket packet r.now).1

def message? (r : Receipt) : Option Message :=
  r.inbound?.bind Inbound.message?

def notices (r : Receipt) : List Notice :=
  r.message?.toList.flatMap (Message.notices r.acknowledges)

end Receipt

namespace Notice

def message? : Notice → Option Message
  | published message => some message
  | acknowledged .. => none

def acknowledgement? : Notice → Option UInt8
  | acknowledged sequence _ => some sequence
  | published _ => none

end Notice

namespace Effect

def notice? : Effect → Option Notice
  | sent (.acknowledge sequence) success => some (.acknowledged sequence success)
  | published message => some (.published message)
  | sent (.login _) _ | sent (.command ..) _ | opened _ => none

def message? : Effect → Option Message
  | published message => some message
  | sent .. | opened _ => none

def acknowledgement? : Effect → Option UInt8
  | sent (.acknowledge sequence) _ => some sequence
  | sent (.login _) _ | sent (.command ..) _ | published _ | opened _ => none

theorem bind_notice?_message? (effect : Effect) :
    effect.notice?.bind Notice.message? = effect.message? := by
  cases effect with
  | sent packet success => cases packet <;> rfl
  | published message => rfl
  | opened success => rfl

theorem bind_notice?_acknowledgement? (effect : Effect) :
    effect.notice?.bind Notice.acknowledgement? = effect.acknowledgement? := by
  cases effect with
  | sent packet success => cases packet <;> rfl
  | published message => rfl
  | opened success => rfl

end Effect

def notices (effects : List Effect) : List Notice :=
  effects.filterMap Effect.notice?

theorem notices_append (effects later : List Effect) :
    notices (effects ++ later) = notices effects ++ notices later :=
  List.filterMap_append

theorem filterMap_message?_notices (r : Receipt) :
    r.notices.filterMap Notice.message? = r.message?.toList := by
  unfold Receipt.notices
  cases r.message? with
  | none => rfl
  | some message => cases message <;> rfl

theorem filterMap_acknowledgement?_notices (r : Receipt) :
    r.notices.filterMap Notice.acknowledgement? =
      r.message?.toList.filterMap Message.acknowledgement? := by
  unfold Receipt.notices
  cases r.message? with
  | none => rfl
  | some message => cases message <;> rfl

namespace Link

variable {l l' : Link} {now : Nat} {effects : List Effect}

/-- The datagram that an event brings, if the link waits for one. -/
def receipt? (event : LinkEvent) (l : Link) : Option Receipt :=
  match event, l.phase with
  | .receive (.datagram bytes) acknowledges now, .waiting =>
    if l.socketOpen then some ⟨bytes, l.session, now, acknowledges⟩ else none
  | _, _ => none

/-- The datagrams that come in during a run. -/
def receipts : List LinkEvent → Link → List Receipt
  | [], _ => []
  | event :: events, l => (l.receipt? event).toList ++ (l.step event).2.receipts events

/-! ## What gives no notice -/

theorem notices_poll (answers : Answers) (now : Nat) (l : Link) :
    notices (l.poll answers now).1 = [] := by
  unfold poll
  generalize l.session.poll now = result
  obtain ⟨action, session⟩ := result
  cases action with
  | nothing => rfl
  | sendKeepAlive =>
    exact (transmits_transmit _ answers.sends now _).filterMap_eq_nil fun _ => rfl
  | reconnect =>
    exact (connects_connect answers now _).filterMap_eq_nil (fun _ => rfl) fun _ _ => rfl

theorem notices_send {text : String} {rest : List String}
    (hphase : l.phase = .flushing (text :: rest)) (success : Bool) (now : Nat) :
    notices (l.send success now).1 = [] := by
  obtain ⟨taken, effects, l', htransmits, hsend⟩ := send_flushing hphase success now
  rw [hsend]
  exact htransmits.filterMap_eq_nil fun _ => rfl

/-! ## What a datagram gives rise to -/

/-- With a socket, a packet is tried, and a socket that refuses it is given up. -/
theorem transmit_of_open (hopen : l.socketOpen = true) (packet : ClientPacket) (success : Bool)
    (now : Nat) : l.transmit packet success now =
      (success, [.sent packet success], if success then l else l.dropSocket now) := by
  unfold transmit
  rw [if_pos hopen]
  cases success <;> rfl

/-- **A datagram is answered at once**: its message is acknowledged, if it is to be, and told. -/
theorem notices_handle (hopen : l.socketOpen = true) (bytes : List UInt8) (acknowledges : Bool)
    (now : Nat) : notices (l.handle bytes acknowledges now).1 =
      Receipt.notices ⟨bytes, l.session, now, acknowledges⟩ := by
  unfold handle Receipt.notices Receipt.message? Receipt.inbound?
  cases ServerPacket.decode bytes with
  | error defect => rfl
  | ok packet =>
    dsimp only [Except.toOption, Option.map_some, Option.bind_some]
    generalize l.session.onPacket packet now = result
    obtain ⟨inbound, session⟩ := result
    cases inbound with
    | event sequence text =>
      have hsession : ({ l with session := session } : Link).socketOpen = true := hopen
      dsimp only
      rw [transmit_of_open hsession]
      rfl
    | response sequence text => rfl
    | loggedIn | loginRejected | stored _ | ignored => rfl

/-- The event comes in the phase that it fits, or it changes nothing. -/
theorem notices_receive (arrival : Arrival) (acknowledges : Bool) (now : Nat) (l : Link) :
    notices (l.step (.receive arrival acknowledges now)).1 =
      (l.receipt? (.receive arrival acknowledges now)).toList.flatMap Receipt.notices := by
  by_cases hphase : l.phase = .waiting
  · simp only [step, receipt?, hphase, receive]
    cases hopen : l.socketOpen with
    | false => cases arrival <;> rfl
    | true =>
      cases arrival with
      | silence => rfl
      | failure => rfl
      | datagram bytes =>
        simp only [↓reduceIte, Option.toList_some, List.flatMap_singleton]
        exact notices_handle hopen bytes acknowledges now
  · have hstep : (l.step (.receive arrival acknowledges now)).1 = [] := by
      cases hp : l.phase <;> simp_all [step]
    have hreceipt : l.receipt? (.receive arrival acknowledges now) = none := by
      cases arrival <;> cases hp : l.phase <;> simp_all [receipt?]
    rw [hstep, hreceipt]
    rfl

/-! ## Steps and runs -/

/-- **The notices of a step** are those of the datagram that it receives. -/
theorem notices_step (event : LinkEvent) (l : Link) :
    notices (l.step event).1 = (l.receipt? event).toList.flatMap Receipt.notices := by
  by_cases hreceive : ∃ arrival acknowledges now, event = .receive arrival acknowledges now
  · obtain ⟨arrival, acknowledges, now, rfl⟩ := hreceive
    exact notices_receive arrival acknowledges now l
  · have hnone : l.receipt? event = none := by
      cases event with
      | receive arrival acknowledges now => exact absurd ⟨arrival, acknowledges, now, rfl⟩ hreceive
      | _ => rfl
    rw [hnone]
    show notices (l.step event).1 = []
    have hturn := turn_step l event
    generalize l.step event = result at hturn ⊢
    obtain ⟨effects, l'⟩ := result
    dsimp only at hturn ⊢
    cases hturn with
    | enqueued text => rfl
    | stopped => rfl
    | proceeded => rfl
    | @connected answers now hphase =>
      exact (connects_connect answers now l).filterMap_eq_nil (fun _ => rfl) fun _ _ => rfl
    | @received arrival acknowledges now hphase =>
      exact absurd ⟨arrival, acknowledges, now, rfl⟩ hreceive
    | @polled answers now hphase => exact notices_poll answers now l
    | @sent success now text rest hphase => exact notices_send hphase success now
    | idle hevent hcause => rfl

/-- **The notices of a run** are those of its receipts, in order. -/
theorem notices_run (events : List LinkEvent) (l : Link) :
    notices (l.run events).1 = (l.receipts events).flatMap Receipt.notices := by
  induction events generalizing l with
  | nil => rfl
  | cons event events ih =>
    rw [run_fst_cons, notices_append, notices_step, ih, receipts, List.flatMap_append]

theorem messages_run (events : List LinkEvent) (l : Link) :
    (l.run events).1.filterMap Effect.message? =
      (l.receipts events).filterMap Receipt.message? := by
  calc (l.run events).1.filterMap Effect.message?
      = (notices (l.run events).1).filterMap Notice.message? := by
        rw [notices, List.filterMap_filterMap]
        simp only [Effect.bind_notice?_message?]
    _ = (l.receipts events).flatMap fun r => r.message?.toList := by
        rw [notices_run, List.filterMap_flatMap]
        simp only [filterMap_message?_notices]
    _ = (l.receipts events).filterMap Receipt.message? :=
        (List.filterMap_eq_flatMap_toList _ _).symm

theorem acknowledgements_run (events : List LinkEvent) (l : Link) :
    (l.run events).1.filterMap Effect.acknowledgement? =
      ((l.run events).1.filterMap Effect.message?).filterMap Message.acknowledgement? := by
  calc (l.run events).1.filterMap Effect.acknowledgement?
      = (notices (l.run events).1).filterMap Notice.acknowledgement? := by
        rw [notices, List.filterMap_filterMap]
        simp only [Effect.bind_notice?_acknowledgement?]
    _ = (l.receipts events).flatMap fun r =>
          r.message?.toList.filterMap Message.acknowledgement? := by
        rw [notices_run, List.filterMap_flatMap]
        simp only [filterMap_acknowledgement?_notices]
    _ = ((l.run events).1.filterMap Effect.message?).filterMap Message.acknowledgement? := by
        rw [messages_run, List.filterMap_eq_flatMap_toList (f := Receipt.message?),
          List.filterMap_flatMap]

/-! ## A refused acknowledgement -/

/-- **A message is told even if its acknowledgement is refused**, which costs the link its socket
and its login. -/
theorem handle_of_refused {bytes : List UInt8} {sequence : UInt8} {text : String}
    (hopen : l.socketOpen = true)
    (hmessage : Receipt.message? ⟨bytes, l.session, now, false⟩ =
      some (.serverEvent sequence text)) :
    (l.handle bytes false now).1 =
        [.sent (.acknowledge sequence) false, .published (.serverEvent sequence text)] ∧
      (l.handle bytes false now).2.socketOpen = false ∧
      (l.handle bytes false now).2.session.state = .disconnected := by
  unfold Receipt.message? Receipt.inbound? at hmessage
  unfold handle
  cases hdecode : ServerPacket.decode bytes with
  | error defect =>
    rw [hdecode] at hmessage
    cases hmessage
  | ok packet =>
    rw [hdecode] at hmessage
    dsimp only [Except.toOption, Option.map_some, Option.bind_some] at hmessage ⊢
    generalize l.session.onPacket packet now = result at hmessage ⊢
    obtain ⟨inbound, session⟩ := result
    cases inbound with
    | event sequence text =>
      cases hmessage
      have hsession : ({ l with session := session } : Link).socketOpen = true := hopen
      dsimp only
      rw [transmit_of_open hsession]
      exact ⟨rfl, rfl, rfl⟩
    | response sequence text => cases hmessage
    | loggedIn | loginRejected | stored _ | ignored => cases hmessage

theorem step_of_refused {event : LinkEvent} {r : Receipt} {sequence : UInt8} {text : String}
    (hreceipt : l.receipt? event = some r)
    (hmessage : r.message? = some (.serverEvent sequence text))
    (hrefused : r.acknowledges = false) :
    (l.step event).1 =
        [.sent (.acknowledge sequence) false, .published (.serverEvent sequence text)] ∧
      (l.step event).2.socketOpen = false ∧ (l.step event).2.session.state = .disconnected := by
  unfold receipt? at hreceipt
  split at hreceipt
  · next bytes acknowledges now hphase =>
    split at hreceipt
    · next hopen =>
      obtain rfl := Option.some.inj hreceipt
      obtain rfl : acknowledges = false := hrefused
      have hstep : l.step (.receive (.datagram bytes) false now) =
          ((l.handle bytes false now).1,
            { (l.handle bytes false now).2 with phase := .received }) := by
        simp only [step, hphase, receive, if_pos hopen]
      rw [hstep]
      exact handle_of_refused hopen hmessage
    · cases hreceipt
  · cases hreceipt

/-! ## The theorem -/

/-- **Listeners are told what comes in, and nothing else.** In every run, whatever the network does,
the published messages are those that the session makes of the received datagrams, in order; one
acknowledgement is tried for each message of the server among them; and it is tried at once, before
the message is published. When it is refused, the message is published all the same, from a link
that has lost its socket and its login. -/
theorem listeners_told_as_received (name : String) (endpoint : Endpoint) (now : Nat)
    (events : List LinkEvent) :
    ((start name endpoint now).run events).1.filterMap Effect.message? =
        ((start name endpoint now).receipts events).filterMap Receipt.message? ∧
    ((start name endpoint now).run events).1.filterMap Effect.acknowledgement? =
        (((start name endpoint now).run events).1.filterMap Effect.message?).filterMap
          Message.acknowledgement? ∧
    notices ((start name endpoint now).run events).1 =
        ((start name endpoint now).receipts events).flatMap Receipt.notices ∧
    ∀ (event : LinkEvent) (r : Receipt) (sequence : UInt8) (text : String),
      ((start name endpoint now).run events).2.receipt? event = some r →
      r.message? = some (.serverEvent sequence text) → r.acknowledges = false →
      (((start name endpoint now).run events).2.step event).1 =
          [.sent (.acknowledge sequence) false, .published (.serverEvent sequence text)] ∧
        (((start name endpoint now).run events).2.step event).2.socketOpen = false ∧
        (((start name endpoint now).run events).2.step event).2.session.state = .disconnected :=
  ⟨messages_run events _, acknowledgements_run events _, notices_run events _,
    fun _ _ _ _ hreceipt hmessage hrefused => step_of_refused hreceipt hmessage hrefused⟩

/-- A login that is granted, and a whole round after it. -/
def quietRound : List LinkEvent :=
  [.connect ⟨true, true⟩ 0, .proceed, .receive (.datagram (frame .login [1])) true 1, .proceed,
    .poll ⟨true, true⟩ 2, .proceed, .proceed, .proceed, .proceed]

theorem listeners_told_of_refused :
    (((start "main" localConsole 0).run quietRound).2.step
        (.receive (.datagram (frame .serverMessage [7, 104, 105])) false 3)).1 =
      [.sent (.acknowledge 7) false, .published (.serverEvent 7 "hi")] ∧
    (((start "main" localConsole 0).run quietRound).2.step
        (.receive (.datagram (frame .serverMessage [7, 104, 105])) false 3)).2.socketOpen = false ∧
    (((start "main" localConsole 0).run quietRound).2.step
        (.receive (.datagram (frame .serverMessage [7, 104, 105])) false 3)).2.session.state =
      .disconnected := by
  have hopen : ((start "main" localConsole 0).run quietRound).2.socketOpen = true := by
    decide +kernel
  have hphase : ((start "main" localConsole 0).run quietRound).2.phase = .waiting := by
    decide +kernel
  have hreceipt : ((start "main" localConsole 0).run quietRound).2.receipt?
      (.receive (.datagram (frame .serverMessage [7, 104, 105])) false 3) =
      some ⟨frame .serverMessage [7, 104, 105],
        ((start "main" localConsole 0).run quietRound).2.session, 3, false⟩ := by
    simp only [receipt?, hphase, if_pos hopen]
  apply (listeners_told_as_received "main" localConsole 0 quietRound).2.2.2 _ _ _ _ hreceipt
  · show Receipt.message? _ = some (.serverEvent 7 "hi")
    decide +kernel
  · rfl

end Link

end Switchboard.Admin
