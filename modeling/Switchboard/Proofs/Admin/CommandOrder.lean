import Switchboard.Proofs.Admin.LoginGuard

/-!
# Commands go out in order

A command is at every time in one of three places: it was delivered, it was drained and waits for
its turn in a flush, or it is queued. Read in this order the three places hold what was ever queued,
in the order of queueing (`stream_step`, `stream_run`): a flush takes the whole queue, sends from
the front, and puts what it could not send back in front of what came in meanwhile.

Whatever is tried as a command, a keepalive included, takes the next number (`numbered_step`,
`numbered_run`). Nothing is tried without a socket, so no number is lost: a link that numbers a
command is logged in, and then it has a socket (`Poised`).
-/

namespace Switchboard.Admin

/-! ## Attempts -/

/-- A command, or a keepalive, that was handed to the socket. -/
structure Attempt where
  sequence : UInt8
  text : String
  success : Bool
  deriving DecidableEq, Repr

def Effect.attempt? : Effect → Option Attempt
  | .sent (.command sequence text) success => some ⟨sequence, text, success⟩
  | .sent (.login _) _ | .sent (.acknowledge _) _ | .opened _ | .published _ => none

def attempts (effects : List Effect) : List Attempt :=
  effects.filterMap Effect.attempt?

theorem attempts_append (effects later : List Effect) :
    attempts (effects ++ later) = attempts effects ++ attempts later :=
  List.filterMap_append

/-- The texts that the socket took. -/
def takenTexts (tries : List Attempt) : List String :=
  (tries.filter (·.success)).map (·.text)

/-- The queued commands that the socket took during an event. What an idle check sends is a
keepalive; its text does not tell, for a queued command may be empty as well. -/
def LinkEvent.delivered (event : LinkEvent) (effects : List Effect) : List String :=
  match event with
  | .poll .. => []
  | .proceed | .connect .. | .receive .. | .send .. | .enqueue _ | .stop =>
    takenTexts (attempts effects)

def LinkEvent.enqueued? : LinkEvent → Option String
  | .enqueue text => some text
  | .proceed | .connect .. | .receive .. | .poll .. | .send .. | .stop => none

def enqueuedTexts (events : List LinkEvent) : List String :=
  events.filterMap LinkEvent.enqueued?

namespace Link

variable {l l' : Link} {now : Nat} {effects : List Effect} {event : LinkEvent} {s : Standing}

/-- The queued commands that a run delivers, in the order of sending. -/
def delivered : List LinkEvent → Link → List String
  | [], _ => []
  | event :: events, l => event.delivered (l.step event).1 ++ (l.step event).2.delivered events

/-- The commands that a flush has drained and not sent. -/
def drained (l : Link) : List String :=
  match l.phase with
  | .flushing unsent | .requeueing unsent => unsent
  | .connecting | .looping | .waiting | .received | .polling | .draining | .publishing | .ended =>
    []

/-! ## What leaves queue and numbering alone -/

/-- Queue and numbering are as before. -/
structure Keeps (l l' : Link) : Prop where
  outbox_eq : l'.outbox = l.outbox
  sequence_eq : l'.sequence = l.sequence

theorem keeps_transmits {packet : ClientPacket} {taken : Bool}
    (h : Transmits l now packet taken effects l') : Keeps l l' := by
  cases h with
  | taken hopen => exact ⟨rfl, rfl⟩
  | refused hopen => exact ⟨rfl, rfl⟩
  | untried hclosed => exact ⟨rfl, rfl⟩

/-- A login is no command. -/
theorem keeps_connects (h : Connects l now effects l') : Keeps l l' ∧ attempts effects = [] := by
  refine ⟨?_, h.filterMap_eq_nil (fun _ => rfl) fun _ _ => rfl⟩
  cases h with
  | unopened hclosed => exact ⟨rfl, rfl⟩
  | taken hopening => exact ⟨rfl, rfl⟩
  | refused hopening => exact ⟨rfl, rfl⟩

theorem keeps_handle (bytes : List UInt8) (acknowledges : Bool) (now : Nat) (l : Link) :
    Keeps l (l.handle bytes acknowledges now).2 ∧
      attempts (l.handle bytes acknowledges now).1 = [] := by
  unfold handle
  cases ServerPacket.decode bytes with
  | error defect => exact ⟨⟨rfl, rfl⟩, rfl⟩
  | ok packet =>
    dsimp only
    generalize l.session.onPacket packet now = result
    obtain ⟨inbound, session⟩ := result
    cases inbound with
    | event sequence text =>
      have htransmits := transmits_transmit (.acknowledge sequence) acknowledges now
        { l with session := session }
      have hkeeps := keeps_transmits htransmits
      have hnone : attempts _ = [] := htransmits.filterMap_eq_nil fun _ => rfl
      dsimp only
      rw [attempts_append, hnone]
      exact ⟨⟨hkeeps.outbox_eq, hkeeps.sequence_eq⟩, rfl⟩
    | _ => exact ⟨⟨rfl, rfl⟩, rfl⟩

theorem keeps_receive (arrival : Arrival) (acknowledges : Bool) (now : Nat) (l : Link) :
    Keeps l (l.receive arrival acknowledges now).2 ∧
      attempts (l.receive arrival acknowledges now).1 = [] := by
  unfold receive
  split
  · cases arrival with
    | silence => exact ⟨⟨rfl, rfl⟩, rfl⟩
    | datagram bytes => exact keeps_handle bytes acknowledges now l
    | failure => exact ⟨⟨rfl, rfl⟩, rfl⟩
  · exact ⟨⟨rfl, rfl⟩, rfl⟩

/-- What an idle check hands to the socket as a command is a keepalive. -/
theorem text_poll {attempt : Attempt} {answers : Answers}
    (h : attempt ∈ attempts (l.poll answers now).1) : attempt.text = "" := by
  unfold poll at h
  generalize l.session.poll now = result at h
  obtain ⟨action, session⟩ := result
  cases action with
  | nothing => cases h
  | sendKeepAlive =>
    have htransmits := transmits_transmit (.command l.sequence "") answers.sends now
      ({ l with session := session } : Link).takeSequence.2
    change attempt ∈ attempts (transmit (.command l.sequence "") answers.sends now
      ({ l with session := session } : Link).takeSequence.2).2.1 at h
    generalize transmit (.command l.sequence "") answers.sends now _ = result at htransmits h
    obtain ⟨taken, effects, l'⟩ := result
    cases htransmits with
    | taken hopen => exact List.mem_singleton.1 h ▸ rfl
    | refused hopen => exact List.mem_singleton.1 h ▸ rfl
    | untried hclosed => cases h
  | reconnect =>
    have hnone := (keeps_connects (connects_connect answers now { l with session })).2
    change attempt ∈ attempts (({ l with session := session } : Link).connect answers now).1 at h
    rw [hnone] at h
    cases h

theorem text_step_poll {attempt : Attempt} {answers : Answers}
    (h : attempt ∈ attempts (l.step (.poll answers now)).1) : attempt.text = "" := by
  have hturn := turn_step l (.poll answers now)
  generalize l.step (.poll answers now) = result at hturn h
  obtain ⟨effects, l'⟩ := result
  dsimp only at hturn h
  cases hturn with
  | polled hphase => exact text_poll h
  | idle hevent hcause => cases h

/-! ## Numbering -/

/-- How a step numbers: nothing is tried as a command, or one with the next number. -/
inductive Numbers (l : Link) : List Attempt → Link → Prop where
  | none {l' : Link} (hsequence : l'.sequence = l.sequence) : Numbers l [] l'
  | one {l' : Link} (text : String) (success : Bool) (hsequence : l'.sequence = l.sequence + 1) :
      Numbers l [⟨l.sequence, text, success⟩] l'

/-- With a socket, a command that is sent is tried, with the number that it took. -/
theorem numbers_transmits {sequence : UInt8} {text : String} {taken : Bool}
    (h : Transmits l now (.command sequence text) taken effects l') (hopen : l.socketOpen = true) :
    attempts effects = [⟨sequence, text, taken⟩] ∧ l'.sequence = l.sequence := by
  have hsequence : l'.sequence = l.sequence := (keeps_transmits h).sequence_eq
  cases h with
  | taken _ => exact ⟨rfl, hsequence⟩
  | refused _ => exact ⟨rfl, hsequence⟩
  | untried hclosed =>
    rw [hopen] at hclosed
    cases hclosed

theorem outbox_poll (answers : Answers) (now : Nat) (l : Link) :
    (l.poll answers now).2.outbox = l.outbox := by
  unfold poll
  generalize l.session.poll now = result
  obtain ⟨action, session⟩ := result
  cases action with
  | nothing => rfl
  | sendKeepAlive => exact (keeps_transmits (transmits_transmit _ answers.sends now _)).outbox_eq
  | reconnect => exact (keeps_connects (connects_connect answers now _)).1.outbox_eq

theorem numbers_poll (h : l.Stands s) (answers : Answers) (now : Nat) :
    Numbers l (attempts (l.poll answers now).1) (l.poll answers now).2 := by
  have hpolled := Session.polled_poll l.session now
  unfold poll
  generalize l.session.poll now = result at hpolled ⊢
  obtain ⟨action, session⟩ := result
  dsimp only at hpolled
  have hconnects : Numbers l
      (attempts (({ l with session := session } : Link).connect answers now).1)
      (({ l with session := session } : Link).connect answers now).2 := by
    obtain ⟨hkeeps, hnone⟩ := keeps_connects (connects_connect answers now { l with session })
    rw [hnone]
    exact .none hkeeps.sequence_eq
  have hkeepalive (hopen : l.socketOpen = true) : Numbers l
      (attempts (({ l with session := session } : Link).takeSequence.2.transmit
        (.command l.sequence "") answers.sends now).2.1)
      (({ l with session := session } : Link).takeSequence.2.transmit
        (.command l.sequence "") answers.sends now).2.2 := by
    have htransmits := transmits_transmit (.command l.sequence "") answers.sends now
      ({ l with session := session } : Link).takeSequence.2
    obtain ⟨htried, hsequence⟩ := numbers_transmits htransmits hopen
    rw [htried]
    exact .one "" _ hsequence
  cases hpolled with
  | nothing hexpired => exact .none rfl
  | keepalive hstate hexpired =>
    have hlogged : l.session.state ≠ .disconnected := by
      rw [hstate]
      exact LoginState.noConfusion
    exact hkeepalive (h.socketOpen hlogged)
  | retry hstate => exact hconnects
  | timedOut hexpired => exact hconnects

theorem numbers_send (h : l.Poised s) {text : String} {rest : List String}
    (hphase : l.phase = .flushing (text :: rest)) (success : Bool) (now : Nat) :
    Numbers l (attempts (l.send success now).1) (l.send success now).2 := by
  obtain rfl := h.flushing _ hphase
  obtain ⟨taken, effects, l', htransmits, hsend⟩ := send_flushing hphase success now
  obtain ⟨htried, hsequence⟩ := numbers_transmits htransmits h.socket_eq
  rw [hsend, htried]
  exact .one text taken hsequence

theorem sequence_proceed (l : Link) : l.proceed.sequence = l.sequence := by
  unfold proceed
  split <;> first | rfl | (split <;> rfl)

theorem numbered_step (h : l.Poised s) (event : LinkEvent) :
    Numbers l (attempts (l.step event).1) (l.step event).2 := by
  have hturn := turn_step l event
  generalize l.step event = result at hturn ⊢
  obtain ⟨effects, l'⟩ := result
  dsimp only at hturn ⊢
  cases hturn with
  | enqueued text => exact .none rfl
  | stopped => exact .none rfl
  | proceeded => exact .none (sequence_proceed l)
  | @connected answers now hphase =>
    obtain ⟨hkeeps, hnone⟩ := keeps_connects (connects_connect answers now l)
    rw [hnone]
    exact .none hkeeps.sequence_eq
  | @received arrival acknowledges now hphase =>
    obtain ⟨hkeeps, hnone⟩ := keeps_receive arrival acknowledges now l
    rw [hnone]
    exact .none hkeeps.sequence_eq
  | @polled answers now hphase =>
    have hnumbers := numbers_poll h.toStands answers now
    generalize attempts (l.poll answers now).1 = tries at hnumbers ⊢
    cases hnumbers with
    | none hsequence => exact .none hsequence
    | one text success hsequence => exact .one text success hsequence
  | @sent success now text rest hphase => exact numbers_send h hphase success now
  | idle hevent hcause => exact .none rfl

/-- **The numbers of a run are consecutive**, from the one that the link starts with. -/
theorem numbered_run (h : l.Poised s) (events : List LinkEvent) :
    ∃ n, (attempts (l.run events).1).map (·.sequence) =
      (List.range n).map (fun k => l.sequence + UInt8.ofNat k) := by
  induction events generalizing l s with
  | nil => exact ⟨0, rfl⟩
  | cons event events ih =>
    obtain ⟨m, -, hmiddle⟩ := path_step h event
    obtain ⟨n, hrest⟩ := ih hmiddle
    have hnumbers := numbered_step h event
    rw [run_fst_cons, attempts_append, List.map_append, hrest]
    generalize attempts (l.step event).1 = tries at hnumbers ⊢
    generalize (l.step event).2 = l' at hnumbers ⊢
    cases hnumbers with
    | none hsequence =>
      rw [hsequence]
      exact ⟨n, rfl⟩
    | one text success hsequence =>
      refine ⟨n + 1, ?_⟩
      have hnext (k : Nat) :
          l.sequence + 1 + UInt8.ofNat k = l.sequence + UInt8.ofNat (k + 1) := by
        rw [UInt8.add_assoc, UInt8.ofNat_add, UInt8.add_comm (UInt8.ofNat k)]
        rfl
      -- the first number is taken here, and the others count from the next one
      have hfirst : l.sequence + UInt8.ofNat 0 = l.sequence := UInt8.add_zero l.sequence
      have hothers : (List.range n).map (fun k => l.sequence + 1 + UInt8.ofNat k) =
          ((List.range n).map Nat.succ).map (fun k => l.sequence + UInt8.ofNat k) := by
        rw [List.map_map]
        exact List.map_congr_left fun k _ => hnext k
      rw [hsequence, hothers, List.range_succ_eq_map]
      show l.sequence :: _ = (l.sequence + UInt8.ofNat 0) :: _
      rw [hfirst]
      rfl

/-! ## The stream of commands -/

/-- The commands that a link still has to send, in order. -/
def unsent (l : Link) : List String :=
  l.drained ++ l.outbox

/-- Draining moves the whole queue into the flush, and what is put back goes to its front. -/
theorem unsent_proceed (l : Link) : l.proceed.unsent = l.unsent := by
  cases hphase : l.phase with
  | looping => simp only [proceed, hphase]; split <;> simp [unsent, drained, hphase]
  | received => simp only [proceed, hphase]; split <;> simp [unsent, drained, hphase]
  | draining => simp only [proceed, hphase]; split <;> simp [unsent, drained, hphase]
  | flushing pending => cases pending <;> simp [proceed, unsent, drained, hphase]
  | requeueing pending => simp [proceed, unsent, drained, hphase]
  | publishing => simp [proceed, publish, unsent, drained, hphase]
  | connecting | waiting | polling | ended => simp [proceed, hphase]

/-- A command that is sent leaves the flush; one that is refused stays in it, first in line. -/
theorem stream_send (h : l.Poised s) {text : String} {rest : List String}
    (hphase : l.phase = .flushing (text :: rest)) (success : Bool) (now : Nat) :
    takenTexts (attempts (l.send success now).1) ++ (l.send success now).2.unsent = l.unsent := by
  obtain rfl := h.flushing _ hphase
  obtain ⟨taken, effects, l', htransmits, hsend⟩ := send_flushing hphase success now
  obtain ⟨htried, -⟩ := numbers_transmits htransmits h.socket_eq
  have houtbox : l'.outbox = l.outbox := (keeps_transmits htransmits).outbox_eq
  have hbefore : l.unsent = text :: rest ++ l.outbox := by
    simp only [unsent, drained, hphase]
  rw [hsend, htried, hbefore, ← houtbox]
  cases taken with
  | true => rfl
  | false => rfl

/-- **One step of the stream.** What is delivered leaves at the front, what is queued joins at the
end, and nothing else happens to the commands. -/
theorem stream_step (h : l.Poised s) (event : LinkEvent) :
    event.delivered (l.step event).1 ++ (l.step event).2.unsent =
      l.unsent ++ event.enqueued?.toList := by
  have hturn := turn_step l event
  generalize l.step event = result at hturn ⊢
  obtain ⟨effects, l'⟩ := result
  dsimp only at hturn ⊢
  -- outside a flush nothing is drained, so a step that keeps the queue keeps what is unsent
  have hquiet {m m' : Link} (hm : m.drained = []) (hm' : m'.drained = [])
      (houtbox : m'.outbox = m.outbox) : m'.unsent = m.unsent := by
    rw [unsent, unsent, hm, hm', houtbox]
  cases hturn with
  | enqueued text =>
    show l.drained ++ (l.outbox ++ [text]) = l.drained ++ l.outbox ++ [text]
    rw [List.append_assoc]
  | stopped => exact (List.append_nil l.unsent).symm
  | proceeded =>
    show l.proceed.unsent = l.unsent ++ []
    rw [unsent_proceed, List.append_nil]
  | @connected answers now hphase =>
    obtain ⟨hkeeps, hnone⟩ := keeps_connects (connects_connect answers now l)
    have hdrained : l.drained = [] := by simp only [drained, hphase]
    simp only [LinkEvent.delivered, hnone, LinkEvent.enqueued?, Option.toList_none, List.append_nil]
    exact hquiet hdrained rfl hkeeps.outbox_eq
  | @received arrival acknowledges now hphase =>
    obtain ⟨hkeeps, hnone⟩ := keeps_receive arrival acknowledges now l
    have hdrained : l.drained = [] := by simp only [drained, hphase]
    simp only [LinkEvent.delivered, hnone, LinkEvent.enqueued?, Option.toList_none, List.append_nil]
    exact hquiet hdrained rfl hkeeps.outbox_eq
  | @polled answers now hphase =>
    have hdrained : l.drained = [] := by simp only [drained, hphase]
    simp only [LinkEvent.delivered, LinkEvent.enqueued?, Option.toList_none, List.append_nil]
    exact hquiet hdrained rfl (outbox_poll answers now l)
  | @sent success now text rest hphase =>
    simp only [LinkEvent.delivered, LinkEvent.enqueued?, Option.toList_none, List.append_nil]
    exact stream_send h hphase success now
  | idle hevent hcause =>
    have hnone : event.delivered [] = [] := by
      cases event <;> rfl
    have hqueued : event.enqueued? = none := by
      cases event with
      | enqueue text => exact absurd rfl (hevent text)
      | _ => rfl
    rw [hnone, hqueued, List.nil_append, Option.toList_none, List.append_nil]

/-- **The stream of a run.** -/
theorem stream_run (h : l.Poised s) (events : List LinkEvent) :
    l.delivered events ++ (l.run events).2.unsent = l.unsent ++ enqueuedTexts events := by
  induction events generalizing l s with
  | nil => exact (List.append_nil l.unsent).symm
  | cons event events ih =>
    obtain ⟨m, -, hmiddle⟩ := path_step h event
    have hqueued : enqueuedTexts (event :: events) =
        event.enqueued?.toList ++ enqueuedTexts events := by
      cases hevent : event.enqueued? with
      | none => exact List.filterMap_cons_none hevent
      | some text => exact List.filterMap_cons_some hevent
    calc l.delivered (event :: events) ++ (l.run (event :: events)).2.unsent
        = event.delivered (l.step event).1 ++
            ((l.step event).2.delivered events ++ ((l.step event).2.run events).2.unsent) :=
          List.append_assoc ..
      _ = event.delivered (l.step event).1 ++ (l.step event).2.unsent ++ enqueuedTexts events := by
          rw [ih hmiddle, List.append_assoc]
      _ = l.unsent ++ enqueuedTexts (event :: events) := by
          rw [stream_step h event, hqueued, List.append_assoc]

/-- **Commands go out in order, none lost and none twice.** In every run, whatever the network does
and whenever commands are queued: what was delivered, what a flush has drained and not sent, and
what is queued are together what was ever queued, in that order. What does not count as delivered is
what idle checks send: keepalives, which have the empty text. And the attempts at a command,
keepalives and refused ones included, are numbered from 0 on, modulo 256, over all logins. -/
theorem commands_in_order (name : String) (endpoint : Endpoint) (now : Nat)
    (events : List LinkEvent) :
    (start name endpoint now).delivered events ++
        ((start name endpoint now).run events).2.drained ++
        ((start name endpoint now).run events).2.outbox = enqueuedTexts events ∧
    (∀ front answers later back, events = front ++ .poll answers later :: back →
      ∀ attempt ∈ attempts (((start name endpoint now).run front).2.step (.poll answers later)).1,
        attempt.text = "") ∧
    (attempts ((start name endpoint now).run events).1).map (·.sequence.toNat) =
      (List.range (attempts ((start name endpoint now).run events).1).length).map (· % 256) := by
  have hstart := poised_start name endpoint now
  refine ⟨?_, fun _ _ _ _ _ _ hattempt => text_step_poll hattempt, ?_⟩
  · rw [List.append_assoc]
    exact stream_run hstart events
  · obtain ⟨n, hnumbers⟩ := numbered_run hstart events
    generalize attempts ((start name endpoint now).run events).1 = tries at hnumbers ⊢
    have hlength : tries.length = n := by
      have h := congrArg List.length hnumbers
      rwa [List.length_map, List.length_map, List.length_range] at h
    have hbyte (k : Nat) :
        ((start name endpoint now).sequence + UInt8.ofNat k).toNat = k % 256 := by
      show ((0 : UInt8) + UInt8.ofNat k).toNat = k % 256
      rw [UInt8.zero_add, UInt8.toNat_ofNat']
    calc tries.map (·.sequence.toNat)
        = (tries.map (·.sequence)).map UInt8.toNat := by rw [List.map_map]; rfl
      _ = (List.range tries.length).map (· % 256) := by
          rw [hnumbers, List.map_map, hlength]
          exact List.map_congr_left fun k _ => hbyte k

/-- A round with a login that is granted, up to an idle check. -/
def idleRound : List LinkEvent :=
  [.connect ⟨true, true⟩ 0, .proceed, .receive (.datagram (frame .login [1])) true 1, .proceed]

/-- A check that comes late sends a keepalive, which takes the first number and delivers nothing. -/
theorem commands_in_order_of_keepalive :
    (⟨0, "", true⟩ : Attempt) ∈ attempts (((start "main" localConsole 0).run idleRound).2.step
      (.poll ⟨true, true⟩ 30001)).1 ∧
    (⟨0, "", true⟩ : Attempt).text = "" ∧
    (start "main" localConsole 0).delivered (idleRound ++ [.poll ⟨true, true⟩ 30001]) ++
        ((start "main" localConsole 0).run (idleRound ++ [.poll ⟨true, true⟩ 30001])).2.drained ++
        ((start "main" localConsole 0).run (idleRound ++ [.poll ⟨true, true⟩ 30001])).2.outbox =
      [] := by
  obtain ⟨hstream, hkeepalives, -⟩ := commands_in_order "main" localConsole 0
    (idleRound ++ [.poll ⟨true, true⟩ 30001])
  have hsent : (⟨0, "", true⟩ : Attempt) ∈ attempts
      (((start "main" localConsole 0).run idleRound).2.step (.poll ⟨true, true⟩ 30001)).1 := by
    decide +kernel
  exact ⟨hsent, hkeepalives idleRound ⟨true, true⟩ 30001 [] rfl _ hsent, hstream⟩

end Link

end Switchboard.Admin
