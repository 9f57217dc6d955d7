import Mathlib.Data.List.DropRight
import Switchboard.Proofs.Admin.LinkSteps
import Switchboard.Proofs.Admin.SessionRun

/-!
# Idle times

A session keeps the time of the last sign of life and whether a keepalive was sent since then. Six
kinds of events change the two, each in its own way: a failure of the network sets the time and
leaves the flag, a packet that does not fit leaves both. This module reads the two off the history
instead, and shows that polls answer accordingly:

* **`history`**: what happened to a session, and what it answered.
* **`lastSign`**, **`quiet`**: the time of the last sign of life in a history, and what came after.
* **`Tracks`**: the time that a session keeps is the one of its history, and so is the flag as long
  as there is a login that it matters for. After a failure the flag may be stale; it is a new login
  that clears it, and there is no keepalive before one. One event keeps this (`Tracks.concat`).
* **`timers_follow_history`**: what polls answer, in terms of the history alone.
-/

namespace Switchboard.Admin

/-- Something that happened to a session, with its answer. -/
structure SessionRecord where
  event : SessionEvent
  answer : SessionAnswer
  deriving DecidableEq, Repr

namespace SessionRecord

/-- Whether the idle time starts again. -/
def isSign : SessionRecord → Bool
  | ⟨.connect _, _⟩ | ⟨.socketError _, _⟩ => true
  | ⟨_, .received inbound⟩ => inbound ≠ .ignored
  | _ => false

/-- Whether a retry has to wait: the network failed, or a login was rejected. -/
def isFailure : SessionRecord → Bool
  | ⟨.socketError _, _⟩ | ⟨_, .received .loginRejected⟩ => true
  | _ => false

end SessionRecord

namespace Session

variable {s : Session} {timings : Timings} {begun now : Nat} {event : SessionEvent}
  {events : List SessionEvent} {record : SessionRecord} {records : List SessionRecord}

/-- What happens to a session in a run, each event with its answer. -/
def history (s : Session) : List SessionEvent → List SessionRecord
  | [] => []
  | event :: events => ⟨event, (s.step event).1⟩ :: history (s.step event).2 events

/-- The time of the last sign of life, or of the beginning if there is none. -/
def lastSign (begun : Nat) (records : List SessionRecord) : Nat :=
  ((records.filter SessionRecord.isSign).getLast?.map (·.event.time)).getD begun

/-- What happened since the last sign of life. -/
def quiet (records : List SessionRecord) : List SessionRecord :=
  records.rtakeWhile (!·.isSign)

/-- A keepalive was sent since the last sign of life. -/
def KeptAlive (records : List SessionRecord) : Prop :=
  ∃ record ∈ quiet records, record.answer = .due .sendKeepAlive

instance (records : List SessionRecord) : Decidable (KeptAlive records) :=
  inferInstanceAs (Decidable (∃ record ∈ quiet records, record.answer = .due .sendKeepAlive))

/-! ## Histories -/

theorem history_append (events events' : List SessionEvent) (s : Session) :
    s.history (events ++ events') = s.history events ++ (s.run events).history events' := by
  induction events generalizing s with
  | nil => rfl
  | cons event events ih => exact congrArg (_ :: ·) (ih (s.step event).2)

theorem map_event_history (events : List SessionEvent) (s : Session) :
    (s.history events).map (·.event) = events := by
  induction events generalizing s with
  | nil => rfl
  | cons event events ih => exact congrArg (event :: ·) (ih (s.step event).2)

/-- A record of a history is the answer to an event of the run, given after the events before it. -/
theorem exists_of_history_eq {front back : List SessionRecord}
    (h : s.history events = front ++ record :: back) :
    ∃ before after, events = before ++ record.event :: after ∧ s.history before = front ∧
      ((s.run before).step record.event).1 = record.answer ∧
      ((s.run before).step record.event).2.history after = back := by
  induction front generalizing s events with
  | nil =>
    cases events with
    | nil => cases h
    | cons event events =>
      obtain ⟨rfl, hback⟩ := List.cons.inj h
      exact ⟨[], events, rfl, rfl, rfl, hback⟩
  | cons first front ih =>
    cases events with
    | nil => cases h
    | cons event events =>
      obtain ⟨rfl, hrest⟩ := List.cons.inj h
      obtain ⟨before, after, rfl, hfront, hanswer, hback⟩ := ih hrest
      exact ⟨event :: before, after, rfl, congrArg (_ :: ·) hfront, hanswer, hback⟩

theorem lastSign_concat (begun : Nat) (records : List SessionRecord) (record : SessionRecord) :
    lastSign begun (records ++ [record]) =
      if record.isSign then record.event.time else lastSign begun records := by
  unfold lastSign
  rw [List.filter_append, List.filter_singleton]
  cases record.isSign <;> simp

theorem keptAlive_concat :
    KeptAlive (records ++ [record]) ↔
      record.isSign = false ∧ (KeptAlive records ∨ record.answer = .due .sendKeepAlive) := by
  unfold KeptAlive quiet
  rw [List.rtakeWhile_concat]
  cases record.isSign <;> simp [or_and_right, exists_or]

/-- A keepalive without a sign of life behind it was sent since the last one. -/
theorem keptAlive_of_quiet {front back : List SessionRecord}
    (hanswer : record.answer = .due .sendKeepAlive) (hsign : record.isSign = false)
    (hback : ∀ r ∈ back, r.isSign = false) : KeptAlive (front ++ record :: back) := by
  induction back using List.reverseRecOn with
  | nil => exact keptAlive_concat.2 ⟨hsign, Or.inr hanswer⟩
  | append_singleton back last ih =>
    rw [← List.cons_append, ← List.append_assoc, keptAlive_concat]
    refine ⟨hback last (by simp), Or.inl (ih fun r hr => hback r (by simp [hr]))⟩

theorem le_lastSign {records : List SessionRecord}
    (htimes : records.Pairwise fun r r' => r.event.time ≤ r'.event.time)
    (hmem : record ∈ records) (hsign : record.isSign = true) :
    record.event.time ≤ lastSign begun records := by
  induction records using List.reverseRecOn with
  | nil => cases hmem
  | append_singleton records last ih =>
    rw [lastSign_concat]
    obtain ⟨hbefore, -, hlast⟩ := List.pairwise_append.1 htimes
    rcases List.mem_append.1 hmem with hold | hnew
    · split
      · exact hlast record hold last (List.mem_singleton_self last)
      · exact ih hbefore hold
    · cases List.mem_singleton.1 hnew
      rw [if_pos hsign]

theorem lastSign_le (hbegun : begun ≤ now) (h : ∀ r ∈ records, r.event.time ≤ now) :
    lastSign begun records ≤ now := by
  induction records using List.reverseRecOn with
  | nil => exact hbegun
  | append_singleton records last ih =>
    rw [lastSign_concat]
    split
    · exact h last (by simp)
    · exact ih fun r hr => h r (by simp [hr])

/-! ## What an event does to the time and the flag -/

/-- What an event is answered with, and what becomes of the session. -/
inductive Responds (s : Session) : SessionEvent → SessionAnswer → Session → Prop where
  | connected (now : Nat) : Responds s (.connect now) .done (s.connect now)
  | failed (now : Nat) : Responds s (.socketError now) .done (s.onSocketError now)
  | heard {event : SessionEvent} {packet : ServerPacket} {inbound : Inbound} {s' : Session}
      (hpacket : event.packet? = some packet) (hheard : Heard s event.time packet inbound s') :
      Responds s event (.received inbound) s'
  | dropped (bytes : List UInt8) (now : Nat) (defect : Defect) :
      Responds s (.datagram bytes now) (.dropped defect) s
  | polled {now : Nat} {action : IdleAction} {s' : Session} (hpolled : Polled s now action s') :
      Responds s (.poll now) (.due action) s'

theorem responds_step (event : SessionEvent) (s : Session) :
    Responds s event (s.step event).1 (s.step event).2 := by
  cases event with
  | connect now => exact .connected now
  | socketError now => exact .failed now
  | packet packet now => exact .heard rfl (heard_onPacket s packet now)
  | datagram bytes now =>
    rw [step]
    split
    · exact .dropped bytes now _
    · next packet hdecode =>
      refine .heard ?_ (heard_onPacket s packet now)
      rw [SessionEvent.packet?, hdecode, Except.toOption]
  | poll now => exact .polled (polled_poll s now)

variable {answer : SessionAnswer} {s' : Session}

theorem Responds.timings_eq (h : Responds s event answer s') : s'.timings = s.timings := by
  cases h with
  | connected now | failed now | dropped bytes now defect => rfl
  | heard hpacket hheard => cases hheard <;> rfl
  | polled hpolled => cases hpolled <;> rfl

/-- What a packet means for the idle time, and for a retry. -/
theorem sign_received {packet : ServerPacket} (h : event.packet? = some packet)
    (inbound : Inbound) :
    SessionRecord.isSign ⟨event, .received inbound⟩ = decide (inbound ≠ .ignored) ∧
      SessionRecord.isFailure ⟨event, .received inbound⟩ = decide (inbound = .loginRejected) := by
  cases event with
  | packet packet now | datagram bytes now => cases inbound <;> exact ⟨rfl, rfl⟩
  | connect now | socketError now | poll now => cases h

/-- How the time and the flag of a session move along with a record. -/
structure Clocked (s s' : Session) (record : SessionRecord) : Prop where
  lastActivity_eq :
    s'.lastActivity = if record.isSign then record.event.time else s.lastActivity
  keepaliveSent_iff : s'.state ≠ .disconnected →
    (s'.keepaliveSent = true ↔ record.isSign = false ∧
      (s.keepaliveSent = true ∨ record.answer = .due .sendKeepAlive))
  /-- Only a sign of life leads to a login. -/
  state_ne : s'.state ≠ .disconnected → record.isSign = false → s.state ≠ .disconnected

theorem Responds.clocked (h : Responds s event answer s') : Clocked s s' ⟨event, answer⟩ := by
  cases h with
  | connected now => exact ⟨rfl, fun _ => by simp [connect, SessionRecord.isSign], nofun⟩
  | failed now => exact ⟨rfl, fun h => absurd rfl h, nofun⟩
  | dropped bytes now defect =>
    exact ⟨rfl, fun _ => by simp [SessionRecord.isSign], fun h _ => h⟩
  | heard hpacket hheard =>
    have hsign (inbound : Inbound) := (sign_received hpacket inbound).1
    cases hheard with
    | ignored hfits => exact ⟨by rw [hsign]; rfl, fun _ => by simp [hsign], fun h _ => h⟩
    | accepted hstate | rejected hstate | response hstate | stored hstate | event hstate =>
      exact ⟨by rw [hsign]; rfl, fun _ => by simp [hsign, touch], fun _ => by simp [hsign]⟩
  | polled hpolled =>
    cases hpolled with
    | nothing hexpired => exact ⟨rfl, fun _ => by simp [SessionRecord.isSign], fun h _ => h⟩
    | keepalive hstate hexpired =>
      exact ⟨rfl, fun _ => by simp [SessionRecord.isSign], fun h _ => h⟩
    | retry hstate => exact ⟨rfl, fun h => absurd hstate h, fun h _ => h⟩
    | timedOut hexpired => exact ⟨rfl, fun h => absurd rfl h, fun h _ => absurd rfl h⟩

/-! ## Sessions that track their history -/

/-- The time that a session keeps is that of its history, and so is the flag while there is a
login. -/
structure Tracks (timings : Timings) (begun : Nat) (records : List SessionRecord) (s : Session) :
    Prop where
  timings_eq : s.timings = timings
  lastActivity_eq : s.lastActivity = lastSign begun records
  keepaliveSent_iff : s.state ≠ .disconnected → (s.keepaliveSent = true ↔ KeptAlive records)

theorem tracks_start (timings : Timings) (begun : Nat) :
    Tracks timings begun [] (start timings begun) :=
  ⟨rfl, rfl, fun h => absurd rfl h⟩

theorem Tracks.concat (h : Tracks timings begun records s) (event : SessionEvent) :
    Tracks timings begun (records ++ [⟨event, (s.step event).1⟩]) (s.step event).2 := by
  have hresponds := responds_step event s
  have hclocked := hresponds.clocked
  refine ⟨hresponds.timings_eq.trans h.timings_eq, ?_, fun hstate => ?_⟩
  · rw [hclocked.lastActivity_eq, lastSign_concat, h.lastActivity_eq]
  · rw [hclocked.keepaliveSent_iff hstate, keptAlive_concat]
    -- without a sign of life there was a login before, for which the flag was right
    exact and_congr_right fun hsign =>
      or_congr_left (h.keepaliveSent_iff (hclocked.state_ne hstate hsign))

theorem tracks_run (timings : Timings) (begun : Nat) (events : List SessionEvent) :
    Tracks timings begun ((start timings begun).history events)
      ((start timings begun).run events) := by
  induction events using List.reverseRecOn with
  | nil => exact tracks_start timings begun
  | append_singleton events event ih =>
    rw [history_append, run_append]
    exact ih.concat event

/-! ## Polls -/

theorem poll_eq_reconnect_iff :
    (s.poll now).1 = .reconnect ↔
      (s.state = .disconnected ∧ s.timings.receiveTimeout ≤ now - s.lastActivity) ∨
      (s.state ≠ .disconnected ∧ s.timings.timeout ≤ now - s.lastActivity) := by
  obtain ⟨state, timings, lastActivity, keepaliveSent, reassembly⟩ := s
  cases state <;> simp only [poll] <;> grind

theorem poll_eq_sendKeepAlive_iff :
    (s.poll now).1 = .sendKeepAlive ↔
      s.state = .loggedIn ∧ s.timings.keepalive ≤ now - s.lastActivity ∧
        now - s.lastActivity < s.timings.timeout ∧ s.keepaliveSent = false := by
  obtain ⟨state, timings, lastActivity, keepaliveSent, reassembly⟩ := s
  cases state <;> simp only [poll] <;> grind

/-- Only a poll is answered by what is due. -/
theorem eq_poll_of_due {action : IdleAction} (h : (s.step event).1 = .due action) :
    ∃ now, event = .poll now ∧ (s.poll now).1 = action := by
  have hresponds := responds_step event s
  rw [h] at hresponds
  generalize (s.step event).2 = s' at hresponds
  cases hresponds with
  | @polled now _ _ hpolled =>
    cases h
    exact ⟨now, rfl, rfl⟩

theorem Polled.state_of_reconnect (h : Polled s now .reconnect s') : s'.state = .disconnected := by
  cases h with
  | retry hstate => exact hstate
  | timedOut hexpired => rfl

theorem Polled.state_of_ne {action : IdleAction} (h : Polled s now action s')
    (hne : action ≠ .reconnect) : s'.state = s.state := by
  cases h with
  | nothing hexpired => rfl
  | keepalive hstate hexpired => rfl
  | retry hstate => exact absurd rfl hne
  | timedOut hexpired => exact absurd rfl hne

/-! ## Keepalives and retries -/

/-- Between two keepalives there is a sign of life. -/
theorem exists_sign_between {front between back : List SessionRecord} {record' : SessionRecord}
    (h : (start timings begun).history events =
      front ++ record :: (between ++ record' :: back))
    (hfirst : record.answer = .due .sendKeepAlive)
    (hsecond : record'.answer = .due .sendKeepAlive) : ∃ r ∈ between, r.isSign = true := by
  by_contra hnone
  obtain ⟨before, -, -, -, hanswer, -⟩ := exists_of_history_eq h
  obtain ⟨now, hpoll, -⟩ := eq_poll_of_due (hanswer.trans hfirst)
  have hquiet : record.isSign = false := by
    obtain ⟨event, answer⟩ := record
    cases hpoll
    cases hfirst
    rfl
  have hkept : KeptAlive (front ++ record :: between) :=
    keptAlive_of_quiet hfirst hquiet fun r hr =>
      Bool.eq_false_iff.2 fun hsign => hnone ⟨r, hr, hsign⟩
  -- but at the second one the flag is not set
  rw [← List.cons_append, ← List.append_assoc] at h
  obtain ⟨before', -, -, hbefore', hanswer', -⟩ := exists_of_history_eq h
  obtain ⟨now', -, hpoll'⟩ := eq_poll_of_due (hanswer'.trans hsecond)
  obtain ⟨hstate, -, -, hflag⟩ := poll_eq_sendKeepAlive_iff.1 hpoll'
  have htracks := tracks_run timings begun before'
  rw [hbefore'] at htracks
  rw [(htracks.keepaliveSent_iff (by rw [hstate]; nofun)).2 hkept] at hflag
  cases hflag

theorem Responds.of_isFailure (h : Responds s event answer s')
    (hfailure : SessionRecord.isFailure ⟨event, answer⟩ = true) :
    s'.state = .disconnected ∧ SessionRecord.isSign ⟨event, answer⟩ = true := by
  cases h with
  | connected now => cases hfailure
  | failed now => exact ⟨rfl, rfl⟩
  | dropped bytes now defect => cases hfailure
  | polled hpolled => cases hfailure
  | heard hpacket hheard =>
    -- of what a packet can mean, only a rejected login is a failure
    obtain ⟨hsign, hrejected⟩ := sign_received hpacket _
    rw [hfailure, eq_comm, decide_eq_true_eq] at hrejected
    subst hrejected
    cases hheard with
    | rejected hstate => exact ⟨rfl, hsign⟩

/-- Who is not logged in stays so without a new login. -/
theorem Responds.disconnected (h : Responds s event answer s') (hstate : s.state = .disconnected)
    (hconnect : ∀ now, event ≠ .connect now) : s'.state = .disconnected := by
  cases h with
  | connected now => exact absurd rfl (hconnect now)
  | failed now => rfl
  | dropped bytes now defect => exact hstate
  | heard hpacket hheard =>
    cases hheard with
    | ignored hfits => exact hstate
    | rejected _ => rfl
    | accepted hother | response hother | stored hother | event hother =>
      rw [hstate] at hother
      cases hother
  | @polled now action s' hpolled =>
    by_cases hdue : action = .reconnect
    · subst hdue
      exact hpolled.state_of_reconnect
    · exact (hpolled.state_of_ne hdue).trans hstate

theorem run_disconnected (hstate : s.state = .disconnected)
    (h : ∀ event ∈ events, ∀ now, event ≠ .connect now) :
    (s.run events).state = .disconnected := by
  induction events generalizing s with
  | nil => exact hstate
  | cons event events ih =>
    have hnext : (s.step event).2.state = .disconnected :=
      (responds_step event s).disconnected hstate (h event List.mem_cons_self)
    exact ih hnext fun e he => h e (List.mem_cons_of_mem _ he)

/-- After a failure no poll asks for a new attempt before the receive timeout. -/
theorem receiveTimeout_le {front back : List SessionRecord}
    (htimes : events.Pairwise fun e e' => e.time ≤ e'.time)
    (h : (start timings begun).history events = front ++ record :: back)
    (hfailure : record.isFailure = true)
    (hconnect : ∀ r ∈ back, ∀ now, r.event ≠ .connect now)
    (hpoll : (((start timings begun).run events).poll now).1 = .reconnect) :
    timings.receiveTimeout ≤ now - record.event.time := by
  obtain ⟨before, after, hevents, -, hanswer, hback⟩ := exists_of_history_eq h
  have hresponds := responds_step record.event ((start timings begun).run before)
  rw [hanswer] at hresponds
  obtain ⟨hdown, hsign⟩ := hresponds.of_isFailure hfailure
  have hstate : ((start timings begun).run events).state = .disconnected := by
    rw [hevents, run_append]
    show ((((start timings begun).run before).step record.event).2.run after).state = _
    refine run_disconnected hdown fun event hevent now => ?_
    rw [← map_event_history after, hback] at hevent
    obtain ⟨r, hr, rfl⟩ := List.mem_map.1 hevent
    exact hconnect r hr now
  have htracks := tracks_run timings begun events
  rcases poll_eq_reconnect_iff.1 hpoll with ⟨-, hwait⟩ | ⟨hother, -⟩
  · rw [htracks.timings_eq, htracks.lastActivity_eq] at hwait
    have hlast : record.event.time ≤ lastSign begun ((start timings begun).history events) := by
      have hmem : record ∈ (start timings begun).history events := by
        rw [h]
        exact List.mem_append_right front List.mem_cons_self
      rw [← map_event_history events (start timings begun), List.pairwise_map] at htimes
      exact le_lastSign htimes hmem hsign
    omega
  · exact absurd hstate hother

/-! ## The theorem -/

/-- **Timers follow the history.** Take any waiting times and any run at non-decreasing times, and
the time that has passed at a later moment since the last sign of life: the beginning, a login that
was sent, a failure of the network, or a packet that was not ignored. A poll at that moment asks for
a new attempt exactly if the session is not logged in and the receive timeout has passed, or there
is a login, sent or granted, and the timeout has passed. It asks for a keepalive exactly if the
session is logged in, the keepalive time has passed and the timeout has not, and none was asked for
since the last sign of life. Otherwise nothing is due. A session that is to make a new attempt is
not logged in; any other one is left as it stands, and if there is a login then the timeout has not
passed. Between two keepalives there is a sign of life, and after a rejected login or a failure of
the network no poll asks for a new attempt before the receive timeout has passed. -/
theorem timers_follow_history (timings : Timings) (begun : Nat) (events : List SessionEvent)
    (now : Nat) (htimes : (begun :: (events.map SessionEvent.time ++ [now])).Pairwise (· ≤ ·)) :
    let s := (start timings begun).run events
    let records := (start timings begun).history events
    let idle := now - lastSign begun records
    lastSign begun records ≤ now ∧
    ((s.poll now).1 = .reconnect ↔ (s.state = .disconnected ∧ timings.receiveTimeout ≤ idle) ∨
      (s.state ≠ .disconnected ∧ timings.timeout ≤ idle)) ∧
    ((s.poll now).1 = .sendKeepAlive ↔ s.state = .loggedIn ∧ timings.keepalive ≤ idle ∧
      idle < timings.timeout ∧ ¬ KeptAlive records) ∧
    ((s.poll now).1 = .reconnect → (s.poll now).2.state = .disconnected) ∧
    ((s.poll now).1 ≠ .reconnect → (s.poll now).2.state = s.state) ∧
    ((s.poll now).2.state ≠ .disconnected → idle < timings.timeout) ∧
    (∀ front record between record' back,
      records = front ++ record :: (between ++ record' :: back) →
      record.answer = .due .sendKeepAlive → record'.answer = .due .sendKeepAlive →
      ∃ r ∈ between, r.isSign = true) ∧
    (∀ front record back, records = front ++ record :: back → record.isFailure = true →
      (∀ r ∈ back, ∀ t, r.event ≠ .connect t) → (s.poll now).1 = .reconnect →
      timings.receiveTimeout ≤ now - record.event.time) := by
  intro s records idle
  obtain ⟨hbegun, hrest⟩ := List.pairwise_cons.1 htimes
  obtain ⟨hsorted, -, hlast⟩ := List.pairwise_append.1 hrest
  have hevents : events.Pairwise fun e e' => e.time ≤ e'.time := List.pairwise_map.1 hsorted
  have htracks : Tracks timings begun records s := tracks_run timings begun events
  have hidle : now - s.lastActivity = idle := by rw [htracks.lastActivity_eq]
  have hreconnect := @poll_eq_reconnect_iff s now
  have hkeepalive := @poll_eq_sendKeepAlive_iff s now
  rw [hidle, htracks.timings_eq] at hreconnect hkeepalive
  have hpolled := polled_poll s now
  refine ⟨?_, hreconnect, ?_, fun h => ?_, fun h => hpolled.state_of_ne h, fun h => ?_,
    fun front record between record' back h => exists_sign_between h,
    fun front record back h => receiveTimeout_le hevents h⟩
  · refine lastSign_le (hbegun now (by simp)) fun r hr => ?_
    have hmem : r.event ∈ events := by
      rw [← map_event_history events (start timings begun)]
      exact List.mem_map_of_mem hr
    exact hlast r.event.time (List.mem_map_of_mem hmem) now (List.mem_singleton_self now)
  · rw [hkeepalive]
    refine and_congr_right fun hstate => and_congr_right fun _ => and_congr_right fun _ => ?_
    -- who is logged in has a flag that is right
    rw [← htracks.keepaliveSent_iff (by rw [hstate]; nofun), Bool.not_eq_true]
  · rw [h] at hpolled
    exact hpolled.state_of_reconnect
  · have hdue : (s.poll now).1 ≠ .reconnect := by
      intro hdue
      rw [hdue] at hpolled
      exact h hpolled.state_of_reconnect
    rw [hpolled.state_of_ne hdue] at h
    by_contra hlong
    exact hdue (hreconnect.2 (Or.inr ⟨h, by omega⟩))

/-- A login that is granted, and then silence. -/
def silentRun : List SessionEvent :=
  [.connect 0, .packet (.loginResponse true) 1, .poll 5000]

/-- A login that is rejected. -/
def rejectedRun : List SessionEvent :=
  [.connect 0, .packet (.loginResponse false) 1]

/-- A keepalive at the first moment at which it is due, and a new attempt at the first moment at
which one may be made. -/
theorem timers_follow_history_to_the_moment :
    (0 :: (silentRun.map SessionEvent.time ++ [30001])).Pairwise (· ≤ ·) ∧
    (((start ⟨30000, 45000, 5000, 120000⟩ 0).run silentRun).poll 30001).1 = .sendKeepAlive ∧
    (0 :: (rejectedRun.map SessionEvent.time ++ [5001])).Pairwise (· ≤ ·) ∧
    (((start ⟨30000, 45000, 5000, 120000⟩ 0).run rejectedRun).poll 5001).1 = .reconnect := by
  have hsilent : (0 :: (silentRun.map SessionEvent.time ++ [30001])).Pairwise (· ≤ ·) := by decide
  have hrejected : (0 :: (rejectedRun.map SessionEvent.time ++ [5001])).Pairwise (· ≤ ·) := by
    decide
  obtain ⟨-, -, hkeepalive, -⟩ :=
    timers_follow_history ⟨30000, 45000, 5000, 120000⟩ 0 silentRun 30001 hsilent
  obtain ⟨-, hreconnect, -⟩ :=
    timers_follow_history ⟨30000, 45000, 5000, 120000⟩ 0 rejectedRun 5001 hrejected
  refine ⟨hsilent, hkeepalive.2 ?_, hrejected, hreconnect.2 (Or.inl ?_)⟩
  · decide +kernel
  · decide +kernel

end Session

end Switchboard.Admin
