import Switchboard.Proofs.Admin.Reassembly
import Switchboard.Proofs.Admin.SessionRun

/-!
# Where the parts of an answer come from

An answer in parts is handed out when its last part comes. A login and a failure of the network
leave the parts that are held by then, and an idle check drops the answers that are too old and no
others, also when it finds the session timed out. Apart from its age, only a part for the same
sequence number can end what is held: it completes the answer, or names another number of parts. A
part that came before a login can therefore end up in an answer that is handed out after it. This
module says which parts can:

* **`Came`**: a part with its place and data came in a run, to a session that was logged in.
* **`Reassembly.Holds`**: a reassembly holds a part. One step adds the part that comes and no other
  (`holds_step`), so what is held after a run came in it or was held before (`came_or_holds_run`).
* **`held_step_of_young`**: what is not too old is held on, until a part for its sequence number
  comes.
* **`LeftOver`**: a part is held at a login, in an answer that is not too old by then. A login
  leaves what is held, so a part that is joined later came since then or was left over
  (`came_or_leftOver`).
-/

namespace Switchboard.Admin

/-- A part of an answer: its place and its data. -/
abbrev AnswerPart := UInt8 × List UInt8

variable {q total : UInt8} {p : AnswerPart} {now started : Nat}

/-- Whether an event brings a part of the answer with a sequence number. -/
def SessionEvent.BringsPart (event : SessionEvent) (q : UInt8) : Prop :=
  ∃ part data, event.packet? = some (.commandResponse q (some part) data)

/-! ## Parts that are held -/

namespace Reassembly

variable {r : Reassembly}

/-- A part is held, in an answer with this many parts the first of which came at `started`. -/
def Holds (r : Reassembly) (q total : UInt8) (started : Nat) (p : AnswerPart) : Prop :=
  ∃ a, r.held[q]? = some a ∧ a.total = total ∧ a.started = started ∧ a.parts[p.1]? = some p.2

/-- What is held after a sweep was held before it, and is not too old. -/
theorem holds_sweep (h : (r.sweep now).Holds q total started p) :
    r.Holds q total started p ∧ now - started < r.ttl := by
  obtain ⟨a, ha, htotal, rfl, hp⟩ := h
  rw [getElem?_sweep] at ha
  obtain ⟨hbefore, hyoung⟩ := Option.filter_eq_some_iff.1 ha
  exact ⟨⟨a, hbefore, htotal, rfl, hp⟩, of_decide_eq_true hyoung⟩

/-- A part belongs to an answer with the number of parts that it names. -/
theorem answerWith_total (q total index : UInt8) (data : List UInt8) (now : Nat)
    (r : Reassembly) : (r.answerWith q total index data now).total = total := by
  unfold answerWith answerFor
  dsimp only
  split
  · split
    · assumption
    · rfl
  · rfl

/-- The parts that a part joins were held before, in an answer with as many parts. -/
theorem holds_of_answerWith {index : UInt8} {data : List UInt8}
    (hp : (r.answerWith q total index data now).parts[p.1]? = some p.2) :
    p = (index, data) ∨
      ∃ started, r.Holds q total started p ∧ now - started < r.ttl ∧
        started = (r.answerWith q total index data now).started := by
  unfold answerWith answerFor at hp ⊢
  dsimp only at hp ⊢
  rw [Std.ExtTreeMap.getElem?_insert] at hp
  split at hp
  · next hplace =>
    left
    cases hp
    rw [Std.LawfulEqOrd.compare_eq_iff_eq.1 hplace]
  · right
    -- the parts of an answer that starts afresh are none
    cases ha : (r.sweep now).held[q]? with
    | none => simp [ha] at hp
    | some a =>
      by_cases htotal : a.total = total
      · simp only [ha, htotal, ↓reduceIte] at hp ⊢
        have hheld : (r.sweep now).Holds q total a.started p := ⟨a, ha, htotal, rfl, hp⟩
        obtain ⟨hbefore, hyoung⟩ := holds_sweep hheld
        exact ⟨a.started, hbefore, hyoung, rfl⟩
      · simp [ha, htotal] at hp

/-- What is held after a part came is that part, or was held before. -/
theorem holds_insert {sequence total' index : UInt8} {data : List UInt8}
    (h : (r.insert sequence total' index data now).2.Holds q total started p) :
    (sequence = q ∧ total' = total ∧ p = (index, data)) ∨ r.Holds q total started p := by
  by_cases hq : sequence = q
  · subst hq
    obtain ⟨a, ha, htotal, hstarted, hp⟩ := h
    by_cases hlt : (r.answerWith sequence total' index data now).parts.size < total'.toNat
    · rw [(insert_of_lt hlt).2] at ha
      cases ha
      rw [answerWith_total] at htotal
      subst htotal
      rcases holds_of_answerWith hp with rfl | ⟨since, hbefore, -, hsince⟩
      · exact Or.inl ⟨rfl, rfl, rfl⟩
      · exact Or.inr (hstarted ▸ hsince ▸ hbefore)
    · rw [(insert_of_not_lt hlt).2] at ha
      cases ha
  · right
    obtain ⟨a, ha, hrest⟩ := h
    rw [getElem?_insert_of_ne hq] at ha
    exact (holds_sweep ⟨a, ha, hrest⟩).1

end Reassembly

namespace Session

variable {s : Session} {event : SessionEvent} {events : List SessionEvent}

/-- What is held after an event was held before it, or is the part that the event has brought to a
session that is logged in. -/
theorem holds_step (h : (s.step event).2.reassembly.Holds q total started p) :
    (s.state = .loggedIn ∧
        event.packet? = some (.commandResponse q (some ⟨total, p.1⟩) p.2)) ∨
      s.reassembly.Holds q total started p := by
  rcases reassembly_step event s with
    hsame | hswept | ⟨sequence, part, data, hstate, hpacket, hpart⟩
  · rw [hsame] at h
    exact Or.inr h
  · rw [hswept] at h
    exact Or.inr (Reassembly.holds_sweep h).1
  · rw [hpart] at h
    rcases Reassembly.holds_insert h with ⟨rfl, rfl, rfl⟩ | hbefore
    · exact Or.inl ⟨hstate, hpacket⟩
    · exact Or.inr hbefore

/-- What is not too old is held on, until a part for its sequence number comes. -/
theorem held_step_of_young {a : PartialAnswer} (hpart : ¬ event.BringsPart q)
    (hheld : s.reassembly.held[q]? = some a) (hyoung : event.time - a.started < s.reassembly.ttl) :
    (s.step event).2.reassembly.held[q]? = some a := by
  have hswept : (s.reassembly.sweep event.time).held[q]? = some a := by
    rw [Reassembly.getElem?_sweep, Option.filter_eq_some_iff]
    exact ⟨hheld, decide_eq_true hyoung⟩
  rcases reassembly_step event s with hsame | hsweep | ⟨sequence, part, data, -, hpacket, hinsert⟩
  · rw [hsame]
    exact hheld
  · rw [hsweep]
    exact hswept
  · have hother : sequence ≠ q := by
      rintro rfl
      exact hpart ⟨part, data, hpacket⟩
    rw [hinsert, Reassembly.getElem?_insert_of_ne hother]
    exact hswept

/-- An idle check drops what is too old, and nothing else. -/
theorem held_poll_iff {a : PartialAnswer} :
    (s.poll now).2.reassembly.held[q]? = some a ↔
      s.reassembly.held[q]? = some a ∧ now - a.started < s.reassembly.ttl := by
  rw [poll_reassembly, Reassembly.getElem?_sweep, Option.filter_eq_some_iff, decide_eq_true_eq]

/-! ## Parts that came -/

/-- A part came in a run, to a session that was logged in. -/
def Came (s : Session) (events : List SessionEvent) (q total : UInt8) (p : AnswerPart) : Prop :=
  ∃ front event back, events = front ++ event :: back ∧ (s.run front).state = .loggedIn ∧
    event.packet? = some (.commandResponse q (some ⟨total, p.1⟩) p.2)

theorem Came.append_right (h : Came s events q total p) (later : List SessionEvent) :
    Came s (events ++ later) q total p := by
  obtain ⟨front, event, back, rfl, hstate, hpacket⟩ := h
  exact ⟨front, event, back ++ later, by rw [List.append_assoc]; rfl, hstate, hpacket⟩

theorem came_concat (hstate : (s.run events).state = .loggedIn)
    (hpacket : event.packet? = some (.commandResponse q (some ⟨total, p.1⟩) p.2)) :
    Came s (events ++ [event]) q total p :=
  ⟨events, event, [], rfl, hstate, hpacket⟩

/-- **What is held after a run came in it**, or was held before. -/
theorem came_or_holds_run (h : (s.run events).reassembly.Holds q total started p) :
    Came s events q total p ∨ s.reassembly.Holds q total started p := by
  induction events using List.reverseRecOn with
  | nil => exact Or.inr h
  | append_singleton events event ih =>
    rw [run_append] at h
    -- the last event has brought the part, or the part was held before that event
    rcases holds_step h with ⟨hstate, hpacket⟩ | hbefore
    · exact Or.inl (came_concat hstate hpacket)
    · exact (ih hbefore).imp_left fun hcame => hcame.append_right [event]

/-! ## Answers that are handed out -/

theorem step_of_packet {packet : ServerPacket} (h : event.packet? = some packet) :
    s.step event =
      (.received (s.onPacket packet event.time).1, (s.onPacket packet event.time).2) := by
  cases event with
  | connect now => cases h
  | socketError now => cases h
  | poll now => cases h
  | packet packet' now =>
    cases h
    rfl
  | datagram bytes now =>
    cases hdecode : ServerPacket.decode bytes with
    | error defect => simp [SessionEvent.packet?, hdecode, Except.toOption] at h
    | ok packet' =>
      simp only [SessionEvent.packet?, hdecode, Except.toOption, Option.some.injEq] at h
      subst h
      simp only [step, hdecode, SessionEvent.time]

/-- An answer is handed out when a part of it comes to a session that is logged in. It is made of
the parts that this part joins. -/
theorem step_response {q' index : UInt8} {data : List UInt8} {message : String}
    (hpacket : event.packet? = some (.commandResponse q (some ⟨total, index⟩) data))
    (hanswer : (s.step event).1 = .received (.response q' message)) :
    s.state = .loggedIn ∧ q' = q ∧
      message = Text.Utf8.decodeLossy (Reassembly.PartialAnswer.join
        (s.reassembly.answerWith q total index data event.time)) := by
  rw [step_of_packet hpacket] at hanswer
  have hreceived := SessionAnswer.received.inj hanswer
  by_cases hstate : s.state = .loggedIn
  · simp only [onPacket, hstate] at hreceived
    by_cases hlt : (s.reassembly.answerWith q total index data event.time).parts.size <
        total.toNat
    · have hnone := (Reassembly.insert_of_lt hlt).1
      generalize s.reassembly.insert q total index data event.time = r at hreceived hnone
      obtain ⟨whole, r⟩ := r
      subst hnone
      cases hreceived
    · have hsome := (Reassembly.insert_of_not_lt hlt).1
      generalize s.reassembly.insert q total index data event.time = r at hreceived hsome
      obtain ⟨whole, r⟩ := r
      subst hsome
      cases hreceived
      exact ⟨hstate, rfl, rfl⟩
  · rw [onPacket, if_pos hstate] at hreceived
    cases hreceived

/-- A part is held at a moment, in an answer that is not too old by then. -/
def LeftOver (s : Session) (q total : UInt8) (p : AnswerPart) (now : Nat) : Prop :=
  ∃ started, s.reassembly.Holds q total started p ∧ now - started < s.reassembly.ttl

/-- The parts of an answer that is handed out: they ascend, one of them has just come, and the
others were held and not too old. -/
theorem exists_parts {q' index : UInt8} {data : List UInt8} {message : String}
    (hpacket : event.packet? = some (.commandResponse q (some ⟨total, index⟩) data))
    (hanswer : (s.step event).1 = .received (.response q' message)) :
    ∃ parts : List AnswerPart, parts.Pairwise (fun a b => a.1 < b.1) ∧ (index, data) ∈ parts ∧
      message = Text.Utf8.decodeLossy (parts.flatMap (·.2)) ∧
      ∀ p ∈ parts, p = (index, data) ∨ s.LeftOver q total p event.time := by
  obtain ⟨-, -, rfl⟩ := step_response hpacket hanswer
  refine ⟨(s.reassembly.answerWith q total index data event.time).parts.toList, ?_, ?_, rfl, ?_⟩
  · have hordered := Std.ExtTreeMap.ordered_keys_toList
      (t := (s.reassembly.answerWith q total index data event.time).parts)
    exact hordered.imp fun hab => Std.compare_eq_lt.1 hab
  · rw [Std.ExtTreeMap.mem_toList_iff_getElem?_eq_some]
    exact Std.ExtTreeMap.getElem?_insert_self
  · intro p hp
    rw [Std.ExtTreeMap.mem_toList_iff_getElem?_eq_some] at hp
    exact (Reassembly.holds_of_answerWith hp).imp_right fun ⟨since, hbefore, hyoung, _⟩ =>
      ⟨since, hbefore, hyoung⟩

/-! ## Across logins -/

/-- A session that has just started holds nothing. -/
theorem not_holds_start {timings : Timings} {begun : Nat} :
    ¬ (start timings begun).reassembly.Holds q total started p := by
  rintro ⟨a, ha, -⟩
  rw [show (start timings begun).reassembly.held = ∅ from rfl, Std.ExtTreeMap.getElem?_empty] at ha
  cases ha

/-- A login leaves what is held. So a part that is held later came since then, or was left over. -/
theorem came_or_leftOver {later : Nat} {recent : List SessionEvent} (hlater : now ≤ later)
    (h : ((s.connect now).run recent).LeftOver q total p later) :
    Came (s.connect now) recent q total p ∨ s.LeftOver q total p now := by
  obtain ⟨started, hheld, hyoung⟩ := h
  rw [run_ttl] at hyoung
  refine (came_or_holds_run hheld).imp_right fun hbefore => ⟨started, hbefore, ?_⟩
  show now - started < (s.connect now).reassembly.ttl
  omega

/-- **Where the parts of an answer come from.** Take any run of a session, in which time does not go
back, and a part that completes an answer. The answer is made of parts in ascending order of their
places, and the part that completes it is one of them. Each came in the run to a session that was
logged in, under the same sequence number and with the same number of parts. And for every login of
the run, so also for the last: a part came since that login, or else it was left over from before,
in an answer that was not too old at the login.

Logins and failures of the network leave what a session holds, whatever its state. An idle check,
also one that finds the session timed out, drops the answers that are too old and no others, and
every answer that is not too old is held on until a part for its sequence number comes. -/
theorem parts_since_login {timings : Timings} {begun : Nat} {before : List SessionEvent}
    {q' index : UInt8} {data : List UInt8} {message : String}
    (htimes : (before ++ [event]).Pairwise fun e e' => e.time ≤ e'.time)
    (hpacket : event.packet? = some (.commandResponse q (some ⟨total, index⟩) data))
    (hanswer : (((start timings begun).run before).step event).1 =
      .received (.response q' message)) :
    (q' = q ∧ ∃ parts : List AnswerPart, parts.Pairwise (fun a b => a.1 < b.1) ∧
      (index, data) ∈ parts ∧ message = Text.Utf8.decodeLossy (parts.flatMap (·.2)) ∧
      ∀ p ∈ parts, Came (start timings begun) (before ++ [event]) q total p ∧
        ∀ old now recent, before = old ++ .connect now :: recent →
          Came (((start timings begun).run old).connect now) (recent ++ [event]) q total p ∨
            ((start timings begun).run old).LeftOver q total p now) ∧
    ∀ s, Reachable timings s →
      (∀ now, (s.connect now).reassembly = s.reassembly ∧
        (s.onSocketError now).reassembly = s.reassembly) ∧
      (∀ now (q : UInt8) (a : PartialAnswer), (s.poll now).2.reassembly.held[q]? = some a ↔
        s.reassembly.held[q]? = some a ∧ now - a.started < timings.multipartTtl) ∧
      ∀ (event : SessionEvent) (q : UInt8) (a : PartialAnswer), ¬ event.BringsPart q →
        s.reassembly.held[q]? = some a → event.time - a.started < timings.multipartTtl →
        (s.step event).2.reassembly.held[q]? = some a := by
  obtain ⟨hstate, hq, -⟩ := step_response hpacket hanswer
  obtain ⟨parts, hascending, hmem, hmessage, hparts⟩ := exists_parts hpacket hanswer
  refine ⟨⟨hq, parts, hascending, hmem, hmessage, fun p hp => ⟨?_, ?_⟩⟩, fun s hs => ?_⟩
  · rcases hparts p hp with rfl | ⟨started, hheld, -⟩
    · exact came_concat hstate hpacket
    · rcases came_or_holds_run hheld with hcame | hbefore
      · exact hcame.append_right [event]
      · exact absurd hbefore not_holds_start
  · rintro old now recent rfl
    have hrun : (start timings begun).run (old ++ .connect now :: recent) =
        (((start timings begun).run old).connect now).run recent := run_append old _ _
    rw [hrun] at hstate
    rcases hparts p hp with rfl | hleft
    · exact Or.inl (came_concat hstate hpacket)
    · rw [hrun] at hleft
      have hlater : now ≤ event.time := by
        have hmem : SessionEvent.connect now ∈ old ++ .connect now :: recent :=
          List.mem_append_right _ List.mem_cons_self
        exact (List.pairwise_append.1 htimes).2.2 _ hmem event (List.mem_singleton_self event)
      exact (came_or_leftOver hlater hleft).imp_left fun hcame => hcame.append_right [event]
  · rw [← hs.ttl_eq]
    exact ⟨fun _ => ⟨rfl, rfl⟩, fun _ _ _ => held_poll_iff, fun _ _ _ => held_step_of_young⟩

/-! A part that comes before a failure of the network, and is completed after the next login. -/

/-- The run up to the failure. -/
def failedRun : List SessionEvent :=
  [.connect 0, .packet (.loginResponse true) 1,
    .packet (.commandResponse 7 (some ⟨2, 0⟩) [0x6F]) 2, .socketError 3]

def failedSession : Session :=
  (start ⟨30000, 45000, 5000, 120000⟩ 0).run failedRun

/-- What comes after the next login is sent. -/
def secondLogin : List SessionEvent :=
  [.packet (.loginResponse true) 5]

def lastPart : SessionEvent :=
  .packet (.commandResponse 7 (some ⟨2, 1⟩) [0x6E]) 6

/-- The answer has a part that came, and one that was left over, held on at every check until
then. -/
theorem parts_since_login_of_left_over :
    (∃ parts : List AnswerPart, (1, [0x6E]) ∈ parts ∧
      "on" = Text.Utf8.decodeLossy (parts.flatMap (·.2)) ∧
      ∀ p ∈ parts, Came (failedSession.connect 4) (secondLogin ++ [lastPart]) 7 2 p ∨
        failedSession.LeftOver 7 2 p 4) ∧
    ∃ a, failedSession.reassembly.held[(7 : UInt8)]? = some a ∧ 4 - a.started < 120000 ∧
      ¬ (SessionEvent.poll 4).BringsPart 7 ∧
      (failedSession.step (.poll 4)).2.reassembly.held[(7 : UInt8)]? = some a := by
  have htimes : ((failedRun ++ .connect 4 :: secondLogin) ++ [lastPart]).Pairwise
      fun e e' => e.time ≤ e'.time := by
    decide
  have hpacket : lastPart.packet? = some (.commandResponse 7 (some ⟨2, 1⟩) [0x6E]) := rfl
  have hanswer : (((start ⟨30000, 45000, 5000, 120000⟩ 0).run
      (failedRun ++ .connect 4 :: secondLogin)).step lastPart).1 =
      .received (.response 7 "on") := by
    decide +kernel
  obtain ⟨⟨-, parts, -, hmem, hmessage, hparts⟩, hkept⟩ :=
    parts_since_login htimes hpacket hanswer
  refine ⟨⟨parts, hmem, hmessage, fun p hp => (hparts p hp).2 failedRun 4 secondLogin rfl⟩, ?_⟩
  have hsome : (failedSession.reassembly.held[(7 : UInt8)]?).isSome = true := by
    decide +kernel
  obtain ⟨a, ha⟩ := Option.isSome_iff_exists.1 hsome
  have hyoung : 4 - a.started < 120000 := by
    omega
  have hother : ¬ (SessionEvent.poll 4).BringsPart 7 := nofun
  exact ⟨a, ha, hyoung, hother,
    (hkept failedSession ⟨0, failedRun, rfl⟩).2.2 (.poll 4) 7 a hother ha hyoung⟩

/-- A message is joined of parts that came in a run. -/
def JoinedSince (s : Session) (events : List SessionEvent) (q total : UInt8) (message : String) :
    Prop :=
  ∃ parts : List AnswerPart, parts.Pairwise (fun a b => a.1 < b.1) ∧
    message = Text.Utf8.decodeLossy (parts.flatMap (·.2)) ∧ ∀ p ∈ parts, Came s events q total p

/-- After a failure and a new login, an answer is handed out that is not joined of parts that came
since then. -/
theorem not_joinedSince_after_failure :
    (failedRun ++ .connect 4 :: (secondLogin ++ [lastPart])).Pairwise
        (fun e e' => e.time ≤ e'.time) ∧
      (((failedSession.connect 4).run secondLogin).step lastPart).1 =
        .received (.response 7 "on") ∧
      ¬ JoinedSince (failedSession.connect 4) (secondLogin ++ [lastPart]) 7 2 "on" := by
  refine ⟨by decide, by decide +kernel, ?_⟩
  rintro ⟨parts, hascending, hmessage, hparts⟩
  have honly (p : AnswerPart) (hp : p ∈ parts) : p = (1, [0x6E]) := by
    obtain ⟨place, data⟩ := p
    obtain ⟨front, event, back, heq, -, hpacket⟩ := hparts _ hp
    rcases front with _ | ⟨first, _ | ⟨second, front⟩⟩
    · -- the login is no part
      cases heq
      cases hpacket
    · cases heq
      cases hpacket
      rfl
    · simp [secondLogin] at heq
  match parts, hascending, hmessage, honly with
  | [], _, hmessage, _ => exact absurd hmessage (by decide +kernel)
  | [p], _, hmessage, honly =>
    rw [honly p List.mem_cons_self] at hmessage
    exact absurd hmessage (by decide +kernel)
  | p :: p' :: rest, hascending, _, honly =>
    have hlt := (List.pairwise_cons.1 hascending).1 p' List.mem_cons_self
    rw [honly p List.mem_cons_self, honly p' (List.mem_cons_of_mem _ List.mem_cons_self)] at hlt
    exact absurd hlt (by decide)

end Session

end Switchboard.Admin
