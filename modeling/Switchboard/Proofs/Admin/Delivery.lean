import Switchboard.Proofs.Admin.SessionRun

/-!
# An answer delivered in parts

A text is cut into parts anywhere, also inside a character, and each part is sent in a datagram of
its own. The parts come in any order and more than once, and other packets and polls come between
them.

The proof follows the reassembly of a session that stays logged in (`run_reassembly`):

* **`gathers_foldl`**: before the last missing part comes, just the parts that came are held, since
  none of them expires before that part and no other event touches their sequence number.
* **`Reassembly.Gathers.complete`**: the last missing part brings all parts joined in the order of
  their places, whose bytes are those of the text.
* **`agreesApart_foldl`**: for other sequence numbers a part is nothing but a sweep, and what it
  sweeps would be swept later anyway.
* **`parts_delivered`**: the three together, about the answers of the session.
-/

namespace Switchboard.Admin

/-- What comes while an answer in `n` parts is delivered. -/
inductive Delivery (n : Nat) where
  /-- A part, by its place. -/
  | part (place : Fin n) (now : Nat)
  /-- Something else. -/
  | other (event : SessionEvent)

/-- The datagram of a part. -/
def partDatagram (sequence : UInt8) (parts : List (List UInt8)) (place : Fin parts.length) :
    List UInt8 :=
  frame .command (sequence :: 0 :: .ofNat parts.length :: .ofNat place :: parts.get place)

/-- An event that is not a part of an answer with this sequence number. -/
def SessionEvent.Foreign (sequence : UInt8) (event : SessionEvent) : Prop :=
  ∀ part data, event.packet? ≠ some (.commandResponse sequence (some part) data)

namespace Delivery

variable {n : Nat}

def time : Delivery n → Nat
  | part _ now => now
  | other event => event.time

/-- What the session gets to see. -/
def event (sequence : UInt8) (parts : List (List UInt8)) : Delivery parts.length → SessionEvent
  | part place now => .datagram (partDatagram sequence parts place) now
  | other event => event

def events (sequence : UInt8) (parts : List (List UInt8)) (ds : List (Delivery parts.length)) :
    List SessionEvent :=
  ds.map (event sequence parts)

/-- What the session gets to see without the parts. -/
def others (ds : List (Delivery n)) : List SessionEvent :=
  ds.filterMap fun
    | part _ _ => none
    | other event => some event

/-- The places of the parts that came. -/
def places : List (Delivery n) → Finset (Fin n)
  | [] => ∅
  | part place _ :: rest => insert place (places rest)
  | other _ :: rest => places rest

/-- Whether a delivery before the last part fits a deadline: another part that does not expire
before it, or something else. -/
def Timely (sequence : UInt8) (last : Fin n) (deadline ttl : Nat) : Delivery n → Prop
  | part place now => place ≠ last ∧ now ≤ deadline ∧ deadline < now + ttl
  | other event => event.Foreign sequence ∧ event.time ≤ deadline

theorem events_append (sequence : UInt8) (parts : List (List UInt8))
    (ds ds' : List (Delivery parts.length)) :
    events sequence parts (ds ++ ds') = events sequence parts ds ++ events sequence parts ds' :=
  List.map_append

theorem others_cons_part (before after : List (Delivery n)) (place : Fin n) (now : Nat) :
    others (before ++ part place now :: after) = others (before ++ after) := by
  rw [others, others, List.filterMap_append, List.filterMap_append, List.filterMap_cons]

theorem mem_places {place : Fin n} {ds : List (Delivery n)} :
    place ∈ places ds ↔ ∃ now, .part place now ∈ ds := by
  induction ds with
  | nil => simp [places]
  | cons d ds ih =>
    cases d with
    | part place' now =>
      rw [places, Finset.mem_insert, ih]
      constructor
      · rintro (rfl | ⟨later, hmem⟩)
        · exact ⟨now, List.mem_cons_self⟩
        · exact ⟨later, List.mem_cons_of_mem _ hmem⟩
      · rintro ⟨later, hmem⟩
        rcases List.mem_cons.1 hmem with heq | hmem
        · cases heq
          exact Or.inl rfl
        · exact Or.inr ⟨later, hmem⟩
    | other event => simp [places, ih]

end Delivery

variable {sequence : UInt8} {parts : List (List UInt8)}

theorem decode_partDatagram (hlen : parts.length ≤ 255) (place : Fin parts.length) :
    ServerPacket.decode (partDatagram sequence parts place) =
      .ok (.commandResponse sequence (some ⟨.ofNat parts.length, .ofNat place⟩)
        (parts.get place)) := by
  have hlt := place.isLt
  have htotal := toNat_ofNat_length hlen
  have hnot : ¬ (UInt8.ofNat parts.length = 0 ∨ UInt8.ofNat parts.length ≤ UInt8.ofNat place) := by
    rw [UInt8.le_iff_toNat_le, ← UInt8.toNat_inj, htotal, toNat_ofNat_place hlen]
    show ¬ (parts.length = 0 ∨ parts.length ≤ place)
    omega
  rw [partDatagram, ServerPacket.decode_frame, ServerPacket.readBody, ServerPacket.readResponse,
    if_neg hnot]

namespace Session

variable {r r' : Reassembly} {deadline : Nat} {got : Finset (Fin parts.length)}
  {last : Fin parts.length}

/-! ## What parts and other events put into the reassembly -/

theorem feed_part (hlen : parts.length ≤ 255) (place : Fin parts.length) (now : Nat) :
    feed r (.datagram (partDatagram sequence parts place) now) =
      (r.insert sequence (.ofNat parts.length) (.ofNat place) (parts.get place) now).2 := by
  simp only [feed, SessionEvent.packet?, decode_partDatagram hlen, Except.toOption,
    SessionEvent.time]

/-- Something else before the deadline changes nothing of the answer. -/
theorem gathers_feed_of_foreign {event : SessionEvent}
    (h : r.Gathers sequence parts deadline got) (hforeign : event.Foreign sequence)
    (htime : event.time ≤ deadline) : (feed r event).Gathers sequence parts deadline got := by
  rcases feed_cases event with hfeed | hfeed | ⟨q, part, data, hpacket, hfeed⟩
  · rw [hfeed]
    exact h
  · rw [hfeed]
    exact h.sweep htime
  · have hne : q ≠ sequence := fun heq => hforeign part data (heq ▸ hpacket)
    rw [hfeed]
    exact h.insert_of_ne htime hne data

/-- What is not held stays so while no part comes. -/
theorem getElem?_feed_of_foreign {event : SessionEvent} (h : r.held[sequence]? = none)
    (hforeign : event.Foreign sequence) : (feed r event).held[sequence]? = none := by
  have hsweep (now : Nat) : (r.sweep now).held[sequence]? = none := by
    rw [Reassembly.getElem?_sweep, h]
    rfl
  rcases feed_cases event with hfeed | hfeed | ⟨q, part, data, hpacket, hfeed⟩
  · rw [hfeed, h]
  · rw [hfeed, hsweep]
  · have hne : q ≠ sequence := fun heq => hforeign part data (heq ▸ hpacket)
    rw [hfeed, Reassembly.getElem?_insert_of_ne hne, hsweep]

/-- Something else keeps the agreement apart from the sequence number. -/
theorem agreesApart_feed {since : Nat} {event : SessionEvent}
    (h : Reassembly.AgreesApart sequence since r r') (htime : since ≤ event.time) :
    Reassembly.AgreesApart sequence event.time (feed r event) (feed r' event) := by
  rcases feed_cases event with hfeed | hfeed | ⟨q, part, data, -, hfeed⟩
  · rw [hfeed, hfeed]
    exact h.mono htime
  · rw [hfeed, hfeed]
    exact h.sweep htime
  · rw [hfeed, hfeed]
    exact h.insert htime q

/-! ## The parts before the last -/

/-- A part other than the last is stored. -/
theorem gathers_insert {place : Fin parts.length} {now : Nat}
    (h : r.Gathers sequence parts deadline got) (hlen : parts.length ≤ 255) (hlast : last ∉ got)
    (hne : place ≠ last) (hnow : now ≤ deadline) (hdue : deadline < now + r.ttl) :
    (r.insert sequence (.ofNat parts.length) (.ofNat place) (parts.get place) now).1 = none ∧
      (feed r (.datagram (partDatagram sequence parts place) now)).Gathers sequence parts deadline
        (insert place got) := by
  rw [feed_part hlen]
  -- the last part is still missing, so the answer is not complete
  refine h.insert hlen hnow hdue fun hall => ?_
  have hmem : last ∈ insert place got := hall ▸ Finset.mem_univ last
  rcases Finset.mem_insert.1 hmem with heq | hmem
  · exact hne heq.symm
  · exact hlast hmem

/-- **What is gathered before the last part comes**: the parts that came, whatever came with
them. -/
theorem gathers_foldl {ds : List (Delivery parts.length)}
    (h : r.Gathers sequence parts deadline got) (hlen : parts.length ≤ 255) (hlast : last ∉ got)
    (htimely : ∀ d ∈ ds, d.Timely sequence last deadline r.ttl) :
    ((Delivery.events sequence parts ds).foldl feed r).Gathers sequence parts deadline
      (got ∪ Delivery.places ds) := by
  induction ds generalizing r got with
  | nil =>
    rw [Delivery.places, Finset.union_empty]
    exact h
  | cons d ds ih =>
    obtain ⟨hhere, hrest⟩ := List.forall_mem_cons.1 htimely
    cases d with
    | part place now =>
      obtain ⟨hne, hnow, hdue⟩ := hhere
      have hnext := (gathers_insert h hlen hlast hne hnow hdue).2
      have hlast' : last ∉ insert place got := by simp [hlast, hne.symm]
      rw [Delivery.places, Finset.union_insert, ← Finset.insert_union]
      exact ih hnext hlast' (by rw [feed_ttl]; exact hrest)
    | other event =>
      obtain ⟨hforeign, htime⟩ := hhere
      exact ih (gathers_feed_of_foreign h hforeign htime) hlast (by rw [feed_ttl]; exact hrest)

/-! ## After the last part -/

theorem getElem?_foldl_of_foreign {ds : List (Delivery parts.length)}
    (h : r.held[sequence]? = none) (hno : ∀ place now, .part place now ∉ ds)
    (hforeign : ∀ event, .other event ∈ ds → event.Foreign sequence) :
    ((Delivery.events sequence parts ds).foldl feed r).held[sequence]? = none := by
  induction ds generalizing r with
  | nil => exact h
  | cons d ds ih =>
    cases d with
    | part place now => exact absurd List.mem_cons_self (hno place now)
    | other event =>
      exact ih (getElem?_feed_of_foreign h (hforeign event List.mem_cons_self))
        (fun place now hmem => hno place now (List.mem_cons_of_mem _ hmem))
        fun event hmem => hforeign event (List.mem_cons_of_mem _ hmem)

/-! ## The other answers -/

/-- **The parts leave the other answers alone**: apart from its sequence number, what is held and
not expired is what the other events put there. -/
theorem agreesApart_foldl {ds : List (Delivery parts.length)} {since later : Nat}
    (h : Reassembly.AgreesApart sequence since r r') (hlen : parts.length ≤ 255)
    (hordered : (since :: ds.map Delivery.time).Pairwise (· ≤ ·))
    (hlater : ∀ now ∈ since :: ds.map Delivery.time, now ≤ later) :
    Reassembly.AgreesApart sequence later
      ((Delivery.events sequence parts ds).foldl feed r)
      ((Delivery.others ds).foldl feed r') := by
  induction ds generalizing r r' since with
  | nil => exact h.mono (hlater since List.mem_cons_self)
  | cons d ds ih =>
    have htime : since ≤ d.time := List.rel_of_pairwise_cons hordered List.mem_cons_self
    have hordered' := hordered.of_cons
    have hlater' := (List.forall_mem_cons.1 hlater).2
    cases d with
    | part place now =>
      -- this event is missing on the other side
      have hnext : Reassembly.AgreesApart sequence now
          (feed r (.datagram (partDatagram sequence parts place) now)) r' := by
        rw [feed_part hlen]
        exact h.insert_left htime
      exact ih hnext hordered' hlater'
    | other event => exact ih (agreesApart_feed h htime) hordered' hlater'

theorem step_part {s : Session} (hstate : s.state = .loggedIn) (hlen : parts.length ≤ 255)
    (place : Fin parts.length) (now : Nat) :
    (s.step (.datagram (partDatagram sequence parts place) now)).1 = .received
      (match (s.reassembly.insert sequence (.ofNat parts.length) (.ofNat place) (parts.get place)
          now).1 with
        | some whole => .response sequence (Text.Utf8.decodeLossy whole)
        | none => .stored sequence) := by
  simp only [step, decode_partDatagram hlen, onPacket, hstate]
  cases s.reassembly.insert sequence (.ofNat parts.length) (.ofNat place) (parts.get place) now with
  | mk whole r => cases whole <;> rfl

end Session

/-! ## The theorem -/

/-- The deliveries of a text in parts: each part comes at least once, the last to come at
`deadline`, before every part that came expires; and whatever else comes is no part of an answer
with the same sequence number. -/
structure DeliversText (sequence : UInt8) (text : String) (parts : List (List UInt8)) (ttl : Nat)
    (before : List (Delivery parts.length)) (last : Fin parts.length) (deadline : Nat)
    (after : List (Delivery parts.length)) : Prop where
  split : parts.flatten = Text.Utf8.encode text
  length_le : parts.length ≤ 255
  last_missing : ∀ now, .part last now ∉ before
  others_came : ∀ place ≠ last, ∃ now, .part place now ∈ before
  none_after : ∀ place now, .part place now ∉ after
  foreign : ∀ event, .other event ∈ before ++ after → event.Foreign sequence
  ordered : ((before ++ .part last deadline :: after).map Delivery.time).Pairwise (· ≤ ·)
  in_time : ∀ place now, .part place now ∈ before → deadline < now + ttl

namespace DeliversText

variable {text : String} {ttl deadline : Nat} {last : Fin parts.length}
  {before after : List (Delivery parts.length)}

theorem timely (h : DeliversText sequence text parts ttl before last deadline after)
    {d : Delivery parts.length} (hd : d ∈ before) : d.Timely sequence last deadline ttl := by
  have hordered := h.ordered
  rw [List.map_append, List.pairwise_append] at hordered
  have htime : d.time ≤ deadline :=
    hordered.2.2 _ (List.mem_map_of_mem hd) _ List.mem_cons_self
  cases d with
  | part place now =>
    have hne : place ≠ last := fun heq => h.last_missing now (heq ▸ hd)
    exact ⟨hne, htime, h.in_time place now hd⟩
  | other event => exact ⟨h.foreign event (List.mem_append_left _ hd), htime⟩

theorem last_notMem (h : DeliversText sequence text parts ttl before last deadline after)
    {front back : List (Delivery parts.length)} (hfront : before = front ++ back) :
    last ∉ Delivery.places front := by
  intro hmem
  obtain ⟨now, hcame⟩ := Delivery.mem_places.1 hmem
  exact h.last_missing now (hfront ▸ List.mem_append_left _ hcame)

theorem insert_places (h : DeliversText sequence text parts ttl before last deadline after) :
    insert last (Delivery.places before) = Finset.univ := by
  refine Finset.eq_univ_iff_forall.2 fun place => ?_
  by_cases heq : place = last
  · exact heq ▸ Finset.mem_insert_self ..
  · exact Finset.mem_insert_of_mem (Delivery.mem_places.2 (h.others_came place heq))

end DeliversText

namespace Session

variable {s : Session} {timings : Timings}

/-- What a session that stays logged in has gathered in front of a delivery. -/
theorem gathers_run {text : String} {deadline : Nat} {last : Fin parts.length}
    {before after front back : List (Delivery parts.length)}
    (hs : s.Reachable timings)
    (h : DeliversText sequence text parts timings.multipartTtl before last deadline after)
    (hfront : before = front ++ back)
    (hstays : s.StaysLoggedIn (Delivery.events sequence parts front))
    (hheld : s.reassembly.held[sequence]? = none) :
    (s.run (Delivery.events sequence parts front)).reassembly.Gathers sequence parts deadline
      (Delivery.places front) := by
  have htimely : ∀ d ∈ front, d.Timely sequence last deadline s.reassembly.ttl := by
    intro d hd
    rw [hs.ttl_eq]
    exact h.timely (hfront ▸ List.mem_append_left _ hd)
  have hgathers := gathers_foldl (Reassembly.gathers_of_none parts deadline hheld) h.length_le
    (Finset.notMem_empty last) htimely
  rw [Finset.empty_union] at hgathers
  rw [run_reassembly hstays]
  exact hgathers

/-- **A text delivered in parts comes out whole.** Take a session that can come about, that stays
logged in, and that holds nothing for a sequence number; let the datagrams of the parts of a text
come in any order, with repetitions, and between them whatever is no part for that number. Each
part before the last missing one is stored, that one is answered with the text, and nothing stays
held for the number. What is held for other numbers and not expired is what the other events alone
would have put there; and it is what the session would hold without these datagrams, if it stayed
logged in without them as well. -/
theorem parts_delivered {text : String} {deadline : Nat} {last : Fin parts.length}
    {before after : List (Delivery parts.length)} (hs : s.Reachable timings)
    (h : DeliversText sequence text parts timings.multipartTtl before last deadline after)
    (hstays : s.StaysLoggedIn
      (Delivery.events sequence parts (before ++ .part last deadline :: after)))
    (hheld : s.reassembly.held[sequence]? = none) :
    (∀ front place now back, before = front ++ .part place now :: back →
      ((s.run (Delivery.events sequence parts front)).step
        (.datagram (partDatagram sequence parts place) now)).1 = .received (.stored sequence)) ∧
    ((s.run (Delivery.events sequence parts before)).step
      (.datagram (partDatagram sequence parts last) deadline)).1 =
        .received (.response sequence text) ∧
    (s.run (Delivery.events sequence parts
      (before ++ .part last deadline :: after))).reassembly.held[sequence]? = none ∧
    ∀ q ≠ sequence, ∀ now, (∀ d ∈ before ++ .part last deadline :: after, d.time ≤ now) →
      ((s.run (Delivery.events sequence parts
          (before ++ .part last deadline :: after))).reassembly.sweep now).held[q]? =
        (((Delivery.others (before ++ after)).foldl feed s.reassembly).sweep now).held[q]? ∧
      (s.StaysLoggedIn (Delivery.others (before ++ after)) →
        ((s.run (Delivery.events sequence parts
          (before ++ .part last deadline :: after))).reassembly.sweep now).held[q]? =
        ((s.run (Delivery.others (before ++ after))).reassembly.sweep now).held[q]?) := by
  have hlen := h.length_le
  have hbefore : s.StaysLoggedIn (Delivery.events sequence parts before) := by
    rw [Delivery.events_append] at hstays
    exact hstays.append_left
  have hall := gathers_run hs h (List.append_nil before).symm hbefore hheld
  have hloggedIn := hbefore _ [] (List.append_nil _).symm
  obtain ⟨hwhole, hgone⟩ := hall.complete hlen (Nat.le_refl deadline) h.insert_places
  refine ⟨?_, ?_, ?_, fun q hq now hnow => ?_⟩
  · rintro front place now back rfl
    rw [Delivery.events_append] at hbefore
    have hfront := hbefore.append_left
    have hgathers := gathers_run hs h rfl hfront hheld
    obtain ⟨hne, htime, hdue⟩ := h.timely (List.mem_append_right _ List.mem_cons_self)
    rw [← hs.ttl_eq, ← run_ttl (Delivery.events sequence parts front)] at hdue
    rw [step_part (hfront _ [] (List.append_nil _).symm) hlen,
      (gathers_insert hgathers hlen (h.last_notMem rfl) hne htime hdue).1]
  · rw [step_part hloggedIn hlen, hwhole, h.split]
    dsimp only
    rw [Text.Utf8.decodeLossy_encode]
  · rw [run_reassembly hstays, Delivery.events_append, List.foldl_append, ← run_reassembly hbefore]
    show ((Delivery.events sequence parts after).foldl feed
      (feed _ (.datagram (partDatagram sequence parts last) deadline))).held[sequence]? = none
    rw [← feed_part hlen] at hgone
    exact getElem?_foldl_of_foreign hgone h.none_after
      fun event hmem => h.foreign event (List.mem_append_right _ hmem)
  · have hagrees := agreesApart_foldl (Reassembly.AgreesApart.refl sequence 0 s.reassembly) hlen
      (List.pairwise_cons.2 ⟨fun _ _ => Nat.zero_le _, h.ordered⟩)
      (List.forall_mem_cons.2 ⟨Nat.zero_le now, List.forall_mem_map.2 hnow⟩)
    rw [← run_reassembly hstays, Delivery.others_cons_part] at hagrees
    have hheld := hagrees.held_eq q hq now (Nat.le_refl now)
    refine ⟨hheld, fun hothers => ?_⟩
    rw [hheld, run_reassembly hothers]

def splitStart : Session :=
  (start ⟨30000, 45000, 5000, 120000⟩ 0).run [.connect 0, .packet (.loginResponse true) 10]

/-- A text of three bytes in three parts, one of them empty; the second character is cut in two. -/
def splitParts : List (List UInt8) :=
  [[0x68, 0xC3], [], [0xA9]]

def splitBefore : List (Delivery splitParts.length) :=
  [.part ⟨2, by decide⟩ 20, .other (.packet (.commandResponse 8 (some ⟨2, 0⟩) [0x41]) 30),
    .part ⟨0, by decide⟩ 40, .part ⟨2, by decide⟩ 50, .other (.poll 60)]

/-- The place of the empty part, which comes last. -/
def splitLast : Fin splitParts.length :=
  ⟨1, by decide⟩

def splitAfter : List (Delivery splitParts.length) :=
  [.other (.packet (.serverMessage 3 [0x42]) 80)]

theorem splitParts_delivers :
    DeliversText 7 "hé" splitParts 120000 splitBefore splitLast 70 splitAfter where
  split := by decide +kernel
  length_le := by decide
  last_missing := by
    intro now hmem
    have hplaces : splitLast ∉ Delivery.places splitBefore := by decide
    exact hplaces (Delivery.mem_places.2 ⟨now, hmem⟩)
  others_came := by
    intro place hne
    have hplaces : ∀ place ≠ splitLast, place ∈ Delivery.places splitBefore := by decide
    exact Delivery.mem_places.1 (hplaces place hne)
  none_after := by
    intro place now hmem
    simp [splitAfter] at hmem
  foreign := by
    intro event hmem part data hpacket
    simp only [splitBefore, splitAfter, List.cons_append, List.nil_append, List.mem_cons] at hmem
    rcases hmem with h | h | h | h | h | h | h <;> cases h <;> cases hpacket
  ordered := by decide
  in_time := by
    intro place now hmem
    simp [splitBefore] at hmem
    rcases hmem with ⟨-, rfl⟩ | ⟨-, rfl⟩ | ⟨-, rfl⟩ <;> decide

theorem parts_delivered_across_a_character :
    ((splitStart.run (Delivery.events 7 splitParts splitBefore)).step
      (.datagram (partDatagram 7 splitParts splitLast) 70)).1 = .received (.response 7 "hé") := by
  have hreachable : splitStart.Reachable ⟨30000, 45000, 5000, 120000⟩ := ⟨0, _, rfl⟩
  have hstays : splitStart.StaysLoggedIn
      (Delivery.events 7 splitParts (splitBefore ++ .part splitLast 70 :: splitAfter)) := by
    simp only [splitBefore, splitAfter, Delivery.events, List.cons_append, List.nil_append,
      List.map_cons, List.map_nil, staysLoggedIn_cons, staysLoggedIn_nil]
    decide +kernel
  have hheld : splitStart.reassembly.held[(7 : UInt8)]? = none := by
    decide +kernel
  exact (parts_delivered hreachable splitParts_delivers hstays hheld).2.1

end Session

end Switchboard.Admin
