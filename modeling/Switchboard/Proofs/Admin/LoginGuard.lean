import Switchboard.Proofs.Admin.Framing
import Switchboard.Proofs.Admin.Standings

/-!
# Nothing but logins is sent outside a login

Commands, keepalives and acknowledgements are handed to the socket in three places, and none of
them looks back at how the session came to be logged in. Here the guarantee is read off the course
of incidents that a run has:

* **`LoginHolds`**: the last login was answered by a success, and since then everything that was
  sent was taken, and nothing else happened.
* **`Behind`**: what lies behind a link that stands in some way. `behind_step` is one incident,
  `behind_path` any number of them.
* **`use_within_login`**: every use of a link has a login that holds behind it; and a packet that
  a session does not wait for leaves it alone.
-/

namespace Switchboard.Admin

variable {s s' : Standing} {i : Incident} {trace trace' : List Incident}

/-! ## What lies behind -/

/-- The last login of a course was granted, and everything since then was sent and taken. -/
def LoginHolds (trace : List Incident) : Prop :=
  ∃ earlier password datagram since,
    ServerPacket.decode datagram = .ok (.loginResponse true) ∧
    trace = earlier ++ .handed (.login password) true :: .answered datagram true :: since ∧
    ∀ i ∈ since, ∃ packet : ClientPacket, packet.isLogin = false ∧ i = .handed packet true

/-- What lies behind a link that stands in some way. -/
def Behind : Standing → List Incident → Prop
  | .loggedIn, trace => LoginHolds trace
  | .pending, trace => ∃ earlier password, trace = earlier ++ [.handed (.login password) true]
  | .closed, _ | .idle, _ => True

theorem LoginHolds.use {packet : ClientPacket} (h : LoginHolds trace)
    (hpacket : packet.isLogin = false) : LoginHolds (trace ++ [.handed packet true]) := by
  obtain ⟨earlier, password, datagram, since, hdecode, rfl, hsince⟩ := h
  refine ⟨earlier, password, datagram, since ++ [.handed packet true], hdecode, ?_, ?_⟩
  · simp only [List.append_assoc, List.cons_append]
  · intro i hi
    rcases List.mem_append.1 hi with hbefore | hlast
    · exact hsince i hbefore
    · exact ⟨packet, hpacket, List.mem_singleton.1 hlast⟩

/-- One incident: to be logged in, a link has to be granted its login, or to stay logged in. -/
theorem behind_step (h : Behind s trace) (hpasses : Passes s i s') : Behind s' (trace ++ [i]) := by
  cases hpasses with
  | opens => exact trivial
  | staysClosed => exact trivial
  | login password hsocket => exact ⟨trace, password, rfl⟩
  | loginRefused password hsocket => exact trivial
  | uses hpacket => exact LoginHolds.use h hpacket
  | useRefused hpacket => exact trivial
  | @accepted datagram hdecode =>
    obtain ⟨earlier, password, rfl⟩ := h
    -- the login that is answered here is the last one: only a new login can come between
    show LoginHolds _
    refine ⟨earlier, password, datagram, [], hdecode, ?_, nofun⟩
    simp only [List.append_assoc, List.cons_append, List.nil_append]
  | rejected hdecode => exact trivial
  | timesOut hstate => exact trivial
  | fails hsocket => exact trivial

theorem behind_path (h : Behind s trace) (hpath : Path s trace' s') :
    Behind s' (trace ++ trace') := by
  induction hpath generalizing trace with
  | nil s =>
    rw [List.append_nil]
    exact h
  | @cons s m t i is hhere _ ih =>
    have hmiddle : Behind m (trace ++ [i]) := behind_step h hhere
    have hlast : Behind t (trace ++ [i] ++ is) := ih hmiddle
    rwa [List.append_assoc] at hlast

/-- Only a link that is logged in is used. -/
theorem Passes.eq_loggedIn {packet : ClientPacket} {success : Bool}
    (h : Passes s (.handed packet success) s') (hpacket : packet.isLogin = false) :
    s = .loggedIn := by
  cases h with
  | login password hsocket => cases hpacket
  | loginRefused password hsocket => cases hpacket
  | uses _ => rfl
  | useRefused _ => rfl

/-! ## Incidents and effects -/

namespace Link

def sentPacket? : Effect → Option (ClientPacket × Bool)
  | .sent packet success => some (packet, success)
  | .opened _ | .published _ => none

def handedPacket? : Incident → Option (ClientPacket × Bool)
  | .handed packet success => some (packet, success)
  | .opened _ | .answered .. | .timedOut | .receptionFailed => none

theorem handedPacket?_of_cause? {l : Link} {event : LinkEvent} (h : l.cause? event = some i) :
    handedPacket? i = none := by
  unfold cause? at h
  split at h
  · next bytes _ _ _ =>
    split at h
    · next packet _ _ =>
      cases packet with
      | loginResponse success =>
        simp only [ServerPacket.incident?] at h
        split at h <;> cases h
        rfl
      | commandResponse => cases h
      | serverMessage => cases h
    · cases h
  · split at h <;> cases h
    rfl
  · split at h <;> cases h
    rfl
  · cases h

theorem handedPackets_incidentsOf (event : LinkEvent) (l : Link) :
    (l.incidentsOf event).filterMap handedPacket? = (l.step event).1.filterMap sentPacket? := by
  have hcause : (l.cause? event).toList.filterMap handedPacket? = [] := by
    cases hc : l.cause? event with
    | none => rfl
    | some i => simp only [Option.toList_some, List.filterMap_cons, handedPacket?_of_cause? hc,
        List.filterMap_nil]
  have heffect (effect : Effect) :
      (effect.incident?.bind handedPacket?) = sentPacket? effect := by
    cases effect <;> rfl
  simp only [incidentsOf, List.filterMap_append, hcause, List.nil_append, List.filterMap_filterMap,
    heffect]

/-- The packets that are handed to the socket are incidents, in their order and with what the
socket said. -/
theorem handedPackets_incidents (events : List LinkEvent) (l : Link) :
    (l.incidents events).filterMap handedPacket? = (l.run events).1.filterMap sentPacket? := by
  induction events generalizing l with
  | nil => rfl
  | cons event events ih =>
    rw [incidents, run_fst_cons, List.filterMap_append, List.filterMap_append,
      handedPackets_incidentsOf, ih]

/-! ## The theorem -/

/-- **Nothing but logins is sent outside a login.** In every run, whatever the network does, each
command, keepalive and acknowledgement that is handed to the socket has a login behind it that
holds: a well-formed success was processed after the last login packet, and since then no time-out,
no rejection and no failure of the socket. And a session ignores exactly the packets that it does
not wait for, and stays as it is. -/
theorem use_within_login :
    (∀ (name : String) (endpoint : Endpoint) (now : Nat) (events : List LinkEvent),
      (((start name endpoint now).incidents events).filterMap handedPacket? =
        ((start name endpoint now).run events).1.filterMap sentPacket?) ∧
      ∀ (front back : List Incident) (packet : ClientPacket) (success : Bool),
        (start name endpoint now).incidents events = front ++ .handed packet success :: back →
        packet.isLogin = false → LoginHolds front) ∧
    (∀ (session : Session) (packet : ServerPacket) (now : Nat),
      session.onPacket packet now = (.ignored, session) ↔ ¬ packet.Fits session.state) := by
  refine ⟨fun name endpoint now events => ⟨handedPackets_incidents events _, ?_⟩, ?_⟩
  · intro front back packet success htrace hpacket
    obtain ⟨s, hpath, -⟩ := path_run (poised_start name endpoint now) events
    rw [htrace] at hpath
    obtain ⟨m, m', hfront, huse, -⟩ := hpath.cut
    obtain rfl := huse.eq_loggedIn hpacket
    have hstart : Behind .closed [] := trivial
    exact behind_path hstart hfront
  · intro session packet now
    have hheard := Session.heard_onPacket session packet now
    generalize session.onPacket packet now = result at hheard ⊢
    obtain ⟨inbound, session'⟩ := result
    dsimp only at hheard
    cases hheard with
    | ignored hfits => exact ⟨fun _ => hfits, fun _ => rfl⟩
    | accepted hstate => exact ⟨nofun, fun hfits => absurd hstate hfits⟩
    | rejected hstate => exact ⟨nofun, fun hfits => absurd hstate hfits⟩
    | response hstate => exact ⟨nofun, fun hfits => absurd hstate hfits⟩
    | stored hstate => exact ⟨nofun, fun hfits => absurd hstate hfits⟩
    | event hstate => exact ⟨nofun, fun hfits => absurd hstate hfits⟩

/-- A console on the same machine. -/
def localConsole : Endpoint where
  address := ⟨.v4 [127, 0, 0, 1], 2305⟩
  password := "secret"
  timings := ⟨30000, 60000, 1000, 10000⟩

/-- A login that is granted, and a command that is queued before the link looks at its queue. -/
def grantedRound : List LinkEvent :=
  [.connect ⟨true, true⟩ 0, .proceed, .receive (.datagram (frame .login [1])) true 1,
    .enqueue "players", .proceed, .poll ⟨true, true⟩ 2, .proceed, .send true 3]

theorem use_within_login_of_granted :
    (start "main" localConsole 0).incidents grantedRound =
      [.opened true, .handed (.login "secret") true, .answered (frame .login [1]) true] ++
        .handed (.command 0 "players") true :: [] ∧
    (ClientPacket.command 0 "players").isLogin = false ∧
    LoginHolds
      [.opened true, .handed (.login "secret") true, .answered (frame .login [1]) true] := by
  have htrace : (start "main" localConsole 0).incidents grantedRound =
      [.opened true, .handed (.login "secret") true, .answered (frame .login [1]) true] ++
        .handed (.command 0 "players") true :: [] := by
    decide +kernel
  exact ⟨htrace, rfl, (use_within_login.1 "main" localConsole 0 grantedRound).2 _ _ _ _ htrace rfl⟩

end Link

end Switchboard.Admin
