import Switchboard.Proofs.Command.Grammar
import Switchboard.Proofs.Exchange.Setup

/-!
# Which sessions a registration can name

A session is bound to all that follows the second colon of its line, and a registration names a
session in a field that ends at the first colon. So the two agree on some ids only:

* **`exists_registration_iff`**: the ids that a registration can name are those without a colon.
  Every such id is named in a line of any kind and name (`parse_registration`).
* **`attempt_registration`**: a registration that names a session is made on that session, whatever
  has happened since it was bound.
-/

namespace Switchboard

open Text

/-! ## Lines -/

namespace Command

variable {line id kind name args : String}

/-- The field of a registration that names a session ends at the first colon. -/
theorem not_colon_of_registration
    (h : parse line = .ok (.system (.addHandler (some id) kind name args))) : ':' ∉ id.toList := by
  have hfield {field : String} (hcolon : ':' ∉ field.toList) (hid : sessionField field = some id) :
      ':' ∉ id.toList := by
    unfold sessionField at hid
    split at hid
    · cases hid
    · cases hid
      exact hcolon
  cases spelled_of_parse h with
  | system hstripped hspelled =>
    generalize hdatabase : some id = database at hspelled
    cases hspelled with
    | addHandler hcolon hkind hkindColon hname hnameColon => exact hfield hcolon hdatabase.symm
    | addHandlerWith hcolon hkind hkindColon hname hnameColon args =>
      exact hfield hcolon hdatabase.symm

/-- A registration on any session whose id has no colon. -/
theorem parse_registration (hid : id ≠ "") (hidColon : ':' ∉ id.toList) (hkind : kind ≠ "")
    (hkindColon : ':' ∉ kind.toList) (hname : name ≠ "") (hnameColon : ':' ∉ name.toList) :
    parse (render (.system (.addHandler (some id) kind name ""))) =
      .ok (.system (.addHandler (some id) kind name "")) := by
  have hfield : sessionField id = some id := if_neg hid
  have hspelled :=
    SystemCommand.Spelled.addHandlerWith hidColon hkind hkindColon hname hnameColon ""
  have hends : (SystemCommand.addHandler (some id) kind name "").render.toList =
      'A' :: ("DD:".toList ++ id.toList ++ [':'] ++ kind.toList ++ [':'] ++ name.toList ++
        [':']) := by
    simp [SystemCommand.render]
  rw [hfield] at hspelled
  refine parse_of_spelled (.system (stripped_self ?_) hspelled)
  rw [hends]
  exact trimmed_of_ends _ (by decide) (by decide)

/-- The ids that are bound are not empty. -/
theorem ne_empty_of_bindDatabase {config : String}
    (h : parse line = .ok (.system (.bindDatabase config id))) : id ≠ "" := by
  cases spelled_of_parse h with
  | system hstripped hspelled =>
    cases hspelled with
    | bindDatabase hconfig hcolon hid => exact hid

/-- **The ids that a registration can name** are those without a colon. -/
theorem exists_registration_iff (hid : id ≠ "") :
    (∃ line kind name args, parse line = .ok (.system (.addHandler (some id) kind name args))) ↔
      ':' ∉ id.toList := by
  constructor
  · rintro ⟨line, kind, name, args, h⟩
    exact not_colon_of_registration h
  · intro hcolon
    exact ⟨_, "MISC", "m", "", parse_registration hid hcolon (by decide) (by decide) (by decide)
      (by decide)⟩

end Command

/-! ## Registrations -/

namespace Exchange

variable {x : Exchange} {w : Surroundings} {line id kind name args : String} {builtin : HandlerKind}
  {session : DatabaseSession}

/-- **A registration that names a session** is made on it. -/
theorem attempt_registration
    (hparse : Command.parse line = .ok (.system (.addHandler (some id) kind name args)))
    (hsession : x.databases[id]? = some session) (hunlocked : x.locked = false)
    (hfree : name ∉ x.registry) (hkind : HandlerKind.ofName? kind = some builtin)
    (w : Surroundings) (capacity : Nat) :
    x.attempt w line capacity =
      setupResult .setup (x.registerOn name (.builtin builtin) (some session) args) := by
  have hcontains : x.registry.contains name = false := by
    rw [← Bool.not_eq_true, ← Std.ExtTreeMap.mem_iff_contains]
    exact hfree
  have hcheckout : x.sessionOf (some id) = .ok (some session) := by
    rw [sessionOf, DatabaseSessions.checkout, hsession]
    rfl
  rw [attempt, hparse]
  simp only [execute, runSystem, hunlocked, Bool.and_false, Bool.false_eq_true, ↓reduceIte,
    addHandler, hcontains, hcheckout, hkind]

/-! ## The theorem -/

/-- **A session can be named if its id has no colon**, and then it can be used. Take any moment
after an exchange was opened and a line that binds a session there with `[1]`. There is a
registration that names the session exactly if its id has no colon; then there is one of every kind
and every name, and whatever has happened in between, an unlocked exchange makes it on the session
that was bound, with the section of the settings that the line named. -/
theorem session_named_iff_no_colon {s : Settings} {processors : Nat} {draw : UInt64}
    (hlaunch : launch s processors draw = .ok x) (os : List Occurrence) {config : String}
    {capacity : Nat} (hbinds : SetsUp w (x.afterAll os) line capacity (.bindDatabase config id)) :
    ((∃ registration kind name args,
        Command.parse registration = .ok (.system (.addHandler (some id) kind name args))) ↔
      ':' ∉ id.toList) ∧
    (':' ∉ id.toList → ∀ kind name, kind ≠ "" → ':' ∉ kind.toList → name ≠ "" → ':' ∉ name.toList →
      Command.parse (Command.render (.system (.addHandler (some id) kind name ""))) =
        .ok (.system (.addHandler (some id) kind name ""))) ∧
    ∃ entry, s.databases[config]? = some entry ∧
      ∀ later, let y := ((x.afterAll os).call w line capacity).2.afterAll later
        ∀ registration kind name args,
          Command.parse registration = .ok (.system (.addHandler (some id) kind name args)) →
          ∀ builtin, HandlerKind.ofName? kind = some builtin →
            y.locked = false → name ∉ y.registry → ∀ w capacity,
              y.attempt w registration capacity =
                setupResult .setup
                  (y.registerOn name (.builtin builtin) (some ⟨id, config, entry⟩) args) := by
  have hid : id ≠ "" := Command.ne_empty_of_bindDatabase hbinds.parse_eq
  obtain ⟨range, hstart, -⟩ := consistent_launch hlaunch
  have hsound := sound_afterAll hstart.sound os
  have hconfigured := (configured_launch hlaunch).afterAll hstart.sound os
  have hbound := hbinds.binds hsound
  refine ⟨Command.exists_registration_iff hid, ?_, ?_⟩
  · intro hcolon kind name hkind hkindColon hname hnameColon
    exact Command.parse_registration hid hcolon hkind hkindColon hname hnameColon
  · have hsoundAfter : ((x.afterAll os).call w line capacity).2.store.Sound range :=
      sound_after hsound (.event (.call w line capacity))
    generalize ((x.afterAll os).call w line capacity).2 = y at hbound hsoundAfter ⊢
    cases hbound with
    | @session _ _ entry hfree hentry =>
      refine ⟨entry, hconfigured.settings ▸ hentry, fun later => ?_⟩
      intro z registration kind name args hparse builtin hkind hunlocked hname w capacity
      have hkept := (setupKept hsoundAfter later).session id _ Std.ExtTreeMap.getElem?_insert_self
      exact attempt_registration hparse hkept hunlocked hname hkind w capacity

/-! A database to bind sessions to. -/

def sessionStart : Exchange :=
  { echoStart with
    settings := {
      testMode := true
      databases := (∅ : Std.ExtTreeMap _ _).insert "main" ({} : DatabaseSection) } }

/-- A session is bound to an id with a colon. No registration names it, and the line that seems to
do so asks for another session. -/
theorem session_of_colon_not_named :
    launch sessionStart.settings 1 0 = .ok sessionStart ∧
    SetsUp echoSurroundings (sessionStart.afterAll []) "9:DATABASE:main:a:b" 100
      (.bindDatabase "main" "a:b") ∧
    (∀ registration kind name args,
      Command.parse registration ≠ .ok (.system (.addHandler (some "a:b") kind name args))) ∧
    (((sessionStart.afterAll []).call echoSurroundings "9:DATABASE:main:a:b" 100).2.call
      echoSurroundings "9:ADD:a:b:MISC:m" 100).1 = .reply "[0,\"No database session: a\"]" := by
  refine ⟨rfl, ⟨by decide +kernel, rfl, by decide +kernel⟩, ?_, by decide +kernel⟩
  intro registration kind name args h
  exact absurd (Command.not_colon_of_registration h) (by decide)

/-- A session without a colon, and a registration on it after two other calls. -/
theorem session_named_iff_no_colon_of_main :
    let y := ((sessionStart.afterAll []).call echoSurroundings "9:DATABASE:main:d e" 100).2.afterAll
      [.event (.call echoSurroundings "9:DATABASE:main:f" 100),
        .event (.call echoSurroundings "9:ADD::MISC:n" 100)]
    launch sessionStart.settings 1 0 = .ok sessionStart ∧
    SetsUp echoSurroundings (sessionStart.afterAll []) "9:DATABASE:main:d e" 100
      (.bindDatabase "main" "d e") ∧
    (∃ registration kind name args,
      Command.parse registration = .ok (.system (.addHandler (some "d e") kind name args))) ∧
    ∃ entry, y.attempt echoSurroundings "9:ADD:d e:MISC:m" 100 =
      setupResult .setup (y.registerOn "m" (.builtin .misc) (some ⟨"d e", "main", entry⟩) "") := by
  intro y
  have hlaunch : launch sessionStart.settings 1 0 = .ok sessionStart := rfl
  have hbinds : SetsUp echoSurroundings (sessionStart.afterAll []) "9:DATABASE:main:d e" 100
      (.bindDatabase "main" "d e") := ⟨by decide +kernel, rfl, by decide +kernel⟩
  have hparse : Command.parse "9:ADD:d e:MISC:m" =
      .ok (.system (.addHandler (some "d e") "MISC" "m" "")) := by decide +kernel
  have hunlocked : y.locked = false := by decide +kernel
  have hfree : "m" ∉ y.registry := by decide +kernel
  obtain ⟨hnamed, -, entry, -, hlater⟩ := session_named_iff_no_colon hlaunch [] hbinds
  exact ⟨hlaunch, hbinds, hnamed.2 (by decide), entry,
    hlater _ _ "MISC" "m" "" hparse .misc rfl hunlocked hfree echoSurroundings 100⟩

end Exchange

end Switchboard
