import Switchboard.Fault
import Switchboard.Settings

/-!
# Database sessions

A session binds a database section of the settings to an id. Handlers are given the session that
they are registered on; the connections are theirs to make.
-/

namespace Switchboard

/-- A database bound to a session id. -/
structure DatabaseSession where
  id : String
  configName : String
  config : DatabaseSection
  deriving DecidableEq, Repr

/-- The address of the database without the password. -/
def DatabaseSession.displayUrl (d : DatabaseSession) : String :=
  d.config.backend ++ "://" ++ d.config.username ++ "@" ++ d.config.host ++ ":" ++
    toString d.config.port ++ "/" ++ d.config.database

/-- The sessions by id. -/
abbrev DatabaseSessions := Std.ExtTreeMap String DatabaseSession

namespace DatabaseSessions

/-- Binds the section `configName` to the session `id`. -/
def connect (settings : Settings) (configName id : String) (sessions : DatabaseSessions) :
    Except SetupFault (DatabaseSession × DatabaseSessions) :=
  match settings.databases[configName]? with
  | none => .error (.noDatabaseConfig configName)
  | some config =>
    if sessions.contains id then .error (.databaseTaken id)
    else
      let session := ⟨id, configName, config⟩
      .ok (session, sessions.insert id session)

/-- The session of an id. -/
def checkout (id : String) (sessions : DatabaseSessions) : Except SetupFault DatabaseSession :=
  match sessions[id]? with
  | some session => .ok session
  | none => .error (.noDatabase id)

end DatabaseSessions

end Switchboard
