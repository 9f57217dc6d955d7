import Switchboard.Command

/-!
# Writing command lines

The canonical line of a command: ids in plain decimal, a registration with all four fields.
-/

namespace Switchboard

/-- The digit of a mode. -/
def Mode.opcode : Mode → Char
  | inline => '0'
  | background => '1'
  | kept => '2'

/-- The canonical text of an administrative command. -/
def SystemCommand.render : SystemCommand → String
  | version => "VERSION"
  | lock => "LOCK"
  | lockStatus => "LOCK_STATUS"
  | outputSize => "OUTPUTSIZE"
  | startConsole config => "START_RCON:" ++ config
  | bindDatabase config id => "DATABASE:" ++ config ++ ":" ++ id
  | addHandler database kind name initArgs =>
    "ADD:" ++ database.getD "" ++ ":" ++ kind ++ ":" ++ name ++ ":" ++ initArgs

/-- The canonical line of a command. -/
def Command.render : Command → String
  | run mode protocol payload => mode.opcode.toString ++ ":" ++ protocol ++ ":" ++ payload
  | take id => "4:" ++ toString id
  | takeChunk id => "5:" ++ toString id
  | system command => "9:" ++ command.render

end Switchboard
