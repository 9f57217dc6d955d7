import Switchboard.Command.Parser
import Switchboard.Command.Printer
import Switchboard.Proofs.Text.Boundaries
import Switchboard.Proofs.Text.Fields

/-!
# The grammar of command lines

Which lines are commands, and which command a line is, said by rules instead of by reading:

* **`SystemCommand.Spelled`**, **`Command.Spelled`**: the spellings of a command, one rule for each
  form of a line.
* **`parse_eq_ok_iff`**: reading finds the command that a line spells, and refuses a line that
  spells none. Each part of the reader has such a statement of its own.
* **`spelled_render`**: of the spellings of a command, its canonical line is one, as long as it has
  one at all. A registration without a fourth field has it empty there.
-/

namespace Switchboard

open Text

/-- The session that the first field of a registration names; an empty field names none. -/
def sessionField (field : String) : Option String :=
  if field = "" then none else some field

/-- The spellings of administrative commands. -/
inductive SystemCommand.Spelled : String → SystemCommand → Prop where
  | version : Spelled "VERSION" .version
  | lock : Spelled "LOCK" .lock
  | lockStatus : Spelled "LOCK_STATUS" .lockStatus
  | outputSize : Spelled "OUTPUTSIZE" .outputSize
  | startConsole {config : String} (hconfig : config ≠ "") :
      Spelled ("START_RCON:" ++ config) (.startConsole config)
  | bindDatabase {config id : String} (hconfig : config ≠ "") (hcolon : ':' ∉ config.toList)
      (hid : id ≠ "") :
      Spelled ("DATABASE:" ++ config ++ ":" ++ id) (.bindDatabase config id)
  | addHandler {field kind name : String} (hfield : ':' ∉ field.toList) (hkind : kind ≠ "")
      (hkindColon : ':' ∉ kind.toList) (hname : name ≠ "") (hnameColon : ':' ∉ name.toList) :
      Spelled ("ADD:" ++ field ++ ":" ++ kind ++ ":" ++ name)
        (.addHandler (sessionField field) kind name "")
  | addHandlerWith {field kind name : String} (hfield : ':' ∉ field.toList) (hkind : kind ≠ "")
      (hkindColon : ':' ∉ kind.toList) (hname : name ≠ "") (hnameColon : ':' ∉ name.toList)
      (initArgs : String) :
      Spelled ("ADD:" ++ field ++ ":" ++ kind ++ ":" ++ name ++ ":" ++ initArgs)
        (.addHandler (sessionField field) kind name initArgs)

theorem getD_sessionField (field : String) : (sessionField field).getD "" = field := by
  unfold sessionField
  split
  · next h => exact h.symm
  · rfl

theorem SystemCommand.Spelled.ne_empty {text : String} {command : SystemCommand}
    (h : command.Spelled text) : text ≠ "" := by
  cases h <;> simp

/-- The canonical text of a command is the one it was spelled with, but for a fourth field that was
missing. -/
theorem SystemCommand.Spelled.render {text : String} {command : SystemCommand}
    (h : command.Spelled text) :
    command.Spelled command.render ∧ (command.render = text ∨ command.render = text ++ ":") := by
  cases h with
  | version => exact ⟨.version, Or.inl rfl⟩
  | lock => exact ⟨.lock, Or.inl rfl⟩
  | lockStatus => exact ⟨.lockStatus, Or.inl rfl⟩
  | outputSize => exact ⟨.outputSize, Or.inl rfl⟩
  | startConsole hconfig => exact ⟨.startConsole hconfig, Or.inl rfl⟩
  | bindDatabase hconfig hcolon hid => exact ⟨.bindDatabase hconfig hcolon hid, Or.inl rfl⟩
  | addHandler hfield hkind hkindColon hname hnameColon =>
    rw [SystemCommand.render, getD_sessionField, String.append_empty]
    refine ⟨?_, Or.inr rfl⟩
    simpa using Spelled.addHandlerWith hfield hkind hkindColon hname hnameColon ""
  | addHandlerWith hfield hkind hkindColon hname hnameColon initArgs =>
    rw [SystemCommand.render, getD_sessionField]
    exact ⟨.addHandlerWith hfield hkind hkindColon hname hnameColon initArgs, Or.inl rfl⟩

namespace Command

/-- The spellings of commands. -/
inductive Spelled : String → Command → Prop where
  | run (mode : Mode) {protocol payload : String} (hprotocol : protocol ≠ "")
      (hcolon : ':' ∉ protocol.toList) (hpayload : payload ≠ "") :
      Spelled (mode.opcode.toString ++ ":" ++ protocol ++ ":" ++ payload)
        (.run mode protocol payload)
  | take {rest text : String} {id : RequestId} (hstripped : Stripped rest text)
      (hnumeral : Numeral text id.toNat) (hid : id ≠ 0) : Spelled ("4:" ++ rest) (.take id)
  | takeChunk {rest text : String} {id : RequestId} (hstripped : Stripped rest text)
      (hnumeral : Numeral text id.toNat) (hid : id ≠ 0) : Spelled ("5:" ++ rest) (.takeChunk id)
  | system {rest text : String} {command : SystemCommand} (hstripped : Stripped rest text)
      (hspelled : command.Spelled text) : Spelled ("9:" ++ rest) (.system command)

variable {line rest text fields : String} {mode : Mode} {id : RequestId} {command : Command}
  {systemCommand : SystemCommand}

/-! ## Fields -/

theorem cut?_colon {a b : String} (h : ':' ∉ a.toList) : cut? ':' (a ++ ":" ++ b) = some (a, b) :=
  cut?_eq_some_iff.2 ⟨rfl, h⟩

theorem eq_of_cut?_colon {s a b : String} (h : cut? ':' s = some (a, b)) :
    s = a ++ ":" ++ b ∧ ':' ∉ a.toList :=
  cut?_eq_some_iff.1 h

/-- Two fields, neither of them empty. -/
theorem twoFields_eq_ok_iff {α : Type} {make : String → String → α} {r : α} :
    (match cut? ':' fields with
      | some (a, b) => if a = "" ∨ b = "" then .error .invalidFormat else .ok (make a b)
      | none => .error .invalidFormat : Except CallFault α) = .ok r ↔
      ∃ a b, fields = a ++ ":" ++ b ∧ a ≠ "" ∧ ':' ∉ a.toList ∧ b ≠ "" ∧ make a b = r := by
  constructor
  · intro h
    split at h
    · next a b hcut =>
      split at h
      · cases h
      · next hfilled =>
        rw [not_or] at hfilled
        obtain ⟨heq, hcolon⟩ := eq_of_cut?_colon hcut
        exact ⟨a, b, heq, hfilled.1, hcolon, hfilled.2, Except.ok.inj h⟩
    · cases h
  · rintro ⟨a, b, rfl, ha, hcolon, hb, rfl⟩
    simp only [cut?_colon hcolon, ha, hb, or_self, ↓reduceIte]

theorem parseRun_eq_ok_iff :
    parseRun mode rest = .ok command ↔ ∃ protocol payload, rest = protocol ++ ":" ++ payload ∧
      protocol ≠ "" ∧ ':' ∉ protocol.toList ∧ payload ≠ "" ∧ .run mode protocol payload = command :=
  twoFields_eq_ok_iff

theorem parseId_eq_ok_iff :
    parseId rest = .ok id ↔ ∃ text, Stripped rest text ∧ Numeral text id.toNat ∧ id ≠ 0 := by
  simp only [← trim_eq_iff, exists_eq_left', ← word?_eq_some_iff]
  unfold parseId
  cases word? (trim rest) with
  | none => simp
  | some w =>
    dsimp only
    split
    · next hzero =>
      subst hzero
      simp only [reduceCtorEq, Option.some.injEq, false_iff, not_and, not_not]
      exact Eq.symm
    · next hpos =>
      rw [Except.ok.injEq, Option.some.injEq]
      exact ⟨fun h => ⟨h, h ▸ hpos⟩, And.left⟩

/-! ## Administrative commands -/

theorem parseDatabase_eq_ok_iff :
    parseDatabase fields = .ok systemCommand ↔ ∃ config id, fields = config ++ ":" ++ id ∧
      config ≠ "" ∧ ':' ∉ config.toList ∧ id ≠ "" ∧ .bindDatabase config id = systemCommand :=
  twoFields_eq_ok_iff

theorem parseAdd_eq_ok_iff :
    parseAdd fields = .ok systemCommand ↔ ∃ field kind name initArgs,
      (fields = field ++ ":" ++ (kind ++ ":" ++ name) ∧ initArgs = "" ∨
        fields = field ++ ":" ++ (kind ++ ":" ++ (name ++ ":" ++ initArgs))) ∧
      ':' ∉ field.toList ∧ kind ≠ "" ∧ ':' ∉ kind.toList ∧ name ≠ "" ∧ ':' ∉ name.toList ∧
      .addHandler (sessionField field) kind name initArgs = systemCommand := by
  constructor
  · intro h
    unfold parseAdd at h
    split at h
    · next field rest hfield =>
      obtain ⟨rfl, hfieldColon⟩ := eq_of_cut?_colon hfield
      split at h
      · next kind rest hkind =>
        obtain ⟨rfl, hkindColon⟩ := eq_of_cut?_colon hkind
        -- what is left is the name, or the name and what is handed to the handler
        cases hname : cut? ':' rest with
        | none =>
          rw [hname, Option.getD_none] at h
          dsimp only at h
          split at h
          · cases h
          · next hfilled =>
            rw [not_or] at hfilled
            exact ⟨field, kind, rest, "", Or.inl ⟨rfl, rfl⟩, hfieldColon, hfilled.1, hkindColon,
              hfilled.2, cut?_eq_none_iff.1 hname, Except.ok.inj h⟩
        | some p =>
          obtain ⟨name, initArgs⟩ := p
          obtain ⟨rfl, hnameColon⟩ := eq_of_cut?_colon hname
          rw [hname, Option.getD_some] at h
          dsimp only at h
          split at h
          · cases h
          · next hfilled =>
            rw [not_or] at hfilled
            exact ⟨field, kind, name, initArgs, Or.inr rfl, hfieldColon, hfilled.1, hkindColon,
              hfilled.2, hnameColon, Except.ok.inj h⟩
      · cases h
    · cases h
  · rintro ⟨field, kind, name, initArgs, hfields, hfieldColon, hkind, hkindColon, hname, hnameColon,
      rfl⟩
    rcases hfields with ⟨rfl, rfl⟩ | rfl
    · simp only [parseAdd, cut?_colon hfieldColon, cut?_colon hkindColon,
        cut?_eq_none_iff.2 hnameColon, Option.getD_none, hkind, hname, or_self, ↓reduceIte]
      rfl
    · simp only [parseAdd, cut?_colon hfieldColon, cut?_colon hkindColon, cut?_colon hnameColon,
        Option.getD_some, hkind, hname, or_self, ↓reduceIte]
      rfl

/-! The first word of a command with fields, cut off its fields. -/

theorem startConsole_text (config : String) :
    "START_RCON:" ++ config = "START_RCON" ++ ":" ++ config :=
  rfl

theorem bindDatabase_text (config id : String) :
    "DATABASE:" ++ config ++ ":" ++ id = "DATABASE" ++ ":" ++ (config ++ ":" ++ id) := by
  rw [show "DATABASE:" = "DATABASE" ++ ":" from rfl]
  simp only [String.append_assoc]

theorem addHandler_text (field kind rest : String) :
    "ADD:" ++ field ++ ":" ++ kind ++ ":" ++ rest =
      "ADD" ++ ":" ++ (field ++ ":" ++ (kind ++ ":" ++ rest)) := by
  rw [show "ADD:" = "ADD" ++ ":" from rfl]
  simp only [String.append_assoc]

theorem addHandlerWith_text (field kind name initArgs : String) :
    "ADD:" ++ field ++ ":" ++ kind ++ ":" ++ name ++ ":" ++ initArgs =
      "ADD" ++ ":" ++ (field ++ ":" ++ (kind ++ ":" ++ (name ++ ":" ++ initArgs))) := by
  rw [← addHandler_text]
  simp only [String.append_assoc]

/-- The commands without fields are the spellings without a colon. -/
theorem lookup_plainCommands_iff :
    plainCommands.lookup text = some systemCommand ↔
      ':' ∉ text.toList ∧ systemCommand.Spelled text := by
  constructor
  · intro h
    have hmem : (text, systemCommand) ∈ plainCommands := by
      obtain ⟨before, after, heq, -⟩ := List.lookup_eq_some_iff.1 h
      rw [heq]
      exact List.mem_append_right before List.mem_cons_self
    simp only [plainCommands, List.mem_cons, Prod.mk.injEq, List.not_mem_nil, or_false] at hmem
    rcases hmem with ⟨rfl, rfl⟩ | ⟨rfl, rfl⟩ | ⟨rfl, rfl⟩ | ⟨rfl, rfl⟩
    · exact ⟨by decide, .version⟩
    · exact ⟨by decide, .lock⟩
    · exact ⟨by decide, .lockStatus⟩
    · exact ⟨by decide, .outputSize⟩
  · rintro ⟨hcolon, hspelled⟩
    cases hspelled with
    | version => rfl
    | lock => rfl
    | lockStatus => rfl
    | outputSize => rfl
    | startConsole hconfig => simp at hcolon
    | bindDatabase hconfig hconfigColon hid => simp at hcolon
    | addHandler hfield hkind hkindColon hname hnameColon => simp at hcolon
    | addHandlerWith hfield hkind hkindColon hname hnameColon initArgs => simp at hcolon

theorem parseSystem_eq_ok_iff :
    parseSystem rest = .ok systemCommand ↔
      ∃ text, Stripped rest text ∧ systemCommand.Spelled text := by
  simp only [← trim_eq_iff, exists_eq_left']
  unfold parseSystem
  dsimp only
  generalize trim rest = text
  constructor
  · intro h
    split at h
    · next hcut =>
      split at h
      · next command hlookup =>
        cases h
        exact (lookup_plainCommands_iff.1 hlookup).2
      · split at h <;> cases h
    · next name fields hcut =>
      obtain ⟨rfl, -⟩ := eq_of_cut?_colon hcut
      split at h
      · next hname =>
        subst hname
        split at h
        · cases h
        · next hconfig =>
          cases h
          exact .startConsole hconfig
      split at h
      · next hname =>
        subst hname
        obtain ⟨config, id, rfl, hconfig, hcolon, hid, rfl⟩ := parseDatabase_eq_ok_iff.1 h
        rw [← bindDatabase_text]
        exact .bindDatabase hconfig hcolon hid
      split at h
      · next hname =>
        subst hname
        obtain ⟨field, kind, name, initArgs, hfields, hfieldColon, hkind, hkindColon, hname,
          hnameColon, rfl⟩ := parseAdd_eq_ok_iff.1 h
        rcases hfields with ⟨rfl, rfl⟩ | rfl
        · rw [← addHandler_text]
          exact .addHandler hfieldColon hkind hkindColon hname hnameColon
        · rw [← addHandlerWith_text]
          exact .addHandlerWith hfieldColon hkind hkindColon hname hnameColon initArgs
      · cases h
  · intro h
    cases h with
    | version => rfl
    | lock => rfl
    | lockStatus => rfl
    | outputSize => rfl
    | startConsole hconfig =>
      rw [startConsole_text, cut?_colon (by decide)]
      simp only [hconfig, ↓reduceIte]
    | bindDatabase hconfig hcolon hid =>
      rw [bindDatabase_text, cut?_colon (by decide)]
      exact parseDatabase_eq_ok_iff.2 ⟨_, _, rfl, hconfig, hcolon, hid, rfl⟩
    | addHandler hfield hkind hkindColon hname hnameColon =>
      rw [addHandler_text, cut?_colon (by decide)]
      exact parseAdd_eq_ok_iff.2
        ⟨_, _, _, "", Or.inl ⟨rfl, rfl⟩, hfield, hkind, hkindColon, hname, hnameColon, rfl⟩
    | addHandlerWith hfield hkind hkindColon hname hnameColon initArgs =>
      rw [addHandlerWith_text, cut?_colon (by decide)]
      exact parseAdd_eq_ok_iff.2
        ⟨_, _, _, initArgs, Or.inr rfl, hfield, hkind, hkindColon, hname, hnameColon, rfl⟩

/-! ## Lines -/

/-- A line with something behind the digit and the colon is read by its digit. -/
theorem parse_line {opcode : Char} (hopcode : opcode.toNat < 0x80) (hrest : rest ≠ "") :
    parse (opcode.toString ++ ":" ++ rest) = parseRest opcode rest := by
  have hline : (opcode.toString ++ ":" ++ rest).toList = opcode :: ':' :: rest.toList := by simp
  cases hchars : rest.toList with
  | nil => exact absurd (String.toList_eq_nil_iff.1 hchars) hrest
  | cons c cs =>
    have hback : String.ofList (c :: cs) = rest := by rw [← hchars, String.ofList_toList]
    rw [hchars] at hline
    simp only [parse, hline, hopcode, ↓reduceIte, hback]

theorem exists_of_parse (h : parse line = .ok command) :
    ∃ opcode rest, line = opcode.toString ++ ":" ++ rest ∧ parseRest opcode rest = .ok command := by
  unfold parse at h
  split at h
  · next opcode c cs hline =>
    split at h
    · refine ⟨opcode, .ofList (c :: cs), ?_, h⟩
      rw [← String.toList_inj, hline]
      simp
    · cases h
  · cases h

theorem map_eq_ok_iff {α β : Type} {f : α → β} {r : Except CallFault α} {b : β} :
    r.map f = .ok b ↔ ∃ a, r = .ok a ∧ f a = b := by
  cases r <;> simp [Except.map]

/-- A line that is read spells what is read. -/
theorem spelled_of_parse (h : parse line = .ok command) : Spelled line command := by
  obtain ⟨opcode, rest, rfl, hrest⟩ := exists_of_parse h
  unfold parseRest at hrest
  have hrun (mode : Mode) (h : parseRun mode rest = .ok command) :
      Spelled (mode.opcode.toString ++ ":" ++ rest) command := by
    obtain ⟨protocol, payload, rfl, hprotocol, hcolon, hpayload, rfl⟩ := parseRun_eq_ok_iff.1 h
    rw [← String.append_assoc, ← String.append_assoc]
    exact .run mode hprotocol hcolon hpayload
  split at hrest
  · exact hrun .inline hrest
  · exact hrun .background hrest
  · exact hrun .kept hrest
  · obtain ⟨id, hid, rfl⟩ := map_eq_ok_iff.1 hrest
    obtain ⟨text, hstripped, hnumeral, hpos⟩ := parseId_eq_ok_iff.1 hid
    exact .take hstripped hnumeral hpos
  · obtain ⟨id, hid, rfl⟩ := map_eq_ok_iff.1 hrest
    obtain ⟨text, hstripped, hnumeral, hpos⟩ := parseId_eq_ok_iff.1 hid
    exact .takeChunk hstripped hnumeral hpos
  · obtain ⟨systemCommand, hsystem, rfl⟩ := map_eq_ok_iff.1 hrest
    obtain ⟨text, hstripped, hspelled⟩ := parseSystem_eq_ok_iff.1 hsystem
    exact .system hstripped hspelled
  · cases hrest

/-- What a line spells is read from it. -/
theorem parse_of_spelled (h : Spelled line command) : parse line = .ok command := by
  cases h with
  | @run mode protocol payload hprotocol hcolon hpayload =>
    have hrest : protocol ++ ":" ++ payload ≠ "" := by simp
    have hrun : parseRun mode (protocol ++ ":" ++ payload) = .ok (.run mode protocol payload) :=
      parseRun_eq_ok_iff.2 ⟨protocol, payload, rfl, hprotocol, hcolon, hpayload, rfl⟩
    have hdigit : mode.opcode.toNat < 0x80 := by cases mode <;> decide
    have hline : mode.opcode.toString ++ ":" ++ protocol ++ ":" ++ payload =
        mode.opcode.toString ++ ":" ++ (protocol ++ ":" ++ payload) := by
      simp only [String.append_assoc]
    rw [hline, parse_line hdigit hrest]
    cases mode with
    | inline => exact hrun
    | background => exact hrun
    | kept => exact hrun
  | @take rest text id hstripped hnumeral hid =>
    show parse ('4'.toString ++ ":" ++ rest) = _
    rw [parse_line (by decide) (hstripped.ne_empty hnumeral.ne_empty)]
    exact map_eq_ok_iff.2 ⟨_, parseId_eq_ok_iff.2 ⟨_, hstripped, hnumeral, hid⟩, rfl⟩
  | @takeChunk rest text id hstripped hnumeral hid =>
    show parse ('5'.toString ++ ":" ++ rest) = _
    rw [parse_line (by decide) (hstripped.ne_empty hnumeral.ne_empty)]
    exact map_eq_ok_iff.2 ⟨_, parseId_eq_ok_iff.2 ⟨_, hstripped, hnumeral, hid⟩, rfl⟩
  | @system rest text command hstripped hspelled =>
    show parse ('9'.toString ++ ":" ++ rest) = _
    rw [parse_line (by decide) (hstripped.ne_empty hspelled.ne_empty)]
    exact map_eq_ok_iff.2 ⟨_, parseSystem_eq_ok_iff.2 ⟨_, hstripped, hspelled⟩, rfl⟩

theorem parse_eq_ok_iff : parse line = .ok command ↔ Spelled line command :=
  ⟨spelled_of_parse, parse_of_spelled⟩

/-! ## Canonical lines -/

/-- A command with a spelling has its canonical line as one. -/
theorem spelled_render (h : Spelled line command) : Spelled command.render command := by
  cases h with
  | run mode hprotocol hcolon hpayload => exact .run mode hprotocol hcolon hpayload
  | take hstripped hnumeral hid =>
    exact .take (stripped_self (trimmed_toString _)) (numeral_toString _) hid
  | takeChunk hstripped hnumeral hid =>
    exact .takeChunk (stripped_self (trimmed_toString _)) (numeral_toString _) hid
  | system hstripped hspelled =>
    obtain ⟨hrender, htext⟩ := hspelled.render
    refine .system (stripped_self ?_) hrender
    rcases htext with htext | htext
    · rw [htext]
      exact hstripped.2
    · rw [htext, String.toList_append]
      exact hstripped.2.concat (by decide)

/-- The handlers that a registration can name can be called, in every mode and with every payload
that is not empty. -/
theorem spelled_run_of_addHandler {database : Option String} {kind name initArgs payload : String}
    (h : Spelled line (.system (.addHandler database kind name initArgs))) (mode : Mode)
    (hpayload : payload ≠ "") :
    Spelled (render (.run mode name payload)) (.run mode name payload) := by
  cases h with
  | system hstripped hspelled =>
    cases hspelled with
    | addHandler hfield hkind hkindColon hname hnameColon =>
      exact .run mode hname hnameColon hpayload
    | addHandlerWith hfield hkind hkindColon hname hnameColon initArgs =>
      exact .run mode hname hnameColon hpayload

/-- **The lines that are commands are those that spell one**, and each is the command it spells,
whether it is read by characters or by bytes. The canonical line of any such command is read as the
same command, and a handler that was registered can be called by its name. -/
theorem command_lines_exact :
    (∀ line command, parse line = .ok command ↔ Spelled line command) ∧
    (∀ line command, parseBytes? line = some (.ok command) ↔ Spelled line command) ∧
    (∀ line command, parse line = .ok command → parse command.render = .ok command) ∧
    ∀ line database kind name initArgs,
      parse line = .ok (.system (.addHandler database kind name initArgs)) →
      ∀ mode payload, payload ≠ "" →
        parse (render (.run mode name payload)) = .ok (.run mode name payload) := by
  refine ⟨fun line command => parse_eq_ok_iff, fun line command => ?_, fun line command h => ?_,
    fun line database kind name initArgs h mode payload hpayload => ?_⟩
  · rw [parseBytes?_eq, Option.some.injEq]
    exact parse_eq_ok_iff
  · exact parse_of_spelled (spelled_render (spelled_of_parse h))
  · exact parse_of_spelled (spelled_run_of_addHandler (spelled_of_parse h) mode hpayload)

/-- A registration between blanks and without its fourth field: spelled, written out in full, and
called. -/
theorem command_lines_exact_for_registration :
    Spelled "9: ADD::MISC:n \n" (.system (.addHandler none "MISC" "n" "")) ∧
      parse "9:ADD::MISC:n:" = .ok (.system (.addHandler none "MISC" "n" "")) ∧
      parse "2:n:a:b" = .ok (.run .kept "n" "a:b") := by
  have hparse : parse "9: ADD::MISC:n \n" = .ok (.system (.addHandler none "MISC" "n" "")) := by
    decide +kernel
  obtain ⟨hspelled, -, hcanonical, hcalled⟩ := command_lines_exact
  exact ⟨(hspelled _ _).1 hparse, hcanonical _ _ hparse,
    hcalled _ _ _ _ _ hparse .kept "a:b" (by decide)⟩

end Command

end Switchboard
