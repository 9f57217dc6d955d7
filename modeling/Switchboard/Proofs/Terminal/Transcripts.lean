import Switchboard.Proofs.Exchange.SingleLines
import Switchboard.Terminal

/-!
# One line of output for each line of input

A terminal session reads lines of bytes, and prints each reply with a newline behind it. That its
output can be told apart again, and which reply belongs to which line, is put together from these:

* **`exists_typed`**: the lines of the bytes of a text are those of the text. The byte of a newline
  belongs to no other character (`newline_mem_utf8EncodeChar_iff`).
* **`commandsOf`**: the lines that are carried out, and no others.
* **`plays_converse`**: a session is a run of the exchange with these lines as its calls and what
  the workers and the link do between them. Its replies are the outcomes of the run, and it breaks
  off only where a call does.
* **`Plays.answers`**: the reply with a number is what the line with this number was answered, at
  the state that the lines before it have led to.
* **`splitOn_output`**: the output is cut at its newlines into the replies, because a reply holds
  none.
-/

namespace Switchboard.Terminal

open Text
open Exchange (SingleLined BreaksOff)

/-! ## Lines of bytes -/

/-- The byte of a newline belongs to newlines only. -/
theorem newline_mem_utf8EncodeChar_iff (c : Char) :
    0x0A ∈ String.utf8EncodeChar c ↔ c = '\n' := by
  rw [mem_utf8EncodeChar_iff (by decide), ← Char.toNat_inj]
  rfl

theorem splitLines_append {front bs : List UInt8} (hfront : 0x0A ∉ front) (hne : front ≠ []) :
    splitLines (front ++ bs) =
      (front ++ (splitLines bs).headD []) :: (splitLines bs).tail := by
  induction front with
  | nil => exact absurd rfl hne
  | cons b front ih =>
    rw [List.mem_cons, not_or] at hfront
    obtain ⟨hb, hrest⟩ := hfront
    rw [List.cons_append, splitLines, if_neg (Ne.symm hb)]
    cases front with
    | nil =>
      rw [List.nil_append]
      cases splitLines bs <;> rfl
    | cons c front =>
      rw [ih hrest (List.cons_ne_nil c front)]
      rfl

/-- The lines of some bytes are those of the characters, but for an empty last one. -/
theorem exists_map_splitOn (cs : List Char) :
    ∃ last, (last = [] ∨ last = [[]]) ∧
      (cs.splitOn '\n').map (fun cs => cs.flatMap String.utf8EncodeChar) =
        splitLines (cs.flatMap String.utf8EncodeChar) ++ last := by
  induction cs with
  | nil => exact ⟨[[]], Or.inr rfl, rfl⟩
  | cons c cs ih =>
    obtain ⟨last, hlast, hlines⟩ := ih
    rw [List.splitOn_cons_eq_if_modifyHead, List.flatMap_cons]
    by_cases hc : c = '\n'
    · subst hc
      refine ⟨last, hlast, ?_⟩
      have hbyte : String.utf8EncodeChar '\n' = [0x0A] := by decide +kernel
      rw [hbyte]
      simp only [BEq.rfl, if_true, List.map_cons, hlines, List.flatMap_nil]
      rfl
    · have hnewline : 0x0A ∉ String.utf8EncodeChar c := mt (newline_mem_utf8EncodeChar_iff c).1 hc
      have hne : String.utf8EncodeChar c ≠ [] := by
        obtain ⟨first, rest, hbytes, -⟩ := exists_first_byte c
        rw [hbytes]
        exact List.cons_ne_nil first rest
      rw [splitLines_append hnewline hne, if_neg (by simpa using hc)]
      -- the character joins the first line, which starts with it if there was none
      obtain ⟨line, lines, hsplit⟩ := List.exists_cons_of_ne_nil (List.splitOn_ne_nil '\n' cs)
      rw [hsplit, List.map_cons] at hlines
      rw [hsplit, List.modifyHead_cons, List.map_cons, List.flatMap_cons]
      cases hbytes : splitLines (cs.flatMap String.utf8EncodeChar) with
      | nil =>
        rw [hbytes, List.nil_append] at hlines
        rcases hlast with rfl | rfl
        · cases hlines
        · obtain ⟨hline, hrest⟩ := List.cons.inj hlines
          exact ⟨[], Or.inl rfl, by rw [hline, hrest]; rfl⟩
      | cons first rest =>
        rw [hbytes, List.cons_append] at hlines
        obtain ⟨hline, hrest⟩ := List.cons.inj hlines
        exact ⟨last, hlast, by rw [hline, hrest]; rfl⟩

/-- The lines of a text. The last one is what stands behind the last newline. -/
def linesOf (text : String) : List String :=
  (text.toList.splitOn '\n').map String.ofList

theorem singleLine_of_newline_not_mem {s : String} (h : 0x0A ∉ Utf8.encode s) : SingleLine s :=
  fun hnewline => h (List.mem_flatMap.2
    ⟨'\n', hnewline, (newline_mem_utf8EncodeChar_iff '\n').2 rfl⟩)

/-- **The lines of the bytes of a text** are those of the text, but for an empty last one. -/
theorem exists_typed (text : String) :
    ∃ typed, splitLines (Utf8.encode text) = typed.map Utf8.encode ∧
      (∀ line ∈ typed, SingleLine line) ∧
      (linesOf text = typed ∨ linesOf text = typed ++ [""]) := by
  obtain ⟨last, hlast, hlines⟩ := exists_map_splitOn text.toList
  obtain ⟨front, back, hsplit, hfront, hback⟩ := List.map_eq_append_iff.1 hlines
  have hencode : front.map (fun cs => cs.flatMap String.utf8EncodeChar) =
      (front.map String.ofList).map Utf8.encode := by
    rw [List.map_map]
    refine List.map_congr_left fun cs _ => ?_
    show _ = (String.ofList cs).toList.flatMap String.utf8EncodeChar
    rw [String.toList_ofList]
  refine ⟨front.map String.ofList, hfront.symm.trans hencode, fun line hline => ?_, ?_⟩
  · have hmem : Utf8.encode line ∈ splitLines (Utf8.encode text) := by
      rw [show splitLines (Utf8.encode text) = _ from hfront.symm.trans hencode]
      exact List.mem_map_of_mem hline
    exact singleLine_of_newline_not_mem (newline_not_mem_of_mem_splitLines hmem)
  · rw [linesOf, hsplit, List.map_append]
    rcases hlast with rfl | rfl
    · rw [List.map_eq_nil_iff.1 hback]
      exact Or.inl (List.append_nil _)
    · -- what is left has no bytes, so it has no characters
      obtain ⟨cs, rfl, hcs⟩ := List.map_eq_singleton_iff.1 hback
      have hempty : cs = [] := by
        cases cs with
        | nil => rfl
        | cons c cs =>
          obtain ⟨first, rest, hbytes, -⟩ := exists_first_byte c
          rw [List.flatMap_cons, hbytes] at hcs
          cases hcs
      rw [hempty]
      exact Or.inr rfl

/-! ## Lines that are carried out -/

/-- The lines that are carried out: those that are not blank, without the blanks around them, up to
the one that ends the session. -/
def commandsOf (lines : List String) : List String :=
  ((lines.map trim).filter (· ≠ "")).takeWhile fun line => line ≠ "quit" ∧ line ≠ "exit"

/-- One line more. -/
theorem commandsOf_cons (line : String) (lines : List String) :
    commandsOf (line :: lines) =
      match Entry.ofText line with
      | .blank => commandsOf lines
      | .leave => []
      | .call command => command :: commandsOf lines := by
  unfold Entry.ofText commandsOf
  dsimp only
  rw [List.map_cons, List.filter_cons]
  by_cases hblank : trim line = ""
  · simp [hblank]
  · by_cases hleave : trim line = "quit" ∨ trim line = "exit"
    · simpa [hblank, hleave, List.takeWhile_cons] using hleave.resolve_left
    · simpa [hblank, hleave, List.takeWhile_cons] using not_or.1 hleave

theorem commandsOf_concat_empty (lines : List String) :
    commandsOf (lines ++ [""]) = commandsOf lines := by
  have hempty : trim "" = "" := by decide +kernel
  simp [commandsOf, hempty]

theorem ofBytes?_encode (line : String) :
    Entry.ofBytes? (Utf8.encode line) = some (.ofText line) := by
  rw [Entry.ofBytes?, Utf8.decode?_encode]
  rfl

/-- What is carried out of a single line is one. -/
theorem singleLine_of_call {line command : String} (hline : SingleLine line)
    (h : Entry.ofText line = .call command) : SingleLine command := by
  have hcommand : trim line = command := by
    unfold Entry.ofText at h
    dsimp only at h
    split at h
    · cases h
    · split at h
      · cases h
      · exact Entry.call.inj h
  obtain ⟨front, back, hsplit, -⟩ := exists_blank_append_trim line.toList
  subst hcommand
  intro hnewline
  apply hline
  rw [hsplit]
  rw [toList_trim] at hnewline
  exact List.mem_append_left _ (List.mem_append_right _ hnewline)

/-! ## Sessions as runs -/

/-- The line of a host call. -/
def lineOf? : ExchangeEvent → Option String
  | .call _ line _ => some line
  | _ => none

/-- A session in which these lines are to be carried out is a run: the calls in it are the lines,
all with the same capacity, and the replies are what they are answered. Either no line is left over,
or the call with the next one breaks off. -/
structure Plays (capacity : Nat) (x : Exchange) (lines : List String) (t : Transcript)
    (events : List ExchangeEvent) (left : List String) : Prop where
  inner : ∀ event ∈ events, event.isInner = true ∨ ∃ w line, event = .call w line capacity
  lines_eq : events.filterMap lineOf? ++ left = lines
  replies_eq : (x.run events).1 = t.replies.map .reply
  ending : (t.ending = .done ∧ left = []) ∨
    t.ending = .aborted ∧ ∃ w line later, left = line :: later ∧ BreaksOff w (x.run events).2 line

/-- Between the lines, only the workers and the link act. -/
def Course.IsInner (c : Course) : Prop :=
  ∀ n x, ∃ events : List ExchangeEvent,
    (∀ event ∈ events, event.isInner = true) ∧ (x.run events).2 = c.work n x

/-- The workers get everything done before the next line, and nothing happens on the link. -/
def Course.prompt (surroundings : Nat → Surroundings) : Course where
  surroundings := surroundings
  work n x := x.workOff (surroundings n)

theorem isInner_prompt (surroundings : Nat → Surroundings) :
    (Course.prompt surroundings).IsInner := by
  intro n x
  obtain ⟨events, hinner, hrun, -⟩ := Exchange.exists_run_work (surroundings n) (fun _ => false) x
  exact ⟨events, hinner, hrun⟩

section Plays

variable {capacity : Nat} {x y : Exchange} {lines : List String} {t : Transcript}
  {events own : List ExchangeEvent} {left : List String} {range : Interval}

/-- What an exchange does by itself has no outcome and is no line. -/
theorem run_fst_of_isInner (hown : ∀ event ∈ own, event.isInner = true) (x : Exchange) :
    (x.run own).1 = [] ∧ own.filterMap lineOf? = [] := by
  induction own generalizing x with
  | nil => exact ⟨rfl, rfl⟩
  | cons event own ih =>
    obtain ⟨hevent, hrest⟩ := List.forall_mem_cons.1 hown
    obtain ⟨houtcomes, hlines⟩ := ih hrest (x.step event).2
    show (x.step event).1.toList ++ ((x.step event).2.run own).1 = [] ∧ _
    rw [houtcomes, List.filterMap_cons, hlines]
    cases event <;> first | exact ⟨rfl, rfl⟩ | cases hevent

theorem Plays.after_own (h : Plays capacity (x.run own).2 lines t events left)
    (hown : ∀ event ∈ own, event.isInner = true) :
    Plays capacity x lines t (own ++ events) left := by
  obtain ⟨houtcomes, hlines⟩ := run_fst_of_isInner hown x
  refine ⟨fun event hevent => ?_, ?_, ?_, ?_⟩
  · rcases List.mem_append.1 hevent with hmem | hmem
    · exact Or.inl (hown event hmem)
    · exact h.inner event hmem
  · rw [List.filterMap_append, hlines]
    exact h.lines_eq
  · rw [Exchange.run_fst_append, houtcomes]
    exact h.replies_eq
  · rw [Exchange.run_append]
    exact h.ending

theorem Plays.after_call {w : Surroundings} {line reply : String}
    (h : Plays capacity y lines t events left)
    (hcall : x.call w line capacity = (.reply reply, y)) :
    Plays capacity x (line :: lines) ⟨reply :: t.replies, t.ending⟩
      (.call w line capacity :: events) left := by
  have hstep : x.step (.call w line capacity) = (some (.reply reply), y) := by
    rw [Exchange.step, hcall]
  refine ⟨fun event hevent => ?_, congrArg (line :: ·) h.lines_eq, ?_, ?_⟩
  · rcases List.mem_cons.1 hevent with rfl | hmem
    · exact Or.inr ⟨w, line, rfl⟩
    · exact h.inner event hmem
  · rw [Exchange.run, hstep, List.map_cons, ← h.replies_eq]
    rfl
  · rw [Exchange.run, hstep]
    exact h.ending

/-- A built-in handler, or a link, is at fault when a call breaks off. -/
theorem breaksOff_of_call {w : Surroundings} {line : String} (hsound : x.store.Sound range)
    (h : SingleLined x) (hpanic : (x.call w line capacity).1 = .panic) : BreaksOff w x line := by
  have hattempted := Exchange.attempted_attempt w hsound line capacity
  rw [Exchange.call_eq] at hpanic
  generalize x.attempt w line capacity = r at hattempted hpanic
  obtain ⟨result, y⟩ := r
  cases result with
  | error fault => cases hpanic
  | ok outcome =>
    cases hpanic
    exact hattempted.breaksOff h.builtIn

/-- **A session is a run**, and all its replies are single lines. The induction is on the lines that
are still to come; what the workers and the link do in between comes before the next of them. -/
theorem plays_converse {c : Course} (hcourse : c.IsInner) {typed : List String}
    (hlines : ∀ line ∈ typed, SingleLine line) (hsound : x.store.Sound range) (h : SingleLined x) :
    (∀ reply ∈ (converse c capacity (typed.map Utf8.encode) x).replies, SingleLine reply) ∧
      ∃ events left, Plays capacity x (commandsOf typed)
        (converse c capacity (typed.map Utf8.encode) x) events left := by
  induction typed generalizing x with
  | nil => exact ⟨nofun, [], [], nofun, rfl, rfl, Or.inl ⟨rfl, rfl⟩⟩
  | cons line typed ih =>
    obtain ⟨hline, hrest⟩ := List.forall_mem_cons.1 hlines
    rw [commandsOf_cons, List.map_cons, converse, react, ofBytes?_encode]
    cases hentry : Entry.ofText line with
    | leave => exact ⟨nofun, [], [], nofun, rfl, rfl, Or.inl ⟨rfl, rfl⟩⟩
    | blank =>
      obtain ⟨own, hown, hwork⟩ := hcourse (typed.map Utf8.encode).length x
      obtain ⟨hsound', h'⟩ := Exchange.singleLined_run hown hsound h
      obtain ⟨hreplies, events, left, hplays⟩ := ih hrest hsound' h'
      dsimp only
      rw [← hwork]
      exact ⟨hreplies, own ++ events, left, hplays.after_own hown⟩
    | call command =>
      have hcommand := singleLine_of_call hline hentry
      generalize (typed.map Utf8.encode).length = n
      obtain ⟨hreply, hafter⟩ :=
        Exchange.singleLined_call h hsound hcommand (c.surroundings n) capacity
      have hsoundAfter : (x.call (c.surroundings n) command capacity).2.store.Sound range :=
        Exchange.sound_after hsound (.event (.call (c.surroundings n) command capacity))
      dsimp only
      cases hcall : x.call (c.surroundings n) command capacity with
      | mk outcome y =>
        rw [hcall] at hreply hafter hsoundAfter
        cases outcome with
        | panic =>
          have hbreaks := breaksOff_of_call hsound h (congrArg Prod.fst hcall)
          exact ⟨nofun, [], command :: commandsOf typed, nofun, rfl, rfl,
            Or.inr ⟨rfl, _, command, commandsOf typed, rfl, hbreaks⟩⟩
        | reply text =>
          obtain ⟨own, hown, hwork⟩ := hcourse n y
          obtain ⟨hsound', h'⟩ := Exchange.singleLined_run hown hsoundAfter hafter
          obtain ⟨hreplies, events, left, hplays⟩ := ih hrest hsound' h'
          dsimp only
          rw [← hwork]
          exact ⟨List.forall_mem_cons.2 ⟨hreply, hreplies⟩, _, left,
            (hplays.after_own hown).after_call hcall⟩

/-! ## Replies by number -/

/-- Each line of a run has an outcome, and nothing else has. -/
theorem length_run_fst (events : List ExchangeEvent) (x : Exchange) :
    (x.run events).1.length = (events.filterMap lineOf?).length := by
  induction events generalizing x with
  | nil => rfl
  | cons event events ih =>
    show ((x.step event).1.toList ++ ((x.step event).2.run events).1).length = _
    rw [List.length_append, ih, List.filterMap_cons]
    cases event with
    | call w line capacity => exact Nat.add_comm 1 _
    | _ => exact Nat.zero_add _

/-- An outcome is that of one call, at the state that the events before have led to. -/
theorem exists_call_of_getElem? {outcome : Outcome} {k : Nat}
    (h : (x.run events).1[k]? = some outcome) :
    ∃ before w line capacity since, events = before ++ .call w line capacity :: since ∧
      (before.filterMap lineOf?).length = k ∧
      ((x.run before).2.call w line capacity).1 = outcome := by
  induction events generalizing x k with
  | nil => cases h
  | cons event events ih =>
    change ((x.step event).1.toList ++ ((x.step event).2.run events).1)[k]? = some outcome at h
    -- an event without an outcome leaves the numbers of the others as they are
    have hskip (hnone : (x.step event).1 = none) (hline : lineOf? event = none) :
        ∃ before w line capacity since, event :: events = before ++ .call w line capacity :: since ∧
          (before.filterMap lineOf?).length = k ∧
          ((x.run before).2.call w line capacity).1 = outcome := by
      rw [hnone] at h
      obtain ⟨before, w, line, capacity, since, rfl, hnumber, hanswer⟩ := ih h
      refine ⟨event :: before, w, line, capacity, since, rfl, ?_, hanswer⟩
      rw [List.filterMap_cons, hline]
      exact hnumber
    cases event with
    | call w line capacity =>
      cases k with
      | zero => exact ⟨[], w, line, capacity, events, rfl, rfl, Option.some.inj h⟩
      | succ k =>
        obtain ⟨before, w', line', capacity', since, rfl, hnumber, hanswer⟩ := ih h
        exact ⟨.call w line capacity :: before, w', line', capacity', since, rfl,
          congrArg Nat.succ hnumber, hanswer⟩
    | _ => exact hskip rfl rfl

/-- A reply is what the line with its number was answered, after the lines before it. -/
structure Answers (capacity : Nat) (x : Exchange) (lines : List String)
    (events : List ExchangeEvent) (k : Nat) (reply : String) (before : List ExchangeEvent) :
    Prop where
  before_prefix : before <+: events
  lines_before : before.filterMap lineOf? = lines.take k
  answer : ∃ w line, lines[k]? = some line ∧
    ((x.run before).2.call w line capacity).1 = .reply reply

theorem Plays.answers (h : Plays capacity x lines t events left) {k : Nat} {reply : String}
    (hk : t.replies[k]? = some reply) :
    ∃ before, Answers capacity x lines events k reply before := by
  have houtcome : (x.run events).1[k]? = some (.reply reply) := by
    rw [h.replies_eq, List.getElem?_map, hk]
    rfl
  obtain ⟨before, w, line, capacity', since, rfl, hnumber, hanswer⟩ :=
    exists_call_of_getElem? houtcome
  obtain rfl : capacity' = capacity := by
    rcases h.inner (.call w line capacity') (by simp) with hinner | ⟨w', line', heq⟩
    · cases hinner
    · cases heq
      rfl
  have hlines : lines = before.filterMap lineOf? ++ line :: (since.filterMap lineOf? ++ left) := by
    rw [← h.lines_eq, List.filterMap_append, List.append_assoc]
    rfl
  refine ⟨before, List.prefix_append _ _, ?_, w, line, ?_, hanswer⟩
  · rw [hlines, ← hnumber, List.take_left]
  · rw [hlines, ← hnumber, List.getElem?_append_right (Nat.le_refl _), Nat.sub_self]
    rfl

theorem Plays.length_eq (h : Plays capacity x lines t events left) :
    t.replies.length + left.length = lines.length := by
  rw [← h.lines_eq, List.length_append, ← length_run_fst events x, h.replies_eq, List.length_map]

end Plays

/-! ## Output -/

/-- **The output is cut at its newlines into the replies**, and nothing stands behind the last. -/
theorem splitOn_output {t : Transcript} (h : ∀ reply ∈ t.replies, SingleLine reply) :
    t.output.toList.splitOn '\n' = t.replies.map String.toList ++ [[]] := by
  rw [Transcript.output]
  generalize t.replies = replies at h
  induction replies with
  | nil => rfl
  | cons reply replies ih =>
    obtain ⟨hreply, hrest⟩ := List.forall_mem_cons.1 h
    have hline : (String.join ((reply :: replies).map (· ++ "\n"))).toList =
        reply.toList ++ '\n' :: (String.join (replies.map (· ++ "\n"))).toList := by
      rw [List.map_cons, String.join_cons]
      simp
    rw [hline, List.splitOn_append_cons_self_of_not_mem hreply, ih hrest]
    rfl

/-! ## The theorem -/

/-- What becomes of a text typed in. -/
def transcript (c : Course) (capacity : Nat) (input : String) (x : Exchange) : Transcript :=
  converse c capacity (splitLines (Utf8.encode input)) x

/-- **One line of output for each line that is carried out.** Take any settings with which a session
is opened, any capacity, any text, and anything that the workers and the link do between the lines.
No reply holds a newline, so the output is cut at its newlines into the replies. The session is a
run of host calls with the lines that are carried out, in order. The reply with number `k` is what
the line with number `k` was answered after those before it, and no line is left without a reply
unless the call with it breaks off. -/
theorem output_answers_line_by_line {o : Options} {s : Settings} {processors : Nat} {draw : UInt64}
    {x : Exchange} (hlaunch : o.launch processors draw s = .ok x) {c : Course}
    (hcourse : c.IsInner) (input : String) :
    (∀ reply ∈ (transcript c o.capacity input x).replies, SingleLine reply) ∧
    (transcript c o.capacity input x).output.toList.splitOn '\n' =
      (transcript c o.capacity input x).replies.map String.toList ++ [[]] ∧
    ∃ events left,
      Plays o.capacity x (commandsOf (linesOf input)) (transcript c o.capacity input x) events
        left ∧
      (transcript c o.capacity input x).replies.length + left.length =
        (commandsOf (linesOf input)).length ∧
      ∀ k reply, (transcript c o.capacity input x).replies[k]? = some reply →
        ∃ before, Answers o.capacity x (commandsOf (linesOf input)) events k reply before := by
  obtain ⟨range, hstart, -⟩ := Exchange.consistent_launch hlaunch
  have hlined := Exchange.singleLined_launch hlaunch
  obtain ⟨typed, htyped, hsingle, hlines⟩ := exists_typed input
  have hcommands : commandsOf (linesOf input) = commandsOf typed := by
    rcases hlines with hlines | hlines
    · rw [hlines]
    · rw [hlines, commandsOf_concat_empty]
  rw [hcommands, transcript, htyped]
  obtain ⟨hreplies, events, left, hplays⟩ := plays_converse hcourse hsingle hstart.sound hlined
  exact ⟨hreplies, splitOn_output hreplies, events, left, hplays, hplays.length_eq,
    fun _ _ => hplays.answers⟩

/-- After each line one worker takes a task and is done with it. -/
def briskCourse : Course where
  surroundings _ := Exchange.echoSurroundings
  work _ x := (x.run [.start, .finish Exchange.echoSurroundings 0]).2

theorem isInner_briskCourse : briskCourse.IsInner :=
  fun _ _ => ⟨[.start, .finish Exchange.echoSurroundings 0], by decide, rfl⟩

/-- A kept text is collected from the worker, with a blank line in between and one behind the
end. -/
theorem output_answers_line_by_line_of_kept :
    Options.launch 1 0 {} { testMode := true } = .ok Exchange.echoStart ∧
    commandsOf (linesOf "9:ADD::MISC:m\n 2:m:TEST:x\r\n\n4:1\nquit\n9:VERSION") =
      ["9:ADD::MISC:m", "2:m:TEST:x", "4:1"] ∧
    (transcript briskCourse 10240 "9:ADD::MISC:m\n 2:m:TEST:x\r\n\n4:1\nquit\n9:VERSION"
      Exchange.echoStart).output.toList.splitOn '\n' =
      ["[1]".toList, "[2,\"1\"]".toList, "x".toList, []] ∧
    ∀ input, ∀ reply ∈ (transcript (.prompt fun _ => Exchange.echoSurroundings) 10240 input
      Exchange.echoStart).replies, SingleLine reply := by
  have hlaunch : Options.launch 1 0 {} { testMode := true } = .ok Exchange.echoStart := rfl
  refine ⟨hlaunch, by decide +kernel, ?_, fun input => ?_⟩
  · rw [(output_answers_line_by_line hlaunch isInner_briskCourse _).2.1]
    decide +kernel
  · exact (output_answers_line_by_line hlaunch (isInner_prompt _) input).1

/-- A link whose thread cannot be named breaks off the session, so that two of three lines are
without a reply. No handler is registered, so none is at fault. -/
theorem output_stops_without_name :
    Options.launch 1 0 Exchange.namelessStart.settings {} = .ok Exchange.namelessStart ∧
    (∀ name : String, Exchange.namelessStart.registry[name]? = none) ∧
    commandsOf (linesOf "9:VERSION\n9:START_RCON:a\x00\n9:VERSION\n") =
      ["9:VERSION", "9:START_RCON:a\x00", "9:VERSION"] ∧
    transcript briskCourse 10240 "9:VERSION\n9:START_RCON:a\x00\n9:VERSION\n"
      Exchange.namelessStart = ⟨["0.1.0"], .aborted⟩ := by
  have hlaunch : Options.launch 1 0 Exchange.namelessStart.settings {} =
      .ok Exchange.namelessStart := rfl
  refine ⟨hlaunch, fun name => ?_, by decide +kernel, by decide +kernel⟩
  exact Std.ExtTreeMap.getElem?_empty

end Switchboard.Terminal
