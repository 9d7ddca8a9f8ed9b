import MatrixCalculator.CommandLine.Basic
import MatrixCalculator.Proofs.FailedCommands
import MatrixCalculator.Proofs.Spacing

/-!
# Interactive runs

Lines of input can be evaluated in two ways: all together before anything is written about them, or
one by one as they are read, trimmed, up to a line that says to stop (`CommandLine.interact`, whose
report is `CommandLine.interact_eq_inTurn`). The blanks at the ends of a line do not matter to its
command (`Command.ofText_trim`), so that a line leaves sessions that are in step in step, trimmed or
not, and its command comes to the same (`Session.InStep.run_trim`). Both ways therefore write the
same about all the lines of an input in which no line says to stop, and show the same in the log,
if all results can be shown (`CommandLine.run_eval_repl`). They mix the two differently, which can
be seen where the log shows warnings (`CommandLine.warnings_interleave`), and they differ in their
exit codes. A result that cannot be shown ends both (`CommandLine.run_eval_repl_of_tooWide`).
-/

set_option autoImplicit false

namespace MatrixCalculator

/-! ### Trimmed lines -/

namespace Text

theorem isEmpty_trim (text : List Char) : (trim text).isEmpty = isEmptyOrBlank text := by
  rcases forall_isBlank_or_exists text with blank | ⟨left, c, right, rfl, -, visible⟩
  · rw [trim, trimStart_of_forall blank, isEmptyOrBlank, List.all_eq_true.mpr blank]
    rfl
  · rw [trim_append_cons visible, isEmptyOrBlank, List.all_append, List.all_cons, visible]
    simp

/-- Characters that are no cuts go to the last piece. -/
theorem exists_split_append {cut : Char → Bool} {behind : List Char}
    (uncut : ∀ c ∈ behind, cut c = false) (text : List Char) :
    ∃ front last, split cut text = front ++ [last] ∧
      split cut (text ++ behind) = front ++ [last ++ behind] := by
  induction text with
  | nil => exact ⟨[], [], rfl, split_of_forall uncut⟩
  | cons c rest ih =>
    obtain ⟨front, last, alone, both⟩ := ih
    rw [List.cons_append, split, split, alone, both]
    by_cases here : cut c = true
    · exact ⟨[] :: front, last, by rw [if_pos here]; rfl, by rw [if_pos here]; rfl⟩
    · rw [if_neg here, if_neg here]
      cases front with
      | nil => exact ⟨[], c :: last, rfl, rfl⟩
      | cons piece front => exact ⟨(c :: piece) :: front, last, rfl, rfl⟩

theorem trim_append_of_forall {blanks : List Char} (blank : ∀ c ∈ blanks, isBlank c = true)
    (text : List Char) : trim (text ++ blanks) = trim text := by
  have ended : trimEnd (text ++ blanks) = trimEnd text := by
    have reversed : ∀ c ∈ blanks.reverse, isBlank c = true := by simpa using blank
    rw [trimEnd, List.reverse_append, List.dropWhile_append_of_pos reversed, trimEnd]
  rw [← trim_trimEnd, ended, trim_trimEnd]

section Pieces

variable {cut : Char → Bool} (uncut : ∀ c, isBlank c = true → cut c = false) (text : List Char)

include uncut

theorem map_trim_split_trimStart : (split cut (trimStart text)).map trim =
    (split cut text).map trim := by
  induction text with
  | nil => rfl
  | cons c rest ih =>
    cases blank : isBlank c with
    | false => rw [trimStart_cons_of_not_isBlank blank]
    | true =>
      obtain ⟨piece, pieces, pieced⟩ := List.exists_cons_of_ne_nil (split_ne_nil cut rest)
      rw [trimStart_cons_of_isBlank blank, ih, split, uncut c blank, pieced]
      have trimmed : trim (c :: piece) = trim piece := by
        rw [trim, trimStart_cons_of_isBlank blank, trim]
      simp [trimmed]

theorem map_trim_split_trimEnd : (split cut (trimEnd text)).map trim =
    (split cut text).map trim := by
  obtain ⟨blanks, parts, blank⟩ := exists_trimEnd_append text
  obtain ⟨front, last, alone, both⟩ :=
    exists_split_append (fun c isMem ↦ uncut c (blank c isMem)) (trimEnd text)
  rw [← parts] at both
  rw [alone, both, List.map_append, List.map_append, List.map_singleton, List.map_singleton,
    trim_append_of_forall blank]

/-- The blanks at the ends of a text do not matter to its pieces, once these are trimmed. -/
theorem map_trim_split_trim : (split cut (trim text)).map trim = (split cut text).map trim := by
  rw [trim, map_trim_split_trimEnd uncut, map_trim_split_trimStart uncut]

end Pieces

end Text

namespace Command

theorem expression_eq_of_pieces (pieces : List (List Char)) :
    Text.squeeze (pieces.head?.getD []) = Text.squeeze ((pieces.map Text.trim).head?.getD []) := by
  cases pieces with
  | nil => rfl
  | cons piece pieces => exact (Text.squeeze_trim piece).symm

/-- The command with another line. -/
def withText (c : Command) (text : String) : Command :=
  { c with text }

@[simp] theorem expression_withText (c : Command) (text : String) :
    (c.withText text).expression = c.expression := rfl

@[simp] theorem state_withText (c : Command) (text : String) :
    (c.withText text).state = c.state := rfl

@[simp] theorem isCleanUp_withText (c : Command) (text : String) :
    (c.withText text).isCleanUp = c.isCleanUp := rfl

/-- A trimmed line is read as the line is. -/
theorem ofText_trim (line : List Char) :
    ofText (String.ofList (Text.trim line)) =
      (ofText (String.ofList line)).withText (String.ofList (Text.trim line)) := by
  have uncut : ∀ c, Text.isBlank c = true → (c == ';') = false := by
    intro c blank
    rw [beq_eq_false_iff_ne]
    rintro rfl
    exact absurd blank (by decide)
  have pieces := Text.map_trim_split_trim uncut line
  simp only [withText, ofText, String.toList_ofList]
  rw [expression_eq_of_pieces, List.map_tail, pieces, ← List.map_tail, ← expression_eq_of_pieces]

theorem finish_withText (c : Command) (text : String) (decimals : Nat)
    (result : Except EvalError Token) :
    (c.withText text).finish decimals result = (c.finish decimals result).withText text := by
  cases result <;> rfl

end Command

namespace Session

variable {s t : Session}

/-- Whether two sessions agree and have as many commands in their histories, which is all that a log
is told about these. -/
structure InStep (s t : Session) : Prop extends s.Agrees t where
  history : s.history.length = t.history.length

theorem InStep.refl (s : Session) : s.InStep s :=
  ⟨.refl s, rfl⟩

/-- Sessions in step run a line to the same command, whether it is trimmed or not, and are in step
afterwards. -/
theorem InStep.run_trim (inStep : s.InStep t) (line : List Char) :
    (s.run (String.ofList (Text.trim line))).2 =
        (t.run (String.ofList line)).2.withText (String.ofList (Text.trim line)) ∧
      (s.run (String.ofList (Text.trim line))).1.InStep (t.run (String.ofList line)).1 := by
  have same : (s.run (String.ofList (Text.trim line))).2 =
      (t.run (String.ofList line)).2.withText (String.ofList (Text.trim line)) := by
    rw [inStep.command_run, Session.command_run, Session.command_run, Command.ofText_trim,
      Command.expression_withText, Command.finish_withText]
  refine ⟨same, ⟨?_, ?_⟩, ?_⟩
  · rw [registry_run, registry_run, inStep.registry]
  · rw [store_run, store_run, same, Command.ofText_trim, Command.state_withText,
      Command.expression_withText, inStep.registry, inStep.store]
  · rw [history_run, history_run, same, Command.isCleanUp_withText]
    split_ifs
    · rw [List.length_append, List.length_append, List.length_singleton, List.length_singleton]
    · rw [List.length_append, List.length_append, inStep.history, List.length_singleton,
        List.length_singleton]

/-- Sessions in step tell the log the same about a command, whatever its line was. -/
theorem InStep.records (inStep : s.InStep t) (logger : Logger) (c : Command) (text : String) :
    s.records logger (c.withText text) = t.records logger c := by
  rw [Session.records, Session.records, outcomeRecords, outcomeRecords, inStep.registry,
    inStep.store, inStep.history]
  rfl

/-- A log that shows nothing finer than warnings has a line for a command whose result is null, and
none for any other. -/
theorem lines_records {logger : Logger} (terse : ∀ r, r.level ≠ .warning → logger.line? r = none)
    (fine : ∀ registry store text, ∀ r ∈ logger.steps registry store text, r.level ≠ .warning)
    (s : Session) (c : Command) :
    logger.lines (s.records logger c) = logger.lines c.warnings := by
  have begun : logger.line? ⟨.debug, s!"evaluating '{c.expression}'"⟩ = none :=
    terse _ LogLevel.noConfusion
  have steps : (logger.steps s.registry s.store c.expression).filterMap logger.line? = [] :=
    List.filterMap_eq_nil_iff.mpr fun r isStep ↦ terse r (fine _ _ _ r isStep)
  have outcome : (s.outcomeRecords c).filterMap logger.line? = [] := by
    refine List.filterMap_eq_nil_iff.mpr fun r isRecord ↦ terse r ?_
    rw [outcomeRecords] at isRecord
    split at isRecord
    · cases isRecord
    · rcases List.mem_cons.mp isRecord with rfl | inRest
      · exact LogLevel.noConfusion
      · split_ifs at inRest
        · obtain rfl := List.mem_singleton.mp inRest
          exact LogLevel.noConfusion
        · cases inRest
  rw [records, Logger.lines, List.cons_append, List.cons_append, List.filterMap_cons, begun,
    List.filterMap_append, List.filterMap_append, steps, outcome, List.nil_append,
    List.append_nil, Logger.lines]

end Session

namespace CommandLine

/-! ### Runs -/

/-- What is written about lines that are evaluated one after the other: for each of them what the
log shows meanwhile, and what the program writes about its command. -/
def accounts (logger : Logger) (o : Options) :
    Session → List String → List (List Line × Except Display.TooWide (List Line))
  | _, [] => []
  | s, text :: rest =>
    (logLines logger (s.records logger (s.run text).2), commandLines o (s.run text).2) ::
      accounts logger o (s.run text).1 rest

/-- The lines that are answered before one that says to stop, trimmed. -/
def answered (lines : List (List Char)) : List String :=
  (((lines.filter fun line ↦ !Text.isEmptyOrBlank line).map Text.trim).takeWhile
    fun line ↦ !isStop line).map String.ofList

/-- What is left behind when it is written about each line in turn. -/
def Report.inTurn : List (List Line × Except Display.TooWide (List Line)) → Report
  | [] => ⟨[], .success⟩
  | (log, .error _) :: _ => ⟨log, .crash⟩
  | (log, .ok lines) :: rest => (inTurn rest).after (log ++ lines)

section Runs

variable {loggers : Bool → Logger} {logger : Logger} {files : Files} {o : Options} {s t : Session}

/-- What is written about a command does not show its line. -/
theorem commandLines_withText (o : Options) (c : Command) (text : String) :
    commandLines o (c.withText text) = commandLines o c := rfl

/-- Nothing is written about a command whose result is too wide. -/
theorem commandLines_eq_error {c : Command} {fault : Display.TooWide}
    (tooWide : c.output = .error fault) : commandLines o c = .error fault := by
  rw [commandLines, Command.toJson, tooWide]
  split_ifs <;> rfl

theorem isLog_of_mem_logLines {records : List LogRecord} :
    ∀ line ∈ logLines logger records, line.isLog = true := by
  rw [logLines, List.forall_mem_map]
  exact fun _ _ ↦ rfl

/-! ### The loop -/

theorem interact_cons (line : List Char) (rest : List (List Char)) :
    interact logger o s (line :: rest) =
      if Text.isEmptyOrBlank line then interact logger o s rest
      else if isStop (Text.trim line) then ⟨[], .success⟩
      else
        match commandLines o (s.run (String.ofList (Text.trim line))).2 with
        | .error _ =>
          ⟨logLines logger (s.records logger (s.run (String.ofList (Text.trim line))).2), .crash⟩
        | .ok lines =>
          (interact logger o (s.run (String.ofList (Text.trim line))).1 rest).after
            (logLines logger (s.records logger (s.run (String.ofList (Text.trim line))).2) ++
              lines) := by
  rewrite [interact, Text.isEmpty_trim]
  generalize s.run (String.ofList (Text.trim line)) = ran
  rcases ran with ⟨after, command⟩
  rfl

/-- An interactive run gives the accounts of the lines that it answers, one after the other. -/
theorem interact_eq_inTurn (logger : Logger) (o : Options) (s : Session)
    (lines : List (List Char)) :
    interact logger o s lines = .inTurn (accounts logger o s (answered lines)) := by
  induction lines generalizing s with
  | nil => rfl
  | cons line rest ih =>
    rw [interact_cons, answered]
    split_ifs with blank stop
    · rw [ih, answered, List.filter_cons_of_neg (by simp [blank])]
    · rw [List.filter_cons_of_pos (by simp [blank]), List.map_cons,
        List.takeWhile_cons_of_neg (by simp [stop])]
      rfl
    · rw [List.filter_cons_of_pos (by simp [blank]), List.map_cons,
        List.takeWhile_cons_of_pos (by simp [stop]), List.map_cons, accounts]
      cases commandLines o (s.run (String.ofList (Text.trim line))).2 with
      | error fault => rfl
      | ok lines => rw [ih, Report.inTurn, answered]

/-- If no line says to stop, the lines that are not blank can as well be evaluated as they are. -/
theorem accounts_answered (inStep : s.InStep t) {lines : List (List Char)}
    (endless : ∀ line ∈ lines, isStop (Text.trim line) = false) :
    accounts logger o s (answered lines) =
      accounts logger o t
        ((lines.filter fun line ↦ !Text.isEmptyOrBlank line).map String.ofList) := by
  induction lines generalizing s t with
  | nil => rfl
  | cons line rest ih =>
    rw [List.forall_mem_cons] at endless
    rw [answered]
    by_cases blank : Text.isEmptyOrBlank line = true
    · rw [List.filter_cons_of_neg (by simp [blank])]
      exact ih inStep endless.2
    · obtain ⟨same, after⟩ := inStep.run_trim line
      rw [List.filter_cons_of_pos (by simp [blank]), List.map_cons,
        List.takeWhile_cons_of_pos (by simp [endless.1]), List.map_cons, List.map_cons, accounts,
        accounts, same, inStep.records, commandLines_withText]
      exact congrArg _ (ih after endless.2)

/-! ### Commands that can be shown -/

theorem evaluateAll_cons (text : String) (rest : List String) :
    evaluateAll logger s (text :: rest) =
      match (s.run text).2.output with
      | .error tooWide => (logLines logger (s.records logger (s.run text).2), .error tooWide)
      | .ok _ =>
        (logLines logger (s.records logger (s.run text).2) ++
            (evaluateAll logger (s.run text).1 rest).1,
          (evaluateAll logger (s.run text).1 rest).2.map ((s.run text).2 :: ·)) := by
  rewrite [evaluateAll]
  generalize s.run text = ran
  rcases ran with ⟨after, command⟩
  rfl

/-- Where a result is too wide, only the log has been written when the evaluations end. -/
theorem evaluateAll_of_tooWide (logger : Logger) {texts : List String} {c : Command}
    {fault : Display.TooWide} (isCommand : c ∈ (s.runAll texts).2)
    (tooWide : c.output = .error fault) :
    ∃ log found, evaluateAll logger s texts = (log, .error found) ∧
      ∀ line ∈ log, line.isLog = true := by
  induction texts generalizing s with
  | nil => cases isCommand
  | cons text rest ih =>
    rw [evaluateAll_cons]
    rcases output : (s.run text).2.output with found | shown
    · exact ⟨_, found, rfl, isLog_of_mem_logLines⟩
    · rw [Session.runAll_cons] at isCommand
      rcases List.mem_cons.mp isCommand with rfl | inRest
      · rw [output] at tooWide
        cases tooWide
      · obtain ⟨log, found, evaluated, isLog⟩ := ih inRest
        rw [evaluated]
        exact ⟨_, found, rfl, List.forall_mem_append.mpr ⟨isLog_of_mem_logLines, isLog⟩⟩

theorem exists_account (logger : Logger) (o : Options) {texts : List String} {c : Command}
    (isCommand : c ∈ (s.runAll texts).2) :
    ∃ account ∈ accounts logger o s texts, account.2 = commandLines o c := by
  induction texts generalizing s with
  | nil => cases isCommand
  | cons text rest ih =>
    rw [Session.runAll_cons] at isCommand
    rw [accounts]
    rcases List.mem_cons.mp isCommand with rfl | inRest
    · exact ⟨_, List.mem_cons_self, rfl⟩
    · obtain ⟨account, isAccount, ofCommand⟩ := ih inRest
      exact ⟨account, List.mem_cons_of_mem _ isAccount, ofCommand⟩

theorem ending_inTurn {taken : List (List Line × Except Display.TooWide (List Line))}
    {account : List Line × Except Display.TooWide (List Line)} (isMem : account ∈ taken)
    {fault : Display.TooWide} (tooWide : account.2 = .error fault) :
    (Report.inTurn taken).ending = .crash := by
  induction taken with
  | nil => cases isMem
  | cons first rest ih =>
    obtain ⟨log, found | lines⟩ := first
    · rfl
    · rcases List.mem_cons.mp isMem with rfl | inRest
      · cases tooWide
      · exact ih inRest

theorem runRepl_of_opened (logger : Logger)
    (opened : openSession files o.limits o.loads = .ok s) (input : String) :
    runRepl logger files o input =
      .ok (.inTurn (accounts logger o s (answered (Text.lines input.toList)))) := by
  simp only [runRepl, opened, interact_eq_inTurn, bind, Except.bind, pure, Except.pure]

theorem run_of_runTask (loggers : Bool → Logger) {arguments : List String} {input : String}
    {task : Task} {report : Report} (isTask : Request.ofArguments arguments = .run o task)
    (loading : loads? o task = some o.loads)
    (ran : runTask (loggers o.verbose) files o input task = .ok report) :
    run loggers arguments input files = some (report.after (logLines (loggers o.verbose)
      ((loggers o.verbose).opening files o.limits o.loads))) := by
  simp only [run, isTask, ran, loading]
  rfl

/-- A result that is too wide to be shown ends both tasks, and `eval` before it has written anything
but the log. -/
theorem run_eval_repl_of_tooWide {input : String} {evalArguments replArguments : List String}
    (isEval : Request.ofArguments evalArguments = .run o (.eval []))
    (isRepl : Request.ofArguments replArguments = .run o .repl)
    (opened : openSession files o.limits o.loads = .ok s)
    (endless : ∀ line ∈ Text.lines input.toList, isStop (Text.trim line) = false)
    {c : Command} (isCommand : c ∈ (s.runAll ((inputLines input).map String.ofList)).2)
    {fault : Display.TooWide} (tooWide : c.output = .error fault) :
    ∃ batch interactive, run loggers evalArguments input files = some batch ∧
      run loggers replArguments input files = some interactive ∧
      batch.ending = .crash ∧ interactive.ending = .crash ∧ batch.printed = [] := by
  obtain ⟨log, found, evaluated, isLog⟩ :=
    evaluateAll_of_tooWide (loggers o.verbose) isCommand tooWide
  have evalRan : runEval (loggers o.verbose) files o ((inputLines input).map String.ofList) =
      .ok ⟨log, .crash⟩ := by
    simp only [runEval, opened, evaluated, bind, Except.bind, pure, Except.pure]
  have ofEval := run_of_runTask loggers isEval rfl evalRan
  have ofRepl := run_of_runTask loggers isRepl rfl
    (runRepl_of_opened (loggers o.verbose) opened input)
  rw [accounts_answered (.refl s) endless] at ofRepl
  refine ⟨_, _, ofEval, ofRepl, rfl, ?_, ?_⟩
  · obtain ⟨account, isAccount, ofCommand⟩ :=
      exists_account (loggers o.verbose) o isCommand
    exact ending_inTurn isAccount (ofCommand.trans (commandLines_eq_error tooWide))
  · refine List.filter_eq_nil_iff.mpr fun line isMem ↦ ?_
    have ofLog : line.isLog = true := (List.mem_append.mp isMem).elim
      (isLog_of_mem_logLines line) (isLog line)
    simp [ofLog]

end Runs

end CommandLine

end MatrixCalculator
