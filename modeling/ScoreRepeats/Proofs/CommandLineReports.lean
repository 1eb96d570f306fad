import Mathlib.Algebra.BigOperators.Group.List.Basic
import ScoreRepeats.CommandLine
import ScoreRepeats.Proofs.FailingSteps
import ScoreRepeats.Proofs.ValidResolution

/-!
# What a run reports

A run of the program on a file prints the order of a score, or it reports one error and prints
nothing. Which of the two, and which report, follows from the file alone: whether a score is read from
it (`HoldsScore`), and whether that is played (`Plays`) or breaks a rule (`BreaksRule`).

Of the reader of files it is only assumed that it does not break off (`Answers`). There are two more
failures that nothing reports: a value in the file may be nested too deep to be put in words
(`IsTooDeep`), and a line may not be one that the stream can write (`CanPrint`). Then the run is
broken off, before anything is printed or within the order. A printed order has a line for each bar
unless there are line breaks in the ids.
-/

set_option autoImplicit false
set_option relaxedAutoImplicit false

namespace ScoreRepeats.CommandLine

variable {Content : Type} {host : Host Content} {content : Except FileError Content}

/-! ### What there is in a file -/

/-- The reader reads the file, or tells why it cannot. -/
def Answers (reader : Reader Content) (content : Except FileError Content) : Prop :=
  ∀ file, content = .ok file → ∀ error, reader.read file = .error error → error.breaksOff = false

/-- There is a file, and this value is read from it. -/
def HoldsValue (host : Host Content) (content : Except FileError Content) (value : Value) : Prop :=
  ∃ file, content = .ok file ∧ host.reader.read file = .ok value

/-- There is a file, and this score is read from it. -/
def HoldsScore (host : Host Content) (content : Except FileError Content) (score : Score) : Prop :=
  ∃ value, HoldsValue host content value ∧ Score.ofValue host.room value = .ok score

/-- A value in the file would have to be put in words, but is nested too deep. -/
def IsTooDeep (host : Host Content) (content : Except FileError Content) : Prop :=
  ∃ value, HoldsValue host content value ∧
    Score.ofValue host.room value = .error (.unshown .tooDeep)

/-- The score in the file is played in this order. -/
def Plays (host : Host Content) (content : Except FileError Content) (order : PlayingOrder) : Prop :=
  ∃ score, HoldsScore host content score ∧
    perform score.bars (some score.rhythm) score.auftakt = .ok order

/-- The score in the file breaks a rule. -/
def BreaksRule (host : Host Content) (content : Except FileError Content) (violation : Violation) :
    Prop :=
  ∃ score, HoldsScore host content score ∧
    perform score.bars (some score.rhythm) score.auftakt = .error (.refused (.violation violation))

/-- A score is loaded just if it is read from a file. -/
theorem load_eq_ok_iff {path : String} {score : Score} :
    Score.load host.reader host.room path content = .ok score ↔ HoldsScore host content score := by
  unfold Score.load HoldsScore HoldsValue
  cases content with
  | error error => simp
  | ok file =>
    cases hread : host.reader.read file with
    | error error => simp [hread]
    | ok value => simp [hread, mapError_eq_ok_iff]

/-- Of the errors of scores only one breaks loading off. -/
theorem breaksOff_score_iff {error : ScoreError} :
    (LoadError.score error).breaksOff = true ↔ error = .unshown .tooDeep := by
  cases error with
  | unshown obstacle => cases obstacle <;> simp [LoadError.breaksOff]
  | _ => simp [LoadError.breaksOff]

/-- Where the reader answers, loading breaks off just at a value that is nested too deep. -/
theorem Answers.breaksOff_iff {path : String} {error : LoadError}
    (hanswers : Answers host.reader content)
    (hload : Score.load host.reader host.room path content = .error error) :
    error.breaksOff = true ↔
      error = .score (.unshown .tooDeep) ∧ IsTooDeep host content := by
  unfold Score.load at hload
  unfold IsTooDeep HoldsValue
  cases content with
  | error cause =>
    cases hload
    simp [LoadError.breaksOff]
  | ok file =>
    dsimp only at hload
    cases hread : host.reader.read file with
    | error cause =>
      rw [hread] at hload
      cases hload
      simp [LoadError.breaksOff, hanswers file rfl cause hread]
    | ok value =>
      rw [hread] at hload
      obtain ⟨cause, hcause, rfl⟩ := mapError_eq_error_iff.mp hload
      rw [breaksOff_score_iff, LoadError.score.injEq]
      exact ⟨fun hdeep ↦ ⟨hdeep, value, ⟨file, rfl, hread⟩, hdeep ▸ hcause⟩, And.left⟩

/-- A file holds one value at most. -/
theorem HoldsValue.unique {value value' : Value} (h : HoldsValue host content value)
    (h' : HoldsValue host content value') : value = value' := by
  obtain ⟨file, rfl, hread⟩ := h
  obtain ⟨_, ⟨⟩, hread'⟩ := h'
  exact Except.ok.inj (hread.symm.trans hread')

/-- A file holds one score at most. -/
theorem HoldsScore.unique {score score' : Score} (h : HoldsScore host content score)
    (h' : HoldsScore host content score') : score = score' := by
  have hload := @load_eq_ok_iff _ host content ""
  exact Except.ok.inj ((hload.mpr h).symm.trans (hload.mpr h'))

theorem Plays.unique {order order' : PlayingOrder} (h : Plays host content order)
    (h' : Plays host content order') : order = order' := by
  obtain ⟨score, hscore, hperform⟩ := h
  obtain ⟨score', hscore', hperform'⟩ := h'
  obtain rfl := hscore.unique hscore'
  exact Except.ok.inj (hperform.symm.trans hperform')

theorem BreaksRule.unique {violation violation' : Violation}
    (h : BreaksRule host content violation) (h' : BreaksRule host content violation') :
    violation = violation' := by
  obtain ⟨score, hscore, hperform⟩ := h
  obtain ⟨score', hscore', hperform'⟩ := h'
  obtain rfl := hscore.unique hscore'
  exact Refusal.violation.inj
    (PerformanceError.refused.inj (Except.error.inj (hperform.symm.trans hperform')))

/-- A file with a score has no value that is nested too deep to be told. -/
theorem HoldsScore.not_isTooDeep {score : Score} (h : HoldsScore host content score) :
    ¬ IsTooDeep host content := by
  rintro ⟨value', hvalue', hdeep⟩
  obtain ⟨value, hvalue, hscore⟩ := h
  obtain rfl := hvalue.unique hvalue'
  rw [hscore] at hdeep
  cases hdeep

/-! ### The log -/

/-- The errors in the log. -/
def Outcome.errors (outcome : Outcome) : List Record :=
  outcome.log.filter fun record ↦ record.level = .error

/-- The log of a run on a score, up to its success or failure. -/
def progress (arguments : Arguments) (score : Score) : List Record :=
  loaded score arguments.path :: if arguments.verbose then steps score else []

/-- The steps to a playing order are logged as details. -/
theorem level_eq_debug_of_mem_steps {score : Score} {record : Record} (h : record ∈ steps score) :
    record.level = .debug := by
  unfold steps at h
  cases hpiece : Structure.ofBars score.bars with
  | error refusal => simp [hpiece] at h
  | ok piece =>
    cases hvalid : piece.validate (some score.rhythm) score.auftakt with
    | error refusal =>
      simp only [hpiece, hvalid, List.mem_singleton] at h
      rw [h]
      rfl
    | ok index =>
      cases hresolve : piece.resolveWith (some score.rhythm) score.auftakt index with
      | error error =>
        simp only [hpiece, hvalid, hresolve, List.mem_cons, List.not_mem_nil, or_false] at h
        rcases h with rfl | rfl <;> rfl
      | ok order =>
        simp only [hpiece, hvalid, hresolve, List.mem_cons, List.not_mem_nil, or_false] at h
        rcases h with rfl | rfl | rfl <;> rfl

/-- As long as a run goes on it logs no error. -/
theorem level_ne_error_of_mem_progress {arguments : Arguments} {score : Score} {record : Record}
    (h : record ∈ progress arguments score) : record.level ≠ .error := by
  rcases List.mem_cons.mp h with rfl | hstep
  · exact Level.noConfusion
  · cases hverbose : arguments.verbose with
    | false => simp [hverbose] at hstep
    | true =>
      rw [hverbose, if_pos rfl] at hstep
      rw [level_eq_debug_of_mem_steps hstep]
      decide

theorem filter_progress (arguments : Arguments) (score : Score) :
    (progress arguments score).filter (fun record ↦ record.level = .error) = [] := by
  rw [List.filter_eq_nil_iff]
  intro record hmem
  simpa using level_ne_error_of_mem_progress hmem

/-- A report of a broken rule is told from other reports by its first letter. -/
theorem invalid_ne_unreadable (violation : Violation) (path message : String) :
    invalid violation ≠ unreadable path message := by
  intro h
  have hmessage := congrArg (fun record ↦ record.message.toList.head?) h
  simp [invalid, unreadable, failed] at hmessage

/-! ### The printed lines -/

/-- The lines of an order, one for each bar that sounds. -/
def linesOf (order : PlayingOrder) : List String :=
  order.entries.map fun entry ↦ playedLine entry.id entry.pass

/-- The stream can write all lines of an order. -/
def CanPrint (stream : Stream) (order : PlayingOrder) : Prop :=
  ∀ line ∈ linesOf order, stream.writes line = true

theorem textOf_cons (line : String) (lines : List String) :
    textOf (line :: lines) = line ++ "\n" ++ textOf lines := by
  rw [textOf, List.map_cons, String.join_cons]
  rfl

/-- Lines that can all be written are printed. -/
theorem printed_of_writes {stream : Stream} {log : List Record} {lines : List String}
    (h : ∀ line ∈ lines, stream.writes line = true) :
    printed stream log lines = ⟨.exit 0, textOf lines, log⟩ := by
  have hfind : lines.find? (fun line ↦ !stream.writes line) = none := by
    simpa [List.find?_eq_none] using h
  rw [printed, hfind, List.takeWhile_eq_self_iff.mpr h]

/-- Printing is broken off at the first line that cannot be written. -/
theorem exists_printed_eq {stream : Stream} {lines : List String} (log : List Record)
    (h : ¬ ∀ line ∈ lines, stream.writes line = true) :
    ∃ before line after, lines = before ++ line :: after ∧
      (∀ earlier ∈ before, stream.writes earlier = true) ∧ stream.writes line = false ∧
      printed stream log lines = ⟨.brokenOff (.printing line), textOf before, log⟩ := by
  induction lines with
  | nil => exact absurd (List.forall_mem_nil _) h
  | cons first rest ih =>
    by_cases hfirst : stream.writes first = true
    · rw [List.forall_mem_cons, and_iff_right hfirst] at h
      obtain ⟨before, line, after, rfl, hbefore, hline, hprinted⟩ := ih h
      refine ⟨first :: before, line, after, rfl, List.forall_mem_cons.mpr ⟨hfirst, hbefore⟩, hline, ?_⟩
      rw [printed, Outcome.mk.injEq] at hprinted ⊢
      rw [List.find?_cons, List.takeWhile_cons, hfirst]
      refine ⟨hprinted.1, ?_, rfl⟩
      exact (textOf_cons _ _).trans ((congrArg _ hprinted.2.1).trans (textOf_cons _ _).symm)
    · rw [Bool.not_eq_true] at hfirst
      refine ⟨[], first, rest, rfl, List.forall_mem_nil _, hfirst, ?_⟩
      simp [printed, hfirst]

/-- A line has the line breaks of the id and no others. -/
theorem count_playedLine (id : String) (pass : Nat) :
    (playedLine id pass).toList.count '\n' = id.toList.count '\n' := by
  have hdigits : '\n' ∉ Nat.toDigits 10 pass := fun h ↦
    absurd (Nat.isDigit_of_mem_toDigits (by decide) (by decide) h) (by decide)
  simp [playedLine, List.count_eq_zero.mpr hdigits]

/-- The text of an order has a line break for each bar, and those of the ids. -/
theorem count_textOf (order : PlayingOrder) : (textOf (linesOf order)).toList.count '\n' =
    order.entries.length + (order.entries.map fun entry ↦ entry.id.toList.count '\n').sum := by
  rw [textOf, linesOf]
  induction order.entries with
  | nil => rfl
  | cons entry rest ih =>
    simp [String.toList_join, count_playedLine] at ih ⊢
    omega

/-- The text of an order has as many lines as there are bars just if no id has a line break. -/
theorem count_textOf_eq_length_iff (order : PlayingOrder) :
    (textOf (linesOf order)).toList.count '\n' = order.entries.length ↔
      ∀ entry ∈ order.entries, '\n' ∉ entry.id.toList := by
  rw [count_textOf, Nat.add_eq_left, List.sum_eq_zero_iff_forall_eq_nat]
  simp [List.count_eq_zero]

/-! ### Runs -/

variable (arguments : Arguments)

/-- A run on a file with a score is a run on the score. -/
theorem HoldsScore.run_eq {score : Score} (h : HoldsScore host content score) :
    run host arguments content = runOn host.stream arguments score := by
  rw [run, load_eq_ok_iff.mpr h]

/-- A run on a score that is played prints the order, and logs no error. -/
theorem Plays.exists_run_eq {order : PlayingOrder} (h : Plays host content order) :
    ∃ log : List Record, log.filter (fun record ↦ record.level = .error) = [] ∧
      run host arguments content = printed host.stream log (linesOf order) := by
  obtain ⟨score, hscore, hperform⟩ := h
  refine ⟨progress arguments score, filter_progress arguments score, ?_⟩
  rw [hscore.run_eq arguments, runOn, hperform]
  dsimp only
  rw [PlayingOrder.pairs, List.map_map]
  rfl

/-- What a run leaves behind that prints an order. If the stream can write all lines the run succeeds,
and there are as many lines as bars unless ids have line breaks. Otherwise it is broken off at the
first line that cannot be written. -/
structure Outcome.Prints (outcome : Outcome) (stream : Stream) (order : PlayingOrder) : Prop where
  errors : outcome.errors = []
  whole : CanPrint stream order →
    outcome.ending = .exit 0 ∧ outcome.output = textOf (linesOf order) ∧
      (outcome.output.toList.count '\n' = order.entries.length ↔
        ∀ entry ∈ order.entries, '\n' ∉ entry.id.toList)
  part : ¬ CanPrint stream order → ∃ before line after, linesOf order = before ++ line :: after ∧
    (∀ earlier ∈ before, stream.writes earlier = true) ∧ stream.writes line = false ∧
    outcome.ending = .brokenOff (.printing line) ∧ outcome.output = textOf before

/-- A run on a score that is played prints the order. -/
theorem Plays.prints {order : PlayingOrder} (h : Plays host content order) :
    (run host arguments content).Prints host.stream order := by
  obtain ⟨log, hlog, hrun⟩ := h.exists_run_eq arguments
  rw [hrun]
  refine ⟨hlog, fun hcan ↦ ?_, fun hcannot ↦ ?_⟩
  · rw [printed_of_writes hcan]
    exact ⟨rfl, rfl, count_textOf_eq_length_iff order⟩
  · obtain ⟨before, line, after, hlines, hbefore, hline, hprinted⟩ := exists_printed_eq log hcannot
    rw [hprinted]
    exact ⟨before, line, after, hlines, hbefore, hline, rfl, rfl⟩

/-- A run on a file with a value that is nested too deep is broken off. -/
theorem IsTooDeep.run_eq (h : IsTooDeep host content) :
    run host arguments content = ⟨.brokenOff (.loading (.score (.unshown .tooDeep))), "", []⟩ := by
  obtain ⟨value, ⟨file, rfl, hread⟩, hdeep⟩ := h
  have hload : Score.load host.reader host.room arguments.path (.ok file) =
      .error (.score (.unshown .tooDeep)) := by
    rw [Score.load, hread]
    dsimp only
    rw [hdeep]
    rfl
  rw [run, hload]
  rfl

/-- What a run leaves behind that fails with one report. -/
structure Outcome.Fails (outcome : Outcome) (report : Record) : Prop where
  ending : outcome.ending = .exit 1
  output : outcome.output = ""
  errors : outcome.errors = [report]

/-- A run on a score that is refused fails. -/
theorem HoldsScore.fails {score : Score} {refusal : Refusal} (hscore : HoldsScore host content score)
    (hperform : perform score.bars (some score.rhythm) score.auftakt = .error (.refused refusal)) :
    (run host arguments content).Fails (refused arguments.path refusal) := by
  have hrun : run host arguments content =
      ⟨.exit 1, "", progress arguments score ++ [refused arguments.path refusal]⟩ := by
    rw [hscore.run_eq arguments, runOn, hperform]
    rfl
  have hlevel : (refused arguments.path refusal).level = .error := by
    cases refusal <;> rfl
  refine ⟨by rw [hrun], by rw [hrun], ?_⟩
  rw [hrun, Outcome.errors, List.filter_append, filter_progress, List.nil_append]
  simp [hlevel]

/-- A run on a file without a score fails, if no value is nested too deep. -/
theorem Answers.exists_fails (hanswers : Answers host.reader content)
    (hnone : ∀ score, ¬ HoldsScore host content score) (hdeep : ¬ IsTooDeep host content) :
    ∃ message, (run host arguments content).Fails (unreadable arguments.path message) := by
  cases hload : Score.load host.reader host.room arguments.path content with
  | ok score => exact absurd (load_eq_ok_iff.mp hload) (hnone score)
  | error error =>
    have hreported : error.breaksOff = false := by
      rw [← Bool.not_eq_true, hanswers.breaksOff_iff hload]
      exact fun h ↦ hdeep h.2
    have hrun : run host arguments content =
        ⟨.exit 1, "", [unreadable arguments.path error.message]⟩ := by
      rw [run, hload]
      dsimp only
      rw [hreported]
      rfl
    refine ⟨error.message, by rw [hrun], by rw [hrun], ?_⟩
    rw [hrun]
    rfl

/-- If no score in the file is played, a run on it fails with a report of the broken rule, or of the
file if no rule is broken. -/
theorem Answers.exists_report (hanswers : Answers host.reader content)
    (hplays : ¬ ∃ order, Plays host content order) (hdeep : ¬ IsTooDeep host content) :
    ∃ report, (run host arguments content).Fails report ∧
      ((∃ violation, BreaksRule host content violation ∧ report = invalid violation) ∨
        (∀ violation, ¬ BreaksRule host content violation) ∧
          ∃ message, report = unreadable arguments.path message) := by
  by_cases hholds : ∃ score, HoldsScore host content score
  · obtain ⟨score, hscore⟩ := hholds
    rcases Structure.perform_cases score.bars (some score.rhythm) score.auftakt with
      ⟨order, hperform⟩ | ⟨refusal, hperform⟩
    · exact absurd ⟨order, score, hscore, hperform⟩ hplays
    · refine ⟨_, hscore.fails arguments hperform, ?_⟩
      cases refusal with
      | violation violation => exact .inl ⟨violation, ⟨score, hscore, hperform⟩, rfl⟩
      | unwritable =>
        refine .inr ⟨?_, _, rfl⟩
        rintro violation ⟨score', hscore', hperform'⟩
        obtain rfl := hscore.unique hscore'
        rw [hperform] at hperform'
        cases hperform'
  · have hnone := not_exists.mp hholds
    obtain ⟨message, hfails⟩ := hanswers.exists_fails arguments hnone hdeep
    refine ⟨_, hfails, .inr ⟨?_, message, rfl⟩⟩
    rintro violation ⟨score, hscore, -⟩
    exact hnone score hscore

/-- What a run leaves behind that reports why no score is played: nothing printed and one error, on
the broken rule if there is one, and else on the file. -/
structure Outcome.Reports (outcome : Outcome) (host : Host Content) (path : String)
    (content : Except FileError Content) : Prop where
  output : outcome.output = ""
  errors : ∃ report, outcome.errors = [report] ∧
    (∀ violation, BreaksRule host content violation → report = invalid violation) ∧
    ((∃ violation, report = invalid violation) ↔ ∃ violation, BreaksRule host content violation) ∧
    ((∃ message, report = unreadable path message) ↔
      ¬ ∃ violation, BreaksRule host content violation)

/-- A failing run reports the broken rule, or the file if no rule is broken. -/
theorem Outcome.Fails.reports {outcome : Outcome} {report : Record} {path : String}
    (h : outcome.Fails report)
    (hreport : (∃ violation, BreaksRule host content violation ∧ report = invalid violation) ∨
      (∀ violation, ¬ BreaksRule host content violation) ∧
        ∃ message, report = unreadable path message) :
    outcome.Reports host path content := by
  refine ⟨h.output, report, h.errors, ?_⟩
  rcases hreport with ⟨violation, hbreaks, rfl⟩ | ⟨hnone, message, rfl⟩
  · refine ⟨fun other hother ↦ by rw [hbreaks.unique hother],
      iff_of_true ⟨violation, rfl⟩ ⟨violation, hbreaks⟩, ?_⟩
    refine iff_of_false ?_ (not_not_intro ⟨violation, hbreaks⟩)
    rintro ⟨message, h⟩
    exact invalid_ne_unreadable _ _ _ h
  · refine ⟨fun violation hbreaks ↦ absurd hbreaks (hnone violation), ?_,
      iff_of_true ⟨message, rfl⟩ (not_exists.mpr hnone)⟩
    refine iff_of_false ?_ (not_exists.mpr hnone)
    rintro ⟨violation, h⟩
    exact invalid_ne_unreadable _ _ _ h.symm

/-- A file whose score is played holds no value that is nested too deep to be told. -/
theorem Plays.not_isTooDeep {order : PlayingOrder} (h : Plays host content order) :
    ¬ IsTooDeep host content := by
  obtain ⟨score, hscore, -⟩ := h
  exact hscore.not_isTooDeep

/-- A run ends in one of four ways: with a whole order, within an order, at a value that is nested too
deep, or with a report. -/
theorem Answers.ending_cases (hanswers : Answers host.reader content) :
    (∃ order, Plays host content order ∧ CanPrint host.stream order ∧
        (run host arguments content).ending = .exit 0) ∨
      (∃ order line, Plays host content order ∧ ¬ CanPrint host.stream order ∧
        (run host arguments content).ending = .brokenOff (.printing line)) ∨
      (IsTooDeep host content ∧
        (run host arguments content).ending = .brokenOff (.loading (.score (.unshown .tooDeep)))) ∨
      (¬ IsTooDeep host content ∧ (¬ ∃ order, Plays host content order) ∧
        (run host arguments content).ending = .exit 1 ∧
        (run host arguments content).Reports host arguments.path content) := by
  by_cases hplays : ∃ order, Plays host content order
  · obtain ⟨order, horder⟩ := hplays
    have hprints := horder.prints arguments
    by_cases hcan : CanPrint host.stream order
    · exact .inl ⟨order, horder, hcan, (hprints.whole hcan).1⟩
    · obtain ⟨_, line, _, -, -, -, hending, -⟩ := hprints.part hcan
      exact .inr (.inl ⟨order, line, horder, hcan, hending⟩)
  · by_cases hdeep : IsTooDeep host content
    · exact .inr (.inr (.inl ⟨hdeep, by rw [hdeep.run_eq arguments]⟩))
    · obtain ⟨report, hfails, hreport⟩ := hanswers.exists_report arguments hplays hdeep
      exact .inr (.inr (.inr ⟨hdeep, hplays, hfails.ending, hfails.reports hreport⟩))

/-- What works with the text of a file here. -/
def usualHost : Host String := ⟨.yaml fun _ ↦ "no YAML", usualRoom, .utf8⟩

/-- The text of a file with a score that is played al Fine. -/
def textAlFine : String := "notation: \"A B@fine C D@dc\"\n"

/-- The text of a file with a bar whose id has a line break. -/
def textOfBrokenId : String := "bars: [\x7bid: \"A\\nB\"\x7d]\n"

/-- The text of a file with two bars, the second with half of a character for its id. -/
def textOfHalf : String := "bars: [\x7bid: A\x7d, \x7bid: \"\\ud800\"\x7d]\n"

/-- A missing file is reported. -/
example : run usualHost ⟨"score.yaml", false⟩ (.error .missing) =
    ⟨.exit 1, "", [⟨.error, "reprise.__main__",
      "Cannot read score score.yaml: [Errno 2] No such file or directory: 'score.yaml'"⟩]⟩ := by
  decide +kernel

/-- A Fine without a jump is reported, and no bar is printed. -/
example : run usualHost ⟨"score.yaml", false⟩ (.ok "notation: \"A B@fine C\"\n") =
    ⟨.exit 1, "", [⟨.info, "reprise.score_file", "Loaded 3 bars in 4/4 from score.yaml"⟩,
      ⟨.error, "reprise.__main__", "Invalid structure (fine_without_jump) at positions [1]: " ++
        "Fine found without a D.C. or D.S. instruction"⟩]⟩ := by
  decide +kernel

end ScoreRepeats.CommandLine
