import MirRange.Program
import MirRange.Proofs.Isolation
import MirRange.Proofs.JsonText

/-!
# Agreement of the commands

The analysis of a crate examines functions and files what it finds in reports; the command that
shows the state of one function looks the function up by name, runs it and prints what comes of it.
The two go separate ways: only the first asks whether the function is eligible, and only the second
has to find it.  Here they are brought together again.

* `FunctionReport.Tells`: a report says what came of running its function.
* `Function.reachSummary_of_analyze`: the report of an eligible function does.
* `Crate.find_of_reports`: the first report with a name belongs to the function that is found under
  this name.
* `Command.Ready.run_state`: what a whole run makes of the outcome of a command.
* `Crate.state_agrees`: what is printed is what is reported.
-/

namespace MirRange

/-! ### One function -/

/-- A report says what came of running its function: the state and the faults of a run, or the one
problem that kept the function from being run. -/
inductive FunctionReport.Tells (rep : FunctionReport) : Reached → Prop
  | completed {run : Run} : rep.ok = true → rep.state = some run.state →
      rep.statementErrors = run.faults.map (fun f => f.problem.toDocument) →
      rep.Tells (.completed run)
  | refused {p : Problem} : rep.ok = false → rep.errors = [p.toDocument] → rep.Tells (.refused p)

/-- A report that tells of a run has its state. -/
theorem FunctionReport.Tells.state_eq {rep : FunctionReport} {run : Run}
    (h : rep.Tells (.completed run)) : rep.state = some run.state := by
  cases h with
  | completed _ hstate _ => exact hstate

namespace Function

variable {f : Function} {checker : Overflow.Checker} {settings : Settings} {rep : FunctionReport}

/-- Only eligible functions are reported as analysed. -/
theorem isEligible_of_ok (h : f.analyze checker settings = .ok rep) (hok : rep.ok = true) :
    f.body.isEligible = true := by
  by_contra helig
  unfold analyze examine at h
  rw [if_neg helig] at h
  cases h
  cases hok

/-- **The report of an eligible function says what comes of running it** on the arguments of its
summary, wherever the examination stopped. -/
theorem reachSummary_of_analyze (h : f.analyze checker settings = .ok rep)
    (helig : f.body.isEligible = true) :
    ∃ reached, f.body.reachSummary = .ok reached ∧ rep.Tells reached := by
  unfold analyze examine at h
  rw [if_pos helig] at h
  cases hsignature : f.body.signature with
  | error e =>
    rw [hsignature] at h
    cases h
    rw [Body.reachSummary, Body.summary_of_signature_error hsignature]
    exact ⟨_, rfl, .refused rfl rfl⟩
  | ok types =>
    rw [hsignature] at h
    cases hsummary : f.body.summary with
    | error e =>
      rw [hsummary] at h
      cases h
      rw [Body.reachSummary, hsummary]
      exact ⟨_, rfl, .refused rfl rfl⟩
    | ok summary =>
      have hreach : f.body.reachSummary = f.body.reach summary.arguments := by
        rw [Body.reachSummary, hsummary]
      rw [hsummary] at h
      unfold examineBody at h
      rw [hreach, Body.reach]
      cases hrun : f.body.interpret summary.arguments with
      | ok run =>
        simp only [hrun] at h
        cases h
        exact ⟨_, rfl, .completed rfl rfl rfl⟩
      | error interrupt =>
        simp only [hrun] at h
        cases interrupt with
        | fault e =>
          cases h
          exact ⟨_, rfl, .refused rfl rfl⟩
        | violation v => cases h

end Function

/-! ### Looking up by name -/

theorem find?_of_forall₂ {α β : Type} {R : α → β → Prop} {p : α → Bool} {q : β → Bool}
    (hpq : ∀ a b, R a b → p a = q b) {as : List α} {bs : List β} (h : List.Forall₂ R as bs) {a : α}
    (ha : as.find? p = some a) : ∃ b, bs.find? q = some b ∧ R a b := by
  induction h with
  | nil => cases ha
  | @cons a' b' as bs hab _ ih =>
    rw [List.find?_cons] at ha
    rw [List.find?_cons, ← hpq a' b' hab]
    cases hp : p a' with
    | true =>
      rw [hp] at ha
      cases ha
      exact ⟨b', rfl, hab⟩
    | false =>
      rw [hp] at ha
      exact ih ha

/-- **The first report with the name of a selected function belongs to the function that is found
under this name.**  Selection looks at names only, so functions of one name go together. -/
theorem Crate.find_of_reports {c : Crate} {checker : Overflow.Checker} {settings : Settings}
    {name : String} {reps : List FunctionReport} (hreps : List.Forall₂
      (fun f rep => f.analyze checker settings = .ok rep) (c.selected settings) reps)
    (hname : ∃ f ∈ c.selected settings, f.name = name) :
    ∃ f rep, c.find name = .ok f ∧ reps.find? (fun rep => rep.name == name) = some rep ∧
      f.analyze checker settings = .ok rep := by
  obtain ⟨g, hg, hgname⟩ := hname
  have hselects : settings.selects name = true := by
    rw [← hgname]
    exact (List.mem_filter.1 hg).2
  have hfirst : (c.selected settings).find? (fun f => f.name == name) =
      c.functions.find? fun f => f.name == name := by
    rw [selected, List.find?_filter]
    congr 1
    funext f
    by_cases hf : f.name = name
    · simp [hf, hselects]
    · simp [hf]
  have hsome : ((c.selected settings).find? fun f => f.name == name).isSome = true := by
    rw [List.find?_isSome]
    exact ⟨g, hg, beq_iff_eq.2 hgname⟩
  obtain ⟨f, hf⟩ := Option.isSome_iff_exists.1 hsome
  obtain ⟨rep, hrep, hanalyze⟩ := find?_of_forall₂
    (q := fun rep : FunctionReport => rep.name == name)
    (fun f rep h => by rw [Function.name_of_analyze h]) hreps hf
  refine ⟨f, rep, ?_, hrep, hanalyze⟩
  rw [find, ← hfirst, hf]

/-! ### What is printed -/

/-- The state in a report is a member of its document form. -/
theorem FunctionReport.get?_state {rep : FunctionReport} {s : State} (h : rep.state = some s) :
    rep.toDocument.get? "state" = some s.toDocument := by
  rw [toDocument, h]
  cases rep.summary with
  | none => simp [Document.get?, Document.members, Members.get?]
  | some summary => simp [Document.get?, Document.members, Members.get?]

/-- What is logged while a function runs is for debugging only. -/
theorem Reached.log_debug (reached : Reached) : ∀ e ∈ reached.log, e.level = .debug := by
  intro e he
  cases reached with
  | unreadable error => cases he
  | refused p => cases he
  | completed run =>
    rw [log, Examination.runLog] at he
    by_cases hnone : run.faults.isEmpty = true
    · rw [if_pos hnone] at he
      cases he
    · rw [if_neg hnone] at he
      rw [List.mem_singleton.1 he]
      rfl

/-- A log of debugging entries is not printed from a higher rank on. -/
theorem logText_eq_empty {entries : List LogEntry} (h : ∀ e ∈ entries, e.level = .debug)
    {rank : Nat} (hrank : LogLevel.debug.rank < rank) : logText rank entries = "" := by
  have hnone : (entries.filter fun e => rank ≤ e.level.rank) = [] := by
    refine List.filter_eq_nil_iff.2 fun e he => ?_
    rw [h e he, decide_eq_true_eq]
    omega
  rw [logText, hnone]
  rfl

/-- The command runs the function that is found on the arguments of its summary. -/
theorem Command.runState_of_find {c : Crate} {name : String} {f : Function}
    (hfind : c.find name = .ok f) {o : StateOptions} (hfunction : o.function = .text name)
    (hargs : o.args = .absent) {reached : Reached} (hreached : f.body.reachSummary = .ok reached)
    (rank : Nat) :
    runState o rank c = .ok { reached.outcome with
      err := logText rank reached.log ++ reached.outcome.err } := by
  have hreach : c.reach o.function o.args = .ok reached := by
    rw [Crate.reach, hfunction, hargs, Crate.choose, hfind]
    show f.body.reachSummary.mapError Crash.violation = .ok reached
    rw [hreached]
    rfl
  rw [runState, hreach]
  rfl

/-- A command has all that it needs: a rank for its log, which the settings or its options give, a
path, and a crate in the file. -/
structure Command.Ready (command : Command) (settings : Settings) (text : Except FileError String)
    (rank : Nat) (c : Crate) : Prop where
  rank_eq : command.logRank settings = .ok rank
  path_eq : Path.check command.file = .ok command.file
  crate_eq : Crate.ofFile command.file text = .ok c

/-- A command that shows a state leaves the outcome of that, after the warnings of the settings. -/
theorem Command.Ready.run_state {o : StateOptions} {settings : Settings}
    {text : Except FileError String} {rank : Nat} {c : Crate}
    (h : (Command.state o).Ready settings text rank c) {outcome : Outcome}
    (hrun : runState o rank c = .ok outcome) (checker : Overflow.Checker) (style : Style)
    (warnings : List String) :
    run checker style (.ok ⟨settings, warnings⟩) text (.state o) =
      .ok { outcome with err := CommandLine.lines warnings ++ outcome.err } := by
  have hrank : (Command.state o).logRank settings = .ok rank := h.rank_eq
  have hpath : Path.check o.file = .ok o.file := h.path_eq
  have hcrate : Crate.ofFile o.file text = .ok c := h.crate_eq
  simp only [run, Except.mapError, hrank, file, hpath, hcrate, hrun, bind, Except.bind]
  rfl

/-- What is left when the state of an analysed function is shown: the state, and after a log the
statement errors as a list, if there are any. -/
def FunctionReport.shown (rep : FunctionReport) (state : Document) (log : String) : Outcome where
  status := if rep.statementErrors.isEmpty then 0 else 1
  out := state.toText (some 2) ++ "\n"
  err := log ++ if rep.statementErrors.isEmpty then ""
    else (Document.list rep.statementErrors).toText (some 2) ++ "\n"

/-- What a run leaves is what a report that tells of it shows. -/
theorem FunctionReport.Tells.outcome_eq {rep : FunctionReport} {run : Run}
    (h : rep.Tells (.completed run)) (log : String) :
    { (Reached.completed run).outcome with err := log ++ (Reached.completed run).outcome.err } =
      rep.shown run.state.toDocument log := by
  cases h with
  | completed _ _ herrors =>
    rw [shown, herrors, List.isEmpty_map]
    simp only [Reached.outcome, Problem.listText, List.map_map]
    rfl

/-- Nothing is logged of a run that a report without statement errors tells of. -/
theorem FunctionReport.Tells.log_eq_nil {rep : FunctionReport} {run : Run}
    (h : rep.Tells (.completed run)) (hnone : rep.statementErrors = []) :
    (Reached.completed run).log = [] := by
  cases h with
  | completed _ _ herrors =>
    have hfaults : run.faults = [] := by
      rw [herrors] at hnone
      exact List.map_eq_nil_iff.1 hnone
    rw [Reached.log, Examination.runLog, hfaults]
    rfl

namespace Crate

/-- **The commands agree.**  Let a name be that of a selected function, and let every constant that
the examinations of selected functions come to be decodable.  Then the analysis of the crate
returns.  Take the first function report with the name, and the function that is found under it.
The command that shows the state of this function, without arguments of its own,

* prints, if the function was analysed, exactly the state in the document form of its report;
  writes, if there are any, exactly the statement errors of the report as a list; and has the
  status 0 if there are none and 1 otherwise;
* prints, if the function was not analysed but is eligible, exactly the one error of its report, and
  has the status 1.

So it is for the command itself at any rank of the log, and for the whole run with the settings that
the crate is analysed with, from their rank on and after their warnings.  What is logged is the log
of running the function on the arguments of its summary, and it comes before the statement errors.
Nothing is logged if there are none of these, and nothing is printed of it above the rank for
debugging. -/
theorem state_agrees (c : Crate) (checker : Overflow.Checker) (settings : Settings) (name : String)
    (o : StateOptions) (hname : ∃ f ∈ c.selected settings, f.name = name)
    (hdecodable : ∀ f ∈ c.selected settings, f.Decodable)
    (hfunction : o.function = .text name) (hargs : o.args = .absent) :
    ∃ report rep f, c.analyze checker settings = .ok report ∧
      report.functions.find? (fun rep => rep.name == name) = some rep ∧ c.find name = .ok f ∧
      (rep.ok = true → ∃ state reached, rep.toDocument.get? "state" = some state ∧
        f.body.reachSummary = .ok reached ∧
        (∀ rank, Command.runState o rank c = .ok (rep.shown state (logText rank reached.log))) ∧
        (∀ style warnings text rank, (Command.state o).Ready settings text rank c →
          Command.run checker style (.ok ⟨settings, warnings⟩) text (.state o) =
            .ok (rep.shown state (CommandLine.lines warnings ++ logText rank reached.log))) ∧
        (rep.statementErrors = [] → reached.log = []) ∧
        ∀ rank, LogLevel.debug.rank < rank → logText rank reached.log = "") ∧
      (rep.ok = false → f.body.isEligible = true → ∃ e, rep.errors = [e] ∧
        (∀ rank, Command.runState o rank c = .ok
          { status := 1, out := e.toText (some 2) ++ "\n", err := "" }) ∧
        ∀ style warnings text rank, (Command.state o).Ready settings text rank c →
          Command.run checker style (.ok ⟨settings, warnings⟩) text (.state o) = .ok
            { status := 1
              out := e.toText (some 2) ++ "\n"
              err := CommandLine.lines warnings }) := by
  obtain ⟨report, hreport⟩ := exists_analyze_iff.2 hdecodable
  obtain ⟨reps, hreps, rfl⟩ := analyze_eq_ok.1 hreport
  obtain ⟨f, rep, hfind, hrep, hanalyze⟩ := find_of_reports hreps hname
  refine ⟨_, rep, f, hreport, hrep, hfind, ?_, ?_⟩
  · intro hok
    have helig := Function.isEligible_of_ok hanalyze hok
    obtain ⟨reached, hreached, htells⟩ := Function.reachSummary_of_analyze hanalyze helig
    cases reached with
    | unreadable e => cases htells
    | refused p =>
      cases htells with
      | refused hfail => cases hok.symm.trans hfail
    | completed run =>
      have hrun : ∀ rank, Command.runState o rank c = .ok
          (rep.shown run.state.toDocument (logText rank (Reached.completed run).log)) := by
        intro rank
        rw [Command.runState_of_find hfind hfunction hargs hreached, htells.outcome_eq]
      refine ⟨_, _, FunctionReport.get?_state htells.state_eq, hreached, hrun, ?_,
        htells.log_eq_nil, fun rank => logText_eq_empty (Reached.log_debug _)⟩
      intro style warnings text rank hready
      rw [hready.run_state (hrun rank)]
      simp only [FunctionReport.shown, String.append_assoc]
  · intro hfail helig
    obtain ⟨reached, hreached, htells⟩ := Function.reachSummary_of_analyze hanalyze helig
    cases htells with
    | completed hok => cases hfail.symm.trans hok
    | @refused p _ herrors =>
      have hrun : ∀ rank, Command.runState o rank c = .ok
          { status := 1, out := p.toDocument.toText (some 2) ++ "\n", err := "" } := by
        intro rank
        rw [Command.runState_of_find hfind hfunction hargs hreached]
        rfl
      refine ⟨_, herrors, hrun, ?_⟩
      intro style warnings text rank hready
      rw [hready.run_state (hrun rank)]
      simp only [String.append_empty]

/-- A crate with a function that has no locals, one that is abandoned half way, and one that is
never found since its name is taken. -/
def shadowed : Crate where
  name := "shadowed"
  functions := [⟨"stub", { blocks := [], locals := [], argCount := 0 }⟩,
    ⟨"compare_add", Body.compareAdd⟩, ⟨"stub", Body.compareAdd⟩]

theorem shadowed_decodable : shadowed.Decodable := by
  have hconstants : shadowed.constants = [] := rfl
  intro k hk
  rw [hconstants] at hk
  cases hk

/-- Options that ask for the state of a function, from the arguments of its summary. -/
def showState (name : String) : StateOptions :=
  ⟨"crate.json", .text name, .absent, .absent, false⟩

/-- The text of the crate and settings that say nothing are all that the command needs. -/
theorem showState_ready (name : String) :
    (Command.state (showState name)).Ready {} (.ok (shadowed.toText none)) 30 shadowed where
  rank_eq := by rfl
  path_eq := by
    have hnull : ¬"crate.json".toList.contains '\x00' = true := by decide +kernel
    exact if_neg hnull
  crate_eq := by
    rw [Crate.ofFile, ofText_toText (by decide)]
    rfl

/-- The state of a function that is abandoned half way is shown with its one statement error; and
the function that has no locals is refused for that, although its name is also that of another
one. -/
theorem state_agrees_shadowed :
    (∃ rep state,
      Function.analyze Solver.ends.verdict {} ⟨"compare_add", Body.compareAdd⟩ = .ok rep ∧
      rep.toDocument.get? "state" = some state ∧ rep.statementErrors.length = 1 ∧
      Command.run Solver.ends.verdict .plain (.ok ⟨{}, []⟩) (.ok (shadowed.toText none))
          (.state (showState "compare_add")) = .ok
        ⟨1, state.toText (some 2) ++ "\n",
          (Document.list rep.statementErrors).toText (some 2) ++ "\n"⟩) ∧
    Command.run Solver.ends.verdict .plain (.ok ⟨{}, []⟩) (.ok (shadowed.toText none))
        (.state (showState "stub")) = .ok
      ⟨1, Fault.noReturnPlace.problem.toText (some 2) ++ "\n", ""⟩ := by
  have hdecodable : ∀ f ∈ shadowed.selected {}, f.Decodable :=
    fun f hf => shadowed_decodable.function hf
  constructor
  · obtain ⟨report, rep, f, hreport, hrep, hfind, hok, -⟩ := state_agrees shadowed
      Solver.ends.verdict {} "compare_add" (showState "compare_add") ⟨_, .tail _ (.head _), rfl⟩
      hdecodable rfl rfl
    obtain ⟨hanalyze, hrepok, hone⟩ :
        Function.analyze Solver.ends.verdict {} ⟨"compare_add", Body.compareAdd⟩ = .ok rep ∧
          rep.ok = true ∧ rep.statementErrors.length = 1 := by
      cases hreport
      cases hrep
      exact ⟨rfl, rfl, rfl⟩
    obtain ⟨state, reached, hstate, -, -, hrun, -, hlog⟩ := hok hrepok
    have herrors : rep.statementErrors.isEmpty = false := by
      cases hnone : rep.statementErrors with
      | nil => simp [hnone] at hone
      | cons e es => rfl
    refine ⟨rep, state, hanalyze, hstate, hone, ?_⟩
    rw [hrun _ _ _ _ (showState_ready "compare_add"), hlog 30 (by decide), FunctionReport.shown,
      herrors]
    simp [CommandLine.lines]
  · obtain ⟨report, rep, f, hreport, hrep, hfind, -, hfail⟩ := state_agrees shadowed
      Solver.ends.verdict {} "stub" (showState "stub") ⟨_, .head _, rfl⟩ hdecodable rfl rfl
    cases hreport
    cases hrep
    cases hfind
    obtain ⟨e, he, -, hrun⟩ := hfail rfl rfl
    cases he
    exact hrun _ _ _ _ (showState_ready "stub")

end Crate

end MirRange
