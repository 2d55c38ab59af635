import TemplateCompiler.Report

/-!
# The errors that are reported

A report shows the first errors, as many as its limit allows, and says how many are left out. As
JSON each error shown is one object, and one more sums up the run.
-/
namespace TemplateCompiler.Report

def errors (outcomes : List (Path × Outcome)) : List (Path × Outcome) :=
  outcomes.filter fun entry => entry.2.isError

def shownCount (report : Report) (arguments : Arguments) : Nat :=
  (errors (report.shown arguments)).length

theorem tally_errors (report : Report) : report.tally.errors = (errors report.outcomes).length :=
  List.countP_eq_length_filter

theorem tally_files (report : Report) :
    report.tally.files = report.tally.written + report.tally.errors := by
  have hsplit := @List.length_eq_countP_add_countP _ (fun entry => entry.2.isError) report.outcomes
  rw [Nat.add_comm] at hsplit
  simpa [tally] using hsplit

theorem errors_limited (limit : Option Nat) (outcomes : List (Path × Outcome)) :
    errors (limited limit outcomes) =
      (errors outcomes).take (limit.getD (errors outcomes).length) := by
  unfold errors
  induction outcomes generalizing limit with
  | nil => simp [limited]
  | cons entry outcomes ih =>
    unfold limited
    cases herror : entry.2.isError with
    | false =>
      have hrest := ih limit
      simp [herror, hrest]
    | true =>
      rcases limit with _ | _ | n
      · have hrest := ih none
        simp [herror, hrest]
      · have hrest := ih (some 0)
        simp [herror, hrest]
      · have hrest := ih (some n)
        simp [herror, hrest]

theorem errors_shown (report : Report) (arguments : Arguments) :
    errors (report.shown arguments) =
      (errors report.outcomes).take (arguments.maxErrors.getD report.tally.errors) := by
  rw [shown, errors_limited, tally_errors]

theorem shownCount_eq (report : Report) (arguments : Arguments) :
    report.shownCount arguments =
      min (arguments.maxErrors.getD report.tally.errors) report.tally.errors := by
  rw [shownCount, errors_shown, List.length_take, tally_errors]

theorem map_some_events (outcomes : List (Path × Outcome)) :
    (outcomes.filterMap fun entry => event? entry.1 entry.2).map some =
      (errors outcomes).map fun entry => event? entry.1 entry.2 := by
  unfold errors
  induction outcomes with
  | nil => rfl
  | cons entry outcomes ih =>
    obtain ⟨file, outcome⟩ := entry
    cases outcome with
    | written target => exact ih
    | rejected source error => exact congrArg _ ih
    | failed failure => exact congrArg _ ih

/-- As JSON, a line for each error shown, in order, and one for the run. -/
theorem outputLines_json {arguments : Arguments} (h : arguments.report = .json) (report : Report)
    (milliseconds : Nat) : ∃ objects : List Json,
      objects.map some = (errors (report.shown arguments)).map
        (fun entry => event? entry.1 entry.2) ∧
      objects.length = report.shownCount arguments ∧
      report.outputLines arguments milliseconds =
        objects.map Json.render ++ [(Tally.event report.tally milliseconds).render] := by
  have hobjects := map_some_events (report.shown arguments)
  refine ⟨_, hobjects, ?_, ?_⟩
  · have hlength := congrArg List.length hobjects
    rwa [List.length_map, List.length_map] at hlength
  · rw [outputLines, h]
    exact List.map_append

theorem errorLines_human {arguments : Arguments} (h : arguments.report = .human) (report : Report)
    (herrors : report.tally.errors ≠ 0) (milliseconds : Nat) :
    report.errorLines arguments milliseconds =
      ((report.shown arguments).flatMap fun entry =>
        outcomeLines arguments.verbose entry.1 entry.2) ++
      (if arguments.timings then report.timingLines milliseconds else []) ++
      [[], coloured red ['✗'] ++ " Found ".toList ++ Text.ofNat report.tally.errors ++
        " error".toList ++ plural report.tally.errors ++ " in ".toList ++
        Text.ofNat report.tally.files ++ " files".toList] ++
      (if report.tally.errors = report.shownCount arguments then []
        else ["  (".toList ++ Text.ofNat (report.tally.errors - report.shownCount arguments) ++
          " not shown)".toList]) ++
      ["Time: ".toList ++ duration milliseconds] := by
  have hhidden : report.hidden arguments = report.tally.errors - report.shownCount arguments := by
    rw [hidden, shownCount, errors, List.countP_eq_length_filter]
  have hle : report.shownCount arguments ≤ report.tally.errors := by
    rw [shownCount_eq]
    exact Nat.min_le_right _ _
  have hnone : report.hidden arguments = 0 ↔
      report.tally.errors = report.shownCount arguments := by
    rw [hhidden]
    omega
  simp only [errorLines, summaryLines, h, if_true, if_neg herrors, ← hhidden, ← hnone,
    List.append_assoc, List.cons_append, List.nil_append]

end TemplateCompiler.Report
