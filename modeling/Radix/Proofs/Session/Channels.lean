import Radix.Proofs.CommandLine.Expressions
import Radix.Session

namespace Radix

namespace Session

theorem prolong_eq_modifyHead (c : Char) {pieces : List (List Char)} (h : pieces ≠ []) :
    Token.prolong c pieces = pieces.modifyHead (c :: ·) := by
  cases pieces with
  | nil => exact absurd rfl h
  | cons piece pieces => rfl

theorem lines_eq_splitOn (cs : List Char) : lines cs = cs.splitOn '\n' := by
  induction cs with
  | nil => rfl
  | cons c cs ih =>
    rw [lines, ih, List.splitOn_cons_eq_if_modifyHead,
      prolong_eq_modifyHead c (List.splitOn_ne_nil '\n' cs)]
    simp only [beq_iff_eq]

theorem inputLines_eq (input : String) :
    inputLines input =
      ((input.toList.splitOn '\n').map fun line => Text.trim (String.ofList line)).filter
        (· ≠ "") := by
  simp only [inputLines, lines_eq_splitOn, Text.trim, String.toList_ofList]

/-- What is written to the stream of the output is the output. -/
theorem join_written_output (options : Options) (time : String) (t : Transcript) :
    String.join (((report options time t).written.filter (·.1 = .output)).map Prod.snd) =
      (report options time t).output := by
  unfold report Transcript.output
  dsimp only
  generalize t.emissions = emissions
  induction emissions with
  | nil => rfl
  | cons emission emissions ih =>
    cases emission <;> simp [Emission.written, String.join_cons, ih]

/-- A log is written record by record. -/
theorem logText_eq_join (options : Options) (time : String) (records : List Record) :
    logText options time records =
      String.join (records.map fun record => logText options time [record]) := by
  induction records with
  | nil => rfl
  | cons record records ih =>
    have hlines : logLines options time (record :: records) =
        logLines options time [record] ++ logLines options time records := by
      rw [logLines, ← List.singleton_append, List.filter_append, List.filterMap_append]
      rfl
    rw [List.map_cons, String.join_cons, ← ih, logText, hlines, List.map_append, String.join_append]
    rfl

theorem answerAll_expressions (options : Options) (texts lines : List String) :
    answerAll { options with expressions := texts } lines = answerAll options lines := by
  induction lines with
  | nil => rfl
  | cons line lines ih =>
    rw [answerAll, answerAll, ih]
    rfl

theorem run_expressions {options : Options} (hnone : options.expressions = []) {input : String}
    (hne : inputLines input ≠ []) (other : String) :
    run { options with expressions := inputLines input } other = run options input := by
  have hempty : (inputLines input).isEmpty = false := by simp [hne]
  unfold run readsInput
  simp only [hnone, hempty, answerAll_expressions]
  cases options.demo <;> rfl

/-- Behind the same options, the lines of an input, trimmed and without the blank ones, are answered
as the arguments that they could be: the two runs are refused alike, or leave the same report. -/
theorem perform_append_lines {before : List String} (hbefore : CommandLine.NamesNoExpression before)
    {input : String} {expressions : List String}
    (hlines : expressions =
      ((input.toList.splitOn '\n').map fun line => Text.trim (String.ofList line)).filter (· ≠ ""))
    (hne : expressions ≠ []) (hplain : ∀ text ∈ expressions, ∀ cs, text.toList ≠ '-' :: cs)
    (time other : String) :
    perform time (before ++ expressions) other = perform time before input := by
  have hinput : expressions = inputLines input := hlines.trans (inputLines_eq input).symm
  unfold perform
  rw [CommandLine.parse_append_plain hbefore hplain]
  cases hparse : CommandLine.parse before with
  | error refusal => rfl
  | ok options =>
    have hnone := CommandLine.expressions_of_parse hbefore hparse
    rw [hinput] at hne ⊢
    change Except.ok (report _ time (run _ other)) = .ok (report options time (run options input))
    rw [run_expressions hnone hne]
    rfl

theorem perform_append_lines_blank :
    perform "T" ["--log-level", "INFO", "2 ^ 5", "7 / 0"] "" =
      perform "T" ["--log-level", "INFO"] "\t2 ^ 5\r\n \n7 / 0" ∧
    (perform "T" ["--log-level", "INFO"] "\t2 ^ 5\r\n \n7 / 0").toOption.map Report.output =
      some "32\n" := by
  have hbefore : CommandLine.NamesNoExpression ["--log-level", "INFO"] := by
    have hread : CommandLine.classifyAll ["--log-level", "INFO"] =
        .ok [.option .logLevel none, .plain "INFO"] := by rfl
    intro read h
    rw [hread] at h
    cases h
    exact .valued "INFO" (by decide) .nil
  have hlines : ["2 ^ 5", "7 / 0"] =
      (("\t2 ^ 5\r\n \n7 / 0".toList.splitOn '\n').map fun line =>
        Text.trim (String.ofList line)).filter (· ≠ "") := by
    decide +kernel
  have hplain : ∀ text ∈ ["2 ^ 5", "7 / 0"], ∀ cs, text.toList ≠ '-' :: cs := by
    intro text htext cs
    simp only [List.mem_cons, List.not_mem_nil, or_false] at htext
    rcases htext with rfl | rfl <;> simp
  exact ⟨perform_append_lines hbefore hlines (by decide) hplain "T" "", by decide +kernel⟩

end Session

end Radix
