import Radix.Proofs.CommandLine.Base
import Radix.Proofs.Expression.Trace
import Radix.Proofs.Session.Lines

namespace Radix

/-- Whether a record is more than tracing. -/
def Record.isWeighty (record : Record) : Bool := decide (Level.debug.number < record.level.number)

namespace Expression

open Number

variable {b c : Nat}

theorem run_log_eq (hb : 1 < b) (hc : 1 < c) (stack : List Int) (raws : List String) :
    (run (.int b) (stack.map (ofInt b)) (raws.map Token.read)).log =
      (run (.int c) (stack.map (ofInt c)) (raws.map Token.read)).log := by
  rw [run_log hb, run_log hc]

theorem toPostfix_log_filter (tokens : List Token) :
    (toPostfix tokens).log.filter Record.isWeighty = [] := by
  unfold toPostfix
  split <;> rfl

theorem evaluatePostfix_log_filter (base : Value) (tokens : List Token) :
    (evaluatePostfix base tokens).log.filter Record.isWeighty =
      (run base [] tokens).log.filter Record.isWeighty := by
  rw [evaluatePostfix, Calc.log_bind, List.filter_append]
  cases (run base [] tokens).outcome with
  | error f => exact List.append_nil _
  | ok stack =>
    cases stack with
    | nil => cases checkBase base <;> exact List.append_nil _
    | cons x stack =>
      dsimp only
      cases x.describe <;> exact List.append_nil _

theorem evaluateLine_log_filter (order : Notation) (base : Value) (line : String) :
    (evaluateLine order base line).log.filter Record.isWeighty =
      match ordered order line with
      | .ok tokens => (run base [] tokens).log.filter Record.isWeighty
      | .error _ => [] := by
  cases order with
  | after => exact evaluatePostfix_log_filter base _
  | between =>
    rw [evaluateLine, evaluate, Calc.log_bind, List.filter_append, toPostfix_log_filter,
      List.nil_append, toPostfix_outcome, ordered]
    cases reorder [] ((Token.split line).map Token.read) with
    | error f => rfl
    | ok tokens => exact evaluatePostfix_log_filter base tokens

theorem evaluateLine_log_eq (hb : 1 < b) (hc : 1 < c) (order : Notation) (line : String) :
    (evaluateLine order (.int b) line).log.filter Record.isWeighty =
      (evaluateLine order (.int c) line).log.filter Record.isWeighty := by
  rw [evaluateLine_log_filter, evaluateLine_log_filter]
  cases hordered : ordered order line with
  | error f => rfl
  | ok tokens =>
    have hrun := run_log_eq hb hc [] (tokens.map Token.text)
    rw [map_read_text hordered] at hrun
    exact congrArg (List.filter Record.isWeighty) hrun

end Expression

def Emission.isWeighty : Emission → Bool
  | .logged record => record.isWeighty
  | .output _ | .error _ => true

/-- The same emission in two bases. The report of an exponent too large, and the record of it, tell
how long the exponent is in the one base and in the other. -/
inductive Emission.Matches (b c : Nat) : Emission → Emission → Prop where
  | same (emission : Emission) : Matches b c emission emission
  | reported (line : String) (n : Int) :
      Matches b c (.error (Session.reported line (.error (.exponentOverflow (.ofInt b n)))))
        (.error (Session.reported line (.error (.exponentOverflow (.ofInt c n)))))
  | logged (line : String) (n : Int) :
      Matches b c (.logged (Session.failureRecord line (.exponentOverflow (.ofInt b n))))
        (.logged (Session.failureRecord line (.exponentOverflow (.ofInt c n))))

namespace Transcript

variable {b c : Nat} {s s' t t' : Transcript}

/-- The same answers in two bases, all of them: emission matches emission, tracing left aside. -/
structure Matches (b c : Nat) (s t : Transcript) : Prop where
  emissions : List.Forall₂ (Emission.Matches b c) (s.emissions.filter Emission.isWeighty)
    (t.emissions.filter Emission.isWeighty)
  failed_eq : s.failed = t.failed
  left_whole : s.aborted = none
  right_whole : t.aborted = none

theorem Matches.refl (h : t.aborted = none) : t.Matches b c t :=
  ⟨List.forall₂_same.2 fun e _ => .same e, rfl, h, h⟩

theorem Matches.append (hs : s.Matches b c s') (ht : t.Matches b c t') :
    (s ++ t).Matches b c (s' ++ t') := by
  rw [append_of_not_aborted hs.left_whole, append_of_not_aborted hs.right_whole]
  refine ⟨?_, ?_, ht.left_whole, ht.right_whole⟩
  · rw [List.filter_append, List.filter_append]
    exact List.rel_append hs.emissions ht.emissions
  · rw [hs.failed_eq, ht.failed_eq]

theorem Matches.status_eq (h : s.Matches b c t) : s.status = t.status := by
  rw [status, status, h.failed_eq]

theorem filterMap_filter_isWeighty {shown : Emission → Option String}
    (h : ∀ record, shown (.logged record) = none) (emissions : List Emission) :
    (emissions.filter Emission.isWeighty).filterMap shown = emissions.filterMap shown := by
  have htracing : ∀ e : Emission, (if e.isWeighty then shown e else none) = shown e := by
    intro e
    cases e with
    | logged record => rw [h, ite_self]
    | output text | error text => rfl
  rw [List.filterMap_filter]
  simp only [htracing]

theorem Matches.output_eq (h : s.Matches b c t) : s.output = t.output := by
  unfold output
  rw [← filterMap_filter_isWeighty (fun _ => rfl) s.emissions,
    ← filterMap_filter_isWeighty (fun _ => rfl) t.emissions]
  have hes := h.emissions
  generalize s.emissions.filter Emission.isWeighty = es at hes ⊢
  generalize t.emissions.filter Emission.isWeighty = es' at hes ⊢
  congr 1
  induction hes with
  | nil => rfl
  | cons he _ ih => cases he <;> simp only [List.filterMap_cons, ih]

/-- Two texts of errors that differ in nothing but how long the exponents too large of some reports
are in the one base and in the other. -/
inductive ErrorsMatch (b c : Nat) : String → String → Prop where
  | nil : ErrorsMatch b c "" ""
  | same (report : String) {errors errors' : String} : ErrorsMatch b c errors errors' →
      ErrorsMatch b c (report ++ errors) (report ++ errors')
  | exponent (line : String) (n : Int) {errors errors' : String} : ErrorsMatch b c errors errors' →
      ErrorsMatch b c
        (Session.reported line (.error (.exponentOverflow (.ofInt b n))) ++ errors)
        (Session.reported line (.error (.exponentOverflow (.ofInt c n))) ++ errors')

theorem Matches.errorsMatch (h : s.Matches b c t) : ErrorsMatch b c s.errors t.errors := by
  unfold errors
  rw [← filterMap_filter_isWeighty (fun _ => rfl) s.emissions,
    ← filterMap_filter_isWeighty (fun _ => rfl) t.emissions]
  have hes := h.emissions
  generalize s.emissions.filter Emission.isWeighty = es at hes ⊢
  generalize t.emissions.filter Emission.isWeighty = es' at hes ⊢
  induction hes with
  | nil => exact .nil
  | @cons e _ _ _ he _ ih =>
    cases he with
    | same =>
      cases e with
      | error text =>
        simp only [List.filterMap_cons, String.join_cons]
        exact .same text ih
      | output text | logged record => exact ih
    | reported line n =>
      simp only [List.filterMap_cons, String.join_cons]
      exact .exponent line n ih
    | logged line n => exact ih

end Transcript

namespace Session

open CommandLine Expression Number

variable {options : Options} {b c base : Nat}

theorem lineOutcome_of_stack (h : 1 < base) (hshort : base < 10 ^ Text.digitLimit) {line : String}
    {stack : List Int} (hexact : exactLine options.order line = .ok stack) :
    lineOutcome { options with base := base } line = .ok (ofInt base (stack.headD 0)) := by
  have houtcome := evaluateLine_outcome h options.order line
  rw [hexact] at houtcome
  have hwritten : top base stack ≠ .error .numeralTooLong :=
    (top_eq_numeralTooLong_iff stack).not.2 fun hlong => hlong.1 hshort
  exact houtcome.trans (top_eq_ok hwritten)

theorem lineOutcome_of_failure (h : 1 < base) {line : String} {failure : LineFailure}
    (hexact : exactLine options.order line = .error failure) :
    lineOutcome { options with base := base } line = .error (failure.fault base) := by
  have houtcome := evaluateLine_outcome h options.order line
  rw [hexact] at houtcome
  exact houtcome

theorem message_fault_eq (hb : 1 < b) (hc : 1 < c) (hb' : b < 10 ^ Text.digitLimit)
    (hc' : c < 10 ^ Text.digitLimit) (failure : LineFailure) :
    (failure.fault b).message = (failure.fault c).message ∨
      ∃ n, failure.fault b = .exponentOverflow (.ofInt b n) ∧
        failure.fault c = .exponentOverflow (.ofInt c n) := by
  cases failure with
  | disordered f => exact Or.inl rfl
  | stopped stop =>
    cases stop with
    | exponentOverflow n =>
      have htold : ∀ {base : Nat}, base < 10 ^ Text.digitLimit →
          Fault.told (.exponentOverflow (.ofInt base n)) = .exponentOverflow (.ofInt base n) := by
        intro base hbase
        have hwritable := (Text.isWritable_natCast base).2 hbase
        simp [Fault.told, Fault.numerals, hwritable]
      exact Or.inr ⟨n, htold hb', htold hc'⟩
    | divisionByZero n =>
      have htext : (ofInt b n).text = (ofInt c n).text := by rw [text_ofInt hb, text_ofInt hc]
      exact Or.inl (congrArg (fun text => "Cannot divide " ++ text ++ " by zero") htext)
    | negativeModulus n =>
      have htext : (ofInt b n).text = (ofInt c n).text := by rw [text_ofInt hb, text_ofInt hc]
      exact Or.inl (congrArg ("Modulus must be non-negative, got " ++ ·) htext)
    | invalidToken token => exact Or.inl rfl
    | stackUnderflow op found => exact Or.inl rfl

theorem answer_matches (hlimbs : options.showLimbs = false) (hb : 1 < b) (hc : 1 < c)
    (hb' : b < 10 ^ Text.digitLimit) (hc' : c < 10 ^ Text.digitLimit) (line : String) :
    (answer { options with base := b } line).Matches b c
      (answer { options with base := c } line) := by
  have hlog :
      ((lineLog { options with base := b } line).map .logged).filter Emission.isWeighty =
        ((lineLog { options with base := c } line).map .logged).filter Emission.isWeighty := by
    rw [List.filter_map, List.filter_map]
    exact congrArg (List.map Emission.logged) (evaluateLine_log_eq hb hc options.order line)
  have hmatches : ∀ {es es' : List Emission} {failed : Bool},
      List.Forall₂ (Emission.Matches b c) (es.filter Emission.isWeighty)
        (es'.filter Emission.isWeighty) →
      Transcript.Matches b c
        ⟨(lineLog { options with base := b } line).map .logged ++ es, failed, none⟩
        ⟨(lineLog { options with base := c } line).map .logged ++ es', failed, none⟩ := by
    intro es es' failed hes
    refine ⟨?_, rfl, rfl, rfl⟩
    rw [List.filter_append, List.filter_append, hlog]
    exact List.rel_append (List.forall₂_same.2 fun e _ => .same e) hes
  cases hexact : exactLine options.order line with
  | ok stack =>
    have hvalue := lineOutcome_of_stack hb hb' hexact
    have hvalue' := lineOutcome_of_stack hc hc' hexact
    rw [answer_of_ok hvalue, answer_of_ok hvalue', if_neg (by simp [hlimbs]),
      if_neg (by simp [hlimbs]), text_ofInt hb, text_ofInt hc]
    exact hmatches (.cons (.same _) .nil)
  | error failure =>
    have hreport : ∀ {base : Nat}, base < 10 ^ Text.digitLimit →
        (failure.fault base).isReportable := by
      intro base hbase
      have hfault : failure.fault base ≠ .numeralTooLong :=
        (fault_eq_numeralTooLong_iff hexact).not.2 fun hlong => hlong.1 hbase
      have hclass := toClass_mem_lineClasses hexact
      rw [← toClass_fault_eq hexact hfault] at hclass
      exact isReportable_of_mem_lineClasses hclass
    have hfailure := lineOutcome_of_failure hb hexact
    have hfailure' := lineOutcome_of_failure hc hexact
    rw [answer_of_error hfailure, answer_of_error hfailure', if_pos (hreport hb'),
      if_pos (hreport hc')]
    rcases message_fault_eq hb hc hb' hc' failure with hmessage | ⟨n, hn, hn'⟩
    · rw [failureRecord, failureRecord, reported, reported, hmessage]
      exact hmatches (List.forall₂_same.2 fun e _ => .same e)
    · rw [hn, hn']
      exact hmatches (.cons (.logged line n) (.cons (.reported line n) .nil))

theorem answerAll_matches (hlimbs : options.showLimbs = false) (hb : 1 < b) (hc : 1 < c)
    (hb' : b < 10 ^ Text.digitLimit) (hc' : c < 10 ^ Text.digitLimit) (lines : List String) :
    (answerAll { options with base := b } lines).Matches b c
      (answerAll { options with base := c } lines) := by
  induction lines with
  | nil => exact .refl rfl
  | cons line lines ih => exact (answer_matches hlimbs hb hc hb' hc' line).append ih

theorem run_matches (hlimbs : options.showLimbs = false) (hdemo : options.demo = false)
    (hb : 1 < b) (hc : 1 < c) (hb' : b < 10 ^ Text.digitLimit) (hc' : c < 10 ^ Text.digitLimit)
    (input : String) :
    (run { options with base := b } input).Matches b c (run { options with base := c } input) := by
  have hlines : ∀ base : Int, run { options with base := base } input =
      answerAll { options with base := base }
        (if readsInput options then inputLines input else options.expressions) := by
    intro base
    exact if_neg (by simp [hdemo])
  rw [hlines, hlines]
  exact answerAll_matches hlimbs hb hc hb' hc' _

theorem run_whole {arguments : List String} (hparse : parse arguments = .ok options)
    (hlimbs : options.showLimbs = false) (hdemo : options.demo = false) (input : String) :
    (run options input).aborted = none := by
  obtain ⟨base, hbase, hone, hshort⟩ := exists_base_of_parse hparse
  have hsame := run_matches hlimbs hdemo hone hone hshort hshort input
  rw [← hbase] at hsame
  exact hsame.left_whole

/-- Two command lines that differ in the base alone are refused alike or start sessions that,
without limbs, give the same status, output and errors, but for the length of exponents too large.
Plain expressions are not refused. -/
theorem base_unobservable (hb : 1 < b) (hc : 1 < c) (hb' : b < 10 ^ Text.digitLimit)
    (hc' : c < 10 ^ Text.digitLimit) :
    (∀ before after : List String, "--" ∉ before → ∀ input : String,
      match parse (before ++ "--base" :: toString b :: after),
        parse (before ++ "--base" :: toString c :: after) with
      | .ok options, .ok options' =>
        options.showLimbs = options'.showLimbs ∧ options.demo = options'.demo ∧
        (options.showLimbs = false → options.demo = false →
          (run options input).status = (run options' input).status ∧
          (run options input).output = (run options' input).output ∧
          Transcript.ErrorsMatch b c (run options input).errors (run options' input).errors ∧
          (run options input).Matches b c (run options' input))
      | .error refusal, .error refusal' => refusal = refusal'
      | _, _ => False) ∧
    ∀ (order : Notation) (expressions : List String),
      (∀ text ∈ expressions, ∀ cs, text.toList ≠ '-' :: cs) →
      parse (orderArguments order ++ "--base" :: toString b :: expressions) =
        .ok { order := order, base := b, expressions := expressions } ∧
      parse (orderArguments order ++ "--base" :: toString c :: expressions) =
        .ok { order := order, base := c, expressions := expressions } := by
  refine ⟨fun before after hseparator input => ?_, fun order expressions h =>
    ⟨parse_plain order hb hb' h, parse_plain order hc hc' h⟩⟩
  rcases parse_base hseparator after with ⟨r, hr⟩ | ⟨options, hoptions⟩
  · -- the base is overruled or in vain
    have hfirst := hr b hb hb'
    rw [hfirst, hr c hc hc']
    cases r with
    | error refusal => rfl
    | ok options =>
      refine ⟨rfl, rfl, fun hlimbs hdemo => ?_⟩
      have hsame : (run options input).Matches b c (run options input) :=
        .refl (run_whole hfirst hlimbs hdemo input)
      exact ⟨rfl, rfl, hsame.errorsMatch, hsame⟩
  · rw [hoptions b hb hb', hoptions c hc hc']
    refine ⟨rfl, rfl, fun hlimbs hdemo => ?_⟩
    have hsame := run_matches hlimbs hdemo hb hc hb' hc' input
    exact ⟨hsame.status_eq, hsame.output_eq, hsame.errorsMatch, hsame⟩

theorem base_unobservable_hundred :
    ∃ options options',
      parse ["--base", toString 7, "5 ^ 3", "2 ^ 9223372036854775808"] = .ok options ∧
      parse ["--base", toString 100, "5 ^ 3", "2 ^ 9223372036854775808"] = .ok options' ∧
      (run options "").status = (run options' "").status ∧
      (run options "").output = (run options' "").output ∧
      Transcript.ErrorsMatch 7 100 (run options "").errors (run options' "").errors := by
  have hshort : 10 ^ 3 < 10 ^ Text.digitLimit := Nat.pow_lt_pow_right (by decide) (by decide)
  have hplain : ∀ text ∈ ["5 ^ 3", "2 ^ 9223372036854775808"], ∀ cs, text.toList ≠ '-' :: cs := by
    simp
  obtain ⟨hruns, hparse⟩ := base_unobservable (by decide : 1 < 7) (by decide : 1 < 100)
    ((by decide : 7 < 10 ^ 3).trans hshort) ((by decide : 100 < 10 ^ 3).trans hshort)
  obtain ⟨hseven, hhundred⟩ := hparse .between _ hplain
  have hsame := hruns [] ["5 ^ 3", "2 ^ 9223372036854775808"] (by decide) ""
  rw [show orderArguments .between = [] from rfl] at hseven hhundred
  rw [hseven, hhundred] at hsame
  obtain ⟨hstatus, houtput, herrors, -⟩ := hsame.2.2 rfl rfl
  exact ⟨_, _, hseven, hhundred, hstatus, houtput, herrors⟩

/-- The least base that is too long to be written is seen: the command line refuses it, where base
ten gives an answer. -/
theorem base_unwritable_observable :
    parse ["--base", toString 10, "1"] = .ok { base := 10, expressions := ["1"] } ∧
    (run { base := 10, expressions := ["1"] } "").output = "1\n" ∧
    (run { base := 10, expressions := ["1"] } "").status = 0 ∧
    parse ["--base", toString (10 ^ Text.digitLimit), "1"] = .error (.exit misuse) ∧
    misuse.code = 2 := by
  have hplain : ∀ text ∈ ["1"], ∀ cs, text.toList ≠ '-' :: cs := by simp
  have hten : 10 < 10 ^ Text.digitLimit := lt_self_pow₀ (by decide) (by decide)
  exact ⟨parse_plain .between (by decide) hten hplain, by decide +kernel, by decide +kernel,
    parse_unwritable_base le_rfl ["1"] (classifyAll_plain hplain), rfl⟩

end Session

end Radix
