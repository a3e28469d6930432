import Radix.Proofs.Expression.Line
import Radix.Session

namespace Radix

namespace Transcript

theorem append_of_aborted {s : Transcript} (h : s.aborted.isSome) (t : Transcript) : s ++ t = s :=
  if_pos h

theorem append_of_not_aborted {s : Transcript} (h : s.aborted = none) (t : Transcript) :
    s ++ t = ⟨s.emissions ++ t.emissions, s.failed || t.failed, t.aborted⟩ := by
  change append s t = _
  rw [append, h]
  rfl

theorem empty_append (t : Transcript) : ({} : Transcript) ++ t = t :=
  append_of_not_aborted rfl t

theorem append_assoc (s t u : Transcript) : s ++ t ++ u = s ++ (t ++ u) := by
  cases hs : s.aborted with
  | some f =>
    have hcut : s.aborted.isSome := by simp [hs]
    rw [append_of_aborted hcut, append_of_aborted hcut, append_of_aborted hcut]
  | none =>
    cases ht : t.aborted with
    | some f =>
      have hcut : t.aborted.isSome := by simp [ht]
      have hboth : (s ++ t).aborted.isSome := by
        rw [append_of_not_aborted hs]
        exact hcut
      rw [append_of_aborted hcut, append_of_aborted hboth]
    | none =>
      have hboth : (s ++ t).aborted = none := by
        rw [append_of_not_aborted hs]
        exact ht
      rw [append_of_not_aborted hboth, append_of_not_aborted hs, append_of_not_aborted hs,
        append_of_not_aborted ht, List.append_assoc, Bool.or_assoc]

/-- What a transcript has on its two streams and whether a line of it failed, when nothing cut it
short. -/
structure Shows (t : Transcript) (output errors : String) (failed : Bool) : Prop where
  output_eq : t.output = output
  errors_eq : t.errors = errors
  failed_eq : t.failed = failed
  aborted_eq : t.aborted = none

theorem shows_empty : ({} : Transcript).Shows "" "" false := ⟨rfl, rfl, rfl, rfl⟩

theorem Shows.append {s t : Transcript} {output errors output' errors' : String}
    {failed failed' : Bool} (hs : s.Shows output errors failed) (ht : t.Shows output' errors' failed') :
    (s ++ t).Shows (output ++ output') (errors ++ errors') (failed || failed') := by
  rw [append_of_not_aborted hs.aborted_eq, ← hs.output_eq, ← hs.errors_eq, ← hs.failed_eq,
    ← ht.output_eq, ← ht.errors_eq, ← ht.failed_eq]
  constructor
  · unfold Transcript.output
    rw [List.filterMap_append, String.join_append]
  · unfold Transcript.errors
    rw [List.filterMap_append, String.join_append]
  · rfl
  · exact ht.aborted_eq

theorem shows_logged (records : List Record) :
    (⟨records.map .logged, false, none⟩ : Transcript).Shows "" "" false := by
  have hnone : ∀ shown : Emission → Option String, (∀ r, shown (.logged r) = none) →
      String.join ((records.map Emission.logged).filterMap shown) = "" := by
    intro shown hshown
    have hcomp : shown ∘ Emission.logged = fun _ => none := funext hshown
    rw [List.filterMap_map, hcomp, List.filterMap_none]
    rfl
  exact ⟨hnone _ fun _ => rfl, hnone _ fun _ => rfl, rfl, rfl⟩

theorem Shows.behind_log {emissions : List Emission} {output errors : String} {failed : Bool}
    (h : (⟨emissions, failed, none⟩ : Transcript).Shows output errors failed)
    (records : List Record) :
    (⟨records.map .logged ++ emissions, failed, none⟩ : Transcript).Shows output errors failed := by
  have happend := (shows_logged records).append h
  rw [append_of_not_aborted rfl, String.empty_append, String.empty_append] at happend
  exact happend

theorem Shows.status_append {s t : Transcript} {output errors output' errors' : String}
    {failed failed' : Bool} (hs : s.Shows output errors failed) (ht : t.Shows output' errors' failed') :
    (s ++ t).status = max s.status t.status := by
  unfold status
  rw [(hs.append ht).failed_eq, hs.failed_eq, ht.failed_eq]
  cases failed <;> cases failed' <;> rfl

end Transcript

namespace Session

open Expression Number

variable {options : Options} {base : Nat}

def lineOutcome (options : Options) (line : String) : Except Fault Number :=
  (evaluateLine options.order (.int options.base) line).outcome

def lineLog (options : Options) (line : String) : List Record :=
  (evaluateLine options.order (.int options.base) line).log

/-- The output that an outcome calls for: the integer in decimal, and the limbs if they are asked
for. -/
def printed (options : Options) : Except Fault Number → String
  | .ok x => toString x.toInt ++ "\n" ++ if options.showLimbs then x.limbsText ++ "\n" else ""
  | .error _ => ""

def reported (line : String) : Except Fault Number → String
  | .ok _ => ""
  | .error f => "error: " ++ line ++ ": " ++ f.message ++ "\n"

def isFailure : Except Fault Number → Bool
  | .ok _ => false
  | .error _ => true

/-- A line cuts the session short if what it comes to cannot be written: the result, the message of
a failure, or the limbs of a result that could be returned. -/
inductive CutsShort (options : Options) (line : String) : Prop where
  | outcome : lineOutcome options line = .error .numeralTooLong → CutsShort options line
  | limbs {x : Number} : lineOutcome options line = .ok x → x.describe = .error .numeralTooLong →
      options.showLimbs → CutsShort options line

theorem lineOutcome_eq (hbase : options.base = base) (line : String) :
    lineOutcome options line = (evaluateLine options.order (.int base) line).outcome := by
  rw [lineOutcome, hbase]

theorem lineOutcome_answers (hbase : options.base = base) (h : 1 < base) (line : String) :
    Answers options.order base (lineOutcome options line) := by
  rw [lineOutcome_eq hbase]
  exact evaluateLine_answers h options.order line

theorem lineOutcome_value (hbase : options.base = base) (h : 1 < base) {line : String} {x : Number}
    (hx : lineOutcome options line = .ok x) : x.base = base ∧ x.WellFormed := by
  have hanswers := lineOutcome_answers hbase h line
  rw [hx] at hanswers
  cases hanswers with
  | value hx hformed => exact ⟨hx, hformed⟩

theorem lineOutcome_exact (hbase : options.base = base) (h : 1 < base) {line : String}
    (hwhole : ¬ CutsShort options line) :
    match exactLine options.order line with
    | .ok stack => ∃ x, lineOutcome options line = .ok x ∧ x.toInt = stack.headD 0
    | .error failure => ∃ f, lineOutcome options line = .error f ∧ f.toClass = failure.toClass := by
  have hwritten : lineOutcome options line ≠ .error .numeralTooLong :=
    fun hlong => hwhole (.outcome hlong)
  rw [lineOutcome_eq hbase] at hwritten ⊢
  have hexact := evaluateLine_exact h hwritten
  revert hexact
  cases exactLine options.order line with
  | ok stack => exact fun hresult => ⟨_, hresult, toInt_ofInt h (stack.headD 0)⟩
  | error failure => exact id

theorem describe_ok_or_error (x : Number) :
    x.describe = .ok x.limbsText ∨ x.describe = .error .numeralTooLong := by
  unfold describe
  split_ifs
  · exact Or.inl rfl
  · exact Or.inr rfl

theorem describe_eq_numeralTooLong_iff (x : Number) :
    x.describe = .error .numeralTooLong ↔ ¬ x.base < 10 ^ Text.digitLimit := by
  rw [← Text.isWritable_natCast, describe]
  split_ifs with hbase <;> simp [hbase]

theorem isReportable_of_mem_lineClasses {order : Notation} {f : Fault}
    (h : f.toClass ∈ lineClasses order) : f.isReportable := by
  unfold Fault.isReportable
  generalize f.toClass = c at h ⊢
  revert h
  cases order <;> cases c <;> decide

theorem answer_of_error {line : String} {f : Fault} (h : lineOutcome options line = .error f) :
    answer options line =
      if f.isReportable then
        ⟨(lineLog options line).map .logged ++ [.logged (failureRecord line f),
          .error (reported line (.error f))], true, none⟩
      else ⟨(lineLog options line).map .logged, false, some f⟩ := by
  unfold lineOutcome at h
  unfold answer
  simp only [h]
  rfl

theorem answer_of_ok {line : String} {x : Number} (h : lineOutcome options line = .ok x) :
    answer options line =
      if options.showLimbs then
        ⟨(lineLog options line).map .logged ++ [.output (x.text ++ "\n")], false, none⟩ ++ limbLine x
      else ⟨(lineLog options line).map .logged ++ [.output (x.text ++ "\n")], false, none⟩ := by
  unfold lineOutcome at h
  unfold answer
  simp only [h]
  rfl

theorem limbLine_of_ok {x : Number} {text : String} (h : x.describe = .ok text) :
    limbLine x = ⟨[.output (text ++ "\n")], false, none⟩ := by
  unfold limbLine transcribe
  rw [h]
  rfl

theorem limbLine_of_error {x : Number} {f : Fault} (h : x.describe = .error f) :
    limbLine x = ⟨[], false, some f⟩ := by
  unfold limbLine transcribe
  rw [h]
  rfl

theorem shows_output (text : String) :
    (⟨[.output text], false, none⟩ : Transcript).Shows text "" false :=
  ⟨String.empty_append, rfl, rfl, rfl⟩

theorem answer_shows_failure {line : String} {f : Fault} (h : lineOutcome options line = .error f)
    (hf : f.isReportable) :
    (answer options line).Shows "" (reported line (.error f)) true := by
  rw [answer_of_error h, if_pos hf]
  exact Transcript.Shows.behind_log ⟨rfl, String.empty_append, rfl, rfl⟩ (lineLog options line)

theorem answer_shows_value {line : String} {x : Number} (h : lineOutcome options line = .ok x)
    (hx : x.WellFormed) (hlimbs : options.showLimbs → x.describe = .ok x.limbsText) :
    (answer options line).Shows (printed options (.ok x)) "" false := by
  have hvalue := (shows_output (x.text ++ "\n")).behind_log (lineLog options line)
  rw [text_eq hx] at hvalue
  rw [answer_of_ok h, text_eq hx, printed]
  by_cases hshow : options.showLimbs
  · rw [if_pos hshow, if_pos hshow, limbLine_of_ok (hlimbs hshow)]
    exact hvalue.append (shows_output (x.limbsText ++ "\n"))
  · rw [if_neg hshow, if_neg hshow, String.append_empty]
    exact hvalue

theorem answer_shows (hbase : options.base = base) (h : 1 < base) {line : String}
    (hwhole : ¬ CutsShort options line) :
    (answer options line).Shows (printed options (lineOutcome options line))
      (reported line (lineOutcome options line)) (isFailure (lineOutcome options line)) := by
  have hanswers := lineOutcome_answers hbase h line
  cases houtcome : lineOutcome options line with
  | error f =>
    rw [houtcome] at hanswers
    cases hanswers with
    | failure hclass => exact answer_shows_failure houtcome (isReportable_of_mem_lineClasses hclass)
    | unwritable hwide => exact absurd (.outcome houtcome) hwhole
  | ok x =>
    refine answer_shows_value houtcome (lineOutcome_value hbase h houtcome).2 fun hshow => ?_
    exact (describe_ok_or_error x).resolve_right fun hlong => hwhole (.limbs houtcome hlong hshow)

theorem answer_aborted {line : String} (hcut : CutsShort options line) :
    (answer options line).aborted = some .numeralTooLong := by
  cases hcut with
  | outcome houtcome =>
    rw [answer_of_error houtcome]
    rfl
  | limbs houtcome hdescribe hshow =>
    rw [answer_of_ok houtcome, if_pos hshow, limbLine_of_error hdescribe,
      Transcript.append_of_not_aborted rfl]

/-- Only a base too long to be written cuts a session short, and it does so at a line that leaves a
result on the stack, or that has its limbs asked for, or whose exponent is too large. -/
theorem cutsShort_iff (hbase : options.base = base) (h : 1 < base) (line : String) :
    CutsShort options line ↔ ¬ base < 10 ^ Text.digitLimit ∧
      match exactLine options.order line with
      | .ok stack => stack ≠ [] ∨ options.showLimbs
      | .error failure => failure.toClass = .exponentOverflow := by
  have houtcome := evaluateLine_outcome h options.order line
  have hlong := evaluateLine_eq_numeralTooLong_iff h options.order line
  rw [← lineOutcome_eq hbase] at houtcome hlong
  have hlimbs : ∀ x, lineOutcome options line = .ok x →
      (x.describe = .error .numeralTooLong ↔ ¬ base < 10 ^ Text.digitLimit) := by
    intro x hx
    rw [describe_eq_numeralTooLong_iff, (lineOutcome_value hbase h hx).1]
  cases hexact : exactLine options.order line with
  | ok stack =>
    rw [hexact] at houtcome hlong
    constructor
    · rintro (hcut | ⟨hx, hdescribe, hshow⟩)
      · exact ⟨(hlong.1 hcut).1, Or.inl (hlong.1 hcut).2⟩
      · exact ⟨(hlimbs _ hx).1 hdescribe, Or.inr hshow⟩
    · rintro ⟨hwide, hcause⟩
      by_cases hstack : stack = []
      · -- nothing is logged of an empty stack, so that its zero is lost only to its limbs
        have hshow := hcause.resolve_left fun hne => hne hstack
        rw [hstack] at houtcome
        exact .limbs houtcome ((hlimbs _ houtcome).2 hwide) hshow
      · exact .outcome (hlong.2 ⟨hwide, hstack⟩)
  | error failure =>
    rw [hexact] at houtcome hlong
    constructor
    · rintro (hcut | ⟨hx, -, -⟩)
      · exact hlong.1 hcut
      · rw [houtcome] at hx
        cases hx
    · exact fun hcause => .outcome (hlong.2 hcause)

theorem answerAll_append (options : Options) (first second : List String) :
    answerAll options (first ++ second) = answerAll options first ++ answerAll options second := by
  induction first with
  | nil => exact (Transcript.empty_append _).symm
  | cons line first ih =>
    rw [List.cons_append, answerAll, answerAll, ih, Transcript.append_assoc]

theorem answerAll_shows (hbase : options.base = base) (h : 1 < base) {lines : List String}
    (hwhole : ∀ line ∈ lines, ¬ CutsShort options line) :
    (answerAll options lines).Shows
      (String.join (lines.map fun line => printed options (lineOutcome options line)))
      (String.join (lines.map fun line => reported line (lineOutcome options line)))
      (lines.any fun line => isFailure (lineOutcome options line)) := by
  induction lines with
  | nil => exact Transcript.shows_empty
  | cons line lines ih =>
    have hline := answer_shows hbase h (hwhole line List.mem_cons_self)
    have hlines := ih fun l hl => hwhole l (List.mem_cons_of_mem line hl)
    rw [List.map_cons, List.map_cons, List.any_cons, String.join_cons, String.join_cons, answerAll]
    exact hline.append hlines

theorem status_answerAll (hbase : options.base = base) (h : 1 < base) {lines : List String}
    (hwhole : ∀ line ∈ lines, ¬ CutsShort options line) :
    (answerAll options lines).status = 1 ↔
      ∃ line ∈ lines, ∃ f, lineOutcome options line = .error f := by
  have hfails : ∀ outcome : Except Fault Number, isFailure outcome ↔ ∃ f, outcome = .error f := by
    intro outcome
    cases outcome <;> simp [isFailure]
  unfold Transcript.status
  rw [(answerAll_shows hbase h hwhole).failed_eq]
  simp [hfails]

theorem answerAll_cut {line : String} (hcut : CutsShort options line) (before after : List String) :
    answerAll options (before ++ line :: after) = answerAll options before ++ answer options line := by
  have haborted : (answer options line).aborted.isSome := by
    rw [answer_aborted hcut]
    rfl
  rw [answerAll_append, answerAll, Transcript.append_of_aborted haborted]

/-- A line has a value or one of the failures of its notation, those that it has on integers, unless
its base is too long to be written and has to be. Lines of which this is so are all answered, each
as if it stood alone, and the status tells whether one has failed. The first line that cannot be
answered is the last one. -/
theorem lines_answered (hbase : options.base = base) (h : 1 < base) :
    (∀ line, Answers options.order base (lineOutcome options line) ∧
      (¬ CutsShort options line →
        match exactLine options.order line with
        | .ok stack => ∃ x, lineOutcome options line = .ok x ∧ x.toInt = stack.headD 0
        | .error failure =>
          ∃ f, lineOutcome options line = .error f ∧ f.toClass = failure.toClass) ∧
      (CutsShort options line ↔ ¬ base < 10 ^ Text.digitLimit ∧
        match exactLine options.order line with
        | .ok stack => stack ≠ [] ∨ options.showLimbs
        | .error failure => failure.toClass = .exponentOverflow)) ∧
    (∀ lines, (∀ line ∈ lines, ¬ CutsShort options line) →
      (answerAll options lines).Shows
        (String.join (lines.map fun line => printed options (lineOutcome options line)))
        (String.join (lines.map fun line => reported line (lineOutcome options line)))
        (lines.any fun line => isFailure (lineOutcome options line)) ∧
      ((answerAll options lines).status = 1 ↔
        ∃ line ∈ lines, ∃ f, lineOutcome options line = .error f)) ∧
    (∀ first second, (∀ line ∈ first ++ second, ¬ CutsShort options line) →
      (answerAll options (first ++ second)).output =
        (answerAll options first).output ++ (answerAll options second).output ∧
      (answerAll options (first ++ second)).errors =
        (answerAll options first).errors ++ (answerAll options second).errors ∧
      (answerAll options (first ++ second)).status =
        max (answerAll options first).status (answerAll options second).status) ∧
    ∀ before line after, (∀ l ∈ before, ¬ CutsShort options l) → CutsShort options line →
      answerAll options (before ++ line :: after) =
        answerAll options before ++ answer options line ∧
      (answerAll options (before ++ line :: after)).aborted = some .numeralTooLong := by
  refine ⟨?_, ?_, ?_, ?_⟩
  · intro line
    have hcause := cutsShort_iff hbase h line
    exact ⟨lineOutcome_answers hbase h line, lineOutcome_exact hbase h, hcause⟩
  · intro lines hwhole
    exact ⟨answerAll_shows hbase h hwhole, status_answerAll hbase h hwhole⟩
  · intro first second hwhole
    have hfirst := answerAll_shows hbase h fun l hl => hwhole l (List.mem_append_left second hl)
    have hsecond := answerAll_shows hbase h fun l hl => hwhole l (List.mem_append_right first hl)
    have hboth := hfirst.append hsecond
    rw [answerAll_append]
    refine ⟨?_, ?_, hfirst.status_append hsecond⟩
    · rw [hboth.output_eq, hfirst.output_eq, hsecond.output_eq]
    · rw [hboth.errors_eq, hfirst.errors_eq, hsecond.errors_eq]
  · intro before line after hbefore hcut
    have hwhole := (answerAll_shows hbase h hbefore).aborted_eq
    refine ⟨answerAll_cut hcut before after, ?_⟩
    rw [answerAll_cut hcut, Transcript.append_of_not_aborted hwhole]
    exact answer_aborted hcut

theorem lines_answered_mixed :
    (answerAll {} ["7 / 0", "2 ^ 3"]).output = "8\n" ∧
    (answerAll {} ["7 / 0", "2 ^ 3"]).errors = "error: 7 / 0: Cannot divide 7 by zero\n" ∧
    (answerAll {} ["7 / 0", "2 ^ 3"]).status = 1 ∧
    (answerAll { base := (10 ^ Text.digitLimit : Nat) } ["1", "2 ^ 3"]).aborted =
      some .numeralTooLong := by
  have hshort : defaultBase < 10 ^ Text.digitLimit :=
    (by decide : defaultBase < 10 ^ 10).trans (Nat.pow_lt_pow_right (by decide) (by decide))
  obtain ⟨hlines, hshown, -⟩ :=
    lines_answered (rfl : ({} : Options).base = (defaultBase : Int)) (by decide)
  have hwhole : ∀ line ∈ ["7 / 0", "2 ^ 3"], ¬ CutsShort {} line :=
    fun line _ hcut => ((hlines line).2.2.1 hcut).1 hshort
  obtain ⟨hshows, -⟩ := hshown ["7 / 0", "2 ^ 3"] hwhole
  have hfailed : (answerAll {} ["7 / 0", "2 ^ 3"]).failed = true :=
    hshows.failed_eq.trans (by decide +kernel)
  obtain ⟨hwide, -, -, hcut⟩ := lines_answered
    (rfl : ({ base := (10 ^ Text.digitLimit : Nat) } : Options).base = _)
    (Nat.one_lt_pow (by decide) (by decide))
  have hone : exactLine .between "1" = .ok [1] := rfl
  have hcause := (hwide "1").2.2.2 ⟨lt_irrefl _, by
    rw [hone]
    exact Or.inl (by decide)⟩
  exact ⟨hshows.output_eq.trans (by decide +kernel), hshows.errors_eq.trans (by decide +kernel),
    if_pos hfailed, (hcut [] "1" ["2 ^ 3"] (fun _ h => by cases h) hcause).2⟩

end Session

end Radix
