import Mathlib.Data.List.DropRight
import Radix.Proofs.Expression.Grammar

namespace Radix

namespace Text

theorem dropWhile_rdropWhile (p : Char → Bool) (cs : List Char) :
    ((cs.dropWhile p).rdropWhile p).dropWhile p = (cs.dropWhile p).rdropWhile p := by
  cases hr : (cs.dropWhile p).rdropWhile p with
  | nil => rfl
  | cons c rest =>
    obtain ⟨dropped, hcs⟩ := List.rdropWhile_prefix p (cs.dropWhile p)
    have hhead := List.head?_dropWhile_not p cs
    rw [← hcs, hr] at hhead
    have hc : p c = false := by simpa using hhead
    rw [List.dropWhile_cons, hc]
    rfl

theorem trimBy_trimBy (p : Char → Bool) (cs : List Char) : trimBy p (trimBy p cs) = trimBy p cs := by
  change (((cs.dropWhile p).rdropWhile p).dropWhile p).rdropWhile p = (cs.dropWhile p).rdropWhile p
  rw [dropWhile_rdropWhile, List.rdropWhile_idempotent]

theorem trim_trim (s : String) : trim (trim s) = trim s := by
  unfold trim
  rw [String.toList_ofList, trimBy_trimBy]

end Text

namespace Token

theorem text_ofTrimmed (s : String) : (ofTrimmed s).text = s := by
  by_cases hs : Text.IsNumeral s
  · rw [ofTrimmed_of_isNumeral hs, text]
  · cases hw : Operator.written? s with
    | none => exact (ofTrimmed_of_not_written hs hw).2
    | some op =>
      rw [ofTrimmed_of_written hw]
      unfold Operator.written? at hw
      split at hw <;> cases hw <;> decide

theorem read_text_read (raw : String) : read (read raw).text = read raw := by
  unfold read
  rw [text_ofTrimmed, Text.trim_trim]

def isKept : Token → Bool
  | number _ | operator _ => true
  | opening | closing | unknown _ => false

end Token

namespace Expression

theorem emit_eq_ok {out tokens : List Token} {rest : Except Fault (List Token)} :
    emit out rest = .ok tokens ↔ ∃ later, rest = .ok later ∧ out ++ later = tokens := by
  cases rest with
  | error f => simp [emit]
  | ok later => simp

theorem emit_eq_error {out : List Token} {rest : Except Fault (List Token)} {f : Fault} :
    emit out rest = .error f ↔ rest = .error f := by
  cases rest with
  | error f' => simp [emit]
  | ok later => simp

def held : List Waiting → List Token
  | [] => []
  | .operator op :: stack => .operator op :: held stack
  | .opening :: stack => held stack

theorem held_release (op : Operator) (stack : List Waiting) :
    (release op stack).1.map .operator ++ held (release op stack).2 = held stack := by
  induction stack with
  | nil => rfl
  | cons top stack ih =>
    cases top with
    | opening => rfl
    | operator top =>
      unfold release
      by_cases hy : op.yieldsTo top
      · rw [if_pos hy, held, ← ih]
        rfl
      · rw [if_neg hy]
        rfl

theorem held_close {stack outside : List Waiting} {inside : List Operator}
    (h : close? stack = some (inside, outside)) :
    inside.map .operator ++ held outside = held stack := by
  induction stack generalizing inside with
  | nil => cases h
  | cons top stack ih =>
    cases top with
    | opening =>
      cases h
      rfl
    | operator top =>
      obtain ⟨⟨released, rest⟩, hr, heq⟩ := Option.map_eq_some_iff.1 h
      cases heq
      rw [held, ← ih hr]
      rfl

theorem held_finish {stack : List Waiting} {released : List Operator}
    (h : finish? stack = some released) : released.map .operator = held stack := by
  induction stack generalizing released with
  | nil =>
    cases h
    rfl
  | cons top stack ih =>
    cases top with
    | opening => cases h
    | operator top =>
      obtain ⟨rest, hr, rfl⟩ := Option.map_eq_some_iff.1 h
      rw [held, ← ih hr]
      rfl

theorem reorder_perm {stack : List Waiting} {tokens out : List Token}
    (h : reorder stack tokens = .ok out) :
    out.Perm (held stack ++ tokens.filter Token.isKept) := by
  induction tokens generalizing stack out with
  | nil =>
    rw [reorder] at h
    cases hf : finish? stack with
    | none =>
      rw [hf] at h
      cases h
    | some released =>
      rw [hf] at h
      cases h
      rw [held_finish hf, List.filter_nil, List.append_nil]
  | cons token tokens ih =>
    cases token with
    | number digits =>
      rw [reorder_number] at h
      obtain ⟨later, hlater, rfl⟩ := emit_eq_ok.1 h
      exact ((ih hlater).cons _).trans List.perm_middle.symm
    | operator op =>
      rw [reorder_operator] at h
      obtain ⟨later, hlater, rfl⟩ := emit_eq_ok.1 h
      rw [← held_release op stack, List.append_assoc]
      exact ((ih hlater).trans List.perm_middle.symm).append_left _
    | opening =>
      rw [reorder] at h
      have hperm := ih h
      exact hperm
    | closing =>
      cases hc : close? stack with
      | none =>
        rw [reorder, hc] at h
        cases h
      | some p =>
        rw [reorder_closing hc] at h
        obtain ⟨later, hlater, rfl⟩ := emit_eq_ok.1 h
        rw [← held_close hc, List.append_assoc]
        exact (ih hlater).append_left _
    | unknown text =>
      rw [reorder] at h
      cases h

theorem reorder_error {stack : List Waiting} {tokens : List Token} {f : Fault}
    (h : reorder stack tokens = .error f) :
    f.toClass ∈ [.unbalancedParentheses, .invalidToken] := by
  induction tokens generalizing stack with
  | nil =>
    rw [reorder] at h
    cases hf : finish? stack with
    | none =>
      rw [hf] at h
      cases h
      decide
    | some released =>
      rw [hf] at h
      cases h
  | cons token tokens ih =>
    cases token with
    | number digits =>
      rw [reorder_number] at h
      exact ih (emit_eq_error.1 h)
    | operator op =>
      rw [reorder_operator] at h
      exact ih (emit_eq_error.1 h)
    | opening =>
      rw [reorder] at h
      exact ih h
    | closing =>
      cases hc : close? stack with
      | none =>
        rw [reorder, hc] at h
        cases h
        decide
      | some p =>
        rw [reorder_closing hc] at h
        exact ih (emit_eq_error.1 h)
    | unknown text =>
      rw [reorder] at h
      cases h
      simp [Fault.toClass]

theorem toPostfix_outcome (tokens : List Token) : (toPostfix tokens).outcome = reorder [] tokens := by
  unfold toPostfix
  split
  · rename_i h
    rw [h]
    rfl
  · rename_i h
    rw [h]
    rfl
  · rename_i h
    rw [h]
    rfl

def ordered (order : Notation) (line : String) : Except Fault (List Token) :=
  match order with
  | .between => reorder [] ((Token.split line).map Token.read)
  | .after => .ok ((Token.split line).map Token.read)

theorem read_text_of_mem_ordered {order : Notation} {line : String} {tokens : List Token}
    (h : ordered order line = .ok tokens) {token : Token} (ht : token ∈ tokens) :
    Token.read token.text = token := by
  have hmem : token ∈ (Token.split line).map Token.read := by
    cases order with
    | between =>
      have hperm := (reorder_perm h).mem_iff.1 ht
      exact (List.mem_filter.1 hperm).1
    | after =>
      cases h
      exact ht
  obtain ⟨raw, -, rfl⟩ := List.mem_map.1 hmem
  exact Token.read_text_read raw

theorem map_read_text {order : Notation} {line : String} {tokens : List Token}
    (h : ordered order line = .ok tokens) : (tokens.map Token.text).map Token.read = tokens := by
  have hread : tokens.map (Token.read ∘ Token.text) = tokens.map id := by
    refine List.map_congr_left fun token ht => ?_
    rw [Function.comp_apply, read_text_of_mem_ordered h ht, id]
  rw [List.map_map, hread, List.map_id]

end Expression

/-- Why a line has no value: its tokens cannot be put in order, or the machine stops. -/
inductive LineFailure where
  | disordered (fault : Fault)
  | stopped (failure : Failure)

namespace LineFailure

def toClass : LineFailure → Fault.Class
  | disordered fault => fault.toClass
  | stopped failure => failure.toClass

def fault (base : Nat) : LineFailure → Fault
  | disordered fault => fault
  | stopped failure => failure.fault base

end LineFailure

namespace Expression

open Number

variable {base : Nat}

/-- The stack of integers that a line leaves, whatever its base. -/
def exactLine (order : Notation) (line : String) : Except LineFailure (List Int) := do
  let tokens ← (ordered order line).mapError .disordered
  ((Machine.run [] (tokens.map Token.text)).mapError fun (_, failure) => .stopped failure)

/-- The top of a stack in a base, or zero of none. A result is returned if it can be spelt. -/
def top (base : Nat) : List Int → Except Fault Number
  | [] => .ok (ofInt base 0)
  | n :: _ => if base < 10 ^ Text.digitLimit then .ok (ofInt base n) else .error .numeralTooLong

theorem inBase_ok_bind {α β γ : Type} (f : α → β) (a : α) (next : β → Except Fault γ) :
    (inBase base f ((.ok a : Except (Nat × Failure) α).mapError Prod.snd) >>= next) = next (f a) :=
  rfl

theorem evaluatePostfix_eq_top (h : 1 < base) (raws : List String) :
    (evaluatePostfix (.int base) (raws.map Token.read)).outcome =
      inBase base id ((Machine.run [] raws).mapError Prod.snd) >>= top base := by
  have hrun := run_outcome h [] raws
  rw [List.map_nil] at hrun
  rw [evaluatePostfix_outcome h, hrun]
  cases Machine.run [] raws with
  | error e => rfl
  | ok stack =>
    rw [inBase_ok_bind, inBase_ok_bind]
    cases stack with
    | nil => rfl
    | cons n stack => exact describe_bind base n

theorem evaluateLine_outcome (h : 1 < base) (order : Notation) (line : String) :
    (evaluateLine order (.int base) line).outcome =
      match exactLine order line with
      | .ok stack => top base stack
      | .error failure => .error (failure.fault base) := by
  have hordered : (evaluateLine order (.int base) line).outcome =
      ordered order line >>= fun tokens => (evaluatePostfix (.int base) tokens).outcome := by
    cases order with
    | between =>
      unfold evaluateLine evaluate
      rw [Calc.outcome_bind, toPostfix_outcome]
      rfl
    | after => rfl
  rw [hordered]
  cases ho : ordered order line with
  | error f =>
    unfold exactLine
    rw [ho]
    rfl
  | ok tokens =>
    have hexact : exactLine order line =
        (Machine.run [] (tokens.map Token.text)).mapError fun (_, failure) => .stopped failure := by
      unfold exactLine
      rw [ho]
      rfl
    -- the machine reads the texts of tokens that were read already
    have hpostfix := evaluatePostfix_eq_top h (tokens.map Token.text)
    rw [map_read_text ho] at hpostfix
    rw [hexact]
    refine hpostfix.trans ?_
    cases Machine.run [] (tokens.map Token.text) with
    | error e => rfl
    | ok stack => exact inBase_ok_bind id stack (top base)

end Expression

def postfixClasses : List Fault.Class :=
  [.invalidToken, .stackUnderflow, .divisionByZero, .negativeModulus, .exponentOverflow]

/-- The failures of a line. Only in front of the machine do parentheses have to pair up. -/
def lineClasses : Notation → List Fault.Class
  | .between => .unbalancedParentheses :: postfixClasses
  | .after => postfixClasses

theorem postfixClasses_subset (order : Notation) : postfixClasses ⊆ lineClasses order := by
  cases order with
  | between => exact List.subset_cons_self _ _
  | after => exact List.Subset.refl _

theorem Failure.toClass_mem (failure : Failure) : failure.toClass ∈ postfixClasses := by
  cases failure <;> simp [toClass, postfixClasses]

theorem Failure.fault_eq_numeralTooLong_iff (base : Nat) (failure : Failure) :
    failure.fault base = .numeralTooLong ↔
      ¬ base < 10 ^ Text.digitLimit ∧ failure.toClass = .exponentOverflow := by
  cases failure with
  | exponentOverflow exponent =>
    have hclass : (exponentOverflow exponent).toClass = .exponentOverflow := rfl
    rw [← Text.isWritable_natCast, hclass, and_iff_left rfl, fault, Fault.told]
    cases hw : Text.isWritable base <;> simp [Fault.numerals, hw]
  | _ => simp [fault, toClass]

namespace Expression

open Number

variable {base : Nat}

theorem ordered_error {order : Notation} {line : String} {f : Fault}
    (h : ordered order line = .error f) :
    order = .between ∧ f.toClass ∈ [.unbalancedParentheses, .invalidToken] := by
  cases order with
  | between => exact ⟨rfl, reorder_error h⟩
  | after => cases h

theorem exactLine_error {order : Notation} {line : String} {failure : LineFailure}
    (h : exactLine order line = .error failure) :
    (∃ f, ordered order line = .error f ∧ failure = .disordered f) ∨
      ∃ stop, failure = .stopped stop := by
  unfold exactLine at h
  cases ho : ordered order line with
  | error f =>
    rw [ho] at h
    cases h
    exact Or.inl ⟨f, rfl, rfl⟩
  | ok tokens =>
    rw [ho] at h
    change (Machine.run [] (tokens.map Token.text)).mapError _ = _ at h
    cases hrun : Machine.run [] (tokens.map Token.text) with
    | error e =>
      rw [hrun] at h
      cases h
      exact Or.inr ⟨e.2, rfl⟩
    | ok stack =>
      rw [hrun] at h
      cases h

theorem toClass_mem_lineClasses {order : Notation} {line : String} {failure : LineFailure}
    (h : exactLine order line = .error failure) : failure.toClass ∈ lineClasses order := by
  rcases exactLine_error h with ⟨f, hf, rfl⟩ | ⟨stop, rfl⟩
  · obtain ⟨rfl, hclass⟩ := ordered_error hf
    simp only [List.mem_cons, List.not_mem_nil, or_false] at hclass
    rcases hclass with hclass | hclass <;>
      simp [LineFailure.toClass, hclass, lineClasses, postfixClasses]
  · exact postfixClasses_subset order stop.toClass_mem

theorem fault_eq_numeralTooLong_iff {order : Notation} {line : String} {failure : LineFailure}
    (h : exactLine order line = .error failure) :
    failure.fault base = .numeralTooLong ↔
      ¬ base < 10 ^ Text.digitLimit ∧ failure.toClass = .exponentOverflow := by
  rcases exactLine_error h with ⟨f, hf, rfl⟩ | ⟨stop, rfl⟩
  · -- what is refused in front of the machine is of neither kind
    obtain ⟨-, hclass⟩ := ordered_error hf
    have hfault : f ≠ .numeralTooLong := by
      rintro rfl
      simp [Fault.toClass] at hclass
    have hoverflow : f.toClass ≠ .exponentOverflow := by
      intro heq
      simp [heq] at hclass
    simp [LineFailure.fault, LineFailure.toClass, hfault, hoverflow]
  · exact stop.fault_eq_numeralTooLong_iff base

theorem toClass_fault_eq {order : Notation} {line : String} {failure : LineFailure}
    (h : exactLine order line = .error failure) (hfault : failure.fault base ≠ .numeralTooLong) :
    (failure.fault base).toClass = failure.toClass := by
  rcases exactLine_error h with ⟨f, -, rfl⟩ | ⟨stop, rfl⟩
  · rfl
  · -- a failure that is told changes its class only where its message spells the base
    have hoverflow := (stop.fault_eq_numeralTooLong_iff base).not.1 hfault
    have hclass := stop.toClass_fault base
    rw [if_neg fun hboth => hoverflow hboth.symm] at hclass
    exact hclass

/-- What a line may come to: a number of the base, a failure of the notation, or, if the base is too
long to be written, that failure. -/
inductive Answers (order : Notation) (base : Nat) : Except Fault Number → Prop where
  | value {x : Number} : x.base = base → x.WellFormed → Answers order base (.ok x)
  | failure {f : Fault} : f.toClass ∈ lineClasses order → Answers order base (.error f)
  | unwritable : ¬ base < 10 ^ Text.digitLimit → Answers order base (.error .numeralTooLong)

theorem answers_top (h : 1 < base) (order : Notation) (stack : List Int) :
    Answers order base (top base stack) := by
  have hnumber : ∀ n : Int, Answers order base (.ok (ofInt base n)) :=
    fun n => .value (base_ofInt base n) (wellFormed_ofInt h n)
  cases stack with
  | nil => exact hnumber 0
  | cons n stack =>
    rw [top]
    by_cases hbase : base < 10 ^ Text.digitLimit
    · rw [if_pos hbase]
      exact hnumber n
    · rw [if_neg hbase]
      exact .unwritable hbase

theorem evaluateLine_answers (h : 1 < base) (order : Notation) (line : String) :
    Answers order base (evaluateLine order (.int base) line).outcome := by
  rw [evaluateLine_outcome h]
  cases hexact : exactLine order line with
  | ok stack => exact answers_top h order stack
  | error failure =>
    simp only
    by_cases hfault : failure.fault base = .numeralTooLong
    · rw [hfault]
      exact .unwritable ((fault_eq_numeralTooLong_iff hexact).1 hfault).1
    · have hclass := toClass_mem_lineClasses hexact
      rw [← toClass_fault_eq hexact hfault] at hclass
      exact .failure hclass

theorem top_eq_ok {stack : List Int} (hwritten : top base stack ≠ .error .numeralTooLong) :
    top base stack = .ok (ofInt base (stack.headD 0)) := by
  cases stack with
  | nil => rfl
  | cons n stack =>
    rw [top] at hwritten ⊢
    by_cases hbase : base < 10 ^ Text.digitLimit
    · rw [if_pos hbase]
      rfl
    · exact absurd (if_neg hbase) hwritten

/-- Where nothing is too long to be written, a line comes to what it comes to on integers. -/
theorem evaluateLine_exact (h : 1 < base) {order : Notation} {line : String}
    (hwritten : (evaluateLine order (.int base) line).outcome ≠ .error .numeralTooLong) :
    match exactLine order line with
    | .ok stack => (evaluateLine order (.int base) line).outcome = .ok (ofInt base (stack.headD 0))
    | .error failure =>
      ∃ f, (evaluateLine order (.int base) line).outcome = .error f ∧
        f.toClass = failure.toClass := by
  rw [evaluateLine_outcome h] at hwritten ⊢
  cases hexact : exactLine order line with
  | ok stack =>
    rw [hexact] at hwritten
    exact top_eq_ok hwritten
  | error failure =>
    rw [hexact] at hwritten
    have hfault : failure.fault base ≠ .numeralTooLong := fun hlong => hwritten (congrArg _ hlong)
    exact ⟨_, rfl, toClass_fault_eq hexact hfault⟩

theorem top_eq_numeralTooLong_iff (stack : List Int) :
    top base stack = .error .numeralTooLong ↔ ¬ base < 10 ^ Text.digitLimit ∧ stack ≠ [] := by
  cases stack with
  | nil => simp [top]
  | cons n stack =>
    unfold top
    by_cases hbase : base < 10 ^ Text.digitLimit <;> simp [hbase]

/-- A base too long to be written takes away every result that the stack holds, and the report of an
exponent too large. -/
theorem evaluateLine_eq_numeralTooLong_iff (h : 1 < base) (order : Notation) (line : String) :
    (evaluateLine order (.int base) line).outcome = .error .numeralTooLong ↔
      ¬ base < 10 ^ Text.digitLimit ∧
        match exactLine order line with
        | .ok stack => stack ≠ []
        | .error failure => failure.toClass = .exponentOverflow := by
  rw [evaluateLine_outcome h]
  cases hexact : exactLine order line with
  | ok stack => exact top_eq_numeralTooLong_iff stack
  | error failure =>
    rw [← fault_eq_numeralTooLong_iff hexact]
    simp

end Expression

end Radix
