import Radix.Expression.Tree
import Radix.Proofs.Expression.Exact

namespace Radix

namespace Operator

theorem precedence_le (op : Operator) : op.precedence ≤ power.precedence := by
  cases op <;> decide

theorem precedence_of_mem_product {op : Operator} (h : op ∈ [times, .divide, .modulo]) :
    op.precedence = times.precedence := by
  simp only [List.mem_cons, List.not_mem_nil, or_false] at h
  rcases h with rfl | rfl | rfl <;> rfl

theorem precedence_of_mem_addition {op : Operator} (h : op ∈ [plus, .minus]) :
    op.precedence = plus.precedence := by
  simp only [List.mem_cons, List.not_mem_nil, or_false] at h
  rcases h with rfl | rfl <;> rfl

theorem yieldsTo_of_le {op top : Operator} (h : op.precedence ≤ top.precedence)
    (hleft : op.associativity = .left) : op.yieldsTo top := by
  rw [yieldsTo, hleft]
  rcases Nat.lt_or_eq_of_le h with hlt | heq
  · simp [hlt]
  · simp [heq]

theorem not_yieldsTo_of_lt {op top : Operator} (h : top.precedence < op.precedence) :
    ¬ op.yieldsTo top := by
  simp [yieldsTo, Nat.not_lt_of_gt h, h.ne']

theorem associativity_of_lt {op : Operator}
    (h : op.precedence < power.precedence) : op.associativity = .left := by
  cases op with
  | power => exact absurd h (lt_irrefl _)
  | _ => rfl

end Operator

namespace Expression

def emit (out : List Token) (rest : Except Fault (List Token)) : Except Fault (List Token) :=
  (out ++ ·) <$> rest

@[simp] theorem emit_ok (out tokens : List Token) : emit out (.ok tokens) = .ok (out ++ tokens) := rfl

@[simp] theorem emit_emit (out out' : List Token) (rest : Except Fault (List Token)) :
    emit out (emit out' rest) = emit (out ++ out') rest := by
  cases rest with
  | error f => rfl
  | ok tokens => simp

theorem reorder_number (stack : List Waiting) (digits : String) (tokens : List Token) :
    reorder stack (.number digits :: tokens) = emit [.number digits] (reorder stack tokens) := by
  rw [reorder]
  cases reorder stack tokens <;> rfl

theorem reorder_operator (stack : List Waiting) (op : Operator) (tokens : List Token) :
    reorder stack (.operator op :: tokens) =
      emit ((release op stack).1.map .operator)
        (reorder (.operator op :: (release op stack).2) tokens) := by
  rw [reorder]
  cases reorder (.operator op :: (release op stack).2) tokens <;> rfl

theorem reorder_closing {stack outside : List Waiting} {inside : List Operator}
    (h : close? stack = some (inside, outside)) (tokens : List Token) :
    reorder stack (.closing :: tokens) =
      emit (inside.map .operator) (reorder outside tokens) := by
  rw [reorder, h]
  change (do return inside.map Token.operator ++ (← reorder outside tokens)) = _
  cases reorder outside tokens <;> rfl

def waiting (ops : List Operator) : List Waiting := ops.map .operator

@[simp] theorem waiting_nil : waiting [] = [] := rfl

@[simp] theorem waiting_cons (op : Operator) (ops : List Operator) :
    waiting (op :: ops) = .operator op :: waiting ops := rfl

@[simp] theorem waiting_append (ops ops' : List Operator) :
    waiting (ops ++ ops') = waiting ops ++ waiting ops' := List.map_append

theorem release_append {op : Operator} {ops : List Operator}
    (h : ∀ top ∈ ops, op.yieldsTo top) (stack : List Waiting) :
    release op (waiting ops ++ stack) = (ops ++ (release op stack).1, (release op stack).2) := by
  induction ops with
  | nil => rfl
  | cons top ops ih =>
    obtain ⟨htop, hops⟩ := List.forall_mem_cons.1 h
    rw [waiting_cons, List.cons_append, release, if_pos htop, ih hops]
    rfl

theorem close?_append (ops : List Operator) (stack : List Waiting) :
    close? (waiting ops ++ .opening :: stack) = some (ops, stack) := by
  induction ops with
  | nil => rfl
  | cons top ops ih =>
    rw [waiting_cons, List.cons_append, close?, ih]
    rfl

theorem finish?_waiting (ops : List Operator) : finish? (waiting ops) = some ops := by
  induction ops with
  | nil => rfl
  | cons top ops ih =>
    rw [waiting_cons, finish?, ih]
    rfl

/-- No operator of a level or above releases anything from the stack. -/
def Settled (level : Nat) (stack : List Waiting) : Prop :=
  ∀ op : Operator, level ≤ op.precedence → release op stack = ([], stack)

theorem Settled.mono {level level' : Nat} {stack : List Waiting} (h : Settled level stack)
    (hle : level ≤ level') : Settled level' stack :=
  fun op hop => h op (hle.trans hop)

theorem settled_nil (level : Nat) : Settled level [] := fun _ _ => rfl

theorem settled_opening (level : Nat) (stack : List Waiting) : Settled level (.opening :: stack) :=
  fun _ _ => rfl

theorem settled_operator {level : Nat} {top : Operator}
    (h : ∀ op : Operator, level ≤ op.precedence → ¬ op.yieldsTo top) (stack : List Waiting) :
    Settled level (.operator top :: stack) := by
  intro op hop
  rw [release, if_neg (h op hop)]

/-- Reading the tokens on a settled stack leaves operators of the level or above on top of it, and
these complete what is out to the tree in postorder. -/
def Reorders (level : Nat) (ts : List Token) (t : Tree) : Prop :=
  ∀ stack, Settled level stack → ∃ out pending,
    (∀ rest, reorder stack (ts ++ rest) = emit out (reorder (waiting pending ++ stack) rest)) ∧
    out ++ pending.map .operator = t.postorder ∧ ∀ op ∈ pending, level ≤ op.precedence

theorem Reorders.mono {level level' : Nat} {ts : List Token} {t : Tree}
    (h : Reorders level' ts t) (hle : level ≤ level') : Reorders level ts t := by
  intro stack hstack
  obtain ⟨out, pending, hout, hpost, hlevel⟩ := h stack (hstack.mono hle)
  exact ⟨out, pending, hout, hpost, fun op hop => hle.trans (hlevel op hop)⟩

theorem reorders_number (level : Nat) (digits : String) :
    Reorders level [.number digits] (.number digits) := by
  intro stack _
  refine ⟨[.number digits], [], fun rest => ?_, rfl, by simp⟩
  exact reorder_number stack digits rest

theorem Reorders.parenthesized {level level' : Nat} {ts : List Token} {t : Tree}
    (h : Reorders level' ts t) : Reorders level (.opening :: ts ++ [.closing]) t := by
  intro stack _
  obtain ⟨out, pending, hout, hpost, -⟩ := h (.opening :: stack) (settled_opening level' stack)
  refine ⟨t.postorder, [], fun rest => ?_, by simp, by simp⟩
  have hclose := close?_append pending stack
  calc reorder stack (.opening :: ts ++ [.closing] ++ rest)
      = reorder (.opening :: stack) (ts ++ (.closing :: rest)) := by simp [reorder]
    _ = emit out (emit (pending.map .operator) (reorder stack rest)) := by
      rw [hout, reorder_closing hclose]
    _ = emit t.postorder (reorder (waiting [] ++ stack) rest) := by
      rw [emit_emit, hpost]
      rfl

/-- An operator releases all of its left operand and nothing below, and its right operand does not
release it. -/
theorem Reorders.node {op : Operator} {level left right : Nat} {ts us : List Token} {t u : Tree}
    (ht : Reorders left ts t) (hu : Reorders right us u) (hop : level ≤ op.precedence)
    (hleft : level ≤ left) (hright : level ≤ right)
    (hyields : ∀ top : Operator, left ≤ top.precedence → op.yieldsTo top)
    (hkeeps : ∀ next : Operator, right ≤ next.precedence → ¬ next.yieldsTo op) :
    Reorders level (ts ++ .operator op :: us) (.node op t u) := by
  intro stack hstack
  -- the left operand is read on the given stack, the right one on top of the operator
  obtain ⟨out, pending, hout, hpost, hlevel⟩ := ht stack (hstack.mono hleft)
  obtain ⟨out', pending', hout', hpost', hlevel'⟩ :=
    hu (.operator op :: stack) (settled_operator hkeeps stack)
  have hrelease : release op (waiting pending ++ stack) = (pending, stack) := by
    rw [release_append fun top htop => hyields top (hlevel top htop), hstack op hop,
      List.append_nil]
  refine ⟨t.postorder ++ out', pending' ++ [op], fun rest => ?_, ?_, ?_⟩
  · calc reorder stack (ts ++ .operator op :: us ++ rest)
        = emit out (reorder (waiting pending ++ stack) (.operator op :: (us ++ rest))) := by
          rw [← hout, List.append_assoc, List.cons_append]
      _ = emit out (emit (pending.map .operator) (reorder (.operator op :: stack) (us ++ rest))) := by
          rw [reorder_operator, hrelease]
      _ = emit (t.postorder ++ out') (reorder (waiting (pending' ++ [op]) ++ stack) rest) := by
          rw [hout', emit_emit, emit_emit, hpost]
          simp
  · rw [Tree.postorder, ← hpost']
    simp
  · intro next hnext
    rcases List.mem_append.1 hnext with hnext | hnext
    · exact hright.trans (hlevel' next hnext)
    · rw [List.mem_singleton.1 hnext]
      exact hop

/-- An operator that groups to the left, with the phrase of its own level on its left and a tighter
one on its right. -/
theorem Reorders.left_node {op : Operator} {level right : Nat} {ts us : List Token}
    {t u : Tree} (ht : Reorders level ts t) (hu : Reorders right us u)
    (hop : op.precedence = level) (hlevel : level < Operator.power.precedence)
    (hright : level < right) : Reorders level (ts ++ .operator op :: us) (.node op t u) := by
  have hleft : op.associativity = .left := Operator.associativity_of_lt (hop.trans_lt hlevel)
  refine ht.node hu hop.ge le_rfl hright.le ?_ ?_
  · intro top htop
    exact Operator.yieldsTo_of_le (hop.trans_le htop) hleft
  · intro next hnext
    exact Operator.not_yieldsTo_of_lt (hop.trans_lt (hright.trans_le hnext))

end Expression

open Expression

/-- The precedence of the operators that may stand outside parentheses in a phrase; there are none
in a primary. -/
def Phrase.level : Phrase → Nat
  | .sum => Operator.plus.precedence
  | .term => Operator.times.precedence
  | .factor => Operator.power.precedence
  | .primary => Operator.power.precedence + 1

namespace Phrase.Derives

theorem reorders {phrase : Phrase} {ts : List Token} {t : Tree} (h : Derives phrase ts t) :
    Reorders phrase.level ts t := by
  induction h with
  | number digits => exact reorders_number _ digits
  | parenthesized _ ih => exact ih.parenthesized
  | base _ ih => exact ih.mono (by decide)
  | factor _ ih => exact ih.mono (by decide)
  | term _ ih => exact ih.mono (by decide)
  | power _ _ iht ihu =>
    refine iht.node ihu le_rfl (by decide) le_rfl ?_ ?_
    · -- nothing waits after a primary
      intro top htop
      exact absurd htop (Nat.not_le_of_lt (Nat.lt_succ_of_le top.precedence_le))
    · -- a power waits for the power on its right
      intro next hnext
      cases next with
      | power => decide
      | _ => exact absurd hnext (by decide)
  | product hop _ _ iht ihu =>
    exact iht.left_node ihu (Operator.precedence_of_mem_product hop) (by decide) (by decide)
  | addition hop _ _ iht ihu =>
    exact iht.left_node ihu (Operator.precedence_of_mem_addition hop) (by decide) (by decide)

theorem reorder_eq {ts : List Token} {t : Tree} (h : Derives .sum ts t) :
    reorder [] ts = .ok t.postorder := by
  obtain ⟨out, pending, hout, hpost, -⟩ := h.reorders [] (settled_nil _)
  have hend := hout []
  rw [List.append_nil, List.append_nil, reorder, finish?_waiting, emit_ok, hpost] at hend
  exact hend

theorem toPostfix_eq {ts : List Token} {t : Tree} (h : Derives .sum ts t) :
    toPostfix ts = ⟨.ok t.postorder, [reorderedRecord t.postorder]⟩ := by
  rw [toPostfix, h.reorder_eq]
  rfl

theorem mem_of_mem_postorder {phrase : Phrase} {ts : List Token} {t : Tree}
    (h : Derives phrase ts t) {digits : String} (hd : .number digits ∈ t.postorder) :
    .number digits ∈ ts := by
  induction h with
  | number _ => exact hd
  | parenthesized _ ih => simp [ih hd]
  | base _ ih => exact ih hd
  | factor _ ih => exact ih hd
  | term _ ih => exact ih hd
  | power _ _ iht ihu | product _ _ _ iht ihu | addition _ _ _ iht ihu =>
    simp only [Tree.postorder, List.mem_append, List.mem_singleton, reduceCtorEq, or_false] at hd
    rcases hd with hd | hd
    · exact List.mem_append_left _ (iht hd)
    · exact List.mem_append_right _ (List.mem_cons_of_mem _ (ihu hd))

end Phrase.Derives

/-- The value over integers: of the left subtree first, then of the right one, then of the operator. -/
def Tree.exact : Tree → Except Failure Int
  | .number digits => .ok (Text.decimalValue digits.toList)
  | .node op left right => do
    let m ← left.exact
    let n ← right.exact
    op.exact m n

namespace Expression

open Number

variable {base : Nat}

theorem tree_evaluate_outcome (h : 1 < base) {t : Tree}
    (hn : ∀ digits, .number digits ∈ t.postorder → Text.IsNumeral digits) :
    (t.evaluate (.int base)).outcome = inBase base (ofInt base) t.exact := by
  induction t with
  | number digits =>
    have hs := hn digits (by simp [Tree.postorder])
    rw [Tree.evaluate, checkBase_natCast h, Calc.lift_ok, Calc.ok_bind, ofText_numeral h hs]
    rfl
  | node op left right ihl ihr =>
    have hl := ihl fun digits hd => hn digits (by simp [Tree.postorder, hd])
    have hr := ihr fun digits hd => hn digits (by simp [Tree.postorder, hd])
    rw [Tree.evaluate, Tree.exact, Calc.outcome_bind, hl]
    cases left.exact with
    | error failure => rfl
    | ok m =>
      change ((right.evaluate (.int base)) >>= fun y => apply op (ofInt base m) y).outcome = _
      rw [Calc.outcome_bind, hr]
      cases right.exact with
      | error failure => rfl
      | ok n =>
        change (apply op (ofInt base m) (ofInt base n)).outcome = inBase base (ofInt base) (op.exact m n)
        rw [apply_ofInt h]

theorem evaluate_between_outcome (h : 1 < base) {ts : List Token} {t : Tree}
    (hd : Phrase.Derives .sum ts t) :
    (evaluate .between (.int base) ts).outcome =
      (t.evaluate (.int base)).outcome >>= fun x => x.describe >>= fun _ => .ok x := by
  have hrun := run_postorder (.int base) t [] []
  rw [List.append_nil] at hrun
  rw [evaluate, hd.toPostfix_eq, Calc.outcome_bind]
  change (evaluatePostfix (.int base) t.postorder).outcome = _
  rw [evaluatePostfix_outcome h, hrun, Calc.outcome_bind]
  cases (t.evaluate (.int base)).outcome <;> rfl

end Expression

namespace Token

def IsSpelt : Token → String → Prop
  | number digits, s => s = digits ∧ Text.IsNumeral s
  | operator op, s => Operator.written? s = some op
  | opening, s => s = "("
  | closing, s => s = ")"
  | unknown _, _ => False

instance : ∀ (token : Token) (s : String), Decidable (token.IsSpelt s)
  | number _, _ => inferInstanceAs (Decidable (_ ∧ _))
  | operator op, s => inferInstanceAs (Decidable (Operator.written? s = some op))
  | opening, s => inferInstanceAs (Decidable (s = "("))
  | closing, s => inferInstanceAs (Decidable (s = ")"))
  | unknown _, _ => inferInstanceAs (Decidable False)

theorem ofTrimmed_of_isSpelt {token : Token} {s : String} (h : token.IsSpelt s) :
    ofTrimmed s = token := by
  cases token with
  | number digits =>
    obtain ⟨rfl, hs⟩ := h
    exact ofTrimmed_of_isNumeral hs
  | operator op => exact ofTrimmed_of_written h
  | opening =>
    obtain rfl : s = "(" := h
    decide
  | closing =>
    obtain rfl : s = ")" := h
    decide
  | unknown s => exact h.elim

/-- The texts, once trimmed, spell the tokens one by one. -/
def Spell (raws : List String) (ts : List Token) : Prop :=
  List.Forall₂ (fun raw token => token.IsSpelt (Text.trim raw)) raws ts

instance (raws : List String) (ts : List Token) : Decidable (Spell raws ts) :=
  inferInstanceAs (Decidable (List.Forall₂ _ raws ts))

theorem Spell.map_read {raws : List String} {ts : List Token} (h : Spell raws ts) :
    raws.map read = ts := by
  induction h with
  | nil => rfl
  | cons hhead _ ih => rw [List.map_cons, read, ofTrimmed_of_isSpelt hhead, ih]

theorem Spell.isNumeral {raws : List String} {ts : List Token} (h : Spell raws ts)
    {digits : String} (hd : number digits ∈ ts) : Text.IsNumeral digits := by
  induction h with
  | nil => cases hd
  | cons hhead _ ih =>
    rcases List.mem_cons.1 hd with rfl | hd
    · obtain ⟨hs, hn⟩ := hhead
      exact hs ▸ hn
    · exact ih hd

end Token

namespace Expression

open Number

/-- Texts that are, once trimmed, an expression of the grammar are put into the postorder of its
tree, and the evaluator gives what the tree gives from the leaves up, be it a value or the first
failure. Only a base too long to be written stands in the way of a result. -/
theorem evaluate_derived {raws : List String} {ts : List Token} {t : Tree}
    (hd : Phrase.Derives .sum ts t) (hraws : Token.Spell raws ts) :
    (toPostfix (raws.map Token.read)).outcome = .ok t.postorder ∧
    ∀ base : Nat, 1 < base →
      match t.exact with
      | .ok n =>
        ∃ x, (t.evaluate (.int base)).outcome = .ok x ∧
          x.base = base ∧ x.WellFormed ∧ x.toInt = n ∧
          (base < 10 ^ Text.digitLimit →
            (evaluate .between (.int base) (raws.map Token.read)).outcome = .ok x) ∧
          (¬ base < 10 ^ Text.digitLimit →
            (evaluate .between (.int base) (raws.map Token.read)).outcome = .error .numeralTooLong)
      | .error failure =>
        ∃ f, (t.evaluate (.int base)).outcome = .error f ∧
          (evaluate .between (.int base) (raws.map Token.read)).outcome = .error f ∧
          f.toClass =
            if failure.toClass = .exponentOverflow ∧ ¬ base < 10 ^ Text.digitLimit then .wrongValue
            else failure.toClass := by
  rw [hraws.map_read, hd.toPostfix_eq]
  refine ⟨rfl, ?_⟩
  intro base h
  have htree : (t.evaluate (.int base)).outcome = _ :=
    tree_evaluate_outcome h fun _ hdigits => hraws.isNumeral (hd.mem_of_mem_postorder hdigits)
  have houtcome := evaluate_between_outcome h hd
  rw [htree] at houtcome ⊢
  cases hexact : t.exact with
  | error failure =>
    rw [hexact] at houtcome
    exact ⟨_, rfl, houtcome, failure.toClass_fault base⟩
  | ok n =>
    rw [hexact] at houtcome
    refine ⟨ofInt base n, rfl, rfl, wellFormed_ofInt h n, toInt_ofInt h n, ?_, ?_⟩
    · intro hbase
      exact houtcome.trans ((describe_bind base n).trans (if_pos hbase))
    · intro hbase
      exact houtcome.trans ((describe_bind base n).trans (if_neg hbase))

theorem evaluate_derived_mixed :
    ∃ raws, raws = [" 2", "^", "3", "^", "2 ", "-", "(", "7", "%", "4", "\t)"] ∧
    (toPostfix (raws.map Token.read)).outcome = .ok
      [.number "2", .number "3", .number "2", .operator .power, .operator .power,
        .number "7", .number "4", .operator .modulo, .operator .minus] ∧
    (∃ x, (evaluate .between (.int (10 : Nat)) (raws.map Token.read)).outcome = .ok x ∧
      x.WellFormed ∧ x.toInt = 509) ∧
    (evaluate .between (.int (10 ^ Text.digitLimit : Nat)) (raws.map Token.read)).outcome =
      .error .numeralTooLong := by
  have hpower := Phrase.Derives.power (.number "2") (.power (.number "3") (.base (.number "2")))
  have hmodulo := Phrase.Derives.product (by decide : Operator.modulo ∈ _)
    (.factor (.base (.number "7"))) (.base (.number "4"))
  have hd := Phrase.Derives.addition (by decide : Operator.minus ∈ _) (.term (.factor hpower))
    (.factor (.base (.parenthesized (.term hmodulo))))
  obtain ⟨hpost, hvalue⟩ := evaluate_derived hd
    (by decide : Token.Spell [" 2", "^", "3", "^", "2 ", "-", "(", "7", "%", "4", "\t)"] _)
  have hten := hvalue 10 (by decide)
  have hwide := hvalue (10 ^ Text.digitLimit) (Nat.one_lt_pow (by decide) (by decide))
  obtain ⟨x, -, -, hformed, hx, hshort, -⟩ := hten
  obtain ⟨_, -, -, -, -, -, hlong⟩ := hwide
  exact ⟨_, rfl, hpost, ⟨x, hshort (lt_self_pow₀ (by decide) (by decide)), hformed, hx⟩,
    hlong (lt_irrefl _)⟩

end Expression

end Radix
