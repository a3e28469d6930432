import Radix.Proofs.Expression.Line

namespace Radix

namespace Operator

def classes : List Fault.Class := [.divisionByZero, .negativeModulus, .exponentOverflow]

theorem toClass_mem_of_exact {op : Operator} {m n : Int} {failure : Failure}
    (h : op.exact m n = .error failure) : failure.toClass ∈ classes := by
  cases op with
  | plus | minus | times => cases h
  | divide | modulo | power =>
    rw [exact] at h
    split_ifs at h <;> cases h <;> simp [classes, Failure.toClass]

end Operator

namespace Token

/-- What a token adds to the operands: a number is one, and an operator makes one of two. -/
def weight : Token → Int
  | number _ => 1
  | operator _ => -1
  | opening | closing | unknown _ => 0

/-- How many more numbers than operators there are. -/
def surplus (ts : List Token) : Int := (ts.map weight).sum

@[simp] theorem surplus_nil : surplus [] = 0 := rfl

@[simp] theorem surplus_cons (token : Token) (ts : List Token) :
    surplus (token :: ts) = token.weight + surplus ts := List.sum_cons

@[simp] theorem surplus_append (ts us : List Token) :
    surplus (ts ++ us) = surplus ts + surplus us := by
  simp [surplus]

/-- Every operator finds two operands: each operator before it has used up one of the numbers, and
at least two are left. -/
def Supplied (ts : List Token) : Prop :=
  ∀ before op after, ts = before ++ .operator op :: after → 2 ≤ surplus before

theorem isNumeral_of_read {raw digits : String} (h : read raw = .number digits) :
    Text.IsNumeral digits := by
  unfold read at h
  by_cases hs : Text.IsNumeral (Text.trim raw)
  · rw [ofTrimmed_of_isNumeral hs] at h
    cases h
    exact hs
  · cases hw : Operator.written? (Text.trim raw) with
    | some op =>
      rw [ofTrimmed_of_written hw] at h
      cases h
    | none =>
      have hmem := (ofTrimmed_of_not_written hs hw).1
      rw [h] at hmem
      simp at hmem

end Token

namespace Tree

open Token

/-- The tokens of trees one behind another. -/
def postorders (forest : List Tree) : List Token := forest.flatMap postorder

@[simp] theorem postorders_nil : postorders [] = [] := rfl

@[simp] theorem postorders_cons (t : Tree) (forest : List Tree) :
    postorders (t :: forest) = t.postorder ++ postorders forest := List.flatMap_cons

@[simp] theorem postorders_append (forest forest' : List Tree) :
    postorders (forest ++ forest') = postorders forest ++ postorders forest' := List.flatMap_append

@[simp] theorem surplus_postorder (t : Tree) : surplus t.postorder = 1 := by
  induction t with
  | number digits => rfl
  | node op left right ihl ihr => simp [postorder, ihl, ihr, weight]

theorem surplus_postorders (forest : List Tree) : surplus (postorders forest) = forest.length := by
  induction forest with
  | nil => rfl
  | cons t forest ih =>
    rw [postorders_cons, surplus_append, surplus_postorder, ih, List.length_cons]
    omega

/-- Reads trees off tokens, the last one on top: a number is a tree, and an operator joins two. -/
def build : List Tree → List Token → Option (List Tree)
  | stack, [] => some stack
  | stack, .number digits :: ts => build (.number digits :: stack) ts
  | right :: left :: stack, .operator op :: ts => build (.node op left right :: stack) ts
  | _, _ => none

theorem build_postorder (t : Tree) (stack : List Tree) (ts : List Token) :
    build stack (t.postorder ++ ts) = build (t :: stack) ts := by
  induction t generalizing stack ts with
  | number digits => rw [postorder, List.singleton_append, build]
  | node op left right ihl ihr =>
    rw [postorder, List.append_assoc, List.append_assoc, ihl, ihr, List.singleton_append, build]

theorem build_postorders (forest stack : List Tree) (ts : List Token) :
    build stack (postorders forest ++ ts) = build (forest.reverse ++ stack) ts := by
  induction forest generalizing stack with
  | nil => rfl
  | cons t forest ih =>
    rw [postorders_cons, List.append_assoc, build_postorder, ih, List.reverse_cons,
      List.append_assoc, List.singleton_append]

theorem build_short {stack : List Tree} (h : stack.length < 2) (op : Operator) (ts : List Token) :
    build stack (.operator op :: ts) = none := by
  match stack, h with
  | [], _ => rfl
  | [_], _ => rfl

theorem postorders_injective : Function.Injective postorders := by
  intro forest forest' h
  have hleft := build_postorders forest [] []
  have hright := build_postorders forest' [] []
  rw [h, hright, List.append_nil, List.append_nil, build, build] at hleft
  exact (List.reverse_injective (Option.some.inj hleft)).symm

/-- Numbers and operators are trees in a row, or there is a first operator that finds fewer than two
of them. -/
theorem exists_postorders {ts : List Token} (h : ∀ token ∈ ts, token.isKept) :
    (∃ forest, ts = postorders forest) ∨
      ∃ forest op after, ts = postorders forest ++ .operator op :: after ∧ forest.length < 2 := by
  induction ts using List.reverseRecOn with
  | nil => exact Or.inl ⟨[], rfl⟩
  | append_singleton ts last ih =>
    have hlast := h last (by simp)
    rcases ih fun token htoken => h token (by simp [htoken]) with
      ⟨forest, rfl⟩ | ⟨forest, op, after, rfl, hshort⟩
    · cases last with
      | number digits => exact Or.inl ⟨forest ++ [.number digits], by simp [postorder]⟩
      | operator op =>
        rcases Nat.lt_or_ge forest.length 2 with hshort | hlong
        · exact Or.inr ⟨forest, op, [], rfl, hshort⟩
        · -- the operator joins the last two trees
          obtain ⟨init, right, rfl⟩ := forest.eq_nil_or_concat'.resolve_left (by
            rintro rfl
            simp at hlong)
          obtain ⟨front, left, rfl⟩ := init.eq_nil_or_concat'.resolve_left (by
            rintro rfl
            simp at hlong)
          exact Or.inl ⟨front ++ [.node op left right], by simp [postorder]⟩
      | _ => cases hlast
    · exact Or.inr ⟨forest, op, after ++ [last], by simp, hshort⟩

theorem isKept_of_mem_postorder {t : Tree} {token : Token} (h : token ∈ t.postorder) :
    token.isKept := by
  induction t with
  | number digits =>
    rw [List.mem_singleton.1 h]
    rfl
  | node op left right ihl ihr =>
    rcases List.mem_append.1 h with hoperands | hop
    · rcases List.mem_append.1 hoperands with hleft | hright
      · exact ihl hleft
      · exact ihr hright
    · rw [List.mem_singleton.1 hop]
      rfl

theorem isKept_of_mem_postorders {forest : List Tree} {token : Token}
    (h : token ∈ postorders forest) : token.isKept := by
  obtain ⟨t, -, ht⟩ := List.mem_flatMap.1 h
  exact isKept_of_mem_postorder ht

theorem postorders_ne_of_short {forest forest' : List Tree} (h : forest'.length < 2) (op : Operator)
    (after : List Token) : postorders forest ≠ postorders forest' ++ .operator op :: after := by
  intro hsplit
  have hbuild := build_postorders forest [] []
  have hlength : (forest'.reverse ++ []).length < 2 := by simpa using h
  rw [List.append_nil, hsplit, build_postorders, build_short hlength, build] at hbuild
  cases hbuild

theorem supplied_postorders (forest : List Tree) : Supplied (postorders forest) := by
  intro before op after hsplit
  have hkept : ∀ token ∈ before, token.isKept := by
    intro token htoken
    have hmem : token ∈ postorders forest := by
      rw [hsplit]
      exact List.mem_append_left _ htoken
    exact isKept_of_mem_postorders hmem
  rcases exists_postorders hkept with ⟨forest', rfl⟩ | ⟨forest', op', between, rfl, hshort⟩
  · by_contra hfew
    rw [surplus_postorders] at hfew
    exact postorders_ne_of_short (by omega) op after hsplit
  · rw [List.append_assoc, List.cons_append] at hsplit
    exact absurd hsplit (postorders_ne_of_short hshort op' _)

theorem supplied_iff {ts : List Token} (h : ∀ token ∈ ts, token.isKept) :
    Supplied ts ↔ ∃ forest, ts = postorders forest := by
  constructor
  · intro hsupplied
    refine (exists_postorders h).resolve_right ?_
    rintro ⟨forest, op, after, rfl, hshort⟩
    have hoperands := hsupplied _ _ _ rfl
    rw [surplus_postorders] at hoperands
    omega
  · rintro ⟨forest, rfl⟩
    exact supplied_postorders forest

/-- The values over integers, one tree after the other, or the first failure. -/
def exacts (forest : List Tree) : Except Failure (List Int) := forest.mapM exact

theorem exacts_cons (t : Tree) (forest : List Tree) :
    exacts (t :: forest) = (do return (← t.exact) :: (← exacts forest)) := List.mapM_cons

theorem toClass_mem_of_exact {t : Tree} {failure : Failure} (h : t.exact = .error failure) :
    failure.toClass ∈ Operator.classes := by
  induction t with
  | number digits => cases h
  | node op left right ihl ihr =>
    rw [exact] at h
    cases hl : left.exact with
    | error failure' =>
      rw [hl] at h
      cases h
      exact ihl hl
    | ok m =>
      cases hr : right.exact with
      | error failure' =>
        rw [hl, hr] at h
        cases h
        exact ihr hr
      | ok n =>
        rw [hl, hr] at h
        exact Operator.toClass_mem_of_exact h

theorem toClass_mem_of_exacts {forest : List Tree} {failure : Failure}
    (h : exacts forest = .error failure) : failure.toClass ∈ Operator.classes := by
  induction forest with
  | nil => cases h
  | cons t forest ih =>
    rw [exacts_cons] at h
    cases ht : t.exact with
    | error failure' =>
      rw [ht] at h
      cases h
      exact toClass_mem_of_exact ht
    | ok n =>
      rw [ht] at h
      cases hrest : exacts forest with
      | error failure' =>
        rw [hrest] at h
        cases h
        exact ih hrest
      | ok values =>
        rw [hrest] at h
        cases h

theorem length_exacts {forest : List Tree} {values : List Int} (h : exacts forest = .ok values) :
    values.length = forest.length := by
  induction forest generalizing values with
  | nil =>
    cases h
    rfl
  | cons t forest ih =>
    rw [exacts_cons] at h
    cases ht : t.exact with
    | error failure =>
      rw [ht] at h
      cases h
    | ok n =>
      cases hrest : exacts forest with
      | error failure =>
        rw [ht, hrest] at h
        cases h
      | ok rest =>
        rw [ht, hrest] at h
        cases h
        rw [List.length_cons, List.length_cons, ih hrest]

theorem exacts_concat (forest : List Tree) (t : Tree) :
    exacts (forest ++ [t]) = (do return (← exacts forest) ++ [← t.exact]) := by
  simp [exacts, List.mapM_append]

end Tree

namespace Expression

open Number Token

variable {base : Nat}

theorem run_append (base : Value) (stack : List Number) (ts us : List Token) :
    run base stack (ts ++ us) = run base stack ts >>= fun stack => run base stack us := by
  induction ts generalizing stack with
  | nil => simp [run]
  | cons token ts ih =>
    cases token with
    | number digits => simp only [List.cons_append, run, bind_assoc, ih]
    | operator op =>
      rcases stack with _ | ⟨right, _ | ⟨left, stack⟩⟩
      · rfl
      · rfl
      · simp only [List.cons_append, run, bind_assoc, ih]
    | _ => cases stack <;> rfl

theorem FailsAt.append {base : Value} {ts : List Token} {i : Nat} {f : Fault}
    (h : FailsAt base ts i f) (us : List Token) : FailsAt base (ts ++ us) i f := by
  obtain ⟨token, stack, hget, hbefore, hfail⟩ := h
  have hi : i < ts.length := (List.getElem?_eq_some_iff.1 hget).1
  refine ⟨token, stack, ?_, ?_, hfail⟩
  · rw [List.getElem?_append_left hi, hget]
  · rw [List.take_append_of_le_length hi.le, hbefore]

theorem FailsAt.lt_length {base : Value} {ts : List Token} {i : Nat} {f : Fault}
    (h : FailsAt base ts i f) : i < ts.length := by
  obtain ⟨token, stack, hget, -, -⟩ := h
  exact (List.getElem?_eq_some_iff.1 hget).1

theorem failsAt_last {base : Value} {ts : List Token} {token : Token} {stack : List Number}
    {f : Fault} (hbefore : (run base [] ts).outcome = .ok stack)
    (hfail : (run base stack [token]).outcome = .error f) (us : List Token) :
    FailsAt base (ts ++ token :: us) ts.length f := by
  refine ⟨token, stack, ?_, ?_, hfail⟩
  · simp
  · rw [List.take_left, hbefore]

theorem exists_failsAt {base : Value} {ts : List Token} {f : Fault}
    (h : (run base [] ts).outcome = .error f) : ∃ i, FailsAt base ts i f := by
  induction ts using List.reverseRecOn with
  | nil => cases h
  | append_singleton ts last ih =>
    rw [run_append, Calc.outcome_bind] at h
    cases hrun : (run base [] ts).outcome with
    | error f' =>
      rw [hrun] at h
      cases h
      obtain ⟨i, hi⟩ := ih hrun
      exact ⟨i, hi.append [last]⟩
    | ok stack =>
      rw [hrun] at h
      exact ⟨ts.length, failsAt_last hrun h []⟩

theorem run_postorders (base : Value) (forest : List Tree) (stack : List Number)
    (ts : List Token) :
    run base stack (Tree.postorders forest ++ ts) =
      forest.mapM (Tree.evaluate base) >>= fun xs => run base (xs.reverse ++ stack) ts := by
  induction forest generalizing stack with
  | nil => simp
  | cons t forest ih =>
    simp only [Tree.postorders_cons, List.append_assoc, run_postorder, ih, List.mapM_cons,
      bind_assoc, pure_bind, List.reverse_cons, List.singleton_append]

theorem outcome_mapM_evaluate (h : 1 < base) {forest : List Tree}
    (hn : ∀ digits, .number digits ∈ Tree.postorders forest → Text.IsNumeral digits) :
    (forest.mapM (Tree.evaluate (.int base))).outcome =
      inBase base (List.map (ofInt base)) (Tree.exacts forest) := by
  induction forest with
  | nil => rfl
  | cons t forest ih =>
    have htree := tree_evaluate_outcome h (t := t) fun digits hd => hn digits (by simp [hd])
    have hforest := ih fun digits hd => hn digits (by simp [hd])
    rw [List.mapM_cons, Tree.exacts_cons, Calc.outcome_bind, htree]
    cases t.exact with
    | error failure => rfl
    | ok n =>
      change ((forest.mapM (Tree.evaluate (.int base))) >>= fun xs =>
        pure (ofInt base n :: xs)).outcome = _
      rw [Calc.outcome_bind, hforest]
      cases Tree.exacts forest <;> rfl

theorem run_postorders_outcome (h : 1 < base) {forest : List Tree}
    (hn : ∀ digits, .number digits ∈ Tree.postorders forest → Text.IsNumeral digits) :
    (run (.int base) [] (Tree.postorders forest)).outcome =
      inBase base (fun values => (values.map (ofInt base)).reverse) (Tree.exacts forest) := by
  have hrun := run_postorders (.int base) forest [] []
  rw [List.append_nil] at hrun
  rw [hrun, Calc.outcome_bind, outcome_mapM_evaluate h hn]
  cases Tree.exacts forest with
  | error failure => rfl
  | ok values =>
    change (run (.int base) ((values.map (ofInt base)).reverse ++ []) []).outcome = _
    rw [List.append_nil, run]
    rfl

theorem evaluatePostfix_of_run_error (h : 1 < base) {ts : List Token} {f : Fault}
    (hrun : (run (.int base) [] ts).outcome = .error f) :
    (evaluatePostfix (.int base) ts).outcome = .error f := by
  rw [evaluatePostfix_outcome h, hrun]
  rfl

theorem evaluatePostfix_postorders (h : 1 < base) {forest : List Tree} {values : List Int}
    (hn : ∀ digits, .number digits ∈ Tree.postorders forest → Text.IsNumeral digits)
    (hvalues : Tree.exacts forest = .ok values) :
    (evaluatePostfix (.int base) (Tree.postorders forest)).outcome = top base values.reverse := by
  rw [evaluatePostfix_outcome h, run_postorders_outcome h hn, hvalues, inBase, ← List.map_reverse]
  cases values.reverse with
  | nil => rfl
  | cons n rest => exact describe_bind base n

/-- The evaluator stops with a failure at one of the first tokens. It tells the failure as one of
numbers in the base; its class is another only when an exponent is too large and the base too long
to be written. -/
def StopsWithin (base : Nat) (ts : List Token) (count : Nat) (failure : Failure) : Prop :=
  ∃ i f, i < count ∧ FailsAt (.int base) ts i f ∧
    (evaluatePostfix (.int base) ts).outcome = .error f ∧
    f.toClass =
      if failure.toClass = .exponentOverflow ∧ ¬ base < 10 ^ Text.digitLimit then .wrongValue
      else failure.toClass

/-- The first failure of trees in a row is the failure of every list that begins with them. -/
theorem stopsWithin_postorders (h : 1 < base) {forest : List Tree} {failure : Failure}
    (hn : ∀ digits, .number digits ∈ Tree.postorders forest → Text.IsNumeral digits)
    (hfailure : Tree.exacts forest = .error failure) (after : List Token) :
    StopsWithin base (Tree.postorders forest ++ after) (Tree.postorders forest).length failure := by
  have hrun := run_postorders_outcome h hn
  rw [hfailure] at hrun
  have hall : (run (.int base) [] (Tree.postorders forest ++ after)).outcome =
      .error (failure.fault base) := by
    rw [run_append, Calc.outcome_bind, hrun]
    rfl
  obtain ⟨i, hi⟩ := exists_failsAt hrun
  exact ⟨i, failure.fault base, hi.lt_length, hi.append after, evaluatePostfix_of_run_error h hall,
    failure.toClass_fault base⟩

theorem evaluatePostfix_short (h : 1 < base) {forest : List Tree} {values : List Int}
    (hn : ∀ digits, .number digits ∈ Tree.postorders forest → Text.IsNumeral digits)
    (hvalues : Tree.exacts forest = .ok values) (hshort : forest.length < 2) (op : Operator)
    (after : List Token) :
    (evaluatePostfix (.int base) (Tree.postorders forest ++ .operator op :: after)).outcome =
        .error (.stackUnderflow op forest.length) ∧
      FailsAt (.int base) (Tree.postorders forest ++ .operator op :: after)
        (Tree.postorders forest).length (.stackUnderflow op forest.length) := by
  have hrun := run_postorders_outcome h hn
  rw [hvalues] at hrun
  have hlength := Tree.length_exacts hvalues
  have hunderflow : ∀ ts, (run (.int base) (values.map (ofInt base)).reverse
      (.operator op :: ts)).outcome = .error (.stackUnderflow op forest.length) := by
    intro ts
    rw [← hlength] at hshort ⊢
    match values, hshort with
    | [], _ => rfl
    | [_], _ => rfl
  refine ⟨evaluatePostfix_of_run_error h ?_, failsAt_last hrun (hunderflow []) after⟩
  rw [run_append, Calc.outcome_bind, hrun]
  exact hunderflow after

theorem eq_numeralTooLong_of_top {stack : List Int} {f : Fault} (h : top base stack = .error f) :
    f = .numeralTooLong := by
  cases stack with
  | nil => cases h
  | cons n rest =>
    rw [top] at h
    split_ifs at h
    cases h
    rfl

theorem exists_exacts_or_error (h : 1 < base) {ts : List Token}
    (hkept : ∀ token ∈ ts, token.isKept)
    (hn : ∀ digits, .number digits ∈ ts → Text.IsNumeral digits) :
    (∃ forest values, ts = Tree.postorders forest ∧ Tree.exacts forest = .ok values) ∨
      ∃ f, (evaluatePostfix (.int base) ts).outcome = .error f ∧
        f.toClass ∈ .stackUnderflow :: .wrongValue :: Operator.classes := by
  have harithmetic : ∀ {forest : List Tree} {after : List Token} {failure : Failure},
      ts = Tree.postorders forest ++ after → Tree.exacts forest = .error failure →
        ∃ f, (evaluatePostfix (.int base) ts).outcome = .error f ∧
          f.toClass ∈ .stackUnderflow :: .wrongValue :: Operator.classes := by
    rintro forest after failure rfl hexacts
    have hforest : ∀ digits, .number digits ∈ Tree.postorders forest → Text.IsNumeral digits :=
      fun digits hd => hn digits (List.mem_append_left _ hd)
    obtain ⟨-, f, -, -, hf, hclass⟩ := stopsWithin_postorders h hforest hexacts after
    refine ⟨f, hf, ?_⟩
    rw [hclass]
    split_ifs
    · simp
    · exact List.mem_cons_of_mem _ (List.mem_cons_of_mem _ (Tree.toClass_mem_of_exacts hexacts))
  rcases Tree.exists_postorders hkept with ⟨forest, hforest⟩ | ⟨forest, op, after, rfl, hshort⟩
  · cases hexacts : Tree.exacts forest with
    | error failure => exact Or.inr (harithmetic (by rw [hforest, List.append_nil]) hexacts)
    | ok values => exact Or.inl ⟨forest, values, hforest, hexacts⟩
  · cases hexacts : Tree.exacts forest with
    | error failure => exact Or.inr (harithmetic rfl hexacts)
    | ok values =>
      have hforest : ∀ digits, .number digits ∈ Tree.postorders forest → Text.IsNumeral digits :=
        fun digits hd => hn digits (List.mem_append_left _ hd)
      refine Or.inr ⟨_, (evaluatePostfix_short h hforest hexacts hshort op after).1, ?_⟩
      simp [Fault.toClass]

theorem toClass_ne_invalidToken (h : 1 < base) {ts : List Token} {f : Fault}
    (hkept : ∀ token ∈ ts, token.isKept)
    (hn : ∀ digits, .number digits ∈ ts → Text.IsNumeral digits)
    (hf : (evaluatePostfix (.int base) ts).outcome = .error f) : f.toClass ≠ .invalidToken := by
  rcases exists_exacts_or_error h hkept hn with
    ⟨forest, values, rfl, hexacts⟩ | ⟨f', hf', hclass⟩
  · rw [evaluatePostfix_postorders h hn hexacts] at hf
    rw [eq_numeralTooLong_of_top hf]
    simp [Fault.toClass]
  · cases hf.symm.trans hf'
    intro hinvalid
    rw [hinvalid] at hclass
    simp [Operator.classes] at hclass

theorem exists_last_value (h : 1 < base) {forest : List Tree} {values : List Int}
    (hn : ∀ digits, .number digits ∈ Tree.postorders forest → Text.IsNumeral digits)
    (hvalues : Tree.exacts forest = .ok values) :
    ∃ n, (forest = [] → n = 0) ∧
      (∀ t ∈ forest.getLast?, t.exact = .ok n ∧
        (t.evaluate (.int base)).outcome = .ok (ofInt base n)) ∧
      (forest = [] ∨ base < 10 ^ Text.digitLimit → top base values.reverse = .ok (ofInt base n)) ∧
      (forest ≠ [] ∧ ¬ base < 10 ^ Text.digitLimit →
        top base values.reverse = .error .numeralTooLong) := by
  rcases forest.eq_nil_or_concat' with rfl | ⟨init, last, rfl⟩
  · cases hvalues
    refine ⟨0, fun _ => rfl, ?_, fun _ => rfl, ?_⟩
    · simp
    · simp
  · rw [Tree.exacts_concat] at hvalues
    cases hinit : Tree.exacts init with
    | error failure =>
      rw [hinit] at hvalues
      cases hvalues
    | ok rest =>
      cases hlast : last.exact with
      | error failure =>
        rw [hinit, hlast] at hvalues
        cases hvalues
      | ok n =>
        rw [hinit, hlast] at hvalues
        cases hvalues
        have hvalue : (last.evaluate (.int base)).outcome = .ok (ofInt base n) := by
          rw [tree_evaluate_outcome h fun digits hd => hn digits (by simp [hd]), hlast]
          rfl
        rw [List.reverse_append, List.reverse_singleton, List.singleton_append, top]
        refine ⟨n, ?_, ?_, ?_, ?_⟩
        · simp
        · rw [List.getLast?_concat]
          rintro t ⟨⟩
          exact ⟨hlast, hvalue⟩
        · intro hshort
          exact if_pos (hshort.resolve_left (by simp))
        · rintro ⟨-, hwide⟩
          exact if_neg hwide

theorem evaluatePostfix_ok_iff (h : 1 < base) {ts : List Token}
    (hkept : ∀ token ∈ ts, token.isKept)
    (hn : ∀ digits, .number digits ∈ ts → Text.IsNumeral digits) :
    (∃ x, (evaluatePostfix (.int base) ts).outcome = .ok x) ↔
      ∃ forest values, ts = Tree.postorders forest ∧ Tree.exacts forest = .ok values ∧
        (forest = [] ∨ base < 10 ^ Text.digitLimit) := by
  constructor
  · rintro ⟨x, hx⟩
    rcases exists_exacts_or_error h hkept hn with
      ⟨forest, values, rfl, hexacts⟩ | ⟨f, hf, -⟩
    · refine ⟨forest, values, rfl, hexacts, ?_⟩
      obtain ⟨-, -, -, -, hwide⟩ := exists_last_value h hn hexacts
      by_contra hlong
      rw [evaluatePostfix_postorders h hn hexacts, hwide (not_or.1 hlong)] at hx
      cases hx
    · cases hx.symm.trans hf
  · rintro ⟨forest, values, rfl, hexacts, hwritten⟩
    obtain ⟨n, -, -, hshort, -⟩ := exists_last_value h hn hexacts
    exact ⟨_, (evaluatePostfix_postorders h hn hexacts).trans (hshort hwritten)⟩

/-- Numbers and operators are trees one behind another, each in postorder and in one way only, if
and only if every operator finds two operands. They have the value of the last tree, or zero if
there is none, when all trees have values, and fail as the first tree that has none. Otherwise the
first operator that finds fewer than two operands fails, if none before it has. Only a base too long
to be written stands in the way of a result, and of the report of an exponent too large. -/
theorem forests_evaluated {raws : List String} (hkept : ∀ raw ∈ raws, (read raw).isKept) :
    (Supplied (raws.map read) ↔ ∃ forest, raws.map read = Tree.postorders forest) ∧
    (∀ forest forest', raws.map read = Tree.postorders forest →
      raws.map read = Tree.postorders forest' → forest = forest') ∧
    (∀ forest, raws.map read = Tree.postorders forest → ∀ base : Nat, 1 < base →
      match Tree.exacts forest with
      | .ok _ =>
        ∃ x, x.base = base ∧ x.WellFormed ∧ (forest = [] → x.toInt = 0) ∧
          (∀ t ∈ forest.getLast?, t.exact = .ok x.toInt ∧
            (t.evaluate (.int base)).outcome = .ok x) ∧
          (forest = [] ∨ base < 10 ^ Text.digitLimit →
            (evaluatePostfix (.int base) (raws.map read)).outcome = .ok x) ∧
          (forest ≠ [] ∧ ¬ base < 10 ^ Text.digitLimit →
            (evaluatePostfix (.int base) (raws.map read)).outcome = .error .numeralTooLong)
      | .error failure =>
        failure.toClass ∈ Operator.classes ∧
          StopsWithin base (raws.map read) raws.length failure) ∧
    (¬ Supplied (raws.map read) → ∃ forest op after,
      raws.map read = Tree.postorders forest ++ .operator op :: after ∧ forest.length < 2 ∧
      ∀ base : Nat, 1 < base →
        match Tree.exacts forest with
        | .ok _ =>
          (evaluatePostfix (.int base) (raws.map read)).outcome =
              .error (.stackUnderflow op forest.length) ∧
            FailsAt (.int base) (raws.map read) (Tree.postorders forest).length
              (.stackUnderflow op forest.length)
        | .error failure =>
          failure.toClass ∈ Operator.classes ∧
            StopsWithin base (raws.map read) (Tree.postorders forest).length failure) := by
  have htokens : ∀ token ∈ raws.map read, token.isKept := List.forall_mem_map.2 hkept
  have hnumerals : ∀ digits, .number digits ∈ raws.map read → Text.IsNumeral digits := by
    intro digits hd
    obtain ⟨raw, -, hraw⟩ := List.mem_map.1 hd
    exact isNumeral_of_read hraw
  have hlength : raws.length = (raws.map read).length := (List.length_map _).symm
  refine ⟨Tree.supplied_iff htokens, ?_, ?_, ?_⟩
  · intro forest forest' hforest hforest'
    exact Tree.postorders_injective (hforest.symm.trans hforest')
  · intro forest hforest base h
    rw [hlength, hforest]
    rw [hforest] at hnumerals
    cases hexacts : Tree.exacts forest with
    | error failure =>
      have hstops := stopsWithin_postorders h hnumerals hexacts []
      rw [List.append_nil] at hstops
      exact ⟨Tree.toClass_mem_of_exacts hexacts, hstops⟩
    | ok values =>
      have houtcome := evaluatePostfix_postorders h hnumerals hexacts
      obtain ⟨n, hnone, hlast, hshort, hwide⟩ := exists_last_value h hnumerals hexacts
      refine ⟨ofInt base n, rfl, wellFormed_ofInt h n, ?_, ?_, ?_, ?_⟩
      · rw [toInt_ofInt h]
        exact hnone
      · rw [toInt_ofInt h]
        exact hlast
      · exact fun hwritten => houtcome.trans (hshort hwritten)
      · exact fun hlong => houtcome.trans (hwide hlong)
  · intro hsupplied
    rw [Tree.supplied_iff htokens] at hsupplied
    obtain ⟨forest, op, after, hsplit, hshort⟩ :=
      (Tree.exists_postorders htokens).resolve_left hsupplied
    refine ⟨forest, op, after, hsplit, hshort, ?_⟩
    intro base h
    have hn : ∀ digits, .number digits ∈ Tree.postorders forest → Text.IsNumeral digits := by
      intro digits hd
      refine hnumerals digits ?_
      rw [hsplit]
      exact List.mem_append_left _ hd
    rw [hsplit]
    cases hexacts : Tree.exacts forest with
    | error failure =>
      exact ⟨Tree.toClass_mem_of_exacts hexacts, stopsWithin_postorders h hn hexacts _⟩
    | ok values => exact evaluatePostfix_short h hn hexacts hshort op after

theorem forests_evaluated_two :
    Supplied (["4", "1", "2 ", "-"].map read) ∧
    (∃ x, (evaluatePostfix (.int (10 : Nat)) (["4", "1", "2 ", "-"].map read)).outcome = .ok x ∧
      x.WellFormed ∧ x.toInt = -1) ∧
    (evaluatePostfix (.int (10 ^ Text.digitLimit : Nat))
      (["4", "1", "2 ", "-"].map read)).outcome = .error .numeralTooLong ∧
    StopsWithin 10 (["4", "7", "0", "/"].map read) 4 (.divisionByZero 7) ∧
    ∃ forest op after, ["7", "0", "/", "+"].map read =
      Tree.postorders forest ++ .operator op :: after ∧ forest.length < 2 := by
  have hten : 10 < 10 ^ Text.digitLimit := lt_self_pow₀ (by decide) (by decide)
  have hwide : 1 < 10 ^ Text.digitLimit := Nat.one_lt_pow (by decide) (by decide)
  have htwo : ∀ raw ∈ ["4", "1", "2 ", "-"], (read raw).isKept := by decide
  have hstopped : ∀ raw ∈ ["4", "7", "0", "/"], (read raw).isKept := by decide
  have hfew : ∀ raw ∈ ["7", "0", "/", "+"], (read raw).isKept := by decide
  obtain ⟨hsupplied, -, hvalue, -⟩ := forests_evaluated htwo
  obtain ⟨-, -, hfailure, -⟩ := forests_evaluated hstopped
  obtain ⟨-, -, -, hshort⟩ := forests_evaluated hfew
  have hforest : ["4", "1", "2 ", "-"].map read =
      Tree.postorders [.number "4", .node .minus (.number "1") (.number "2")] := by decide
  have hquotient : ["4", "7", "0", "/"].map read =
      Tree.postorders [.number "4", .node .divide (.number "7") (.number "0")] := by decide
  have hlacks : ¬ Supplied (["7", "0", "/", "+"].map read) := by
    intro h
    have hoperands := h (["7", "0", "/"].map read) .plus [] (by decide)
    revert hoperands
    decide
  obtain ⟨x, -, hformed, -, hlast, hwritten, -⟩ := hvalue _ hforest 10 (by decide)
  obtain ⟨-, -, -, -, -, -, hlong⟩ := hvalue _ hforest _ hwide
  obtain ⟨-, hstops⟩ := hfailure _ hquotient 10 (by decide)
  obtain ⟨forest, op, after, hsplit, hlength, -⟩ := hshort hlacks
  have hdifference := (hlast _ rfl).1
  refine ⟨hsupplied.2 ⟨_, hforest⟩, ⟨x, hwritten (Or.inr hten), hformed, ?_⟩,
    hlong ⟨by simp, lt_irrefl _⟩, hstops, forest, op, after, hsplit, hlength⟩
  exact (Except.ok.inj hdifference).symm

end Expression

end Radix
