import Radix.Proofs.Number.Search

namespace Radix.Number

inductive Construction where
  | value (v : Value)
  | limbs (xs : List Int) (negative : Bool)
  | zero
  | one

inductive Unary where
  | abs
  | negate
  | halve
  | squareRoot
  | withSign (negative : Bool)
  | power (n : Int)
  | convert (base : Value)

inductive Binary where
  | reconcile
  | add
  | subtract
  | multiply
  | divide
  | modulo

def Construction.perform (c : Construction) (base : Value) : Except Fault Number := do
  let base ← checkBase base
  match c with
  | .value v => ofValue base v
  | .limbs xs negative => ofLimbs base negative xs
  | .zero => Number.zero base
  | .one => Number.one base

def Unary.perform : Unary → Number → Calc Number
  | .abs, x => x.abs
  | .negate, x => x.negate
  | .halve, x => x.halve
  | .squareRoot, x => x.squareRoot
  | .withSign negative, x => x.withSign negative
  | .power n, x => x.power n
  | .convert base, x => do x.convert (← checkBase base)

def Binary.perform : Binary → Number → Number → Calc Number
  | .reconcile => Number.reconcile
  | .add => Number.add
  | .subtract => Number.subtract
  | .multiply => Number.multiply
  | .divide => Number.divide
  | .modulo => Number.modulo

/-- A construction, or an operation on numbers that are named by their places among those made. -/
inductive Action where
  | construct (c : Construction) (base : Value)
  | unary (op : Unary) (x : Nat)
  | binary (op : Binary) (x y : Nat)

/-- What an action comes to. It comes to nothing if it names a number that was not made. -/
def Action.perform (made : List Number) : Action → Option (Calc Number)
  | .construct c base => some (liftM (c.perform base))
  | .unary op x => made[x]?.map op.perform
  | .binary op x y => made[x]?.bind fun a => made[y]?.map fun b => op.perform a b

/-- A number that an action makes joins those made before; a failure leaves them as they are. -/
def Action.step (made : List Number) (action : Action) : List Number :=
  match action.perform made with
  | some ⟨.ok x, _⟩ => made ++ [x]
  | _ => made

def makeAll (actions : List Action) : List Number := actions.foldl Action.step []

def IsBase (v : Value) : Prop := ∃ n : Nat, 1 < n ∧ v = .int n

/-- The values that mean a number. -/
def IsNumeric (v : Value) : Prop := (∃ n, v = .int n) ∨ ∃ s, Text.IsDecimal s ∧ v = .text s

/-- A base that is no base; a value that means no number; a given limb outside the base. -/
def Construction.Refuses (c : Construction) (base : Value) (f : Fault) : Prop :=
  ¬ IsBase base ∧ checkBase base = .error f ∨
    match c with
    | .value v => ¬ IsNumeric v ∧ f.toClass = .malformedNumber
    | .limbs xs _ => ∃ b limb, checkBase base = .ok b ∧ limb ∈ xs ∧
        (limb < 0 ∨ (b : Int) ≤ limb) ∧ f = .told (.limbOutside limb b)
    | .zero | .one => False

def Unary.Refuses : Unary → Number → Fault → Prop
  | .squareRoot, x, f => x.toInt < 0 ∧ f = .negativeOperand x
  | .convert base, _, f => ¬ IsBase base ∧ checkBase base = .error f
  | _, _, _ => False

def Binary.Refuses : Binary → Number → Number → Fault → Prop
  | .divide, a, b, f => b.toInt = 0 ∧ f = .divisionByZero a
  | .modulo, a, b, f =>
    b.toInt < 0 ∧ f = .negativeModulus b ∨ b.toInt = 0 ∧ f = .divisionByZero a
  | _, _, _, _ => False

def Action.Refuses (made : List Number) : Action → Fault → Prop
  | .construct c base, f => c.Refuses base f
  | .unary op x, f => ∃ a ∈ made[x]?, op.Refuses a f
  | .binary op x y, f => ∃ a ∈ made[x]?, ∃ b ∈ made[y]?, op.Refuses a b f

/-- A well-formed number, or a refusal of a given kind. -/
def Sound (outcome : Except Fault Number) (refuses : Fault → Prop) : Prop :=
  match outcome with
  | .ok x => x.WellFormed
  | .error f => refuses f

theorem Sound.mono {outcome : Except Fault Number} {refuses refuses' : Fault → Prop}
    (h : Sound outcome refuses) (himp : ∀ f, refuses f → refuses' f) : Sound outcome refuses' := by
  cases outcome with
  | ok x => exact h
  | error f => exact himp f h

theorem not_isBase_of_checkBase {base : Value} {f : Fault} (h : checkBase base = .error f) :
    ¬ IsBase base := by
  rintro ⟨n, hn, rfl⟩
  rw [checkBase_natCast hn] at h
  cases h

theorem ofValue_sound {b : Nat} (h : 1 < b) (v : Value) :
    Sound (ofValue b v) fun f => ¬ IsNumeric v ∧ f.toClass = .malformedNumber := by
  cases v with
  | int n => exact wellFormed_ofInt h n
  | text s =>
    rw [ofValue]
    by_cases hs : Text.IsDecimal s
    · obtain ⟨negative, digits, hw⟩ := hs
      rw [ofText_of_writes h hw]
      exact wellFormed_ofInt h _
    · rw [ofText_of_not_isDecimal hs]
      refine ⟨?_, rfl⟩
      rintro (⟨n, hn⟩ | ⟨s', hs', hn⟩)
      · cases hn
      · cases hn
        exact hs hs'
  | _ =>
    refine ⟨?_, rfl⟩
    rintro (⟨n, hn⟩ | ⟨s, -, hn⟩) <;> cases hn

theorem construction_sound (c : Construction) (base : Value) :
    Sound (c.perform base) (c.Refuses base) := by
  cases hbase : checkBase base with
  | error f =>
    rw [Construction.perform, hbase]
    exact Or.inl ⟨not_isBase_of_checkBase hbase, hbase⟩
  | ok b =>
    have h := one_lt_of_checkBase hbase
    rw [Construction.perform, hbase]
    cases c with
    | value v => exact (ofValue_sound h v).mono fun f hf => Or.inr hf
    | limbs xs negative =>
      -- the one constructor whose limbs come from outside, and may be refused
      change Sound (ofLimbs b negative xs) _
      rcases ofLimbs_ok_or_error h negative xs with ⟨-, hn⟩ | ⟨limb, hlimb, hf⟩
      · rw [hn]
        exact wellFormed_ofInt h _
      · rw [hf]
        exact Or.inr ⟨b, limb, hbase, hlimb.mem, hlimb.outside, rfl⟩
    | zero =>
      change Sound (Number.zero b) _
      rw [zero_eq h]
      exact wellFormed_ofInt h 0
    | one =>
      change Sound (Number.one b) _
      rw [one_eq h]
      exact wellFormed_ofInt h 1

theorem unary_sound (op : Unary) {x : Number} (hx : x.WellFormed) :
    Sound (op.perform x).outcome (op.Refuses x) := by
  have h := hx.one_lt_base
  cases op with
  | abs =>
    simp only [Unary.perform, abs_eq hx, Calc.lift_ok]
    exact wellFormed_ofInt h _
  | negate =>
    simp only [Unary.perform, negate_eq hx, Calc.lift_ok]
    exact wellFormed_ofInt h _
  | halve =>
    simp only [Unary.perform, halve_eq hx, Calc.lift_ok]
    exact wellFormed_ofInt h _
  | squareRoot =>
    simp only [Unary.perform, squareRoot_eq hx]
    by_cases hneg : x.toInt < 0
    · rw [if_pos hneg]
      exact ⟨hneg, rfl⟩
    · rw [if_neg hneg]
      exact wellFormed_ofInt h _
  | withSign negative =>
    simp only [Unary.perform, withSign_eq hx, Calc.lift_ok]
    exact wellFormed_ofInt h _
  | power n =>
    simp only [Unary.perform, power_eq hx]
    exact wellFormed_ofInt h _
  | convert base =>
    cases hbase : checkBase base with
    | error f =>
      simp only [Unary.perform, hbase, Calc.lift_error, Calc.bind_error]
      exact ⟨not_isBase_of_checkBase hbase, hbase⟩
    | ok b =>
      have hb := one_lt_of_checkBase hbase
      simp only [Unary.perform, hbase, Calc.lift_ok, Calc.bind_ok, convert_eq hx hb]
      exact wellFormed_ofInt hb _

theorem binary_sound (op : Binary) {a b : Number} (ha : a.WellFormed) (hb : b.WellFormed) :
    Sound (op.perform a b).outcome (op.Refuses a b) := by
  cases op with
  | reconcile =>
    simp only [Binary.perform, reconcile_eq ha.one_lt_base hb]
    exact wellFormed_ofInt ha.one_lt_base _
  | add =>
    simp only [Binary.perform, add_eq ha hb]
    exact wellFormed_ofInt ha.one_lt_base _
  | subtract =>
    simp only [Binary.perform, subtract_eq ha hb]
    exact wellFormed_ofInt ha.one_lt_base _
  | multiply =>
    simp only [Binary.perform, multiply_eq ha hb]
    exact wellFormed_ofInt ha.one_lt_base _
  | divide =>
    simp only [Binary.perform, divide_eq ha hb]
    by_cases hzero : b.toInt = 0
    · rw [if_pos hzero]
      exact ⟨hzero, rfl⟩
    · rw [if_neg hzero]
      exact wellFormed_ofInt ha.one_lt_base _
  | modulo =>
    simp only [Binary.perform, modulo_eq ha hb]
    by_cases hneg : b.toInt < 0
    · rw [if_pos hneg]
      exact Or.inl ⟨hneg, rfl⟩
    · rw [if_neg hneg]
      by_cases hzero : b.toInt = 0
      · rw [if_pos hzero]
        exact Or.inr ⟨hzero, rfl⟩
      · rw [if_neg hzero]
        exact wellFormed_ofInt ha.one_lt_base _

theorem action_sound {made : List Number} (hmade : ∀ x ∈ made, x.WellFormed) {action : Action}
    {c : Calc Number} (hc : action.perform made = some c) :
    Sound c.outcome (action.Refuses made) := by
  cases action with
  | construct con base =>
    have hsound := construction_sound con base
    cases hp : con.perform base <;>
      · rw [hp] at hsound
        rw [Action.perform, hp] at hc
        cases hc
        exact hsound
  | unary op i =>
    obtain ⟨x, hx, rfl⟩ := Option.map_eq_some_iff.1 hc
    have hsound := unary_sound op (hmade x (List.mem_of_getElem? hx))
    exact hsound.mono fun f hf => ⟨x, hx, hf⟩
  | binary op i j =>
    obtain ⟨a, ha, hc⟩ := Option.bind_eq_some_iff.1 hc
    obtain ⟨b, hb, rfl⟩ := Option.map_eq_some_iff.1 hc
    have hsound := binary_sound op (hmade a (List.mem_of_getElem? ha))
      (hmade b (List.mem_of_getElem? hb))
    exact hsound.mono fun f hf => ⟨a, ha, b, hb, hf⟩

theorem toClass_told {f : Fault} (h : f.toClass = .wrongValue) : f.told.toClass = .wrongValue := by
  rw [Fault.told]
  split
  · exact h
  · rfl

theorem checkBase_refusal {base : Value} {f : Fault} (h : checkBase base = .error f) :
    (∃ kind, f = .baseNotInteger kind) ∨ ∃ n, f = .told (.baseTooSmall n) := by
  cases base with
  | int n =>
    rw [checkBase] at h
    split at h
    · cases h
      exact Or.inr ⟨n, rfl⟩
    · cases h
  | _ =>
    cases h
    exact Or.inl ⟨_, rfl⟩

theorem Action.Refuses.cases {made : List Number} {action : Action} {f : Fault}
    (h : action.Refuses made f) :
    f.toClass ∈ [.malformedNumber, .divisionByZero, .negativeModulus, .negativeOperand] ∨
    (∃ base, checkBase base = .error f) ∨
    ∃ xs negative base, action = .construct (.limbs xs negative) base ∧
      ∃ limb ∈ xs, ∃ b, f = .told (.limbOutside limb b) := by
  cases action with
  | construct c base =>
    rcases h with ⟨-, hbase⟩ | h
    · exact Or.inr (Or.inl ⟨base, hbase⟩)
    · cases c with
      | value v => exact Or.inl (by simp [show f.toClass = .malformedNumber from h.2])
      | limbs xs negative =>
        obtain ⟨b, limb, -, hmem, -, hf⟩ := h
        exact Or.inr (Or.inr ⟨xs, negative, base, rfl, limb, hmem, b, hf⟩)
      | zero => exact h.elim
      | one => exact h.elim
  | unary op i =>
    obtain ⟨x, -, hf⟩ := h
    cases op with
    | squareRoot => exact Or.inl (by simp [hf.2, Fault.toClass])
    | convert base => exact Or.inr (Or.inl ⟨base, hf.2⟩)
    | _ => exact hf.elim
  | binary op i j =>
    obtain ⟨a, -, b, -, hf⟩ := h
    cases op with
    | divide => exact Or.inl (by simp [hf.2, Fault.toClass])
    | modulo => rcases hf with hf | hf <;> exact Or.inl (by simp [hf.2, Fault.toClass])
    | _ => exact hf.elim

theorem Action.Refuses.toClass_ne_inconsistency {made : List Number} {action : Action} {f : Fault}
    (h : action.Refuses made f) : f.toClass ≠ .inconsistency := by
  rcases h.cases with hclass | ⟨base, hbase⟩ | ⟨_, _, _, _, limb, _, b, rfl⟩
  · intro hf
    simp [hf] at hclass
  · -- a fault that is told is of the same class or, if it cannot be spelt, a wrong value
    rcases checkBase_refusal hbase with ⟨kind, rfl⟩ | ⟨n, rfl⟩
    · exact nofun
    · simp [toClass_told (rfl : (Fault.baseTooSmall n).toClass = .wrongValue)]
  · simp [toClass_told (rfl : (Fault.limbOutside limb b).toClass = .wrongValue)]

theorem told_eq_self_or {f : Fault} : f.told = f ∨ f.told = .numeralTooLong := by
  rw [Fault.told]
  split
  · exact Or.inl rfl
  · exact Or.inr rfl

theorem Action.Refuses.given_limb {made : List Number} {action : Action} {limb : Int} {b : Nat}
    (h : action.Refuses made (.limbOutside limb b)) :
    ∃ xs negative base, action = .construct (.limbs xs negative) base ∧ limb ∈ xs := by
  rcases h.cases with hclass | ⟨base, hbase⟩ | ⟨xs, negative, base, haction, limb', hmem, b', hf⟩
  · simp [Fault.toClass] at hclass
  · rcases checkBase_refusal hbase with ⟨kind, hf⟩ | ⟨n, hf⟩
    · cases hf
    · rcases told_eq_self_or (f := .baseTooSmall n) with ht | ht <;> rw [ht] at hf <;> cases hf
  · rcases told_eq_self_or (f := .limbOutside limb' b') with ht | ht <;> rw [ht] at hf <;> cases hf
    exact ⟨xs, negative, base, haction, hmem⟩

theorem step_wellFormed {made : List Number} (hmade : ∀ x ∈ made, x.WellFormed) (action : Action) :
    ∀ x ∈ action.step made, x.WellFormed := by
  rw [Action.step]
  split
  · rename_i x log hp
    have hsound := action_sound hmade hp
    intro y hy
    rcases List.mem_append.1 hy with hy | hy
    · exact hmade y hy
    · rw [List.mem_singleton.1 hy]
      exact hsound
  · exact hmade

theorem foldl_wellFormed (actions : List Action) {made : List Number}
    (hmade : ∀ x ∈ made, x.WellFormed) : ∀ x ∈ actions.foldl Action.step made, x.WellFormed := by
  induction actions generalizing made with
  | nil => exact hmade
  | cons action actions ih => exact ih (step_wellFormed hmade action)

theorem makeAll_wellFormed (actions : List Action) : ∀ x ∈ makeAll actions, x.WellFormed :=
  foldl_wellFormed actions (by simp)

/-- Whatever was made before, every number is well formed and the next action gives a well-formed
number or a refusal of its own; limbs are refused only as they were given, and no computation
overruns its limbs. -/
theorem made_numbers_sound (actions : List Action) :
    (∀ x ∈ makeAll actions, x.WellFormed) ∧
    ∀ (action : Action) (c : Calc Number), action.perform (makeAll actions) = some c →
      Sound c.outcome (action.Refuses (makeAll actions)) ∧
      ∀ f, c.outcome = .error f → f.toClass ≠ .inconsistency ∧
        ∀ limb b, f = .limbOutside limb b →
          ∃ xs negative base, action = .construct (.limbs xs negative) base ∧ limb ∈ xs := by
  refine ⟨makeAll_wellFormed actions, fun action c hc => ?_⟩
  have hsound := action_sound (makeAll_wellFormed actions) hc
  refine ⟨hsound, fun f hf => ?_⟩
  rw [hf] at hsound
  have hrefuses : action.Refuses (makeAll actions) f := hsound
  refine ⟨hrefuses.toClass_ne_inconsistency, ?_⟩
  rintro limb b rfl
  exact hrefuses.given_limb

theorem made_numbers_sound_mixed :
    ∃ actions, makeAll actions =
        [⟨7, [5], true⟩, ⟨10, [3], false⟩, ⟨7, [1, 2], true⟩, ⟨2, [0], false⟩] ∧
      (⟨7, [1, 2], true⟩ : Number).WellFormed ∧
      ∃ c, (Action.binary .divide 2 3).perform (makeAll actions) = some c ∧
        ∃ f, c.outcome = .error f ∧ f.toClass = .divisionByZero ∧
          (Action.binary .divide 2 3).Refuses (makeAll actions) f ∧ f.toClass ≠ .inconsistency := by
  let actions : List Action :=
    [.construct (.value (.int (-5))) (.int 7), .construct (.value (.text "3")) (.int 10),
      .binary .multiply 0 1, .construct .zero (.int 2)]
  have hmade : makeAll actions =
      [⟨7, [5], true⟩, ⟨10, [3], false⟩, ⟨7, [1, 2], true⟩, ⟨2, [0], false⟩] := by decide +kernel
  obtain ⟨hformed, hnext⟩ := made_numbers_sound actions
  have hproduct : (⟨7, [1, 2], true⟩ : Number).WellFormed := hformed _ (by simp [hmade])
  have hzero : (⟨2, [0], false⟩ : Number).WellFormed := hformed _ (by simp [hmade])
  have hdivide : (Action.binary .divide 2 3).perform (makeAll actions) =
      some (Number.divide ⟨7, [1, 2], true⟩ ⟨2, [0], false⟩) := by
    rw [hmade]
    rfl
  have hrefused : (Number.divide ⟨7, [1, 2], true⟩ ⟨2, [0], false⟩).outcome =
      .error (.divisionByZero ⟨7, [1, 2], true⟩) := by
    rw [divide_eq hproduct hzero]
    rfl
  obtain ⟨hsound, hclass⟩ := hnext _ _ hdivide
  rw [hrefused] at hsound
  exact ⟨actions, hmade, hproduct, _, hdivide, _, hrefused, rfl, hsound, (hclass _ hrefused).1⟩

end Radix.Number
