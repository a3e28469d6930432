import Radix.Proofs.Expression.Parentheses

namespace Radix

namespace Token

/-- Tokens in which each operator stands between two operands. -/
inductive Formed : List Token → Prop where
  | number (digits : String) : Formed [.number digits]
  | parenthesized {ts : List Token} : Formed ts → Formed (.opening :: ts ++ [.closing])
  | operation {ts us : List Token} (op : Operator) : Formed ts → Formed us →
      Formed (ts ++ .operator op :: us)

def endsOperand : Token → Bool
  | number _ | closing => true
  | operator _ | opening | unknown _ => false

def startsOperand : Token → Bool
  | number _ | opening => true
  | operator _ | closing | unknown _ => false

/-- No operand directly follows another. -/
def Apart (ts : List Token) : Prop :=
  ts.IsChain fun left right => ¬ (left.endsOperand ∧ right.startsOperand)

instance (ts : List Token) : Decidable (Apart ts) := inferInstanceAs (Decidable (List.IsChain _ ts))

theorem Formed.exists_number {ts : List Token} (h : Formed ts) : ∃ token ∈ ts, token.isNumber := by
  induction h with
  | number digits => exact ⟨.number digits, by simp, rfl⟩
  | parenthesized _ ih =>
    obtain ⟨token, hmem, hnumber⟩ := ih
    exact ⟨token, by simp [hmem], hnumber⟩
  | operation op _ _ ih _ =>
    obtain ⟨token, hmem, hnumber⟩ := ih
    exact ⟨token, by simp [hmem], hnumber⟩

theorem Formed.startsOperand {ts : List Token} (h : Formed ts) :
    ∃ token rest, ts = token :: rest ∧ token.startsOperand := by
  induction h with
  | number digits => exact ⟨.number digits, [], rfl, rfl⟩
  | parenthesized _ _ => exact ⟨.opening, _, rfl, rfl⟩
  | operation op _ _ ih _ =>
    obtain ⟨token, rest, rfl, hstarts⟩ := ih
    exact ⟨token, _, rfl, hstarts⟩

theorem Formed.apart {ts : List Token} (h : Formed ts) : Apart ts := by
  induction h with
  | number digits => exact List.isChain_singleton _
  | @parenthesized ts _ ih =>
    unfold Apart
    rw [List.cons_append, List.isChain_cons]
    refine ⟨by simp [endsOperand], ?_⟩
    rw [List.isChain_append]
    exact ⟨ih, List.isChain_singleton _, by simp [Token.startsOperand]⟩
  | @operation ts us op _ hu iht ihu =>
    unfold Apart
    rw [List.isChain_append, List.isChain_cons]
    refine ⟨iht, ⟨by simp [endsOperand], ihu⟩, by simp [Token.startsOperand]⟩

inductive Continues : List Token → Prop where
  | nil : Continues []
  | operator {ts : List Token} (op : Operator) : Formed ts → Continues (.operator op :: ts)

theorem Formed.append {ts us : List Token} (ht : Formed ts) (hu : Continues us) :
    Formed (ts ++ us) := by
  cases hu with
  | nil =>
    rw [List.append_nil]
    exact ht
  | operator op hu => exact .operation op ht hu

/-- With all operands apart, operands outnumber operators by at most one, and by exactly one only
in an expression. Behind an operand they do not outnumber them at all, and are as many only if they
continue it. -/
theorem Paired.formed {ts : List Token} (h : Paired ts) (hapart : Apart ts)
    (hknown : ∀ text, .unknown text ∉ ts) :
    (surplus ts ≤ 1 ∧ (surplus ts = 1 → Formed ts)) ∧
    ((∀ token ∈ ts.head?, ¬ token.startsOperand) →
      surplus ts ≤ 0 ∧ (surplus ts = 0 → Continues ts)) := by
  induction h with
  | nil => simp [Continues.nil]
  | @plain token ts hopening hclosing _ ih =>
    obtain ⟨hhead, htail⟩ := List.isChain_cons.1 hapart
    obtain ⟨hfree, hbehind⟩ := ih htail fun text hmem => hknown text (List.mem_cons_of_mem _ hmem)
    rw [surplus_cons]
    cases token with
    | number digits =>
      have hrest := hbehind fun next hnext hstarts => hhead next hnext ⟨rfl, hstarts⟩
      simp only [weight]
      refine ⟨⟨by omega, fun heq => ?_⟩, fun hstart => absurd rfl (hstart _ rfl)⟩
      exact (Formed.number digits).append (hrest.2 (by omega))
    | operator op =>
      simp only [weight]
      refine ⟨⟨by omega, fun heq => absurd heq (by omega)⟩, fun _ => ⟨by omega, fun heq => ?_⟩⟩
      exact .operator op (hfree.2 (by omega))
    | opening => exact absurd rfl hopening
    | closing => exact absurd rfl hclosing
    | unknown text => exact absurd (List.mem_cons_self) (hknown text)
  | @group inside ts _ _ ihinside ih =>
    rw [Apart, List.cons_append, List.isChain_cons, List.isChain_append,
      List.isChain_cons] at hapart
    obtain ⟨-, hwithin, ⟨hhead, htail⟩, -⟩ := hapart
    obtain ⟨hfree, -⟩ := ihinside hwithin fun text hmem => hknown text (by simp [hmem])
    obtain ⟨-, hbehind⟩ := ih htail fun text hmem => hknown text (by simp [hmem])
    have hrest := hbehind fun next hnext hstarts => hhead next hnext ⟨rfl, hstarts⟩
    simp only [List.cons_append, surplus_cons, surplus_append, weight]
    refine ⟨⟨by omega, fun heq => ?_⟩, fun hstart => absurd rfl (hstart .opening rfl)⟩
    have hgroup := (hfree.2 (by omega)).parenthesized.append (hrest.2 (by omega))
    simpa using hgroup

theorem isKept_of_isNumber {token : Token} (h : token.isNumber) : token.isKept := by
  cases token with
  | number _ => rfl
  | _ => cases h

theorem surplus_filter_isKept (ts : List Token) : surplus (ts.filter isKept) = surplus ts := by
  induction ts with
  | nil => rfl
  | cons token ts ih =>
    cases token with
    | number _ | operator _ => rw [List.filter_cons_of_pos rfl, surplus_cons, surplus_cons, ih]
    | opening | closing | unknown _ =>
      rw [List.filter_cons_of_neg (by simp [isKept]), surplus_cons, ih, weight, zero_add]

theorem surplus_perm {ts us : List Token} (h : ts.Perm us) : surplus ts = surplus us :=
  (h.map weight).sum_eq

theorem Admitted.not_mem_unknown {ts : List Token} (h : Admitted ts) (text : String) :
    .unknown text ∉ ts := by
  intro hmem
  obtain ⟨before, after, rfl⟩ := List.append_of_mem hmem
  exact h.not_refused _ (.unknown text)

end Token

namespace Expression

open Number Token

variable {base : Nat}

theorem paired_of_reorder {tokens out : List Token} (h : reorder [] tokens = .ok out) :
    Paired tokens ∧ ∀ text, .unknown text ∉ tokens := by
  have hadmitted : Admitted tokens := by
    by_contra hrefused
    obtain ⟨before, token, after, f, rfl, hbefore, hf⟩ := exists_refused hrefused
    rw [reorder_refused hbefore hf] at h
    cases h
  have hclosed : ¬ LeftOpen tokens := by
    intro hopen
    rw [reorder_leftOpen hadmitted hopen] at h
    cases h
  exact ⟨(reorder_admitted hadmitted hclosed).1, hadmitted.not_mem_unknown⟩

theorem evaluate_between_bind (base : Value) (tokens : List Token) :
    (evaluate .between base tokens).outcome =
      reorder [] tokens >>= fun out => (evaluatePostfix base out).outcome := by
  unfold evaluate
  rw [Calc.outcome_bind, toPostfix_outcome]

theorem exists_reorder_of_ok {base : Value} {tokens : List Token} {x : Number}
    (h : (evaluate .between base tokens).outcome = .ok x) :
    ∃ out, reorder [] tokens = .ok out ∧ (evaluatePostfix base out).outcome = .ok x := by
  rw [evaluate_between_bind] at h
  cases hout : reorder [] tokens with
  | error f =>
    rw [hout] at h
    cases h
  | ok out =>
    rw [hout] at h
    exact ⟨out, rfl, h⟩

/-- Texts have a value exactly if they are put into the order of trees in a row that all have
values, of which the last can be spelt. Of the lists that have one, the expressions, in which every
operator stands between two operands, are those with a number and with no operand directly behind
another. -/
theorem evaluate_between_accepts (h : 1 < base) (raws : List String) :
    ((∃ x, (evaluate .between (.int base) (raws.map read)).outcome = .ok x) ↔
      ∃ forest values, (toPostfix (raws.map read)).outcome = .ok (Tree.postorders forest) ∧
        Tree.exacts forest = .ok values ∧ (forest = [] ∨ base < 10 ^ Text.digitLimit)) ∧
    ∀ x, (evaluate .between (.int base) (raws.map read)).outcome = .ok x →
      (Formed (raws.map read) ↔
        Apart (raws.map read) ∧ ∃ token ∈ raws.map read, token.isNumber) := by
  have hevaluates : ∀ {out}, reorder [] (raws.map read) = .ok out →
      ((∃ x, (evaluatePostfix (.int base) out).outcome = .ok x) ↔
        ∃ forest values, out = Tree.postorders forest ∧ Tree.exacts forest = .ok values ∧
          (forest = [] ∨ base < 10 ^ Text.digitLimit)) := fun hout =>
    evaluatePostfix_ok_iff h (fun token htoken => (read_text_of_reorder hout htoken).1)
      fun digits hd => isNumeral_of_reorder hout hd
  refine ⟨⟨?_, ?_⟩, ?_⟩
  · rintro ⟨x, hx⟩
    obtain ⟨out, hout, hvalue⟩ := exists_reorder_of_ok hx
    obtain ⟨forest, values, rfl, hexacts, hwritten⟩ := (hevaluates hout).1 ⟨x, hvalue⟩
    rw [toPostfix_outcome]
    exact ⟨forest, values, hout, hexacts, hwritten⟩
  · rintro ⟨forest, values, hout, hexacts, hwritten⟩
    rw [toPostfix_outcome] at hout
    rw [evaluate_between_bind, hout]
    exact (hevaluates hout).2 ⟨forest, values, rfl, hexacts, hwritten⟩
  · intro x hx
    refine ⟨fun hformed => ⟨hformed.apart, hformed.exists_number⟩, ?_⟩
    rintro ⟨hapart, number, hnumber, hkind⟩
    obtain ⟨out, hout, hvalue⟩ := exists_reorder_of_ok hx
    obtain ⟨forest, values, rfl, -, -⟩ := (hevaluates hout).1 ⟨x, hvalue⟩
    obtain ⟨hpaired, hknown⟩ := paired_of_reorder hout
    have hperm : (Tree.postorders forest).Perm ((raws.map read).filter isKept) := reorder_perm hout
    -- there are as many trees as numbers in excess, and the number is in one of them
    have hcount : surplus (raws.map read) = forest.length := by
      rw [← Tree.surplus_postorders, surplus_perm hperm, surplus_filter_isKept]
    have hsome : forest ≠ [] := by
      rintro rfl
      have hmem := hperm.mem_iff.2 (List.mem_filter.2 ⟨hnumber, isKept_of_isNumber hkind⟩)
      simp at hmem
    have hone := List.length_pos_iff.2 hsome
    obtain ⟨⟨hmost, hexpression⟩, -⟩ := hpaired.formed hapart hknown
    exact hexpression (by omega)

theorem evaluate_between_accepts_dangling :
    (∃ x, (evaluate .between (.int (10 : Nat))
      (["3", "-", "(", "4", ")"].map read)).outcome = .ok x) ∧
    Formed (["3", "-", "(", "4", ")"].map read) ∧
    (∃ x, (evaluate .between (.int (10 : Nat)) (["-", "3", "4"].map read)).outcome = .ok x) ∧
    ¬ Formed (["-", "3", "4"].map read) ∧
    (∃ x, (evaluate .between (.int (10 : Nat)) (["1", "2"].map read)).outcome = .ok x) ∧
    ¬ Formed (["1", "2"].map read) := by
  have hten : 1 < 10 := by decide
  have hshort : 10 < 10 ^ Text.digitLimit := lt_self_pow₀ (by decide) (by decide)
  obtain ⟨hvalue, hformed⟩ := evaluate_between_accepts hten ["3", "-", "(", "4", ")"]
  obtain ⟨hvalue', hformed'⟩ := evaluate_between_accepts hten ["-", "3", "4"]
  obtain ⟨hvalue'', hformed''⟩ := evaluate_between_accepts hten ["1", "2"]
  obtain ⟨x, hx⟩ := hvalue.2
    ⟨[.node .minus (.number "3") (.number "4")], [-1], by rfl, by rfl, Or.inr hshort⟩
  obtain ⟨x', hx'⟩ := hvalue'.2
    ⟨[.node .minus (.number "3") (.number "4")], [-1], by rfl, by rfl, Or.inr hshort⟩
  obtain ⟨x'', hx''⟩ := hvalue''.2
    ⟨[.number "1", .number "2"], [1, 2], by rfl, by rfl, Or.inr hshort⟩
  refine ⟨⟨x, hx⟩, (hformed x hx).2 (by decide), ⟨x', hx'⟩, ?_, ⟨x'', hx''⟩, ?_⟩
  · rw [hformed' x' hx']
    decide
  · rw [hformed'' x'' hx'']
    decide

end Expression

end Radix
