import Radix.Proofs.Expression.Forest

namespace Radix

namespace Token

/-- Tokens in which each parenthesis has its partner. -/
inductive Paired : List Token → Prop where
  | nil : Paired []
  | plain {token : Token} {ts : List Token} : token ≠ .opening → token ≠ .closing → Paired ts →
      Paired (token :: ts)
  | group {inside ts : List Token} : Paired inside → Paired ts →
      Paired (.opening :: inside ++ .closing :: ts)

/-- Some opening parenthesis has no partner: what stands between it and a closing one behind it is
never paired. -/
def LeftOpen (ts : List Token) : Prop :=
  ∃ before after, ts = before ++ .opening :: after ∧
    ∀ inside rest, after = inside ++ .closing :: rest → ¬ Paired inside

/-- A token that cannot follow the tokens before it: one that is not known, or a closing parenthesis
when none is left open. -/
inductive Refused (before : List Token) : Token → Fault → Prop where
  | unknown (text : String) : Refused before (.unknown text) (.invalidToken .between text)
  | closing : ¬ LeftOpen before → Refused before .closing .closingUnmatched

def Admitted (ts : List Token) : Prop :=
  ∀ before token after f, ts = before ++ token :: after → ¬ Refused before token f

def isNumber : Token → Bool
  | number _ => true
  | operator _ | opening | closing | unknown _ => false

theorem Paired.append {ts us : List Token} (ht : Paired ts) (hu : Paired us) :
    Paired (ts ++ us) := by
  induction ht with
  | nil => exact hu
  | plain hopening hclosing _ ih => exact .plain hopening hclosing ih
  | @group inside ts hinside _ _ ih =>
    have hgroup := Paired.group hinside ih
    simpa using hgroup

theorem Paired.partner {ts before after : List Token} (h : Paired ts)
    (hts : ts = before ++ .opening :: after) :
    ∃ inside rest, after = inside ++ .closing :: rest ∧ Paired inside := by
  induction h generalizing before after with
  | nil => simp at hts
  | plain hopening _ _ ih =>
    rcases List.cons_eq_append_iff.1 hts with ⟨-, hhead⟩ | ⟨before', -, htail⟩
    · exact absurd (List.cons.inj hhead).1.symm hopening
    · exact ih htail
  | @group inside ts hinside _ ihinside ih =>
    rw [List.cons_append] at hts
    rcases List.cons_eq_append_iff.1 hts with ⟨-, hhead⟩ | ⟨before', -, htail⟩
    · exact ⟨inside, ts, (List.cons.inj hhead).2, hinside⟩
    · -- the parenthesis stands inside the group or behind it
      rcases List.append_eq_append_iff.1 htail with ⟨middle, -, hbehind⟩ | ⟨middle, hwithin, hrest⟩
      · rcases List.cons_eq_append_iff.1 hbehind with ⟨-, hhead⟩ | ⟨middle', -, htail'⟩
        · cases hhead
        · exact ih htail'
      · rcases List.cons_eq_append_iff.1 hrest with ⟨rfl, hhead⟩ | ⟨middle', rfl, hafter⟩
        · cases hhead
        · obtain ⟨inner, rest, rfl, hinner⟩ := ihinside hwithin
          refine ⟨inner, rest ++ .closing :: ts, ?_, hinner⟩
          rw [hafter, List.append_assoc, List.cons_append]

/-- How many parentheses are open behind the tokens, when some are open in front of them; nothing
when one is closed that was never opened. -/
def balance : Nat → List Token → Option Nat
  | depth, [] => some depth
  | depth, .opening :: ts => balance (depth + 1) ts
  | 0, .closing :: _ => none
  | depth + 1, .closing :: ts => balance depth ts
  | depth, .number _ :: ts | depth, .operator _ :: ts | depth, .unknown _ :: ts => balance depth ts

theorem balance_plain {token : Token} (hopening : token ≠ .opening) (hclosing : token ≠ .closing)
    (depth : Nat) (ts : List Token) : balance depth (token :: ts) = balance depth ts := by
  cases token with
  | opening => exact absurd rfl hopening
  | closing => exact absurd rfl hclosing
  | _ => cases depth <;> rfl

theorem Paired.balance_append {ts : List Token} (h : Paired ts) (depth : Nat)
    (rest : List Token) : balance depth (ts ++ rest) = balance depth rest := by
  induction h generalizing depth rest with
  | nil => rfl
  | plain hopening hclosing _ ih => rw [List.cons_append, balance_plain hopening hclosing, ih]
  | @group inside ts _ _ ihinside ih =>
    rw [List.cons_append, List.cons_append, List.append_assoc, balance, ihinside, List.cons_append,
      balance, ih]

theorem Paired.not_closing {ts inside rest : List Token} (h : Paired ts)
    (hts : ts = inside ++ .closing :: rest) : ¬ Paired inside := by
  intro hinside
  have hall := h.balance_append 0 []
  rw [hts, List.append_assoc, hinside.balance_append, List.cons_append, balance] at hall
  cases hall

/-- Tokens that have left a number of parentheses open, with pairs between them. -/
inductive Nested : List Token → Nat → Prop where
  | paired {ts : List Token} : Paired ts → Nested ts 0
  | inner {ts us : List Token} {depth : Nat} : Nested ts depth → Paired us →
      Nested (ts ++ .opening :: us) (depth + 1)

theorem Nested.append {ts us : List Token} {depth : Nat} (ht : Nested ts depth)
    (hu : Paired us) : Nested (ts ++ us) depth := by
  cases ht with
  | paired ht => exact .paired (ht.append hu)
  | inner ht hinner =>
    rw [List.append_assoc, List.cons_append]
    exact .inner ht (hinner.append hu)

theorem Nested.plain {ts : List Token} {depth : Nat} (h : Nested ts depth) {token : Token}
    (hopening : token ≠ .opening) (hclosing : token ≠ .closing) : Nested (ts ++ [token]) depth :=
  h.append (.plain hopening hclosing .nil)

theorem Nested.opening {ts : List Token} {depth : Nat} (h : Nested ts depth) :
    Nested (ts ++ [.opening]) (depth + 1) :=
  .inner h .nil

theorem Nested.closing {ts : List Token} {depth : Nat} (h : Nested ts (depth + 1)) :
    Nested (ts ++ [.closing]) depth := by
  cases h with
  | @inner ts us _ ht hu =>
    have hgroup := ht.append (.group hu .nil)
    simpa using hgroup

theorem Nested.leftOpen_iff {ts : List Token} {depth : Nat} (h : Nested ts depth) :
    LeftOpen ts ↔ depth ≠ 0 := by
  cases h with
  | paired hts =>
    refine iff_of_false ?_ (by simp)
    rintro ⟨before, after, hsplit, hopen⟩
    obtain ⟨inside, rest, hafter, hinside⟩ := hts.partner hsplit
    exact hopen inside rest hafter hinside
  | inner _ hu =>
    refine iff_of_true ⟨_, _, rfl, ?_⟩ (by simp)
    intro inside rest hsplit
    exact hu.not_closing hsplit

theorem Admitted.of_append {ts us : List Token} (h : Admitted (ts ++ us)) : Admitted ts := by
  intro before token after f hts
  refine h before token (after ++ us) f ?_
  rw [hts, List.append_assoc, List.cons_append]

theorem Admitted.not_refused {ts us : List Token} {token : Token}
    (h : Admitted (ts ++ token :: us)) (f : Fault) : ¬ Refused ts token f :=
  h ts token us f rfl

theorem admitted_nil : Admitted [] := by
  intro before token after f hts
  simp at hts

theorem Admitted.concat {ts : List Token} {last : Token} (h : Admitted ts)
    (hlast : ∀ f, ¬ Refused ts last f) : Admitted (ts ++ [last]) := by
  intro before token after f hsplit
  rcases List.append_eq_append_iff.1 hsplit with ⟨middle, rfl, hend⟩ | ⟨middle, rfl, hend⟩
  · rcases List.cons_eq_append_iff.1 hend with ⟨rfl, hhead⟩ | ⟨middle', -, hnil⟩
    · cases hhead
      rw [List.append_nil]
      exact hlast f
    · simp at hnil
  · cases middle with
    | nil =>
      cases hend
      rw [List.append_nil] at hlast
      exact hlast f
    | cons head middle =>
      cases hend
      exact h before token middle f rfl

/-- Of tokens that are not all admitted there is a first one that is refused. -/
theorem exists_refused {ts : List Token} (h : ¬ Admitted ts) :
    ∃ before token after f, ts = before ++ token :: after ∧ Admitted before ∧
      Refused before token f := by
  induction ts using List.reverseRecOn with
  | nil => exact absurd admitted_nil h
  | append_singleton ts last ih =>
    by_cases hts : Admitted ts
    · have hlast : ¬ ∀ f, ¬ Refused ts last f := fun hnone => h (hts.concat hnone)
      obtain ⟨f, hrefused⟩ := not_forall_not.1 hlast
      exact ⟨ts, last, [], f, rfl, hts, hrefused⟩
    · obtain ⟨before, token, after, f, rfl, hbefore, hrefused⟩ := ih hts
      refine ⟨before, token, after ++ [last], f, ?_, hbefore, hrefused⟩
      rw [List.append_assoc, List.cons_append]

end Token

namespace Expression

open Number Token

def depth : List Waiting → Nat
  | [] => 0
  | .opening :: stack => depth stack + 1
  | .operator _ :: stack => depth stack

theorem depth_release (op : Operator) (stack : List Waiting) :
    depth (release op stack).2 = depth stack := by
  induction stack with
  | nil => rfl
  | cons top stack ih =>
    cases top with
    | opening => rfl
    | operator top =>
      unfold release
      by_cases hy : op.yieldsTo top
      · rw [if_pos hy]
        exact ih
      · rw [if_neg hy]

theorem close?_of_depth_eq_zero {stack : List Waiting} (h : depth stack = 0) :
    close? stack = none := by
  induction stack with
  | nil => rfl
  | cons top stack ih =>
    cases top with
    | opening => cases h
    | operator top =>
      rw [close?, ih h]
      rfl

theorem exists_close? {stack : List Waiting} {n : Nat} (h : depth stack = n + 1) :
    ∃ inside outside, close? stack = some (inside, outside) ∧ depth outside = n := by
  induction stack with
  | nil => cases h
  | cons top stack ih =>
    cases top with
    | opening => exact ⟨[], stack, rfl, Nat.succ.inj h⟩
    | operator top =>
      obtain ⟨inside, outside, hclose, hdepth⟩ := ih h
      refine ⟨top :: inside, outside, ?_, hdepth⟩
      rw [close?, hclose]
      rfl

theorem finish?_eq_none_iff (stack : List Waiting) : finish? stack = none ↔ depth stack ≠ 0 := by
  induction stack with
  | nil => simp [finish?, depth]
  | cons top stack ih =>
    cases top with
    | opening => simp [finish?, depth]
    | operator top => rw [finish?, Option.map_eq_none_iff, ih, depth]

theorem filter_isNumber_operators (ops : List Operator) :
    (ops.map Token.operator).filter isNumber = [] := by
  simp [isNumber]

/-- Admitted tokens are read through. What comes out has their numbers in their order, and the stack
has a mark for each parenthesis that they leave open. -/
theorem exists_reorder_append {ts : List Token} (h : Admitted ts) :
    ∃ out stack, (∀ rest, reorder [] (ts ++ rest) = emit out (reorder stack rest)) ∧
      Nested ts (depth stack) ∧ out.filter isNumber = ts.filter isNumber := by
  induction ts using List.reverseRecOn with
  | nil =>
    refine ⟨[], [], fun rest => ?_, .paired .nil, rfl⟩
    cases hrest : reorder [] rest <;> simp [emit, hrest]
  | append_singleton ts token ih =>
    obtain ⟨out, stack, hout, hnested, hnumbers⟩ := ih h.of_append
    simp only [List.append_assoc, List.singleton_append, hout, List.filter_append, ← hnumbers]
    cases token with
    | number digits =>
      refine ⟨out ++ [.number digits], stack, fun rest => ?_, hnested.plain (by simp) (by simp), ?_⟩
      · rw [reorder_number, emit_emit]
      · rw [List.filter_append]
    | operator op =>
      refine ⟨out ++ (release op stack).1.map .operator, .operator op :: (release op stack).2,
        fun rest => ?_, ?_, ?_⟩
      · rw [reorder_operator, emit_emit]
      · rw [depth, depth_release]
        exact hnested.plain (by simp) (by simp)
      · rw [List.filter_append, filter_isNumber_operators]
        rfl
    | opening =>
      refine ⟨out, .opening :: stack, fun rest => ?_, hnested.opening, ?_⟩
      · rw [reorder]
      · simp [isNumber]
    | closing =>
      have hopen : LeftOpen ts := by
        by_contra hnone
        exact h.not_refused _ (.closing hnone)
      obtain ⟨n, hn⟩ := Nat.exists_eq_succ_of_ne_zero (hnested.leftOpen_iff.1 hopen)
      obtain ⟨inside, outside, hclose, hdepth⟩ := exists_close? hn
      refine ⟨out ++ inside.map .operator, outside, fun rest => ?_, ?_, ?_⟩
      · rw [reorder_closing hclose, emit_emit]
      · rw [hdepth]
        rw [hn] at hnested
        exact hnested.closing
      · rw [List.filter_append, filter_isNumber_operators]
        rfl
    | unknown text => exact absurd (.unknown text) (h.not_refused _)

theorem reorder_refused {before after : List Token} {token : Token} {f : Fault}
    (hbefore : Admitted before) (h : Refused before token f) :
    reorder [] (before ++ token :: after) = .error f := by
  obtain ⟨out, stack, hout, hnested, -⟩ := exists_reorder_append hbefore
  rw [hout, emit_eq_error]
  cases h with
  | unknown text => rw [reorder]
  | closing hnone =>
    have hdepth : depth stack = 0 := not_not.1 (hnested.leftOpen_iff.not.1 hnone)
    rw [reorder, close?_of_depth_eq_zero hdepth]

theorem reorder_leftOpen {tokens : List Token} (h : Admitted tokens) (hopen : LeftOpen tokens) :
    reorder [] tokens = .error .openingUnmatched := by
  obtain ⟨out, stack, hout, hnested, -⟩ := exists_reorder_append h
  have hread := hout []
  rw [List.append_nil] at hread
  have hfinish := (finish?_eq_none_iff stack).2 (hnested.leftOpen_iff.1 hopen)
  rw [hread, emit_eq_error, reorder, hfinish]

theorem reorder_admitted {tokens : List Token} (h : Admitted tokens) (hopen : ¬ LeftOpen tokens) :
    Paired tokens ∧ ∃ out, reorder [] tokens = .ok out ∧
      out.filter isNumber = tokens.filter isNumber := by
  obtain ⟨out, stack, hout, hnested, hnumbers⟩ := exists_reorder_append h
  have hdepth : depth stack = 0 := not_not.1 (hnested.leftOpen_iff.not.1 hopen)
  have hfinish := (finish?_eq_none_iff stack).not.2 (not_not.2 hdepth)
  obtain ⟨released, hreleased⟩ := Option.ne_none_iff_exists'.1 hfinish
  have hread := hout []
  rw [List.append_nil, reorder, hreleased, emit_ok] at hread
  rw [hdepth] at hnested
  refine ⟨?_, _, hread, ?_⟩
  · cases hnested with
    | paired hpaired => exact hpaired
  · rw [List.filter_append, filter_isNumber_operators, List.append_nil, hnumbers]

theorem read_text_of_reorder {raws : List String} {out : List Token}
    (h : reorder [] (raws.map read) = .ok out) {token : Token} (htoken : token ∈ out) :
    token.isKept ∧ read token.text = token := by
  have hperm := (reorder_perm h).mem_iff.1 htoken
  obtain ⟨hmem, hkept⟩ := List.mem_filter.1 hperm
  obtain ⟨raw, -, rfl⟩ := List.mem_map.1 hmem
  exact ⟨hkept, read_text_read raw⟩

theorem isNumeral_of_reorder {raws : List String} {out : List Token}
    (h : reorder [] (raws.map read) = .ok out) {digits : String} (hd : .number digits ∈ out) :
    Text.IsNumeral digits :=
  isNumeral_of_read (read_text_of_reorder h hd).2

theorem toPostfix_refused {before after : List Token} {token : Token} {f : Fault}
    (hbefore : Admitted before) (h : Refused before token f) :
    (toPostfix (before ++ token :: after)).outcome = .error f := by
  rw [toPostfix_outcome]
  exact reorder_refused hbefore h

/-- Tokens are put in order unless one of them is refused, and then the first one tells why, or a
parenthesis is left open. What comes out has the numbers and operators of the tokens and nothing
else, the numbers in their order, each token is read again from its text, and the evaluator knows
them all. -/
theorem toPostfix_decided (raws : List String) :
    (¬ Admitted (raws.map read) → ∃ before token after f, raws.map read = before ++ token :: after ∧
      Admitted before ∧ Refused before token f) ∧
    (∀ before token after f, raws.map read = before ++ token :: after → Admitted before →
      Refused before token f → (toPostfix (raws.map read)).outcome = .error f) ∧
    (Admitted (raws.map read) → LeftOpen (raws.map read) →
      (toPostfix (raws.map read)).outcome = .error .openingUnmatched) ∧
    (Admitted (raws.map read) → ¬ LeftOpen (raws.map read) →
      ∃ out, (toPostfix (raws.map read)).outcome = .ok out ∧
        (∀ token ∈ out, token.isKept ∧ read token.text = token) ∧
        out.Perm ((raws.map read).filter isKept) ∧
        out.filter isNumber = (raws.map read).filter isNumber ∧
        ∀ base : Nat, 1 < base → ∀ f, (evaluatePostfix (.int base) out).outcome = .error f →
          f.toClass ≠ .invalidToken) := by
  refine ⟨exists_refused, ?_, ?_, ?_⟩
  · intro before token after f hsplit hbefore hrefused
    rw [hsplit]
    exact toPostfix_refused hbefore hrefused
  · intro hadmitted hopen
    rw [toPostfix_outcome]
    exact reorder_leftOpen hadmitted hopen
  · intro hadmitted hclosed
    obtain ⟨-, out, hout, hnumbers⟩ := reorder_admitted hadmitted hclosed
    have hperm : out.Perm ((raws.map read).filter isKept) := reorder_perm hout
    rw [toPostfix_outcome]
    refine ⟨out, hout, fun token htoken => read_text_of_reorder hout htoken, hperm, hnumbers, ?_⟩
    intro base h f hf
    exact toClass_ne_invalidToken h (fun token htoken => (read_text_of_reorder hout htoken).1)
      (fun digits hd => isNumeral_of_reorder hout hd) hf

theorem toPostfix_decided_pairs :
    (toPostfix (["2", ")", "x"].map read)).outcome = .error .closingUnmatched ∧
    (toPostfix (["(", "2"].map read)).outcome = .error .openingUnmatched ∧
    ∃ out, (toPostfix (["(", " 2", "+", "3", ")"].map read)).outcome = .ok out ∧
      out.Perm [.number "2", .operator .plus, .number "3"] ∧
      out.filter isNumber = [.number "2", .number "3"] := by
  have hplain : ∀ {token : Token} {ts : List Token}, token.isKept → Admitted ts →
      Admitted (ts ++ [token]) := by
    intro token ts hkept hts
    refine hts.concat fun f hrefused => ?_
    cases hrefused <;> cases hkept
  have hopening : Admitted [.opening] := admitted_nil.concat nofun
  have hnumber : Admitted [.number "2"] := hplain rfl admitted_nil
  have hopened : Admitted [.opening, .number "2"] := hplain rfl hopening
  have hplus : Admitted [.opening, .number "2", .operator .plus] := hplain rfl hopened
  have hsum : Admitted [.opening, .number "2", .operator .plus, .number "3"] := hplain rfl hplus
  have htwo : Nested [.number "2"] 0 := (Nested.paired .nil).plain (by simp) (by simp)
  have hmark : Nested [.opening] 1 := (Nested.paired .nil).opening
  have hinside : Nested [.opening, .number "2"] 1 := hmark.plain (by simp) (by simp)
  have hterm : Nested [.opening, .number "2", .operator .plus, .number "3"] 1 :=
    (hinside.plain (by simp) (by simp)).plain (by simp) (by simp)
  have hall : Admitted [.opening, .number "2", .operator .plus, .number "3", .closing] := by
    refine hsum.concat fun f hrefused => ?_
    cases hrefused with
    | closing hnone => exact hnone (hterm.leftOpen_iff.2 (by decide))
  obtain ⟨-, hfirst, -, -⟩ := toPostfix_decided ["2", ")", "x"]
  obtain ⟨-, -, hunclosed, -⟩ := toPostfix_decided ["(", "2"]
  obtain ⟨-, -, -, hordered⟩ := toPostfix_decided ["(", " 2", "+", "3", ")"]
  obtain ⟨out, hout, -, hperm, hnumbers, -⟩ :=
    hordered hall (hterm.closing.leftOpen_iff.not.2 (by decide))
  refine ⟨hfirst [.number "2"] .closing [.unknown "x"] _ (by decide) hnumber
    (.closing (htwo.leftOpen_iff.not.2 (by decide))), ?_, out, hout, hperm, hnumbers⟩
  exact hunclosed hopened (hinside.leftOpen_iff.2 (by decide))

end Expression

end Radix
