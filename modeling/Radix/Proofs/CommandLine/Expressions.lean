import Radix.Proofs.CommandLine.Base

namespace Radix

namespace CommandLine

/-- Arguments of which none is an expression: options, each with the value that it needs. -/
inductive OptionsOnly : List Argument → Prop where
  | nil : OptionsOnly []
  | separator : OptionsOnly [.separator]
  | alone {flag : Flag} {rest : List Argument} :
      ¬ takesValue flag → OptionsOnly rest → OptionsOnly (.option flag none :: rest)
  | valued {flag : Flag} (value : String) {rest : List Argument} :
      takesValue flag → OptionsOnly rest → OptionsOnly (.option flag none :: .plain value :: rest)
  | attached (flag : Flag) (value : String) {rest : List Argument} :
      OptionsOnly rest → OptionsOnly (.option flag (some value) :: rest)
  | unknown {rest : List Argument} : OptionsOnly rest → OptionsOnly (.unknown :: rest)
  | cluster (letters : List Char) (rest : List Argument) : OptionsOnly (.cluster letters :: rest)

def NamesNoExpression (arguments : List String) : Prop :=
  ∀ read, classifyAll arguments = .ok read → OptionsOnly read

namespace Progress

variable {p q : Progress}

structure Agrees (p q : Progress) : Prop where
  phase_eq : q.phase = p.phase
  surplus_eq : q.surplus = p.surplus
  expressions_eq : q.options.expressions = p.options.expressions

theorem takeFlag_agrees {flag : Flag} (hq : p.takeFlag flag = .ok q) : p.Agrees q := by
  cases flag <;> cases hq <;> exact ⟨rfl, rfl, rfl⟩

theorem takeValue_agrees {flag : Flag} {value : String} (hq : p.takeValue flag value = .ok q) :
    p.Agrees q := by
  unfold Progress.takeValue at hq
  dsimp only at hq
  split at hq
  · cases hq
    exact ⟨rfl, rfl, rfl⟩
  · split at hq
    · cases hq
      exact ⟨rfl, rfl, rfl⟩
    · cases hq
  · cases hq
    exact ⟨rfl, rfl, rfl⟩
  · cases hq
    exact ⟨rfl, rfl, rfl⟩
  · split_ifs at hq
    cases hq
    exact ⟨rfl, rfl, rfl⟩
  all_goals cases hq

structure Fresh (p : Progress) : Prop where
  phase_eq : p.phase = .ahead
  expressions_eq : p.options.expressions = []

theorem Fresh.endRun (h : p.Fresh) : p.endRun = p := by
  unfold Progress.endRun
  rw [h.phase_eq, if_neg (by decide)]

theorem Fresh.of_agrees (h : p.Fresh) (hq : p.Agrees q) : q.Fresh :=
  ⟨hq.phase_eq.trans h.phase_eq, hq.expressions_eq.trans h.expressions_eq⟩

/-- Something has been read that is no option: an expression, or an argument too many. -/
def Spoken (p : Progress) : Prop := p.surplus ∨ p.options.expressions ≠ []

theorem Spoken.of_agrees (h : p.Spoken) (hq : p.Agrees q) : q.Spoken := by
  unfold Spoken
  rw [hq.surplus_eq, hq.expressions_eq]
  exact h

theorem Spoken.endRun (h : p.Spoken) : p.endRun.Spoken := by
  unfold Progress.endRun
  split_ifs <;> exact h

theorem Spoken.addPlain (h : p.Spoken) (texts : List String) : (p.addPlain texts).Spoken := by
  unfold Progress.addPlain
  split_ifs
  · exact Or.inl rfl
  · exact h.imp_right fun hne => by simp [hne]

theorem spoken_addPlain (p : Progress) (text : String) : (p.addPlain [text]).Spoken := by
  unfold Progress.addPlain
  split_ifs
  · exact Or.inl rfl
  · exact Or.inr (by simp)

theorem Spoken.consume {arguments : List Argument} (h : p.Spoken)
    (hq : CommandLine.consume p arguments = .ok q) : q.Spoken := by
  fun_induction CommandLine.consume p arguments with
  | case1 =>
    cases hq
    exact h
  | case2 p text rest ih => exact ih (h.addPlain _) hq
  | case3 p rest ih => exact ih (h.addPlain _) hq
  | case4 p rest ih => exact ih (Or.inl rfl) hq
  | case5 => cases hq
  | case6 p flag value rest ih | case7 p flag value rest _ ih =>
    obtain ⟨p', hvalue, hrest⟩ := exists_of_bind_eq_ok hq
    exact ih p' (h.endRun.of_agrees (takeValue_agrees hvalue)) hrest
  | case8 p flag value rest _ ih | case9 p flag rest _ ih =>
    obtain ⟨p', hflag, hrest⟩ := exists_of_bind_eq_ok hq
    exact ih p' (h.endRun.of_agrees (takeFlag_agrees hflag)) hrest

end Progress

/-- What arguments come to when expressions follow them: the same refusal, or the same options and
the expressions besides. -/
def AddsExpressions (texts : List String) (alone followed : Except Exit Progress) : Prop :=
  match alone with
  | .error e => followed = .error e
  | .ok q => q.options.expressions = [] ∧ ∃ phase, followed = .ok { q with
      options := { q.options with expressions := texts }
      phase := phase }

theorem AddsExpressions.bind {texts : List String} {x : Except Exit Progress}
    {f g : Progress → Except Exit Progress}
    (h : ∀ q, x = .ok q → AddsExpressions texts (f q) (g q)) :
    AddsExpressions texts (x >>= f) (x >>= g) := by
  cases x with
  | error e => exact rfl
  | ok q => exact h q rfl

theorem consume_alone {flag : Flag} (h : ¬ takesValue flag) (p : Progress) (rest : List Argument) :
    consume p (.option flag none :: rest) =
      p.endRun.takeFlag flag >>= fun q => consume q rest := by
  match rest with
  | .plain value :: rest => rw [consume, if_neg h]
  | [] | .separator :: _ | .option _ _ :: _ | .cluster _ :: _ | .unknown :: _ =>
    rw [consume]
    exact fun _ _ heq => by cases heq

theorem consume_append_plain {first : List Argument} (h : OptionsOnly first) {p : Progress}
    (hp : p.Fresh) (texts : List String) :
    AddsExpressions texts (consume p first) (consume p (first ++ texts.map .plain)) := by
  induction h generalizing p with
  | nil =>
    obtain ⟨phase, hread⟩ := consume_plain (p := p) (by rw [hp.phase_eq]; simp) texts
    rw [hp.expressions_eq, List.nil_append] at hread
    exact ⟨hp.expressions_eq, phase, hread⟩
  | separator =>
    have hadd : p.addPlain [] = { p with phase := .inside } := by
      unfold Progress.addPlain
      rw [hp.phase_eq, if_neg (by decide), List.append_nil]
    obtain ⟨phase, hread⟩ := consume_plain (p := p.addPlain []) (by rw [hadd]; simp) texts
    rw [hadd, hp.expressions_eq, List.nil_append] at hread
    rw [consume, consume, List.singleton_append, consume, hadd]
    exact ⟨hp.expressions_eq, phase, hread⟩
  | alone hflag _ ih =>
    rw [List.cons_append, consume_alone hflag, consume_alone hflag, hp.endRun]
    exact .bind fun q hq => ih (hp.of_agrees (Progress.takeFlag_agrees hq))
  | valued value hflag _ ih =>
    rw [List.cons_append, List.cons_append, consume, consume, if_pos hflag, if_pos hflag, hp.endRun]
    exact .bind fun q hq => ih (hp.of_agrees (Progress.takeValue_agrees hq))
  | attached flag value _ ih =>
    rw [List.cons_append, consume, consume, hp.endRun]
    exact .bind fun q hq => ih (hp.of_agrees (Progress.takeValue_agrees hq))
  | unknown _ ih =>
    rw [List.cons_append, consume, consume, hp.endRun]
    exact ih ⟨hp.phase_eq, hp.expressions_eq⟩
  | cluster letters rest =>
    rw [List.cons_append, consume, consume]
    exact rfl

theorem classifyAll_append_plain (before : List String) {texts : List String}
    (h : ∀ text ∈ texts, ∀ cs, text.toList ≠ '-' :: cs) :
    classifyAll (before ++ texts) = (classifyAll before).map (· ++ texts.map .plain) := by
  induction before with
  | nil => exact classifyAll_plain h
  | cons text before ih =>
    rw [List.cons_append, classifyAll, classifyAll]
    split_ifs
    · rw [List.map_append]
      rfl
    · rw [ih]
      cases classify text <;> cases classifyAll before <;> rfl

theorem settle_expressions (q : Progress) (texts : List String) (phase : Phase) :
    settle (.ok { q with
      options := { q.options with expressions := texts }
      phase := phase }) =
    (settle (.ok q)).map fun options => { options with expressions := texts } := by
  change (if q.surplus then _ else checkedBase q.base >>= fun _ => checkedLevel q.logLevel >>= _) =
    (if q.surplus then _ else checkedBase q.base >>= fun _ => checkedLevel q.logLevel >>= _).map _
  split_ifs
  · rfl
  · cases checkedBase q.base <;> cases checkedLevel q.logLevel <;> rfl

theorem exists_of_settle {read : Except Exit Progress} {options : Options}
    (h : settle read = .ok options) :
    ∃ q, read = .ok q ∧ ¬ q.surplus ∧ options.expressions = q.options.expressions := by
  obtain ⟨q, hq, hrest⟩ := exists_of_bind_eq_ok h
  split_ifs at hrest with hsurplus
  refine ⟨q, mapError_eq_ok hq, hsurplus, ?_⟩
  obtain ⟨base, -, hlevel⟩ := exists_of_bind_eq_ok hrest
  obtain ⟨level, -, hoptions⟩ := exists_of_bind_eq_ok hlevel
  cases hoptions
  rfl

/-- Arguments that do not look like options are all that they add to options. -/
theorem parse_append_plain {before : List String} (hbefore : NamesNoExpression before)
    {texts : List String} (h : ∀ text ∈ texts, ∀ cs, text.toList ≠ '-' :: cs) :
    parse (before ++ texts) =
      (parse before).map fun options => { options with expressions := texts } := by
  rw [parse, parse, classifyAll_append_plain before h]
  cases hread : classifyAll before with
  | error e => rfl
  | ok first =>
    have hadds := consume_append_plain (hbefore first hread) (p := {}) ⟨rfl, rfl⟩ texts
    change settle (consume {} (first ++ texts.map .plain)) = (settle (consume {} first)).map _
    cases hfirst : consume {} first with
    | error e =>
      rw [hfirst] at hadds
      rw [hadds]
      rfl
    | ok q =>
      rw [hfirst] at hadds
      obtain ⟨-, phase, hfollowed⟩ := hadds
      rw [hfollowed, settle_expressions]

theorem expressions_of_parse {before : List String} (hbefore : NamesNoExpression before)
    {options : Options} (h : parse before = .ok options) : options.expressions = [] := by
  obtain ⟨q, hq, -, hexpressions⟩ := exists_of_settle h
  obtain ⟨first, hread, hfirst⟩ := exists_of_bind_eq_ok hq
  have hadds := consume_append_plain (hbefore first hread) (p := {}) ⟨rfl, rfl⟩ []
  rw [hfirst] at hadds
  exact hexpressions.trans hadds.1

def PlainBehind (arguments : List Argument) : Prop :=
  ∀ before after, arguments = before ++ .separator :: after → ∀ a ∈ after, ∃ text, a = .plain text

theorem PlainBehind.tail {a : Argument} {arguments : List Argument}
    (h : PlainBehind (a :: arguments)) : PlainBehind arguments := fun before after heq => h (a :: before) after (by rw [heq]; rfl)

theorem unspelled_ne_separator (text : String) : unspelled text ≠ .separator := by
  unfold unspelled
  split_ifs <;> exact fun h => by cases h

theorem classify_ne_separator {text : String} {a : Argument} (h : classify text = .ok a) :
    a ≠ .separator := by
  rintro rfl
  unfold classify at h
  split at h
  · unfold classifyLong at h
    dsimp only at h
    split at h
    · cases h
    · split at h
      · exact unspelled_ne_separator text (Except.ok.inj h)
      · cases h
      · cases h
  · cases h
  · cases h
  · cases h
  · exact unspelled_ne_separator text (Except.ok.inj h)
  · cases h

theorem plainBehind_classifyAll {arguments : List String} {read : List Argument}
    (h : classifyAll arguments = .ok read) : PlainBehind read := by
  induction arguments generalizing read with
  | nil =>
    cases h
    intro before after heq
    simp at heq
  | cons text arguments ih =>
    rw [classifyAll] at h
    intro before after heq
    split_ifs at h with hseparator
    · cases h
      cases before with
      | nil =>
        cases heq
        intro a ha
        obtain ⟨text, -, rfl⟩ := List.mem_map.1 ha
        exact ⟨text, rfl⟩
      | cons b before =>
        have hmem : Argument.separator ∈ arguments.map .plain := by
          rw [(List.cons_eq_cons.1 heq).2]
          simp
        simp at hmem
    · obtain ⟨a, ha, hrest⟩ := exists_of_bind_eq_ok h
      obtain ⟨rest, hread, hboth⟩ := exists_of_bind_eq_ok hrest
      cases hboth
      cases before with
      | nil => exact absurd (List.cons_eq_cons.1 heq).1 (classify_ne_separator ha)
      | cons b before => exact ih hread before after (List.cons_eq_cons.1 heq).2

theorem optionsOnly_of_consume {p q : Progress} {read : List Argument} (hread : PlainBehind read)
    (hq : consume p read = .ok q) (hsilent : ¬ q.Spoken) : OptionsOnly read := by
  fun_induction consume p read with
  | case1 => exact .nil
  | case2 p text rest ih => exact absurd ((p.spoken_addPlain text).consume hq) hsilent
  | case3 p rest ih =>
    cases rest with
    | nil => exact .separator
    | cons a rest =>
      obtain ⟨text, rfl⟩ := hread [] (a :: rest) rfl a List.mem_cons_self
      rw [consume] at hq
      exact absurd (((p.addPlain []).spoken_addPlain text).consume hq) hsilent
  | case4 p rest ih => exact absurd (Progress.Spoken.consume (Or.inl rfl) hq) hsilent
  | case5 => cases hq
  | case6 p flag value rest ih =>
    obtain ⟨p', -, hrest⟩ := exists_of_bind_eq_ok hq
    exact .attached flag value (ih p' hread.tail hrest)
  | case7 p flag value rest htakes ih =>
    obtain ⟨p', -, hrest⟩ := exists_of_bind_eq_ok hq
    exact .valued value htakes (ih p' hread.tail.tail hrest)
  | case8 p flag value rest htakes ih =>
    obtain ⟨p', -, hrest⟩ := exists_of_bind_eq_ok hq
    exact .alone htakes (ih p' hread.tail hrest)
  | case9 p flag rest _ ih =>
    obtain ⟨p', hflag, hrest⟩ := exists_of_bind_eq_ok hq
    refine .alone (fun htakes => ?_) (ih p' hread.tail hrest)
    cases flag with
    | help | base | logLevel | logFormat => cases hflag
    | postfixed | limbs | demo => cases htakes

/-- A command line that is accepted and asks for no expressions names none. -/
theorem namesNoExpression_of_parse {arguments : List String} {options : Options}
    (h : parse arguments = .ok options) (hnone : options.expressions = []) :
    NamesNoExpression arguments := by
  intro read hread
  rw [parse, hread] at h
  change settle (consume {} read) = .ok options at h
  obtain ⟨q, hq, hsurplus, hexpressions⟩ := exists_of_settle h
  refine optionsOnly_of_consume (plainBehind_classifyAll hread) hq ?_
  rintro (hspoken | hspoken)
  · exact hsurplus hspoken
  · exact hspoken (hexpressions ▸ hnone)

end CommandLine

end Radix
