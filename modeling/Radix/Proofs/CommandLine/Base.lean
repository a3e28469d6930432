import Radix.CommandLine.Options
import Radix.Proofs.Expression.Exact
import Radix.Proofs.Number.Decimal

namespace Radix

namespace Text

theorem scriptDigit?_of_isDigit {c : Char} (h : isDigit c) :
    scriptDigit? c = some (digitValue c) := by
  obtain ⟨hlow, hhigh⟩ := toNat_of_isDigit h
  have hzeros : digitZeros = 48 :: digitZeros.tail := rfl
  rw [scriptDigit?, hzeros, List.find?_cons_of_pos]
  · rfl
  · simp only [Bool.and_eq_true, decide_eq_true_eq]
    omega

theorem not_isIntegerBlank_of_isDigit {c : Char} (h : isDigit c) : isIntegerBlank c = false := by
  obtain ⟨hlow, hhigh⟩ := toNat_of_isDigit h
  have hblank : isBlank c = false := by
    simp only [isBlank, Bool.or_eq_false_iff, Bool.and_eq_false_iff, decide_eq_false_iff_not,
      beq_eq_false_iff_ne]
    omega
  rw [isIntegerBlank, hblank, Bool.false_and]

theorem trimBy_of_forall_not {p : Char → Bool} {cs : List Char} (h : ∀ c ∈ cs, p c = false) :
    trimBy p cs = cs := by
  have hfront : ∀ ds : List Char, (∀ c ∈ ds, p c = false) → ds.dropWhile p = ds := by
    intro ds hds
    cases ds with
    | nil => rfl
    | cons d ds => rw [List.dropWhile_cons_of_neg (by simp [hds d])]
  rw [trimBy, hfront cs h, hfront _ fun c hc => h c (List.mem_reverse.1 hc), List.reverse_reverse]

theorem groupedDigits?_of_isDigit {cs : List Char} (hne : cs ≠ []) (h : ∀ c ∈ cs, isDigit c) :
    groupedDigits? cs = some (cs.map digitValue) := by
  induction cs with
  | nil => exact absurd rfl hne
  | cons c cs ih =>
    obtain ⟨hc, hcs⟩ := List.forall_mem_cons.1 h
    cases cs with
    | nil =>
      rw [groupedDigits?, scriptDigit?_of_isDigit hc]
      rfl
    | cons d ds =>
      rw [groupedDigits?, scriptDigit?_of_isDigit hc, ih (by simp) hcs]
      · rfl
      · simp
      · intro rest heq
        cases heq
        exact absurd (hcs '_' List.mem_cons_self) (by decide)

theorem length_toDigits_le_iff {e : Nat} (he : 0 < e) (n : Nat) :
    (Nat.toDigits 10 n).length ≤ e ↔ n < 10 ^ e := by
  refine ⟨fun h => ?_, fun h => Nat.toDigits_length 10 n e he h⟩
  by_cases hn : n = 0
  · subst hn
    positivity
  · rw [← Limbs.map_digitChar_ofNat, List.length_map, List.length_reverse,
      Limbs.ofNat_of_ne_zero (by omega) hn, Nat.digits_length_le_iff (by omega)] at h
    exact h

theorem integer?_toString (n : Nat) :
    integer? (toString n) = if n < 10 ^ digitLimit then some (n : Int) else none := by
  have hdigits : ∀ c ∈ Nat.toDigits 10 n, isDigit c := fun c hc => isDigit_of_mem_toDigits hc
  have hne : Nat.toDigits 10 n ≠ [] := Nat.toDigits_ne_nil
  have hnatural : natural? (Nat.toDigits 10 n) = if n < 10 ^ digitLimit then some n else none := by
    have hlength := length_toDigits_le_iff (by decide : 0 < digitLimit) n
    rw [natural?, groupedDigits?_of_isDigit hne hdigits]
    simp only [Option.bind_eq_bind, Option.bind_some, List.length_map, foldl_eq_valueFrom]
    have hvalue : Limbs.valueFrom 10 0 ((Nat.toDigits 10 n).map digitValue) = n :=
      decimalValue_toDigits n
    rw [hvalue]
    by_cases hn : n < 10 ^ digitLimit
    · rw [if_pos hn, if_neg (Nat.not_lt.2 (hlength.2 hn))]
    · rw [if_neg hn, if_pos (Nat.lt_of_not_ge (hlength.not.2 hn))]
  have htext : trimBy isIntegerBlank (toString n).toList = Nat.toDigits 10 n := by
    rw [Nat.toString_eq_ofList_toDigits, String.toList_ofList]
    exact trimBy_of_forall_not fun c hc => not_isIntegerBlank_of_isDigit (hdigits c hc)
  have hsign : ∀ c cs, Nat.toDigits 10 n = c :: cs → isDigit c :=
    fun c cs h => hdigits c (h ▸ List.mem_cons_self)
  rw [integer?, htext]
  split
  · rename_i cs h
    exact absurd (hsign _ _ h) (by decide)
  · rename_i cs h
    exact absurd (hsign _ _ h) (by decide)
  · rw [hnatural]
    split_ifs <;> rfl

theorem lt_ten_of_scriptDigit? {c : Char} {d : Nat} (h : scriptDigit? c = some d) : d < 10 := by
  obtain ⟨first, hfind, rfl⟩ := Option.map_eq_some_iff.1 h
  have hrange := List.find?_some hfind
  simp only [Bool.and_eq_true, decide_eq_true_eq] at hrange
  omega

theorem lt_ten_of_groupedDigits? {cs : List Char} {digits : List Nat}
    (h : groupedDigits? cs = some digits) : ∀ d ∈ digits, d < 10 := by
  have hcons : ∀ {c : Char} {rest : List Char} {digits : List Nat},
      (∀ {ds}, groupedDigits? rest = some ds → ∀ d ∈ ds, d < 10) →
      (do return (← scriptDigit? c) :: (← groupedDigits? rest)) = some digits →
        ∀ d ∈ digits, d < 10 := by
    intro c rest digits ih hdigits
    obtain ⟨d, hd, hrest⟩ := Option.bind_eq_some_iff.1 hdigits
    obtain ⟨ds, hds, heq⟩ := Option.bind_eq_some_iff.1 hrest
    cases heq
    exact List.forall_mem_cons.2 ⟨lt_ten_of_scriptDigit? hd, ih hds⟩
  fun_induction groupedDigits? cs generalizing digits with
  | case1 => cases h
  | case2 c =>
    obtain ⟨d, hd, rfl⟩ := Option.map_eq_some_iff.1 h
    simpa using lt_ten_of_scriptDigit? hd
  | case3 c cs ih => exact hcons (fun hds => ih hds) h
  | case4 c cs _ _ ih => exact hcons (fun hds => ih hds) h

theorem natAbs_lt_of_integer? {text : String} {n : Int} (h : integer? text = some n) :
    n.natAbs < 10 ^ digitLimit := by
  have hnatural : ∀ {cs m}, natural? cs = some m → m < 10 ^ digitLimit := by
    intro cs m hm
    obtain ⟨digits, hdigits, hvalue⟩ := Option.bind_eq_some_iff.1 hm
    have hten : ∀ d ∈ digits.reverse, d < 10 :=
      fun d hd => lt_ten_of_groupedDigits? hdigits d (List.mem_reverse.1 hd)
    split_ifs at hvalue with hlength
    cases hvalue
    have hbound := Limbs.value_lt_pow hten
    rw [← Limbs.valueFrom_reverse, List.reverse_reverse, List.length_reverse] at hbound
    rw [foldl_eq_valueFrom]
    exact hbound.trans_le (Nat.pow_le_pow_right (by decide) (Nat.le_of_not_lt hlength))
  unfold integer? at h
  split at h
  · obtain ⟨k, hk, rfl⟩ := Option.map_eq_some_iff.1 h
    obtain ⟨m, hm, heq⟩ := Option.bind_eq_some_iff.1 hk
    cases heq
    rw [Int.natAbs_neg, Int.natAbs_natCast]
    exact hnatural hm
  · obtain ⟨m, hm, rfl⟩ := Option.map_eq_some_iff.1 h
    exact hnatural hm
  · obtain ⟨m, hm, rfl⟩ := Option.map_eq_some_iff.1 h
    exact hnatural hm

end Text

namespace CommandLine

theorem classify_of_ne_dash {text : String} (h : ∀ cs, text.toList ≠ '-' :: cs) :
    classify text = .ok (.plain text) := by
  unfold classify
  split
  · rename_i heq
    exact absurd heq (h _)
  · rename_i heq
    exact absurd heq (h _)
  · rename_i heq
    exact absurd heq (h _)
  · rename_i heq
    exact absurd heq (h _)
  · rename_i heq
    exact absurd heq (h _)
  · rfl

theorem classify_toString (n : Nat) : classify (toString n) = .ok (.plain (toString n)) := by
  refine classify_of_ne_dash fun cs hcs => ?_
  rw [Nat.toString_eq_ofList_toDigits, String.toList_ofList] at hcs
  have hdash : Text.isDigit '-' :=
    Text.isDigit_of_mem_toDigits (n := n) (by rw [hcs]; exact List.mem_cons_self)
  exact absurd hdash (by decide)

theorem classify_base : classify "--base" = .ok (.option .base none) := by rfl

theorem classifyAll_append {before : List String} (h : "--" ∉ before) (after : List String) :
    classifyAll (before ++ after) =
      (do return (← classifyAll before) ++ (← classifyAll after)) := by
  induction before with
  | nil => cases hc : classifyAll after <;> simp [classifyAll, hc] <;> rfl
  | cons text before ih =>
    obtain ⟨hne, hbefore⟩ := not_or.1 (List.mem_cons.not.1 h)
    rw [List.cons_append, classifyAll, if_neg (Ne.symm hne), ih hbefore, classifyAll,
      if_neg (Ne.symm hne)]
    cases classify text <;> cases classifyAll before <;> cases classifyAll after <;> rfl

theorem consume_append_option (p : Progress) (before : List Argument) (flag : Flag)
    (attached : Option String) (after : List Argument) :
    consume p (before ++ .option flag attached :: after) =
      consume p before >>= fun q => consume q (.option flag attached :: after) := by
  fun_induction consume p before with
  | case1 => rfl
  | case2 p text rest ih => rw [List.cons_append, consume, ih]
  | case3 p rest ih => rw [List.cons_append, consume, ih]
  | case4 p rest ih => rw [List.cons_append, consume, ih]
  | case5 => rfl
  | case6 p flag' value rest ih => simp only [List.cons_append, consume, ih, bind_assoc]
  | case7 p flag' value rest htakes ih =>
    simp only [List.cons_append, consume, if_pos htakes, ih, bind_assoc]
  | case8 p flag' value rest htakes ih =>
    rw [List.cons_append, List.cons_append, consume, if_neg htakes, bind_assoc]
    exact bind_congr ih
  | case9 p flag' rest hnext ih =>
    have hoption : ∀ value rest', rest ++ .option flag attached :: after = .plain value :: rest' →
        False := by
      intro value rest' heq
      cases rest with
      | nil => cases heq
      | cons argument rest =>
        cases heq
        exact hnext _ _ rfl
    rw [List.cons_append, consume, bind_assoc]
    · exact bind_congr ih
    · exact hoption

def Progress.Writable (p : Progress) : Prop := ∀ n ∈ p.base, n.natAbs < 10 ^ Text.digitLimit

theorem Progress.Writable.endRun {p : Progress} (h : p.Writable) : p.endRun.Writable := by
  unfold Progress.endRun
  split_ifs <;> exact h

theorem Progress.Writable.addPlain {p : Progress} (h : p.Writable) (texts : List String) :
    (p.addPlain texts).Writable := by
  unfold Progress.addPlain
  split_ifs <;> exact h

theorem Progress.Writable.takeFlag {p q : Progress} (h : p.Writable) {flag : Flag}
    (hq : p.takeFlag flag = .ok q) : q.Writable := by
  cases flag <;> cases hq <;> exact h

theorem Progress.Writable.takeValue {p q : Progress} (h : p.Writable) {flag : Flag} {value : String}
    (hq : p.takeValue flag value = .ok q) : q.Writable := by
  unfold Progress.takeValue at hq
  dsimp only at hq
  split at hq
  · cases hq
    intro n hn
    cases hn
  · split at hq
    · rename_i hread
      cases hq
      rintro n ⟨⟩
      exact Text.natAbs_lt_of_integer? hread
    · cases hq
  · cases hq
    exact h
  · cases hq
    exact h
  · split_ifs at hq
    cases hq
    exact h
  all_goals cases hq

theorem exists_of_bind_eq_ok {ε α β : Type} {x : Except ε α} {f : α → Except ε β} {b : β}
    (h : x >>= f = .ok b) : ∃ a, x = .ok a ∧ f a = .ok b := by
  cases x with
  | error e => cases h
  | ok a => exact ⟨a, rfl, h⟩

theorem Progress.Writable.consume {p q : Progress} {arguments : List Argument} (h : p.Writable)
    (hq : CommandLine.consume p arguments = .ok q) : q.Writable := by
  fun_induction CommandLine.consume p arguments with
  | case1 =>
    cases hq
    exact h
  | case2 p text rest ih => exact ih (h.addPlain _) hq
  | case3 p rest ih => exact ih (h.addPlain _) hq
  | case4 p rest ih => exact ih h.endRun hq
  | case5 => cases hq
  | case6 p flag value rest ih | case7 p flag value rest _ ih =>
    obtain ⟨p', hvalue, hrest⟩ := exists_of_bind_eq_ok hq
    exact ih p' (h.endRun.takeValue hvalue) hrest
  | case8 p flag value rest _ ih | case9 p flag rest _ ih =>
    obtain ⟨p', hflag, hrest⟩ := exists_of_bind_eq_ok hq
    exact ih p' (h.endRun.takeFlag hflag) hrest

theorem mapError_eq_ok {ε ε' α : Type} {f : ε → ε'} {x : Except ε α} {a : α}
    (h : x.mapError f = .ok a) : x = .ok a := by
  cases x with
  | error e => cases h
  | ok a' =>
    cases h
    rfl

theorem exists_base_of_parse {arguments : List String} {options : Options}
    (h : parse arguments = .ok options) :
    ∃ base : Nat, options.base = base ∧ 1 < base ∧ base < 10 ^ Text.digitLimit := by
  obtain ⟨p, hp, hrest⟩ := exists_of_bind_eq_ok h
  obtain ⟨read, -, hconsume⟩ := exists_of_bind_eq_ok (mapError_eq_ok hp)
  have hdefault : ({} : Progress).Writable := by
    rintro n ⟨⟩
    exact (by decide : defaultBase < 10 ^ 10).trans (Nat.pow_lt_pow_right (by decide) (by decide))
  have hwritable : p.Writable := hdefault.consume hconsume
  split at hrest
  · cases hrest
  · obtain ⟨n, hbase, hlevel⟩ := exists_of_bind_eq_ok hrest
    obtain ⟨level, -, hoptions⟩ := exists_of_bind_eq_ok hlevel
    cases hoptions
    cases hread : p.base with
    | none =>
      rw [hread] at hbase
      cases hbase
    | some m =>
      rw [hread, checkedBase] at hbase
      split_ifs at hbase with hsmall
      cases hbase
      have hbound := hwritable n hread
      refine ⟨n.natAbs, ?_, by omega, hbound⟩
      change n = (n.natAbs : Int)
      omega

/-- A result that hangs on a base either not at all or only by keeping it. -/
inductive CarriesBase (f : Option Int → Except Exit Progress) : Prop where
  | fixed (r : Except Exit Progress) : (∀ base, f base = r) → CarriesBase f
  | kept (p : Progress) : (∀ base, f base = .ok { p with base := base }) → CarriesBase f

theorem CarriesBase.bind {f : Option Int → Except Exit Progress}
    {g : Progress → Except Exit Progress} (hf : CarriesBase f)
    (hg : ∀ p : Progress, CarriesBase fun base => g { p with base := base }) :
    CarriesBase fun base => f base >>= g := by
  cases hf with
  | fixed r hr =>
    refine .fixed (r >>= g) fun base => ?_
    rw [hr]
  | kept p hp =>
    have hkept : (fun base => f base >>= g) = fun base => g { p with base := base } := by
      funext base
      rw [hp]
      rfl
    rw [hkept]
    exact hg p

theorem endRun_base (p : Progress) (base : Option Int) :
    Progress.endRun { p with base := base } = { p.endRun with base := base } := by
  unfold Progress.endRun
  split_ifs <;> rfl

theorem addPlain_base (p : Progress) (texts : List String) (base : Option Int) :
    Progress.addPlain { p with base := base } texts = { p.addPlain texts with base := base } := by
  unfold Progress.addPlain
  split_ifs <;> rfl

theorem takeFlag_carriesBase (p : Progress) (flag : Flag) :
    CarriesBase fun base => Progress.takeFlag { p with base := base } flag := by
  cases flag with
  | postfixed => exact .kept { p with options := { p.options with order := .after } } fun _ => rfl
  | limbs => exact .kept { p with options := { p.options with showLimbs := true } } fun _ => rfl
  | demo => exact .kept { p with options := { p.options with demo := true } } fun _ => rfl
  | help | base | logLevel | logFormat => exact .fixed _ fun _ => rfl

theorem takeValue_carriesBase (p : Progress) (flag : Flag) (value : String) :
    CarriesBase fun base => Progress.takeValue { p with base := base } flag value := by
  unfold Progress.takeValue
  dsimp only
  generalize (if value = "--" then none else some value) = given
  cases flag with
  | base =>
    cases given with
    | none => exact .fixed _ fun _ => rfl
    | some value => exact .fixed _ fun _ => rfl
  | logLevel => exact .kept { p with logLevel := given } fun _ => rfl
  | logFormat =>
    cases given with
    | none =>
      exact .kept { p with options := { p.options with logFormat := .plain } } fun _ => rfl
    | some value =>
      dsimp only
      split_ifs
      · exact .kept { p with options := { p.options with logFormat := .ofName value } } fun _ => rfl
      · exact .fixed _ fun _ => rfl
  | help | postfixed | limbs | demo => exact .fixed _ fun _ => rfl

theorem consume_carriesBase (p : Progress) (arguments : List Argument) :
    CarriesBase fun base => consume { p with base := base } arguments := by
  fun_induction consume p arguments with
  | case1 p => exact .kept p fun _ => rfl
  | case2 p text rest ih =>
    simp only [consume, addPlain_base]
    exact ih
  | case3 p rest ih =>
    simp only [consume, addPlain_base]
    exact ih
  | case4 p rest ih =>
    simp only [consume, endRun_base]
    exact ih
  | case5 => exact .fixed _ fun _ => rfl
  | case6 p flag value rest ih =>
    simp only [consume, endRun_base]
    exact (takeValue_carriesBase p.endRun flag value).bind ih
  | case7 p flag value rest htakes ih =>
    simp only [consume, if_pos htakes, endRun_base]
    exact (takeValue_carriesBase p.endRun flag value).bind ih
  | case8 p flag value rest htakes ih =>
    have hstep : ∀ base,
        consume { p with base := base } (.option flag none :: .plain value :: rest) =
          Progress.takeFlag { p.endRun with base := base } flag >>= fun q =>
            consume q (.plain value :: rest) := by
      intro base
      rw [consume, if_neg htakes, endRun_base]
    simp only [hstep]
    exact (takeFlag_carriesBase p.endRun flag).bind ih
  | case9 p flag rest hnext ih =>
    have hstep : ∀ base, consume { p with base := base } (.option flag none :: rest) =
        Progress.takeFlag { p.endRun with base := base } flag >>= fun q => consume q rest := by
      intro base
      rw [consume, endRun_base]
      exact hnext
    simp only [hstep]
    exact (takeFlag_carriesBase p.endRun flag).bind ih

theorem toString_ne_separator (n : Nat) : toString n ≠ "--" := by
  intro h
  have hplain := classify_toString n
  rw [h] at hplain
  exact absurd hplain (by decide)

theorem takeValue_base (p : Progress) (n : Nat) :
    p.takeValue .base (toString n) =
      if n < 10 ^ Text.digitLimit then .ok { p with base := some (n : Int) }
      else .error misuse := by
  unfold Progress.takeValue
  rw [if_neg (toString_ne_separator n)]
  dsimp only
  rw [Text.integer?_toString]
  split_ifs <;> rfl

theorem classifyAll_base {before : List String} (h : "--" ∉ before) (n : Nat)
    (after : List String) :
    classifyAll (before ++ "--base" :: toString n :: after) =
      (do return (← classifyAll before) ++
        .option .base none :: .plain (toString n) :: (← classifyAll after)) := by
  rw [classifyAll_append h, classifyAll, if_neg (by decide), classify_base, classifyAll,
    if_neg (toString_ne_separator n), classify_toString]
  cases classifyAll before <;> cases classifyAll after <;> rfl

/-- What is read of arguments that ask for a base that can be written hangs on it either not at all
or only by keeping it. -/
theorem exists_carriesBase {before : List String} (h : "--" ∉ before) (after : List String) :
    ∃ f, CarriesBase f ∧ ∀ n : Nat, n < 10 ^ Text.digitLimit →
      (classifyAll (before ++ "--base" :: toString n :: after)).bind (consume {}) = f (some n) := by
  have hread := fun n => classifyAll_base h n after
  cases hbefore : classifyAll before with
  | error e =>
    refine ⟨fun _ => .error e, .fixed _ fun _ => rfl, fun n _ => ?_⟩
    rw [hread, hbefore]
    rfl
  | ok first =>
    cases hafter : classifyAll after with
    | error e =>
      refine ⟨fun _ => .error e, .fixed _ fun _ => rfl, fun n _ => ?_⟩
      rw [hread, hbefore, hafter]
      rfl
    | ok rest =>
      refine ⟨fun base => consume {} first >>= fun q => consume { q.endRun with base := base } rest,
        ?_, fun n hn => ?_⟩
      · cases consume {} first with
        | error e => exact .fixed _ fun _ => rfl
        | ok q => exact consume_carriesBase q.endRun rest
      · rw [hread, hbefore, hafter]
        change consume {} (first ++ .option .base none :: .plain (toString n) :: rest) = _
        rw [consume_append_option]
        refine bind_congr fun q => ?_
        rw [consume, if_pos (by rfl), takeValue_base, if_pos hn]
        rfl

theorem settle_ok {p : Progress} {n : Nat} (hbase : p.base = some (n : Int)) (hone : 1 < n) :
    settle (.ok p) =
      if p.surplus then .error (.exit misuse)
      else (checkedLevel p.logLevel).map fun level =>
        { p.options with base := n, logLevel := level } := by
  have hchecked : checkedBase p.base = .ok (n : Int) := by
    rw [hbase]
    exact if_neg (by omega)
  change (if p.surplus then _ else checkedBase p.base >>= _) = _
  rw [hchecked]
  split_ifs
  · rfl
  · cases checkedLevel p.logLevel <;> rfl

/-- The base that is asked for is overruled or in vain whatever it is, or it is the session's base
and nothing else hangs on it. -/
theorem parse_base {before : List String} (h : "--" ∉ before) (after : List String) :
    (∃ r, ∀ n, 1 < n → n < 10 ^ Text.digitLimit →
      parse (before ++ "--base" :: toString n :: after) = r) ∨
    ∃ options : Options, ∀ n : Nat, 1 < n → n < 10 ^ Text.digitLimit →
      parse (before ++ "--base" :: toString n :: after) = .ok { options with base := n } := by
  obtain ⟨f, hf, hread⟩ := exists_carriesBase h after
  simp only [parse]
  cases hf with
  | fixed r hr =>
    refine Or.inl ⟨settle r, fun n _ hn => ?_⟩
    rw [hread n hn, hr]
  | kept p hp =>
    have hsettled : ∀ n : Nat, 1 < n → n < 10 ^ Text.digitLimit →
        settle ((classifyAll (before ++ "--base" :: toString n :: after)).bind (consume {})) =
          if p.surplus then .error (.exit misuse)
          else (checkedLevel p.logLevel).map fun level =>
            { p.options with base := n, logLevel := level } := by
      intro n hone hn
      rw [hread n hn, hp, settle_ok rfl hone]
    by_cases hsurplus : p.surplus
    · refine Or.inl ⟨.error (.exit misuse), fun n hone hn => ?_⟩
      rw [hsettled n hone hn, if_pos hsurplus]
    · cases hlevel : checkedLevel p.logLevel with
      | error refusal =>
        refine Or.inl ⟨.error refusal, fun n hone hn => ?_⟩
        rw [hsettled n hone hn, if_neg hsurplus, hlevel]
        rfl
      | ok level =>
        refine Or.inr ⟨{ p.options with logLevel := level }, fun n hone hn => ?_⟩
        rw [hsettled n hone hn, if_neg hsurplus, hlevel]
        rfl

theorem parse_unwritable_base {n : Nat} (h : 10 ^ Text.digitLimit ≤ n) (after : List String)
    {rest : List Argument} (hafter : classifyAll after = .ok rest) :
    parse ("--base" :: toString n :: after) = .error (.exit misuse) := by
  have hread := classifyAll_base (List.not_mem_nil : "--" ∉ []) n after
  rw [List.nil_append] at hread
  rw [parse, hread, hafter]
  change ((consume {} (.option .base none :: .plain (toString n) :: rest)).mapError _ >>= _) = _
  rw [consume, if_pos (by rfl), takeValue_base, if_neg (Nat.not_lt.2 h)]
  rfl

def orderArguments : Notation → List String
  | .between => []
  | .after => ["--postfix"]

theorem classifyAll_plain {texts : List String}
    (h : ∀ text ∈ texts, ∀ cs, text.toList ≠ '-' :: cs) :
    classifyAll texts = .ok (texts.map .plain) := by
  induction texts with
  | nil => rfl
  | cons text texts ih =>
    obtain ⟨htext, htexts⟩ := List.forall_mem_cons.1 h
    have hne : text ≠ "--" := by
      rintro rfl
      exact htext ['-'] rfl
    rw [classifyAll, if_neg hne, classify_of_ne_dash htext, ih htexts]
    rfl

theorem consume_plain {p : Progress} (h : p.phase ≠ .behind) (texts : List String) :
    ∃ phase, consume p (texts.map .plain) = .ok { p with
      options := { p.options with expressions := p.options.expressions ++ texts }
      phase := phase } := by
  induction texts generalizing p with
  | nil => exact ⟨p.phase, by simp [consume]⟩
  | cons text texts ih =>
    have hadd : p.addPlain [text] = { p with
        options := { p.options with expressions := p.options.expressions ++ [text] }
        phase := .inside } := if_neg h
    obtain ⟨phase, hphase⟩ := ih (p := p.addPlain [text]) (by rw [hadd]; simp)
    refine ⟨phase, ?_⟩
    rw [List.map_cons, consume, hphase, hadd, List.append_assoc]
    rfl

theorem parse_plain (order : Notation) {n : Nat} (hone : 1 < n) (hn : n < 10 ^ Text.digitLimit)
    {expressions : List String} (h : ∀ text ∈ expressions, ∀ cs, text.toList ≠ '-' :: cs) :
    parse (orderArguments order ++ "--base" :: toString n :: expressions) =
      .ok { order := order, base := n, expressions := expressions } := by
  have hseparator : "--" ∉ orderArguments order := by cases order <;> decide
  obtain ⟨flags, hflags, hordered⟩ : ∃ flags, classifyAll (orderArguments order) = .ok flags ∧
      consume {} flags = .ok { options := { order := order } } := by
    cases order with
    | between => exact ⟨[], rfl, rfl⟩
    | after => exact ⟨[.option .postfixed none], rfl, rfl⟩
  obtain ⟨phase, hphase⟩ := consume_plain
    (p := { options := { order := order }, base := some (n : Int) }) (by simp) expressions
  have hread : (classifyAll (orderArguments order ++ "--base" :: toString n :: expressions)).bind
      (consume {}) =
        .ok { options := { order := order, expressions := expressions }, base := some (n : Int),
              phase := phase } := by
    rw [classifyAll_base hseparator, hflags, classifyAll_plain h]
    change consume {} (flags ++ .option .base none :: .plain (toString n) :: _) = _
    rw [consume_append_option, hordered]
    change consume { options := { order := order } } _ = _
    rw [consume, if_pos (by rfl), takeValue_base, if_pos hn]
    exact hphase
  rw [parse, hread, settle_ok rfl hone]
  rfl

end CommandLine

end Radix
