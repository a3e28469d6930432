import Radix.Json.Parser
import Radix.Json.Printer
import Radix.Proofs.Limbs.Passes

namespace Radix

namespace Text

def isVisible (c : Char) : Bool := 0x20 ≤ c.toNat && c.toNat < 0x7f

theorem isVisible_iff (c : Char) : isVisible c ↔ 0x20 ≤ c.toNat ∧ c.toNat < 0x7f := by
  rw [isVisible, Bool.and_eq_true, decide_eq_true_eq, decide_eq_true_eq]

theorem exists_digitChar_of_mem_toDigits {base n : Nat} (h : 1 < base) {c : Char}
    (hc : c ∈ Nat.toDigits base n) : ∃ d < base, c = Nat.digitChar d := by
  induction n using Nat.strong_induction_on with
  | _ n ih =>
    by_cases hn : n < base
    · rw [Nat.toDigits_of_lt_base hn, List.mem_singleton] at hc
      exact ⟨n, hn, hc⟩
    · have hle : base ≤ n := Nat.le_of_not_lt hn
      rw [Nat.toDigits_of_base_le h hle, List.mem_append, List.mem_singleton] at hc
      rcases hc with hc | rfl
      · exact ih (n / base) (Nat.div_lt_self (by omega) h) hc
      · exact ⟨n % base, Nat.mod_lt n (by omega), rfl⟩

theorem isVisible_of_mem_hexDigits {width n : Nat} {c : Char} (hc : c ∈ hexDigits width n) :
    isVisible c := by
  rcases List.mem_append.1 hc with hzero | hdigit
  · rw [List.eq_of_mem_replicate hzero]
    rfl
  · obtain ⟨d, hd, rfl⟩ := exists_digitChar_of_mem_toDigits (by decide) hdigit
    interval_cases d <;> rfl

theorem isVisible_of_isDigit {c : Char} (h : isDigit c) : isVisible c := by
  obtain ⟨hlow, hhigh⟩ := toNat_of_isDigit h
  rw [isVisible_iff]
  omega

end Text

namespace Value

mutual

/-- Whether a value has no double in it, so that its text tells all of it. -/
def isExact : Value → Bool
  | .real _ => false
  | .list items => areExact items
  | .record members => membersAreExact members
  | .null | .bool _ | .int _ | .text _ => true

def areExact : List Value → Bool
  | [] => true
  | v :: vs => v.isExact && areExact vs

def membersAreExact : List (String × Value) → Bool
  | [] => true
  | (_, v) :: rest => v.isExact && membersAreExact rest

end

mutual

def letters : Value → List Char
  | .text s => s.toList
  | .list items => itemLetters items
  | .record members => memberLetters members
  | .null | .bool _ | .int _ | .real _ => []

def itemLetters : List Value → List Char
  | [] => []
  | v :: vs => v.letters ++ itemLetters vs

def memberLetters : List (String × Value) → List Char
  | [] => []
  | (name, v) :: rest => name.toList ++ v.letters ++ memberLetters rest

end

end Value

namespace Json

variable {fuel : Nat} {rest : List Char}

theorem hexDigits_control {n : Nat} (h : n < 0x20) : ∃ h₁ h₂ h₃ h₄,
    Text.hexDigits 4 n = [h₁, h₂, h₃, h₄] ∧ Text.ofHexDigits? [h₁, h₂, h₃, h₄] = some n := by
  interval_cases n <;> exact ⟨_, _, _, _, rfl, rfl⟩

def prefixed (c : Char) (read : Option (List Char × List Char)) : Option (List Char × List Char) :=
  read.map fun (body, after) => (c :: body, after)

theorem stringBody?_letter {letter char : Char} (hu : letter ≠ 'u')
    (h : unescape? letter = some char) (cs : List Char) :
    stringBody? ('\\' :: letter :: cs) = prefixed char (stringBody? cs) := by
  rw [stringBody?.eq_def]
  dsimp only
  rw [if_neg (by decide), if_pos rfl, if_neg hu, h]
  cases stringBody? cs <;> rfl

theorem stringBody?_code {h₁ h₂ h₃ h₄ : Char} {n : Nat}
    (h : Text.ofHexDigits? [h₁, h₂, h₃, h₄] = some n) (hn : n < 0xd800) (cs : List Char) :
    stringBody? ('\\' :: 'u' :: h₁ :: h₂ :: h₃ :: h₄ :: cs) =
      prefixed (Char.ofNat n) (stringBody? cs) := by
  have hcode : ofCode? n = some (Char.ofNat n) := if_pos (Or.inl hn)
  rw [stringBody?, if_neg (by decide), if_pos rfl, if_pos rfl, h]
  simp only [Option.bind_eq_bind, Option.bind_some, hcode]
  cases stringBody? cs <;> rfl

theorem stringBody?_plain {c : Char} (hquote : c ≠ '\x22') (hslash : c ≠ '\\')
    (h : ¬ c.toNat < 0x20) (cs : List Char) :
    stringBody? (c :: cs) = prefixed c (stringBody? cs) := by
  rw [stringBody?.eq_def]
  dsimp only
  rw [if_neg hquote, if_neg hslash, if_neg h]
  cases stringBody? cs <;> rfl

theorem stringBody?_escape (c : Char) (cs : List Char) :
    stringBody? (escape c ++ cs) = prefixed c (stringBody? cs) := by
  unfold escape
  split_ifs with hquote hslash hline hreturn htab hback hfeed hcontrol
  · subst hquote
    exact stringBody?_letter (by decide) rfl cs
  · subst hslash
    exact stringBody?_letter (by decide) rfl cs
  · subst hline
    exact stringBody?_letter (by decide) rfl cs
  · subst hreturn
    exact stringBody?_letter (by decide) rfl cs
  · subst htab
    exact stringBody?_letter (by decide) rfl cs
  · subst hback
    exact stringBody?_letter (by decide) rfl cs
  · subst hfeed
    exact stringBody?_letter (by decide) rfl cs
  · obtain ⟨h₁, h₂, h₃, h₄, hdigits, hvalue⟩ := hexDigits_control hcontrol
    have hread := stringBody?_code hvalue (by omega) cs
    rw [Char.ofNat_toNat] at hread
    rw [hdigits]
    exact hread
  · exact stringBody?_plain hquote hslash hcontrol cs

theorem stringBody?_flatMap_escape (cs rest : List Char) :
    stringBody? (cs.flatMap escape ++ '\x22' :: rest) = some (cs, rest) := by
  induction cs with
  | nil =>
    rw [List.flatMap_nil, List.nil_append, stringBody?.eq_def]
    exact if_pos rfl
  | cons c cs ih =>
    rw [List.flatMap_cons, List.append_assoc, stringBody?_escape, ih]
    rfl

theorem stringChars_append (s : String) (rest : List Char) :
    stringChars s ++ rest = '\x22' :: (s.toList.flatMap escape ++ '\x22' :: rest) := by
  rw [stringChars, List.cons_append, List.cons_append, List.append_assoc, List.singleton_append]

theorem string?_stringChars (s : String) (rest : List Char) :
    string? (stringChars s ++ rest) = some (s, rest) := by
  rw [stringChars_append, string?, stringBody?_flatMap_escape]
  exact congrArg (fun s => some (s, rest)) String.ofList_toList

def EndsNumber (rest : List Char) : Prop :=
  ∀ c ∈ rest.head?, Text.isDigit c = false ∧ c ≠ '.' ∧ c ≠ 'e' ∧ c ≠ 'E'

theorem ofDigits_toDigits (n : Nat) : ofDigits (Nat.toDigits 10 n) = n := by
  have hvalue := Text.foldl_eq_valueFrom 0 ((Nat.toDigits 10 n).map Text.digitValue)
  rw [List.foldl_map] at hvalue
  exact hvalue.trans (Text.decimalValue_toDigits n)

theorem EndsNumber.takeWhile {digits : List Char} (hdigits : ∀ c ∈ digits, Text.isDigit c)
    (h : EndsNumber rest) : (digits ++ rest).takeWhile Text.isDigit = digits := by
  rw [List.takeWhile_append_of_pos hdigits]
  cases rest with
  | nil => simp
  | cons c rest => simp [(h c rfl).1]

theorem EndsNumber.dropWhile {digits : List Char} (hdigits : ∀ c ∈ digits, Text.isDigit c)
    (h : EndsNumber rest) : (digits ++ rest).dropWhile Text.isDigit = rest := by
  rw [List.dropWhile_append_of_pos hdigits]
  cases rest with
  | nil => rfl
  | cons c rest => simp [(h c rfl).1]

theorem exists_digit (n : Nat) : ∃ c cs, Nat.toDigits 10 n = c :: cs ∧ Text.isDigit c := by
  obtain ⟨c, cs, h⟩ := List.exists_cons_of_ne_nil (Nat.toDigits_ne_nil : Nat.toDigits 10 n ≠ [])
  exact ⟨c, cs, h, Text.isDigit_of_mem_toDigits (h ▸ List.mem_cons_self)⟩

theorem naturalDigits?_toDigits (n : Nat) (h : EndsNumber rest) :
    naturalDigits? (Nat.toDigits 10 n ++ rest) = some (Nat.toDigits 10 n, rest) := by
  have hdigits : ∀ c ∈ Nat.toDigits 10 n, Text.isDigit c :=
    fun c hc => Text.isDigit_of_mem_toDigits hc
  have hwell : ¬ (Nat.toDigits 10 n = [] ∨
      ((Nat.toDigits 10 n).head? = some '0' ∧ Nat.toDigits 10 n ≠ ['0'])) := by
    rintro (hnil | ⟨hzero, hmore⟩)
    · exact Nat.toDigits_ne_nil hnil
    · exact hmore (Limbs.head?_toDigits hzero)
  rw [naturalDigits?, h.takeWhile hdigits, h.dropWhile hdigits]
  exact if_neg hwell

theorem EndsNumber.fraction? (h : EndsNumber rest) : Json.fraction? rest = some (none, rest) := by
  unfold Json.fraction?
  split
  · exact absurd rfl (h '.' rfl).2.1
  · rfl

theorem EndsNumber.power? (h : EndsNumber rest) : Json.power? rest = some (none, rest) := by
  cases rest with
  | nil => rfl
  | cons c rest =>
    obtain ⟨-, -, hlower, hupper⟩ := h c rfl
    rw [Json.power?.eq_def]
    exact if_neg (not_or.2 ⟨hlower, hupper⟩)

theorem toList_toString_int (n : Int) :
    (toString n).toList = if n < 0 then '-' :: Nat.toDigits 10 n.natAbs
      else Nat.toDigits 10 n.natAbs := by
  have hdash : "-" = String.ofList ['-'] := rfl
  rw [Int.toString_eq_repr, Int.repr_eq_if]
  by_cases hn : n < 0
  · have habs : (-n).toNat = n.natAbs := by omega
    rw [if_neg (by omega), if_pos hn, Nat.repr_eq_ofList_toDigits, hdash, ← String.ofList_append,
      String.toList_ofList, habs]
    rfl
  · have habs : n.toNat = n.natAbs := by omega
    rw [if_pos (by omega), if_neg hn, Nat.repr_eq_ofList_toDigits, String.toList_ofList, habs]

theorem number?_toString (n : Int) (h : EndsNumber rest) :
    number? ((toString n).toList ++ rest) = some (.int n, rest) := by
  have hnatural := naturalDigits?_toDigits n.natAbs h
  have hdash : ∀ cs, Nat.toDigits 10 n.natAbs ++ rest = '-' :: cs → False := by
    intro cs heq
    obtain ⟨c, ds, hdigits, hc⟩ := exists_digit n.natAbs
    rw [hdigits] at heq
    cases heq
    exact absurd hc (by decide)
  rw [toList_toString_int]
  by_cases hn : n < 0
  · have hvalue : -(n.natAbs : Int) = n := by omega
    rw [if_pos hn, List.cons_append, number?]
    simp only [hnatural, h.fraction?, h.power?, ofDigits_toDigits, Option.bind_eq_bind,
      Option.bind_some, if_true, hvalue]
    rfl
  · have hvalue : (n.natAbs : Int) = n := by omega
    rw [if_neg hn, number?]
    · simp only [hnatural, h.fraction?, h.power?, ofDigits_toDigits, Option.bind_eq_bind,
        Option.bind_some, Bool.false_eq_true, if_false, hvalue]
      rfl
    · exact hdash

theorem exists_integer (n : Int) : ∃ c cs, (toString n).toList = c :: cs ∧
    (Text.isDigit c ∨ c = '-' ∧ ∃ d ds, cs = d :: ds ∧ Text.isDigit d) := by
  obtain ⟨d, ds, hdigits, hd⟩ := exists_digit n.natAbs
  rw [toList_toString_int, hdigits]
  split_ifs
  · exact ⟨'-', d :: ds, rfl, Or.inr ⟨rfl, d, ds, rfl, hd⟩⟩
  · exact ⟨d, ds, rfl, Or.inl hd⟩

theorem ne_of_isDigit {c d : Char} (hc : Text.isDigit c) (hd : Text.isDigit d = false) : c ≠ d := by
  rintro rfl
  rw [hd] at hc
  cases hc

/-- Where a value's text starts: at no space, and at nothing that closes a list or a record. -/
def Opens (cs : List Char) : Prop :=
  ∃ c rest, cs = c :: rest ∧ isSpace c = false ∧ c ≠ ']' ∧ c ≠ '\x7d'

theorem Opens.append {cs : List Char} (h : Opens cs) (rest : List Char) : Opens (cs ++ rest) := by
  obtain ⟨c, cs', rfl, hc⟩ := h
  exact ⟨c, cs' ++ rest, rfl, hc⟩

theorem Opens.length_pos {cs : List Char} (h : Opens cs) : 0 < cs.length := by
  obtain ⟨c, rest, rfl, -⟩ := h
  exact Nat.succ_pos rest.length

theorem Opens.skipSpace {cs : List Char} (h : Opens cs) : Json.skipSpace cs = cs := by
  obtain ⟨c, rest, rfl, hspace, -⟩ := h
  exact List.dropWhile_cons_of_neg (by simp [hspace])

theorem opens_stringChars (s : String) : Opens (stringChars s) :=
  ⟨'\x22', _, rfl, by decide, by decide, by decide⟩

theorem opens_toString (n : Int) : Opens (toString n).toList := by
  obtain ⟨c, cs, htext, hdigit | ⟨rfl, -⟩⟩ := exists_integer n
  · refine ⟨c, cs, htext, ?_, ne_of_isDigit hdigit rfl, ne_of_isDigit hdigit rfl⟩
    simp [isSpace, ne_of_isDigit hdigit (d := ' ') rfl, ne_of_isDigit hdigit (d := '\t') rfl,
      ne_of_isDigit hdigit (d := '\n') rfl, ne_of_isDigit hdigit (d := '\r') rfl]
  · exact ⟨'-', cs, htext, by decide, by decide, by decide⟩

theorem opens_chars {v : Value} (h : v.isExact) : Opens (chars v) := by
  match v, h with
  | .null, _ => exact ⟨'n', _, rfl, by decide, by decide, by decide⟩
  | .bool true, _ => exact ⟨'t', _, rfl, by decide, by decide, by decide⟩
  | .bool false, _ => exact ⟨'f', _, rfl, by decide, by decide, by decide⟩
  | .int n, _ => exact opens_toString n
  | .text s, _ => exact opens_stringChars s
  | .list _, _ => exact ⟨'[', _, rfl, by decide, by decide, by decide⟩
  | .record _, _ => exact ⟨'\x7b', _, rfl, by decide, by decide, by decide⟩

def starters : List Char := ['\x22', '[', '\x7b', 'n', 't', 'f', 'N', 'I']

theorem value?_eq_number? {c : Char} {cs : List Char} (h : c ∉ starters)
    (hsign : c = '-' → cs.head? ≠ some 'I') :
    value? (fuel + 1) (c :: cs) = number? (c :: cs) := by
  simp only [starters, List.mem_cons, List.not_mem_nil, or_false, not_or] at h
  have hinfinite : ¬ (c = '-' ∧ cs.head? = some 'I') := fun hc => hsign hc.1 hc.2
  rw [value?]
  simp only [h, hinfinite, if_false]

theorem value?_toString (n : Int) (h : EndsNumber rest) :
    value? (fuel + 1) ((toString n).toList ++ rest) = some (.int n, rest) := by
  have hnumber := number?_toString n h
  obtain ⟨c, cs, htext, hstart⟩ := exists_integer n
  have hother : starters.any Text.isDigit = false := by decide
  rw [htext, List.cons_append] at hnumber ⊢
  refine (value?_eq_number? ?_ ?_).trans hnumber
  · intro hmem
    rcases hstart with hdigit | ⟨rfl, -⟩
    · rw [List.any_eq_true.2 ⟨c, hmem, hdigit⟩] at hother
      cases hother
    · exact absurd hmem (by decide)
  · rintro rfl
    rcases hstart with hdigit | ⟨-, d, ds, rfl, hdigit⟩
    · exact absurd hdigit (by decide)
    · exact fun hd => ne_of_isDigit hdigit (by decide : Text.isDigit 'I' = false) (Option.some.inj hd)

def itemTail : List Value → List Char
  | [] => []
  | v :: vs => separator ++ chars v ++ itemTail vs

def memberText (name : String) (v : Value) : List Char := stringChars name ++ [':', ' '] ++ chars v

def memberTail : List (String × Value) → List Char
  | [] => []
  | (name, v) :: members => separator ++ memberText name v ++ memberTail members

theorem itemChars_cons (v : Value) (vs : List Value) :
    itemChars (v :: vs) = chars v ++ itemTail vs := by
  induction vs generalizing v with
  | nil => rw [itemChars, itemTail, List.append_nil]
  | cons w vs ih => rw [itemChars, ih, itemTail, List.append_assoc, List.append_assoc]

theorem memberChars_cons (name : String) (v : Value) (members : List (String × Value)) :
    memberChars ((name, v) :: members) = memberText name v ++ memberTail members := by
  induction members generalizing name v with
  | nil => rw [memberChars, memberTail, List.append_nil, memberText]
  | cons member members ih =>
    obtain ⟨name', v'⟩ := member
    simp only [memberChars, ih, memberTail, memberText, List.append_assoc]

theorem opens_memberText (name : String) (v : Value) : Opens (memberText name v) := by
  rw [memberText, List.append_assoc]
  exact (opens_stringChars name).append _

theorem skipSpace_space (cs : List Char) : skipSpace (' ' :: cs) = skipSpace cs := rfl

theorem items?_cons {v : Value} {vs : List Value} (hexact : v.isExact)
    (hvalue : value? fuel (chars v ++ (itemTail vs ++ ']' :: rest)) =
      some (v, itemTail vs ++ ']' :: rest))
    (htail : moreItems? fuel (skipSpace (itemTail vs ++ ']' :: rest)) = some (vs, rest)) :
    items? (fuel + 1) (skipSpace (itemChars (v :: vs) ++ ']' :: rest)) = some (v :: vs, rest) := by
  have hopens := (opens_chars hexact).append (itemTail vs ++ ']' :: rest)
  rw [itemChars_cons, List.append_assoc, hopens.skipSpace]
  obtain ⟨c, cs, heq, -, hclose, -⟩ := hopens
  rw [heq] at hvalue ⊢
  rw [items?, if_neg hclose, hvalue]
  simp only [Option.bind_eq_bind, Option.bind_some, htail]
  rfl

theorem moreItems?_cons {v : Value} {vs : List Value} (hexact : v.isExact)
    (hvalue : value? fuel (chars v ++ (itemTail vs ++ ']' :: rest)) =
      some (v, itemTail vs ++ ']' :: rest))
    (htail : moreItems? fuel (skipSpace (itemTail vs ++ ']' :: rest)) = some (vs, rest)) :
    moreItems? (fuel + 1) (skipSpace (itemTail (v :: vs) ++ ']' :: rest)) =
      some (v :: vs, rest) := by
  have hopens := (opens_chars hexact).append (itemTail vs ++ ']' :: rest)
  rw [itemTail, List.append_assoc, List.append_assoc]
  change moreItems? (fuel + 1) (',' :: ' ' :: (chars v ++ (itemTail vs ++ ']' :: rest))) = _
  rw [moreItems?, if_neg (by decide), if_pos rfl, skipSpace_space, hopens.skipSpace, hvalue]
  simp only [Option.bind_eq_bind, Option.bind_some, htail]
  rfl

theorem member?_memberText {v : Value} (hexact : v.isExact)
    (h : value? fuel (chars v ++ rest) = some (v, rest)) (name : String) :
    member? (fuel + 1) (memberText name v ++ rest) = some ((name, v), rest) := by
  have hskip := ((opens_chars hexact).append rest).skipSpace
  have hcolon : skipSpace ([':', ' '] ++ (chars v ++ rest)) = ':' :: ' ' :: (chars v ++ rest) := rfl
  rw [memberText, List.append_assoc, List.append_assoc, member?, string?_stringChars]
  simp only [Option.bind_eq_bind, Option.bind_some, hcolon, if_true, skipSpace_space, hskip, h]
  rfl

theorem members?_cons {name : String} {v : Value} {members : List (String × Value)}
    (hmember : member? fuel (memberText name v ++ (memberTail members ++ '\x7d' :: rest)) =
      some ((name, v), memberTail members ++ '\x7d' :: rest))
    (htail : moreMembers? fuel (skipSpace (memberTail members ++ '\x7d' :: rest)) =
      some (members, rest)) :
    members? (fuel + 1) (skipSpace (memberChars ((name, v) :: members) ++ '\x7d' :: rest)) =
      some ((name, v) :: members, rest) := by
  have hopens := (opens_memberText name v).append (memberTail members ++ '\x7d' :: rest)
  rw [memberChars_cons, List.append_assoc, hopens.skipSpace]
  obtain ⟨c, cs, heq, -, -, hclose⟩ := hopens
  rw [heq] at hmember ⊢
  rw [members?, if_neg hclose, hmember]
  simp only [Option.bind_eq_bind, Option.bind_some, htail]
  rfl

theorem moreMembers?_cons {name : String} {v : Value} {members : List (String × Value)}
    (hmember : member? fuel (memberText name v ++ (memberTail members ++ '\x7d' :: rest)) =
      some ((name, v), memberTail members ++ '\x7d' :: rest))
    (htail : moreMembers? fuel (skipSpace (memberTail members ++ '\x7d' :: rest)) =
      some (members, rest)) :
    moreMembers? (fuel + 1) (skipSpace (memberTail ((name, v) :: members) ++ '\x7d' :: rest)) =
      some ((name, v) :: members, rest) := by
  have hopens := (opens_memberText name v).append (memberTail members ++ '\x7d' :: rest)
  rw [memberTail, List.append_assoc, List.append_assoc]
  change moreMembers? (fuel + 1)
    (',' :: ' ' :: (memberText name v ++ (memberTail members ++ '\x7d' :: rest))) = _
  rw [moreMembers?, if_neg (by decide), if_pos rfl, skipSpace_space, hopens.skipSpace, hmember]
  simp only [Option.bind_eq_bind, Option.bind_some, htail]
  rfl

theorem endsNumber_itemTail (vs : List Value) (rest : List Char) :
    EndsNumber (itemTail vs ++ ']' :: rest) := by
  cases vs <;> rintro c ⟨⟩ <;> decide

theorem endsNumber_memberTail (members : List (String × Value)) (rest : List Char) :
    EndsNumber (memberTail members ++ '\x7d' :: rest) := by
  cases members <;> rintro c ⟨⟩ <;> decide

mutual

/-- A value is read back from its text, in no more steps than the text has characters. -/
theorem value?_chars : ∀ (v : Value), v.isExact → ∀ {fuel : Nat} {rest : List Char},
    (chars v).length ≤ fuel → EndsNumber rest → value? fuel (chars v ++ rest) = some (v, rest)
  | .null, _, fuel + 1, rest, _, _ => rfl
  | .bool true, _, fuel + 1, rest, _, _ => rfl
  | .bool false, _, fuel + 1, rest, _, _ => rfl
  | .int n, _, fuel + 1, rest, _, hrest => value?_toString n hrest
  | .text s, _, fuel + 1, rest, _, _ => by
    rw [chars, stringChars_append, value?, if_pos rfl, stringBody?_flatMap_escape]
    exact congrArg (fun s => some (Value.text s, rest)) String.ofList_toList
  | .list items, hexact, fuel + 2, rest, hfuel, _ => by
    rw [chars, List.cons_append, List.cons_append, List.append_assoc, List.singleton_append,
      value?, if_neg (by decide), if_pos rfl]
    match items, hexact with
    | [], _ => rfl
    | v :: vs, hexact =>
      obtain ⟨hv, hvs⟩ := Bool.and_eq_true_iff.1 hexact
      have hpos := (opens_chars hv).length_pos
      simp only [chars, itemChars_cons, List.length_cons, List.length_append, List.length_nil]
        at hfuel
      -- the brackets pay for the step into the list
      have hvalue := value?_chars v hv (by omega : (chars v).length ≤ fuel)
        (endsNumber_itemTail vs rest)
      have htail : moreItems? fuel (skipSpace (itemTail vs ++ ']' :: rest)) = some (vs, rest) :=
        moreItems?_itemTail vs hvs (by omega)
      rw [items?_cons hv hvalue htail]
      rfl
  | .record members, hexact, fuel + 3, rest, hfuel, _ => by
    rw [chars, List.cons_append, List.cons_append, List.append_assoc, List.singleton_append,
      value?, if_neg (by decide), if_neg (by decide), if_pos rfl]
    match members, hexact with
    | [], _ => rfl
    | (name, v) :: members, hexact =>
      obtain ⟨hv, hmembers⟩ := Bool.and_eq_true_iff.1 hexact
      simp only [chars, memberChars_cons, memberText, List.length_cons, List.length_append,
        List.length_nil] at hfuel
      have hvalue := value?_chars v hv (by omega : (chars v).length ≤ fuel)
        (endsNumber_memberTail members rest)
      have htail : moreMembers? (fuel + 1) (skipSpace (memberTail members ++ '\x7d' :: rest)) =
          some (members, rest) := moreMembers?_memberTail members hmembers (by omega)
      rw [members?_cons (member?_memberText hv hvalue name) htail]
      rfl
  | .record [], _, 2, _, _, _ => rfl
  | v, hexact, 0, rest, hfuel, _ => by
    have hpos := (opens_chars hexact).length_pos
    omega
  | .list _, _, 1, _, hfuel, _ => by simp [chars] at hfuel
  | .record _, _, 1, _, hfuel, _ => by simp [chars] at hfuel
  | .record ((name, v) :: members), _, 2, _, hfuel, _ => by
    have hpos := (opens_memberText name v).length_pos
    simp only [chars, memberChars_cons, List.length_cons, List.length_append] at hfuel
    omega

theorem moreItems?_itemTail : ∀ (vs : List Value), Value.areExact vs →
    ∀ {fuel : Nat} {rest : List Char}, (itemTail vs).length < fuel →
      moreItems? fuel (skipSpace (itemTail vs ++ ']' :: rest)) = some (vs, rest)
  | [], _, fuel + 1, rest, _ => rfl
  | v :: vs, hexact, fuel + 1, rest, hfuel => by
    obtain ⟨hv, hvs⟩ := Bool.and_eq_true_iff.1 hexact
    have hpos := (opens_chars hv).length_pos
    simp only [itemTail, List.length_append] at hfuel
    have hvalue := value?_chars v hv (by omega : (chars v).length ≤ fuel)
      (endsNumber_itemTail vs rest)
    exact moreItems?_cons hv hvalue
      (moreItems?_itemTail vs hvs (by omega : (itemTail vs).length < fuel))

theorem moreMembers?_memberTail : ∀ (members : List (String × Value)),
    Value.membersAreExact members → ∀ {fuel : Nat} {rest : List Char},
      (memberTail members).length < fuel →
      moreMembers? fuel (skipSpace (memberTail members ++ '\x7d' :: rest)) = some (members, rest)
  | [], _, fuel + 1, rest, _ => rfl
  | (name, v) :: members, hexact, fuel + 2, rest, hfuel => by
    obtain ⟨hv, hmembers⟩ := Bool.and_eq_true_iff.1 hexact
    simp only [memberTail, memberText, List.length_append, List.length_cons, List.length_nil]
      at hfuel
    have hvalue := value?_chars v hv (by omega : (chars v).length ≤ fuel)
      (endsNumber_memberTail members rest)
    have htail : moreMembers? (fuel + 1) (skipSpace (memberTail members ++ '\x7d' :: rest)) =
        some (members, rest) := moreMembers?_memberTail members hmembers (by omega)
    exact moreMembers?_cons (member?_memberText hv hvalue name) htail
  | (name, v) :: members, _, 1, _, hfuel => by
    have hpos := (opens_memberText name v).length_pos
    simp only [memberTail, List.length_append] at hfuel
    omega

end

/-- Text that has no control characters, and nothing beyond visible ASCII but the letters that it
is made of. -/
def Says (letters cs : List Char) : Prop :=
  ∀ c ∈ cs, 0x20 ≤ c.toNat ∧ (c.toNat < 0x7f ∨ c ∈ letters)

variable {letters letters' cs ds : List Char}

theorem Says.append (hcs : Says letters cs) (hds : Says letters' ds) :
    Says (letters ++ letters') (cs ++ ds) := by
  intro c hc
  rcases List.mem_append.1 hc with hc | hc
  · exact ⟨(hcs c hc).1, (hcs c hc).2.imp_right (List.mem_append_left letters')⟩
  · exact ⟨(hds c hc).1, (hds c hc).2.imp_right (List.mem_append_right letters)⟩

theorem says_visible (h : cs.all Text.isVisible) : Says letters cs := by
  intro c hc
  obtain ⟨hlow, hhigh⟩ := (Text.isVisible_iff c).1 (List.all_eq_true.1 h c hc)
  exact ⟨hlow, Or.inl hhigh⟩

theorem says_escape (c : Char) : Says [c] (escape c) := by
  unfold escape
  split_ifs with hquote hslash hline hreturn htab hback hfeed hcontrol
  · exact says_visible (by decide)
  · exact says_visible (by decide)
  · exact says_visible (by decide)
  · exact says_visible (by decide)
  · exact says_visible (by decide)
  · exact says_visible (by decide)
  · exact says_visible (by decide)
  · have hdigits : (Text.hexDigits 4 c.toNat).all Text.isVisible :=
      List.all_eq_true.2 fun d hd => Text.isVisible_of_mem_hexDigits hd
    exact says_visible hdigits
  · intro d hd
    rw [List.mem_singleton.1 hd]
    exact ⟨Nat.le_of_not_lt hcontrol, Or.inr List.mem_cons_self⟩

theorem says_stringChars (s : String) : Says s.toList (stringChars s) := by
  have hmark : Says [] ['\x22'] := says_visible (by decide)
  have hbody : ∀ cs : List Char, Says cs (cs.flatMap escape) := by
    intro cs
    induction cs with
    | nil => exact says_visible (by decide)
    | cons c cs ih => exact (says_escape c).append ih
  have hspoken := (hmark.append (hbody s.toList)).append hmark
  rw [List.append_nil, List.nil_append] at hspoken
  exact hspoken

theorem says_toString (n : Int) : Says [] (toString n).toList := by
  have hdigits : (Nat.toDigits 10 n.natAbs).all Text.isVisible :=
    List.all_eq_true.2 fun c hc => Text.isVisible_of_isDigit (Text.isDigit_of_mem_toDigits hc)
  rw [toList_toString_int]
  split_ifs
  · exact says_visible hdigits
  · exact says_visible hdigits

theorem says_memberText {v : Value} (h : Says v.letters (chars v)) (name : String) :
    Says (name.toList ++ v.letters) (memberText name v) := by
  have hcolon : Says [] [':', ' '] := says_visible (by decide)
  have hspoken := ((says_stringChars name).append hcolon).append h
  rwa [List.append_nil] at hspoken

mutual

/-- The text of a value has no control characters, and nothing beyond visible ASCII but what its
strings are made of. -/
theorem says_chars : ∀ v : Value, v.isExact → Says v.letters (chars v)
  | .null, _ => says_visible (by decide)
  | .bool true, _ => says_visible (by decide)
  | .bool false, _ => says_visible (by decide)
  | .int n, _ => says_toString n
  | .text s, _ => says_stringChars s
  | .list [], _ => says_visible (by decide)
  | .list (v :: vs), hexact => by
    obtain ⟨hv, hvs⟩ := Bool.and_eq_true_iff.1 hexact
    have hopen : Says [] ['['] := says_visible (by decide)
    have hclose : Says [] [']'] := says_visible (by decide)
    have hitems := (says_chars v hv).append (says_itemTail vs hvs)
    have hspoken := (hopen.append hitems).append hclose
    rw [List.append_nil] at hspoken
    rw [chars, itemChars_cons]
    exact hspoken
  | .record [], _ => says_visible (by decide)
  | .record ((name, v) :: members), hexact => by
    obtain ⟨hv, hmembers⟩ := Bool.and_eq_true_iff.1 hexact
    have hopen : Says [] ['\x7b'] := says_visible (by decide)
    have hclose : Says [] ['\x7d'] := says_visible (by decide)
    have hmember := says_memberText (says_chars v hv) name
    have hspoken := (hopen.append (hmember.append (says_memberTail members hmembers))).append hclose
    rw [List.append_nil] at hspoken
    rw [chars, memberChars_cons]
    exact hspoken

theorem says_itemTail : ∀ vs : List Value, Value.areExact vs →
    Says (Value.itemLetters vs) (itemTail vs)
  | [], _ => says_visible (by decide)
  | v :: vs, hexact => by
    obtain ⟨hv, hvs⟩ := Bool.and_eq_true_iff.1 hexact
    have hcomma : Says [] separator := says_visible (by decide)
    exact (hcomma.append (says_chars v hv)).append (says_itemTail vs hvs)

theorem says_memberTail : ∀ members : List (String × Value), Value.membersAreExact members →
    Says (Value.memberLetters members) (memberTail members)
  | [], _ => says_visible (by decide)
  | (name, v) :: members, hexact => by
    obtain ⟨hv, hmembers⟩ := Bool.and_eq_true_iff.1 hexact
    have hcomma : Says [] separator := says_visible (by decide)
    have hmember := says_memberText (says_chars v hv) name
    exact (hcomma.append hmember).append (says_memberTail members hmembers)

end

end Json

end Radix
