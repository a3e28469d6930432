import Radix.Expression.Token
import Radix.Proofs.Number.Decimal

namespace Radix.Token

open Text

def IsRun (piece : List Char) : Prop := piece ≠ [] ∧ ∀ c ∈ piece, isDigit c

def IsMark (piece : List Char) : Prop := ∃ c, piece = [c] ∧ isBlank c = false ∧ isDigit c = false

def IsPiece (piece : List Char) : Prop := IsRun piece ∨ IsMark piece

structure Placed where
  gap : List Char
  piece : List Char
  deriving DecidableEq, Repr

def Placed.chars (p : Placed) : List Char := p.gap ++ p.piece

/-- A line is its pieces with whitespace around them. There is some between two runs of digits. -/
structure Layout (line : List Char) (placed : List Placed) (rest : List Char) : Prop where
  chars_eq : line = placed.flatMap Placed.chars ++ rest
  gaps_blank : ∀ p ∈ placed, ∀ c ∈ p.gap, isBlank c
  rest_blank : ∀ c ∈ rest, isBlank c
  isPiece : ∀ p ∈ placed, IsPiece p.piece
  runs_apart : placed.IsChain fun p q => IsRun p.piece → IsRun q.piece → q.gap ≠ []

def startsDigit (cs : List Char) : Bool := cs.head?.any isDigit

theorem not_isBlank_of_isDigit {c : Char} (h : isDigit c) : isBlank c = false := by
  obtain ⟨hlow, hhigh⟩ := toNat_of_isDigit h
  apply Bool.eq_false_iff.2
  intro hblank
  simp only [isBlank, Bool.or_eq_true, Bool.and_eq_true, decide_eq_true_eq, beq_iff_eq] at hblank
  omega

theorem not_isDigit_of_isBlank {c : Char} (h : isBlank c) : isDigit c = false := by
  apply Bool.eq_false_iff.2
  intro hdigit
  rw [not_isBlank_of_isDigit hdigit] at h
  cases h

theorem IsRun.startsDigit {run : List Char} (h : IsRun run) (cs : List Char) :
    startsDigit (run ++ cs) := by
  obtain ⟨c, run, rfl⟩ := List.exists_cons_of_ne_nil h.1
  exact h.2 c List.mem_cons_self

theorem IsMark.not_isRun {piece : List Char} (h : IsMark piece) : ¬ IsRun piece := by
  obtain ⟨c, rfl, -, hdigit⟩ := h
  intro hrun
  rw [hrun.2 c List.mem_cons_self] at hdigit
  cases hdigit

theorem IsPiece.not_isBlank {piece : List Char} (h : IsPiece piece) :
    ∀ c ∈ piece, isBlank c = false := by
  rcases h with hrun | ⟨c, rfl, hblank, -⟩
  · exact fun c hc => not_isBlank_of_isDigit (hrun.2 c hc)
  · exact List.forall_mem_singleton.2 hblank

theorem pieces_digit {c : Char} (h : isDigit c) {cs : List Char} (hcs : startsDigit cs) :
    pieces (c :: cs) = prolong c (pieces cs) := by
  have hblank : ¬ isBlank c = true := by simp [not_isBlank_of_isDigit h]
  have hrun : (isDigit c && cs.head?.any isDigit) = true := Bool.and_eq_true_iff.2 ⟨h, hcs⟩
  rw [pieces, if_neg hblank, if_pos hrun]

theorem pieces_single {c : Char} (h : isBlank c = false) {cs : List Char}
    (hcs : isDigit c → startsDigit cs = false) : pieces (c :: cs) = [c] :: pieces cs := by
  have hblank : ¬ isBlank c = true := by simp [h]
  have hrun : ¬ (isDigit c && cs.head?.any isDigit) = true := by
    intro hrun
    obtain ⟨hdigit, hnext⟩ := Bool.and_eq_true_iff.1 hrun
    exact absurd hnext (Bool.eq_false_iff.1 (hcs hdigit))
  rw [pieces, if_neg hblank, if_neg hrun]

theorem pieces_append_of_blank {gap : List Char} (h : ∀ c ∈ gap, isBlank c) (cs : List Char) :
    pieces (gap ++ cs) = pieces cs := by
  induction gap with
  | nil => rfl
  | cons c gap ih =>
    obtain ⟨hc, hgap⟩ := List.forall_mem_cons.1 h
    rw [List.cons_append, pieces, if_pos hc, ih hgap]

theorem pieces_append_run {run : List Char} (h : IsRun run) {cs : List Char}
    (hcs : startsDigit cs = false) : pieces (run ++ cs) = run :: pieces cs := by
  obtain ⟨hne, hdigits⟩ := h
  induction run with
  | nil => exact absurd rfl hne
  | cons c run ih =>
    obtain ⟨hc, hrun⟩ := List.forall_mem_cons.1 hdigits
    by_cases hlast : run = []
    · subst hlast
      exact pieces_single (not_isBlank_of_isDigit hc) fun _ => hcs
    · have hnext : startsDigit (run ++ cs) := IsRun.startsDigit ⟨hlast, hrun⟩ cs
      rw [List.cons_append, pieces_digit hc hnext, ih hlast hrun]
      rfl

theorem pieces_append_piece {piece : List Char} (h : IsPiece piece) {cs : List Char}
    (hcs : IsRun piece → startsDigit cs = false) : pieces (piece ++ cs) = piece :: pieces cs := by
  rcases h with hrun | ⟨c, rfl, hblank, hdigit⟩
  · exact pieces_append_run hrun (hcs hrun)
  · apply pieces_single hblank
    intro h
    rw [hdigit] at h
    cases h

namespace Layout

variable {line rest : List Char} {placed : List Placed}

theorem nil_iff : Layout line [] rest ↔ line = rest ∧ ∀ c ∈ rest, isBlank c := by
  constructor
  · intro h
    exact ⟨h.chars_eq, h.rest_blank⟩
  · rintro ⟨rfl, hblank⟩
    exact ⟨rfl, by simp, hblank, by simp, List.IsChain.nil⟩

theorem startsDigit_eq_false_iff (h : Layout line placed rest) :
    startsDigit line = false ↔ ∀ p ∈ placed.head?, IsRun p.piece → p.gap ≠ [] := by
  obtain ⟨rfl, hgaps, hrest, hpieces, -⟩ := h
  rcases placed with _ | ⟨⟨gap, piece⟩, placed⟩
  · cases rest with
    | nil => simp [startsDigit]
    | cons c rest => simp [startsDigit, not_isDigit_of_isBlank (hrest c List.mem_cons_self)]
  · have hpiece : IsPiece piece := hpieces _ List.mem_cons_self
    cases gap with
    | cons c gap =>
      have hc : isDigit c = false :=
        not_isDigit_of_isBlank (hgaps _ List.mem_cons_self c List.mem_cons_self)
      simp [startsDigit, Placed.chars, hc]
    | nil =>
      rcases hpiece with hrun | hmark
      · have hstarts := hrun.startsDigit (placed.flatMap Placed.chars ++ rest)
        simp [Placed.chars, hstarts, hrun]
      · have hnot := hmark.not_isRun
        obtain ⟨c, rfl, -, hdigit⟩ := hmark
        simp [startsDigit, Placed.chars, hdigit, hnot]

/-- A layout is its first piece and the layout of what follows; a run has no digit behind it. -/
theorem cons_iff {p : Placed} :
    Layout line (p :: placed) rest ↔ ∃ cs, line = p.gap ++ (p.piece ++ cs) ∧
      (∀ c ∈ p.gap, isBlank c) ∧ IsPiece p.piece ∧ (IsRun p.piece → startsDigit cs = false) ∧
      Layout cs placed rest := by
  constructor
  · intro h
    obtain ⟨hgap, hgaps⟩ := List.forall_mem_cons.1 h.gaps_blank
    obtain ⟨hpiece, hpieces⟩ := List.forall_mem_cons.1 h.isPiece
    obtain ⟨hapart, hchain⟩ := List.isChain_cons.1 h.runs_apart
    have htail : Layout (placed.flatMap Placed.chars ++ rest) placed rest :=
      ⟨rfl, hgaps, h.rest_blank, hpieces, hchain⟩
    refine ⟨_, ?_, hgap, hpiece, ?_, htail⟩
    · simpa [Placed.chars] using h.chars_eq
    · intro hrun
      exact htail.startsDigit_eq_false_iff.2 fun q hq => hapart q hq hrun
  · rintro ⟨cs, rfl, hgap, hpiece, hnext, htail⟩
    refine ⟨?_, List.forall_mem_cons.2 ⟨hgap, htail.gaps_blank⟩, htail.rest_blank,
      List.forall_mem_cons.2 ⟨hpiece, htail.isPiece⟩, List.isChain_cons.2 ⟨?_, htail.runs_apart⟩⟩
    · simpa [Placed.chars] using htail.chars_eq
    · intro q hq hrun
      exact htail.startsDigit_eq_false_iff.1 (hnext hrun) q hq

theorem pieces_eq (h : Layout line placed rest) : pieces line = placed.map Placed.piece := by
  induction placed generalizing line with
  | nil =>
    obtain ⟨rfl, hblank⟩ := nil_iff.1 h
    simpa [pieces] using pieces_append_of_blank hblank []
  | cons p placed ih =>
    obtain ⟨cs, rfl, hgap, hpiece, hnext, htail⟩ := cons_iff.1 h
    rw [pieces_append_of_blank hgap, pieces_append_piece hpiece hnext, ih htail, List.map_cons]

theorem flatMap_piece (h : Layout line placed rest) :
    placed.flatMap Placed.piece = line.filter fun c => !isBlank c := by
  induction placed generalizing line with
  | nil =>
    obtain ⟨rfl, hblank⟩ := nil_iff.1 h
    apply Eq.symm
    rw [List.flatMap_nil, List.filter_eq_nil_iff]
    intro c hc
    simp [hblank c hc]
  | cons p placed ih =>
    obtain ⟨cs, rfl, hgap, hpiece, -, htail⟩ := cons_iff.1 h
    have hblanks : p.gap.filter (fun c => !isBlank c) = [] := by
      rw [List.filter_eq_nil_iff]
      intro c hc
      simp [hgap c hc]
    have hkept : p.piece.filter (fun c => !isBlank c) = p.piece := by
      rw [List.filter_eq_self]
      intro c hc
      simp [hpiece.not_isBlank c hc]
    rw [List.flatMap_cons, ih htail, List.filter_append, List.filter_append, hblanks, hkept,
      List.nil_append]

theorem exists_cons_blank {c : Char} (hc : isBlank c) (h : Layout line placed rest) :
    ∃ placed rest, Layout (c :: line) placed rest := by
  rcases placed with _ | ⟨p, placed⟩
  · obtain ⟨rfl, hrest⟩ := nil_iff.1 h
    exact ⟨[], c :: line, nil_iff.2 ⟨rfl, List.forall_mem_cons.2 ⟨hc, hrest⟩⟩⟩
  · obtain ⟨cs, rfl, hgap, htail⟩ := cons_iff.1 h
    exact ⟨⟨c :: p.gap, p.piece⟩ :: placed, rest,
      cons_iff.2 ⟨cs, rfl, List.forall_mem_cons.2 ⟨hc, hgap⟩, htail⟩⟩

theorem exists_cons_digit {c : Char} (hc : isDigit c) (hline : startsDigit line)
    (h : Layout line placed rest) : ∃ placed, Layout (c :: line) placed rest := by
  have hfirst := h.startsDigit_eq_false_iff.not.1 (by simp [hline])
  push Not at hfirst
  obtain ⟨p, hp, hrun, hgap⟩ := hfirst
  obtain ⟨placed, rfl⟩ := List.head?_eq_some_iff.1 hp
  obtain ⟨cs, rfl, -, -, hnext, htail⟩ := cons_iff.1 h
  have hlonger : IsRun (c :: p.piece) :=
    ⟨List.cons_ne_nil c p.piece, List.forall_mem_cons.2 ⟨hc, hrun.2⟩⟩
  refine ⟨⟨[], c :: p.piece⟩ :: placed, cons_iff.2
    ⟨cs, ?_, List.forall_mem_nil _, Or.inl hlonger, fun _ => hnext hrun, htail⟩⟩
  rw [hgap]
  rfl

theorem cons_single {c : Char} (hc : isBlank c = false)
    (hline : isDigit c → startsDigit line = false) (h : Layout line placed rest) :
    Layout (c :: line) (⟨[], [c]⟩ :: placed) rest := by
  have hpiece : IsPiece [c] := by
    by_cases hdigit : isDigit c
    · exact Or.inl ⟨List.cons_ne_nil c [], List.forall_mem_singleton.2 hdigit⟩
    · exact Or.inr ⟨c, rfl, hc, Bool.eq_false_iff.2 hdigit⟩
  apply cons_iff.2
  exact ⟨line, rfl, List.forall_mem_nil _, hpiece,
    fun hrun => hline (hrun.2 c List.mem_cons_self), h⟩

end Layout

theorem exists_layout (line : List Char) : ∃ placed rest, Layout line placed rest := by
  induction line with
  | nil => exact ⟨[], [], Layout.nil_iff.2 ⟨rfl, List.forall_mem_nil _⟩⟩
  | cons c cs ih =>
    obtain ⟨placed, rest, h⟩ := ih
    by_cases hblank : isBlank c
    · exact h.exists_cons_blank hblank
    · by_cases hrun : isDigit c ∧ startsDigit cs
      · obtain ⟨placed, hlonger⟩ := h.exists_cons_digit hrun.1 hrun.2
        exact ⟨placed, rest, hlonger⟩
      · have hnext : isDigit c → startsDigit cs = false := fun hc =>
          Bool.eq_false_iff.2 fun hstarts => hrun ⟨hc, hstarts⟩
        exact ⟨_, rest, h.cons_single (Bool.eq_false_iff.2 hblank) hnext⟩

theorem map_toList_split (line : String) : (split line).map String.toList = pieces line.toList := by
  rw [split, List.map_map]
  exact (List.map_congr_left fun _ _ => String.toList_ofList).trans (List.map_id _)

theorem split_of_layout {line : String} {placed : List Placed} {rest : List Char}
    (h : Layout line.toList placed rest) :
    placed.map (fun p => String.ofList p.piece) = split line := by
  rw [split, h.pieces_eq, List.map_map]
  rfl

theorem pieces_intercalate {ps : List (List Char)} (h : ∀ piece ∈ ps, IsPiece piece) :
    pieces ([' '].intercalate ps) = ps := by
  induction ps with
  | nil => rfl
  | cons piece ps ih =>
    obtain ⟨hpiece, hps⟩ := List.forall_mem_cons.1 h
    have hspace : ∀ cs, pieces (' ' :: cs) = pieces cs := fun cs => if_pos rfl
    cases ps with
    | nil =>
      have hlast : pieces (piece ++ []) = [piece] := pieces_append_piece hpiece fun _ => rfl
      simpa using hlast
    | cons next ps =>
      rw [List.intercalate_cons_cons, List.append_assoc, pieces_append_piece hpiece fun _ => rfl,
        List.singleton_append, hspace, ih hps]

/-- A line is split without loss of anything but whitespace, into runs of digits and single
characters. A run is never cut: the tokens are those of the one layout, in which whitespace stands
between two runs. Split again after a single space between each two of them, they stay the same. -/
theorem split_exact (line : String) :
    String.join (split line) = String.ofList (line.toList.filter fun c => !isBlank c) ∧
    (∀ token ∈ split line, IsRun token.toList ∨ IsMark token.toList) ∧
    (∃ placed rest, Layout line.toList placed rest ∧
      placed.map (fun p => String.ofList p.piece) = split line) ∧
    (∀ placed rest, Layout line.toList placed rest →
      placed.map (fun p => String.ofList p.piece) = split line) ∧
    split (" ".intercalate (split line)) = split line := by
  obtain ⟨placed, rest, h⟩ := exists_layout line.toList
  have htokens : (split line).map String.toList = placed.map Placed.piece := by
    rw [map_toList_split, h.pieces_eq]
  have hpieces : ∀ piece ∈ (split line).map String.toList, IsPiece piece := by
    rw [htokens]
    exact List.forall_mem_map.2 h.isPiece
  refine ⟨?_, List.forall_mem_map.1 hpieces, ⟨placed, rest, h, split_of_layout h⟩,
    fun _ _ => split_of_layout, ?_⟩
  · apply String.toList_injective
    rw [String.toList_join, String.toList_ofList, ← h.flatMap_piece, List.flatMap_def, htokens,
      List.flatMap_def]
  · have hagain := pieces_intercalate hpieces
    rw [map_toList_split] at hagain
    rw [split, String.toList_intercalate, map_toList_split]
    exact congrArg (List.map String.ofList) hagain

/-- Whitespace of any kind parts two runs. Digits of other scripts are no digits of a run. -/
example : split "12\u00a034(\u06605 6" = ["12", "34", "(", "\u0660", "5", "6"] := by decide

end Radix.Token
