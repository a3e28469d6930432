import Radix.Expression.Evaluate

namespace Radix

/-- An expression as what it says: numbers, and operators between two expressions. -/
inductive Tree where
  | number (digits : String)
  | node (op : Operator) (left right : Tree)
  deriving DecidableEq, Repr

namespace Tree

def postorder : Tree → List Token
  | number digits => [.number digits]
  | node op left right => left.postorder ++ right.postorder ++ [.operator op]

/-- The value from the leaves up, the left operand before the right one. -/
def evaluate (base : Value) : Tree → Calc Number
  | number digits => do Number.ofText (← checkBase base) digits
  | node op left right => do
    let x ← left.evaluate base
    let y ← right.evaluate base
    Expression.apply op x y

end Tree

/-- The phrases of an expression whose operators stand between their operands, from the loosest to
the tightest. -/
inductive Phrase where
  | sum
  | term
  | factor
  | primary
  deriving DecidableEq, Repr

/-- Which tokens form which phrase, and what they say. Sums and terms group to the left, powers to
the right; parentheses leave no trace in the tree. -/
inductive Phrase.Derives : Phrase → List Token → Tree → Prop where
  | number (digits : String) : Derives .primary [.number digits] (.number digits)
  | parenthesized {ts : List Token} {t : Tree} :
      Derives .sum ts t → Derives .primary (.opening :: ts ++ [.closing]) t
  | base {ts : List Token} {t : Tree} : Derives .primary ts t → Derives .factor ts t
  | power {ts us : List Token} {t u : Tree} : Derives .primary ts t → Derives .factor us u →
      Derives .factor (ts ++ .operator .power :: us) (.node .power t u)
  | factor {ts : List Token} {t : Tree} : Derives .factor ts t → Derives .term ts t
  | product {op : Operator} {ts us : List Token} {t u : Tree} :
      op ∈ [Operator.times, .divide, .modulo] → Derives .term ts t → Derives .factor us u →
      Derives .term (ts ++ .operator op :: us) (.node op t u)
  | term {ts : List Token} {t : Tree} : Derives .term ts t → Derives .sum ts t
  | addition {op : Operator} {ts us : List Token} {t u : Tree} :
      op ∈ [Operator.plus, .minus] → Derives .sum ts t → Derives .term us u →
      Derives .sum (ts ++ .operator op :: us) (.node op t u)

namespace Expression

theorem run_postorder (base : Value) (t : Tree) (stack : List Number) (tokens : List Token) :
    run base stack (t.postorder ++ tokens) =
      t.evaluate base >>= fun x => run base (x :: stack) tokens := by
  induction t generalizing stack tokens with
  | number digits => simp [Tree.postorder, Tree.evaluate, run]
  | node op left right ihl ihr =>
    simp only [Tree.postorder, Tree.evaluate, List.append_assoc, ihl, ihr, List.cons_append,
      List.nil_append, run, bind_assoc]

end Expression

end Radix
