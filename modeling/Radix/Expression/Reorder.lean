import Radix.Calc
import Radix.Expression.Token

namespace Radix

def Operator.named (symbol : String) : Except Fault Operator :=
  match Token.ofTrimmed symbol with
  | .operator op => .ok op
  | _ => .error (.unknownSymbol symbol)

namespace Expression

/-- What waits on the stack until its place in the output is known. -/
inductive Waiting where
  | operator (op : Operator)
  | opening
  deriving DecidableEq, Repr

/-- The waiting operators that are applied before `current`, and what still waits. -/
def release (current : Operator) : List Waiting → List Operator × List Waiting
  | .operator top :: stack =>
    if current.yieldsTo top then
      let (released, rest) := release current stack
      (top :: released, rest)
    else ([], .operator top :: stack)
  | stack => ([], stack)

/-- The operators inside the innermost open parenthesis, and what waits outside it. -/
def close? : List Waiting → Option (List Operator × List Waiting)
  | [] => none
  | .opening :: stack => some ([], stack)
  | .operator top :: stack =>
    (close? stack).map fun (released, rest) => (top :: released, rest)

def finish? : List Waiting → Option (List Operator)
  | [] => some []
  | .opening :: _ => none
  | .operator top :: stack => (finish? stack).map (top :: ·)

/-- The tokens with each operator after its operands, from the tokens that remain and the stack
that waits. -/
def reorder : List Waiting → List Token → Except Fault (List Token)
  | stack, [] =>
    match finish? stack with
    | none => .error .openingUnmatched
    | some released => .ok (released.map .operator)
  | stack, .number digits :: tokens => do
    let rest ← reorder stack tokens
    return .number digits :: rest
  | stack, .operator op :: tokens => do
    let rest ← reorder (.operator op :: (release op stack).2) tokens
    return (release op stack).1.map .operator ++ rest
  | stack, .opening :: tokens => reorder (.opening :: stack) tokens
  | stack, .closing :: tokens =>
    match close? stack with
    | none => .error .closingUnmatched
    | some (released, outside) => do
      let rest ← reorder outside tokens
      return released.map .operator ++ rest
  | _, .unknown text :: _ => .error (.invalidToken .between text)

def channel : Notation → String
  | .between => Channel.infixed
  | .after => Channel.postfixed

def rejectionRecord (order : Notation) (token : String) : Record where
  level := .debug
  channel := channel order
  message := "Rejected token " ++ Text.quoted token
  attributes := [("token", .text token), ("notation", .text order.name)]

def reorderedRecord (tokens : List Token) : Record where
  level := .debug
  channel := Channel.infixed
  message := "RPN: " ++ Token.listing tokens
  attributes := [("notation", .text Notation.after.name)]

def reject {α : Type} (order : Notation) (token : String) : Calc α := do
  Calc.write (rejectionRecord order token)
  Calc.fail (.invalidToken order token)

/-- Moves each operator of an expression after its operands. -/
def toPostfix (tokens : List Token) : Calc (List Token) :=
  match reorder [] tokens with
  | .ok reordered => do
    Calc.write (reorderedRecord reordered)
    return reordered
  | .error (.invalidToken order token) => reject order token
  | .error fault => Calc.fail fault

end Expression

end Radix
