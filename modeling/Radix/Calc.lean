import Radix.Fault
import Radix.Log.Record

namespace Radix

/-- A computation that may fail and that writes log records; a failure keeps what was written. -/
structure Calc (α : Type) where
  outcome : Except Fault α
  log : List Record

namespace Calc

variable {α β : Type}

protected def pure (a : α) : Calc α := ⟨.ok a, []⟩

protected def bind (x : Calc α) (f : α → Calc β) : Calc β :=
  match x.outcome with
  | .error e => ⟨.error e, x.log⟩
  | .ok a =>
    let y := f a
    ⟨y.outcome, x.log ++ y.log⟩

instance : Monad Calc where
  pure := Calc.pure
  bind := Calc.bind

instance : MonadLift (Except Fault) Calc := ⟨fun x => ⟨x, []⟩⟩

def fail (e : Fault) : Calc α := ⟨.error e, []⟩

def write (r : Record) : Calc Unit := ⟨.ok (), [r]⟩

/-- The computation before a reader who reads each record as it is written: it ends at the first
record whose message spells too long an integer. -/
def followed (x : Calc α) : Calc α :=
  let isShort (r : Record) : Bool := r.numerals.all Text.isWritable
  if x.log.all isShort then x else ⟨.error .numeralTooLong, x.log.takeWhile isShort⟩

def ofLimbs? (x : Option α) : Calc α :=
  match x with
  | some a => .pure a
  | none => fail .limbsExhausted

@[ext]
theorem ext {x y : Calc α} (ho : x.outcome = y.outcome) (hl : x.log = y.log) : x = y := by
  cases x; cases y; simp_all

@[simp] theorem pure_eq (a : α) : (pure a : Calc α) = ⟨.ok a, []⟩ := rfl

@[simp] theorem bind_ok (a : α) (l : List Record) (f : α → Calc β) :
    ((⟨.ok a, l⟩ : Calc α) >>= f) = ⟨(f a).outcome, l ++ (f a).log⟩ := rfl

@[simp] theorem bind_error (e : Fault) (l : List Record) (f : α → Calc β) :
    ((⟨.error e, l⟩ : Calc α) >>= f) = ⟨.error e, l⟩ := rfl

instance : LawfulMonad Calc := LawfulMonad.mk' Calc
  (fun x => by
    obtain ⟨o, l⟩ := x
    cases o <;> simp [Functor.map, Calc.bind, Calc.pure])
  (fun a f => by simp)
  (fun x f g => by
    obtain ⟨o, l⟩ := x
    cases o with
    | error e => rfl
    | ok a =>
      simp only [bind, Calc.bind]
      cases (f a).outcome <;> simp)

end Calc

end Radix
