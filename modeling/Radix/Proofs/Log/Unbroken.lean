import Radix.Proofs.Expression.Line
import Radix.Proofs.Log.Decoding

namespace Radix

namespace Text

/-- Whether text is broken into lines at a character. -/
def isBreak (c : Char) : Bool :=
  let n := c.toNat
  (0x0a ≤ n && n ≤ 0x0d) || (0x1c ≤ n && n ≤ 0x1e) || n == 0x85 || n == 0x2028 || n == 0x2029

def Unbroken (s : String) : Prop := ∀ c ∈ s.toList, isBreak c = false

instance : DecidablePred Unbroken := fun s =>
  decidable_of_iff (s.toList.all fun c => !isBreak c) (by simp [Unbroken])

theorem Unbroken.append {s t : String} (hs : Unbroken s) (ht : Unbroken t) : Unbroken (s ++ t) := by
  intro c hc
  rw [String.toList_append] at hc
  rcases List.mem_append.1 hc with hc | hc
  · exact hs c hc
  · exact ht c hc

end Text

namespace Expression

open Text

end Expression

open Text

namespace Record

variable {r : Record} {time : String}

end Record

end Radix
