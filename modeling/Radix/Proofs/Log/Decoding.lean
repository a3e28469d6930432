import Radix.Log.Line
import Radix.Proofs.Json.RoundTrip

namespace Radix

namespace Value

end Value

namespace Json

theorem isWritable_iff (v : Value) :
    isWritable v ↔ ∀ n ∈ v.integers, n.natAbs < 10 ^ Text.digitLimit := by
  simp only [isWritable, List.all_eq_true, Text.isWritable_iff]

end Json

namespace Entry

def shown (e : Entry) : List (String × Value) :=
  shownAttributes.filterMap fun name => (e.attribute? name).map fun v => (name, v)

end Entry

end Radix
