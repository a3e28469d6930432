import Radix.Proofs.CommandLine.Base
import Radix.Proofs.Expression.Splitting
import Radix.Proofs.Expression.Trace
import Radix.Proofs.Log.Unbroken
import Radix.Proofs.Session.Lines

namespace Radix

namespace Text

end Text

namespace Token

end Token

namespace Expression

open Number

variable {base : Nat} {r : Record}

end Expression

namespace Transcript

end Transcript

namespace Session

open Expression

variable {options : Options} {base : Nat}

end Session

end Radix
