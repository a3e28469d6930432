import Radix.Expression.Tree
import Radix.Json.Parser
import Radix.Limbs.Lemmas
import Radix.Main
import Radix.Number.Operand
import Radix.Proofs.Limbs.Buffer
import Radix.Proofs.Limbs.Canonical
import Radix.Proofs.Limbs.Carries
import Radix.Proofs.Limbs.Halving
import Radix.Proofs.Limbs.Product
import Radix.Proofs.Limbs.Sum
import Radix.Proofs.Limbs.Totals
import Radix.Proofs.Number.Form
import Radix.Proofs.Number.Decimal
import Radix.Proofs.Limbs.Passes
import Radix.Proofs.Limbs.Splitting
import Radix.Proofs.Number.Arithmetic
import Radix.Proofs.Number.Search
import Radix.Proofs.Number.Exactness
import Radix.Proofs.Number.Progress
import Radix.Proofs.Number.Mixed
import Radix.Proofs.Number.Reachable
import Radix.Proofs.Number.Given
import Radix.Proofs.Number.Conversion
import Radix.Proofs.Number.Equality
import Radix.Proofs.Expression.Exact
import Radix.Proofs.Expression.Grammar
import Radix.Proofs.Expression.Line
import Radix.Proofs.Expression.Splitting
import Radix.Proofs.Session.Lines
import Radix.Proofs.Expression.Forest
import Radix.Proofs.Expression.Parentheses
import Radix.Proofs.Expression.Alternation
import Radix.Proofs.Expression.Trace
import Radix.Proofs.CommandLine.Base
import Radix.Proofs.Session.Bases
import Radix.Proofs.CommandLine.Expressions
import Radix.Proofs.Session.Channels
import Radix.Proofs.Json.RoundTrip
import Radix.Proofs.Log.Decoding
import Radix.Proofs.Log.Unbroken
import Radix.Proofs.Session.Log
