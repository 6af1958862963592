import FacetQuery.Json.Reader
import FacetQuery.Wire.Scalar

/-!
# Literals on their own

A literal may be given as a text of its own.  What stands there is looked at before what
comes behind it, so a value that is not a literal is reported as such even when more text
follows.
-/

namespace FacetQuery.Wire

open JsonText (Draft)

inductive LiteralError where
  | json (fault : JsonFault)
  | mismatch (mismatch : Mismatch)
deriving DecidableEq

def readLiteral (s : String) : Except LiteralError Value := do
  let (draft, more) := Draft.ofText s
  let json ← (draft.toJson Draft.maxDepth).mapError .json
  let value ← (readValue json).mapError .mismatch
  if more then throw (.json .malformed) else pure value

end FacetQuery.Wire
