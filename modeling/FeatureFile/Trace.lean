import FeatureFile.Builder

/-!
# Traces

A trace is a builder that only writes down its calls. It can be told to refuse tokens, which it
does after noting them.
-/

namespace FeatureFile

/-- The calls so far. -/
structure Trace where
  /-- The answer to a token. -/
  refusal : Token → Option Refusal := fun _ => none
  calls : List Call := []
  deriving Inhabited

namespace Trace

/-- Notes a call. -/
def receive (c : Call) (t : Trace) : Trace × Option Refusal :=
  ({ t with calls := t.calls ++ [c] },
    match c with
    | .read token => t.refusal token
    | _ => none)

instance : Builder Trace (List Call) where
  reset t := { t with calls := [] }
  receive := receive
  result t := .ok t.calls

end Trace

end FeatureFile
