import FeatureFile.Grammar.Rule
import FeatureFile.ParseError

/-!
# Builders

A parser tells what it finds to a builder, one call at a time: a rule opens, a rule closes, a
token is read. What a builder makes of the calls is its own affair; it may refuse a call, and it
has then still moved on, so that the parser can go on behind the refusal.
-/

namespace FeatureFile

/-- What a parser tells its builder. -/
inductive Call where
  | opened (rule : Rule)
  | closed (rule : Rule)
  | read (token : Token)
  deriving Repr, DecidableEq, Inhabited

/-- Why a builder refuses a call. -/
inductive Refusal where
  | error (error : ParseError)
  | errors (errors : List ParseError)
  | fault (fault : Fault)
  deriving Repr, DecidableEq, Inhabited

/-- Something that takes calls and makes a result of type `ρ` from them. -/
class Builder (β : Type) (ρ : outParam Type) where
  /-- Forgets all calls. -/
  reset : β → β
  /-- Takes a call. -/
  receive : Call → β → β × Option Refusal
  /-- What has been built so far. -/
  result : β → Except Fault ρ

end FeatureFile
