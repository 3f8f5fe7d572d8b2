import AgentWire.Http.Message

namespace AgentWire.Http

/-!
# Pages of other origins

A response tells which origins may use it.  A question beforehand is answered
without looking at what the request would do.
-/

/-- The origins that may use a server. -/
inductive OriginPolicy where
  | closed
  | open
  | listed (origins : List String)
  deriving Repr, DecidableEq

/-- Whether a text may be the value of a header. -/
def isHeaderValue (text : String) : Bool :=
  text.toList.all fun c => c = '\t' || (32 ≤ c.toNat && c.toNat ≠ 127)

namespace OriginPolicy

/-- The policy of a server with a list of origins; a list with a bad one counts as none. -/
def ofList (origins : Option (List String)) : OriginPolicy :=
  match origins with
  | none => .open
  | some origins => if origins.all isHeaderValue then .listed origins else .open

/-- The origins that a response may name, for a request. -/
def allowed? (policy : OriginPolicy) (request : Request) : Option String :=
  match policy with
  | .closed => none
  | .open => some "*"
  | .listed origins => (request.header? "origin").filter origins.contains

/-- The response with the origins that may use it. -/
def apply (policy : OriginPolicy) (request : Request) (response : Response) : Response :=
  match policy.allowed? request with
  | none => response
  | some origin => response.withHeader "access-control-allow-origin" origin

/-- The answer to a question beforehand, if the request is one and is to be answered. -/
def preflight? (policy : OriginPolicy) (request : Request) : Option Response :=
  if policy ≠ .closed ∧ request.method = "OPTIONS" then
    some
      ⟨200,
       [("access-control-allow-methods", "*"), ("access-control-allow-headers", "*")],
       .empty⟩
  else
    none

end OriginPolicy

end AgentWire.Http
