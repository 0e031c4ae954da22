import BridgeGuardian.Json.Basic
import BridgeGuardian.Failure

/-! # Requests and responses over HTTP -/

namespace BridgeGuardian.Http

/-- What a client asks. -/
structure Request where
  method : String
  /-- The path with its query. -/
  target : String
  contentType : Option String
  body : String
deriving DecidableEq, Repr

/-- What a response carries. -/
inductive Content
  | none
  | json (value : Json)
  | text (mediaType text : String)
deriving Repr

/-- What a client gets. -/
structure Response where
  status : Nat
  content : Content
deriving Repr

namespace Response

/-- A success with a value. -/
def ok (value : Json) : Response := ⟨200, .json value⟩

/-- A status without a word. -/
def bare (status : Nat) : Response := ⟨status, .none⟩

/-- The report of a failure. -/
def ofFailure (failure : Failure) : Response :=
  ⟨failure.kind.status, .json (.record [("error", .text failure.message),
    ("kind", .text failure.kind.name), ("retryable", .bool failure.isRetryable)])⟩

/-- The response to an outcome. -/
def ofOutcome {α : Type} (toJson : α → Json) : Except Failure α → Response
  | .ok value => ok (toJson value)
  | .error failure => ofFailure failure

/-- The media type of a response, if it has content. -/
def mediaType? (r : Response) : Option String :=
  match r.content with
  | .none => Option.none
  | .json _ => some "application/json"
  | .text mediaType _ => some mediaType

end Response

end BridgeGuardian.Http
