import Hoprd.Rust

/-!
# Errors of the REST API (`rest-api/src/lib.rs`)

Each error status has an HTTP status code, a name on the wire and possibly a
detail. `statusCode_ge`: none of the codes is a success.
-/
namespace Hoprd.RestApi

/-- mirrors rest-api/src/lib.rs:509-538 -/
inductive ApiErrorStatus where
  | invalidInput
  | invalidInputDetail (detail : String)
  | invalidChannelId
  | peerNotFound
  | channelNotFound
  | ticketsNotFound
  | timeout
  | pingError (detail : String)
  | unauthorized
  | invalidQuality
  | notReady
  | listenHostAlreadyUsed
  | sessionNotFound
  | invalidSessionId
  | unknownFailure (detail : String)
  deriving DecidableEq, Repr

/-- The body, `status` and `error`. -/
structure ApiError where
  status : String
  error : Option String
  deriving DecidableEq, Repr

namespace ApiErrorStatus

def name : ApiErrorStatus → String
  | invalidInput | invalidInputDetail _ => "INVALID_INPUT"
  | invalidChannelId => "INVALID_CHANNEL_ID"
  | peerNotFound => "PEER_NOT_FOUND"
  | channelNotFound => "CHANNEL_NOT_FOUND"
  | ticketsNotFound => "TICKETS_NOT_FOUND"
  | timeout => "TIMEOUT"
  | pingError _ => "PING_ERROR"
  | unauthorized => "UNAUTHORIZED"
  | invalidQuality => "INVALID_QUALITY"
  | notReady => "NOT_READY"
  | listenHostAlreadyUsed => "LISTEN_HOST_ALREADY_USED"
  | sessionNotFound => "SESSION_NOT_FOUND"
  | invalidSessionId => "INVALID_SESSION_ID"
  | unknownFailure _ => "UNKNOWN_FAILURE"

/-- mirrors rest-api/src/lib.rs:540-553 -/
def toApiError : ApiErrorStatus → ApiError
  | e@(unknownFailure d) | e@(pingError d) | e@(invalidInputDetail d) => ⟨e.name, some d⟩
  | e => ⟨e.name, none⟩

/-- mirrors rest-api/src/lib.rs:562-577 -/
def statusCode : ApiErrorStatus → Nat
  | unauthorized => 401
  | invalidInput | invalidInputDetail _ | invalidChannelId | invalidSessionId => 400
  | peerNotFound | channelNotFound | ticketsNotFound | sessionNotFound => 404
  | timeout => 408
  | listenHostAlreadyUsed => 409
  | notReady => 412
  | invalidQuality | pingError _ => 422
  | unknownFailure _ => 500

theorem statusCode_ge (e : ApiErrorStatus) : 400 ≤ e.statusCode := by
  cases e <;> exact Nat.le_of_ble_eq_true rfl

end ApiErrorStatus

end Hoprd.RestApi
