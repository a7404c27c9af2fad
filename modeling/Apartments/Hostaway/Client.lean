import Apartments.Hostaway.ChangeRequests
import Apartments.Hostaway.CreateCalls

/-!
# The HTTP client of Hostaway (`integrations/hostaway/client.py`, `exceptions.py`)

What a write and the read after it raise, for any answers of the channel manager, and what the two services make of
it. The answers are given beforehand: those to requests that are never sent stay unread. A body stands for what
`validate_reservation_response` makes of it.
-/

namespace Apartments.Hostaway.Client

/-- The exceptions of the client; `other` is what no handler names. -/
inductive Raised
  | configuration | network | timeout | authentication | notFound | rateLimit | server | response | availability
  | value | other
deriving DecidableEq, Repr

/-- `invalid` is a time of the last update that does not exist, a `ValueError`; `unparsable` a number that is too
large for an `int`, an `OverflowError`. -/
inductive Body
  | unreadable
  | malformed
  | invalid
  | unparsable
  | reservation (snapshot : Snapshot)
deriving DecidableEq

inductive Reply
  | timeout
  | networkError
  | otherError
  | response (statusCode : ℕ) (body : Body)
deriving DecidableEq

/-- How `get_token` fails. -/
inductive TokenFailure
  | configuration | network | timeout | authentication | rateLimit | server | response | other
deriving DecidableEq, Repr

def TokenFailure.raised : TokenFailure → Raised
  | .configuration => .configuration
  | .network => .network
  | .timeout => .timeout
  | .authentication => .authentication
  | .rateLimit => .rateLimit
  | .server => .server
  | .response => .response
  | .other => .other

/-- A refresh for which nothing is configured counts as rejected credentials. -/
def TokenFailure.refreshRaised : TokenFailure → Raised
  | .configuration => .authentication
  | failure => failure.raised

/-- The answers to one authenticated request, which is sent once more with a refreshed token after a 403. -/
structure Exchange where
  token : Option TokenFailure
  first : Reply
  refreshed : Option TokenFailure
  second : Reply
deriving DecidableEq

namespace Exchange

/-- The answer that counts. -/
def last (x : Exchange) : Except Raised Reply :=
  match x.token with
  | some failure => .error failure.raised
  | none =>
    match x.first with
    | .response 403 _ =>
      match x.refreshed with
      | some failure => .error failure.refreshRaised
      | none => .ok x.second
    | reply => .ok reply

/-- The answers to the requests that are sent. -/
def answers (x : Exchange) : List Reply :=
  match x.token with
  | some _ => []
  | none =>
    match x.first with
    | .response 403 _ => x.first :: if x.refreshed.isSome then [] else [x.second]
    | reply => [reply]

end Exchange

/-- `_request_get`, `_request_post` and `_request_put`. -/
def received : Reply → Except Raised (ℕ × Body)
  | .timeout => .error .timeout
  | .networkError => .error .network
  | .otherError => .error .other
  | .response statusCode body => .ok (statusCode, body)

/-- `_authenticated_get`, `_authenticated_post` and `_authenticated_put`. -/
def authenticated (x : Exchange) : Except Raised (ℕ × Body) := x.last.bind received

/-- `_raise_for_response`. -/
def raiseForResponse (statusCode : ℕ) : Option Raised :=
  if statusCode = 401 ∨ statusCode = 403 then some .authentication
  else if statusCode = 404 then some .notFound
  else if statusCode = 429 then some .rateLimit
  else if 500 ≤ statusCode then some .server
  else if statusCode = 400 ∨ statusCode = 409 ∨ statusCode = 422 then some .availability
  else if 400 ≤ statusCode then some .response
  else none

/-- `response.json()`. -/
def json : Body → Except Raised Body
  | .unreadable => .error .response
  | body => .ok body

/-- `_post_json` and `_put_json`. -/
def writeJson (x : Exchange) : Except Raised Body :=
  (authenticated x).bind fun (statusCode, body) =>
    match raiseForResponse statusCode with
    | some raised => .error raised
    | none => json body

/-- `_get_with_retry`, with the answers to all of its attempts. -/
def getWithRetry : List Exchange → Except Raised Body
  | [] => .error .network
  | x :: rest =>
    match authenticated x with
    | .error raised => .error raised
    | .ok (statusCode, body) =>
      if statusCode = 429 ∨ 500 ≤ statusCode then
        if rest ≠ [] then getWithRetry rest
        else if statusCode = 429 then .error .rateLimit
        else .error .server
      else
        match raiseForResponse statusCode with
        | some raised => .error raised
        | none => .ok body

/-- `validate_reservation_response`. -/
def validate : Body → Except Raised Snapshot
  | .unreadable | .malformed => .error .response
  | .invalid => .error .value
  | .unparsable => .error .other
  | .reservation snapshot => .ok snapshot

/-- `get_reservation`. -/
def getReservation (reads : List Exchange) : Except Raised Snapshot :=
  ((getWithRetry reads).bind json).bind validate

/-- `create_reservation_with_price_details`; `built` and `provider` say that the payload can be built and that the
provider has a name of a length that is accepted. -/
def createReservation (live built provider : Bool) (write : Exchange) : Except Raised Snapshot :=
  if !live then .error .configuration
  else if !built then .error .value
  else if !provider then .error .configuration
  else (writeJson write).bind validate

/-- What `update_reservation` and `cancel_reservation` share. -/
def putReservation (live : Bool) (id : ℕ) (built : Bool) (write : Exchange) (reads : List Exchange) :
    Except Raised Snapshot :=
  if !live then .error .configuration
  else if id = 0 ∨ !built then .error .value
  else (writeJson write).bind fun _ => getReservation reads

/-- `update_reservation`. -/
def updateReservation (e : Checks) (extension : Bool) (id : ℕ) (built : Bool) (write : Exchange)
    (reads : List Exchange) : Except Raised Snapshot :=
  putReservation (e.liveModification && (!extension || e.liveExtension)) id built write reads

/-- `cancel_reservation`. -/
def cancelReservation (e : Checks) (id : ℕ) (write : Exchange) (reads : List Exchange) : Except Raised Snapshot :=
  putReservation (e.liveCancellation && e.automaticCancellation) id true write reads

/-- The write of `execute` for a request. -/
def executeWrite (e : Checks) (m : ModificationRequest) (id : ℕ) (built : Bool) (write : Exchange)
    (reads : List Exchange) : Except Raised Snapshot :=
  if isCancellation m then cancelReservation e id write reads
  else updateReservation e (m.requestType == .extendStay) id built write reads

/-- The handlers of `_create_hostaway_reservation`; an exception without one leaves the call. -/
def createReply : Except Raised Snapshot → Option CreateReply
  | .ok snapshot => some (.created snapshot)
  | .error raised =>
    match raised with
    | .network | .timeout | .server => some .uncertain
    | .authentication | .availability | .configuration | .rateLimit | .response => some .rejected
    | .notFound | .value | .other => none

/-- The handlers of `HostawayModificationService.execute`. -/
def updateReply : Except Raised Snapshot → Option Changes.UpdateReply
  | .ok snapshot => some (.updated snapshot)
  | .error raised =>
    match raised with
    | .network | .timeout | .server => some .uncertain
    | .authentication | .availability | .configuration | .rateLimit | .response | .value => some .rejected
    | .notFound | .other => none

end Apartments.Hostaway.Client
