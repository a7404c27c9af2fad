import Apartments.Hostaway.Booking
import Apartments.Lib.Table

/-!
# Change requests of a reservation (`modifications.py`, `automatic_modifications.py`, `hostaway_modifications.py`)

`Board` holds the reservation and its change requests; each request carries its one Hostaway operation. The
functions below are the transactions that write a request, each on the rows it locks. What a transaction asks
of other services (the cancellation and settlement blockers, the refund checks of a plan, the revalidation of
an extension) is a field of `Checks`, an arbitrary answer.
-/

namespace Apartments.Hostaway

open Payments

inductive RequestType
  | extendStay | changeDates | changeGuests | cancelReservation
deriving DecidableEq, Repr

inductive RequestStatus
  | draft | pendingRevalidation | awaitingCustomerApproval | awaitingPayment | pendingAdminApproval
  | readyForHostaway | processing | completed | rejected | expired | priceChanged | unavailable | failed | unknown
  | superseded
deriving DecidableEq, Repr

/-- A row of `BookingModificationRequest`; of its quote snapshot the owner's final total. -/
structure ModificationRequest where
  pk : Uuid
  requestType : RequestType
  status : RequestStatus
  oldCheckIn : ℕ
  oldCheckOut : ℕ
  newCheckIn : Option ℕ
  newCheckOut : Option ℕ
  oldGuests : ℕ
  newGuests : Option ℕ
  oldTotal : Dec
  newTotal : Option Dec
  priceDifference : Dec
  paymentAmountSar : Option Dec
  currency : String
  ownerFinalTotal : Option Dec
  idempotencyKey : String
  requestedAt : Time
  expiresAt : Time
  approvedAt : Option Time
  completedAt : Option Time
  operation : Option Operation
deriving DecidableEq

structure Board where
  reservation : Reservation
  requests : List ModificationRequest
deriving DecidableEq

namespace Board

def request (b : Board) (pk : Uuid) : Option ModificationRequest := Table.get ModificationRequest.pk b.requests pk

def modify (b : Board) (pk : Uuid) (f : ModificationRequest → ModificationRequest) : Board :=
  { b with requests := Table.modify ModificationRequest.pk b.requests pk f }

end Board

/-- `open_statuses` of `_supersede_open_change_requests`. -/
def openStatuses : List RequestStatus :=
  [.draft, .pendingRevalidation, .awaitingCustomerApproval, .awaitingPayment, .pendingAdminApproval,
   .readyForHostaway, .priceChanged, .unavailable, .failed]

def isCancellation (m : ModificationRequest) : Bool := m.requestType == .cancelReservation

def isOpen (m : ModificationRequest) : Bool := openStatuses.contains m.status

/-- `_supersede_open_change_requests`. -/
def supersede (m : ModificationRequest) : ModificationRequest :=
  if isOpen m && !isCancellation m then { m with status := .superseded } else m

/-! ### Quotes -/

/-- What a change quote brings: the stay, its price, and how the settings and the clock stand. -/
structure Quoted where
  pk : Uuid
  requestType : RequestType
  newCheckIn : ℕ
  newCheckOut : ℕ
  newGuests : ℕ
  totalPrice : Dec
  currency : String
  paymentAmountSar : Option Dec
  idempotencyKey : String
  automaticApproval : Bool
  withinCutoff : Bool
  now : Time
  expiresAt : Time
deriving DecidableEq

/-- The status a priced request starts in. -/
def quotedStatus (q : Quoted) (difference : Dec) : RequestStatus :=
  if !q.automaticApproval && q.withinCutoff then .pendingAdminApproval
  else if 0 < difference then .awaitingPayment
  else if q.automaticApproval then .readyForHostaway
  else .pendingAdminApproval

/-- The request that `_persist_priced_request` builds on the reservation object it was given. -/
def quotedRequest (given : Reservation) (q : Quoted) : ModificationRequest where
  pk := q.pk
  requestType := q.requestType
  status := quotedStatus q (q.totalPrice - given.totalPrice)
  oldCheckIn := given.checkIn
  oldCheckOut := given.checkOut
  newCheckIn := some q.newCheckIn
  newCheckOut := some q.newCheckOut
  oldGuests := given.guests
  newGuests := some q.newGuests
  oldTotal := given.totalPrice
  newTotal := some q.totalPrice
  priceDifference := q.totalPrice - given.totalPrice
  paymentAmountSar := if 0 < q.totalPrice - given.totalPrice then q.paymentAmountSar else none
  currency := q.currency
  ownerFinalTotal := none
  idempotencyKey := q.idempotencyKey
  requestedAt := q.now
  expiresAt := q.expiresAt
  approvedAt := none
  completedAt := none
  operation := none

/-- `_persist_priced_request`, on a reservation object that may be stale; a key that is taken stands both for the
idempotent answer and for the violated constraint. -/
def persistPricedRequest (b : Board) (given : Reservation) (q : Quoted) : Except String Board :=
  if q.currency ≠ given.currency then .error "currency_changed"
  else if b.requests.any fun m => m.idempotencyKey == q.idempotencyKey || m.pk == q.pk then .error "idempotent"
  else if 0 < q.totalPrice - given.totalPrice ∧ q.paymentAmountSar = none then .error "fx_unavailable"
  else if b.reservation.checkIn ≠ given.checkIn ∨ b.reservation.checkOut ≠ given.checkOut ∨
      b.reservation.totalPrice ≠ given.totalPrice then .error "reservation_changed"
  else if b.requests.any fun m => m.status == .processing || m.status == .unknown then
    .error "modification_in_progress"
  else .ok { b with requests := b.requests.map supersede ++ [quotedRequest given q] }

/-- What `create_cancellation_request` is given, and what its checks answer. -/
structure CancellationAsked where
  pk : Uuid
  idempotencyKey : String
  requestsEnabled : Bool
  automaticCancellation : Bool
  baseBlocker : String
  cancellationBlocker : String
  planRefused : Bool
  now : Time
  expiresAt : Time
deriving DecidableEq

/-- The request that `create_cancellation_request` builds. -/
def cancellationRequest (r : Reservation) (q : CancellationAsked) : ModificationRequest where
  pk := q.pk
  requestType := .cancelReservation
  status := if q.automaticCancellation then .readyForHostaway else .pendingAdminApproval
  oldCheckIn := r.checkIn
  oldCheckOut := r.checkOut
  newCheckIn := none
  newCheckOut := none
  oldGuests := r.guests
  newGuests := none
  oldTotal := r.totalPrice
  newTotal := none
  priceDifference := 0
  paymentAmountSar := none
  currency := r.currency
  ownerFinalTotal := none
  idempotencyKey := q.idempotencyKey
  requestedAt := q.now
  expiresAt := q.expiresAt
  approvedAt := none
  completedAt := none
  operation := none

/-- `create_cancellation_request`. -/
def createCancellationRequest (b : Board) (q : CancellationAsked) : Except String Board :=
  if !q.requestsEnabled then .error "cancellation_requests_disabled"
  else if q.baseBlocker ≠ "" then .error q.baseBlocker
  else if q.cancellationBlocker ≠ "" then .error q.cancellationBlocker
  else if b.requests.any fun m => m.idempotencyKey == q.idempotencyKey || m.pk == q.pk then .error "idempotent"
  else if q.planRefused then .error "loyalty_departure_evidence_required"
  else .ok { b with requests := b.requests ++ [cancellationRequest b.reservation q] }

/-! ### Execution -/

/-- How the return of a charge whose booking was never created ends. -/
inductive OrphanedRefund
  | refused (code : String)
  | settled (code : String)
  | accepted
deriving DecidableEq

/-- What the checks of an execution are answered, besides the rows they lock. -/
structure Checks where
  now : Time
  automaticApproval : Bool
  automaticCancellation : Bool
  liveModification : Bool
  liveExtension : Bool
  liveCancellation : Bool
  hyperpayEnvironment : String
  cancellationBlocker : String
  settlementBlocker : String
  planRefusal : Option String
  settlementRefusal : Option String
  cancellationRefusal : Option String
  extensionCode : String
  orphanedRefund : OrphanedRefund
  payments : List PaymentAttempt
deriving DecidableEq

/-- `a` comes before `b` under `order_by("-requested_at", "-pk")`. -/
def laterRequest (a b : ModificationRequest) : Bool :=
  b.requestedAt < a.requestedAt || (a.requestedAt == b.requestedAt && decide (b.pk.str < a.pk.str))

/-- The latest change request that is no cancellation. -/
def latest (b : Board) : Option ModificationRequest :=
  Table.first laterRequest (b.requests.filter fun m => !isCancellation m)

/-- The reservation counts as a stay. -/
def stands (r : Reservation) : Bool := r.normalizedStatus == .confirmed || r.normalizedStatus == .modified

/-- What `set_owner_final_total` is given, and what its settlement and currency lookups answer. -/
structure OwnerTotal where
  finalTotal : Dec
  now : Time
  settlementBlocker : String
  settlementDue : Dec
  paymentAmountSar : Option Dec
deriving DecidableEq

/-- The refusals of `set_owner_final_total`. -/
def ownerTotalRefusal (b : Board) (o : OwnerTotal) (m : ModificationRequest) : Option String :=
  if isCancellation m then some "not_price_editable"
  else if (m.status ≠ .awaitingPayment ∧ m.status ≠ .pendingAdminApproval ∧ m.status ≠ .readyForHostaway) ∨
      m.operation.isSome then some "not_price_editable"
  else if (latest b).map (·.pk) ≠ some m.pk then some "modification_superseded"
  else if b.reservation.checkIn ≠ m.oldCheckIn ∨ b.reservation.checkOut ≠ m.oldCheckOut ∨
      b.reservation.totalPrice ≠ m.oldTotal ∨ b.reservation.guests ≠ m.oldGuests then some "reservation_changed"
  else if m.expiresAt ≤ o.now then some "expired"
  else if Dec.quantizeEven 2 o.finalTotal < 0 then some "invalid_price"
  else if o.settlementBlocker ≠ "" then some o.settlementBlocker
  else if 0 < o.settlementDue ∧ o.paymentAmountSar = none then some "fx_unavailable"
  else none

/-- The row `set_owner_final_total` leaves. -/
def ownerPriced (o : OwnerTotal) (m : ModificationRequest) : ModificationRequest :=
  { m with
    newTotal := some (Dec.quantizeEven 2 o.finalTotal)
    priceDifference := Dec.quantizeEven 2 o.finalTotal - m.oldTotal
    paymentAmountSar := if 0 < o.settlementDue then o.paymentAmountSar else none
    ownerFinalTotal := some (Dec.quantizeEven 2 o.finalTotal)
    status := .readyForHostaway
    approvedAt := none }

/-- `set_owner_final_total`. -/
def setOwnerFinalTotal (b : Board) (pk : Uuid) (o : OwnerTotal) : Except String Board :=
  match b.request pk with
  | none => .error "not_found"
  | some m =>
    match ownerTotalRefusal b o m with
    | some code => .error code
    | none => .ok (b.modify pk fun _ => ownerPriced o m)

/-- `owner_change_blocker`; the empty text lets the change pass. -/
def ownerChangeBlocker (e : Checks) (b : Board) (completed : Bool) (r : Reservation) (m : ModificationRequest) :
    String :=
  if isCancellation m then "not_price_editable"
  else if m.ownerFinalTotal = none then "final_price_required"
  else if (latest b).map (·.pk) ≠ some m.pk then "modification_superseded"
  else if e.settlementBlocker ≠ "" then e.settlementBlocker
  else if !stands r then "reservation_not_confirmed"
  else if completed ∧ m.status = .completed then
    if some r.checkIn ≠ m.newCheckIn ∨ some r.checkOut ≠ m.newCheckOut ∨ some r.totalPrice ≠ m.newTotal then
      "reservation_changed"
    else ""
  else if m.expiresAt ≤ e.now then "expired"
  else if m.status ≠ .readyForHostaway ∧ m.status ≠ .awaitingPayment then "modification_not_eligible"
  else if r.checkIn ≠ m.oldCheckIn ∨ r.checkOut ≠ m.oldCheckOut ∨ r.guests ≠ m.oldGuests ∨
      r.totalPrice ≠ m.oldTotal ∨ r.currency ≠ m.currency then "reservation_changed"
  else ""

/-- A verified payment of exactly the amount the change asks for. -/
def differencePayment (e : Checks) (m : ModificationRequest) : Option PaymentAttempt :=
  e.payments.find? fun p =>
    p.modificationRequest == some m.pk && p.status == .succeeded && some p.amount == m.paymentAmountSar &&
      p.currency == "SAR" && p.verifiedAt.isSome

/-- The payment check of a change that costs more. -/
def differenceRefusal (e : Checks) (m : ModificationRequest) : Option String :=
  match differencePayment e m with
  | none => some "successful_payment_required"
  | some paid =>
    if paid.provider = "hyperpay" ∧ e.hyperpayEnvironment = "test" then some "test_payment_live_write_blocked" else none

/-- Every early return of the approving transaction of `execute_automatic_modification`. -/
def approvalRefusal (e : Checks) (b : Board) (ownerOverride : Bool) (m : ModificationRequest) : Option String :=
  if isCancellation m && m.status == .completed then some "already_completed"
  else if isCancellation m && e.cancellationBlocker != "" then some e.cancellationBlocker
  else if ownerOverride && ownerChangeBlocker e b true b.reservation m != "" then
    some (ownerChangeBlocker e b true b.reservation m)
  else if m.status = .completed then some "already_completed"
  else if e.planRefusal.isSome then e.planRefusal
  else if ownerOverride && e.settlementRefusal.isSome then e.settlementRefusal
  else if isCancellation m && !e.automaticCancellation then some "automatic_cancellation_disabled"
  else if isCancellation m && e.cancellationRefusal.isSome then e.cancellationRefusal
  else if !isCancellation m && decide (0 < m.priceDifference) && !ownerOverride && (differenceRefusal e m).isSome then
    differenceRefusal e m
  else if m.status ≠ .awaitingPayment ∧ m.status ≠ .pendingAdminApproval ∧ m.status ≠ .readyForHostaway then
    some "modification_not_eligible"
  else none

/-- The row the approving transaction leaves. -/
def approvedRow (now : Time) (m : ModificationRequest) : ModificationRequest :=
  if m.status = .readyForHostaway ∧ m.approvedAt ≠ none then m
  else { m with status := .readyForHostaway, approvedAt := some now }

/-- `_is_orphaned_paid_cancellation`: such a request is settled without Hostaway. -/
def orphanedCancellation (r : Reservation) (m : ModificationRequest) : Bool :=
  isCancellation m && r.sourceType == .directWebsite && r.normalizedStatus == .readyForHostaway &&
    r.hostawayReservationId.isNone

/-- `_execution_blocker`; the empty text lets the change pass. -/
def executionBlocker (e : Checks) (m : ModificationRequest) (r : Reservation) : String :=
  if m.status ≠ .readyForHostaway then "modification_not_ready"
  else if r.hostawayReservationId = none then "hostaway_reservation_id_missing"
  else if r.sourceType ≠ .directWebsite then "external_channel_modification_blocked"
  else if isCancellation m then
    if e.cancellationBlocker ≠ "" then e.cancellationBlocker
    else if !e.liveCancellation then "hostaway_live_cancellation_disabled"
    else if !e.automaticCancellation then "automatic_cancellation_disabled"
    else ""
  else if !e.liveModification then "hostaway_live_modification_disabled"
  else if m.requestType = .extendStay ∧ !e.liveExtension then "hostaway_live_extension_disabled"
  else ""

/-- The checks of `execute` before its claim, on the objects it holds; `none` lets the change pass. -/
def executeRefusal (e : Checks) (b : Board) (m : ModificationRequest) (r : Reservation) : Option String :=
  if isCancellation m && m.status == .completed then some "already_completed"
  else if m.status = .unknown then some "unknown"
  else if executionBlocker e m r ≠ "" then some (executionBlocker e m r)
  else if m.requestType = .extendStay ∧ m.ownerFinalTotal ≠ none then
    if ownerChangeBlocker e b false r m ≠ "" then some (ownerChangeBlocker e b false r m)
    else if e.extensionCode ≠ "ready" then some e.extensionCode
    else none
  else none

/-- The operation `_prepare_operation` creates. -/
def newModification (r : Reservation) : Operation := ⟨.prepared, 0, r.hostawayReservationId, "", none, none⟩

/-- The refusal of `_prepare_operation` after it has locked the rows, if the operation may still be sent. -/
def claimBlocker (e : Checks) (b : Board) (m : ModificationRequest) : String :=
  if isCancellation m ∧ executionBlocker e m b.reservation ≠ "" then executionBlocker e m b.reservation
  else if m.ownerFinalTotal ≠ none then ownerChangeBlocker e b false b.reservation m
  else ""

/-- `_prepare_operation` on the locked row: the row it leaves and whether the update may be sent. -/
def prepareModification (e : Checks) (b : Board) (m : ModificationRequest) : ModificationRequest × Claim :=
  let operation := m.operation.getD (newModification b.reservation)
  if claim m.operation false = .refused then (m, .refused)
  else if claimBlocker e b m ≠ "" then
    ({ m with operation := some { operation with status := .blocked, errorCode := claimBlocker e b m } }, .conflicting)
  else ({ m with status := .processing, operation := some (claimedRow e.now operation) }, .claimed)

/-- `_snapshot_matches`. -/
def snapshotMatches (m : ModificationRequest) (s : Snapshot) : Bool :=
  if isCancellation m then Text.casefold s.status == "cancelled" || Text.casefold s.status == "canceled"
  else some s.checkIn == m.newCheckIn && some s.checkOut == m.newCheckOut && some s.guests == m.newGuests &&
    s.currency == m.currency && some s.totalPrice == m.newTotal

/-- The row after `_finish`. -/
def finishedRequest (status : RequestStatus) (operation : OperationStatus) (code : String) (now : Time)
    (m : ModificationRequest) : ModificationRequest :=
  { m with
    status := status
    operation := m.operation.map fun o => { o with status := operation, errorCode := code, completedAt := some now } }

/-- The row after a completed change. -/
def completedRequest (now : Time) (m : ModificationRequest) : ModificationRequest :=
  { m with
    status := .completed
    completedAt := some now
    operation := m.operation.map fun o => { o with status := .succeeded, completedAt := some now, errorCode := "" } }

/-- The reservation after a completed change. -/
def changedReservation (s : Snapshot) (now : Time) (r : Reservation) : Reservation :=
  let cancelled := Text.casefold s.status == "cancelled" || Text.casefold s.status == "canceled"
  { r with
    checkIn := s.checkIn
    checkOut := s.checkOut
    guests := s.guests
    totalPrice := s.totalPrice
    currency := s.currency
    hostawayStatus := s.status
    paymentStatus := mergePaymentStatus r.paymentStatus s.paymentStatus
    sourceUpdatedAt := s.updatedAt
    lastSyncedAt := some now
    normalizedStatus := if cancelled then .cancelled else .modified
    cancelledAt := if cancelled then some now else r.cancelledAt
    confirmedAt := if cancelled then none else r.confirmedAt }

/-- The reservation after `_complete_orphaned_local_cancellation`. -/
def orphanClosed (now : Time) (r : Reservation) : Reservation :=
  { r with
    normalizedStatus := .cancelled
    cancelledAt := some now
    confirmedAt := none
    hostawayStatus := "not_created"
    lastSyncedAt := some now }

end Apartments.Hostaway
