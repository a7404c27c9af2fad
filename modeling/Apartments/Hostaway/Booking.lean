import Apartments.Models
import Apartments.Text

/-!
# Creating a reservation in Hostaway (`reservations/services/hostaway_booking.py`)

The rows `_create_hostaway_reservation` reads and writes, the gates a call passes before it asks for
availability, the request it builds (`reservation_payloads.py`) and the rows each of its transactions leaves.
Finance fields only travel in the request, so a quote component keeps what decides whether the request can be
built.
-/

namespace Apartments.Hostaway

open Payments

inductive ReservationStatus
  | awaitingPayment | readyForHostaway | createPending | creating | confirmed | createFailed | createUnknown
  | syncPending | modified | cancelled | pending | inquiry | declined | expired | unknown
deriving DecidableEq, Repr

inductive SourceType
  | directWebsite | hostawayManual | externalChannel | unknown
deriving DecidableEq, Repr

structure Property where
  pk : ℕ
  hostawayListingId : Option ℕ
  hostawayListingMapId : Option ℕ
deriving DecidableEq

/-- A row of `Reservation`; of `loyalty_state` the two keys that points bookings are gated by. -/
structure Reservation where
  pk : Uuid
  isTest : Bool
  bookingIntent : Option Uuid
  property : Option Property
  hostawayReservationId : Option ℕ
  hostawayListingMapId : Option ℕ
  channelId : Option ℕ
  sourceType : SourceType
  normalizedStatus : ReservationStatus
  hostawayStatus : String
  paymentStatus : String
  checkIn : ℕ
  checkOut : ℕ
  guests : ℕ
  currency : String
  totalPrice : Dec
  sourceUpdatedAt : Option Time
  lastSyncedAt : Option Time
  confirmedAt : Option Time
  cancelledAt : Option Time
  pointsConfirmationStarted : Bool
  hold : Bool
deriving DecidableEq

inductive OperationStatus
  | prepared | inProgress | succeeded | failed | unknown | blocked
deriving DecidableEq, Repr

def OperationStatus.value : OperationStatus → String
  | .prepared => "prepared"
  | .inProgress => "in_progress"
  | .succeeded => "succeeded"
  | .failed => "failed"
  | .unknown => "unknown"
  | .blocked => "blocked"

/-- The `CREATE_RESERVATION` operation of the reservation. -/
structure Operation where
  status : OperationStatus
  attemptCount : ℕ
  hostawayReservationId : Option ℕ
  errorCode : String
  startedAt : Option Time
  completedAt : Option Time
deriving DecidableEq

/-- The public checkout, the owner's manual booking and the full-points booking. -/
inductive Kind
  | paid | manual | points
deriving DecidableEq, Repr

structure PriceComponent where
  total : Option Dec
  isIncludedInTotal : Option Bool
  isDeleted : Option Bool
deriving DecidableEq

structure PriceQuote where
  listingId : ℕ
  checkIn : ℕ
  checkOut : ℕ
  guests : ℕ
  currency : String
  totalPrice : Dec
  components : List PriceComponent
deriving DecidableEq

structure AvailabilityResult where
  isAvailable : Bool
  quote : Option PriceQuote
deriving DecidableEq

structure CreateRequest where
  listingMapId : ℕ
  channelId : ℕ
deriving DecidableEq

/-- `HostawayReservationSnapshot`. -/
structure Snapshot where
  reservationId : ℕ
  listingMapId : ℕ
  channelId : Option ℕ
  status : String
  checkIn : ℕ
  checkOut : ℕ
  guests : ℕ
  currency : String
  totalPrice : Dec
  paymentStatus : String
  updatedAt : Option Time
deriving DecidableEq

/-- What a call reads besides the reservation it was given: settings, the cash due for the intent and the payment
attempts of the intent. -/
structure Surroundings where
  liveBookingEnabled : Bool
  loyaltyEnabled : Bool
  hyperpayEnvironment : String
  directChannelId : Option ℕ
  cashDue : Option Dec
  payments : List PaymentAttempt
deriving DecidableEq

/-- The newest successful payment of exactly the cash due. -/
def successfulPayment (e : Surroundings) (intent : Uuid) : Option PaymentAttempt :=
  (e.payments.filter fun p =>
    p.bookingIntent == intent && p.status == .succeeded && some p.amount == e.cashDue && p.currency == "SAR").foldl
    (fun newest p =>
      match newest with
      | none => some p
      | some q => if q.createdAt < p.createdAt then some p else some q) none

/-- `create_points_reservation` before it goes on to the common part. -/
def pointsRefusal (e : Surroundings) (r : Reservation) : Option String :=
  if !e.loyaltyEnabled || !r.pointsConfirmationStarted then some "points_confirmation_not_authorized"
  else if !r.hold || e.cashDue != some 0 then some "points_not_fully_allocated"
  else none

/-- The payment gate of a public checkout. -/
def paymentRefusal (e : Surroundings) (intent : Uuid) : Option String :=
  match successfulPayment e intent with
  | none => some "successful_payment_required"
  | some payment =>
    if payment.provider = "hyperpay" ∧ e.hyperpayEnvironment = "test" then some "test_payment_live_write_blocked"
    else none

/-- How the gates of a call end. -/
inductive Gate
  | blocked (code : String)
  | alreadyConfirmed
  | passed (channelId : ℕ)
deriving DecidableEq

/-- The gates that come after the payment. -/
def inventoryGate (e : Surroundings) (r : Reservation) : Gate :=
  match r.property.bind (·.hostawayListingMapId), e.directChannelId with
  | none, _ => .blocked "listing_map_id_not_verified"
  | some _, none => .blocked "direct_channel_id_not_configured"
  | some _, some channelId => if r.hostawayReservationId.isSome then .alreadyConfirmed else .passed channelId

/-- The gates of `_create_hostaway_reservation`. -/
def commonGate (kind : Kind) (e : Surroundings) (r : Reservation) : Gate :=
  if !e.liveBookingEnabled then .blocked "hostaway_live_booking_disabled"
  else
    match r.bookingIntent with
    | none => .blocked "booking_intent_missing"
    | some intent =>
      match if kind = .paid then paymentRefusal e intent else none with
      | some code => .blocked code
      | none => inventoryGate e r

/-- The gates of a call of the given kind. -/
def gate (kind : Kind) (e : Surroundings) (r : Reservation) : Gate :=
  match if kind = .points then pointsRefusal e r else none with
  | some code => .blocked code
  | none => commonGate kind e r

/-- The errors of `ReservationFinanceField.from_price_component`. -/
def componentError (c : PriceComponent) : Option String :=
  if c.total.isNone then some "price_component_total_missing"
  else if c.isIncludedInTotal.isNone || c.isDeleted.isNone then some "price_component_flags_missing"
  else none

/-- `_override_price_details` finds a field that can carry the difference. -/
def canOverride (components : List PriceComponent) (difference : Dec) : Bool :=
  components.any fun c =>
    c.isIncludedInTotal == some true && c.isDeleted == some false && 0 ≤ c.total.getD 0 + difference

/-- `build_hostaway_reservation_request`; the error is the text of its `ValueError`. -/
def buildRequest (r : Reservation) (channelId : ℕ) (quote : PriceQuote) (allowManualPriceOverride : Bool) :
    Except String CreateRequest :=
  match r.bookingIntent, r.property with
  | some _, some property =>
    match property.hostawayListingMapId with
    | none => .error "listing_map_id_not_verified"
    | some listingMapId =>
      if some quote.listingId ≠ property.hostawayListingId then .error "revalidated_listing_mismatch"
      else if quote.checkIn ≠ r.checkIn ∨ quote.checkOut ≠ r.checkOut ∨ quote.guests ≠ r.guests then
        .error "revalidated_stay_mismatch"
      else if quote.currency ≠ r.currency then .error "revalidated_price_changed"
      else
        match quote.components.findSome? componentError with
        | some code => .error code
        | none =>
          if quote.totalPrice = r.totalPrice then .ok ⟨listingMapId, channelId⟩
          else if !allowManualPriceOverride then .error "revalidated_price_changed"
          else if canOverride quote.components (r.totalPrice - quote.totalPrice) then .ok ⟨listingMapId, channelId⟩
          else .error "manual_price_cannot_be_applied"
  | _, _ => .error "direct_reservation_context_missing"

/-- `HOSTAWAY_RESERVATION_STATUS_MAP`. -/
def statusMap : List (String × ReservationStatus) :=
  [("new", .confirmed), ("confirmed", .confirmed), ("ownerstay", .confirmed), ("modified", .modified),
   ("awaitingpayment", .awaitingPayment), ("pending", .pending), ("unconfirmed", .pending), ("inquiry", .inquiry),
   ("inquirypreapproved", .inquiry), ("cancelled", .cancelled), ("canceled", .cancelled), ("declined", .declined),
   ("inquirydenied", .declined), ("inquirynotpossible", .declined), ("expired", .expired),
   ("inquirytimeout", .expired)]

/-- `normalize_hostaway_reservation_status`. -/
def normalizeStatus (status : String) : ReservationStatus :=
  (statusMap.lookup (Text.casefold (Text.strip status))).getD .unknown

/-- `merge_hostaway_payment_status`. -/
def mergePaymentStatus (current incoming : String) : String :=
  if Text.casefold (Text.strip current) = "paid" ∧
      Text.casefold (Text.strip incoming) ∈ ["", "unknown", "unpaid"] then current
  else incoming

/-- The snapshot is not the stay that was asked for. -/
def responseMismatch (r : Reservation) (request : CreateRequest) (s : Snapshot) : Bool :=
  s.listingMapId != request.listingMapId || s.checkIn != r.checkIn || s.checkOut != r.checkOut ||
    s.currency != r.currency || s.totalPrice != r.totalPrice

/-- The status a successful create leaves. -/
def createdStatus (kind : Kind) (s : Snapshot) : ReservationStatus :=
  if kind = .paid then .confirmed else normalizeStatus s.status

/-- The reservation after a successful create. -/
def confirmedRow (kind : Kind) (request : CreateRequest) (s : Snapshot) (now : Time) (r : Reservation) :
    Reservation :=
  { r with
    hostawayReservationId := some s.reservationId
    hostawayListingMapId := some s.listingMapId
    -- `snapshot.channel_id or request.channel_id`: 0 counts as missing
    channelId := if s.channelId = none ∨ s.channelId = some 0 then some request.channelId else s.channelId
    hostawayStatus := s.status
    paymentStatus :=
      if kind = .paid then mergePaymentStatus r.paymentStatus s.paymentStatus
      else if s.paymentStatus = "" then "unpaid" else s.paymentStatus
    normalizedStatus := createdStatus kind s
    confirmedAt := if createdStatus kind s = .confirmed then some now else none
    sourceUpdatedAt := s.updatedAt
    lastSyncedAt := some now }

/-- The operation after a successful create. -/
def succeededRow (s : Snapshot) (now : Time) (o : Operation) : Operation :=
  { o with
    status := .succeeded
    hostawayReservationId := some s.reservationId
    completedAt := some now
    errorCode := "" }

/-- The reservation after `_finish_operation`; an id of 0 is not written. -/
def finishedRow (status : ReservationStatus) (hostawayReservationId : Option ℕ) (r : Reservation) : Reservation :=
  { r with
    normalizedStatus := status
    hostawayReservationId :=
      if hostawayReservationId = none ∨ hostawayReservationId = some 0 then r.hostawayReservationId
      else hostawayReservationId }

/-- The operation after `_finish_operation`. -/
def finishedOperation (code : String) (status : OperationStatus) (hostawayReservationId : Option ℕ) (now : Time)
    (o : Operation) : Operation :=
  { o with
    status := status
    errorCode := code
    hostawayReservationId := hostawayReservationId
    completedAt := some now }

/-- The operation `_ensure_blocked_operation` creates. -/
def newBlocked (code : String) : Operation := ⟨.blocked, 0, none, code, none, none⟩

/-- The operation `_prepare_operation` creates. -/
def newPrepared : Operation := ⟨.prepared, 0, none, "", none, none⟩

/-- `_ensure_blocked_operation` writes only over an operation that never sent anything. -/
def mayBlock (o : Operation) : Bool := (o.status == .prepared || o.status == .blocked) && o.attemptCount == 0

/-- What `_prepare_operation` decides about the operation it has locked. -/
inductive Claim
  | refused
  | conflicting
  | claimed
deriving DecidableEq

/-- The checks of `_prepare_operation`, on the operation row that was there before. -/
def claim (existing : Option Operation) (conflicts : Bool) : Claim :=
  match existing with
  | some o =>
    if o.status = .succeeded ∨ o.status = .inProgress ∨ o.status = .unknown then .refused
    else if 0 < o.attemptCount then .refused
    else if conflicts then .conflicting
    else .claimed
  | none => if conflicts then .conflicting else .claimed

/-- The operation after a claim. -/
def claimedRow (now : Time) (o : Operation) : Operation :=
  { o with
    status := .inProgress
    attemptCount := o.attemptCount + 1
    startedAt := some now
    errorCode := "" }

theorem claim_eq_claimed {existing : Option Operation} {conflicts : Bool} (h : claim existing conflicts = .claimed) :
    existing.elim 0 (·.attemptCount) = 0 := by
  unfold claim at h
  split at h
  · split at h
    · cases h
    split at h
    · cases h
    simp only [Option.elim]
    omega
  · rfl

end Apartments.Hostaway
