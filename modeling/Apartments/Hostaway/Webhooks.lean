import Apartments.Hostaway.Modifications

/-!
# Webhooks of the channel manager (`integrations/hostaway/webhook_processor.py`)

What `sync_reservation_snapshot` writes. A snapshot that does not pass `full_clean` is an event that does not
happen; the property that `_match_property` finds is part of the event.
-/

namespace Apartments.Hostaway

/-- `source_type_from_snapshot`. -/
def sourceTypeFromSnapshot (source : String) : SourceType :=
  let source := Text.casefold source
  if source ∈ ["manual", "hostaway", "hostawaymanual"] then .hostawayManual
  else if source ∈ ["luxurysmartapartments", "direct", "bookingengine"] then .directWebsite
  else if source ≠ "" then .externalChannel
  else .unknown

/-- `Reservation.ACTIVE_STATUSES`. -/
def isActive (status : ReservationStatus) : Bool := status == .confirmed || status == .modified

/-- `Reservation.CLOSED_STATUSES`. -/
def isClosed (status : ReservationStatus) : Bool := status == .cancelled || status == .declined || status == .expired

/-- The snapshot is older than what the row was last written from. -/
def isStale (r : Reservation) (s : Snapshot) : Bool :=
  match r.sourceUpdatedAt, s.updatedAt with
  | some written, some updated => updated < written
  | _, _ => false

/-- What a snapshot brings besides the stay, and when it is processed. -/
structure Delivery where
  property : Option Property
  source : String
  now : Time
deriving DecidableEq

/-- The row that `sync_reservation_snapshot` leaves. -/
def syncedRow (d : Delivery) (s : Snapshot) (r : Reservation) : Reservation :=
  let status := normalizeStatus s.status
  { r with
    property := if r.property.isNone then d.property else r.property
    hostawayListingMapId := some s.listingMapId
    channelId := s.channelId
    sourceType := if r.bookingIntent.isNone then sourceTypeFromSnapshot d.source else r.sourceType
    hostawayStatus := s.status
    normalizedStatus := status
    paymentStatus := mergePaymentStatus r.paymentStatus s.paymentStatus
    checkIn := s.checkIn
    checkOut := s.checkOut
    guests := s.guests
    currency := s.currency
    totalPrice := s.totalPrice
    sourceUpdatedAt := s.updatedAt
    lastSyncedAt := some d.now
    confirmedAt :=
      if isActive status then some (r.confirmedAt.getD d.now) else if isClosed status then none else r.confirmedAt
    cancelledAt :=
      if isActive status then none else if isClosed status then some (r.cancelledAt.getD d.now) else r.cancelledAt }

/-- The row that is made for a stay that no row carries; its fields have the defaults of the model. -/
def newRow (pk : Uuid) (s : Snapshot) : Reservation where
  pk := pk
  isTest := false
  bookingIntent := none
  property := none
  hostawayReservationId := some s.reservationId
  hostawayListingMapId := none
  channelId := none
  sourceType := .unknown
  normalizedStatus := .unknown
  hostawayStatus := ""
  paymentStatus := ""
  checkIn := s.checkIn
  checkOut := s.checkOut
  guests := s.guests
  currency := s.currency
  totalPrice := s.totalPrice
  sourceUpdatedAt := none
  lastSyncedAt := none
  confirmedAt := none
  cancelledAt := none
  pointsConfirmationStarted := false
  hold := false

/-- `_reconcile_modification_requests` on one request. -/
def reconcile (s : Snapshot) (now : Time) (m : ModificationRequest) : ModificationRequest :=
  if (m.status == .readyForHostaway || m.status == .processing || m.status == .unknown) && snapshotMatches m s then
    { m with status := .completed, completedAt := some now }
  else m

/-- `sync_reservation_snapshot` for the reservation of a board. -/
def syncReservation (b : Board) (d : Delivery) (s : Snapshot) : Board :=
  if b.reservation.hostawayReservationId ≠ some s.reservationId ∨ isStale b.reservation s then b
  else
    { reservation := syncedRow d s b.reservation
      requests := if b.reservation.bookingIntent.isNone then b.requests else b.requests.map (reconcile s d.now) }

@[simp] theorem syncedRow_pk (d : Delivery) (s : Snapshot) (r : Reservation) : (syncedRow d s r).pk = r.pk := rfl

@[simp] theorem syncedRow_bookingIntent (d : Delivery) (s : Snapshot) (r : Reservation) :
    (syncedRow d s r).bookingIntent = r.bookingIntent := rfl

@[simp] theorem syncedRow_hostawayReservationId (d : Delivery) (s : Snapshot) (r : Reservation) :
    (syncedRow d s r).hostawayReservationId = r.hostawayReservationId := rfl

theorem normalizeStatus_ne_creating (status : String) : normalizeStatus status ≠ .creating := by
  have hmap : ∀ p ∈ statusMap, p.2 ≠ ReservationStatus.creating := by decide
  unfold normalizeStatus
  cases h : statusMap.lookup (Text.casefold (Text.strip status)) with
  | none => exact nofun
  | some value =>
    obtain ⟨l₁, l₂, hl, -⟩ := List.lookup_eq_some_iff.1 h
    exact hmap (Text.casefold (Text.strip status), value) (by simp [hl])

end Apartments.Hostaway
