import Apartments.Lib.Table
import Apartments.Lib.Outcome
import Apartments.Models
import Apartments.Text

/-!
# The invitation registry (`loyalty/invitation_registry.py`)

Three callers invite guests to the loyalty programme over one registry: the n8n API, the owner's button and the paid morning
stays. `claim` reserves the row of a booking, `consume` hands out its one send permit and `record` keeps what the provider
reports. The owner's button keeps a second copy of its requests with the reservation. Every action is one transaction.
-/

namespace Apartments.Invitations

/-- A primary key of the user table. -/
abbrev User := ℕ

/-- `reservation_key`. -/
inductive Key
  | hostaway (id : ℕ)
  | site (booking : Uuid)
  | morning (stay : Uuid)
deriving DecidableEq

inductive Origin
  | n8n | website
deriving DecidableEq, Repr

def Origin.text : Origin → String
  | .n8n => "n8n"
  | .website => "website"

inductive Channel
  | whatsapp | email
deriving DecidableEq, Repr

/-- The states of a row, of which all but `claimed` are reported. -/
inductive State
  | claimed | blocked | queueFailed | unknown | failed | accepted | delivered | read
deriving DecidableEq, Repr

/-- A row of `JoinInvitation`. -/
structure JoinInvitation where
  pk : Uuid
  reservationKey : Key
  eventKey : String
  phone : String
  email : String
  phoneDigest : String
  emailDigest : String
  customer : Option User
  language : String
  source : String
  origin : Origin
  channel : Channel
  state : State
  generation : ℕ
  expiresAt : Time
  dispatchedAt : Option Time
  providerId : String
  outcomes : List (State × Time)
deriving DecidableEq

/-- Where a request of the owner is kept; the one receipt of a channel from before the requests has the empty identifier. -/
structure RequestId where
  booking : Uuid
  channel : Channel
  id : String
deriving DecidableEq

inductive RequestStatus
  | queued | sending | accepted | uncertain | unknown | delivered | read | blocked | queueFailed
deriving DecidableEq, Repr

/-- `IN_FLIGHT`. -/
def RequestStatus.inFlight (s : RequestStatus) : Bool := s != .blocked && s != .queueFailed

/-- A request of the owner in `loyalty_state`. -/
structure Request where
  id : RequestId
  status : RequestStatus
  requestedAt : Time
  phoneDigest : Option String
  recipientDigest : Option String
  sharedInvitation : Option Uuid
deriving DecidableEq

/-- What is read of a reservation; `customer` is the one of its booking intent. -/
structure Booking where
  pk : Uuid
  hostawayReservationId : Option ℕ
  directWebsite : Bool
  isTest : Bool
  closed : Bool
  customer : Option User
deriving DecidableEq

structure Registry where
  now : Time
  rows : List JoinInvitation
  requests : List Request
  bookings : List Booking
deriving DecidableEq

/-- `phone_hash`, the hash behind `recipient_hmac` and `keyed`. -/
structure Hashes where
  phone : String → String
  email : String → String
  keyed : String → String

namespace Hashes

variable (h : Hashes)

/-- `phone_digest`. -/
def phoneDigest (phone : String) : String := if phone = "" then "" else h.phone phone

/-- `recipient_hmac`. -/
def recipientHmac (email : String) : String := h.email (Text.casefold (Text.strip email))

/-- `email_digest`. -/
def emailDigest (email : String) : String := if email = "" then "" else h.recipientHmac email

end Hashes

inductive Failure
  | validation (code : String)
  | doesNotExist
  | integrity
deriving DecidableEq, Repr

namespace Registry

variable (w : Registry)

def row (pk : Uuid) : Option JoinInvitation := Table.get JoinInvitation.pk w.rows pk

def rowOf (key : Key) : Option JoinInvitation := Table.get JoinInvitation.reservationKey w.rows key

def request (id : RequestId) : Option Request := Table.get Request.id w.requests id

def booking (pk : Uuid) : Option Booking := Table.get Booking.pk w.bookings pk

def modifyRow (pk : Uuid) (f : JoinInvitation → JoinInvitation) : Registry :=
  { w with rows := Table.modify JoinInvitation.pk w.rows pk f }

def modifyRequest (id : RequestId) (f : Request → Request) : Registry :=
  { w with requests := Table.modify Request.id w.requests id f }

end Registry

/-- `booking_key`. -/
def bookingKey (b : Booking) : Key :=
  match b.hostawayReservationId with
  | some id => .hostaway id
  | none => .site b.pk

/-- What a caller names a booking by: its number at Hostaway or its primary key. -/
inductive Reference
  | hostaway (id : ℕ)
  | site (pk : Uuid)
deriving DecidableEq

/-- `canonical_booking`. -/
def canonicalBooking (w : Registry) : Reference → Except Failure (Key × Option Booking)
  | .hostaway id => .ok (.hostaway id, w.bookings.find? fun b => b.hostawayReservationId = some id)
  | .site pk => do
    let b ← found (w.booking pk) (.validation "reservation_not_found")
    return (bookingKey b, some b)

/-- The booking of a row, which `consume` looks up by its key. -/
def bookingOfKey (w : Registry) : Key → Except Failure (Option Booking)
  | .hostaway id => (canonicalBooking w (.hostaway id)).map (·.2)
  | .site pk => (canonicalBooking w (.site pk)).map (·.2)
  | .morning _ => .error (.validation "invalid_reservation_key")

section
variable (h : Hashes)

/-- `legacy_exists`. -/
def legacyExists (w : Registry) (key : Key) (phone email : String) (exclude : Option RequestId) : Bool :=
  w.requests.any fun q =>
    exclude != some q.id && q.status.inFlight &&
      ((w.booking q.id.booking).any (fun b => bookingKey b == key) ||
        (phone != "" && q.phoneDigest == some (h.phone phone)) ||
        (email != "" && q.recipientDigest == some (h.recipientHmac email)))

/-- A row that `competing` finds. -/
def matched (key : Key) (phone email : String) (customer : Option User) (r : JoinInvitation) : Bool :=
  r.reservationKey == key || (phone != "" && r.phoneDigest == h.phone phone) ||
    (email != "" && r.emailDigest == h.recipientHmac email) || (customer.isSome && r.customer == customer)

/-- A row that stands in the way of another. -/
def standing (now : Time) (r : JoinInvitation) : Bool :=
  r.state != .blocked && r.state != .queueFailed && !(r.state == .claimed && decide (r.expiresAt ≤ now))

/-- `competing`. -/
def competing (w : Registry) (key : Key) (phone email : String) (customer : Option User) (exclude : Option Uuid) : Bool :=
  w.rows.any fun r => exclude != some r.pk && matched h key phone email customer r && standing w.now r

/-! ### A claim -/

inductive Decision
  | eligible | member | phoneMissing | duplicate | blocked
deriving DecidableEq, Repr

/-- The arguments of `claim`. -/
structure Claim where
  key : Key
  phone : String
  email : String
  customer : Option User
  language : String
  eventId : String
  source : String
  origin : Origin
  channel : Channel
  excludeLegacy : Option RequestId
deriving DecidableEq

/-- `TTL`, in seconds. -/
def ttl : Time := 300

def Claim.eventKey (c : Claim) : String := h.keyed (c.origin.text ++ ":" ++ c.source ++ ":" ++ c.eventId)

/-- The row of the booking may be claimed again. -/
def reclaimable (now : Time) (eventKey : String) (r : JoinInvitation) : Bool :=
  r.state == .blocked || r.state == .queueFailed ||
    (r.state == .claimed && (decide (r.expiresAt ≤ now) || r.eventKey == eventKey))

/-- The row as it is claimed again. -/
def renewed (now : Time) (c : Claim) (r : JoinInvitation) : JoinInvitation :=
  { r with
    phone := c.phone
    email := c.email
    phoneDigest := h.phoneDigest c.phone
    emailDigest := h.emailDigest c.email
    customer := c.customer
    language := c.language
    eventKey := c.eventKey h
    source := c.source
    origin := c.origin
    channel := c.channel
    state := .claimed
    expiresAt := now + ttl
    generation := r.generation + 1 }

/-- The row of a first claim. -/
def newRow (pk : Uuid) (now : Time) (c : Claim) : JoinInvitation where
  pk := pk
  reservationKey := c.key
  eventKey := c.eventKey h
  phone := c.phone
  email := c.email
  phoneDigest := h.phoneDigest c.phone
  emailDigest := h.emailDigest c.email
  customer := c.customer
  language := c.language
  source := c.source
  origin := c.origin
  channel := c.channel
  state := .claimed
  generation := 1
  expiresAt := now + ttl
  dispatchedAt := none
  providerId := ""
  outcomes := []

/-- `claim`: the decision, its row and the registry. `isMember` is the answer of `member_exists`, `pk` the key of a new row. -/
def claim (w : Registry) (isMember : Bool) (pk : Uuid) (c : Claim) :
    Except Failure (Decision × Option Uuid × Registry) :=
  let row := w.rowOf c.key
  if w.rows.any fun r => r.eventKey == c.eventKey h && r.reservationKey != c.key then .error (.validation "event_conflict")
  else if isMember then .ok (.member, row.map (·.pk), w)
  else if c.phone = "" ∧ c.channel = .whatsapp then .ok (.phoneMissing, row.map (·.pk), w)
  else if row.any fun r => !reclaimable w.now (c.eventKey h) r then .ok (.duplicate, row.map (·.pk), w)
  else if competing h w c.key c.phone c.email c.customer (row.map (·.pk)) then .ok (.duplicate, none, w)
  else if legacyExists h w c.key c.phone c.email c.excludeLegacy then .ok (.duplicate, row.map (·.pk), w)
  else
    match row with
    | some r =>
      if r.state = .claimed ∧ r.eventKey = c.eventKey h ∧ w.now < r.expiresAt then
        if r.phone ≠ c.phone ∨ r.email ≠ c.email ∨ r.language ≠ c.language then
          .error (.validation "event_payload_conflict")
        else .ok (.eligible, some r.pk, w)
      else .ok (.eligible, some r.pk, w.modifyRow r.pk (renewed h w.now c))
    | none =>
      if (w.row pk).isSome then .error .integrity
      else .ok (.eligible, some pk, { w with rows := w.rows ++ [newRow h pk w.now c] })

/-! ### The send permit -/

/-- What a ticket proves, and whether its signature is good and young enough. -/
structure Ticket where
  good : Bool
  id : Uuid
  phone : String
  generation : ℕ
deriving DecidableEq

/-- The paid morning stay a permit is for; `verified` is that it is paid, verified and not over, in production. -/
structure MorningStay where
  pk : Uuid
  verified : Bool
deriving DecidableEq

/-- The arguments of `consume`. -/
structure Consumption where
  row : Uuid
  phone : String
  proof : Option Ticket
  excludeLegacy : Option RequestId
  morningStay : Option MorningStay
deriving DecidableEq

/-- A booking that the n8n API invites nobody for. -/
def Booking.excluded (b : Booking) : Bool := b.directWebsite || b.isTest || b.closed

def Ticket.fits (t : Ticket) (r : JoinInvitation) : Bool :=
  t.id == r.pk && t.phone == r.phoneDigest && t.generation == r.generation

/-- The booking whose customer counts, if the permit may be asked for. -/
def consumeBooking (w : Registry) (c : Consumption) (r : JoinInvitation) : Except Failure (Option Booking) := do
  raiseIf (c.proof.any fun t => !t.good) (.validation "ticket_invalid_or_expired")
  raiseIf (c.proof.any fun t => !t.fits r) (.validation "ticket_mismatch")
  raiseIf (r.phone ≠ c.phone) (.validation "phone_changed")
  match c.morningStay with
  | some stay =>
    raiseIf (!stay.verified ∨ r.reservationKey ≠ .morning stay.pk) (.validation "morning_payment_not_verified")
    return none
  | none => bookingOfKey w r.reservationKey

def setState (state : State) (r : JoinInvitation) : JoinInvitation := { r with state := state }

/-- The row when its permit is handed out. -/
def dispatched (now : Time) (r : JoinInvitation) : JoinInvitation :=
  { r with state := .unknown, dispatchedAt := some now }

/-- `consume`; `isMember` is the answer of `member_exists`. -/
def consume (w : Registry) (isMember : Bool) (c : Consumption) : Except Failure (Decision × Registry) := do
  let r ← found (w.row c.row) .doesNotExist
  let booking ← consumeBooking w c r
  if isMember then
    return (.member, if r.state = .claimed then w.modifyRow r.pk (setState .blocked) else w)
  else if r.state ≠ .claimed then return (.duplicate, w)
  else if r.origin = .n8n ∧ booking.any Booking.excluded then
    return (.blocked, w.modifyRow r.pk (setState .blocked))
  else if r.expiresAt ≤ w.now then .error (.validation "claim_expired")
  else if competing h w r.reservationKey r.phone r.email r.customer (some r.pk) ||
      legacyExists h w r.reservationKey r.phone r.email c.excludeLegacy then
    return (.duplicate, w.modifyRow r.pk (setState .blocked))
  else return (.eligible, w.modifyRow r.pk (dispatched w.now))

/-! ### The reports -/

/-- The rank of a state that is reported. -/
def rank : State → ℕ
  | .accepted => 1
  | .delivered => 2
  | .read => 3
  | .claimed | .blocked | .queueFailed | .unknown | .failed => 0

/-- The row with a report. -/
def reported (now : Time) (state : State) (providerId : String) (r : JoinInvitation) : JoinInvitation :=
  { r with
    outcomes := if state ∈ r.outcomes.map (·.1) then r.outcomes else r.outcomes ++ [(state, now)]
    state := if rank r.state ≤ rank state then state else r.state
    providerId := if r.providerId = "" then providerId else r.providerId }

/-- `record`. -/
def record (w : Registry) (pk : Uuid) (state : State) (providerId : String) : Except Failure Registry := do
  let r ← found (w.row pk) .doesNotExist
  raiseIf (state = .claimed) (.validation "invalid_status")
  raiseIf ((state = .accepted ∨ state = .delivered ∨ state = .read) ∧ r.origin = .n8n ∧ providerId = "")
    (.validation "provider_id_required")
  raiseIf (r.providerId ≠ "" ∧ providerId ≠ "" ∧ r.providerId ≠ providerId) (.validation "provider_id_conflict")
  raiseIf (r.dispatchedAt = none ∧ state ≠ .queueFailed ∧ state ≠ .blocked) (.validation "preflight_required")
  return w.modifyRow pk (reported w.now state providerId)

/-! ### The callers -/

/-- What a transaction leaves, the row for which a claim was eligible and the one whose permit was handed out. -/
structure Outcome where
  registry : Registry
  claimed : Option Uuid
  permitted : Option Uuid
deriving DecidableEq

def Outcome.quiet (w : Registry) : Outcome := ⟨w, none, none⟩

/-- What the n8n API is asked to claim. -/
structure Application where
  reference : Reference
  phone : String
  email : String
  language : String
  source : String
  eventId : String
deriving DecidableEq

/-- `claim` of the n8n API. -/
def apiClaim (w : Registry) (isMember : Bool) (pk : Uuid) (a : Application) : Except Failure Outcome := do
  let (key, booking) ← canonicalBooking w a.reference
  if booking.any Booking.excluded then return .quiet w
  else
    let (decision, row, w) ← claim h w isMember pk {
      key := key
      phone := a.phone
      email := Text.casefold (Text.strip a.email)
      customer := booking.bind (·.customer)
      language := a.language
      eventId := a.eventId
      source := a.source
      origin := .n8n
      channel := .whatsapp
      excludeLegacy := none }
    return ⟨w, if decision = .eligible then row else none, none⟩

/-- A row that the n8n API reaches. -/
def apiRow (w : Registry) (pk : Uuid) : Except Failure JoinInvitation := do
  let r ← found (w.row pk) .doesNotExist
  raiseIf (r.origin ≠ .n8n) .doesNotExist
  return r

/-- `preflight`. -/
def preflight (w : Registry) (isMember : Bool) (pk : Uuid) (ticket : Ticket) (phone : String) :
    Except Failure Outcome := do
  let _ ← apiRow w pk
  let (decision, w) ← consume h w isMember ⟨pk, phone, some ticket, none, none⟩
  return ⟨w, none, if decision = .eligible then some pk else none⟩

/-- The states that the n8n API reports. -/
def apiStates : List State := [.accepted, .unknown, .delivered, .read, .failed]

/-- `record` of the n8n API. -/
def apiRecord (w : Registry) (pk : Uuid) (state : State) (providerId : String) : Except Failure Outcome := do
  raiseIf (state ∉ apiStates) (.validation "invalid_status")
  let _ ← apiRow w pk
  return .quiet (← record w pk state providerId)

/-- `_target`, as far as the registry uses it. -/
structure Target where
  phone : String
  email : String
  customer : Option User
  language : String
deriving DecidableEq

/-- The claim of an owner's request. -/
def websiteClaim (b : Booking) (t : Target) (eventId : String) (channel : Channel) (exclude : Option RequestId) :
    Claim where
  key := bookingKey b
  phone := t.phone
  email := t.email
  customer := t.customer
  language := t.language
  eventId := eventId
  source := "website-manual"
  origin := .website
  channel := channel
  excludeLegacy := exclude

/-- A new request of the owner. -/
def newRequest (now : Time) (id : RequestId) (t : Target) (shared : Option Uuid) : Request where
  id := id
  status := .queued
  requestedAt := now
  phoneDigest := if id.channel = .whatsapp then some (h.phone t.phone) else none
  recipientDigest := if id.channel = .email then some (h.recipientHmac t.email) else none
  sharedInvitation := shared

/-- `queue_booking_invitation`; `issued` says that its confirmation is good and the offer is issued. -/
def queue (w : Registry) (isMember : Bool) (pk : Uuid) (id : RequestId) (t : Target) (issued : Bool) :
    Except Failure Outcome := do
  let b ← found (w.booking id.booking) .doesNotExist
  if (w.request id).isSome then return .quiet w
  else
    let (decision, row, w) ← claim h w isMember pk (websiteClaim b t id.id id.channel none)
    raiseIf (decision ≠ .eligible ∨ issued = false) (.validation "invitation_refused")
    return ⟨{ w with requests := w.requests ++ [newRequest h w.now id t row] }, row, none⟩

def setStatus (status : RequestStatus) (q : Request) : Request := { q with status := status }

/-- `_finish`: a request in the expected status takes another, which is reported for its row. -/
def finish (w : Registry) (id : RequestId) (expected status : RequestStatus) (state : State) (providerId : String) :
    Except Failure Outcome :=
  match w.request id with
  | none => .ok (.quiet w)
  | some q =>
    if q.status ≠ expected then .ok (.quiet w)
    else do
      let w := w.modifyRequest id (setStatus status)
      match q.sharedInvitation with
      | none => return .quiet w
      | some shared => return .quiet (← record w shared state providerId)

/-- What `deliver_booking_invitation` finds: `sound` is that operator, target and age of the request are good, `content`
that the message is built. -/
structure Delivery where
  target : Target
  sound : Bool
  content : Bool
deriving DecidableEq

/-- The request is blocked, with what was claimed for it before. -/
def blockRequest (w : Registry) (id : RequestId) (claimed : Option Uuid) : Outcome :=
  ⟨w.modifyRequest id (setStatus .blocked), claimed, none⟩

/-- The permit of a request with a row. -/
def permit (w : Registry) (isMember : Bool) (id : RequestId) (d : Delivery) (claimed : Option Uuid) (shared : Uuid) :
    Except Failure Outcome :=
  if d.content = false then .ok (blockRequest w id claimed)
  else
    match consume h w isMember ⟨shared, d.target.phone, none, some id, none⟩ with
    | .ok (.eligible, w) => .ok ⟨w.modifyRequest id (setStatus .sending), claimed, some shared⟩
    | .ok (_, w) => .ok (blockRequest w id claimed)
    | .error (.validation _) => .ok (blockRequest w id claimed)
    | .error failure => .error failure

def share (row : Option Uuid) (q : Request) : Request := { q with sharedInvitation := row }

/-- `deliver_booking_invitation`, up to the message. -/
def deliver (w : Registry) (isMember : Bool) (pk : Uuid) (id : RequestId) (d : Delivery) : Except Failure Outcome := do
  let b ← found (w.booking id.booking) .doesNotExist
  match w.request id with
  | none => return .quiet w
  | some q =>
    if q.status ≠ .queued then return .quiet w
    else if d.sound = false then return blockRequest w id none
    else
      match q.sharedInvitation with
      | some shared => permit h w isMember id d none shared
      | none =>
        let eventId := if id.id = "" then b.pk.str else id.id
        match claim h w isMember pk (websiteClaim b d.target eventId id.channel (some id)) with
        | .ok (.eligible, some row, w) =>
          permit h (w.modifyRequest id (share (some row))) isMember id d (some row) row
        | .ok (_, _, w) => return blockRequest w id none
        | .error (.validation _) => return blockRequest w id none
        | .error failure => .error failure

/-- The paid stay that `invite` is asked for. -/
structure Invited where
  stay : MorningStay
  phone : String
  email : String
  language : String
deriving DecidableEq

/-- `invite`, up to the message. -/
def invite (w : Registry) (isMember : Bool) (pk : Uuid) (i : Invited) : Except Failure Outcome := do
  let (decision, row, w) ← claim h w isMember pk {
    key := .morning i.stay.pk
    phone := i.phone
    email := i.email
    customer := none
    language := i.language
    eventId := "morning07:" ++ i.stay.pk.str ++ ":paid-invitation-v1"
    source := "morning07"
    origin := .website
    channel := .whatsapp
    excludeLegacy := none }
  match decision, row with
  | .eligible, some row =>
    let (decision, w) ← consume h w isMember ⟨row, i.phone, none, none, some i.stay⟩
    return ⟨w, some row, if decision = .eligible then some row else none⟩
  | _, _ => return .quiet w

/-- What the provider says to a morning invitation. -/
def morningStates : List State := [.accepted, .failed, .unknown]

/-- The report of `invite`. -/
def inviteReport (w : Registry) (pk : Uuid) (state : State) (providerId : String) : Except Failure Outcome := do
  let r ← found (w.row pk) .doesNotExist
  match r.reservationKey with
  | .morning _ =>
    raiseIf (state ∉ morningStates) (.validation "invalid_status")
    return .quiet (← record w pk state providerId)
  | .hostaway _ | .site _ => return .quiet w

inductive Action
  | tick (seconds : ℕ)
  | apiClaim (isMember : Bool) (pk : Uuid) (application : Application)
  | preflight (isMember : Bool) (pk : Uuid) (ticket : Ticket) (phone : String)
  | apiRecord (pk : Uuid) (state : State) (providerId : String)
  | queue (isMember : Bool) (pk : Uuid) (id : RequestId) (target : Target) (issued : Bool)
  | queueFailed (id : RequestId)
  | deliver (isMember : Bool) (pk : Uuid) (id : RequestId) (delivery : Delivery)
  | accepted (id : RequestId) (providerId : String)
  | uncertain (id : RequestId)
  | invite (isMember : Bool) (pk : Uuid) (invited : Invited)
  | inviteReport (pk : Uuid) (state : State) (providerId : String)
  | linked (booking : Uuid) (hostawayReservationId : ℕ)
  | moved (booking : Uuid) (directWebsite isTest closed : Bool) (customer : Option User)
deriving DecidableEq

/-- The booking gets its number at Hostaway, which it keeps. -/
def link (id : ℕ) (b : Booking) : Booking :=
  { b with hostawayReservationId := some (b.hostawayReservationId.getD id) }

def act (w : Registry) : Action → Except Failure Outcome
  | .tick seconds => .ok (.quiet { w with now := w.now + seconds })
  | .apiClaim isMember pk application => Invitations.apiClaim h w isMember pk application
  | .preflight isMember pk ticket phone => Invitations.preflight h w isMember pk ticket phone
  | .apiRecord pk state providerId => Invitations.apiRecord w pk state providerId
  | .queue isMember pk id target issued => Invitations.queue h w isMember pk id target issued
  | .queueFailed id => finish w id .queued .queueFailed .queueFailed ""
  | .deliver isMember pk id delivery => Invitations.deliver h w isMember pk id delivery
  | .accepted id providerId => finish w id .sending .accepted .accepted providerId
  | .uncertain id => finish w id .sending .uncertain .unknown ""
  | .invite isMember pk invited => Invitations.invite h w isMember pk invited
  | .inviteReport pk state providerId => Invitations.inviteReport w pk state providerId
  | .linked pk id => .ok (.quiet { w with bookings := Table.modify Booking.pk w.bookings pk (link id) })
  | .moved pk directWebsite isTest closed customer =>
    .ok (.quiet { w with bookings := Table.modify Booking.pk w.bookings pk fun b =>
      { b with directWebsite := directWebsite, isTest := isTest, closed := closed, customer := customer } })

/-- The registry after an action; a failure rolls back. -/
def step (w : Registry) (a : Action) : Registry :=
  match act h w a with
  | .ok o => o.registry
  | .error _ => w

/-- The row whose permit an action hands out. -/
def permitted (w : Registry) (a : Action) : Option Uuid :=
  match act h w a with
  | .ok o => o.permitted
  | .error _ => none

/-- The rows that an action answers eligible for, from a claim or from a permit. -/
def eligible (w : Registry) (a : Action) : List Uuid :=
  match act h w a with
  | .ok o => o.claimed.toList ++ o.permitted.toList
  | .error _ => []

end

end Apartments.Invitations
