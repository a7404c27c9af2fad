import Apartments.Hostaway.Booking
import Apartments.Lib.Table

/-!
# The rows of the loyalty programme (`loyalty/models.py`, `Reservation.loyalty_state`)

Members, the referral links with their revisions, the ledger and the bookings with their loyalty state, a missing
key of the JSON being `none`. A ledger row is referred to by its sequence, which is as unique as its primary key.
-/

namespace Apartments.Loyalty

open Payments Hostaway

/-- A primary key of the user table. -/
abbrev User := ℕ

/-- The constraints of the tables that a loyalty operation writes. -/
inductive Constraint
  | sequence | operationNumber | operationBranch | businessEvent | onePostingSide | negativeCorrectionOnly
  | treeNumber | childBranch | rootBranch | selfReferral | linkOnce
deriving DecidableEq, Repr

/-- The exceptions of the loyalty code. -/
inductive Refusal
  | permission (text : String)
  | validation (text : String)
  | value (text : String)
  | doesNotExist
  | attribute
  | integrity (constraint : Constraint)
  | overflow
deriving DecidableEq

inductive MemberStatus
  | active | withdrawn
deriving DecidableEq, Repr

inductive Component
  | loyalty | directReferral | indirectReferral | transferOut | transferIn | redemption | restore | closing
deriving DecidableEq, Repr

inductive EventType
  | earn | adjust | transfer | redeem | restore | withdraw
deriving DecidableEq, Repr

inductive OperationType
  | loyalty | addition | transfer | directReferral | indirectReferral
deriving DecidableEq, Repr

/-! ### Facts of a booking -/

/-- `facts["owner_past_stay_offer_v1"]`. -/
structure OfferFacts where
  requestId : String
  beneficiary : User
deriving DecidableEq

/-- The facts `booking_facts` reads from the site records, as far as a settlement uses them. -/
structure Facts where
  base : Dec
  total : Dec
  cash : Dec
  refunded : Dec
  points : Dec
  checkIn : Time
  checkOut : Time
  arrivalAt : Option Time
  arrivalReference : String
  accrualEligibility : Option String
  stayException : Bool
  offer : Option OfferFacts
deriving DecidableEq

/-- What is hashed: the payload of a command, or the facts of a settlement. -/
inductive Payload
  | transfer (recipient : String) (value : Dec)
  | transferred (recipient : String) (value : Dec)
  | hold (reservation : Uuid) (value : Dec)
  | release (reservation : Uuid)
  | redeem (reservation : Uuid)
  | withdraw
  | facts (facts : Facts)
deriving DecidableEq

/-- What a command answers. -/
inductive Reply
  | transfer (group : String) (value : Dec)
  | hold (value : Dec) (reservation : Uuid)
  | value (value : Dec)
  | withdrawn (forfeited : Option Dec)
deriving DecidableEq

/-- An entry of `command_receipts`. -/
structure Receipt where
  hash : String
  result : Reply
deriving DecidableEq

/-! ### Members and links -/

structure Member where
  pk : ℕ
  customer : User
  number : String
  status : MemberStatus
  invitationToken : Option String
  commandReceipts : List (String × Receipt)
deriving DecidableEq

structure Referral where
  member : ℕ
  inviter : Option ℕ
  root : ℕ
  treeNumber : String
  depth : ℕ
  branchOrder : ℕ
deriving DecidableEq

structure ReferralRevision where
  member : ℕ
  inviter : ℕ
  root : ℕ
  treeNumber : String
  depth : ℕ
  branchOrder : ℕ
  operation : Uuid
  linkedMember : ℕ
  operator : User
  reason : String
deriving DecidableEq

/-! ### The ledger -/

/-- `event_reference`, from which the text is built. -/
inductive Event
  | settle (booking : Uuid) (revision : ℕ)
  | transfer (sender : ℕ) (request : String)
  | redeem (booking : Uuid)
  | restore (booking : Uuid) (cents : ℕ)
  | withdraw (member : ℕ)
deriving DecidableEq

def Event.reference : Event → String
  | .settle booking revision => "settle:" ++ booking.str ++ ":" ++ revision.repr
  | .transfer sender request => "transfer:" ++ sender.repr ++ ":" ++ request
  | .redeem booking => "redeem:" ++ booking.str
  | .restore booking cents => "restore:" ++ booking.str ++ ":" ++ Dec.centsStr cents
  | .withdraw member => "withdraw:" ++ member.repr

/-- `evidence` of a ledger row. -/
inductive Evidence
  | none
  | requestHash (hash : String)
  | reference (text : String)
  | facts (facts : Facts)
deriving DecidableEq

/-- The columns that only a settlement fills. -/
structure RewardTerms where
  bookingTotal : Dec
  eligibleLodging : Dec
  verifiedCash : Dec
  refundedCash : Dec
  pointsUsed : Dec
  settlementRevision : ℕ
  directInviter : Option ℕ
  beneficiaryDistance : ℕ
  olderInviterCount : ℕ
  allocationNumerator : ℕ
  allocationDenominator : ℕ
  ratePercent : ℕ
deriving DecidableEq

/-- A row of `Ledger`. -/
structure Row where
  sequence : ℕ
  operationNumber : String
  operationGroup : String
  branch : ℕ
  member : ℕ
  customer : User
  membershipNumber : String
  treeNumber : String
  credit : Dec
  debit : Dec
  memberBalanceAfter : Dec
  programBalanceAfter : Dec
  reservation : Option Uuid
  operationType : OperationType
  eventType : EventType
  component : Component
  event : Event
  original : Option ℕ
  counterpart : Option ℕ
  requestReference : String
  terms : Option RewardTerms
  reason : String
  evidence : Evidence
deriving DecidableEq

def Row.eventReference (r : Row) : String := r.event.reference

/-! ### Bookings -/

/-- `loyalty_state["hold"]`. -/
structure Hold where
  value : Dec
  member : ℕ
  request : String
deriving DecidableEq

/-- `loyalty_state["redemption"]`. -/
structure Redemption where
  value : Dec
  original : ℕ
  restored : Dec
deriving DecidableEq

/-- `loyalty_state["settlement"]`. -/
structure Settlement where
  revision : ℕ
  hash : String
  facts : Facts
deriving DecidableEq

/-- `loyalty_state["review"]`. -/
inductive Review
  | blocked (reason : String)
  | processingError (exception : Refusal)
deriving DecidableEq

/-- `loyalty_state["departure_settlement"]`. -/
structure Departure where
  reference : String
  cashRefund : Dec
  pointsRefund : Dec
deriving DecidableEq

/-- The signed offer under `loyalty_state["owner_past_stay_offer_v1"]`. -/
structure Offer where
  requestId : String
  phone : String
  customer : Option User
deriving DecidableEq

/-- `Reservation.loyalty_state`. -/
structure LoyaltyState where
  hold : Option Hold
  redemption : Option Redemption
  settlement : Option Settlement
  referralChain : Option (List ℕ)
  review : Option Review
  scheduledAccrual : Option String
  checkoutFrozen : Bool
  pointsConfirmationStarted : Bool
  departureSettlement : Option Departure
  identityMatch : Option User
  offer : Option Offer
deriving DecidableEq

def LoyaltyState.empty : LoyaltyState := ⟨none, none, none, none, none, none, false, false, none, none, none⟩

/-- A reservation as the loyalty code reads it; `customer` is the customer of its booking intent and `attempts`
are the statuses of the payment attempts of that intent. -/
structure Booking where
  pk : Uuid
  customer : Option User
  sourceType : SourceType
  normalizedStatus : ReservationStatus
  createdAt : Time
  attempts : List PaymentStatus
  loyaltyState : LoyaltyState
deriving DecidableEq

/-- `Reservation.ACTIVE_STATUSES`. -/
def Booking.isActive (b : Booking) : Bool := b.normalizedStatus == .confirmed || b.normalizedStatus == .modified

/-! ### The tables -/

structure World where
  members : List Member
  referrals : List Referral
  revisions : List ReferralRevision
  bookings : List Booking
  ledger : List Row
deriving DecidableEq

namespace World

variable (w : World)

def member (pk : ℕ) : Option Member := Table.get Member.pk w.members pk

/-- The member of a customer, of whom there is at most one. -/
def memberOf (customer : User) : Option Member := Table.get Member.customer w.members customer

def booking (pk : Uuid) : Option Booking := Table.get Booking.pk w.bookings pk

def row (sequence : ℕ) : Option Row := Table.get Row.sequence w.ledger sequence

def modifyMember (pk : ℕ) (f : Member → Member) : World :=
  { w with members := Table.modify Member.pk w.members pk f }

def putState (pk : Uuid) (state : LoyaltyState) : World :=
  { w with bookings := Table.modify Booking.pk w.bookings pk fun b => { b with loyaltyState := state } }

/-- `_save_booking`: only the loyalty state of the object is written. -/
def saveBooking (booking : Booking) : World := w.putState booking.pk booking.loyaltyState

def setCustomer (pk : Uuid) (customer : User) : World :=
  { w with bookings := Table.modify Booking.pk w.bookings pk fun b => { b with customer := some customer } }

end World

end Apartments.Loyalty
