import Apartments.HyperPay.Service
import Apartments.Hostaway.Modifications
import Mathlib.Data.List.Sort

/-!
# Payment links of a stay (`payment_links.py`, `payment_link_revisions.py`, `offline_receipts.py`)

`Folio` is a reservation with everything its payment links are decided from: its change requests, the snapshot of its
booking intent, its payments, receipt and refunds, and its payment requests. Each function below is one transaction on
it, or the checks of one. A digest is compared and never read back, so it is kept as the data it is taken of. What a
transaction asks of other services (the balance of a change, its exchange rate, the state Hostaway shows) is an argument.
-/

namespace Apartments.Links

open Payments HyperPay Hostaway

inductive Environment
  | test | production
deriving DecidableEq, Repr

structure LinkSettings where
  linksEnabled : Bool
  hyperpayEnabled : Bool
  environment : Environment
deriving DecidableEq

/-- An exchange-rate snapshot; `converted` is what its rates make of its source amount. -/
structure FxSnapshot where
  sourceCurrency : String
  sourceAmount : Option Dec
  paymentAmountSar : Option Dec
  paymentCurrency : String
  converted : Option Dec
deriving DecidableEq

/-- The snapshot of a booking intent. -/
structure BookingIntent where
  pk : Uuid
  totalPrice : Dec
  currency : String
  property : Option ℕ
  checkIn : ℕ
  checkOut : ℕ
  guests : ℕ
  paymentAmountSar : Option Dec
  exchangeRateSnapshot : FxSnapshot
  guestEmail : String
  guestPhone : String
  guestFirstName : String
  guestLastName : String
  language : String
deriving DecidableEq

/-- The data of `fingerprint`. -/
structure Fingerprint where
  reservation : Uuid
  intent : Uuid
  hostaway : Option ℕ
  listing : Option ℕ
  property : Option ℕ
  isTest : Bool
  arrival : ℕ
  departure : ℕ
  guests : ℕ
  total : Dec
  currency : String
  amount : Option Dec
  fx : FxSnapshot
  email : String
  phone : String
  first : String
  last : String
  language : String
deriving DecidableEq

/-- A payment in `financial_signature`. -/
structure PaymentLine where
  pk : Uuid
  amount : Dec
  currency : String
  status : PaymentStatus
  verifiedAt : Option Time
  providerPaymentId : Option String
deriving DecidableEq

/-- A refund in `financial_signature`. -/
structure RefundLine where
  pk : Uuid
  amount : Dec
  currency : String
  status : RefundStatus
deriving DecidableEq

/-- The data of `financial_signature`. -/
structure FinancialSignature where
  payments : List PaymentLine
  receipt : Option OfflinePaymentReceipt
  refunds : List RefundLine
  redemption : String
deriving DecidableEq

/-- The data of `modification_signature`. -/
structure ModificationSignature where
  pk : Uuid
  newCheckIn : Option ℕ
  newCheckOut : Option ℕ
  newGuests : Option ℕ
  newTotal : Option Dec
  currency : String
  ownerFinalTotal : Option Dec
deriving DecidableEq

/-- `settlement_snapshot` of a reviewed balance. -/
structure SettlementSnapshot where
  total : Option Dec
  paid : Dec
  due : Dec
  financialSignature : FinancialSignature
  modificationSignature : ModificationSignature
  baseline : Fingerprint
  fx : FxSnapshot
deriving DecidableEq

inductive LinkStatus
  | draft | open | paid | revoked | review
deriving DecidableEq, Repr

/-- A row of `ReservationPaymentRequest`. -/
structure PaymentRequest where
  pk : Uuid
  reservation : Uuid
  modificationRequest : Option Uuid
  linkAnchor : Option Uuid
  supersededBy : Option Uuid
  settlementSnapshot : Option SettlementSnapshot
  approvedAt : Option Time
  amountSar : Dec
  sourceAmount : Dec
  sourceCurrency : String
  fingerprint : Fingerprint
  environment : Environment
  status : LinkStatus
  expiresAt : Option Time
  paidAt : Option Time
  reviewCode : String
  createdAt : Time
deriving DecidableEq

/-- `redemption` is the text of `loyalty_state["redemption"]`. -/
structure Folio where
  board : Board
  intent : Option BookingIntent
  desk : Desk
  redemption : String
  requests : List PaymentRequest
deriving DecidableEq

namespace Folio

def reservation (f : Folio) : Reservation := f.board.reservation

def request (f : Folio) (pk : Uuid) : Option PaymentRequest := Table.get PaymentRequest.pk f.requests pk

def modify (f : Folio) (pk : Uuid) (g : PaymentRequest → PaymentRequest) : Folio :=
  { f with requests := Table.modify PaymentRequest.pk f.requests pk g }

end Folio

def isSettled (s : PaymentStatus) : Bool := s == .succeeded || s == .partiallyRefunded || s == .refunded

def isUnresolved (s : PaymentStatus) : Bool := s == .created || s == .pending || s == .unknown || s == .review

/-- `require_enabled`. -/
def enabled (s : LinkSettings) : Bool := s.linksEnabled && s.hyperpayEnabled

/-- The environment in which a reservation is paid. -/
def environmentOf (isTest : Bool) : Environment := if isTest then .test else .production

/-- `fingerprint`. -/
def fingerprint (r : Reservation) (i : BookingIntent) : Fingerprint where
  reservation := r.pk
  intent := i.pk
  hostaway := r.hostawayReservationId
  listing := r.hostawayListingMapId
  property := r.property.map (·.pk)
  isTest := r.isTest
  arrival := r.checkIn
  departure := r.checkOut
  guests := r.guests
  total := Dec.quantize 4 r.totalPrice
  currency := r.currency
  amount := i.paymentAmountSar
  fx := i.exchangeRateSnapshot
  email := i.guestEmail
  phone := i.guestPhone
  first := i.guestFirstName
  last := i.guestLastName
  language := i.language

/-- `validate_payment_snapshot`. -/
def snapshotValid (amount : Dec) (currency : String) (sar : Option Dec) (fx : FxSnapshot) : Bool :=
  sar.isSome && fx.sourceCurrency == currency && fx.sourceAmount == some amount && fx.paymentAmountSar == sar &&
    fx.paymentCurrency == "SAR" && fx.converted == sar

/-- The newest row comes first. -/
def newestRequest (p q : PaymentRequest) : Bool := q.createdAt < p.createdAt

def oldestRequest (p q : PaymentRequest) : Bool := p.createdAt < q.createdAt

def openRequest (f : Folio) : Option PaymentRequest :=
  Table.first newestRequest (f.requests.filter (·.status == .open))

def blockingStatuses : List Hostaway.RequestStatus :=
  [.pendingAdminApproval, .readyForHostaway, .awaitingPayment, .processing, .completed]

/-- The refusals of `_eligible`, on a reservation with this intent. -/
def ineligible (s : LinkSettings) (f : Folio) (i : BookingIntent) : Option String :=
  let r := f.reservation
  if r.hostawayReservationId.isNone ∨ r.normalizedStatus ≠ .confirmed ∨
      (r.sourceType ≠ .directWebsite ∧ r.sourceType ≠ .hostawayManual) then some "confirmed_direct_reservation_required"
  else if s.environment ≠ environmentOf r.isTest then some "payment_environment_mismatch"
  else if ["paid", "fully_paid", "partially_paid"].contains (Text.casefold r.paymentStatus) then
    some "existing_collection_requires_review"
  else if f.desk.offlinePaymentReceipt.isSome then some "offline_collection_already_recorded"
  else if i.totalPrice ≠ r.totalPrice ∨ i.currency ≠ r.currency ∨ i.property ≠ r.property.map (·.pk) ∨
      i.checkIn ≠ r.checkIn ∨ i.checkOut ≠ r.checkOut ∨ i.guests ≠ r.guests then some "reservation_snapshot_changed"
  else if !snapshotValid i.totalPrice i.currency i.paymentAmountSar i.exchangeRateSnapshot then
    some "fx_snapshot_invalid"
  else if ¬ i.paymentAmountSar.any (0 < ·) then some "nothing_due"
  else if !f.desk.obligations.isEmpty || f.board.requests.any fun m => blockingStatuses.contains m.status then
    some "booking_change_requires_review"
  else none

/-- `_eligible`. -/
def eligible (s : LinkSettings) (f : Folio) : Except String BookingIntent :=
  match f.intent with
  | none => .error "confirmed_direct_reservation_required"
  | some i =>
    match ineligible s f i with
    | some code => .error code
    | none => .ok i

/-! ### Reviewed balances of a changed stay -/

/-- `financial_signature`; the payments of the request `except` are left out. -/
def financialSignature (f : Folio) (except : Option Uuid) : FinancialSignature where
  payments :=
    ((f.desk.payments.filter fun p => f.desk.bookingIntent == some p.bookingIntent &&
        (except.isNone || p.paymentRequest != except)).map fun p =>
      (⟨p.pk, p.amount, p.currency, p.status, p.verifiedAt, p.providerPaymentId⟩ : PaymentLine)).insertionSort
        fun p q => p.pk.str ≤ q.pk.str
  receipt := f.desk.offlinePaymentReceipt
  refunds :=
    (f.desk.obligations.map fun o => (⟨o.pk, o.amount, o.currency, o.status⟩ : RefundLine)).insertionSort
      fun p q => p.pk.str ≤ q.pk.str
  redemption := f.redemption

/-- `modification_signature`. -/
def modificationSignature (m : ModificationRequest) : ModificationSignature :=
  ⟨m.pk, m.newCheckIn, m.newCheckOut, m.newGuests, m.newTotal, m.currency, m.ownerFinalTotal⟩

/-- `projected_reservation`; a missing new value is `None` there and no reservation, so it leaves the old one. -/
def projectedReservation (r : Reservation) (m : ModificationRequest) : Reservation :=
  { r with
    checkIn := m.newCheckIn.getD r.checkIn
    checkOut := m.newCheckOut.getD r.checkOut
    guests := m.newGuests.getD r.guests
    totalPrice := m.newTotal.getD r.totalPrice }

/-- `_pending`. -/
def paymentPending (f : Folio) : Bool :=
  f.desk.payments.any fun p => f.desk.bookingIntent == some p.bookingIntent && isUnresolved p.status

/-- `_cancellation_pending`. -/
def cancellationPending (f : Folio) : Bool :=
  f.board.requests.any fun m => isCancellation m &&
    [RequestStatus.pendingAdminApproval, .readyForHostaway, .processing, .unknown].contains m.status

/-- What the services around a review answer: the checks of the change, its balance, and its exchange rate. -/
structure Review where
  checks : Checks
  paid : Dec
  due : Dec
  paymentAmountSar : Dec
  fx : FxSnapshot
  expiresAt : Time
deriving DecidableEq

/-- `_reviewable`; `none` lets the review pass. -/
def unreviewable (s : LinkSettings) (e : Review) (f : Folio) (m : ModificationRequest) : Option String :=
  let r := f.reservation
  if !enabled s then some "payment_links_disabled"
  else if ownerChangeBlocker e.checks f.board true r m ≠ "" then some (ownerChangeBlocker e.checks f.board true r m)
  else if e.checks.settlementBlocker ≠ "" then some e.checks.settlementBlocker
  else if f.intent.isNone ∨ r.hostawayReservationId.isNone ∨ r.sourceType ≠ .directWebsite ∨
      s.environment ≠ environmentOf r.isTest then some "confirmed_direct_reservation_required"
  else if paymentPending f || cancellationPending f || f.requests.any (·.status == .review) then
    some "previous_payment_unresolved"
  else none

/-- The request whose link a new revision takes over: the oldest that is no draft, or the one that took its link over. -/
def anchor (f : Folio) : Option Uuid :=
  (Table.first oldestRequest (f.requests.filter (·.status != .draft))).map fun r => r.linkAnchor.getD r.pk

/-- The review row of `prepare_preview`. -/
def draftOf (s : LinkSettings) (e : Review) (f : Folio) (i : BookingIntent) (m : ModificationRequest) (pk : Uuid)
    (now : Time) : PaymentRequest where
  pk := pk
  reservation := f.reservation.pk
  modificationRequest := some m.pk
  linkAnchor := anchor f
  supersededBy := none
  settlementSnapshot := some ⟨m.newTotal, e.paid, e.due, financialSignature f none, modificationSignature m,
    fingerprint f.reservation i, e.fx⟩
  approvedAt := none
  amountSar := e.paymentAmountSar
  sourceAmount := e.due
  sourceCurrency := m.currency
  fingerprint := fingerprint (projectedReservation f.reservation m) i
  environment := s.environment
  status := .draft
  expiresAt := some e.expiresAt
  paidAt := none
  reviewCode := ""
  createdAt := now

/-- Closes a review that was not approved. -/
def dropDraft (r : PaymentRequest) : PaymentRequest := if r.status = .draft then { r with status := .revoked } else r

/-- `prepare_preview`, with the constraints of the table: the key is new and the amounts are positive. -/
def preparePreview (s : LinkSettings) (e : Review) (f : Folio) (modification pk : Uuid) (now : Time) :
    Except String Folio :=
  match f.board.request modification, f.intent with
  | some m, some i =>
    match unreviewable s e f m with
    | some code => .error code
    | none =>
      if e.due ≤ 0 then .error "nothing_due"
      else if e.paymentAmountSar ≤ 0 ∨ f.requests.any (·.pk == pk) then .error "integrity"
      else .ok { f with requests := f.requests.map dropDraft ++ [draftOf s e f i m pk now] }
  | _, _ => .error "confirmed_direct_reservation_required"

/-- The comparisons of `_check_preview`. -/
def previewChanged (s : LinkSettings) (e : Review) (f : Folio) (i : BookingIntent) (m : ModificationRequest)
    (draft : PaymentRequest) (snapshot : SettlementSnapshot) (now : Time) : Bool :=
  draft.status != .draft || draft.environment != s.environment || !draft.expiresAt.any (now < ·) ||
    snapshot.modificationSignature != modificationSignature m ||
    snapshot.financialSignature != financialSignature f none || snapshot.paid != e.paid ||
    draft.sourceAmount != e.due || draft.sourceCurrency != m.currency ||
    draft.fingerprint != fingerprint (projectedReservation f.reservation m) i ||
    (m.status != .completed && snapshot.baseline != fingerprint f.reservation i) ||
    !snapshotValid draft.sourceAmount draft.sourceCurrency (some draft.amountSar) snapshot.fx

/-- `_check_preview`. -/
def checkPreview (s : LinkSettings) (e : Review) (f : Folio) (m : ModificationRequest) (draft : PaymentRequest)
    (now : Time) : Option String :=
  match unreviewable s e f m, f.intent, draft.settlementSnapshot with
  | some code, _, _ => some code
  | none, some i, some snapshot =>
    if previewChanged s e f i m draft snapshot now then some "payment_preview_changed" else none
  | none, _, _ => some "payment_preview_changed"

/-- `validate_revision`. -/
def revisionChanged (s : LinkSettings) (f : Folio) (request : PaymentRequest) (completing : Bool) : Bool :=
  match request.modificationRequest.bind f.board.request, f.intent, request.settlementSnapshot with
  | some m, some i, some snapshot =>
    let r := f.reservation
    request.approvedAt.isNone || !(request.status == .open || (completing && request.status == .review)) ||
      request.environment != s.environment || m.status != .completed ||
      (Hostaway.latest f.board).map (·.pk) != some m.pk || !stands r || r.sourceType != .directWebsite ||
      cancellationPending f || f.requests.any (fun q => q.status == .review && q.pk != request.pk) ||
      m.newCheckIn != some r.checkIn || m.newCheckOut != some r.checkOut || m.newGuests != some r.guests ||
      m.newTotal != some r.totalPrice || m.ownerFinalTotal.isNone || request.fingerprint != fingerprint r i ||
      snapshot.modificationSignature != modificationSignature m ||
      snapshot.financialSignature != financialSignature f (some request.pk) ||
      request.sourceCurrency != r.currency || snapshot.total != some r.totalPrice ||
      snapshot.paid + request.sourceAmount != r.totalPrice || snapshot.due != request.sourceAmount ||
      !snapshotValid request.sourceAmount request.sourceCurrency (some request.amountSar) snapshot.fx
  | _, _, _ => true

/-- `validate_open`; `none` lets the request pass. -/
def notOpen (s : LinkSettings) (f : Folio) (request : PaymentRequest) : Option String :=
  if request.status ≠ .open ∨ request.environment ≠ s.environment then some "payment_request_not_open"
  else if request.modificationRequest.isSome then
    if revisionChanged s f request false then some "approved_payment_balance_changed" else none
  else
    match eligible s f with
    | .error code => some code
    | .ok i =>
      if request.fingerprint ≠ fingerprint f.reservation i ∨ request.sourceAmount ≠ f.reservation.totalPrice ∨
          request.sourceCurrency ≠ f.reservation.currency ∨ some request.amountSar ≠ i.paymentAmountSar then
        some "reservation_snapshot_changed"
      else none

/-! ### Issuing a request -/

/-- The row of `issue_request`. -/
def issued (s : LinkSettings) (f : Folio) (i : BookingIntent) (amount : Dec) (pk : Uuid) (now : Time) : PaymentRequest where
  pk := pk
  reservation := f.reservation.pk
  modificationRequest := none
  linkAnchor := none
  supersededBy := none
  settlementSnapshot := none
  approvedAt := none
  amountSar := amount
  sourceAmount := f.reservation.totalPrice
  sourceCurrency := f.reservation.currency
  fingerprint := fingerprint f.reservation i
  environment := s.environment
  status := .open
  expiresAt := none
  paidAt := none
  reviewCode := ""
  createdAt := now

def revoke (r : PaymentRequest) : PaymentRequest := { r with status := .revoked }

/-- The end of `issue_request`: a new row, if nothing was or may have been collected. -/
def issueNew (s : LinkSettings) (f : Folio) (i : BookingIntent) (pk : Uuid) (now : Time) :
    Except String (Folio × PaymentRequest) :=
  if f.desk.payments.any fun p => p.bookingIntent == i.pk && (isSettled p.status || isUnresolved p.status) then
    .error "previous_collection_requires_review"
  else
    match i.paymentAmountSar with
    | none => .error "integrity"
    | some amount =>
      if amount ≤ 0 ∨ f.reservation.totalPrice ≤ 0 ∨ f.requests.any (·.pk == pk) then .error "integrity"
      else .ok ({ f with requests := f.requests ++ [issued s f i amount pk now] }, issued s f i amount pk now)

/-- `issue_request`. -/
def issueRequest (s : LinkSettings) (f : Folio) (pk : Uuid) (now : Time) : Except String (Folio × PaymentRequest) :=
  if !enabled s then .error "payment_links_disabled"
  else
    match Table.first newestRequest
        (f.requests.filter fun r => r.status == .open && r.modificationRequest.isSome) with
    | some revised =>
      match notOpen s f revised with
      | some code => .error code
      | none => .ok (f, revised)
    | none =>
      match eligible s f with
      | .error code => .error code
      | .ok i =>
        match openRequest f with
        | none => issueNew s f i pk now
        | some current =>
          if current.fingerprint = fingerprint f.reservation i then .ok (f, current)
          else if f.desk.payments.any fun p => p.paymentRequest == some current.pk && isUnresolved p.status then
            .error "previous_payment_unresolved"
          else issueNew s (f.modify current.pk revoke) i pk now

/-! ### Approving a review -/

/-- The first transaction of `approve_preview`; `some true` when it has nothing more to do. -/
def reviewDraft (s : LinkSettings) (e : Review) (f : Folio) (draft : PaymentRequest) (now : Time) : Except String Bool :=
  match draft.modificationRequest.bind f.board.request with
  | none => .error "not_found"
  | some m =>
    if draft.approvedAt.isSome then
      if revisionChanged s f draft false then .error "approved_payment_balance_changed" else .ok true
    else
      match checkPreview s e f m draft now with
      | some code => .error code
      | none => .ok false

/-- The draft as it is approved. -/
def approved (r : Reservation) (i : BookingIntent) (now : Time) (draft : PaymentRequest) : PaymentRequest :=
  { draft with status := .open, expiresAt := none, approvedAt := some now, fingerprint := fingerprint r i }

/-- What the approval of `draft` makes of another request that is no draft: it is closed and points to the draft. -/
def redirected (draft : Uuid) (r : PaymentRequest) : PaymentRequest :=
  if r.status = .draft then r
  else { r with status := if r.status = .open then .revoked else r.status, supersededBy := some draft }

/-- What the approval makes of each request of the stay. -/
def switched (r : Reservation) (i : BookingIntent) (now : Time) (draft : Uuid) (q : PaymentRequest) : PaymentRequest :=
  if q.pk = draft then approved r i now q else redirected draft q

/-- The payment status after an approval. -/
def approvedStatus (draft : PaymentRequest) : String :=
  if draft.settlementSnapshot.any fun snapshot => decide (0 < snapshot.paid) then "partially_paid" else "unpaid"

/-- The last transaction of `approve_preview` on the locked rows. -/
def switchTargets (s : LinkSettings) (e : Review) (f : Folio) (draft : PaymentRequest) (now : Time) : Except String Folio :=
  match reviewDraft s e f draft now, f.intent with
  | .error code, _ => .error code
  | .ok true, _ => .ok f
  | .ok false, none => .error "confirmed_direct_reservation_required"
  | .ok false, some i =>
    .ok { f with
      requests := f.requests.map (switched f.reservation i now draft.pk)
      board.reservation.paymentStatus := approvedStatus draft }

/-! ### Payments and receipts of a request -/

/-- The checks of `complete_request_payment` on a request that was issued for the booking itself. -/
def legacyInvalid (s : LinkSettings) (f : Folio) (request : PaymentRequest) (attempt : PaymentAttempt) : Bool :=
  match f.intent with
  | none => true
  | some i =>
    let r := f.reservation
    r.normalizedStatus != .confirmed || request.fingerprint != fingerprint r i ||
      !(request.status == .open || request.status == .review) || attempt.amount != request.amountSar ||
      attempt.currency != "SAR" || attempt.bookingIntent != i.pk || request.environment != s.environment ||
      request.sourceAmount != r.totalPrice || request.sourceCurrency != r.currency ||
      some request.amountSar != i.paymentAmountSar || Text.casefold r.paymentStatus == "paid" ||
      f.desk.payments.any fun p => p.bookingIntent == attempt.bookingIntent && isSettled p.status && p.pk != attempt.pk

/-- The checks of `complete_request_payment` on a revision. -/
def revisionValid (s : LinkSettings) (f : Folio) (request : PaymentRequest) (attempt : PaymentAttempt) : Bool :=
  !revisionChanged s f request true && attempt.amount == request.amountSar && attempt.currency == "SAR" &&
    f.intent.any (fun i => attempt.bookingIntent == i.pk) && attempt.status == .succeeded && attempt.verifiedAt.isSome &&
    !f.desk.payments.any fun p => p.paymentRequest == some request.pk && isSettled p.status && p.pk != attempt.pk

def needsReview (r : PaymentRequest) : PaymentRequest :=
  { r with status := .review, reviewCode := "paid_booking_requires_review" }

def paidBy (now : Time) (r : PaymentRequest) : PaymentRequest := { r with status := .paid, paidAt := some now }

/-- The payment closes the request. -/
def accepts (s : LinkSettings) (f : Folio) (request : PaymentRequest) (attempt : PaymentAttempt) : Bool :=
  if request.modificationRequest.isSome then revisionValid s f request attempt
  else !legacyInvalid s f request attempt

/-- `complete_request_payment`, on the attempt object it is given. -/
def completeRequestPayment (s : LinkSettings) (f : Folio) (attempt : PaymentAttempt) (now : Time) : Folio :=
  match attempt.paymentRequest.bind f.request with
  | none => f
  | some request =>
    if request.status = .paid then f
    else if accepts s f request attempt then
      { f.modify request.pk (paidBy now) with board.reservation.paymentStatus := "paid" }
    else f.modify request.pk needsReview

/-- The open requests are closed, by the owner or behind an offline receipt. -/
def revokeOpen (f : Folio) : Folio :=
  { f with requests := f.requests.map fun r => if r.status = .open then revoke r else r }

/-- The owner's `revoke_guest_payment_link`. -/
def revokeLink (f : Folio) : Except String Folio :=
  match openRequest f with
  | none => .ok f
  | some current =>
    if f.desk.payments.any fun p => p.paymentRequest == some current.pk && isUnresolved p.status then
      .error "active_gateway_attempt_requires_review"
    else .ok (f.modify current.pk revoke)

end Apartments.Links
