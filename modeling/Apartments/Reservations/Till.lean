import Apartments.HyperPay.Service
import Apartments.Reservations.Office

/-!
# Difference payments of change requests (`payments/hyperpay/service.py`)

`Till` adds to the office of a reservation the desk with its payment attempts and the visits of the payment service
that are under way: checkouts of the price difference and calls of `verify` on them. Each event of a visit is one
transaction, one unlocked read or write, or one answer of another service; a visit that crashes has no further events.
A verified payment ends in a call of `execute_automatic_modification`, which goes on as a call of `Changes`; `sends` logs
for each update whether the visit behind the call that sent it had revalidated the change, if there was a visit.
-/

namespace Apartments.Differences

open Payments Hostaway HyperPay Expiration

/-- `revalidate_for_payment` on the objects it is given; `quoteCode` is the answer of `_revalidate_quote`. -/
def revalidateForPayment (m : ModificationRequest) (r : Reservation) (now : Time) (quoteCode : String) : String :=
  if m.status ≠ .awaitingPayment ∨ m.expiresAt ≤ now ∨ r.normalizedStatus ≠ .confirmed ∨ m.newCheckIn = none ∨
      m.newCheckOut = none ∨ m.newGuests = none ∨ m.newTotal = none ∨ m.oldCheckIn ≠ r.checkIn ∨
      m.oldCheckOut ≠ r.checkOut ∨ m.oldGuests ≠ r.guests ∨ m.oldTotal ≠ r.totalPrice ∨ m.currency ≠ r.currency ∨
      r.property = none then "modification_not_payable"
  else quoteCode

/-- The status that `_revalidate_modification` gives a request that is not ready. -/
def refusedStatus (code : String) : Option RequestStatus :=
  if code ∈ ["price_changed", "currency_changed"] then some .priceChanged
  else if code ∈ ["unavailable_dates", "inventory_conflict", "arrival_restricted", "departure_restricted"] then
    some .unavailable
  else none

/-- `filter(pk=.., status=AWAITING_PAYMENT).update(status=..)` on one row. -/
def moveAwaiting (status : RequestStatus) (m : ModificationRequest) : ModificationRequest :=
  if m.status = .awaitingPayment then { m with status := status } else m

inductive Stage
  | asking (attempt : Uuid) (paymentRequest : Option Uuid)
  | completing (request : Uuid)
  | revalidating (request : ModificationRequest) (reservation : Reservation) (checkout : Bool)
  | parking (request : Uuid)
  | paying (request : Uuid)
  | executing (call : ℕ) (revalidated : Bool)
  | done
deriving DecidableEq

/-- How `verify` goes on after its document: `_complete_success` for the payment of a change. -/
def Stage.after : Option Completion → Stage
  | some (.modification request _) => .completing request
  | some (.paymentRequest ..) | some (.booking _) | none => .done

/-- What the transaction of `create_modification_checkout` is answered; without a checkout id it raises. -/
structure Offer where
  now : Time
  snapshotValid : Bool
  hasIntegrity : Bool
  pk : Uuid
  merchantTransactionId : String
  checkoutId : Option String
deriving DecidableEq

inductive Event
  | document (settings : Settings) (document : Document) (now : Time)
  | load
  | answer (now : Time) (quoteCode : String)
  | park
  | pay (offer : Offer)
deriving DecidableEq

structure Till where
  office : Office
  desk : Desk
  visits : List Stage
  sends : List (Uuid × Option Bool)
deriving DecidableEq

inductive Action
  | office (action : Expiration.Action)
  | checkout (request : Uuid)
  | verify (attempt : Uuid)
  | visit (i : ℕ) (event : Event)
deriving DecidableEq

/-- The attempt that may be paid again instead of a new one. -/
def openAttempt (d : Desk) (request : Uuid) : Option PaymentAttempt :=
  Table.first (fun p q => q.createdAt < p.createdAt) <| d.payments.filter fun p =>
    p.modificationRequest == some request && p.provider == hyperpayProvider &&
      (p.status == .created || p.status == .pending) && p.providerCheckoutId != some ""

/-- The attempt of a new checkout. -/
def newAttempt (intent : Uuid) (m : ModificationRequest) (amount : Dec) (o : Offer) (checkoutId : String) : PaymentAttempt where
  pk := o.pk
  bookingIntent := intent
  paymentRequest := none
  modificationRequest := some m.pk
  provider := hyperpayProvider
  providerCheckoutId := some checkoutId
  providerPaymentId := none
  merchantTransactionId := some o.merchantTransactionId
  providerResultCode := ""
  providerResultDescription := ""
  amount := amount
  currency := "SAR"
  status := .pending
  failureCode := ""
  paymentBrand := ""
  verifiedAt := none
  createdAt := o.now

/-- The attempts after the transaction of `create_modification_checkout`. -/
def checkedOut (d : Desk) (r : Reservation) (m : ModificationRequest) (o : Offer) : List PaymentAttempt :=
  match r.bookingIntent, m.paymentAmountSar with
  | some intent, some amount =>
    if m.status ≠ .awaitingPayment ∨ m.expiresAt ≤ o.now ∨ m.priceDifference ≤ 0 ∨ !o.snapshotValid then d.payments
    else if (openAttempt d m.pk).any (·.providerCheckoutId.isSome) && o.hasIntegrity then d.payments
    else
      match o.checkoutId with
      | none => d.payments
      | some checkoutId =>
        if d.payments.any (·.pk == o.pk) then d.payments else d.payments ++ [newAttempt intent m amount o checkoutId]
  | _, _ => d.payments

namespace Till

def board (t : Till) : Board := t.office.changes.board

def requests (t : Till) : List ModificationRequest := t.office.changes.board.requests

def modify (t : Till) (pk : Uuid) (f : ModificationRequest → ModificationRequest) : Till :=
  { t with office := t.office.withBoard (t.board.modify pk f) }

def stay (t : Till) (i : ℕ) (stage : Stage) : Till := { t with visits := t.visits.set i stage }

/-- `execute_automatic_modification` is called with the objects of the visit. -/
def execute (t : Till) (i : ℕ) (m : ModificationRequest) (r : Reservation) (revalidated : Bool) : Till :=
  { t with
    office.changes.calls := t.office.changes.calls ++ [⟨m, r, .loaded false⟩]
    visits := t.visits.set i (.executing t.office.changes.calls.length revalidated) }

/-- The checks of an execution read the payments of the desk. -/
def informed (t : Till) : Expiration.Action → Expiration.Action
  | .change (.event i (.check e)) => .change (.event i (.check { e with payments := t.desk.payments }))
  | a => a

/-- The visit behind a call, if there is one: whether it had revalidated the change. -/
def origin (t : Till) (call : ℕ) : Option Bool :=
  t.visits.findSome? fun
    | .executing j revalidated => if j = call then some revalidated else none
    | _ => none

/-- The update that a call sends. -/
def sent (t : Till) : Expiration.Action → List (Uuid × Option Bool)
  | .change (.event j .send) =>
    match t.office.changes.calls[j]? with
    | some c => if c.stage = .sending then [(c.request.pk, t.origin j)] else []
    | none => []
  | _ => []

/-- `_process_verification` when the document has come. -/
def documented (t : Till) (i : ℕ) (attempt : Uuid) (paymentRequest : Option Uuid) (settings : Settings)
    (document : Document) (now : Time) : Till :=
  if stillPending paymentRequest document then t.stay i .done
  else
    match t.desk.payment attempt with
    | none => t.stay i .done
    | some p =>
      match processVerification settings p document now t.desk with
      | .error _ => t.stay i .done
      | .ok (d, done) => { t with desk := d, visits := t.visits.set i (Stage.after done) }

/-- The answer of `revalidate_for_payment`. -/
def answered (t : Till) (i : ℕ) (m : ModificationRequest) (r : Reservation) (checkout : Bool) (now : Time)
    (quoteCode : String) : Till :=
  let code := revalidateForPayment m r now quoteCode
  if code = "ready" then if checkout then t.stay i (.paying m.pk) else t.execute i m r true
  else
    ((refusedStatus code).elim t fun status => t.modify m.pk (moveAwaiting status)).stay i
      (if checkout then .done else .parking m.pk)

def visit (t : Till) (i : ℕ) : Stage → Event → Till
  | .asking attempt paymentRequest, .document settings document now =>
    t.documented i attempt paymentRequest settings document now
  | .completing request, .load =>
    match t.board.request request with
    | none => t.stay i .done
    | some m =>
      if m.status = .awaitingPayment then t.stay i (.revalidating m t.board.reservation false)
      else t.execute i m t.board.reservation false
  | .revalidating m r checkout, .answer now quoteCode => t.answered i m r checkout now quoteCode
  | .parking request, .park => (t.modify request (moveAwaiting .pendingAdminApproval)).stay i .done
  | .paying request, .pay offer =>
    match t.board.request request with
    | none => t.stay i .done
    | some m => { t with desk.payments := checkedOut t.desk t.board.reservation m offer, visits := t.visits.set i .done }
  | _, _ => t

def step (t : Till) : Action → Till
  | .office a => { t with office := t.office.step (t.informed a), sends := t.sends ++ t.sent a }
  | .checkout request =>
    match t.board.request request with
    | none => t
    | some m => { t with visits := t.visits ++ [.revalidating m t.board.reservation true] }
  | .verify attempt =>
    match t.desk.payment attempt with
    | none => t
    | some p =>
      match opening p with
      | .complete (.modification request _) => { t with visits := t.visits ++ [.completing request] }
      | .ask => { t with visits := t.visits ++ [.asking attempt p.paymentRequest] }
      | .complete _ | .refused _ | .review => t
  | .visit i event =>
    match t.visits[i]? with
    | none => t
    | some stage => t.visit i stage event

end Till

end Apartments.Differences
