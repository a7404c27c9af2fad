import Apartments.Hostaway.CreateCalls
import Apartments.Hostaway.Modifications
import Apartments.Reservations.Refunds

/-!
# Orphaned payments (`reservations/services/automatic_modifications.py`)

A paid reservation that never reached Hostaway is cancelled by returning the payment and closing the local record.
`Case` puts the calls of `_refund_orphaned_paid_reservation` next to the create calls of the same reservation. A refund
call is a check, the submission of the refund with its own two transactions, and the closing; each is an event of its
own, and any number of calls of both kinds interleave. `refunds` logs the refunds that were sent to the gateway, `closed`
the reservation as it stood when it was closed.
-/

namespace Apartments.Orphans

open Payments Hostaway HyperPay Refunds

inductive Stage
  | checking
  | submitting (refund : Uuid)
  | sending (submission : Submission)
  | sent (submission : Submission)
  | closing (code : String)
  | done (code : String)
deriving DecidableEq

/-- A call of `_refund_orphaned_paid_reservation`. -/
structure Call where
  approvedRefundAmount : Option Dec
  stage : Stage
deriving DecidableEq

structure Case where
  world : World
  account : Account
  request : ModificationRequest
  calls : List Call
  refunds : List Submission
  closed : List Reservation
deriving DecidableEq

/-- What the check of a call is given; `plan` is the answer of the loyalty settlement, where it applies, and `pk` the key
of a new obligation. -/
structure Checks where
  automaticRefund : Bool
  settings : Refunds.Settings
  plan : Option RefundComputation
  now : Time
  pk : Uuid
deriving DecidableEq

inductive Event
  | check (checks : Checks)
  | submit (settings : HyperPay.Settings) (now : Time)
  | send (now : Time)
  | answer (reply : Reply) (now : Time)
  | close (now : Time)
deriving DecidableEq

inductive Action
  | create (kind : Kind)
  | event (i : ℕ) (event : Hostaway.Event)
  | refund (approvedRefundAmount : Option Dec)
  | visit (i : ℕ) (event : Event)
deriving DecidableEq

/-- The payments a connector test may have made. -/
def testable (d : Desk) (p : PaymentAttempt) : Bool :=
  d.bookingIntent == some p.bookingIntent && p.modificationRequest == none && p.provider == "hyperpay" && refundable p

/-- `_is_hyperpay_connector_test_payment`. -/
def isHyperpayConnectorTestPayment (d : Desk) : Bool :=
  (Table.first newerFirst (d.payments.filter (testable d))).any fun p =>
    p.providerResultCode == "000.100.112" ||
      decide ("connector test mode".toList <:+: (Text.casefold p.providerResultDescription).toList) ||
      decide (".uat".toList <:+: (Text.casefold (p.providerCheckoutId.getD "")).toList)

/-- The payments and obligations after `_complete_orphaned_test_payment_cancellation`. -/
def testCancelled (d : Desk) (request : Uuid) : Desk :=
  { d with
    payments := d.payments.map fun p =>
      if testable d p then { p with status := .cancelled, failureCode := "hyperpay_connector_test_mode_no_capture" } else p
    obligations := d.obligations.map fun o =>
      if o.modificationRequest = some request ∧ o.status = .due then { o with status := .cancelled } else o }

/-- The obligation that an earlier call has recorded. -/
def recorded (d : Desk) (request : Uuid) : Option RefundObligation :=
  (d.obligations.filter fun o => o.modificationRequest == some request && o.reason == .cancellation).getLast?

namespace Case

def desk (c : Case) : Desk := c.account.gateway.desk

def reservation (c : Case) : Reservation := c.world.rows.reservation

def withDesk (c : Case) (d : Desk) : Case := { c with account.gateway.desk := d }

def stay (c : Case) (i : ℕ) (call : Call) (stage : Stage) : Case := { c with calls := c.calls.set i { call with stage } }

/-- The local record is closed, whatever the reservation says by now; `_complete_orphaned_local_cancellation`. -/
def complete (c : Case) (now : Time) : Case :=
  if c.request.status = .completed then c
  else
    { c with
      world.rows.reservation := orphanClosed now c.reservation
      request := { c.request with status := .completed, completedAt := some now }
      closed := c.closed ++ [c.reservation] }

/-- The obligation of the call, recorded now or before, decides how it goes on. -/
def settled (c : Case) (i : ℕ) (call : Call) (now : Time) (refund : RefundObligation) : Case :=
  match refund.status with
  | .transferred => (c.complete now).stay i call (.done "orphaned_refunded")
  | .processing => c.stay i call (.done "orphaned_refund_pending")
  | .due | .cancelled => c.stay i call (.submitting refund.pk)

/-- The checked amount, or how the check ends; a check that raises ends the call. -/
def amountRefusal (call : Call) (computed : RefundComputation) : Option String :=
  if computed.amount ≤ 0 then some "original_payment_not_found"
  else if call.approvedRefundAmount.getD computed.amount ≠ computed.amount then some "orphaned_refund_must_be_full"
  else none

/-- The transaction that checks the orphan and records the obligation. -/
def check (c : Case) (i : ℕ) (call : Call) (k : Checks) : Case :=
  if !k.automaticRefund then c.stay i call (.done "automatic_refund_disabled")
  else if c.request.status = .completed then c.stay i call (.done "already_completed")
  else if !orphanedCancellation c.reservation c.request then c.stay i call (.done "orphaned_reservation_changed")
  else if isHyperpayConnectorTestPayment c.desk then
    ((c.withDesk (testCancelled c.desk c.request.pk)).complete k.now).stay i call (.done "orphaned_test_payment_cancelled")
  else
    match k.plan.orElse fun _ => cancellationRefund k.settings c.account k.now with
    | none => c.stay i call (.done "")
    | some computed =>
      match amountRefusal call computed with
      | some code => c.stay i call (.done code)
      | none =>
        match recorded c.desk c.request.pk with
        | some refund => c.settled i call k.now refund
        | none =>
          match recordObligation c.account .cancellation computed c.request.pk k.pk with
          | .ok (some refund) =>
            if c.desk.obligations.any (·.pk == k.pk) then c.stay i call (.done "")
            else { c with account := c.account.record refund }.settled i call k.now refund
          | .ok none => c.stay i call (.done "original_payment_not_found")
          | .error _ => c.stay i call (.done "")

/-- The audit actions of a refund that the gateway has taken on. -/
def acceptedCodes : List String := ["refund.hyperpay_completed", "refund.hyperpay_submitted"]

def visit (c : Case) (i : ℕ) (call : Call) : Event → Case
  | .check k => if call.stage = .checking then c.check i call k else c
  | .submit settings now =>
    match call.stage with
    | .submitting refund =>
      if c.desk.offlinePaymentReceipt.isSome then c.stay i call (.done "orphaned_refund_not_accepted")
      else
        match submit settings refund now c.desk with
        | .error _ => c.stay i call (.done "orphaned_refund_not_accepted")
        | .ok (d, s) => (c.withDesk d).stay i call (.sending s)
    | _ => c
  | .send now =>
    match call.stage with
    | .sending s =>
      if clientConfigured s.settings then { c.stay i call (.sent s) with refunds := c.refunds ++ [s] }
      else
        (c.withDesk (restoreDue s.refund.pk configurationError.code now c.desk)).stay i call
          (.done "orphaned_refund_not_accepted")
    | _ => c
  | .answer reply now =>
    match call.stage with
    | .sent s =>
      (c.withDesk (settle s reply none now c.desk).1).stay i call <|
        match (settle s reply none now c.desk).2 with
        | .ok outcome =>
          if outcome.auditAction ∈ acceptedCodes then .closing outcome.auditAction
          else .done "orphaned_refund_not_accepted"
        | .error _ => .done "orphaned_refund_not_accepted"
    | _ => c
  | .close now =>
    match call.stage with
    | .closing _ => (c.complete now).stay i call (.done "orphaned_refunded")
    | _ => c

/-- The gates of a create call read the payments of the desk. -/
def informed (c : Case) : Hostaway.Event → Hostaway.Event
  | .gates surroundings => .gates { surroundings with payments := c.desk.payments }
  | event => event

def step (c : Case) : Action → Case
  | .create kind => { c with world := c.world.step (.call kind) }
  | .event i event => { c with world := c.world.step (.event i (c.informed event)) }
  | .refund approvedRefundAmount => { c with calls := c.calls ++ [⟨approvedRefundAmount, .checking⟩] }
  | .visit i event =>
    match c.calls[i]? with
    | none => c
    | some call => c.visit i call event

end Case

end Apartments.Orphans
