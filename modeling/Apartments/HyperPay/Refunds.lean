import Apartments.HyperPay.Client
import Apartments.Lib.Table
import Apartments.Models

/-!
# Refunds through HyperPay (`payments/hyperpay/refunds.py`)

`Desk` is what the refund service sees of one reservation: its booking intent, its offline receipt if it has
one, the table of payment attempts and the refund obligations of the reservation. Each function below is one
transaction of `HyperPayRefundService` on it; the call `submit` is these transactions in order with the
request to the provider between them.
-/

namespace Apartments.HyperPay

open Payments

structure Desk where
  bookingIntent : Option Uuid
  offlinePaymentReceipt : Option OfflinePaymentReceipt
  payments : List PaymentAttempt
  obligations : List RefundObligation
deriving DecidableEq

namespace Desk

def payment (d : Desk) (pk : Uuid) : Option PaymentAttempt := Table.get PaymentAttempt.pk d.payments pk

def obligation (d : Desk) (pk : Uuid) : Option RefundObligation := Table.get RefundObligation.pk d.obligations pk

def modifyPayment (d : Desk) (pk : Uuid) (f : PaymentAttempt → PaymentAttempt) : Desk :=
  { d with payments := Table.modify PaymentAttempt.pk d.payments pk f }

/-- `payment.save(update_fields=["status", "updated_at"])`. -/
def setPaymentStatus (d : Desk) (pk : Uuid) (status : PaymentStatus) : Desk :=
  d.modifyPayment pk fun p => { p with status := status }

def modifyObligation (d : Desk) (pk : Uuid) (f : RefundObligation → RefundObligation) : Desk :=
  { d with obligations := Table.modify RefundObligation.pk d.obligations pk f }

end Desk

/-- `HYPERPAY_PROVIDER`. -/
def hyperpayProvider : String := "hyperpay"

/-- `is_available`. -/
def isAvailable (settings : Settings) : Bool :=
  settings.enabled && settings.refundsEnabled &&
    (settings.environment != "production" || settings.refundsProductionEnabled)

/-- `format_test_amount`; `none` where the source raises `ValueError`. -/
def formatTestAmount (amount : Dec) : Option String :=
  if amount < 0 then none
  else if Dec.quantize 0 amount ≠ amount then none
  else some (Dec.fixed 2 (Dec.quantize 0 amount))

/-- `format_hyperpay_amount`. -/
def formatHyperpayAmount (settings : Settings) (amount : Dec) : Option String :=
  if settings.environment = "test" then formatTestAmount amount
  else if amount < 0 then none
  else if Dec.quantize 2 amount ≠ amount then none
  else some (Dec.fixed 2 (Dec.quantize 2 amount))

/-- The statuses a refundable payment has. -/
def refundable (p : PaymentAttempt) : Bool := p.status == .succeeded || p.status == .partiallyRefunded

/-- `a` comes before `b` under `order_by("-verified_at", "-created_at")`; the database puts nulls first in a
descending order. -/
def newerFirst (a b : PaymentAttempt) : Bool :=
  match a.verifiedAt, b.verifiedAt with
  | none, some _ => true
  | some _, none => false
  | none, none => b.createdAt < a.createdAt
  | some s, some t => t < s || (s == t && b.createdAt < a.createdAt)

/-- The payment a refund of `intent` is sent against: the receipt its calculation allocates it to, or the
newest payment of the original booking that has a provider id. -/
def choosePayment (d : Desk) (intent : Uuid) (refund : RefundObligation) : Option PaymentAttempt :=
  match refund.calculation.paymentAttempt with
  | some allocated =>
    d.payments.find? fun p =>
      p.pk == allocated && p.bookingIntent == intent && p.provider == hyperpayProvider &&
        p.currency == refund.currency && refundable p && p.verifiedAt.isSome
  | none =>
    Table.first newerFirst (d.payments.filter fun p =>
      p.bookingIntent == intent && p.modificationRequest == none && p.provider == hyperpayProvider &&
        refundable p && p.currency == refund.currency && p.providerPaymentId != none &&
        p.providerPaymentId != some "")

/-- A refund counts against `payment` when it was submitted against its provider id or is allocated to it. -/
def attributed (payment : PaymentAttempt) (prior : RefundObligation) : Bool :=
  prior.calculation.detail.originalPaymentId == payment.providerPaymentId ||
    prior.calculation.paymentAttempt == some payment.pk

/-- The money has left, or may have. -/
def outgoing (o : RefundObligation) : Bool := o.status == .processing || o.status == .transferred

/-- `previously_refunded` of `_prepare`. -/
def previouslyRefunded (d : Desk) (refund : RefundObligation) (payment : PaymentAttempt) : Dec :=
  Table.total (fun prior => outgoing prior && prior.pk != refund.pk && attributed payment prior)
    RefundObligation.amount d.obligations

/-- `_prepare`. -/
def prepare (d : Desk) (refundId : Uuid) : Except Failure (RefundObligation × PaymentAttempt) :=
  match d.obligation refundId with
  | none => .error .doesNotExist
  | some refund =>
    if refund.status ≠ .due ∨ refund.amount ≤ 0 then .error (refundError "refund_not_available")
    else if d.offlinePaymentReceipt.isSome then .error (refundError "manual_refund_required")
    else if refund.currency ≠ "SAR" then .error (refundError "refund_currency_not_supported")
    else
      match d.bookingIntent with
      | none => .error (refundError "original_payment_not_found")
      | some intent =>
        match choosePayment d intent refund with
        | none => .error (refundError "original_payment_not_found")
        | some payment =>
          if payment.amount - previouslyRefunded d refund payment < refund.amount then
            .error (refundError "refund_amount_exceeds_original_payment")
          else .ok (refund, payment)

/-- The row that `_record_submission` saves for the locked `refund`. -/
def submittedRow (now : Time) (refund : RefundObligation) (payment : PaymentAttempt) (o : RefundObligation) :
    RefundObligation :=
  { o with
    status := .processing
    calculation :=
      { refund.calculation with
        hyperpayRefund := some
          { HyperpayRefund.empty with
            state := some "submitting"
            originalPaymentId := payment.providerPaymentId
            amount := some (Dec.fixed 4 refund.amount)
            currency := some refund.currency
            submittedAt := some now } } }

/-- `_record_submission`. -/
def recordSubmission (now : Time) (refund : RefundObligation) (payment : PaymentAttempt) (d : Desk) : Desk :=
  d.modifyObligation refund.pk (submittedRow now refund payment)

/-- Replaces `calculation["hyperpay_refund"]` by its update. -/
def updateDetail (f : HyperpayRefund → HyperpayRefund) (o : RefundObligation) : RefundObligation :=
  { o with calculation := { o.calculation with hyperpayRefund := some (f o.calculation.detail) } }

/-- The row that `_restore_due` saves. -/
def restoredRow (errorCode : String) (now : Time) (o : RefundObligation) : RefundObligation :=
  { updateDetail
      (fun detail => { detail with state := some "rejected", error := some errorCode, updatedAt := some now }) o with
    status := .due }

/-- `_restore_due`. -/
def restoreDue (refundId : Uuid) (errorCode : String) (now : Time) (d : Desk) : Desk :=
  d.modifyObligation refundId (restoredRow errorCode now)

/-- `_mark_unknown`. -/
def markUnknown (refundId : Uuid) (reason : String) (now : Time) (d : Desk) : Desk :=
  d.modifyObligation refundId <|
    updateDetail
      fun detail => { detail with state := some "unknown", error := some reason, updatedAt := some now }

/-- `_total_confirmed`. -/
def totalConfirmed (d : Desk) (payment : PaymentAttempt) : Dec :=
  if d.bookingIntent = some payment.bookingIntent then
    Table.total
      (fun o => o.status == .transferred && o.calculation.detail.originalPaymentId == payment.providerPaymentId)
      RefundObligation.amount d.obligations
  else 0

/-- The status of a payment after a confirmed refund. -/
def refundedStatus (d : Desk) (payment : PaymentAttempt) : PaymentStatus :=
  if payment.amount ≤ totalConfirmed d payment then .refunded else .partiallyRefunded

structure RefundOutcome where
  auditAction : String
  auditSummary : String
  auditMetadata : List (String × String)
  message : String
deriving DecidableEq

/-- What every answer writes into the detail, whatever its class. -/
def answeredDetail (document : Document) (now : Time) (detail : HyperpayRefund) : HyperpayRefund :=
  { detail with
    providerRefundId := some (document.id.safeText 255)
    resultCode := some (document.code.safeText 100)
    resultDescription := some (document.description.safeText 255)
    updatedAt := some now }

/-- `_record_response`, run when the row is there. -/
def recordResponse (refund : RefundObligation) (payment : PaymentAttempt) (document : Document)
    (operator : Option ℕ) (now : Time) (d : Desk) : Desk × RefundOutcome :=
  let answered := updateDetail (answeredDetail document now)
  let metadata :=
    [("amount", Dec.fixed 4 refund.amount), ("currency", refund.currency),
     ("provider_refund_id", document.id.safeText 255)]
  match mapResultCode document.code with
  | .success =>
    let d' := d.modifyObligation refund.pk fun o =>
      { updateDetail (fun detail => { detail with state := some "confirmed" }) (answered o) with
        status := .transferred
        transferReference := document.id.safeText 100
        transferredAt := some now
        transferredBy := operator }
    (d'.setPaymentStatus payment.pk (refundedStatus d' payment),
      ⟨"refund.hyperpay_completed", "HyperPay confirmed the refund.", metadata,
        "أكدت HyperPay الاسترداد وسُجلت العملية في مركز التشغيل."⟩)
  | .pending =>
    (d.modifyObligation refund.pk fun o =>
        updateDetail (fun detail => { detail with state := some "provider_pending" }) (answered o),
      ⟨"refund.hyperpay_submitted", "HyperPay accepted the refund and it is pending.", metadata,
        "استلمت HyperPay طلب الاسترداد وهو قيد المعالجة؛ لا تعِد إرساله."⟩)
  -- failed and cancelled, but also review and unknown: nothing separates them here
  | _ =>
    (d.modifyObligation refund.pk fun o =>
        { updateDetail (fun detail => { detail with state := some "rejected" }) (answered o) with
          status := .due },
      ⟨"refund.hyperpay_failed", "HyperPay rejected the refund; it remains due locally.",
        [("result_code", document.code.safeText 100)],
        "رفضت HyperPay الاسترداد؛ لم يُسجل أي تحويل ويمكن مراجعة السبب قبل المحاولة لاحقًا."⟩)

/-- One call of `submit` after its first transaction: the settings it runs under, the refund it locked, the
payment it read and the amount it sends. -/
structure Submission where
  settings : Settings
  refund : RefundObligation
  payment : PaymentAttempt
  amount : String
deriving DecidableEq

/-- The first transaction of `submit`. -/
def submit (settings : Settings) (refundId : Uuid) (now : Time) (d : Desk) : Except Failure (Desk × Submission) :=
  if !isAvailable settings then .error (refundError "hyperpay_refunds_not_enabled")
  else
    match prepare d refundId with
    | .error failure => .error failure
    | .ok (locked, payment) =>
      match formatHyperpayAmount settings locked.amount with
      | none => .error (refundError "refund_amount_not_supported")
      | some amount => .ok (recordSubmission now locked payment d, ⟨settings, locked, payment, amount⟩)

/-- The rest of `submit` once the provider has answered: what it writes and how it ends. -/
def settle (s : Submission) (reply : Reply) (operator : Option ℕ) (now : Time) (d : Desk) :
    Desk × Except Failure RefundOutcome :=
  match request reply with
  | .ok document =>
    match d.obligation s.refund.pk with
    | none => (d, .error .doesNotExist)
    | some refund =>
      let (d', outcome) := recordResponse refund s.payment document operator now d
      (d', .ok outcome)
  | .error (.hyperPay error) =>
    match error.errorClass with
    | .connection =>
      (markUnknown s.refund.pk "connection_result_unknown" now d, .error (refundError "refund_result_unknown"))
    | .authentication | .configuration | .response =>
      (restoreDue s.refund.pk error.code now d, .error (refundError error.code))
    | _ => (d, .error (.hyperPay error))
  | .error failure => (d, .error failure)

end Apartments.HyperPay
