import Apartments.Money

/-!
# Payment and refund records

The rows of `PaymentAttempt` and `RefundObligation` with the fields that the verification, the refund and
the settlement code reads or writes. `Calculation` is the JSON of `RefundObligation.calculation`: the keys
that code reads, a missing key being `none`. Timestamps are kept as instants.
-/

namespace Apartments

/-- An instant of `timezone.now()`. -/
abbrev Time := ℕ

/-- The characters of the canonical text of a UUID. -/
def isUuidChar (c : Char) : Bool := c.isDigit || (c.toNat ≥ 'a'.toNat && c.toNat ≤ 'f'.toNat) || c == '-'

/-- A UUID primary key, as its canonical text `str(pk)`. -/
structure Uuid where
  str : String
  canonical : (!str.toList.isEmpty && str.toList.all isUuidChar) = true
deriving DecidableEq

theorem Uuid.notMem_colon (pk : Uuid) : ':' ∉ pk.str.toList := by
  have hpk := pk.canonical
  rw [Bool.and_eq_true, List.all_eq_true] at hpk
  intro h
  exact absurd (hpk.2 _ h) (by decide)

theorem Uuid.ext_str {x y : Uuid} (h : x.str = y.str) : x = y := by
  cases x
  cases y
  cases h
  rfl

namespace Payments

inductive PaymentStatus
  | created | pending | succeeded | failed | cancelled | expired | refunded | partiallyRefunded | review | unknown
deriving DecidableEq, Repr

/-- A row of `PaymentAttempt`. -/
structure PaymentAttempt where
  pk : Uuid
  bookingIntent : Uuid
  paymentRequest : Option Uuid
  modificationRequest : Option Uuid
  provider : String
  providerCheckoutId : Option String
  providerPaymentId : Option String
  merchantTransactionId : Option String
  providerResultCode : String
  providerResultDescription : String
  amount : Dec
  currency : String
  status : PaymentStatus
  failureCode : String
  paymentBrand : String
  verifiedAt : Option Time
  createdAt : Time
deriving DecidableEq

/-- A row of `OfflinePaymentReceipt`. -/
structure OfflinePaymentReceipt where
  paymentAttempt : Option Uuid
  amount : Dec
  currency : String
deriving DecidableEq

inductive RefundStatus
  | due | processing | transferred | cancelled
deriving DecidableEq, Repr

inductive RefundReason
  | modificationDecrease | cancellation
deriving DecidableEq, Repr

/-- `calculation["hyperpay_refund"]`, the record of the last submission to the gateway. -/
structure HyperpayRefund where
  state : Option String
  originalPaymentId : Option String
  amount : Option String
  currency : Option String
  submittedAt : Option Time
  updatedAt : Option Time
  error : Option String
  providerRefundId : Option String
  resultCode : Option String
  resultDescription : Option String
deriving DecidableEq

/-- The empty JSON object that `calculation.get("hyperpay_refund", {})` falls back to. -/
def HyperpayRefund.empty : HyperpayRefund := ⟨none, none, none, none, none, none, none, none, none, none⟩

/-- The keys of `RefundObligation.calculation` that are read back. -/
structure Calculation where
  paymentAttempt : Option Uuid
  receiptProvider : Option String
  source : Option String
  settlementReference : Option String
  hyperpayRefund : Option HyperpayRefund
deriving DecidableEq

def Calculation.empty : Calculation := ⟨none, none, none, none, none⟩

/-- `calculation.get("hyperpay_refund", {})`. -/
def Calculation.detail (c : Calculation) : HyperpayRefund := c.hyperpayRefund.getD .empty

/-- A row of `RefundObligation`. -/
structure RefundObligation where
  pk : Uuid
  modificationRequest : Option Uuid
  reason : RefundReason
  status : RefundStatus
  amount : Dec
  currency : String
  calculation : Calculation
  transferReference : String
  transferredAt : Option Time
  transferredBy : Option ℕ
deriving DecidableEq

end Payments

end Apartments
