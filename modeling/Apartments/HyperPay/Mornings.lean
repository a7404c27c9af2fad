import Apartments.HyperPay.Service

/-!
# Verification of a morning payment (`payments/morning_payments.py`)

Morning stays have a table of attempts of their own. `verify_payment` shares `_verification_mismatch` with the service
of the other attempts, which here reads a morning attempt as if it were one of them (`asAttempt`). An answer is a
provider document with what `Document` leaves open about values that are not strings or numbers.
-/

namespace Apartments.Verification

open Payments HyperPay

/-- A row of `MorningPaymentAttempt`; its status takes seven of the values. -/
structure MorningPaymentAttempt where
  pk : Uuid
  stay : Uuid
  merchantTransactionId : String
  providerCheckoutId : Option String
  providerPaymentId : Option String
  amount : Dec
  currency : String
  status : PaymentStatus
  failureCode : String
  verifiedAt : Option Time
deriving DecidableEq

inductive MorningStayStatus
  | opened | processing | paid | expired | cancelled | review
deriving DecidableEq, Repr

/-- A row of `MorningStay`. -/
structure MorningStay where
  pk : Uuid
  environment : String
  status : MorningStayStatus
  endsAt : Time
  paidAt : Option Time
deriving DecidableEq

/-- A document as it arrives. A `special` amount may be a signaling NaN, whose comparison raises, and an `id` that is not
a string may count as missing. -/
structure Answer where
  document : Document
  signaling : Bool
  falsyId : Bool
deriving DecidableEq

/-- The comparison with the amount raises `InvalidOperation`, outside the `try` of `_verification_mismatch`. -/
def Answer.raises (answer : Answer) (settings : Settings) (attempt : PaymentAttempt) : Bool :=
  answer.signaling && answer.document.amount == .special &&
    verificationMismatch settings attempt answer.document == "amount_mismatch"

/-- `not document.get("id")`. -/
def Answer.idMissing (answer : Answer) : Bool :=
  match answer.document.id with
  | .null => true
  | .text s => s == ""
  | .other => answer.falsyId

/-- What `_verification_mismatch` reads of a morning attempt, which has no payment request. -/
def MorningPaymentAttempt.asAttempt (a : MorningPaymentAttempt) : PaymentAttempt where
  pk := a.pk
  bookingIntent := a.stay
  paymentRequest := none
  modificationRequest := none
  provider := hyperpayProvider
  providerCheckoutId := a.providerCheckoutId
  providerPaymentId := a.providerPaymentId
  merchantTransactionId := some a.merchantTransactionId
  providerResultCode := ""
  providerResultDescription := ""
  amount := a.amount
  currency := a.currency
  status := a.status
  failureCode := a.failureCode
  paymentBrand := ""
  verifiedAt := a.verifiedAt
  createdAt := 0

/-- The mismatch of a document, taken on the attempt as it was read before the request; a document that is still pending
is not compared. -/
def morningMismatch (settings : Settings) (read : MorningPaymentAttempt) (answer : Answer) : String :=
  let mapped := mapResultCode answer.document.code
  if mapped = .pending then ""
  else if mapped = .success && answer.idMissing then "payment_id_missing"
  else verificationMismatch settings read.asAttempt answer.document

/-- The comparison of a document that is not pending raises. -/
def morningRaises (settings : Settings) (read : MorningPaymentAttempt) (answer : Answer) : Bool :=
  mapResultCode answer.document.code != .pending && answer.raises settings read.asAttempt

/-- The class a document gives a morning attempt. -/
def morningClass (settings : Settings) (read : MorningPaymentAttempt) (answer : Answer) : HyperPayStatus :=
  if morningMismatch settings read answer = "" then mapResultCode answer.document.code else .review

/-- The payment id of a document that succeeds: a text of at most 255 characters. -/
def morningId (document : Document) : Option String :=
  match document.id with
  | .text s => if 1 ≤ s.length ∧ s.length ≤ 255 then some s else none
  | _ => none

/-- The attempt that `verify_payment` saves first. `recorded` says whether another attempt, of a morning or of a booking,
has a payment id already. -/
def morningWritten (settings : Settings) (read : MorningPaymentAttempt) (answer : Answer) (recorded : String → Bool)
    (now : Time) (a : MorningPaymentAttempt) : MorningPaymentAttempt :=
  let written :=
    { a with
      status := statusOf (morningClass settings read answer)
      failureCode := morningMismatch settings read answer
      verifiedAt := some now }
  if morningClass settings read answer = .success then
    match morningId answer.document with
    | none => { written with status := .review, failureCode := "payment_id_invalid" }
    | some id =>
      if recorded id then { written with status := .review, failureCode := "payment_id_already_recorded" }
      else { written with providerPaymentId := some id }
  else written

/-- The statuses of which a stay has one attempt at most. -/
def unresolved (status : PaymentStatus) : Bool :=
  [.created, .pending, .unknown, .review, .succeeded].contains status

/-- Saving the attempt violates a unique constraint. -/
def morningConflict (mornings : List MorningPaymentAttempt) (a : MorningPaymentAttempt) : Bool :=
  mornings.any fun b =>
    b.pk != a.pk && ((a.providerPaymentId.isSome && b.providerPaymentId == a.providerPaymentId) ||
      (b.stay == a.stay && unresolved b.status && unresolved a.status))

/-- The attempt that is saved: on a conflict it is saved once more for review, and a second conflict rolls the whole
transaction back. -/
def morningSaved (mornings : List MorningPaymentAttempt) (a : MorningPaymentAttempt) : Option MorningPaymentAttempt :=
  if morningConflict mornings a then
    let a' := { a with providerPaymentId := none, status := .review, failureCode := "payment_reference_conflict" }
    if morningConflict mornings a' then none else some a'
  else some a

/-- The stay as the verification of an attempt leaves it. -/
def morningStayAfter (a : MorningPaymentAttempt) (now : Time) (s : MorningStay) : MorningStay :=
  match a.status with
  | .succeeded =>
    { s with
      paidAt := a.verifiedAt
      status := if s.status = .processing ∧ now < s.endsAt then .paid else .review }
  | .review | .unknown => { s with status := .review }
  | .failed | .cancelled => { s with status := .opened }
  | _ => s

/-- How `verify_payment` goes on before it has a document. -/
inductive MorningOpening
  | refused (code : String)
  | returned
  | ask
deriving DecidableEq

/-- `verify_payment` up to its request to the provider. -/
def morningOpening (settings : Settings) (stay : MorningStay) (a : MorningPaymentAttempt) : MorningOpening :=
  if stay.environment ≠ settings.environment then .refused "payment_environment_mismatch"
  else if a.status = .succeeded then .returned
  else if a.providerCheckoutId = none ∨ a.providerCheckoutId = some "" then .refused "checkout_reference_unavailable"
  else .ask

end Apartments.Verification
