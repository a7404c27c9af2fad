import Apartments.HyperPay.Refunds

/-!
# Verification of a payment attempt (`payments/hyperpay/service.py`)

`verify` reads the attempt, asks the provider for the checkout and hands the document to
`_process_verification`, which runs in a transaction of its own on the attempt as it is by then. `opening`
is the part before the request and `processVerification` the part after it.
-/

namespace Apartments.HyperPay

open Payments

/-- Which of its three ends `_complete_success` takes a verified payment to. -/
inductive Completion
  | paymentRequest (request : Uuid) (attempt : Uuid)
  | modification (request : Uuid) (attempt : Uuid)
  | booking (attempt : Uuid)
deriving DecidableEq

/-- The branch of `_complete_success`. -/
def completion (attempt : PaymentAttempt) : Completion :=
  match attempt.paymentRequest, attempt.modificationRequest with
  | some request, _ => .paymentRequest request attempt.pk
  | none, some request => .modification request attempt.pk
  | none, none => .booking attempt.pk

/-- The attempt counts as verified money. -/
def verifiedSuccess (attempt : PaymentAttempt) : Bool := attempt.status == .succeeded && attempt.verifiedAt.isSome

def wasRefunded (attempt : PaymentAttempt) : Bool :=
  attempt.status == .refunded || attempt.status == .partiallyRefunded

/-- How `verify` goes on before it has a document. -/
inductive Opening
  | refused (failure : Failure)
  | complete (completion : Completion)
  | review
  | ask
deriving DecidableEq

/-- `verify` up to its request to the provider. -/
def opening (attempt : PaymentAttempt) : Opening :=
  if attempt.provider ≠ hyperpayProvider ∨ attempt.providerCheckoutId = none ∨ attempt.providerCheckoutId = some "" then
    .refused (verificationError "invalid_payment_reference")
  else if verifiedSuccess attempt then .complete (completion attempt)
  else if attempt.paymentRequest.isSome && wasRefunded attempt then .review
  else .ask

/-- A checkout of a payment link that is still in 3DS: the document is not looked at any further. -/
def stillPending (paymentRequest : Option Uuid) (document : Document) : Bool :=
  paymentRequest.isSome && document.result.any fun result => mapResultCode result.code == .pending

/-- The value is this text. -/
def Json.isText (value : Json) (expected : String) : Bool := value == .text expected

/-- `_verification_mismatch`. -/
def verificationMismatch (settings : Settings) (attempt : PaymentAttempt) (document : Document) : String :=
  if attempt.paymentRequest.isSome &&
      (document.result.any fun result => mapResultCode result.code == .success) &&
      (document.id.safeOptionalText 255).isNone then "payment_id_missing"
  else if !document.currency.isText attempt.currency then "currency_mismatch"
  else if !document.paymentType.isText settings.paymentType then "paymentType_mismatch"
  else if document.merchantTransactionId ≠ (attempt.merchantTransactionId.elim .null .text) then
    "merchantTransactionId_mismatch"
  else if document.amount = .invalid then "amount_invalid"
  else if document.amount ≠ .finite attempt.amount then "amount_mismatch"
  else if document.entityId ≠ .null ∧ document.entityId ≠ .text settings.entityId then "entity_id_mismatch"
  else if !settings.allowedBrands.any document.paymentBrand.isText then "payment_brand_mismatch"
  else if document.paymentBrand.isText "APPLEPAY" && settings.environment == "production" &&
      !settings.applePayProductionEnabled then "payment_brand_mismatch"
  else ""

/-- The status an attempt takes from the class of a document. -/
def statusOf : HyperPayStatus → PaymentStatus
  | .success => .succeeded
  | .pending => .pending
  | .failed => .failed
  | .cancelled => .cancelled
  | .review => .review
  | .unknown => .unknown

/-- The class of a document for an attempt: anything that does not match the attempt goes to review. -/
def verifiedClass (settings : Settings) (attempt : PaymentAttempt) (document : Document) : HyperPayStatus :=
  if verificationMismatch settings attempt document = "" then mapResultCode document.code else .review

/-- The attempt as `_process_verification` rewrites it. -/
def rewritten (settings : Settings) (document : Document) (now : Time) (attempt : PaymentAttempt) : PaymentAttempt :=
  let mismatch := verificationMismatch settings attempt document
  { attempt with
    failureCode := if mismatch = "" then attempt.failureCode else mismatch
    providerPaymentId := document.id.safeOptionalText 255
    providerResultCode := document.code.safeText 100
    providerResultDescription := document.description.safeText 255
    paymentBrand := document.paymentBrand.safeText 30
    verifiedAt := some now
    status := statusOf (verifiedClass settings attempt document) }

/-- Another row already has this provider id, which is unique. -/
def idTaken (d : Desk) (attempt : PaymentAttempt) : Bool :=
  attempt.providerPaymentId.isSome &&
    d.payments.any fun p => p.pk != attempt.pk && p.providerPaymentId == attempt.providerPaymentId

/-- `_process_verification` on a desk whose attempt is `attempt`: the desk it leaves, or the exception that rolls
it back, and the completion it goes on with. -/
def processVerification (settings : Settings) (attempt : PaymentAttempt) (document : Document) (now : Time)
    (d : Desk) : Except Failure (Desk × Option Completion) :=
  if verifiedSuccess attempt then .ok (d, none)
  else
    let saved := rewritten settings document now attempt
    if idTaken d saved then .error .integrityError
    else
      let d' := d.modifyPayment attempt.pk (rewritten settings document now)
      if verifiedClass settings attempt document = .success then .ok (d', some (completion saved))
      else .ok (d', none)

/-- The transaction leaves the attempt alone, or writes the document over it. -/
theorem processVerification_ok {d d' : Desk} {p : PaymentAttempt} {settings : Settings} {document : Document} {now : Time}
    {done : Option Completion} (h : processVerification settings p document now d = .ok (d', done)) :
    verifiedSuccess p = true ∧ d' = d ∨
      verifiedSuccess p = false ∧ idTaken d (rewritten settings document now p) = false ∧
        d' = d.modifyPayment p.pk (rewritten settings document now) := by
  unfold processVerification at h
  split at h
  · rename_i hv
    cases h
    exact .inl ⟨hv, rfl⟩
  rename_i hv
  dsimp only at h
  split at h
  · cases h
  rename_i ht
  refine .inr ⟨by simpa using hv, by simpa using ht, ?_⟩
  split at h <;> cases h <;> rfl

theorem processVerification_error {d : Desk} {p : PaymentAttempt} {settings : Settings} {document : Document} {now : Time}
    {failure : Failure} (h : processVerification settings p document now d = .error failure) :
    idTaken d (rewritten settings document now p) = true := by
  unfold processVerification at h
  split at h
  · cases h
  dsimp only at h
  split at h
  · assumption
  · split at h <;> cases h

end Apartments.HyperPay
