import Apartments.HyperPay.ResultCodes
import Apartments.Money

/-!
# The HTTP client of HyperPay (`payments/hyperpay/client.py`, `exceptions.py`)

A call to the provider ends in a `Reply`: a response with some status and body, a timeout or network
error, or any other exception of the HTTP library, which the client lets through. `request` classifies it
the way `_request` does.
-/

namespace Apartments.HyperPay

/-- The settings the payment code reads. -/
structure Settings where
  enabled : Bool
  refundsEnabled : Bool
  refundsProductionEnabled : Bool
  applePayProductionEnabled : Bool
  environment : String
  entityId : String
  accessToken : String
  paymentType : String
  allowedBrands : List String
deriving DecidableEq

/-- `document["result"]` when it is an object. -/
structure ResultObject where
  code : Json
  description : Json
deriving DecidableEq

/-- What `Decimal(str(document.get("amount")))` gives: it raises, it is an infinity or a NaN, or a number. -/
inductive ReturnedAmount
  | invalid
  | special
  | finite (value : Dec)
deriving DecidableEq

/-- The keys of a provider document that the program reads; `result` is `none` unless it is an object. -/
structure Document where
  result : Option ResultObject
  id : Json
  currency : Json
  paymentType : Json
  merchantTransactionId : Json
  amount : ReturnedAmount
  entityId : Json
  paymentBrand : Json
deriving DecidableEq

/-- `result.get("code") if isinstance(result, dict) else ""`. -/
def Document.code (document : Document) : Json := (document.result.map (·.code)).getD (.text "")

/-- `result.get("description") if isinstance(result, dict) else ""`. -/
def Document.description (document : Document) : Json := (document.result.map (·.description)).getD (.text "")

/-- What `response.json()` gives. -/
inductive Body
  | unreadable
  | notObject
  | object (document : Document)
deriving DecidableEq

/-- How `http.request` ends. -/
inductive Reply
  | timeout
  | networkError
  | otherError
  | response (statusCode : ℕ) (body : Body)
deriving DecidableEq

inductive ErrorClass
  | configuration | connection | authentication | response | checkout | verification | refund
deriving DecidableEq, Repr

/-- A `HyperPayError`: its class and its `code`. -/
structure HyperPayError where
  errorClass : ErrorClass
  code : String
deriving DecidableEq, Repr

/-- The exceptions that leave a call: the program's own ones, a missing row, a violated uniqueness constraint
and what the HTTP library raises. -/
inductive Failure
  | hyperPay (error : HyperPayError)
  | doesNotExist
  | integrityError
  | otherError
deriving DecidableEq, Repr

def configurationError : HyperPayError := ⟨.configuration, "hyperpay_not_configured"⟩
def connectionError : HyperPayError := ⟨.connection, "hyperpay_unavailable"⟩
def authenticationError : HyperPayError := ⟨.authentication, "hyperpay_authentication_failed"⟩
def responseError : HyperPayError := ⟨.response, "hyperpay_invalid_response"⟩
def refundError (code : String) : Failure := .hyperPay ⟨.refund, code⟩
def verificationError (code : String) : Failure := .hyperPay ⟨.verification, code⟩

/-- `HyperPayClient.__init__`. -/
def clientConfigured (settings : Settings) : Bool :=
  settings.enabled && settings.entityId != "" && settings.accessToken != ""

/-- `HyperPayClient._request`. -/
def request : Reply → Except Failure Document
  | .timeout | .networkError => .error (.hyperPay connectionError)
  | .otherError => .error .otherError
  | .response statusCode body =>
    if statusCode = 401 ∨ statusCode = 403 then .error (.hyperPay authenticationError)
    else match body with
      | .unreadable | .notObject => .error (.hyperPay responseError)
      | .object document =>
        if 500 ≤ statusCode then .error (.hyperPay connectionError)
        else if 400 ≤ statusCode then .error (.hyperPay ⟨.response, "hyperpay_request_rejected"⟩)
        else .ok document

end Apartments.HyperPay
