import Apartments.Lib.Table
import Apartments.Models
import Apartments.Text

/-!
# Recipients of e-mails (`notifications/services/email.py`)

A delivery names its recipient by a source and a reference, and `_resolve_recipient` looks the address up when it is
sent. `Directory` is what it finds there. `rendered` says of a row that nothing raises while the values of its text are
formatted, as far as that is reached. A lookup raises `EmailProviderError` or something else.
-/

namespace Apartments.Emails

/-- `recipient_source`; the sources of the loyalty program start with `loyalty_`. -/
inductive RecipientSource
  | contactReply | loyaltyWelcome | loyaltyInvitation | loyaltyLedger | loyaltyMember | account | contact
  | bookingIntent | modification | reservation | refund | operations | support | unknown
deriving DecidableEq, Repr

inductive DeliveryStatus
  | queued | sending | sent | failed | cancelled | skipped | disabled
deriving DecidableEq, Repr

/-- A row of `EmailDelivery`. -/
structure EmailDelivery where
  pk : Uuid
  messageType : String
  recipientHash : String
  recipientSource : RecipientSource
  recipientReference : String
  idempotencyKey : String
  status : DeliveryStatus
  attemptCount : ℕ
  lastErrorCode : String
deriving DecidableEq

/-- An exception: `EmailProviderError` or another one. -/
inductive Raised
  | provider (code : String) (permanent : Bool)
  | other
deriving DecidableEq, Repr

/-- `EmailProviderError(code, permanent=True)`. -/
def permanentError {α : Type} (code : String) : Except Raised α := .error (.provider code true)

structure ContactReply where
  pk : String
  delivery : Option Uuid
  byOwner : Bool
  recipientEmail : String
  contactEmail : String
deriving DecidableEq

/-- `verification` is that a verification was sent. -/
structure Account where
  pk : ℕ
  email : String
  verification : Bool
deriving DecidableEq

structure ContactMessage where
  pk : ℕ
  email : String
deriving DecidableEq

/-- A booking, change, refund or intent behind a reference, with the e-mail of its booking intent. -/
structure Stay where
  reference : String
  guestEmail : Option String
  rendered : Bool
deriving DecidableEq

/-- An event, booking, posting or member of the loyalty program; `refusal` is the code of the first check that fails. -/
structure LoyaltyRecipient where
  reference : String
  refusal : Option String
  email : String
  rendered : Bool
deriving DecidableEq

structure Directory where
  replies : List ContactReply
  accounts : List Account
  messages : List ContactMessage
  intents : List Stay
  modifications : List Stay
  reservations : List Stay
  refunds : List Stay
  operationsEmail : String
  supportEmail : String
  loyaltyWelcome : Bool
  loyaltyMessages : Bool
  welcomes : List LoyaltyRecipient
  invitations : List LoyaltyRecipient
  ledger : List LoyaltyRecipient
  members : List LoyaltyRecipient
deriving DecidableEq

/-- The row of the reference is there, and its text can be formatted. -/
def LoyaltyRecipient.found (rows : List LoyaltyRecipient) (reference : String) : Bool :=
  (Table.get LoyaltyRecipient.reference rows reference).any (·.rendered)

def Stay.found (stays : List Stay) (reference : String) : Bool :=
  (Table.get Stay.reference stays reference).any (·.rendered)

/-- `int(reference)` of a printed key. -/
def keyOf (reference : String) : Option ℕ :=
  let digits := (Text.strip reference).toList
  if digits ≠ [] ∧ digits.all Char.isDigit = true then
    some (digits.foldl (fun n c => 10 * n + (c.toNat - '0'.toNat)) 0)
  else none

/-- A loyalty recipient behind `.get(..)`, which raises when the row is not there. -/
def loyaltyRecipient (rows : List LoyaltyRecipient) (reference : String) : Except Raised String :=
  match Table.get LoyaltyRecipient.reference rows reference with
  | none => .error .other
  | some r =>
    if !r.rendered then .error .other
    else
      match r.refusal with
      | some code => permanentError code
      | none => .ok r.email

/-- `resolve_recipient` of the loyalty program. -/
def resolveLoyalty (dir : Directory) (source : RecipientSource) (reference : String) : Except Raised String :=
  if source = .loyaltyWelcome then
    if dir.loyaltyWelcome then loyaltyRecipient dir.welcomes reference else permanentError "loyalty_welcome_disabled"
  else if !dir.loyaltyMessages then permanentError "loyalty_messages_disabled"
  else if source = .loyaltyInvitation then loyaltyRecipient dir.invitations reference
  else if source = .loyaltyLedger then loyaltyRecipient dir.ledger reference
  else loyaltyRecipient dir.members reference

/-- `_account_links`. -/
def accountLinks (dir : Directory) (d : EmailDelivery) : Except Raised String :=
  match keyOf d.recipientReference with
  | none => .error .other
  | some pk =>
    match Table.get Account.pk dir.accounts pk with
    | none => permanentError "recipient_not_available"
    | some user =>
      if user.email = "" then permanentError "recipient_not_available"
      else if d.messageType = "account_verify_email" ∧ user.verification = false then
        permanentError "verification_not_available"
      else .ok user.email

/-- The recipient of a stay behind `.get(..)`. -/
def stayRecipient (stays : List Stay) (reference : String) : Except Raised String :=
  match Table.get Stay.reference stays reference with
  | none => .error .other
  | some s =>
    if !s.rendered then .error .other
    else
      match s.guestEmail with
      | none => permanentError "recipient_not_available"
      | some email => .ok email

/-- The alerts to operations that are about a refund. -/
def refundAlerts : List String := ["cancellation_refund_admin_alert", "modification_refund_admin_alert"]

/-- `_resolve_recipient`. -/
def resolveRecipient (recipientHmac : String → String) (dir : Directory) (d : EmailDelivery) : Except Raised String :=
  match d.recipientSource with
  | .contactReply =>
    match Table.get ContactReply.pk dir.replies d.recipientReference with
    | none => permanentError "contact_reply_not_available"
    | some reply =>
      if d.messageType ≠ "contact_reply" ∨ reply.delivery ≠ some d.pk ∨ reply.byOwner = false ∨
          recipientHmac reply.recipientEmail ≠ recipientHmac reply.contactEmail then
        permanentError "contact_reply_not_available"
      else .ok reply.recipientEmail
  | .loyaltyWelcome | .loyaltyInvitation | .loyaltyLedger | .loyaltyMember =>
    resolveLoyalty dir d.recipientSource d.recipientReference
  | .account => accountLinks dir d
  | .contact =>
    match (keyOf d.recipientReference).bind (Table.get ContactMessage.pk dir.messages) with
    | none => .error .other
    | some message => .ok message.email
  | .bookingIntent => stayRecipient dir.intents d.recipientReference
  | .modification => stayRecipient dir.modifications d.recipientReference
  | .reservation => stayRecipient dir.reservations d.recipientReference
  | .refund => stayRecipient dir.refunds d.recipientReference
  | .operations =>
    if dir.operationsEmail = "" then permanentError "operations_email_not_configured"
    else if d.messageType ∈ refundAlerts then
      if Stay.found dir.refunds d.recipientReference then .ok dir.operationsEmail else .error .other
    else .ok dir.operationsEmail
  | .support => if dir.supportEmail = "" then permanentError "support_email_not_configured" else .ok dir.supportEmail
  | .unknown => permanentError "unsupported_recipient_source"

/-! ### When a lookup raises something else -/

/-- What the delivery refers to is where its source looks for it. -/
def Directory.knows (dir : Directory) (d : EmailDelivery) : Bool :=
  match d.recipientSource with
  | .contactReply | .support | .unknown => true
  | .loyaltyWelcome => !dir.loyaltyWelcome || LoyaltyRecipient.found dir.welcomes d.recipientReference
  | .loyaltyInvitation => !dir.loyaltyMessages || LoyaltyRecipient.found dir.invitations d.recipientReference
  | .loyaltyLedger => !dir.loyaltyMessages || LoyaltyRecipient.found dir.ledger d.recipientReference
  | .loyaltyMember => !dir.loyaltyMessages || LoyaltyRecipient.found dir.members d.recipientReference
  | .account => (keyOf d.recipientReference).isSome
  | .contact => ((keyOf d.recipientReference).bind (Table.get ContactMessage.pk dir.messages)).isSome
  | .bookingIntent => Stay.found dir.intents d.recipientReference
  | .modification => Stay.found dir.modifications d.recipientReference
  | .reservation => Stay.found dir.reservations d.recipientReference
  | .refund => Stay.found dir.refunds d.recipientReference
  | .operations => dir.operationsEmail == "" || !refundAlerts.contains d.messageType ||
      Stay.found dir.refunds d.recipientReference

variable {recipientHmac : String → String} {dir : Directory} {d : EmailDelivery}

theorem loyaltyRecipient_other {rows : List LoyaltyRecipient} {reference : String} :
    loyaltyRecipient rows reference = .error .other ↔ LoyaltyRecipient.found rows reference = false := by
  unfold loyaltyRecipient LoyaltyRecipient.found
  cases Table.get LoyaltyRecipient.reference rows reference with
  | none => simp
  | some r =>
    cases hv : r.rendered <;> cases hr : r.refusal <;> simp [hv, hr, permanentError]

theorem stayRecipient_other {stays : List Stay} {reference : String} :
    stayRecipient stays reference = .error .other ↔ Stay.found stays reference = false := by
  unfold stayRecipient Stay.found
  cases Table.get Stay.reference stays reference with
  | none => simp
  | some s =>
    cases hv : s.rendered <;> cases he : s.guestEmail <;> simp [hv, he, permanentError]

theorem accountLinks_other : accountLinks dir d = .error .other ↔ (keyOf d.recipientReference).isSome = false := by
  unfold accountLinks
  cases keyOf d.recipientReference with
  | none => simp
  | some pk =>
    dsimp only
    cases Table.get Account.pk dir.accounts pk with
    | none => simp [permanentError]
    | some user =>
      dsimp only
      split_ifs <;> simp [permanentError]

/-- A lookup raises something else than `EmailProviderError` exactly when what it looks for is not there. -/
theorem resolveRecipient_other : resolveRecipient recipientHmac dir d = .error .other ↔ dir.knows d = false := by
  unfold resolveRecipient Directory.knows
  cases d.recipientSource with
  | contactReply =>
    dsimp only
    cases Table.get ContactReply.pk dir.replies d.recipientReference with
    | none => simp [permanentError]
    | some reply =>
      dsimp only
      split_ifs <;> simp [permanentError]
  | loyaltyWelcome =>
    cases hw : dir.loyaltyWelcome <;> simp [resolveLoyalty, hw, permanentError, loyaltyRecipient_other]
  | loyaltyInvitation | loyaltyLedger | loyaltyMember =>
    cases hm : dir.loyaltyMessages <;> simp [resolveLoyalty, hm, permanentError, loyaltyRecipient_other]
  | account => exact accountLinks_other
  | contact =>
    dsimp only
    cases (keyOf d.recipientReference).bind (Table.get ContactMessage.pk dir.messages) <;> simp
  | bookingIntent | modification | reservation | refund => exact stayRecipient_other
  | operations =>
    by_cases he : dir.operationsEmail = ""
    · simp [he, permanentError]
    by_cases ha : d.messageType ∈ refundAlerts
    · cases hf : Stay.found dir.refunds d.recipientReference <;> simp [he, ha]
    · simp [he, ha]
  | support =>
    dsimp only
    split_ifs <;> simp [permanentError]
  | unknown => simp [permanentError]

end Apartments.Emails
