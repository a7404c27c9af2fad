import Apartments.HyperPay.Mornings
import Apartments.Lib.Run
import Apartments.Lib.Table

/-!
# Morning stays and their outbox (`morning_models.py`, `morning07_communications.py`)

`MorningStay.save` captures what the guest is told as an event of the outbox, in the transaction of the save.
`deliver_pending_events` claims an event in a transaction, posts it and writes the answer with a conditional update;
`read_event` reads the stay, its payment and the event of its revision one after the other. The saves are the
transactions of `morning_payments.py` and `morning07_changes.py` that write the stay.
-/

namespace Apartments.Morning

open Payments HyperPay Verification

variable {F : Type} [DecidableEq F]

/-- A row of `MorningStay`; a blank fingerprint is `none`. -/
structure Stay (F : Type) extends MorningStay where
  property : ℕ
  startsAt : Time
  timeZone : String
  guestName : String
  guestPhone : String
  guestEmail : String
  guestLanguage : String
  guests : ℕ
  amountSar : Dec
  communicationRevision : ℕ
  communicationFingerprint : Option F
deriving DecidableEq

/-- What an event tells of the stay itself; the dates and times of day follow from the instants and the zone. -/
structure Facts where
  status : MorningStayStatus
  startsAt : Time
  endsAt : Time
  timeZone : String
  guestName : String
  phone : String
  guestEmail : String
  guestLanguage : String
  guests : ℕ
  amountSar : Dec
  paidAt : Option Time
deriving DecidableEq

structure Listing where
  hostawayListingMapId : Option ℕ
  name : String
deriving DecidableEq

/-- `values` of `capture_event`. -/
structure Values where
  stay : Uuid
  facts : Facts
  listing : Listing
deriving DecidableEq

/-- `normalize_phone_number`, which leaves a number in its own format as it is, the digest of the values, and whether two
instants are after midnight and until noon of one day in a time zone. -/
structure Site (F : Type) where
  normalize : String → Option String
  digest : Values → F
  sameMorning : String → Time → Time → Bool
  normalize_idem : ∀ p q, normalize p = some q → normalize q = some q
  digest_injective : Function.Injective digest
  sameMorning_short : ∀ zone start stop, sameMorning zone start stop = true → stop ≤ start + 13 * 3600

inductive EventType
  | new | modified | cancelled
deriving DecidableEq, Repr

inductive EventState
  | pending | accepted | superseded | expired
deriving DecidableEq, Repr

/-- A row of `MorningCommunicationEvent`. -/
structure Event (F : Type) where
  pk : Uuid
  revision : ℕ
  eventType : EventType
  values : Values
  fingerprint : F
  state : EventState
  attempts : ℕ
  nextAttemptAt : Time
  leaseUntil : Option Time
  acceptedAt : Option Time
  lastError : String
deriving DecidableEq

/-- `verified_payment`. -/
def verifiedPayment (s : Stay F) (attempts : List MorningPaymentAttempt) : Bool :=
  s.paidAt.isSome && attempts.any fun a =>
    a.status == .succeeded && a.amount == s.amountSar && a.currency == "SAR" && a.verifiedAt.isSome &&
      a.providerPaymentId.isSome && a.providerPaymentId != some ""

/-- A paid stay that is over. -/
def ended (s : Stay F) (now : Time) : Bool := s.status == .paid && decide (s.endsAt ≤ now)

def told (s : Stay F) : Bool := s.status == .paid || s.status == .cancelled

def factsOf (s : Stay F) (phone : String) : Facts where
  status := s.status
  startsAt := s.startsAt
  endsAt := s.endsAt
  timeZone := s.timeZone
  guestName := s.guestName
  phone := phone
  guestEmail := s.guestEmail
  guestLanguage := s.guestLanguage
  guests := s.guests
  amountSar := s.amountSar
  paidAt := s.paidAt

/-! ### Capturing -/

/-- The phone `capture_event` goes on with, if it does not return early. -/
def capturable (site : Site F) (attempts : List MorningPaymentAttempt) (now : Time) (s : Stay F) : Option String :=
  if s.environment ≠ "production" ∨ told s = false then none
  else if ended s now then none
  else if verifiedPayment s attempts = false ∨ (s.status = .cancelled ∧ s.communicationRevision = 0) then none
  else site.normalize s.guestPhone

/-- The event of a new revision. -/
def newEvent (pk : Uuid) (s : Stay F) (values : Values) (fingerprint : F) (now : Time) : Event F where
  pk := pk
  revision := s.communicationRevision + 1
  eventType :=
    if s.status = .cancelled then .cancelled else if s.communicationRevision + 1 = 1 then .new else .modified
  values := values
  fingerprint := fingerprint
  state := .pending
  attempts := 0
  nextAttemptAt := now
  leaseUntil := none
  acceptedAt := none
  lastError := ""

def supersede (e : Event F) : Event F :=
  if e.state = .pending then { e with state := .superseded, lastError := "newer_stay_revision" } else e

/-- `capture_event`. -/
def capture (site : Site F) (listing : Listing) (attempts : List MorningPaymentAttempt) (now : Time) (pk : Uuid)
    (s : Stay F) (events : List (Event F)) : Stay F × List (Event F) :=
  match capturable site attempts now s with
  | none => (s, events)
  | some phone =>
    let values : Values := ⟨s.pk, factsOf s phone, listing⟩
    if s.communicationFingerprint = some (site.digest values) then (s, events)
    else
      ({ s with
          communicationRevision := s.communicationRevision + 1
          communicationFingerprint := some (site.digest values) },
        events.map supersede ++ [newEvent pk s values (site.digest values) now])

/-! ### The world -/

/-- How far a checkout is that has committed its attempt. -/
inductive CheckoutStage
  | waiting | raising | failing
deriving DecidableEq, Repr

inductive CheckoutReply
  | valid (checkoutId : String)
  | invalid
  | raised
deriving DecidableEq

/-- The answer of the workflow's webhook to a delivery. -/
inductive Reply
  | raised
  | response (statusCode : ℕ) (accepted : Bool) (eventId : String)
deriving DecidableEq

/-- A read of an event: the stay as it was read, and whether its admission has been confirmed since. -/
structure Read (F : Type) where
  stay : Stay F
  admitted : Bool
deriving DecidableEq

/-- A payload `read_event` has answered: the stay it was read for, the event, and when its token was signed. -/
structure EventAnswer (F : Type) where
  stay : Stay F
  event : Event F
  signedAt : Time
deriving DecidableEq

/-- One production stay: its attempts with the checkouts and verifications under way, its events with the deliveries and
reads under way, and the answers of `read_event`. -/
structure World (F : Type) where
  now : Time
  listings : ℕ → Listing
  stay : Stay F
  attempts : List MorningPaymentAttempt
  checkouts : List (Uuid × CheckoutStage)
  checks : List (Settings × MorningPaymentAttempt)
  events : List (Event F)
  workers : List Uuid
  reads : List (Read F)
  answers : List (EventAnswer F)

/-- What `change_paid_stay` is given by its form, when it checked the window, and what its other checks answer. -/
structure ChangeAsked where
  checkedAt : Time
  property : ℕ
  startsAt : Time
  endsAt : Time
  timeZone : String
  guestName : String
  guestPhone : String
  guestEmail : String
  guestLanguage : String
  guests : ℕ
  unchanged : Bool
  available : Bool
deriving DecidableEq

inductive Action
  | tick (seconds : ℕ)
  | listed (property : ℕ) (listing : Listing)
  | claimCheckout (attempt : Uuid) (merchantTransactionId : String) (available : Bool) (event : Uuid)
  | checkoutReply (i : ℕ) (reply : CheckoutReply)
  | checkoutUnknown (i : ℕ)
  | checkoutReview (i : ℕ)
  | verify (settings : Settings) (attempt : Uuid)
  | verified (i : ℕ) (answer : Answer) (recorded : List String) (others : List MorningPaymentAttempt) (event : Uuid)
  | change (asked : ChangeAsked) (event : Uuid)
  | cancel (event : Uuid)
  | resend (available : Bool) (event : Uuid)
  | billing (event : Uuid)
  | claimEvent (skipped : List Uuid)
  | answered (i : ℕ) (reply : Reply)
  | read (event : Uuid) (authorised : Bool)
  | checkAdmission (i : ℕ)
  | payload (i : ℕ)
deriving DecidableEq

namespace World

/-- A transaction that has written `w'` and ends in `MorningStay.save`; a taken primary key rolls it back. -/
def commit (site : Site F) (event : Uuid) (w w' : World F) : World F :=
  if event ∈ w.events.map (·.pk) then w
  else
    let captured := capture site (w'.listings w'.stay.property) w'.attempts w'.now event w'.stay w'.events
    { w' with stay := captured.1, events := captured.2 }

/-- An attempt stands that has not been decided, or has succeeded. -/
def collecting (w : World F) : Bool := w.attempts.any fun a => unresolved a.status

/-- An attempt stands that has not been decided. -/
def undecided (w : World F) : Bool := w.attempts.any fun a => unresolved a.status && a.status != .succeeded

def withStatus (w : World F) (status : MorningStayStatus) : World F := { w with stay := { w.stay with status := status } }

def modifyAttempt (w : World F) (pk : Uuid) (f : MorningPaymentAttempt → MorningPaymentAttempt) : World F :=
  { w with attempts := Table.modify MorningPaymentAttempt.pk w.attempts pk f }

/-- The attempt `create_checkout` creates. -/
def newAttempt (w : World F) (pk : Uuid) (merchantTransactionId : String) : MorningPaymentAttempt where
  pk := pk
  stay := w.stay.pk
  merchantTransactionId := merchantTransactionId
  providerCheckoutId := none
  providerPaymentId := none
  amount := w.stay.amountSar
  currency := "SAR"
  status := .created
  failureCode := ""
  verifiedAt := none

/-- The transaction of `create_checkout`. -/
def claimCheckout (site : Site F) (w : World F) (pk : Uuid) (merchantTransactionId : String) (available : Bool)
    (event : Uuid) : World F :=
  if !available ∨ (w.stay.status ≠ .opened ∧ w.stay.status ≠ .expired ∧ w.stay.status ≠ .processing) ∨
      w.stay.paidAt.isSome ∨ w.collecting ∨ pk ∈ w.attempts.map (·.pk) ∨
      merchantTransactionId ∈ w.attempts.map (·.merchantTransactionId) then w
  else
    commit site event w
      { w.withStatus .processing with
        attempts := w.attempts ++ [w.newAttempt pk merchantTransactionId]
        checkouts := w.checkouts ++ [(pk, .waiting)] }

/-- What `_validate_checkout_response` writes, or the exception it is followed by. -/
def checkoutReply (w : World F) (i : ℕ) (reply : CheckoutReply) : World F :=
  match w.checkouts[i]? with
  | some (pk, .waiting) =>
    match reply with
    | .valid id =>
      { w.modifyAttempt pk fun a => { a with providerCheckoutId := some id, status := .pending } with
        checkouts := w.checkouts.eraseIdx i }
    | .invalid =>
      { w.modifyAttempt pk fun a => { a with status := .failed, failureCode := "checkout_response_invalid" } with
        checkouts := w.checkouts.set i (pk, .raising) }
    | .raised => { w with checkouts := w.checkouts.set i (pk, .raising) }
  | _ => w

/-- The first update after the exception; if another attempt is not decided or has succeeded by then, the update violates
`one_unresolved_morning_payment` and raises. -/
def checkoutUnknown (w : World F) (i : ℕ) : World F :=
  match w.checkouts[i]? with
  | some (pk, .raising) =>
    if w.attempts.any fun a => a.pk != pk && unresolved a.status then { w with checkouts := w.checkouts.eraseIdx i }
    else
      { w.modifyAttempt pk fun a => { a with status := .unknown, failureCode := "checkout_outcome_uncertain" } with
        checkouts := w.checkouts.set i (pk, .failing) }
  | _ => w

/-- The second update, which does not go through `save`. -/
def checkoutReview (w : World F) (i : ℕ) : World F :=
  match w.checkouts[i]? with
  | some (_, .failing) => { w.withStatus .review with checkouts := w.checkouts.eraseIdx i }
  | _ => w

/-- `verify_payment` up to its request. -/
def verify (w : World F) (settings : Settings) (pk : Uuid) : World F :=
  match Table.get MorningPaymentAttempt.pk w.attempts pk with
  | none => w
  | some a =>
    if morningOpening settings w.stay.toMorningStay a = .ask then { w with checks := w.checks ++ [(settings, a)] } else w

/-- The transaction of `verify_payment`. -/
def verified (site : Site F) (w : World F) (i : ℕ) (answer : Answer) (recorded : List String)
    (others : List MorningPaymentAttempt) (event : Uuid) : World F :=
  match w.checks[i]? with
  | none => w
  | some (settings, read) =>
    let w := { w with checks := w.checks.eraseIdx i }
    match Table.get MorningPaymentAttempt.pk w.attempts read.pk with
    | none => w
    | some a =>
      if morningRaises settings read answer ∨ a.status = .succeeded then w
      else
        match morningSaved (w.attempts ++ others)
            (morningWritten settings read answer (fun id => recorded.contains id) w.now a) with
        | none => w
        | some saved =>
          commit site event w
            { w.modifyAttempt a.pk fun _ => saved with
              stay := { w.stay with toMorningStay := morningStayAfter saved w.now w.stay.toMorningStay } }

/-- The window has to be verified again. -/
def windowChanged (s : Stay F) (asked : ChangeAsked) : Bool :=
  s.property != asked.property || s.startsAt != asked.startsAt || s.endsAt != asked.endsAt || s.guests != asked.guests

/-- `validate_window` at the time of the check, which comes before the transaction. -/
def validWindow (site : Site F) (s : Stay F) (asked : ChangeAsked) : Bool :=
  site.sameMorning asked.timeZone asked.startsAt asked.endsAt &&
    !(decide (asked.startsAt < asked.checkedAt) && asked.startsAt != s.startsAt) &&
    decide (asked.checkedAt < asked.endsAt) && decide (asked.startsAt ≤ asked.checkedAt + 14 * 86400)

/-- `change_paid_stay`; the form has cleaned the phone. -/
def change (site : Site F) (w : World F) (asked : ChangeAsked) (event : Uuid) : World F :=
  match site.normalize asked.guestPhone with
  | none => w
  | some phone =>
    if (windowChanged w.stay asked ∧ !validWindow site w.stay asked) ∨ w.now < asked.checkedAt ∨ !asked.unchanged ∨
        (w.stay.status ≠ .paid ∧ w.stay.status ≠ .opened ∧ w.stay.status ≠ .expired) ∨
        w.stay.endsAt ≤ w.now ∨ w.undecided ∨ !asked.available then w
    else
      commit site event w
        { w with
          stay :=
            { w.stay with
              property := asked.property
              startsAt := asked.startsAt
              endsAt := asked.endsAt
              timeZone := asked.timeZone
              guestName := asked.guestName
              guestPhone := phone
              guestEmail := asked.guestEmail
              guestLanguage := asked.guestLanguage
              guests := asked.guests } }

/-- `cancel_stay`. -/
def cancel (site : Site F) (w : World F) (event : Uuid) : World F :=
  if w.stay.status = .cancelled ∨ w.stay.status = .processing ∨ w.stay.status = .review ∨ w.undecided then w
  else commit site event w (w.withStatus .cancelled)

/-- The request for a payment link, and the address of an unpaid stay. -/
def unpaid (w : World F) : Bool :=
  (w.stay.status == .opened || w.stay.status == .expired) && w.stay.paidAt.isNone && !w.collecting

def resend (site : Site F) (w : World F) (available : Bool) (event : Uuid) : World F :=
  if !available ∨ !w.unpaid then w else commit site event w (w.withStatus .opened)

def billing (site : Site F) (w : World F) (event : Uuid) : World F :=
  if (w.stay.status ≠ .opened ∧ w.stay.status ≠ .expired) ∨ w.collecting then w else commit site event w w

/-! ### Deliveries -/

def modifyEvent (w : World F) (pk : Uuid) (f : Event F → Event F) : World F :=
  { w with events := Table.modify Event.pk w.events pk f }

/-- The event may be delivered now. -/
def claimable (now : Time) (skipped : List Uuid) (e : Event F) : Bool :=
  e.state == .pending && decide (e.nextAttemptAt ≤ now) && !e.leaseUntil.any (fun t => decide (now < t)) &&
    !skipped.contains e.pk

/-- The transaction of `deliver_pending_events`; the rows other transactions hold are skipped. -/
def claimEvent (w : World F) (skipped : List Uuid) : World F :=
  match w.events.find? (claimable w.now skipped) with
  | none => w
  | some e =>
    if ended w.stay w.now then
      w.modifyEvent e.pk fun e => { e with state := .expired, lastError := "morning_stay_ended" }
    else
      { w.modifyEvent e.pk fun e =>
          { e with
            attempts := e.attempts + 1
            leaseUntil := some (w.now + 45)
            nextAttemptAt := w.now + min 300 (30 * (e.attempts + 1)) } with
        workers := w.workers ++ [e.pk] }

/-- The workflow has acknowledged this event. -/
def acknowledged (pk : Uuid) : Reply → Bool
  | .raised => false
  | .response code accepted eventId => (code == 200 || code == 202) && accepted && eventId == pk.str

def replyError (pk : Uuid) : Reply → String
  | .raised => "n8n_transport_uncertain"
  | r => if acknowledged pk r then "" else "n8n_persistence_not_acknowledged"

/-- The conditional update after the request. -/
def answeredEvent (now : Time) (reply : Reply) (e : Event F) : Event F :=
  if e.state = .pending then
    { e with
      leaseUntil := none
      lastError := replyError e.pk reply
      state := if acknowledged e.pk reply then .accepted else .pending
      acceptedAt := if acknowledged e.pk reply then some now else e.acceptedAt }
  else e

def answered (w : World F) (i : ℕ) (reply : Reply) : World F :=
  match w.workers[i]? with
  | none => w
  | some pk => { w.modifyEvent pk (answeredEvent w.now reply) with workers := w.workers.eraseIdx i }

/-! ### Reads -/

/-- `read_event` up to the row of its event and the stay; `authorised` is the verdict on the token. -/
def read (w : World F) (event : Uuid) (authorised : Bool) : World F :=
  if authorised ∧ event ∈ w.events.map (·.pk) then { w with reads := w.reads ++ [⟨w.stay, false⟩] } else w

/-- The admission check, on the stay as it was read. -/
def checkAdmission (w : World F) (i : ℕ) : World F :=
  match w.reads[i]? with
  | none => w
  | some r =>
    if told r.stay = true ∧ verifiedPayment r.stay w.attempts = true ∧ ended r.stay w.now = false then
      { w with reads := w.reads.set i { r with admitted := true } }
    else { w with reads := w.reads.eraseIdx i }

/-- The event of the revision that was read is answered. -/
def payload (w : World F) (i : ℕ) : World F :=
  match w.reads[i]? with
  | none => w
  | some r =>
    if r.admitted then
      match w.events.find? fun e => e.revision == r.stay.communicationRevision with
      | none => { w with reads := w.reads.eraseIdx i }
      | some e => { w with reads := w.reads.eraseIdx i, answers := w.answers ++ [⟨r.stay, e, w.now⟩] }
    else w

def step (site : Site F) (w : World F) : Action → World F
  | .tick seconds => { w with now := w.now + seconds }
  | .listed property listing => { w with listings := Function.update w.listings property listing }
  | .claimCheckout attempt merchant available event => w.claimCheckout site attempt merchant available event
  | .checkoutReply i reply => w.checkoutReply i reply
  | .checkoutUnknown i => w.checkoutUnknown i
  | .checkoutReview i => w.checkoutReview i
  | .verify settings attempt => w.verify settings attempt
  | .verified i answer recorded others event => w.verified site i answer recorded others event
  | .change asked event => w.change site asked event
  | .cancel event => w.cancel site event
  | .resend available event => w.resend site available event
  | .billing event => w.billing site event
  | .claimEvent skipped => w.claimEvent skipped
  | .answered i reply => w.answered i reply
  | .read event authorised => w.read event authorised
  | .checkAdmission i => w.checkAdmission i
  | .payload i => w.payload i

end World

end Apartments.Morning
