import Apartments.Mornings.Answers
import Apartments.Mornings.Instructions

/-!
# From the website to its gateway and back

The website answers a payload, the workflow ingests it, renders and prepares its jobs, is handed one to send and posts it
to the gateway of the website with the token of the payload. The website and the queue have clocks of their own. The
queue is shared with other stays, which are not followed: their payloads and what the website knows of them are arguments.
-/

namespace Apartments.Morning

open Payments Verification Machine

variable {F H : Type} [DecidableEq F] [DecidableEq H]

/-- What a payload writes of digests, instants and addresses. -/
structure Format (F : Type) where
  hexdigest : F → String
  date : String → Time → String
  minutes : String → Time → ℕ
  managementUrl : Uuid → String

def bookingStatus : MorningStayStatus → Option BookingStatus
  | .paid => some .paid
  | .cancelled => some .cancelled
  | _ => none

/-- The payload of an answer as the workflow goes on with it; `none` is not admitted. -/
def snapshotOf (fmt : Format F) (a : EventAnswer F) : Option Snapshot :=
  match bookingStatus a.event.values.facts.status, a.event.values.listing.hostawayListingMapId with
  | some status, some listingMapId =>
    some
      { stay := a.event.values.stay
        revision := a.event.revision
        fingerprint := fmt.hexdigest a.event.fingerprint
        status := status
        listingMapId := listingMapId
        listingName := a.event.values.listing.name
        startsAt := a.event.values.facts.startsAt
        endsAt := a.event.values.facts.endsAt
        timeZone := a.event.values.facts.timeZone
        arrivalDate := fmt.date a.event.values.facts.timeZone a.event.values.facts.startsAt
        departureDate := fmt.date a.event.values.facts.timeZone a.event.values.facts.endsAt
        checkInTime := fmt.minutes a.event.values.facts.timeZone a.event.values.facts.startsAt
        checkOutTime := fmt.minutes a.event.values.facts.timeZone a.event.values.facts.endsAt
        guestName := a.event.values.facts.guestName
        phone := a.event.values.facts.phone
        guestLanguage := a.event.values.facts.guestLanguage
        managementUrl := fmt.managementUrl a.event.values.stay
        deliveryToken := deliveryToken a.stay a.signedAt }
  | _, _ => none

/-- The request the workflow posts for a job it was told to send. -/
def messageOf (j : Job) : Message where
  referenceId := j.referenceId
  jobKey := j.jobKey
  messageType := j.kind
  messageBody := j.body
  recipientKind := j.recipientKind
  recipientPhone := j.recipient
  rest := ""

/-- A request that the gateway does not refuse: it goes on to the provider, or did before. -/
def Opening.accepted : Opening → Bool
  | .posting | .known .. => true
  | _ => false

/-- Events are read only if the integration is enabled. -/
def Action.served (on : Bool) : Action → Action
  | .read event authorised => .read event (authorised && on)
  | a => a

/-- A stay on the website, the queue with the gateway, the executions that prepare, and every job that was handed out to
be sent with the payload it was handed out with. -/
structure Circuit (F H : Type) where
  website : World F
  works : Works H
  preparers : List Preparer
  sends : List (Job × Snapshot)

inductive CircuitAct (F : Type)
  | website (a : Action)
  | tick (seconds : ℕ)
  | enable (enabled : Bool)
  | ingest (i : ℕ)
  | ingestOther (s : Snapshot)
  | claimBooking (worker : String) (apartments : List ℕ) (skipped : List Uuid)
  | eventClaimBooking (worker : String) (stay : Uuid) (revision : ℕ) (apartments : List ℕ) (skipped : List Uuid)
  | prepare (i : ℕ)
  | next (worker : String) (skipped : List String)
  | eventNext (worker : String) (stay : Uuid) (revision : ℕ) (skipped : List String)
  | result (key : String) (worker : String) (result : Queue.JobResult)
  | post (i : ℕ)
  | postOther (i : ℕ) (s : Stay F) (attempts : List MorningPaymentAttempt)
  | call (i : ℕ) (send : UltraMsg.Send)
  | record (i : ℕ)

namespace Circuit

def withWorks (c : Circuit F H) (w : Works H) : Circuit F H := { c with works := w }

def claimed (c : Circuit F H) (worker : String) (q : Queue × Option Reservation) : Circuit F H :=
  { c with
    works := c.works.claimed worker q
    preparers := c.preparers ++ q.2.toList.map fun r => ⟨worker, r.payload, r.previousPayload, c.works.queue.now⟩ }

def handed (c : Circuit F H) (worker : String) (q : Queue × Queue.Handout) : Circuit F H :=
  { c with
    works := c.works.handed worker q
    sends := c.sends ++
      match q.2 with
      | .send j s => [(j, s)]
      | _ => [] }

/-- The answer of the gateway to a request for a job of this stay. -/
def posted (gate : GatewaySite H) (c : Circuit F H) (e : Job × Snapshot) : Gateway H × Opening :=
  c.works.gateway.sendMessage gate c.website.stay c.website.attempts c.website.now (some e.2.deliveryToken)
    (some (messageOf e.1))

def prepare (fill : Templates) (gate : GatewaySite H) (c : Circuit F H) (i : ℕ) : Circuit F H :=
  match c.preparers[i]? with
  | none => c
  | some p =>
    match render fill p.booking p.previous p.claimedAt with
    | none => c
    | some batch =>
      c.withWorks (c.works.step gate (.prepare p.booking.stay p.booking.revision p.worker batch : WorkAct F))

def post (gate : GatewaySite H) (c : Circuit F H) (i : ℕ) : Circuit F H :=
  match c.sends[i]? with
  | none => c
  | some e =>
    if e.1.stay = c.website.stay.pk then c.withWorks { c.works with gateway := (c.posted gate e).1 } else c

/-- A job of another stay is posted. -/
def postOther (gate : GatewaySite H) (c : Circuit F H) (i : ℕ) (s : Stay F) (attempts : List MorningPaymentAttempt) :
    Circuit F H :=
  match c.sends[i]? with
  | none => c
  | some e =>
    if e.1.stay = c.website.stay.pk then c
    else
      c.withWorks
        { c.works with
          gateway := (c.works.gateway.sendMessage gate s attempts c.website.now (some e.2.deliveryToken)
            (some (messageOf e.1))).1 }

def step (site : Site F) (fmt : Format F) (fill : Templates) (gate : GatewaySite H) (c : Circuit F H) :
    CircuitAct F → Circuit F H
  | .website a => { c with website := c.website.step site (a.served gate.enabled) }
  | .tick seconds => c.withWorks (c.works.step gate (.tick seconds : WorkAct F))
  | .enable enabled => c.withWorks (c.works.step gate (.enable enabled : WorkAct F))
  | .ingest i =>
    match c.website.answers[i]?.bind (snapshotOf fmt) with
    | none => c
    | some s => c.withWorks (c.works.step gate (.ingest s : WorkAct F))
  | .ingestOther s =>
    if s.stay = c.website.stay.pk then c else c.withWorks (c.works.step gate (.ingest s : WorkAct F))
  | .claimBooking worker apartments skipped =>
    c.claimed worker (c.works.queue.claimBooking worker apartments.contains skipped)
  | .eventClaimBooking worker stay revision apartments skipped =>
    c.claimed worker (c.works.queue.eventClaimBooking worker stay revision apartments.contains skipped)
  | .prepare i => c.prepare fill gate i
  | .next worker skipped => c.handed worker (c.works.queue.next gate.md5 worker skipped)
  | .eventNext worker stay revision skipped =>
    c.handed worker (c.works.queue.eventNext gate.md5 worker stay revision skipped)
  | .result key worker result => c.withWorks (c.works.step gate (.result key worker result : WorkAct F))
  | .post i => c.post gate i
  | .postOther i s attempts => c.postOther gate i s attempts
  | .call i send => c.withWorks (c.works.step gate (.call i send : WorkAct F))
  | .record i => c.withWorks (c.works.step gate (.record i : WorkAct F))

/-- A stay that has just been saved, and a workflow that has not begun. -/
structure Fresh (site : Site F) (gate : GatewaySite H) (c : Circuit F H) : Prop where
  production : c.website.stay.environment = "production"
  phone : site.normalize c.website.stay.guestPhone = some c.website.stay.guestPhone
  window : InTime c.website.stay.endsAt c.website.now
  revision : c.website.stay.communicationRevision = 0
  payment : c.website.attempts = [] ∧ c.website.checkouts = [] ∧ c.website.checks = []
  outbox : c.website.events = [] ∧ c.website.reads = [] ∧ c.website.answers = []
  works : Works.Fresh c.works
  rows : c.works.gateway.rows = []
  preparing : c.preparers = [] ∧ c.sends = []
  workGroup : c.works.queue.workGroupId = gate.workGroupId

end Circuit

end Apartments.Morning
