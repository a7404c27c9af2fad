import Apartments.Models
import Apartments.Lib.Run

/-!
# Points notices on WhatsApp (`loyalty/whatsapp_notices.py`)

A notice is queued in the transaction of its ledger row or of its event. A worker claims it in one transaction, asks
whether the provider is there, checks the phone again and sends the image; each of these is a step, and a worker may
die, or raise, between any two of them. Any number of tasks may be started for a notice. `queuedFor` keeps, for the
proofs, the phone that a notice was queued for.
-/

namespace Apartments.Notices

/-- `GuestEvent.Kind`. -/
inductive Kind
  | account | join | ready | close | identity | phone | email | referral | profile
deriving DecidableEq, Repr

/-- What a notice is about: a row of the ledger or an event. -/
inductive Source
  | ledger (member customer sequence : ℕ)
  | event (member customer : ℕ) (kind : Kind)
deriving DecidableEq, Repr

namespace Source

def customer : Source → ℕ
  | ledger _ customer _ => customer
  | event _ customer _ => customer

/-- An earlier movement of the same member. -/
def earlier : Source → Source → Bool
  | ledger member _ sequence, ledger member' _ sequence' => member == member' && sequence < sequence'
  | _, _ => false

/-- It is an event of one of these kinds. -/
def isEvent (kinds : List Kind) : Source → Bool
  | ledger .. => false
  | event _ _ kind => kind ∈ kinds

end Source

inductive Status
  | queued | sending | accepted | uncertain | failed | skipped
deriving DecidableEq, Repr

structure VerifiedPhone where
  user : ℕ
  phone : String
  version : ℕ
deriving DecidableEq

/-- A row of `MovementNotice`; its key is its place in the table. -/
structure Notice where
  source : Source
  recipientBinding : Option ℕ
  bindingVersion : Option ℕ
  phoneDigest : String
  status : Status
  attempts : ℕ
  nextAttemptAt : Time
  startedAt : Option Time
  acceptedAt : Option Time
  errorCode : String
  providerReference : String
  createdAt : Time
deriving DecidableEq

/-- A call of `send_image`. -/
structure Submission where
  key : ℕ
  source : Source
  binding : ℕ
  phone : VerifiedPhone
deriving DecidableEq

/-- Where a worker is: before the status of the provider, before the second check, before the call, and after it. -/
inductive Stage
  | connection | check | send | outcome
deriving DecidableEq, Repr

/-- A task past its claim, with the notice that it wrote and the phone that it read. -/
structure Worker where
  key : ℕ
  notice : Notice
  binding : ℕ
  phone : VerifiedPhone
  started : Time
  stage : Stage
deriving DecidableEq

structure World where
  now : Time
  enabled : Bool
  phones : List (Option VerifiedPhone)
  sequence : ℕ
  notices : List Notice
  workers : ℕ → Option Worker
  sent : List Submission
  queuedFor : ℕ → Option (ℕ × VerifiedPhone)

/-- What a claim reads beside the notice and the phones. -/
structure Claim where
  customerActive : Bool
  participantAllowed : Bool
  hasProfile : Bool
  memberActive : Bool
  invitationEligible : Bool
  providerReady : Bool
  designAvailable : Bool
deriving DecidableEq

inductive Action
  | wait (seconds : ℕ)
  | enable (enabled : Bool)
  /-- A ledger row is posted; `saved` says that the savepoint of the notice is kept. -/
  | post (member customer : ℕ) (hasProfile saved : Bool)
  /-- A new event; `fromHistory` and `ofLedger` are its `source` and its `ledger_id`. -/
  | record (member : Option ℕ) (customer : ℕ) (kind : Kind) (fromHistory ofLedger hasProfile saved : Bool)
  /-- A phone is verified; `resumed` is the row that `resume_welcome` finds first. -/
  | verify (user : ℕ) (phone : String) (version : ℕ) (resumed : Option ℕ) (memberActive : Bool)
  | forget (binding : ℕ)
  | deliver (worker key : ℕ) (claim : Claim)
  /-- The answer to the status request of the client. -/
  | connect (worker : ℕ)
  | recheck (worker : ℕ)
  | sendImage (worker : ℕ)
  | answer (worker : ℕ) (reference : String)
  /-- Anything that a worker runs raises; after the call of `send_image` also a refusal or a timeout. -/
  | raise (worker : ℕ)
  | crash (worker : ℕ)
  | recover

variable (phoneDigest : String → String)

/-- `VerifiedPhone.objects.filter(user_id=user).first()`, with its key. -/
def bindingOf (phones : List (Option VerifiedPhone)) (user : ℕ) : Option (ℕ × VerifiedPhone) :=
  phones.zipIdx.findSome? fun (p, pk) => p.bind fun p => if p.user = user then some (pk, p) else none

namespace Notice

/-- The row that `queue_notice` and `queue_lifecycle` create. -/
def new (source : Source) (binding : Option (ℕ × VerifiedPhone)) (hasProfile : Bool) (now : Time) : Notice where
  source := source
  recipientBinding := binding.map Prod.fst
  bindingVersion := binding.map fun b => b.2.version
  phoneDigest := (binding.map fun b => phoneDigest b.2.phone).getD ""
  status := if binding.isSome && hasProfile then .queued else .skipped
  attempts := 0
  nextAttemptAt := now
  startedAt := none
  acceptedAt := none
  errorCode := if binding.isSome && hasProfile then "" else "verified_mobile_required"
  providerReference := ""
  createdAt := now

/-- The welcome that `resume_welcome` looks for. -/
def awaitsProof (n : Notice) (user : ℕ) (memberActive : Bool) (now : Time) : Bool :=
  n.source.isEvent [.join] && n.source.customer == user && memberActive && n.status == .skipped &&
    n.errorCode == "verified_mobile_required" && decide (now ≤ n.createdAt + 86400)

def resume (n : Notice) (pk : ℕ) (p : VerifiedPhone) (now : Time) : Notice :=
  { n with
    recipientBinding := some pk
    bindingVersion := some p.version
    phoneDigest := phoneDigest p.phone
    status := .queued
    errorCode := ""
    nextAttemptAt := now }

/-- `on_delete=models.SET_NULL`. -/
def unbind (n : Notice) (pk : ℕ) : Notice :=
  if n.recipientBinding = some pk then { n with recipientBinding := none } else n

def skip (n : Notice) (errorCode : String) : Notice := { n with status := .skipped, errorCode := errorCode }

def fail (n : Notice) : Notice := { n with status := .failed, errorCode := "design_unavailable" }

def start (n : Notice) (now : Time) : Notice :=
  { n with status := .sending, startedAt := some now, attempts := n.attempts + 1 }

/-- The write of a worker whose connection failed, `attempts` being what it wrote at its claim. -/
def requeue (n : Notice) (attempts : ℕ) (now : Time) : Notice :=
  { n with
    status := .queued
    errorCode := "provider_unavailable"
    nextAttemptAt := now + min (60 * 2 ^ min attempts 5) 1800 }

def lose (n : Notice) (errorCode : String) : Notice := { n with status := .uncertain, errorCode := errorCode }

/-- `reference` is the id of the response, reduced to what is kept of it. -/
def accept (n : Notice) (now : Time) (reference : String) : Notice :=
  { n with
    status := .accepted
    errorCode := ""
    acceptedAt := some now
    providerReference := reference }

/-- The guest, or the phone, is not the one that the notice was queued for. -/
def recipientChanged (n : Notice) (binding : Option VerifiedPhone) (c : Claim) : Bool :=
  !c.customerActive || !c.participantAllowed || !c.hasProfile ||
    !(binding.any fun p =>
      p.user == n.source.customer && n.bindingVersion == some p.version && n.phoneDigest == phoneDigest p.phone) ||
    n.source.isEvent [.join, .ready] && !c.memberActive

/-- An earlier movement of the same member is still to be sent. -/
def blocked (n : Notice) (notices : List Notice) : Bool :=
  notices.any fun m => m.source.earlier n.source && (m.status == .queued || m.status == .sending)

end Notice

/-- What the claim of `deliver_movement_notice` decides. -/
inductive Decision
  | leave
  | close (n : Notice)
  | send (n : Notice) (binding : ℕ) (phone : VerifiedPhone)

namespace World

variable (w : World)

/-- The phone with the key `pk`, if it is still verified. -/
def phone (pk : Option ℕ) : Option VerifiedPhone := pk.bind fun pk => (w.phones[pk]?).join

def write (key : ℕ) (n : Notice) : World := { w with notices := w.notices.set key n }

def setWorker (i : ℕ) (x : Option Worker) : World :=
  { w with workers := fun j => if j = i then x else w.workers j }

/-- `get_or_create` of a notice for what is new, in `queue_notice` and `queue_lifecycle`. -/
def queue (source : Source) (hasProfile : Bool) : World :=
  { w with
    notices := w.notices ++ [.new phoneDigest source (bindingOf w.phones source.customer) hasProfile w.now]
    queuedFor := fun k =>
      if k = w.notices.length then bindingOf w.phones source.customer else w.queuedFor k }

def queueNotice (member customer : ℕ) (hasProfile : Bool) : World :=
  if !w.enabled then w else w.queue phoneDigest (.ledger member customer w.sequence) hasProfile

def queueLifecycle (member : Option ℕ) (customer : ℕ) (kind : Kind) (fromHistory ofLedger hasProfile : Bool) : World :=
  match member with
  | none => w
  | some member =>
    if !w.enabled || fromHistory || !([Kind.join, .close, .ready].contains kind) || ofLedger then w
    else w.queue phoneDigest (.event member customer kind) hasProfile

/-- `resume_welcome`, the row `key` being the one that its query gives first. -/
def resumeWelcome (pk : ℕ) (p : VerifiedPhone) (key : Option ℕ) (memberActive : Bool) : World :=
  match key with
  | none => w
  | some key =>
    match w.notices[key]? with
    | none => w
    | some n =>
      if w.enabled && n.awaitsProof p.user memberActive w.now then
        { w.write key (n.resume phoneDigest pk p w.now) with
          queuedFor := fun k => if k = key then some (pk, p) else w.queuedFor k }
      else w

/-- A row of `VerifiedPhone` is created, which neither another of the user nor the same number may prevent. -/
def verify (p : VerifiedPhone) (resumed : Option ℕ) (memberActive : Bool) : World :=
  if w.phones.any fun q => q.any fun q => q.user == p.user || q.phone == p.phone then w
  else { w with phones := w.phones ++ [some p] }.resumeWelcome phoneDigest w.phones.length p resumed memberActive

def forget (pk : ℕ) : World :=
  { w with phones := w.phones.set pk none, notices := w.notices.map fun n => n.unbind pk }

/-- The transaction of `deliver_movement_notice`, on the notice that it locks. -/
def decision (n : Notice) (c : Claim) : Decision :=
  if n.status ≠ .queued ∨ w.now < n.nextAttemptAt then .leave
  else if n.recipientChanged phoneDigest (w.phone n.recipientBinding) c then .close (n.skip "recipient_changed")
  else if n.source.isEvent [.ready] && !c.invitationEligible then .close (n.skip "invitation_no_longer_eligible")
  else if n.blocked w.notices then .leave
  else if !c.providerReady then .leave
  else if !c.designAvailable then .close n.fail
  else
    match n.recipientBinding, w.phone n.recipientBinding with
    | some pk, some p => .send (n.start w.now) pk p
    | _, _ => .leave

/-- `deliver_movement_notice` up to its claim, by the free worker `i`. -/
def deliver (i key : ℕ) (c : Claim) : World :=
  match w.workers i, w.notices[key]? with
  | none, some n =>
    if !w.enabled then w
    else
      match w.decision phoneDigest n c with
      | .leave => w
      | .close n => w.write key n
      | .send n pk p => (w.write key n).setWorker i (some ⟨key, n, pk, p, w.now, .connection⟩)
  | _, _ => w

/-- `_update`: only a notice that is being sent is written. -/
def update (key : ℕ) (f : Notice → Notice) : World :=
  match w.notices[key]? with
  | some n => if n.status = .sending then w.write key (f n) else w
  | none => w

/-- A worker writes the outcome and is gone. -/
def finish (i key : ℕ) (f : Notice → Notice) : World := (w.update key f).setWorker i none

/-- The phone is still the one that the worker read, and the switch is still on. -/
def confirmed (x : Worker) : Bool :=
  w.enabled && (w.phone (some x.binding)).any fun p =>
    p.user == x.notice.source.customer && x.notice.bindingVersion == some p.version && p.phone == x.phone.phone

/-- The update of `recover_notices`; what it starts again are calls of `deliver`. -/
def recoverNotices : World :=
  if !w.enabled then w
  else
    { w with
      notices := w.notices.map fun n =>
        if n.status = .sending ∧ n.startedAt.any (· + 600 ≤ w.now) then n.lose "worker_outcome_unknown" else n }

end World

open World

/-- Time passes; `time_limit=45` ends the workers that are at it for so long. -/
def World.wait (w : World) (seconds : ℕ) : World :=
  { w with
    now := w.now + seconds
    workers := fun i => (w.workers i).filter fun x => w.now + seconds < x.started + 45 }

def step (w : World) : Action → World
  | .wait seconds => w.wait seconds
  | .enable enabled => { w with enabled := enabled }
  | .post member customer hasProfile saved =>
    let w := { w with sequence := w.sequence + 1 }
    if saved then w.queueNotice phoneDigest member customer hasProfile else w
  | .record member customer kind fromHistory ofLedger hasProfile saved =>
    if saved then w.queueLifecycle phoneDigest member customer kind fromHistory ofLedger hasProfile else w
  | .verify user phone version resumed memberActive =>
    w.verify phoneDigest ⟨user, phone, version⟩ resumed memberActive
  | .forget binding => w.forget binding
  | .deliver i key c => w.deliver phoneDigest i key c
  | .connect i =>
    match w.workers i with
    | some x => if x.stage = .connection then w.setWorker i (some { x with stage := .check }) else w
    | none => w
  | .recheck i =>
    match w.workers i with
    | some x =>
      if x.stage = .check then
        if w.confirmed x then w.setWorker i (some { x with stage := .send })
        else w.finish i x.key fun n => n.skip "recipient_changed"
      else w
    | none => w
  | .sendImage i =>
    match w.workers i with
    | some x =>
      if x.stage = .send then
        { w.setWorker i (some { x with stage := .outcome }) with
          sent := w.sent ++ [⟨x.key, x.notice.source, x.binding, x.phone⟩] }
      else w
    | none => w
  | .answer i reference =>
    match w.workers i with
    | some x => if x.stage = .outcome then w.finish i x.key fun n => n.accept w.now reference else w
    | none => w
  | .raise i =>
    match w.workers i with
    | some x =>
      if x.stage = .connection ∨ x.stage = .check then
        w.finish i x.key fun n => n.requeue x.notice.attempts w.now
      else w.finish i x.key fun n => n.lose "outcome_unknown"
    | none => w
  | .crash i => w.setWorker i none
  | .recover => w.recoverNotices

/-- Nothing has been queued yet. -/
def initial : World where
  now := 0
  enabled := true
  phones := []
  sequence := 0
  notices := []
  workers := fun _ => none
  sent := []
  queuedFor := fun _ => none

/-- The world after the steps `as`. -/
abbrev after (as : List Action) : World := Machine.run (step phoneDigest) initial as

end Apartments.Notices
