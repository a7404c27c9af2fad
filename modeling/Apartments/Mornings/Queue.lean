import Apartments.Mornings.Gateway

/-!
# The queue of morning jobs (`database.sql`, `event-workers.sql`, `noon-checkout.sql`)

Each `lsa07_*` function is one transaction on the reservations and jobs; one that raises leaves both as they are. The
workers of all stays and those of one revision share `claimWith` and `nextWith`, which take the scope of the second.
Where rows are taken with `SKIP LOCKED`, the ones that other transactions hold are an argument.
-/

namespace Apartments.Morning

inductive BookingStatus
  | paid | cancelled
deriving DecidableEq, Repr

/-- A payload of the website; times of day are minutes after midnight. A signed token is longer than what is asked. -/
structure Snapshot where
  stay : Uuid
  revision : ℕ
  fingerprint : String
  status : BookingStatus
  listingMapId : ℕ
  listingName : String
  startsAt : Time
  endsAt : Time
  timeZone : String
  arrivalDate : String
  departureDate : String
  checkInTime : ℕ
  checkOutTime : ℕ
  guestName : String
  phone : String
  guestLanguage : String
  managementUrl : String
  deliveryToken : DeliveryToken
deriving DecidableEq

/-- A row of `lsa07_reservations`; an empty previous payload is `none`. -/
structure Reservation where
  stay : Uuid
  revision : ℕ
  fingerprint : String
  payload : Snapshot
  previousPayload : Option Snapshot
  preparedRevision : ℕ
  prepareOwner : Option String
  prepareUntil : Option Time
  updatedAt : Time
deriving DecidableEq

inductive JobState
  | pending | posting | check | delivered | failed | superseded | expired
deriving DecidableEq, Repr

/-- `state IN ('pending','posting','check')`. -/
def JobState.unfinished (s : JobState) : Bool := s == .pending || s == .posting || s == .check

/-- `state IN ('posting','check')`. -/
def JobState.posted (s : JobState) : Bool := s == .posting || s == .check

/-- A row of `lsa07_jobs`. -/
structure Job where
  jobKey : String
  stay : Uuid
  revision : ℕ
  kind : Kind
  recipientKind : RecipientKind
  recipient : String
  body : String
  sequence : ℤ
  dueAt : Time
  eligibleUntil : Option Time
  state : JobState
  referenceId : String
  providerId : Option String
  attempts : ℕ
  deadline : Option Time
  nextAt : Time
  leaseOwner : Option String
  leaseUntil : Option Time
  lastError : String
deriving DecidableEq

/-- A job of the batch that `lsa07_prepare` is given. -/
structure JobAsked where
  kind : Kind
  body : String
  jobKey : String
  sequence : ℤ
  recipientKind : RecipientKind
  dueAt : Time
  eligibleUntil : Option Time
deriving DecidableEq

structure Queue where
  enabled : Bool
  workGroupId : String
  now : Time
  reservations : List Reservation
  jobs : List Job
deriving DecidableEq

/-- The stay and revision a worker is bound to. -/
abbrev Scope := Option (Uuid × ℕ)

def inScope (scope : Scope) (stay : Uuid) (revision : ℕ) : Bool := scope.all (· == (stay, revision))

/-! ### Ingesting -/

/-- `'^\+?[1-9][0-9]{7,14}$'`. -/
def phoneValid (phone : String) : Bool :=
  let rest := if phone.toList.head? = some '+' then phone.toList.tail else phone.toList
  rest.all Char.isDigit && rest.head? != some '0' && decide (8 ≤ rest.length) && decide (rest.length ≤ 15)

/-- `'^[0-9a-f]{64}$'`. -/
def fingerprintValid (fingerprint : String) : Bool :=
  fingerprint.toList.all (fun c => c.isDigit || ('a' ≤ c && c ≤ 'f')) && fingerprint.length == 64

/-- The snapshot passes the checks of `lsa07_ingest`. -/
def Snapshot.valid (s : Snapshot) : Bool :=
  phoneValid s.phone && ["Asia/Riyadh", "Africa/Casablanca"].contains s.timeZone && fingerprintValid s.fingerprint &&
    s.arrivalDate == s.departureDate && decide (s.startsAt < s.endsAt) &&
    decide (s.endsAt < s.startsAt + 12 * 3600) && decide (0 < s.checkInTime) &&
    decide (s.checkInTime < s.checkOutTime) && decide (s.checkOutTime ≤ 12 * 60) && decide (1 ≤ s.revision) &&
    decide (1 ≤ s.listingMapId)

inductive IngestReply
  | raised | stale | duplicate | accepted
deriving DecidableEq, Repr

/-- The jobs of the stay that have not ended are superseded. -/
def Job.superseded (stay : Uuid) (j : Job) : Job :=
  if j.stay = stay ∧ j.state.unfinished = true then
    { j with state := .superseded, leaseOwner := none, leaseUntil := none }
  else j

def Reservation.revised (s : Snapshot) (now : Time) (r : Reservation) : Reservation :=
  { r with
    revision := s.revision
    fingerprint := s.fingerprint
    previousPayload := some r.payload
    payload := s
    prepareOwner := none
    prepareUntil := none
    updatedAt := now }

def newReservation (s : Snapshot) (now : Time) : Reservation where
  stay := s.stay
  revision := s.revision
  fingerprint := s.fingerprint
  payload := s
  previousPayload := none
  preparedRevision := 0
  prepareOwner := none
  prepareUntil := none
  updatedAt := now

namespace Queue

def reservation (q : Queue) (stay : Uuid) : Option Reservation := Table.get Reservation.stay q.reservations stay

def modifyReservation (q : Queue) (stay : Uuid) (f : Reservation → Reservation) : Queue :=
  { q with reservations := Table.modify Reservation.stay q.reservations stay f }

def modifyJob (q : Queue) (key : String) (f : Job → Job) : Queue :=
  { q with jobs := Table.modify Job.jobKey q.jobs key f }

/-- `lsa07_ingest`. -/
def ingest (q : Queue) (s : Snapshot) : Queue × IngestReply :=
  if !q.enabled ∨ !s.valid then (q, .raised)
  else
    match q.reservation s.stay with
    | none => ({ q with reservations := q.reservations ++ [newReservation s q.now] }, .accepted)
    | some r =>
      if s.revision < r.revision then (q, .stale)
      else if s.revision = r.revision then (q, if s.fingerprint ≠ r.fingerprint then .raised else .duplicate)
      else
        ({ q with jobs := q.jobs.map (Job.superseded s.stay) }.modifyReservation s.stay (Reservation.revised s q.now),
          .accepted)

/-! ### Preparing -/

/-- A reservation that can be claimed for its preparation. -/
def claimable (q : Queue) (scope : Scope) (skipped : List Uuid) (r : Reservation) : Bool :=
  inScope scope r.stay r.revision && decide (r.preparedRevision < r.revision) && r.prepareUntil.all (· ≤ q.now) &&
    !skipped.contains r.stay

/-- The claim of a reservation, if the apartment of its listing is known. -/
def claimWith (q : Queue) (scope : Scope) (worker : String) (apartment : ℕ → Bool) (skipped : List Uuid) :
    Queue × Option Reservation :=
  match Table.first (fun a b => decide (a.updatedAt < b.updatedAt)) (q.reservations.filter (q.claimable scope skipped)) with
  | none => (q, none)
  | some r =>
    if !q.enabled ∨ !apartment r.payload.listingMapId then (q, none)
    else
      (q.modifyReservation r.stay fun r =>
          { r with prepareOwner := some worker, prepareUntil := some (q.now + 90) }, some r)

/-- `lsa07_claim_booking`. -/
def claimBooking (q : Queue) (worker : String) (apartment : ℕ → Bool) (skipped : List Uuid) :
    Queue × Option Reservation :=
  q.claimWith none worker apartment skipped

/-- `lsa07_event_claim_booking`. -/
def eventClaimBooking (q : Queue) (worker : String) (stay : Uuid) (revision : ℕ) (apartment : ℕ → Bool)
    (skipped : List Uuid) : Queue × Option Reservation :=
  q.claimWith (some (stay, revision)) worker apartment skipped

def recipientOf (q : Queue) (r : Reservation) : RecipientKind → String
  | .group => q.workGroupId
  | .guest => digits r.payload.phone

/-- A job of the batch makes `lsa07_prepare` raise. -/
def refuses (q : Queue) (r : Reservation) (m : JobAsked) : Bool :=
  !(jobPrefix r.stay).toList.isPrefixOf m.jobKey.toList || !(1 ≤ m.body.length && m.body.length ≤ 4096) ||
    (q.recipientOf r m.recipientKind).isEmpty ||
    (r.payload.status == .cancelled && m.kind != .statusCancelled && m.kind != .groupNotice) ||
    (m.kind == .reminderCheckout &&
      (m.dueAt + 60 * 60 != r.payload.endsAt || decide (m.dueAt ≤ q.now)))

def newJob (q : Queue) (md5 : String → String) (r : Reservation) (m : JobAsked) : Job where
  jobKey := m.jobKey
  stay := r.stay
  revision := r.revision
  kind := m.kind
  recipientKind := m.recipientKind
  recipient := q.recipientOf r m.recipientKind
  body := m.body
  sequence := m.sequence
  dueAt := m.dueAt
  eligibleUntil := m.eligibleUntil
  state := .pending
  referenceId := "lsa07-" ++ md5 m.jobKey
  providerId := none
  attempts := 0
  deadline := none
  nextAt := q.now
  leaseOwner := none
  leaseUntil := none
  lastError := ""

/-- The row of a key that is prepared once more; what was posted before is only checked. -/
def revived (q : Queue) (r : Reservation) (m : JobAsked) (j : Job) : Job :=
  if j.state = .delivered then j
  else
    { j with
      revision := r.revision
      body := m.body
      recipient := q.recipientOf r m.recipientKind
      dueAt := m.dueAt
      eligibleUntil := m.eligibleUntil
      state := if 0 < j.attempts then .check else .pending
      leaseOwner := none
      leaseUntil := none
      nextAt := q.now }

/-- `INSERT INTO lsa07_jobs` with `ON CONFLICT(job_key)`: the row of the key is rewritten by `f`, another row with its
reference violates the constraint. -/
def insertJob (jobs : List Job) (j : Job) (f : Job → Job) : Option (List Job) :=
  if (Table.get Job.jobKey jobs j.jobKey).isSome then some (Table.modify Job.jobKey jobs j.jobKey f)
  else if jobs.any fun x => x.referenceId == j.referenceId then none
  else some (jobs ++ [j])

def prepareJob (q : Queue) (md5 : String → String) (r : Reservation) (jobs : List Job) (m : JobAsked) :
    Option (List Job) :=
  if q.refuses r m then none else insertJob jobs (q.newJob md5 r m) (q.revived r m)

/-- The worker holds the claim of this revision. -/
def prepares (q : Queue) (revision : ℕ) (worker : String) (r : Reservation) : Bool :=
  r.revision == revision && r.prepareOwner == some worker && !r.prepareUntil.any (· < q.now)

/-- `lsa07_prepare`; the answer is whether it has prepared the revision. -/
def prepare (q : Queue) (md5 : String → String) (stay : Uuid) (revision : ℕ) (worker : String)
    (batch : List JobAsked) : Queue × Bool :=
  match q.reservation stay with
  | none => (q, false)
  | some r =>
    if !q.prepares revision worker r ∨ 6 < batch.length then (q, false)
    else
      match batch.foldlM (q.prepareJob md5 r) q.jobs with
      | none => (q, false)
      | some jobs =>
        ({ q with jobs := jobs }.modifyReservation stay fun r =>
            { r with preparedRevision := revision, prepareOwner := none, prepareUntil := none }, true)

/-! ### Handing out -/

def expire (now : Time) (scope : Scope) (j : Job) : Job :=
  if inScope scope j.stay j.revision && j.eligibleUntil.any (· ≤ now) && j.state.unfinished then
    { j with state := .expired }
  else j

def fail (now : Time) (scope : Scope) (j : Job) : Job :=
  if inScope scope j.stay j.revision && j.state.posted && j.deadline.any (· ≤ now) && j.leaseUntil.all (· ≤ now) then
    { j with state := .failed, lastError := "receipt_deadline_exceeded", leaseOwner := none, leaseUntil := none }
  else j

def attentionKey (stay : Uuid) (revision : ℕ) : String := jobPrefix stay ++ Nat.repr revision ++ ":attention"

def attentionBody (s : Snapshot) : String :=
  "تعذر تأكيد وصول رسائل الحجز الصباحي. المرجع AM-" ++ String.ofList (s.stay.str.toList.take 8) ++
    "\nمتابعة الإدارة: " ++ s.managementUrl

def attentionJob (q : Queue) (md5 : String → String) (r : Reservation) : Job :=
  q.newJob md5 r
    ⟨.attention, attentionBody r.payload, attentionKey r.stay r.revision, 0, .group, q.now, none⟩

/-- The job is one of its stay's revision. -/
def current (q : Queue) (j : Job) : Option Reservation :=
  (q.reservation j.stay).filter fun r => r.revision == j.revision

/-- The notice of a failed guest message, one for a revision. -/
def attend (q : Queue) (md5 : String → String) (scope : Scope) (jobs : List Job) (j : Job) : Option (List Job) :=
  if j.state = .failed ∧ j.recipientKind = .guest ∧ inScope scope j.stay j.revision then
    match q.current j with
    | none => some jobs
    | some r => insertJob jobs (q.attentionJob md5 r) id
  else some jobs

/-- The jobs after the updates that every hand-out begins with. -/
def swept (q : Queue) (md5 : String → String) (scope : Scope) : Option (List Job) :=
  let jobs := (q.jobs.map (expire q.now scope)).map (fail q.now scope)
  jobs.foldlM (q.attend md5 scope) jobs

/-- A job of the same stay, revision and recipients comes first and has not ended. -/
def blocked (jobs : List Job) (j : Job) : Bool :=
  jobs.any fun e => e.stay == j.stay && e.revision == j.revision && e.recipientKind == j.recipientKind &&
    decide (e.sequence < j.sequence) && e.state.unfinished

def ready (q : Queue) (scope : Scope) (skipped : List String) (j : Job) : Bool :=
  inScope scope j.stay j.revision && (q.current j).isSome && j.state.unfinished && decide (j.dueAt ≤ q.now) &&
    decide (j.nextAt ≤ q.now) && j.leaseUntil.all (· ≤ q.now) && !blocked q.jobs j && !skipped.contains j.jobKey

/-- `ORDER BY due_at, sequence`; the rows stand in the order of their creation. -/
def before (a b : Job) : Bool := decide (a.dueAt < b.dueAt) || (a.dueAt == b.dueAt && decide (a.sequence < b.sequence))

def leased (now : Time) (worker : String) (j : Job) : Job :=
  { j with
    state := if j.state = .pending then .posting else .check
    attempts := if j.state = .pending then j.attempts + 1 else j.attempts
    deadline := some (j.deadline.getD (now + 5 * 60))
    leaseOwner := some worker
    leaseUntil := some (now + 90) }

/-- The action a worker is told, with the row and the payload it is told with. -/
inductive Handout
  | idle
  | send (j : Job) (s : Snapshot)
  | check (j : Job) (s : Snapshot)
deriving DecidableEq

def nextWith (q : Queue) (md5 : String → String) (scope : Scope) (worker : String) (skipped : List String) :
    Queue × Handout :=
  if !q.enabled then (q, .idle)
  else
    match q.swept md5 scope with
    | none => (q, .idle)
    | some jobs =>
      let q := { q with jobs := jobs }
      match Table.first before (q.jobs.filter (q.ready scope skipped)) with
      | none => (q, .idle)
      | some j =>
        match q.reservation j.stay with
        | none => (q, .idle)
        | some r =>
          (q.modifyJob j.jobKey (leased q.now worker),
            if j.state = .pending then .send j r.payload else .check j r.payload)

/-- `lsa07_next`. -/
def next (q : Queue) (md5 : String → String) (worker : String) (skipped : List String) : Queue × Handout :=
  q.nextWith md5 none worker skipped

/-- `lsa07_event_next`. -/
def eventNext (q : Queue) (md5 : String → String) (worker : String) (stay : Uuid) (revision : ℕ)
    (skipped : List String) : Queue × Handout :=
  q.nextWith md5 (some (stay, revision)) worker skipped

/-! ### Results -/

/-- What the worker reports of a job. -/
structure JobResult where
  delivered : Bool
  providerId : Option String
  error : String
deriving DecidableEq

/-- The worker has the lease of a job that has been posted. -/
def holds (worker : String) (j : Job) : Bool := j.leaseOwner == some worker && j.state.posted

def recorded (now : Time) (result : JobResult) (j : Job) : Job :=
  { j with
    state := if result.delivered then .delivered else .check
    providerId := (result.providerId.filter (· != "")).or j.providerId
    nextAt := now + 15
    lastError := String.ofList (result.error.toList.take 80)
    leaseOwner := none
    leaseUntil := none }

/-- `lsa07_result`; the answer is whether it has recorded the result. -/
def result (q : Queue) (key : String) (worker : String) (result : JobResult) : Queue × Bool :=
  match Table.get Job.jobKey q.jobs key with
  | none => (q, false)
  | some j => if holds worker j then (q.modifyJob key (recorded q.now result), true) else (q, false)

end Queue

/-! ### A paid stay -/

def queuedStay : Uuid := ⟨"07000000-0000-4000-8000-000000000061", rfl⟩

def paidSnapshot : Snapshot where
  stay := queuedStay
  revision := 1
  fingerprint := String.ofList (List.replicate 64 'a')
  status := .paid
  listingMapId := 7
  listingName := "Listing"
  startsAt := 20000
  endsAt := 40000
  timeZone := "Asia/Riyadh"
  arrivalDate := "2032-01-01"
  departureDate := "2032-01-01"
  checkInTime := 240
  checkOutTime := 660
  guestName := "Guest"
  phone := "+16502530000"
  guestLanguage := "en"
  managementUrl := "https://example.com/admin"
  deliveryToken := ⟨queuedStay, 1, 1000⟩

end Apartments.Morning
