import Apartments.Models
import Apartments.Lib.Run
import Apartments.Notifications.UltraMsg

/-!
# Guest invoices (`notifications/services/invoices.py`, `invoice_delivery.py`, `reservations/sama_invoice_api.py`)

Each transaction is a step. What `invoice_snapshot` made of the provider's answer, however long before the transaction,
is an input of the step that writes it. A delivery is claimed by a worker, which calls the provider and writes the
outcome; any number of tasks may be started for it, a worker may die between two steps, and the broker may fail after it
took the task. `log` keeps the calls of the provider, their ends, and what the owner asked for once more.
-/

namespace Apartments.Invoices

open UltraMsg (Channel)

/-- The parts of a snapshot that are reviewed or compared; `rest` is all else that is printed. -/
structure Snapshot where
  platformReference : String
  guestName : String
  guestEmail : String
  guestPhone : String
  language : String
  total : String
  currency : String
  checkIn : String
  checkOut : String
  rest : String
deriving DecidableEq

/-- The cleaned data of `InvoiceReviewForm`. -/
structure Reviewed where
  snapshotToken : String
  platformReference : String
  guestName : String
  guestEmail : String
  guestPhone : String
  language : String
deriving DecidableEq

/-- A row of `GuestInvoice`; its key is its place in the table. -/
structure Invoice where
  hostawayReservationId : ℕ
  snapshot : Snapshot
  language : String
  number : Option String
  pdfContent : List UInt8
  issuedAt : Option Time
deriving DecidableEq

structure Presentation where
  invoice : ℕ
  designVersion : String
  pdfContent : List UInt8
deriving DecidableEq

inductive DeliveryStatus
  | queued | sending | accepted | failed | review
deriving DecidableEq, Repr

structure Delivery where
  invoice : ℕ
  channel : Channel
  recipient : String
  presentation : Option ℕ
  status : DeliveryStatus
  attemptCount : ℕ
deriving DecidableEq

/-- Where a worker is with a delivery: before the call of the provider, in it, and before its last write. -/
inductive Stage
  | claimed
  | calling (job : UltraMsg.Invoice)
  | ended (status : DeliveryStatus)
deriving DecidableEq

/-- `deliver_invoice` past its claim. -/
structure Worker where
  key : ℕ
  stage : Stage
deriving DecidableEq

/-- The call of a provider for a delivery, its end, and a click of the owner that queues the delivery again. -/
inductive Event
  | called (key : ℕ)
  | ended (key : ℕ) (status : DeliveryStatus)
  | requested (key : ℕ)
deriving DecidableEq

structure World where
  now : Time
  emailEnabled : Bool
  ultramsgEnabled : Bool
  invoices : List Invoice
  presentations : List Presentation
  deliveries : List Delivery
  dispatching : List ℕ
  workers : ℕ → Option Worker
  log : List Event

inductive Action
  | wait (seconds : ℕ)
  | configure (emailEnabled ultramsgEnabled : Bool)
  | prepare (hostawayId : ℕ) (snapshot : Snapshot)
  | issue (key : ℕ) (reviewed : Reviewed) (year : ℕ)
  /-- The assistant's request, with the snapshot it read and the form it filled from it. -/
  | send (hostawayId : ℕ) (checked : Snapshot) (review : Reviewed) (forms : List (Channel × String)) (year : ℕ)
  | refresh (key : ℕ) (designVersion : String)
  /-- The owner's click. -/
  | queue (key : ℕ) (channel : Channel) (recipient : String)
  | dispatch (key : ℕ) (acknowledged : Bool)
  | deliver (worker key : ℕ)
  /-- The worker goes on to the call; `built` says that the message could be built. -/
  | call (worker : ℕ) (built : Bool)
  | answer (worker : ℕ) (answer : UltraMsg.Answer) (mailed : Option ℕ)
  /-- An exception that the worker does not name, such as its soft time limit. -/
  | interrupt (worker : ℕ)
  | finish (worker : ℕ)
  | crash (worker : ℕ)

/-- `snapshot_token`, the hexadecimal form of a key and `render_invoice_pdf`, which may raise. -/
structure Tools where
  token : ℕ → Snapshot → String
  hex : ℕ → String
  render : Invoice → Option (List UInt8)

variable (c : Tools)

/-- The draft with what the reviewer entered. -/
def Snapshot.review (s : Snapshot) (r : Reviewed) : Snapshot :=
  { s with
    platformReference := r.platformReference
    guestName := r.guestName
    guestEmail := r.guestEmail
    guestPhone := r.guestPhone }

/-- The `stable_fields` that an issued invoice is compared in. -/
def Snapshot.agrees (s t : Snapshot) : Bool :=
  s.total == t.total && s.currency == t.currency && s.checkIn == t.checkIn && s.checkOut == t.checkOut &&
    s.platformReference == t.platformReference && s.guestPhone == t.guestPhone

namespace Invoice

def new (hostawayId : ℕ) (s : Snapshot) (language : String) : Invoice := ⟨hostawayId, s, language, none, [], none⟩

/-- What `issue_invoice` makes of a draft, if its file can be drawn. -/
def issue (inv : Invoice) (key : ℕ) (r : Reviewed) (year : ℕ) (now : Time) : Option Invoice :=
  let issued : Invoice :=
    { inv with
      snapshot := inv.snapshot.review r
      language := r.language
      issuedAt := some now
      number := some ("LL-" ++ toString year ++ "-" ++ c.hex key) }
  (c.render issued).map fun pdf => { issued with pdfContent := pdf }

/-- Something to send: the invoice is issued and has a file. -/
def ready (inv : Invoice) : Bool := inv.issuedAt.isSome && inv.pdfContent != []

end Invoice

/-- What `deliver_invoice` writes for the state its sender ends in. -/
def DeliveryStatus.ofState : UltraMsg.State → DeliveryStatus
  | .accepted => .accepted
  | .failed => .failed
  | _ => .review

/-- Whether `deliver_invoice` calls a provider: nothing fails before. -/
def calls (q : UltraMsg.Invoice) : Bool :=
  q.issued &&
    match q.content, q.channel with
    | some _, .email => q.emailEnabled
    | some content, .whatsapp => q.configured && UltraMsg.documentAllowed content
    | _, _ => false

namespace World

variable (w : World)

def invoiceOf (hostawayId : ℕ) : Option ℕ := w.invoices.findIdx? fun inv => inv.hostawayReservationId == hostawayId

/-- `GuestInvoice.objects.get_or_create`, with the key of the row. -/
def getOrCreate (hostawayId : ℕ) (s : Snapshot) (language : String) : World × ℕ :=
  match w.invoiceOf hostawayId with
  | some key => (w, key)
  | none => ({ w with invoices := w.invoices ++ [.new hostawayId s language] }, w.invoices.length)

def writeInvoice (key : ℕ) (inv : Invoice) : World := { w with invoices := w.invoices.set key inv }

def writeDelivery (key : ℕ) (d : Delivery) : World := { w with deliveries := w.deliveries.set key d }

def setWorker (i : ℕ) (x : Option Worker) : World :=
  { w with workers := fun j => if j = i then x else w.workers j }

def record (e : Event) : World := { w with log := w.log ++ [e] }

/-- The transaction of `prepare_invoice`. -/
def prepare (hostawayId : ℕ) (s : Snapshot) : World :=
  let (w, key) := w.getOrCreate hostawayId s s.language
  match w.invoices[key]? with
  | some inv => if inv.issuedAt.isSome then w else w.writeInvoice key { inv with snapshot := s, language := s.language }
  | none => w

/-- `issue_invoice`; `none` if it raises. -/
def issue (key : ℕ) (r : Reviewed) (year : ℕ) : Option World :=
  match w.invoices[key]? with
  | none => none
  | some inv =>
    if inv.issuedAt.isSome then some w
    else if r.snapshotToken ≠ c.token key inv.snapshot then none
    else (inv.issue c key r year w.now).map (w.writeInvoice key)

/-- `refresh_invoice_presentation`. -/
def refresh (key : ℕ) (designVersion : String) : World :=
  match w.invoices[key]? with
  | none => w
  | some inv =>
    if !inv.ready || w.presentations.any fun p => p.invoice == key && p.designVersion == designVersion then w
    else
      match c.render inv with
      | none => w
      | some pdf => { w with presentations := w.presentations ++ [⟨key, designVersion, pdf⟩] }

/-- `invoice.presentations.first()`: the newest. -/
def newestPresentation (key : ℕ) : Option ℕ :=
  (List.range w.presentations.length).reverse.find? fun j => w.presentations[j]?.any (·.invoice == key)

def deliveryOf (key : ℕ) (channel : Channel) (recipient : String) : Option ℕ :=
  w.deliveries.findIdx? fun d => d.invoice == key && d.channel == channel && d.recipient == recipient

def enabled (channel : Channel) : Bool :=
  !(channel == .email && !w.emailEnabled) && !(channel == .whatsapp && !w.ultramsgEnabled)

/-- The transaction of `queue_invoice_delivery`, whose commit starts the dispatch; `none` if it raises. -/
def queueDelivery (key : ℕ) (channel : Channel) (recipient : String) (retryFailed : Bool) : Option World :=
  match w.invoices[key]? with
  | none => none
  | some inv =>
    if !inv.ready || !w.enabled channel then none
    else
      match w.deliveryOf key channel recipient with
      | none =>
        some
          { w with
            deliveries := w.deliveries ++ [⟨key, channel, recipient, w.newestPresentation key, .queued, 0⟩]
            dispatching := w.dispatching ++ [w.deliveries.length] }
      | some k =>
        match w.deliveries[k]? with
        | none => none
        | some d =>
          if d.status = .failed ∧ retryFailed then
            some
              { (w.writeDelivery k { d with status := .queued, presentation := w.newestPresentation key }).record
                  (.requested k) with
                dispatching := w.dispatching ++ [k] }
          else some w

/-- The transaction of the assistant's `send`; what raises, or answers without a request, rolls back or changes nothing. -/
def sendRequest (hostawayId : ℕ) (checked : Snapshot) (review : Reviewed) (forms : List (Channel × String))
    (year : ℕ) : Option World :=
  let (w, key) := w.getOrCreate hostawayId checked review.language
  match w.invoices[key]? with
  | none => none
  | some inv =>
    let issued :=
      if inv.issuedAt.isSome then (if inv.snapshot.agrees checked then some w else none)
      else
        (w.writeInvoice key { inv with snapshot := checked }).issue c key
          { review with snapshotToken := c.token key checked } year
    issued.bind fun w => forms.foldlM (fun w (channel, recipient) => w.queueDelivery key channel recipient false) w

/-- `dispatch_invoice_delivery`, after the commit that queued the delivery. -/
def dispatch (key : ℕ) (acknowledged : Bool) : World :=
  if key ∉ w.dispatching then w
  else
    let w := { w with dispatching := w.dispatching.erase key }
    if acknowledged then w
    else
      match w.deliveries[key]? with
      | some d => if d.status = .queued then w.writeDelivery key { d with status := .review } else w
      | none => w

/-- The claim of `deliver_invoice`, by the free worker `i`. -/
def deliver (i key : ℕ) : World :=
  match w.workers i, w.deliveries[key]? with
  | none, some d =>
    if d.status ≠ .queued then w
    else
      (w.writeDelivery key { d with status := .sending, attemptCount := d.attemptCount + 1 }).setWorker i
        (some ⟨key, .claimed⟩)
  | _, _ => w

/-- What the worker finds for its delivery; the file is the presentation's, if there is one. -/
def job (d : Delivery) (built : Bool) : UltraMsg.Invoice :=
  let inv := w.invoices[d.invoice]?
  let pdf := (d.presentation.bind fun j => w.presentations[j]?.map Presentation.pdfContent) <|>
    inv.map Invoice.pdfContent
  { issued := inv.any Invoice.ready
    content := if built then pdf else none
    channel := d.channel
    configured := w.ultramsgEnabled
    emailEnabled := w.emailEnabled
    mailed := none }

/-- The worker calls the provider, or ends without a call. -/
def call (i : ℕ) (x : Worker) (built : Bool) : World :=
  match w.deliveries[x.key]? with
  | none => w
  | some d =>
    let q := w.job d built
    if calls q then (w.record (.called x.key)).setWorker i (some { x with stage := .calling q })
    else
      w.setWorker i (some { x with stage := .ended (.ofState (UltraMsg.deliverInvoice q .transport).state) })

/-- The call of the provider has ended. -/
def finishCall (i : ℕ) (x : Worker) (status : DeliveryStatus) : World :=
  (w.record (.ended x.key status)).setWorker i (some { x with stage := .ended status })

/-- The last write of the worker, of a delivery that is still being sent. -/
def finish (i : ℕ) (x : Worker) (status : DeliveryStatus) : World :=
  match w.deliveries[x.key]? with
  | some d =>
    (if d.status = .sending then w.writeDelivery x.key { d with status := status } else w).setWorker i none
  | none => w.setWorker i none

end World

open World

def step (w : World) : Action → World
  | .wait seconds => { w with now := w.now + seconds }
  | .configure emailEnabled ultramsgEnabled =>
    { w with emailEnabled := emailEnabled, ultramsgEnabled := ultramsgEnabled }
  | .prepare hostawayId snapshot => w.prepare hostawayId snapshot
  | .issue key reviewed year => (w.issue c key reviewed year).getD w
  | .send hostawayId checked review forms year => (w.sendRequest c hostawayId checked review forms year).getD w
  | .refresh key designVersion => w.refresh c key designVersion
  | .queue key channel recipient => (w.queueDelivery key channel recipient true).getD w
  | .dispatch key acknowledged => w.dispatch key acknowledged
  | .deliver i key => w.deliver i key
  | .call i built =>
    match w.workers i with
    | some x => if x.stage = .claimed then w.call i x built else w
    | none => w
  | .answer i answer mailed =>
    match w.workers i with
    | some x =>
      match x.stage with
      | .calling q => w.finishCall i x (.ofState (UltraMsg.deliverInvoice { q with mailed := mailed } answer).state)
      | .claimed | .ended _ => w
    | none => w
  | .interrupt i =>
    match w.workers i with
    | some x =>
      match x.stage with
      | .claimed => w.setWorker i (some { x with stage := .ended .review })
      | .calling _ => w.finishCall i x .review
      | .ended _ => w
    | none => w
  | .finish i =>
    match w.workers i with
    | some x =>
      match x.stage with
      | .ended status => w.finish i x status
      | .claimed | .calling _ => w
    | none => w
  | .crash i => w.setWorker i none

/-- Nothing has been prepared yet. -/
def initial : World := ⟨0, true, true, [], [], [], [], fun _ => none, []⟩

/-- The world after the steps `as`. -/
abbrev after (as : List Action) : World := Machine.run (step c) initial as

end Apartments.Invoices
