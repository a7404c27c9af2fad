import Apartments.Hostaway.Client
import Apartments.Lib.Table
import Apartments.Reservations.GuestHistory

/-!
# Recovering the bookings of a guest (`accounts/booking_history.py`)

An import reads the bookings of a verified guest page by page from the channel manager. A task reads one page between two
transactions; the first takes a lease, the second stores the page and looks whether the lease still stands. Tasks may come
at any time, twice or for an import that was started anew, and while a page is on its way the guest may change and the lease
may run out. Identifiers from `uuid4` are numbers that are counted up.
-/

namespace Apartments.Recovery

open Hostaway (ReservationStatus normalizeStatus Property)
open History (Library canonicalPhone)

structure Site where
  lib : Library
  /-- `validate_email`. -/
  validEmail : String → Bool
  /-- `salted_hmac("guest-history-identity.v1", ·).hexdigest()`. -/
  hmac : String → String
  /-- `strip_tags`. -/
  stripTags : String → String

structure Identity where
  email : String
  phone : String
  digest : String
deriving DecidableEq

/-- A row of `VerifiedPhone`. -/
structure Binding where
  phone : String
  version : String
deriving DecidableEq

/-- A user with its profile and its verified phone. -/
structure Account where
  user : ℕ
  isActive : Bool
  email : String
  emailVerified : Bool
  binding : Option Binding
deriving DecidableEq

/-- The columns that `_project` finds. -/
structure Values where
  property : Option ℕ
  propertyName : String
  channelId : Option ℕ
  channelName : String
  normalizedStatus : ReservationStatus
  checkIn : ℕ
  checkOut : ℕ
  guests : ℕ
  currency : String
  totalPrice : Dec
deriving DecidableEq

/-- A row of `GuestBookingHistory`. -/
structure GuestBookingHistory where
  user : ℕ
  hostawayReservationId : ℕ
  values : Values
  lastSeenGeneration : ℕ
  identityDigest : String
  isVisible : Bool
  checkedAt : Time
deriving DecidableEq

structure BookingIntent where
  pk : Uuid
  guestEmail : String
  guestPhone : String
  customer : Option ℕ
deriving DecidableEq

structure Reservation where
  hostawayReservationId : Option ℕ
  bookingIntent : Option Uuid
deriving DecidableEq

/-- A row of a page. An `id` that is no number is `none`, and so is a text of another type; a name is that of the first of
its two keys that has one. With `refused` the database does not take its columns. -/
structure RemoteBooking where
  id : Option ℕ
  guestEmail : Option String
  phone : Option String
  body : Hostaway.Client.Body
  listingName : Option String
  channelName : Option String
  refused : Bool
deriving DecidableEq

inductive Status
  | queued | running | partly | complete
deriving DecidableEq

/-- A row of `BookingHistoryImport`; a user has one. -/
structure BookingHistoryImport where
  user : ℕ
  generation : ℕ
  identityDigest : String
  status : Status
  cursor : Option ℕ
  seenCursors : List ℕ
  pages : ℕ
  added : ℕ
  conflicts : ℕ
  skipped : ℕ
  lease : Option ℕ
  lockedUntil : Option Time
  errorCode : String
  requestedAt : Time
  updatedAt : Time
deriving DecidableEq

def BookingHistoryImport.active (job : BookingHistoryImport) : Bool := job.status == .queued || job.status == .running

/-- A task whose page is on its way. -/
structure Fetch where
  user : ℕ
  generation : ℕ
  lease : ℕ
  cursor : Option ℕ
  identity : Identity
deriving DecidableEq

/-- What became of a row of a page. -/
inductive Fate
  | unrelated
  | skipped
  /-- The site has the booking for this guest. -/
  | own
  | linked
  | foreign
  | stored (created : Bool)
deriving DecidableEq

structure Handled where
  id : ℕ
  row : RemoteBooking
  fate : Fate
deriving DecidableEq

/-- A page that was stored. -/
structure Page where
  user : ℕ
  generation : ℕ
  lease : ℕ
  cursor : Option ℕ
  identity : Identity
  rows : List Handled
deriving DecidableEq

def Page.ids (p : Page) : List ℕ := p.rows.map Handled.id

/-- `pages` records what was stored, in order; no code reads it. -/
structure World where
  now : Time
  accounts : List Account
  properties : List Property
  reservations : List Reservation
  intents : List BookingIntent
  imports : List BookingHistoryImport
  stays : List GuestBookingHistory
  fetches : List Fetch
  pages : List Page
  nextUuid : ℕ
deriving DecidableEq

namespace World

variable (w : World)

def account (user : ℕ) : Option Account := Table.get Account.user w.accounts user

def job (user : ℕ) : Option BookingHistoryImport := Table.get BookingHistoryImport.user w.imports user

def stay (id : ℕ) : Option GuestBookingHistory := Table.get GuestBookingHistory.hostawayReservationId w.stays id

def intent (pk : Uuid) : Option BookingIntent := Table.get BookingIntent.pk w.intents pk

def modifyJob (user : ℕ) (f : BookingHistoryImport → BookingHistoryImport) : World :=
  { w with imports := Table.modify BookingHistoryImport.user w.imports user f }

end World

section
variable (site : Site)

/-! ### The guest -/

/-- `identity_for`. -/
def identityFor (w : World) (user : ℕ) : Option Identity :=
  (w.account user).bind fun a =>
    let email := Text.casefold (Text.strip a.email)
    if a.isActive = false ∨ site.validEmail email = false ∨ a.emailVerified = false then none
    else
      a.binding.bind fun binding =>
        (canonicalPhone site.lib (some binding.phone)).map fun phone =>
          ⟨email, phone, site.hmac (toString a.user ++ ":" ++ email ++ ":" ++ phone ++ ":" ++ binding.version)⟩

/-- `matches`. -/
def agrees (email phone : Option String) (identity : Identity) : Bool :=
  email.any (fun email => Text.casefold (Text.strip email) == identity.email) &&
    canonicalPhone site.lib phone == some identity.phone

/-- An intent that `claim_local` assigns. -/
def claimable (w : World) (identity : Identity) (i : BookingIntent) : Bool :=
  i.customer.isNone && Text.upper i.guestEmail == Text.upper identity.email &&
    w.reservations.any (fun r => r.bookingIntent == some i.pk) && agrees site (some i.guestEmail) (some i.guestPhone) identity

/-- `claim_local`, with the number of bookings. -/
def claimLocal (user : ℕ) (identity : Identity) (w : World) : World × ℕ :=
  let claim (i : BookingIntent) := if claimable site w identity i = true then { i with customer := some user } else i
  ({ w with intents := w.intents.map claim }, w.intents.countP (claimable site w identity))

/-- The import that `start_import` saves. -/
def newImport (user generation : ℕ) (identity : Identity) (added : ℕ) (now : Time) : BookingHistoryImport where
  user := user
  generation := generation
  identityDigest := identity.digest
  status := .queued
  cursor := none
  seenCursors := []
  pages := 0
  added := added
  conflicts := 0
  skipped := 0
  lease := none
  lockedUntil := none
  errorCode := ""
  requestedAt := now
  updatedAt := now

inductive Started
  | verificationRequired | running | cooldown | started
deriving DecidableEq

/-- The import of the user stands in the way of a new one. -/
def standing (now : Time) (job : BookingHistoryImport) : Option Started :=
  if job.active = true ∧ now < job.updatedAt + 300 then some .running
  else if now < job.requestedAt + 60 then some .cooldown
  else none

/-- `start_import`. -/
def startImport (user : ℕ) (w : World) : World × Started :=
  match identityFor site w user with
  | none => (w, .verificationRequired)
  | some identity =>
    match (w.job user).bind (standing w.now) with
    | some reply => (w, reply)
    | none =>
      let (claimed, added) := claimLocal site user identity w
      let job := newImport user w.nextUuid identity added w.now
      ({ claimed with
        imports := Table.put BookingHistoryImport.user w.imports job
        nextUuid := w.nextUuid + 1 }, .started)

/-- The handler of `dispatch`. -/
def unqueued (user generation : ℕ) (w : World) : World :=
  w.modifyJob user fun job =>
    if job.generation = generation ∧ job.active = true then
      { job with status := .partly, errorCode := "queue_unavailable", updatedAt := w.now }
    else job

/-! ### A row -/

/-- `_safe_text`. -/
def safeText (value : Option String) (limit : ℕ) : String :=
  (value.map fun text => String.ofList ((Text.strip (site.stripTags text)).toList.take limit)).getD ""

/-- `_project`; `none` where it raises. -/
def project (properties : List Property) (id : ℕ) (row : RemoteBooking) : Option Values :=
  match Hostaway.Client.validate row.body with
  | .error _ => none
  | .ok snapshot =>
    if snapshot.reservationId ≠ id ∨ snapshot.totalPrice < 0 ∨ 10 ^ 10 ≤ snapshot.totalPrice ∨ 32767 < snapshot.guests then
      none
    else
      some {
        property :=
          match properties.filter fun p => p.hostawayListingMapId == some snapshot.listingMapId with
          | [p] => some p.pk
          | _ => none
        propertyName := safeText site row.listingName 200
        channelId := snapshot.channelId
        channelName := safeText site row.channelName 100
        normalizedStatus := normalizeStatus snapshot.status
        checkIn := snapshot.checkIn
        checkOut := snapshot.checkOut
        guests := snapshot.guests
        currency := snapshot.currency
        totalPrice := snapshot.totalPrice }

/-- The intent of the booking that the site has under an identifier. -/
def siteIntent (w : World) (id : ℕ) : Option BookingIntent :=
  (w.reservations.find? fun r => r.hostawayReservationId == some id).bind fun r => r.bookingIntent.bind w.intent

/-- The stay that is saved for a row. -/
def savedStay (f : Fetch) (now : Time) (id : ℕ) (values : Values) : GuestBookingHistory where
  user := f.user
  hostawayReservationId := id
  values := values
  lastSeenGeneration := f.generation
  identityDigest := f.identity.digest
  isVisible := true
  checkedAt := now

/-- The projection of a row is saved, unless it is somebody else's; `none` where the database raises. -/
def saveStay (f : Fetch) (w : World) (id : ℕ) (row : RemoteBooking) (values : Values) : Option (World × Fate) :=
  if (w.stay id).any (fun stay => stay.user != f.user) = true then some (w, .foreign)
  else if row.refused = true then none
  else
    let stays := Table.put GuestBookingHistory.hostawayReservationId w.stays (savedStay f w.now id values)
    some ({ w with stays := stays }, .stored (w.stay id).isNone)

/-- The intent of the site is this guest's, or becomes it, or is somebody else's. -/
def siteFate (f : Fetch) (w : World) (id : ℕ) : Option (World × Fate) :=
  (siteIntent w id).bind fun intent =>
    match intent.customer with
    | some customer => some (w, if customer = f.user then .own else .foreign)
    | none =>
      if agrees site (some intent.guestEmail) (some intent.guestPhone) f.identity = true then
        some ({ w with intents := Table.modify BookingIntent.pk w.intents intent.pk fun i =>
          { i with customer := some f.user } }, .linked)
      else none

/-- The body of the loop over the rows of a page, with `_store_match`; `none` where the database raises. -/
def storeRow (f : Fetch) (w : World) (id : ℕ) (row : RemoteBooking) : Option (World × Fate) :=
  if agrees site row.guestEmail row.phone f.identity = false then some (w, .unrelated)
  else
    match project site w.properties id row with
    | none => some (w, .skipped)
    | some values =>
      match siteFate site f w id with
      | some result => some result
      | none => saveStay f w id row values

/-- The loop over the rows of a page. -/
def storeRows (f : Fetch) : World → List (ℕ × RemoteBooking) → Option (World × List Handled)
  | w, [] => some (w, [])
  | w, (id, row) :: rows =>
    (storeRow site f w id row).bind fun (w, fate) =>
      (storeRows f w rows).map fun (w, handled) => (w, ⟨id, row, fate⟩ :: handled)

/-! ### A page -/

def Fate.added : Fate → Bool
  | .linked | .stored true => true
  | _ => false

def maxPages : ℕ := 1000

/-- The import after a page. -/
def afterPage (now : Time) (rows : List Handled) (job : BookingHistoryImport) : BookingHistoryImport :=
  let job := { job with
    added := job.added + (rows.map Handled.fate).countP Fate.added
    conflicts := job.conflicts + (rows.map Handled.fate).count Fate.foreign
    skipped := job.skipped + (rows.map Handled.fate).count Fate.skipped
    pages := job.pages + 1
    lease := none
    lockedUntil := none
    updatedAt := now }
  match (rows.map Handled.id).getLast? with
  | none => { job with status := .complete }
  | some cursor =>
    if maxPages ≤ job.pages then { job with status := .partly, errorCode := "page_limit" }
    else { job with cursor := some cursor, seenCursors := job.seenCursors ++ [cursor], status := .queued }

/-- What the last page hides. -/
def hidden (f : Fetch) (stay : GuestBookingHistory) : GuestBookingHistory :=
  if stay.user = f.user ∧ stay.lastSeenGeneration ≠ f.generation then { stay with isVisible := false } else stay

/-- The rows of a page with their identifiers, if it is one. -/
def identified (items : List (Option RemoteBooking)) : Option (List (ℕ × RemoteBooking)) := do
  guard (items.length ≤ 100)
  let rows ← items.mapM fun item => item.bind fun row => (row.id.filter (0 < ·)).map fun id => (id, row)
  guard (rows.map Prod.fst).Nodup
  return rows

/-- The page is stored. -/
def stored (f : Fetch) (w : World) (rows : List Handled) : World :=
  { w.modifyJob f.user (afterPage w.now rows) with
    stays := if rows = [] then w.stays.map (hidden f) else w.stays
    pages := w.pages ++ [⟨f.user, f.generation, f.lease, f.cursor, f.identity, rows⟩] }

/-- The second transaction of `run_page`; `none` where it raises. -/
def commit (f : Fetch) (w : World) (items : List (Option RemoteBooking)) : Option World := do
  let rows ← identified items
  let job ← w.job f.user
  if job.lease ≠ some f.lease ∨ job.generation ≠ f.generation then return w
  else
    let current ← identityFor site w f.user
    guard (current.digest = f.identity.digest)
    guard (∀ last ∈ (rows.map Prod.fst).getLast?, last ∉ job.seenCursors)
    let (w, handled) ← storeRows site f w rows
    return stored f w handled

/-- The handler of `run_page`. -/
def failed (f : Fetch) (w : World) : World :=
  w.modifyJob f.user fun job =>
    if job.generation = f.generation ∧ job.lease = some f.lease then
      { job with
        status := .partly, errorCode := "source_unavailable", lease := none, lockedUntil := none, updatedAt := w.now }
    else job

/-- The first transaction of `run_page`. -/
def begin (user generation : ℕ) (w : World) : World :=
  match w.job user with
  | none => w
  | some job =>
    if job.generation ≠ generation ∨ job.active = false ∨ job.lockedUntil.any (w.now < ·) = true then w
    else
      match (identityFor site w user).filter fun identity => identity.digest == job.identityDigest with
      | none =>
        w.modifyJob user fun job => { job with status := .partly, errorCode := "identity_changed", updatedAt := w.now }
      | some identity =>
        { w.modifyJob user fun job => { job with
            lease := some w.nextUuid, lockedUntil := some (w.now + 45), status := .running, updatedAt := w.now } with
          fetches := w.fetches ++ [⟨user, generation, w.nextUuid, job.cursor, identity⟩]
          nextUuid := w.nextUuid + 1 }

/-- The rest of `run_page`, for what the channel manager answers; `none` is anything that raises. -/
def receive (i : ℕ) (answer : Option (List (Option RemoteBooking))) (w : World) : World :=
  match w.fetches[i]? with
  | none => w
  | some f =>
    let w := { w with fetches := w.fetches.eraseIdx i }
    (answer.bind (commit site f w)).getD (failed f w)

inductive Event
  | tick (seconds : ℕ)
  /-- The user changes in any way. -/
  | account (a : Account)
  /-- The rest of the site writes its bookings. -/
  | book (properties : List Property) (reservations : List Reservation) (intents : List BookingIntent)
  | start (user : ℕ)
  | unqueued (user generation : ℕ)
  | begin (user generation : ℕ)
  | receive (i : ℕ) (answer : Option (List (Option RemoteBooking)))
deriving DecidableEq

def World.step (w : World) : Event → World
  | .tick seconds => { w with now := w.now + seconds }
  | .account a => { w with accounts := a :: w.accounts.filter fun b => b.user != a.user }
  | .book properties reservations intents =>
    { w with properties := properties, reservations := reservations, intents := intents }
  | .start user => (startImport site user w).1
  | .unqueued user generation => Recovery.unqueued user generation w
  | .begin user generation => Recovery.begin site user generation w
  | .receive i answer => Recovery.receive site i answer w

/-- Nobody has started an import. -/
structure World.Fresh (w : World) : Prop where
  imports : w.imports = []
  stays : w.stays = []
  fetches : w.fetches = []
  pages : w.pages = []

end

end Apartments.Recovery
