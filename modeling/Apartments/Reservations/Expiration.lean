import Apartments.Hostaway.Modifications
import Mathlib.Data.List.Sort

/-!
# Local expiration (`reservations/services/expiration.py`)

The quotes and the intents of the site with the transactions that decide them, and `expire_booking_objects`: three
selections of keys, each a statement of its own, and one transaction that updates the rows of these keys. A sweep
carries what it has selected so far.
-/

namespace Apartments.Expiration

open Payments Hostaway

inductive QuoteStatus
  | active | expired | consumed | invalidated | priceChanged | unavailable
deriving DecidableEq, Repr

/-- A row of `BookingQuote`; `hasRates` says that the exchange rate snapshot is not empty. -/
structure BookingQuote where
  pk : Uuid
  hostawayListingId : ℕ
  checkIn : ℕ
  checkOut : ℕ
  guests : ℕ
  currency : String
  totalPrice : Dec
  paymentAmountSar : Option Dec
  hasRates : Bool
  status : QuoteStatus
  consumedAt : Option Time
  invalidatedAt : Option Time
  expiresAt : Time
deriving DecidableEq

inductive IntentStatus
  | draft | pendingRevalidation | awaitingPayment | paymentVerified | priceChanged | unavailable | expired | cancelled
  | completed
deriving DecidableEq, Repr

/-- A row of `BookingIntent`. -/
structure BookingIntent where
  pk : Uuid
  quote : Uuid
  idempotencyKey : String
  status : IntentStatus
  expiresAt : Time
deriving DecidableEq

/-- The quotes and the intents before a booking. -/
structure Prebooking where
  quotes : List BookingQuote
  intents : List BookingIntent
deriving DecidableEq

namespace Prebooking

def modifyQuote (p : Prebooking) (pk : Uuid) (f : BookingQuote → BookingQuote) : Prebooking :=
  { p with quotes := Table.modify BookingQuote.pk p.quotes pk f }

def modifyIntent (p : Prebooking) (pk : Uuid) (f : BookingIntent → BookingIntent) : Prebooking :=
  { p with intents := Table.modify BookingIntent.pk p.intents pk f }

end Prebooking

/-! ### Decisions -/

/-- What `consume_revalidated_quote` is given, and what its lookups answer. -/
structure Consumption where
  now : Time
  ownSession : Bool
  signed : Bool
  revalidated : AvailabilityResult
  tolerance : Dec
  displayable : Bool
  intent : Uuid
  idempotencyKey : String
  intentExpiresAt : Time
  replacement : Option BookingQuote
deriving DecidableEq

/-- The revalidated price is not the price of the quote. -/
def priceChanged (c : Consumption) (q : BookingQuote) (latest : PriceQuote) : Bool :=
  latest.currency != q.currency || decide (c.tolerance < |latest.totalPrice - q.totalPrice|)

/-- The status that the transaction of `consume_revalidated_quote` gives the quote it has locked, if it writes it. -/
def consumption (c : Consumption) (p : Prebooking) (q : BookingQuote) : Option QuoteStatus :=
  if !c.ownSession then none
  else if !c.signed then some .invalidated
  else if q.status ≠ .active then none
  else if q.expiresAt ≤ c.now then some .expired
  else
    match c.revalidated.quote with
    | none => some .unavailable
    | some latest =>
      if !c.revalidated.isAvailable then some .unavailable
      else if latest.listingId ≠ q.hostawayListingId ∨ latest.checkIn ≠ q.checkIn ∨ latest.checkOut ≠ q.checkOut ∨
          latest.guests ≠ q.guests then some .invalidated
      else if priceChanged c q latest then some .priceChanged
      else if q.paymentAmountSar.isNone || !q.hasRates then some .invalidated
      else if !c.displayable then none
      -- the intent would violate a unique column
      else if p.intents.any fun i => i.pk == c.intent || i.quote == q.pk || i.idempotencyKey == c.idempotencyKey then
        none
      else some .consumed

/-- The quote with the status it is given. -/
def decidedRow (now : Time) (status : QuoteStatus) (q : BookingQuote) : BookingQuote :=
  { q with
    status := status
    consumedAt := if status = .consumed then some now else q.consumedAt
    invalidatedAt :=
      if status = .invalidated ∨ status = .unavailable ∨ status = .priceChanged then some now else q.invalidatedAt }

/-- `consume_revalidated_quote`; a replacement that cannot be made raises. -/
def consumeRevalidatedQuote (p : Prebooking) (pk : Uuid) (c : Consumption) : Prebooking :=
  if p.intents.any (·.idempotencyKey == c.idempotencyKey) then p
  else
    match (Table.get BookingQuote.pk p.quotes pk).bind (consumption c p), c.replacement with
    | none, _ | some .priceChanged, none => p
    | some .priceChanged, some r =>
      if p.quotes.any (·.pk == r.pk) then p
      else { p with quotes := (p.modifyQuote pk (decidedRow c.now .priceChanged)).quotes ++ [{ r with status := .active }] }
    | some .consumed, _ =>
      { p.modifyQuote pk (decidedRow c.now .consumed) with
        intents := p.intents ++ [⟨c.intent, pk, c.idempotencyKey, .awaitingPayment, c.intentExpiresAt⟩] }
    | some status, _ => p.modifyQuote pk (decidedRow c.now status)

/-- The update of the intent in `_record_verified_booking_payment`. -/
def recordVerified (i : BookingIntent) : BookingIntent :=
  if i.status = .awaitingPayment then { i with status := .paymentVerified } else i

/-- The update of the intent of a booking that is confirmed. -/
def confirm (i : BookingIntent) : BookingIntent := { i with status := .completed }

/-- The admin action that cancels intents. -/
def cancel (i : BookingIntent) : BookingIntent :=
  if i.status = .completed ∨ i.status = .cancelled ∨ i.status = .expired then i else { i with status := .cancelled }

/-- `reject_locally`, the admin action that rejects change requests. -/
def rejectLocally (m : ModificationRequest) : ModificationRequest :=
  if m.status = .completed ∨ m.status = .rejected then m else { m with status := .rejected }

/-! ### `expire_booking_objects` -/

/-- The keyword arguments, and `now`. -/
structure Asked where
  dryRun : Bool
  limit : ℕ
  includePrebooking : Bool
  includeModifications : Bool
  now : Time
deriving DecidableEq

/-- The statement that a sweep is at. -/
inductive Stage
  | quotes | intents | modifications | updating | done
deriving DecidableEq, Repr

structure Sweep where
  asked : Asked
  stage : Stage
  quoteIds : List Uuid
  intentIds : List Uuid
  modificationIds : List Uuid
deriving DecidableEq

def Sweep.start (a : Asked) : Sweep := ⟨a, .quotes, [], [], []⟩

/-- The next statement of the sweep is its transaction; a dry run returns before it. -/
def Sweep.writes (s : Sweep) : Bool := s.stage == .updating && !s.asked.dryRun

/-- `order_by("expires_at")` and the slice; rows that expire together come in the order of the table. -/
def earliest {α : Type} (expiresAt : α → Time) (limit : ℕ) (rows : List α) : List α :=
  (rows.insertionSort fun a b => expiresAt a ≤ expiresAt b).take limit

def dueQuote (now : Time) (q : BookingQuote) : Bool := q.status == .active && decide (q.expiresAt ≤ now)

def dueIntent (now : Time) (i : BookingIntent) : Bool :=
  decide (i.expiresAt ≤ now) && i.status != .completed && i.status != .cancelled && i.status != .expired

/-- The exclusion is `terminal_modifications`. -/
def dueModification (now : Time) (m : ModificationRequest) : Bool :=
  decide (m.expiresAt ≤ now) && m.status != .completed && m.status != .rejected && m.status != .expired

def selectQuotes (a : Asked) (rows : List BookingQuote) : List BookingQuote :=
  if a.includePrebooking then earliest BookingQuote.expiresAt a.limit (rows.filter (dueQuote a.now)) else []

def selectIntents (a : Asked) (rows : List BookingIntent) : List BookingIntent :=
  if a.includePrebooking then earliest BookingIntent.expiresAt a.limit (rows.filter (dueIntent a.now)) else []

def selectModifications (a : Asked) (rows : List ModificationRequest) : List ModificationRequest :=
  if a.includeModifications then
    earliest ModificationRequest.expiresAt a.limit (rows.filter (dueModification a.now))
  else []

def expireQuote (ids : List Uuid) (q : BookingQuote) : BookingQuote :=
  if q.pk ∈ ids then { q with status := .expired } else q

def expireIntent (ids : List Uuid) (i : BookingIntent) : BookingIntent :=
  if i.pk ∈ ids then { i with status := .expired } else i

def expireModification (ids : List Uuid) (m : ModificationRequest) : ModificationRequest :=
  if m.pk ∈ ids then { m with status := .expired } else m

theorem mem_of_mem_earliest {α : Type} {expiresAt : α → Time} {limit : ℕ} {rows : List α} {a : α}
    (h : a ∈ earliest expiresAt limit rows) : a ∈ rows :=
  (List.mem_insertionSort _).1 (List.mem_of_mem_take h)

theorem mem_selectQuotes {a : Asked} {rows : List BookingQuote} {q : BookingQuote} (h : q ∈ selectQuotes a rows) :
    q ∈ rows ∧ dueQuote a.now q := by
  unfold selectQuotes at h
  split at h
  · exact List.mem_filter.1 (mem_of_mem_earliest h)
  · cases h

theorem mem_selectIntents {a : Asked} {rows : List BookingIntent} {i : BookingIntent} (h : i ∈ selectIntents a rows) :
    i ∈ rows ∧ dueIntent a.now i := by
  unfold selectIntents at h
  split at h
  · exact List.mem_filter.1 (mem_of_mem_earliest h)
  · cases h

theorem mem_selectModifications {a : Asked} {rows : List ModificationRequest} {m : ModificationRequest}
    (h : m ∈ selectModifications a rows) : m ∈ rows ∧ dueModification a.now m := by
  unfold selectModifications at h
  split at h
  · exact List.mem_filter.1 (mem_of_mem_earliest h)
  · cases h

end Apartments.Expiration
