import Apartments.HyperPay.Mornings
import Apartments.Lib.Run
import Apartments.Lib.Table

/-!
# The calendar of morning stays (`morning_stays.py`, `morning_payments.py`, `morning07_changes.py`)

Many stays of many properties. A call reads its stay and asks Hostaway before its transaction; the transaction locks the
rows of the properties that were read then, reads the stay again and compares it with the other stays as they are
committed by then, and commits. At read committed isolation other transactions commit in between, unless they wait for
one of its locks. A call carries the settings of its process.
-/

namespace Apartments.Morning.Calendar

open Payments HyperPay Verification

/-- A row of `MorningStay` as far as allocations go; `updated_at` counts the saves. -/
structure Row extends MorningStay where
  request : Uuid
  property : ℕ
  startsAt : Time
  guests : ℕ
  amountSar : Dec
  expiresAt : Time
  updatedAt : ℕ
deriving DecidableEq

structure Window where
  property : ℕ
  startsAt : Time
  endsAt : Time
  guests : ℕ
deriving DecidableEq

inductive Request
  | create (pk request : Uuid) (window : Window) (amountSar : Dec)
  | checkout (stay attempt : Uuid) (merchantTransactionId : String)
  | change (stay : Uuid) (window : Window) (expectedUpdatedAt : ℕ)
  | cancel (stay : Uuid)
  | verify (attempt : Uuid) (answer : Answer) (recorded : List String)
deriving DecidableEq

/-- How far a call is; `checked` is a transaction that is about to commit what it writes. -/
inductive Stage
  | called
  | locked
  | checked (row : Row) (attempt : Option MorningPaymentAttempt)
  | posting (attempt : Uuid)
  | raising (attempt : Uuid)
  | failing
  | ended
deriving DecidableEq

inductive CheckoutAnswer
  | valid (checkoutId : String)
  | invalid
  | raised
deriving DecidableEq

/-- A call with the stay and the attempt as it has read them before its transaction; `create_stay` has the row it is to
create. -/
structure Call where
  settings : Settings
  request : Request
  seen : Row
  read : Option MorningPaymentAttempt
  stage : Stage
deriving DecidableEq

structure World where
  now : Time
  stays : List Row
  attempts : List MorningPaymentAttempt
  calls : List Call
  saves : ℕ
deriving DecidableEq

inductive Action
  | tick (seconds : ℕ)
  | call (settings : Settings) (request : Request)
  | lock (i : ℕ)
  | check (i : ℕ)
  | commit (i : ℕ)
  | abort (i : ℕ)
  | reply (i : ℕ) (answer : CheckoutAnswer)
  | unknown (i : ℕ)
  | review (i : ℕ)
deriving DecidableEq

/-- The turnover after a stay. -/
def turnover : Time := 3 * 3600

/-- A status of `UNRESOLVED`. -/
def uncertain (status : PaymentStatus) : Bool := unresolved status && status != .succeeded

/-- The row of `put`'s key is replaced, or a new one is added. -/
def put {α κ : Type} [DecidableEq κ] (key : α → κ) (l : List α) (x : α) : List α :=
  if key x ∈ l.map key then Table.modify key l (key x) fun _ => x else l ++ [x]

/-! ### Locks -/

/-- The properties whose rows a call locks. -/
def Call.properties (c : Call) : List ℕ :=
  match c.request with
  | .create .. | .checkout .. | .cancel _ => [c.seen.property]
  | .change _ window _ => [c.seen.property, window.property]
  | .verify .. => []

def Call.held (c : Call) : List ℕ :=
  match c.stage with
  | .locked | .checked .. => c.properties
  | _ => []

/-- The row a transaction is about to commit, which it has locked as well. -/
def Call.row (c : Call) : Option Row :=
  match c.stage with
  | .checked row _ => some row
  | _ => none

/-- The checkout has found its stay at another property than the one it has locked. -/
def Call.stray (c : Call) : Bool :=
  match c.request, c.stage with
  | .checkout .., .checked row _ => row.property != c.seen.property
  | _, _ => false

namespace World

/-- `active_stays`. -/
def active (w : World) (environment : String) (property : ℕ) (start stop : Time) (exclude : Option Uuid) : Bool :=
  w.stays.any fun s =>
    s.property == property && s.environment == environment && decide (s.startsAt < stop) &&
      decide (start < s.endsAt + turnover) && some s.pk != exclude &&
      (s.status == .paid || s.status == .processing || s.status == .review ||
        (s.status == .opened && decide (w.now < s.expiresAt)) ||
        w.attempts.any fun a => a.stay == s.pk && uncertain a.status)

/-- An attempt of the stay is undecided. -/
def undecided (w : World) (stay : Uuid) : Bool := w.attempts.any fun a => a.stay == stay && uncertain a.status

/-! ### Transactions -/

/-- `create_stay`. -/
def createStay (w : World) (settings : Settings) (new : Row) : Option Row :=
  if new.request ∈ w.stays.map (·.request) ∨ new.pk ∈ w.stays.map (·.pk) ∨
      w.active settings.environment new.property new.startsAt (new.endsAt + turnover) none then none
  else some { new with expiresAt := min (w.now + 300) new.startsAt }

/-- `require_payable`. -/
def payable (settings : Settings) (s : Row) : Bool :=
  settings.enabled && s.environment == settings.environment &&
    (s.status == .opened || s.status == .expired || s.status == .processing) && s.paidAt.isNone

def newAttempt (s : Row) (pk : Uuid) (merchantTransactionId : String) : MorningPaymentAttempt where
  pk := pk
  stay := s.pk
  merchantTransactionId := merchantTransactionId
  providerCheckoutId := none
  providerPaymentId := none
  amount := s.amountSar
  currency := "SAR"
  status := .created
  failureCode := ""
  verifiedAt := none

/-- The transaction of `create_checkout`, if it starts a payment. -/
def createCheckout (w : World) (settings : Settings) (s : Row) (attempt : Uuid) (merchantTransactionId : String) :
    Option (Row × MorningPaymentAttempt) :=
  if payable settings s = false ∨
      w.active settings.environment s.property s.startsAt (s.endsAt + turnover) (some s.pk) ∨
      (w.attempts.any fun a => a.stay == s.pk && unresolved a.status) ∨ attempt ∈ w.attempts.map (·.pk) ∨
      merchantTransactionId ∈ w.attempts.map (·.merchantTransactionId) then none
  else some ({ s with status := .processing }, newAttempt s attempt merchantTransactionId)

/-- The window has to be verified again; the stay is the one that was read before the transaction. -/
def windowChanged (seen : Row) (window : Window) : Bool :=
  seen.property != window.property || seen.startsAt != window.startsAt || seen.endsAt != window.endsAt ||
    seen.guests != window.guests

/-- The transaction of `change_paid_stay`. -/
def changePaidStay (w : World) (settings : Settings) (seen s : Row) (window : Window) (expectedUpdatedAt : ℕ) :
    Option Row :=
  if s.updatedAt ≠ expectedUpdatedAt ∨ (s.status ≠ .paid ∧ s.status ≠ .opened ∧ s.status ≠ .expired) ∨
      s.endsAt ≤ w.now ∨ w.undecided s.pk ∨
      (windowChanged seen window ∧
        w.active settings.environment window.property window.startsAt (window.endsAt + turnover) (some s.pk)) then none
  else
    some { s with
      property := window.property
      startsAt := window.startsAt
      endsAt := window.endsAt
      guests := window.guests }

/-- The transaction of `cancel_stay`, if it writes. -/
def cancelStay (w : World) (s : Row) : Option Row :=
  if s.status = .cancelled ∨ s.status = .processing ∨ s.status = .review ∨ w.undecided s.pk then none
  else some { s with status := .cancelled }

/-- The transaction of `verify_payment`, if it writes. -/
def verifyPayment (w : World) (settings : Settings) (read : MorningPaymentAttempt) (answer : Answer)
    (recorded : List String) (s : Row) : Option (Row × MorningPaymentAttempt) :=
  match Table.get MorningPaymentAttempt.pk w.attempts read.pk with
  | none => none
  | some a =>
    if morningRaises settings read answer ∨ a.status = .succeeded then none
    else
      match morningSaved w.attempts (morningWritten settings read answer (fun id => recorded.contains id) w.now a) with
      | none => none
      | some saved => some ({ s with toMorningStay := morningStayAfter saved w.now s.toMorningStay }, saved)

/-- What the transaction of a call writes, given the stay as it finds it. -/
def written (w : World) (c : Call) (s : Row) : Option (Row × Option MorningPaymentAttempt) :=
  match c.request with
  | .create .. => none
  | .checkout _ attempt merchant => (w.createCheckout c.settings s attempt merchant).map fun x => (x.1, some x.2)
  | .change _ window expected => (w.changePaidStay c.settings c.seen s window expected).map fun row => (row, none)
  | .cancel _ => (w.cancelStay s).map fun row => (row, none)
  | .verify _ answer recorded =>
    match c.read with
    | none => none
    | some read => (w.verifyPayment c.settings read answer recorded s).map fun x => (x.1, some x.2)

def writes (w : World) (c : Call) : Option (Row × Option MorningPaymentAttempt) :=
  match c.request with
  | .create .. => (w.createStay c.settings c.seen).map fun row => (row, none)
  | _ =>
    match Table.get (fun s : Row => s.pk) w.stays c.seen.pk with
    | none => none
    | some s => w.written c s

/-! ### Steps -/

def stayOf (w : World) (pk : Uuid) : Option Row := Table.get (fun s : Row => s.pk) w.stays pk

/-- The stay `create_stay` is to create. -/
def newStay (settings : Settings) (pk request : Uuid) (window : Window) (amountSar : Dec) : Row where
  pk := pk
  environment := settings.environment
  status := .opened
  endsAt := window.endsAt
  paidAt := none
  request := request
  property := window.property
  startsAt := window.startsAt
  guests := window.guests
  amountSar := amountSar
  expiresAt := window.startsAt
  updatedAt := 0

/-- What a call reads before its transaction, if it goes on then; Hostaway may answer anything. -/
def opening (w : World) (settings : Settings) (request : Request) : Option Call :=
  match request with
  | .create pk id window amountSar =>
    if id ∈ w.stays.map (·.request) then none
    else some ⟨settings, request, newStay settings pk id window amountSar, none, .called⟩
  | .checkout stay _ _ =>
    match w.stayOf stay with
    | none => none
    | some s => if payable settings s then some ⟨settings, request, s, none, .called⟩ else none
  | .change stay _ _ | .cancel stay => (w.stayOf stay).map fun s => ⟨settings, request, s, none, .called⟩
  | .verify attempt _ _ =>
    match Table.get MorningPaymentAttempt.pk w.attempts attempt with
    | none => none
    | some a =>
      match w.stayOf a.stay with
      | none => none
      | some s =>
        if morningOpening settings s.toMorningStay a = .ask then some ⟨settings, request, s, some a, .called⟩ else none

def putCall (w : World) (i : ℕ) (c : Call) : World := { w with calls := w.calls.set i c }

def call (w : World) (settings : Settings) (request : Request) : World :=
  match w.opening settings request with
  | none => w
  | some c => { w with calls := w.calls ++ [c] }

/-- The properties are locked, if no other transaction holds one of them. -/
def lock (w : World) (i : ℕ) : World :=
  match w.calls[i]? with
  | some c =>
    if c.stage = .called ∧ (w.calls.eraseIdx i).all fun d => d.held.all fun p => !c.properties.contains p then
      w.putCall i { c with stage := .locked }
    else w
  | none => w

/-- The stay is locked, if no other transaction writes it, and the checks of the transaction are made. -/
def check (w : World) (i : ℕ) : World :=
  match w.calls[i]? with
  | some c =>
    if c.stage = .locked ∧ (w.calls.eraseIdx i).all fun d => d.row.all fun r => r.pk != c.seen.pk then
      match w.writes c with
      | none => w.putCall i { c with stage := .ended }
      | some (row, attempt) => w.putCall i { c with stage := .checked row attempt }
    else w
  | none => w

/-- The call after its commit. -/
def committed (c : Call) : Call :=
  match c.request with
  | .checkout _ attempt _ => { c with stage := .posting attempt }
  | _ => { c with stage := .ended }

def commit (w : World) (i : ℕ) : World :=
  match w.calls[i]? with
  | some c =>
    match c.stage with
    | .checked row attempt =>
      { w.putCall i (committed c) with
        stays := put (fun s : Row => s.pk) w.stays { row with updatedAt := w.saves + 1 }
        attempts := attempt.elim w.attempts (put MorningPaymentAttempt.pk w.attempts)
        saves := w.saves + 1 }
    | _ => w
  | none => w

/-- A call ends before it commits: another of its checks fails, Hostaway does not answer, or its process is killed. -/
def abort (w : World) (i : ℕ) : World :=
  match w.calls[i]? with
  | some c => w.putCall i { c with stage := .ended }
  | none => w

def modifyAttempt (w : World) (pk : Uuid) (f : MorningPaymentAttempt → MorningPaymentAttempt) : World :=
  { w with attempts := Table.modify MorningPaymentAttempt.pk w.attempts pk f }

/-- The answer to a checkout. -/
def reply (w : World) (i : ℕ) (answer : CheckoutAnswer) : World :=
  match w.calls[i]? with
  | some c =>
    match c.stage with
    | .posting pk =>
      match answer with
      | .valid id =>
        (w.modifyAttempt pk fun a => { a with providerCheckoutId := some id, status := .pending }).putCall i
          { c with stage := .ended }
      | .invalid =>
        (w.modifyAttempt pk fun a => { a with status := .failed, failureCode := "checkout_response_invalid" }).putCall i
          { c with stage := .raising pk }
      | .raised => w.putCall i { c with stage := .raising pk }
    | _ => w
  | none => w

/-- The first update after an exception, which raises if another attempt of the stay is undecided or has succeeded. -/
def unknown (w : World) (i : ℕ) : World :=
  match w.calls[i]? with
  | some c =>
    match c.stage with
    | .raising pk =>
      if w.attempts.any fun a => a.pk != pk && a.stay == c.seen.pk && unresolved a.status then
        w.putCall i { c with stage := .ended }
      else
        (w.modifyAttempt pk fun a =>
          { a with status := .unknown, failureCode := "checkout_outcome_uncertain" }).putCall i
          { c with stage := .failing }
    | _ => w
  | none => w

/-- The second update, which waits for the row of the stay and does not go through `save`. -/
def review (w : World) (i : ℕ) : World :=
  match w.calls[i]? with
  | some c =>
    if c.stage = .failing ∧ w.calls.all fun d => d.row.all fun r => r.pk != c.seen.pk then
      { w.putCall i { c with stage := .ended } with
        stays := Table.modify (fun s : Row => s.pk) w.stays c.seen.pk fun s => { s with status := .review } }
    else w
  | none => w

def step (w : World) : Action → World
  | .tick seconds => { w with now := w.now + seconds }
  | .call settings request => w.call settings request
  | .lock i => w.lock i
  | .check i => w.check i
  | .commit i => w.commit i
  | .abort i => w.abort i
  | .reply i answer => w.reply i answer
  | .unknown i => w.unknown i
  | .review i => w.review i

end World

end Apartments.Morning.Calendar
