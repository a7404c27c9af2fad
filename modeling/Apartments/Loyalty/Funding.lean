import Apartments.Loyalty.Updates

/-!
# Cash and points of a booking until it is sent

One booking with its payment attempts, the points under its document and the calls that send it to the channel manager.
A points command holds the financial lock from its reads to its commit (`World.tx`); attempts are verified and charged
outside that lock. `create_hostaway_reservation` reads the document, then looks for a payment, then sends, and
`create_points_reservation` checks the points before it sends. The keys of the points are written under the financial
lock only, and the document is followed in these.
-/

namespace Apartments.Funding

open Loyalty Payments Documents

/-- A row of `PaymentAttempt`; `session` says that it is a HyperPay attempt with a checkout, and `points` is what
`cash_due` took off its amount there. -/
structure Attempt where
  amount : Dec
  currency : String
  status : PaymentStatus
  session : Bool
  points : Option Dec
deriving DecidableEq

/-- The statuses at which `release_allowed` stops. -/
def live (s : PaymentStatus) : Bool :=
  s == .created || s == .pending || s == .unknown || s == .review || s == .succeeded || s == .partiallyRefunded ||
    s == .refunded

def collected (s : PaymentStatus) : Bool := s == .succeeded || s == .partiallyRefunded || s == .refunded

/-- The commands under the financial lock. -/
inductive Op
  | hold (request : String) (value : Dec)
  | release
  | releaseExpiredPoints (expired : Bool)
  | redeem (row : Option ℕ)
  | restorePoints (cumulativeValue : Dec) (evidenceReference : String) (posted : Bool)
  | createCheckout (payable : Bool)
  | confirmPointsBooking
  | abandonConfirmation
deriving DecidableEq

/-- The commands that place a hold or take it away. -/
def Op.moves : Op → Bool
  | .hold .. | .release | .releaseExpiredPoints _ => true
  | _ => false

/-- What the transaction under the financial lock is to commit. -/
structure Tx where
  op : Op
  document : Document
  attempt : Option Attempt
deriving DecidableEq

/-- The stages of the call that `confirm_points_booking` makes. -/
inductive Stage
  | started
  | checked
  | ended (rejected : Bool)
deriving DecidableEq

/-- The call after a command has committed. -/
def Op.calls : Op → Option Stage → Option Stage
  | .confirmPointsBooking, _ => some .started
  | .abandonConfirmation, _ => none
  | _, call => call

/-- A request that was sent: the payment it matched, and the points held or redeemed by the member of the booking. -/
structure Sending where
  cash : Dec
  points : Dec
deriving DecidableEq

structure World where
  gross : Dec
  member : ℕ
  enabled : Bool
  document : Document
  attempts : List Attempt
  tx : Option Tx
  /-- The call of `confirm_points_booking`. -/
  call : Option Stage
  /-- What is due in cash for the calls that have not looked for a payment yet. -/
  dues : List Dec
  /-- The payments matched by the calls that have not sent yet. -/
  creates : List Dec
  sent : List Sending
deriving DecidableEq

inductive Action
  | switch (enabled : Bool)
  | begin (o : Outside) (op : Op)
  | commit
  | abort
  | charge (amount : Dec) (currency : String) (status : PaymentStatus) (session : Bool)
  | report (i : ℕ) (status : PaymentStatus)
  | refund (i : ℕ) (status : PaymentStatus)
  | due (o : Outside)
  | check (k : ℕ)
  | drop (k : ℕ)
  | send (k : ℕ)
  | checkPoints (o : Outside)
  | dropPoints (rejected : Bool)
  | sendPoints (rejected : Bool)
deriving DecidableEq

/-- The points that `cash_due` takes off. -/
def valueOf (d : Document) : Option Dec := (allocation d).map Prod.fst

namespace World

variable (w : World)

/-- What a transaction reads of the attempts, the member and the amount is what is stored. -/
def sees (o : Outside) : Bool :=
  o.booking.attempts == w.attempts.map (·.status) && o.member == w.member && o.gross == w.gross

/-- `cash_due`, also when the program is switched off. -/
def cashDue (o : Outside) : Option Dec :=
  if w.enabled = false then
    if w.document.hold ≠ none ∨ w.document.redemption ≠ none ∨ w.document.checkoutFrozen = true ∨
        w.document.pointsConfirmationStarted = true then none
    else some o.gross
  else Documents.cashDue o w.document

/-- `create_checkout` from `cash_due` on; the gateway opens the checkout of a new attempt. -/
def createCheckout (o : Outside) (payable : Bool) : Option (Document × Option Attempt) :=
  match Documents.cashDue o w.document with
  | none => none
  | some due =>
    if payable = false ∨ due ≤ 0 then none
    else
      let frozen := (freeze o w.document).getD w.document
      match w.attempts.reverse.find? fun p => p.session && (p.status == .created || p.status == .pending) with
      | some p => if p.amount ≠ due ∨ p.currency ≠ "SAR" then none else some (frozen, none)
      | none => some (frozen, some ⟨due, "SAR", .pending, true, valueOf w.document⟩)

/-- What a command is to commit; `none` if it raises. -/
def next (o : Outside) : Op → Option (Document × Option Attempt)
  | .hold request value => (hold o request value w.document).map (·, none)
  | .release => (release o w.document).map (·, none)
  | .releaseExpiredPoints expired => (releaseExpiredPoints o expired w.document).map (·, none)
  | .redeem row => (redeem o row w.document).map (·, none)
  | .restorePoints value reference posted => (restorePoints o value reference posted w.document).map (·, none)
  | .createCheckout payable => w.createCheckout o payable
  | .confirmPointsBooking => (confirmPointsBooking o w.document).map (·, none)
  | .abandonConfirmation =>
    if w.call = some (.ended true) then (abandonConfirmation w.document).map (·, none) else none

def committed (t : Tx) : World :=
  { w with
    document := t.document
    attempts := w.attempts ++ t.attempt.toList
    tx := none
    call := t.op.calls w.call }

/-- `create_hostaway_reservation` finds a payment of this amount. -/
def isPaid (due : Dec) : Bool :=
  w.attempts.any fun p => p.status == .succeeded && p.amount == due && p.currency == "SAR"

/-- The points held or redeemed by the member of the booking. -/
def ownPoints : Dec :=
  match w.document.hold with
  | some held => if held.member = w.member then held.value else 0
  | none => (w.document.redemption.map (·.value)).getD 0

def setStatus (i : ℕ) (p : Attempt) (s : PaymentStatus) : World :=
  { w with attempts := w.attempts.set i { p with status := s } }

def step : Action → World
  | .switch enabled => { w with enabled := enabled }
  | .begin o op =>
    if w.enabled = false ∨ w.tx ≠ none ∨ w.sees o = false then w
    else
      match w.next o op with
      | none => w
      | some (document, attempt) => { w with tx := some ⟨op, document, attempt⟩ }
  | .commit =>
    match w.tx with
    | none => w
    | some t => w.committed t
  | .abort => { w with tx := none }
  | .charge amount currency status session =>
    if amount ≤ 0 then w else { w with attempts := w.attempts ++ [⟨amount, currency, status, session, none⟩] }
  | .report i status =>
    match w.attempts[i]? with
    | some p => if p.status = .succeeded then w else w.setStatus i p status
    | none => w
  | .refund i status =>
    match w.attempts[i]? with
    | some p =>
      if (p.status = .succeeded ∨ p.status = .partiallyRefunded) ∧
          (status = .partiallyRefunded ∨ status = .refunded) then
        w.setStatus i p status
      else w
    | none => w
  | .due o =>
    if w.sees o = false then w
    else
      match w.cashDue o with
      | some due => { w with dues := w.dues ++ [due] }
      | none => w
  | .check k =>
    match w.dues[k]? with
    | some due =>
      if w.isPaid due = true then { w with dues := w.dues.eraseIdx k, creates := w.creates ++ [due] }
      else { w with dues := w.dues.eraseIdx k }
    | none => w
  | .drop k => { w with creates := w.creates.eraseIdx k }
  | .send k =>
    match w.creates[k]? with
    | some cash => { w with creates := w.creates.eraseIdx k, sent := w.sent ++ [⟨cash, w.ownPoints⟩] }
    | none => w
  | .checkPoints o =>
    if w.call ≠ some .started ∨ w.sees o = false then w
    else if w.enabled = true ∧ Documents.cashDue o w.document = some 0 then { w with call := some .checked }
    else { w with call := some (.ended false) }
  | .dropPoints rejected => if w.call = some .checked then { w with call := some (.ended rejected) } else w
  | .sendPoints rejected =>
    if w.call = some .checked then
      { w with call := some (.ended rejected), sent := w.sent ++ [⟨0, w.ownPoints⟩] }
    else w

/-- The transaction under way places a hold or takes it away. -/
def moving : Bool := w.tx.any fun t => t.op.moves && t.document.hold != w.document.hold

/-- A call has computed this amount from points that have moved since. -/
def outdated (amount : Dec) : Bool :=
  w.dues.contains amount && amount + (valueOf w.document).getD 0 != w.gross

/-- A hold without a freeze is released beside a live payment, a payment comes to life while a hold is placed or
released or with an amount that is outdated, or a payment that was collected is reported as not collected. -/
def exposed : Action → Bool
  | .begin _ .release | .begin _ (.releaseExpiredPoints _) =>
    w.document.hold.isSome && !w.document.checkoutFrozen && w.attempts.any fun p => live p.status
  | .charge amount _ status _ => live status && (w.moving || w.outdated amount)
  | .report i status =>
    match w.attempts[i]? with
    | some p =>
      p.status != .succeeded && (!live p.status && live status && (w.moving || w.outdated p.amount) ||
        collected p.status && !collected status)
    | none => false
  | _ => false

/-- A booking that nobody has paid or held points for. -/
structure Fresh : Prop where
  hold : w.document.hold = none
  attempts : w.attempts = []
  tx : w.tx = none
  call : w.call = none
  dues : w.dues = []
  creates : w.creates = []
  sent : w.sent = []

end World

end Apartments.Funding
