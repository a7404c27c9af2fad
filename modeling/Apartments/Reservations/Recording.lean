import Apartments.Hostaway.Requests
import Apartments.Hostaway.Webhooks
import Apartments.Reservations.Orphans
import Apartments.Reservations.Owed

/-!
# The refund of a completed change (`reservations/services/automatic_modifications.py`)

`Bureau` is a reservation outside the loyalty path with its requests and the calls of `execute_automatic_modification`,
next to the webhooks of the reservation and the refunds of its gateway. A call whose execution ends in `completed` goes
on to `_record_refund_if_owed` in a transaction of its own, a filing here; a call that crashes before has a filing that
is never done. `due` logs the requests that were completed while a refund was owed for them, `answered` those that a call
has found completed since.
-/

namespace Apartments.Recording

open Payments Hostaway HyperPay Refunds

/-- A call that goes on to `_record_refund_if_owed`. -/
structure Filing where
  request : Uuid
  approvedRefundAmount : Option Dec.Column
  done : Bool
deriving DecidableEq

/-- What the refund code is given besides the rows: its settings, whether the automatic refund of an orphan gets as far as
its obligation, and the key of a new one. -/
structure Desk where
  settings : Refunds.Settings
  orphans : Bool
  pk : Uuid
deriving DecidableEq

structure Bureau where
  world : Changes.World
  cancellationPolicy : Option String
  checkInTime : ℕ
  components : Option (List Component)
  gateway : Gateway
  approved : List (Option Dec.Column)
  filings : List Filing
  due : List Uuid
  answered : List Uuid
deriving DecidableEq

inductive Action
  | automatic (pk : Uuid) (ownerOverride : Bool) (approvedRefundAmount : Option Dec.Column)
  | event (i : ℕ) (event : Changes.Event) (desk : Desk)
  | record (i : ℕ) (moment : Time) (desk : Desk)
  | snapshot (delivery : Delivery) (snapshot : Snapshot) (settings : Refunds.Settings)
  | gateway (action : HyperPay.Action)
deriving DecidableEq

/-- The refund that `_record_refund_if_owed` computes for a request, before an approved amount. -/
def computation (s : Refunds.Settings) (a : Account) (moment : Time) (m : ModificationRequest) : Option RefundComputation :=
  if isCancellation m then cancellationRefund s a moment
  else
    match m.ownerFinalTotal, m.newTotal with
    | some _, some newTotal =>
      if netPaid a - newTotal ≤ 0 then none
      else some ⟨netPaid a - newTotal, m.currency, some "owner_final_total_vs_net_paid"⟩
    | some _, none => none
    | none, _ =>
      if m.priceDifference < 0 then
        match successfulOriginalPaymentAmount a with
        | none => none
        | some original => some ⟨min |m.priceDifference| original, m.currency, some "modification_price_difference"⟩
      else none

/-- The amount that `_record_refund_if_owed` asks to record. -/
def refund (s : Refunds.Settings) (a : Account) (moment : Time) (m : ModificationRequest) (approved : Option Dec.Column) :
    Option RefundComputation :=
  (computation s a moment m).bind (approvedRefund approved)

/-- `_record_refund_if_owed` computes a positive amount. -/
def owes (s : Refunds.Settings) (a : Account) (moment : Time) (m : ModificationRequest) (approved : Option Dec.Column) : Bool :=
  (refund s a moment m approved).any (0 < ·.amount)

/-- A documented receipt covers the refund. -/
def covers (a : Account) (r : RefundComputation) : Bool :=
  !(a.desk.offlinePaymentReceipt.isSome && decide ((successfulOriginalPaymentAmount a).getD 0 < r.amount))

def reason (m : ModificationRequest) : RefundReason := if isCancellation m then .cancellation else .modificationDecrease

/-- The obligation that `_record_refund_if_owed` records. -/
def recordRefundIfOwed (s : Refunds.Settings) (a : Account) (moment : Time) (m : ModificationRequest)
    (approved : Option Dec.Column) (pk : Uuid) : Option RefundObligation :=
  match refund s a moment m approved with
  | none => none
  | some r => (recordObligation a (reason m) r m.pk pk).toOption.join

namespace Bureau

def board (t : Bureau) : Board := t.world.board

def requests (t : Bureau) : List ModificationRequest := t.world.board.requests

def obligations (t : Bureau) : List RefundObligation := t.gateway.desk.obligations

/-- The reservation as the refund rules read it. -/
def account (t : Bureau) : Account where
  stay :=
    { totalPrice := t.board.reservation.totalPrice
      currency := t.board.reservation.currency
      cancellationPolicy := t.cancellationPolicy
      arrival := t.board.reservation.checkIn * 86400 + t.checkInTime
      components := t.components }
  gateway := t.gateway

def record (t : Bureau) (o : Option RefundObligation) : Bureau :=
  { t with gateway.desk.obligations := t.obligations ++ o.toList }

/-- The approved amount that a call was given. -/
def approvedAmount (t : Bureau) (i : ℕ) : Option Dec.Column := (t.approved[i]?).join

/-- Requests have been completed, with a refund owed for those of `owed`. -/
def complete (t : Bureau) (completed owed : List Uuid) : Bureau :=
  { t with due := t.due ++ owed, answered := t.answered.filter fun pk => !completed.contains pk }

/-- The obligation of an orphaned payment: the one that was recorded before, or a new one for the whole of it. -/
def orphanRefund (t : Bureau) (approved : Option Dec.Column) (moment : Time) (m : ModificationRequest) (k : Desk) :
    Option RefundObligation :=
  if !k.orphans || m.status == .completed || !orphanedCancellation t.board.reservation m ||
      (Orphans.recorded t.gateway.desk m.pk).isSome then none
  else
    match cancellationRefund k.settings t.account moment with
    | none => none
    | some r =>
      if (approved.elim r.amount (·.val)) ≠ r.amount then none
      else (recordObligation t.account .cancellation r m.pk k.pk).toOption.join

/-- What an event of a call means for the refund of its request. -/
def book (t t' : Bureau) (i : ℕ) (c : Changes.Call) (event : Changes.Event) (k : Desk) : Bureau :=
  match event, c.stage, t.board.request c.request.pk with
  | .write now, .completing _, some m =>
    { t'.complete [m.pk] (if owes k.settings t'.account now m (t.approvedAmount i) then [m.pk] else []) with
      filings := t.filings ++ [⟨m.pk, t.approvedAmount i, false⟩] }
  | .check _, .loaded _, some m => if m.status = .completed then { t' with answered := t.answered ++ [m.pk] } else t'
  | .check e, .orphaned, some m => t'.record (t.orphanRefund (t.approvedAmount i) e.now m k)
  | _, _, _ => t'

/-- The requests that a snapshot completes. -/
def completedBy (t : Bureau) (d : Delivery) (s : Snapshot) : List ModificationRequest :=
  if t.board.reservation.hostawayReservationId ≠ some s.reservationId ∨ isStale t.board.reservation s ∨
      t.board.reservation.bookingIntent.isNone then []
  else t.requests.filter fun m => m.status != .completed && (reconcile s d.now m).status == .completed

def step (t : Bureau) : Action → Bureau
  | .automatic pk ownerOverride approved =>
    { t with
      world := t.world.step (.automatic pk ownerOverride)
      approved := if (t.board.request pk).isSome then t.approved ++ [approved] else t.approved }
  | .event i event k =>
    match t.world.calls[i]? with
    | none => t
    | some c => t.book { t with world := t.world.step (.event i event) } i c event k
  | .record i moment k =>
    match t.filings[i]? with
    | none => t
    | some f =>
      if f.done then t
      else
        { t.record ((t.board.request f.request).bind fun m =>
            Recording.recordRefundIfOwed k.settings t.account moment m f.approvedRefundAmount k.pk) with
          filings := t.filings.set i { f with done := true } }
  | .snapshot d s settings =>
    let t' := { t with world.board := syncReservation t.board d s }
    t'.complete ((t.completedBy d s).map (·.pk))
      (((t.completedBy d s).filter fun m => owes settings t'.account d.now m none).map (·.pk))
  | .gateway action => if isRefundCall action then { t with gateway := t.gateway.step action } else t

/-- The refund obligations of a request. -/
def recorded (t : Bureau) (pk : Uuid) : ℕ := (t.obligations.filter (·.modificationRequest == some pk)).length

/-- The call that completed the request has not recorded its refund. -/
def pending (t : Bureau) (pk : Uuid) : Bool := t.filings.any fun f => f.request == pk && !f.done

/-- A webhook completes a request that a refund is owed for, a call finds a request completed before the refund that is
owed for it is recorded, or when it would be recorded nothing is owed any more, or a receipt does not cover it. -/
def loses (t : Bureau) : Action → Bool
  | .snapshot d s settings =>
    (t.completedBy d s).any fun m =>
      owes settings { t with world.board := syncReservation t.board d s : Bureau }.account d.now m none
  | .event i (.check _) _ =>
    t.world.calls[i]?.any fun c =>
      (match c.stage with | .loaded _ => true | _ => false) && t.due.contains c.request.pk && t.pending c.request.pk &&
        (t.board.request c.request.pk).any (·.status == .completed)
  | .record i moment k =>
    t.filings[i]?.any fun f =>
      !f.done && t.due.contains f.request &&
        !(t.board.request f.request).any fun m =>
          (refund k.settings t.account moment m f.approvedRefundAmount).any fun r =>
            decide (0 < r.amount) && covers t.account r
  | .automatic .. | .event .. | .gateway _ => false

/-- No execution is under way. A request whose operation was not tried has no obligation, and no request has two. -/
structure Idle (t : Bureau) : Prop where
  keyed : Changes.Keyed t.board
  calls : t.world.calls = []
  filings : t.filings = []
  due : t.due = []
  once : ∀ pk, t.recorded pk ≤ 1
  untried : t.board.reservation.hostawayReservationId.isSome →
    ∀ m ∈ t.requests, Changes.attempts m = 0 → t.recorded m.pk = 0
  reasons : ∀ m ∈ t.requests, isCancellation m →
    ∀ o ∈ t.obligations, o.modificationRequest = some m.pk → o.reason = .cancellation

end Bureau

end Apartments.Recording
