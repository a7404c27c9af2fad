import Apartments.Loyalty.Chain
import Apartments.Loyalty.Documents
import Apartments.Loyalty.EarlyDeparture
import Apartments.Loyalty.Settlements

/-!
# Paying out a refund plan (`loyalty/settlements.py`)

`cancellationPlan` and `decreasePlan` divide what goes back between cash and points, and `recordRefundPlan` pays a plan: it
restores the points, takes the cash from the receipts in their order and marks the change as paid. A transaction that raises
leaves everything as it was.
-/

namespace Apartments.Settlements

open Loyalty Payments HyperPay

structure Plan where
  cash : Dec
  points : Dec
  pointsTarget : Dec
  source : String
deriving DecidableEq

/-- What a refund reads and writes: the loyalty tables, the account of the booking and its `refund_plans`. The obligations of
the account are in the order of their creation. -/
structure Purse where
  world : World
  account : Refunds.Account
  refundPlans : List Documents.RefundPlan
deriving DecidableEq

/-- The points of the booking that came back. -/
def restoredPoints (b : Booking) : Dec := (b.loyaltyState.redemption.map (·.restored)).getD 0

section
variable (site : Site)

/-- `cancellation_plan`; `eligible` is the answer of `eligible`. -/
def cancellationPlan (eligible : Bool) (o : Purse) (b : Booking) : Except Refusal (Option Plan) :=
  if eligible = false then .ok none
  else do
    let (cash, points) ← funding site.now o.account.desk b.loyaltyState.redemption
    let _ ← siteRead (site.totalSar o.world b)
    if site.effectiveArrival o.world b = true then do
      let departure ← found b.loyaltyState.departureSettlement
        (.validation "بدأت الإقامة المعتمدة؛ أنهِ الإقامة وراجع المتبقي قبل الإلغاء.")
      let pending := max (departure.pointsRefund - restoredPoints b) 0
      let due := max (departure.cashRefund - owed o.account.desk) 0
      raiseIf (cash < due ∨ points < pending) (.validation "خطة المغادرة تتجاوز السداد المتبقي.")
      return some ⟨due, pending, departure.pointsRefund, "loyalty_actual_departure"⟩
    else return some ⟨cash, points, restoredPoints b + points, "loyalty_full_prearrival"⟩

/-- `decrease_plan`, with the stay and its contract for `to_sar`. -/
def decreasePlan (eligible : Bool) (o : Purse) (b : Booking) (s : StayTerms) (contract : Except Refusal (Dec × Dec))
    (finalTotal : Dec) : Except Refusal (Option Plan) :=
  if eligible = false then .ok none
  else do
    let (cash, points) ← funding site.now o.account.desk b.loyaltyState.redemption
    let value ← toSar s contract finalTotal
    let (back, backPoints) ← refundSplit (max (cash + points - value) 0) cash points
    return some ⟨back, backPoints, restoredPoints b + backPoints, "loyalty_proportional_decrease"⟩

/-- A change that is paid out: its request and the reason of the refund; `fresh` are the keys of the new rows, by receipt. -/
structure Payout where
  modification : Uuid
  completed : Bool
  reason : RefundReason
  fresh : Uuid → Uuid

/-- `calculation` of a row of `record_refund_plan`, after `record_obligation` has named a manual receipt in it. -/
def planCalculation (a : Refunds.Account) (c : Payout) (plan : Plan) (p : PaymentAttempt) : Calculation where
  paymentAttempt := some p.pk
  receiptProvider := some (if a.desk.offlinePaymentReceipt.isSome then "manual" else p.provider)
  source := some plan.source
  settlementReference := some c.modification.str
  hyperpayRefund := none

/-- The loop over the receipts. -/
def payReceipts (c : Payout) (plan : Plan) : Dec → List (PaymentAttempt × Dec) → Refunds.Account →
    Except Refusal (Refunds.Account × List RefundObligation)
  | _, [], a => .ok (a, [])
  | remaining, (p, ceiling) :: allocations, a =>
    let value := min remaining ceiling
    if value ≤ 0 then payReceipts c plan remaining allocations a
    else do
      let row ← (Refunds.recordObligation a c.reason ⟨value, "SAR", some plan.source⟩ c.modification
        (c.fresh p.pk)).mapError .validation
      let row ← found row .attribute
      let row := { row with calculation := planCalculation a c plan p }
      let (a, rows) ← payReceipts c plan (remaining - value) allocations (a.record row)
      return (a, row :: rows)

/-- The obligations of a change. -/
def obligationsOf (modification : Uuid) (a : Refunds.Account) : List RefundObligation :=
  a.obligations.filter fun r => r.modificationRequest == some modification

/-- The points part of `record_refund_plan`. -/
def restorePlanned (c : Payout) (plan : Plan) (reservation : Uuid) (w : World) : Except Refusal World :=
  if plan.points = 0 then .ok w
  else (restorePoints site reservation plan.pointsTarget ("change:" ++ c.modification.str) w).map (·.1)

/-- The entry of `refund_plans`. -/
def markedPlan (c : Payout) (plan : Plan) (rows : List RefundObligation) (now : Time) : Documents.RefundPlan where
  modification := c.modification
  cash := plan.cash
  points := plan.points
  pointsTarget := plan.pointsTarget
  source := plan.source
  obligations := rows.map (·.pk)
  recordedAt := now

/-- `record_refund_plan`. -/
def recordRefundPlan (c : Payout) (plan : Plan) (reservation : Uuid) (o : Purse) :
    Except Refusal (Purse × List RefundObligation) := do
  postingTransaction site
  let _ ← found (o.world.booking reservation) .doesNotExist
  raiseIf (c.completed = false) (.validation "لا تسوية قبل تأكيد تعديل الحجز.")
  if o.refundPlans.any (·.modification == c.modification) = true then return (o, obligationsOf c.modification o.account)
  else do
    let world ← restorePlanned site c plan reservation o.world
    let allocations ← paymentBalances site.now o.account.desk
    raiseIf ((allocations.map (·.2)).sum < plan.cash) (.validation "الاسترداد يتجاوز المقبوض.")
    let (account, rows) ← payReceipts c plan plan.cash allocations o.account
    return (⟨world, account, o.refundPlans ++ [markedPlan c plan rows site.now]⟩, rows)

/-- What the transaction leaves. -/
def paidOut (c : Payout) (plan : Plan) (reservation : Uuid) (o : Purse) : Purse :=
  match recordRefundPlan site c plan reservation o with
  | .ok (o', _) => o'
  | .error _ => o

end

/-! ### Tagging more of a receipt -/

section
variable {use more : Uuid → Dec} {left : Dec} {payments : List PaymentAttempt}

/-- Obligations that name a receipt for no more than what is left of it are taken off it, and the obligations that name no
receipt are still taken from the same ones. -/
theorem spread_more (hleft : 0 ≤ left)
    (hmore : ∀ b ∈ spread use left payments, 0 ≤ more b.1.pk ∧ more b.1.pk ≤ b.2) :
    spread (fun pk => use pk + more pk) left payments =
        (spread use left payments).map (fun b => (b.1, b.2 - more b.1.pk)) ∧
      Waterfall.rest left (payments.map (free fun pk => use pk + more pk)) =
        Waterfall.rest left (payments.map (free use)) := by
  induction payments generalizing left with
  | nil => exact ⟨by simp [spread], rfl⟩
  | cons p payments ih =>
    rw [spread_cons, List.forall_mem_cons] at hmore
    obtain ⟨⟨hnonneg, hle⟩, hmore⟩ := hmore
    dsimp only at hnonneg hle
    have htake : 0 ≤ min (free use p) left := le_min (free_nonneg use p) hleft
    have hwithin : more p.pk ≤ free use p - min (free use p) left := by
      split_ifs at hle
      · exact hle.trans (sub_nonneg.2 (min_le_left ..))
      · exact hle
    have hfree : free (fun pk => use pk + more pk) p = free use p - more p.pk := by
      dsimp only [free] at hwithin htake ⊢
      rcases le_total (p.amount - use p.pk) 0 with hneg | hpos
      · -- nothing is free, and nothing more is named
        rw [max_eq_right hneg] at hwithin htake ⊢
        have hzero : more p.pk = 0 := by linarith
        rw [hzero, add_zero, max_eq_right hneg, sub_zero]
      · rw [max_eq_left hpos] at hwithin htake ⊢
        rw [max_eq_left (by linarith)]
        ring
    have hsame : min (free use p - more p.pk) left = min (free use p) left := by
      rcases le_total (free use p) left with h | h
      · rw [min_eq_left h] at hwithin ⊢
        have hzero : more p.pk = 0 := by linarith
        rw [hzero, sub_zero, min_eq_left h]
      · rw [min_eq_right h] at hwithin ⊢
        exact min_eq_right (by linarith)
    obtain ⟨hspread, hrest⟩ := ih (sub_nonneg.2 (min_le_right ..)) hmore
    rw [spread_cons, spread_cons, List.map_cons, List.map_cons, List.map_cons, hfree, hsame, Waterfall.rest, Waterfall.rest,
      hsame, hspread, hrest]
    refine ⟨?_, rfl⟩
    congr 2
    split_ifs with hrefunded
    · rw [if_pos hrefunded] at hle
      have hzero : more p.pk = 0 := le_antisymm hle hnonneg
      rw [hzero, sub_zero]
    · ring

end

/-! ### The rows of a plan -/

/-- What the rows name of a receipt. -/
def named (rows : List RefundObligation) (pk : Uuid) : Dec :=
  Table.total (fun r => r.calculation.paymentAttempt == some pk) RefundObligation.amount rows

/-- The account with more obligations. -/
def withRows (a : Refunds.Account) (rows : List RefundObligation) : Refunds.Account :=
  { a with gateway.desk.obligations := a.obligations ++ rows }

/-- A row for a part of one of the receipts. -/
def RowOf (c : Payout) (allocations : List (PaymentAttempt × Dec)) (r : RefundObligation) : Prop :=
  r.status = .due ∧ r.modificationRequest = some c.modification ∧
    ∃ b ∈ allocations, r.calculation.paymentAttempt = some b.1.pk ∧ 0 < r.amount ∧ r.amount ≤ b.2

/-- The rows take the amount from the receipts, from each no more than it has. -/
structure Taken (c : Payout) (x : Dec) (allocations : List (PaymentAttempt × Dec)) (rows : List RefundObligation) : Prop where
  tagged : ∀ r ∈ rows, RowOf c allocations r
  sum : (rows.map (·.amount)).sum = x - Waterfall.rest x (allocations.map (·.2))
  each : ∀ b ∈ allocations, named rows b.1.pk ≤ b.2

section
variable {site : Site} {c : Payout} {plan : Plan} {a a' : Refunds.Account} {rows : List RefundObligation} {x : Dec}
  {allocations : List (PaymentAttempt × Dec)} {row : RefundObligation} {d : Desk}

theorem recordObligation_some {r : RefundReason} {q : Refunds.RefundComputation} {modification pk : Uuid}
    (h : Refunds.recordObligation a r q modification pk = .ok (some row)) :
    row.amount = q.amount ∧ row.status = .due ∧ row.modificationRequest = some modification := by
  unfold Refunds.recordObligation at h
  split at h
  · cases h
  split at h
  · cases h
  · obtain rfl := Option.some.inj (Except.ok.inj h)
    exact ⟨rfl, rfl, rfl⟩

theorem RowOf.cons {b : PaymentAttempt × Dec} (h : RowOf c allocations row) : RowOf c (b :: allocations) row := by
  obtain ⟨hstatus, hchange, b', hb', hrow⟩ := h
  exact ⟨hstatus, hchange, b', List.mem_cons_of_mem _ hb', hrow⟩

theorem named_eq_zero {pk : Uuid} (hrows : ∀ r ∈ rows, RowOf c allocations r) (hpk : pk ∉ allocations.map (·.1.pk)) :
    named rows pk = 0 := by
  refine Table.total_eq_zero fun r hr => ?_
  obtain ⟨-, -, b, hb, htag, -⟩ := hrows r hr
  rw [htag, beq_eq_false_iff_ne]
  intro hsame
  exact hpk (Option.some.inj hsame ▸ List.mem_map.2 ⟨b, hb, rfl⟩)

theorem payReceipts_taken (hx : 0 ≤ x) (hceilings : ∀ b ∈ allocations, 0 ≤ b.2)
    (hkeys : (allocations.map (·.1.pk)).Nodup) (h : payReceipts c plan x allocations a = .ok (a', rows)) :
    a' = withRows a rows ∧ Taken c x allocations rows := by
  induction allocations generalizing x a a' rows with
  | nil =>
    obtain ⟨rfl, rfl⟩ := Prod.mk.inj (Except.ok.inj h)
    refine ⟨by simp [withRows, Refunds.Account.obligations], ⟨by simp, ?_, by simp⟩⟩
    simp [Waterfall.rest]
  | cons b allocations ih =>
    obtain ⟨p, ceiling⟩ := b
    obtain ⟨hceiling, hceilings⟩ := List.forall_mem_cons.1 hceilings
    obtain ⟨hpk, hkeys⟩ := List.nodup_cons.1 hkeys
    dsimp only at hceiling hpk
    have hvalue : 0 ≤ min x ceiling := le_min hx hceiling
    have hrest : Waterfall.rest x (((p, ceiling) :: allocations).map (·.2)) =
        Waterfall.rest (x - min x ceiling) (allocations.map (·.2)) := by
      rw [List.map_cons, Waterfall.rest, min_comm]
    rw [payReceipts] at h
    dsimp only at h
    by_cases hskip : min x ceiling ≤ 0
    · rw [if_pos hskip] at h
      obtain ⟨rfl, hrows, hsum, heach⟩ := ih hx hceilings hkeys h
      refine ⟨rfl, fun r hr => (hrows r hr).cons, ?_, List.forall_mem_cons.2 ⟨?_, heach⟩⟩
      · rw [hrest, le_antisymm hskip hvalue, sub_zero, hsum]
      · rw [named_eq_zero hrows hpk]
        exact hceiling
    · rw [if_neg hskip] at h
      simp only [bind_eq_ok, found_eq_ok] at h
      obtain ⟨made, hmade, row, rfl, ⟨a'', rows'⟩, hpaid, h⟩ := h
      obtain ⟨rfl, rfl⟩ := Prod.mk.inj (Except.ok.inj h)
      obtain ⟨ha, hrows, hsum, heach⟩ := ih (sub_nonneg.2 (min_le_left ..)) hceilings hkeys hpaid
      have hrow : row.amount = min x ceiling ∧ row.status = .due ∧ row.modificationRequest = some c.modification := by
        cases hrecord : Refunds.recordObligation a c.reason ⟨min x ceiling, "SAR", some plan.source⟩ c.modification
            (c.fresh p.pk) with
        | error e =>
          rw [hrecord] at hmade
          cases hmade
        | ok made =>
          rw [hrecord] at hmade
          cases hmade
          exact recordObligation_some hrecord
      refine ⟨?_, ?_, ?_, ?_⟩
      · rw [ha]
        simp [withRows, Refunds.Account.record, Refunds.Account.obligations]
      · refine List.forall_mem_cons.2 ⟨⟨hrow.2.1, hrow.2.2, (p, ceiling), List.mem_cons_self, rfl, ?_, ?_⟩,
          fun r hr => (hrows r hr).cons⟩
        · exact hrow.1 ▸ not_le.1 hskip
        · exact hrow.1 ▸ min_le_right ..
      · rw [List.map_cons, List.sum_cons, hsum, hrest, hrow.1]
        ring
      · refine List.forall_mem_cons.2 ⟨?_, fun b hb => ?_⟩
        · have hzero := named_eq_zero hrows hpk
          unfold named at hzero ⊢
          rw [Table.total_cons, hzero, add_zero]
          have htag : (planCalculation a c plan p).paymentAttempt = some p.pk := rfl
          rw [htag, beq_self_eq_true, if_pos rfl]
          exact hrow.1 ▸ min_le_right ..
        · have hne : (some p.pk == some b.1.pk) = false := by
            rw [beq_eq_false_iff_ne]
            intro hsame
            exact hpk (Option.some.inj hsame ▸ List.mem_map.2 ⟨b, hb, rfl⟩)
          have htail := heach b hb
          unfold named at htail ⊢
          rw [Table.total_cons]
          have htag : (planCalculation a c plan p).paymentAttempt = some p.pk := rfl
          rw [htag, hne, if_neg Bool.false_ne_true, zero_add]
          exact htail

/-! ### What is left afterwards -/

theorem receipts_withRows : receipts (withRows a rows).desk = receipts a.desk := rfl

theorem used_withRows (hrows : ∀ r ∈ rows, RowOf c allocations r) (pk : Uuid) :
    used (withRows a rows).desk pk = used a.desk pk + named rows pk := by
  have happend : used (withRows a rows).desk pk = used a.desk pk +
      Table.total (fun o => o.status != .cancelled && receiptKey (receipts a.desk) o == some pk) RefundObligation.amount
        rows := Table.total_append
  rw [happend, named]
  refine congrArg _ (Table.total_congr fun r hr => ?_)
  obtain ⟨hstatus, -, b, -, htag, -⟩ := hrows r hr
  have hkey : receiptKey (receipts a.desk) r = some b.1.pk := by
    unfold receiptKey
    rw [htag]
  rw [hstatus, hkey, htag]
  rfl

theorem unassigned_withRows (hrows : ∀ r ∈ rows, RowOf c allocations r)
    (hreceipts : ∀ b ∈ allocations, b.1 ∈ receipts a.desk) : unassigned (withRows a rows).desk = unassigned a.desk := by
  have happend : unassigned (withRows a rows).desk = unassigned a.desk +
      Table.total (fun o => o.status != .cancelled &&
        !(receipts a.desk).any fun p => receiptKey (receipts a.desk) o == some p.pk) RefundObligation.amount rows :=
    Table.total_append
  rw [happend, Table.total_eq_zero fun r hr => ?_, add_zero]
  obtain ⟨-, -, b, hb, htag, -⟩ := hrows r hr
  have hkey : receiptKey (receipts a.desk) r = some b.1.pk := by
    unfold receiptKey
    rw [htag]
  have hany : ((receipts a.desk).any fun p => receiptKey (receipts a.desk) r == some p.pk) = true :=
    List.any_eq_true.2 ⟨b.1, hreceipts b hb, by rw [hkey, beq_self_eq_true]⟩
  rw [hany, Bool.not_true, Bool.and_false]

theorem named_nonneg (hrows : ∀ r ∈ rows, RowOf c allocations r) (pk : Uuid) : 0 ≤ named rows pk :=
  Table.total_nonneg fun r hr _ => by
    obtain ⟨-, -, b, -, -, hpos, -⟩ := hrows r hr
    exact hpos.le

/-- The rows name the receipts for all of their amounts. -/
theorem sum_named (hrows : ∀ r ∈ rows, RowOf c allocations r) (hkeys : (allocations.map (·.1.pk)).Nodup) :
    (allocations.map fun b => named rows b.1.pk).sum = (rows.map (·.amount)).sum := by
  have hlabels : Table.total (fun _ => true) RefundObligation.amount rows = _ + _ :=
    Table.total_labels (fun r => r.calculation.paymentAttempt) hkeys
  have hnone : Table.total (fun r => true && !(allocations.map (·.1.pk)).any fun k =>
      r.calculation.paymentAttempt == some k) RefundObligation.amount rows = 0 := by
    refine Table.total_eq_zero fun r hr => ?_
    obtain ⟨-, -, b, hb, htag, -⟩ := hrows r hr
    have hany : ((allocations.map (·.1.pk)).any fun k => r.calculation.paymentAttempt == some k) = true :=
      List.any_eq_true.2 ⟨b.1.pk, List.mem_map.2 ⟨b, hb, rfl⟩, by rw [htag, beq_self_eq_true]⟩
    rw [hany]
    rfl
  have htotal : Table.total (fun _ => true) RefundObligation.amount rows = (rows.map (·.amount)).sum := by
    rw [Table.total, List.filter_true]
  rw [hnone, add_zero, List.map_map] at hlabels
  rw [← htotal, hlabels]
  rfl

/-- After the rows every receipt has less by what they name of it. -/
theorem paymentBalances_withRows {now : Time} {balances : List (PaymentAttempt × Dec)}
    (howed : ∀ o ∈ a.desk.obligations, 0 ≤ o.amount) (hb : paymentBalances now a.desk = .ok balances)
    (ht : Taken c x balances rows) :
    paymentBalances now (withRows a rows).desk = .ok (balances.map fun b => (b.1, b.2 - named rows b.1.pk)) := by
  rw [paymentBalances, balancesFrom_eq_ok] at hb
  obtain ⟨htimely, hrest, rfl⟩ := hb
  have hreceipts : ∀ b ∈ spread (used a.desk) (unassigned a.desk) (receipts a.desk), b.1 ∈ receipts a.desk := by
    intro b hb
    have hmem : b.1 ∈ (spread (used a.desk) (unassigned a.desk) (receipts a.desk)).map (·.1) := List.mem_map.2 ⟨b, hb, rfl⟩
    rwa [spread_fst] at hmem
  have hused : used (withRows a rows).desk = fun pk => used a.desk pk + named rows pk :=
    funext fun pk => used_withRows ht.tagged pk
  have hmore : ∀ b ∈ spread (used a.desk) (unassigned a.desk) (receipts a.desk),
      0 ≤ named rows b.1.pk ∧ named rows b.1.pk ≤ b.2 := fun b hb => ⟨named_nonneg ht.tagged b.1.pk, ht.each b hb⟩
  obtain ⟨hspread, hsame⟩ := spread_more (unassigned_nonneg howed) hmore
  rw [paymentBalances, balancesFrom_eq_ok, receipts_withRows, unassigned_withRows ht.tagged hreceipts, hused]
  exact ⟨htimely, hsame.trans hrest, hspread.symm⟩

end

/-! ### Points that come back -/

section
variable {site : Site} {w w' : World} {member : Member} {p : Posting} {pk : Uuid} {b : Booking} {v x : Dec} {reference : String}

theorem post_ok (h : post site w member p = .ok w') :
    ∃ row, w' = { w with ledger := w.ledger ++ [row] } ∧ row.credit = p.credit ∧ row.debit = p.debit := by
  simp only [post, createRow, bind_eq_ok] at h
  obtain ⟨-, -, credit, hcredit, debit, hdebit, -, -, -, -, -, -, link, -, -, -, -, -, -, -, -, -, -, -, -, -, -, -, h⟩ := h
  obtain rfl := Except.ok.inj h
  exact ⟨_, rfl, amount_of_cents hcredit, amount_of_cents hdebit⟩

theorem booking_saveBooking (hb : w.booking pk = some b) (b' : Booking) (hpk : b'.pk = pk) :
    (w.saveBooking b').booking pk = some { b with loyaltyState := b'.loyaltyState } := by
  have hget : Table.get Booking.pk (Table.modify Booking.pk w.bookings pk fun b =>
      { b with loyaltyState := b'.loyaltyState }) pk = (Table.get Booking.pk w.bookings pk).map _ :=
    Table.get_modify_self fun a ha => ha
  unfold World.saveBooking World.putState World.booking
  rw [hpk]
  unfold World.booking at hb
  rw [hget, hb]
  rfl

/-- What is restored is credited, and written into the document. -/
theorem restorePoints_ok (h : restorePoints site pk v reference w = .ok (w', x)) (hb : w.booking pk = some b) :
    ∃ r posted, b.loyaltyState.redemption = some r ∧ r.restored ≤ v ∧ v ≤ r.value ∧
      w'.booking pk = some { b with loyaltyState := { b.loyaltyState with redemption := some { r with restored := v } } } ∧
      w'.ledger = w.ledger ++ posted ∧ (posted.map (·.credit)).sum = v - r.restored := by
  unfold restorePoints at h
  simp only [bind_eq_ok, found_eq_ok, raiseIf_eq_ok, exists_const] at h
  obtain ⟨-, -, b', hb', -, customer, -, member, -, r, hr, target, htarget, hbounds, h⟩ := h
  obtain rfl := Option.some.inj (hb.symm.trans hb')
  have hr := (Option.filter_eq_some_iff.1 hr).1
  have hvalue := amount_of_cents htarget
  rw [hvalue, not_or, not_lt, not_lt] at hbounds
  rw [hvalue] at h
  split_ifs at h with hsame
  · obtain ⟨rfl, rfl⟩ := Prod.mk.inj (Except.ok.inj h)
    have hkept : ({ r with restored := v } : Redemption) = r := by rw [hsame]
    refine ⟨r, [], hr, hbounds.1, hbounds.2, ?_, (List.append_nil _).symm, by rw [hsame]; simp⟩
    rw [hkept, ← hr, hb]
  · simp only [bind_eq_ok] at h
    obtain ⟨posted, hposted, h⟩ := h
    obtain ⟨rfl, rfl⟩ := Prod.mk.inj (Except.ok.inj h)
    obtain ⟨row, rfl, hcredit, -⟩ := post_ok hposted
    refine ⟨r, [row], hr, hbounds.1, hbounds.2, ?_, rfl, ?_⟩
    · have hpk : b.pk = pk := Table.key_of_get hb
      have hkept : ({ w with ledger := w.ledger ++ [row] } : World).booking pk = some b := hb
      exact booking_saveBooking hkept _ hpk
    · rw [List.map_singleton, List.sum_singleton, hcredit]
      exact congrArg (· - r.restored) hvalue

end

/-! ### The plans -/

section
variable {site : Site} {eligible : Bool} {o o' : Purse} {b : Booking} {plan : Plan} {cash points : Dec} {reservation : Uuid}
  {c : Payout} {rows : List RefundObligation}

/-- A plan that divides no more than what is there; its target is what was restored and its points, or less without points. -/
structure Fits (cash points restored : Dec) (plan : Plan) : Prop where
  cash : 0 ≤ plan.cash ∧ plan.cash ≤ cash
  points : plan.points ≤ points
  target : plan.pointsTarget ≤ restored + plan.points
  more : plan.points ≠ 0 → plan.pointsTarget = restored + plan.points

/-- The plans of `cancellation_plan` and `decrease_plan`. -/
def Planned (site : Site) (o : Purse) (b : Booking) (plan : Plan) : Prop :=
  ∃ eligible, cancellationPlan site eligible o b = .ok (some plan) ∨
    ∃ s contract finalTotal, decreasePlan site eligible o b s contract finalTotal = .ok (some plan)

theorem funding_ok (h : funding site.now o.account.desk b.loyaltyState.redemption = .ok (cash, points)) :
    ∃ balances, paymentBalances site.now o.account.desk = .ok balances ∧ (balances.map (·.2)).sum = cash ∧
      (b.loyaltyState.redemption.elim 0 fun r => r.value - r.restored) = points := by
  simp only [funding, bind_eq_ok] at h
  obtain ⟨balances, hbalances, h⟩ := h
  obtain ⟨rfl, rfl⟩ := Prod.mk.inj (Except.ok.inj h)
  exact ⟨balances, hbalances, rfl, rfl⟩

theorem funding_cash_nonneg (h : funding site.now o.account.desk b.loyaltyState.redemption = .ok (cash, points)) :
    0 ≤ cash := by
  obtain ⟨balances, hbalances, rfl, -⟩ := funding_ok h
  refine List.sum_nonneg fun x hx => ?_
  obtain ⟨p, hp, rfl⟩ := List.mem_map.1 hx
  exact balances_nonneg hbalances p hp

theorem cancellationPlan_fits (h : cancellationPlan site eligible o b = .ok (some plan)) :
    ∃ cash points, funding site.now o.account.desk b.loyaltyState.redemption = .ok (cash, points) ∧
      Fits cash points (restoredPoints b) plan := by
  unfold cancellationPlan at h
  by_cases heligible : eligible = false
  · rw [if_pos heligible] at h
    cases h
  rw [if_neg heligible] at h
  simp only [bind_eq_ok] at h
  obtain ⟨⟨cash, points⟩, hfunding, total, -, h⟩ := h
  refine ⟨cash, points, hfunding, ?_⟩
  dsimp only at h
  by_cases harrived : site.effectiveArrival o.world b = true
  · rw [if_pos harrived] at h
    simp only [bind_eq_ok, found_eq_ok, raiseIf_eq_ok, exists_const] at h
    obtain ⟨departure, -, hcovered, h⟩ := h
    obtain rfl := Option.some.inj (Except.ok.inj h)
    rw [not_or, not_lt, not_lt] at hcovered
    refine ⟨⟨le_max_right .., hcovered.1⟩, hcovered.2, ?_, fun hne => ?_⟩
    · exact sub_le_iff_le_add'.1 (le_max_left ..)
    · -- points are pending, so that the target is above what was restored
      rcases le_total (departure.pointsRefund - restoredPoints b) 0 with hle | hle
      · exact absurd (max_eq_right hle) hne
      · dsimp only
        rw [max_eq_left hle]
        ring
  · rw [if_neg harrived] at h
    obtain rfl := Option.some.inj (Except.ok.inj h)
    exact ⟨⟨funding_cash_nonneg hfunding, le_rfl⟩, le_rfl, le_rfl, fun _ => rfl⟩

theorem decreasePlan_fits {s : StayTerms} {contract : Except Refusal (Dec × Dec)} {finalTotal : Dec}
    (h : decreasePlan site eligible o b s contract finalTotal = .ok (some plan)) :
    ∃ cash points, funding site.now o.account.desk b.loyaltyState.redemption = .ok (cash, points) ∧
      Fits cash points (restoredPoints b) plan := by
  unfold decreasePlan at h
  by_cases heligible : eligible = false
  · rw [if_pos heligible] at h
    cases h
  rw [if_neg heligible] at h
  simp only [bind_eq_ok] at h
  obtain ⟨⟨cash, points⟩, hfunding, value, -, ⟨back, backPoints⟩, hsplit, h⟩ := h
  obtain rfl := Option.some.inj (Except.ok.inj h)
  obtain ⟨-, hcash, hcashle, -, hpointsle⟩ := refundSplit_conserves hsplit
  exact ⟨cash, points, hfunding, ⟨hcash, hcashle⟩, hpointsle, le_rfl, fun _ => rfl⟩

theorem Planned.fits (h : Planned site o b plan) :
    ∃ cash points, funding site.now o.account.desk b.loyaltyState.redemption = .ok (cash, points) ∧
      Fits cash points (restoredPoints b) plan := by
  obtain ⟨eligible, h | ⟨s, contract, finalTotal, h⟩⟩ := h
  · exact cancellationPlan_fits h
  · exact decreasePlan_fits h

/-! ### A plan is paid once -/

/-- What a payout has done: the rows take the cash of the plan from the receipts, the points of the plan are credited and
written into the document, and another payout of the same change leaves everything and answers with the same rows, behind
those that the change had before. -/
structure Paid (site : Site) (c : Payout) (plan : Plan) (reservation : Uuid) (b : Booking) (o o' : Purse)
    (rows : List RefundObligation) : Prop where
  account : o'.account = withRows o.account rows
  sum : (rows.map (·.amount)).sum = plan.cash
  within : ∃ balances, paymentBalances site.now o.account.desk = .ok balances ∧ (∀ r ∈ rows, RowOf c balances r) ∧
    ∀ p ∈ balances, named rows p.1.pk ≤ p.2
  ledger : ∃ posted, o'.world.ledger = o.world.ledger ++ posted ∧ (posted.map (·.credit)).sum = plan.points
  restored : ∃ b', o'.world.booking reservation = some b' ∧ restoredPoints b' = restoredPoints b + plan.points ∧
    restoredPoints b' = max (restoredPoints b) plan.pointsTarget ∧
    ∃ cash points, funding site.now o.account.desk b.loyaltyState.redemption = .ok (cash, points) ∧
      funding site.now o'.account.desk b'.loyaltyState.redemption = .ok (cash - plan.cash, points - plan.points)
  again : ∀ site' c' plan', postingTransaction site' = .ok () → c'.modification = c.modification → c'.completed = true →
    recordRefundPlan site' c' plan' reservation o' = .ok (o', obligationsOf c.modification o.account ++ rows)

theorem restorePlanned_ok {w : World} (hfits : Fits cash points (restoredPoints b) plan)
    (hbooking : o.world.booking reservation = some b) (h : restorePlanned site c plan reservation o.world = .ok w) :
    0 ≤ plan.points ∧ (∃ posted, w.ledger = o.world.ledger ++ posted ∧ (posted.map (·.credit)).sum = plan.points) ∧
      ∃ b', w.booking reservation = some b' ∧ restoredPoints b' = restoredPoints b + plan.points ∧
        (b'.loyaltyState.redemption.elim 0 fun r => r.value - r.restored) =
          (b.loyaltyState.redemption.elim 0 fun r => r.value - r.restored) - plan.points := by
  unfold restorePlanned at h
  split_ifs at h with hnone
  · obtain rfl := Except.ok.inj h
    rw [hnone]
    exact ⟨le_rfl, ⟨[], (List.append_nil _).symm, rfl⟩, b, hbooking, (add_zero _).symm, (sub_zero _).symm⟩
  · cases hrestore : restorePoints site reservation plan.pointsTarget ("change:" ++ c.modification.str) o.world with
    | error e =>
      rw [hrestore] at h
      cases h
    | ok answer =>
      rw [hrestore] at h
      obtain rfl := Except.ok.inj h
      obtain ⟨r, posted, hr, hle, -, hb', hledger, hsum⟩ := restorePoints_ok hrestore hbooking
      have hrestored : restoredPoints b = r.restored := by
        unfold restoredPoints
        rw [hr]
        rfl
      have htarget := hfits.more hnone
      rw [hrestored] at htarget
      refine ⟨?_, ⟨posted, hledger, ?_⟩, _, hb', ?_, ?_⟩
      · rw [htarget] at hle
        exact le_add_iff_nonneg_right _ |>.1 hle
      · rw [hsum, htarget]
        ring
      · rw [hrestored, ← htarget]
        rfl
      · rw [hr]
        dsimp only [Option.elim]
        rw [htarget]
        ring

theorem sum_map_sub {f g : PaymentAttempt × Dec → Dec} (l : List (PaymentAttempt × Dec)) :
    (l.map fun p => f p - g p).sum = (l.map f).sum - (l.map g).sum := by
  induction l with
  | nil => simp
  | cons p l ih =>
    rw [List.map_cons, List.map_cons, List.map_cons, List.sum_cons, List.sum_cons, List.sum_cons, ih]
    ring

/-- Of the obligations of the account, those of a change are the ones it had and the rows that are written for it. -/
theorem obligationsOf_withRows {a : Refunds.Account} {allocations : List (PaymentAttempt × Dec)}
    (hrows : ∀ r ∈ rows, RowOf c allocations r) :
    obligationsOf c.modification (withRows a rows) = obligationsOf c.modification a ++ rows := by
  have hall : rows.filter (fun r => r.modificationRequest == some c.modification) = rows :=
    List.filter_eq_self.2 fun r hr => beq_iff_eq.2 (hrows r hr).2.1
  exact (List.filter_append ..).trans (congrArg _ hall)

/-- A change whose entry is there is answered with its obligations. -/
theorem recordRefundPlan_marked (hsite : postingTransaction site = .ok ()) (hcompleted : c.completed = true)
    (hbooking : o.world.booking reservation = some b) (hmarked : ∃ r ∈ o.refundPlans, r.modification = c.modification) :
    recordRefundPlan site c plan reservation o = .ok (o, obligationsOf c.modification o.account) := by
  obtain ⟨r, hr, hsame⟩ := hmarked
  have hany : o.refundPlans.any (·.modification == c.modification) = true :=
    List.any_eq_true.2 ⟨r, hr, beq_iff_eq.2 hsame⟩
  have hraise : ¬c.completed = false := by
    rw [hcompleted]
    exact Bool.noConfusion
  unfold recordRefundPlan
  rw [hsite, hbooking, raiseIf, if_neg hraise, hany]
  rfl

/-- A payout that is not the first of its change, or raises, changes nothing; the first pays the plan exactly. -/
theorem refund_plan_is_paid (hkeys : (o.account.desk.payments.map (·.pk)).Nodup)
    (howed : ∀ r ∈ o.account.desk.obligations, 0 ≤ r.amount) (hbooking : o.world.booking reservation = some b)
    (hplan : Planned site o b plan) (hnew : ∀ r ∈ o.refundPlans, r.modification ≠ c.modification) :
    (∀ e, recordRefundPlan site c plan reservation o = .error e → paidOut site c plan reservation o = o) ∧
      ∀ o' rows, recordRefundPlan site c plan reservation o = .ok (o', rows) →
        Paid site c plan reservation b o o' rows := by
  refine ⟨fun e he => ?_, fun o' answer h => ?_⟩
  · unfold paidOut
    rw [he]
  obtain ⟨cash, points, hfunding, hfits⟩ := hplan.fits
  obtain ⟨balances, hbalances, rfl, hpoints⟩ := funding_ok hfunding
  have hany : ¬o.refundPlans.any (·.modification == c.modification) = true := by
    rw [List.any_eq_true]
    rintro ⟨r, hr, hsame⟩
    exact hnew r hr (beq_iff_eq.1 hsame)
  unfold recordRefundPlan at h
  simp only [bind_eq_ok, found_eq_ok, raiseIf_eq_ok, exists_const] at h
  obtain ⟨-, -, b', -, hcompleted, h⟩ := h
  rw [if_neg hany] at h
  simp only [bind_eq_ok, raiseIf_eq_ok, exists_const] at h
  obtain ⟨world, hworld, balances', hbalances', hcovered, ⟨account, rows⟩, hpaid, h⟩ := h
  obtain ⟨rfl, hrows⟩ := Prod.mk.inj (Except.ok.inj h)
  dsimp only at hrows hpaid ⊢
  obtain rfl := hrows
  obtain rfl := Except.ok.inj (hbalances.symm.trans hbalances')
  obtain ⟨hpos, hledger, b', hb', hrestored, hleft⟩ := restorePlanned_ok hfits hbooking hworld
  have hbalanced := hbalances
  rw [paymentBalances, balancesFrom_eq_ok] at hbalanced
  have hpks : (balances.map (·.1.pk)).Nodup := by
    have hfst : balances.map (·.1.pk) = (receipts o.account.desk).map (·.pk) := by
      have hreceipts : balances.map (·.1) = receipts o.account.desk := by
        rw [hbalanced.2.2]
        exact spread_fst
      rw [← hreceipts, List.map_map]
      rfl
    rw [hfst]
    exact nodup_receipts hkeys
  have hceilings : ∀ p ∈ balances, 0 ≤ p.2 := fun p hp => balances_nonneg hbalances p hp
  obtain ⟨rfl, htaken⟩ := payReceipts_taken hfits.cash.1 hceilings hpks hpaid
  -- the receipts cover the cash, so that all of it is in the rows
  have hrest : Waterfall.rest plan.cash (balances.map (·.2)) = 0 := by
    refine (Waterfall.rest_eq_zero_iff hfits.cash.1 ?_).2 (not_lt.1 hcovered)
    rintro x hx
    obtain ⟨p, hp, rfl⟩ := List.mem_map.1 hx
    exact hceilings p hp
  have hsum : (rows.map (·.amount)).sum = plan.cash := by rw [htaken.sum, hrest, sub_zero]
  refine ⟨rfl, hsum, ⟨balances, hbalances, htaken.tagged, htaken.each⟩, hledger, ⟨b', hb', hrestored, ?_,
    _, points, hfunding, ?_⟩, fun site' c' plan' hsite hsame hdone => ?_⟩
  · rw [hrestored]
    by_cases hnone : plan.points = 0
    · have htarget := hfits.target
      rw [hnone, add_zero] at htarget ⊢
      exact (max_eq_left htarget).symm
    · rw [hfits.more hnone]
      exact (max_eq_right (le_add_of_nonneg_right hpos)).symm
  · have hafter := paymentBalances_withRows howed hbalances htaken
    have hcash : ((balances.map fun p => (p.1, p.2 - named rows p.1.pk)).map (·.2)).sum =
        (balances.map (·.2)).sum - plan.cash := by
      rw [List.map_map, ← hsum, ← sum_named htaken.tagged hpks]
      exact sum_map_sub balances
    unfold funding
    rw [hafter, hleft, hpoints, ← hcash]
    rfl
  · rw [← obligationsOf_withRows htaken.tagged, ← hsame]
    refine recordRefundPlan_marked hsite hdone hb' ⟨markedPlan c plan rows site.now, ?_, hsame.symm⟩
    exact List.mem_append_right _ (List.mem_singleton_self _)

end

/-! ### A departure below what was restored -/

/-- The guest used 100 points and has 30 back; the departure returns 50 riyals and the points down to `points`. -/
def departedBooking (points : Dec) : Booking :=
  { newBooking stayPk 5 (confirmedBy 1) with
    loyaltyState.redemption := some ⟨100, 1, 30⟩
    loyaltyState.departureSettlement := some ⟨"desk", 50, points⟩ }

def departedPurse (points : Dec) : Purse where
  world := { emptyWorld with bookings := [departedBooking points] }
  account := ⟨⟨100, "SAR", none, 0, none⟩, ⟨⟨some intent, none, [cardReceipt firstReceipt "pay-1" 100 1], []⟩, [], [], []⟩⟩
  refundPlans := []

def departedSite : Site := { plainSite (.ok (stayFacts 100)) with effectiveArrival := fun _ _ => true }

def departurePayout : Payout := ⟨onlyDebt, true, .cancellation, fun _ => secondReceipt⟩

def shortTarget : Plan := ⟨50, 0, 20, "loyalty_actual_departure"⟩

theorem shortTarget_planned :
    cancellationPlan departedSite true (departedPurse 20) (departedBooking 20) = .ok (some shortTarget) := by
  decide +kernel

/-- The plan of a departure whose points are below what was restored leaves the 30 points, not the 20 of its target. -/
theorem departure_target_not_reached :
    cancellationPlan departedSite true (departedPurse 20) (departedBooking 20) = .ok (some shortTarget) ∧
      (recordRefundPlan departedSite departurePayout shortTarget stayPk (departedPurse 20)).map (fun answer =>
        (answer.1.world.booking stayPk).map restoredPoints) = .ok (some 30) :=
  ⟨shortTarget_planned, by decide +kernel⟩

theorem refund_plan_is_paid_departure :
    (∀ e, recordRefundPlan departedSite departurePayout shortTarget stayPk (departedPurse 20) = .error e →
      paidOut departedSite departurePayout shortTarget stayPk (departedPurse 20) = departedPurse 20) ∧
      ∀ o' rows, recordRefundPlan departedSite departurePayout shortTarget stayPk (departedPurse 20) = .ok (o', rows) →
        Paid departedSite departurePayout shortTarget stayPk (departedBooking 20) (departedPurse 20) o' rows :=
  refund_plan_is_paid (by decide) (List.forall_mem_nil _) rfl ⟨true, .inl shortTarget_planned⟩
    (List.forall_mem_nil _)

end Apartments.Settlements
