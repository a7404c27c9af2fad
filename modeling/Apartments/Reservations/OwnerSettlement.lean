import Apartments.Loyalty.Contract
import Apartments.Loyalty.Settlements

/-!
# Settling owner-priced changes (`reservations/services/owner_settlement.py`)

What a guest has paid is what was collected in the currency of the booking, or, on the loyalty path, the riyals and points that
fund it, converted back through its contract. The final total is settled against it.
-/

namespace Apartments.Settlements

open Hostaway Loyalty Payments HyperPay

/-- A reservation with its money: the account, the changes with their snapshots, and what the loyalty path reads. -/
structure Folio where
  account : Refunds.Account
  board : Board
  intent : SnapshotIntent
  snapshots : Uuid → Option Fx.AuditSnapshot
  eligible : Bool
  redemption : Option Redemption
  currency : account.stay.currency = board.reservation.currency
  totalPrice : account.stay.totalPrice = board.reservation.totalPrice

structure OwnerSettlement where
  paid : Dec
  due : Dec
  refund : Dec
deriving DecidableEq

namespace Folio

variable (f : Folio)

/-- `_contract`. -/
def contract : Except Refusal (Dec × Dec) :=
  Loyalty.contract (fun pk => snapshotCheck (f.snapshots pk)) f.intent.funded f.board

def terms : StayTerms := stayTerms f.board.reservation none

/-- `total_sar`. -/
def totalSar : Except Refusal Dec := Loyalty.totalSar f.terms f.contract

/-- `loyalty_fx`. -/
def loyaltyFx : Bool := f.eligible && f.account.stay.currency != "SAR"

/-- `settlement_blocker`. -/
def settlementBlocker : String :=
  if f.loyaltyFx then
    if f.totalSar.isOk = false then "payment_currency_reconciliation_required"
    else if f.account.obligations.any fun o => (o.status == .due || o.status == .processing) && decide (0 < o.amount) then
      "previous_refund_requires_reconciliation"
    else ""
  else Refunds.settlementBlocker f.account

/-- What the guest has paid. -/
def paid (now : Time) : Except Refusal Dec :=
  if f.eligible then do
    let (cash, points) ← funding now f.account.desk f.redemption
    toSource f.terms f.contract (cash + points)
  else .ok (Refunds.netPaid f.account)

/-- `settlement_for`. -/
def settlementFor (now : Time) (finalTotal : Dec) : Except Refusal OwnerSettlement := do
  let paid ← f.paid now
  return ⟨paid, max (finalTotal - paid) 0, max (paid - finalTotal) 0⟩

end Folio

/-! ### What is paid -/

section
variable {f : Folio} {now : Time} {d : Desk} {redemption : Option Redemption} {cash points total paid finalTotal : Dec}
  {r r' : OwnerSettlement} {s : StayTerms} {p : Dec × Dec} {value x : Dec}

theorem settlementFor_ok (h : f.settlementFor now finalTotal = .ok r) : f.paid now = .ok r.paid ∧
    r.due = max (finalTotal - r.paid) 0 ∧ r.refund = max (r.paid - finalTotal) 0 := by
  simp only [Folio.settlementFor, bind_eq_ok] at h
  obtain ⟨paid, hpaid, h⟩ := h
  obtain rfl := Except.ok.inj h
  exact ⟨hpaid, rfl, rfl⟩

theorem funding_nonneg (hr : ∀ r, redemption = some r → r.restored ≤ r.value)
    (h : funding now d redemption = .ok (cash, points)) : 0 ≤ cash + points := by
  simp only [funding, bind_eq_ok] at h
  obtain ⟨balances, hbalances, h⟩ := h
  obtain ⟨rfl, rfl⟩ := Prod.mk.inj (Except.ok.inj h)
  refine add_nonneg (List.sum_nonneg fun x hx => ?_) ?_
  · obtain ⟨b, hb, rfl⟩ := List.mem_map.1 hx
    exact balances_nonneg hbalances b hb
  · cases redemption with
    | none => exact le_rfl
    | some r => exact sub_nonneg.2 (hr r rfl)

theorem toSource_nonneg {contract : Except Refusal (Dec × Dec)} (hvalue : 0 ≤ value)
    (h : toSource s contract value = .ok x) : 0 ≤ x := by
  unfold toSource at h
  split_ifs at h with hcode
  · obtain rfl := Except.ok.inj h
    exact hvalue
  · simp only [bind_eq_ok] at h
    obtain ⟨p, -, h⟩ := h
    split_ifs at h with hsar
    · simp only [bind_eq_ok] at h
      obtain ⟨-, -, h⟩ := h
      obtain rfl := Except.ok.inj h
      exact le_rfl
    · simp only [bind_eq_ok, raiseIf_eq_ok, exists_const] at h
      obtain ⟨hnonneg, -, h⟩ := h
      obtain rfl := Except.ok.inj h
      exact Dec.quantize_nonneg (not_lt.1 hnonneg)

theorem paid_nonneg (hr : ∀ r, f.redemption = some r → r.restored ≤ r.value) (h : f.paid now = .ok paid) : 0 ≤ paid := by
  unfold Folio.paid at h
  split_ifs at h with heligible
  · simp only [bind_eq_ok] at h
    obtain ⟨⟨cash, points⟩, hfunding, h⟩ := h
    exact toSource_nonneg (funding_nonneg hr hfunding) h
  · obtain rfl := Except.ok.inj h
    exact le_max_right ..

/-- The riyals of the contract are worth the stay, rounded to its currency. -/
theorem toSource_whole (hcode : s.currency ≠ "SAR") (hsupported : (Fx.normalizeCurrency s.currency).isOk = true)
    (hp : SoundPair p) : toSource s (.ok p) p.2 = .ok (if p.2 = 0 then 0 else Dec.quantize 2 p.1) := by
  unfold toSource
  rw [if_neg hcode]
  dsimp only [bind, Except.bind]
  split_ifs with hsar
  · rw [raiseIf_of_not (not_not.2 hsar)]
    rfl
  · rw [mul_div_cancel_left₀ _ hsar, raiseIf_of_not (not_lt.2 hp.source), raiseIf_of_not (by simp [hsupported])]
    rfl

theorem quantize_eq_iff {places : ℕ} {x : Dec} : Dec.quantize places x = x ↔ Dec.Exact places x :=
  ⟨fun h => h ▸ Dec.exact_quantize places x, fun h => h.quantize_eq⟩

/-- What a whole contract is worth in the currency of the stay, and when it is the price. -/
theorem paid_whole (hi : Dec.Exact 2 f.intent.paymentAmountSar) (hrows : ∀ m ∈ f.board.requests, Cents m)
    (heligible : f.eligible = true) (hsupported : (Fx.normalizeCurrency f.account.stay.currency).isOk = true)
    (hfunding : funding now f.account.desk f.redemption = .ok (cash, points)) (htotal : f.totalSar = .ok total)
    (hwhole : cash + points = total) :
    ∃ paid, f.paid now = .ok paid ∧ (paid = f.account.stay.totalPrice ↔ Dec.Exact 2 f.account.stay.totalPrice ∧
      (f.account.stay.currency ≠ "SAR" → total = 0 → f.account.stay.totalPrice = 0)) := by
  unfold Folio.paid
  rw [if_pos heligible, hfunding]
  dsimp only [bind, Except.bind]
  rw [hwhole]
  have hprice : f.terms.totalPrice = f.account.stay.totalPrice := f.totalPrice.symm
  have hcurrency : f.terms.currency = f.account.stay.currency := f.currency.symm
  rw [← hprice, ← hcurrency]
  rw [← hcurrency] at hsupported
  by_cases hcode : f.terms.currency = "SAR"
  · unfold Folio.totalSar Loyalty.totalSar at htotal
    rw [if_pos hcode] at htotal
    simp only [bind_eq_ok] at htotal
    obtain ⟨-, -, htotal⟩ := htotal
    obtain rfl := Except.ok.inj htotal
    refine ⟨Dec.quantize 2 f.terms.totalPrice, if_pos hcode, ?_⟩
    rw [quantize_eq_iff]
    exact ⟨fun h => ⟨h, fun hne => absurd hcode hne⟩, And.left⟩
  · unfold Folio.totalSar Loyalty.totalSar at htotal
    rw [if_neg hcode] at htotal
    cases hcontract : f.contract with
    | error e =>
      rw [hcontract] at htotal
      cases htotal
    | ok p =>
      rw [hcontract] at htotal
      obtain rfl := Except.ok.inj htotal
      obtain ⟨hp, hsource⟩ := contract_settled hi hrows hcode hcontract
      have hsame : p.1 = f.terms.totalPrice := hsource
      refine ⟨_, toSource_whole hcode hsupported hp, ?_⟩
      rw [← hsame]
      by_cases hsar : p.2 = 0
      · rw [if_pos hsar]
        refine ⟨fun hzero => ⟨hzero ▸ Dec.exact_zero, fun _ _ => hzero.symm⟩, fun h => (h.2 hcode hsar).symm⟩
      · rw [if_neg hsar, quantize_eq_iff]
        exact ⟨fun h => ⟨h, fun _ hzero => absurd hzero hsar⟩, And.left⟩

/-- The final total is settled against what is paid: at most one of what is due and what is refunded is positive, and
together they are the difference. -/
structure Settles (finalTotal : Dec) (r : OwnerSettlement) : Prop where
  paid : 0 ≤ r.paid
  due : 0 ≤ r.due
  refund : 0 ≤ r.refund
  one : r.due = 0 ∨ r.refund = 0
  difference : r.due - r.refund = finalTotal - r.paid

theorem settlementFor_settles (hr : ∀ r, f.redemption = some r → r.restored ≤ r.value)
    (h : f.settlementFor now finalTotal = .ok r) : Settles finalTotal r := by
  obtain ⟨hpaid, hdue, hrefund⟩ := settlementFor_ok h
  refine ⟨paid_nonneg hr hpaid, hdue ▸ le_max_right .., hrefund ▸ le_max_right .., ?_, ?_⟩
  · rw [hdue, hrefund]
    rcases le_total finalTotal r.paid with hle | hle
    · exact .inl (max_eq_right (sub_nonpos.2 hle))
    · exact .inr (max_eq_right (sub_nonpos.2 hle))
  · rw [hdue, hrefund]
    rcases le_total finalTotal r.paid with hle | hle
    · rw [max_eq_right (sub_nonpos.2 hle), max_eq_left (sub_nonneg.2 hle)]
      ring
    · rw [max_eq_left (sub_nonneg.2 hle), max_eq_right (sub_nonpos.2 hle)]
      ring

/-- Settlements of owner-priced changes settle the final total, a higher one with no less due and no more to refund. A
booking whose riyals and points are its contract settles its own price exactly if that price has two places and, in another
currency, is not valued at nothing. -/
theorem owner_changes_settle (f : Folio) (now : Time) (hi : Dec.Exact 2 f.intent.paymentAmountSar)
    (hrows : ∀ m ∈ f.board.requests, Cents m) (hr : ∀ r, f.redemption = some r → r.restored ≤ r.value)
    (hpass : f.settlementBlocker = "") :
    (f.eligible = false → ∀ finalTotal, ∃ r, f.settlementFor now finalTotal = .ok r) ∧
    (f.loyaltyFx = true → ∃ total, f.totalSar = .ok total) ∧
    (∀ finalTotal r, f.settlementFor now finalTotal = .ok r → Settles finalTotal r) ∧
    (∀ finalTotal finalTotal' r r', finalTotal ≤ finalTotal' → f.settlementFor now finalTotal = .ok r →
      f.settlementFor now finalTotal' = .ok r' → r.due ≤ r'.due ∧ r'.refund ≤ r.refund) ∧
    ∀ cash points total, f.eligible = true → (Fx.normalizeCurrency f.account.stay.currency).isOk = true →
      funding now f.account.desk f.redemption = .ok (cash, points) → f.totalSar = .ok total → cash + points = total →
      ∃ r, f.settlementFor now f.account.stay.totalPrice = .ok r ∧
        (r.due = 0 ∧ r.refund = 0 ↔ Dec.Exact 2 f.account.stay.totalPrice ∧
          (f.account.stay.currency ≠ "SAR" → total = 0 → f.account.stay.totalPrice = 0)) := by
  refine ⟨fun hnot finalTotal => ?_, fun hfx => ?_, fun finalTotal r h => settlementFor_settles hr h, ?_, ?_⟩
  · have hpaid : f.paid now = .ok (Refunds.netPaid f.account) := by
      unfold Folio.paid
      rw [hnot]
      rfl
    unfold Folio.settlementFor
    rw [hpaid]
    exact ⟨_, rfl⟩
  · unfold Folio.settlementBlocker at hpass
    rw [if_pos hfx] at hpass
    cases htotal : f.totalSar with
    | ok total => exact ⟨total, rfl⟩
    | error e =>
      have hraises : f.totalSar.isOk = false := by
        rw [htotal]
        rfl
      rw [if_pos hraises] at hpass
      exact absurd hpass (by decide)
  · intro finalTotal finalTotal' r r' hle h h'
    obtain ⟨hpaid, hdue, hrefund⟩ := settlementFor_ok h
    obtain ⟨hpaid', hdue', hrefund'⟩ := settlementFor_ok h'
    have hsame : r.paid = r'.paid := Except.ok.inj (hpaid.symm.trans hpaid')
    rw [hdue, hdue', hrefund, hrefund', hsame]
    exact ⟨max_le_max_right 0 (sub_le_sub_right hle _), max_le_max_right 0 (sub_le_sub_left hle _)⟩
  · intro cash points total heligible hsupported hfunding htotal hwhole
    obtain ⟨paid, hpaid, hiff⟩ := paid_whole hi hrows heligible hsupported hfunding htotal hwhole
    refine ⟨⟨paid, max (f.account.stay.totalPrice - paid) 0, max (paid - f.account.stay.totalPrice) 0⟩, ?_, ?_⟩
    · unfold Folio.settlementFor
      rw [hpaid]
      rfl
    · rw [← hiff]
      dsimp only
      rw [max_eq_right_iff, max_eq_right_iff, sub_nonpos, sub_nonpos]
      exact ⟨fun h => le_antisymm h.2 h.1, fun h => ⟨h.ge, h.le⟩⟩

end

/-- A riyal stay on the loyalty path that was paid by card. -/
def paidStay (totalPrice paid : Dec) : Folio where
  account := ⟨⟨totalPrice, "SAR", none, 0, none⟩,
    ⟨⟨some Settlements.intent, none, [cardReceipt firstReceipt "pay-1" paid 1], []⟩, [], [], []⟩⟩
  board := ⟨{ Changes.stay with totalPrice := totalPrice }, []⟩
  intent := ⟨"SAR", totalPrice, paid, none⟩
  snapshots _ := none
  eligible := true
  redemption := none
  currency := rfl
  totalPrice := rfl

/-- A price of 100.005 riyals is valued at 100.01, and half a halala of what was paid for it is to be refunded. -/
theorem sub_halala_price_unsettled :
    (paidStay 100.005 100.01).settlementBlocker = "" ∧
      funding 3 (paidStay 100.005 100.01).account.desk (paidStay 100.005 100.01).redemption = .ok (100.01, 0) ∧
      (paidStay 100.005 100.01).totalSar = .ok 100.01 ∧
      (paidStay 100.005 100.01).settlementFor 3 100.005 = .ok ⟨100.01, 0, 0.005⟩ :=
  ⟨by decide +kernel, by decide +kernel, by decide +kernel, by decide +kernel⟩

theorem owner_changes_settle_hundred :
    ∃ r, (paidStay 100 100).settlementFor 3 100 = .ok r ∧ Settles 100 r ∧ r.due = 0 ∧ r.refund = 0 := by
  obtain ⟨-, -, hsettles, -, hwhole⟩ := owner_changes_settle (paidStay 100 100) 3 ⟨10000, by decide +kernel⟩
    (List.forall_mem_nil _) (by rintro _ ⟨⟩) (by decide +kernel)
  obtain ⟨r, hr, hiff⟩ := hwhole 100 0 100 rfl (by decide +kernel) (by decide +kernel) (by decide +kernel) (by decide +kernel)
  have hexact : Dec.Exact 2 (paidStay 100 100).account.stay.totalPrice := ⟨10000, by decide +kernel⟩
  exact ⟨r, hr, hsettles 100 r hr, hiff.2 ⟨hexact, fun hne => absurd rfl hne⟩⟩

end Apartments.Settlements
