import Apartments.Lib.Shares
import Apartments.Loyalty.Contract
import Apartments.Loyalty.Shares

/-!
# What an early departure gives back

The nights that have not begun at the departure are added up, valued in riyals and divided between the cash and the points of
the booking. A later departure leaves fewer nights, and every stage keeps the order: the sum, the conversion, which is
monotone for the contract of the stay, and both sides of the division.
-/

namespace Apartments.Loyalty

open Hostaway

/-! ### The nights that are left -/

section
variable {wall wall' total total' : ℕ} {dates dates' : List ℕ} {n : Night} {nights : List Night} {x x' : Dec}

/-- A night that has not begun has not begun before. -/
theorem unused_anti (h : wall ≤ wall') (hn : unused wall' n = true) : unused wall n = true := by
  unfold unused at *
  simp only [Bool.or_eq_true, Bool.and_eq_true, decide_eq_true_eq, beq_iff_eq] at *
  omega

theorem departureRefund_anti (hwall : wall ≤ wall') (htotal : total' ≤ total)
    (h : departureRefund wall dates total nights = .ok x) (h' : departureRefund wall' dates' total' nights = .ok x') :
    x' ≤ x := by
  induction nights generalizing dates dates' total total' with
  | nil =>
    obtain rfl := Except.ok.inj h
    obtain rfl := Except.ok.inj h'
    exact div_le_div_of_nonneg_right (by exact_mod_cast htotal) (by norm_num)
  | cons n nights ih =>
    rw [departureRefund] at h h'
    simp only [bind_eq_ok] at h h'
    obtain ⟨-, -, v, hv, h⟩ := h
    obtain ⟨-, -, v', hv', h'⟩ := h'
    obtain rfl := Except.ok.inj (hv.symm.trans hv')
    refine ih ?_ h h'
    by_cases hleft : unused wall' n = true
    · rw [if_pos hleft, if_pos (unused_anti hwall hleft)]
      omega
    · rw [if_neg hleft]
      split_ifs <;> omega

theorem departureRefund_bounds (h : departureRefund wall dates total nights = .ok x) :
    0 ≤ x ∧ x ≤ amount total + (nights.map (·.value)).sum := by
  induction nights generalizing dates total with
  | nil =>
    obtain rfl := Except.ok.inj h
    have hnonneg : 0 ≤ amount total := div_nonneg (Nat.cast_nonneg _) (by norm_num)
    simpa using hnonneg
  | cons n nights ih =>
    rw [departureRefund] at h
    simp only [bind_eq_ok] at h
    obtain ⟨-, -, v, hv, h⟩ := h
    obtain ⟨hnonneg, hle⟩ := ih h
    refine ⟨hnonneg, hle.trans ?_⟩
    have hvalue := amount_of_cents hv
    rw [List.map_cons, List.sum_cons, ← hvalue, ← add_assoc]
    refine add_le_add_left (α := Dec) ?_ _
    unfold amount
    split_ifs
    · push_cast
      linarith
    · have : (0 : Dec) ≤ v := Nat.cast_nonneg v
      linarith

end

/-! ### The division -/

section
variable {r r' c p x y x' y' : Dec}

theorem refundSplit_ok (h : refundSplit r c p = .ok (x, y)) : ∃ n cash points : ℕ, amount n = r ∧ amount cash = c ∧
    amount points = p ∧ n ≤ cash + points ∧ x = amount (Shares.cut n cash points) ∧
      y = amount (n - Shares.cut n cash points) := by
  unfold refundSplit at h
  simp only [bind_eq_ok, raiseIf_eq_ok, exists_const] at h
  obtain ⟨n, hn, cash, hcash, points, hpoints, hle, h⟩ := h
  cases h
  exact ⟨n, cash, points, amount_of_cents hn, amount_of_cents hcash, amount_of_cents hpoints, not_lt.1 hle, rfl, rfl⟩

theorem amount_le {m n : ℕ} : amount m ≤ amount n ↔ m ≤ n := by
  unfold amount
  rw [div_le_div_iff_of_pos_right (by norm_num)]
  exact Nat.cast_le

/-- Nothing is lost in the division, and neither part is more than its source. -/
theorem refundSplit_conserves (h : refundSplit r c p = .ok (x, y)) : x + y = r ∧ 0 ≤ x ∧ x ≤ c ∧ 0 ≤ y ∧ y ≤ p := by
  obtain ⟨n, cash, points, rfl, rfl, rfl, hle, rfl, rfl⟩ := refundSplit_ok h
  have hnonneg : ∀ k : ℕ, 0 ≤ amount k := fun k => div_nonneg (Nat.cast_nonneg k) (by norm_num)
  refine ⟨?_, hnonneg _, amount_le.2 (Shares.cut_le hle), hnonneg _, amount_le.2 (Shares.sub_cut_le hle)⟩
  unfold amount
  rw [Nat.cast_sub (Shares.cut_le_self n cash points)]
  ring

/-- Both parts of less are less. -/
theorem refundSplit_mono (h : refundSplit r c p = .ok (x, y)) (h' : refundSplit r' c p = .ok (x', y')) (hle : r' ≤ r) :
    x' ≤ x ∧ y' ≤ y := by
  obtain ⟨n, cash, points, rfl, rfl, rfl, -, rfl, rfl⟩ := refundSplit_ok h
  obtain ⟨n', cash', points', rfl, hcash, hpoints, -, rfl, rfl⟩ := refundSplit_ok h'
  obtain rfl := amount_inj hcash
  obtain rfl := amount_inj hpoints
  have hn := amount_le.1 hle
  exact ⟨amount_le.2 (Shares.cut_mono hn), amount_le.2 (Shares.sub_cut_mono hn)⟩

end

/-! ### The value of the nights -/

/-- The conversion of a stay: in riyals, or at a settled contract of its total. -/
def Converted (s : StayTerms) (contract : Except Refusal (Dec × Dec)) : Prop :=
  s.currency ≠ "SAR" → ∀ p, contract = .ok p → SoundPair p ∧ p.1 = s.totalPrice

section
variable {s : StayTerms} {contract : Except Refusal (Dec × Dec)} {v w x y : Dec}

theorem toSar_le_toSar (hc : Converted s contract) (hv : toSar s contract v = .ok x) (hw : toSar s contract w = .ok y)
    (hle : v ≤ w) : x ≤ y := by
  by_cases hcode : s.currency = "SAR"
  · unfold toSar at hv hw
    rw [if_pos hcode] at hv hw
    simp only [bind_eq_ok] at hv hw
    obtain ⟨-, -, hv⟩ := hv
    obtain ⟨-, -, hw⟩ := hw
    obtain rfl := Except.ok.inj hv
    obtain rfl := Except.ok.inj hw
    exact Dec.quantize_mono hle
  · cases hcontract : contract with
    | error e =>
      rw [hcontract] at hv
      unfold toSar at hv
      rw [if_neg hcode] at hv
      cases hv
    | ok p =>
      rw [hcontract] at hv hw
      exact toSar_mono hcode (hc hcode p hcontract).1 hv hw hle

theorem toSar_nonneg (hc : Converted s contract) (hv : 0 ≤ v) (h : toSar s contract v = .ok x) : 0 ≤ x := by
  by_cases hcode : s.currency = "SAR"
  · unfold toSar at h
    rw [if_pos hcode] at h
    simp only [bind_eq_ok] at h
    obtain ⟨-, -, h⟩ := h
    obtain rfl := Except.ok.inj h
    exact Dec.quantize_nonneg hv
  · cases hcontract : contract with
    | error e =>
      rw [hcontract] at h
      unfold toSar at h
      rw [if_neg hcode] at h
      cases h
    | ok p =>
      rw [hcontract] at h
      have hp := (hc hcode p hcontract).1
      rw [(toSar_ok hcode h).2]
      exact Dec.quantize_nonneg (div_nonneg (mul_nonneg hv hp.sar) hp.source)

end

/-! ### The plan -/

section
variable {zones : Zones} {s : StayTerms} {d d' : Departing} {zone : Zone} {normal : Bool} {plan plan' : DepartureSettlement}

/-- What a plan is made of. -/
theorem departurePlan_ok (h : departurePlan zones s d = .ok plan) :
    ∃ facts zone noon, d.facts = some facts ∧ toSar s d.contract s.totalPrice = .ok facts.total ∧
      0 ≤ facts.total - facts.points ∧ stayEnd zones s = .ok (zone, noon) ∧
      (∃ reference, unusedPart s d zone (decide (noon ≤ d.vacatedAt)) = .ok (reference, plan.refundableTotal)) ∧
      refundSplit plan.refundableTotal (facts.total - facts.points) facts.points =
        .ok (plan.cashRefund, plan.pointsRefund) ∧
      plan.settlementTotal = facts.total ∧
      plan.consumedCashLodging = facts.total - facts.points - plan.cashRefund := by
  unfold departurePlan at h
  simp only [bind_eq_ok, found_eq_ok, raiseIf_eq_ok, exists_const] at h
  obtain ⟨arrived, -, -, -, facts, hfacts, price, hprice, hsame, -, hfunded, ⟨zone, noon⟩, hends, ⟨reference, refundable⟩,
    hunused, ⟨cash, points⟩, hsplit, h⟩ := h
  obtain rfl := Except.ok.inj h
  rw [not_not] at hsame
  exact ⟨facts, zone, noon, hfacts, hsame ▸ hprice, not_lt.1 (not_or.1 hfunded).1, hends, ⟨reference, hunused⟩, hsplit, rfl,
    rfl⟩

theorem unusedPart_bounds {reference : String} {x total : Dec} (hc : Converted s d.contract)
    (htotal : toSar s d.contract s.totalPrice = .ok total) (hnonneg : 0 ≤ total)
    (h : unusedPart s d zone normal = .ok (reference, x)) : 0 ≤ x ∧ x ≤ total := by
  unfold unusedPart at h
  cases normal with
  | true =>
    obtain ⟨-, rfl⟩ := Prod.mk.inj (Except.ok.inj h)
    exact ⟨le_rfl, hnonneg⟩
  | false =>
    simp only [Bool.false_eq_true, if_false, bind_eq_ok, raiseIf_eq_ok, exists_const] at h
    obtain ⟨hcovers, refund, hrefund, refundable, hrefundable, h⟩ := h
    obtain ⟨-, rfl⟩ := Prod.mk.inj (Except.ok.inj h)
    obtain ⟨hleft, hsum⟩ := departureRefund_bounds hrefund
    rw [Bool.not_eq_false] at hcovers
    unfold coversStay at hcovers
    simp only [Bool.and_eq_true, beq_iff_eq] at hcovers
    rw [amount_zero, zero_add, hcovers.1.1.2] at hsum
    exact ⟨toSar_nonneg hc hleft hrefundable, toSar_le_toSar hc hrefundable htotal hsum⟩

/-- The two departures are of one booking. -/
structure SameBooking (d d' : Departing) : Prop where
  facts : d'.facts = d.facts
  contract : d'.contract = d.contract
  nights : d'.nights = d.nights
  pricedNights : d'.pricedNights = d.pricedNights
  quote : d'.quote = d.quote

theorem SameBooking.contractedNights (h : SameBooking d d') : contractedNights s d' = contractedNights s d := by
  unfold Loyalty.contractedNights
  rw [h.pricedNights, h.quote, h.nights]

theorem unusedPart_anti {normal' : Bool} {reference reference' : String} {x x' total : Dec} (hd : SameBooking d d')
    (hc : Converted s d.contract) (htotal : toSar s d.contract s.totalPrice = .ok total) (hnonneg : 0 ≤ total)
    (hwall : zone.wall d.vacatedAt ≤ zone.wall d'.vacatedAt) (hnormal : normal = true → normal' = true)
    (h : unusedPart s d zone normal = .ok (reference, x)) (h' : unusedPart s d' zone normal' = .ok (reference', x')) :
    x' ≤ x := by
  have hbounds := unusedPart_bounds hc htotal hnonneg h
  unfold unusedPart at h h'
  cases normal' with
  | true =>
    obtain ⟨-, rfl⟩ := Prod.mk.inj (Except.ok.inj h')
    exact hbounds.1
  | false =>
    cases normal with
    | true => cases hnormal rfl
    | false =>
      rw [hd.contractedNights, hd.contract] at h'
      simp only [Bool.false_eq_true, if_false, bind_eq_ok, raiseIf_eq_ok, exists_const] at h h'
      obtain ⟨-, refund, hrefund, refundable, hrefundable, h⟩ := h
      obtain ⟨-, refund', hrefund', refundable', hrefundable', h'⟩ := h'
      obtain ⟨-, rfl⟩ := Prod.mk.inj (Except.ok.inj h)
      obtain ⟨-, rfl⟩ := Prod.mk.inj (Except.ok.inj h')
      exact toSar_le_toSar hc hrefundable' hrefundable (departureRefund_anti hwall le_rfl hrefund hrefund')

/-- A plan that pays back no more than was paid, each part from its own source. -/
structure Balanced (facts : PaymentFacts) (plan : DepartureSettlement) : Prop where
  split : plan.cashRefund + plan.pointsRefund = plan.refundableTotal
  total : plan.refundableTotal ≤ plan.settlementTotal
  settlement : plan.settlementTotal = facts.total
  cash : 0 ≤ plan.cashRefund ∧ plan.cashRefund ≤ facts.total - facts.points
  points : 0 ≤ plan.pointsRefund ∧ plan.pointsRefund ≤ facts.points
  consumed : plan.consumedCashLodging = facts.total - facts.points - plan.cashRefund ∧ 0 ≤ plan.consumedCashLodging

theorem departurePlan_balanced (hc : Converted s d.contract) (h : departurePlan zones s d = .ok plan) :
    ∃ facts, d.facts = some facts ∧ Balanced facts plan := by
  obtain ⟨facts, zone, noon, hfacts, htotal, hfunded, -, ⟨reference, hunused⟩, hsplit, hsettlement, hconsumed⟩ :=
    departurePlan_ok h
  obtain ⟨hsum, hcash, hcashle, hpoints, hpointsle⟩ := refundSplit_conserves hsplit
  have hnonneg : 0 ≤ facts.total := hfunded.trans (sub_le_self _ (hpoints.trans hpointsle))
  have hbounds := unusedPart_bounds hc htotal hnonneg hunused
  refine ⟨facts, hfacts, hsum, hsettlement ▸ hbounds.2, hsettlement, ⟨hcash, hcashle⟩, ⟨hpoints, hpointsle⟩, hconsumed, ?_⟩
  rw [hconsumed]
  exact sub_nonneg.2 hcashle

/-- A later departure from the same stay is not refunded more. -/
theorem departurePlan_anti (hd : SameBooking d d') (hc : Converted s d.contract) (hle : d.vacatedAt ≤ d'.vacatedAt)
    (hwall : ∀ name zone, s.timeZoneName = some name → zones.info name = some zone →
      zone.wall d.vacatedAt ≤ zone.wall d'.vacatedAt)
    (h : departurePlan zones s d = .ok plan) (h' : departurePlan zones s d' = .ok plan') :
    plan'.refundableTotal ≤ plan.refundableTotal ∧ plan'.cashRefund ≤ plan.cashRefund ∧
      plan'.pointsRefund ≤ plan.pointsRefund := by
  obtain ⟨facts, zone, noon, hfacts, htotal, hfunded, hends, ⟨reference, hunused⟩, hsplit, -⟩ := departurePlan_ok h
  obtain ⟨facts', zone', noon', hfacts', -, -, hends', ⟨reference', hunused'⟩, hsplit', -⟩ := departurePlan_ok h'
  obtain rfl : facts = facts' := Option.some.inj (hfacts.symm.trans (hd.facts ▸ hfacts'))
  obtain ⟨rfl, rfl⟩ : zone = zone' ∧ noon = noon' := Prod.mk.inj (Except.ok.inj (hends.symm.trans hends'))
  obtain ⟨name, hname, hzone, -⟩ := stayEnd_ok hends
  obtain ⟨-, -, -, hpoints, hpointsle⟩ := refundSplit_conserves hsplit
  have hnonneg : 0 ≤ facts.total := hfunded.trans (sub_le_self _ (hpoints.trans hpointsle))
  have hless := unusedPart_anti hd hc htotal hnonneg (hwall name zone hname hzone)
    (fun hnoon => decide_eq_true ((of_decide_eq_true hnoon).trans hle)) hunused hunused'
  exact ⟨hless, refundSplit_mono hsplit hsplit' hless⟩

end

/-- The plan of a departure conserves the money of the stay, at the contract of its booking; and a departure that is not
earlier, also in the local time of the property, is not refunded more. -/
theorem departure_conserves (zones : Zones) (snapshots : Uuid → Option Fx.AuditSnapshot) (i : SnapshotIntent) (b : Board)
    (timeZoneName : Option String) (d : Departing) (hi : Dec.Exact 2 i.paymentAmountSar) (hrows : ∀ m ∈ b.requests, Cents m)
    (hcontract : d.contract = contract (fun pk => snapshotCheck (snapshots pk)) i.funded b) :
    (∀ plan, departurePlan zones (stayTerms b.reservation timeZoneName) d = .ok plan →
      ∃ facts, d.facts = some facts ∧ Balanced facts plan) ∧
    ∀ d' plan plan', SameBooking d d' → d.vacatedAt ≤ d'.vacatedAt →
      (∀ name zone, timeZoneName = some name → zones.info name = some zone →
        zone.wall d.vacatedAt ≤ zone.wall d'.vacatedAt) →
      departurePlan zones (stayTerms b.reservation timeZoneName) d = .ok plan →
      departurePlan zones (stayTerms b.reservation timeZoneName) d' = .ok plan' →
      plan'.refundableTotal ≤ plan.refundableTotal ∧ plan'.cashRefund ≤ plan.cashRefund ∧
        plan'.pointsRefund ≤ plan.pointsRefund := by
  have hc : Converted (stayTerms b.reservation timeZoneName) d.contract := by
    intro hcode p hp
    exact contract_settled hi hrows hcode (hcontract ▸ hp)
  exact ⟨fun plan h => departurePlan_balanced hc h, fun d' plan plan' hd hle hwall h h' =>
    departurePlan_anti hd hc hle hwall h h'⟩

/-! ### A stay of two nights in dirhams -/

/-- A zone whose wall clock is the instant. -/
def plainZone : Zone := ⟨id, id⟩

def plainZones : Zones := ⟨fun _ => some plainZone, plainZone, plainZone, rfl, rfl⟩

/-- A guest who leaves at `vacatedAt`, the stay being paid with 300 riyals and points of 140 riyals. -/
def leaving (vacatedAt : Time) : Departing where
  permitted := true
  bookingAllowed := true
  operator := 1
  reference := "desk"
  now := 105 * 86400
  vacatedAt := vacatedAt
  naive := false
  arrivedAt := some (100 * 86400)
  facts := some ⟨440, 140, 300, 0, [("baseRate", 1100)]⟩
  contract := .ok (1100, 440)
  nights := 4
  pricedNights := some ⟨some "MAD", some "offer", [⟨100, 200⟩, ⟨101, 300⟩, ⟨102, 300⟩, ⟨103, 300⟩]⟩
  quote := none

theorem leaving_same (t t' : Time) : SameBooking (leaving t) (leaving t') := ⟨rfl, rfl, rfl, rfl, rfl⟩

theorem departure_conserves_dirhams :
    ∃ plan plan', departurePlan plainZones (stayTerms (dirhamStay 1100 [dirhamIncrease]).reservation (some "UTC"))
        (leaving (101 * 86400 + 3600)) = .ok plan ∧
      departurePlan plainZones (stayTerms (dirhamStay 1100 [dirhamIncrease]).reservation (some "UTC"))
        (leaving (102 * 86400 + 75600)) = .ok plan' ∧
      (∃ facts, (leaving (101 * 86400 + 3600)).facts = some facts ∧ Balanced facts plan) ∧
      plan.refundableTotal = 360 ∧ plan'.refundableTotal = 120 ∧ plan'.refundableTotal ≤ plan.refundableTotal ∧
      plan'.cashRefund ≤ plan.cashRefund ∧ plan'.pointsRefund ≤ plan.pointsRefund := by
  have hplan : departurePlan plainZones (stayTerms (dirhamStay 1100 [dirhamIncrease]).reservation (some "UTC"))
      (leaving (101 * 86400 + 3600)) = .ok ⟨440, "offer", 245.45, 114.55, 54.55, 360, false, 101 * 86400 + 3600, "desk", 1⟩ := by
    decide +kernel
  have hplan' : departurePlan plainZones (stayTerms (dirhamStay 1100 [dirhamIncrease]).reservation (some "UTC"))
      (leaving (102 * 86400 + 75600)) = .ok ⟨440, "offer", 81.81, 38.19, 218.19, 120, false, 102 * 86400 + 75600, "desk", 1⟩ := by
    decide +kernel
  have hrows : ∀ m ∈ (dirhamStay 1100 [dirhamIncrease]).requests, Cents m := by
    intro m hm
    rw [List.mem_singleton.1 hm]
    exact cents_dirhams
  obtain ⟨hbalanced, hlater⟩ := departure_conserves plainZones dirhamSnapshots dirhamIntent
    (dirhamStay 1100 [dirhamIncrease]) (some "UTC") (leaving (101 * 86400 + 3600)) ⟨40000, by decide +kernel⟩ hrows
    contract_dirhams.symm
  refine ⟨_, _, hplan, hplan', hbalanced _ hplan, rfl, rfl, ?_⟩
  refine hlater (leaving (102 * 86400 + 75600)) _ _ (leaving_same _ _) (by decide +kernel) ?_ hplan hplan'
  rintro name zone - hzone
  obtain rfl := Option.some.inj hzone
  decide +kernel

end Apartments.Loyalty
