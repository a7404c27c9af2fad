import Apartments.Lib.Traverse
import Apartments.Loyalty.EarlyDeparture
import Apartments.Loyalty.SiteAdapter

/-!
# Rewards and the money that was kept

The base of the rewards of a stay lies within its lodging part and within the cash that was kept, and falls when more is
returned. The points that were used fit beside it into the total only where they fit into it at all, and a cancelled stay takes
its base from the departure settlement, without a look at the cash.
-/

namespace Apartments.SiteAdapter

open Loyalty Payments Hostaway

/-! ### Rounding down -/

section
variable {x y : Dec} {n : ℕ}

theorem quantizeDown_of_nonneg (hx : 0 ≤ x) : quantizeDown n x = ⌊x * 10 ^ n⌋ / 10 ^ n := if_pos hx

theorem quantizeDown_nonneg (hx : 0 ≤ x) : 0 ≤ quantizeDown n x := by
  rw [quantizeDown_of_nonneg hx]
  have hfloor : (0 : ℤ) ≤ ⌊x * 10 ^ n⌋ := Int.floor_nonneg.2 (by positivity)
  exact div_nonneg (by exact_mod_cast hfloor) (by positivity)

theorem quantizeDown_le (hx : 0 ≤ x) : quantizeDown n x ≤ x := by
  rw [quantizeDown_of_nonneg hx, div_le_iff₀ (by positivity)]
  exact Int.floor_le _

theorem quantizeDown_mono (hx : 0 ≤ x) (hxy : x ≤ y) : quantizeDown n x ≤ quantizeDown n y := by
  rw [quantizeDown_of_nonneg hx, quantizeDown_of_nonneg (hx.trans hxy)]
  refine div_le_div_of_nonneg_right ?_ (by positivity)
  exact_mod_cast Int.floor_le_floor (mul_le_mul_of_nonneg_right hxy (by positivity))

theorem floor_le_roundHalfEven (x : Dec) : ⌊x⌋ ≤ Dec.roundHalfEven x ∧ Dec.roundHalfEven x ≤ ⌊x⌋ + 1 := by
  unfold Dec.roundHalfEven
  split_ifs <;> omega

theorem roundHalfEven_mono (h : x ≤ y) : Dec.roundHalfEven x ≤ Dec.roundHalfEven y := by
  rcases (Int.floor_le_floor h).lt_or_eq with hlt | heq
  · have hx := (floor_le_roundHalfEven x).2
    have hy := (floor_le_roundHalfEven y).1
    omega
  · by_cases hdown : y - ⌊y⌋ < 1 / 2 ∨ (y - ⌊y⌋ = 1 / 2 ∧ ⌊y⌋ % 2 = 0)
    · -- between the same integers, what rounds down from above rounds down from below
      have hfrac : x - ⌊x⌋ ≤ y - ⌊y⌋ := by
        rw [heq]
        linarith
      have hdown' : x - ⌊x⌋ < 1 / 2 ∨ (x - ⌊x⌋ = 1 / 2 ∧ ⌊x⌋ % 2 = 0) := by
        rcases hdown with hlt | ⟨hhalf, heven⟩
        · exact .inl (hfrac.trans_lt hlt)
        · rw [hhalf] at hfrac
          exact hfrac.lt_or_eq.imp id fun hx => ⟨hx, heq ▸ heven⟩
      rw [Dec.roundHalfEven, Dec.roundHalfEven, if_pos hdown, if_pos hdown']
      exact heq.le
    · have hy : Dec.roundHalfEven y = ⌊y⌋ + 1 := if_neg hdown
      rw [hy, ← heq]
      exact (floor_le_roundHalfEven x).2

theorem quantizeEven_mono (h : x ≤ y) : Dec.quantizeEven n x ≤ Dec.quantizeEven n y := by
  unfold Dec.quantizeEven
  refine div_le_div_of_nonneg_right ?_ (by positivity)
  exact_mod_cast roundHalfEven_mono (mul_le_mul_of_nonneg_right h (by positivity))

end

/-! ### A refund more -/

/-- The record with one more refund. -/
def Record.refund (r : Record) (o : RefundObligation) : Record := { r with obligations := o :: r.obligations }

section
variable {s : Scope} {r : Record} {o : RefundObligation} {i : Intent} {v x : Dec}

theorem returned_refund (ho : o.status = .transferred) : returned (r.refund o) = returned r + o.amount := by
  have hperm : (transferred (r.refund o)).Perm (o :: transferred r) := by
    unfold transferred Record.refund
    rw [List.filter_cons_of_pos (by rw [ho]; rfl)]
    exact (List.perm_insertionSort _ _).trans ((List.perm_insertionSort _ _).symm.cons o)
  unfold returned
  rw [(hperm.map _).sum_eq, List.map_cons, List.sum_cons, add_comm]

/-! ### The price in riyals -/

theorem lodging_bounds {components : Components} {total : Dec} (h : lodging components total = .ok x) : 0 ≤ x ∧ x ≤ total := by
  simp only [lodging, bind_eq_ok, found_eq_ok, raiseIf_eq_ok, exists_const] at h
  obtain ⟨parts, -, -, acc, -, hsums, h⟩ := h
  obtain rfl := Except.ok.inj h
  rw [not_or, not_or, not_not, not_not] at hsums
  exact hsums.2.2

theorem settleChange_nonneg {snapshots : Uuid → Option Fx.AuditSnapshot} {currency : String} {p q : Dec × Dec}
    {m : ModificationRequest} (hp : 0 ≤ p.1 ∧ 0 ≤ p.2)
    (h : settleChange (fun pk => snapshotCheck (snapshots pk)) currency p m = .ok q) : 0 ≤ q.1 ∧ 0 ≤ q.2 := by
  unfold settleChange at h
  split at h
  · cases h
  rename_i target hnew
  split_ifs at h with hsame hneg hmore hvalid hzero
  · obtain rfl := Except.ok.inj h
    obtain ⟨-, payment, hpayment, hnonneg, -⟩ := snapshotCheck_spec hvalid
    rw [hpayment]
    exact ⟨not_lt.1 hneg, add_nonneg hp.2 hnonneg⟩
  · obtain rfl := Except.ok.inj h
    exact ⟨not_lt.1 hneg, Dec.quantize_nonneg (div_nonneg (mul_nonneg hp.2 (not_lt.1 hneg)) hp.1)⟩
  · obtain rfl := Except.ok.inj h
    exact ⟨not_lt.1 hneg, hp.2⟩

theorem foldlM_nonneg {snapshots : Uuid → Option Fx.AuditSnapshot} {currency : String} {p q : Dec × Dec}
    {changes : List ModificationRequest} (hp : 0 ≤ p.1 ∧ 0 ≤ p.2)
    (h : changes.foldlM (settleChange (fun pk => snapshotCheck (snapshots pk)) currency) p = .ok q) :
    0 ≤ q.1 ∧ 0 ≤ q.2 := by
  induction changes generalizing p with
  | nil =>
    obtain rfl := Except.ok.inj h
    exact hp
  | cons m changes ih =>
    rw [List.foldlM_cons] at h
    obtain ⟨p', hp', h⟩ := bind_eq_ok.1 h
    exact ih (settleChange_nonneg hp hp') h

/-- The totals of the contract of a stay in another currency are not negative. -/
theorem contract_nonneg {p : Dec × Dec} (hcurrency : r.reservation.currency ≠ "SAR") (h : contractOf s r i = .ok p) :
    0 ≤ p.1 ∧ 0 ≤ p.2 := by
  obtain ⟨sar, hsar, hcode, hfold, -⟩ := contract_eq_ok.1 h
  have hcode' : i.toSnapshotIntent.funded.currency ≠ "SAR" := fun hsar => hcurrency (hcode.trans hsar)
  have hfirst : 0 ≤ i.toSnapshotIntent.funded.totalPrice ∧ 0 ≤ sar := by
    unfold intentTotalSar at hsar
    rw [if_neg hcode'] at hsar
    split_ifs at hsar with hvalid
    obtain rfl := Except.ok.inj hsar
    obtain ⟨hprice, paid, hpaid, hnonneg, -⟩ := snapshotCheck_spec hvalid
    obtain rfl := Option.some.inj hpaid
    exact ⟨hprice, hnonneg⟩
  exact foldlM_nonneg hfirst hfold

theorem inSar_nonneg (hcurrency : r.reservation.currency ≠ "SAR") (hv : 0 ≤ v) (h : inSar s r i v = .ok x) : 0 ≤ x := by
  have hterms : r.terms.currency ≠ "SAR" := hcurrency
  have htoSar : toSar r.terms (contractOf s r i) v = .ok x := by
    unfold inSar at h
    cases hvalue : toSar r.terms (contractOf s r i) v with
    | error e =>
      rw [hvalue] at h
      cases h
    | ok y =>
      rw [hvalue] at h
      exact congrArg _ (Except.ok.inj h)
  unfold toSar at htoSar
  rw [if_neg hterms] at htoSar
  obtain ⟨⟨source, sar⟩, hcontract, htoSar⟩ := bind_eq_ok.1 htoSar
  obtain ⟨hsource, hsar⟩ := contract_nonneg hcurrency hcontract
  dsimp only at htoSar
  split_ifs at htoSar with hzero
  · simp only [bind_eq_ok] at htoSar
    obtain ⟨-, -, htoSar⟩ := htoSar
    obtain rfl := Except.ok.inj htoSar
    exact le_rfl
  · obtain rfl := Except.ok.inj htoSar
    exact Dec.quantize_nonneg (div_nonneg (mul_nonneg hv hsar) hsource)

/-- The total of the booking in riyals. -/
def totalInSar (s : Scope) (r : Record) (i : Intent) : Except String Dec :=
  if r.cancelled then (found r.settlement "cancelled_without_accrual").map (·.total)
  else if r.reservation.currency = "SAR" then .ok r.reservation.totalPrice
  else inSar s r i r.reservation.totalPrice

/-- The lodging part of the stay in riyals, for the price breakdown that counts. -/
def lodgingInSar (s : Scope) (r : Record) (i : Intent) : Except String Dec := do
  let (components, modification) ← breakdown r i
  let (_, part) ← stayPrice s r i (pricingComponents s components modification)
  return part

theorem stayPrice_spec {components : Components} {gross part : Dec} (hstay : r.cancelled = false)
    (h : stayPrice s r i components = .ok (gross, part)) : 0 ≤ part ∧ totalInSar s r i = .ok gross := by
  unfold totalInSar
  rw [hstay, if_neg Bool.false_ne_true]
  unfold stayPrice at h
  obtain ⟨value, hvalue, h⟩ := bind_eq_ok.1 h
  have hbounds := lodging_bounds hvalue
  by_cases hcurrency : r.reservation.currency = "SAR"
  · rw [if_pos hcurrency] at h ⊢
    obtain ⟨rfl, rfl⟩ := Prod.mk.inj (Except.ok.inj h)
    exact ⟨hbounds.1, rfl⟩
  · rw [if_neg hcurrency] at h ⊢
    simp only [bind_eq_ok] at h
    obtain ⟨total, htotal, converted, hconverted, h⟩ := h
    obtain ⟨rfl, rfl⟩ := Prod.mk.inj (Except.ok.inj h)
    exact ⟨inSar_nonneg hcurrency hbounds.1 hconverted, htotal⟩

/-! ### The base -/

/-- The base under the cap of an offer. -/
def capped (offer : Option Grant) (x : Dec) : Dec := offer.elim x fun g => min x g.quote.base

theorem capped_le (offer : Option Grant) (x : Dec) : capped offer x ≤ x := by
  cases offer with
  | none => exact le_rfl
  | some g => exact min_le_left ..

theorem capped_nonneg (offer : Option Grant) (hx : 0 ≤ x) : 0 ≤ capped offer x := by
  cases offer with
  | none => exact hx
  | some g => exact le_min hx g.quote.base_nonneg

theorem capped_zero (offer : Option Grant) : capped offer 0 = 0 :=
  le_antisymm (capped_le offer 0) (capped_nonneg offer le_rfl)

theorem capped_mono (offer : Option Grant) {y : Dec} (hxy : x ≤ y) : capped offer x ≤ capped offer y := by
  cases offer with
  | none => exact hxy
  | some g => exact min_le_min_right _ hxy

/-- The base of a stay that is not cancelled: what the points leave of the lodging part, within the cash that was kept. -/
theorem stayBase_ok {components : Components} {gross base : Dec} (h : stayBase s r i components = .ok (gross, base)) :
    ∃ part, stayPrice s r i components = .ok (gross, part) ∧ gross ≤ cash r i - returned r + usedPoints r ∧
      (usedPoints r ≠ 0 → part = gross) ∧
      base = quantizeDown 2 (min (max (part - usedPoints r) 0) (cash r i - returned r)) := by
  simp only [stayBase, bind_eq_ok, raiseIf_eq_ok, exists_const] at h
  obtain ⟨⟨total, part⟩, hprice, -, hpaid, hmixed, h⟩ := h
  obtain ⟨rfl, rfl⟩ := Prod.mk.inj (Except.ok.inj h)
  refine ⟨part, hprice, not_lt.1 hpaid, fun hpoints => ?_, rfl⟩
  by_contra hne
  exact hmixed ⟨hpoints, hne⟩

theorem cancelledBase_ok {gross base : Dec} (h : cancelledBase s r = .ok (gross, base)) :
    ∃ previous, r.settlement = some previous ∧ gross = previous.total ∧ base = r.departure.getD 0 := by
  simp only [cancelledBase, bind_eq_ok, raiseIf_eq_ok, found_eq_ok, exists_const] at h
  obtain ⟨-, -, -, previous, hprevious, h⟩ := h
  obtain ⟨rfl, rfl⟩ := Prod.mk.inj (Except.ok.inj h)
  exact ⟨previous, hprevious, rfl, rfl⟩

theorem withOffer_ok {offer : Option Grant} {f g : BookingFacts} (h : withOffer s r offer f = .ok g) :
    g.base = capped offer f.base ∧ g.total = f.total ∧ g.cash = f.cash ∧ g.refunded = f.refunded := by
  cases offer with
  | none =>
    obtain rfl := Except.ok.inj h
    exact ⟨rfl, rfl, rfl, rfl⟩
  | some grant =>
    simp only [withOffer, bind_eq_ok] at h
    obtain ⟨-, -, h⟩ := h
    obtain rfl := Except.ok.inj h
    exact ⟨rfl, rfl, rfl, rfl⟩

theorem facts_ok {t : Standing} {f : BookingFacts} (h : facts s r t = .ok f) :
    returned r ≤ cash r t.intent ∧ ∃ components modification gross base,
      breakdown r t.intent = .ok (components, modification) ∧
      fullBase s r t.intent (pricingComponents s components modification) = .ok (gross, base) ∧ f.total = gross ∧
      f.base = capped t.offer base ∧ f.cash = Dec.quantizeEven 2 (cash r t.intent) ∧
      f.refunded = Dec.quantizeEven 2 (returned r) := by
  simp only [facts, bind_eq_ok, raiseIf_eq_ok, exists_const] at h
  obtain ⟨stay, -, u, hmoney, ⟨components, modification⟩, hbreakdown, ⟨gross, base⟩, hbase, -, g, hg, h⟩ := h
  obtain rfl := Except.ok.inj h
  obtain ⟨hcapped, htotal, hcash, hrefunded⟩ := withOffer_ok hg
  simp only [checkMoney, bind_eq_ok, raiseIf_eq_ok, exists_const] at hmoney
  exact ⟨not_lt.1 hmoney.2.2.1, components, modification, gross, base, hbreakdown, hbase, htotal, hcapped, hcash, hrefunded⟩

theorem bookingFacts_ok {preview : Bool} {f : BookingFacts} (hi : r.intent = some i)
    (h : bookingFacts s r preview = .ok f) :
    ∃ t, standing s r preview = .ok t ∧ t.intent = i ∧ t.offer = (if preview then none else s.authorized) ∧
      facts s r t = .ok f := by
  simp only [bookingFacts, bind_eq_ok] at h
  obtain ⟨t, ht, h⟩ := h
  refine ⟨t, ht, ?_⟩
  have hfacts : facts s r t = .ok f := by
    cases hf : facts s r t with
    | error e =>
      rw [hf] at h
      cases h
    | ok g =>
      rw [hf] at h
      exact congrArg _ (Except.ok.inj h)
  simp only [standing, bind_eq_ok, raiseIf_eq_ok, found_eq_ok, exists_const] at ht
  obtain ⟨-, -, intent, hintent, -, -, -, -, -, ht⟩ := ht
  obtain rfl := Except.ok.inj ht
  obtain rfl := Option.some.inj (hi.symm.trans hintent)
  exact ⟨rfl, rfl, hfacts⟩

/-! ### What was kept -/

/-- Rewards are computed on money that was kept. -/
structure Kept (s : Scope) (preview : Bool) (r : Record) (i : Intent) (f : BookingFacts) : Prop where
  stay : r.cancelled = false → 0 ≤ f.base ∧ (∃ part, lodgingInSar s r i = .ok part ∧ f.base ≤ part) ∧
    f.base ≤ cash r i - returned r
  points : usedPoints r ≠ 0 → f.base + usedPoints r ≤ f.total
  undeparted : r.cancelled = true → r.departure = none → f.base = 0
  departed : r.cancelled = true → r.departure ≠ none → f.base ≤ cash r i - returned r
  covered : returned r ≤ cash r i ∧ f.refunded ≤ f.cash
  refund : ∀ o f', o.status = .transferred → 0 ≤ o.amount → bookingFacts s (r.refund o) preview = .ok f' → f'.base ≤ f.base

/-- What a cancelled stay earns rewards on: the cash that its departure consumed, under the cap of an offer. -/
def departedBase (s : Scope) (preview : Bool) (r : Record) : Dec :=
  if r.cancelled then capped (if preview then none else s.authorized) (r.departure.getD 0) else 0

/-- The used points fit into the total beside the base of a departure, and that base into the cash that was kept. -/
structure Covered (s : Scope) (preview : Bool) (r : Record) (i : Intent) : Prop where
  points : usedPoints r ≠ 0 → ∀ total, totalInSar s r i = .ok total → departedBase s preview r + usedPoints r ≤ total
  cash : r.cancelled = true → departedBase s preview r ≤ cash r i - returned r

/-- One more transferred refund leaves no larger base. -/
theorem base_refund {t : Standing} {f f' : BookingFacts} {o : RefundObligation} (ho : o.status = .transferred)
    (hamount : 0 ≤ o.amount) (h : facts s r t = .ok f) (h' : facts s (r.refund o) t = .ok f') : f'.base ≤ f.base := by
  obtain ⟨hcash, components, modification, gross, base, hbreakdown, hbase, -, hcapped, -⟩ := facts_ok h
  obtain ⟨hcash', components', modification', gross', base', hbreakdown', hbase', -, hcapped', -⟩ := facts_ok h'
  have hsame : breakdown (r.refund o) t.intent = breakdown r t.intent := rfl
  obtain ⟨rfl, rfl⟩ := Prod.mk.inj (Except.ok.inj (hbreakdown.symm.trans (hsame ▸ hbreakdown')))
  rw [hcapped, hcapped']
  refine capped_mono _ ?_
  unfold fullBase at hbase hbase'
  have hcancelled : (r.refund o).cancelled = r.cancelled := rfl
  rw [hcancelled] at hbase'
  by_cases hc : r.cancelled = true
  · rw [if_pos hc] at hbase hbase'
    have hcancelledBase : cancelledBase s (r.refund o) = cancelledBase s r := rfl
    obtain ⟨-, rfl⟩ := Prod.mk.inj (Except.ok.inj (hbase.symm.trans (hcancelledBase ▸ hbase')))
    exact le_rfl
  · rw [if_neg hc] at hbase hbase'
    obtain ⟨part, hprice, -, -, rfl⟩ := stayBase_ok hbase
    obtain ⟨part', hprice', -, -, rfl⟩ := stayBase_ok hbase'
    have hprices : stayPrice s (r.refund o) t.intent = stayPrice s r t.intent := rfl
    obtain ⟨-, rfl⟩ := Prod.mk.inj (Except.ok.inj (hprice.symm.trans (hprices ▸ hprice')))
    have hpoints : usedPoints (r.refund o) = usedPoints r := rfl
    have hmoney : cash (r.refund o) t.intent = cash r t.intent := rfl
    rw [hmoney, returned_refund ho] at hcash'
    rw [hpoints, hmoney, returned_refund ho]
    refine quantizeDown_mono (le_min (le_max_right ..) (sub_nonneg.2 hcash')) (min_le_min_left _ ?_)
    linarith

/-- Where a booking has facts, rewards are computed on money that was kept exactly if the points that were used, and the cash
that a departure consumed, fit into the total, and that cash into what was kept. -/
theorem kept_iff_covered {preview : Bool} {f : BookingFacts} (hi : r.intent = some i)
    (hpoints : ∀ p, r.redemption = some p → p.restored ≤ p.value) (h : bookingFacts s r preview = .ok f) :
    Kept s preview r i f ↔ Covered s preview r i := by
  obtain ⟨t, ht, rfl, hoffer, hfacts⟩ := bookingFacts_ok hi h
  obtain ⟨hcash, components, modification, gross, base, hbreakdown, hbase, htotal, hcapped, hsum, hrefunded⟩ := facts_ok hfacts
  have hused : 0 ≤ usedPoints r := by
    unfold usedPoints
    cases hr : r.redemption with
    | none => exact le_rfl
    | some p => exact sub_nonneg.2 (hpoints p hr)
  have hkept : returned r ≤ cash r t.intent ∧ f.refunded ≤ f.cash := by
    rw [hsum, hrefunded]
    exact ⟨hcash, quantizeEven_mono hcash⟩
  have hrefund : ∀ o f', o.status = .transferred → 0 ≤ o.amount → bookingFacts s (r.refund o) preview = .ok f' →
      f'.base ≤ f.base := by
    intro o f' ho hamount h'
    obtain ⟨t', ht', -, -, hfacts'⟩ := bookingFacts_ok (r := r.refund o) hi h'
    obtain rfl := Except.ok.inj (ht.symm.trans ht')
    exact base_refund ho hamount hfacts hfacts'
  unfold fullBase at hbase
  by_cases hc : r.cancelled = true
  · rw [if_pos hc] at hbase
    obtain ⟨previous, hprevious, rfl, rfl⟩ := cancelledBase_ok hbase
    have hsame : departedBase s preview r = f.base := by
      unfold departedBase
      rw [if_pos hc, hcapped, hoffer]
    have hinSar : totalInSar s r t.intent = .ok previous.total := by
      unfold totalInSar
      rw [if_pos hc, hprevious]
      rfl
    constructor
    · intro hk
      refine ⟨fun hne total htotal' => ?_, fun _ => ?_⟩
      · obtain rfl := Except.ok.inj (hinSar.symm.trans htotal')
        rw [hsame, ← htotal]
        exact hk.points hne
      · rw [hsame]
        by_cases hd : r.departure = none
        · rw [hk.undeparted hc hd]
          exact sub_nonneg.2 hcash
        · exact hk.departed hc hd
    · intro hcov
      refine ⟨fun hstay => ?_, fun hne => ?_, fun _ hd => ?_, fun _ _ => ?_, hkept, hrefund⟩
      · rw [hc] at hstay
        cases hstay
      · rw [← hsame, htotal]
        exact hcov.points hne _ hinSar
      · rw [hcapped, hd, Option.getD_none]
        exact capped_zero t.offer
      · rw [← hsame]
        exact hcov.cash hc
  · rw [if_neg hc] at hbase
    have hstay : r.cancelled = false := Bool.eq_false_iff.2 hc
    obtain ⟨part, hprice, hpaid, hmixed, rfl⟩ := stayBase_ok hbase
    obtain ⟨hpart, hinSar⟩ := stayPrice_spec hstay hprice
    have hinner : 0 ≤ min (max (part - usedPoints r) 0) (cash r t.intent - returned r) :=
      le_min (le_max_right ..) (sub_nonneg.2 hcash)
    have hnonneg : 0 ≤ f.base := by
      rw [hcapped]
      exact capped_nonneg t.offer (quantizeDown_nonneg hinner)
    have hle : f.base ≤ min (max (part - usedPoints r) 0) (cash r t.intent - returned r) := by
      rw [hcapped]
      exact (capped_le _ _).trans (quantizeDown_le hinner)
    have hzero : departedBase s preview r = 0 := if_neg hc
    constructor
    · intro hk
      refine ⟨fun hne total htotal' => ?_, fun hcancelled => absurd hcancelled hc⟩
      obtain rfl := Except.ok.inj (hinSar.symm.trans htotal')
      have hfits := hk.points hne
      rw [htotal] at hfits
      rw [hzero, zero_add]
      linarith
    · intro hcov
      refine ⟨fun _ => ⟨hnonneg, ⟨part, ?_, ?_⟩, hle.trans (min_le_right ..)⟩, fun hne => ?_,
        fun hcancelled => absurd hcancelled hc, fun hcancelled => absurd hcancelled hc, hkept, hrefund⟩
      · unfold lodgingInSar
        rw [hbreakdown]
        show (do
          let (_, part) ← stayPrice s r t.intent (pricingComponents s components modification)
          return part) = .ok part
        rw [hprice]
        rfl
      · exact hle.trans ((min_le_left ..).trans (max_le (sub_le_self _ hused) hpart))
      · -- the lodging part is the total, and the points fit into it
        have hfits := hcov.points hne gross hinSar
        rw [hzero, zero_add] at hfits
        have hbound := hle.trans (min_le_left ..)
        rw [hmixed hne, max_eq_left (sub_nonneg.2 hfits)] at hbound
        rw [htotal]
        linarith

end

/-! ### A departure that consumed more than was kept -/

def keptIntent : Intent where
  toSnapshotIntent := ⟨"SAR", 1000, 1000, none⟩
  pk := ⟨"7d2e7c1a-1f60-4f0e-9a51-0d5d7c2f1a10", rfl⟩
  customer := some 1
  components := some [some ⟨some "baseRate", true, .finite 1000⟩]
  manualDraft := none

def keptPayment : PaymentAttempt where
  pk := ⟨"7d2e7c1a-1f60-4f0e-9a51-0d5d7c2f1a11", rfl⟩
  bookingIntent := keptIntent.pk
  paymentRequest := none
  modificationRequest := none
  provider := "hyperpay"
  providerCheckoutId := none
  providerPaymentId := some "pay-1"
  merchantTransactionId := none
  providerResultCode := ""
  providerResultDescription := ""
  amount := 1000
  currency := "SAR"
  status := .partiallyRefunded
  failureCode := ""
  paymentBrand := ""
  verifiedAt := some 2
  createdAt := 1

def keptRefund (amount : Dec) : RefundObligation where
  pk := ⟨"7d2e7c1a-1f60-4f0e-9a51-0d5d7c2f1a12", rfl⟩
  modificationRequest := none
  reason := .cancellation
  status := .transferred
  amount := amount
  currency := "SAR"
  calculation := .empty
  transferReference := "bank-1"
  transferredAt := some 50
  transferredBy := some 9

/-- A stay of 1000 riyals that was left early, having consumed 600, and cancelled, with `amount` returned. -/
def leftStay (amount : Dec) : Record where
  board := ⟨{ Changes.stay with normalizedStatus := .cancelled, totalPrice := 1000 }, []⟩
  createdAt := 1
  timeZoneName := some "Asia/Riyadh"
  intent := some keptIntent
  payments := [keptPayment]
  obligations := [keptRefund amount]
  snapshotComponents := fun _ => none
  arrival := some ⟨some 20, false, "desk"⟩
  scheduledAccrual := none
  redemption := none
  settlement := some ⟨1000, false⟩
  departure := some 600
  manualLodging := none

def openScope : Scope where
  now := 10000000
  launchAt := some 0
  policyEnabled := true
  bookingAllowed := true
  historicalAwardAllowed := false
  stayExceptionAllowed := false
  authorized := none
  membership := fun _ => some ⟨true, 1, "1"⟩
  zones := plainZones
  isoformat := fun _ => ""
  fingerprint := fun _ => ""
  snapshots := fun _ => none

theorem leftStay_facts {amount base cash refunded : Dec}
    (h : (bookingFacts openScope (leftStay amount) false).map (fun f => (f.base, f.cash, f.refunded)) =
      .ok (base, cash, refunded)) :
    ∃ f, bookingFacts openScope (leftStay amount) false = .ok f ∧ f.base = base := by
  cases hf : bookingFacts openScope (leftStay amount) false with
  | error e =>
    rw [hf] at h
    cases h
  | ok f =>
    rw [hf] at h
    exact ⟨f, rfl, congrArg Prod.fst (Except.ok.inj h)⟩

/-- With 500 riyals returned the base is 600 riyals, of the 500 that were kept. -/
theorem departed_base_above_cash :
    (bookingFacts openScope (leftStay 500) false).map (fun f => (f.base, f.cash, f.refunded)) = .ok (600, 1000, 500) ∧
      ∀ f, bookingFacts openScope (leftStay 500) false = .ok f → ¬ Kept openScope false (leftStay 500) keptIntent f := by
  have hfacts : (bookingFacts openScope (leftStay 500) false).map (fun f => (f.base, f.cash, f.refunded)) =
      .ok (600, 1000, 500) := by decide +kernel
  refine ⟨hfacts, fun f hf hk => ?_⟩
  obtain ⟨g, hg, hbase⟩ := leftStay_facts hfacts
  obtain rfl := Except.ok.inj (hf.symm.trans hg)
  have hle := hk.departed rfl (Option.some_ne_none _)
  rw [hbase] at hle
  exact absurd hle (by decide +kernel)

theorem kept_iff_covered_departed :
    ∃ f, bookingFacts openScope (leftStay 400) false = .ok f ∧
      (Kept openScope false (leftStay 400) keptIntent f ↔ Covered openScope false (leftStay 400) keptIntent) := by
  obtain ⟨f, hf, -⟩ := @leftStay_facts 400 600 1000 400 (by decide +kernel)
  exact ⟨f, hf, kept_iff_covered rfl nofun hf⟩

end Apartments.SiteAdapter
