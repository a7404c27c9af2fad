import Apartments.Hostaway.ChangeRequests
import Apartments.Loyalty.Departures
import Apartments.Loyalty.Valuation
import Apartments.Payments.Snapshots

/-!
# The riyals of a stay in another currency

The riyals of a contract are a fold over the completed changes: an increase adds what was paid for it, and a decrease leaves
the part that its total is of the total before, rounded to halalas. `SoundPair` is what every change keeps of the pair of
totals, so that `to_sar` values the stay at the riyals of its contract and every part of it at no more. Quotients are exact;
those of the columns are too coarse for the 28 digits of the context to move a halala.
-/

namespace Apartments.Loyalty

open Hostaway

/-! ### Exchange snapshots -/

/-- `validate_payment_snapshot` does not raise. -/
def snapshotCheck (snapshot : Option Fx.AuditSnapshot) (amount : Dec) (currency : String) (sar : Option Dec) : Bool :=
  match snapshot, sar with
  | some a, some payment => (Fx.validatePaymentSnapshot amount currency payment a).isOk
  | _, _ => false

/-- An intent with the snapshot of its exchange. -/
structure SnapshotIntent where
  currency : String
  totalPrice : Dec
  paymentAmountSar : Dec
  exchangeRateSnapshot : Option Fx.AuditSnapshot
deriving DecidableEq

def SnapshotIntent.funded (i : SnapshotIntent) : FundedIntent where
  currency := i.currency
  totalPrice := i.totalPrice
  paymentAmountSar := i.paymentAmountSar
  snapshotValid := snapshotCheck i.exchangeRateSnapshot i.totalPrice i.currency (some i.paymentAmountSar)

/-- `total_sar`. -/
def totalSar (s : StayTerms) (contract : Except Refusal (Dec × Dec)) : Except Refusal Dec :=
  if s.currency = "SAR" then do
    raiseIf (s.totalPrice < 0) (.value "invalid_amount")
    return Dec.quantize 2 s.totalPrice
  else contract.map (·.2)

/-- `to_source`. -/
def toSource (s : StayTerms) (contract : Except Refusal (Dec × Dec)) (value : Dec) : Except Refusal Dec :=
  if s.currency = "SAR" then .ok value
  else do
    let (source, sar) ← contract
    if sar = 0 then do
      raiseIf (value ≠ 0) (.validation "لا تحويل لقيمة غير صفرية عن عقد صفري.")
      return 0
    else do
      let amount := value * source / sar
      raiseIf (amount < 0) (.value "invalid_amount")
      raiseIf ((Fx.normalizeCurrency s.currency).isOk = false) (.value "unsupported_currency")
      return Dec.quantize 2 amount

/-- The stay of a reservation. -/
def stayTerms (r : Reservation) (timeZoneName : Option String) : StayTerms where
  checkIn := r.checkIn
  checkOut := r.checkOut
  totalPrice := r.totalPrice
  currency := r.currency
  timeZoneName := timeZoneName

section
variable {snapshot : Option Fx.AuditSnapshot} {amount payment : Dec} {currency : String} {sar : Option Dec}

theorem sourceToSar_zero {source : Fx.Currency} {rates : Except Fx.Failure Fx.ExchangeRateSnapshot} {d : Decimal}
    (h : Fx.sourceToSar 0 source rates = .ok d) : d.value = 0 := by
  have hzero : ∀ x : Dec, x = 0 → Fx.normalizeAmount x .sar = .ok d → d.value = 0 := by
    rintro _ rfl h
    rw [Decimal.value_quantized (Fx.normalizeAmount_ok.1 h).2, Dec.exact_zero.quantize_eq]
  simp only [Fx.sourceToSar, bind_eq_ok, Fx.validatedAmount_ok] at h
  obtain ⟨_, ⟨-, rfl⟩, h⟩ := h
  split at h
  · exact hzero 0 rfl h
  · simp only [bind_eq_ok] at h
    obtain ⟨_, _, r, _, x, hx, h⟩ := h
    refine hzero x ?_ h
    unfold Fx.trapped Decimal.divide at hx
    by_cases hr : r.value = 0
    · rw [if_pos hr] at hx
      cases hx
    · rw [if_neg hr, zero_div] at hx
      exact (Except.ok.inj hx).symm

/-- An amount and a payment with a valid snapshot are not negative, and the payment is nothing for nothing. -/
theorem snapshotCheck_spec (h : snapshotCheck snapshot amount currency sar = true) :
    0 ≤ amount ∧ ∃ payment, sar = some payment ∧ 0 ≤ payment ∧ (Dec.Exact 2 payment → amount = 0 → payment = 0) := by
  unfold snapshotCheck at h
  split at h
  · rename_i a payment
    cases hv : Fx.validatePaymentSnapshot amount currency payment a with
    | error e =>
      rw [hv] at h
      cases h
    | ok u =>
      unfold Fx.validatePaymentSnapshot at hv
      simp only [bind_eq_ok] at hv
      obtain ⟨source, -, d, hd, -, -, snapSource, -, snapPayment, -, amount', hamount, hv⟩ := hv
      obtain ⟨hnonneg, hd⟩ := Fx.normalizeAmount_ok.1 hd
      refine ⟨(Fx.validatedAmount_ok.1 hamount).1, payment, rfl, hnonneg, fun hexact hzero => ?_⟩
      cases snapSource with
      | special => cases hv
      | finite x =>
        cases snapPayment with
        | special =>
          simp only [bind_eq_ok] at hv
          obtain ⟨-, -, hv⟩ := hv
          cases hv
        | finite y =>
          simp only [bind_eq_ok, raiseIf_eq_ok, exists_const, ne_eq, not_not] at hv
          obtain ⟨-, _, -, -, -, s, -, expected, hexpected, hv⟩ := hv
          rw [hzero] at hexpected
          have hvalue : d.value = payment := (Decimal.value_quantized hd).trans hexact.quantize_eq
          rw [← hvalue, ← hv, sourceToSar_zero hexpected]
  · cases h

end

/-! ### What the changes keep -/

/-- A pair of totals that the changes can lead to. -/
structure SoundPair (p : Dec × Dec) : Prop where
  source : 0 ≤ p.1
  sar : 0 ≤ p.2
  exact : Dec.Exact 2 p.2
  zero : p.1 = 0 → p.2 = 0

section
variable {snapshots : Uuid → Option Fx.AuditSnapshot} {currency : String} {p q : Dec × Dec} {m : ModificationRequest}
  {l : List ModificationRequest}

/-- What a change does to the riyals of the contract. -/
structure Moved (p : Dec × Dec) (m : ModificationRequest) (q : Dec × Dec) : Prop where
  old : m.oldTotal = p.1
  new : m.newTotal = some q.1
  increase : p.1 < q.1 → ∃ paid, m.paymentAmountSar = some paid ∧ q.2 = p.2 + paid
  decrease : q.1 ≤ p.1 → q.2 ≤ p.2 ∧ |q.2 - p.2 * q.1 / p.1| ≤ 1 / 200

/-- The rows of a funded booking: what was paid is in halalas. -/
def Cents (m : ModificationRequest) : Prop := ∀ paid, m.paymentAmountSar = some paid → Dec.Exact 2 paid

/-- The part that is left of the riyals. -/
theorem reduced_le {target : Dec} (hp : SoundPair p) (hpos : 0 < p.1) (hle : target ≤ p.1) :
    Dec.quantize 2 (p.2 * target / p.1) ≤ p.2 := by
  have hpart : p.2 * target / p.1 ≤ p.2 := by
    rw [div_le_iff₀ hpos]
    exact mul_le_mul_of_nonneg_left hle hp.sar
  calc Dec.quantize 2 (p.2 * target / p.1) ≤ Dec.quantize 2 p.2 := Dec.quantize_mono hpart
    _ = p.2 := hp.exact.quantize_eq

theorem settleChange_moved (hp : SoundPair p) (hm : Cents m)
    (h : settleChange (fun pk => snapshotCheck (snapshots pk)) currency p m = .ok q) : SoundPair q ∧ Moved p m q := by
  unfold settleChange at h
  split at h
  · cases h
  rename_i target htarget
  split_ifs at h with hchain hneg hmore hfx hsource
  · -- the increase is funded
    obtain ⟨-, paid, hpaid, hnonneg, -⟩ := snapshotCheck_spec hfx
    obtain rfl := Except.ok.inj h
    rw [hpaid, Option.getD_some]
    rw [not_or, not_not] at hchain
    refine ⟨⟨not_lt.1 hneg, add_nonneg hp.sar hnonneg, hp.exact.add (hm paid hpaid), fun hzero => ?_⟩,
      ⟨hchain.1, htarget, fun _ => ⟨paid, hpaid, rfl⟩, fun hle => absurd hmore (not_lt.2 hle)⟩⟩
    exact absurd (hp.source.trans_lt hmore) (hzero ▸ lt_irrefl _)
  · obtain rfl := Except.ok.inj h
    have hpos : 0 < p.1 := lt_of_le_of_ne hp.source (Ne.symm hsource)
    have hround := Dec.abs_quantize_sub_le 2 (p.2 * target / p.1)
    rw [not_or, not_not] at hchain
    refine ⟨⟨not_lt.1 hneg, ?_, Dec.exact_quantize _ _, fun hzero => ?_⟩,
      ⟨hchain.1, htarget, fun hlt => absurd hlt hmore, fun hle => ⟨reduced_le hp hpos hle, ?_⟩⟩⟩
    · exact Dec.quantize_nonneg (div_nonneg (mul_nonneg hp.sar (not_lt.1 hneg)) hp.source)
    · dsimp only at hzero ⊢
      rw [hzero, mul_zero, zero_div, Dec.exact_zero.quantize_eq]
    · norm_num at hround ⊢
      exact hround
  · -- nothing was to be paid, and nothing is
    rw [not_not] at hsource
    have hzero : target = 0 := le_antisymm (hsource ▸ not_lt.1 hmore) (not_lt.1 hneg)
    obtain rfl := Except.ok.inj h
    have hsar := hp.zero hsource
    rw [not_or, not_not] at hchain
    refine ⟨⟨hzero.ge, hp.sar, hp.exact, fun _ => hsar⟩,
      ⟨hchain.1, htarget, fun hlt => absurd hlt hmore, fun _ => ⟨le_rfl, ?_⟩⟩⟩
    dsimp only
    rw [hsar, zero_mul, zero_div, sub_zero, abs_zero]
    norm_num

/-- Every change keeps the totals settled. -/
theorem foldlM_settled (hp : SoundPair p) (hl : ∀ m ∈ l, Cents m)
    (h : l.foldlM (settleChange (fun pk => snapshotCheck (snapshots pk)) currency) p = .ok q) : SoundPair q := by
  induction l generalizing p with
  | nil =>
    obtain rfl := Except.ok.inj h
    exact hp
  | cons m l ih =>
    obtain ⟨hm, hl⟩ := List.forall_mem_cons.1 hl
    rw [List.foldlM_cons] at h
    obtain ⟨p', hp', h⟩ := bind_eq_ok.1 h
    exact ih (settleChange_moved hp hm hp').1 hl h

/-- The first totals: those of the intent. -/
theorem intentTotalSar_settled {i : SnapshotIntent} {sar : Dec} (hi : Dec.Exact 2 i.paymentAmountSar)
    (hcurrency : i.currency ≠ "SAR") (h : intentTotalSar i.funded = .ok sar) :
    SoundPair (i.totalPrice, sar) := by
  have hcode : i.funded.currency ≠ "SAR" := hcurrency
  unfold intentTotalSar at h
  rw [if_neg hcode] at h
  split_ifs at h with hvalid
  obtain rfl := Except.ok.inj h
  obtain ⟨hprice, paid, hpaid, hnonneg, hzero⟩ := snapshotCheck_spec hvalid
  obtain rfl := Option.some.inj hpaid
  exact ⟨hprice, hnonneg, hi, hzero hi⟩

/-- Changes that follow each other from the totals of the intent to those of the stay, each increase with a valid snapshot. -/
inductive Follows (fx : FxCheck) (currency : String) : Dec → List ModificationRequest → Dec → Prop
  | nil (total : Dec) : Follows fx currency total [] total
  | cons {total target last : Dec} {m : ModificationRequest} {l : List ModificationRequest} (old : m.oldTotal = total)
      (code : m.currency = currency) (new : m.newTotal = some target) (nonneg : 0 ≤ target)
      (funded : total < target → fx m.pk (target - total) currency m.paymentAmountSar = true)
      (rest : Follows fx currency target l last) : Follows fx currency total (m :: l) last

theorem Follows.settles {fx : FxCheck} {total last sar : Dec} (h : Follows fx currency total l last) :
    ∃ sar', l.foldlM (settleChange fx currency) (total, sar) = .ok (last, sar') := by
  induction h generalizing sar with
  | nil total => exact ⟨sar, rfl⟩
  | cons old code new nonneg funded rest ih =>
    have hchange := settleChange_ok (p := (_, sar)) new old code nonneg funded
    obtain ⟨⟨target', sar'⟩, hsettle, rfl⟩ := hchange
    obtain ⟨last', hrest⟩ := @ih sar'
    exact ⟨last', by rw [List.foldlM_cons, hsettle]; exact hrest⟩

end

/-! ### The value of a stay in riyals -/

section
variable {s : StayTerms} {p : Dec × Dec} {v w x y : Dec}

theorem toSar_eq (hcurrency : s.currency ≠ "SAR") (hv : p.1 = 0 → v = 0) :
    toSar s (.ok p) v = .ok (Dec.quantize 2 (v * p.2 / p.1)) := by
  unfold toSar
  rw [if_neg hcurrency]
  dsimp only [bind, Except.bind]
  split_ifs with hsource
  · rw [raiseIf_of_not (not_not.2 (hv hsource)), hsource, div_zero, Dec.exact_zero.quantize_eq]
    rfl
  · rfl

theorem toSar_ok (hcurrency : s.currency ≠ "SAR") (h : toSar s (.ok p) v = .ok x) :
    (p.1 = 0 → v = 0) ∧ x = Dec.quantize 2 (v * p.2 / p.1) := by
  unfold toSar at h
  rw [if_neg hcurrency] at h
  dsimp only [bind, Except.bind] at h
  split_ifs at h with hsource
  · by_cases hv : v = 0
    · rw [raiseIf_of_not (not_not.2 hv)] at h
      obtain rfl := Except.ok.inj h
      exact ⟨fun _ => hv, by rw [hsource, div_zero, Dec.exact_zero.quantize_eq]⟩
    · rw [raiseIf_of hv] at h
      cases h
  · exact ⟨fun hzero => absurd hzero hsource, (Except.ok.inj h).symm⟩

theorem toSar_mono (hcurrency : s.currency ≠ "SAR") (hp : SoundPair p) (hv : toSar s (.ok p) v = .ok x)
    (hw : toSar s (.ok p) w = .ok y) (hle : v ≤ w) : x ≤ y := by
  rw [(toSar_ok hcurrency hv).2, (toSar_ok hcurrency hw).2]
  exact Dec.quantize_mono (div_le_div_of_nonneg_right (mul_le_mul_of_nonneg_right hle hp.sar) hp.source)

/-- The whole stay is worth the riyals of its contract. -/
theorem toSar_whole (hcurrency : s.currency ≠ "SAR") (hp : SoundPair p) : toSar s (.ok p) p.1 = .ok p.2 := by
  rw [toSar_eq hcurrency id]
  by_cases hsource : p.1 = 0
  · rw [hsource, div_zero, hp.zero hsource, Dec.exact_zero.quantize_eq]
  · rw [mul_div_cancel_left₀ _ hsource, hp.exact.quantize_eq]

/-- A part of the stay is worth something between nothing and the riyals of its contract. -/
theorem toSar_part (hcurrency : s.currency ≠ "SAR") (hp : SoundPair p) (hv : 0 ≤ v) (hle : v ≤ p.1) :
    ∃ x, toSar s (.ok p) v = .ok x ∧ 0 ≤ x ∧ x ≤ p.2 := by
  have hx := toSar_eq hcurrency fun hzero => le_antisymm (hle.trans hzero.le) hv
  refine ⟨_, hx, ?_, toSar_mono hcurrency hp hx (toSar_whole hcurrency hp) hle⟩
  exact Dec.quantize_nonneg (div_nonneg (mul_nonneg hv hp.sar) hp.source)

end

/-! ### The contract of a booking -/

section
variable {snapshots : Uuid → Option Fx.AuditSnapshot} {i : SnapshotIntent} {b : Board} {p q : Dec × Dec}

theorem contract_settled (hi : Dec.Exact 2 i.paymentAmountSar) (hrows : ∀ m ∈ b.requests, Cents m)
    (hcurrency : b.reservation.currency ≠ "SAR")
    (h : contract (fun pk => snapshotCheck (snapshots pk)) i.funded b = .ok p) :
    SoundPair p ∧ p.1 = b.reservation.totalPrice := by
  obtain ⟨sar, hsar, hcode, hfold, htotal⟩ := contract_eq_ok.1 h
  have hfirst := intentTotalSar_settled hi (fun hsar => hcurrency (hcode.trans hsar)) hsar
  refine ⟨foldlM_settled hfirst (fun m hm => hrows m (mem_completedChanges.1 hm).1) hfold, htotal⟩

/-- A contract in another currency is defined if the snapshot of the intent is valid and the changes follow each other. It
values the stay at its total and every part at no more, by more for more; one more change that is completed after all others
adds what was paid for an increase, and leaves no more than the part for a decrease, to half a halala. -/
theorem contract_is_consistent (snapshots : Uuid → Option Fx.AuditSnapshot) (i : SnapshotIntent) (b : Board)
    (timeZoneName : Option String) (hi : Dec.Exact 2 i.paymentAmountSar)
    (hrows : ∀ m ∈ b.requests, Cents m) (hcurrency : b.reservation.currency ≠ "SAR") :
    (b.reservation.currency = i.currency →
      snapshotCheck i.exchangeRateSnapshot i.totalPrice i.currency (some i.paymentAmountSar) = true →
      Follows (fun pk => snapshotCheck (snapshots pk)) b.reservation.currency i.totalPrice (completedChanges b.requests)
        b.reservation.totalPrice →
      ∃ p, contract (fun pk => snapshotCheck (snapshots pk)) i.funded b = .ok p) ∧
    (∀ p, contract (fun pk => snapshotCheck (snapshots pk)) i.funded b = .ok p →
      (∃ total, totalSar (stayTerms b.reservation timeZoneName) (.ok p) = .ok total ∧
        toSar (stayTerms b.reservation timeZoneName) (.ok p) b.reservation.totalPrice = .ok total ∧
        ∀ v, 0 ≤ v → v ≤ b.reservation.totalPrice →
          ∃ x, toSar (stayTerms b.reservation timeZoneName) (.ok p) v = .ok x ∧ 0 ≤ x ∧ x ≤ total) ∧
      ∀ v w x y, v ≤ w → toSar (stayTerms b.reservation timeZoneName) (.ok p) v = .ok x →
        toSar (stayTerms b.reservation timeZoneName) (.ok p) w = .ok y → x ≤ y) ∧
    ∀ b' m p q, completedChanges b'.requests = completedChanges b.requests ++ [m] → Cents m →
      b'.reservation.currency = b.reservation.currency →
      contract (fun pk => snapshotCheck (snapshots pk)) i.funded b = .ok p →
      contract (fun pk => snapshotCheck (snapshots pk)) i.funded b' = .ok q → Moved p m q := by
  refine ⟨fun hcode hvalid hfollows => ?_, fun p hp => ?_, fun b' m p q hlast hm hsame hp hq => ?_⟩
  · obtain ⟨sar, hfold⟩ : ∃ sar, (completedChanges b.requests).foldlM (settleChange (fun pk => snapshotCheck (snapshots pk))
        b.reservation.currency) (i.totalPrice, i.paymentAmountSar) = .ok (b.reservation.totalPrice, sar) := hfollows.settles
    refine ⟨_, contract_eq_ok.2 ⟨i.paymentAmountSar, ?_, hcode, hfold, rfl⟩⟩
    have hcode' : i.funded.currency ≠ "SAR" := fun hsar => hcurrency (hcode.trans hsar)
    unfold intentTotalSar
    rw [if_neg hcode']
    exact if_pos hvalid
  · obtain ⟨hsettled, htotal⟩ := contract_settled hi hrows hcurrency hp
    have hcode : (stayTerms b.reservation timeZoneName).currency ≠ "SAR" := hcurrency
    refine ⟨⟨p.2, ?_, htotal ▸ toSar_whole hcode hsettled, fun v hv hle => ?_⟩, fun v w x y hle hv hw => ?_⟩
    · unfold totalSar
      rw [if_neg hcode]
      rfl
    · exact toSar_part hcode hsettled hv (htotal ▸ hle)
    · exact toSar_mono hcode hsettled hv hw hle
  · obtain ⟨hsettled, -⟩ := contract_settled hi hrows hcurrency hp
    obtain ⟨sar, hsar, -, hfold, -⟩ := contract_eq_ok.1 hp
    obtain ⟨sar', hsar', -, hfold', -⟩ := contract_eq_ok.1 hq
    obtain rfl : sar = sar' := Except.ok.inj (hsar.symm.trans hsar')
    rw [hsame, hlast, List.foldlM_append] at hfold'
    obtain ⟨p', hp', hm'⟩ := bind_eq_ok.1 hfold'
    obtain rfl : p = p' := Except.ok.inj (hfold.symm.trans hp')
    rw [List.foldlM_cons] at hm'
    obtain ⟨q', hq', hrest⟩ := bind_eq_ok.1 hm'
    obtain rfl : q' = q := Except.ok.inj hrest
    exact (settleChange_moved hsettled hm hq').2

end

/-- A snapshot of the day on which a riyal is worth 2.5 dirhams. -/
def dirhamSnapshot (sourceAmount paymentAmountSar : String) : Fx.AuditSnapshot where
  version := 1
  provider := "provider"
  baseCurrency := "SAR"
  rateTimestamp := ⟨1, true⟩
  rates := ⟨some "1", some "2.5", none, none⟩
  sourceAmount := sourceAmount
  sourceCurrency := "MAD"
  paymentAmountSar := paymentAmountSar
  paymentCurrency := "SAR"
  selectedDisplayCurrency := "MAD"
  displayAmount := sourceAmount
  sourceRatePerSar := "2.5"
  displayRatePerSar := "2.5"
  quoteCreatedAt := ⟨2, true⟩
  quoteExpiresAt := ⟨3, true⟩

def dirhamIntent : SnapshotIntent := ⟨"MAD", 1000, 400, some (dirhamSnapshot "1000" "400.00")⟩

/-- A stay of 1000 dirhams, and its changes. -/
def dirhamStay (totalPrice : Dec) (requests : List ModificationRequest) : Board :=
  ⟨{ Changes.stay with currency := "MAD", totalPrice := totalPrice }, requests⟩

/-- A night more for 100 dirhams, paid with 40 riyals. -/
def dirhamIncrease : ModificationRequest where
  pk := Changes.firstRequest
  requestType := .extendStay
  status := .completed
  oldCheckIn := 100
  oldCheckOut := 104
  newCheckIn := some 100
  newCheckOut := some 105
  oldGuests := 2
  newGuests := some 2
  oldTotal := 1000
  newTotal := some 1100
  priceDifference := 100
  paymentAmountSar := some 40
  currency := "MAD"
  ownerFinalTotal := none
  idempotencyKey := ""
  requestedAt := 10
  expiresAt := 1000
  approvedAt := some 20
  completedAt := some 30
  operation := none

def dirhamSnapshots (_ : Uuid) : Option Fx.AuditSnapshot := some (dirhamSnapshot "100" "40.00")

theorem completedChanges_dirhams : completedChanges [dirhamIncrease] = [dirhamIncrease] := by
  have hdone : isCompletedChange dirhamIncrease = true := rfl
  simp [completedChanges, hdone]

theorem contract_dirhams :
    contract (fun pk => snapshotCheck (dirhamSnapshots pk)) dirhamIntent.funded (dirhamStay 1100 [dirhamIncrease]) =
      .ok (1100, 440) := by
  refine contract_eq_ok.2 ⟨400, by decide +kernel, rfl, ?_, rfl⟩
  have hrequests : (dirhamStay 1100 [dirhamIncrease]).requests = [dirhamIncrease] := rfl
  rw [hrequests, completedChanges_dirhams]
  decide +kernel

theorem cents_dirhams : Cents dirhamIncrease := by
  rintro _ ⟨⟩
  exact ⟨4000, by norm_num⟩

theorem contract_is_consistent_dirhams :
    ∃ p q, contract (fun pk => snapshotCheck (dirhamSnapshots pk)) dirhamIntent.funded (dirhamStay 1000 []) = .ok p ∧
      contract (fun pk => snapshotCheck (dirhamSnapshots pk)) dirhamIntent.funded (dirhamStay 1100 [dirhamIncrease]) =
        .ok q ∧ Moved p dirhamIncrease q ∧ q = (1100, 440) := by
  have hnone : completedChanges [] = [] := by simp [completedChanges]
  have hone : completedChanges [dirhamIncrease] = completedChanges [] ++ [dirhamIncrease] := by
    rw [hnone, completedChanges_dirhams, List.nil_append]
  obtain ⟨hdefined, -, hmoved⟩ := contract_is_consistent dirhamSnapshots dirhamIntent (dirhamStay 1000 []) none
    ⟨40000, by decide +kernel⟩ (List.forall_mem_nil _) (by decide)
  have hfollows : Follows (fun pk => snapshotCheck (dirhamSnapshots pk)) "MAD" 1000 (completedChanges []) 1000 := by
    rw [hnone]
    exact .nil 1000
  obtain ⟨p, hp⟩ := hdefined rfl (by decide +kernel) hfollows
  exact ⟨p, _, hp, contract_dirhams, hmoved (dirhamStay 1100 [dirhamIncrease]) dirhamIncrease p _ hone cents_dirhams rfl hp
    contract_dirhams, rfl⟩

end Apartments.Loyalty
