import Apartments.Lib.Waterfall
import Apartments.Loyalty.Calculation
import Apartments.Reservations.Refunds
import Mathlib.Data.List.Sort
import Mathlib.Data.Prod.Lex
import Mathlib.Data.String.Basic

/-!
# What is left of the receipts of a booking (`loyalty/settlements.py`)

`paymentBalances` nets the refund obligations of a booking against its verified riyal receipts: an obligation that names a
receipt counts against that one, and the others count against the receipts by their creation.
-/

namespace Apartments.Settlements

open Loyalty Payments HyperPay

/-- `order_by("created_at", "pk")`. -/
def creationKey (p : PaymentAttempt) : ℕ ×ₗ String := toLex (p.createdAt, p.pk.str)

/-- The payments of `payment_balances`. -/
def isReceipt (d : Desk) (p : PaymentAttempt) : Bool :=
  d.bookingIntent == some p.bookingIntent && p.currency == "SAR" && Refunds.collectedStatus p && p.verifiedAt.isSome &&
    p.providerPaymentId.getD "" != ""

def receipts (d : Desk) : List PaymentAttempt :=
  (d.payments.filter (isReceipt d)).insertionSort fun p q => creationKey p ≤ creationKey q

/-- The receipt that an obligation names, by its key or by the identifier of the provider. -/
def receiptKey (payments : List PaymentAttempt) (o : RefundObligation) : Option Uuid :=
  match o.calculation.paymentAttempt with
  | some pk => some pk
  | none =>
    o.calculation.detail.originalPaymentId.bind fun id =>
      (payments.reverse.find? fun p => p.providerPaymentId == some id).map (·.pk)

/-- `used` after the loop over the obligations. -/
def used (d : Desk) (pk : Uuid) : Dec :=
  Table.total (fun o => o.status != .cancelled && receiptKey (receipts d) o == some pk) RefundObligation.amount
    d.obligations

/-- `unassigned` after the loop over the obligations. -/
def unassigned (d : Desk) : Dec :=
  Table.total
    (fun o => o.status != .cancelled && !(receipts d).any fun p => receiptKey (receipts d) o == some p.pk)
    RefundObligation.amount d.obligations

/-- The loop over the payments; `left` is what is unassigned. -/
def balancesFrom (now : Time) (used : Uuid → Dec) : Dec → List PaymentAttempt →
    Except Refusal (List (PaymentAttempt × Dec))
  | left, [] => do
    raiseIf (left ≠ 0) (.validation "التزامات الاسترداد تتجاوز القبض الموثق.")
    return []
  | left, p :: payments => do
    raiseIf (p.verifiedAt.any (now < ·) = true) (.validation "وقت القبض غير صالح.")
    let remaining := max (p.amount - used p.pk) 0
    let take := min remaining left
    let balances ← balancesFrom now used (left - take) payments
    return (p, if p.status = .refunded then 0 else remaining - take) :: balances

/-- `payment_balances`. -/
def paymentBalances (now : Time) (d : Desk) : Except Refusal (List (PaymentAttempt × Dec)) :=
  balancesFrom now (used d) (unassigned d) (receipts d)

/-- `funding`, with the redemption of the document. -/
def funding (now : Time) (d : Desk) (redemption : Option Redemption) : Except Refusal (Dec × Dec) := do
  let balances ← paymentBalances now d
  return ((balances.map (·.2)).sum, redemption.elim 0 fun r => r.value - r.restored)

/-! ### What the loop answers -/

/-- What is not reserved of a receipt by the obligations that name it. -/
def free (used : Uuid → Dec) (p : PaymentAttempt) : Dec := max (p.amount - used p.pk) 0

/-- No receipt is verified at a time to come. -/
def Timely (now : Time) (payments : List PaymentAttempt) : Prop :=
  ∀ p ∈ payments, p.verifiedAt.any (now < ·) = false

section
variable {now : Time} {d : Desk} {use : Uuid → Dec} {left : Dec} {payments : List PaymentAttempt}
  {balances : List (PaymentAttempt × Dec)}

theorem balancesFrom_eq_ok :
    balancesFrom now use left payments = .ok balances ↔ Timely now payments ∧
      Waterfall.rest left (payments.map (free use)) = 0 ∧
      balances = List.zipWith (fun p t => (p, if p.status = .refunded then 0 else free use p - t)) payments
        (Waterfall.takes left (payments.map (free use))) := by
  induction payments generalizing left balances with
  | nil =>
    rw [balancesFrom]
    simp only [bind_eq_ok, raiseIf_eq_ok, exists_const, ne_eq, not_not]
    constructor
    · rintro ⟨hleft, h⟩
      cases h
      exact ⟨List.forall_mem_nil _, hleft, rfl⟩
    · rintro ⟨-, hleft, rfl⟩
      exact ⟨hleft, rfl⟩
  | cons p payments ih =>
    rw [balancesFrom]
    simp only [bind_eq_ok, raiseIf_eq_ok, exists_const, Bool.not_eq_true, ih, pure, Except.pure, Except.ok.injEq]
    simp only [Timely, List.forall_mem_cons, List.map_cons, Waterfall.rest, Waterfall.takes, List.zipWith_cons_cons]
    constructor
    · rintro ⟨hp, rest, ⟨htimely, hrest, rfl⟩, rfl⟩
      exact ⟨⟨hp, htimely⟩, hrest, rfl⟩
    · rintro ⟨⟨hp, htimely⟩, hrest, rfl⟩
      exact ⟨hp, _, ⟨htimely, hrest, rfl⟩, rfl⟩

theorem used_nonneg (h : ∀ o ∈ d.obligations, 0 ≤ o.amount) (pk : Uuid) : 0 ≤ used d pk :=
  Table.total_nonneg fun o ho _ => h o ho

theorem unassigned_nonneg (h : ∀ o ∈ d.obligations, 0 ≤ o.amount) : 0 ≤ unassigned d :=
  Table.total_nonneg fun o ho _ => h o ho

theorem free_nonneg (use : Uuid → Dec) (p : PaymentAttempt) : 0 ≤ free use p := le_max_right ..

theorem mem_receipts {p : PaymentAttempt} : p ∈ receipts d ↔ p ∈ d.payments ∧ isReceipt d p = true := by
  rw [receipts, List.mem_insertionSort, List.mem_filter]

theorem nodup_receipts (h : (d.payments.map (·.pk)).Nodup) : ((receipts d).map (·.pk)).Nodup :=
  ((List.perm_insertionSort _ _).map _).nodup_iff.2 (h.sublist (List.filter_sublist.map _))

/-- What is owed, paid out or not. -/
def owed (d : Desk) : Dec := Table.total (fun o => o.status != .cancelled) RefundObligation.amount d.obligations

theorem owed_eq (h : (d.payments.map (·.pk)).Nodup) :
    owed d = ((receipts d).map fun p => used d p.pk).sum + unassigned d := by
  rw [owed, Table.total_labels (receiptKey (receipts d)) (nodup_receipts h), List.map_map]
  simp only [List.any_map]
  rfl

/-- The remaining amounts are those of the receipts, each within its receipt, and nothing is lost. -/
structure Conserved (d : Desk) (balances : List (PaymentAttempt × Dec)) : Prop where
  receipts : balances.map (·.1) = receipts d
  within : ∀ b ∈ balances, 0 ≤ b.2 ∧ b.2 ≤ b.1.amount
  total : (balances.map (·.2)).sum = ((Settlements.receipts d).map (·.amount)).sum - owed d

/-- The balances of receipts of which none was refunded. -/
def spread (use : Uuid → Dec) (left : Dec) (payments : List PaymentAttempt) : List (PaymentAttempt × Dec) :=
  List.zipWith (fun p t => (p, if p.status = .refunded then 0 else free use p - t)) payments
    (Waterfall.takes left (payments.map (free use)))

theorem spread_cons (p : PaymentAttempt) : spread use left (p :: payments) =
    (p, if p.status = .refunded then 0 else free use p - min (free use p) left) ::
      spread use (left - min (free use p) left) payments := rfl

theorem spread_fst : (spread use left payments).map (·.1) = payments := by
  induction payments generalizing left with
  | nil => rfl
  | cons p payments ih => rw [spread_cons, List.map_cons, ih]

theorem spread_within (huse : ∀ pk, 0 ≤ use pk) (hleft : 0 ≤ left) (hpay : ∀ p ∈ payments, 0 ≤ p.amount) :
    ∀ b ∈ spread use left payments, 0 ≤ b.2 ∧ b.2 ≤ b.1.amount := by
  induction payments generalizing left with
  | nil =>
    intro b hb
    rw [spread, List.zipWith_nil_left] at hb
    cases hb
  | cons p payments ih =>
    obtain ⟨hp, hpay⟩ := List.forall_mem_cons.1 hpay
    rw [spread_cons, List.forall_mem_cons]
    refine ⟨?_, ih (sub_nonneg.2 (min_le_right ..)) hpay⟩
    dsimp only
    split_ifs
    · exact ⟨le_rfl, hp⟩
    · have hfree : free use p ≤ p.amount := max_le (sub_le_self _ (huse p.pk)) hp
      have htake : 0 ≤ min (free use p) left := le_min (free_nonneg use p) hleft
      exact ⟨sub_nonneg.2 (min_le_left ..), (sub_le_self _ htake).trans hfree⟩

theorem balances_nonneg (h : paymentBalances now d = .ok balances) :
    ∀ b ∈ balances, 0 ≤ b.2 := by
  have hspread : ∀ {use : Uuid → Dec} {left : Dec} {payments : List PaymentAttempt},
      ∀ b ∈ spread use left payments, 0 ≤ b.2 := by
    intro use left payments
    induction payments generalizing left with
    | nil =>
      intro b hb
      rw [spread, List.zipWith_nil_left] at hb
      cases hb
    | cons p payments ih =>
      rw [spread_cons, List.forall_mem_cons]
      refine ⟨?_, ih⟩
      dsimp only
      split_ifs
      · exact le_rfl
      · exact sub_nonneg.2 (min_le_left ..)
  rw [paymentBalances, balancesFrom_eq_ok] at h
  obtain ⟨-, -, rfl⟩ := h
  exact hspread

theorem sum_spread (hfull : ∀ p ∈ payments, p.status ≠ .refunded) (hrest : Waterfall.rest left (payments.map (free use)) = 0) :
    ((spread use left payments).map (·.2)).sum = (payments.map (free use)).sum - left := by
  have hsum : ((spread use left payments).map (·.2)).sum + (Waterfall.takes left (payments.map (free use))).sum =
      (payments.map (free use)).sum := by
    clear hrest
    induction payments generalizing left with
    | nil => simp [spread, Waterfall.takes]
    | cons p payments ih =>
      obtain ⟨hp, hfull⟩ := List.forall_mem_cons.1 hfull
      have hrec := @ih (left - min (free use p) left) hfull
      simp only [spread_cons, List.map_cons, Waterfall.takes, List.sum_cons, if_neg hp]
      linarith
  have htakes := Waterfall.sum_takes left (payments.map (free use))
  linarith

/-- No receipt is owed more of than it has. -/
theorem sum_free_eq_iff :
    (payments.map (free use)).sum = (payments.map (·.amount)).sum - (payments.map fun p => use p.pk).sum ↔
      ∀ p ∈ payments, use p.pk ≤ p.amount := by
  have hle : ∀ payments : List PaymentAttempt,
      (payments.map (·.amount)).sum - (payments.map fun p => use p.pk).sum ≤ (payments.map (free use)).sum := by
    intro payments
    induction payments with
    | nil => simp
    | cons p payments ih =>
      have hp : p.amount - use p.pk ≤ free use p := le_max_left ..
      simp only [List.map_cons, List.sum_cons]
      linarith
  induction payments with
  | nil => simp
  | cons p payments ih =>
    have hrest := hle payments
    have hp : p.amount - use p.pk ≤ free use p := le_max_left ..
    rw [List.forall_mem_cons]
    simp only [List.map_cons, List.sum_cons]
    constructor
    · intro h
      have heq : free use p = p.amount - use p.pk := by linarith
      have hnonneg := free_nonneg use p
      exact ⟨by linarith, ih.1 (by linarith)⟩
    · rintro ⟨hle, h⟩
      have heq : free use p = p.amount - use p.pk := max_eq_left (sub_nonneg.2 hle)
      have htail := ih.2 h
      linarith

end

/-- The balances of receipts that were not refunded conserve the money exactly if they are refused (a receipt is of a time to
come, or the obligations that name no receipt are more than what is free) or no receipt has more obligations that name it
than it has money. -/
theorem balances_conserve_iff (now : Time) (d : Desk) (hkeys : (d.payments.map (·.pk)).Nodup)
    (hpay : ∀ p ∈ d.payments, 0 ≤ p.amount) (howed : ∀ o ∈ d.obligations, 0 ≤ o.amount)
    (hfull : ∀ p ∈ receipts d, p.status ≠ .refunded) :
    (∀ balances, paymentBalances now d = .ok balances → Conserved d balances) ↔
      ¬ Timely now (receipts d) ∨ ((receipts d).map (free (used d))).sum < unassigned d ∨
        ∀ p ∈ receipts d, used d p.pk ≤ p.amount := by
  have hleft := unassigned_nonneg howed
  have hrest := Waterfall.rest_eq_zero_iff hleft (l := (receipts d).map (free (used d))) fun c hc => by
    obtain ⟨p, -, rfl⟩ := List.mem_map.1 hc
    exact free_nonneg ..
  have hok : ∀ balances, paymentBalances now d = .ok balances ↔ Timely now (receipts d) ∧
      unassigned d ≤ ((receipts d).map (free (used d))).sum ∧ balances = spread (used d) (unassigned d) (receipts d) := by
    intro balances
    rw [paymentBalances, balancesFrom_eq_ok, hrest]
    rfl
  have htotal : unassigned d ≤ ((receipts d).map (free (used d))).sum →
      ((spread (used d) (unassigned d) (receipts d)).map (·.2)).sum =
        ((receipts d).map (free (used d))).sum - unassigned d := fun h => sum_spread hfull (hrest.2 h)
  constructor
  · intro h
    by_cases htimely : Timely now (receipts d)
    · rcases lt_or_ge ((receipts d).map (free (used d))).sum (unassigned d) with hlt | hle
      · exact .inr (.inl hlt)
      · have hc := (h _ ((hok _).2 ⟨htimely, hle, rfl⟩)).total
        rw [htotal hle, owed_eq hkeys] at hc
        exact .inr (.inr (sum_free_eq_iff.1 (by linarith)))
    · exact .inl htimely
  · rintro h balances hb
    obtain ⟨htimely, hle, rfl⟩ := (hok balances).1 hb
    rcases h with h | h | h
    · exact absurd htimely h
    · exact absurd hle (not_le.2 h)
    · refine ⟨spread_fst, spread_within (used_nonneg howed) hleft fun p hp => hpay p (mem_receipts.1 hp).1, ?_⟩
      have hfree := sum_free_eq_iff.2 h
      rw [htotal hle, owed_eq hkeys]
      linarith

def intent : Uuid := ⟨"7d2e7c1a-1f60-4f0e-9a51-0d5d7c2f1e01", rfl⟩

def firstReceipt : Uuid := ⟨"7d2e7c1a-1f60-4f0e-9a51-0d5d7c2f1e02", rfl⟩

def secondReceipt : Uuid := ⟨"7d2e7c1a-1f60-4f0e-9a51-0d5d7c2f1e03", rfl⟩

def onlyDebt : Uuid := ⟨"7d2e7c1a-1f60-4f0e-9a51-0d5d7c2f1e04", rfl⟩

/-- A verified payment of the website. -/
def cardReceipt (pk : Uuid) (providerPaymentId : String) (amount : Dec) (createdAt : Time) : PaymentAttempt where
  pk := pk
  bookingIntent := intent
  paymentRequest := none
  modificationRequest := none
  provider := "hyperpay"
  providerCheckoutId := none
  providerPaymentId := some providerPaymentId
  merchantTransactionId := none
  providerResultCode := ""
  providerResultDescription := ""
  amount := amount
  currency := "SAR"
  status := .succeeded
  failureCode := ""
  paymentBrand := ""
  verifiedAt := some createdAt
  createdAt := createdAt

/-- A debt to the guest, for a receipt or for none. -/
def debt (pk : Uuid) (receipt : Option Uuid) (amount : Dec) : RefundObligation where
  pk := pk
  modificationRequest := none
  reason := .cancellation
  status := .due
  amount := amount
  currency := "SAR"
  calculation := { Calculation.empty with paymentAttempt := receipt }
  transferReference := ""
  transferredAt := none
  transferredBy := none

/-- Two receipts of 100 riyals and a debt of `amount`. -/
def twoReceipts (receipt : Option Uuid) (amount : Dec) : Desk where
  bookingIntent := some intent
  offlinePaymentReceipt := none
  payments := [cardReceipt firstReceipt "pay-1" 100 1, cardReceipt secondReceipt "pay-2" 100 2]
  obligations := [debt onlyDebt receipt amount]

/-- A debt of 150 riyals that names the first receipt takes 100 riyals off, one that names none 150. -/
theorem overallotted_receipt_loses :
    (paymentBalances 3 (twoReceipts (some firstReceipt) 150)).map (fun l => l.map (·.2)) = .ok [0, 100] ∧
      (paymentBalances 3 (twoReceipts none 150)).map (fun l => l.map (·.2)) = .ok [0, 50] ∧
      ¬ ∀ balances, paymentBalances 3 (twoReceipts (some firstReceipt) 150) = .ok balances →
        Conserved (twoReceipts (some firstReceipt) 150) balances := by
  refine ⟨by decide +kernel, by decide +kernel, fun h => ?_⟩
  have hloses := (h [(cardReceipt firstReceipt "pay-1" 100 1, 0), (cardReceipt secondReceipt "pay-2" 100 2, 100)]
    (by decide +kernel)).total
  exact absurd hloses (by decide +kernel)

theorem balances_conserve_iff_two :
    (∀ balances, paymentBalances 3 (twoReceipts (some firstReceipt) 60) = .ok balances →
      Conserved (twoReceipts (some firstReceipt) 60) balances) ↔
      ¬ Timely 3 (receipts (twoReceipts (some firstReceipt) 60)) ∨
        ((receipts (twoReceipts (some firstReceipt) 60)).map (free (used (twoReceipts (some firstReceipt) 60)))).sum <
          unassigned (twoReceipts (some firstReceipt) 60) ∨
        ∀ p ∈ receipts (twoReceipts (some firstReceipt) 60), used (twoReceipts (some firstReceipt) 60) p.pk ≤ p.amount :=
  balances_conserve_iff 3 (twoReceipts (some firstReceipt) 60) (by decide) (by decide +kernel) (by decide +kernel)
    (by decide +kernel)

end Apartments.Settlements
