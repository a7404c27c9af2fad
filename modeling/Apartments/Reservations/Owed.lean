import Apartments.HyperPay.Ceiling
import Apartments.Reservations.Refunds

/-!
# What is owed and what was collected

The account as a machine: changes are completed, refunds go through the gateway or over the owner's desk. `owed`
adds every obligation that is not cancelled, `room` is what the collection still covers after all of them, and
`left` what the code counts as left: it forgets the obligations that are still due. A refund is limited by `left`,
so it stays within `room` when nothing is due, or when it asks for no more than `room`; `Covered` says so, and no
other step can leave the collection short.
-/

namespace Apartments.Refunds

open Payments HyperPay

inductive Action
  | complete (settings : Settings) (moment : Time) (change : Change) (approved : Option Dec.Column) (pk : Uuid)
  | approveAmount (pk : Uuid) (amount : Dec.Column)
  | markTransferred (pk : Uuid) (reference : String) (now : Time) (operator : ℕ)
  | closeWithoutTransfer (pk : Uuid)
  | gateway (action : HyperPay.Action)

/-- The gateway actions of the refund service. -/
def isRefundCall : HyperPay.Action → Bool
  | .submit .. | .send .. | .answer .. => true
  | _ => false

namespace Account

def step (a : Account) : Action → Account
  | .complete settings moment change approved pk => Refunds.complete settings a moment change approved pk
  | .approveAmount pk amount => a.modify pk (Refunds.approveAmount amount)
  | .markTransferred pk reference now operator => a.modify pk (Refunds.markTransferred reference now operator)
  | .closeWithoutTransfer pk => a.modify pk Refunds.closeWithoutTransfer
  | .gateway action => if isRefundCall action then { a with gateway := a.gateway.step action } else a

/-- What was collected for the booking. -/
def collected (a : Account) : Dec :=
  match standaloneReceipt a with
  | some receipt => receipt.amount
  | none => (a.desk.bookingIntent.bind (originalPayment a)).elim 0 (·.amount)

/-- Every obligation that is not cancelled. -/
def owed (a : Account) : Dec := Table.total (fun o => o.status != .cancelled) RefundObligation.amount a.obligations

def due (a : Account) : Dec := Table.total (fun o => o.status == .due) RefundObligation.amount a.obligations

def returned (a : Account) : Dec := Table.total outgoing RefundObligation.amount a.obligations

def transferred (a : Account) : Dec :=
  Table.total (fun o => o.status == .transferred) RefundObligation.amount a.obligations

/-- What the collection covers besides everything that is owed. -/
def room (a : Account) : Dec := a.collected - a.owed

/-- What the collection covers besides what has been sent off: due obligations are not counted. -/
def left (a : Account) : Dec := a.collected - a.returned

end Account

open Account

/-- What a change asks to be returned, before the collection limits it: all of it, the tier's share of what the tier
may return, or the price difference. -/
def asked (s : Settings) (a : Account) (moment : Time) (c : Change) : Dec :=
  if c.cancellation then
    if s.launchFlexibleCancellation then
      if a.stay.cancellationPolicy.isSome ∧ moment < a.stay.arrival then a.collected else 0
    else (appliedTier s a.stay moment).elim 0 fun tier => tierRefund tier a.stay a.left
  else if c.priceDifference.val < 0 then |c.priceDifference.val|
  else 0

/-- An approved amount takes the place of what is asked; one that is more asks for nothing. -/
def askedFor (s : Settings) (a : Account) (moment : Time) (c : Change) (approved : Option Dec.Column) : Dec :=
  match approved with
  | none => asked s a moment c
  | some x => if 0 ≤ x.val ∧ x.val ≤ asked s a moment c ∧ x.val ≤ a.left then x.val else 0

/-- The completion of the change writes nothing. -/
def refused (a : Account) (c : Change) (pk : Uuid) : Bool :=
  a.obligations.any (·.pk == pk) ||
    (!c.cancellation && (c.currency != a.stay.currency || (c.ownerSettlement && settlementBlocker a != "")))

/-- Nothing is due when a refund is computed, or it asks for no more than is covered. -/
def Covered (a : Account) : Action → Prop
  | .complete s moment c approved pk =>
    refused a c pk ∨ (!c.cancellation && c.ownerSettlement) ∨ a.due = 0 ∨
      askedFor s { a with stay := changedStay c a.stay } moment c approved ≤ a.room
  | _ => True

instance (a : Account) (action : Action) : Decidable (Covered a action) := by
  cases action <;> unfold Covered <;> infer_instance

/-! ### The books of a booking that was paid once -/

structure ByReceipt (a : Account) (c : Dec) : Prop where
  receipt : ∃ r, standaloneReceipt a = some r ∧ r.amount = c ∧ r.currency = a.stay.currency
  intent : a.desk.bookingIntent = none

/-- The only collection is the one of `p`, up to its status. -/
structure ByPayment (a : Account) (p : PaymentAttempt) : Prop where
  receipt : standaloneReceipt a = none
  intent : a.desk.bookingIntent = some p.bookingIntent
  keyed : (a.desk.payments.map (·.pk)).Nodup
  row : ∃ q, a.desk.payments.filter collectedStatus = [q] ∧ SameReceipt q p ∧ q.modificationRequest = none ∧
    q.currency = a.stay.currency ∧ (q.status = .refunded → p.amount ≤ a.transferred)
  snapshot : ∀ (i : ℕ) c, a.gateway.calls[i]? = some c → c.isOpen → SameReceipt c.submission.payment p
  original : ∀ o ∈ a.obligations, o.calculation.detail.originalPaymentId = none ∨
    o.calculation.detail.originalPaymentId = p.providerPaymentId

structure Books (c : Dec) (a : Account) : Prop where
  inFlight : InFlight a.gateway
  nonneg : ∀ o ∈ a.obligations, 0 ≤ o.amount
  exact : ∀ o ∈ a.obligations, Dec.Exact 4 o.amount
  currency : ∀ o ∈ a.obligations, o.currency = a.stay.currency
  paid : ByReceipt a c ∨ ∃ p, ByPayment a p ∧ p.amount = c
  collection : Dec.Exact 4 c ∧ 0 ≤ c

variable {a : Account} {c : Dec}

theorem owed_eq (a : Account) : a.owed = a.due + a.returned := by
  have h := Table.total_split (p := fun o => o.status != .cancelled) (v := RefundObligation.amount)
    (l := a.obligations) fun o => o.status == .due
  rw [owed, h]
  congr 1 <;> refine Table.total_congr fun o _ => ?_
  all_goals cases hs : o.status <;> simp [outgoing, hs]

theorem Books.due_nonneg (h : Books c a) : 0 ≤ a.due := Table.total_nonneg fun o ho _ => h.nonneg o ho

theorem Books.returned_nonneg (h : Books c a) : 0 ≤ a.returned := Table.total_nonneg fun o ho _ => h.nonneg o ho

theorem exact_total {n : ℕ} {p : RefundObligation → Bool} {l : List RefundObligation}
    (h : ∀ o ∈ l, Dec.Exact n o.amount) : Dec.Exact n (Table.total p RefundObligation.amount l) := by
  induction l with
  | nil => exact Dec.exact_zero
  | cons o l ih =>
    rw [Table.total_cons]
    refine Dec.Exact.add ?_ (ih fun o' ho' => h o' (by simp [ho']))
    split
    · exact h o (by simp)
    · exact Dec.exact_zero

theorem originalPayment_eq {p q : PaymentAttempt} (hq : a.desk.payments.filter collectedStatus = [q])
    (hi : q.bookingIntent = p.bookingIntent) (hm : q.modificationRequest = none) (hc : q.currency = a.stay.currency) :
    originalPayment a p.bookingIntent = some q := by
  have hcol : collectedStatus q = true := (List.mem_filter.1 (hq ▸ List.mem_singleton_self q)).2
  have hfilter : (a.desk.payments.filter fun x => x.bookingIntent == p.bookingIntent && x.modificationRequest == none &&
      collectedStatus x && x.currency == a.stay.currency) = [q] := by
    have : (fun x : PaymentAttempt => x.bookingIntent == p.bookingIntent && x.modificationRequest == none &&
        collectedStatus x && x.currency == a.stay.currency) =
        fun x => (x.bookingIntent == p.bookingIntent && x.modificationRequest == none && x.currency == a.stay.currency) &&
          collectedStatus x := by
      funext x
      cases collectedStatus x <;> simp
    rw [this, ← List.filter_filter, hq]
    simp [hi, hm, hc]
  rw [originalPayment, hfilter]
  rfl

theorem Books.collected_eq (h : Books c a) : a.collected = c := by
  unfold Account.collected
  rcases h.paid with hr | ⟨p, hp, rfl⟩
  · obtain ⟨r, hr, hc, -⟩ := hr.receipt
    rw [hr]
    exact hc
  · obtain ⟨q, hq, hs, hm, hc, -⟩ := hp.row
    rw [hp.receipt, hp.intent]
    show (originalPayment a p.bookingIntent).elim 0 _ = _
    rw [originalPayment_eq hq hs.bookingIntent hm hc]
    exact hs.amount

theorem Books.transferred_le (h : Books c a) : a.transferred ≤ a.returned := by
  refine Table.total_le_total fun o ho => ?_
  have := h.nonneg o ho
  cases hs : o.status <;> simp [outgoing, hs, this]

/-- The code counts as left what was collected less what has been sent off. -/
theorem Books.successful (h : Books c a) : successfulOriginalPaymentAmount a = some (max a.left 0) := by
  rw [Account.left, h.collected_eq]
  unfold successfulOriginalPaymentAmount
  rcases h.paid with hr | ⟨p, hp, rfl⟩
  · obtain ⟨r, hrow, rfl, hc⟩ := hr.receipt
    rw [hrow]
    have : Table.total (fun o => o.currency == r.currency && outgoing o) RefundObligation.amount a.obligations =
        a.returned := Table.total_congr fun o ho => by simp [h.currency o ho, hc]
    simp only [this]
  · obtain ⟨q, hq, hs, hm, hc, href⟩ := hp.row
    rw [hp.receipt, hp.intent]
    simp only [Option.bind_some]
    rw [originalPayment_eq hq hs.bookingIntent hm hc]
    simp only
    split
    · rename_i hst
      have := href hst
      have := h.transferred_le
      rw [max_eq_right (by linarith)]
    · have : Table.total (fun o => o.currency == a.stay.currency && outgoing o && countsAgainst q o)
          RefundObligation.amount a.obligations = a.returned := by
        refine Table.total_congr fun o ho => ?_
        have hca : countsAgainst q o = true := by
          rcases hp.original o ho with h0 | h0 <;> simp [countsAgainst, h0, hs.providerPaymentId]
        simp [h.currency o ho, hca]
      rw [this, hs.amount]

/-- The collection has covered everything so far. -/
def Within (c : Dec) (a : Account) : Prop := a.owed ≤ c

theorem Books.left_nonneg (h : Books c a) (hw : Within c a) : 0 ≤ a.left := by
  have hdue := h.due_nonneg
  have howed := owed_eq a
  rw [Within] at hw
  rw [Account.left, h.collected_eq]
  linarith

theorem Books.exact_left (h : Books c a) : Dec.Exact 4 a.left := by
  rw [Account.left, h.collected_eq]
  exact h.collection.1.sub (exact_total h.exact)

theorem Books.left_le (h : Books c a) : a.left ≤ a.collected := by
  have := h.returned_nonneg
  rw [Account.left]
  linarith

theorem tierRefund_le (tier : Tier) (stay : Stay) {x : Dec} (hx : 0 ≤ x) (he : Dec.Exact 4 x) :
    tierRefund tier stay x ≤ x := by
  obtain ⟨hp0, hp1⟩ := tier.percentage
  refine max_le ?_ hx
  have hbase : min (stay.totalPrice - if tier.refundsCleaningFee then 0 else min (cleaningFee stay) stay.totalPrice) x *
      tier.refundPercentage / 100 ≤ x := by
    have hle := min_le_right (stay.totalPrice - if tier.refundsCleaningFee then 0 else
      min (cleaningFee stay) stay.totalPrice) x
    have h1 := mul_le_mul_of_nonneg_right hle hp0
    have h2 := mul_le_mul_of_nonneg_left hp1 hx
    linarith
  exact (Dec.quantize_mono hbase).trans he.quantize_eq.le

theorem tierRefund_nonneg (tier : Tier) (stay : Stay) (x : Dec) : 0 ≤ tierRefund tier stay x := le_max_right _ _

theorem exact_tierRefund (tier : Tier) (stay : Stay) (x : Dec) : Dec.Exact 4 (tierRefund tier stay x) :=
  (Dec.exact_quantize 4 _).max Dec.exact_zero

/-- The amount of a refund, nothing if there is none. -/
def granted (r : Option RefundComputation) : Dec := r.elim 0 (·.amount)

variable {s : Settings} {moment : Time} {ch : Change} {approved : Option Dec.Column} {pk : Uuid}

/-- What is computed is what is asked for, limited by what is left. -/
theorem granted_refundOwed (h : Books c a) (hl : 0 ≤ a.left) (ho : (!ch.cancellation && ch.ownerSettlement) = false) :
    granted (refundOwed s a moment ch) = min (asked s a moment ch) a.left ∧ 0 ≤ asked s a moment ch := by
  have hsucc := h.successful
  rw [max_eq_left hl] at hsucc
  have hcol : 0 ≤ a.collected := hl.trans h.left_le
  unfold refundOwed asked
  cases hc : ch.cancellation with
  | true =>
    simp only [if_true, cancellationRefund, hsucc]
    split
    · cases hp : a.stay.cancellationPolicy with
      | none => simp [granted, hl]
      | some policy =>
        by_cases hm : moment < a.stay.arrival
        · simp [granted, hm, h.exact_left.quantize_eq, h.left_le, hcol]
        · simp [granted, hm, hl]
    · cases appliedTier s a.stay moment with
      | none => simp [granted, hl]
      | some tier =>
        exact ⟨(min_eq_left (tierRefund_le tier a.stay hl h.exact_left)).symm, tierRefund_nonneg ..⟩
  | false =>
    have ho : ch.ownerSettlement = false := by simpa [hc] using ho
    simp only [ho, Bool.false_eq_true, if_false, hsucc]
    split
    · exact ⟨rfl, abs_nonneg _⟩
    · simp [granted, hl]

theorem granted_approved (r : Option RefundComputation) (x : Dec.Column) (hr : 0 ≤ granted r) :
    granted (r.bind (approvedRefund (some x))) = if 0 ≤ x.val ∧ x.val ≤ granted r then x.val else 0 := by
  cases r with
  | none =>
    show (0 : Dec) = if 0 ≤ x.val ∧ x.val ≤ 0 then x.val else 0
    split
    · rename_i hx; exact le_antisymm hx.1 hx.2
    · rfl
  | some r =>
    show granted (if x.val < 0 ∨ r.amount < x.val then none else some { r with amount := x.val }) =
      if 0 ≤ x.val ∧ x.val ≤ r.amount then x.val else 0
    by_cases hx : 0 ≤ x.val ∧ x.val ≤ r.amount
    · rw [if_pos hx, if_neg (by rintro (h | h) <;> linarith [hx.1, hx.2])]
      rfl
    · rw [if_neg hx, if_pos (by by_contra hn; exact hx (by push Not at hn; exact hn))]
      rfl

/-- A refund of a covered change stays within the room, and only then. -/
theorem granted_le_room_iff (h : Books c a) (hw : Within c a) (ho : (!ch.cancellation && ch.ownerSettlement) = false) :
    granted ((refundOwed s a moment ch).bind (approvedRefund approved)) ≤ a.room ↔
      a.due = 0 ∨ askedFor s a moment ch approved ≤ a.room := by
  have hl := h.left_nonneg hw
  obtain ⟨hg, hask⟩ := @granted_refundOwed a c s moment ch h hl ho
  have hdue := h.due_nonneg
  have hroom : 0 ≤ a.room := by rw [Account.room, h.collected_eq]; exact sub_nonneg.2 hw
  have hsplit : a.left = a.room + a.due := by rw [Account.left, Account.room, owed_eq]; ring
  have hg0 : 0 ≤ granted (refundOwed s a moment ch) := by rw [hg]; exact le_min hask hl
  cases approved with
  | none =>
    have hb : (refundOwed s a moment ch).bind (approvedRefund none) = refundOwed s a moment ch := by
      cases refundOwed s a moment ch <;> rfl
    rw [hb, hg, min_le_iff, askedFor, or_comm]
    refine or_congr_left ⟨fun h => ?_, fun h => ?_⟩ <;> linarith
  | some x =>
    rw [granted_approved _ x hg0, hg, askedFor]
    simp only [le_min_iff]
    constructor
    · exact .inr
    · rintro (h0 | h0)
      · split
        · rename_i hx; linarith [hx.2.2]
        · exact hroom
      · exact h0

/-! ### Recording a refund -/

theorem verifiedCollections_eq (h : Books c a) : verifiedCollections a = 0 ∨ verifiedCollections a = c := by
  unfold verifiedCollections
  rcases h.paid with hr | ⟨p, hp, rfl⟩
  · obtain ⟨r, hrow, rfl, hc⟩ := hr.receipt
    right
    simp [hrow, hr.intent, Table.total, Option.filter, hc]
  · obtain ⟨q, hq, hs, -⟩ := hp.row
    rw [hp.receipt, hp.intent, Table.total]
    have hsub : (a.desk.payments.filter fun x => some p.bookingIntent == some x.bookingIntent && collectedStatus x &&
        x.verifiedAt.isSome && x.currency == a.stay.currency) =
        [q].filter fun x => some p.bookingIntent == some x.bookingIntent && x.verifiedAt.isSome &&
          x.currency == a.stay.currency := by
      rw [← hq, List.filter_filter]
      refine List.filter_congr fun x _ => ?_
      cases collectedStatus x <;> simp
    rw [hsub, List.filter_singleton]
    cases some p.bookingIntent == some q.bookingIntent && q.verifiedAt.isSome && q.currency == a.stay.currency
    · left; simp
    · right; simpa using hs.amount

theorem netPaid_le (h : Books c a) (hw : Within c a) : netPaid a ≤ a.left ∧ Dec.Exact 4 (netPaid a) := by
  have hret : Table.total (fun o => outgoing o && o.currency == a.stay.currency) RefundObligation.amount a.obligations =
      a.returned := Table.total_congr fun o ho => by simp [h.currency o ho]
  have hex := exact_total (p := outgoing) h.exact
  have hl := h.left_nonneg hw
  have hrn := h.returned_nonneg
  unfold netPaid
  rw [hret]
  rcases verifiedCollections_eq h with hv | hv <;> rw [hv]
  · exact ⟨max_le (by linarith) hl, (Dec.exact_zero.sub hex).max Dec.exact_zero⟩
  · refine ⟨max_le ?_ hl, (h.collection.1.sub hex).max Dec.exact_zero⟩
    rw [Account.left, h.collected_eq]

/-- The computed refund is in the currency of the stay, fits its column and is no more than what is left. -/
theorem refundOwed_spec (h : Books c a) (hw : Within c a) (hcur : ch.cancellation = false → ch.currency = a.stay.currency)
    {r : RefundComputation} (hr : refundOwed s a moment ch = some r) :
    r.currency = a.stay.currency ∧ Dec.Exact 4 r.amount ∧ r.amount ≤ a.left := by
  have hl := h.left_nonneg hw
  have hsucc := h.successful
  rw [max_eq_left hl] at hsucc
  have hex := h.exact_left
  unfold refundOwed at hr
  split at hr
  · simp only [cancellationRefund, hsucc] at hr
    split at hr
    · split at hr
      · cases hr
      split at hr <;> cases hr
      · exact ⟨rfl, Dec.exact_quantize .., hex.quantize_eq.le⟩
      · exact ⟨rfl, Dec.exact_zero, hl⟩
    · split at hr <;> cases hr
      · rename_i original tier ho _
        obtain rfl := Option.some.inj ho
        exact ⟨rfl, exact_tierRefund .., tierRefund_le _ _ hl hex⟩
      · exact ⟨rfl, Dec.exact_zero, hl⟩
  rename_i hcan
  have hcur := hcur (by simpa using hcan)
  split at hr
  · obtain ⟨hle, hexn⟩ := netPaid_le h hw
    have := ch.nonneg
    split at hr <;> cases hr
    exact ⟨hcur, hexn.sub ch.total.exact, by simp only; linarith⟩
  split at hr
  · rw [hsucc] at hr
    cases hr
    refine ⟨hcur, Dec.Exact.min ?_ hex, min_le_right _ _⟩
    rcases abs_choice ch.priceDifference.val with habs | habs <;> rw [habs]
    · exact ch.priceDifference.exact
    · exact ch.priceDifference.exact.neg
  · cases hr

theorem approvedRefund_spec {r r' : RefundComputation} (h : approvedRefund approved r = some r')
    (hr : Dec.Exact 4 r.amount) : r'.currency = r.currency ∧ Dec.Exact 4 r'.amount ∧ r'.amount ≤ r.amount := by
  cases approved with
  | none => cases h; exact ⟨rfl, hr, le_rfl⟩
  | some x =>
    simp only [approvedRefund] at h
    split at h <;> cases h
    rename_i hx
    exact ⟨rfl, x.exact, not_lt.1 fun h => hx (.inr h)⟩

theorem ByPayment.of_gateway {p : PaymentAttempt} (h : ByPayment a p) {g : Gateway} (hr : g.desk.offlinePaymentReceipt = a.desk.offlinePaymentReceipt)
    (hi : g.desk.bookingIntent = a.desk.bookingIntent) (hp : g.desk.payments = a.desk.payments)
    (ht : a.transferred ≤ { a with gateway := g : Account }.transferred)
    (hs : ∀ (i : ℕ) c, g.calls[i]? = some c → c.isOpen → SameReceipt c.submission.payment p)
    (ho : ∀ o ∈ g.desk.obligations, o.calculation.detail.originalPaymentId = none ∨
      o.calculation.detail.originalPaymentId = p.providerPaymentId) : ByPayment { a with gateway := g } p := by
  obtain ⟨q, hq, hsame, hm, hc, href⟩ := h.row
  refine ⟨?_, hi.trans h.intent, hp ▸ h.keyed, ⟨q, ?_, hsame, hm, hc, fun hst => (href hst).trans ht⟩, hs, ho⟩
  · rw [standaloneReceipt, Account.desk, hr]; exact h.receipt
  · show g.desk.payments.filter collectedStatus = [q]
    rw [hp]; exact hq

theorem Books.changed (h : Books c a) (ch : Change) : Books c { a with stay := changedStay ch a.stay } := by
  refine ⟨h.inFlight, h.nonneg, h.exact, h.currency, ?_, h.collection⟩
  rcases h.paid with hr | ⟨p, hp, hc⟩
  · exact .inl ⟨hr.receipt, hr.intent⟩
  · exact .inr ⟨p, ⟨hp.receipt, hp.intent, hp.keyed, hp.row, hp.snapshot, hp.original⟩, hc⟩

theorem recordObligation_ok {reason : RefundReason} {r : RefundComputation} {m : Uuid} {o : RefundObligation}
    (h : recordObligation a reason r m pk = .ok (some o)) :
    0 < r.amount ∧ o.pk = pk ∧ o.status = .due ∧ o.amount = r.amount ∧ o.currency = r.currency ∧
      o.calculation.hyperpayRefund = none := by
  unfold recordObligation at h
  split at h
  · cases h
  rename_i hpos
  split at h
  · cases h
  cases h
  exact ⟨not_le.1 hpos, rfl, rfl, rfl, rfl, rfl⟩

theorem recordObligation_isOk (hsucc : successfulOriginalPaymentAmount a = some (max a.left 0))
    {r : RefundComputation} (hpos : 0 < r.amount) (hle : r.amount ≤ a.left) (reason : RefundReason) (m pk : Uuid) :
    ∃ o, recordObligation a reason r m pk = .ok (some o) := by
  unfold recordObligation
  rw [if_neg (not_le.2 hpos), if_neg]
  · exact ⟨_, rfl⟩
  · rintro ⟨-, hlt⟩
    rw [hsucc, Option.getD_some] at hlt
    linarith [le_max_left a.left 0]

theorem owed_record (a : Account) {o : RefundObligation} (hs : o.status = .due) :
    (a.record o).owed = a.owed + o.amount := by
  show Table.total _ _ (a.obligations ++ [o]) = _
  rw [Table.total_append, Table.total_cons]
  simp [owed, hs]

theorem Books.record (h : Books c a) {o : RefundObligation} (hpk : a.obligations.any (·.pk == o.pk) = false)
    (hs : o.status = .due) (hpos : 0 < o.amount) (hex : Dec.Exact 4 o.amount) (hcur : o.currency = a.stay.currency)
    (hnew : o.calculation.hyperpayRefund = none) : Books c (a.record o) := by
  have hall : ∀ {P : RefundObligation → Prop}, (∀ o' ∈ a.obligations, P o') → P o →
      ∀ o' ∈ (a.record o).obligations, P o' := by
    intro P h1 h2 o' ho'
    rcases List.mem_append.1 ho' with ho' | ho'
    · exact h1 o' ho'
    · rw [List.mem_singleton.1 ho']; exact h2
  have hrec : Recordable a.gateway.desk o := by
    refine ⟨fun hmem => ?_, hs, hnew⟩
    obtain ⟨o', ho', hpk'⟩ := List.mem_map.1 hmem
    simp only [List.any_eq_false, beq_iff_eq] at hpk
    exact hpk o' ho' hpk'
  have hflight := h.inFlight.step (.record o)
  simp only [Gateway.step, if_pos hrec] at hflight
  refine ⟨hflight, hall h.nonneg hpos.le, hall h.exact hex, hall h.currency hcur, ?_, h.collection⟩
  rcases h.paid with hr | ⟨p, hp, hc⟩
  · exact .inl ⟨hr.receipt, hr.intent⟩
  · refine .inr ⟨p, hp.of_gateway rfl rfl rfl ?_ hp.snapshot (hall hp.original (.inl ?_)), hc⟩
    · show _ ≤ Table.total _ _ (a.obligations ++ [o])
      rw [Table.total_append, Table.total_cons]
      simp [transferred, hs]
    · simp [Calculation.detail, hnew, HyperpayRefund.empty]

theorem due_eq_zero_of_blocker (h : Books c a) (hb : settlementBlocker a = "") : a.due = 0 := by
  unfold settlementBlocker at hb
  split at hb
  · exact absurd hb (by decide)
  split at hb
  · exact absurd hb (by decide)
  rename_i hnone
  simp only [List.any_eq_true, not_exists, not_and, Bool.not_eq_true, Bool.and_eq_false_iff, decide_eq_false_iff_not,
    not_lt] at hnone
  refine le_antisymm ?_ h.due_nonneg
  have : a.due ≤ Table.total (fun _ => false) RefundObligation.amount a.obligations := by
    refine Table.total_le_total fun o ho => ?_
    by_cases hs : o.status = .due
    · rcases hnone o ho with hn | hn
      · simp [hs] at hn
      · simpa [hs] using hn
    · simp [hs]
  exact this.trans (Table.total_eq_zero fun _ _ => rfl).le

theorem complete_eq (a : Account) :
    complete s a moment ch approved pk = if refused a ch pk then a
      else recordRefundIfOwed s { a with stay := changedStay ch a.stay } moment ch approved pk := by
  unfold complete refused
  by_cases h1 : (a.obligations.any (·.pk == pk)) = true <;> simp [h1]

/-- A completed change adds what it grants to what is owed. -/
theorem recordRefundIfOwed_spec (h : Books c a) (hw : Within c a) (hpk : a.obligations.any (·.pk == pk) = false)
    (hcur : ch.cancellation = false → ch.currency = a.stay.currency) :
    Books c (recordRefundIfOwed s a moment ch approved pk) ∧
      (recordRefundIfOwed s a moment ch approved pk).owed =
        a.owed + max (granted ((refundOwed s a moment ch).bind (approvedRefund approved))) 0 := by
  unfold recordRefundIfOwed
  cases hb : (refundOwed s a moment ch).bind (approvedRefund approved) with
  | none => exact ⟨h, by simp [granted]⟩
  | some r =>
    obtain ⟨r₀, hr₀, hr⟩ := Option.bind_eq_some_iff.1 hb
    obtain ⟨hcur₀, hex₀, hle₀⟩ := refundOwed_spec h hw hcur hr₀
    obtain ⟨hcur', hex, hle⟩ := approvedRefund_spec hr hex₀
    simp only [granted, Option.elim_some]
    by_cases hpos : 0 < r.amount
    · obtain ⟨o, ho⟩ := recordObligation_isOk h.successful hpos (hle.trans hle₀)
        (if ch.cancellation then .cancellation else .modificationDecrease) ch.pk pk
      obtain ⟨-, hopk, hs, ham, hocur, hnew⟩ := recordObligation_ok ho
      rw [ho]
      refine ⟨h.record (by rwa [hopk]) hs (by rwa [ham]) (by rwa [ham]) (by rw [hocur, hcur', hcur₀]) hnew, ?_⟩
      show (a.record o).owed = _
      rw [owed_record a hs, ham, max_eq_left hpos.le]
    · have hzero : recordObligation a (if ch.cancellation then .cancellation else .modificationDecrease) r ch.pk pk =
          .ok none := by rw [recordObligation, if_pos (not_lt.1 hpos)]
      rw [hzero, max_eq_right (not_lt.1 hpos)]
      exact ⟨h, (add_zero _).symm⟩

/-- The completion of a change keeps the collection long exactly when it is covered. -/
theorem complete_spec (h : Books c a) (hw : Within c a) :
    Books c (complete s a moment ch approved pk) ∧
      (Covered a (.complete s moment ch approved pk) ↔ Within c (complete s a moment ch approved pk)) := by
  rw [complete_eq]
  simp only [Covered]
  cases hr : refused a ch pk with
  | true => simp only [if_true, true_or, true_iff]; exact ⟨h, hw⟩
  | false =>
    simp only [refused, Bool.or_eq_false_iff, Bool.and_eq_false_iff, Bool.not_eq_false', bne_eq_false_iff_eq] at hr
    obtain ⟨hpk, hopen⟩ := hr
    have h' := h.changed ch
    have hw' : Within c { a with stay := changedStay ch a.stay } := hw
    have hcur : ch.cancellation = false → ch.currency = a.stay.currency := by
      intro hc
      rcases hopen with hc' | hc'
      · rw [hc] at hc'; cases hc'
      · exact hc'.1
    obtain ⟨hbooks, howed⟩ := @recordRefundIfOwed_spec _ c s moment ch approved pk h' hw' hpk hcur
    simp only [Bool.false_eq_true, if_false, false_or]
    refine ⟨hbooks, ?_⟩
    have hroom : Account.room { a with stay := changedStay ch a.stay } = c - a.owed := by
      rw [Account.room, h'.collected_eq]; rfl
    have hroom' : a.room = c - a.owed := by rw [Account.room, h.collected_eq]
    rw [Within, howed]
    show _ ↔ a.owed + _ ≤ c
    by_cases ho : (!ch.cancellation && ch.ownerSettlement) = true
    · -- an owner's settlement is only reached while nothing is due
      simp only [ho, true_or, true_iff]
      have hdue : a.due = 0 := by
        refine due_eq_zero_of_blocker h ?_
        simp only [Bool.and_eq_true, Bool.not_eq_true'] at ho
        rcases hopen with hc' | hc'
        · rw [ho.1] at hc'; cases hc'
        · simpa [ho.2] using hc'.2
      have hle : granted ((refundOwed s { a with stay := changedStay ch a.stay } moment ch).bind
          (approvedRefund approved)) ≤ Account.left { a with stay := changedStay ch a.stay } := by
        cases hb : (refundOwed s { a with stay := changedStay ch a.stay } moment ch).bind (approvedRefund approved) with
        | none => exact h'.left_nonneg hw'
        | some r =>
          obtain ⟨r₀, hr₀, hr⟩ := Option.bind_eq_some_iff.1 hb
          obtain ⟨-, hex₀, hle₀⟩ := refundOwed_spec h' hw' hcur hr₀
          exact (approvedRefund_spec hr hex₀).2.2.trans hle₀
      have hleft : Account.left { a with stay := changedStay ch a.stay } = c - a.returned := by
        rw [Account.left, h'.collected_eq]; rfl
      have := owed_eq a
      rcases max_cases (granted ((refundOwed s { a with stay := changedStay ch a.stay } moment ch).bind
          (approvedRefund approved))) 0 with hm | hm <;> rw [Within] at hw <;> linarith
    · rw [Bool.not_eq_true] at ho
      simp only [ho, Bool.false_eq_true, false_or]
      have hiff := @granted_le_room_iff _ c s moment ch approved h' hw' ho
      rw [hroom] at hiff
      rw [hroom', show a.due = Account.due { a with stay := changedStay ch a.stay } from rfl, ← hiff, le_sub_iff_add_le']
      rw [Within] at hw
      rcases max_cases (granted ((refundOwed s { a with stay := changedStay ch a.stay } moment ch).bind
          (approvedRefund approved))) 0 with hm | hm
      · rw [hm.1]
      · rw [hm.1]
        constructor <;> intro <;> linarith [hm.2]

/-! ### Moving a recorded refund -/

/-- Rewriting one obligation without raising it; only one that is still open changes. -/
structure RowStep (a : Account) (pk : Uuid) (f : RefundObligation → RefundObligation) (o : RefundObligation) : Prop where
  row : a.desk.obligation pk = some o
  key : ∀ o', (f o').pk = o'.pk
  moving : f o = o ∨ o.status = .due ∨ o.status = .processing
  currency : (f o).currency = o.currency
  nonneg : 0 ≤ (f o).amount
  le : (f o).amount ≤ o.amount
  exact : Dec.Exact 4 (f o).amount

variable {f : RefundObligation → RefundObligation} {o : RefundObligation} {g : Gateway}

theorem RowStep.mem (hr : RowStep a pk f o) (h : Books c a) (hd : g.desk = a.desk.modifyObligation pk f) :
    ∀ o' ∈ g.desk.obligations, o' = f o ∨ o' ∈ a.obligations := by
  rw [hd]
  intro o' ho'
  obtain ⟨b, hb, rfl⟩ := Table.mem_modify.1 ho'
  split
  · rename_i hk
    refine .inl (congrArg f (Table.eq_of_mem_of_key h.inFlight.keyed hb (Desk.obligation_mem hr.row) ?_))
    rw [hk, Desk.obligation_pk hr.row]
  · exact .inr hb

/-- The total over a status test after a row step. -/
theorem RowStep.total (hr : RowStep a pk f o) (h : Books c a) (hd : g.desk = a.desk.modifyObligation pk f)
    (φ : RefundObligation → Bool) :
    Table.total φ RefundObligation.amount g.desk.obligations =
      Table.total φ RefundObligation.amount a.obligations - (if φ o then o.amount else 0) +
        if φ (f o) then (f o).amount else 0 := by
  rw [hd]
  exact Table.total_modify h.inFlight.keyed hr.row

theorem RowStep.owed_le (hr : RowStep a pk f o) (h : Books c a) (hd : g.desk = a.desk.modifyObligation pk f) :
    { a with gateway := g : Account }.owed ≤ a.owed := by
  have ht := hr.total h hd fun o => o.status != .cancelled
  have ho := h.nonneg o (Desk.obligation_mem hr.row)
  show Table.total _ _ g.desk.obligations ≤ Table.total _ _ a.obligations
  rw [ht]
  rcases hr.moving with hs | hs | hs
  · rw [hs]; linarith
  all_goals
    rw [if_pos (by simp [hs])]
    split <;> linarith [hr.le, hr.nonneg]

theorem RowStep.transferred_le (hr : RowStep a pk f o) (h : Books c a) (hd : g.desk = a.desk.modifyObligation pk f) :
    a.transferred ≤ { a with gateway := g : Account }.transferred := by
  have ht := hr.total h hd fun o => o.status == .transferred
  show Table.total _ _ a.obligations ≤ Table.total _ _ g.desk.obligations
  rw [ht]
  rcases hr.moving with hs | hs | hs
  · rw [hs]; linarith
  all_goals
    rw [if_neg (by simp [hs])]
    split <;> linarith [hr.nonneg]

/-- The books after a row step of the gateway or the desk. -/
theorem RowStep.books (hr : RowStep a pk f o) (h : Books c a) (hd : g.desk = a.desk.modifyObligation pk f)
    (hin : InFlight g)
    (hsnap : ∀ p, ByPayment a p → ∀ (i : ℕ) c, g.calls[i]? = some c → c.isOpen → SameReceipt c.submission.payment p)
    (horig : ∀ p, ByPayment a p → (f o).calculation.detail.originalPaymentId = o.calculation.detail.originalPaymentId ∨
      (f o).calculation.detail.originalPaymentId = p.providerPaymentId) :
    Books c { a with gateway := g } := by
  have hmem := hr.mem h hd
  have hall : ∀ {P : RefundObligation → Prop}, (∀ o' ∈ a.obligations, P o') → P (f o) → ∀ o' ∈ g.desk.obligations, P o' := by
    intro P h1 h2 o' ho'
    rcases hmem o' ho' with rfl | ho'
    · exact h2
    · exact h1 o' ho'
  have homem := Desk.obligation_mem hr.row
  have hcur : (f o).currency = a.stay.currency := hr.currency.trans (h.currency o homem)
  refine ⟨hin, hall h.nonneg hr.nonneg, hall h.exact hr.exact, hall h.currency hcur, ?_, h.collection⟩
  have hreceipt : g.desk.offlinePaymentReceipt = a.desk.offlinePaymentReceipt := by rw [hd]; rfl
  have hintent : g.desk.bookingIntent = a.desk.bookingIntent := by rw [hd]; rfl
  rcases h.paid with hp | ⟨p, hp, hc⟩
  · refine .inl ⟨?_, hintent.trans hp.intent⟩
    obtain ⟨r, hrow, hrest⟩ := hp.receipt
    exact ⟨r, by rw [standaloneReceipt, Account.desk, hreceipt]; exact hrow, hrest⟩
  · refine .inr ⟨p, hp.of_gateway hreceipt hintent (by rw [hd]; rfl) (hr.transferred_le h hd) (hsnap p hp)
      (hall hp.original ?_), hc⟩
    rcases horig p hp with ho | ho
    · rw [ho]; exact hp.original o homem
    · exact .inr ho

/-- A desk action leaves the refunds that the gateway has in hand alone. -/
theorem desk_books (h : Books c a) (hkey : ∀ o, (f o).pk = o.pk) (hdue : ∀ o, o.status ≠ .due → f o = o)
    (hcur : ∀ o, (f o).currency = o.currency) (hamount : ∀ o, 0 ≤ o.amount → 0 ≤ (f o).amount ∧ (f o).amount ≤ o.amount)
    (hex : ∀ o, Dec.Exact 4 o.amount → Dec.Exact 4 (f o).amount)
    (horig : ∀ o, (f o).calculation.detail.originalPaymentId = o.calculation.detail.originalPaymentId) :
    Books c (a.modify pk f) ∧ (a.modify pk f).owed ≤ a.owed := by
  cases ho : a.desk.obligation pk with
  | none =>
    have : a.modify pk f = a := by
      show { a with gateway.desk := a.desk.modifyObligation pk f } = a
      rw [Desk.modifyObligation, Table.modify_of_get_none ho]
      rfl
    rw [this]
    exact ⟨h, le_rfl⟩
  | some o =>
    have hmem := Desk.obligation_mem ho
    have hr : RowStep a pk f o := by
      obtain ⟨h0, hle⟩ := hamount o (h.nonneg o hmem)
      refine ⟨ho, hkey, ?_, hcur o, h0, hle, hex o (h.exact o hmem)⟩
      by_cases hs : o.status = .due
      · exact .inr (.inl hs)
      · exact .inl (hdue o hs)
    have hin : InFlight { a.gateway with desk := a.desk.modifyObligation pk f } := by
      refine h.inFlight.frame ?_ fun i call hc hopen => ⟨call, hc, hopen, rfl, ?_⟩
      · rw [Desk.pks_modifyObligation hkey]; exact h.inFlight.keyed
      by_cases hk : call.refundId = pk
      · obtain ⟨o', ho'⟩ := h.inFlight.processing i call hc hopen
        have hrow : a.desk.obligation pk = some o' := hk ▸ ho'.row
        rw [hk, Desk.obligation_modify_self hkey hrow, hdue o' (by rw [ho'.status]; rintro ⟨⟩)]
        exact hrow.symm
      · exact Desk.obligation_modify_ne hkey hk
    exact ⟨hr.books h rfl hin (fun p hp => hp.snapshot) fun _ _ => .inl (horig o),
      hr.owed_le h (g := { a.gateway with desk := a.desk.modifyObligation pk f }) rfl⟩

theorem Books.calls (h : Books c a) (hd : g.desk = a.desk) (hin : InFlight g)
    (hsnap : ∀ p, ByPayment a p → ∀ (i : ℕ) c, g.calls[i]? = some c → c.isOpen → SameReceipt c.submission.payment p) :
    Books c { a with gateway := g } := by
  have ho : g.desk.obligations = a.obligations := by rw [hd]; rfl
  refine ⟨hin, ?_, ?_, ?_, ?_, h.collection⟩
  · show ∀ o ∈ g.desk.obligations, _
    rw [ho]; exact h.nonneg
  · show ∀ o ∈ g.desk.obligations, _
    rw [ho]; exact h.exact
  · show ∀ o ∈ g.desk.obligations, _
    rw [ho]; exact h.currency
  rcases h.paid with hp | ⟨p, hp, hc⟩
  · refine .inl ⟨?_, (congrArg Desk.bookingIntent hd).trans hp.intent⟩
    obtain ⟨r, hrow, hrest⟩ := hp.receipt
    exact ⟨r, by rw [standaloneReceipt, Account.desk, hd]; exact hrow, hrest⟩
  · refine .inr ⟨p, hp.of_gateway (by rw [hd]) (by rw [hd]) (by rw [hd]) ?_ (hsnap p hp) ?_, hc⟩
    · show Table.total _ _ _ ≤ Table.total _ _ g.desk.obligations
      rw [ho]
    · rw [ho]; exact hp.original

/-- The payment takes another status of a collection, `REFUNDED` only when all of it has been transferred back. -/
theorem Books.setStatus (h : Books c a) {status : PaymentStatus}
    (hstatus : status = .refunded ∨ status = .partiallyRefunded)
    (hpk : ∀ p, ByPayment a p → pk = p.pk ∧ (status = .refunded → p.amount ≤ a.transferred)) :
    Books c { a with gateway.desk := a.desk.setPaymentStatus pk status } := by
  have hin : InFlight { a.gateway with desk := a.desk.setPaymentStatus pk status } :=
    h.inFlight.frame h.inFlight.keyed fun i c hc ho => ⟨c, hc, ho, rfl, rfl⟩
  refine ⟨hin, h.nonneg, h.exact, h.currency, ?_, h.collection⟩
  rcases h.paid with hp | ⟨p, hp, hc⟩
  · exact .inl ⟨hp.receipt, hp.intent⟩
  obtain ⟨rfl, href⟩ := hpk p hp
  obtain ⟨q, hq, hs, hm, hcur, -⟩ := hp.row
  refine .inr ⟨p, ⟨hp.receipt, hp.intent, ?_, ⟨{ q with status := status }, ?_, ?_, hm, hcur, href⟩, hp.snapshot,
    hp.original⟩, hc⟩
  · show ((a.desk.setPaymentStatus p.pk status).payments.map (·.pk)).Nodup
    rw [Desk.setPaymentStatus, Desk.pks_modifyPayment fun _ => by rfl]
    exact hp.keyed
  · have hqmem := List.mem_filter.1 (hq ▸ List.mem_singleton_self q)
    -- the payment that was collected is the one that is rewritten
    have hself : ∀ x ∈ a.desk.payments, x.pk = p.pk → x = q := fun x hx hxp =>
      Table.eq_of_mem_of_key hp.keyed hx hqmem.1 (hxp.trans hs.pk.symm)
    show ((a.desk.setPaymentStatus p.pk status).payments.filter collectedStatus) = _
    simp only [Desk.setPaymentStatus, Desk.modifyPayment, Table.modify, List.filter_map]
    have hcongr : a.desk.payments.filter (collectedStatus ∘ fun x => if x.pk = p.pk then { x with status := status } else x) =
        [q] := by
      rw [← hq]
      refine List.filter_congr fun x hx => ?_
      by_cases hxp : x.pk = p.pk
      · rw [hself x hx hxp, hqmem.2]
        rcases hstatus with hst | hst <;> simp [hs.pk, collectedStatus, hst]
      · simp [hxp]
    rw [hcongr]
    simp [hs.pk]
  · exact ⟨hs.pk, hs.providerPaymentId, hs.amount, hs.bookingIntent⟩

theorem RowStep.of_edits {st : RefundStatus → RefundStatus} {sub : Submission} (h : Books c a)
    (hp : Processing a.desk sub o) (hf : Edits f st) : RowStep a sub.refund.pk f o := by
  have hmem := Desk.obligation_mem hp.row
  refine ⟨hp.row, hf.pk, .inr (.inr hp.status), hf.currency o, ?_, (hf.amount o).le, ?_⟩ <;> rw [hf.amount]
  · exact h.nonneg o hmem
  · exact h.exact o hmem

/-- Closing call `i` over a row step of its obligation. -/
theorem Books.close (h : Books c a) {i : ℕ} {sub : Submission} {call : Call} {st : RefundStatus → RefundStatus}
    (hc : ¬ call.isOpen) (hp : Processing a.desk sub o) (hf : Edits f st) (hg : g.desk = a.desk.modifyObligation sub.refund.pk f)
    (hcalls : g.calls = a.gateway.calls.set i call) (hin : InFlight g) :
    Books c { a with gateway := g } ∧ { a with gateway := g : Account }.owed ≤ a.owed := by
  have hr := RowStep.of_edits h hp hf
  refine ⟨hr.books h hg hin (fun p hp j c' hj hopen => ?_) fun _ _ => .inl (hf.original o), hr.owed_le h hg⟩
  rw [hcalls] at hj
  exact hp.snapshot j c' (open_of_set hc hj hopen).2 hopen

theorem totalConfirmed_le (h : Books c a) (p : PaymentAttempt) : totalConfirmed a.desk p ≤ a.transferred := by
  unfold totalConfirmed
  split
  · refine Table.total_le_total fun o ho => ?_
    have := h.nonneg o ho
    by_cases hs : o.status = .transferred
    · simp only [hs, beq_self_eq_true, Bool.true_and, if_true]
      split <;> linarith
    · simp [hs]
  · exact Table.total_nonneg fun o ho _ => h.nonneg o ho

theorem ByPayment.unique {a' : Account} {p p' : PaymentAttempt} (h : ByPayment a p) (h' : ByPayment a' p')
    (hp : a'.desk.payments = a.desk.payments) : SameReceipt p p' := by
  obtain ⟨q, hq, hs, -⟩ := h.row
  obtain ⟨q', hq', hs', -⟩ := h'.row
  rw [hp, hq, List.singleton_inj] at hq'
  subst hq'
  exact ⟨hs.pk.symm.trans hs'.pk, hs.providerPaymentId.symm.trans hs'.providerPaymentId, hs.amount.symm.trans hs'.amount,
    hs.bookingIntent.symm.trans hs'.bookingIntent⟩

theorem gateway_books (h : Books c a) {action : HyperPay.Action} (hcall : isRefundCall action) :
    Books c { a with gateway := a.gateway.step action } ∧
      { a with gateway := a.gateway.step action : Account }.owed ≤ a.owed := by
  have hin := h.inFlight.step action
  have hm := Gateway.step_move a.gateway action
  generalize a.gateway.step action = g at hin hm ⊢
  cases hm with
  | stay => exact ⟨h, le_rfl⟩
  | @submitted settings refundId now o p' amount hprep ha =>
    have hp := prepare_eq_ok hprep
    have hrow : a.desk.obligation o.pk = some o := by rw [Desk.obligation_pk hp.row]; exact hp.row
    have hmem := Desk.obligation_mem hrow
    have hr : RowStep a o.pk (submittedRow now o p') o :=
      ⟨hrow, fun _ => rfl, .inr (.inl hp.due), rfl, h.nonneg o hmem, le_rfl, h.exact o hmem⟩
    -- the payment it was checked against is the collection
    have hsame : ∀ p, ByPayment a p → SameReceipt p' p := by
      intro p hby
      obtain ⟨q, hq, hs, -⟩ := hby.row
      have hcol : collectedStatus p' = true := by
        have := hp.refundable
        simp only [refundable, Bool.or_eq_true] at this
        simp only [collectedStatus, Bool.or_eq_true]
        exact .inl this
      have : p' ∈ a.desk.payments.filter collectedStatus := List.mem_filter.2 ⟨hp.payment, hcol⟩
      rw [hq, List.mem_singleton] at this
      exact this ▸ hs
    refine ⟨hr.books h rfl hin (fun p hby j c' hj hopen => ?_) fun p hby => .inr (hsame p hby).providerPaymentId,
      hr.owed_le h rfl⟩
    rcases getElem?_concat hj with hj | ⟨-, rfl⟩
    · exact hby.snapshot j c' hj hopen
    · exact hsame p hby
  | @sent i now sub hi =>
    refine ⟨h.calls rfl hin fun p hby j c' hj hopen => ?_, le_rfl⟩
    rw [List.getElem?_set] at hj
    split at hj
    · split at hj
      · cases hj; exact hby.snapshot i ⟨sub, .prepared⟩ hi (.inl rfl)
      · cases hj
    · exact hby.snapshot j c' hj hopen
  | @unsent i now sub hi =>
    obtain ⟨o, ho⟩ := h.inFlight.processing i _ hi (.inl rfl)
    exact h.close (not_isOpen_notSent sub) ho (.restoreDue _ _) rfl rfl hin
  | @answered i reply operator now sub hi =>
    obtain ⟨o, ho⟩ := h.inFlight.processing i _ hi (.inr rfl)
    have hs := settle_settled ho.row reply operator now
    have hno := not_isOpen_answered sub reply
    generalize (settle sub reply operator now a.gateway.desk).1 = d at hs hin ⊢
    cases hs with
    | noted _ _ hf => exact h.close hno ho hf rfl rfl hin
    | returned _ hf => exact h.close hno ho hf rfl rfl hin
    | @confirmed f _ _ hf =>
      have hin' := h.inFlight.close (d := a.desk.modifyObligation sub.refund.pk f) hi (.inr rfl) hno hf.pk rfl
      obtain ⟨hb, hle⟩ := h.close hno ho hf rfl rfl hin'
      refine ⟨hb.setStatus ?_ fun p hby => ?_, hle⟩
      · unfold refundedStatus; split <;> simp
      -- the call was opened against the collection
      obtain ⟨p₀, hp₀⟩ : ∃ p₀, ByPayment a p₀ := by
        rcases h.paid with hr | ⟨p₀, hp₀, -⟩
        · obtain ⟨r, hr, -⟩ := hr.receipt
          exact absurd (hr.symm.trans hby.receipt) nofun
        · exact ⟨p₀, hp₀⟩
      have hsub := hp₀.snapshot i ⟨sub, .sent⟩ hi (.inr rfl)
      have hsame := hp₀.unique hby rfl
      refine ⟨hsub.pk.trans hsame.pk, fun hst => ?_⟩
      have hconf := totalConfirmed_le hb sub.payment
      unfold refundedStatus at hst
      split at hst
      · rename_i hle
        rw [← hsame.amount, ← hsub.amount]
        exact hle.trans hconf
      · cases hst
  | recorded | completed | asked | dropped | processed => cases hcall

/-! ### Runs -/

theorem step_spec (h : Books c a) (hw : Within c a) (action : Action) :
    Books c (a.step action) ∧ (Covered a action ↔ Within c (a.step action)) := by
  have hmove : ∀ {a' : Account}, Books c a' ∧ a'.owed ≤ a.owed → Books c a' ∧ (True ↔ Within c a') :=
    fun h' => ⟨h'.1, iff_of_true trivial (h'.2.trans hw)⟩
  cases action with
  | complete s moment ch approved pk => exact complete_spec h hw
  | approveAmount pk amount =>
    refine hmove (desk_books h (fun o => ?_) (fun o hs => ?_) (fun o => ?_) (fun o ho => ?_) (fun o ho => ?_) fun o => ?_)
    · unfold approveAmount; split <;> rfl
    · rw [approveAmount, if_neg fun h => hs h.1]
    · unfold approveAmount; split <;> rfl
    · unfold approveAmount
      split
      · rename_i h; exact h.2
      · exact ⟨ho, le_rfl⟩
    · unfold approveAmount
      split
      · exact amount.exact
      · exact ho
    · unfold approveAmount; split <;> rfl
  | markTransferred pk reference now operator =>
    refine hmove (desk_books h (fun o => ?_) (fun o hs => ?_) (fun o => ?_) (fun o ho => ?_) (fun o ho => ?_) fun o => ?_)
    · unfold markTransferred; split <;> rfl
    · rw [markTransferred, if_neg fun h => hs h.1]
    · unfold markTransferred; split <;> rfl
    · unfold markTransferred; split <;> exact ⟨ho, le_rfl⟩
    · unfold markTransferred; split <;> exact ho
    · unfold markTransferred; split <;> rfl
  | closeWithoutTransfer pk =>
    refine hmove (desk_books h (fun o => ?_) (fun o hs => ?_) (fun o => ?_) (fun o ho => ?_) (fun o ho => ?_) fun o => ?_)
    · unfold closeWithoutTransfer; split <;> rfl
    · rw [closeWithoutTransfer, if_neg fun h => hs h.1]
    · unfold closeWithoutTransfer; split <;> rfl
    · unfold closeWithoutTransfer; split <;> exact ⟨ho, le_rfl⟩
    · unfold closeWithoutTransfer; split <;> exact ho
    · unfold closeWithoutTransfer; split <;> rfl
  | gateway action =>
    refine hmove ?_
    simp only [Account.step]
    split
    · exact gateway_books h (by assumption)
    · exact ⟨h, le_rfl⟩

/-- A booking that was paid once, by a receipt or by one payment attempt, before anything is refunded. -/
structure PaidOnce (a : Account) : Prop where
  noCalls : a.gateway.calls = []
  noObligations : a.obligations = []
  exact : Dec.Exact 4 a.collected
  nonneg : 0 ≤ a.collected
  keyed : (a.desk.payments.map (·.pk)).Nodup
  paid : (∃ r, standaloneReceipt a = some r ∧ r.currency = a.stay.currency ∧ a.desk.bookingIntent = none) ∨
    standaloneReceipt a = none ∧ ∃ p, a.desk.payments.filter collectedStatus = [p] ∧ p.status = .succeeded ∧
      a.desk.bookingIntent = some p.bookingIntent ∧ p.modificationRequest = none ∧ p.currency = a.stay.currency

theorem PaidOnce.books (h : PaidOnce a) : Books a.collected a := by
  have hin : InFlight a.gateway := by
    refine ⟨?_, by simp [h.noCalls], by simp [h.noCalls]⟩
    rw [show a.gateway.desk.obligations = [] from h.noObligations]
    exact List.nodup_nil
  refine ⟨hin, by simp [h.noObligations], by simp [h.noObligations], by simp [h.noObligations], ?_, h.exact, h.nonneg⟩
  rcases h.paid with ⟨r, hr, hc, hi⟩ | ⟨hr, p, hp, hs, hi, hm, hc⟩
  · exact .inl ⟨⟨r, hr, by simp [Account.collected, hr], hc⟩, hi⟩
  · refine .inr ⟨p, ⟨hr, hi, h.keyed, ⟨p, hp, ⟨rfl, rfl, rfl, rfl⟩, hm, hc, ?_⟩, ?_, ?_⟩, ?_⟩
    · rw [hs]; nofun
    · simp [h.noCalls]
    · simp [h.noObligations]
    · rw [Account.collected, hr, hi]
      show _ = (originalPayment a p.bookingIntent).elim 0 _
      rw [originalPayment_eq hp rfl hm hc]
      rfl

open Machine in
/-- What is owed for a booking that was paid once stays within the collection throughout a run exactly when every
refund of the run is covered as it is recorded. -/
theorem owed_within_collected {a : Account} (h : PaidOnce a) (as : List Action) :
    Meets Account.step Covered a as ↔ ∀ n, (run Account.step a (as.take n)).owed ≤ a.collected := by
  have hzero : a.owed = 0 := by rw [Account.owed, h.noObligations]; rfl
  refine meets_iff (I := Books a.collected) (J := Within a.collected) (fun a action h hw => (step_spec h hw action).1)
    (fun a action h hw => (step_spec h hw action).2) h.books ?_
  rw [Within, hzero]
  exact h.nonneg

/-! ### A price decrease and a cancellation -/

def stayOf100 : Stay := ⟨100, "SAR", some "flexible", 1000000, none⟩

def paidAccount : Account := ⟨stayOf100, ⟨⟨some bookingPk, none, [cardPayment], []⟩, [], [], []⟩⟩

def flexibleSettings : Settings := ⟨true, []⟩

def changePk : Uuid := ⟨"5b0e7c1a-1f60-4f0e-9a51-0d5d7c2f1a11", rfl⟩

def cancellationPk : Uuid := ⟨"5b0e7c1a-1f60-4f0e-9a51-0d5d7c2f1a12", rfl⟩

def cancellationRefundPk : Uuid := ⟨"5b0e7c1a-1f60-4f0e-9a51-0d5d7c2f1a13", rfl⟩

/-- The stay is shortened to 70. -/
def decrease : Change where
  pk := changePk
  cancellation := false
  total := ⟨70, 700000, by norm_num⟩
  nonneg := by norm_num
  arrival := 1000000
  priceDifference := ⟨-30, -300000, by norm_num⟩
  currency := "SAR"
  ownerSettlement := false

def fullCancellation : Change where
  pk := cancellationPk
  cancellation := true
  total := ⟨70, 700000, by norm_num⟩
  nonneg := by norm_num
  arrival := 1000000
  priceDifference := ⟨0, 0, by norm_num⟩
  currency := "SAR"
  ownerSettlement := false

theorem paidAccount_paidOnce : PaidOnce paidAccount where
  noCalls := rfl
  noObligations := rfl
  exact := ⟨1000000, by decide +kernel⟩
  nonneg := by decide +kernel
  keyed := by decide
  paid := .inr ⟨rfl, cardPayment, rfl, rfl, rfl, rfl, rfl⟩

/-- The refund of the decrease is transferred before the booking is cancelled. -/
def settledRun : List Action :=
  [.complete flexibleSettings 10 decrease none refundPk, .markTransferred refundPk "T-1" 20 1,
   .complete flexibleSettings 30 fullCancellation none cancellationRefundPk]

theorem owed_within_collected_settled :
    (Machine.run Account.step paidAccount settledRun).owed = 100 ∧
      (Machine.run Account.step paidAccount settledRun).owed ≤ paidAccount.collected :=
  have hcovered : Machine.Meets Account.step Covered paidAccount settledRun := by decide +kernel
  ⟨by decide +kernel, (owed_within_collected paidAccount_paidOnce settledRun).1 hcovered 3⟩

/-- It is still due when the booking is cancelled, and the whole collection is owed again. -/
theorem due_refund_owed_twice :
    paidAccount.collected = 100 ∧
      (Machine.run Account.step paidAccount
        [.complete flexibleSettings 10 decrease none refundPk,
         .complete flexibleSettings 30 fullCancellation none cancellationRefundPk]).owed = 130 := by
  decide +kernel

end Apartments.Refunds
