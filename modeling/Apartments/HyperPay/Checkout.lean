import Apartments.HyperPay.Gateway
import Apartments.Reservations.Expiration

/-!
# Checkouts of a booking intent (`payments/hyperpay/service.py`)

`Purchase` is one booking intent with its payment attempts and the calls of `create_checkout` and `verify` on it. Each
event of a visit is one transaction or one unlocked statement; a visit that crashes has no further events, so the
attempt and the intent, which are written by two transactions, may differ for ever. `opened` logs for every checkout
that was asked of the gateway the statuses the other attempts had then.
-/

namespace Apartments.Checkout

open Payments HyperPay Expiration

/-- The keys of the gateway's answer that `create_checkout` reads. -/
structure Answer where
  id : Json
  integrity : Json
  code : Json
deriving DecidableEq

def checkoutIdChar (c : Char) : Bool := c.isAlphanum || c == '.' || c == '_' || c == '-'

/-- `[A-Za-z0-9._-]{8,255}`. -/
def validCheckoutId (s : String) : Bool := decide (8 ≤ s.length ∧ s.length ≤ 255) && s.toList.all checkoutIdChar

def base64Char (c : Char) : Bool := c.isAlphanum || c == '+' || c == '/' || c == '='

/-- `sha(?:256|384|512)-[A-Za-z0-9+/=]+`. -/
def validIntegrity (s : String) : Bool :=
  ["sha256-", "sha384-", "sha512-"].any fun algorithm =>
    algorithm.toList.isPrefixOf s.toList && decide (algorithm.length < s.length) &&
      (s.toList.drop algorithm.length).all base64Char

/-- The checkout id of an answer that `create_checkout` accepts. -/
def Answer.checkoutId (a : Answer) : Option String :=
  match a.id, a.integrity with
  | .text id, .text integrity =>
    if validCheckoutId id && validIntegrity integrity && mapResultCode a.code == .pending then some id else none
  | _, _ => none

/-- What the transaction of `create_checkout` finds around the intent, the row it makes and the answer of the gateway;
`none` when the client raises. -/
structure Offer where
  now : Time
  morningStay : Bool
  snapshotValid : Bool
  cashDue : Option Dec
  pk : Uuid
  merchantTransactionId : String
  payload : Bool
  answer : Option Answer
deriving DecidableEq

/-- The answer of `_revalidate_booking_intent`. -/
inductive Availability
  | available | unavailable | priceChanged
deriving DecidableEq, Repr

inductive Stage
  | revalidating
  | paying
  | asking (attempt : Uuid)
  | recording (attempt : Uuid)
  | done
deriving DecidableEq

inductive Event
  | revalidate (answer : Availability)
  | pay (offer : Offer)
  | document (settings : Settings) (document : Document) (now : Time)
  | record
deriving DecidableEq

/-- `widgets` are the attempts that have a `widget_integrity`. -/
structure Purchase where
  intent : BookingIntent
  desk : Desk
  widgets : List Uuid
  visits : List Stage
  opened : List (List PaymentStatus)
deriving DecidableEq

inductive Action
  | checkout (revalidates : Bool)
  | verify (attempt : Uuid)
  | visit (i : ℕ) (event : Event)
deriving DecidableEq

/-- `filter(pk=.., status=AWAITING_PAYMENT).update(status=..)`. -/
def moveAwaiting (status : IntentStatus) (i : BookingIntent) : BookingIntent :=
  if i.status = .awaitingPayment then { i with status := status } else i

/-- The checks of the locked intent. -/
def payable (i : BookingIntent) (o : Offer) : Bool :=
  !o.morningStay && i.status == .awaitingPayment && decide (o.now < i.expiresAt) && o.snapshotValid &&
    o.cashDue.any (0 < ·)

/-- The attempt that waits for the guest. -/
def existing (d : Desk) (intent : Uuid) : Option PaymentAttempt :=
  Table.first (fun p q => q.createdAt < p.createdAt) <| d.payments.filter fun p =>
    p.bookingIntent == intent && p.provider == hyperpayProvider && (p.status == .created || p.status == .pending) &&
      p.providerCheckoutId != some ""

/-- The attempt of a new checkout. -/
def newAttempt (intent : Uuid) (o : Offer) (amount : Dec) (checkoutId : String) (code : Json) : PaymentAttempt where
  pk := o.pk
  bookingIntent := intent
  paymentRequest := none
  modificationRequest := none
  provider := hyperpayProvider
  providerCheckoutId := some checkoutId
  providerPaymentId := none
  merchantTransactionId := some o.merchantTransactionId
  providerResultCode := code.safeText 100
  providerResultDescription := ""
  amount := amount
  currency := "SAR"
  status := .pending
  failureCode := ""
  paymentBrand := ""
  verifiedAt := none
  createdAt := o.now

namespace Purchase

def stay (t : Purchase) (i : ℕ) (stage : Stage) : Purchase := { t with visits := t.visits.set i stage }

/-- The existing attempt has a session to return to; one of another amount raises, and opens nothing either. -/
def reuses (t : Purchase) : Bool :=
  (existing t.desk t.intent.pk).any fun p => p.providerCheckoutId.isSome && t.widgets.contains p.pk

/-- The transaction of `create_checkout` asks the gateway for a checkout. -/
def opens (t : Purchase) (o : Offer) : Bool :=
  payable t.intent o && !t.reuses && !t.desk.payments.any (·.pk == o.pk) && o.payload

/-- The transaction of `create_checkout`. -/
def pay (t : Purchase) (i : ℕ) (o : Offer) : Purchase :=
  if !t.opens o then t.stay i .done
  else
    let t' := { t.stay i .done with opened := t.opened ++ [t.desk.payments.map (·.status)] }
    match o.cashDue, o.answer.bind fun a => a.checkoutId.map fun id => (id, a.code) with
    | some amount, some (checkoutId, code) =>
      { t' with
        desk.payments := t.desk.payments ++ [newAttempt t.intent.pk o amount checkoutId code]
        widgets := t.widgets ++ [o.pk] }
    -- the transaction is rolled back, with the row of the attempt
    | _, _ => t'

/-- `_process_verification` on the attempt as it is by then. -/
def documented (t : Purchase) (i : ℕ) (attempt : Uuid) (settings : Settings) (document : Document) (now : Time) : Purchase :=
  match t.desk.payment attempt with
  | none => t.stay i .done
  | some p =>
    match processVerification settings p document now t.desk with
    | .error _ => t.stay i .done
    | .ok (d, done) => { t with desk := d, visits := t.visits.set i (if done.isSome then .recording attempt else .done) }

def visit (t : Purchase) (i : ℕ) : Stage → Event → Purchase
  | .revalidating, .revalidate .available => t.stay i .paying
  | .revalidating, .revalidate .unavailable => { t.stay i .done with intent := moveAwaiting .unavailable t.intent }
  | .revalidating, .revalidate .priceChanged => { t.stay i .done with intent := moveAwaiting .priceChanged t.intent }
  | .paying, .pay o => t.pay i o
  | .asking attempt, .document settings document now => t.documented i attempt settings document now
  -- `_record_verified_booking_payment`, the transaction of the intent
  | .recording _, .record => { t.stay i .done with intent := recordVerified t.intent }
  | _, _ => t

def step (t : Purchase) : Action → Purchase
  | .checkout revalidates => { t with visits := t.visits ++ [if revalidates then .revalidating else .paying] }
  | .verify attempt =>
    match t.desk.payment attempt with
    | none => t
    | some p =>
      match opening p with
      | .complete _ => { t with visits := t.visits ++ [.recording attempt] }
      | .ask => { t with visits := t.visits ++ [.asking attempt] }
      | .refused _ | .review => t
  | .visit i event =>
    match t.visits[i]? with
    | none => t
    | some stage => t.visit i stage event

end Purchase

/-- The attempt has collected, or may have. -/
def mayHaveCollected (s : PaymentStatus) : Bool := s == .succeeded || s == .review || s == .unknown

/-- The provider has ended the attempt without money. -/
def ended (s : PaymentStatus) : Bool := s == .failed || s == .cancelled

namespace Purchase

/-- A checkout is opened while the intent still waits for its payment beside an attempt that may have collected. -/
def doubles (t : Purchase) : Action → Bool
  | .visit i (.pay o) => t.visits[i]? == some .paying && t.opens o && t.desk.payments.any (mayHaveCollected ·.status)
  | _ => false

/-- The provider takes back what it has said of an ended attempt. -/
def revives (t : Purchase) : Action → Bool
  | .visit i (.document settings document now) =>
    match t.visits[i]? with
    | some (.asking attempt) => (t.desk.payment attempt).any fun p =>
        ended p.status && !idTaken t.desk (rewritten settings document now p) &&
          !ended (statusOf (verifiedClass settings p document))
    | _ => false
  | _ => false

/-- No checkout was opened beside an attempt that may have collected. -/
def Clean (t : Purchase) : Prop := ∀ statuses ∈ t.opened, ∀ s ∈ statuses, mayHaveCollected s = false

def Single (t : Purchase) : Prop := (t.desk.payments.filter (·.status == .succeeded)).length ≤ 1

instance (t : Purchase) : Decidable t.Clean := inferInstanceAs (Decidable (∀ _ ∈ _, ∀ _ ∈ _, _ = _))

instance (t : Purchase) : Decidable t.Single := inferInstanceAs (Decidable (_ ≤ _))

/-- An intent without attempts. -/
structure Fresh (t : Purchase) : Prop where
  payments : t.desk.payments = []
  opened : t.opened = []

end Purchase

variable {t : Purchase} {a : Action}

/-! ### What a step does -/

theorem moveAwaiting_pk (status : IntentStatus) (i : BookingIntent) : (moveAwaiting status i).pk = i.pk := by
  unfold moveAwaiting
  split <;> rfl

theorem recordVerified_pk (i : BookingIntent) : (recordVerified i).pk = i.pk := by
  unfold recordVerified
  split <;> rfl

namespace Purchase

/-- The attempts, and all that is recorded about them, are as they were. -/
structure SameAttempts (t t' : Purchase) : Prop where
  intent : t'.intent.pk = t.intent.pk
  payments : t'.desk.payments = t.desk.payments
  widgets : t'.widgets = t.widgets

theorem SameAttempts.stay (t : Purchase) (i : ℕ) (stage : Stage) : SameAttempts t (t.stay i stage) := ⟨rfl, rfl, rfl⟩

/-- A step leaves the attempts alone, opens a checkout, or writes a document. -/
theorem step_cases (t : Purchase) (a : Action) :
    (t.SameAttempts (t.step a) ∧ (t.step a).opened = t.opened) ∨
      (∃ i o, a = .visit i (.pay o) ∧ t.visits[i]? = some .paying ∧ t.opens o = true ∧ t.step a = t.pay i o) ∨
      ∃ i attempt settings document now, a = .visit i (.document settings document now) ∧
        t.visits[i]? = some (.asking attempt) ∧ t.step a = t.documented i attempt settings document now := by
  cases a with
  | checkout => exact .inl ⟨⟨rfl, rfl, rfl⟩, rfl⟩
  | verify attempt =>
    left
    simp only [step]
    split
    · exact ⟨⟨rfl, rfl, rfl⟩, rfl⟩
    · split <;> exact ⟨⟨rfl, rfl, rfl⟩, rfl⟩
  | visit i event =>
    simp only [step]
    cases hi : t.visits[i]? with
    | none => exact .inl ⟨⟨rfl, rfl, rfl⟩, rfl⟩
    | some stage =>
      cases stage with
      | revalidating =>
        left
        cases event with
        | revalidate answer =>
          cases answer with
          | available => exact ⟨SameAttempts.stay .., rfl⟩
          | unavailable | priceChanged => exact ⟨⟨moveAwaiting_pk .., rfl, rfl⟩, rfl⟩
        | pay | document | record => exact ⟨⟨rfl, rfl, rfl⟩, rfl⟩
      | paying =>
        cases event with
        | pay o =>
          cases ho : t.opens o with
          | true => exact .inr (.inl ⟨i, o, rfl, hi, ho, rfl⟩)
          | false =>
            left
            simp only [visit, pay, ho, Bool.not_false, if_true]
            exact ⟨SameAttempts.stay .., rfl⟩
        | revalidate | document | record => exact .inl ⟨⟨rfl, rfl, rfl⟩, rfl⟩
      | asking attempt =>
        cases event with
        | document settings document now => exact .inr (.inr ⟨i, attempt, settings, document, now, rfl, hi, rfl⟩)
        | revalidate | pay | record => exact .inl ⟨⟨rfl, rfl, rfl⟩, rfl⟩
      | recording attempt =>
        left
        cases event with
        | record => exact ⟨⟨recordVerified_pk _, rfl, rfl⟩, rfl⟩
        | revalidate | pay | document => exact ⟨⟨rfl, rfl, rfl⟩, rfl⟩
      | done => exact .inl ⟨⟨rfl, rfl, rfl⟩, rfl⟩

theorem documented_opened (t : Purchase) (i : ℕ) (attempt : Uuid) (settings : Settings) (document : Document) (now : Time) :
    (t.documented i attempt settings document now).opened = t.opened := by
  unfold documented
  split
  · rfl
  · split <;> rfl

/-- What is logged when a checkout is opened. -/
theorem pay_opened {i : ℕ} {o : Offer} (h : t.opens o = true) :
    (t.pay i o).opened = t.opened ++ [t.desk.payments.map (·.status)] := by
  simp only [pay, h, Bool.not_true, Bool.false_eq_true, if_false]
  split <;> rfl

/-- A step keeps the log clean exactly if it does not open a second checkout. -/
theorem Clean.step_iff (h : t.Clean) (a : Action) : t.doubles a = false ↔ (t.step a).Clean := by
  rcases t.step_cases a with ⟨-, hop⟩ | ⟨i, o, rfl, hi, ho, hs⟩ | ⟨i, attempt, settings, document, now, rfl, -, hs⟩
  · refine iff_of_true ?_ (by simpa only [Clean, hop] using h)
    by_contra hd
    cases a with
    | visit i event =>
      cases event with
      | pay o =>
        simp only [doubles, Bool.not_eq_false, Bool.and_eq_true, beq_iff_eq] at hd
        obtain ⟨⟨hi, ho⟩, -⟩ := hd
        have hlog : (t.step (.visit i (.pay o))).opened = t.opened ++ [t.desk.payments.map (·.status)] := by
          simp only [step, hi]
          exact pay_opened ho
        rw [hlog] at hop
        simpa using congrArg List.length hop
      | revalidate | document | record => exact hd rfl
    | checkout | verify => exact hd rfl
  · rw [hs, Clean, pay_opened ho]
    simp only [doubles, hi, ho, beq_self_eq_true, Bool.true_and, List.any_eq_false, List.mem_append, List.mem_singleton]
    constructor
    · rintro hd statuses (hold | rfl) s hmem
      · exact h statuses hold s hmem
      · obtain ⟨p, hp, rfl⟩ := List.mem_map.1 hmem
        simpa using hd p hp
    · intro hc p hp
      simpa using hc _ (.inr rfl) _ (List.mem_map_of_mem hp)
  · rw [hs, Clean, documented_opened]
    exact iff_of_true rfl h

/-! ### Ended attempts -/

/-- The row of an attempt that `create_checkout` has made. -/
structure Made (t : Purchase) (p : PaymentAttempt) : Prop where
  intent : p.bookingIntent = t.intent.pk
  provider : p.provider = hyperpayProvider
  widget : p.pk ∈ t.widgets
  checkoutId : ∃ id, p.providerCheckoutId = some id ∧ id ≠ ""
  status : p.status = .pending ∨ mayHaveCollected p.status = true ∨ ended p.status = true

/-- Every attempt but the last one has ended. -/
structure Orderly (t : Purchase) : Prop where
  keyed : (t.desk.payments.map (·.pk)).Nodup
  made : ∀ p ∈ t.desk.payments, t.Made p
  older : ∀ p ∈ t.desk.payments.dropLast, ended p.status = true

theorem Made.congr {t' : Purchase} {p : PaymentAttempt} (h : t.Made p) (hs : t.SameAttempts t') : t'.Made p :=
  ⟨by rw [hs.intent]; exact h.intent, h.provider, by rw [hs.widgets]; exact h.widget, h.checkoutId, h.status⟩

theorem Orderly.congr (h : t.Orderly) {t' : Purchase} (hs : t.SameAttempts t') : t'.Orderly := by
  refine ⟨?_, ?_, ?_⟩ <;> rw [hs.payments]
  · exact h.keyed
  · exact fun p hp => (h.made p hp).congr hs
  · exact h.older

/-- A pending attempt is returned to. -/
theorem Orderly.not_pending (h : t.Orderly) (hr : t.reuses = false) {p : PaymentAttempt} (hp : p ∈ t.desk.payments) :
    p.status ≠ .pending := by
  intro hpend
  have hmade := h.made p hp
  obtain ⟨id, hid, hne⟩ := hmade.checkoutId
  unfold reuses at hr
  cases hex : existing t.desk t.intent.pk with
  | none =>
    have hnone := List.filter_eq_nil_iff.1 (Table.first_eq_none.1 hex) p hp
    simp [hmade.intent, hmade.provider, hpend, hid, hne] at hnone
  | some q =>
    have hq := (List.mem_filter.1 (Table.mem_of_first hex)).1
    obtain ⟨id', hid', -⟩ := (h.made q hq).checkoutId
    simp [hex, hid', (h.made q hq).widget] at hr

/-- Where no attempt may have collected, a new checkout finds only ended ones. -/
theorem Orderly.ended_of_opens (h : t.Orderly) {o : Offer} (ho : t.opens o = true)
    (hd : t.desk.payments.any (mayHaveCollected ·.status) = false) {p : PaymentAttempt} (hp : p ∈ t.desk.payments) :
    ended p.status = true := by
  simp only [opens, Bool.and_eq_true, Bool.not_eq_true'] at ho
  rcases (h.made p hp).status with hs | hs | hs
  · exact absurd hs (h.not_pending ho.1.1.2 hp)
  · exact absurd hs (List.any_eq_false.1 hd p hp)
  · exact hs

theorem validCheckoutId_ne {s : String} (h : validCheckoutId s = true) : s ≠ "" := by
  rintro rfl
  simp [validCheckoutId] at h

theorem checkoutId_ne {a : Answer} {id : String} (h : a.checkoutId = some id) : id ≠ "" := by
  unfold Answer.checkoutId at h
  split at h
  · split_ifs at h with hv
    obtain rfl := Option.some.inj h
    simp only [Bool.and_eq_true] at hv
    exact validCheckoutId_ne hv.1.1
  · cases h

theorem Orderly.pay (h : t.Orderly) (i : ℕ) {o : Offer} (ho : t.opens o = true)
    (hd : t.desk.payments.any (mayHaveCollected ·.status) = false) : (t.pay i o).Orderly := by
  have hended := fun p (hp : p ∈ t.desk.payments) => h.ended_of_opens ho hd hp
  simp only [Purchase.pay, ho, Bool.not_true, Bool.false_eq_true, if_false]
  split
  · rename_i amount checkoutId code hdue hanswer
    obtain ⟨answer, hans, hid⟩ := Option.bind_eq_some_iff.1 hanswer
    obtain ⟨id, hvalid, hpair⟩ := Option.map_eq_some_iff.1 hid
    obtain ⟨rfl, -⟩ := Prod.mk.inj hpair
    simp only [opens, Bool.and_eq_true, Bool.not_eq_true', List.any_eq_false, beq_iff_eq] at ho
    refine ⟨?_, ?_, ?_⟩
    · simp only [List.map_append, List.map_singleton]
      refine List.nodup_append.2 ⟨h.keyed, List.nodup_singleton _, ?_⟩
      rintro k hk k' hk' rfl
      obtain ⟨p, hp, rfl⟩ := List.mem_map.1 hk
      exact ho.1.2 p hp (List.mem_singleton.1 hk')
    · intro p hp
      rcases List.mem_append.1 hp with hp | hp
      · have hmade := h.made p hp
        exact ⟨hmade.intent, hmade.provider, List.mem_append_left _ hmade.widget, hmade.checkoutId, hmade.status⟩
      · obtain rfl := List.mem_singleton.1 hp
        exact ⟨rfl, rfl, List.mem_append_right _ (List.mem_singleton_self _), ⟨id, rfl, checkoutId_ne hvalid⟩, .inl rfl⟩
    · intro p hp
      rw [List.dropLast_concat] at hp
      exact hended p hp
  · exact h.congr ⟨rfl, rfl, rfl⟩

theorem statusOf_known (c : HyperPayStatus) :
    statusOf c = .pending ∨ mayHaveCollected (statusOf c) = true ∨ ended (statusOf c) = true := by
  cases c <;> decide

theorem Orderly.documented (h : t.Orderly) {i : ℕ} {attempt : Uuid} {settings : Settings} {document : Document} {now : Time}
    (hi : t.visits[i]? = some (.asking attempt)) (hr : t.revives (.visit i (.document settings document now)) = false) :
    (t.documented i attempt settings document now).Orderly := by
  unfold Purchase.documented
  cases hp : t.desk.payment attempt with
  | none => exact h.congr (SameAttempts.stay ..)
  | some p =>
    simp only [revives, hi, hp, Option.any_some] at hr
    simp only
    cases hv : processVerification settings p document now t.desk with
    | error => exact h.congr (SameAttempts.stay ..)
    | ok r =>
      obtain ⟨d, done⟩ := r
      simp only
      rcases processVerification_ok hv with ⟨-, rfl⟩ | ⟨-, ht, rfl⟩
      · exact h.congr ⟨rfl, rfl, rfl⟩
      · simp only [ht, Bool.not_false, Bool.and_true] at hr
        have hkeys : (t.desk.modifyPayment p.pk (rewritten settings document now)).payments.map (·.pk) =
            t.desk.payments.map (·.pk) := Table.map_key_modify fun _ hq => hq
        -- the row that is written is `p`
        have hrow : ∀ q ∈ t.desk.payments, q.pk = p.pk → q = p := fun q hq hk =>
          Table.eq_of_mem_of_key h.keyed hq (Table.mem_of_get hp) hk
        refine ⟨(congrArg List.Nodup hkeys).mpr h.keyed, fun q hq => ?_, fun q hq => ?_⟩
        · obtain ⟨q, hold, rfl⟩ := Table.mem_modify.1 hq
          have hmade := h.made q hold
          by_cases hk : q.pk = p.pk
          · rw [if_pos hk]
            exact ⟨hmade.intent, hmade.provider, hmade.widget, hmade.checkoutId, statusOf_known _⟩
          · rw [if_neg hk]
            exact ⟨hmade.intent, hmade.provider, hmade.widget, hmade.checkoutId, hmade.status⟩
        · have hq : q ∈ (t.desk.payments.map fun q => if q.pk = p.pk then rewritten settings document now q else q).dropLast := hq
          rw [← List.map_dropLast] at hq
          obtain ⟨q, hmem, rfl⟩ := List.mem_map.1 hq
          have hold := h.older q hmem
          split_ifs with hk
          · obtain rfl := hrow q (List.dropLast_subset _ hmem) hk
            simpa [hold, rewritten] using hr
          · exact hold

theorem Orderly.step (h : t.Orderly) {a : Action} (hd : t.doubles a = false) (hr : t.revives a = false) :
    (t.step a).Orderly := by
  rcases t.step_cases a with ⟨hsame, -⟩ | ⟨i, o, rfl, hi, ho, hs⟩ | ⟨i, attempt, settings, document, now, rfl, hi, hs⟩
  · exact h.congr hsame
  · rw [hs]
    refine h.pay i ho ?_
    simpa [doubles, hi, ho] using hd
  · rw [hs]
    exact h.documented hi hr

/-- Of the attempts only the last one can have succeeded. -/
theorem Orderly.single (h : t.Orderly) : t.Single := by
  unfold Single
  rcases List.eq_nil_or_concat t.desk.payments with hnil | ⟨older, last, hcons⟩
  · simp [hnil]
  · have hnone : older.filter (·.status == .succeeded) = [] := by
      refine List.filter_eq_nil_iff.2 fun p hp => ?_
      have := h.older p (by rw [hcons, List.concat_eq_append, List.dropLast_concat]; exact hp)
      intro hs
      rw [beq_iff_eq.1 hs] at this
      cases this
    rw [hcons, List.concat_eq_append, List.filter_append, hnone, List.nil_append]
    exact (List.length_filter_le _ _).trans (by simp)

end Purchase

open Machine in
/-- Every checkout of a run is opened beside attempts that collected nothing exactly if none is opened while the intent
waits beside one that may have; and then, if no ended attempt is revived, never more than one attempt has succeeded. -/
theorem no_second_session {t : Purchase} (h : t.Fresh) (as : List Action) :
    (Meets Purchase.step (fun t a => t.doubles a = false) t as ↔ ∀ n, (run Purchase.step t (as.take n)).Clean) ∧
      (Meets Purchase.step (fun t a => t.doubles a = false ∧ t.revives a = false) t as → (run Purchase.step t as).Single) := by
  have hclean : t.Clean := by simp [Purchase.Clean, h.opened]
  have horderly : t.Orderly := ⟨by simp [h.payments], by simp [h.payments], by simp [h.payments]⟩
  refine ⟨meets_iff (I := fun _ => True) (fun _ _ _ _ => trivial) (fun _ a _ h => h.step_iff a) trivial hclean, fun hok => ?_⟩
  exact (hok.inv (fun _ _ h hok => h.step hok.1 hok.2) horderly).single

/-! ### A card that is asked twice -/

def openIntent : BookingIntent :=
  ⟨⟨"2f0e7c1a-1f60-4f0e-9a51-0d5d7c2f1c01", rfl⟩, ⟨"2f0e7c1a-1f60-4f0e-9a51-0d5d7c2f1c00", rfl⟩, "intent-1", .awaitingPayment, 100⟩

def emptyPurchase : Purchase := ⟨openIntent, ⟨some openIntent.pk, none, [], []⟩, [], [], []⟩

def firstAttempt : Uuid := ⟨"2f0e7c1a-1f60-4f0e-9a51-0d5d7c2f1c02", rfl⟩

def secondAttempt : Uuid := ⟨"2f0e7c1a-1f60-4f0e-9a51-0d5d7c2f1c03", rfl⟩

def goodAnswer (id : String) : Answer := ⟨.text id, .text "sha384-oqVuAfXRKap7", .text "000.200.100"⟩

def checkoutOffer (pk : Uuid) (merchantId checkoutId : String) (now : Time) : Offer :=
  ⟨now, false, true, some 100, pk, merchantId, true, some (goodAnswer checkoutId)⟩

def firstOffer : Offer := checkoutOffer firstAttempt "LSA-1" "8ac7a4a1-1" 1

def secondOffer : Offer := checkoutOffer secondAttempt "LSA-2" "8ac7a4a1-2" 9

def firstAnswer (code : String) : Document := answerDocument code

def secondAnswer (code : String) : Document :=
  { answerDocument code with id := .text "8ac7a4a2", merchantTransactionId := .text "LSA-2" }

/-- The first checkout ends with `code`, and the guest tries again. -/
def twiceRun (code : String) : List Action :=
  [.checkout false, .visit 0 (.pay firstOffer), .verify firstAttempt, .visit 1 (.document liveSettings (firstAnswer code) 5),
   .checkout false, .visit 2 (.pay secondOffer), .verify secondAttempt,
   .visit 3 (.document liveSettings (secondAnswer "000.000.000") 12), .visit 3 .record]

theorem emptyPurchase_fresh : emptyPurchase.Fresh := ⟨rfl, rfl⟩

/-- A refused card and a second one that is charged. -/
theorem no_second_session_refused :
    (∀ n, (Machine.run Purchase.step emptyPurchase ((twiceRun "800.100.152").take n)).Clean) ∧
      (Machine.run Purchase.step emptyPurchase (twiceRun "800.100.152")).Single ∧
      (Machine.run Purchase.step emptyPurchase (twiceRun "800.100.152")).opened = [[], [.failed]] :=
  ⟨(no_second_session emptyPurchase_fresh (twiceRun "800.100.152")).1.1 (by decide +kernel),
    (no_second_session emptyPurchase_fresh (twiceRun "800.100.152")).2 (by decide +kernel), by decide +kernel⟩

/-- The first payment waits for a review when the second checkout is opened; both are charged. -/
def reviewedRun : List Action :=
  twiceRun "000.400.020" ++ [.verify firstAttempt, .visit 4 (.document liveSettings (firstAnswer "000.000.000") 20)]

theorem reviewed_intent_charged_twice :
    (Machine.run Purchase.step emptyPurchase reviewedRun).opened = [[], [.review]] ∧
      (Machine.run Purchase.step emptyPurchase reviewedRun).desk.payments.map (fun p => (p.status, p.amount)) =
        [(.succeeded, 100), (.succeeded, 100)] ∧
      (Machine.run Purchase.step emptyPurchase reviewedRun).intent.status = .paymentVerified := by
  decide +kernel

end Apartments.Checkout
