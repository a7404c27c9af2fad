import Apartments.HyperPay.Checkout
import Apartments.Payments.Links

/-!
# Collecting a balance (`payment_links.py`, `offline_receipts.py`)

A reservation with its payment requests, the checkouts that wait for the gateway, the verifications that wait for a
document and the payments whose completion is due. Each action is one transaction or one unlocked statement, and a call
that crashes takes no further action. Checkouts, receipts and approvals lock the reservation; a verification locks the
attempt alone, and a transaction that has read the attempt before is taken to come first.

`log` keeps what every checkout and receipt found when it was made, and how each completion left its request.
-/

namespace Apartments.Collecting

open Payments HyperPay Hostaway Links

/-! ### Checkouts of a request -/

/-- What `create_request_checkout` is given and finds around the rows: `remote` is that Hostaway shows the stay without a
collection, `integrity` that the attempt before has a `widget_integrity`. -/
structure CheckoutOffer where
  pk : Uuid
  merchantTransactionId : String
  accepted : Bool
  remote : Bool
  integrity : Bool
  payload : Bool
  now : Time
deriving DecidableEq

/-- The attempt of the booking that stands in the way of a checkout of the request, the newest first. -/
def previousAttempt (f : Folio) (intent : Uuid) (request : PaymentRequest) : Option PaymentAttempt :=
  Table.first (fun p q => q.createdAt < p.createdAt) <| f.desk.payments.filter fun p =>
    p.bookingIntent == intent &&
      if request.modificationRequest.isSome then
        isUnresolved p.status || (p.paymentRequest == some request.pk && isSettled p.status)
      else isSettled p.status || isUnresolved p.status

/-- The attempt of the request still waits for the guest. -/
def resumable (request : PaymentRequest) (o : CheckoutOffer) (p : PaymentAttempt) : Bool :=
  p.paymentRequest == some request.pk && p.status == .pending && !(p.providerCheckoutId.getD "" == "") && o.integrity

/-- The row of a new checkout. -/
def newAttempt (intent : Uuid) (request : PaymentRequest) (o : CheckoutOffer) : PaymentAttempt where
  pk := o.pk
  bookingIntent := intent
  paymentRequest := some request.pk
  modificationRequest := none
  provider := hyperpayProvider
  providerCheckoutId := none
  providerPaymentId := none
  merchantTransactionId := some o.merchantTransactionId
  providerResultCode := ""
  providerResultDescription := ""
  amount := request.amountSar
  currency := "SAR"
  status := .created
  failureCode := ""
  paymentBrand := ""
  verifiedAt := none
  createdAt := o.now

/-- A session to go on with, or the rows of a new one. -/
inductive Session
  | resumed (attempt : Uuid)
  | opened (folio : Folio)
deriving DecidableEq

/-- `create_request_checkout` up to the commit of its attempt. -/
def createRequestCheckout (s : LinkSettings) (f : Folio) (request : PaymentRequest) (o : CheckoutOffer) :
    Except String Session :=
  if !enabled s then .error "payment_links_disabled"
  else if !o.accepted then .error "guest_acceptance_required"
  else
    match notOpen s f request, f.intent with
    | some code, _ => .error code
    | none, none => .error "not_found"
    | none, some i =>
      if !o.remote then .error "hostaway_reservation_requires_review"
      else
        match previousAttempt f i.pk request with
        | some p => if resumable request o p then .ok (.resumed p.pk) else .error "previous_payment_unresolved"
        | none =>
          if !o.payload ∨ f.desk.payments.any fun p => p.pk == o.pk ||
              p.merchantTransactionId == some o.merchantTransactionId then .error "integrity"
          else .ok (.opened { f with desk.payments := f.desk.payments ++ [newAttempt i.pk request o] })

/-- The attempt once the gateway has given it a session. -/
def withSession (id : String) (code : Json) (p : PaymentAttempt) : PaymentAttempt :=
  { p with providerCheckoutId := some id, providerResultCode := code.safeText 100, status := .pending }

/-- The attempt after an answer that is no session. -/
def withoutSession (code : Json) (p : PaymentAttempt) : PaymentAttempt :=
  { p with status := .failed, failureCode := "checkout_response_invalid", providerResultCode := code.safeText 100 }

/-- The attempt after an exception. -/
def uncertain (p : PaymentAttempt) : PaymentAttempt :=
  { p with status := .review, failureCode := "checkout_outcome_uncertain" }

/-! ### Offline receipts -/

/-- The data of `receipt_snapshot`. -/
structure ReceiptSnapshot where
  reservation : Uuid
  intent : Option Uuid
  hostaway : Option ℕ
  property : Option ℕ
  arrival : ℕ
  departure : ℕ
  guests : ℕ
  amount : Dec
  currency : String
deriving DecidableEq

def receiptSnapshot (r : Reservation) : ReceiptSnapshot where
  reservation := r.pk
  intent := r.bookingIntent
  hostaway := r.hostawayReservationId
  property := r.property.map (·.pk)
  arrival := r.checkIn
  departure := r.checkOut
  guests := r.guests
  amount := Dec.quantize 4 r.totalPrice
  currency := r.currency

/-- A receipt as it is handed in: `valid` is that it is confirmed, with a method, a reference, a note and a time that are
allowed, `pointsUsed` that the booking has a hold or a redemption, `referenceFree` that no other receipt has its reference. -/
structure ReceiptForm where
  enabled : Bool
  valid : Bool
  amount : Dec
  currency : String
  method : String
  snapshot : ReceiptSnapshot
  pointsUsed : Bool
  referenceFree : Bool
  receipt : Uuid
  payment : Uuid
  receivedAt : Time
  now : Time
deriving DecidableEq

/-- The row of an offline payment. -/
def manualPayment (intent : Uuid) (q : ReceiptForm) : PaymentAttempt where
  pk := q.payment
  bookingIntent := intent
  paymentRequest := none
  modificationRequest := none
  provider := "manual"
  providerCheckoutId := none
  providerPaymentId := some ("manual:" ++ q.receipt.str)
  merchantTransactionId := none
  providerResultCode := ""
  providerResultDescription := ""
  amount := q.amount
  currency := q.currency
  status := .succeeded
  failureCode := ""
  paymentBrand := q.method
  verifiedAt := some q.receivedAt
  createdAt := q.now

/-- A payment of the booking that an offline receipt would stand beside. -/
def collecting (f : Folio) : Bool :=
  f.intent.any fun i => f.desk.payments.any fun p => p.bookingIntent == i.pk && (isUnresolved p.status || isSettled p.status)

/-- The refusals of `record_offline_receipt`; of a receipt that is there, the same one is returned and another one
refused, and neither writes. -/
def receiptRefusal (f : Folio) (q : ReceiptForm) : Option String :=
  let r := f.reservation
  if !q.enabled then some "disabled"
  else if !q.valid ∨ q.amount ≤ 0 then some "invalid"
  else if q.snapshot ≠ receiptSnapshot r then some "reservation_changed"
  else if f.desk.offlinePaymentReceipt.isSome then some "receipt_recorded"
  else if !stands r ∨ q.amount ≠ r.totalPrice ∨ q.currency ≠ r.currency ∨
      Text.casefold r.paymentStatus ∉ ["", "unpaid", "not_paid", "unknown"] then some "full_unpaid_booking_required"
  else if !f.desk.obligations.isEmpty || f.board.requests.any fun m =>
      [RequestStatus.pendingAdminApproval, .readyForHostaway, .awaitingPayment, .processing].contains m.status then
    some "change_or_refund_pending"
  else if f.intent.isSome && (collecting f || q.pointsUsed) then some "existing_collection"
  else if !q.referenceFree ∨ f.desk.payments.any fun p =>
      p.pk == q.payment || p.providerPaymentId == some ("manual:" ++ q.receipt.str) then some "integrity"
  else none

/-- `record_offline_receipt`. -/
def recordOfflineReceipt (f : Folio) (q : ReceiptForm) : Except String Folio :=
  match receiptRefusal f q with
  | some code => .error code
  | none =>
    .ok (revokeOpen { f with
      board.reservation.paymentStatus := "paid"
      desk.offlinePaymentReceipt := some ⟨f.intent.map fun _ => q.payment, q.amount, q.currency⟩
      desk.payments := f.desk.payments ++ (f.intent.map fun i => manualPayment i.pk q).toList })

/-! ### Runs -/

/-- A checkout that waits for the gateway, or whose exception has still to be written. -/
structure Waiting where
  attempt : Uuid
  raised : Bool
deriving DecidableEq

inductive Entry
  | opened (found : Folio) (request : PaymentRequest)
  | received (found : Folio)
  | completed (found : PaymentRequest) (attempt : PaymentAttempt) (left : LinkStatus)
deriving DecidableEq

/-- The payment by which the request of this key became paid. -/
def Entry.payer (pk : Uuid) : Entry → Option PaymentAttempt
  | .completed found attempt .paid => if found.pk = pk ∧ found.status ≠ .paid then some attempt else none
  | _ => none

structure World where
  folio : Folio
  waiting : List Waiting
  checks : List Check
  due : List PaymentAttempt
  log : List Entry
deriving DecidableEq

inductive Action
  | issue (s : LinkSettings) (pk : Uuid) (now : Time)
  | prepare (s : LinkSettings) (e : Review) (modification pk : Uuid) (now : Time)
  | approve (s : LinkSettings) (e : Review) (draft : Uuid) (now : Time)
  | revokeLink
  | change (board : Board)
  | checkout (s : LinkSettings) (request : Uuid) (offer : CheckoutOffer)
  | answered (i : ℕ) (answer : Option Checkout.Answer)
  | handled (i : ℕ)
  | receipt (form : ReceiptForm)
  | verify (settings : Settings) (attempt : Uuid)
  | verified (j : ℕ) (document : Document) (now : Time)
  | complete (k : ℕ) (s : LinkSettings) (now : Time)
deriving DecidableEq

namespace World

def onFolio (w : World) : Except String Folio → World
  | .ok f => { w with folio := f }
  | .error _ => w

def modifyPayment (w : World) (pk : Uuid) (f : PaymentAttempt → PaymentAttempt) : World :=
  { w with folio.desk := w.folio.desk.modifyPayment pk f }

/-- `_validate_checkout_response` for a checkout of `attempt`; an id that another row has raises. -/
def answer (w : World) (i : ℕ) (attempt : Uuid) (a : Checkout.Answer) : World :=
  match a.checkoutId with
  | none => { w.modifyPayment attempt (withoutSession a.code) with waiting := w.waiting.set i ⟨attempt, true⟩ }
  | some id =>
    if w.folio.desk.payments.any (·.providerCheckoutId == some id) then { w with waiting := w.waiting.set i ⟨attempt, true⟩ }
    else { w.modifyPayment attempt (withSession id a.code) with waiting := w.waiting.eraseIdx i }

/-- `complete_request_payment` on a payment of a link. -/
def complete (w : World) (s : LinkSettings) (p : PaymentAttempt) (now : Time) : World :=
  match p.paymentRequest.bind w.folio.request with
  | none => w
  | some r =>
    let f := completeRequestPayment s w.folio p now
    { w with folio := f, log := w.log ++ [.completed r p (((f.request r.pk).map (·.status)).getD r.status)] }

def step (w : World) : Action → World
  | .issue s pk now => w.onFolio ((issueRequest s w.folio pk now).map Prod.fst)
  | .prepare s e modification pk now => w.onFolio (preparePreview s e w.folio modification pk now)
  | .approve s e draft now =>
    match w.folio.request draft with
    | none => w
    | some r => w.onFolio (switchTargets s e w.folio r now)
  | .revokeLink => w.onFolio (Links.revokeLink w.folio)
  | .change board => { w with folio.board := board }
  | .checkout s request o =>
    match w.folio.request request with
    | none => w
    | some r =>
      match createRequestCheckout s w.folio r o with
      | .ok (.opened f) =>
        { w with folio := f, waiting := w.waiting ++ [⟨o.pk, false⟩], log := w.log ++ [.opened w.folio r] }
      | .ok (.resumed _) | .error _ => w
  | .answered i answer =>
    match w.waiting[i]? with
    | some ⟨attempt, false⟩ =>
      match answer with
      | none => { w with waiting := w.waiting.set i ⟨attempt, true⟩ }
      | some a => w.answer i attempt a
    | _ => w
  | .handled i =>
    match w.waiting[i]? with
    | some ⟨attempt, true⟩ => { w.modifyPayment attempt uncertain with waiting := w.waiting.eraseIdx i }
    | _ => w
  | .receipt form =>
    match recordOfflineReceipt w.folio form with
    | .error _ => w
    | .ok f => { w with folio := f, log := w.log ++ [.received w.folio] }
  | .verify settings attempt =>
    match w.folio.desk.payment attempt with
    | none => w
    | some p =>
      match opening p with
      | .complete _ => { w with due := w.due ++ [p] }
      | .ask => { w with checks := w.checks ++ [⟨settings, attempt, p.paymentRequest, false⟩] }
      | .refused _ | .review => w
  | .verified j document now =>
    match w.checks[j]? with
    | some ⟨settings, attempt, paymentRequest, false⟩ =>
      let w' := { w with checks := w.checks.set j ⟨settings, attempt, paymentRequest, true⟩ }
      match w.folio.desk.payment attempt with
      | none => w'
      | some p =>
        if stillPending paymentRequest document then w'
        else
          match processVerification settings p document now w.folio.desk with
          | .error _ => w'
          | .ok (d, done) =>
            { w' with folio.desk := d, due := if done.isSome then w.due ++ [rewritten settings document now p] else w.due }
    | _ => w
  | .complete k s now =>
    match w.due[k]? with
    | none => w
    | some p => w.complete s p now

/-- The payments that have made the request paid. -/
def payers (w : World) (pk : Uuid) : List PaymentAttempt := w.log.filterMap (Entry.payer pk)

/-- A reservation that no payment was asked for yet. -/
structure Fresh (w : World) : Prop where
  requests : w.folio.requests = []
  keyed : (w.folio.desk.payments.map (·.pk)).Nodup
  payments : ∀ p ∈ w.folio.desk.payments, p.paymentRequest = none
  calls : w.waiting = [] ∧ w.checks = [] ∧ w.due = []
  log : w.log = []

end World

/-! ### What a transaction leaves of the requests -/

/-- The requests of `f'` are those of `f`, with paid and reviewed ones as they were, and new ones that are not paid. -/
structure Calm (f f' : Folio) : Prop where
  intent : f'.intent = f.intent
  keyed : (f.requests.map (·.pk)).Nodup → (f'.requests.map (·.pk)).Nodup
  kept : ∀ r ∈ f.requests, ∃ q ∈ f'.requests, q.pk = r.pk ∧ q.amountSar = r.amountSar ∧
    (r.status = .paid → q.status = .paid) ∧ (r.status = .review → q.status = .review)
  paid : ∀ q ∈ f'.requests, q.status = .paid → ∃ r ∈ f.requests, r.pk = q.pk ∧ r.status = .paid

/-- A rewriting of rows that leaves the paid and the reviewed ones alone and pays none. -/
structure Leaves (g : PaymentRequest → PaymentRequest) (r : PaymentRequest) : Prop where
  pk : (g r).pk = r.pk
  amountSar : (g r).amountSar = r.amountSar
  paid : (g r).status = .paid ↔ r.status = .paid
  review : r.status = .review → (g r).status = .review

variable {f f' : Folio} {g : PaymentRequest → PaymentRequest} {r : PaymentRequest} {w : World} {p : PaymentAttempt}

theorem Calm.refl (f : Folio) : Calm f f :=
  ⟨rfl, id, fun r hr => ⟨r, hr, rfl, rfl, id, id⟩, fun q hq hs => ⟨q, hq, rfl, hs⟩⟩

theorem Calm.of_requests (hi : f'.intent = f.intent) (hr : f'.requests = f.requests) : Calm f f' := by
  refine ⟨hi, ?_, ?_, ?_⟩
  · rw [hr]
    exact id
  · rw [hr]
    exact fun r hr => ⟨r, hr, rfl, rfl, id, id⟩
  · rw [hr]
    exact fun q hq hs => ⟨q, hq, rfl, hs⟩

theorem Calm.trans {f'' : Folio} (h : Calm f f') (h' : Calm f' f'') : Calm f f'' := by
  refine ⟨h'.intent.trans h.intent, h'.keyed ∘ h.keyed, fun r hr => ?_, fun q hq hs => ?_⟩
  · obtain ⟨q, hq, hpk, ha, hp, hv⟩ := h.kept r hr
    obtain ⟨x, hx, hpk', ha', hp', hv'⟩ := h'.kept q hq
    exact ⟨x, hx, hpk'.trans hpk, ha'.trans ha, hp' ∘ hp, hv' ∘ hv⟩
  · obtain ⟨x, hx, hpk, hxs⟩ := h'.paid q hq hs
    obtain ⟨r, hr, hpk', hrs⟩ := h.paid x hx hxs
    exact ⟨r, hr, hpk'.trans hpk, hrs⟩

theorem Calm.map (hi : f'.intent = f.intent) (hg : ∀ r ∈ f.requests, Leaves g r) (hr : f'.requests = f.requests.map g) :
    Calm f f' := by
  refine ⟨hi, fun hnd => ?_, fun r hm => ?_, fun q hq hs => ?_⟩
  · have hpks : f.requests.map ((·.pk) ∘ g) = f.requests.map (·.pk) := List.map_congr_left fun r hr => (hg r hr).pk
    rwa [hr, List.map_map, hpks]
  · exact ⟨g r, hr ▸ List.mem_map_of_mem hm, (hg r hm).pk, (hg r hm).amountSar, (hg r hm).paid.2, (hg r hm).review⟩
  · rw [hr] at hq
    obtain ⟨r, hm, rfl⟩ := List.mem_map.1 hq
    exact ⟨r, hm, (hg r hm).pk.symm, (hg r hm).paid.1 hs⟩

theorem Calm.append (hi : f'.intent = f.intent) (hr : f'.requests = f.requests ++ [r])
    (hpk : r.pk ∉ f.requests.map (·.pk)) (hs : r.status ≠ .paid) : Calm f f' := by
  refine ⟨hi, fun hnd => ?_, fun q hq => ⟨q, by simp [hr, hq], rfl, rfl, id, id⟩, fun q hq hqs => ?_⟩
  · rw [hr, List.map_append, List.nodup_append]
    refine ⟨hnd, by simp, fun x hx y hy => ?_⟩
    obtain rfl : y = r.pk := by simpa using hy
    exact fun he => hpk (he ▸ hx)
  · rw [hr] at hq
    rcases List.mem_append.1 hq with hq | hq
    · exact ⟨q, hq, rfl, hqs⟩
    · rw [List.mem_singleton.1 hq] at hqs
      exact absurd hqs hs

theorem revoke_leaves (h : r.status = .open) : Leaves revoke r :=
  ⟨rfl, rfl, iff_of_false nofun (by rw [h]; nofun), fun hs => by rw [h] at hs; cases hs⟩

theorem leaves_self (h : g r = r) : Leaves g r := ⟨by rw [h], by rw [h], by rw [h], by rw [h]; exact id⟩

/-- Closing the open request of a folio. -/
theorem calm_revoke {current : PaymentRequest} (hnd : (f.requests.map (·.pk)).Nodup) (h : openRequest f = some current) :
    Calm f (f.modify current.pk revoke) := by
  obtain ⟨hmem, hs⟩ := openRequest_some h
  refine .map rfl (fun r hr => ?_) rfl
  by_cases hpk : r.pk = current.pk
  · obtain rfl : r = current := Table.eq_of_mem_of_key hnd hr hmem hpk
    have hl := revoke_leaves hs
    exact ⟨by rw [if_pos rfl, hl.pk], by rw [if_pos rfl, hl.amountSar], by rw [if_pos rfl, hl.paid],
      by rw [if_pos rfl]; exact hl.review⟩
  · exact leaves_self (if_neg hpk)

theorem issueNew_calm {s : LinkSettings} {i : BookingIntent} {pk : Uuid} {now : Time} (h : issueNew s f i pk now = .ok (f', r)) :
    Calm f f' ∧ f'.desk = f.desk := by
  obtain ⟨amount, rfl, hpk⟩ := issueNew_ok h
  exact ⟨.append rfl rfl hpk nofun, rfl⟩

theorem issueRequest_calm {s : LinkSettings} {pk : Uuid} {now : Time} (hnd : (f.requests.map (·.pk)).Nodup)
    (h : issueRequest s f pk now = .ok (f', r)) : Calm f f' ∧ f'.desk = f.desk := by
  rcases issueRequest_ok h with rfl | ⟨i, -, ⟨-, hnew⟩ | ⟨current, ho, hnew⟩⟩
  · exact ⟨.refl _, rfl⟩
  · exact issueNew_calm hnew
  · exact ⟨(calm_revoke hnd ho).trans (issueNew_calm hnew).1, (issueNew_calm hnew).2⟩

theorem preparePreview_calm {s : LinkSettings} {e : Review} {modification pk : Uuid} {now : Time}
    (h : preparePreview s e f modification pk now = .ok f') : Calm f f' ∧ f'.desk = f.desk := by
  obtain ⟨i, m, rfl, hpk, -⟩ := preparePreview_ok h
  have hdrop : Calm f { f with requests := f.requests.map dropDraft } := by
    refine .map rfl (fun r _ => ?_) rfl
    unfold dropDraft
    by_cases hd : r.status = .draft
    · exact ⟨by simp [hd], by simp [hd], by simp [hd], by simp [hd]⟩
    · exact leaves_self (if_neg hd)
  refine ⟨hdrop.trans (.append rfl rfl ?_ nofun), rfl⟩
  show pk ∉ (f.requests.map dropDraft).map (·.pk)
  rwa [map_pk dropDraft_steady.pk]

theorem switchTargets_calm {s : LinkSettings} {e : Review} {draft : PaymentRequest} {now : Time}
    (hnd : (f.requests.map (·.pk)).Nodup) (hd : draft ∈ f.requests) (h : switchTargets s e f draft now = .ok f') :
    Calm f f' ∧ f'.desk = f.desk := by
  rcases switchTargets_ok h with ⟨-, rfl⟩ | ⟨-, hs, i, rfl⟩
  · exact ⟨.refl _, rfl⟩
  refine ⟨.map rfl (fun r hr => ?_) rfl, rfl⟩
  by_cases hpk : r.pk = draft.pk
  · obtain rfl : r = draft := Table.eq_of_mem_of_key hnd hr hd hpk
    have hself := @switched_self f.reservation i now _ r hpk
    refine ⟨switched_pk r, by rw [hself]; rfl, ?_, fun hv => ?_⟩
    · rw [hself, hs]
      exact iff_of_false nofun nofun
    · rw [hs] at hv
      cases hv
  · refine ⟨switched_pk r, ?_, ?_, fun hv => ?_⟩
    · unfold switched redirected
      split_ifs <;> rfl
    · simp only [switched, if_neg hpk, redirected]
      split_ifs with h1 h2
      · exact Iff.rfl
      · simp [h2]
      · exact Iff.rfl
    · simp [switched, hpk, redirected, hv]

theorem revokeLink_calm (hnd : (f.requests.map (·.pk)).Nodup) (h : Links.revokeLink f = .ok f') :
    Calm f f' ∧ f'.desk = f.desk := by
  unfold Links.revokeLink at h
  split at h
  · cases h
    exact ⟨.refl _, rfl⟩
  rename_i current ho
  split at h
  · cases h
  · cases h
    exact ⟨calm_revoke hnd ho, rfl⟩

theorem revokeOpen_calm (hi : f'.intent = f.intent) (hr : f'.requests = f.requests) : Calm f (revokeOpen f') := by
  refine .map hi (fun r _ => ?_) (by rw [← hr]; rfl)
  by_cases hs : r.status = .open
  · have hl := revoke_leaves hs
    exact ⟨by rw [if_pos hs, hl.pk], by rw [if_pos hs, hl.amountSar], by rw [if_pos hs, hl.paid],
      by rw [if_pos hs]; exact hl.review⟩
  · exact leaves_self (if_neg hs)

/-! ### The facts of an entry -/

/-- What a checkout and a receipt may stand beside. -/
def Entry.Fair : Entry → Prop
  | .opened found r =>
    (∀ i ∈ found.intent, ∀ p ∈ found.desk.payments, p.bookingIntent = i.pk → isUnresolved p.status = false ∧
      (r.modificationRequest = none → isSettled p.status = false)) ∧
    (r.modificationRequest = none → found.desk.offlinePaymentReceipt = none) ∧
    (r.modificationRequest.isSome → ∃ reviewed ∈ r.settlementSnapshot,
      found.desk.offlinePaymentReceipt = reviewed.financialSignature.receipt)
  | .received found => collecting found = false
  | .completed .. => True

theorem receipt_of_revision {s : LinkSettings} (h : revisionChanged s f r false = false) :
    ∃ reviewed ∈ r.settlementSnapshot, f.desk.offlinePaymentReceipt = reviewed.financialSignature.receipt := by
  unfold revisionChanged at h
  split at h
  · rename_i reviewed _ _ hs
    refine ⟨reviewed, hs, ?_⟩
    simp only [Bool.or_eq_false_iff, bne_eq_false_iff_eq] at h
    have hsig : reviewed.financialSignature = financialSignature f (some r.pk) := by tauto
    rw [hsig]
    rfl
  · cases h

theorem receipt_of_eligible {s : LinkSettings} {i : BookingIntent} (h : eligible s f = .ok i) :
    f.desk.offlinePaymentReceipt = none := by
  unfold eligible at h
  split at h
  · cases h
  split at h
  · cases h
  rename_i hi
  simp only [ineligible] at hi
  split_ifs at hi with h1 h2 h3 h4
  simpa using h4

theorem previousAttempt_eq_none {intent : Uuid} (h : previousAttempt f intent r = none) :
    ∀ p ∈ f.desk.payments, p.bookingIntent = intent → isUnresolved p.status = false ∧
      (r.modificationRequest = none → isSettled p.status = false) ∧
      (p.paymentRequest = some r.pk → isSettled p.status = false) := by
  intro p hp hi
  have hnil := List.filter_eq_nil_iff.1 (Table.first_eq_none.1 h) p hp
  cases hm : r.modificationRequest with
  | none =>
    simp only [hi, hm, beq_self_eq_true, Bool.true_and, Option.isSome_none, Bool.false_eq_true, if_false, Bool.or_eq_true,
      not_or, Bool.not_eq_true] at hnil
    exact ⟨hnil.2, fun _ => hnil.1, fun _ => hnil.1⟩
  | some m =>
    simp only [hi, hm, beq_self_eq_true, Bool.true_and, Option.isSome_some, if_true, Bool.or_eq_true, Bool.and_eq_true,
      beq_iff_eq, not_or, not_and, Bool.not_eq_true] at hnil
    exact ⟨hnil.1, nofun, hnil.2⟩

/-- What a new checkout is opened beside, and the row it adds. -/
theorem createRequestCheckout_opened {s : LinkSettings} {o : CheckoutOffer}
    (h : createRequestCheckout s f r o = .ok (.opened f')) :
    (Entry.opened f r).Fair ∧ ∃ i ∈ f.intent, o.pk ∉ f.desk.payments.map (·.pk) ∧
      f' = { f with desk.payments := f.desk.payments ++ [newAttempt i.pk r o] } := by
  unfold createRequestCheckout at h
  split at h
  · cases h
  split at h
  · cases h
  split at h
  · cases h
  · cases h
  rename_i i hopen hi
  split at h
  · cases h
  split at h
  · split at h <;> cases h
  rename_i hprev
  split at h
  · cases h
  rename_i htaken
  cases h
  have hnone := previousAttempt_eq_none hprev
  have hfree : o.pk ∉ f.desk.payments.map (·.pk) := by
    simp only [List.any_eq_true, Bool.or_eq_true, beq_iff_eq, not_or, not_exists, not_and] at htaken
    intro hin
    obtain ⟨p, hp, hpk⟩ := List.mem_map.1 hin
    exact (htaken.2 p hp).1 hpk
  refine ⟨⟨fun j hj p hp hpj => ?_, fun hm => ?_, fun hm => ?_⟩, i, hi, hfree, rfl⟩
  · obtain rfl : i = j := Option.some.inj (hi.symm.trans hj)
    exact ⟨(hnone p hp hpj).1, (hnone p hp hpj).2.1⟩
  · unfold notOpen at hopen
    split_ifs at hopen with h1 h2
    · simp [hm] at h2
    · split at hopen
      · cases hopen
      · exact receipt_of_eligible (by assumption)
  · unfold notOpen at hopen
    split_ifs at hopen with h1 h2
    exact receipt_of_revision (by simpa using h2)

/-- What a receipt is recorded beside, and the rows it leaves. -/
theorem recordOfflineReceipt_ok {q : ReceiptForm} (h : recordOfflineReceipt f q = .ok f') :
    collecting f = false ∧ Calm f f' ∧ ∃ new, f'.desk.payments = f.desk.payments ++ new ∧
      (new.map (·.pk)).Nodup ∧ ∀ p ∈ new, p.pk ∉ f.desk.payments.map (·.pk) ∧ p.paymentRequest = none := by
  unfold recordOfflineReceipt at h
  split at h
  · cases h
  rename_i hrefusal
  cases h
  simp only [receiptRefusal] at hrefusal
  split_ifs at hrefusal with h1 h2 h3 h4 h5 h6 h7 h8
  refine ⟨?_, revokeOpen_calm rfl rfl, _, rfl, ?_, ?_⟩
  · cases hi : f.intent with
    | none => simp [collecting, hi]
    | some i =>
      simp only [hi, Option.isSome_some, Bool.true_and, Bool.or_eq_true, not_or, Bool.not_eq_true] at h7
      exact h7.1
  · cases f.intent <;> simp
  · intro p hp
    obtain ⟨i, hi, rfl⟩ : ∃ i, f.intent = some i ∧ manualPayment i.pk q = p := by simpa using hp
    refine ⟨fun hin => h8 (.inr ?_), rfl⟩
    obtain ⟨x, hx, hpk⟩ := List.mem_map.1 hin
    exact List.any_eq_true.2 ⟨x, hx, by rw [hpk]; simp [manualPayment]⟩

/-! ### What holds in every run -/

/-- The money of the attempt is there, under the request it was asked for. -/
def World.Holds (w : World) (p : PaymentAttempt) : Prop :=
  ∃ q ∈ w.folio.desk.payments, q.pk = p.pk ∧ verifiedSuccess q = true ∧ q.paymentRequest = p.paymentRequest

/-- The payments, the calls on them and the entries of the log fit together. -/
structure Kept (w : World) : Prop where
  keyed : (w.folio.desk.payments.map (·.pk)).Nodup
  intent : ∀ p ∈ w.folio.desk.payments, p.paymentRequest.isSome → ∃ i ∈ w.folio.intent, p.bookingIntent = i.pk
  -- an attempt that still waits for its session has no id to verify it by
  waiting : (w.waiting.map (·.attempt)).Nodup
  unsent : ∀ c ∈ w.waiting, ∃ p ∈ w.folio.desk.payments, p.pk = c.attempt ∧ p.providerCheckoutId = none ∧
    verifiedSuccess p = false
  checks : ∀ c ∈ w.checks, ∃ p ∈ w.folio.desk.payments, p.pk = c.attempt ∧ p.providerCheckoutId.isSome
  due : ∀ p ∈ w.due, w.Holds p
  completed : ∀ r p s, .completed r p s ∈ w.log → w.Holds p ∧ p.paymentRequest = some r.pk
  fair : ∀ e ∈ w.log, e.Fair

/-- Each request is paid by one attempt of its amount, and who found it unpaid has paid it or left it in review. -/
structure Booked (w : World) : Prop where
  keyed : (w.folio.requests.map (·.pk)).Nodup
  payers : ∀ pk, w.payers pk = [] ∨ ∃ p, w.payers pk = [p] ∧
    ∃ q ∈ w.folio.requests, q.pk = pk ∧ q.status = .paid ∧ p.amount = q.amountSar
  paid : ∀ q ∈ w.folio.requests, q.status = .paid → w.payers q.pk ≠ []
  marked : ∀ r p s, .completed r p s ∈ w.log → r.status ≠ .paid → ∃ q ∈ w.folio.requests, q.pk = r.pk ∧
    (q.status = .review ∨ q.status = .paid ∧ ∃ p', w.payers q.pk = [p'] ∧ p'.pk = p.pk)

/-- Nothing but requests is written, and none of them is paid by it. -/
theorem Booked.calm (h : Booked w) {w' : World} (es : List Entry) (hc : Calm w.folio w'.folio)
    (hlog : w'.log = w.log ++ es) (hes : ∀ e ∈ es, ∀ r p s, e ≠ .completed r p s) : Booked w' := by
  have hpayers : ∀ pk, w'.payers pk = w.payers pk := by
    intro pk
    have hnone : es.filterMap (Entry.payer pk) = [] := by
      refine List.filterMap_eq_nil_iff.2 fun e he => ?_
      unfold Entry.payer
      split
      · exact absurd rfl (hes _ he _ _ _)
      · rfl
    rw [World.payers, hlog, List.filterMap_append, hnone, List.append_nil]
    rfl
  refine ⟨hc.keyed h.keyed, fun pk => ?_, fun q hq hs => ?_, fun r p s hm hr => ?_⟩
  · rw [hpayers]
    refine (h.payers pk).imp_right fun ⟨p, hp, q, hq, hpk, hs, ha⟩ => ?_
    obtain ⟨q', hq', hpk', ha', hpaid, -⟩ := hc.kept q hq
    exact ⟨p, hp, q', hq', hpk'.trans hpk, hpaid hs, ha.trans ha'.symm⟩
  · obtain ⟨r, hr, hpk, hrs⟩ := hc.paid q hq hs
    rw [hpayers, ← hpk]
    exact h.paid r hr hrs
  · have hold : .completed r p s ∈ w.log := by
      rw [hlog] at hm
      exact (List.mem_append.1 hm).resolve_right fun he => hes _ he r p s rfl
    obtain ⟨q, hq, hpk, hs⟩ := h.marked r p s hold hr
    obtain ⟨q', hq', hpk', -, hpaid, hreview⟩ := hc.kept q hq
    refine ⟨q', hq', hpk'.trans hpk, hs.imp hreview fun ⟨hs, p', hp', hpp⟩ => ⟨hpaid hs, p', ?_, hpp⟩⟩
    rw [hpayers, hpk', hp']

/-- A rewriting of an attempt that leaves what it is for. -/
structure Rewrites (g : PaymentAttempt → PaymentAttempt) : Prop where
  pk : ∀ p, (g p).pk = p.pk
  paymentRequest : ∀ p, (g p).paymentRequest = p.paymentRequest
  bookingIntent : ∀ p, (g p).bookingIntent = p.bookingIntent
  providerCheckoutId : ∀ p, p.providerCheckoutId.isSome → (g p).providerCheckoutId.isSome

theorem withSession_rewrites (id : String) (code : Json) : Rewrites (withSession id code) :=
  ⟨fun _ => rfl, fun _ => rfl, fun _ => rfl, fun _ _ => rfl⟩

theorem withoutSession_rewrites (code : Json) : Rewrites (withoutSession code) :=
  ⟨fun _ => rfl, fun _ => rfl, fun _ => rfl, fun _ => id⟩

theorem uncertain_rewrites : Rewrites uncertain := ⟨fun _ => rfl, fun _ => rfl, fun _ => rfl, fun _ => id⟩

theorem rewritten_rewrites (settings : Settings) (document : Document) (now : Time) :
    Rewrites (rewritten settings document now) := ⟨fun _ => rfl, fun _ => rfl, fun _ => rfl, fun _ => id⟩

namespace Kept

variable {w' : World} {pk : Uuid} {h : PaymentAttempt → PaymentAttempt}

/-- New rows of payments, and perhaps the checkouts that they wait in. -/
theorem append (hk : Kept w) (new : List PaymentAttempt) (ws : List Waiting) (es : List Entry)
    (hi : w'.folio.intent = w.folio.intent) (hp : w'.folio.desk.payments = w.folio.desk.payments ++ new)
    (hnd : (new.map (·.pk)).Nodup)
    (hnew : ∀ p ∈ new, p.pk ∉ w.folio.desk.payments.map (·.pk) ∧
      (p.paymentRequest.isSome → ∃ i ∈ w.folio.intent, p.bookingIntent = i.pk))
    (hw : w'.waiting = w.waiting ++ ws) (hwnd : (ws.map (·.attempt)).Nodup)
    (hws : ∀ c ∈ ws, ∃ p ∈ new, p.pk = c.attempt ∧ p.providerCheckoutId = none ∧ verifiedSuccess p = false)
    (hc : w'.checks = w.checks) (hd : w'.due = w.due) (hlog : w'.log = w.log ++ es)
    (hes : ∀ e ∈ es, e.Fair ∧ ∀ r p s, e ≠ .completed r p s) : Kept w' := by
  have hin : ∀ {p}, p ∈ w.folio.desk.payments → p ∈ w'.folio.desk.payments := fun hm => by rw [hp]; simp [hm]
  have hholds : ∀ {p}, w.Holds p → w'.Holds p := fun ⟨q, hq, hrest⟩ => ⟨q, hin hq, hrest⟩
  have hmem : ∀ {e}, e ∈ w'.log → e ∈ w.log ∨ e ∈ es := fun hm => List.mem_append.1 (hlog ▸ hm)
  constructor
  · rw [hp, List.map_append, List.nodup_append]
    refine ⟨hk.keyed, hnd, fun x hx y hy he => ?_⟩
    obtain ⟨p, hpm, rfl⟩ := List.mem_map.1 hy
    exact (hnew p hpm).1 (he ▸ hx)
  · intro p hm hs
    rw [hi]
    rw [hp] at hm
    rcases List.mem_append.1 hm with hm | hm
    · exact hk.intent p hm hs
    · exact (hnew p hm).2 hs
  · rw [hw, List.map_append, List.nodup_append]
    refine ⟨hk.waiting, hwnd, fun x hx y hy he => ?_⟩
    obtain ⟨c, hcm, rfl⟩ := List.mem_map.1 hx
    obtain ⟨c', hcm', rfl⟩ := List.mem_map.1 hy
    obtain ⟨q, hq, hqc, -⟩ := hk.unsent c hcm
    obtain ⟨p, hpm, hpc, -⟩ := hws c' hcm'
    exact (hnew p hpm).1 (by rw [hpc, ← he, ← hqc]; exact List.mem_map_of_mem hq)
  · intro c hm
    rw [hw] at hm
    rcases List.mem_append.1 hm with hm | hm
    · obtain ⟨q, hq, hrest⟩ := hk.unsent c hm
      exact ⟨q, hin hq, hrest⟩
    · obtain ⟨q, hq, hrest⟩ := hws c hm
      exact ⟨q, by rw [hp]; simp [hq], hrest⟩
  · intro c hm
    obtain ⟨q, hq, hrest⟩ := hk.checks c (hc ▸ hm)
    exact ⟨q, hin hq, hrest⟩
  · exact fun p hm => hholds (hk.due p (hd ▸ hm))
  · intro r p s hm
    rcases hmem hm with hm | hm
    · exact ⟨hholds (hk.completed r p s hm).1, (hk.completed r p s hm).2⟩
    · exact absurd rfl ((hes _ hm).2 r p s)
  · intro e hm
    rcases hmem hm with hm | hm
    · exact hk.fair e hm
    · exact (hes e hm).1

/-- One attempt is rewritten, verified money stays verified, and what waits on it has still no session. -/
theorem modify (hk : Kept w) (hg : Rewrites h)
    (hv : ∀ p ∈ w.folio.desk.payments, p.pk = pk → verifiedSuccess p = true → verifiedSuccess (h p) = true)
    (hi : w'.folio.intent = w.folio.intent) (hp : w'.folio.desk = w.folio.desk.modifyPayment pk h)
    (hw : (w'.waiting.map (·.attempt)).Nodup)
    (hws : ∀ c ∈ w'.waiting, c.attempt ∈ w.waiting.map (·.attempt) ∧ (c.attempt = pk → ∀ p, p.providerCheckoutId = none →
      verifiedSuccess p = false → (h p).providerCheckoutId = none ∧ verifiedSuccess (h p) = false))
    (hc : w'.checks = w.checks) (hd : w'.due = w.due) (hlog : w'.log = w.log) : Kept w' := by
  have hrow : ∀ p ∈ w.folio.desk.payments, ∃ q ∈ w'.folio.desk.payments, q = if p.pk = pk then h p else p := by
    intro p hm
    exact ⟨_, by rw [hp]; exact List.mem_map_of_mem hm, rfl⟩
  have hholds : ∀ {p}, w.Holds p → w'.Holds p := by
    rintro p ⟨q, hq, hqp, hqv, hqr⟩
    obtain ⟨q', hq', rfl⟩ := hrow q hq
    refine ⟨_, hq', ?_⟩
    split
    · rename_i hpk
      exact ⟨(hg.pk q).trans hqp, hv q hq hpk hqv, (hg.paymentRequest q).trans hqr⟩
    · exact ⟨hqp, hqv, hqr⟩
  constructor
  · have hkeys : (w.folio.desk.modifyPayment pk h).payments.map (·.pk) = w.folio.desk.payments.map (·.pk) :=
      Table.map_key_modify fun p he => (hg.pk p).trans he
    rw [hp, hkeys]
    exact hk.keyed
  · intro p hm hs
    rw [hp] at hm
    obtain ⟨q, hq, rfl⟩ := Table.mem_modify.1 hm
    rw [hi]
    split at hs
    · rw [if_pos (by assumption), hg.bookingIntent]
      rw [hg.paymentRequest] at hs
      exact hk.intent q hq hs
    · rw [if_neg (by assumption)]
      exact hk.intent q hq hs
  · exact hw
  · intro c hm
    obtain ⟨hold, hnew⟩ := hws c hm
    obtain ⟨c', hm', hcc⟩ := List.mem_map.1 hold
    obtain ⟨p, hpm, hpc, hid, hpv⟩ := hk.unsent c' hm'
    obtain ⟨q, hq, rfl⟩ := hrow p hpm
    refine ⟨_, hq, ?_⟩
    split
    · rename_i hpk
      obtain ⟨hid', hv'⟩ := hnew (by rw [← hcc, ← hpc, hpk]) p hid hpv
      exact ⟨by rw [hg.pk, hpc, hcc], hid', hv'⟩
    · exact ⟨hpc.trans hcc, hid, hpv⟩
  · intro c hm
    obtain ⟨p, hpm, hpc, hid⟩ := hk.checks c (hc ▸ hm)
    obtain ⟨q, hq, rfl⟩ := hrow p hpm
    refine ⟨_, hq, ?_⟩
    split
    · exact ⟨(hg.pk p).trans hpc, hg.providerCheckoutId p hid⟩
    · exact ⟨hpc, hid⟩
  · exact fun p hm => hholds (hk.due p (hd ▸ hm))
  · intro r p s hm
    obtain ⟨hh, hr⟩ := hk.completed r p s (hlog ▸ hm)
    exact ⟨hholds hh, hr⟩
  · exact fun e hm => hk.fair e (hlog ▸ hm)

/-- The calls on the payments change, the payments do not. -/
theorem calls (hk : Kept w) {cs : List Check} {ps : List PaymentAttempt}
    (hc : ∀ c ∈ cs, ∃ p ∈ w.folio.desk.payments, p.pk = c.attempt ∧ p.providerCheckoutId.isSome)
    (hd : ∀ p ∈ ps, w.Holds p) : Kept { w with checks := cs, due := ps } :=
  { hk with checks := hc, due := hd }

end Kept

/-! ### Completions -/

theorem payers_append {r' : PaymentRequest} {s : LinkStatus} {w' : World} {pk : Uuid}
    (h : w'.log = w.log ++ [.completed r' p s]) :
    w'.payers pk = w.payers pk ++ if s = .paid ∧ r'.pk = pk ∧ r'.status ≠ .paid then [p] else [] := by
  rw [World.payers, h, List.filterMap_append]
  refine congrArg _ ?_
  cases s with
  | paid => by_cases hc : r'.pk = pk ∧ r'.status ≠ .paid <;> simp [Entry.payer, hc]
  | _ => rfl

/-- Who pays a request has its amount, and no other attempt of the request has collected. -/
theorem accepts_spec {s : LinkSettings} (hk : Kept w)
    (h : accepts s w.folio r p = true) : p.amount = r.amountSar ∧
      ∀ q, w.Holds q → q.paymentRequest = some r.pk → q.pk = p.pk := by
  have hsettled : ∀ {q : PaymentAttempt}, verifiedSuccess q = true → isSettled q.status = true := by
    intro q hq
    simp only [verifiedSuccess, Bool.and_eq_true, beq_iff_eq] at hq
    simp [isSettled, hq.1]
  unfold accepts at h
  split at h
  · simp only [revisionValid, Bool.and_eq_true, beq_iff_eq, Bool.not_eq_true', List.any_eq_false] at h
    refine ⟨h.1.1.1.1.1.2, fun q ⟨x, hx, hxp, hxv, hxr⟩ hq => ?_⟩
    by_contra hne
    exact h.2 x hx (by simp [hxr, hq, hsettled hxv, hxp, hne])
  · unfold legacyInvalid at h
    split at h
    · cases h
    rename_i i hi
    simp only [Bool.not_eq_true', Bool.or_eq_false_iff, bne_eq_false_iff_eq, List.any_eq_false] at h
    refine ⟨by tauto, fun q ⟨x, hx, hxp, hxv, hxr⟩ hq => ?_⟩
    obtain ⟨j, hj, hxi⟩ := hk.intent x hx (by rw [hxr, hq]; rfl)
    obtain rfl : i = j := Option.some.inj (hi.symm.trans hj)
    have hpi : p.bookingIntent = i.pk := by tauto
    by_contra hne
    exact h.2 x hx (by simp [hxi, hpi, hsettled hxv, hxp, hne])

/-- What a completion does to the request of its payment, if the request is not paid yet. -/
theorem complete_cases (w : World) (s : LinkSettings) (p : PaymentAttempt) (now : Time)
    (hp : p.paymentRequest.bind w.folio.request = some r) :
    (r.status = .paid ∧ w.complete s p now = { w with log := w.log ++ [.completed r p .paid] }) ∨
    (r.status ≠ .paid ∧ accepts s w.folio r p = true ∧
      w.complete s p now = { w with
        folio := { w.folio.modify r.pk (paidBy now) with board.reservation.paymentStatus := "paid" }
        log := w.log ++ [.completed r p .paid] }) ∨
    (r.status ≠ .paid ∧ w.complete s p now = { w with
        folio := w.folio.modify r.pk needsReview
        log := w.log ++ [.completed r p .review] }) := by
  obtain ⟨pk, hpk, hget⟩ := Option.bind_eq_some_iff.1 hp
  obtain rfl : r.pk = pk := Table.key_of_get hget
  have hlog : ∀ {g : PaymentRequest → PaymentRequest} {f : Folio}, (∀ x, (g x).pk = x.pk) →
      f.requests = (w.folio.modify r.pk g).requests → completeRequestPayment s w.folio p now = f →
        w.complete s p now = { w with folio := f, log := w.log ++ [.completed r p (g r).status] } := by
    intro g f hg hf hc
    have hread : f.request r.pk = some (g r) := by
      unfold Folio.request
      rw [hf]
      exact (Table.get_modify_self fun x hx => (hg x).trans hx).trans (congrArg (Option.map g) hget)
    unfold World.complete
    rw [hp]
    dsimp only
    rw [hc, hread]
    rfl
  by_cases hs : r.status = .paid
  · have hc : completeRequestPayment s w.folio p now = w.folio := by
      unfold completeRequestPayment
      rw [hp]
      exact if_pos hs
    refine .inl ⟨hs, ?_⟩
    unfold World.complete
    rw [hp]
    dsimp only
    rw [hc, hget, Option.map_some, Option.getD_some, hs]
  · by_cases ha : accepts s w.folio r p = true
    · refine .inr (.inl ⟨hs, ha, hlog (g := paidBy now) (fun _ => rfl) rfl ?_⟩)
      unfold completeRequestPayment
      rw [hp]
      exact (if_neg hs).trans (if_pos ha)
    · refine .inr (.inr ⟨hs, hlog (g := needsReview) (fun _ => rfl) rfl ?_⟩)
      unfold completeRequestPayment
      rw [hp]
      exact (if_neg hs).trans (if_neg ha)

/-- An unpaid request is put in review, or paid by the only attempt that has completed on it. -/
theorem Booked.finish (h : Booked w) {s : LinkStatus} {w' : World} (hr : r ∈ w.folio.requests) (hs : r.status ≠ .paid)
    (hpk : ∀ x, (g x).pk = x.pk) (hamount : ∀ x, (g x).amountSar = x.amountSar) (hstatus : ∀ x, (g x).status = s)
    (hreq : w'.folio.requests = (w.folio.modify r.pk g).requests) (hlog : w'.log = w.log ++ [.completed r p s])
    (hcase : s = .review ∨ s = .paid ∧ p.amount = r.amountSar ∧
      ∀ r' p' s', .completed r' p' s' ∈ w.log → r'.pk = r.pk → p'.pk = p.pk) : Booked w' := by
  have hsame : ∀ {q}, q ∈ w.folio.requests → q.pk = r.pk → q = r := fun hq he => Table.eq_of_mem_of_key h.keyed hq hr he
  have hself : g r ∈ w'.folio.requests := by
    rw [hreq]
    exact Table.mem_modify.2 ⟨r, hr, if_pos rfl⟩
  have hother : ∀ {q}, q ∈ w.folio.requests → q.pk ≠ r.pk → q ∈ w'.folio.requests := by
    intro q hq hne
    rw [hreq]
    exact Table.mem_modify_of_ne hq hne
  have hback : ∀ {q}, q ∈ w'.folio.requests → q = g r ∨ q ∈ w.folio.requests ∧ q.pk ≠ r.pk := by
    intro q hq
    rw [hreq] at hq
    obtain ⟨x, hx, rfl⟩ := Table.mem_modify.1 hq
    by_cases he : x.pk = r.pk
    · rw [if_pos he, hsame hx he]
      exact .inl rfl
    · rw [if_neg he]
      exact .inr ⟨hx, he⟩
  have hpayers : ∀ {pk}, pk ≠ r.pk → w'.payers pk = w.payers pk := by
    intro pk hne
    rw [payers_append hlog, if_neg fun hc => hne hc.2.1.symm, List.append_nil]
  -- nobody has paid the request so far
  have hnone : w.payers r.pk = [] := by
    refine (h.payers r.pk).resolve_right fun ⟨_, _, q, hq, hqr, hqs, _⟩ => hs ?_
    rw [← hsame hq hqr, hqs]
  have hown : w'.payers r.pk = if s = .paid then [p] else [] := by
    rw [payers_append hlog, hnone]
    simp [hs]
  constructor
  · have hkeys : (w.folio.modify r.pk g).requests.map (·.pk) = w.folio.requests.map (·.pk) :=
      Table.map_key_modify fun x hx => (hpk x).trans hx
    rw [hreq, hkeys]
    exact h.keyed
  · intro pk
    by_cases he : pk = r.pk
    · subst he
      rw [hown]
      rcases hcase with rfl | ⟨rfl, ha, -⟩
      · exact .inl rfl
      · exact .inr ⟨p, rfl, g r, hself, hpk r, hstatus r, ha.trans (hamount r).symm⟩
    · rw [hpayers he]
      refine (h.payers pk).imp_right fun ⟨p', hp', q, hq, hqp, hrest⟩ => ⟨p', hp', q, hother hq ?_, hqp, hrest⟩
      rwa [hqp]
  · intro q hq hqs
    rcases hback hq with rfl | ⟨hq, hne⟩
    · rw [hstatus] at hqs
      rw [hpk, hown, if_pos hqs]
      simp
    · rw [hpayers hne]
      exact h.paid q hq hqs
  · intro r' p' s' hm hr'
    rw [hlog] at hm
    have hfound : r'.pk = r.pk → p'.pk = p.pk ∨ s = .review → ∃ q ∈ w'.folio.requests, q.pk = r'.pk ∧
        (q.status = .review ∨ q.status = .paid ∧ ∃ x, w'.payers q.pk = [x] ∧ x.pk = p'.pk) := by
      intro he hp'
      refine ⟨g r, hself, (hpk r).trans he.symm, ?_⟩
      rcases hcase with rfl | ⟨rfl, -, -⟩
      · exact .inl (hstatus r)
      · refine .inr ⟨hstatus r, p, ?_, (hp'.resolve_right nofun).symm⟩
        rw [hpk, hown, if_pos rfl]
    rcases List.mem_append.1 hm with hm | hm
    · obtain ⟨q, hq, hqr, hqs⟩ := h.marked r' p' s' hm hr'
      by_cases he : q.pk = r.pk
      · refine hfound (hqr.symm.trans he) ?_
        rcases hcase with hrev | ⟨-, -, honly⟩
        · exact .inr hrev
        · exact .inl (honly r' p' s' hm (hqr.symm.trans he))
      · refine ⟨q, hother hq he, hqr, hqs.imp_right fun ⟨hp, x, hx, hxp⟩ => ⟨hp, x, ?_, hxp⟩⟩
        rw [hpayers he, hx]
    · obtain ⟨rfl, rfl, rfl⟩ : r' = r ∧ p' = p ∧ s' = s := by simpa using hm
      exact hfound rfl (.inl rfl)

theorem Booked.complete (h : Booked w) (hk : Kept w) {s : LinkSettings} {now : Time} : Booked (w.complete s p now) := by
  cases hp : p.paymentRequest.bind w.folio.request with
  | none =>
    unfold World.complete
    rw [hp]
    exact h
  | some r =>
    obtain ⟨pk, -, hget⟩ := Option.bind_eq_some_iff.1 hp
    have hr : r ∈ w.folio.requests := Table.mem_of_get hget
    rcases complete_cases w s p now hp with ⟨hs, hc⟩ | ⟨hs, ha, hc⟩ | ⟨hs, hc⟩
    · rw [hc]
      have hpayers : ∀ pk, World.payers { w with log := w.log ++ [.completed r p .paid] } pk = w.payers pk := by
        intro pk
        rw [payers_append rfl, if_neg fun hn => hn.2.2 hs, List.append_nil]
      refine ⟨h.keyed, fun pk => ?_, fun q hq hqs => ?_, fun r' p' s' hm hr' => ?_⟩
      · rw [hpayers]
        exact h.payers pk
      · rw [hpayers]
        exact h.paid q hq hqs
      · rcases List.mem_append.1 hm with hm | hm
        · obtain ⟨q, hq, hqr, hqs⟩ := h.marked r' p' s' hm hr'
          exact ⟨q, hq, hqr, by rwa [hpayers]⟩
        · obtain ⟨rfl, -, -⟩ : r' = r ∧ p' = p ∧ s' = .paid := by simpa using hm
          exact absurd hs hr'
    · rw [hc]
      obtain ⟨hamount, honly⟩ := accepts_spec hk ha
      refine h.finish (g := paidBy now) hr hs (fun _ => rfl) (fun _ => rfl) (fun _ => rfl) rfl rfl
        (.inr ⟨rfl, hamount, fun r' p' s' hm he => ?_⟩)
      obtain ⟨hholds, hpr⟩ := hk.completed r' p' s' hm
      exact honly p' hholds (hpr.trans (congrArg some he))
    · rw [hc]
      exact h.finish (g := needsReview) hr hs (fun _ => rfl) (fun _ => rfl) (fun _ => rfl) rfl rfl (.inl rfl)

theorem Kept.complete (hk : Kept w) (hp : w.Holds p) {s : LinkSettings} {now : Time} : Kept (w.complete s p now) := by
  cases hb : p.paymentRequest.bind w.folio.request with
  | none =>
    unfold World.complete
    rw [hb]
    exact hk
  | some r =>
    have hpr : p.paymentRequest = some r.pk := by
      obtain ⟨pk, hpk, hget⟩ := Option.bind_eq_some_iff.1 hb
      rw [hpk, Table.key_of_get hget]
    -- of the payments and the calls nothing is written
    have hgen : ∀ {f : Folio} {left : LinkStatus}, f.intent = w.folio.intent → f.desk = w.folio.desk →
        Kept { w with folio := f, log := w.log ++ [.completed r p left] } := by
      intro f left hi hd
      have hholds : ∀ {q}, w.Holds q → World.Holds { w with folio := f, log := w.log ++ [.completed r p left] } q := by
        intro q hq
        unfold World.Holds
        rwa [hd]
      refine ⟨by rw [hd]; exact hk.keyed, ?_, hk.waiting, by rw [hd]; exact hk.unsent, by rw [hd]; exact hk.checks,
        fun q hq => hholds (hk.due q hq), fun r' p' s' hm => ?_, fun e hm => ?_⟩
      · rw [hd, hi]
        exact hk.intent
      · rcases List.mem_append.1 hm with hm | hm
        · exact ⟨hholds (hk.completed r' p' s' hm).1, (hk.completed r' p' s' hm).2⟩
        · obtain ⟨rfl, rfl, -⟩ : r' = r ∧ p' = p ∧ s' = left := by simpa using hm
          exact ⟨hholds hp, hpr⟩
      · rcases List.mem_append.1 hm with hm | hm
        · exact hk.fair e hm
        · rw [List.mem_singleton.1 hm]
          trivial
    rcases complete_cases w s p now hb with ⟨-, hc⟩ | ⟨-, -, hc⟩ | ⟨-, hc⟩ <;> rw [hc] <;> exact hgen rfl rfl

/-! ### Runs -/

/-- Both halves of what holds in every run. -/
structure Sound (w : World) : Prop where
  kept : Kept w
  booked : Booked w

namespace Sound

/-- A transaction that writes requests alone. -/
theorem onFolio (h : Sound w) {result : Except String Folio}
    (hc : ∀ f, result = .ok f → Calm w.folio f ∧ f.desk = w.folio.desk) : Sound (w.onFolio result) := by
  cases result with
  | error code => exact h
  | ok f =>
    obtain ⟨hcalm, hdesk⟩ := hc f rfl
    refine ⟨h.kept.append [] [] [] hcalm.intent ?_ (by simp) (by simp) ?_ (by simp) (by simp) rfl rfl ?_ (by simp),
      h.booked.calm [] hcalm ?_ (by simp)⟩
    · rw [List.append_nil]
      exact congrArg _ hdesk
    all_goals exact (List.append_nil _).symm

/-- A transaction on one attempt. -/
theorem modifyPayment (h : Sound w) {pk : Uuid} {g : PaymentAttempt → PaymentAttempt} {ws : List Waiting} (hg : Rewrites g)
    (hv : ∀ p ∈ w.folio.desk.payments, p.pk = pk → verifiedSuccess p = true → verifiedSuccess (g p) = true)
    (hw : (ws.map (·.attempt)).Nodup)
    (hws : ∀ c ∈ ws, c.attempt ∈ w.waiting.map (·.attempt) ∧ (c.attempt = pk → ∀ p, p.providerCheckoutId = none →
      verifiedSuccess p = false → (g p).providerCheckoutId = none ∧ verifiedSuccess (g p) = false)) :
    Sound { w.modifyPayment pk g with waiting := ws } :=
  ⟨h.kept.modify hg hv rfl rfl hw hws rfl rfl rfl,
    h.booked.calm [] (.of_requests rfl rfl) (List.append_nil _).symm (by simp)⟩

/-- Only the stages of the waiting checkouts change. -/
theorem waits (h : Sound w) {ws : List Waiting} (hws : ws.map (·.attempt) = w.waiting.map (·.attempt)) :
    Sound { w with waiting := ws } := by
  refine ⟨{ h.kept with waiting := ?_, unsent := fun c hc => ?_ }, { h.booked with }⟩
  · show (ws.map (·.attempt)).Nodup
    rw [hws]
    exact h.kept.waiting
  · have hin : c.attempt ∈ w.waiting.map (·.attempt) := hws ▸ List.mem_map_of_mem hc
    obtain ⟨c', hc', he⟩ := List.mem_map.1 hin
    rw [← he]
    exact h.kept.unsent c' hc'

/-- The attempt of a checkout that waits has no session and no verified money. -/
theorem unsent (h : Sound w) {i : ℕ} {c : Waiting} (hc : w.waiting[i]? = some c) :
    ∀ p ∈ w.folio.desk.payments, p.pk = c.attempt → p.providerCheckoutId = none ∧ verifiedSuccess p = false := by
  intro p hp hpk
  obtain ⟨q, hq, hqc, hrest⟩ := h.kept.unsent c (List.mem_of_getElem? hc)
  rwa [Table.eq_of_mem_of_key h.kept.keyed hp hq (hpk.trans hqc.symm)]

theorem map_attempt_set {ws : List Waiting} {i : ℕ} {c c' : Waiting} (hc : ws[i]? = some c) (he : c'.attempt = c.attempt) :
    (ws.set i c').map (·.attempt) = ws.map (·.attempt) := by
  obtain ⟨hi, rfl⟩ := List.getElem?_eq_some_iff.1 hc
  conv_rhs => rw [← List.set_getElem_self hi]
  rw [List.map_set, List.map_set, he]

/-- The checkout at `i` is over, and no other one is about its attempt. -/
theorem erased (h : Sound w) {i : ℕ} {c : Waiting} (hc : w.waiting[i]? = some c) :
    ((w.waiting.eraseIdx i).map (·.attempt)).Nodup ∧
      ∀ c' ∈ w.waiting.eraseIdx i, c'.attempt ∈ w.waiting.map (·.attempt) ∧ c'.attempt ≠ c.attempt := by
  have hsub : (w.waiting.eraseIdx i).Sublist w.waiting := List.eraseIdx_sublist ..
  refine ⟨h.kept.waiting.sublist (hsub.map _), fun c' hc' => ⟨List.mem_map_of_mem (hsub.subset hc'), fun he => ?_⟩⟩
  obtain ⟨j, hj, hjc⟩ := List.mem_eraseIdx_iff_getElem?.1 hc'
  have hi : (w.waiting.map (·.attempt))[i]? = some c.attempt := by rw [List.getElem?_map, hc]; rfl
  have hj' : (w.waiting.map (·.attempt))[j]? = some c.attempt := by rw [List.getElem?_map, hjc, ← he]; rfl
  obtain ⟨hlt, -⟩ := List.getElem?_eq_some_iff.1 hj'
  exact hj ((List.getElem?_inj hlt h.kept.waiting).1 (hj'.trans hi.symm))

theorem answer (h : Sound w) {i : ℕ} {attempt : Uuid} {a : Checkout.Answer} (hi : w.waiting[i]? = some ⟨attempt, false⟩) :
    Sound (w.answer i attempt a) := by
  have hunsent := h.unsent hi
  have hset : (w.waiting.set i ⟨attempt, true⟩).map (·.attempt) = w.waiting.map (·.attempt) := map_attempt_set hi rfl
  have hnone : ∀ {g : PaymentAttempt → PaymentAttempt}, ∀ p ∈ w.folio.desk.payments, p.pk = attempt →
      verifiedSuccess p = true → verifiedSuccess (g p) = true := by
    intro g p hp hpk hv
    rw [(hunsent p hp hpk).2] at hv
    cases hv
  unfold World.answer
  split
  · refine h.modifyPayment (withoutSession_rewrites a.code) hnone (hset ▸ h.kept.waiting) fun c hc => ?_
    exact ⟨hset ▸ List.mem_map_of_mem hc, fun _ p hid _ => ⟨hid, rfl⟩⟩
  · split
    · exact h.waits hset
    · obtain ⟨hnd, hrest⟩ := h.erased hi
      exact h.modifyPayment (withSession_rewrites _ a.code) hnone hnd fun c hc =>
        ⟨(hrest c hc).1, fun he => absurd he (hrest c hc).2⟩

theorem handled (h : Sound w) {i : ℕ} {attempt : Uuid} (hi : w.waiting[i]? = some ⟨attempt, true⟩) :
    Sound { w.modifyPayment attempt uncertain with waiting := w.waiting.eraseIdx i } := by
  have hunsent := h.unsent hi
  obtain ⟨hnd, hrest⟩ := h.erased hi
  refine h.modifyPayment uncertain_rewrites (fun p hp hpk hv => ?_) hnd fun c hc =>
    ⟨(hrest c hc).1, fun he => absurd he (hrest c hc).2⟩
  rw [(hunsent p hp hpk).2] at hv
  cases hv

theorem checkout (h : Sound w) {s : LinkSettings} {o : CheckoutOffer}
    (hc : createRequestCheckout s w.folio r o = .ok (.opened f)) :
    Sound { w with folio := f, waiting := w.waiting ++ [⟨o.pk, false⟩], log := w.log ++ [.opened w.folio r] } := by
  obtain ⟨hfair, i, hi, hpk, rfl⟩ := createRequestCheckout_opened hc
  refine ⟨h.kept.append [newAttempt i.pk r o] [⟨o.pk, false⟩] [.opened w.folio r] rfl rfl (by simp) ?_
    rfl (by simp) ?_ rfl rfl rfl ?_, h.booked.calm [.opened w.folio r] (.of_requests rfl rfl) rfl ?_⟩
  · intro p hp
    obtain rfl := List.mem_singleton.1 hp
    exact ⟨hpk, fun _ => ⟨i, hi, rfl⟩⟩
  · intro c hcm
    obtain rfl := List.mem_singleton.1 hcm
    exact ⟨_, List.mem_singleton_self _, rfl, rfl, rfl⟩
  · intro e he
    obtain rfl := List.mem_singleton.1 he
    exact ⟨hfair, fun _ _ _ => by simp⟩
  · intro e he
    obtain rfl := List.mem_singleton.1 he
    exact fun _ _ _ => by simp

theorem receipt (h : Sound w) {form : ReceiptForm} (hr : recordOfflineReceipt w.folio form = .ok f) :
    Sound { w with folio := f, log := w.log ++ [.received w.folio] } := by
  obtain ⟨hfair, hcalm, new, hp, hnd, hnew⟩ := recordOfflineReceipt_ok hr
  refine ⟨h.kept.append new [] [.received w.folio] hcalm.intent hp hnd ?_
    (List.append_nil _).symm (by simp) (by simp) rfl rfl rfl ?_, h.booked.calm [.received w.folio] hcalm rfl ?_⟩
  · intro p hpm
    refine ⟨(hnew p hpm).1, fun hs => ?_⟩
    rw [(hnew p hpm).2] at hs
    cases hs
  · intro e he
    obtain rfl := List.mem_singleton.1 he
    exact ⟨hfair, fun _ _ _ => by simp⟩
  · intro e he
    obtain rfl := List.mem_singleton.1 he
    exact fun _ _ _ => by simp

/-- A document that completes an attempt has verified its money. -/
theorem verified_of_done {settings : Settings} {document : Document} {now : Time} {d d' : Desk} {done : Option Completion}
    (hok : processVerification settings p document now d = .ok (d', done)) (hdone : done.isSome) :
    verifiedSuccess p = false ∧ verifiedSuccess (rewritten settings document now p) = true := by
  unfold processVerification at hok
  split at hok
  · cases hok
    cases hdone
  rename_i hv
  dsimp only at hok
  split at hok
  · cases hok
  split at hok
  · rename_i hclass
    refine ⟨by simpa using hv, ?_⟩
    simp [verifiedSuccess, rewritten, hclass, statusOf]
  · cases hok
    cases hdone

theorem verified (h : Sound w) {settings : Settings} {document : Document} {now : Time} {d : Desk} {done : Option Completion}
    {attempt : Uuid} {paymentRequest : Option Uuid} {j : ℕ}
    (hj : w.checks[j]? = some ⟨settings, attempt, paymentRequest, false⟩) (hp : w.folio.desk.payment attempt = some p)
    (hok : processVerification settings p document now w.folio.desk = .ok (d, done)) :
    Sound { w with
      folio.desk := d
      checks := w.checks.set j ⟨settings, attempt, paymentRequest, true⟩
      due := if done.isSome then w.due ++ [rewritten settings document now p] else w.due } := by
  obtain rfl : p.pk = attempt := Table.key_of_get hp
  have hpm : p ∈ w.folio.desk.payments := Table.mem_of_get hp
  have hid : p.providerCheckoutId.isSome := by
    obtain ⟨q, hq, hqp, hqs⟩ := h.kept.checks _ (List.mem_of_getElem? hj)
    rwa [← Table.eq_of_mem_of_key h.kept.keyed hq hpm hqp]
  -- the attempt is written first, then the calls on it
  obtain ⟨h', hdone⟩ : Sound { w with folio.desk := d } ∧ ∀ q ∈ (if done.isSome then w.due ++ [rewritten settings document now p] else w.due),
      World.Holds { w with folio.desk := d } q := by
    rcases processVerification_ok hok with ⟨hv, rfl⟩ | ⟨hv, -, rfl⟩
    · refine ⟨h, fun q hq => ?_⟩
      split at hq
      · rename_i hd
        rw [(verified_of_done hok hd).1] at hv
        cases hv
      · exact h.kept.due q hq
    · have hs : Sound { w with folio.desk := w.folio.desk.modifyPayment p.pk (rewritten settings document now) } := by
        refine @modifyPayment w h p.pk _ w.waiting (rewritten_rewrites settings document now) (fun q hq hqp hqv => ?_)
          h.kept.waiting
          fun c hc => ⟨List.mem_map_of_mem hc, fun hcp => ?_⟩
        · rw [Table.eq_of_mem_of_key h.kept.keyed hq hpm hqp, hv] at hqv
          cases hqv
        · obtain ⟨q, hq, hqc, hnone, -⟩ := h.kept.unsent c hc
          rw [← Table.eq_of_mem_of_key h.kept.keyed hq hpm (hqc.trans hcp), hnone] at hid
          cases hid
      refine ⟨hs, fun q hq => ?_⟩
      split at hq
      · rename_i hd
        rcases List.mem_append.1 hq with hq | hq
        · exact hs.kept.due q hq
        · obtain rfl := List.mem_singleton.1 hq
          exact ⟨_, Table.mem_modify.2 ⟨p, hpm, if_pos rfl⟩, rfl, (verified_of_done hok hd).2, rfl⟩
      · exact hs.kept.due q hq
  refine ⟨h'.kept.calls (fun c hc => ?_) hdone, { h'.booked with }⟩
  rcases List.mem_or_eq_of_mem_set hc with hc | rfl
  · exact h'.kept.checks c hc
  · exact h'.kept.checks ⟨settings, p.pk, paymentRequest, false⟩ (List.mem_of_getElem? hj)

theorem step (h : Sound w) (a : Action) : Sound (w.step a) := by
  cases a with
  | issue s pk now =>
    refine h.onFolio fun f hf => ?_
    cases hi : issueRequest s w.folio pk now with
    | error code => simp [hi, Except.map] at hf
    | ok x =>
      obtain rfl : x.1 = f := by simpa [hi, Except.map] using hf
      exact issueRequest_calm h.booked.keyed hi
  | prepare s e modification pk now => exact h.onFolio fun f hf => preparePreview_calm hf
  | approve s e draft now =>
    simp only [World.step]
    split
    · exact h
    · rename_i r hr
      exact h.onFolio fun f hf => switchTargets_calm h.booked.keyed (Table.mem_of_get hr) hf
  | revokeLink => exact h.onFolio fun f hf => revokeLink_calm h.booked.keyed hf
  | change board =>
    refine @onFolio w h (.ok { w.folio with board := board }) fun f hf => ?_
    cases hf
    exact ⟨.of_requests rfl rfl, rfl⟩
  | checkout s request o =>
    simp only [World.step]
    split
    · exact h
    split
    · exact h.checkout (by assumption)
    · exact h
    · exact h
  | answered i answer =>
    simp only [World.step]
    split
    · rename_i hi
      split
      · exact h.waits (map_attempt_set hi rfl)
      · exact h.answer hi
    · exact h
  | handled i =>
    simp only [World.step]
    split
    · exact h.handled (by assumption)
    · exact h
  | receipt form =>
    simp only [World.step]
    split
    · exact h
    · exact h.receipt (by assumption)
  | verify settings attempt =>
    simp only [World.step]
    split
    · exact h
    rename_i p hp
    have hpm : p ∈ w.folio.desk.payments := Table.mem_of_get hp
    split
    · rename_i hopen
      refine ⟨h.kept.calls h.kept.checks fun q hq => ?_, { h.booked with }⟩
      rcases List.mem_append.1 hq with hq | hq
      · exact h.kept.due q hq
      · obtain rfl := List.mem_singleton.1 hq
        exact ⟨_, hpm, rfl, (opening_complete hopen).2, rfl⟩
    · rename_i hopen
      refine ⟨h.kept.calls (fun c hc => ?_) h.kept.due, { h.booked with }⟩
      rcases List.mem_append.1 hc with hc | hc
      · exact h.kept.checks c hc
      · obtain rfl := List.mem_singleton.1 hc
        refine ⟨p, hpm, Table.key_of_get hp, ?_⟩
        unfold opening at hopen
        split at hopen
        · cases hopen
        · rename_i hid
          exact Option.isSome_iff_ne_none.2 fun hn => hid (.inr (.inl hn))
    all_goals exact h
  | verified j document now =>
    simp only [World.step]
    split
    · rename_i settings attempt paymentRequest hj
      have hdropped : Sound { w with checks := w.checks.set j ⟨settings, attempt, paymentRequest, true⟩ } := by
        refine ⟨h.kept.calls (fun c hc => ?_) h.kept.due, { h.booked with }⟩
        rcases List.mem_or_eq_of_mem_set hc with hc | rfl
        · exact h.kept.checks c hc
        · exact h.kept.checks ⟨settings, attempt, paymentRequest, false⟩ (List.mem_of_getElem? hj)
      split
      · exact hdropped
      split
      · exact hdropped
      split
      · exact hdropped
      · exact h.verified hj (by assumption) (by assumption)
    · exact h
  | complete k s now =>
    simp only [World.step]
    split
    · exact h
    · rename_i p hp
      exact ⟨h.kept.complete (h.kept.due p (List.mem_of_getElem? hp)), h.booked.complete h.kept⟩

end Sound

theorem World.Fresh.sound (h : w.Fresh) : Sound w := by
  obtain ⟨hwaiting, hchecks, hdue⟩ := h.calls
  constructor
  · constructor
    · exact h.keyed
    · intro p hp hs
      rw [h.payments p hp] at hs
      cases hs
    all_goals simp [hwaiting, hchecks, hdue, h.log]
  · constructor
    all_goals simp [h.requests, h.log, World.payers]

/-- In every run of checkouts, receipts, approvals and verifications on a reservation: a checkout stands beside no attempt
that is unresolved, and beside no receipt but the one its balance was reviewed with; a receipt beside no attempt that is
unresolved or settled; a request is paid once, by an attempt of its amount; and an attempt that completes on a request
that is not paid pays it or leaves it in review for good. -/
theorem balance_collected_once (h : w.Fresh) (as : List Action) :
    (∀ e ∈ (Machine.run World.step w as).log, e.Fair) ∧
      (∀ pk, ((Machine.run World.step w as).payers pk).length ≤ 1) ∧
      (∀ q ∈ (Machine.run World.step w as).folio.requests, q.status = .paid →
        ∃ p, (Machine.run World.step w as).payers q.pk = [p] ∧ p.amount = q.amountSar) ∧
      ∀ r p s, .completed r p s ∈ (Machine.run World.step w as).log → r.status ≠ .paid →
        ∃ q ∈ (Machine.run World.step w as).folio.requests, q.pk = r.pk ∧ (q.status = .review ∨
          q.status = .paid ∧ ∃ p', (Machine.run World.step w as).payers q.pk = [p'] ∧ p'.pk = p.pk) := by
  have hs : Sound (Machine.run World.step w as) := Machine.run_inv (I := Sound) (fun _ a h => h.step a) h.sound as
  refine ⟨hs.kept.fair, fun pk => ?_, fun q hq hpaid => ?_, hs.booked.marked⟩
  · rcases hs.booked.payers pk with hnone | ⟨p, hp, -⟩
    · simp [hnone]
    · simp [hp]
  · rcases hs.booked.payers q.pk with hnone | ⟨p, hp, q', hq', hpk, -, ha⟩
    · exact absurd hnone (hs.booked.paid q hq hpaid)
    · rw [Table.eq_of_mem_of_key hs.booked.keyed hq' hq hpk] at ha
      exact ⟨p, hp, ha⟩

/-! ### A stay that is paid offline and extended -/

def receiptPk : Uuid := ⟨"7d2e7c1a-1f60-4f0e-9a51-0d5d7c2f1d01", rfl⟩

def manualPk : Uuid := ⟨"7d2e7c1a-1f60-4f0e-9a51-0d5d7c2f1d02", rfl⟩

def checkoutPk : Uuid := ⟨"7d2e7c1a-1f60-4f0e-9a51-0d5d7c2f1d03", rfl⟩

def unpaid : World := ⟨⟨⟨booked, []⟩, some bookedIntent, ⟨some intentPk, none, [], []⟩, "", []⟩, [], [], [], []⟩

def cashReceipt : ReceiptForm :=
  ⟨true, true, 900, "SAR", "cash", receiptSnapshot booked, false, true, receiptPk, manualPk, 4, 5⟩

def extendedStay : Board :=
  ⟨{ booked with checkOut := 104, totalPrice := 1200, normalizedStatus := .modified, paymentStatus := "paid" },
    [extension .completed]⟩

/-- The stay is paid in cash, extended by a night, and the balance of the night is asked for by a link. -/
def cashThenExtension : List Action :=
  [.receipt cashReceipt, .change extendedStay, .prepare live (reviewAt 20 900 300) extensionPk revisionPk 20,
   .approve live (reviewAt 30 900 300) revisionPk 30, .checkout live revisionPk ⟨checkoutPk, "LSA-7", true, true, false, true, 40⟩]

/-- A checkout that was opened while the reservation had an offline receipt. -/
def Entry.besideReceipt : Entry → Bool
  | .opened found _ => found.desk.offlinePaymentReceipt.isSome
  | .received _ | .completed .. => false

theorem unpaid_fresh : unpaid.Fresh := ⟨rfl, by simp [unpaid], by simp [unpaid], ⟨rfl, rfl, rfl⟩, rfl⟩

/-- The checkout of the extension is opened beside the receipt of the booking. -/
theorem checkout_beside_receipt :
    ∃ e ∈ (Machine.run World.step unpaid cashThenExtension).log, e.besideReceipt = true := by
  decide +kernel

def nightDocument : Document :=
  { answerDocument "000.000.000" with amount := .finite 300, merchantTransactionId := .text "LSA-7" }

/-- The guest pays the link of the night. -/
def nightPaid : List Action :=
  cashThenExtension ++ [.answered 0 (some ⟨.text "8ac7a4c9abcd", .text "sha256-abcd", .text "000.200.100"⟩),
    .verify liveSettings checkoutPk, .verified 0 nightDocument 50, .complete 0 live 51]

theorem balance_collected_once_night :
    ∃ q ∈ (Machine.run World.step unpaid nightPaid).folio.requests, q.pk = revisionPk ∧
      ∃ p, (Machine.run World.step unpaid nightPaid).payers q.pk = [p] ∧ p.amount = q.amountSar := by
  obtain ⟨-, -, hpaid, -⟩ := balance_collected_once unpaid_fresh nightPaid
  obtain ⟨q, hq, hpk, hs⟩ : ∃ q ∈ (Machine.run World.step unpaid nightPaid).folio.requests, q.pk = revisionPk ∧
      q.status = .paid := by
    decide +kernel
  exact ⟨q, hq, hpk, hpaid q hq hs⟩

end Apartments.Collecting
