import Apartments.Hostaway.ChangeRequests
import Apartments.Hostaway.Webhooks
import Apartments.Loyalty.Valuation

/-!
# The two ways a snapshot is stored (`webhook_processor.py`, `website_reservations.py`)

`process_webhook_event` stores the snapshot as Hostaway sent it; `refresh_website_reservations` fetches the website's
own reservations and puts the price currency correction of the property in the place of the label it was sent. Both
end in `sync_reservation_snapshot`. The board of one reservation is the state; an event row, a candidate as it was
selected and what Hostaway answered are part of the action.
-/

namespace Apartments.Refresh

open Payments Hostaway Loyalty

/-- The currency check of `Reservation.clean`, which writes the code in capitals. -/
def cleaned (r : Reservation) : Option Reservation :=
  let code := Text.upper r.currency
  if code.length = 3 ∧ code.toList.all Char.isAlpha = true then some { r with currency := code } else none

/-- The requests after `_reconcile_modification_requests`. -/
def reconciled (d : Delivery) (s : Snapshot) (b : Board) : List ModificationRequest :=
  if b.reservation.bookingIntent.isNone then b.requests else b.requests.map (reconcile s d.now)

/-- `sync_reservation_snapshot`, `none` being the exception of `full_clean`; `clean` is its verdict on the other
fields. -/
def store (clean : Bool) (d : Delivery) (s : Snapshot) (b : Board) : Option Board :=
  if b.reservation.hostawayReservationId ≠ some s.reservationId ∨ isStale b.reservation s = true then some b
  else if !clean then none
  else (cleaned (syncedRow d s b.reservation)).map fun r => ⟨r, reconciled d s b⟩

/-! ### Webhooks -/

inductive EventStatus
  | received | processing | processed | ignored | failed | retryable
deriving DecidableEq, Repr

/-- A row of `HostawayWebhookEvent`. -/
structure WebhookEvent where
  status : EventStatus
  eventType : String
  hostawayReservationId : Option ℕ
  attemptCount : ℕ
  errorCode : String
deriving DecidableEq

/-- How `get_reservation` ends; `raised` is an exception that the processing does not handle. -/
inductive Fetched
  | missing | unavailable | invalid | raised
  | snapshot (snapshot : Snapshot)
deriving DecidableEq

/-- The settings of the two paths, and the currency corrections of the properties. -/
structure Site where
  allowedEvents : List String
  maxAttempts : ℕ
  refreshEnabled : Bool
  priceCurrencyOverride : Property → String

variable (site : Site)

def finishEvent (status : EventStatus) (code : String) (e : WebhookEvent) : WebhookEvent :=
  { e with status := status, errorCode := code }

/-- `_retry_event`. -/
def retryEvent (code : String) (e : WebhookEvent) : WebhookEvent :=
  if site.maxAttempts ≤ e.attemptCount then finishEvent .failed "maximum_attempts_exceeded" e
  else finishEvent .retryable code e

/-- `_claim_event`: the row it leaves, and whether the event may be processed. -/
def claimEvent (retryFailed : Bool) (e : WebhookEvent) : WebhookEvent × Bool :=
  if e.status ≠ .received ∧ e.status ≠ .retryable ∧ (retryFailed = false ∨ e.status ≠ .failed) then (e, false)
  else if site.maxAttempts ≤ e.attemptCount then (finishEvent .failed "maximum_attempts_exceeded" e, false)
  else ({ e with status := .processing, attemptCount := e.attemptCount + 1, errorCode := "" }, true)

/-- `process_webhook_event`. -/
def processWebhookEvent (retryFailed : Bool) (fetched : Fetched) (clean : Bool) (d : Delivery) (e : WebhookEvent)
    (b : Board) : WebhookEvent × Board :=
  let e' := (claimEvent site retryFailed e).1
  if (claimEvent site retryFailed e).2 = false then (e', b)
  else if e.eventType ∉ site.allowedEvents then (finishEvent .ignored "unsupported_event" e', b)
  else if e.hostawayReservationId = none then (finishEvent .failed "reservation_id_missing" e', b)
  else
    match fetched with
    | .missing => (retryEvent site "hostaway_reservation_temporarily_missing" e', b)
    | .unavailable => (retryEvent site "hostaway_temporarily_unavailable" e', b)
    | .invalid => (finishEvent .failed "reservation_schema_invalid" e', b)
    | .raised => (e', b)
    | .snapshot s =>
      match store clean d s b with
      | none => (e', b)
      | some b' => (finishEvent .processed (if isStale b.reservation s then "stale_event_ignored" else "") e', b')

/-! ### The refresh -/

/-- The reservation is one that the refresh selects. -/
def candidate (today : ℕ) (now : Time) (r : Reservation) : Bool :=
  site.refreshEnabled && r.bookingIntent.isSome && r.hostawayReservationId.isSome && decide (today ≤ r.checkOut) &&
    !isClosed r.normalizedStatus && !r.lastSyncedAt.any fun t => decide (now ≤ t + 60)

/-- The correction of the reservation's property. -/
def correction (r : Reservation) : String := r.property.elim "" site.priceCurrencyOverride

/-- `replace(snapshot, currency=override)`, if there is one. -/
def corrected (override : String) (s : Snapshot) : Snapshot :=
  if override = "" then s else { s with currency := override }

/-- `fetch`. -/
def fetch (given : Reservation) : Fetched → Option Snapshot
  | .snapshot s =>
    if given.hostawayReservationId ≠ some s.reservationId ∨ given.hostawayListingMapId ≠ some s.listingMapId then none
    else some (corrected (correction site given) s)
  | _ => none

/-- `refresh_website_reservations` on the candidate it selected as `given`; `updated_at` tells whether the row has
been written since. -/
def refreshReservation (today : ℕ) (given : Reservation) (fetched : Fetched) (clean : Bool) (d : Delivery) (b : Board) :
    Board :=
  if candidate site today d.now given = false then b
  else
    match fetch site given fetched with
    | none => b
    | some s => if b.reservation ≠ given then b else (store clean d s b).getD b

inductive Action
  | webhook (event : WebhookEvent) (retryFailed : Bool) (fetched : Fetched) (clean : Bool) (delivery : Delivery)
  | refresh (today : ℕ) (given : Reservation) (fetched : Fetched) (clean : Bool) (delivery : Delivery)
deriving DecidableEq

def step (b : Board) : Action → Board
  | .webhook e retryFailed fetched clean d => (processWebhookEvent site retryFailed fetched clean d e b).2
  | .refresh today given fetched clean d => refreshReservation site today given fetched clean d b

variable {site} {b b' : Board} {d : Delivery} {s : Snapshot} {r : Reservation} {e : WebhookEvent} {retryFailed : Bool}
  {today : ℕ} {override : String} {m : ModificationRequest}

/-! ### What the correction changes -/

theorem corrected_eq (override : String) (s : Snapshot) :
    corrected override s = { s with currency := (corrected override s).currency } := by
  unfold corrected
  split_ifs <;> rfl

@[simp] theorem corrected_reservationId (override : String) (s : Snapshot) :
    (corrected override s).reservationId = s.reservationId := by rw [corrected_eq]

@[simp] theorem corrected_updatedAt (override : String) (s : Snapshot) :
    (corrected override s).updatedAt = s.updatedAt := by rw [corrected_eq]

@[simp] theorem corrected_totalPrice (override : String) (s : Snapshot) :
    (corrected override s).totalPrice = s.totalPrice := by rw [corrected_eq]

@[simp] theorem isStale_corrected (override : String) (r : Reservation) (s : Snapshot) :
    isStale r (corrected override s) = isStale r s := by simp [isStale]

theorem syncedRow_currency (d : Delivery) (s : Snapshot) (r : Reservation) :
    (syncedRow d s r).currency = s.currency := rfl

theorem syncedRow_recoded (d : Delivery) (s : Snapshot) (r : Reservation) (code : String) :
    syncedRow d { s with currency := code } r = { syncedRow d s r with currency := code } := by
  simp only [syncedRow]

theorem syncedRow_corrected (override : String) (d : Delivery) (s : Snapshot) (r : Reservation) :
    syncedRow d (corrected override s) r =
      { syncedRow d s r with currency := (corrected override s).currency } := by
  rw [← syncedRow_recoded, ← corrected_eq]

/-- The code is one that `full_clean` passes as it is. -/
structure Capital (code : String) : Prop where
  upper : Text.upper code = code
  length : code.length = 3
  letters : code.toList.all Char.isAlpha = true

theorem cleaned_eq (h : Capital (Text.upper r.currency)) :
    cleaned r = some { r with currency := Text.upper r.currency } :=
  if_pos ⟨h.length, h.letters⟩

theorem cleaned_some {r' : Reservation} (h : cleaned r = some r') :
    r' = { r with currency := Text.upper r.currency } := by
  simp only [cleaned] at h
  split_ifs at h
  exact (Option.some.inj h).symm

theorem store_some {clean : Bool} (h : store clean d s b = some b') :
    b' = b ∨ (b.reservation.hostawayReservationId = some s.reservationId ∧ isStale b.reservation s = false ∧
      b' = ⟨{ syncedRow d s b.reservation with currency := Text.upper s.currency }, reconciled d s b⟩) := by
  unfold store at h
  split_ifs at h with hskip hclean
  · exact .inl (Option.some.inj h).symm
  · obtain ⟨r, hr, rfl⟩ := Option.map_eq_some_iff.1 h
    rw [not_or, not_not, Bool.not_eq_true] at hskip
    exact .inr ⟨hskip.1, hskip.2, by rw [cleaned_some hr]; rfl⟩

/-! ### When the two paths agree -/

/-- An event and a candidate for the same snapshot, which neither path skips; `get_reservation` has checked the
currency code of the snapshot. -/
structure Arrives (site : Site) (retryFailed : Bool) (today : ℕ) (d : Delivery) (e : WebhookEvent) (s : Snapshot)
    (b : Board) : Prop where
  claimed : (claimEvent site retryFailed e).2 = true
  allowed : e.eventType ∈ site.allowedEvents
  named : e.hostawayReservationId = some s.reservationId
  candidate : candidate site today d.now b.reservation = true
  own : b.reservation.hostawayReservationId = some s.reservationId
  fresh : isStale b.reservation s = false
  label : Capital s.currency

/-- The same reservation, and the same statuses of its requests. -/
def Agree (b b' : Board) : Prop :=
  b.reservation = b'.reservation ∧ b.requests.map (·.status) = b'.requests.map (·.status)

/-- The request is one that a snapshot can complete. -/
def isActive (m : ModificationRequest) : Bool :=
  m.status == .readyForHostaway || m.status == .processing || m.status == .unknown

/-- The snapshot names the listing of the row, and the correction says what its label says: in capitals, and to every
request that waits for it. -/
structure SameLabel (site : Site) (b : Board) (s : Snapshot) : Prop where
  listing : b.reservation.hostawayListingMapId = some s.listingMapId
  code : Text.upper (corrected (correction site b.reservation) s).currency = s.currency
  requests : ∀ m ∈ b.requests, isActive m = true →
    snapshotMatches m (corrected (correction site b.reservation) s) = snapshotMatches m s

theorem reconcile_status (s : Snapshot) (now : Time) (m : ModificationRequest) :
    (reconcile s now m).status = if isActive m && snapshotMatches m s then .completed else m.status := by
  unfold Hostaway.reconcile isActive
  split_ifs <;> rfl

/-- Two snapshots leave a request with the same status exactly if both match it or neither does. -/
theorem reconcile_status_eq {s' : Snapshot} {now : Time} :
    (reconcile s now m).status = (reconcile s' now m).status ↔
      (isActive m = true → snapshotMatches m s' = snapshotMatches m s) := by
  rw [reconcile_status, reconcile_status]
  by_cases ha : isActive m = true
  · have hopen : m.status ≠ .completed := by
      intro hdone
      simp [isActive, hdone] at ha
    cases snapshotMatches m s <;> cases snapshotMatches m s' <;> simp [ha, hopen, Ne.symm hopen]
  · simp [ha]

theorem Arrives.intent (h : Arrives site retryFailed today d e s b) : b.reservation.bookingIntent.isSome = true := by
  have hc := h.candidate
  simp only [Refresh.candidate, Bool.and_eq_true] at hc
  exact hc.1.1.1.1.2

/-- The refresh selects no row that has been written at this moment. -/
theorem Arrives.unsynced (h : Arrives site retryFailed today d e s b) : b.reservation.lastSyncedAt ≠ some d.now := by
  intro hnow
  have hc := h.candidate
  simp [Refresh.candidate, hnow] at hc

theorem Arrives.webhook (h : Arrives site retryFailed today d e s b) :
    (processWebhookEvent site retryFailed (.snapshot s) true d e b).2 =
      ⟨syncedRow d s b.reservation, reconciled d s b⟩ := by
  have hclean : cleaned (syncedRow d s b.reservation) = some (syncedRow d s b.reservation) := by
    have hcode : Text.upper (syncedRow d s b.reservation).currency = s.currency := by
      rw [syncedRow_currency, h.label.upper]
    rw [cleaned_eq (by rw [hcode]; exact h.label), hcode, ← syncedRow_recoded]
  have hstore : store true d s b = some ⟨syncedRow d s b.reservation, reconciled d s b⟩ := by
    simp [store, h.own, h.fresh, hclean]
  simp [processWebhookEvent, h.claimed, h.allowed, h.named, hstore]

theorem Arrives.refresh (h : Arrives site retryFailed today d e s b) :
    refreshReservation site today b.reservation (.snapshot s) true d b =
      if b.reservation.hostawayListingMapId = some s.listingMapId then
        (store true d (corrected (correction site b.reservation) s) b).getD b
      else b := by
  unfold refreshReservation
  simp only [h.candidate, Bool.true_eq_false, if_false, Refresh.fetch, h.own, ne_eq, not_true_eq_false, false_or]
  split_ifs <;> simp_all

theorem Arrives.stored (h : Arrives site retryFailed today d e s b) (hs : SameLabel site b s) :
    refreshReservation site today b.reservation (.snapshot s) true d b =
      ⟨syncedRow d s b.reservation, reconciled d (corrected (correction site b.reservation) s) b⟩ := by
  have hclean : cleaned (syncedRow d (corrected (correction site b.reservation) s) b.reservation) =
      some (syncedRow d s b.reservation) := by
    have hcode : Text.upper (syncedRow d (corrected (correction site b.reservation) s) b.reservation).currency =
        s.currency := by
      rw [syncedRow_currency, hs.code]
    rw [cleaned_eq (by rw [hcode]; exact h.label), hcode, syncedRow_corrected, ← syncedRow_recoded]
  rw [h.refresh, if_pos hs.listing]
  simp [store, h.own, h.fresh, hclean]

theorem agree_iff (h : Arrives site retryFailed today d e s b) :
    Agree (processWebhookEvent site retryFailed (.snapshot s) true d e b).2
        (refreshReservation site today b.reservation (.snapshot s) true d b) ↔ SameLabel site b s := by
  have hintent : b.reservation.bookingIntent.isNone = false := by
    simpa using h.intent
  constructor
  · rintro ⟨hreservation, hrequests⟩
    rw [h.webhook] at hreservation hrequests
    have hmoved : (refreshReservation site today b.reservation (.snapshot s) true d b).reservation ≠ b.reservation := by
      intro hstill
      rw [hstill] at hreservation
      exact h.unsynced (congrArg Reservation.lastSyncedAt hreservation.symm)
    rw [h.refresh] at hmoved hreservation hrequests
    split_ifs at hmoved hreservation hrequests with hlisting
    · cases hstore : store true d (corrected (correction site b.reservation) s) b with
      | none => simp [hstore] at hmoved
      | some b' =>
        rw [hstore, Option.getD_some] at hmoved hreservation hrequests
        rcases store_some hstore with rfl | ⟨-, -, rfl⟩
        · exact absurd rfl hmoved
        · refine ⟨hlisting, (congrArg Reservation.currency hreservation).symm, fun m hm => ?_⟩
          simp only [reconciled, hintent, Bool.false_eq_true, if_false, List.map_map] at hrequests
          exact reconcile_status_eq.1 (List.map_inj_left.1 hrequests m hm)
    · exact absurd rfl hmoved
  · intro hs
    rw [h.webhook, h.stored hs]
    refine ⟨rfl, ?_⟩
    simp only [reconciled, hintent, Bool.false_eq_true, if_false, List.map_map]
    exact List.map_inj_left.2 fun m hm => reconcile_status_eq.2 (hs.requests m hm)

/-! ### A stay quoted under a correction -/

/-- The snapshot shows what this change asks for. -/
def fulfilled (s : Snapshot) (m : ModificationRequest) : Bool := isActive m && !isCancellation m && snapshotMatches m s

/-- The price of the snapshot is accounted for: no change is completed by it and the price stays, or exactly one is, it
starts from the price of the stay, is funded if it costs more, and completes after every other. -/
def Priced (fx : FxCheck) (b : Board) (d : Delivery) (s : Snapshot) : Prop :=
  match b.requests.filter (fulfilled s) with
  | [] => s.totalPrice = b.reservation.totalPrice
  | [m] =>
    m.oldTotal = b.reservation.totalPrice ∧ 0 ≤ s.totalPrice ∧
      (b.reservation.totalPrice < s.totalPrice →
        fx m.pk (s.totalPrice - b.reservation.totalPrice) b.reservation.currency m.paymentAmountSar = true) ∧
      ∀ n ∈ b.requests, isCompletedChange n = true → ∃ t, n.completedAt = some t ∧ t < d.now
  | _ => False

/-- The step stores a snapshot with the quoted currency, which the refresh sees to, at a price that is accounted for. -/
def Fits (site : Site) (fx : FxCheck) (b : Board) : Action → Prop
  | .webhook _ _ (.snapshot s) _ d => s.currency = b.reservation.currency ∧ Priced fx b d s
  | .refresh _ given (.snapshot s) _ d => Priced fx b d (corrected (correction site given) s)
  | _ => True

/-- The stay is quoted in the currency that its property corrects to, its contract can be evaluated, and so can its
changes, which are in the currency of the stay. -/
structure Quoted (site : Site) (fx : FxCheck) (i : FundedIntent) (b : Board) : Prop where
  quoted : b.reservation.currency = i.currency
  overridden : ∃ p, b.reservation.property = some p ∧ site.priceCurrencyOverride p ≠ "" ∧
    Text.upper (site.priceCurrencyOverride p) = i.currency
  code : Capital i.currency
  intent : b.reservation.bookingIntent.isSome = true
  keyed : (b.requests.map (·.pk)).Nodup
  changes : ∀ m ∈ b.requests, m.currency = b.reservation.currency
  contract : ∃ p, contract fx i b = .ok p

theorem reconcile_pk (s : Snapshot) (now : Time) (m : ModificationRequest) : (reconcile s now m).pk = m.pk := by
  unfold Hostaway.reconcile
  split_ifs <;> rfl

theorem reconcile_currency (s : Snapshot) (now : Time) (m : ModificationRequest) :
    (reconcile s now m).currency = m.currency := by
  unfold Hostaway.reconcile
  split_ifs <;> rfl

/-- A request after the snapshot is a completed change if it was one, as it was, or if the snapshot completes it. -/
theorem isCompletedChange_reconcile (s : Snapshot) (now : Time) (m : ModificationRequest) :
    isCompletedChange (reconcile s now m) = (isCompletedChange m || fulfilled s m) ∧
      (isCompletedChange m = true → reconcile s now m = m ∧ fulfilled s m = false) := by
  have hcancel : isCancellation (reconcile s now m) = isCancellation m := by
    unfold Hostaway.reconcile
    split_ifs <;> rfl
  constructor
  · unfold isCompletedChange fulfilled
    rw [hcancel, reconcile_status]
    cases isActive m <;> cases snapshotMatches m s <;> cases isCancellation m <;> cases hm : m.status <;> decide
  · intro hdone
    have hactive : isActive m = false := by
      simp only [isCompletedChange, Bool.and_eq_true, beq_iff_eq] at hdone
      simp [isActive, hdone.1]
    have hsame : reconcile s now m = m := if_neg (by simp [isActive] at hactive; simp [hactive])
    exact ⟨hsame, by simp [fulfilled, hactive]⟩

/-- The completed changes after a snapshot are those before it and those it completes. -/
theorem perm_completed (s : Snapshot) (now : Time) (l : List ModificationRequest) :
    ((l.map (reconcile s now)).filter isCompletedChange).Perm
      (l.filter isCompletedChange ++ (l.filter (fulfilled s)).map (reconcile s now)) := by
  induction l with
  | nil => simp
  | cons m l ih =>
    obtain ⟨hiff, hdone⟩ := isCompletedChange_reconcile s now m
    cases hc : isCompletedChange m with
    | true =>
      obtain ⟨hsame, hf⟩ := hdone hc
      simpa [List.filter_cons, hc, hf, hsame] using ih
    | false =>
      cases hf : fulfilled s m with
      | true =>
        have hm : isCompletedChange (reconcile s now m) = true := by simp [hiff, hf]
        simp only [List.map_cons, List.filter_cons, hm, hc, hf, if_true, Bool.false_eq_true, if_false]
        exact (ih.cons _).trans List.perm_middle.symm
      | false =>
        have hm : isCompletedChange (reconcile s now m) = false := by simp [hiff, hc, hf]
        simpa [List.filter_cons, hm, hc, hf] using ih

theorem reconcile_fulfilled (now : Time) (h : fulfilled s m = true) :
    reconcile s now m = { m with status := .completed, completedAt := some now } ∧ m.newTotal = some s.totalPrice := by
  simp only [fulfilled, Bool.and_eq_true, Bool.not_eq_true'] at h
  obtain ⟨⟨hactive, hcancel⟩, hmatch⟩ := h
  refine ⟨if_pos (by rw [Bool.and_eq_true]; exact ⟨hactive, hmatch⟩), ?_⟩
  simp only [snapshotMatches, hcancel, Bool.false_eq_true, if_false, Bool.and_eq_true, beq_iff_eq] at hmatch
  exact hmatch.2.symm

/-- The changes of the contract after a snapshot whose price is accounted for. -/
theorem foldlM_reconciled {fx : FxCheck} {p : Dec × Dec} {q : Dec × Dec} (hkeyed : (b.requests.map (·.pk)).Nodup)
    (hchanges : ∀ m ∈ b.requests, m.currency = b.reservation.currency) (hp : Priced fx b d s)
    (hfold : (completedChanges b.requests).foldlM (settleChange fx b.reservation.currency) q = .ok p)
    (htotal : p.1 = b.reservation.totalPrice) :
    ∃ p', (completedChanges (b.requests.map (reconcile s d.now))).foldlM (settleChange fx b.reservation.currency) q =
      .ok p' ∧ p'.1 = s.totalPrice := by
  have hkeys : ((b.requests.map (reconcile s d.now)).map (·.pk)).Nodup := by
    have hpk : (fun m : ModificationRequest => m.pk) ∘ reconcile s d.now = (·.pk) := funext (reconcile_pk s d.now)
    rwa [List.map_map, hpk]
  have hperm := perm_completed s d.now b.requests
  unfold Priced at hp
  split at hp
  · next hnone =>
    rw [hnone, List.map_nil] at hperm
    rw [completedChanges_append hkeys hperm List.Pairwise.nil (by simp), List.append_nil]
    exact ⟨p, hfold, htotal.trans hp.symm⟩
  · next m hone =>
    obtain ⟨hold, hnonneg, hfunded, hlast⟩ := hp
    have hm : m ∈ b.requests.filter (fulfilled s) := by simp [hone]
    rw [List.mem_filter] at hm
    obtain ⟨hdone, hnew⟩ := reconcile_fulfilled d.now hm.2
    rw [hone, List.map_singleton, hdone] at hperm
    have hsettled : ∃ p',
        settleChange fx b.reservation.currency p { m with status := .completed, completedAt := some d.now } = .ok p' ∧
          p'.1 = s.totalPrice :=
      settleChange_ok hnew (hold.trans htotal.symm) (hchanges m hm.1) hnonneg (by rw [htotal]; exact hfunded)
    obtain ⟨p', hsettle, htarget⟩ := hsettled
    rw [completedChanges_append hkeys hperm (List.pairwise_singleton _ _), List.foldlM_append, hfold]
    · exact ⟨p', bind_eq_ok.2 ⟨p, rfl, bind_eq_ok.2 ⟨p', hsettle, rfl⟩⟩, htarget⟩
    · intro n hn hcompleted y hy
      obtain ⟨t, ht, hlt⟩ := hlast n hn hcompleted
      rw [List.mem_singleton.1 hy]
      exact Prod.Lex.le_iff.2 (.inl (by simpa [completionKey, ht] using hlt))
  · exact hp.elim

theorem Quoted.store {fx : FxCheck} {i : FundedIntent} {clean : Bool} (h : Quoted site fx i b)
    (hstore : store clean d s b = some b') (hcode : Text.upper s.currency = i.currency) (hp : Priced fx b d s) :
    Quoted site fx i b' := by
  rcases store_some hstore with rfl | ⟨-, -, rfl⟩
  · exact h
  have hrequests : reconciled d s b = b.requests.map (reconcile s d.now) := by
    have hintent : b.reservation.bookingIntent.isNone = false := by simpa using h.intent
    simp [reconciled, hintent]
  obtain ⟨p, hcontract⟩ := h.contract
  obtain ⟨sar, hsar, -, hfold, htotal⟩ := contract_eq_ok.1 hcontract
  obtain ⟨p', hfold', htotal'⟩ := foldlM_reconciled h.keyed h.changes hp hfold htotal
  constructor
  · exact hcode
  · obtain ⟨property, hproperty, ho⟩ := h.overridden
    refine ⟨property, ?_, ho⟩
    simp [syncedRow, hproperty]
  · exact h.code
  · exact h.intent
  · have hpk : (fun m : ModificationRequest => m.pk) ∘ reconcile s d.now = (·.pk) := funext (reconcile_pk s d.now)
    rw [hrequests, List.map_map, hpk]
    exact h.keyed
  · rw [hrequests]
    intro m hm
    obtain ⟨n, hn, rfl⟩ := List.mem_map.1 hm
    rw [reconcile_currency, h.changes n hn, h.quoted]
    exact hcode.symm
  · refine ⟨p', contract_eq_ok.2 ⟨sar, hsar, hcode, ?_, htotal'⟩⟩
    rw [h.quoted] at hfold'
    simp only [hrequests, hcode]
    exact hfold'

theorem webhook_cases (site : Site) (retryFailed : Bool) (fetched : Fetched) (clean : Bool) (d : Delivery)
    (e : WebhookEvent) (b : Board) :
    (processWebhookEvent site retryFailed fetched clean d e b).2 = b ∨ ∃ s, fetched = .snapshot s ∧
      Refresh.store clean d s b = some (processWebhookEvent site retryFailed fetched clean d e b).2 := by
  simp only [processWebhookEvent]
  split
  · exact .inl rfl
  split
  · exact .inl rfl
  split
  · exact .inl rfl
  split
  · exact .inl rfl
  · exact .inl rfl
  · exact .inl rfl
  · exact .inl rfl
  · next s =>
    cases hstore : Refresh.store clean d s b with
    | none => exact .inl rfl
    | some b' => exact .inr ⟨s, rfl, hstore⟩

theorem refresh_cases (site : Site) (today : ℕ) (given : Reservation) (fetched : Fetched) (clean : Bool) (d : Delivery)
    (b : Board) :
    refreshReservation site today given fetched clean d b = b ∨ ∃ s, fetched = .snapshot s ∧ b.reservation = given ∧
      Refresh.store clean d (corrected (correction site given) s) b =
        some (refreshReservation site today given fetched clean d b) := by
  unfold refreshReservation
  by_cases hc : candidate site today d.now given = false
  · exact .inl (if_pos hc)
  rw [if_neg hc]
  cases fetched with
  | snapshot s =>
    by_cases hlisting : given.hostawayReservationId ≠ some s.reservationId ∨
        given.hostawayListingMapId ≠ some s.listingMapId
    · exact .inl (by simp only [fetch, if_pos hlisting])
    · simp only [fetch, if_neg hlisting]
      by_cases hgiven : b.reservation = given
      · rw [if_neg (not_not_intro hgiven)]
        cases hstore : Refresh.store clean d (corrected (correction site given) s) b with
        | none => exact .inl rfl
        | some b' => exact .inr ⟨s, rfl, hgiven, hstore⟩
      · exact .inl (if_pos hgiven)
  | missing => exact .inl rfl
  | unavailable => exact .inl rfl
  | invalid => exact .inl rfl
  | raised => exact .inl rfl

theorem Quoted.step {fx : FxCheck} {i : FundedIntent} (h : Quoted site fx i b) (a : Action) (ha : Fits site fx b a) :
    Quoted site fx i (step site b a) := by
  cases a with
  | webhook e retryFailed fetched clean d =>
    rcases webhook_cases site retryFailed fetched clean d e b with
      hs | ⟨s, rfl, hstore⟩
    · rw [Refresh.step, hs]
      exact h
    · exact h.store hstore (by rw [ha.1, h.quoted, h.code.upper]) ha.2
  | refresh today given fetched clean d =>
    rcases refresh_cases site today given fetched clean d b with
      hs | ⟨s, rfl, rfl, hstore⟩
    · rw [Refresh.step, hs]
      exact h
    · obtain ⟨property, hproperty, hset, hupper⟩ := h.overridden
      refine h.store hstore ?_ ha
      simp [correction, hproperty, corrected, hset, hupper]

/-- A snapshot that neither path skips leaves the same through both exactly if it names the listing of the row and the
correction of the property is what its label says; and a stay quoted under a correction keeps its currency, its
contract and its changes in every run whose webhooks bring that currency and whose prices are accounted for. -/
theorem paths_agree (site : Site) (fx : FxCheck) (i : FundedIntent) :
    (∀ retryFailed today d e s b, Arrives site retryFailed today d e s b →
      (Agree (processWebhookEvent site retryFailed (.snapshot s) true d e b).2
        (refreshReservation site today b.reservation (.snapshot s) true d b) ↔ SameLabel site b s)) ∧
    ∀ b as, Quoted site fx i b → Machine.Meets (step site) (Fits site fx) b as →
      Quoted site fx i (Machine.run (step site) b as) :=
  ⟨fun _ _ _ _ _ _ h => agree_iff h, fun _ _ hq h => h.inv (fun _ a hq ha => hq.step a ha) hq⟩

/-! ### A listing in Marrakech that Hostaway labels in riyals -/

/-- The prices of the listing are dirhams. -/
def marrakech : Site := ⟨["reservation.updated"], 5, true, fun _ => "MAD"⟩

def noFx : FxCheck := fun _ _ _ _ => false

def dirhams : FundedIntent := ⟨"MAD", 1200, 480, true⟩

def inDirhams : Board := ⟨{ Changes.stay with currency := "MAD" }, []⟩

def update : WebhookEvent := ⟨.received, "reservation.updated", some 77001, 0, ""⟩

/-- The stay as it is, with the given label. -/
def labelled (currency : String) : Snapshot where
  reservationId := 77001
  listingMapId := 40161
  channelId := some 2000
  status := "modified"
  checkIn := 100
  checkOut := 104
  guests := 2
  currency := currency
  totalPrice := 1200
  paymentStatus := "paid"
  updatedAt := some 500

def delivery : Delivery := ⟨none, "direct", 1000⟩

theorem inDirhams_quoted : Quoted marrakech noFx dirhams inDirhams where
  quoted := rfl
  overridden := ⟨_, rfl, by decide, by decide⟩
  code := ⟨by decide, by decide, by decide⟩
  intent := rfl
  keyed := by simp [inDirhams]
  changes := by simp [inDirhams]
  contract := ⟨(1200, 480), contract_eq_ok.2 ⟨480, by decide, rfl, by simp [inDirhams, completedChanges]; rfl, rfl⟩⟩

theorem arrives_labelled (currency : String) (h : Capital currency) :
    Arrives marrakech false 100 delivery update (labelled currency) inDirhams where
  claimed := by decide
  allowed := by decide
  named := rfl
  candidate := by decide
  own := rfl
  fresh := rfl
  label := h

def byWebhook : Board :=
  (processWebhookEvent marrakech false (.snapshot (labelled "SAR")) true delivery update inDirhams).2

def byRefresh : Board :=
  refreshReservation marrakech 100 inDirhams.reservation (.snapshot (labelled "SAR")) true delivery inDirhams

/-- Hostaway calls 1200 dirhams riyals: the webhook stores riyals, and the contract cannot be evaluated any more; the
refresh keeps the dirhams. -/
theorem paths_disagree :
    Arrives marrakech false 100 delivery update (labelled "SAR") inDirhams ∧
      Quoted marrakech noFx dirhams inDirhams ∧
      byWebhook.reservation.currency = "SAR" ∧ byRefresh.reservation.currency = "MAD" ∧
      contract noFx dirhams byWebhook = .error (.validation "عملة الحجز لا تطابق لقطة الصرف الأصلية.") :=
  ⟨arrives_labelled "SAR" ⟨by decide, by decide, by decide⟩, inDirhams_quoted, by decide, by decide, rfl⟩

theorem dirhams_agree :
    Agree (processWebhookEvent marrakech false (.snapshot (labelled "MAD")) true delivery update inDirhams).2
        (refreshReservation marrakech 100 inDirhams.reservation (.snapshot (labelled "MAD")) true delivery inDirhams) ∧
      Quoted marrakech noFx dirhams
        (Machine.run (step marrakech) inDirhams
          [.webhook update false (.snapshot (labelled "MAD")) true delivery,
            .refresh 100 inDirhams.reservation (.snapshot (labelled "SAR")) true delivery]) := by
  refine ⟨((paths_agree marrakech noFx dirhams).1 false 100 delivery update (labelled "MAD") inDirhams ?_).2 ?_, ?_⟩
  · exact arrives_labelled "MAD" ⟨by decide, by decide, by decide⟩
  · exact ⟨rfl, by decide, by simp [inDirhams]⟩
  · refine (paths_agree marrakech noFx dirhams).2 _ _ inDirhams_quoted ⟨⟨rfl, ?_⟩, ?_, trivial⟩
    · rfl
    · rfl

end Apartments.Refresh
