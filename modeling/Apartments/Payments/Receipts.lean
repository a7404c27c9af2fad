import Apartments.Hostaway.Client
import Apartments.HyperPay.Gateway
import Apartments.Payments.Links
import Apartments.Lib.Run

/-!
# Accounting receipts in Hostaway (`payments/hostaway_ledger.py`)

One entry and the task that records it, which holds a lock: at most one runs at a time. The task loads the rows at
its start and works on these objects; what it decides from is read before and after the one request that may create a
charge, and it can end at any point. `log` keeps what Hostaway showed and answered.
-/

namespace Apartments.Receipts

open Payments HyperPay Hostaway

inductive EntryStatus
  | pending | posting | succeeded | unknown | review
deriving DecidableEq, Repr

/-- A row of `HostawayFinancialEntry`. -/
structure FinancialEntry where
  paymentAttempt : Uuid
  status : EntryStatus
  remoteChargeId : Option ℕ
  errorCode : String
  completedAt : Option Time
deriving DecidableEq

/-- What the column takes of the id of a charge: nothing because the key is missing, a value it stores, a value at
which saving raises `ValueError` or `TypeError`, or one that the database refuses. -/
inductive ChargeId
  | missing
  | stored (id : Option ℕ)
  | rejected
  | failing
deriving DecidableEq

/-- A charge of a remote stay; `isInt` says that its id is an `int`, `reservationId` is its numeric value. -/
structure Charge where
  id : ChargeId
  isInt : Bool
  reservationId : Option Dec
  title : Json
  status : Json
  amount : ReturnedAmount
  currency : Json
  paymentProvider : Json
deriving DecidableEq

/-- The exceptions of the task; of those that no handler names only that they are. -/
inductive Failure
  | hostaway (raised : Client.Raised)
  | currency
  | value
  | type
  | key
  | invalidOperation
deriving DecidableEq, Repr

/-- `type(exc).__name__`, where a handler names the exception. -/
def Failure.name : Failure → Option String
  | .hostaway raised =>
    match raised with
    | .configuration => some "HostawayConfigurationError"
    | .network => some "HostawayNetworkError"
    | .timeout => some "HostawayTimeoutError"
    | .authentication => some "HostawayAuthenticationError"
    | .notFound => some "HostawayNotFoundError"
    | .rateLimit => some "HostawayRateLimitError"
    | .server => some "HostawayServerError"
    | .response => some "HostawayResponseError"
    | .availability => some "HostawayAvailabilityError"
    | .value => some "ValueError"
    | .other => none
  | .currency => some "ExchangeRateResponseError"
  | .value => some "ValueError"
  | .type => some "TypeError"
  | .key => some "KeyError"
  | .invalidOperation => some "InvalidOperation"

/-- The body of a list of charges: no list with status `success`, or its rows; a row may be no object. -/
inductive ChargesBody
  | malformed
  | rows (rows : List (Option Charge))
deriving DecidableEq

/-- The body that answers a new charge: no object with status `success` and an object in it, or that object. -/
inductive ChargeBody
  | malformed
  | charge (charge : Charge)
deriving DecidableEq

/-- The charge is of this reservation. -/
def Charge.ofReservation (id : ℕ) (c : Charge) : Bool := c.reservationId == some (id : Dec)

/-- `get_guest_charges`; `answer` is what `_get_json` gives. -/
def getGuestCharges (id : Option ℕ) (answer : Except Client.Raised ChargesBody) : Except Failure (List Charge) :=
  match id with
  | none | some 0 => .error .value
  | some id =>
    match answer with
    | .error raised => .error (.hostaway raised)
    | .ok .malformed => .error (.hostaway .response)
    | .ok (.rows rows) =>
      if 100 ≤ rows.length ∨ rows.any fun row => !row.any (Charge.ofReservation id) then .error (.hostaway .response)
      else .ok (rows.filterMap fun row => row)

/-- `create_offline_paid_charge`; `answer` is what `_post_json` gives. -/
def createOfflinePaidCharge (id : Option ℕ) (title : String) (amount : Dec) (currency : String)
    (answer : Except Client.Raised ChargeBody) : Except Failure Charge :=
  match id with
  | none | some 0 => .error .value
  | some id =>
    match answer with
    | .error raised => .error (.hostaway raised)
    | .ok .malformed => .error (.hostaway .response)
    | .ok (.charge c) =>
      if !c.isInt || !c.ofReservation id || !c.status.isText "paid" || !c.currency.isText currency || !c.title.isText title then
        .error (.hostaway .response)
      else if c.amount = .invalid then .error .invalidOperation
      else if c.amount ≠ .finite amount ∨ !c.paymentProvider.isText "offline" then .error (.hostaway .response)
      else .ok c

/-- What the task finds at its start; `pointsTouched` is one of the points keys of `loyalty_state` being set. -/
structure Surroundings where
  enabled : Bool
  cutoff : Time
  attempt : PaymentAttempt
  request : Option Links.PaymentRequest
  intent : Links.BookingIntent
  reservation : Option Reservation
  pointsTouched : Bool
deriving DecidableEq

/-- `_direct_receipt_value`. -/
def directReceiptValue (s : Surroundings) (r : Reservation) : Except Failure (Dec × String) :=
  if r.currency = s.attempt.currency then .ok (s.attempt.amount, s.attempt.currency)
  else if s.attempt.modificationRequest.isSome ∨ s.attempt.currency ≠ "SAR" ∨ s.intent.currency ≠ r.currency ∨
      s.intent.totalPrice ≠ r.totalPrice ∨ some s.attempt.amount ≠ s.intent.paymentAmountSar ∨ s.pointsTouched then
    .error .value
  else if !Links.snapshotValid s.intent.totalPrice s.intent.currency (some s.attempt.amount) s.intent.exchangeRateSnapshot then
    .error .currency
  else .ok (s.intent.totalPrice, s.intent.currency)

/-- The request of a payment is settled by it. -/
def requestSettled (s : Surroundings) (r : Reservation) (request : Links.PaymentRequest) : Bool :=
  request.status == .paid && request.amountSar == s.attempt.amount && request.environment == .production && !r.isTest

/-- The amount and the currency that the receipt is frozen to. -/
def receiptValue (s : Surroundings) (r : Reservation) : Except Failure (Dec × String) :=
  match s.request with
  | some request => .ok (request.sourceAmount, request.sourceCurrency)
  | none => directReceiptValue s r

/-- The title of the receipt. -/
def marker (attempt : Uuid) : String := "LSA HyperPay receipt " ++ attempt.str

inductive Stage
  | reading
  | claiming (listed : List Charge)
  | posting (listed : List Charge)
  | recording (charge : Charge)
  | failing (status : EntryStatus) (name : String)
deriving DecidableEq

/-- The task: the rows it has loaded, the status of its entry object, and the value of the receipt. -/
structure Task where
  surroundings : Surroundings
  reservation : Reservation
  status : EntryStatus
  amount : Dec
  currency : String
  stage : Stage
deriving DecidableEq

/-- What Hostaway showed to a task and answered it. -/
inductive Seen
  | listed (s : Surroundings) (r : Reservation) (charges : List Charge)
  | posted (s : Surroundings) (r : Reservation) (listed : List Charge) (answer : Except Client.Raised ChargeBody)
deriving DecidableEq

/-- A call of `create_offline_paid_charge`. -/
def Seen.isPost : Seen → Bool
  | .posted .. => true
  | .listed .. => false

structure World where
  entry : FinancialEntry
  task : Option Task
  log : List Seen
deriving DecidableEq

inductive Action
  | start (s : Surroundings)
  | read (snapshot : Except Client.Raised Snapshot) (charges : Except Client.Raised ChargesBody)
  | claim
  | post (answer : Except Client.Raised ChargeBody)
  | save (now : Time)
  | crash
deriving DecidableEq

/-- The handler of the task; an exception it does not name ends the task. -/
def Task.failed (t : Task) (failure : Failure) : Option Task :=
  failure.name.map fun name => { t with stage := .failing (if t.status = .posting then .unknown else .review) name }

/-- The attempt and the stay that Hostaway shows allow a receipt. -/
def recordable (t : Task) (snapshot : Snapshot) : Bool :=
  t.surroundings.attempt.verifiedAt.isSome && !(t.surroundings.attempt.providerPaymentId.getD "" == "") &&
    Links.isSettled t.surroundings.attempt.status && some snapshot.reservationId == t.reservation.hostawayReservationId &&
    some snapshot.listingMapId == t.reservation.hostawayListingMapId && snapshot.currency == t.currency &&
    t.reservation.currency == t.currency

/-- The charges with the title of the receipt. -/
def matching (attempt : Uuid) (charges : List Charge) : List Charge := charges.filter (·.title.isText (marker attempt))

/-- The charge is a paid one of the value of the receipt. -/
def Charge.paidAs (amount : Dec) (currency : String) (c : Charge) : Bool :=
  c.status.isText "paid" && c.amount == .finite amount && c.currency.isText currency

/-- What the task makes of the charges that Hostaway lists. -/
def Task.decide (t : Task) (charges : List Charge) : Option Task :=
  match matching t.surroundings.attempt.pk charges with
  | [] =>
    if t.status = .posting ∨ t.status = .unknown ∨ t.status = .review then t.failed .value
    else some { t with stage := .claiming charges }
  | [c] =>
    if !c.status.isText "paid" then t.failed .value
    else if c.amount = .invalid then t.failed .invalidOperation
    else if !c.paidAs t.amount t.currency then t.failed .value
    else if c.id = .missing then t.failed .key
    else some { t with stage := .recording c }
  | _ => t.failed .value

namespace World

/-- The beginning of `record_payment_receipt_task`, up to its first request. -/
def start (w : World) (s : Surroundings) : World :=
  if !s.enabled ∨ w.task.isSome ∨ s.attempt.pk ≠ w.entry.paymentAttempt ∨ w.entry.status = .succeeded ∨
      !s.attempt.verifiedAt.any (s.cutoff ≤ ·) then w
  else
    match s.reservation with
    | none => w
    | some r =>
      if s.request.any fun request => !requestSettled s r request then
        { w with entry := { w.entry with status := .review, errorCode := "payment_request_not_settled" } }
      else
        match receiptValue s r with
        | .ok (amount, currency) => { w with task := some ⟨s, r, w.entry.status, amount, currency, .reading⟩ }
        | .error failure => { w with task := (Task.mk s r w.entry.status 0 "" .reading).failed failure }

/-- `entry.save()` with a charge. -/
def record (w : World) (c : Charge) (now : Time) : World :=
  match c.id with
  | .stored id =>
    { w with
      entry := { w.entry with status := .succeeded, remoteChargeId := id, errorCode := "", completedAt := some now }
      task := none }
  -- the handler saves the same id once more, which raises again
  | .missing | .rejected | .failing => { w with task := none }

def step (w : World) : Action → World
  | .start s => w.start s
  | .read snapshot answer =>
    match w.task with
    | some t =>
      match t.stage, snapshot with
      | .reading, .error raised => { w with task := t.failed (.hostaway raised) }
      | .reading, .ok snapshot =>
        if !recordable t snapshot then { w with task := t.failed .value }
        else
          match getGuestCharges t.reservation.hostawayReservationId answer with
          | .error failure => { w with task := t.failed failure }
          | .ok charges =>
            { w with task := t.decide charges, log := w.log ++ [.listed t.surroundings t.reservation charges] }
      | _, _ => w
    | none => w
  | .claim =>
    match w.task with
    | some t =>
      match t.stage with
      | .claiming listed =>
        { w with
          entry := { w.entry with status := .posting }
          task := some { t with status := .posting, stage := .posting listed } }
      | _ => w
    | none => w
  | .post answer =>
    match w.task with
    | some t =>
      match t.stage with
      | .posting listed =>
        { w with
          task :=
            match createOfflinePaidCharge t.reservation.hostawayReservationId (marker t.surroundings.attempt.pk) t.amount
              t.currency answer with
            | .ok c => some { t with stage := .recording c }
            | .error failure => t.failed failure
          log := w.log ++ [.posted t.surroundings t.reservation listed answer] }
      | _ => w
    | none => w
  | .save now =>
    match w.task with
    | some t =>
      match t.stage with
      | .recording c => w.record c now
      | .failing status name => { w with entry := { w.entry with status := status, errorCode := name }, task := none }
      | _ => w
    | none => w
  | .crash => { w with task := none }

/-- The calls of `create_offline_paid_charge`. -/
def posts (w : World) : ℕ := w.log.countP Seen.isPost

/-- A new entry. -/
structure Fresh (w : World) : Prop where
  pending : w.entry.status = .pending
  task : w.task = none
  log : w.log = []

end World

/-- What a task has seen is exactly one paid charge with the title of the receipt, for the value that the receipt is
frozen to: the only one it was shown, or the one that was accepted where it was shown none. -/
def Seen.onePaid (attempt : Uuid) : Seen → Prop
  | .listed s r charges => s.attempt.pk = attempt ∧ ∃ amount currency c, receiptValue s r = .ok (amount, currency) ∧
      matching attempt charges = [c] ∧ c.paidAs amount currency
  | .posted s r shown answer => s.attempt.pk = attempt ∧ ∃ amount currency c, receiptValue s r = .ok (amount, currency) ∧
      matching attempt shown = [] ∧
      createOfflinePaidCharge r.hostawayReservationId (marker attempt) amount currency answer = .ok c ∧
      matching attempt [c] = [c] ∧ c.paidAs amount currency

/-! ### The invariant -/

/-- What holds of a running task at its stage. -/
def Task.Going (w : World) (t : Task) : Prop :=
  match t.stage with
  | .reading =>
    receiptValue t.surroundings t.reservation = .ok (t.amount, t.currency) ∧ t.status = w.entry.status ∧
      w.entry.status ≠ .succeeded
  | .claiming shown =>
    receiptValue t.surroundings t.reservation = .ok (t.amount, t.currency) ∧ w.entry.status = .pending ∧
      matching w.entry.paymentAttempt shown = []
  | .posting shown =>
    receiptValue t.surroundings t.reservation = .ok (t.amount, t.currency) ∧ t.status = .posting ∧
      w.entry.status = .posting ∧ w.posts = 0 ∧ matching w.entry.paymentAttempt shown = []
  | .recording _ => ∃ seen ∈ w.log, seen.onePaid w.entry.paymentAttempt
  | .failing status _ => status ≠ .pending ∧ status ≠ .succeeded

structure Sound (w : World) : Prop where
  -- a call that was made has left `pending` for ever
  calls : w.posts = 0 ∨ w.posts = 1 ∧ w.entry.status ≠ .pending
  succeeded : w.entry.status = .succeeded → ∃ seen ∈ w.log, seen.onePaid w.entry.paymentAttempt
  task : ∀ t, w.task = some t → t.surroundings.attempt.pk = w.entry.paymentAttempt ∧ t.Going w

variable {w : World} {t t' : Task} {c : Charge} {charges : List Charge}

theorem posts_append (w : World) (seen : Seen) :
    ({ w with log := w.log ++ [seen] } : World).posts = w.posts + if seen.isPost then 1 else 0 := by
  simp [World.posts, List.countP_append, List.countP_singleton]

/-- A failure leaves the task with a status to write that says so, or ends it. -/
theorem Task.failed_spec {failure : Failure} (h : t.failed failure = some t') (w : World) :
    t'.surroundings = t.surroundings ∧ t'.Going w := by
  obtain ⟨name, -, rfl⟩ := Option.map_eq_some_iff.1 h
  refine ⟨rfl, ?_⟩
  show (if t.status = .posting then EntryStatus.unknown else .review) ≠ .pending ∧ _
  split <;> exact ⟨nofun, nofun⟩

/-- What a task goes on to after it has read the charges. -/
theorem Task.decide_spec (h : t.decide charges = some t') :
    (∃ failure, t.failed failure = some t') ∨
    (matching t.surroundings.attempt.pk charges = [] ∧ t.status ≠ .posting ∧ t.status ≠ .unknown ∧ t.status ≠ .review ∧
      t' = { t with stage := .claiming charges }) ∨
    ∃ c, matching t.surroundings.attempt.pk charges = [c] ∧ c.paidAs t.amount t.currency = true ∧
      t' = { t with stage := .recording c } := by
  unfold Task.decide at h
  split at h
  · rename_i hm
    split at h
    · exact .inl ⟨_, h⟩
    · rename_i hs
      simp only [not_or] at hs
      cases h
      exact .inr (.inl ⟨hm, hs.1, hs.2.1, hs.2.2, rfl⟩)
  · rename_i c hm
    split_ifs at h with h1 h2 h3 h4
    · exact .inl ⟨_, h⟩
    · exact .inl ⟨_, h⟩
    · exact .inl ⟨_, h⟩
    · exact .inl ⟨_, h⟩
    · cases h
      exact .inr (.inr ⟨c, hm, by simpa using h3, rfl⟩)
  · exact .inl ⟨_, h⟩

/-- An accepted charge is a paid one of the value that was asked for. -/
theorem createOfflinePaidCharge_ok {id : Option ℕ} {attempt : Uuid} {amount : Dec} {currency : String}
    {answer : Except Client.Raised ChargeBody} (h : createOfflinePaidCharge id (marker attempt) amount currency answer = .ok c) :
    matching attempt [c] = [c] ∧ c.paidAs amount currency = true := by
  unfold createOfflinePaidCharge at h
  split at h
  · cases h
  · cases h
  split at h
  · cases h
  · cases h
  split_ifs at h with h1 h2 h3
  cases h
  simp only [Bool.or_eq_true, Bool.not_eq_true', not_or, Bool.not_eq_false] at h1
  simp only [not_or, not_not, Bool.not_eq_true', Bool.not_eq_false] at h3
  obtain ⟨⟨⟨-, hstatus⟩, hcurrency⟩, htitle⟩ := h1
  refine ⟨by simp [matching, htitle], ?_⟩
  simp [Charge.paidAs, hstatus, hcurrency, h3.1]

namespace Sound

/-- A world without a task. -/
theorem idle (hc : w.posts = 0 ∨ w.posts = 1 ∧ w.entry.status ≠ .pending)
    (hs : w.entry.status = .succeeded → ∃ seen ∈ w.log, seen.onePaid w.entry.paymentAttempt) (ht : w.task = none) :
    Sound w :=
  ⟨hc, hs, fun t ht' => absurd (ht.symm.trans ht') (by simp)⟩

/-- The end of the task. -/
theorem ended (h : Sound w) : Sound { w with task := none } := idle h.calls h.succeeded rfl

theorem going (h : Sound w) (hatt : t.surroundings.attempt.pk = w.entry.paymentAttempt) (hgo : t.Going w) :
    Sound { w with task := some t } := by
  refine ⟨h.calls, h.succeeded, fun t' ht' => ?_⟩
  obtain rfl : t = t' := Option.some.inj ht'
  exact ⟨hatt, hgo⟩

/-- A failure of a task for the entry. -/
theorem failed (h : Sound w) (hatt : t.surroundings.attempt.pk = w.entry.paymentAttempt) (failure : Failure) :
    Sound { w with task := t.failed failure } := by
  cases hf : t.failed failure with
  | none => exact h.ended
  | some t' =>
    obtain ⟨hsur, hgo⟩ := Task.failed_spec hf w
    exact h.going ((congrArg (·.attempt.pk) hsur).trans hatt) hgo

/-- A list of charges is read. -/
theorem shown (h : Sound w) (s : Surroundings) (r : Reservation) (charges : List Charge) (ht : w.task = none) :
    Sound { w with log := w.log ++ [.listed s r charges] } := by
  refine idle ?_ (fun hs => ?_) ht
  · rw [posts_append]
    exact h.calls
  · obtain ⟨seen, hseen, hone⟩ := h.succeeded hs
    exact ⟨seen, List.mem_append_left _ hseen, hone⟩

theorem start (h : Sound w) (s : Surroundings) : Sound (w.start s) := by
  unfold World.start
  split
  · exact h
  rename_i hstart
  simp only [not_or, Bool.not_eq_true, Option.isSome_eq_false_iff, Option.isNone_iff_eq_none, not_not] at hstart
  obtain ⟨-, htask, hatt, hdone, -⟩ := hstart
  split
  · exact h
  rename_i r _
  split
  · exact idle (h.calls.imp_right fun hc => ⟨hc.1, by simp⟩) (by simp) htask
  split
  · rename_i hv
    exact h.going hatt ⟨hv, rfl, hdone⟩
  · exact h.failed hatt _

theorem read (h : Sound w) (snapshot : Except Client.Raised Snapshot) (answer : Except Client.Raised ChargesBody) :
    Sound (w.step (.read snapshot answer)) := by
  cases ht : w.task with
  | none =>
    simp only [World.step, ht]
    exact h
  | some t =>
    obtain ⟨hatt, hgo⟩ := h.task t ht
    obtain ⟨s, r, status, amount, currency, stage⟩ := t
    cases stage with
    | claiming | posting | recording | failing =>
      simp only [World.step, ht]
      exact h
    | reading =>
      obtain ⟨hvalue, hstatus, hdone⟩ := hgo
      dsimp only at hatt hvalue hstatus
      cases snapshot with
      | error raised =>
        simp only [World.step, ht]
        exact h.failed hatt _
      | ok snapshot =>
        simp only [World.step, ht]
        split
        · exact h.failed hatt _
        split
        · exact h.failed hatt _
        rename_i charges _
        have h' := h.ended.shown s r charges rfl
        cases hd : Task.decide ⟨s, r, status, amount, currency, .reading⟩ charges with
        | none => exact h'
        | some t' =>
          rcases Task.decide_spec hd with ⟨failure, hf⟩ | ⟨hm, h1, h2, h3, rfl⟩ | ⟨c, hm, hp, rfl⟩
          · have := h'.failed (t := ⟨s, r, status, amount, currency, .reading⟩) hatt failure
            rwa [hf] at this
          · -- the entry was read before, and only a pending one gets here
            have hpending : w.entry.status = .pending := by
              rw [← hstatus] at hdone ⊢
              cases status <;> first | rfl | contradiction
            exact h'.going hatt ⟨hvalue, hpending, hatt ▸ hm⟩
          · exact h'.going hatt ⟨_, List.mem_append_right _ (List.mem_singleton_self _), hatt, amount, currency, c,
              hvalue, hatt ▸ hm, hp⟩

theorem claim (h : Sound w) : Sound (w.step .claim) := by
  cases ht : w.task with
  | none =>
    simp only [World.step, ht]
    exact h
  | some t =>
    obtain ⟨hatt, hgo⟩ := h.task t ht
    obtain ⟨s, r, status, amount, currency, stage⟩ := t
    cases stage with
    | reading | posting | recording | failing =>
      simp only [World.step, ht]
      exact h
    | claiming shown =>
      obtain ⟨hvalue, hpending, hm⟩ := hgo
      simp only [World.step, ht]
      have hposts : w.posts = 0 := h.calls.resolve_right fun hc => hc.2 hpending
      refine ⟨.inl hposts, by simp, fun t ht' => ?_⟩
      obtain rfl := Option.some.inj ht'
      exact ⟨hatt, hvalue, rfl, rfl, hposts, hm⟩

theorem post (h : Sound w) (answer : Except Client.Raised ChargeBody) : Sound (w.step (.post answer)) := by
  cases ht : w.task with
  | none =>
    simp only [World.step, ht]
    exact h
  | some t =>
    obtain ⟨hatt, hgo⟩ := h.task t ht
    obtain ⟨s, r, status, amount, currency, stage⟩ := t
    cases stage with
    | reading | claiming | recording | failing =>
      simp only [World.step, ht]
      exact h
    | posting shown =>
      obtain ⟨hvalue, hstatus, hentry, hposts, hm⟩ := hgo
      dsimp only at hatt hvalue hstatus
      simp only [World.step, ht]
      have h' : Sound { w with task := none, log := w.log ++ [.posted s r shown answer] } := by
        refine idle (.inr ⟨?_, by simp [hentry]⟩) (by simp [hentry]) rfl
        show World.posts { w with log := _ } = 1
        rw [posts_append, hposts]
        rfl
      split
      · rename_i c hc
        rw [hatt] at hc
        exact h'.going hatt ⟨_, List.mem_append_right _ (List.mem_singleton_self _), hatt, amount, currency, c, hvalue, hm,
          hc, createOfflinePaidCharge_ok hc⟩
      · exact h'.failed hatt _

theorem save (h : Sound w) (now : Time) : Sound (w.step (.save now)) := by
  cases ht : w.task with
  | none =>
    simp only [World.step, ht]
    exact h
  | some t =>
    obtain ⟨hatt, hgo⟩ := h.task t ht
    obtain ⟨s, r, status, amount, currency, stage⟩ := t
    cases stage with
    | reading | claiming | posting =>
      simp only [World.step, ht]
      exact h
    | recording c =>
      simp only [World.step, ht, World.record]
      split
      · exact idle (h.calls.imp_right fun hc => ⟨hc.1, by simp⟩) (fun _ => hgo) rfl
      all_goals exact h.ended
    | failing status name =>
      simp only [World.step, ht]
      exact idle (h.calls.imp_right fun hc => ⟨hc.1, hgo.1⟩) (fun hs => absurd hs hgo.2) rfl

theorem step (h : Sound w) (a : Action) : Sound (w.step a) := by
  cases a with
  | start s => exact h.start s
  | read snapshot answer => exact h.read snapshot answer
  | claim => exact h.claim
  | post answer => exact h.post answer
  | save now => exact h.save now
  | crash => exact h.ended

end Sound

theorem World.Fresh.sound (h : w.Fresh) : Sound w := by
  refine ⟨.inl ?_, fun hs => ?_, fun t ht => ?_⟩
  · rw [World.posts, h.log]
    rfl
  · rw [h.pending] at hs
    cases hs
  · rw [h.task] at ht
    cases ht

/-- In every run of the task for an entry, whatever Hostaway answers and wherever it ends, the charge is asked for at most
once, and an entry that succeeded was shown or accepted as exactly one paid charge of its value. -/
theorem one_receipt_per_payment (h : w.Fresh) (as : List Action) :
    (Machine.run World.step w as).posts ≤ 1 ∧
      ((Machine.run World.step w as).entry.status = .succeeded →
        ∃ seen ∈ (Machine.run World.step w as).log, seen.onePaid (Machine.run World.step w as).entry.paymentAttempt) := by
  have hs : Sound (Machine.run World.step w as) := Machine.run_inv (I := Sound) (fun _ a h => h.step a) h.sound as
  refine ⟨?_, hs.succeeded⟩
  rcases hs.calls with hc | ⟨hc, -⟩ <;> omega

/-! ### A receipt whose answer is lost -/

def receivedPayment : Surroundings :=
  ⟨true, 0, { cardPayment with bookingIntent := Links.intentPk, amount := 900 }, none, Links.bookedIntent, some Links.booked, false⟩

def newEntry : World := ⟨⟨paymentPk, .pending, none, "", none⟩, none, []⟩

def shownStay : Snapshot := ⟨77001, 40161, some 2000, "new", 100, 103, 2, "SAR", 900, "unpaid", none⟩

def paidCharge : Charge :=
  ⟨.stored (some 501), true, some 77001, .text (marker paymentPk), .text "paid", .finite 900, .text "SAR", .text "offline"⟩

/-- The request times out although the charge was made; the next run finds it. -/
def lostAnswer : List Action :=
  [.start receivedPayment, .read (.ok shownStay) (.ok (.rows [])), .claim, .post (.error .timeout), .save 5,
   .start receivedPayment, .read (.ok shownStay) (.ok (.rows [some paidCharge])), .save 9]

theorem one_receipt_per_payment_found :
    (Machine.run World.step newEntry lostAnswer).posts = 1 ∧
      ∃ seen ∈ (Machine.run World.step newEntry lostAnswer).log, seen.onePaid paymentPk := by
  have h := one_receipt_per_payment (w := newEntry) ⟨rfl, rfl, rfl⟩ lostAnswer
  exact ⟨by decide +kernel, h.2 (by decide +kernel)⟩

end Apartments.Receipts
