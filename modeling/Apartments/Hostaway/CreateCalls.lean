import Apartments.Hostaway.Booking
import Apartments.Lib.Run
import Apartments.Lib.Table

/-!
# Concurrent create calls

A call of `create_hostaway_reservation`, `create_points_reservation` or
`create_manual_reservation_before_payment` is a sequence of stages; each event of a call is one transaction,
one read without a lock or one message of its request, and the events of any number of calls interleave. A
call works on the reservation object it was given (`snapshot`); only the rows are shared. A call that crashes
has no further events.

`requests` logs the calls whose create request was sent, `finals` those that wrote the outcome of theirs. The
invariant `OneClaim` counts: calls that hold a claim and final writes together are at most one, because a claim
is only taken while no attempt has been counted and no transaction ever takes an attempt back.
-/

namespace Apartments.Hostaway

structure Rows where
  reservation : Reservation
  operation : Option Operation
deriving DecidableEq

def Rows.attempts (rows : Rows) : ℕ := rows.operation.elim 0 (·.attemptCount)

/-- How the create request ends. An exception that is not caught ends the call. -/
inductive CreateReply
  | uncertain
  | rejected
  | created (snapshot : Snapshot)
deriving DecidableEq

inductive Stage
  | start
  | asking (channelId : ℕ)
  | failing (code : String)
  | blocking (code : String)
  | savingBlocked (code : String)
  | preparing (request : CreateRequest)
  | sending (request : CreateRequest)
  | sent (request : CreateRequest)
  | finishing (code : String) (operation : OperationStatus) (reservation : ReservationStatus) (id : Option ℕ)
  | confirming (request : CreateRequest) (snapshot : Snapshot)
  | done (code : String)
deriving DecidableEq

structure Call where
  kind : Kind
  snapshot : Reservation
  stage : Stage
deriving DecidableEq

inductive Event
  | gates (surroundings : Surroundings)
  | availability (answer : AvailabilityResult)
  | write (now : Time) (conflicts : Bool)
  | send
  | reply (reply : CreateReply)
deriving DecidableEq

/-- The stage after the availability answer. -/
def answered (c : Call) (channelId : ℕ) (answer : AvailabilityResult) : Stage :=
  match answer.isAvailable, answer.quote with
  | true, some quote =>
    match buildRequest c.snapshot channelId quote (c.kind == .manual) with
    | .error code => .failing code
    | .ok request => .preparing request
  | _, _ => .failing "availability_lost"

/-- The stage after the reply of the provider. -/
def replied (c : Call) (request : CreateRequest) : CreateReply → Stage
  | .uncertain => .finishing "hostaway_create_uncertain" .unknown .createUnknown none
  | .rejected => .finishing "hostaway_create_rejected" .failed .createFailed none
  | .created snapshot =>
    if responseMismatch c.snapshot request snapshot then
      .finishing "hostaway_create_response_mismatch" .unknown .createUnknown (some snapshot.reservationId)
    else .confirming request snapshot

/-- The transaction of `_prepare_operation`. -/
def prepareOperation (rows : Rows) (request : CreateRequest) (now : Time) (conflicts : Bool) : Rows × Stage :=
  let operation := rows.operation.getD newPrepared
  match claim rows.operation conflicts with
  | .refused =>
    (rows, .done (if operation.errorCode = "" then operation.status.value else operation.errorCode))
  | .conflicting =>
    ({ rows with operation := some { operation with status := .blocked, errorCode := "morning_stay_conflict" } },
      .done "morning_stay_conflict")
  | .claimed =>
    (⟨{ rows.reservation with normalizedStatus := .creating }, some (claimedRow now operation)⟩, .sending request)

/-- The transaction a call is at. -/
def transact (rows : Rows) (c : Call) (now : Time) (conflicts : Bool) : Option (Rows × Stage) :=
  match c.stage with
  | .failing code =>
    -- the reservation is written as it was read when the transaction began, whatever it says by now
    some ({ rows with reservation := { rows.reservation with normalizedStatus := .createFailed } }, .blocking code)
  | .blocking code =>
    -- `get_or_create` reads the operation without a lock and decides on what it read
    match rows.operation with
    | none => some ({ rows with operation := some (newBlocked code) }, .savingBlocked code)
    | some o => some (rows, if mayBlock o then .savingBlocked code else .done code)
  | .savingBlocked code =>
    some ({ rows with operation := rows.operation.map fun o => { o with status := .blocked, errorCode := code } },
      .done code)
  | .preparing request => some (prepareOperation rows request now conflicts)
  | .finishing code operation reservation id =>
    some (⟨finishedRow reservation id rows.reservation, rows.operation.map (finishedOperation code operation id now)⟩,
      .done code)
  | .confirming request snapshot =>
    some (⟨confirmedRow c.kind request snapshot now rows.reservation, rows.operation.map (succeededRow snapshot now)⟩,
      .done (if createdStatus c.kind snapshot = .confirmed then "confirmed" else "awaiting_payment"))
  | _ => none

/-- One event of a call: the rows and the stage it leaves, if the call is at that event. -/
def advance (rows : Rows) (c : Call) : Event → Option (Rows × Stage)
  | .gates surroundings =>
    match c.stage with
    | .start =>
      match gate c.kind surroundings c.snapshot with
      | .blocked code => some (rows, .blocking code)
      | .alreadyConfirmed => some (rows, .done "already_confirmed")
      | .passed channelId => some (rows, .asking channelId)
    | _ => none
  | .availability answer =>
    match c.stage with
    | .asking channelId => some (rows, answered c channelId answer)
    | _ => none
  | .write now conflicts => transact rows c now conflicts
  | .send =>
    match c.stage with
    | .sending request => some (rows, .sent request)
    | _ => none
  | .reply reply =>
    match c.stage with
    | .sent request => some (rows, replied c request reply)
    | _ => none

/-- The call has claimed the create and not sent it yet. -/
def Stage.unsent : Stage → ℕ
  | .sending _ => 1
  | _ => 0

/-- The call writes the outcome of its request next. -/
def Stage.final : Stage → ℕ
  | .finishing .. | .confirming .. => 1
  | _ => 0

/-- The call holds the claim of the create. -/
def Stage.claims : Stage → ℕ
  | .sending _ | .sent _ | .finishing .. | .confirming .. => 1
  | _ => 0

structure World where
  rows : Rows
  calls : List Call
  requests : List ℕ
  finals : List ℕ
deriving DecidableEq

inductive Action
  | call (kind : Kind)
  | event (i : ℕ) (event : Event)
deriving DecidableEq

namespace World

def step (w : World) : Action → World
  | .call kind => { w with calls := w.calls ++ [⟨kind, w.rows.reservation, .start⟩] }
  | .event i event =>
    match w.calls[i]? with
    | none => w
    | some c =>
      match advance w.rows c event with
      | none => w
      | some (rows, stage) =>
        { rows
          calls := w.calls.set i { c with stage }
          requests := w.requests ++ List.replicate c.stage.unsent i
          finals := w.finals ++ List.replicate c.stage.final i }

/-- The reservation is `CONFIRMED` with a Hostaway id. -/
def confirmed (w : World) : Bool :=
  w.rows.reservation.normalizedStatus == .confirmed && w.rows.reservation.hostawayReservationId.isSome

def unsent (w : World) : ℕ := (w.calls.map (·.stage.unsent)).sum

def claims (w : World) : ℕ := (w.calls.map (·.stage.claims)).sum

/-- `_fail_without_post` runs on a reservation that is confirmed by now. -/
def overwrites (w : World) : Action → Bool
  | .event i (.write _ _) =>
    w.confirmed && w.calls[i]?.any fun c => match c.stage with | .failing _ => true | _ => false
  | _ => false

end World

/-- What an event of a call can do. -/
inductive Effect (rows : Rows) : Stage → Rows → Stage → Prop
  | quiet {stage stage'} {o : Option Operation} : stage.claims = 0 → stage'.claims = 0 →
      Rows.attempts { rows with operation := o } = rows.attempts →
      Effect rows stage { rows with operation := o } stage'
  | failed {code} :
      Effect rows (.failing code)
        { rows with reservation := { rows.reservation with normalizedStatus := .createFailed } } (.blocking code)
  | claimed {request reservation o} : rows.attempts = 0 → o.attemptCount = 1 →
      Effect rows (.preparing request) ⟨reservation, some o⟩ (.sending request)
  | sent {request} : Effect rows (.sending request) rows (.sent request)
  | replied {request stage'} : stage'.claims = 1 → stage'.unsent = 0 → Effect rows (.sent request) rows stage'
  | finished {stage rows' code} : stage.final = 1 → rows'.attempts = rows.attempts →
      Effect rows stage rows' (.done code)

theorem prepareOperation_effect (rows : Rows) (request : CreateRequest) (now : Time) (conflicts : Bool) :
    Effect rows (.preparing request) (prepareOperation rows request now conflicts).1
      (prepareOperation rows request now conflicts).2 := by
  unfold prepareOperation
  cases h : claim rows.operation conflicts with
  | refused => exact .quiet (o := rows.operation) rfl rfl rfl
  | conflicting => exact .quiet rfl rfl (by cases hop : rows.operation <;> simp [Rows.attempts, hop, newPrepared])
  | claimed =>
    have hzero : rows.attempts = 0 := claim_eq_claimed h
    refine .claimed hzero ?_
    cases hop : rows.operation <;> simp_all [claimedRow, newPrepared, Rows.attempts]

theorem transact_effect {rows rows' : Rows} {c : Call} {now : Time} {conflicts : Bool} {stage : Stage}
    (h : transact rows c now conflicts = some (rows', stage)) : Effect rows c.stage rows' stage := by
  obtain ⟨kind, snapshot, s⟩ := c
  cases s with
  | start | asking | sending | sent | done => cases h
  | failing code => cases h; exact .failed
  | blocking code =>
    simp only [transact] at h
    split at h <;> cases h
    · rename_i hop
      exact .quiet rfl rfl (by simp [Rows.attempts, hop, newBlocked])
    · split <;> exact .quiet (o := rows.operation) rfl rfl rfl
  | savingBlocked code =>
    cases h
    exact .quiet rfl rfl (by cases hop : rows.operation <;> simp [Rows.attempts, hop])
  | preparing request =>
    have := prepareOperation_effect rows request now conflicts
    rwa [show prepareOperation rows request now conflicts = (rows', stage) from Option.some.inj h] at this
  | finishing code operation reservation id =>
    cases h
    exact .finished rfl (by cases hop : rows.operation <;> simp [Rows.attempts, hop, finishedOperation])
  | confirming request snapshot =>
    cases h
    exact .finished rfl (by cases hop : rows.operation <;> simp [Rows.attempts, hop, succeededRow])

theorem replied_final (c : Call) (request : CreateRequest) (reply : CreateReply) :
    (replied c request reply).claims = 1 ∧ (replied c request reply).unsent = 0 := by
  cases reply with
  | uncertain | rejected => exact ⟨rfl, rfl⟩
  | created snapshot => simp only [replied]; split <;> exact ⟨rfl, rfl⟩

theorem answered_claims (c : Call) (channelId : ℕ) (answer : AvailabilityResult) :
    (answered c channelId answer).claims = 0 := by
  unfold answered
  split
  · split <;> rfl
  · rfl

theorem advance_effect {rows rows' : Rows} {c : Call} {event : Event} {stage : Stage}
    (h : advance rows c event = some (rows', stage)) : Effect rows c.stage rows' stage := by
  cases event with
  | gates surroundings =>
    simp only [advance] at h
    split at h
    · rename_i hs
      rw [hs]
      split at h <;> cases h <;> exact .quiet (o := rows.operation) rfl rfl rfl
    · cases h
  | availability answer =>
    simp only [advance] at h
    split at h <;> cases h
    rename_i channelId hs
    rw [hs]
    exact .quiet (o := rows.operation) rfl (answered_claims c channelId answer) rfl
  | write now conflicts => exact transact_effect h
  | send =>
    simp only [advance] at h
    split at h <;> cases h
    rename_i hs
    rw [hs]
    exact .sent
  | reply reply =>
    simp only [advance] at h
    split at h <;> cases h
    rename_i request hs
    rw [hs]
    exact .replied (replied_final c request reply).1 (replied_final c request reply).2

theorem Stage.unsent_le_claims (s : Stage) : s.unsent ≤ s.claims := by
  cases s <;> simp [Stage.unsent, Stage.claims]

theorem Stage.final_le_claims (s : Stage) : s.final ≤ s.claims := by
  cases s <;> simp [Stage.final, Stage.claims]

/-- Either the event takes the claim, which no one has taken before, or it passes on at most what the call held. -/
theorem Effect.counts {rows rows' : Rows} {s s' : Stage} (h : Effect rows s rows' s') :
    rows'.attempts = rows.attempts ∧ s'.claims + s.final ≤ s.claims ∧ s'.unsent = 0 ∨
      rows.attempts = 0 ∧ rows'.attempts = 1 ∧ s.claims = 0 ∧ s'.claims = 1 ∧ s'.unsent = 1 := by
  have hu := s'.unsent_le_claims
  have hf := s.final_le_claims
  cases h with
  | quiet h0 h0' ha => exact .inl ⟨ha, by omega, by omega⟩
  | failed => exact .inl ⟨rfl, by simp [Stage.claims, Stage.final], rfl⟩
  | claimed ha ho => exact .inr ⟨ha, ho, rfl, rfl, rfl⟩
  | sent => exact .inl ⟨rfl, by simp [Stage.claims, Stage.final], rfl⟩
  | replied h1 h0 => exact .inl ⟨rfl, by rw [h1]; simp [Stage.claims, Stage.final], h0⟩
  | finished h1 ha => exact .inl ⟨ha, by simp only [Stage.claims] at hf ⊢; omega, rfl⟩

namespace World

/-- At most one call has ever claimed the create, and only that one has sent or finished anything. -/
structure OneClaim (w : World) : Prop where
  idle : w.rows.attempts = 0 → w.claims = 0 ∧ w.requests.length = 0 ∧ w.finals.length = 0
  claimed : w.claims + w.finals.length ≤ 1
  sent : w.unsent + w.requests.length ≤ 1

variable {w : World}

/-- The world after an event of call `i`. -/
def moved (w : World) (i : ℕ) (c : Call) (rows : Rows) (stage : Stage) : World :=
  { rows
    calls := w.calls.set i { c with stage }
    requests := w.requests ++ List.replicate c.stage.unsent i
    finals := w.finals ++ List.replicate c.stage.final i }

/-- What an action can do: nothing, a new call, or one event of a call. -/
theorem step_cases (w : World) (a : Action) :
    w.step a = w ∨
      (∃ kind, w.step a = { w with calls := w.calls ++ [⟨kind, w.rows.reservation, .start⟩] }) ∨
      ∃ i c event rows stage, a = .event i event ∧ w.calls[i]? = some c ∧
        advance w.rows c event = some (rows, stage) ∧ w.step a = w.moved i c rows stage := by
  cases a with
  | call kind => exact .inr (.inl ⟨kind, rfl⟩)
  | event i event =>
    simp only [step]
    split
    · exact .inl rfl
    rename_i c hc
    split
    · exact .inl rfl
    rename_i rows stage h
    exact .inr (.inr ⟨i, c, event, rows, stage, rfl, hc, h, rfl⟩)

theorem claims_le (w : World) {i : ℕ} {c : Call} (hc : w.calls[i]? = some c) : c.stage.claims ≤ w.claims :=
  List.single_le_sum (fun _ _ => Nat.zero_le _) _ (List.mem_map.2 ⟨c, List.mem_of_getElem? hc, rfl⟩)

theorem unsent_le_claims (w : World) : w.unsent ≤ w.claims := by
  unfold unsent claims
  induction w.calls with
  | nil => simp
  | cons c l ih =>
    have := c.stage.unsent_le_claims
    simp only [List.map_cons, List.sum_cons]
    omega

theorem OneClaim.moved (h : OneClaim w) {i : ℕ} {c : Call} {rows : Rows} {stage : Stage}
    (hc : w.calls[i]? = some c) (he : Effect w.rows c.stage rows stage) : OneClaim (w.moved i c rows stage) := by
  have hclaims : (w.moved i c rows stage).claims + c.stage.claims = w.claims + stage.claims :=
    Table.sum_map_set (f := fun c => c.stage.claims) (b := { c with stage }) hc
  have hunsent : (w.moved i c rows stage).unsent + c.stage.unsent = w.unsent + stage.unsent :=
    Table.sum_map_set (f := fun c => c.stage.unsent) (b := { c with stage }) hc
  have hreq : (w.moved i c rows stage).requests.length = w.requests.length + c.stage.unsent := by
    simp [World.moved]
  have hfin : (w.moved i c rows stage).finals.length = w.finals.length + c.stage.final := by
    simp [World.moved]
  have hrows : (w.moved i c rows stage).rows = rows := rfl
  have hmine := w.claims_le hc
  have hle := w.unsent_le_claims
  have hu := c.stage.unsent_le_claims
  have hf := c.stage.final_le_claims
  have hone := h.claimed
  have hsent := h.sent
  have hidle := h.idle
  refine ⟨?_, ?_, ?_⟩ <;> rw [hrows] at * <;> rcases he.counts with ⟨ha, h1, h2⟩ | ⟨ha, ha', h0, h1, h2⟩ <;> omega

theorem OneClaim.step (h : OneClaim w) (a : Action) : OneClaim (w.step a) := by
  rcases w.step_cases a with hs | ⟨kind, hs⟩ | ⟨i, c, event, rows, stage, -, hc, ha, hs⟩ <;> rw [hs]
  · exact h
  · have h1 : claims { w with calls := w.calls ++ [⟨kind, w.rows.reservation, .start⟩] } = w.claims := by
      simp [claims, Stage.claims]
    have h2 : unsent { w with calls := w.calls ++ [⟨kind, w.rows.reservation, .start⟩] } = w.unsent := by
      simp [unsent, Stage.unsent]
    exact ⟨by rw [h1]; exact h.idle, by rw [h1]; exact h.claimed, by rw [h2]; exact h.sent⟩
  · exact h.moved hc (advance_effect ha)

/-- A call has written an outcome and the reservation is confirmed. -/
structure Confirmed (w : World) : Prop where
  oneClaim : OneClaim w
  committed : w.finals ≠ []
  confirmed : w.confirmed = true

theorem Confirmed.step (h : Confirmed w) {a : Action} (hok : w.overwrites a = false) : Confirmed (w.step a) := by
  have hlen : 0 < w.finals.length := List.length_pos_iff.2 h.committed
  have hone := h.oneClaim.claimed
  rcases w.step_cases a with hs | ⟨kind, hs⟩ | ⟨i, c, event, rows, stage, ha, hc, hadv, hs⟩
  · rw [hs]; exact h
  · exact ⟨h.oneClaim.step a, by rw [hs]; exact h.committed, by rw [hs]; exact h.confirmed⟩
  · refine ⟨h.oneClaim.step a, by rw [hs]; simp [World.moved, h.committed], ?_⟩
    rw [hs]
    show (rows.reservation.normalizedStatus == .confirmed && rows.reservation.hostawayReservationId.isSome) = true
    have he := advance_effect hadv
    have hmine := w.claims_le hc
    have hf := c.stage.final_le_claims
    have hconf := h.confirmed
    generalize hst : c.stage = s at he hmine hf
    cases he with
    | quiet | sent | replied => exact hconf
    | @failed code =>
      subst ha
      -- only a write advances a failing call, and that is the step the guard excludes
      cases event with
      | write => simp [overwrites, hconf, hc, hst] at hok
      | _ => simp [advance, hst] at hadv
    | claimed h0 => have := (h.oneClaim.idle h0).2.2; omega
    | finished h1 => omega

/-- No create call of the reservation has begun. -/
structure Untouched (w : World) : Prop where
  noCalls : w.calls = []
  noRequests : w.requests = []
  noFinals : w.finals = []

theorem Untouched.oneClaim (h : Untouched w) : OneClaim w := by
  obtain ⟨h1, h2, h3⟩ := h
  constructor <;> simp [claims, unsent, h1, h2, h3]

/-- Writing `CREATE_FAILED` over a confirmed reservation always takes it out of `CONFIRMED`. -/
theorem confirmed_of_overwrites {a : Action} (h : w.overwrites a = true) :
    w.confirmed = true ∧ (w.step a).confirmed = false := by
  unfold overwrites at h
  split at h
  · rename_i i now conflicts
    simp only [Bool.and_eq_true, Option.any_eq_true] at h
    obtain ⟨hconf, c, hc, hst⟩ := h
    refine ⟨hconf, ?_⟩
    split at hst
    · rename_i code hs
      simp [step, hc, advance, transact, hs, World.confirmed]
    · cases hst
  · cases h

end World

def paidReservation : Reservation where
  pk := ⟨"5b0e7c1a-1f60-4f0e-9a51-0d5d7c2f1b01", rfl⟩
  isTest := false
  bookingIntent := some ⟨"5b0e7c1a-1f60-4f0e-9a51-0d5d7c2f1b02", rfl⟩
  property := some ⟨1, some 40160, some 40161⟩
  hostawayReservationId := none
  hostawayListingMapId := none
  channelId := none
  sourceType := .directWebsite
  normalizedStatus := .readyForHostaway
  hostawayStatus := ""
  paymentStatus := "paid"
  checkIn := 100
  checkOut := 103
  guests := 2
  currency := "SAR"
  totalPrice := 900
  sourceUpdatedAt := none
  lastSyncedAt := none
  confirmedAt := none
  cancelledAt := none
  pointsConfirmationStarted := false
  hold := false

def paidSurroundings : Surroundings where
  liveBookingEnabled := true
  loyaltyEnabled := false
  hyperpayEnvironment := "production"
  directChannelId := some 2000
  cashDue := some 900
  payments := [{
    pk := ⟨"5b0e7c1a-1f60-4f0e-9a51-0d5d7c2f1b03", rfl⟩
    bookingIntent := ⟨"5b0e7c1a-1f60-4f0e-9a51-0d5d7c2f1b02", rfl⟩
    paymentRequest := none
    modificationRequest := none
    provider := "hyperpay"
    providerCheckoutId := some "checkout-1"
    providerPaymentId := some "8ac7a4a1"
    merchantTransactionId := some "LSA-1"
    providerResultCode := "000.000.000"
    providerResultDescription := ""
    amount := 900
    currency := "SAR"
    status := .succeeded
    failureCode := ""
    paymentBrand := "VISA"
    verifiedAt := some 1
    createdAt := 0 }]

def freeStay : AvailabilityResult := ⟨true, some ⟨40160, 100, 103, 2, "SAR", 900, []⟩⟩

def createdStay : Snapshot := ⟨77001, 40161, some 2000, "new", 100, 103, 2, "SAR", 900, "paid", none⟩

def freshWorld : World := ⟨⟨paidReservation, none⟩, [], [], []⟩

/-- Both calls pass the gates; the first one books the stay and confirms it. -/
def bookedRun : List Action :=
  [.call .paid, .call .paid, .event 0 (.gates paidSurroundings), .event 1 (.gates paidSurroundings),
   .event 0 (.availability freeStay), .event 0 (.write 10 false), .event 0 .send,
   .event 0 (.reply (.created createdStay)), .event 0 (.write 11 false)]

/-- The stay it booked is not available any more when the second call asks. -/
def lostRun : List Action := [.event 1 (.availability ⟨false, none⟩), .event 1 (.write 12 false)]

end Apartments.Hostaway
