import Apartments.Hostaway.ChangeRequests

/-!
# What a guest is answered (`modifications.py`)

A request for a change looks its key up, prices the change and stores a request in a transaction of its own; a
cancellation does all of it in one transaction. Between these steps the board moves in any way (`moved`): requests
are closed, executed or priced, and the stay is changed. `hmac` stands for `salted_hmac` of the printed values.
-/

namespace Apartments.Hostaway.Answers

open Payments Changes

/-- The values of `_idempotency_key`. -/
structure KeyValues where
  reservation : Uuid
  requestType : RequestType
  checkIn : Option ℕ
  checkOut : Option ℕ
  guests : Option ℕ
  sessionHash : String
deriving DecidableEq

/-- Who asks, and what `_base_blocker` reads of the booking besides the reservation. -/
structure Asker where
  sessionHash : String
  ownerOverride : Bool
  freshKey : String
  intentSession : String
  loyaltyBooking : Bool
deriving DecidableEq

/-- `_base_blocker`. -/
def baseBlocker (r : Reservation) (a : Asker) : String :=
  let orphanedPaid := a.ownerOverride && r.normalizedStatus == .readyForHostaway && r.hostawayReservationId.isNone
  let changedBefore := (a.ownerOverride || a.loyaltyBooking) && r.normalizedStatus == .modified
  if r.normalizedStatus ≠ .confirmed ∧ !changedBefore ∧ !orphanedPaid then "reservation_not_confirmed"
  else if r.sourceType ≠ .directWebsite then "external_channel_requires_admin"
  else if r.bookingIntent = none ∨ r.property = none then "direct_reservation_context_missing"
  else if !a.ownerOverride ∧ a.intentSession ≠ a.sessionHash then "not_found"
  else ""

/-- The change that is asked for. -/
inductive Ask
  | extension (newCheckOut : ℕ)
  | change (newCheckIn newCheckOut newGuests : ℕ)
deriving DecidableEq, Repr

/-- What the settings, the listing and Hostaway answer to it: `arrived` is that flexible cancellation is on and the
check-in is past, a capacity of 0 is none. -/
structure Offer where
  arrived : Bool
  maxNights : ℕ
  policyBlocker : String
  capacity : ℕ
  quoted : Except String Quoted
deriving DecidableEq

/-- `create_extension_quote`, up to `_persist_priced_request`. -/
def createExtensionQuote (r : Reservation) (a : Asker) (newCheckOut : ℕ) (o : Offer) : Except String Quoted :=
  if baseBlocker r a ≠ "" then .error (baseBlocker r a)
  else if o.arrived ∧ !a.ownerOverride ∧ !a.loyaltyBooking then .error "cancellation_after_check_in_not_allowed"
  else if newCheckOut ≤ r.checkOut then .error "extension_must_add_nights"
  else if o.maxNights < newCheckOut - r.checkOut then .error "extension_limit_exceeded"
  else if o.policyBlocker ≠ "" then .error o.policyBlocker
  else o.quoted.map fun q =>
    { q with requestType := .extendStay, newCheckIn := r.checkIn, newCheckOut := newCheckOut, newGuests := r.guests }

/-- `create_change_quote`, up to `_persist_priced_request`. -/
def createChangeQuote (r : Reservation) (a : Asker) (newCheckIn newCheckOut newGuests : ℕ) (o : Offer) :
    Except String Quoted :=
  if baseBlocker r a ≠ "" then .error (baseBlocker r a)
  else if newCheckIn = r.checkIn ∧ newGuests = r.guests ∧ r.checkOut < newCheckOut then
    createExtensionQuote r a newCheckOut o
  else if newCheckOut ≤ newCheckIn then .error "invalid_dates"
  else if newGuests = 0 then .error "invalid_guests"
  else if o.policyBlocker ≠ "" then .error o.policyBlocker
  else if o.capacity ≠ 0 ∧ o.capacity < newGuests then .error "capacity_exceeded"
  else o.quoted.map fun q =>
    { q with
      requestType := if newCheckIn = r.checkIn ∧ newCheckOut = r.checkOut then .changeGuests else .changeDates
      newCheckIn := newCheckIn
      newCheckOut := newCheckOut
      newGuests := newGuests }

/-- The key of a priced change; an owner's change gets a fresh one. -/
def pricedKey (hmac : KeyValues → String) (r : Reservation) (a : Asker) (q : Quoted) : String :=
  if a.ownerOverride then a.freshKey
  else hmac ⟨r.pk, q.requestType, some q.newCheckIn, some q.newCheckOut, some q.newGuests, a.sessionHash⟩

/-- What the ask hands to `_persist_priced_request`, with its key. -/
def pricedAsk (hmac : KeyValues → String) (r : Reservation) (a : Asker) (ask : Ask) (o : Offer) : Except String Quoted :=
  let quoted := match ask with
    | .extension newCheckOut => createExtensionQuote r a newCheckOut o
    | .change newCheckIn newCheckOut newGuests => createChangeQuote r a newCheckIn newCheckOut newGuests o
  quoted.map fun q => { q with idempotencyKey := pricedKey hmac r a q }

/-- `ModificationCreation`, or the exception of a validation or of a violated constraint. -/
inductive Answer
  | refused (code : String)
  | idempotent (request : ModificationRequest)
  | created (request : ModificationRequest)
  | raised
deriving DecidableEq

/-- The request that the answer gives. -/
def Answer.request : Answer → Option ModificationRequest
  | .idempotent m | .created m => some m
  | .refused _ | .raised => none

/-- The request stored under a key. -/
def stored (b : Board) (key : String) : Option ModificationRequest :=
  Table.get ModificationRequest.idempotencyKey b.requests key

/-- `_persist_priced_request` before its transaction, on the reservation object it is given; `none` goes on. -/
def lookUp (b : Board) (given : Reservation) (q : Quoted) : Option Answer :=
  if q.currency ≠ given.currency then some (.refused "currency_changed")
  else
    match stored b q.idempotencyKey with
    | some m => some (.idempotent m)
    | none =>
      if 0 < q.totalPrice - given.totalPrice ∧ q.paymentAmountSar = none then some (.refused "fx_unavailable") else none

/-- The refusals of the transaction. -/
def storeRefusal (b : Board) (given : Reservation) : Option String :=
  if b.reservation.checkIn ≠ given.checkIn ∨ b.reservation.checkOut ≠ given.checkOut ∨
      b.reservation.totalPrice ≠ given.totalPrice then some "reservation_changed"
  else if b.requests.any fun m => m.status == .processing || m.status == .unknown then some "modification_in_progress"
  else none

/-- The key or the primary key of a new row is taken. -/
def conflicting (b : Board) (key : String) (pk : Uuid) : Bool :=
  b.requests.any fun m => m.idempotencyKey == key || m.pk == pk

/-- `full_clean` and the transaction of `_persist_priced_request`. -/
def store (b : Board) (given : Reservation) (q : Quoted) (clean : Bool) : Answer × Board :=
  if !clean then (.raised, b)
  else
    match storeRefusal b given with
    | some code => (.refused code, b)
    | none =>
      if conflicting b q.idempotencyKey q.pk then (.raised, b)
      else (.created (quotedRequest given q), { b with requests := b.requests.map supersede ++ [quotedRequest given q] })

/-- The cancellation that is asked for, with its key. -/
def askedCancellation (hmac : KeyValues → String) (b : Board) (a : Asker) (q : CancellationAsked) : CancellationAsked :=
  { q with
    baseBlocker := baseBlocker b.reservation a
    idempotencyKey := hmac ⟨b.reservation.pk, .cancelReservation, none, none, none, a.sessionHash⟩ }

/-- The refusals of a cancellation before its key is looked up. -/
def cancellationRefused (q : CancellationAsked) : Option String :=
  if !q.requestsEnabled then some "cancellation_requests_disabled"
  else if q.baseBlocker ≠ "" then some q.baseBlocker
  else if q.cancellationBlocker ≠ "" then some q.cancellationBlocker
  else none

/-- `create_cancellation_request`. -/
def cancellation (b : Board) (q : CancellationAsked) (clean : Bool) : Answer × Board :=
  match cancellationRefused q with
  | some code => (.refused code, b)
  | none =>
    match stored b q.idempotencyKey with
    | some m => (.idempotent m, b)
    | none =>
      if q.planRefused then (.refused "loyalty_departure_evidence_required", b)
      else if !clean ∨ conflicting b q.idempotencyKey q.pk then (.raised, b)
      else (.created (cancellationRequest b.reservation q),
        { b with requests := b.requests ++ [cancellationRequest b.reservation q] })

/-- The changes between lookup and transaction, and every answer with the reservation as it stood. -/
structure World where
  board : Board
  pending : List (Reservation × Quoted)
  answers : List (Reservation × Answer)
deriving DecidableEq

inductive Action
  | moved (board : Board)
  | quote (given : Reservation) (asker : Asker) (ask : Ask) (offer : Offer)
  | store (i : ℕ) (clean : Bool)
  | cancel (asker : Asker) (asked : CancellationAsked) (clean : Bool)
deriving DecidableEq

namespace World

def answer (w : World) (a : Answer) (board : Board) : World :=
  ⟨board, w.pending, w.answers ++ [(w.board.reservation, a)]⟩

/-- The outcome of asking for a priced change, up to its transaction. -/
def quote (hmac : KeyValues → String) (w : World) (given : Reservation) (a : Asker) (ask : Ask) (o : Offer) : World :=
  match pricedAsk hmac given a ask o with
  | .error code => w.answer (.refused code) w.board
  | .ok q =>
    match lookUp w.board given q with
    | some answer => w.answer answer w.board
    | none => { w with pending := w.pending ++ [(given, q)] }

def step (hmac : KeyValues → String) (w : World) : Action → World
  | .moved board => { w with board := board }
  | .quote given asker ask offer => w.quote hmac given asker ask offer
  | .store i clean =>
    match w.pending[i]? with
    | none => w
    | some (given, q) =>
      { w.answer (store w.board given q clean).1 (store w.board given q clean).2 with pending := w.pending.eraseIdx i }
  | .cancel asker asked clean =>
    let answered := cancellation w.board (askedCancellation hmac w.board asker asked) clean
    w.answer answered.1 answered.2

end World

/-! ### Live and dead requests -/

/-- Open, in flight or waiting for review. -/
def liveStatuses : List RequestStatus :=
  [.draft, .pendingRevalidation, .awaitingCustomerApproval, .awaitingPayment, .pendingAdminApproval,
   .readyForHostaway, .processing, .unknown]

/-- The request was asked on the stay as it is. -/
def AskedOn (r : Reservation) (m : ModificationRequest) : Prop :=
  m.oldCheckIn = r.checkIn ∧ m.oldCheckOut = r.checkOut ∧ m.oldGuests = r.guests ∧ m.oldTotal = r.totalPrice

/-- The reservation is in the state the request asked for. -/
def InAskedState (r : Reservation) (m : ModificationRequest) : Prop :=
  if isCancellation m then r.normalizedStatus = .cancelled
  else m.newCheckIn = some r.checkIn ∧ m.newCheckOut = some r.checkOut ∧ m.newGuests = some r.guests ∧
    m.newTotal = some r.totalPrice

/-- An answer that gives a request gives one that still stands for something. -/
def Answer.Honest (r : Reservation) : Answer → Prop
  | .idempotent m | .created m =>
    (m.status ∈ liveStatuses ∧ AskedOn r m) ∨ (m.status = .completed ∧ InAskedState r m)
  | .refused _ | .raised => True

instance (r : Reservation) (m : ModificationRequest) : Decidable (AskedOn r m) := by
  unfold AskedOn
  infer_instance

instance (r : Reservation) (m : ModificationRequest) : Decidable (InAskedState r m) := by
  unfold InAskedState
  infer_instance

instance (r : Reservation) : DecidablePred (Answer.Honest r)
  | .idempotent m | .created m =>
    inferInstanceAs (Decidable ((m.status ∈ liveStatuses ∧ AskedOn r m) ∨ (m.status = .completed ∧ InAskedState r m)))
  | .refused _ | .raised => .isTrue trivial

/-- The stay is not the one the request was asked on. -/
def stayChanged (r : Reservation) (m : ModificationRequest) : Bool :=
  m.oldCheckIn != r.checkIn || m.oldCheckOut != r.checkOut || m.oldGuests != r.guests || m.oldTotal != r.totalPrice

/-- The stay has been changed again after the request was carried out, or was never cancelled. -/
def undone (r : Reservation) (m : ModificationRequest) : Bool :=
  if isCancellation m then r.normalizedStatus != .cancelled
  else m.newCheckIn != some r.checkIn || m.newCheckOut != some r.checkOut || m.newGuests != some r.guests ||
    m.newTotal != some r.totalPrice

/-- A stored request from an earlier life: closed without effect, undone since, or asked on another stay. -/
def dead (r : Reservation) (m : ModificationRequest) : Bool :=
  match m.status with
  | .rejected | .expired | .priceChanged | .unavailable | .failed | .superseded => true
  | .completed => undone r m
  | .draft | .pendingRevalidation | .awaitingCustomerApproval | .awaitingPayment | .pendingAdminApproval
  | .readyForHostaway | .processing | .unknown => stayChanged r m

/-- The action meets no dead request under its key, and stores no change of a stay whose guests have changed since it was
read. -/
def World.Current (hmac : KeyValues → String) (w : World) : Action → Prop
  | .moved _ => True
  | .quote given asker ask offer => ∀ q, pricedAsk hmac given asker ask offer = .ok q → q.currency = given.currency →
      ∀ m, stored w.board q.idempotencyKey = some m → dead w.board.reservation m = false
  | .store i clean => ∀ given q, w.pending[i]? = some (given, q) → clean = true → storeRefusal w.board given = none →
      conflicting w.board q.idempotencyKey q.pk = false → given.guests = w.board.reservation.guests
  | .cancel asker asked _ => ∀ m, cancellationRefused (askedCancellation hmac w.board asker asked) = none →
      stored w.board (askedCancellation hmac w.board asker asked).idempotencyKey = some m →
        dead w.board.reservation m = false

variable {b b' : Board} {given r : Reservation} {q : Quoted} {m : ModificationRequest} {a : Asker} {w : World}
  {hmac : KeyValues → String} {act : Action}

/-! ### The transactions are those of the board -/

theorem stored_eq_none {key : String} : stored b key = none ↔ ∀ m ∈ b.requests, m.idempotencyKey ≠ key :=
  Table.get_eq_none

theorem conflicting_eq_false {key : String} {pk : Uuid} :
    conflicting b key pk = false ↔ (∀ m ∈ b.requests, m.idempotencyKey ≠ key) ∧ ∀ m ∈ b.requests, m.pk ≠ pk := by
  simp [conflicting, forall_and]

theorem stored_of_conflicting {key : String} {pk : Uuid} (h : conflicting b key pk = false) : stored b key = none :=
  stored_eq_none.2 (conflicting_eq_false.1 h).1

/-- Without a write in between, the two steps of a priced request are one transaction of the board. -/
theorem persistPricedRequest_eq_ok :
    persistPricedRequest b given q = .ok b' ↔
      lookUp b given q = none ∧ store b given q true = (.created (quotedRequest given q), b') := by
  unfold persistPricedRequest lookUp store storeRefusal
  rw [show (b.requests.any fun m => m.idempotencyKey == q.idempotencyKey || m.pk == q.pk) =
    conflicting b q.idempotencyKey q.pk from rfl]
  simp only [Bool.not_true, Bool.false_eq_true, if_false]
  cases hconflict : conflicting b q.idempotencyKey q.pk with
  | true =>
    simp only [if_true]
    constructor
    · intro h
      split_ifs at h
    · rintro ⟨-, h⟩
      split_ifs at h <;> simp at h
  | false =>
    rw [stored_of_conflicting hconflict]
    split_ifs <;> simp [eq_comm]

theorem createCancellationRequest_eq_ok {c : CancellationAsked} :
    createCancellationRequest b c = .ok b' ↔
      cancellation b c true = (.created (cancellationRequest b.reservation c), b') := by
  unfold createCancellationRequest cancellation cancellationRefused
  rw [show (b.requests.any fun m => m.idempotencyKey == c.idempotencyKey || m.pk == c.pk) =
    conflicting b c.idempotencyKey c.pk from rfl]
  simp only [Bool.not_true, Bool.false_eq_true, false_or]
  cases hconflict : conflicting b c.idempotencyKey c.pk with
  | true =>
    simp only [if_true]
    cases stored b c.idempotencyKey <;> split_ifs <;> simp
  | false =>
    rw [stored_of_conflicting hconflict]
    split_ifs <;> simp [eq_comm]

/-! ### One answer -/

theorem honest_idempotent : (Answer.idempotent m).Honest r ↔ dead r m = false := by
  have hstay : AskedOn r m ↔ stayChanged r m = false := by
    simp [stayChanged, AskedOn, and_assoc]
  have hundone : InAskedState r m ↔ undone r m = false := by
    unfold undone InAskedState
    split <;> simp [and_assoc]
  show m.status ∈ liveStatuses ∧ AskedOn r m ∨ m.status = .completed ∧ InAskedState r m ↔ _
  rw [hstay, hundone, dead]
  cases m.status <;> simp [liveStatuses]

theorem quotedStatus_live (q : Quoted) (difference : Dec) : quotedStatus q difference ∈ liveStatuses := by
  unfold quotedStatus
  split_ifs <;> simp [liveStatuses]

/-- A new change compares the stay it was read on with the one it is stored on, but for the guests. -/
theorem honest_stored (h : storeRefusal b given = none) :
    (Answer.created (quotedRequest given q)).Honest b.reservation ↔ given.guests = b.reservation.guests := by
  have hsame : b.reservation.checkIn = given.checkIn ∧ b.reservation.checkOut = given.checkOut ∧
      b.reservation.totalPrice = given.totalPrice := by
    unfold storeRefusal at h
    split_ifs at h with hchanged
    simpa [not_or] using hchanged
  obtain ⟨hin, hout, htotal⟩ := hsame
  show _ ∧ AskedOn _ _ ∨ _ ↔ _
  have hlive := quotedStatus_live q (q.totalPrice - given.totalPrice)
  have hnot : quotedStatus q (q.totalPrice - given.totalPrice) ≠ .completed := by
    intro hc
    simp [hc, liveStatuses] at hlive
  simp [quotedRequest, AskedOn, hlive, hnot, hin, hout, htotal]

theorem honest_store {clean : Bool} :
    (store b given q clean).1.Honest b.reservation ↔ (clean = true → storeRefusal b given = none →
      conflicting b q.idempotencyKey q.pk = false → given.guests = b.reservation.guests) := by
  cases clean with
  | false => simp [store, Answer.Honest]
  | true =>
    cases hpass : storeRefusal b given with
    | some code => simp [store, hpass, Answer.Honest]
    | none =>
      cases hconflict : conflicting b q.idempotencyKey q.pk with
      | true => simp [store, hpass, hconflict, Answer.Honest]
      | false => simp [store, hpass, hconflict, honest_stored hpass]

theorem honest_lookUp {answer : Answer} (h : lookUp b given q = some answer) :
    answer.Honest r ↔ (q.currency = given.currency → ∀ m, stored b q.idempotencyKey = some m → dead r m = false) := by
  unfold lookUp at h
  by_cases hcurrency : q.currency = given.currency
  · cases hm : stored b q.idempotencyKey with
    | some m =>
      obtain rfl : Answer.idempotent m = answer := by simpa [hcurrency, hm] using h
      simp [honest_idempotent, hcurrency]
    | none =>
      obtain ⟨-, rfl⟩ : _ ∧ Answer.refused "fx_unavailable" = answer := by simpa [hcurrency, hm] using h
      simp [Answer.Honest]
  · obtain rfl : Answer.refused "currency_changed" = answer := by simpa [hcurrency] using h
    simp [Answer.Honest, hcurrency]

theorem stored_of_lookUp (h : lookUp b given q = none) : stored b q.idempotencyKey = none := by
  unfold lookUp at h
  cases hm : stored b q.idempotencyKey with
  | some m =>
    simp only [hm] at h
    split_ifs at h
  | none => rfl

/-- A new cancellation is asked on the stay as it is. -/
theorem honest_cancellation {c : CancellationAsked} {clean : Bool} :
    (cancellation b c clean).1.Honest b.reservation ↔ ∀ m, cancellationRefused c = none →
      stored b c.idempotencyKey = some m → dead b.reservation m = false := by
  unfold cancellation
  split
  · rename_i code hcode
    simp [Answer.Honest, hcode]
  · rename_i hpass
    split
    · rename_i m hm
      simp [honest_idempotent, hpass, hm]
    · rename_i hm
      have hnew : (Answer.created (cancellationRequest b.reservation c)).Honest b.reservation := by
        refine .inl ⟨?_, rfl, rfl, rfl, rfl⟩
        unfold cancellationRequest
        dsimp only
        split <;> simp [liveStatuses]
      split_ifs
      · simp [hm, Answer.Honest]
      · simp [hm, Answer.Honest]
      · exact iff_of_true hnew (by simp [hm])

/-! ### Runs -/

/-- Every answer that has been given was honest when it was given. -/
def World.AllHonest (w : World) : Prop := ∀ x ∈ w.answers, x.2.Honest x.1

theorem allHonest_answer {answer : Answer} :
    (w.answer answer b).AllHonest ↔ w.AllHonest ∧ answer.Honest w.board.reservation := by
  simp [World.AllHonest, World.answer, or_imp, forall_and]

/-- A step keeps the answers honest exactly when it is current. -/
theorem allHonest_step : (w.step hmac act).AllHonest ↔ w.AllHonest ∧ w.Current hmac act := by
  cases act with
  | moved board => simp [World.step, World.AllHonest, World.Current]
  | quote given asker ask offer =>
    simp only [World.step, World.quote, World.Current]
    split
    · rename_i code hcode
      rw [allHonest_answer]
      simp [hcode, Answer.Honest]
    · rename_i q hq
      split
      · rename_i answer hanswer
        rw [allHonest_answer, honest_lookUp hanswer]
        simp [hq]
      · rename_i hnone
        simp [World.AllHonest, hq, stored_of_lookUp hnone]
  | store i clean =>
    simp only [World.step, World.Current]
    split
    · rename_i hnone
      simp [hnone]
    · rename_i given q hq
      have hanswer := @allHonest_answer (store w.board given q clean).2 w (store w.board given q clean).1
      rw [honest_store] at hanswer
      refine Iff.trans hanswer ?_
      simp [hq]
  | cancel asker asked clean =>
    simp only [World.step, World.Current]
    rw [allHonest_answer, honest_cancellation]

/-- Over every history of a reservation and its requests, whoever asks for what and when, the answers are all honest
exactly when no request was answered from an earlier life and no change was stored on other guests than it was read on. -/
theorem answers_honest_iff_current (hmac : KeyValues → String) (b : Board) (as : List Action) :
    (Machine.run (World.step hmac) ⟨b, [], []⟩ as).AllHonest ↔
      Machine.Meets (World.step hmac) (World.Current hmac) ⟨b, [], []⟩ as := by
  have hgen : ∀ (w : World), (Machine.run (World.step hmac) w as).AllHonest ↔
      w.AllHonest ∧ Machine.Meets (World.step hmac) (World.Current hmac) w as := by
    induction as with
    | nil => simp
    | cons a as ih =>
      intro w
      rw [Machine.run_cons, ih, allHonest_step, Machine.meets_cons, and_assoc]
  rw [hgen]
  simp [World.AllHonest]

/-! ### A guest who changes back -/

def guest : Asker := ⟨"session", false, "", "session", false⟩

def printed : Option ℕ → String
  | none => "None"
  | some n => n.repr

def printedType : RequestType → String
  | .extendStay => "extend_stay"
  | .changeDates => "change_dates"
  | .changeGuests => "change_guests"
  | .cancelReservation => "cancel_reservation"

def plainKey (v : KeyValues) : String :=
  v.reservation.str ++ "," ++ printedType v.requestType ++ "," ++ printed v.checkIn ++ "," ++ printed v.checkOut ++ "," ++
    printed v.guests ++ "," ++ v.sessionHash

/-- The guest asks for `nights` nights of the stay. -/
def asksFor (pk : Uuid) (nights : ℕ) (now : Time) : Action :=
  .quote stay guest (.change 100 (100 + nights) 2) ⟨false, 30, "", 4, .ok (shorter pk nights now)⟩

def thirdRequest : Uuid := ⟨"6c1e7c1a-1f60-4f0e-9a51-0d5d7c2f1b05", rfl⟩

/-- Three nights, two nights after all, and then three nights again. -/
def changedBack : List Action :=
  [asksFor firstRequest 3 10, .store 0 true, asksFor secondRequest 2 11, .store 0 true, asksFor thirdRequest 3 12]

/-- The guest is given the first request, which the second one has superseded. -/
theorem answered_with_superseded :
    ((Machine.run (World.step plainKey) ⟨⟨stay, []⟩, [], []⟩ changedBack).answers.map fun x =>
        x.2.request.map fun m => (m.pk, m.status)) =
      [some (firstRequest, .readyForHostaway), some (secondRequest, .readyForHostaway), some (firstRequest, .superseded)] ∧
    ¬(Machine.run (World.step plainKey) ⟨⟨stay, []⟩, [], []⟩ changedBack).AllHonest := by
  unfold World.AllHonest
  decide +kernel

end Apartments.Hostaway.Answers
