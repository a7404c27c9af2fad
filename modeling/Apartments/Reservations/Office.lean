import Apartments.Hostaway.Requests
import Apartments.Hostaway.Webhooks
import Apartments.Reservations.Expiration

/-!
# One reservation and the tables around it

`Office` puts on one state what writes the requests of a reservation: the quotes and executions of `Changes`, the
webhooks, an administrator's rejection and the sweeps, next to the quotes and intents that the same sweeps expire. The
statements of any number of sweeps interleave with everything else; a sweep that crashes has no further events.
`expired` logs what the sweeps have moved to EXPIRED, with the status it had, and `updates` every update that was sent,
with the reservation as it stood then.
-/

namespace Apartments.Expiration

open Payments Hostaway

/-- A row that a sweep has expired, and its status before. -/
inductive Expired
  | quote (pk : Uuid) (was : QuoteStatus)
  | intent (pk : Uuid) (was : IntentStatus)
  | modification (pk : Uuid) (was : RequestStatus)
deriving DecidableEq

structure Office where
  prebooking : Prebooking
  changes : Changes.World
  sweeps : List Sweep
  expired : List Expired
  updates : List (ModificationRequest × Reservation)
deriving DecidableEq

inductive Action
  | change (action : Changes.Action)
  | snapshot (delivery : Delivery) (snapshot : Snapshot)
  | reject (pk : Uuid)
  | consume (quote : Uuid) (consumption : Consumption)
  | verified (intent : Uuid)
  | confirmed (intent : Uuid)
  | cancelled (intent : Uuid)
  | sweep (asked : Asked)
  | query (i : ℕ)
deriving DecidableEq

namespace Office

def board (w : Office) : Board := w.changes.board

def requests (w : Office) : List ModificationRequest := w.changes.board.requests

def withBoard (w : Office) (b : Board) : Office := { w with changes := { w.changes with board := b } }

/-- The update that an event of a call sends. -/
def sends (w : Office) : Changes.Action → List (ModificationRequest × Reservation)
  | .event i .send =>
    match w.changes.calls[i]? with
    | some c => if c.stage = .sending then [(c.request, w.board.reservation)] else []
    | none => []
  | _ => []

/-- What the update of a sweep moves to EXPIRED. -/
def expires (w : Office) (s : Sweep) : List Expired :=
  (w.prebooking.quotes.filter (·.pk ∈ s.quoteIds)).map (fun q => .quote q.pk q.status) ++
    (w.prebooking.intents.filter (·.pk ∈ s.intentIds)).map (fun i => .intent i.pk i.status) ++
    (w.requests.filter (·.pk ∈ s.modificationIds)).map (fun m => .modification m.pk m.status)

/-- The transaction of a sweep. -/
def update (w : Office) (s : Sweep) : Office :=
  { w with
    prebooking :=
      { quotes := w.prebooking.quotes.map (expireQuote s.quoteIds)
        intents := w.prebooking.intents.map (expireIntent s.intentIds) }
    changes.board.requests := w.requests.map (expireModification s.modificationIds)
    expired := w.expired ++ w.expires s }

/-- The sweep after its next statement. -/
def advanced (w : Office) (s : Sweep) : Sweep :=
  match s.stage with
  | .quotes => { s with stage := .intents, quoteIds := (selectQuotes s.asked w.prebooking.quotes).map (·.pk) }
  | .intents => { s with stage := .modifications, intentIds := (selectIntents s.asked w.prebooking.intents).map (·.pk) }
  | .modifications =>
    { s with stage := .updating, modificationIds := (selectModifications s.asked w.requests).map (·.pk) }
  | .updating | .done => { s with stage := .done }

def step (w : Office) : Action → Office
  | .change a => { w with changes := w.changes.step a, updates := w.updates ++ w.sends a }
  | .snapshot d s => w.withBoard (syncReservation w.board d s)
  | .reject pk => w.withBoard (w.board.modify pk rejectLocally)
  | .consume quote c => { w with prebooking := consumeRevalidatedQuote w.prebooking quote c }
  | .verified intent => { w with prebooking := w.prebooking.modifyIntent intent recordVerified }
  | .confirmed intent => { w with prebooking := w.prebooking.modifyIntent intent confirm }
  | .cancelled intent => { w with prebooking := w.prebooking.modifyIntent intent cancel }
  | .sweep asked =>
    -- the limit is checked before anything is read
    if 1 ≤ asked.limit ∧ asked.limit ≤ 5000 then { w with sweeps := w.sweeps ++ [.start asked] } else w
  | .query i =>
    match w.sweeps[i]? with
    | none => w
    | some s => { if s.writes then w.update s else w with sweeps := w.sweeps.set i (w.advanced s) }

/-- What the webhook of a snapshot makes of a request. -/
def reconciled (w : Office) (d : Delivery) (s : Snapshot) (m : ModificationRequest) : ModificationRequest :=
  if w.board.reservation.hostawayReservationId ≠ some s.reservationId ∨ isStale w.board.reservation s ∨
      w.board.reservation.bookingIntent.isNone then m
  else reconcile s d.now m

/-- What an action makes of a request. -/
def rewritten (w : Office) (a : Action) (m : ModificationRequest) : ModificationRequest :=
  match a with
  | .change a => w.changes.rewritten a m
  | .snapshot d s => w.reconciled d s m
  | .reject pk => if m.pk = pk then rejectLocally m else m
  | .query i =>
    match w.sweeps[i]? with
    | none => m
    | some s => if s.writes then expireModification s.modificationIds m else m
  | .consume .. | .verified _ | .confirmed _ | .cancelled _ | .sweep _ => m

/-- What an action makes of the reservation. -/
def rebooked (w : Office) : Action → Reservation
  | .change (.event i event) =>
    match w.changes.calls[i]? with
    | none => w.board.reservation
    | some c => c.rebooked w.board event
  | .snapshot d s => (syncReservation w.board d s).reservation
  | .change _ | .reject _ | .consume .. | .verified _ | .confirmed _ | .cancelled _ | .sweep _ | .query _ =>
    w.board.reservation

/-- The requests that an action makes. -/
def added (w : Office) : Action → List ModificationRequest
  | .change a => w.changes.added a
  | .snapshot .. | .reject _ | .consume .. | .verified _ | .confirmed _ | .cancelled _ | .sweep _ | .query _ => []

end Office

variable {w : Office} {a : Action} {m : ModificationRequest}

theorem rejectLocally_pk (m : ModificationRequest) : (rejectLocally m).pk = m.pk := by
  unfold rejectLocally
  split <;> rfl

theorem reconcile_pk (s : Snapshot) (now : Time) (m : ModificationRequest) : (reconcile s now m).pk = m.pk := by
  unfold reconcile
  split <;> rfl

theorem expireModification_pk (ids : List Uuid) (m : ModificationRequest) : (expireModification ids m).pk = m.pk := by
  unfold expireModification
  split <;> rfl

theorem Office.rewritten_pk (w : Office) (a : Action) (m : ModificationRequest) : (w.rewritten a m).pk = m.pk := by
  cases a with
  | change a => exact Changes.World.rewritten_pk ..
  | snapshot d s =>
    simp only [Office.rewritten, Office.reconciled]
    split
    · rfl
    · exact reconcile_pk ..
  | reject pk =>
    simp only [Office.rewritten]
    split
    · exact rejectLocally_pk m
    · rfl
  | query i =>
    simp only [Office.rewritten]
    split
    · rfl
    · split
      · exact expireModification_pk ..
      · rfl
  | consume | verified | confirmed | cancelled | sweep => rfl

theorem syncReservation_requests (b : Board) (d : Delivery) (s : Snapshot) :
    (syncReservation b d s).requests =
      b.requests.map fun m =>
        if b.reservation.hostawayReservationId ≠ some s.reservationId ∨ isStale b.reservation s ∨
            b.reservation.bookingIntent.isNone then m
        else reconcile s d.now m := by
  unfold syncReservation
  split_ifs <;> simp_all

/-- Every action is one map over the requests, and new ones behind it. -/
theorem Office.step_requests (h : Changes.Keyed w.board) (a : Action) :
    (w.step a).requests = w.requests.map (w.rewritten a) ++ w.added a := by
  have hsame : ∀ {f : ModificationRequest → ModificationRequest}, (∀ m, f m = m) → w.requests = w.requests.map f ++ [] := by
    intro f hf
    rw [List.append_nil]
    exact ((List.map_congr_left fun m _ => hf m).trans (List.map_id _)).symm
  cases a with
  | change a => exact Changes.World.step_requests h a
  | snapshot d s => exact (syncReservation_requests ..).trans (List.append_nil _).symm
  | reject pk => exact (List.append_nil _).symm
  | query i =>
    simp only [Office.step]
    cases hi : w.sweeps[i]? with
    | none => exact hsame fun m => by simp [Office.rewritten, hi]
    | some s =>
      by_cases hs : s.writes
      · simp only [hs, if_true]
        refine Eq.trans (List.map_congr_left fun m _ => ?_) (List.append_nil _).symm
        simp [Office.rewritten, hi, hs]
      · simp only [hs, Bool.false_eq_true, if_false]
        exact hsame fun m => by simp [Office.rewritten, hi, hs]
  | sweep asked =>
    simp only [Office.step]
    split <;> exact hsame fun _ => rfl
  | consume | verified | confirmed | cancelled => exact hsame fun _ => rfl

theorem Office.step_keyed (h : Changes.Keyed w.board) (a : Action) : Changes.Keyed (w.step a).board := by
  have hpks : (w.requests.map (w.rewritten a)).map (·.pk) = w.requests.map (·.pk) := by
    simp [Function.comp_def, Office.rewritten_pk]
  cases a with
  | change a => exact Changes.World.step_keyed h a
  | snapshot | reject | consume | verified | confirmed | cancelled | sweep | query =>
    rw [Changes.Keyed, show (w.step _).board.requests = _ from Office.step_requests h _, Office.added,
      List.append_nil, hpks]
    exact h

theorem Office.step_reservation (w : Office) (a : Action) : (w.step a).board.reservation = w.rebooked a := by
  cases a with
  | change a =>
    cases a with
    | quote given q =>
      simp only [Office.step, Office.board, Changes.World.step, Changes.World.onBoard]
      cases hq : persistPricedRequest w.changes.board given q with
      | error => rfl
      | ok b' => rw [(Changes.persistPricedRequest_ok hq).1]; rfl
    | ownerTotal pk o =>
      simp only [Office.step, Office.board, Changes.World.step, Changes.World.onBoard]
      cases ho : setOwnerFinalTotal w.changes.board pk o with
      | error => rfl
      | ok b' =>
        obtain ⟨m, -, -, rfl⟩ := Changes.setOwnerFinalTotal_ok ho
        rfl
    | cancellation q =>
      simp only [Office.step, Office.board, Changes.World.step, Changes.World.onBoard]
      cases hq : createCancellationRequest w.changes.board q with
      | error => rfl
      | ok b' => rw [(Changes.createCancellationRequest_ok hq).1]; rfl
    | execute pk | automatic pk ownerOverride =>
      simp only [Office.step, Office.board, Changes.World.step, Changes.World.load]
      split <;> rfl
    | event i event =>
      simp only [Office.step, Office.board, Changes.World.step, Office.rebooked]
      cases hc : w.changes.calls[i]? with
      | none => rfl
      | some c =>
        simp only
        cases ha : Changes.advance w.changes.board c event with
        | none => exact (Changes.advance_none_reservation ha).symm
        | some r => exact Changes.advance_reservation ha
  | query i =>
    simp only [Office.step]
    cases w.sweeps[i]? with
    | none => rfl
    | some s => cases hs : s.writes <;> simp only [hs] <;> rfl
  | sweep asked =>
    simp only [Office.step]
    split <;> rfl
  | snapshot | reject | consume | verified | confirmed | cancelled => rfl

/-- Only the actions on changes touch the calls. -/
theorem Office.calls_step (w : Office) (a : Action) :
    (w.step a).changes.calls = match a with
      | .change a => (w.changes.step a).calls
      | _ => w.changes.calls := by
  cases a with
  | query i =>
    simp only [Office.step]
    cases w.sweeps[i]? with
    | none => rfl
    | some s => cases hs : s.writes <;> simp only [hs] <;> rfl
  | sweep asked =>
    simp only [Office.step]
    split <;> rfl
  | change | snapshot | reject | consume | verified | confirmed | cancelled => rfl

/-- A request that there is stays, as the action rewrites it. -/
theorem Office.request_step {pk : Uuid} (h : Changes.Keyed w.board) (a : Action) (hm : w.board.request pk = some m) :
    (w.step a).board.request pk = some (w.rewritten a m) := by
  show Table.get _ (w.step a).requests pk = _
  rw [Office.step_requests h, Table.get_append, Table.get_map (Office.rewritten_pk w a),
    show Table.get _ w.requests pk = some m from hm]
  rfl

/-- A confirmed stay without any request. -/
def changeOffice : Office := ⟨⟨[], []⟩, Changes.quietWorld, [], [], []⟩

theorem changeOffice_keyed : Changes.Keyed changeOffice.board := by
  simp [changeOffice, Changes.Keyed, Office.board, Changes.quietWorld]

end Apartments.Expiration
