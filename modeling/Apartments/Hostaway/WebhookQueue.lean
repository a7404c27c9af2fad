import Apartments.Hostaway.Sanitize
import Apartments.Hostaway.SnapshotOrder
import Apartments.Lib.Run
import Mathlib.Data.List.Sort

/-!
# The queue of webhook events (`integrations/views.py`, `webhook_processor.py`)

`hostaway_unified_webhook` puts an event into the table; workers list, claim and process events, each transaction being
one step. A worker that raises or crashes is gone, with what it held. The number of changes that Hostaway has made to a
reservation, and the number of them that the local row reflects, are ghost counts.
-/

namespace Apartments.Webhooks

open Hostaway Refresh

/-- What a webhook announces: the provider's event and the reservation as it is after so many changes. -/
structure Announcement where
  event : ℕ
  reservation : ℕ
  version : ℕ
deriving DecidableEq

/-- A row of `HostawayWebhookEvent`; its key is its place in the table. `origin` is what it was accepted for. -/
structure QueuedEvent extends WebhookEvent where
  sanitized : SanitizedWebhook
  receivedAt : Time
  nextRetryAt : Option Time
  origin : Announcement

/-- Where a worker is with the event that it has claimed; `fetched` keeps which version was read. -/
inductive Stage
  | claimed
  | fetched (fetched : Fetched) (version : ℕ)
  | synced (stale : Bool)
deriving DecidableEq

/-- A run of the command or of the task: the ids it has still to process, and the event it holds, as it was claimed. -/
structure Worker where
  retryFailed : Bool
  ids : List ℕ
  held : Option (ℕ × QueuedEvent × Stage)

structure Queue where
  version : ℕ → ℕ
  events : List QueuedEvent
  workers : ℕ → Option Worker
  rows : ℕ → Option Reservation
  reflects : ℕ → ℕ

/-- A webhook whose credentials, length and content type passed; `payload` is `none` if the body is no JSON. -/
structure Webhook where
  payload : Option Json
  origin : Announcement
  now : Time

inductive Answer
  | invalidRequest | duplicate | accepted | ignored
deriving DecidableEq, Repr

variable (site : Site)

/-- The row that `get_or_create` makes. -/
def newEvent (d : Webhook) (s : SanitizedWebhook) : QueuedEvent where
  status := if s.eventType ∈ site.allowedEvents then .received else .ignored
  eventType := s.eventType
  hostawayReservationId := s.reservationId
  attemptCount := 0
  errorCode := if s.eventType ∈ site.allowedEvents then "" else "unsupported_event"
  sanitized := s
  receivedAt := d.now
  nextRetryAt := none
  origin := d.origin

/-- `hostaway_unified_webhook`; `deduplication_key` is unique in the table. -/
def hostawayUnifiedWebhook (sha256 : String → String) (d : Webhook) (events : List QueuedEvent) :
    Answer × List QueuedEvent :=
  match d.payload.bind sanitizeWebhookPayload with
  | none => (.invalidRequest, events)
  | some s =>
    if events.any fun e => e.sanitized.deduplicationKey sha256 == s.deduplicationKey sha256 then (.duplicate, events)
    else
      (if s.eventType ∈ site.allowedEvents then .accepted else .ignored, events ++ [newEvent site d s])

/-- The event is one that `claim_webhook_event_ids` lists. -/
def listed (retryFailed : Bool) (now : Time) (e : QueuedEvent) : Bool :=
  (e.status == .received || e.status == .retryable || retryFailed && e.status == .failed) &&
    e.nextRetryAt.all fun t => decide (t ≤ now)

/-- `claim_webhook_event_ids`; the rows that another transaction has locked are skipped. -/
def claimWebhookEventIds (retryFailed : Bool) (limit : ℕ) (eventId : Option ℕ) (locked : List ℕ) (now : Time)
    (events : List QueuedEvent) : List ℕ :=
  let found := events.zipIdx.filter fun p =>
    listed retryFailed now p.1 && eventId.all (· == p.2) && !locked.contains p.2
  ((found.insertionSort fun p q => p.1.receivedAt ≤ q.1.receivedAt).map (·.2)).take limit

/-- `_claim_event` on a row. -/
def claimQueued (retryFailed : Bool) (e : QueuedEvent) : QueuedEvent × Bool :=
  ({ e with toWebhookEvent := (claimEvent site retryFailed e.toWebhookEvent).1 },
    (claimEvent site retryFailed e.toWebhookEvent).2)

/-- `_finish_event` on a row. -/
def finishQueued (status : EventStatus) (code : String) (e : QueuedEvent) : QueuedEvent :=
  { e with toWebhookEvent := finishEvent status code e.toWebhookEvent, nextRetryAt := none }

/-- `_retry_event`; `held` is the event as it was claimed. -/
def retryQueued (held : QueuedEvent) (code : String) (now : Time) (e : QueuedEvent) : QueuedEvent :=
  if site.maxAttempts ≤ held.attemptCount then finishQueued .failed "maximum_attempts_exceeded" e
  else { e with status := .retryable, errorCode := code, nextRetryAt := some (now + 300) }

/-- What the steps of one `process_webhook_event` meet: how `get_reservation` ends, the new row's key, what the snapshot
brings besides the stay and the verdict of `full_clean`. -/
structure Encounter where
  fetched : Fetched
  pk : Uuid
  delivery : Delivery
  clean : Bool

inductive Act
  | change (reservation : ℕ)
  | deliver (webhook : Webhook)
  | list (worker : ℕ) (retryFailed : Bool) (limit : ℕ) (eventId : Option ℕ) (locked : List ℕ) (now : Time)
  | claim (worker : ℕ) (locked : Bool)
  | advance (worker : ℕ) (encounter : Encounter)
  | crash (worker : ℕ)
  | requeue (ids : List ℕ)

def Queue.setWorker (w : Queue) (k : ℕ) (worker : Option Worker) : Queue :=
  { w with workers := Function.update w.workers k worker }

def Queue.setEvent (w : Queue) (i : ℕ) (e : QueuedEvent) : Queue := { w with events := w.events.set i e }

/-- The worker gives the event back with the row that it leaves. -/
def Queue.release (w : Queue) (k : ℕ) (worker : Worker) (i : ℕ) (e : QueuedEvent) : Queue :=
  (w.setEvent i e).setWorker k (some { worker with held := none })

/-- `_claim_event` on the next id of a worker; a row that another transaction has locked is not found. -/
def claimStep (w : Queue) (k : ℕ) (locked : Bool) (worker : Worker) : Queue :=
  match worker.ids with
  | [] => w.setWorker k none
  | i :: ids =>
    match w.events[i]? with
    | none => w.setWorker k (some { worker with ids := ids })
    | some e =>
      if locked then w.setWorker k (some { worker with ids := ids })
      else
        let (e', taken) := claimQueued site worker.retryFailed e
        (w.setEvent i e').setWorker k
          (some { worker with ids := ids, held := if taken then some (i, e', .claimed) else none })

/-- The snapshot is stored; of a row that it does not write, the row is the newer one. -/
def syncStep (w : Queue) (k : ℕ) (o : Encounter) (worker : Worker) (i : ℕ) (e : QueuedEvent) (s : Snapshot)
    (version : ℕ) : Queue :=
  match SnapshotOrder.syncSnapshot ⟨o.pk, o.delivery, s, o.clean⟩ (w.rows s.reservationId) with
  | none => w.setWorker k none
  | some (r, stale) =>
    { w.setWorker k (some { worker with held := some (i, e, .synced stale) }) with
      rows := Function.update w.rows s.reservationId (some r)
      reflects := if stale then w.reflects else Function.update w.reflects s.reservationId version }

/-- The next transaction or request of `process_webhook_event` on the event `i`, held as `e`; `row` is its row. -/
def advanceStep (w : Queue) (k : ℕ) (o : Encounter) (worker : Worker) (i : ℕ) (e row : QueuedEvent) : Stage → Queue
  | .claimed =>
    if e.eventType ∉ site.allowedEvents then w.release k worker i (finishQueued .ignored "unsupported_event" row)
    else
      match e.hostawayReservationId with
      | none => w.release k worker i (finishQueued .failed "reservation_id_missing" row)
      | some r =>
        if o.fetched = .raised then w.setWorker k none
        else w.setWorker k (some { worker with held := some (i, e, .fetched o.fetched (w.version r)) })
  | .fetched .missing _ =>
    w.release k worker i (retryQueued site e "hostaway_reservation_temporarily_missing" o.delivery.now row)
  | .fetched .unavailable _ =>
    w.release k worker i (retryQueued site e "hostaway_temporarily_unavailable" o.delivery.now row)
  | .fetched .invalid _ => w.release k worker i (finishQueued .failed "reservation_schema_invalid" row)
  | .fetched .raised _ => w.setWorker k none
  | .fetched (.snapshot s) version => syncStep w k o worker i e s version
  | .synced stale => w.release k worker i (finishQueued .processed (if stale then "stale_event_ignored" else "") row)

/-- `requeue_failed` of the admin. -/
def requeued (e : QueuedEvent) : QueuedEvent :=
  if e.status = .failed ∨ e.status = .retryable then { e with status := .received, nextRetryAt := none, errorCode := "" }
  else e

def step (sha256 : String → String) (w : Queue) : Act → Queue
  | .change r => { w with version := Function.update w.version r (w.version r + 1) }
  | .deliver d => { w with events := (hostawayUnifiedWebhook site sha256 d w.events).2 }
  | .list k retryFailed limit eventId locked now =>
    match w.workers k with
    | some _ => w
    | none =>
      w.setWorker k (some ⟨retryFailed, claimWebhookEventIds retryFailed limit eventId locked now w.events, none⟩)
  | .claim k locked =>
    match w.workers k with
    | none => w
    | some worker =>
      match worker.held with
      | some _ => w
      | none => claimStep site w k locked worker
  | .advance k o =>
    match w.workers k with
    | none => w
    | some worker =>
      match worker.held with
      | none => w
      | some (i, e, stage) =>
        match w.events[i]? with
        | none => w
        | some row => advanceStep site w k o worker i e row stage
  | .crash k => w.setWorker k none
  | .requeue ids => { w with events := w.events.mapIdx fun i e => if i ∈ ids then requeued e else e }

/-! ### What the steps do to the events and to who holds them -/

def Queue.heldBy (w : Queue) (k : ℕ) : Option (ℕ × QueuedEvent × Stage) := (w.workers k).bind (·.held)

/-- The provider read of a claimed event raises what the processing does not handle, or `full_clean` refuses the snapshot
that was read. -/
def Raises (w : Queue) (k : ℕ) (o : Encounter) : Prop :=
  (∃ i e, w.heldBy k = some (i, e, .claimed) ∧ e.eventType ∈ site.allowedEvents ∧ e.hostawayReservationId ≠ none ∧
    o.fetched = .raised) ∨
  ∃ i e s version, w.heldBy k = some (i, e, .fetched (.snapshot s) version) ∧
    (∀ r ∈ w.rows s.reservationId, isStale r s = false) ∧
    SnapshotOrder.SyncCall.storable ⟨o.pk, o.delivery, s, o.clean⟩ = false

/-- What a worker holds is as it was claimed, and nobody else holds it. -/
structure Ok (w : Queue) : Prop where
  held : ∀ k i e stage, w.heldBy k = some (i, e, stage) → ∃ row, w.events[i]? = some row ∧ row.status = .processing ∧
    row.attemptCount = e.attemptCount
  read : ∀ k i e version, w.heldBy k ≠ some (i, e, .fetched .raised version)
  alone : ∀ k k' i e e' stage stage', w.heldBy k = some (i, e, stage) → w.heldBy k' = some (i, e', stage') → k = k'
  attempts : ∀ e ∈ w.events, e.attemptCount ≤ site.maxAttempts

/-- Every event is finished, or `claim_webhook_event_ids` lists it from its `next_retry_at` on, or a worker holds it. -/
def Accounted (w : Queue) : Prop :=
  ∀ i e, w.events[i]? = some e → e.status = .processed ∨ e.status = .ignored ∨ e.status = .failed ∨
    (∀ now, (∀ t ∈ e.nextRetryAt, t ≤ now) → listed false now e = true) ∨ ∃ k e' stage, w.heldBy k = some (i, e', stage)

variable {site} {w : Queue} {k i : ℕ} {e row : QueuedEvent} {stage : Stage} {worker : Worker} {sha256 : String → String}

theorem listed_iff (e : QueuedEvent) :
    (∀ now, (∀ t ∈ e.nextRetryAt, t ≤ now) → listed false now e = true) ↔
      e.status = .received ∨ e.status = .retryable := by
  simp only [listed, Bool.false_and, Bool.or_false, Bool.and_eq_true, Bool.or_eq_true, beq_iff_eq, Option.all_eq_true,
    decide_eq_true_eq]
  refine ⟨fun h => (h (e.nextRetryAt.getD 0) ?_).1, fun h now hnow => ⟨h, hnow⟩⟩
  intro t ht
  rw [ht, Option.getD_some]

theorem accounted_iff :
    Accounted w ↔ ∀ i e, w.events[i]? = some e → e.status = .processing → ∃ k e' stage, w.heldBy k = some (i, e', stage) := by
  refine forall₂_congr fun i e => imp_congr_right fun _ => ?_
  rw [listed_iff]
  cases e.status <;> simp

@[simp] theorem heldBy_setWorker (w : Queue) (k k' : ℕ) (worker : Option Worker) :
    (w.setWorker k worker).heldBy k' = if k' = k then worker.bind (·.held) else w.heldBy k' := by
  by_cases h : k' = k
  · subst h
    simp [Queue.heldBy, Queue.setWorker]
  · simp [Queue.heldBy, Queue.setWorker, h]

@[simp] theorem heldBy_setEvent (w : Queue) (i k : ℕ) (e : QueuedEvent) : (w.setEvent i e).heldBy k = w.heldBy k := rfl

@[simp] theorem events_setWorker (w : Queue) (k : ℕ) (worker : Option Worker) :
    (w.setWorker k worker).events = w.events := rfl

@[simp] theorem events_setEvent (w : Queue) (i : ℕ) (e : QueuedEvent) : (w.setEvent i e).events = w.events.set i e := rfl

theorem heldBy_release (w : Queue) (k k' : ℕ) (worker : Worker) (i : ℕ) (e : QueuedEvent) :
    (w.release k worker i e).heldBy k' = if k' = k then none else w.heldBy k' := by
  simp [Queue.release]

/-- A claimed row was waiting, or failed before it was asked for again; a refused one is as it was, or out of attempts. -/
theorem claimQueued_cases (site : Site) (retryFailed : Bool) (e : QueuedEvent) :
    (claimQueued site retryFailed e = (e, false)) ∨
    (e.status ≠ .processing ∧ (claimQueued site retryFailed e).2 = false ∧
      (claimQueued site retryFailed e).1.status = .failed ∧
      (claimQueued site retryFailed e).1.attemptCount = e.attemptCount) ∨
    (e.status ≠ .processing ∧ (claimQueued site retryFailed e).2 = true ∧
      (claimQueued site retryFailed e).1.status = .processing ∧ e.attemptCount < site.maxAttempts ∧
      (claimQueued site retryFailed e).1.attemptCount = e.attemptCount + 1) := by
  unfold claimQueued claimEvent
  split_ifs with hstatus hmax
  · exact .inl rfl
  · refine .inr (.inl ⟨fun h => hstatus ?_, rfl, rfl, rfl⟩)
    simp [h]
  · refine .inr (.inr ⟨fun h => hstatus ?_, rfl, rfl, not_le.1 hmax, rfl⟩)
    simp [h]

theorem finishQueued_attemptCount (status : EventStatus) (code : String) (e : QueuedEvent) :
    (finishQueued status code e).attemptCount = e.attemptCount := rfl

theorem retryQueued_cases (site : Site) (held : QueuedEvent) (code : String) (now : Time) (e : QueuedEvent) :
    (retryQueued site held code now e).status ≠ .processing ∧
      (retryQueued site held code now e).attemptCount = e.attemptCount := by
  unfold retryQueued
  split_ifs
  · exact ⟨nofun, rfl⟩
  · exact ⟨nofun, rfl⟩

theorem raises_claimed (site : Site) (hk : w.heldBy k = some (i, e, .claimed)) (o : Encounter) :
    Raises site w k o ↔ e.eventType ∈ site.allowedEvents ∧ e.hostawayReservationId ≠ none ∧ o.fetched = .raised := by
  constructor
  · rintro (⟨i', e', hk', h⟩ | ⟨i', e', s, version, hk', -⟩)
    · rw [hk] at hk'
      cases hk'
      exact h
    · rw [hk] at hk'
      cases hk'
  · exact fun h => .inl ⟨i, e, hk, h⟩

theorem raises_snapshot {s : Snapshot} {version : ℕ} (hk : w.heldBy k = some (i, e, .fetched (.snapshot s) version))
    (o : Encounter) :
    Raises site w k o ↔
      SnapshotOrder.syncSnapshot ⟨o.pk, o.delivery, s, o.clean⟩ (w.rows s.reservationId) = none := by
  have hraises : Raises site w k o ↔ (∀ r ∈ w.rows s.reservationId, isStale r s = false) ∧
      SnapshotOrder.SyncCall.storable ⟨o.pk, o.delivery, s, o.clean⟩ = false := by
    constructor
    · rintro (⟨i', e', hk', -⟩ | ⟨i', e', s', version', hk', h⟩)
      · rw [hk] at hk'
        cases hk'
      · rw [hk] at hk'
        cases hk'
        exact h
    · exact fun h => .inr ⟨i, e, s, version, hk, h⟩
  rw [hraises]
  cases hrow : w.rows s.reservationId with
  | none => simp [SnapshotOrder.syncSnapshot, SnapshotOrder.saved_eq]
  | some r =>
    cases hstale : isStale r s <;> simp [SnapshotOrder.syncSnapshot, SnapshotOrder.saved_eq, hstale]

theorem not_raises (hk : w.heldBy k = some (i, e, stage)) (hclaimed : stage ≠ .claimed)
    (hsnapshot : ∀ s version, stage ≠ .fetched (.snapshot s) version) (o : Encounter) : ¬ Raises site w k o := by
  rintro (⟨i', e', hk', -⟩ | ⟨i', e', s, version, hk', -⟩)
  · rw [hk] at hk'
    cases hk'
    exact hclaimed rfl
  · rw [hk] at hk'
    cases hk'
    exact hsnapshot s version rfl

/-- A step of the processing gives the event back, finished or to be retried; goes on with it; or raises. -/
theorem advanceStep_cases (o : Encounter) (worker : Worker) (row : QueuedEvent) (hk : w.heldBy k = some (i, e, stage))
    (hread : ∀ version, stage ≠ .fetched .raised version) :
    (¬ Raises site w k o ∧ ∃ row' : QueuedEvent, row'.status ≠ .processing ∧ row'.attemptCount = row.attemptCount ∧
      advanceStep site w k o worker i e row stage = w.release k worker i row') ∨
    (¬ Raises site w k o ∧ ∃ stage', (∀ version, stage' ≠ .fetched .raised version) ∧
      (advanceStep site w k o worker i e row stage).events = w.events ∧
      ∀ k', (advanceStep site w k o worker i e row stage).heldBy k' =
        if k' = k then some (i, e, stage') else w.heldBy k') ∨
    (Raises site w k o ∧ advanceStep site w k o worker i e row stage = w.setWorker k none) := by
  cases stage with
  | claimed =>
    have hraises := raises_claimed site hk o
    rw [advanceStep, hraises]
    by_cases hallowed : e.eventType ∈ site.allowedEvents
    swap
    · exact .inl ⟨fun h => hallowed h.1, finishQueued .ignored "unsupported_event" row, nofun, rfl, if_pos hallowed⟩
    rw [if_neg (not_not_intro hallowed)]
    cases hr : e.hostawayReservationId with
    | none => exact .inl ⟨fun h => h.2.1 rfl, finishQueued .failed "reservation_id_missing" row, nofun, rfl, rfl⟩
    | some r =>
      by_cases hf : o.fetched = .raised
      · exact .inr (.inr ⟨⟨hallowed, nofun, hf⟩, if_pos hf⟩)
      · refine .inr (.inl ⟨fun h => hf h.2.2, .fetched o.fetched (w.version r), fun version h => hf ?_, ?_, ?_⟩)
        · exact (Stage.fetched.inj h).1
        · simp [hf]
        · intro k'
          simp [hf]
  | fetched f version =>
    cases f with
    | missing =>
      have hretry := retryQueued_cases site e "hostaway_reservation_temporarily_missing" o.delivery.now row
      exact .inl ⟨not_raises hk nofun nofun o, _, hretry.1, hretry.2, rfl⟩
    | unavailable =>
      have hretry := retryQueued_cases site e "hostaway_temporarily_unavailable" o.delivery.now row
      exact .inl ⟨not_raises hk nofun nofun o, _, hretry.1, hretry.2, rfl⟩
    | invalid =>
      exact .inl ⟨not_raises hk nofun nofun o, finishQueued .failed "reservation_schema_invalid" row, nofun, rfl, rfl⟩
    | raised => exact absurd rfl (hread version)
    | snapshot s =>
      rw [raises_snapshot hk o, advanceStep, syncStep]
      cases hsync : SnapshotOrder.syncSnapshot ⟨o.pk, o.delivery, s, o.clean⟩ (w.rows s.reservationId) with
      | none => exact .inr (.inr ⟨rfl, rfl⟩)
      | some p =>
        refine .inr (.inl ⟨nofun, .synced p.2, nofun, rfl, fun k' => ?_⟩)
        exact heldBy_setWorker w k k' _
  | synced stale =>
    exact .inl ⟨not_raises hk nofun nofun o,
      finishQueued .processed (if stale then "stale_event_ignored" else "") row, nofun, rfl, rfl⟩

/-! ### What every step keeps -/

/-- Who holds what is as it was, and so are the rows of the events that are held. -/
theorem Ok.of_held {w' : Queue} (h : Ok site w) (hheld : ∀ k, w'.heldBy k = w.heldBy k)
    (hrow : ∀ (i : ℕ) (e : QueuedEvent), w.events[i]? = some e → e.status = .processing → w'.events[i]? = some e)
    (hattempts : ∀ e ∈ w'.events, e.attemptCount ≤ site.maxAttempts) : Ok site w' where
  held k i e stage hk := by
    obtain ⟨row, hrow', hstatus, hcount⟩ := h.held k i e stage (hheld k ▸ hk)
    exact ⟨row, hrow i row hrow' hstatus, hstatus, hcount⟩
  read k i e version := by
    rw [hheld]
    exact h.read k i e version
  alone k k' i e e' stage stage' hk hk' := h.alone k k' i e e' stage stage' (hheld k ▸ hk) (hheld k' ▸ hk')
  attempts := hattempts

/-- A worker drops what it holds, and the row of it may be anything. -/
theorem Ok.drop {w' : Queue} (h : Ok site w) (hheld : ∀ k', w'.heldBy k' = if k' = k then none else w.heldBy k')
    (hrow : ∀ k' i e stage, k' ≠ k → w.heldBy k' = some (i, e, stage) → w'.events[i]? = w.events[i]?)
    (hattempts : ∀ e ∈ w'.events, e.attemptCount ≤ site.maxAttempts) : Ok site w' := by
  have hother : ∀ k' p, w'.heldBy k' = some p → k' ≠ k ∧ w.heldBy k' = some p := by
    intro k' p hp
    rw [hheld] at hp
    split_ifs at hp with hk
    exact ⟨hk, hp⟩
  constructor
  · intro k' i e stage hk'
    obtain ⟨hne, hk'⟩ := hother k' _ hk'
    rw [hrow k' i e stage hne hk']
    exact h.held k' i e stage hk'
  · intro k' i e version hk'
    exact h.read k' i e version (hother k' _ hk').2
  · intro k₁ k₂ i e e' stage stage' h₁ h₂
    exact h.alone k₁ k₂ i e e' stage stage' (hother k₁ _ h₁).2 (hother k₂ _ h₂).2
  · exact hattempts

/-- A worker goes on with the event it holds, or takes one that nobody holds. -/
theorem Ok.hold {w' : Queue} (h : Ok site w)
    (hheld : ∀ k', w'.heldBy k' = if k' = k then some (i, e, stage) else w.heldBy k')
    (hread : ∀ version, stage ≠ .fetched .raised version)
    (hfree : ∀ k' e' stage', k' ≠ k → w.heldBy k' ≠ some (i, e', stage'))
    (hrow : ∃ row, w'.events[i]? = some row ∧ row.status = .processing ∧ row.attemptCount = e.attemptCount)
    (hother : ∀ j, j ≠ i → w'.events[j]? = w.events[j]?)
    (hattempts : ∀ e ∈ w'.events, e.attemptCount ≤ site.maxAttempts) : Ok site w' := by
  constructor
  · intro k' j e' stage' hk'
    rw [hheld] at hk'
    split_ifs at hk' with hk
    · cases hk'
      exact hrow
    · rw [hother j fun hj => hfree k' e' stage' hk (hj ▸ hk')]
      exact h.held k' j e' stage' hk'
  · intro k' j e' version hk'
    rw [hheld] at hk'
    split_ifs at hk' with hk
    · cases hk'
      exact hread version rfl
    · exact h.read k' j e' version hk'
  · intro k₁ k₂ j e₁ e₂ stage₁ stage₂ h₁ h₂
    rw [hheld] at h₁ h₂
    split_ifs at h₁ h₂ with hk₁ hk₂ hk₂
    · rw [hk₁, hk₂]
    · cases h₁
      exact absurd h₂ (hfree k₂ e₂ stage₂ hk₂)
    · cases h₂
      exact absurd h₁ (hfree k₁ e₁ stage₁ hk₁)
    · exact h.alone k₁ k₂ j e₁ e₂ stage₁ stage₂ h₁ h₂
  · exact hattempts

theorem attempts_set (h : Ok site w) (he : e.attemptCount ≤ site.maxAttempts) :
    ∀ e' ∈ w.events.set i e, e'.attemptCount ≤ site.maxAttempts := by
  intro e' he'
  rcases List.mem_or_eq_of_mem_set he' with hold | rfl
  · exact h.attempts e' hold
  · exact he

theorem requeued_cases (e : QueuedEvent) :
    (requeued e).attemptCount = e.attemptCount ∧ ((requeued e).status = .processing ↔ e.status = .processing) ∧
      (e.status = .processing → requeued e = e) := by
  unfold requeued
  split_ifs with h
  · refine ⟨rfl, ⟨nofun, fun hp => ?_⟩, fun hp => ?_⟩ <;> simp [hp] at h
  · exact ⟨rfl, Iff.rfl, fun _ => rfl⟩

/-- No worker crashes while it holds an event, and no processing raises. -/
def Settles (site : Site) (w : Queue) : Act → Prop
  | .crash k => w.heldBy k = none
  | .advance k o => ¬ Raises site w k o
  | _ => True

/-- An event that is in processing afterwards is held, or was in processing and is still with whoever held it. -/
theorem Accounted.of {w' : Queue} (h : Accounted w)
    (hrow : ∀ (i : ℕ) (e : QueuedEvent), w'.events[i]? = some e → e.status = .processing →
      (∃ k e' stage, w'.heldBy k = some (i, e', stage)) ∨
        (∃ e₀ : QueuedEvent, w.events[i]? = some e₀ ∧ e₀.status = .processing) ∧
          ∀ k e' stage, w.heldBy k = some (i, e', stage) → w'.heldBy k = some (i, e', stage)) : Accounted w' := by
  rw [accounted_iff] at h ⊢
  intro i e he hstatus
  rcases hrow i e he hstatus with hheld | ⟨⟨e₀, he₀, hstatus₀⟩, hkept⟩
  · exact hheld
  · obtain ⟨k, e', stage, hk⟩ := h i e₀ he₀ hstatus₀
    exact ⟨k, e', stage, hkept k e' stage hk⟩

/-- An event whose worker is gone is lost. -/
theorem lost (h : Ok site w) (hk : w.heldBy k = some (i, e, stage)) : ¬ Accounted (w.setWorker k none) := by
  intro hacc
  obtain ⟨row, hrow, hstatus, -⟩ := h.held k i e stage hk
  obtain ⟨k', e', stage', hk'⟩ := accounted_iff.1 hacc i row hrow hstatus
  rw [heldBy_setWorker] at hk'
  split_ifs at hk' with hkk
  · cases hk'
  · exact hkk (h.alone k' k i e' e stage' stage hk' hk)

theorem ok_gone (h : Ok site w) : Ok site (w.setWorker k none) :=
  h.drop (fun k' => heldBy_setWorker w k k' none) (fun _ _ _ _ _ _ => rfl) h.attempts

/-- A worker that holds nothing may be replaced by another one that holds nothing. -/
theorem heldBy_idle (hk : w.heldBy k = none) (hworker : worker.held = none) (k' : ℕ) :
    (w.setWorker k (some worker)).heldBy k' = w.heldBy k' := by
  rw [heldBy_setWorker]
  split_ifs with h
  · rw [h, hk]
    exact hworker
  · rfl

/-- What a step comes to: the queue stays sound, and every event accounted for exactly if the step settles. -/
structure Sound (site : Site) (w w' : Queue) (settles : Prop) : Prop where
  ok : Ok site w'
  accounted : Accounted w → (settles ↔ Accounted w')

/-- A row that nobody holds is rewritten to one that is not in processing. -/
theorem sound_setEvent (h : Ok site w) (he : w.events[i]? = some e) (hfree : e.status ≠ .processing) {e' : QueuedEvent}
    (hstatus : e'.status ≠ .processing) (hcount : e'.attemptCount ≤ site.maxAttempts) :
    Sound site w (w.setEvent i e') True := by
  have hother : ∀ (j : ℕ) (e₀ : QueuedEvent), (w.setEvent i e').events[j]? = some e₀ → e₀.status = .processing →
      w.events[j]? = some e₀ := by
    intro j e₀ hj hp
    rw [events_setEvent, List.getElem?_set] at hj
    split_ifs at hj with hij hlt
    · obtain rfl : e' = e₀ := Option.some.inj hj
      exact absurd hp hstatus
    · exact hj
  constructor
  · refine h.of_held (fun _ => rfl) (fun j e₀ hj hp => ?_) (attempts_set h hcount)
    rw [events_setEvent, List.getElem?_set_ne]
    · exact hj
    · rintro rfl
      rw [he] at hj
      cases hj
      exact hfree hp
  · exact fun hacc => iff_of_true trivial (hacc.of fun j e₀ hj hp => .inr ⟨⟨e₀, hother j e₀ hj hp, hp⟩, fun _ _ _ hk => hk⟩)

theorem Sound.trans {w' w'' : Queue} {settles : Prop} (h : Sound site w w' True) (h' : Sound site w' w'' settles) :
    Sound site w w'' settles :=
  ⟨h'.ok, fun hacc => h'.accounted ((h.accounted hacc).1 trivial)⟩

theorem sound_idle (h : Ok site w) (hk : w.heldBy k = none) (hworker : worker.held = none) :
    Sound site w (w.setWorker k (some worker)) True := by
  refine ⟨h.of_held (heldBy_idle hk hworker) (fun _ _ he _ => he) h.attempts, fun hacc => iff_of_true trivial ?_⟩
  refine hacc.of fun i e he hstatus => ?_
  exact .inr ⟨⟨e, he, hstatus⟩, fun k' e' stage hk' => by rwa [heldBy_idle hk hworker]⟩

theorem sound_claim (h : Ok site w) (locked : Bool) (hk : w.workers k = some worker) (hheld : worker.held = none) :
    Sound site w (claimStep site w k locked worker) True := by
  have hnone : w.heldBy k = none := by simp [Queue.heldBy, hk, hheld]
  unfold claimStep
  split
  · refine ⟨ok_gone h, fun hacc => iff_of_true trivial (hacc.of fun i e he hstatus => ?_)⟩
    refine .inr ⟨⟨e, he, hstatus⟩, fun k' e' stage hk' => ?_⟩
    rw [heldBy_setWorker, if_neg]
    · exact hk'
    · rintro rfl
      rw [hnone] at hk'
      cases hk'
  · next i ids _ =>
    split
    · exact sound_idle h hnone hheld
    · next e he =>
      by_cases hlocked : locked = true
      · rw [if_pos hlocked]
        exact sound_idle h hnone hheld
      rw [if_neg hlocked]
      rcases claimQueued_cases site worker.retryFailed e with hc | ⟨hfree, htaken, hstatus, hcount⟩ |
        ⟨hfree, htaken, hstatus, hlt, hcount⟩
      · have hsame : w.setEvent i e = w := by
          obtain ⟨hi, rfl⟩ := List.getElem?_eq_some_iff.1 he
          simp [Queue.setEvent]
        rw [hc]
        dsimp only
        rw [hsame]
        exact sound_idle h hnone rfl
      · have hset : Sound site w (w.setEvent i (claimQueued site worker.retryFailed e).1) True :=
          sound_setEvent h he hfree (by simp [hstatus]) (hcount ▸ h.attempts e (List.mem_of_getElem? he))
        dsimp only
        rw [htaken]
        exact hset.trans (sound_idle hset.ok hnone rfl)
      · dsimp only
        rw [htaken, if_pos rfl]
        have hfreed : ∀ k' e' stage', k' ≠ k → w.heldBy k' ≠ some (i, e', stage') := by
          intro k' e' stage' _ hk'
          obtain ⟨row, hrow, hp, -⟩ := h.held k' i e' stage' hk'
          rw [he] at hrow
          cases hrow
          exact hfree hp
        have hi := (List.getElem?_eq_some_iff.1 he).1
        constructor
        · refine h.hold (k := k) (i := i) (fun k' => heldBy_setWorker _ k k' _) nofun hfreed ?_ ?_ ?_
          · exact ⟨_, List.getElem?_set_self hi, hstatus, rfl⟩
          · exact fun j hj => List.getElem?_set_ne hj.symm
          · exact attempts_set h (by rw [hcount]; exact hlt)
        · refine fun hacc => iff_of_true trivial (hacc.of fun j e₀ hj hp => ?_)
          rw [events_setWorker, events_setEvent, List.getElem?_set] at hj
          split_ifs at hj with hij
          · exact .inl ⟨k, _, .claimed, by rw [heldBy_setWorker, if_pos rfl, ← hij]; rfl⟩
          · refine .inr ⟨⟨e₀, hj, hp⟩, fun k' e' stage' hk' => ?_⟩
            rw [heldBy_setWorker, if_neg]
            · exact hk'
            · rintro rfl
              rw [hnone] at hk'
              cases hk'

theorem sound_advance (h : Ok site w) (o : Encounter) (hk : w.heldBy k = some (i, e, stage))
    (he : w.events[i]? = some row) : Sound site w (advanceStep site w k o worker i e row stage) (¬ Raises site w k o) := by
  have hi := (List.getElem?_eq_some_iff.1 he).1
  have hrow : row.status = .processing ∧ row.attemptCount = e.attemptCount := by
    obtain ⟨row', hrow', hstatus, hcount⟩ := h.held k i e stage hk
    rw [he] at hrow'
    cases hrow'
    exact ⟨hstatus, hcount⟩
  rcases advanceStep_cases o worker row hk (fun version hv => h.read k i e version (hv ▸ hk)) with
    ⟨hok, row', hstatus, hcount, hs⟩ | ⟨hok, stage', hread, hevents, hheld⟩ | ⟨hraises, hs⟩
  · rw [hs]
    have hset : ∀ j, j ≠ i → (w.release k worker i row').events[j]? = w.events[j]? :=
      fun j hj => List.getElem?_set_ne hj.symm
    constructor
    · refine h.drop (fun k' => heldBy_release w k k' worker i row') (fun k' j e' stage' hne hk' => hset j ?_)
        (attempts_set h (hcount ▸ h.attempts row (List.mem_of_getElem? he)))
      rintro rfl
      exact hne (h.alone k' k j e' e stage' stage hk' hk)
    · refine fun hacc => iff_of_true hok (hacc.of fun j e₀ hj hp => .inr ?_)
      have hij : j ≠ i := by
        rintro rfl
        obtain rfl : row' = e₀ := by
          have hself : (w.release k worker j row').events[j]? = some row' := List.getElem?_set_self hi
          exact Option.some.inj (hself.symm.trans hj)
        exact hstatus hp
      refine ⟨⟨e₀, hset j hij ▸ hj, hp⟩, fun k' e' stage' hk' => ?_⟩
      rw [heldBy_release, if_neg]
      · exact hk'
      · rintro rfl
        rw [hk] at hk'
        cases hk'
        exact hij rfl
  · constructor
    · refine h.hold hheld hread (fun k' e' stage' hne hk' => hne (h.alone k' k i e' e stage' stage hk' hk)) ?_ ?_ ?_
      · exact ⟨row, by rw [hevents, he], hrow⟩
      · exact fun j _ => by rw [hevents]
      · rw [hevents]
        exact h.attempts
    · refine fun hacc => iff_of_true hok (hacc.of fun j e₀ hj hp => ?_)
      rw [hevents] at hj
      by_cases hij : j = i
      · exact .inl ⟨k, e, stage', by rw [hheld, if_pos rfl, hij]⟩
      · refine .inr ⟨⟨e₀, hj, hp⟩, fun k' e' stage'' hk' => ?_⟩
        rw [hheld, if_neg]
        · exact hk'
        · rintro rfl
          rw [hk] at hk'
          cases hk'
          exact hij rfl
  · rw [hs]
    exact ⟨ok_gone h, fun _ => iff_of_false (not_not_intro hraises) (lost h hk)⟩

theorem sound_crash (h : Ok site w) (k : ℕ) : Sound site w (w.setWorker k none) (w.heldBy k = none) := by
  refine ⟨ok_gone h, fun hacc => ?_⟩
  cases hk : w.heldBy k with
  | none =>
    refine iff_of_true rfl (hacc.of fun i e he hp => .inr ⟨⟨e, he, hp⟩, fun k' e' stage' hk' => ?_⟩)
    rw [heldBy_setWorker, if_neg]
    · exact hk'
    · rintro rfl
      rw [hk] at hk'
      cases hk'
  | some p => exact iff_of_false nofun (lost h hk)

theorem sound_requeue (h : Ok site w) (ids : List ℕ) :
    Sound site w { w with events := w.events.mapIdx fun i e => if i ∈ ids then requeued e else e } True := by
  constructor
  · refine h.of_held (fun _ => rfl) (fun i e he hp => ?_) fun e' he' => ?_
    · rw [List.getElem?_mapIdx, he, Option.map_some, (requeued_cases e).2.2 hp, ite_self]
    · obtain ⟨i, hi, rfl⟩ := List.mem_mapIdx.1 he'
      have hcount := h.attempts _ (List.getElem_mem hi)
      split_ifs
      · rwa [(requeued_cases _).1]
      · exact hcount
  · refine fun hacc => iff_of_true trivial (hacc.of fun i e he hp => .inr ⟨?_, fun _ _ _ hk => hk⟩)
    rw [List.getElem?_mapIdx, Option.map_eq_some_iff] at he
    obtain ⟨e₀, he₀, rfl⟩ := he
    refine ⟨e₀, he₀, ?_⟩
    split_ifs at hp with hi
    · exact (requeued_cases e₀).2.1.1 hp
    · exact hp

theorem webhook_events (site : Site) (sha256 : String → String) (d : Webhook) (events : List QueuedEvent) :
    (hostawayUnifiedWebhook site sha256 d events).2 = events ∨ ∃ s, d.payload.bind sanitizeWebhookPayload = some s ∧
      (hostawayUnifiedWebhook site sha256 d events).2 = events ++ [newEvent site d s] := by
  unfold hostawayUnifiedWebhook
  split
  · exact .inl rfl
  · next s hs =>
    split
    · exact .inl rfl
    · exact .inr ⟨s, hs, rfl⟩

theorem sound_deliver (h : Ok site w) (sha256 : String → String) (d : Webhook) :
    Sound site w { w with events := (hostawayUnifiedWebhook site sha256 d w.events).2 } True := by
  rcases webhook_events site sha256 d w.events with hs | ⟨s, -, hs⟩
  · rw [hs]
    exact ⟨h, fun hacc => iff_of_true trivial hacc⟩
  rw [hs]
  constructor
  · refine h.of_held (fun _ => rfl) (fun i e he _ => ?_) fun e he => ?_
    · exact List.getElem?_append_left (List.getElem?_eq_some_iff.1 he).1 ▸ he
    · rcases List.mem_append.1 he with hold | hnew
      · exact h.attempts e hold
      · rw [List.mem_singleton.1 hnew]
        exact Nat.zero_le _
  · refine fun hacc => iff_of_true trivial (hacc.of fun i e he hp => .inr ⟨⟨e, ?_, hp⟩, fun _ _ _ hk => hk⟩)
    rw [List.getElem?_append] at he
    split_ifs at he with hlt
    · exact he
    · obtain rfl : newEvent site d s = e := by
        have hmem := List.mem_of_getElem? he
        exact (List.mem_singleton.1 hmem).symm
      unfold newEvent at hp
      dsimp only at hp
      split_ifs at hp

theorem sound_step (h : Ok site w) (a : Act) : Sound site w (step site sha256 w a) (Settles site w a) := by
  have hsame : Sound site w w True := ⟨h, fun hacc => iff_of_true trivial hacc⟩
  cases a with
  | change r => exact ⟨⟨h.held, h.read, h.alone, h.attempts⟩, fun hacc => iff_of_true trivial hacc⟩
  | deliver d => exact sound_deliver h sha256 d
  | list k retryFailed limit eventId locked now =>
    simp only [step, Settles]
    split
    · exact hsame
    · next hk => exact sound_idle h (by simp [Queue.heldBy, hk]) rfl
  | claim k locked =>
    simp only [step, Settles]
    split
    · exact hsame
    · next worker hk =>
      split
      · exact hsame
      · next hheld => exact sound_claim h locked hk hheld
  | advance k o =>
    simp only [step, Settles]
    have hidle : w.heldBy k = none → ¬ Raises site w k o := by
      rintro hk (⟨i, e, hk', -⟩ | ⟨i, e, s, version, hk', -⟩)
      · rw [hk] at hk'
        cases hk'
      · rw [hk] at hk'
        cases hk'
    split
    · next hk => exact ⟨h, fun hacc => iff_of_true (hidle (by simp [Queue.heldBy, hk])) hacc⟩
    · next worker hk =>
      split
      · next hheld => exact ⟨h, fun hacc => iff_of_true (hidle (by simp [Queue.heldBy, hk, hheld])) hacc⟩
      · next i e stage hheld =>
        have hk : w.heldBy k = some (i, e, stage) := by simp [Queue.heldBy, hk, hheld]
        split
        · next hrow =>
          obtain ⟨row, hrow', -⟩ := h.held k i e stage hk
          rw [hrow] at hrow'
          cases hrow'
        · next row hrow => exact sound_advance h o hk hrow
  | crash k => exact sound_crash h k
  | requeue ids => exact sound_requeue h ids

/-! ### Runs -/

/-- Nothing has been sent yet, and no worker runs; the local rows may be there. -/
def start (rows : ℕ → Option Reservation) : Queue where
  version := fun _ => 0
  events := []
  workers := fun _ => none
  rows := rows
  reflects := fun _ => 0

theorem ok_start (site : Site) (rows : ℕ → Option Reservation) : Ok site (start rows) where
  held k i e stage hk := by cases hk
  read k i e version hk := by cases hk
  alone k k' i e e' stage stage' hk := by cases hk
  attempts := by simp [start]

theorem ok_run (site : Site) (sha256 : String → String) (rows : ℕ → Option Reservation) (as : List Act) :
    Ok site (Machine.run (step site sha256) (start rows) as) :=
  Machine.run_inv (I := Ok site) (fun _ a hw => (sound_step hw a).ok) (ok_start site rows) as

/-- No event is lost, none is with two workers, and none is attempted too often. -/
structure Safe (site : Site) (w : Queue) : Prop where
  accounted : Accounted w
  alone : ∀ k k' i e e' stage stage', w.heldBy k = some (i, e, stage) → w.heldBy k' = some (i, e', stage') → k = k'
  attempts : ∀ e ∈ w.events, e.attemptCount ≤ site.maxAttempts

/-- A run loses no event exactly if no worker crashes or raises while it holds one; in every run an event is with one
worker at most, and attempted no more than `HOSTAWAY_WEBHOOK_MAX_PROCESSING_ATTEMPTS` times. -/
theorem safe_iff (site : Site) (sha256 : String → String) (rows : ℕ → Option Reservation) (as : List Act) :
    Machine.Meets (step site sha256) (Settles site) (start rows) as ↔
      ∀ n, Safe site (Machine.run (step site sha256) (start rows) (as.take n)) := by
  have hok := fun n => ok_run site sha256 rows (as.take n)
  have hacc : Accounted (start rows) := by
    intro i e he
    simp [start] at he
  rw [Machine.meets_iff (I := Ok site) (J := Accounted) (fun w a hw _ => (sound_step hw a).ok)
    (fun w a hw hacc => (sound_step hw a).accounted hacc) (ok_start site rows) hacc]
  exact ⟨fun h n => ⟨h n, (hok n).alone, (hok n).attempts⟩, fun h n => (h n).accounted⟩

/-- The event is accepted and claimed, and the worker is killed during the request to Hostaway. -/
def killed : List Act :=
  [.deliver ⟨some (.obj [("event", .str "reservation updated"), ("reservationId", .int 77001)]), ⟨0, 77001, 0⟩, 100⟩,
    .list 0 false 50 none [] 110, .claim 0 false, .crash 0]

theorem killed_lost :
    ¬ Safe marrakech (Machine.run (step marrakech id) (start fun _ => none) (killed.take 4)) ∧
      (Machine.run (step marrakech id) (start fun _ => none) (killed.take 4)).events.map (·.status) = [.processing] := by
  refine ⟨fun h => ?_, by decide⟩
  have hok := ok_run marrakech id (fun _ => none) (killed.take 3)
  have hheld : ((Machine.run (step marrakech id) (start fun _ => none) (killed.take 3)).heldBy 0).isSome = true := by
    decide
  obtain ⟨⟨i, e, stage⟩, hk⟩ := Option.isSome_iff_exists.1 hheld
  exact lost hok hk h.accounted

end Apartments.Webhooks
