import Apartments.Hostaway.WebhookQueue

/-!
# Duplicates among webhooks (`integrations/views.py`, `hostaway/webhooks.py`)

A webhook that is answered `duplicate` is not read. It may be dropped if its event was accepted before, or if an accepted
event of the reservation has its provider read still to come. Other webhooks than those that announce a change of a
reservation may be delivered as well.
-/

namespace Apartments.Webhooks

open Hostaway Refresh

variable (site : Site) (sha256 : String → String)

/-- The webhook is one that the processing takes up, sanitized as `s`. -/
def Supported (d : Webhook) (s : SanitizedWebhook) : Prop :=
  d.payload.bind sanitizeWebhookPayload = some s ∧ s.eventType ∈ site.allowedEvents

/-- The provider read of the event at `i` is still to come: it waits for a worker, or has just been claimed. -/
def Pending (w : Queue) (i : ℕ) (e : QueuedEvent) : Prop :=
  e.status = .received ∨ e.status = .retryable ∨ ∃ k e', w.heldBy k = some (i, e', .claimed)

/-- An accepted event of the reservation is still to be read. -/
def Waits (w : Queue) (r : ℕ) : Prop :=
  ∃ i e, w.events[i]? = some e ∧ e.eventType ∈ site.allowedEvents ∧ e.hostawayReservationId = some r ∧ Pending w i e

/-- The same event was accepted before. -/
def AcceptedBefore (w : Queue) (a : Announcement) : Prop :=
  ∃ e ∈ w.events, e.eventType ∈ site.allowedEvents ∧ e.origin = a

/-- What a delivery is: it is for the reservation that it names and for a change that was made. Distinct events have
distinct external ids, an event keeps its type, and the keys of different sources differ. -/
structure Genuine (w : Queue) (d : Webhook) (s : SanitizedWebhook) : Prop where
  reservation : s.reservationId = some d.origin.reservation
  version : d.origin.version ≤ w.version d.origin.reservation
  ids : ∀ e ∈ w.events, ∀ id, s.externalEventId = some id → id.length < 255 →
    e.sanitized.externalEventId = some id → e.origin = d.origin ∧ e.eventType = s.eventType
  keys : ∀ e ∈ w.events, e.sanitized.deduplicationKey sha256 = s.deduplicationKey sha256 →
    e.sanitized.deduplicationSource = s.deduplicationSource

/-- The deliveries are genuine, and Hostaway answers with the reservation that it was asked for. -/
def Given (w : Queue) : Act → Prop
  | .deliver d => ∀ s, Supported site d s → Genuine sha256 w d s
  | .advance k _ => ∀ i e s version, w.heldBy k = some (i, e, .fetched (.snapshot s) version) →
      e.hostawayReservationId = some s.reservationId
  | _ => True

/-- The webhook carries an external id that was not cut off, or is the first with its external id or its canonical text,
or its event was accepted before, or an accepted event of the reservation is still to be read. -/
def Told (w : Queue) : Act → Prop
  | .deliver d => ∀ s, Supported site d s →
      (∃ id, s.externalEventId = some id ∧ id.length < 255) ∨ (∀ e ∈ w.events, ¬ e.sanitized.SameSource s) ∨
        AcceptedBefore site w d.origin ∨ Waits site w d.origin.reservation
  | _ => True

/-- Reads are stored in the order in which they were made, and a snapshot that is stale was read before. -/
def InOrder (w : Queue) : Act → Prop
  | .advance k _ => ∀ i e s version, w.heldBy k = some (i, e, .fetched (.snapshot s) version) →
      if (w.rows s.reservationId).any (isStale · s) then version ≤ w.reflects s.reservationId
      else w.reflects s.reservationId ≤ version
  | _ => True

/-- A webhook is answered `duplicate` only if its change is read anyway. -/
def Heard (w : Queue) : Act → Prop
  | .deliver d => ∀ s, Supported site d s → (hostawayUnifiedWebhook site sha256 d w.events).1 = .duplicate →
      AcceptedBefore site w d.origin ∨ Waits site w d.origin.reservation
  | _ => True

variable {site sha256} {w : Queue} {d : Webhook} {s : SanitizedWebhook}

theorem answer_duplicate (hs : Supported site d s) :
    (hostawayUnifiedWebhook site sha256 d w.events).1 = .duplicate ↔
      ∃ e ∈ w.events, e.sanitized.deduplicationKey sha256 = s.deduplicationKey sha256 := by
  unfold hostawayUnifiedWebhook
  rw [hs.1]
  simp only [hs.2, if_true, List.any_eq_true, beq_iff_eq]
  split_ifs with h
  · exact iff_of_true rfl h
  · exact iff_of_false nofun h

theorem Genuine.duplicate_iff (h : Genuine sha256 w d s) (hs : Supported site d s) :
    (hostawayUnifiedWebhook site sha256 d w.events).1 = .duplicate ↔ ∃ e ∈ w.events, e.sanitized.SameSource s := by
  rw [answer_duplicate hs]
  refine exists_congr fun e => and_congr_right fun he => ?_
  rw [sameSource_iff]
  exact ⟨h.keys e he, congrArg sha256⟩

/-- A webhook with an external id is a duplicate only of its own event. -/
theorem Genuine.acceptedBefore (h : Genuine sha256 w d s) (hs : Supported site d s) {id : String}
    (hid : s.externalEventId = some id) (hlen : id.length < 255) {e : QueuedEvent} (he : e ∈ w.events)
    (hsame : e.sanitized.SameSource s) : AcceptedBefore site w d.origin := by
  obtain ⟨horigin, htype⟩ := h.ids e he id hid hlen (hsame.1.trans hid)
  exact ⟨e, he, htype ▸ hs.2, horigin⟩

/-- A delivery drops no change exactly if it is told apart. -/
theorem told_iff {a : Act} (h : Given site sha256 w a) : Told site w a ↔ Heard site sha256 w a := by
  cases a with
  | deliver d =>
    refine forall₂_congr fun s hs => ?_
    rw [(h s hs).duplicate_iff hs]
    constructor
    · rintro (⟨id, hid, hlen⟩ | hfirst | hknown) ⟨e, he, hsame⟩
      · exact .inl ((h s hs).acceptedBefore hs hid hlen he hsame)
      · exact absurd hsame (hfirst e he)
      · exact hknown
    · intro hheard
      by_cases hdup : ∃ e ∈ w.events, e.sanitized.SameSource s
      · exact .inr (.inr (hheard hdup))
      · exact .inr (.inl fun e he hsame => hdup ⟨e, he, hsame⟩)
  | change r => exact Iff.rfl
  | list k retryFailed limit eventId locked now => exact Iff.rfl
  | claim k locked => exact Iff.rfl
  | advance k o => exact Iff.rfl
  | crash k => exact Iff.rfl
  | requeue ids => exact Iff.rfl

/-! ### What was announced is read -/

/-- The event is not processed yet, and whoever holds it has read the reservation at `v` or later, or has not yet. -/
structure Unread (w : Queue) (i : ℕ) (e : QueuedEvent) (v : ℕ) : Prop where
  status : e.status ≠ .processed
  read : ∀ k e' f u, w.heldBy k = some (i, e', .fetched f u) → v ≤ u
  synced : ∀ k e' stale, w.heldBy k ≠ some (i, e', .synced stale)

/-- The local row reflects a read at `v` or later, or an accepted event will bring one. -/
def Reached (site : Site) (w : Queue) (r v : ℕ) : Prop :=
  v ≤ w.reflects r ∨ v ≤ w.version r ∧ ∃ i e, w.events[i]? = some e ∧ e.eventType ∈ site.allowedEvents ∧
    e.hostawayReservationId = some r ∧ Unread w i e v

/-- A later row of the same event. -/
structure Follows (e e' : QueuedEvent) : Prop where
  eventType : e'.eventType = e.eventType
  reservation : e'.hostawayReservationId = e.hostawayReservationId
  origin : e'.origin = e.origin

theorem Follows.refl (e : QueuedEvent) : Follows e e := ⟨rfl, rfl, rfl⟩

/-- What is held is a copy of the row, and only events of the reservations that are processed are read. -/
def Copied (w : Queue) : Prop :=
  ∀ k i e stage, w.heldBy k = some (i, e, stage) → ∃ row, w.events[i]? = some row ∧ Follows row e

/-- What an action does to the rows, and to who holds an event that stays unread. -/
structure Advances (site : Site) (w w' : Queue) : Prop where
  follows : ∀ (i : ℕ) (e : QueuedEvent), w.events[i]? = some e → ∃ e', w'.events[i]? = some e' ∧ Follows e e'
  copied : Copied w → Copied w'
  version : ∀ r, w.version r ≤ w'.version r
  reflects : ∀ r, w.reflects r ≤ w'.reflects r
  unread : ∀ (i : ℕ) (e e' : QueuedEvent) (v r : ℕ), w.events[i]? = some e → w'.events[i]? = some e' → e.eventType ∈ site.allowedEvents →
    e.hostawayReservationId = some r → v ≤ w.version r → Unread w i e v → v ≤ w'.reflects r ∨ Unread w' i e' v

theorem Reached.advance {w' : Queue} {r v : ℕ} (h : Reached site w r v) (ha : Advances site w w') :
    Reached site w' r v := by
  rcases h with hle | ⟨hversion, i, e, he, htype, hreservation, hunread⟩
  · exact .inl (hle.trans (ha.reflects r))
  · obtain ⟨e', he', hfollows⟩ := ha.follows i e he
    rcases ha.unread i e e' v r he he' htype hreservation hversion hunread with hle | hunread'
    · exact .inl hle
    · exact .inr ⟨hversion.trans (ha.version r), i, e', he', hfollows.eventType ▸ htype,
        hfollows.reservation.trans hreservation, hunread'⟩

/-- The rows stay as they are, and a worker may have dropped what it held. -/
theorem Advances.of_held {w' : Queue}
    (hevents : ∀ (i : ℕ) (e : QueuedEvent), w.events[i]? = some e → w'.events[i]? = some e)
    (hheld : ∀ k p, w'.heldBy k = some p → w.heldBy k = some p) (hversion : ∀ r, w.version r ≤ w'.version r)
    (hreflects : w'.reflects = w.reflects) : Advances site w w' where
  follows i e he := ⟨e, hevents i e he, .refl e⟩
  copied h k i e stage hk := by
    obtain ⟨row, hrow, hfollows⟩ := h k i e stage (hheld k _ hk)
    exact ⟨row, hevents i row hrow, hfollows⟩
  version := hversion
  reflects r := by rw [hreflects]
  unread i e e' v r he he' _ _ _ h := by
    obtain rfl : e = e' := Option.some.inj ((hevents i e he).symm.trans he')
    exact .inr ⟨h.status, fun k e' f u hk => h.read k e' f u (hheld k _ hk),
      fun k e' stale hk => h.synced k e' stale (hheld k _ hk)⟩

/-- One row is rewritten; nobody holds it afterwards, or it has just been claimed. -/
theorem Advances.of_set {w' : Queue} {i : ℕ} {row row' : QueuedEvent} (hrow : w.events[i]? = some row)
    (hevents : w'.events = w.events.set i row') (hfollows : Follows row row')
    (hheld : ∀ k j e stage, w'.heldBy k = some (j, e, stage) → w.heldBy k = some (j, e, stage) ∨
      j = i ∧ stage = .claimed ∧ Follows row' e)
    (hstatus : ∀ v, Unread w i row v → row'.status ≠ .processed) (hversion : w'.version = w.version)
    (hreflects : w'.reflects = w.reflects) : Advances site w w' := by
  have hi := (List.getElem?_eq_some_iff.1 hrow).1
  have hself : w'.events[i]? = some row' := by rw [hevents, List.getElem?_set_self hi]
  have hother : ∀ j, j ≠ i → w'.events[j]? = w.events[j]? := fun j hj => by
    rw [hevents, List.getElem?_set_ne hj.symm]
  constructor
  · intro j e he
    by_cases hj : j = i
    · subst hj
      rw [hrow] at he
      cases he
      exact ⟨row', hself, hfollows⟩
    · exact ⟨e, by rw [hother j hj, he], .refl e⟩
  · intro hcopied k j e stage hk
    rcases hheld k j e stage hk with hold | ⟨rfl, -, hnew⟩
    · obtain ⟨row₀, hrow₀, hfollows₀⟩ := hcopied k j e stage hold
      by_cases hj : j = i
      · subst hj
        rw [hrow] at hrow₀
        cases hrow₀
        exact ⟨row', hself, hfollows₀.eventType.trans hfollows.eventType.symm,
          hfollows₀.reservation.trans hfollows.reservation.symm, hfollows₀.origin.trans hfollows.origin.symm⟩
      · exact ⟨row₀, by rw [hother j hj, hrow₀], hfollows₀⟩
    · exact ⟨row', hself, hnew⟩
  · intro r
    rw [hversion]
  · intro r
    rw [hreflects]
  · intro j e e' v r he he' _ _ _ h
    right
    have hold : ∀ k e₀ stage, stage ≠ .claimed → w'.heldBy k = some (j, e₀, stage) → w.heldBy k = some (j, e₀, stage) :=
      fun k e₀ stage hne hk => (hheld k j e₀ stage hk).resolve_right fun hc => hne hc.2.1
    refine ⟨?_, fun k e₀ f u hk => h.read k e₀ f u (hold k e₀ _ nofun hk),
      fun k e₀ stale hk => h.synced k e₀ stale (hold k e₀ _ nofun hk)⟩
    by_cases hj : j = i
    · subst hj
      rw [hrow] at he
      cases he
      rw [hself] at he'
      cases he'
      exact hstatus v h
    · rw [hother j hj, he] at he'
      cases he'
      exact h.status

theorem claimQueued_follows (site : Site) (retryFailed : Bool) (e : QueuedEvent) :
    Follows e (claimQueued site retryFailed e).1 ∧
      (e.status ≠ .processed → (claimQueued site retryFailed e).1.status ≠ .processed) := by
  unfold claimQueued claimEvent
  split_ifs
  · exact ⟨.refl e, id⟩
  · exact ⟨⟨rfl, rfl, rfl⟩, fun _ => nofun⟩
  · exact ⟨⟨rfl, rfl, rfl⟩, fun _ => nofun⟩

theorem advances_claim {k : ℕ} {worker : Worker} (locked : Bool) (hk : w.workers k = some worker)
    (hheld : worker.held = none) : Advances site w (claimStep site w k locked worker) := by
  have hnone : w.heldBy k = none := by simp [Queue.heldBy, hk, hheld]
  have hidle : ∀ (worker' : Option Worker), worker'.bind (·.held) = none → Advances site w (w.setWorker k worker') := by
    intro worker' hworker'
    refine .of_held (fun _ _ he => he) (fun k' p hp => ?_) (fun _ => le_rfl) rfl
    rw [heldBy_setWorker] at hp
    split_ifs at hp with hkk
    · rw [hworker'] at hp
      cases hp
    · exact hp
  unfold claimStep
  split
  · exact hidle none rfl
  · next i ids _ =>
    split
    · exact hidle _ hheld
    · next e he =>
      by_cases hlocked : locked = true
      · rw [if_pos hlocked]
        exact hidle _ hheld
      rw [if_neg hlocked]
      obtain ⟨hfollows, hstatus⟩ := claimQueued_follows site worker.retryFailed e
      refine .of_set he rfl hfollows (fun k' j e' stage hk' => ?_) (fun v h => hstatus h.status) rfl rfl
      rw [heldBy_setWorker] at hk'
      by_cases hkk : k' = k
      · rw [if_pos hkk, Option.bind_some] at hk'
        cases htaken : (claimQueued site worker.retryFailed e).2 with
        | false => simp [htaken] at hk'
        | true =>
          simp only [htaken, if_true, Option.some.injEq, Prod.mk.injEq] at hk'
          obtain ⟨rfl, rfl, rfl⟩ := hk'
          exact .inr ⟨rfl, rfl, .refl _⟩
      · rw [if_neg hkk] at hk'
        exact .inl hk'

theorem retryQueued_follows (site : Site) (held : QueuedEvent) (code : String) (now : Time) (e : QueuedEvent) :
    Follows e (retryQueued site held code now e) ∧ (retryQueued site held code now e).status ≠ .processed := by
  unfold retryQueued
  split_ifs
  · exact ⟨⟨rfl, rfl, rfl⟩, nofun⟩
  · exact ⟨⟨rfl, rfl, rfl⟩, nofun⟩

/-- The event is given back. -/
theorem advances_release {k i : ℕ} {worker : Worker} {row row' : QueuedEvent} (hrow : w.events[i]? = some row)
    (hfollows : Follows row row') (hstatus : ∀ v, Unread w i row v → row'.status ≠ .processed) :
    Advances site w (w.release k worker i row') := by
  refine .of_set hrow rfl hfollows (fun k' j e stage hk' => .inl ?_) hstatus rfl rfl
  rw [heldBy_release] at hk'
  split_ifs at hk' with hkk
  exact hk'

/-- The worker goes on to the next stage of an event that it holds. -/
theorem advances_goOn {w' : Queue} {k i : ℕ} {e : QueuedEvent} {stage stage' : Stage}
    (hk : w.heldBy k = some (i, e, stage)) (hevents : w'.events = w.events)
    (hheld : ∀ k', w'.heldBy k' = if k' = k then some (i, e, stage') else w.heldBy k') (hversion : w'.version = w.version)
    (hreflects : ∀ r, w.reflects r ≤ w'.reflects r)
    (hunread : ∀ v r, v ≤ w.version r → (∀ row, w.events[i]? = some row → row.hostawayReservationId = some r ∧
      Unread w i row v) → v ≤ w'.reflects r ∨ (∀ f u, stage' = .fetched f u → v ≤ u) ∧ ∀ stale, stage' ≠ .synced stale) :
    Advances site w w' := by
  constructor
  · exact fun j e he => ⟨e, hevents ▸ he, .refl e⟩
  · intro hcopied k' j e' stage₀ hk'
    rw [hheld] at hk'
    rw [hevents]
    split_ifs at hk' with hkk
    · cases hk'
      exact hcopied k i e stage hk
    · exact hcopied k' j e' stage₀ hk'
  · intro r
    rw [hversion]
  · exact hreflects
  · intro j e₀ e' v r he he' _ hreservation hv hu
    rw [hevents, he] at he'
    cases he'
    by_cases hj : j = i
    · subst hj
      have hown : ∀ row, w.events[j]? = some row → row.hostawayReservationId = some r ∧ Unread w j row v := by
        intro row hrow
        rw [he] at hrow
        cases hrow
        exact ⟨hreservation, hu⟩
      refine (hunread v r hv hown).imp id fun ⟨hread, hopen⟩ => ⟨hu.status, fun k' e' f u hk' => ?_, ?_⟩
      · rw [hheld] at hk'
        split_ifs at hk' with hkk
        · obtain ⟨-, -, hstage⟩ : j = j ∧ e = e' ∧ stage' = .fetched f u := by simpa using hk'
          exact hread f u hstage
        · exact hu.read k' e' f u hk'
      · intro k' e' stale hk'
        rw [hheld] at hk'
        split_ifs at hk' with hkk
        · obtain ⟨-, -, hstage⟩ : j = j ∧ e = e' ∧ stage' = .synced stale := by simpa using hk'
          exact hopen stale hstage
        · exact hu.synced k' e' stale hk'
    · refine .inr ⟨hu.status, fun k' e' f u hk' => ?_, fun k' e' stale hk' => ?_⟩
      · rw [hheld] at hk'
        split_ifs at hk' with hkk
        · cases hk'
          exact absurd rfl hj
        · exact hu.read k' e' f u hk'
      · rw [hheld] at hk'
        split_ifs at hk' with hkk
        · cases hk'
          exact absurd rfl hj
        · exact hu.synced k' e' stale hk'

theorem advances_gone (w : Queue) (k : ℕ) : Advances site w (w.setWorker k none) := by
  refine .of_held (fun _ _ he => he) (fun k' p hp => ?_) (fun _ => le_rfl) rfl
  rw [heldBy_setWorker] at hp
  by_cases hkk : k' = k
  · rw [if_pos hkk] at hp
    cases hp
  · rwa [if_neg hkk] at hp

theorem advances_advance {k i : ℕ} {e row : QueuedEvent} {stage : Stage} {worker : Worker}
    (hcopied : Copied w) (o : Encounter) (hk : w.heldBy k = some (i, e, stage)) (hrow : w.events[i]? = some row)
    (hgiven : Given site sha256 w (.advance k o)) (horder : InOrder w (.advance k o)) :
    Advances site w (advanceStep site w k o worker i e row stage) := by
  have hcopy : Follows row e := by
    obtain ⟨row', hrow', hfollows⟩ := hcopied k i e stage hk
    rw [hrow] at hrow'
    cases hrow'
    exact hfollows
  cases stage with
  | claimed =>
    rw [advanceStep]
    by_cases hallowed : e.eventType ∈ site.allowedEvents
    swap
    · rw [if_pos hallowed]
      exact advances_release hrow ⟨rfl, rfl, rfl⟩ fun _ _ => by rintro ⟨⟩
    rw [if_neg (not_not_intro hallowed)]
    cases hr : e.hostawayReservationId with
    | none => exact advances_release hrow ⟨rfl, rfl, rfl⟩ fun _ _ => by rintro ⟨⟩
    | some r =>
      dsimp only
      split_ifs with hf
      · exact advances_gone w k
      · refine advances_goOn hk rfl (fun k' => heldBy_setWorker w k k' _) rfl (fun _ => le_rfl) fun v r' hv hown => ?_
        refine .inr ⟨fun f u hstage => ?_, by rintro _ ⟨⟩⟩
        cases hstage
        obtain ⟨hreservation, -⟩ := hown row hrow
        rw [← hcopy.reservation, hr] at hreservation
        cases hreservation
        exact hv
  | fetched f version =>
    cases f with
    | missing =>
      have hretry := retryQueued_follows site e "hostaway_reservation_temporarily_missing" o.delivery.now row
      exact advances_release hrow hretry.1 fun _ _ => hretry.2
    | unavailable =>
      have hretry := retryQueued_follows site e "hostaway_temporarily_unavailable" o.delivery.now row
      exact advances_release hrow hretry.1 fun _ _ => hretry.2
    | invalid => exact advances_release hrow ⟨rfl, rfl, rfl⟩ fun _ _ => by rintro ⟨⟩
    | raised => exact advances_gone w k
    | snapshot s =>
      have hsame := hgiven i e s version hk
      have hin := horder i e s version hk
      have hread : ∀ v r, (∀ row, w.events[i]? = some row → row.hostawayReservationId = some r ∧ Unread w i row v) →
          r = s.reservationId ∧ v ≤ version := by
        intro v r hown
        obtain ⟨hreservation, hunread⟩ := hown row hrow
        rw [← hcopy.reservation, hsame] at hreservation
        exact ⟨(Option.some.inj hreservation).symm, hunread.read k e _ version hk⟩
      rw [advanceStep, syncStep]
      cases hsync : SnapshotOrder.syncSnapshot ⟨o.pk, o.delivery, s, o.clean⟩ (w.rows s.reservationId) with
      | none => exact advances_gone w k
      | some p =>
        obtain ⟨r₀, stale⟩ := p
        rw [SnapshotOrder.stale_of_sync hsync] at hin
        dsimp only
        cases stale with
        | true =>
          refine advances_goOn hk rfl (fun k' => heldBy_setWorker w k k' _) rfl (fun _ => le_rfl) fun v r _ hown => ?_
          obtain ⟨rfl, hle⟩ := hread v r hown
          exact .inl (hle.trans hin)
        | false =>
          refine advances_goOn hk rfl (fun k' => heldBy_setWorker w k k' _) rfl (fun r => ?_) fun v r _ hown => ?_
          · by_cases hr : r = s.reservationId
            · subst hr
              simpa using hin
            · simp [hr]
          · obtain ⟨rfl, hle⟩ := hread v r hown
            exact .inl (by simpa using hle)
  | synced stale =>
    exact advances_release hrow ⟨rfl, rfl, rfl⟩ fun v hu => absurd hk (hu.synced k e stale)

theorem requeued_follows (e : QueuedEvent) :
    Follows e (requeued e) ∧ (e.status ≠ .processed → (requeued e).status ≠ .processed) := by
  unfold requeued
  split_ifs
  · exact ⟨⟨rfl, rfl, rfl⟩, fun _ => nofun⟩
  · exact ⟨.refl e, id⟩

theorem advances_requeue (w : Queue) (ids : List ℕ) :
    Advances site w { w with events := w.events.mapIdx fun i e => if i ∈ ids then requeued e else e } := by
  have hrow : ∀ (i : ℕ) (e : QueuedEvent), w.events[i]? = some e →
      (w.events.mapIdx fun i e => if i ∈ ids then requeued e else e)[i]? = some (if i ∈ ids then requeued e else e) := by
    intro i e he
    rw [List.getElem?_mapIdx, he, Option.map_some]
  have hfollows : ∀ (i : ℕ) (e : QueuedEvent), Follows e (if i ∈ ids then requeued e else e) := by
    intro i e
    split_ifs
    · exact (requeued_follows e).1
    · exact .refl e
  constructor
  · exact fun i e he => ⟨_, hrow i e he, hfollows i e⟩
  · intro hcopied k i e stage hk
    obtain ⟨row, he, hcopy⟩ := hcopied k i e stage hk
    have hlater := hfollows i row
    exact ⟨_, hrow i row he, hcopy.eventType.trans hlater.eventType.symm,
      hcopy.reservation.trans hlater.reservation.symm, hcopy.origin.trans hlater.origin.symm⟩
  · exact fun _ => le_rfl
  · exact fun _ => le_rfl
  · intro i e e' v r he he' _ _ _ hu
    obtain rfl : (if i ∈ ids then requeued e else e) = e' := Option.some.inj ((hrow i e he).symm.trans he')
    refine .inr ⟨?_, hu.read, hu.synced⟩
    split_ifs
    · exact (requeued_follows e).2 hu.status
    · exact hu.status

theorem advances_deliver (site : Site) (sha256 : String → String) (w : Queue) (d : Webhook) :
    Advances site w { w with events := (hostawayUnifiedWebhook site sha256 d w.events).2 } := by
  refine .of_held (fun i e he => ?_) (fun _ _ hp => hp) (fun _ => le_rfl) rfl
  rcases webhook_events site sha256 d w.events with hs | ⟨s, -, hs⟩
  · rwa [hs]
  · rw [hs, List.getElem?_append_left (List.getElem?_eq_some_iff.1 he).1]
    exact he

theorem advances_step (hcopied : Copied w) (a : Act) (hgiven : Given site sha256 w a)
    (horder : InOrder w a) : Advances site w (step site sha256 w a) := by
  have hsame : Advances site w w := .of_held (fun _ _ he => he) (fun _ _ hp => hp) (fun _ => le_rfl) rfl
  cases a with
  | change r =>
    refine .of_held (fun _ _ he => he) (fun _ _ hp => hp) (fun r' => ?_) rfl
    by_cases hr : r' = r
    · subst hr
      simp [step]
    · simp [step, hr]
  | deliver d => exact advances_deliver site sha256 w d
  | list k retryFailed limit eventId locked now =>
    simp only [step]
    split
    · exact hsame
    · next hk =>
      refine .of_held (fun _ _ he => he) (fun k' p hp => ?_) (fun _ => le_rfl) rfl
      rw [heldBy_setWorker] at hp
      by_cases hkk : k' = k
      · rw [if_pos hkk] at hp
        cases hp
      · rwa [if_neg hkk] at hp
  | claim k locked =>
    simp only [step]
    split
    · exact hsame
    · next worker hk =>
      split
      · exact hsame
      · next hheld => exact advances_claim locked hk hheld
  | advance k o =>
    simp only [step]
    split
    · exact hsame
    · next worker hk =>
      split
      · exact hsame
      · next i e stage hheld =>
        have hk : w.heldBy k = some (i, e, stage) := by simp [Queue.heldBy, hk, hheld]
        split
        · exact hsame
        · next row hrow => exact advances_advance hcopied o hk hrow hgiven horder
  | crash k => exact advances_gone w k
  | requeue ids => exact advances_requeue w ids

/-! ### Deliveries -/

/-- Every accepted event has been read at what it announced, or will be. -/
structure Informed (site : Site) (w : Queue) : Prop where
  ok : Ok site w
  copied : Copied w
  reached : ∀ e ∈ w.events, e.eventType ∈ site.allowedEvents → Reached site w e.origin.reservation e.origin.version

/-- An event whose read is still to come brings everything that was changed before it. -/
theorem reached_of_waits {r v : ℕ} (h : Ok site w) (hv : v ≤ w.version r) (hw : Waits site w r) :
    Reached site w r v := by
  obtain ⟨i, e, he, htype, hreservation, hpending⟩ := hw
  refine .inr ⟨hv, i, e, he, htype, hreservation, ?_⟩
  have hheld : ∀ k e' stage, w.heldBy k = some (i, e', stage) → e.status = .processing ∧
      (e.status = .processing → stage = .claimed) := by
    intro k e' stage hk
    obtain ⟨row, hrow, hp, -⟩ := h.held k i e' stage hk
    rw [he] at hrow
    cases hrow
    refine ⟨hp, fun _ => ?_⟩
    rcases hpending with hreceived | hretryable | ⟨k₀, e₀, hk₀⟩
    · rw [hp] at hreceived
      cases hreceived
    · rw [hp] at hretryable
      cases hretryable
    · obtain rfl : k = k₀ := h.alone k k₀ i e' e₀ stage .claimed hk hk₀
      rw [hk] at hk₀
      cases hk₀
      rfl
  refine ⟨?_, fun k e' f u hk => ?_, fun k e' stale hk => ?_⟩
  · rcases hpending with hreceived | hretryable | ⟨k, e', hk⟩
    · simp [hreceived]
    · simp [hretryable]
    · simp [(hheld k e' _ hk).1]
  · obtain ⟨hp, hstage⟩ := hheld k e' _ hk
    cases hstage hp
  · obtain ⟨hp, hstage⟩ := hheld k e' _ hk
    cases hstage hp

theorem reached_of_accepted {a : Announcement} (h : Informed site w) (ha : AcceptedBefore site w a) :
    Reached site w a.reservation a.version := by
  obtain ⟨e, he, htype, rfl⟩ := ha
  exact h.reached e he htype

/-- The event that was just put into the table will be read. -/
theorem reached_of_new (h : Informed site w) (hs : Supported site d s) (hg : Genuine sha256 w d s) :
    Reached site { w with events := w.events ++ [newEvent site d s] } d.origin.reservation d.origin.version := by
  have hself : (w.events ++ [newEvent site d s])[w.events.length]? = some (newEvent site d s) := by simp
  have hfree : ∀ k e' stage, w.heldBy k ≠ some (w.events.length, e', stage) := by
    intro k e' stage hk
    obtain ⟨row, hrow, -⟩ := h.ok.held k _ e' stage hk
    simp at hrow
  refine .inr ⟨hg.version, w.events.length, _, hself, hs.2, hg.reservation, ?_, ?_, ?_⟩
  · simp [newEvent, hs.2]
  · exact fun k e' f u hk => absurd hk (hfree k e' _)
  · exact fun k e' stale hk => hfree k e' _ hk

/-- A delivery that is told apart is read at what it announces, or will be. -/
theorem reached_of_delivery (h : Informed site w) (hs : Supported site d s)
    (hgiven : Given site sha256 w (.deliver d)) (htold : Told site w (.deliver d)) :
    Reached site (step site sha256 w (.deliver d)) d.origin.reservation d.origin.version := by
  have hg := hgiven s hs
  have hheard := (told_iff hgiven).1 htold s hs
  have hsound := advances_deliver site sha256 w d
  by_cases hdup : (hostawayUnifiedWebhook site sha256 d w.events).1 = .duplicate
  · refine Reached.advance ?_ hsound
    rcases hheard hdup with hbefore | hwaits
    · exact reached_of_accepted h hbefore
    · exact reached_of_waits h.ok hg.version hwaits
  · have hnew : (hostawayUnifiedWebhook site sha256 d w.events).2 = w.events ++ [newEvent site d s] := by
      unfold hostawayUnifiedWebhook at hdup ⊢
      rw [hs.1] at hdup ⊢
      dsimp only at hdup ⊢
      split_ifs at hdup ⊢ with hany
      · exact absurd rfl hdup
      · rfl
      · rfl
    rw [step, hnew]
    exact reached_of_new h hs hg

theorem length_claimStep (k : ℕ) (locked : Bool) (worker : Worker) :
    (claimStep site w k locked worker).events.length = w.events.length := by
  unfold claimStep
  split
  · rfl
  · split
    · rfl
    · split_ifs
      · rfl
      · exact List.length_set

theorem length_advanceStep (k i : ℕ) (o : Encounter) (worker : Worker) (e row : QueuedEvent) (stage : Stage) :
    (advanceStep site w k o worker i e row stage).events.length = w.events.length := by
  have hrelease : ∀ row', (w.release k worker i row').events.length = w.events.length := fun _ => List.length_set
  cases stage with
  | claimed =>
    rw [advanceStep]
    split
    · exact hrelease _
    · split
      · exact hrelease _
      · split <;> rfl
  | fetched f version =>
    cases f with
    | missing => exact hrelease _
    | unavailable => exact hrelease _
    | invalid => exact hrelease _
    | raised => rfl
    | snapshot s =>
      rw [advanceStep, syncStep]
      split <;> rfl
  | synced stale => exact hrelease _

/-- Only a webhook adds a row. -/
theorem length_step (a : Act) (ha : ∀ d, a ≠ .deliver d) :
    (step site sha256 w a).events.length = w.events.length := by
  cases a with
  | deliver d => exact absurd rfl (ha d)
  | change r => rfl
  | list k retryFailed limit eventId locked now =>
    simp only [step]
    split <;> rfl
  | claim k locked =>
    simp only [step]
    split
    · rfl
    · split
      · rfl
      · exact length_claimStep ..
  | advance k o =>
    simp only [step]
    split
    · rfl
    · split
      · rfl
      · split
        · rfl
        · exact length_advanceStep ..
  | crash k => rfl
  | requeue ids => exact List.length_mapIdx

theorem Informed.step (h : Informed site w) (a : Act) (hgiven : Given site sha256 w a) (htold : Told site w a)
    (horder : InOrder w a) : Informed site (step site sha256 w a) := by
  have hadvances := advances_step h.copied a hgiven horder
  refine ⟨(sound_step h.ok a).ok, hadvances.copied h.copied, fun e' he' htype' => ?_⟩
  obtain ⟨i, hget⟩ := List.mem_iff_getElem?.1 he'
  have hi := (List.getElem?_eq_some_iff.1 hget).1
  by_cases hold : i < w.events.length
  · obtain ⟨e, he⟩ : ∃ e, w.events[i]? = some e := ⟨_, List.getElem?_eq_getElem hold⟩
    obtain ⟨e'', he'', hfollows⟩ := hadvances.follows i e he
    rw [hget] at he''
    cases he''
    rw [hfollows.origin]
    exact (h.reached e (List.mem_of_getElem? he) (hfollows.eventType ▸ htype')).advance hadvances
  · by_cases hd : ∃ d, a = .deliver d
    · obtain ⟨d, rfl⟩ := hd
      rcases webhook_events site sha256 d w.events with hs | ⟨s, hsanitized, hs⟩
      · rw [Webhooks.step, hs] at hi
        exact absurd hi hold
      · have hrow : newEvent site d s = e' := by
          rw [Webhooks.step, hs, List.getElem?_append_right (not_lt.1 hold)] at hget
          exact (List.mem_singleton.1 (List.mem_of_getElem? hget)).symm
        subst hrow
        exact reached_of_delivery h ⟨hsanitized, htype'⟩ hgiven htold
    · push Not at hd
      rw [length_step a hd] at hi
      exact absurd hi hold

theorem informed_start (site : Site) (rows : ℕ → Option Reservation) : Informed site (start rows) where
  ok := ok_start site rows
  copied k i e stage hk := by cases hk
  reached := by simp [start]

/-- The state after the first `n` actions. -/
abbrev runOf (site : Site) (sha256 : String → String) (rows : ℕ → Option Reservation) (as : List Act) (n : ℕ) : Queue :=
  Machine.run (step site sha256) (start rows) (as.take n)

/-- The steps of a run that loses no announcement. -/
def Careful (site : Site) (sha256 : String → String) (w : Queue) (a : Act) : Prop :=
  Given site sha256 w a ∧ Told site w a ∧ InOrder w a

/-- What the provider sends about the reservation. -/
def notice (externalId : Option String) : Option Json :=
  some (.obj ([("event", .str "reservation updated"), ("reservationId", .int 77001)] ++
    externalId.toList.map fun id => ("eventId", .str id)))

/-- Two changes, each announced under an id of its own. -/
def withIds : List Act :=
  [.change 77001, .deliver ⟨notice (some "e1"), ⟨1, 77001, 1⟩, 100⟩, .change 77001,
    .deliver ⟨notice (some "e2"), ⟨2, 77001, 2⟩, 200⟩]

theorem notice_reservation (externalId : Option String)
    (h : ((notice externalId).bind sanitizeWebhookPayload).map (·.reservationId) = some (some 77001))
    (hs : Supported marrakech ⟨notice externalId, ⟨n, 77001, v⟩, now⟩ s) : s.reservationId = some 77001 := by
  have hs := hs.1
  dsimp only at hs
  rw [hs] at h
  exact Option.some.inj h

theorem withIds_genuine :
    Machine.Meets (step marrakech id) (Given marrakech id) (start fun _ => none) withIds := by
  refine ⟨trivial, fun s hs => ⟨notice_reservation _ (by decide) hs, by decide, ?_, ?_⟩, trivial,
    fun s hs => ⟨notice_reservation _ (by decide) hs, by decide, ?_, fun _ _ h => h⟩, trivial⟩
  · exact fun e he => absurd he List.not_mem_nil
  · exact fun _ _ h => h
  · intro e he externalId hid _ hsame
    have hone : (runOf marrakech id (fun _ => none) withIds 3).events.map (·.sanitized.externalEventId) =
        [some "e1"] := by decide
    have htwo : ((notice (some "e2")).bind sanitizeWebhookPayload).map (·.externalEventId) = some (some "e2") := by decide
    have hs := hs.1
    dsimp only at hs
    rw [hs, Option.map_some, Option.some.injEq, hid] at htwo
    have hmem : e.sanitized.externalEventId ∈
        (runOf marrakech id (fun _ => none) withIds 3).events.map (·.sanitized.externalEventId) := List.mem_map_of_mem he
    rw [hone, List.mem_singleton, hsame, htwo] at hmem
    exact absurd hmem (by decide)

def answered (guests : ℕ) : Encounter where
  fetched := .snapshot { labelled "SAR" with guests := guests }
  pk := ⟨"a2", by decide⟩
  delivery := delivery
  clean := true

/-- A change of the guests is announced without an id and read, and then they change again. -/
def changedTwice : List Act :=
  [.change 77001, .deliver ⟨notice none, ⟨1, 77001, 1⟩, 100⟩, .list 0 false 50 none [] 110, .claim 0 false,
    .advance 0 (answered 3), .advance 0 (answered 3), .advance 0 (answered 3), .change 77001,
    .deliver ⟨notice none, ⟨2, 77001, 2⟩, 200⟩]

end Apartments.Webhooks
