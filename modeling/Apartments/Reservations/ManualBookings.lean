import Apartments.Reservations.ManualDrafts

/-!
# A manual draft and what it booked

Rechecks, finalizations and creates of one draft interleave. A recheck asks for availability after a read without a lock;
a create is its preparing transaction, the events of its call in `Hostaway.World` and a last transaction that writes the
status without reading it. `finalizations` logs the stays the owner has finalized and `uncaught` counts the creates that
ended in an `IntegrityError`.

The intent is keyed by the draft, so there is never a second one (`Once`). It consumes the quote the draft points to, and
only a recheck moves that pointer: `Tied` lasts exactly as long as no recheck replaces the quote of a draft that has its
intent.
-/

namespace Apartments.ManualBookings

open Hostaway

structure World where
  draft : ManualBookingDraft
  quotes : List BookingQuote
  intents : List BookingIntent
  /-- The reservations of the intents with their create calls. -/
  stays : List Hostaway.World
  /-- The rechecks that have read the draft and not written it. -/
  rechecks : ℕ
  /-- The creates that have been prepared and have not ended: their reservation and their call. -/
  creating : List (ℕ × ℕ)
  finalizations : List Stay
  uncaught : ℕ
deriving DecidableEq

inductive Action
  | askRecheck
  | recheck (offer : Offer)
  | finalize (guest : GuestData) (total : Dec) (currency : Option CurrencyQuote) (now : Time)
  | confirm (confirmation : Confirmation) (currency : Option CurrencyQuote) (now : Time)
  | create (drawn : Drawn) (now : Time)
  | channel (s : ℕ) (action : Hostaway.Action)
  | finish (i : ℕ)
deriving DecidableEq

namespace World

/-- The draft as a finalization leaves it; an exception rolls it back. -/
def save (w : World) : Except Failure (String × ManualBookingDraft) → World
  | .error _ => w
  | .ok (_, d) =>
    { w with
      draft := d
      finalizations :=
        if w.draft.status = .quoted ∧ d.status = .readyForPayment then w.finalizations ++ [d.stay] else w.finalizations }

/-- The quote of a draft is replaced. -/
def replace (w : World) (q : BookingQuote) (now : Time) : World :=
  { w with
    draft := requoted w.draft q now
    quotes :=
      Table.modify BookingQuote.pk w.quotes w.draft.quote
        (fun old => { old with status := .invalidated, invalidatedAt := some now }) ++ [q] }

/-- `prepare_local_reservation`, and the call of the provider begins; `none` rolls back. -/
def begin (w : World) (i : BookingIntent) (n : Drawn) : Option World :=
  match w.stays.findIdx? fun s => s.rows.reservation.bookingIntent == some i.pk with
  | some k =>
    w.stays[k]?.map fun s =>
      { w with stays := w.stays.set k (s.step (.call .manual)), creating := w.creating ++ [(k, s.calls.length)] }
  | none =>
    if n.reservationClean then
      some { w with
        stays := w.stays ++ [(⟨⟨newReservation n.reservation i, none⟩, [], [], []⟩ : Hostaway.World).step (.call .manual)]
        creating := w.creating ++ [(w.stays.length, 0)] }
    else none

/-- The intent is inserted and the quote of the draft consumed. -/
def insert (w : World) (i : BookingIntent) (now : Time) : World :=
  { w with
    intents := w.intents ++ [i]
    quotes := Table.modify BookingQuote.pk w.quotes w.draft.quote
      fun q => { q with status := .consumed, consumedAt := some now } }

/-- The preparing transaction of `create_manual_booking_in_hostaway`. -/
def create (w : World) (n : Drawn) (now : Time) : World :=
  match prepare w.draft w.quotes w.intents n now with
  | .error .integrityError => { w with uncaught := w.uncaught + 1 }
  | .error _ => w
  | .ok (.returned _ status) => { w with draft := { w.draft with status } }
  | .ok (.found i) => (w.begin i n).getD w
  | .ok (.inserted i) => ((w.insert i now).begin i n).getD w

/-- The code a create call has ended with. -/
def outcome (w : World) (s c : ℕ) : Option String :=
  w.stays[s]?.bind fun h => h.calls[c]?.bind fun call =>
    match call.stage with
    | .done code => some code
    | _ => none

def step (supported : List String) (w : World) : Action → World
  | .askRecheck => if recheckable w.draft then { w with rechecks := w.rechecks + 1 } else w
  | .recheck o =>
    if w.rechecks = 0 then w
    else
      let w' := { w with rechecks := w.rechecks - 1 }
      if recheckable w.draft then
        match replacement supported w.draft w.quotes o with
        | .ok q => w'.replace q o.now
        | .error _ => w'
      else w'
  | .finalize guest total currency now => w.save (finalize supported w.quotes guest total currency now w.draft)
  | .confirm c currency now => w.save (confirm supported w.quotes c currency now w.draft)
  | .create n now => w.create n now
  | .channel s action =>
    match w.stays[s]? with
    | some h => { w with stays := w.stays.set s (h.step action) }
    | none => w
  | .finish i =>
    match w.creating[i]? with
    | none => w
    | some (s, c) =>
      match w.outcome s c with
      | none => w
      | some code =>
        { w with
          creating := w.creating.eraseIdx i
          draft := if code ∈ bookedCodes then { w.draft with status := .bookedAwaitingPayment } else w.draft }

/-- The create requests sent for the draft. -/
def requests (w : World) : ℕ := (w.stays.map (·.requests.length)).sum

/-- The stays sent with them. -/
def sent (w : World) : List Stay :=
  w.stays.flatMap fun h => h.requests.filterMap fun c => h.calls[c]?.map fun c => stayOf c.snapshot

/-- A recheck replaces the quote of a draft that has its intent. -/
def replaces (supported : List String) (w : World) : Action → Bool
  | .recheck o =>
    !w.intents.isEmpty && w.rechecks != 0 && recheckable w.draft && (replacement supported w.draft w.quotes o).isOk
  | _ => false

end World

/-! ### What the transactions leave -/

/-- What a finalization can leave of a draft. -/
inductive Saved (d : ManualBookingDraft) : ManualBookingDraft → Prop
  | unchanged : Saved d d
  | expired : d.status = .quoted → Saved d { d with status := .expired }
  | ready {d' : ManualBookingDraft} : d.status = .quoted → d'.status = .readyForPayment → d'.quote = d.quote →
      d'.pk = d.pk → Saved d d'

theorem finalize_saved {supported : List String} {quotes : List BookingQuote} {guest : GuestData} {total : Dec}
    {currency : Option CurrencyQuote} {now : Time} {d d' : ManualBookingDraft} {code : String}
    (h : finalize supported quotes guest total currency now d = .ok (code, d')) :
    Saved d d' ∧ (code = "ready_for_payment" → d'.status = .readyForPayment ∧ d.status = .quoted) := by
  unfold finalize at h
  split at h
  · cases h
    exact ⟨.unchanged, by simp⟩
  rename_i hq
  have hq : d.status = .quoted := by simpa using hq
  split at h
  · cases h
    exact ⟨.expired hq, by simp⟩
  · dsimp only at h
    generalize (if Dec.quantizeEven 2 total ≠ d.systemTotalPrice then currency else none) = manual at h
    split at h
    · cases h
      exact ⟨.unchanged, by simp⟩
    · split at h <;> cases h
      exact ⟨.ready hq rfl rfl rfl, fun _ => ⟨rfl, hq⟩⟩

theorem confirm_saved {supported : List String} {quotes : List BookingQuote} {c : Confirmation}
    {currency : Option CurrencyQuote} {now : Time} {d d' : ManualBookingDraft} {code : String}
    (h : confirm supported quotes c currency now d = .ok (code, d')) : Saved d d' := by
  unfold confirm at h
  dsimp only at h
  split at h
  · cases h; exact .unchanged
  split at h
  · cases h; exact .unchanged
  split at h
  · cases h; exact .unchanged
  split at h
  · cases h; exact .unchanged
  split at h
  · cases h; exact .unchanged
  · cases hf : finalize supported quotes c.guest (Dec.quantizeEven 2 d.systemTotalPrice) currency now d with
    | error e =>
      rw [hf] at h
      cases h
    | ok r =>
      obtain ⟨code', d''⟩ := r
      obtain ⟨hsaved, hready⟩ := finalize_saved hf
      rw [hf] at h
      simp only [bind, Except.bind] at h
      split at h <;> cases h
      · rename_i hcode
        obtain ⟨hr, hq⟩ := hready hcode
        cases hsaved with
        | unchanged => rw [hq] at hr; cases hr
        | expired => cases hr
        | ready _ _ hquote hpk => exact .ready hq hr hquote hpk
      · exact hsaved

/-- How the preparing transaction can end. -/
inductive Prepared (d : ManualBookingDraft) (quotes : List BookingQuote) (intents : List BookingIntent) :
    Except Failure Preparation → Prop
  | returned {code : String} {status : DraftStatus} : status = d.status ∨ status = .expired →
      Prepared d quotes intents (.ok (.returned code status))
  | found {i : BookingIntent} : i ∈ intents → Prepared d quotes intents (.ok (.found i))
  | inserted {i : BookingIntent} : d.status = .readyForPayment → (∃ q ∈ quotes, q.pk = d.quote) → i.quote = d.quote →
      i.idempotencyKey = manualIntentIdempotencyKey d → i.stay = d.stay →
      (∀ j ∈ intents, j.idempotencyKey ≠ manualIntentIdempotencyKey d) → Prepared d quotes intents (.ok (.inserted i))
  | taken : (∀ i ∈ intents, i.quote ≠ d.quote) → intents ≠ [] → Prepared d quotes intents (.error .integrityError)
  | failed {e : Failure} : e ≠ .integrityError → Prepared d quotes intents (.error e)

theorem prepare_prepared (d : ManualBookingDraft) (quotes : List BookingQuote) (intents : List BookingIntent) (n : Drawn)
    (now : Time) : Prepared d quotes intents (prepare d quotes intents n now) := by
  unfold prepare
  by_cases hbooked : d.status = .bookedAwaitingPayment
  · rw [if_pos hbooked]
    exact .returned (.inl rfl)
  rw [if_neg hbooked]
  by_cases hready : d.status = .readyForPayment
  swap
  · rw [if_pos hready]
    exact .returned (.inl rfl)
  rw [if_neg (not_not.2 hready)]
  split
  · exact .returned (.inr rfl)
  rename_i q hq
  have hget : Table.get BookingQuote.pk quotes d.quote = some q := (Option.filter_eq_some_iff.1 hq).1
  have hkey : q.pk = d.quote := Table.key_of_get hget
  split
  · rename_i i hi
    split
    · exact .found (List.mem_of_find?_eq_some hi)
    · exact .failed (by decide)
  · rename_i hnone
    have hnone : ∀ i ∈ intents, i.quote ≠ d.quote := by simpa using hnone
    split
    · exact .failed (by decide)
    split
    · rename_i htaken
      refine .taken hnone ?_
      rintro rfl
      simp [intentTaken] at htaken
    · rename_i htaken
      refine .inserted hready ⟨q, Table.mem_of_get hget, hkey⟩ hkey rfl rfl fun j hj h => htaken ?_
      exact List.any_eq_true.2 ⟨j, hj, by simp [newIntent, h]⟩

/-! ### The reservation of an intent -/

/-- What no create call changes of its reservation. -/
def identity (r : Reservation) : Option Uuid × Stay := (r.bookingIntent, stayOf r)

theorem transact_identity {rows rows' : Rows} {c : Call} {now : Time} {conflicts : Bool} {stage : Stage}
    (h : transact rows c now conflicts = some (rows', stage)) :
    identity rows'.reservation = identity rows.reservation := by
  unfold transact at h
  split at h
  · cases h; rfl
  · split at h <;> cases h <;> rfl
  · cases h; rfl
  · have h := Option.some.inj h
    unfold prepareOperation at h
    dsimp only at h
    split at h <;> cases h <;> rfl
  · cases h; rfl
  · cases h; rfl
  · cases h

theorem advance_identity {rows rows' : Rows} {c : Call} {event : Event} {stage : Stage}
    (h : advance rows c event = some (rows', stage)) : identity rows'.reservation = identity rows.reservation := by
  cases event with
  | write now conflicts => exact transact_identity h
  | gates surroundings =>
    simp only [advance] at h
    split at h
    · split at h <;> cases h <;> rfl
    · cases h
  | availability | send | reply =>
    simp only [advance] at h
    split at h <;> cases h
    rfl

/-- The reservation and its create calls are those of the intent. -/
structure Holds (i : BookingIntent) (s : Hostaway.World) : Prop where
  row : identity s.rows.reservation = (some i.pk, i.stay)
  calls : ∀ c ∈ s.calls, stayOf c.snapshot = i.stay
  once : s.OneClaim

variable {i : BookingIntent} {s : Hostaway.World}

theorem Holds.step (h : Holds i s) (a : Hostaway.Action) : Holds i (s.step a) := by
  refine ⟨?_, ?_, h.once.step a⟩ <;>
    rcases s.step_cases a with hs | ⟨kind, hs⟩ | ⟨k, c, event, rows, stage, -, hc, hadv, hs⟩ <;> rw [hs]
  · exact h.row
  · exact h.row
  · exact (advance_identity hadv).trans h.row
  · exact h.calls
  · intro c hc
    rcases List.mem_append.1 hc with hc | hc
    · exact h.calls c hc
    · obtain rfl := List.mem_singleton.1 hc
      exact congrArg Prod.snd h.row
  · intro c' hc'
    rcases List.mem_or_eq_of_mem_set hc' with hc' | rfl
    · exact h.calls c' hc'
    · exact h.calls c (List.mem_of_getElem? hc)

/-- The reservation `prepare_local_reservation` makes has no create call yet. -/
theorem holds_new (i : BookingIntent) (pk : Uuid) : Holds i ⟨⟨newReservation pk i, none⟩, [], [], []⟩ :=
  ⟨rfl, by simp, Hostaway.World.Untouched.oneClaim ⟨rfl, rfl, rfl⟩⟩

theorem Holds.sent (h : Holds i s) {x : Stay}
    (hx : x ∈ s.requests.filterMap fun c => s.calls[c]?.map fun c => stayOf c.snapshot) : x = i.stay := by
  obtain ⟨k, -, hk⟩ := List.mem_filterMap.1 hx
  obtain ⟨c, hc, rfl⟩ := Option.map_eq_some_iff.1 hk
  exact h.calls c (List.mem_of_getElem? hc)

namespace World

/-! ### One intent and one request -/

/-- There is at most one intent of the draft, of a stay that was finalized, and every reservation is of it. -/
structure Once (w : World) : Prop where
  keys : ∀ i ∈ w.intents, i.idempotencyKey = manualIntentIdempotencyKey w.draft
  single : w.intents.length ≤ 1
  filed : ∀ i ∈ w.intents, ∃ q ∈ w.quotes, q.pk = i.quote
  made : ∀ i ∈ w.intents, i.stay ∈ w.finalizations
  held : ∀ s ∈ w.stays, ∃ i ∈ w.intents, Holds i s
  one : w.stays.length ≤ 1
  ready : w.draft.status = .readyForPayment → w.draft.stay ∈ w.finalizations
  booked : w.draft.status = .bookedAwaitingPayment → w.intents ≠ []
  creating : w.creating ≠ [] → w.intents ≠ []

variable {w : World} {d : ManualBookingDraft} {now : Time} {n : Drawn}

/-- The draft is written. -/
theorem Once.redraft (h : Once w) (hpk : d.pk = w.draft.pk) (hready : d.status = .readyForPayment → d.stay ∈ w.finalizations)
    (hbooked : d.status = .bookedAwaitingPayment → w.intents ≠ []) : Once { w with draft := d } :=
  { h with
    keys := fun i hi => by
      rw [h.keys i hi]
      simp only [manualIntentIdempotencyKey, hpk]
    ready := hready
    booked := hbooked }

/-- Quotes are rewritten under their keys and quotes are added. -/
theorem Once.requote (h : Once w) {f : BookingQuote → BookingQuote} {pk : Uuid} {new : List BookingQuote}
    (hf : ∀ q, (f q).pk = q.pk) : Once { w with quotes := Table.modify BookingQuote.pk w.quotes pk f ++ new } := by
  refine { h with filed := fun i hi => ?_ }
  obtain ⟨q, hq, hkey⟩ := h.filed i hi
  refine ⟨if q.pk = pk then f q else q, List.mem_append_left _ (Table.mem_modify.2 ⟨q, hq, rfl⟩), ?_⟩
  split
  · rw [hf, hkey]
  · exact hkey

theorem Once.save (h : Once w) {r : Except Failure (String × ManualBookingDraft)}
    (hr : ∀ code d, r = .ok (code, d) → Saved w.draft d) : Once (w.save r) := by
  match r, hr with
  | .error _, _ => exact h
  | .ok (code, d), hr =>
    have hsaved := hr code d rfl
    have hkept : ∀ {x : Stay} {c : Prop} [Decidable c], x ∈ w.finalizations →
        x ∈ if c then w.finalizations ++ [d.stay] else w.finalizations := by
      intro x c _ hx
      split
      · exact List.mem_append_left _ hx
      · exact hx
    have hgrown : Once { w with
        finalizations := if w.draft.status = .quoted ∧ d.status = .readyForPayment then w.finalizations ++ [d.stay]
          else w.finalizations } :=
      { h with
        made := fun i hi => hkept (h.made i hi)
        ready := fun hs => hkept (h.ready hs) }
    cases hsaved with
    | unchanged => exact hgrown.redraft rfl hgrown.ready h.booked
    | expired => exact hgrown.redraft rfl (by simp) (by simp)
    | ready hq hready _ hpk =>
      refine hgrown.redraft hpk (fun _ => ?_) (by simp [hready])
      simp [hq, hready]

/-- A create call of a reservation, or a new reservation with one. -/
theorem begin_cases {w' : World} {i : BookingIntent} (h : w.begin i n = some w') :
    (∃ (k : ℕ) (s : Hostaway.World), w.stays[k]? = some s ∧
        w' = { w with stays := w.stays.set k (s.step (.call .manual)), creating := w.creating ++ [(k, s.calls.length)] }) ∨
      (∀ s ∈ w.stays, s.rows.reservation.bookingIntent ≠ some i.pk) ∧
        w' = { w with
          stays := w.stays ++ [(⟨⟨newReservation n.reservation i, none⟩, [], [], []⟩ : Hostaway.World).step (.call .manual)]
          creating := w.creating ++ [(w.stays.length, 0)] } := by
  unfold begin at h
  split at h
  · rename_i k hk
    obtain ⟨s, hs, rfl⟩ := Option.map_eq_some_iff.1 h
    exact .inl ⟨k, s, hs, rfl⟩
  · rename_i hk
    split at h <;> cases h
    refine .inr ⟨fun s hs => ?_, rfl⟩
    simpa using List.findIdx?_eq_none_iff.1 hk s hs

theorem Once.touch (h : Once w) {k : ℕ} {s : Hostaway.World} (hs : w.stays[k]? = some s) (a : Hostaway.Action) :
    Once { w with stays := w.stays.set k (s.step a) } := by
  refine { h with held := fun t ht => ?_, one := by simpa using h.one }
  rcases List.mem_or_eq_of_mem_set ht with ht | rfl
  · exact h.held t ht
  · obtain ⟨i, hi, hold⟩ := h.held s (List.mem_of_getElem? hs)
    exact ⟨i, hi, hold.step a⟩

theorem Once.begin (h : Once w) {w' : World} {i : BookingIntent} (hi : i ∈ w.intents) (hb : w.begin i n = some w') :
    Once w' := by
  have hne : w.intents ≠ [] := List.ne_nil_of_mem hi
  rcases begin_cases hb with ⟨k, s, hs, rfl⟩ | ⟨hno, rfl⟩
  · exact { h.touch hs (.call .manual) with creating := fun _ => hne }
  · -- the only intent is `i`, so the reservations there are would be its own
    have hall : ∀ j ∈ w.intents, j = i := by
      intro j hj
      obtain ⟨x, hx⟩ := List.length_eq_one_iff.1 (le_antisymm h.single (List.length_pos_of_mem hi))
      rw [hx] at hj hi
      rw [List.mem_singleton.1 hj, List.mem_singleton.1 hi]
    have hnil : w.stays = [] := by
      refine List.eq_nil_iff_forall_not_mem.2 fun s hs => ?_
      obtain ⟨j, hj, hold⟩ := h.held s hs
      obtain rfl := hall j hj
      exact hno s hs (congrArg Prod.fst hold.row)
    refine { h with held := fun s hs => ?_, one := by simp [hnil], creating := fun _ => hne }
    rw [hnil] at hs
    obtain rfl := List.mem_singleton.1 hs
    exact ⟨i, hi, (holds_new i n.reservation).step _⟩

theorem Once.insert (h : Once w) (now : Time) {i : BookingIntent} (hready : w.draft.status = .readyForPayment)
    (hquote : ∃ q ∈ w.quotes, q.pk = i.quote) (hkey : i.idempotencyKey = manualIntentIdempotencyKey w.draft)
    (hstay : i.stay = w.draft.stay) (hfree : ∀ j ∈ w.intents, j.idempotencyKey ≠ manualIntentIdempotencyKey w.draft) :
    Once (w.insert i now) := by
  have hnil : w.intents = [] := List.eq_nil_iff_forall_not_mem.2 fun j hj => hfree j hj (h.keys j hj)
  have hold : Once { w with quotes := Table.modify BookingQuote.pk w.quotes w.draft.quote (fun q =>
      { q with status := .consumed, consumedAt := some now }) ++ [] } := h.requote fun q => rfl
  rw [List.append_nil] at hold
  have hfiled : ∃ q ∈ (w.insert i now).quotes, q.pk = i.quote := by
    obtain ⟨q, hq, hk⟩ := hquote
    refine ⟨_, Table.mem_modify.2 ⟨q, hq, rfl⟩, ?_⟩
    split <;> exact hk
  have hmem : ∀ j ∈ (w.insert i now).intents, j = i := by
    intro j hj
    simpa [World.insert, hnil] using hj
  refine { hold with keys := ?_, single := ?_, filed := ?_, made := ?_, held := ?_, booked := ?_, creating := ?_ }
  · intro j hj
    rw [hmem j hj]
    exact hkey
  · simp [World.insert, hnil]
  · intro j hj
    rw [hmem j hj]
    exact hfiled
  · intro j hj
    rw [hmem j hj, hstay]
    exact h.ready hready
  · intro s hs
    obtain ⟨j, hj, -⟩ := h.held s hs
    simp [hnil] at hj
  · intro _
    simp [World.insert]
  · intro _
    simp [World.insert]

theorem Once.create (h : Once w) (n : Drawn) (now : Time) : Once (w.create n now) := by
  unfold World.create
  have hp := prepare_prepared w.draft w.quotes w.intents n now
  generalize prepare w.draft w.quotes w.intents n now = r at hp
  cases hp with
  | taken => exact { h with }
  | @failed e he =>
    cases e with
    | integrityError => exact absurd rfl he
    | valueError | validationError => exact h
  | @returned code status hstatus =>
    rcases hstatus with rfl | rfl
    · exact h
    · exact h.redraft rfl (by simp) (by simp)
  | @found i hi =>
    show Once ((w.begin i n).getD w)
    cases hb : w.begin i n with
    | none => exact h
    | some w' => exact h.begin hi hb
  | @inserted i hready hfiled hquote hkey hstay hfree =>
    show Once (((w.insert i now).begin i n).getD w)
    cases hb : (w.insert i now).begin i n with
    | none => exact h
    | some w' =>
      have hins := h.insert now hready (by rwa [hquote]) hkey hstay hfree
      exact hins.begin (by simp [World.insert]) hb

/-- A recheck replaces the quote or leaves the rows alone. -/
theorem recheck_cases (supported : List String) (w : World) (o : Offer) :
    (∃ q, w.rechecks ≠ 0 ∧ recheckable w.draft = true ∧ replacement supported w.draft w.quotes o = .ok q ∧
        w.step supported (.recheck o) = { w with rechecks := w.rechecks - 1 }.replace q o.now) ∨
      (w.replaces supported (.recheck o) = false ∧ ∃ k, w.step supported (.recheck o) = { w with rechecks := k }) := by
  simp only [step, replaces]
  split_ifs with h0 h1
  · exact .inr ⟨by simp [h0], _, rfl⟩
  · split
    · rename_i q hq
      exact .inl ⟨q, h0, h1, hq, rfl⟩
    · rename_i e he
      exact .inr ⟨by simp [he, Except.isOk, Except.toBool], _, rfl⟩
  · exact .inr ⟨by simp [h1], _, rfl⟩

/-- The last transaction of a create writes the status of the draft, or nothing. -/
theorem finish_cases (supported : List String) (w : World) (k : ℕ) :
    w.step supported (.finish k) = w ∨
      w.creating ≠ [] ∧ ∃ rest, w.step supported (.finish k) = { w with creating := rest } ∨
        w.step supported (.finish k) =
          { w with creating := rest, draft := { w.draft with status := .bookedAwaitingPayment } } := by
  simp only [step]
  split
  · exact .inl rfl
  rename_i a c hk
  have hne : w.creating ≠ [] := List.ne_nil_of_mem (List.mem_of_getElem? hk)
  split
  · exact .inl rfl
  refine .inr ⟨hne, w.creating.eraseIdx k, ?_⟩
  split
  · exact .inr rfl
  · exact .inl rfl

theorem Once.replace (h : Once w) (q : BookingQuote) (now : Time) : Once (w.replace q now) := by
  have hq := @Once.requote w h (fun old => { old with status := .invalidated, invalidatedAt := some now }) w.draft.quote [q]
    fun _ => rfl
  exact hq.redraft (d := requoted w.draft q now) rfl (by simp [requoted]) (by simp [requoted])

theorem Once.step (supported : List String) (h : Once w) (a : Action) : Once (w.step supported a) := by
  cases a with
  | askRecheck =>
    simp only [World.step]
    split
    · exact { h with }
    · exact h
  | recheck o =>
    rcases recheck_cases supported w o with ⟨q, -, -, -, hs⟩ | ⟨-, k, hs⟩ <;> rw [hs]
    · have hk : Once { w with rechecks := w.rechecks - 1 } := { h with }
      exact hk.replace q o.now
    · exact { h with }
  | finalize guest total currency now => exact h.save fun _ _ hr => (finalize_saved hr).1
  | confirm c currency now => exact h.save fun _ _ hr => confirm_saved hr
  | create n now => exact h.create n now
  | channel k action =>
    simp only [World.step]
    split
    · rename_i s hs
      exact h.touch hs action
    · exact h
  | finish k =>
    rcases finish_cases supported w k with hs | ⟨hne, rest, hs | hs⟩ <;> rw [hs]
    · exact h
    · exact { h with creating := fun _ => h.creating hne }
    · have hc : Once { w with creating := rest } := { h with creating := fun _ => h.creating hne }
      exact hc.redraft rfl (by simp) fun _ => h.creating hne

/-! ### The draft and its intent -/

/-- The draft still points to the quote of its intent and has the stay of it. -/
structure Tied (w : World) : Prop where
  quote : ∀ i ∈ w.intents, i.quote = w.draft.quote
  stay : ∀ i ∈ w.intents, i.stay = w.draft.stay
  quoted : w.draft.status = .quoted → w.intents = []
  caught : w.uncaught = 0

theorem Tied.save (h : Tied w) {r : Except Failure (String × ManualBookingDraft)}
    (hr : ∀ code d, r = .ok (code, d) → Saved w.draft d) : Tied (w.save r) := by
  match r, hr with
  | .error _, _ => exact h
  | .ok (code, d), hr =>
    cases hr code d rfl with
    | unchanged => exact { h with }
    | expired hq => exact { h with stay := h.stay, quoted := fun hs => by cases hs }
    | ready hq hready hquote _ =>
      -- a quoted draft has no intent yet
      have hnil := h.quoted hq
      have hno : ∀ i, i ∉ w.intents := by simp [hnil]
      exact ⟨fun i hi => absurd hi (hno i), fun i hi => absurd hi (hno i), fun _ => hnil, h.caught⟩

theorem Tied.begin (h : Tied w) {w' : World} {i : BookingIntent} (hb : w.begin i n = some w') : Tied w' := by
  rcases begin_cases hb with ⟨k, s, -, rfl⟩ | ⟨-, rfl⟩ <;> exact { h with }

theorem Tied.create (h : Tied w) (ho : Once w) (n : Drawn) (now : Time) : Tied (w.create n now) := by
  unfold World.create
  have hp := prepare_prepared w.draft w.quotes w.intents n now
  generalize prepare w.draft w.quotes w.intents n now = r at hp
  cases hp with
  | taken hno hne =>
    -- the intent there is has the quote the draft points to
    obtain ⟨i, hi⟩ := List.exists_mem_of_ne_nil _ hne
    exact absurd (h.quote i hi) (hno i hi)
  | @failed e he =>
    cases e with
    | integrityError => exact absurd rfl he
    | valueError | validationError => exact h
  | @returned code status hstatus =>
    rcases hstatus with rfl | rfl
    · exact h
    · exact { h with stay := h.stay, quoted := by simp }
  | @found i hi =>
    show Tied ((w.begin i n).getD w)
    cases hb : w.begin i n with
    | none => exact h
    | some w' => exact h.begin hb
  | @inserted i hready _ hquote _ hstay hfree =>
    show Tied (((w.insert i now).begin i n).getD w)
    cases hb : (w.insert i now).begin i n with
    | none => exact h
    | some w' =>
      have hnil : w.intents = [] := List.eq_nil_iff_forall_not_mem.2 fun j hj => hfree j hj (ho.keys j hj)
      have hins : Tied (w.insert i now) := by
        refine ⟨?_, ?_, fun hq => ?_, h.caught⟩
        · simpa [World.insert, hnil] using hquote
        · simpa [World.insert, hnil] using hstay
        · have hq : w.draft.status = .quoted := hq
          rw [hready] at hq
          cases hq
      exact hins.begin hb

theorem Tied.step (supported : List String) (h : Tied w) (ho : Once w) {a : Action}
    (hok : w.replaces supported a = false) : Tied (w.step supported a) := by
  cases a with
  | askRecheck =>
    simp only [World.step]
    split
    · exact { h with }
    · exact h
  | recheck o =>
    rcases recheck_cases supported w o with ⟨q, hn, hr, hq, hs⟩ | ⟨-, k, hs⟩ <;> rw [hs]
    · have hnil : w.intents = [] := by
        simpa [replaces, hn, hr, hq, Except.isOk, Except.toBool] using hok
      refine ⟨?_, ?_, fun _ => hnil, h.caught⟩ <;> simp [World.replace, hnil]
    · exact { h with }
  | finalize guest total currency now => exact h.save fun _ _ hr => (finalize_saved hr).1
  | confirm c currency now => exact h.save fun _ _ hr => confirm_saved hr
  | create n now => exact h.create ho n now
  | channel k action =>
    simp only [World.step]
    split <;> exact { h with }
  | finish k =>
    rcases finish_cases supported w k with hs | ⟨-, rest, hs | hs⟩ <;> rw [hs]
    · exact h
    · exact { h with }
    · exact { h with stay := h.stay, quoted := by simp }

/-- A replaced quote is a new one, so the draft points away from its intent. -/
theorem untied_of_replaces {supported : List String} {a : Action} (ho : Once w) (h : w.replaces supported a = true) :
    ∃ i ∈ (w.step supported a).intents, i.quote ≠ (w.step supported a).draft.quote := by
  cases a with
  | recheck o =>
    rcases recheck_cases supported w o with ⟨q, hn, hr, hq, hs⟩ | ⟨hno, -⟩
    · have hne : w.intents ≠ [] := by
        intro hnil
        simp [replaces, hnil] at h
      obtain ⟨i, hi⟩ := List.exists_mem_of_ne_nil _ hne
      rw [hs]
      refine ⟨i, hi, fun heq => ?_⟩
      obtain ⟨old, hold, hkey⟩ := ho.filed i hi
      have hnew : old.pk = q.pk := hkey.trans heq
      have hfresh : w.quotes.any (·.pk == q.pk) = false := by
        unfold replacement at hq
        cases hc : createQuoteForProperty w.draft.property o with
        | error e => rw [hc] at hq; cases hq
        | ok q' =>
          rw [hc] at hq
          simp only [bind, Except.bind] at hq
          split at hq
          · cases hq
          · rename_i hany
            split at hq <;> cases hq
            simpa using hany
      have := List.any_eq_false.1 hfresh old hold
      simp [hnew] at this
    · rw [hno] at h
      cases h
  | _ => cases h

/-- A draft as `create_manual_booking_draft` leaves it. -/
structure Fresh (w : World) : Prop where
  quoted : w.draft.status = .quoted
  noIntents : w.intents = []
  noStays : w.stays = []
  noCreates : w.creating = []
  caught : w.uncaught = 0

theorem Fresh.once (h : Fresh w) : Once w := by
  obtain ⟨h1, h2, h3, h4, -⟩ := h
  constructor <;> simp [h1, h2, h3, h4]

theorem Fresh.tied (h : Fresh w) : Tied w := by
  obtain ⟨h1, h2, h3, h4, h5⟩ := h
  constructor <;> simp [h2, h5]

theorem Once.requests_le (h : Once w) : w.requests ≤ 1 := by
  have hone := h.one
  rcases hs : w.stays with _ | ⟨s, _ | ⟨t, l⟩⟩
  · simp [requests, hs]
  · obtain ⟨i, -, hold⟩ := h.held s (by simp [hs])
    have := hold.once.sent
    simp only [requests, hs, List.map_cons, List.map_nil, List.sum_cons, List.sum_nil]
    omega
  · simp [hs] at hone

/-- A stay that was sent is that of the intent. -/
theorem Once.of_sent (h : Once w) {x : Stay} (hx : x ∈ w.sent) : ∃ i ∈ w.intents, x = i.stay := by
  obtain ⟨s, hs, hx⟩ := List.mem_flatMap.1 hx
  obtain ⟨i, hi, hold⟩ := h.held s hs
  exact ⟨i, hi, hold.sent hx⟩

end World

def threeNights : Offer where
  availability := freeStay
  places := 2
  currency := some ⟨900, "SAR", "rates"⟩
  nightPrices := ""
  pk := ⟨"6a0e7c1a-0001", rfl⟩
  sessionHash := "session-1"
  now := 1
  expiresAt := 50
  quoteClean := true
  fieldsValid := true

def draftProperty : Property := ⟨1, some 40160, some 40161⟩

def threeNightsQuote : BookingQuote :=
  (createQuoteForProperty draftProperty threeNights).toOption.getD
    (unsignedQuote draftProperty ⟨40160, 100, 103, 2, "SAR", 900, []⟩ ⟨900, "SAR", "rates"⟩ threeNights)

def threeNightsDraft : ManualBookingDraft where
  pk := ⟨"6a0e7c1a-0002", rfl⟩
  samaRequestId := none
  samaConfirmationStartedAt := none
  quote := threeNightsQuote.pk
  property := draftProperty
  checkIn := 100
  checkOut := 103
  nights := 3
  guests := 2
  currency := "SAR"
  systemTotalPrice := 900
  finalTotalPrice := 900
  paymentAmountSar := some 900
  selectedDisplayCurrency := "SAR"
  exchangeRateSnapshot := "rates"
  priceSource := .system
  guestFirstName := ""
  guestLastName := ""
  guestEmail := ""
  guestPhone := ""
  guestLanguage := ""
  status := .quoted
  availabilityCheckedAt := 1
  expiresAt := 50

def drafted : World := ⟨threeNightsDraft, [threeNightsQuote], [], [], 0, [], [], 0⟩

def noor : GuestData := ⟨"Noor", "Guest", "noor@example.invalid", "+966500000000", "ar", true⟩

/-- The second recheck offers the same stay again. -/
def offeredAgain : Offer := { threeNights with pk := ⟨"6a0e7c1a-0003", rfl⟩, now := 20, expiresAt := 90 }

def firstDraw : Drawn := ⟨⟨"6a0e7c1a-0004", rfl⟩, "SA", ⟨"6a0e7c1a-0005", rfl⟩, true, true⟩

def secondDraw : Drawn := ⟨⟨"6a0e7c1a-0006", rfl⟩, "SA", ⟨"6a0e7c1a-0007", rfl⟩, true, true⟩

/-- The owner finalizes the price of Hostaway and the create is prepared. -/
def preparedRun : List Action := [.finalize noor 900 none 5, .create firstDraw 6]

/-- The provider books the stay. -/
def providerBooks : List Action :=
  [.channel 0 (.event 0 (.gates paidSurroundings)), .channel 0 (.event 0 (.availability freeStay)),
   .channel 0 (.event 0 (.write 10 false)), .channel 0 (.event 0 .send),
   .channel 0 (.event 0 (.reply (.created createdStay))), .channel 0 (.event 0 (.write 11 false))]

/-- Live booking is switched off, so the call ends without a request. -/
def providerRefuses : List Action :=
  [.channel 0 (.event 0 (.gates { paidSurroundings with liveBookingEnabled := false })),
   .channel 0 (.event 0 (.write 10 false)), .channel 0 (.event 0 (.write 11 false))]

/-- The draft is rechecked. -/
def recheckRun : List Action := [.askRecheck, .recheck offeredAgain]

/-- The draft is rechecked while the provider books it. -/
def overtakenRun : List Action := preparedRun ++ providerBooks ++ recheckRun ++ [.finish 0]

/-- The creation is refused, and the owner tries again with a new quote. -/
def retriedRun : List Action :=
  preparedRun ++ providerRefuses ++ [.finish 0, .create secondDraw 15] ++ recheckRun ++
    [.finalize noor 900 none 25, .create secondDraw 26]

end Apartments.ManualBookings
