import Apartments.Reservations.Quotes
import Mathlib.Data.List.Nodup

/-!
# One intent of a quote

Calls interleave: one that finds no intent of its key waits for its transaction. `Consumption` says once what a
transaction can do. `Sound` holds of every state: an intent rests on a quote of its session that has left `active` and
still carries its signature, and no two intents share their quote or their key.
-/

namespace Apartments.Quotes

open Machine
open Expiration (QuoteStatus IntentStatus)

/-- The call may consume the quote: its session, its signature, its time and the revalidated price. -/
structure Revalidates (settings : Settings) (q : BookingQuote) (c : Call) (now : Time) : Prop where
  session : q.sessionKeyHash = c.sessionHash
  signed : verifyQuoteFingerprint q = true
  active : q.status = .active
  unexpired : now < q.expiresAt
  price : ∃ latest, c.revalidated.isAvailable = true ∧ c.revalidated.quote = some latest ∧
    latest.listingId = q.hostawayListingId ∧ latest.checkIn = q.checkIn ∧ latest.checkOut = q.checkOut ∧
    latest.guests = q.guests ∧ latest.currency = q.currency ∧
    |latest.totalPrice.value - q.totalPrice| ≤ settings.priceTolerance

/-- `create_quote_for_property` has made the quote. -/
def Offered (settings : Settings) (q : BookingQuote) : Prop :=
  ∃ availability property sessionHash displayCurrency d,
    createQuoteForProperty settings availability property sessionHash displayCurrency d = .ok q

/-- The intent is the one of the call, on the terms of the quote. -/
structure MadeFrom (i : BookingIntent) (q : BookingQuote) (c : Call) : Prop where
  quote : i.quote = q.pk
  session : i.sessionKeyHash = c.sessionHash
  key : i.idempotencyKey = c.idempotencyKey
  stay : i.checkIn = q.checkIn ∧ i.checkOut = q.checkOut ∧ i.guests = q.guests ∧ i.property = q.property
  price : i.currency = q.currency ∧ i.totalPrice = q.totalPrice ∧ some i.paymentAmountSar = q.paymentAmountSar

/-- The snapshot of the intent is the one of the quote, completed for a currency that is displayed. -/
def Inherits (settings : Settings) (i : BookingIntent) (q : BookingQuote) (s : Surroundings) : Prop :=
  ∃ payment snapshot displayCurrency, q.paymentAmountSar = some payment ∧ q.exchangeRateSnapshot = some snapshot ∧
    (displayCurrency = q.selectedDisplayCurrency ∨ ∃ shown : Fx.Currency, displayCurrency = shown.code) ∧
    intentSnapshot settings q payment snapshot displayCurrency s = .ok (some i.exchangeRateSnapshot)

/-- What the transaction of a call can do. -/
inductive Consumption (settings : Settings) (intents : List BookingIntent) (q : BookingQuote) (c : Call)
    (s : Surroundings) : Except Failure (Commit × IntentCreation) → Prop
  | raised (failure : Failure) : Consumption settings intents q c s (.error failure)
  | kept (answer : IntentCreation) : Consumption settings intents q c s (.ok (.none, answer))
  | left (status : QuoteStatus) (answer : IntentCreation) : status ≠ .active →
      Consumption settings intents q c s (.ok (.leave status, answer))
  | replaced (replacement : BookingQuote) (answer : IntentCreation) :
      createQuoteForProperty settings c.revalidated q.property c.sessionHash "SAR" s.replacement = .ok replacement →
      Consumption settings intents q c s (.ok (⟨some .priceChanged, some replacement, none⟩, answer))
  | created (i : BookingIntent) : Revalidates settings q c s.now → MadeFrom i q c → Inherits settings i q s →
      violates intents i = false →
      Consumption settings intents q c s (.ok (⟨some .consumed, none, some i⟩, .with "created" i))

variable {settings : Settings} {intents : List BookingIntent} {q : BookingQuote} {c : Call} {s : Surroundings}
  {i : BookingIntent}

/-- `clean` writes the country only. -/
theorem clean_eq {i j : BookingIntent} {country : Option String} (h : i.clean country = some j) :
    ∃ billingCountry, j = { i with guest := { i.guest with billingCountry := billingCountry } } := by
  unfold BookingIntent.clean at h
  split at h
  · cases h
  · split at h <;> cases h
    exact ⟨_, rfl⟩

theorem createIntent_consumption {payment : Dec} {snapshot : Fx.AuditSnapshot} (hpayment : q.paymentAmountSar = some payment)
    (hsnapshot : q.exchangeRateSnapshot = some snapshot) (hr : Revalidates settings q c s.now) :
    Consumption settings intents q c s (createIntent settings intents q payment snapshot c s) := by
  unfold createIntent
  split
  · exact .kept _
  rename_i displayCurrency hdisplay
  have hshown : displayCurrency = q.selectedDisplayCurrency ∨ ∃ shown : Fx.Currency, displayCurrency = shown.code := by
    split at hdisplay
    · exact .inl (Except.ok.inj hdisplay).symm
    · cases hshown : Fx.normalizeCurrency c.selectedDisplayCurrency with
      | error failure =>
        rw [hshown] at hdisplay
        cases hdisplay
      | ok shown =>
        rw [hshown] at hdisplay
        exact .inr ⟨shown, (Except.ok.inj hdisplay).symm⟩
  split
  · exact .raised _
  · exact .kept _
  rename_i fx hfx
  split
  · exact .raised _
  split
  · exact .raised _
  rename_i i hclean
  obtain ⟨billingCountry, rfl⟩ := clean_eq hclean
  split
  · split <;> exact .kept _
  · rename_i hfree
    exact .created _ hr ⟨rfl, rfl, rfl, ⟨rfl, rfl, rfl, rfl⟩, rfl, rfl, hpayment.symm⟩
      ⟨payment, snapshot, displayCurrency, hpayment, hsnapshot, hshown, hfx⟩ (by simpa using hfree)

theorem consumption (settings : Settings) (intents : List BookingIntent) (q : BookingQuote) (c : Call)
    (s : Surroundings) : Consumption settings intents q c s (consumeRevalidatedQuote settings intents q c s) := by
  unfold consumeRevalidatedQuote
  split_ifs with hsession hsigned hactive hexpired
  · exact .kept _
  · exact .left _ _ (by decide)
  · split <;> exact .kept _
  · exact .left _ _ (by decide)
  split
  · rename_i latest havailable hlatest
    split_ifs with hstay hprice
    · exact .left _ _ (by decide)
    · cases hnew : createQuoteForProperty settings c.revalidated q.property c.sessionHash "SAR" s.replacement with
      | error failure => exact .raised _
      | ok replacement => exact .replaced _ _ hnew
    · split
      · rename_i payment snapshot hpayment hsnapshot
        simp only [sameStay, Bool.not_eq_true, Bool.not_eq_false', Bool.and_eq_true, beq_iff_eq] at hstay
        simp only [priceChanged, Bool.or_eq_true, bne_iff_ne, decide_eq_true_eq, not_or, not_not, not_lt] at hprice
        obtain ⟨⟨⟨hlisting, hin⟩, hout⟩, hguests⟩ := hstay
        exact createIntent_consumption hpayment hsnapshot
          ⟨not_not.1 hsession, by simpa using hsigned, not_not.1 hactive, not_le.1 hexpired,
            latest, havailable, hlatest, hlisting, hin, hout, hguests, hprice.1, hprice.2⟩
      · exact .left _ _ (by decide)
  · exact .left _ _ (by decide)

/-! ### The quotes and the intents -/

structure World where
  quotes : List BookingQuote
  intents : List BookingIntent
  /-- The calls that have found no intent of their key and wait for their transaction. -/
  pending : List Call
deriving DecidableEq

inductive Action
  | offer (availability : AvailabilityResult) (property : Property) (sessionHash displayCurrency : String) (drawn : Drawn)
  | call (c : Call)
  | transact (k : ℕ) (s : Surroundings)
  /-- The expiry sweep. -/
  | expire (quote : Uuid)
  /-- The checkout view finds a signature that does not verify. -/
  | invalidate (quote : Uuid) (now : Time)
deriving DecidableEq

/-- The quote with its new status. -/
def BookingQuote.leave (q : BookingQuote) (status : QuoteStatus) (now : Time) : BookingQuote :=
  match status with
  | .consumed => { q with status := status, consumedAt := some now }
  | .invalidated | .priceChanged | .unavailable => { q with status := status, invalidatedAt := some now }
  | .active | .expired => { q with status := status }

namespace BookingQuote

variable (q : BookingQuote) (status : QuoteStatus) (now : Time)

@[simp] theorem leave_pk : (q.leave status now).pk = q.pk := by cases status <;> rfl

@[simp] theorem leave_status : (q.leave status now).status = status := by cases status <;> rfl

theorem leave_session : (q.leave status now).sessionKeyHash = q.sessionKeyHash := by cases status <;> rfl

theorem leave_signed : verifyQuoteFingerprint (q.leave status now) = verifyQuoteFingerprint q := by
  cases status <;> rfl

end BookingQuote

namespace World

/-- The transaction of a call; a new quote whose key is taken rolls it back. -/
def transaction (settings : Settings) (w : World) (c : Call) (s : Surroundings) : Except Failure (Commit × IntentCreation) :=
  match Table.get BookingQuote.pk w.quotes c.quoteId with
  | none => .error .doesNotExist
  | some q =>
    match consumeRevalidatedQuote settings w.intents q c s with
    | .ok (commit, answer) =>
      if commit.replacement.any fun r => w.quotes.any (·.pk == r.pk) then .error .database else .ok (commit, answer)
    | .error failure => .error failure

def write (w : World) (quote : Uuid) (status : QuoteStatus) (now : Time) : World :=
  { w with quotes := Table.modify BookingQuote.pk w.quotes quote fun q => q.leave status now }

def commit (w : World) (c : Call) (s : Surroundings) (commit : Commit) : World :=
  let written := commit.status.elim w fun status => w.write c.quoteId status s.now
  { written with
    quotes := written.quotes ++ commit.replacement.toList
    intents := written.intents ++ commit.intent.toList }

def step (settings : Settings) (w : World) : Action → World
  | .offer availability property sessionHash displayCurrency d =>
    match createQuoteForProperty settings availability property sessionHash displayCurrency d with
    | .ok q => if w.quotes.any (·.pk == q.pk) then w else { w with quotes := w.quotes ++ [q] }
    | .error _ => w
  | .call c => if (lookUp w.intents c).isSome then w else { w with pending := w.pending ++ [c] }
  | .transact k s =>
    match w.pending[k]? with
    | none => w
    | some c =>
      let rest := { w with pending := w.pending.eraseIdx k }
      match w.transaction settings c s with
      | .ok (commit, _) => rest.commit c s commit
      | .error _ => rest
  | .expire quote => w.write quote .expired 0
  | .invalidate quote now => w.write quote .invalidated now

/-- No intent has been made and no call begun. -/
structure Opened (w : World) : Prop where
  pks : (w.quotes.map (·.pk)).Nodup
  intents : w.intents = []
  pending : w.pending = []

/-- An intent rests on a quote of its session that has been consumed. -/
def RestsOn (i : BookingIntent) (q : BookingQuote) : Prop :=
  q.pk = i.quote ∧ q.sessionKeyHash = i.sessionKeyHash ∧ verifyQuoteFingerprint q = true ∧ q.status ≠ .active

structure Sound (w : World) : Prop where
  pks : (w.quotes.map (·.pk)).Nodup
  filed : ∀ i ∈ w.intents, ∃ q ∈ w.quotes, RestsOn i q
  quotes : (w.intents.map (·.quote)).Nodup
  keys : (w.intents.map (·.idempotencyKey)).Nodup

variable {w : World} {k : ℕ} {status : QuoteStatus} {now : Time}

theorem Opened.sound (h : Opened w) : Sound w := ⟨h.pks, by simp [h.intents], by simp [h.intents], by simp [h.intents]⟩

/-- What stays in every run: the intents, and the quotes, which do not become active again. -/
structure Later (w w' : World) : Prop where
  quotes : ∀ q ∈ w.quotes, ∃ q' ∈ w'.quotes, q'.pk = q.pk ∧ (q.status ≠ .active → q'.status ≠ .active)
  intents : ∀ i ∈ w.intents, i ∈ w'.intents

theorem Later.refl (w : World) : Later w w := ⟨fun q hq => ⟨q, hq, rfl, id⟩, fun _ hi => hi⟩

theorem Later.trans {w' w'' : World} (h : Later w w') (h' : Later w' w'') : Later w w'' := by
  refine ⟨fun q hq => ?_, fun i hi => h'.intents i (h.intents i hi)⟩
  obtain ⟨q', hq', hpk, hs⟩ := h.quotes q hq
  obtain ⟨q'', hq'', hpk', hs'⟩ := h'.quotes q' hq'
  exact ⟨q'', hq'', hpk'.trans hpk, fun hne => hs' (hs hne)⟩

theorem later_write (pk : Uuid) (now : Time) (hs : status ≠ .active) : Later w (w.write pk status now) := by
  refine ⟨fun q hq => ?_, fun _ hi => hi⟩
  refine ⟨_, Table.mem_modify.2 ⟨q, hq, rfl⟩, ?_⟩
  split
  · exact ⟨q.leave_pk status now, fun _ => by rwa [q.leave_status]⟩
  · exact ⟨rfl, id⟩

theorem Sound.write (h : Sound w) (pk : Uuid) (now : Time) (hs : status ≠ .active) : Sound (w.write pk status now) := by
  refine ⟨?_, fun i hi => ?_, h.quotes, h.keys⟩
  · have hpks : (w.write pk status now).quotes.map (·.pk) = w.quotes.map (·.pk) :=
      Table.map_key_modify fun (q : BookingQuote) hq => (q.leave_pk status now).trans hq
    rw [hpks]
    exact h.pks
  · obtain ⟨q, hq, hpk, hsession, hsigned, hne⟩ := h.filed i hi
    refine ⟨_, Table.mem_modify.2 ⟨q, hq, rfl⟩, ?_⟩
    split
    · exact ⟨(q.leave_pk status now).trans hpk, (q.leave_session status now).trans hsession,
        (q.leave_signed status now).trans hsigned, by rwa [q.leave_status]⟩
    · exact ⟨hpk, hsession, hsigned, hne⟩

theorem Sound.addQuote (h : Sound w) (hfree : ∀ x ∈ w.quotes, x.pk ≠ q.pk) :
    Sound { w with quotes := w.quotes ++ [q] } := by
  refine ⟨?_, fun i hi => ?_, h.quotes, h.keys⟩
  · rw [List.map_append]
    refine List.nodup_append'.2 ⟨h.pks, List.nodup_singleton _, ?_⟩
    intro pk hpk hq
    obtain ⟨x, hx, rfl⟩ := List.mem_map.1 hpk
    exact hfree x hx (by simpa using hq)
  · obtain ⟨x, hx, hrest⟩ := h.filed i hi
    exact ⟨x, List.mem_append_left _ hx, hrest⟩

theorem later_addQuote : Later w { w with quotes := w.quotes ++ [q] } :=
  ⟨fun x hx => ⟨x, List.mem_append_left _ hx, rfl, id⟩, fun _ hi => hi⟩

/-- A consumed quote gets its intent. -/
theorem Sound.addIntent (h : Sound w) (hrests : ∃ q ∈ w.quotes, RestsOn i q) (hfree : violates w.intents i = false) :
    Sound { w with intents := w.intents ++ [i] } := by
  simp only [violates, Bool.or_eq_false_iff, List.any_eq_false, beq_iff_eq, Bool.or_eq_true, not_or] at hfree
  have hnew : ∀ j ∈ w.intents, j.quote ≠ i.quote ∧ j.idempotencyKey ≠ i.idempotencyKey :=
    fun j hj => ⟨(hfree.1.1.1 j hj).1.2, (hfree.1.1.1 j hj).2⟩
  refine ⟨h.pks, fun j hj => ?_, ?_, ?_⟩
  · rcases List.mem_append.1 hj with hj | hj
    · exact h.filed j hj
    · rwa [List.mem_singleton.1 hj]
  · rw [List.map_append]
    refine List.nodup_append'.2 ⟨h.quotes, List.nodup_singleton _, fun x hx hi => ?_⟩
    obtain ⟨j, hj, rfl⟩ := List.mem_map.1 hx
    exact (hnew j hj).1 (by simpa using hi)
  · rw [List.map_append]
    refine List.nodup_append'.2 ⟨h.keys, List.nodup_singleton _, fun x hx hi => ?_⟩
    obtain ⟨j, hj, rfl⟩ := List.mem_map.1 hx
    exact (hnew j hj).2 (by simpa using hi)

theorem transaction_ok {w : World} {commit : Commit} {answer : IntentCreation}
    (h : w.transaction settings c s = .ok (commit, answer)) :
    ∃ q ∈ w.quotes, q.pk = c.quoteId ∧ consumeRevalidatedQuote settings w.intents q c s = .ok (commit, answer) ∧
      ∀ r ∈ commit.replacement, ∀ x ∈ w.quotes, x.pk ≠ r.pk := by
  unfold transaction at h
  split at h
  · cases h
  rename_i q hq
  split at h
  · rename_i hconsumed
    split_ifs at h with hany
    cases h
    refine ⟨q, Table.mem_of_get hq, Table.key_of_get hq, hconsumed, fun r hr x hx hpk => hany ?_⟩
    rw [Option.mem_def.1 hr, Option.any_some, List.any_eq_true]
    exact ⟨x, hx, by simpa using hpk⟩
  · cases h

/-- What a step can do. -/
inductive Move (settings : Settings) (w : World) (a : Action) : World → Prop
  | waited (pending : List Call) : Move settings w a { w with pending := pending }
  | left (pending : List Call) (pk : Uuid) (status : QuoteStatus) (now : Time) : status ≠ .active →
      Move settings w a { w.write pk status now with pending := pending }
  | offered (q : BookingQuote) : Offered settings q → (∀ x ∈ w.quotes, x.pk ≠ q.pk) →
      Move settings w a { w with quotes := w.quotes ++ [q] }
  | replaced (pending : List Call) (pk : Uuid) (now : Time) (r : BookingQuote) : Offered settings r →
      (∀ x ∈ w.quotes, x.pk ≠ r.pk) →
      Move settings w a
        { w.write pk .priceChanged now with quotes := (w.write pk .priceChanged now).quotes ++ [r], pending := pending }
  | created (pending : List Call) (k : ℕ) (s : Surroundings) (c : Call) (q : BookingQuote) (i : BookingIntent) :
      a = .transact k s → w.pending[k]? = some c → q ∈ w.quotes → q.pk = c.quoteId → Revalidates settings q c s.now →
      MadeFrom i q c → Inherits settings i q s → violates w.intents i = false →
      Move settings w a
        { w.write c.quoteId .consumed s.now with intents := w.intents ++ [i], pending := pending }

theorem step_move (settings : Settings) (w : World) (a : Action) : Move settings w a (w.step settings a) := by
  cases a with
  | offer availability property sessionHash displayCurrency d =>
    simp only [step]
    split
    · split_ifs with hany
      · exact .waited w.pending
      · exact .offered _ ⟨_, _, _, _, _, ‹_ = Except.ok _›⟩ (by simpa using hany)
    · exact .waited w.pending
  | call c =>
    simp only [step]
    split
    · exact .waited w.pending
    · exact .waited _
  | expire pk => exact .left w.pending pk _ _ (by decide)
  | invalidate pk now => exact .left w.pending pk _ _ (by decide)
  | transact k s =>
    simp only [step]
    split
    · exact .waited w.pending
    rename_i c hc
    split
    · rename_i commit answer hok
      obtain ⟨q, hq, hpk, hconsumed, hfree⟩ := transaction_ok hok
      have hcons := consumption settings w.intents q c s
      rw [hconsumed] at hcons
      cases hcons with
      | kept =>
        simp only [World.commit, Commit.none, Option.elim_none, Option.toList_none, List.append_nil]
        exact .waited _
      | left status answer hne =>
        simp only [World.commit, Commit.leave, Option.elim_some, Option.toList_none, List.append_nil]
        exact .left _ _ _ _ hne
      | replaced r answer hnew =>
        simp only [World.commit, Option.elim_some, Option.toList_none, Option.toList_some, List.append_nil]
        exact .replaced _ _ _ _ ⟨_, _, _, _, _, hnew⟩ (hfree r rfl)
      | created i hr hmade hinherits hviolates =>
        simp only [World.commit, Option.elim_some, Option.toList_none, Option.toList_some, List.append_nil]
        exact .created _ k s c q i rfl hc hq hpk hr hmade hinherits hviolates
    · exact .waited _

theorem Sound.step (h : Sound w) (a : Action) : Sound (w.step settings a) ∧ Later w (w.step settings a) := by
  have hmove := step_move settings w a
  generalize w.step settings a = w' at hmove ⊢
  cases hmove with
  | waited pending => exact ⟨{ h with }, { Later.refl w with }⟩
  | left pending pk status now hs => exact ⟨{ h.write pk now hs with }, { later_write pk now hs with }⟩
  | offered q _ hfree => exact ⟨h.addQuote hfree, later_addQuote⟩
  | replaced pending pk now r _ hfree =>
    have hw : Sound (w.write pk .priceChanged now) := h.write pk now (by decide)
    have hfree' : ∀ x ∈ (w.write pk .priceChanged now).quotes, x.pk ≠ r.pk := by
      intro x hx
      obtain ⟨y, hy, rfl⟩ := Table.mem_modify.1 hx
      have hy := hfree y hy
      split
      · rwa [y.leave_pk]
      · exact hy
    exact ⟨{ hw.addQuote hfree' with }, { (later_write pk now (by decide)).trans later_addQuote with }⟩
  | created pending k s c q i _ _ hq hpk hr hmade _ hviolates =>
    have hw : Sound (w.write c.quoteId .consumed s.now) := h.write c.quoteId s.now (by decide)
    have hrests : ∃ x ∈ (w.write c.quoteId .consumed s.now).quotes, RestsOn i x := by
      refine ⟨q.leave .consumed s.now, Table.mem_modify.2 ⟨q, hq, if_pos hpk⟩, ?_⟩
      exact ⟨hmade.quote.symm, hr.session.trans hmade.session.symm, (q.leave_signed _ _).trans hr.signed,
        by rw [q.leave_status]; decide⟩
    refine ⟨{ hw.addIntent hrests hviolates with }, ?_⟩
    have hlater : Later w (w.write c.quoteId .consumed s.now) := later_write c.quoteId s.now (by decide)
    exact ⟨hlater.quotes, fun j hj => List.mem_append_left _ hj⟩

theorem Sound.run (settings : Settings) (h : Sound w) (as : List Action) : Sound (run (World.step settings) w as) :=
  run_inv (I := Sound) (fun _ a hw => (hw.step a).1) h as

theorem later_run (settings : Settings) (h : Sound w) (as : List Action) : Later w (Machine.run (World.step settings) w as) := by
  induction as generalizing w with
  | nil => exact .refl w
  | cons a as ih => exact (h.step a).2.trans (ih (h.step a).1)

/-! ### A call that is repeated -/

/-- The call is one of the intent: its quote, its session and its key. -/
structure Repeats (i : BookingIntent) (c : Call) : Prop where
  quote : c.quoteId = i.quote
  session : c.sessionHash = i.sessionKeyHash
  key : c.idempotencyKey = i.idempotencyKey

theorem find?_of_nodup {κ : Type} [DecidableEq κ] {f : BookingIntent → κ} {l : List BookingIntent} (hnd : (l.map f).Nodup)
    (hi : i ∈ l) : l.find? (fun j => f j == f i) = some i := by
  have h := Table.get_eq_of_mem hnd hi
  simpa [Table.get, beq_eq_decide] using h

theorem Sound.lookUp_repeat (h : Sound w) (hi : i ∈ w.intents) (hc : Repeats i c) :
    lookUp w.intents c = some (.with "idempotent" i) := by
  rw [lookUp, hc.key, find?_of_nodup h.keys hi, Option.map_some, if_pos ⟨hc.quote.symm, hc.session.symm⟩]

/-- A repeat that has found no intent yet finds it under the lock. -/
theorem Sound.transaction_repeat (h : Sound w) (hi : i ∈ w.intents) (hc : Repeats i c) (s : Surroundings) :
    w.transaction settings c s = .ok (.none, .with "idempotent" i) := by
  obtain ⟨q, hq, hpk, hsession, hsigned, hne⟩ := h.filed i hi
  have hget : Table.get BookingQuote.pk w.quotes c.quoteId = some q := by
    rw [hc.quote, ← hpk]
    exact Table.get_eq_of_mem h.pks hq
  have hown : ownIntent w.intents q c = some i := by
    rw [ownIntent, hpk, find?_of_nodup h.quotes hi, Option.filter_some, hc.key, hc.session]
    simp
  have hconsumed : consumeRevalidatedQuote settings w.intents q c s = .ok (.none, .with "idempotent" i) := by
    unfold consumeRevalidatedQuote
    rw [if_neg (not_not.2 (hsession.trans hc.session.symm)), if_neg (by simp [hsigned]), if_pos hne, hown]
  rw [transaction, hget]
  simp only [hconsumed, Commit.none, Option.any_none, Bool.false_eq_true, if_false]

/-! ### The intent of a quote -/

/-- A call has made the intent: the transaction `n` of the run, when the quote was active, not expired, signed, of its
session and revalidated. -/
def MadeAt (settings : Settings) (w : World) (as : List Action) (i : BookingIntent) (n : ℕ) : Prop :=
  let before := Machine.run (World.step settings) w (as.take n)
  i ∉ before.intents ∧ ∃ k s c, as[n]? = some (.transact k s) ∧ before.pending[k]? = some c ∧
    ∃ q ∈ before.quotes, q.pk = c.quoteId ∧ Revalidates settings q c s.now ∧ MadeFrom i q c

theorem made (settings : Settings) (h : Opened w) {as : List Action} (hi : i ∈ (Machine.run (World.step settings) w as).intents) :
    ∃ n, MadeAt settings w as i n := by
  have h0 : i ∉ w.intents := by simp [h.intents]
  obtain ⟨n, a, ha, hbefore, hafter⟩ := becomes (P := fun x : World => i ∈ x.intents) h0 hi
  refine ⟨n, hbefore, ?_⟩
  have hmove := step_move settings (Machine.run (World.step settings) w (as.take n)) a
  generalize (Machine.run (World.step settings) w (as.take n)).step settings a = w' at hmove hafter
  cases hmove with
  | waited | left | offered | replaced => exact absurd hafter hbefore
  | created pending k s c q j hact hpending hq hpk hr hmade =>
    rcases List.mem_append.1 hafter with hold | hnew
    · exact absurd hold hbefore
    · obtain rfl := List.mem_singleton.1 hnew
      exact ⟨k, s, c, hact ▸ ha, hpending, q, hq, hpk, hr, hmade⟩

/-- In every run, whatever calls interleave: a quote has at most one intent, made by one call of its session from a quote
that was active, unexpired, signed and revalidated at its price; a quote that is no longer active never is again; and a
call repeated with the key and the session of the intent is answered with it, before the lock and under it. -/
theorem quote_consumed_once (settings : Settings) (h : Opened w) (as : List Action) (pk : Uuid) :
    ((Machine.run (World.step settings) w as).intents.filter (·.quote == pk)).length ≤ 1 ∧
    (∀ i ∈ (Machine.run (World.step settings) w as).intents, ∃ n, MadeAt settings w as i n) ∧
    (∀ n k, n ≤ k → ∀ q ∈ (Machine.run (World.step settings) w (as.take n)).quotes, q.pk = pk → q.status ≠ .active →
      ∀ q' ∈ (Machine.run (World.step settings) w (as.take k)).quotes, q'.pk = pk → q'.status ≠ .active) ∧
    ∀ i ∈ (Machine.run (World.step settings) w as).intents, ∀ c, Repeats i c →
      lookUp (Machine.run (World.step settings) w as).intents c = some (.with "idempotent" i) ∧
      ∀ s, (Machine.run (World.step settings) w as).transaction settings c s = .ok (.none, .with "idempotent" i) := by
  have hsound := h.sound.run settings
  refine ⟨?_, fun i hi => made settings h hi, ?_, fun i hi c hc => ?_⟩
  · have hnd : (((Machine.run (World.step settings) w as).intents.filter (·.quote == pk)).map (·.quote)).Nodup :=
      (hsound as).quotes.sublist (List.filter_sublist.map _)
    have hsame : ∀ x ∈ ((Machine.run (World.step settings) w as).intents.filter (·.quote == pk)).map (·.quote), x = pk := by
      intro x hx
      obtain ⟨i, hi, rfl⟩ := List.mem_map.1 hx
      simpa using (List.mem_filter.1 hi).2
    rw [← List.length_map (f := (·.quote)), List.eq_replicate_of_mem hsame, List.length_replicate]
    rw [List.eq_replicate_of_mem hsame] at hnd
    exact List.nodup_replicate.1 hnd
  · intro n k hnk q hq hpk hne q' hq' hpk'
    have hsplit : as.take k = as.take n ++ (as.take k).drop n := by
      have happend := List.take_append_drop n (as.take k)
      rw [List.take_take, min_eq_left hnk] at happend
      exact happend.symm
    rw [hsplit, run_append] at hq'
    have hlater := later_run settings (hsound (as.take n)) ((as.take k).drop n)
    obtain ⟨q₁, hq₁, hpk₁, hs⟩ := hlater.quotes q hq
    have hpks := ((hsound (as.take n)).run settings ((as.take k).drop n)).pks
    obtain rfl := Table.eq_of_mem_of_key hpks hq₁ hq' (hpk₁.trans (hpk.trans hpk'.symm))
    exact hs hne
  · exact ⟨(hsound as).lookUp_repeat hi hc, fun s => (hsound as).transaction_repeat hi hc s⟩

/-- A quote of 100 riyals for two nights, and the call of a guest who accepts it. -/
def samplePk : Uuid := ⟨"1", by decide⟩

def sampleSettings : Settings := ⟨900, 1800, 1 / 100, "provider"⟩

def sampleProperty : Property := ⟨1, some 7, none⟩

def sampleAvailability : AvailabilityResult := ⟨true, some ⟨7, 10, 12, 2, 2, "SAR", ⟨false, 10000, -2⟩, [], 0⟩⟩

def sampleDrawn : Drawn := ⟨samplePk, 0, .nothing "fx_unavailable", "", true⟩

def sampleCall : Call :=
  ⟨samplePk, "session", "key", ⟨"A", "B", "a@b.c", "+9665", "SA", "S", "C", "R", "SA", "1", "en", "", true, "", false⟩,
    sampleAvailability, ""⟩

def sampleSurroundings : Surroundings := ⟨5, ⟨"2", by decide⟩, "R1", .nothing "fx_unavailable", sampleDrawn, some "SA", true⟩

/-- The quote is offered, accepted twice with one key before the first transaction begins, and accepted with a second key. -/
def sampleRun : List Action :=
  [.offer sampleAvailability sampleProperty "session" "SAR" sampleDrawn, .call sampleCall, .call sampleCall,
    .call { sampleCall with idempotencyKey := "other" }, .transact 0 sampleSurroundings, .transact 0 sampleSurroundings,
    .transact 0 sampleSurroundings]

theorem quote_consumed_once_raced :
    Opened ⟨[], [], []⟩ ∧ (run (World.step sampleSettings) ⟨[], [], []⟩ sampleRun).intents.map (·.quote) = [samplePk] ∧
    ∃ i ∈ (run (World.step sampleSettings) ⟨[], [], []⟩ sampleRun).intents,
      ∃ n, MadeAt sampleSettings ⟨[], [], []⟩ sampleRun i n := by
  have hopened : Opened ⟨[], [], []⟩ := ⟨by decide, rfl, rfl⟩
  have hquotes : (run (World.step sampleSettings) ⟨[], [], []⟩ sampleRun).intents.map (·.quote) = [samplePk] := by
    decide +kernel
  obtain ⟨i, hi, -⟩ := List.mem_map.1 (hquotes ▸ List.mem_singleton_self samplePk)
  exact ⟨hopened, hquotes, i, hi, (quote_consumed_once sampleSettings hopened sampleRun samplePk).2.1 i hi⟩

end World

end Apartments.Quotes
