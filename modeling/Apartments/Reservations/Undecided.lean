import Apartments.Reservations.Office

/-!
# What a sweep may expire

A sweep updates the rows whose keys it selected earlier, without looking at their status again. `overtakes` names the
two ways in which a decided row is hit: the selection takes it (the exclusions list neither PAYMENT_VERIFIED nor
PROCESSING nor UNKNOWN), or another service decides it between the selection and the update. Without them everything
that a sweep holds is undecided when it is updated.
-/

namespace Apartments.Expiration

open Payments Hostaway

def decidedIntent (s : IntentStatus) : Bool := s == .paymentVerified || s == .completed || s == .cancelled

def decidedModification (s : RequestStatus) : Bool :=
  s == .processing || s == .unknown || s == .completed || s == .rejected

/-- The row was decided before it was expired. -/
def Expired.undoes : Expired → Bool
  | .quote _ was => was == .consumed
  | .intent _ was => decidedIntent was
  | .modification _ was => decidedModification was

/-- The sweep is going to update the rows that it has selected. -/
def Sweep.live (s : Sweep) : Bool := s.stage != .done && !s.asked.dryRun

namespace Office

/-- Some sweep is going to update the row of this key. -/
def holds (w : Office) (ids : Sweep → List Uuid) (pk : Uuid) : Bool := w.sweeps.any fun s => s.live && (ids s).contains pk

/-- The next selection of the sweep takes a row that is decided, by a status that the exclusions miss. -/
def misses (w : Office) (s : Sweep) : Bool :=
  match s.stage with
  | .intents => (selectIntents s.asked w.prebooking.intents).any (·.status == .paymentVerified)
  | .modifications =>
    (selectModifications s.asked w.requests).any fun m => m.status == .processing || m.status == .unknown
  | .quotes | .updating | .done => false

/-- The quote is consumed. -/
def consumes (w : Office) (quote : Uuid) (c : Consumption) : Bool :=
  !w.prebooking.intents.any (·.idempotencyKey == c.idempotencyKey) &&
    (Table.get BookingQuote.pk w.prebooking.quotes quote).bind (consumption c w.prebooking) == some .consumed

/-- The action decides a request that a sweep is going to update. -/
def decidesHeld (w : Office) (a : Action) : Bool :=
  w.requests.any fun m =>
    w.holds Sweep.modificationIds m.pk && !decidedModification m.status && decidedModification (w.rewritten a m).status

/-- A sweep selects a decided row, or a row that a sweep is going to update is decided. -/
def overtakes (w : Office) (a : Action) : Bool :=
  match a with
  | .query i => w.sweeps[i]?.any fun s => !s.asked.dryRun && w.misses s
  | .consume quote c => w.holds Sweep.quoteIds quote && w.consumes quote c
  | .verified intent =>
    w.holds Sweep.intentIds intent &&
      (Table.get BookingIntent.pk w.prebooking.intents intent).any (·.status == .awaitingPayment)
  | .confirmed intent => w.holds Sweep.intentIds intent
  | .cancelled intent =>
    w.holds Sweep.intentIds intent &&
      (Table.get BookingIntent.pk w.prebooking.intents intent).any fun i => !(i.status == .completed || i.status == .expired)
  | .change _ | .snapshot .. | .reject _ => w.decidesHeld a
  | .sweep _ => false

end Office

/-! ### Rows that are held -/

/-- The rows of these keys are undecided. -/
def Undecided {α : Type} (key : α → Uuid) (decided : α → Bool) (rows : List α) (ids : List Uuid) : Prop :=
  ∀ a ∈ rows, key a ∈ ids → decided a = false

section Rows

variable {α : Type} {key : α → Uuid} {decided : α → Bool} {rows new : List α} {ids : List Uuid} {f : α → α}

theorem Undecided.map (h : Undecided key decided rows ids) (hf : ∀ a, key (f a) = key a)
    (hd : ∀ a ∈ rows, key a ∈ ids → decided a = false → decided (f a) = false) :
    Undecided key decided (rows.map f) ids := by
  intro b hb hk
  obtain ⟨a, ha, rfl⟩ := List.mem_map.1 hb
  rw [hf] at hk
  exact hd a ha hk (h a ha hk)

theorem Undecided.append (h : Undecided key decided rows ids) (hnew : ∀ a ∈ new, decided a = false) :
    Undecided key decided (rows ++ new) ids := by
  intro a ha hk
  rcases List.mem_append.1 ha with ha | ha
  · exact h a ha hk
  · exact hnew a ha

/-- The keys of undecided rows, in a table where keys are unique. -/
theorem Undecided.selected {chosen : List α} (hk : (rows.map key).Nodup)
    (hc : ∀ a ∈ chosen, a ∈ rows ∧ decided a = false) : Undecided key decided rows (chosen.map key) := by
  intro a ha hka
  obtain ⟨b, hb, hkb⟩ := List.mem_map.1 hka
  obtain ⟨hbr, hbd⟩ := hc b hb
  rwa [Table.eq_of_mem_of_key hk ha hbr hkb.symm]

theorem Undecided.none : Undecided key decided rows [] := fun _ _ hk => by cases hk

end Rows

/-! ### Steps -/

/-- What a sweep holds is undecided. -/
structure Sweep.Clear (w : Office) (s : Sweep) : Prop where
  quotes : Undecided BookingQuote.pk (·.status == .consumed) w.prebooking.quotes s.quoteIds
  intents : Undecided BookingIntent.pk (decidedIntent ·.status) w.prebooking.intents s.intentIds
  modifications : Undecided ModificationRequest.pk (decidedModification ·.status) w.requests s.modificationIds

/-- The keys of the three tables are primary keys. -/
structure Office.Keyed (w : Office) : Prop where
  quotes : (w.prebooking.quotes.map (·.pk)).Nodup
  intents : (w.prebooking.intents.map (·.pk)).Nodup
  requests : Changes.Keyed w.board

structure Clear (w : Office) : Prop where
  keyed : w.Keyed
  held : ∀ s ∈ w.sweeps, s.live → s.Clear w
  expired : ∀ x ∈ w.expired, x.undoes = false

variable {w : Office} {a : Action} {s : Sweep}

theorem quotedStatus_undecided (q : Quoted) (difference : Dec) : decidedModification (quotedStatus q difference) = false := by
  unfold quotedStatus
  split_ifs <;> rfl

theorem added_undecided {m : ModificationRequest} (h : m ∈ w.added a) : decidedModification m.status = false := by
  cases a with
  | change a =>
    cases a with
    | quote given q =>
      simp only [Office.added, Changes.World.added] at h
      split_ifs at h
      · rw [List.mem_singleton.1 h]
        exact quotedStatus_undecided q _
      · cases h
    | cancellation q =>
      simp only [Office.added, Changes.World.added] at h
      split_ifs at h
      · rw [List.mem_singleton.1 h, cancellationRequest]
        dsimp only
        split_ifs <;> rfl
      · cases h
    | ownerTotal | execute | automatic | event => cases h
  | snapshot | reject | consume | verified | confirmed | cancelled | sweep | query => cases h

/-- An action that touches nothing but the requests, and decides none that is held. -/
theorem Clear.requests (h : Clear w) (hok : w.decidesHeld a = false) (hp : (w.step a).prebooking = w.prebooking)
    (hs : (w.step a).sweeps = w.sweeps) (he : (w.step a).expired = w.expired) : Clear (w.step a) := by
  refine ⟨⟨hp ▸ h.keyed.quotes, hp ▸ h.keyed.intents, Office.step_keyed h.keyed.requests a⟩, fun s hmem hl => ?_,
    he ▸ h.expired⟩
  rw [hs] at hmem
  obtain ⟨hq, hi, hm⟩ := h.held s hmem hl
  refine ⟨hp ▸ hq, hp ▸ hi, ?_⟩
  rw [Office.step_requests h.keyed.requests]
  refine (hm.map (Office.rewritten_pk w a) fun m hmr hk hd => ?_).append fun m hm => added_undecided hm
  simp only [Office.decidesHeld, List.any_eq_false] at hok
  have := hok m hmr
  have hh : w.holds Sweep.modificationIds m.pk := List.any_eq_true.2 ⟨s, hmem, by simp [hl, hk]⟩
  simpa [hh, hd] using this

theorem Office.holds_of_mem {ids : Sweep → List Uuid} {pk : Uuid} (hs : s ∈ w.sweeps) (hl : s.live) (hk : pk ∈ ids s) :
    w.holds ids pk := List.any_eq_true.2 ⟨s, hs, by simp [hl, hk]⟩

/-- An update of one intent that decides it only if no sweep holds it. -/
theorem Clear.intent (h : Clear w) {pk : Uuid} {f : BookingIntent → BookingIntent} (hf : ∀ i, (f i).pk = i.pk)
    (hd : ∀ i, Table.get BookingIntent.pk w.prebooking.intents pk = some i → w.holds Sweep.intentIds pk →
      decidedIntent i.status = false → decidedIntent (f i).status = false) :
    Clear { w with prebooking := w.prebooking.modifyIntent pk f } := by
  have hmap : ∀ i : BookingIntent, (if i.pk = pk then f i else i).pk = i.pk := by
    intro i
    split
    · exact hf i
    · rfl
  refine ⟨⟨h.keyed.quotes, ?_, h.keyed.requests⟩, fun s hs hl => ?_, h.expired⟩
  · show ((Table.modify BookingIntent.pk w.prebooking.intents pk f).map (·.pk)).Nodup
    rw [Table.map_key_modify fun i hi => (hf i).trans hi]
    exact h.keyed.intents
  · obtain ⟨hq, hi, hm⟩ := h.held s hs hl
    refine ⟨hq, hi.map hmap fun i hir hk hid => ?_, hm⟩
    split
    · rename_i hpk
      subst hpk
      exact hd i (Table.get_eq_of_mem h.keyed.intents hir) (Office.holds_of_mem hs hl hk) hid
    · exact hid

/-- New quotes and intents, and an update of one quote that consumes it only if no sweep holds it. -/
theorem Clear.quote (h : Clear w) (pk : Uuid) (f : BookingQuote → BookingQuote) (quotes : List BookingQuote)
    (intents : List BookingIntent) (hf : ∀ q, (f q).pk = q.pk)
    (hd : ∀ q, w.holds Sweep.quoteIds pk → (f q).status ≠ .consumed)
    (hq : ∀ q ∈ quotes, q.status = .active) (hi : ∀ i ∈ intents, i.status = .awaitingPayment)
    (hqk : ((w.prebooking.quotes ++ quotes).map (·.pk)).Nodup)
    (hik : ((w.prebooking.intents ++ intents).map (·.pk)).Nodup) :
    Clear { w with
      prebooking := ⟨Table.modify BookingQuote.pk w.prebooking.quotes pk f ++ quotes, w.prebooking.intents ++ intents⟩ } := by
  have hmap : ∀ q : BookingQuote, (if q.pk = pk then f q else q).pk = q.pk := by
    intro q
    split
    · exact hf q
    · rfl
  refine ⟨⟨?_, hik, h.keyed.requests⟩, fun s hs hl => ?_, h.expired⟩
  · rw [List.map_append] at hqk ⊢
    rwa [Table.map_key_modify fun q hq => (hf q).trans hq]
  · obtain ⟨hsq, hsi, hsm⟩ := h.held s hs hl
    refine ⟨(hsq.map hmap fun q _ hk hqd => ?_).append fun q hqn => by simp [hq q hqn],
      hsi.append fun i hin => by simp [hi i hin, decidedIntent], hsm⟩
    split
    · rename_i hpk
      subst hpk
      simpa using hd q (Office.holds_of_mem hs hl hk)
    · exact hqd

theorem nodup_map_append_singleton {α : Type} {key : α → Uuid} {rows : List α} {b : α} (h : (rows.map key).Nodup)
    (hb : ∀ a ∈ rows, key a ≠ key b) : ((rows ++ [b]).map key).Nodup := by
  rw [List.map_append]
  refine List.nodup_append.2 ⟨h, List.nodup_singleton _, ?_⟩
  rintro k hk k' hk' rfl
  obtain ⟨a, ha, rfl⟩ := List.mem_map.1 hk
  exact hb a ha (List.mem_singleton.1 hk')

theorem consumption_consumed {c : Consumption} {p : Prebooking} {q : BookingQuote} (h : consumption c p q = some .consumed) :
    ∀ i ∈ p.intents, i.pk ≠ c.intent := by
  intro i hi hpk
  have hany : p.intents.any (fun i => i.pk == c.intent || i.quote == q.pk || i.idempotencyKey == c.idempotencyKey) = true :=
    List.any_eq_true.2 ⟨i, hi, by simp [hpk]⟩
  simp only [consumption, hany, if_true] at h
  repeat' split at h
  all_goals cases h

theorem Clear.consume (h : Clear w) {quote : Uuid} {c : Consumption} (hok : w.overtakes (.consume quote c) = false) :
    Clear (w.step (.consume quote c)) := by
  have hq0 : ((w.prebooking.quotes ++ []).map BookingQuote.pk).Nodup := by simpa using h.keyed.quotes
  have hi0 : ((w.prebooking.intents ++ []).map BookingIntent.pk).Nodup := by simpa using h.keyed.intents
  simp only [Office.overtakes, Office.consumes, Bool.and_eq_false_iff] at hok
  simp only [Office.step]
  unfold consumeRevalidatedQuote
  split_ifs with hkey
  · exact h
  split
  · exact h
  · exact h
  · rename_i r _ _
    split_ifs with hr
    · exact h
    · simp only [List.any_eq_true, beq_iff_eq, not_exists, not_and] at hr
      have := h.quote quote (decidedRow c.now .priceChanged) [{ r with status := .active }] [] (fun _ => rfl) (fun _ _ => by rintro ⟨⟩) (by simp) (by simp)
        (nodup_map_append_singleton h.keyed.quotes hr) hi0
      simpa [Prebooking.modifyQuote] using this
  · rename_i hget
    obtain ⟨q, hq, hc⟩ := Option.bind_eq_some_iff.1 hget
    have := h.quote quote (decidedRow c.now .consumed) []
      [⟨c.intent, quote, c.idempotencyKey, .awaitingPayment, c.intentExpiresAt⟩] (fun _ => rfl)
      (fun q hh => by simp [hh, hget, hkey] at hok) (by simp) (by simp) hq0
      (nodup_map_append_singleton h.keyed.intents (consumption_consumed hc))
    simpa [Prebooking.modifyQuote] using this
  · rename_i status hne _ _ _
    have := h.quote quote (decidedRow c.now status) [] [] (fun _ => rfl)
      (fun _ _ => hne) (by simp) (by simp) hq0 hi0
    simpa [Prebooking.modifyQuote] using this

/-- The update of a sweep expires undecided rows only, and takes nothing that another sweep holds past a decision. -/
theorem Clear.update (h : Clear w) (hs : s ∈ w.sweeps) (hl : s.live) : Clear (w.update s) := by
  have hq : ∀ q, (expireQuote s.quoteIds q).pk = q.pk := fun q => by unfold expireQuote; split <;> rfl
  have hi : ∀ i, (expireIntent s.intentIds i).pk = i.pk := fun i => by unfold expireIntent; split <;> rfl
  have hm := expireModification_pk s.modificationIds
  refine ⟨⟨?_, ?_, ?_⟩, fun t ht htl => ?_, fun x hx => ?_⟩
  · simpa [Office.update, Function.comp_def, hq] using h.keyed.quotes
  · simpa [Office.update, Function.comp_def, hi] using h.keyed.intents
  · simpa [Office.update, Changes.Keyed, Office.board, Office.requests, Function.comp_def, hm] using h.keyed.requests
  · obtain ⟨htq, hti, htm⟩ := h.held t ht htl
    refine ⟨htq.map hq fun q _ _ hd => ?_, hti.map hi fun i _ _ hd => ?_, htm.map hm fun m _ _ hd => ?_⟩
    · unfold expireQuote; split
      · rfl
      · exact hd
    · unfold expireIntent; split
      · rfl
      · exact hd
    · unfold expireModification; split
      · rfl
      · exact hd
  · obtain ⟨hsq, hsi, hsm⟩ := h.held s hs hl
    simp only [Office.update, Office.expires, List.mem_append, List.mem_map, List.mem_filter, decide_eq_true_eq] at hx
    rcases hx with hx | (⟨q, ⟨hq, hk⟩, rfl⟩ | ⟨i, ⟨hi, hk⟩, rfl⟩) | ⟨m, ⟨hm, hk⟩, rfl⟩
    · exact h.expired x hx
    · exact hsq q hq hk
    · exact hsi i hi hk
    · exact hsm m hm hk

theorem due_undecided {now : Time} {i : BookingIntent} (h : dueIntent now i) (hv : (i.status == .paymentVerified) = false) :
    decidedIntent i.status = false := by
  simp only [dueIntent, Bool.and_eq_true, bne_iff_ne, ne_eq] at h
  simp [decidedIntent, h.1.1.2, h.1.2, hv]

theorem dueModification_undecided {now : Time} {m : ModificationRequest} (h : dueModification now m)
    (hp : (m.status == .processing || m.status == .unknown) = false) : decidedModification m.status = false := by
  simp only [dueModification, Bool.and_eq_true, bne_iff_ne, ne_eq] at h
  simp [decidedModification, hp, h.1.1.2, h.1.2]

theorem live_of_advanced (h : (w.advanced s).live) : s.live ∧ s.asked.dryRun = false := by
  obtain ⟨asked, stage, quoteIds, intentIds, modificationIds⟩ := s
  cases stage with
  | quotes | intents | modifications | updating =>
    simp only [Office.advanced, Sweep.live, Bool.and_eq_true, Bool.not_eq_true'] at h ⊢
    exact ⟨⟨rfl, h.2⟩, h.2⟩
  | done => cases h

/-- What a sweep selects is undecided, if nothing is missed. -/
theorem Clear.advanced (h : Clear w) (hs : s ∈ w.sweeps) (hok : (!s.asked.dryRun && w.misses s) = false)
    (hl : (w.advanced s).live) : (w.advanced s).Clear w := by
  obtain ⟨hls, hdry⟩ := live_of_advanced hl
  obtain ⟨hq, hi, hm⟩ := h.held s hs hls
  simp only [hdry, Bool.not_false, Bool.true_and] at hok
  cases hst : s.stage with
  | quotes =>
    simp only [Office.advanced, hst]
    refine ⟨Undecided.selected h.keyed.quotes fun q hsel => ⟨(mem_selectQuotes hsel).1, ?_⟩, hi, hm⟩
    have := (mem_selectQuotes hsel).2
    simp only [dueQuote, Bool.and_eq_true, beq_iff_eq] at this
    simp [this.1]
  | intents =>
    simp only [Office.misses, hst, List.any_eq_false, Bool.not_eq_true] at hok
    simp only [Office.advanced, hst]
    exact ⟨hq, Undecided.selected h.keyed.intents fun i hsel =>
      ⟨(mem_selectIntents hsel).1, due_undecided (mem_selectIntents hsel).2 (hok i hsel)⟩, hm⟩
  | modifications =>
    simp only [Office.misses, hst, List.any_eq_false, Bool.not_eq_true] at hok
    simp only [Office.advanced, hst]
    exact ⟨hq, hi, Undecided.selected h.keyed.requests fun m hsel =>
      ⟨(mem_selectModifications hsel).1, dueModification_undecided (mem_selectModifications hsel).2 (hok m hsel)⟩⟩
  | updating | done => simp [Office.advanced, hst, Sweep.live] at hl

/-- Replacing a sweep by one that holds undecided rows only. -/
theorem Clear.set (h : Clear w) {i : ℕ} (hs : s.live → s.Clear w) : Clear { w with sweeps := w.sweeps.set i s } := by
  refine ⟨⟨h.keyed.1, h.keyed.2, h.keyed.3⟩, fun t ht hl => ?_, h.expired⟩
  rcases List.mem_or_eq_of_mem_set ht with ht | rfl
  · obtain ⟨hq, hi, hm⟩ := h.held t ht hl
    exact ⟨hq, hi, hm⟩
  · obtain ⟨hq, hi, hm⟩ := hs hl
    exact ⟨hq, hi, hm⟩

theorem Clear.query (h : Clear w) {i : ℕ} (hok : w.overtakes (.query i) = false) : Clear (w.step (.query i)) := by
  simp only [Office.overtakes] at hok
  simp only [Office.step]
  cases hi : w.sweeps[i]? with
  | none => exact h
  | some s =>
    have hs : s ∈ w.sweeps := List.mem_of_getElem? hi
    simp only [hi, Option.any_some] at hok
    by_cases hw : s.writes
    · simp only [hw, if_true]
      simp only [Sweep.writes, Bool.and_eq_true, beq_iff_eq, Bool.not_eq_true'] at hw
      have hu := h.update hs (by simp [Sweep.live, hw])
      exact hu.set fun hl => by simp [Office.advanced, hw.1, Sweep.live] at hl
    · simp only [hw, Bool.false_eq_true, if_false]
      exact h.set (h.advanced hs hok)

theorem Clear.step (h : Clear w) (hok : w.overtakes a = false) : Clear (w.step a) := by
  cases a with
  | change | snapshot | reject => exact h.requests hok rfl rfl rfl
  | consume quote c => exact h.consume hok
  | verified intent =>
    refine h.intent (fun i => by unfold recordVerified; split <;> rfl) fun i hi hh hd => ?_
    simp only [Office.overtakes, hh, hi, Bool.true_and, Option.any_some, beq_eq_false_iff_ne] at hok
    rwa [recordVerified, if_neg hok]
  | confirmed intent =>
    exact h.intent (fun _ => rfl) fun i _ hh _ => by simp [Office.overtakes, hh] at hok
  | cancelled intent =>
    refine h.intent (fun i => by unfold cancel; split <;> rfl) fun i hi hh hd => ?_
    simp only [Office.overtakes, hh, hi, Bool.true_and, Option.any_some, Bool.not_eq_false', Bool.or_eq_true,
      beq_iff_eq] at hok
    have hskip : i.status = .completed ∨ i.status = .cancelled ∨ i.status = .expired := hok.imp_right .inr
    rwa [cancel, if_pos hskip]
  | sweep asked =>
    simp only [Office.step]
    split
    · refine ⟨⟨h.keyed.1, h.keyed.2, h.keyed.3⟩, fun s hs hl => ?_, h.expired⟩
      rcases List.mem_append.1 hs with hs | hs
      · obtain ⟨hq, hi, hm⟩ := h.held s hs hl
        exact ⟨hq, hi, hm⟩
      · rw [List.mem_singleton.1 hs]
        exact ⟨.none, .none, .none⟩
    · exact h
  | query i => exact h.query hok

/-- Any tables, and no sweep under way. -/
structure Office.Unswept (w : Office) : Prop where
  keyed : w.Keyed
  sweeps : w.sweeps = []
  expired : w.expired = []

open Machine in
/-- As long as no sweep selects a decided row and nothing that a sweep is going to update is decided, only undecided
rows are moved to EXPIRED. -/
theorem expiry_undoes_no_decision {w : Office} (h : w.Unswept) (as : List Action)
    (hok : Meets Office.step (fun w a => w.overtakes a = false) w as) :
    ∀ x ∈ (run Office.step w as).expired, x.undoes = false :=
  (hok.inv (fun _ _ h hok => h.step hok) ⟨h.keyed, by simp [h.sweeps], by simp [h.expired]⟩ : Clear _).expired

/-! ### What an excluded step leads to -/

theorem Office.step_query {i : ℕ} (h : w.sweeps[i]? = some s) :
    w.step (.query i) = { if s.writes then w.update s else w with sweeps := w.sweeps.set i (w.advanced s) } := by
  simp only [Office.step, h]

/-- A held row that is decided is undone by the next statement of its sweep. -/
theorem undone_of_held {i : ℕ} (hi : w.sweeps[i]? = some s) (hw : s.writes)
    (hd : (∃ q ∈ w.prebooking.quotes, q.pk ∈ s.quoteIds ∧ q.status = .consumed) ∨
      (∃ n ∈ w.prebooking.intents, n.pk ∈ s.intentIds ∧ decidedIntent n.status) ∨
      ∃ m ∈ w.requests, m.pk ∈ s.modificationIds ∧ decidedModification m.status) :
    ∃ x ∈ (w.step (.query i)).expired, x.undoes = true := by
  have hx : (w.step (.query i)).expired = w.expired ++ w.expires s := by
    rw [Office.step_query hi, if_pos hw]
    rfl
  rw [hx]
  rcases hd with ⟨q, hq, hk, hs⟩ | ⟨n, hn, hk, hs⟩ | ⟨m, hm, hk, hs⟩
  · refine ⟨.quote q.pk q.status, ?_, by simp [Expired.undoes, hs]⟩
    simp only [Office.expires, List.mem_append, List.mem_map, List.mem_filter, decide_eq_true_eq]
    exact .inr (.inl (.inl ⟨q, ⟨hq, hk⟩, rfl⟩))
  · refine ⟨.intent n.pk n.status, ?_, hs⟩
    simp only [Office.expires, List.mem_append, List.mem_map, List.mem_filter, decide_eq_true_eq]
    exact .inr (.inl (.inr ⟨n, ⟨hn, hk⟩, rfl⟩))
  · refine ⟨.modification m.pk m.status, ?_, hs⟩
    simp only [Office.expires, List.mem_append, List.mem_map, List.mem_filter, decide_eq_true_eq]
    exact .inr (.inr ⟨m, ⟨hm, hk⟩, rfl⟩)

/-- A statement that selects changes nothing but its sweep. -/
theorem Office.step_select {i : ℕ} (h : w.sweeps[i]? = some s) (hw : s.writes = false) :
    w.step (.query i) = { w with sweeps := w.sweeps.set i (w.advanced s) } ∧
      (w.step (.query i)).sweeps[i]? = some (w.advanced s) := by
  have hlen : i < w.sweeps.length := (List.getElem?_eq_some_iff.1 h).1
  have heq : w.step (.query i) = { w with sweeps := w.sweeps.set i (w.advanced s) } := by
    rw [Office.step_query h, hw]
    rfl
  refine ⟨heq, ?_⟩
  rw [heq]
  exact List.getElem?_set_self hlen

open Machine in
/-- A sweep that selects a decided row and goes on undisturbed undoes the decision. -/
theorem undone_of_misses {i : ℕ} (hi : w.sweeps[i]? = some s) (hdry : s.asked.dryRun = false) (hm : w.misses s) :
    ∃ n, ∃ x ∈ (run Office.step w (.replicate n (.query i))).expired, x.undoes = true := by
  cases hst : s.stage with
  | quotes | updating | done => simp [Office.misses, hst] at hm
  | modifications =>
    simp only [Office.misses, hst, List.any_eq_true] at hm
    obtain ⟨m, hsel, hs⟩ := hm
    obtain ⟨heq, hi'⟩ := Office.step_select hi (by simp [Sweep.writes, hst])
    refine ⟨2, undone_of_held hi' ?_ (.inr (.inr ⟨m, ?_, ?_, ?_⟩))⟩
    · simp [Office.advanced, hst, Sweep.writes, hdry]
    · rw [heq]
      exact (mem_selectModifications hsel).1
    · simp only [Office.advanced, hst]
      exact List.mem_map_of_mem hsel
    · rcases Bool.or_eq_true_iff.1 hs with hs | hs <;> simp [decidedModification, hs]
  | intents =>
    simp only [Office.misses, hst, List.any_eq_true] at hm
    obtain ⟨n, hsel, hs⟩ := hm
    obtain ⟨heq, hi'⟩ := Office.step_select hi (by simp [Sweep.writes, hst])
    obtain ⟨heq', hi''⟩ := Office.step_select hi' (by simp [Office.advanced, hst, Sweep.writes])
    refine ⟨3, undone_of_held hi'' ?_ (.inr (.inl ⟨n, ?_, ?_, ?_⟩))⟩
    · simp [Office.advanced, hst, Sweep.writes, hdry]
    · rw [heq', heq]
      exact (mem_selectIntents hsel).1
    · simp only [Office.advanced, hst]
      exact List.mem_map_of_mem hsel
    · simp [decidedIntent, hs]

/-! ### A paid booking and a claimed change -/

def bookingQuote : BookingQuote where
  pk := ⟨"6c1e7c1a-1f60-4f0e-9a51-0d5d7c2f1c01", rfl⟩
  hostawayListingId := 40160
  checkIn := 100
  checkOut := 104
  guests := 2
  currency := "SAR"
  totalPrice := 1200
  paymentAmountSar := some 1200
  hasRates := true
  status := .active
  consumedAt := none
  invalidatedAt := none
  expiresAt := 50

def bookingIntent : BookingIntent :=
  ⟨⟨"6c1e7c1a-1f60-4f0e-9a51-0d5d7c2f1c02", rfl⟩, ⟨"6c1e7c1a-1f60-4f0e-9a51-0d5d7c2f1c03", rfl⟩, "key", .awaitingPayment, 60⟩

def sweptOffice : Office := ⟨⟨[bookingQuote], [bookingIntent]⟩, Changes.quietWorld, [], [], []⟩

def wholeSweep (now : Time) : List Action :=
  .sweep ⟨false, 500, true, true, now⟩ :: .replicate 4 (.query 0)

theorem sweptOffice_unswept : sweptOffice.Unswept :=
  ⟨⟨by simp [sweptOffice], by simp [sweptOffice], by simp [sweptOffice, Changes.Keyed, Office.board, Changes.quietWorld]⟩,
    rfl, rfl⟩

/-- A quote, an intent and a request that are due and undecided are expired. -/
def dueRun : List Action :=
  .change (.quote Changes.stay (Changes.shorter Changes.firstRequest 3 10)) :: wholeSweep 200

theorem expiry_undoes_no_decision_due :
    (Machine.run Office.step sweptOffice dueRun).expired =
        [.quote bookingQuote.pk .active, .intent bookingIntent.pk .awaitingPayment,
          .modification Changes.firstRequest .readyForHostaway] ∧
      ∀ x ∈ (Machine.run Office.step sweptOffice dueRun).expired, x.undoes = false :=
  ⟨by decide +kernel, expiry_undoes_no_decision sweptOffice_unswept dueRun (by decide +kernel)⟩

/-- The payment of the intent is verified and the change is claimed before the sweep starts. -/
def decidedRun : List Action :=
  [.verified bookingIntent.pk, .change (.quote Changes.stay (Changes.shorter Changes.firstRequest 3 10)),
   .change (.automatic Changes.firstRequest false), .change (.event 0 (.check (Changes.liveChecks 11))),
   .change (.event 0 (.check (Changes.liveChecks 12))), .change (.event 0 (.check (Changes.liveChecks 13)))] ++
  wholeSweep 200

theorem paid_intent_expired :
    .intent bookingIntent.pk .paymentVerified ∈ (Machine.run Office.step sweptOffice decidedRun).expired ∧
      .modification Changes.firstRequest .processing ∈ (Machine.run Office.step sweptOffice decidedRun).expired := by
  decide +kernel

end Apartments.Expiration
