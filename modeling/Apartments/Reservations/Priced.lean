import Apartments.Reservations.Office

/-!
# The stay a change was priced for

A change is priced on the reservation of the moment and may wait long before it is sent. Only an owner's total is checked
against the reservation again when the operation is claimed; nothing is checked between the claim and the update.
`drifts` names the two gaps: a claim that rechecks nothing, on a reservation that is not the one that was priced, and a
rewriting of the reservation while a claimed update is not sent yet.
-/

namespace Apartments.Expiration

open Payments Hostaway

/-- The reservation is the stay that the request was priced on. -/
def priced (m : ModificationRequest) (r : Reservation) : Bool :=
  stands r && r.checkIn == m.oldCheckIn && r.checkOut == m.oldCheckOut && r.guests == m.oldGuests &&
    r.totalPrice == m.oldTotal && r.currency == m.currency

/-- An update belongs to the stay it was priced on; a cancellation has no price. -/
def fits (u : ModificationRequest × Reservation) : Bool := isCancellation u.1 || priced u.1 u.2

namespace Office

/-- A claim that rechecks nothing is granted on a reservation that is not the one that was priced. -/
def claimsUnpriced (w : Office) : Action → Bool
  | .change (.event i (.check _)) =>
    w.changes.calls[i]?.any fun c =>
      c.stage == .claiming && (w.board.request c.request.pk).any fun m =>
        Changes.unchecked m && !priced m w.board.reservation
  | _ => false

/-- The action rewrites the reservation under an update that is claimed and not sent. -/
def unprices (w : Office) (a : Action) : Bool :=
  w.changes.calls.any fun c => c.stage == .sending && !fits (c.request, w.rebooked a)

def drifts (w : Office) (a : Action) : Bool := w.claimsUnpriced a || w.unprices a

/-- Any requests, and no execution under way. -/
structure Unclaimed (w : Office) : Prop where
  keyed : Changes.Keyed w.board
  calls : w.changes.calls = []
  updates : w.updates = []

end Office

variable {w : Office} {a : Action} {m n : ModificationRequest} {r : Reservation} {e : Checks} {b : Board}

theorem fits_congr (h : Changes.terms m = Changes.terms n) : fits (m, r) = fits (n, r) := by
  simp only [Changes.terms, Prod.mk.injEq] at h
  obtain ⟨ht, h1, h2, h3, h4, h5⟩ := h
  simp only [fits, isCancellation, priced, ht, h1, h2, h3, h4, h5]

/-- The owner's check at the claim compares with the priced stay. -/
theorem priced_of_ownerChangeBlocker (h : ownerChangeBlocker e b false r m = "") : priced m r := by
  unfold ownerChangeBlocker at h
  split at h
  · exact absurd h (by decide)
  split at h
  · exact absurd h (by decide)
  split at h
  · exact absurd h (by decide)
  split at h
  · rename_i hb
    exact absurd h hb
  split at h
  · exact absurd h (by decide)
  rename_i hstands
  split at h
  · rename_i hc
    cases hc.1
  split at h
  · exact absurd h (by decide)
  split at h
  · exact absurd h (by decide)
  split at h
  · exact absurd h (by decide)
  rename_i hsame
  simp only [not_or, ne_eq, not_not] at hsame
  obtain ⟨h1, h2, h3, h4, h5⟩ := hsame
  simp only [Bool.not_eq_true', Bool.not_eq_false] at hstands
  simp [priced, hstands, h1, h2, h3, h4, h5]

/-- A granted claim is of a priced stay, unless nothing is rechecked. -/
theorem fits_of_claimed (h : (prepareModification e b m).2 = .claimed)
    (hu : (Changes.unchecked m && !priced m b.reservation) = false) : fits (m, b.reservation) := by
  unfold prepareModification at h
  dsimp only at h
  split_ifs at h with hr hb
  have hb : claimBlocker e b m = "" := not_not.1 hb
  have hclaim := (Changes.claim_false m.operation).resolve_left hr
  cases hcan : isCancellation m with
  | true => simp [fits, hcan]
  | false =>
    cases hown : m.ownerFinalTotal with
    | none =>
      simp only [Changes.unchecked, hcan, hown, hclaim] at hu
      simpa [fits, hcan] using hu
    | some total =>
      simp only [claimBlocker, hcan, hown] at hb
      simpa [fits, hcan] using priced_of_ownerChangeBlocker hb

/-! ### Steps -/

/-- Every call knows the terms of its request, and what is claimed and not sent yet fits the reservation. -/
structure Fits (w : Office) : Prop where
  keyed : Changes.Keyed w.board
  terms : ∀ c ∈ w.changes.calls, ∃ m, w.board.request c.request.pk = some m ∧ Changes.terms m = Changes.terms c.request
  claimed : ∀ c ∈ w.changes.calls, c.stage = .sending → fits (c.request, w.board.reservation)
  updates : ∀ u ∈ w.updates, fits u

theorem Office.rewritten_terms (w : Office) (a : Action) (m : ModificationRequest) :
    Changes.terms (w.rewritten a m) = Changes.terms m := by
  cases a with
  | change a => exact Changes.World.rewritten_terms ..
  | snapshot d s =>
    simp only [Office.rewritten, Office.reconciled, reconcile]
    split_ifs <;> rfl
  | reject pk =>
    simp only [Office.rewritten, rejectLocally]
    split_ifs <;> rfl
  | query i =>
    simp only [Office.rewritten, expireModification]
    split
    · rfl
    · split_ifs <;> rfl
  | consume | verified | confirmed | cancelled | sweep => rfl

/-- What a claimed update of a call relies on, after an action. -/
theorem fits_of_kept {c : Changes.Call} (hkeep : w.unprices a = false) (hc : c ∈ w.changes.calls) (hs : c.stage = .sending) :
    fits (c.request, w.rebooked a) := by
  simp only [Office.unprices, List.any_eq_false, Bool.and_eq_true, beq_iff_eq, not_and, Bool.not_eq_true',
    Bool.not_eq_false] at hkeep
  exact hkeep c hc hs

/-- The calls that a step leaves know their requests and fit. -/
theorem Fits.calls (h : Fits w) (hok : w.drifts a = false) {c' : Changes.Call} (hc : c' ∈ (w.step a).changes.calls) :
    (∃ m, w.board.request c'.request.pk = some m ∧ Changes.terms m = Changes.terms c'.request) ∧
      (c'.stage = .sending → fits (c'.request, w.rebooked a)) := by
  simp only [Office.drifts, Bool.or_eq_false_iff] at hok
  obtain ⟨hclaim, hkeep⟩ := hok
  have hold : c' ∈ w.changes.calls → (∃ m, w.board.request c'.request.pk = some m ∧
      Changes.terms m = Changes.terms c'.request) ∧ (c'.stage = .sending → fits (c'.request, w.rebooked a)) :=
    fun hc => ⟨h.terms c' hc, fits_of_kept hkeep hc⟩
  rw [Office.calls_step] at hc
  cases a with
  | change a =>
    rcases Changes.World.calls_step hc with hc | ⟨hm, hs⟩ | ⟨i, event, c, b', rfl, hi, ha⟩
    · exact hold hc
    · refine ⟨⟨_, hm, rfl⟩, fun hsend => ?_⟩
      rw [hsend] at hs
      rcases hs with hs | ⟨o, hs⟩ <;> cases hs
    · obtain ⟨m, hm, ht⟩ := h.terms c (List.mem_of_getElem? hi)
      obtain ⟨hpk, hterms, hsend⟩ := Changes.advance_call ha fun n hn => by
        rw [Option.some.inj (hn.symm.trans hm), ht]
      refine ⟨⟨m, hpk ▸ hm, ht.trans hterms.symm⟩, fun hs => ?_⟩
      obtain ⟨hreq, e, n, rfl, hst, hn, hclaimed⟩ := hsend hs
      obtain rfl := Option.some.inj (hn.symm.trans hm)
      -- the claim leaves the reservation alone
      have hr : w.rebooked (.change (.event i (.check e))) = w.board.reservation := by
        simp [Office.rebooked, hi, Changes.Call.rebooked, hst]
      rw [hr, ← fits_congr (ht.trans hterms.symm)]
      refine fits_of_claimed hclaimed ?_
      simp only [Office.claimsUnpriced, hi, Option.any_some, hst, beq_self_eq_true, Bool.true_and] at hclaim
      simpa [show w.board.request c.request.pk = some n from hm] using hclaim
  | snapshot | reject | consume | verified | confirmed | cancelled | sweep | query => exact hold hc

theorem updates_step {u : ModificationRequest × Reservation} (hu : u ∈ (w.step a).updates) :
    u ∈ w.updates ∨ ∃ c ∈ w.changes.calls, c.stage = .sending ∧ u = (c.request, w.board.reservation) := by
  cases a with
  | change a =>
    rcases List.mem_append.1 hu with hu | hu
    · exact .inl hu
    · unfold Office.sends at hu
      split at hu
      · split at hu
        · rename_i c hc
          split_ifs at hu with hs
          · exact .inr ⟨c, List.mem_of_getElem? hc, hs, List.mem_singleton.1 hu⟩
          · cases hu
        · cases hu
      · cases hu
  | query i =>
    simp only [Office.step] at hu
    cases hi : w.sweeps[i]? with
    | none => rw [hi] at hu; exact .inl hu
    | some s =>
      simp only [hi] at hu
      cases hs : s.writes <;> exact .inl (by simpa [hs, Office.update] using hu)
  | sweep asked =>
    simp only [Office.step] at hu
    split at hu <;> exact .inl hu
  | snapshot | reject | consume | verified | confirmed | cancelled => exact .inl hu

theorem Fits.step (h : Fits w) (hok : w.drifts a = false) : Fits (w.step a) := by
  refine ⟨Office.step_keyed h.keyed a, fun c hc => ?_, fun c hc hs => ?_, fun u hu => ?_⟩
  · obtain ⟨⟨m, hm, ht⟩, -⟩ := h.calls hok hc
    exact ⟨_, Office.request_step h.keyed a hm, (Office.rewritten_terms w a m).trans ht⟩
  · rw [Office.step_reservation]
    exact (h.calls hok hc).2 hs
  · rcases updates_step hu with hu | ⟨c, hc, hs, rfl⟩
    · exact h.updates u hu
    · exact h.claimed c hc hs

open Machine in
/-- As long as no claim finds another stay than the one that was priced, and the reservation is not rewritten under a
claimed update, every update that is sent belongs to the stay it was priced for. -/
theorem updates_fit_their_stay {w : Office} (h : w.Unclaimed) (as : List Action)
    (hok : Meets Office.step (fun w a => w.drifts a = false) w as) : ∀ u ∈ (run Office.step w as).updates, fits u :=
  (hok.inv (fun _ _ h hok => h.step hok)
    ⟨h.keyed, by simp [h.calls], by simp [h.calls], by simp [h.updates]⟩ : Fits _).updates

/-! ### What an excluded step leads to -/

theorem unfit_of_sending {i : ℕ} {c : Changes.Call} (hi : w.changes.calls[i]? = some c) (hs : c.stage = .sending)
    (hf : fits (c.request, w.board.reservation) = false) :
    ∃ u ∈ (w.step (.change (.event i .send))).updates, fits u = false :=
  ⟨_, List.mem_append_right _ (by simp [Office.sends, hi, hs]), hf⟩

open Machine in
/-- A claim on a stay that was not priced is sent, if nothing comes between. -/
theorem unfit_of_claimsUnpriced (h : Fits w) {i : ℕ} (hc : w.claimsUnpriced (.change (.event i (.check e)))) :
    ∃ u ∈ (run Office.step w [.change (.event i (.check e)), .change (.event i .send)]).updates, fits u = false := by
  simp only [Office.claimsUnpriced, Option.any_eq_true, Bool.and_eq_true, beq_iff_eq] at hc
  obtain ⟨c, hi, hst, m, hm, hu, hp⟩ := hc
  have hlen : i < w.changes.calls.length := (List.getElem?_eq_some_iff.1 hi).1
  obtain ⟨n, hn, ht⟩ := h.terms c (List.mem_of_getElem? hi)
  obtain rfl := Option.some.inj (hn.symm.trans hm)
  have hclaim := (Changes.processing_of_unchecked (e := e) (b := w.board) hu).1
  have hadv : Changes.advance w.board c (.check e) =
      some (w.board.modify c.request.pk fun _ => (prepareModification e w.board n).1, { c with stage := .sending }) := by
    simp only [Changes.advance, hst, Changes.prepare, hm, hclaim, if_true]
  have hcall : (w.step (.change (.event i (.check e)))).changes.calls[i]? = some { c with stage := .sending } := by
    simp only [Office.step, Changes.World.step, hi, show Changes.advance w.changes.board c (.check e) = _ from hadv]
    exact List.getElem?_set_self hlen
  refine unfit_of_sending hcall rfl ?_
  have hr : (w.step (.change (.event i (.check e)))).board.reservation = w.board.reservation := by
    rw [Office.step_reservation]
    simp [Office.rebooked, hi, Changes.Call.rebooked, hst]
  rw [hr, ← fits_congr ht]
  have hcan : isCancellation n = false := by
    simp only [Changes.unchecked, Bool.and_eq_true, Bool.not_eq_true'] at hu
    exact hu.1.1
  simpa [fits, hcan] using hp

/-! ### A change that waits -/

/-- The change is approved and checked, and waits for its claim. -/
def readyRun : List Action :=
  [.change (.quote Changes.stay (Changes.shorter Changes.firstRequest 3 10)),
   .change (.automatic Changes.firstRequest false), .change (.event 0 (.check (Changes.liveChecks 11))),
   .change (.event 0 (.check (Changes.liveChecks 12)))]

def claimedRun : List Action := [.change (.event 0 (.check (Changes.liveChecks 13))), .change (.event 0 .send)]

theorem changeOffice_unclaimed : changeOffice.Unclaimed := ⟨changeOffice_keyed, rfl, rfl⟩

theorem updates_fit_their_stay_sent :
    (Machine.run Office.step changeOffice (readyRun ++ claimedRun)).updates.length = 1 ∧
      ∀ u ∈ (Machine.run Office.step changeOffice (readyRun ++ claimedRun)).updates, fits u :=
  ⟨by decide +kernel, updates_fit_their_stay changeOffice_unclaimed (readyRun ++ claimedRun) (by decide +kernel)⟩

/-- Meanwhile the guest has moved the stay by a month in Hostaway. -/
def movedStay : Action := .snapshot ⟨none, "direct", 12⟩ ⟨77001, 40161, some 2000, "modified", 130, 134, 3, "SAR", 2000, "paid", some 12⟩

theorem moved_stay_shortened :
    (Machine.run Office.step changeOffice (readyRun ++ movedStay :: claimedRun)).updates.map
      (fun u => (u.1.oldCheckIn, u.1.oldTotal, u.2.checkIn, u.2.totalPrice, fits u)) = [(100, 1200, 130, 2000, false)] := by
  decide +kernel

end Apartments.Expiration
