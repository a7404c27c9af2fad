import Apartments.Lib.Run
import Apartments.Loyalty.Documents
import Mathlib.Data.List.Permutation

/-!
# Updates of a loyalty document are not lost

`Kept` is what the document keeps when writers run one after the other (`apply_kept`). Writers that lock the row first,
or share the financial lock, never overlap, so an update can be lost in one way only: the reader has not locked the row
and the other writer takes nothing but the row (`overtaken_of_stale`). Without such a step the document is the replay of
the committed writers, and keeps what was committed.
-/

namespace Apartments.Documents

open Loyalty Machine

variable {digest : Payload → String} {d d' d'' : Document} {x : Writer} {xs ys : List Writer} {w : World} {a : Action}

/-! ### What a writer keeps -/

/-- The final write of a modification that stands. -/
def Writer.repricesNights : Writer → Bool
  | .finishModification cancelled _ => !cancelled
  | _ => false

/-- What stays in the document while `xs` commit. -/
structure Kept (xs : List Writer) (d d' : Document) : Prop where
  redemption : ∀ r, d.redemption = some r → ∃ r', d'.redemption = some r' ∧
    r'.value = r.value ∧ r'.original = r.original ∧ r.restored ≤ r'.restored
  settlement : ∀ s, d.settlement = some s → ∃ s', d'.settlement = some s' ∧ s.revision ≤ s'.revision
  refundPlans : d.refundPlans <+: d'.refundPlans
  attested : d.manualLodgingPrice.isSome = true → d'.manualLodgingPrice.isSome = true
  pricedNights : (∀ x ∈ xs, x.repricesNights = false) → d'.pricedNights = d.pricedNights

namespace Kept

theorem refl (xs : List Writer) (d : Document) : Kept xs d d where
  redemption r hr := ⟨r, hr, rfl, rfl, le_refl _⟩
  settlement s hs := ⟨s, hs, le_refl _⟩
  refundPlans := List.prefix_refl _
  attested := id
  pricedNights _ := rfl

theorem trans (h : Kept xs d d') (h' : Kept ys d' d'') : Kept (xs ++ ys) d d'' where
  redemption r hr := by
    obtain ⟨r', hr', hvalue, horiginal, hle⟩ := h.redemption r hr
    obtain ⟨r'', hr'', hvalue', horiginal', hle'⟩ := h'.redemption r' hr'
    exact ⟨r'', hr'', hvalue'.trans hvalue, horiginal'.trans horiginal, hle.trans hle'⟩
  settlement s hs := by
    obtain ⟨s', hs', hle⟩ := h.settlement s hs
    obtain ⟨s'', hs'', hle'⟩ := h'.settlement s' hs'
    exact ⟨s'', hs'', hle.trans hle'⟩
  refundPlans := h.refundPlans.trans h'.refundPlans
  attested := h'.attested ∘ h.attested
  pricedNights hxs :=
    (h'.pricedNights fun x hx => hxs x (List.mem_append_right xs hx)).trans
      (h.pricedNights fun x hx => hxs x (List.mem_append_left ys hx))

/-- A writer that leaves the five keys alone. -/
theorem of_eq (hredemption : d'.redemption = d.redemption) (hsettlement : d'.settlement = d.settlement)
    (hplans : d'.refundPlans = d.refundPlans) (hprice : d'.manualLodgingPrice = d.manualLodgingPrice)
    (hnights : d'.pricedNights = d.pricedNights) : Kept xs d d' where
  redemption r hr := ⟨r, hredemption.trans hr, rfl, rfl, le_refl _⟩
  settlement s hs := ⟨s, hsettlement.trans hs, le_refl _⟩
  refundPlans := hplans ▸ List.prefix_refl _
  attested h := hprice ▸ h
  pricedNights _ := hnights

end Kept

theorem hold_eq {o : Outside} {request : String} {value : Dec} (h : hold o request value d = some d') :
    unpaid o.booking = true ∧ d.hold = none ∧ d.redemption = none ∧
      ∃ n, d' = { d with hold := some ⟨n, o.member, request⟩ } := by
  unfold hold at h
  split_ifs at h with hopen hunpaid
  simp only [not_or, not_not] at hopen
  split at h
  · cases h
  · split_ifs at h
    exact ⟨eq_true_of_ne_false hunpaid, hopen.2.2.1, hopen.2.2.2, _, (Option.some.inj h).symm⟩

theorem release_eq {o : Outside} (h : release o d = some d') :
    (releaseAllowed (o.loaded d)).isOk = true ∧ d' = released d := by
  unfold release at h
  split_ifs at h with hrefused
  exact ⟨eq_true_of_ne_false fun hok => hrefused (.inr hok), (Option.some.inj h).symm⟩

theorem releaseExpiredPoints_eq {o : Outside} {expired : Bool} (h : releaseExpiredPoints o expired d = some d') :
    (releaseAllowed (o.loaded d)).isOk = true ∧ d' = released d := by
  unfold releaseExpiredPoints at h
  split_ifs at h with hrefused
  exact ⟨eq_true_of_ne_false fun hok => hrefused (.inr (.inr (.inr (.inr hok)))), (Option.some.inj h).symm⟩

theorem redeem_eq {o : Outside} {row : Option ℕ} (h : redeem o row d = some d') :
    d.redemption = none ∧ ∃ held r, d.hold = some held ∧ r.value = held.value ∧
      d' = { d with hold := none, redemption := some r } := by
  unfold redeem at h
  split_ifs at h with hblocked
  have hnone : d.redemption = none := by
    by_contra hsome
    exact hblocked (.inr hsome)
  split at h
  · rename_i held _ hheld
    split_ifs at h
    exact ⟨hnone, held, _, hheld, rfl, (Option.some.inj h).symm⟩
  · cases h

theorem restored_eq {o : Outside} {value : Dec} {reference : String} {posted : Bool}
    (h : restored o value reference posted d = some d') :
    d' = d ∨ ∃ r target, d.redemption = some r ∧ r.restored ≤ target ∧
      d' = { d with redemption := some { r with restored := target } } := by
  unfold restored at h
  split at h
  · rename_i r n _ hr _
    split_ifs at h with hbounds
    · exact .inl (Option.some.inj h).symm
    · exact .inr ⟨r, amount n, hr, not_lt.1 fun hlt => hbounds (.inl hlt), (Option.some.inj h).symm⟩
  · cases h

theorem restored_kept {o : Outside} {value : Dec} {reference : String} {posted : Bool}
    (h : restored o value reference posted d = some d') : Kept xs d d' := by
  rcases restored_eq h with rfl | ⟨r, target, hr, hle, rfl⟩
  · exact .refl xs d'
  · refine ⟨fun r₀ hr₀ => ?_, fun s hs => ⟨s, hs, le_refl _⟩, List.prefix_refl _, id, fun _ => rfl⟩
    obtain rfl := Option.some.inj (hr.symm.trans hr₀)
    exact ⟨_, rfl, rfl, rfl, hle⟩

theorem reconcile_kept {q : Reconciling} (h : reconcile digest q d = some d') : Kept xs d d' := by
  simp only [reconcile] at h
  split_ifs at h
  split at h
  · obtain rfl := Option.some.inj h
    exact .of_eq rfl rfl rfl rfl rfl
  · split at h
    · cases h
    · split_ifs at h
      obtain rfl := Option.some.inj h
      refine ⟨fun r hr => ⟨r, hr, rfl, rfl, le_refl _⟩, fun s hs => ⟨_, rfl, ?_⟩, List.prefix_refl _, id, fun _ => rfl⟩
      have hs : (q.identify d).settlement = some s := hs
      have hnext : nextRevision (q.identify d).toLoyaltyState = s.revision + 1 := by simp [nextRevision, hs]
      rw [hnext]
      exact Nat.le_succ _

theorem freeze_eq {o : Outside} (h : freeze o d = some d') : d' = { d with checkoutFrozen := true } := by
  unfold freeze at h
  split at h
  · exact (Option.some.inj h).symm
  · cases h

theorem confirmPointsBooking_eq {o : Outside} (h : confirmPointsBooking o d = some d') :
    d.hold ≠ none ∧ cashDue o d = some 0 ∧
      d' = { d with checkoutFrozen := true, pointsConfirmationStarted := true } := by
  unfold confirmPointsBooking at h
  split_ifs at h with _ hopen
  simp only [not_or, not_not] at hopen
  obtain ⟨frozen, hfrozen, rfl⟩ := Option.map_eq_some_iff.1 h
  exact ⟨hopen.2.1, hopen.2.2, by rw [freeze_eq hfrozen]⟩

theorem recordRefundPlan_kept {o : Outside} {completed posted funded : Bool} {plan : RefundPlan}
    (h : recordRefundPlan o completed plan posted funded d = some d') : Kept xs d d' := by
  simp only [recordRefundPlan] at h
  split_ifs at h with _ hpoints
  · split at h
    · rename_i d₁ hrestored
      obtain rfl := Option.some.inj h
      have hfirst : Kept xs d d₁ := restored_kept hrestored
      exact { hfirst with refundPlans := hfirst.refundPlans.trans (List.prefix_append _ _) }
    · cases h
  · split at h
    · rename_i d₁ hsame
      obtain rfl := Option.some.inj hsame
      obtain rfl := Option.some.inj h
      exact { Kept.refl xs d with refundPlans := List.prefix_append _ _ }
    · cases h

theorem finishModification_kept {cancelled : Bool} {nightPrices : Option PricedNights}
    (h : finishModification cancelled nightPrices d = some d') :
    Kept [.finishModification cancelled nightPrices] d d' := by
  unfold finishModification at h
  split_ifs at h with hcancelled
  · obtain rfl := Option.some.inj h
    exact .refl _ d
  · obtain rfl := Option.some.inj h
    refine { Kept.refl [] d with pricedNights := fun hnone => ?_ }
    have := hnone _ (List.mem_singleton_self _)
    simp [Writer.repricesNights, hcancelled] at this

theorem recordManualReceipt_kept {o : Outside} {value : Dec} {attestation : Attestation}
    (h : recordManualReceipt o value attestation d = some d') : Kept xs d d' := by
  simp only [recordManualReceipt] at h
  split_ifs at h
  obtain rfl := Option.some.inj h
  exact { Kept.refl xs d with attested := fun _ => rfl }

theorem recordOfflineReceipt_kept {o : Outside} {intent : Bool} {attestation : Option Attestation}
    (h : recordOfflineReceipt o intent attestation d = some d') : Kept xs d d' := by
  unfold recordOfflineReceipt at h
  split_ifs at h
  obtain rfl := Option.some.inj h
  refine { Kept.refl xs d with attested := fun hsome => ?_ }
  cases attestation with
  | none => exact hsome
  | some attestation => rfl

/-- One case for each writer. -/
theorem apply_kept (h : x.apply digest d = some d') : Kept [x] d d' := by
  cases x with
  | hold o request value =>
    obtain ⟨-, -, -, n, rfl⟩ := hold_eq h
    exact .of_eq rfl rfl rfl rfl rfl
  | release o => exact (release_eq h).2 ▸ .of_eq rfl rfl rfl rfl rfl
  | releaseExpiredPoints o expired => exact (releaseExpiredPoints_eq h).2 ▸ .of_eq rfl rfl rfl rfl rfl
  | redeem o row =>
    obtain ⟨hnone, -, r, -, -, rfl⟩ := redeem_eq h
    refine { Kept.refl _ d with redemption := fun r₀ hr₀ => ?_ }
    rw [hnone] at hr₀
    cases hr₀
  | restorePoints o value reference posted => exact restored_kept (Option.filter_eq_some_iff.1 h).1
  | reconcile q => exact reconcile_kept h
  | recordFailure e =>
    obtain rfl := Option.some.inj h
    exact .of_eq rfl rfl rfl rfl rfl
  | freeze o => exact freeze_eq h ▸ .of_eq rfl rfl rfl rfl rfl
  | confirmPointsBooking o => exact (confirmPointsBooking_eq h).2.2 ▸ .of_eq rfl rfl rfl rfl rfl
  | abandonConfirmation =>
    obtain rfl := Option.some.inj h
    exact .of_eq rfl rfl rfl rfl rfl
  | recordRefundPlan o completed plan posted funded => exact recordRefundPlan_kept h
  | finishModification cancelled nightPrices => exact finishModification_kept h
  | recordManualReceipt o value attestation => exact recordManualReceipt_kept h
  | recordOfflineReceipt o intent attestation => exact recordOfflineReceipt_kept h

theorem replay_kept (h : (protocol digest).replay d xs = some d') : Kept xs d d' :=
  Locks.Protocol.replay_rel (Kept.refl []) (fun _ _ _ _ _ happly hrest => (apply_kept happly).trans hrest) h

/-! ### Who overtakes whom -/

theorem row_mem_all (x : Writer) : .row ∈ (protocol digest).all x := List.mem_cons_self

/-- A writer locks the row before it reads, or works under the financial lock. -/
theorem financial_of_row (h : .row ∉ x.early) : .financial ∈ x.early ∧ x.readsUnlocked = true := by
  cases x <;> simp [Writer.early, Writer.readsUnlocked] at h ⊢

theorem rowOnly_of_financial (h : .financial ∉ (protocol digest).all x) : x.rowOnly = true := by
  cases x <;> simp [Locks.Protocol.all, protocol, Writer.early, Writer.rowOnly] at h ⊢

/-- In every run a document that has changed since it was read was read without a lock of its row, and changed by a
writer outside the financial lock. -/
theorem overtaken_of_stale (h : Locks.Inv (protocol digest) w) (hs : w.stale (protocol digest) a = true) :
    w.overtaken digest a = true := by
  obtain ⟨i, x, seen, since, rfl, hi, y, hy, hshare⟩ := h.of_stale hs
  have hrow : .row ∉ x.early := fun hk => hshare _ hk (row_mem_all y)
  obtain ⟨hfinancial, hunlocked⟩ := financial_of_row hrow
  have hy' : y ∈ w.log.drop since := by simpa [Locks.World.missed, hi] using hy
  have hany : (w.log.drop since).any Writer.rowOnly = true :=
    List.any_eq_true.2 ⟨y, hy', rowOnly_of_financial (hshare _ hfinancial)⟩
  simp only [Locks.World.stale, hi] at hs
  simp only [World.overtaken, hi, hunlocked, hany, Bool.true_and]
  exact hs

/-! ### Runs -/

/-- A document before any of the transactions. -/
def start (d : Document) : World := ⟨d, [], []⟩

/-- A run in which no document is overtaken writes no stale document. -/
theorem serial_run {as : List Action} (hw : Locks.Serial (protocol digest) d w)
    (hok : Meets (World.step digest) (fun w a => w.overtaken digest a = false) w as) :
    Locks.Serial (protocol digest) d (run (World.step digest) w as) ∧
      Meets (World.step digest) (fun w a => w.stale (protocol digest) a = false) w as := by
  induction as generalizing w with
  | nil => exact ⟨hw, trivial⟩
  | cons a as ih =>
    obtain ⟨ha, has⟩ := hok
    have hfresh : w.stale (protocol digest) a = false := by
      by_contra hs
      have := overtaken_of_stale hw.inv (eq_true_of_ne_false hs)
      exact Bool.false_ne_true (ha.symm.trans this)
    obtain ⟨hend, hmeets⟩ := ih (hw.step hfresh) has
    exact ⟨hend, hfresh, hmeets⟩

/-- In a run in which no document is overtaken, what is stored is what the committed writers make of the first
document one after the other, and of any document stored before it. -/
theorem committed_updates_stay (digest : Payload → String) (d : Document) (as bs : List Action)
    (hok : Meets (World.step digest) (fun w a => w.overtaken digest a = false) (start d) (as ++ bs)) :
    (protocol digest).replay d (run (World.step digest) (start d) (as ++ bs)).log =
        some (run (World.step digest) (start d) (as ++ bs)).stored ∧
      ∃ xs, (run (World.step digest) (start d) (as ++ bs)).log = (run (World.step digest) (start d) as).log ++ xs ∧
        (protocol digest).replay (run (World.step digest) (start d) as).stored xs =
          some (run (World.step digest) (start d) (as ++ bs)).stored ∧
        Kept xs (run (World.step digest) (start d) as).stored
          (run (World.step digest) (start d) (as ++ bs)).stored := by
  obtain ⟨has, hbs⟩ := meets_append.1 hok
  obtain ⟨hmid, -⟩ := serial_run (Locks.serial_start d) has
  obtain ⟨hend, hfresh⟩ := serial_run hmid hbs
  obtain ⟨xs, hlog, hreplay⟩ := hmid.since hfresh
  rw [run_append]
  exact ⟨hend.replayed, xs, hlog, hreplay, replay_kept hreplay⟩

/-! ### A modification during a reconciliation -/

def confirmedStay : Outside where
  allowed := true
  booking := ⟨⟨"7d2e7c1a-1f60-4f0e-9a51-0d5d7c2f1e91", rfl⟩, some 1, .directWebsite, .confirmed, 5, [.succeeded],
    .empty⟩
  member := 1
  available := 0
  total := 1000
  gross := 1000
  cash := 700

/-- The document of a stay that is paid with 300 points. -/
def heldDocument : Document where
  toLoyaltyState := { LoyaltyState.empty with hold := some ⟨300, 1, "hold-1"⟩, checkoutFrozen := true }
  refundPlans := []
  pricedNights := none
  manualLodgingPrice := none

def changedNights : PricedNights := ⟨"SAR", "quote-2", [("2026-11-20", 500), ("2026-11-21", 500)]⟩

/-- A reconciliation that stops at a blocker. -/
def blockedReconciling : Reconciling where
  allowed := true
  identified := none
  facts := fun _ => .error "membership_required"
  owner := 1
  ancestors := some []
  inBulk := fun _ => []
  posted := true

def noDigest : Payload → String := fun _ => ""

/-- The modification waits for the row while the points are redeemed. -/
theorem committed_updates_stay_redeemed :
    (protocol noDigest).replay heldDocument
        (run (World.step noDigest) (start heldDocument)
          ([.start (.redeem confirmedStay (some 4)), .start (.finishModification false (some changedNights)), .lock 0,
            .read 0, .write 0, .lock 1, .commit 0] ++ [.lock 1, .read 1, .write 1, .commit 1])).log =
      some { heldDocument with
        hold := none, redemption := some ⟨300, 4, 0⟩, pricedNights := some changedNights } :=
  (committed_updates_stay noDigest heldDocument _ _ (by decide +kernel)).1.trans (by decide +kernel)

/-- The reconciliation has read the document, the modification commits the new nights, and the reconciliation saves the
old document over them. -/
def overtakenRun : List Action :=
  [.start (.reconcile blockedReconciling), .lock 0, .read 0, .start (.finishModification false (some changedNights)),
   .lock 1, .read 1, .write 1, .commit 1, .write 0, .commit 0]

/-- The new nights are gone, and no order of the two writers ends in that document. -/
theorem reconcile_drops_nights :
    (run (World.step noDigest) (start heldDocument) (overtakenRun.take 8)).stored.pricedNights = some changedNights ∧
      (run (World.step noDigest) (start heldDocument) overtakenRun).stored.pricedNights = none ∧
      ¬∃ xs, xs.Perm (run (World.step noDigest) (start heldDocument) overtakenRun).log ∧
        (protocol noDigest).replay heldDocument xs =
          some (run (World.step noDigest) (start heldDocument) overtakenRun).stored := by
  refine ⟨by decide +kernel, by decide +kernel, ?_⟩
  rintro ⟨xs, hperm, hreplay⟩
  have hlog : (run (World.step noDigest) (start heldDocument) overtakenRun).log =
      [.finishModification false (some changedNights), .reconcile blockedReconciling] := rfl
  rw [hlog, ← List.mem_permutations] at hperm
  simp [List.permutations] at hperm
  rcases hperm with rfl | rfl
  · exact absurd hreplay (by decide +kernel)
  · exact absurd hreplay (by decide +kernel)

end Apartments.Documents
