import Apartments.Reservations.Office

/-!
# Completed requests

Four writes give a completed request another status: the outcome UNKNOWN or FAILED that an execution writes without
looking at the row again, the claim that rechecks nothing, the unlocked update of a paid request when automatic
approval is off, and the update of a sweep that selected the request before it was completed. `reopens` names them, and
a completed request stays completed exactly in the runs without them.
-/

namespace Apartments.Hostaway.Changes

open Payments

/-- The event gives the completed request of the call another status. -/
def Call.reopens (c : Call) (event : Event) (m : ModificationRequest) : Bool :=
  match event, c.stage with
  | .check e, .loaded ownerOverride => disabled e ownerOverride c.request && paidMeanwhile e c.request
  | .check _, .claiming => unchecked m
  | .write _, .finishing request _ _ => request != .completed
  | _, _ => false

variable {b : Board} {c : Call} {w : World} {a : Action} {m : ModificationRequest}

theorem not_open_of_completed (h : m.status = .completed) :
    m.status ≠ .awaitingPayment ∧ m.status ≠ .pendingAdminApproval ∧ m.status ≠ .readyForHostaway := by
  rw [h]
  exact ⟨nofun, nofun, nofun⟩

theorem approvalRefusal_of_completed (e : Checks) (b : Board) (ownerOverride : Bool) (h : m.status = .completed) :
    (approvalRefusal e b ownerOverride m).isSome := by
  rw [Option.isSome_iff_ne_none]
  exact fun hn => approvalRefusal_none hn (not_open_of_completed h)

/-- The claim of a completed request is granted only where nothing is rechecked. -/
theorem prepareModification_completed (e : Checks) (b : Board) (h : m.status = .completed) :
    (prepareModification e b m).1.status = .completed ↔ unchecked m = false := by
  constructor
  · intro hc
    by_contra hu
    rw [(processing_of_unchecked (by simpa using hu)).2] at hc
    cases hc
  · intro hu
    unfold prepareModification
    dsimp only
    split_ifs with hr hb
    · exact h
    · exact h
    · rcases live_of_claimBlocker (not_not.1 hb) with ⟨hl, -⟩ | ⟨hcan, hown⟩
      · simp [isLive, isOpen, openStatuses, h] at hl
      · have hclaim := (claim_false m.operation).resolve_left hr
        simp [unchecked, hown, hclaim] at hu
        simp [hu] at hcan

theorem Call.rewritten_completed (b : Board) (c : Call) (event : Event) (h : m.status = .completed) :
    (c.rewritten b event m).status = .completed ↔ c.reopens event m = false := by
  obtain ⟨request, reservation, stage⟩ := c
  cases event with
  | send | reply => cases stage <;> simpa [Call.rewritten, Call.reopens] using h
  | check e =>
    cases stage with
    | loaded ownerOverride =>
      simp only [Call.rewritten, Call.reopens, approvalRefusal_of_completed e b ownerOverride h, if_true]
      split_ifs with hd hp
      · simp [hd, hp]
      · simpa [hd, hp] using h
      · simpa [hd] using h
    | claiming => exact prepareModification_completed e b h
    | orphaned => simp [Call.rewritten, Call.reopens, h]
    | executing | sending | sent | finishing | completing | orphanRefunded | done =>
      simpa [Call.rewritten, Call.reopens] using h
  | write now =>
    cases stage with
    | finishing => simp [Call.rewritten, Call.reopens, finishedRequest]
    | completing => simp [Call.rewritten, Call.reopens, completedRequest]
    | orphanRefunded => simp [Call.rewritten, Call.reopens, h]
    | loaded | executing | claiming | sending | sent | orphaned | done =>
      simpa [Call.rewritten, Call.reopens] using h

theorem supersede_of_completed (h : m.status = .completed) : supersede m = m := by
  simp [supersede, isOpen, openStatuses, h]

end Apartments.Hostaway.Changes

namespace Apartments.Expiration

open Payments Hostaway

namespace Office

/-- The action gives a completed request another status. -/
def reopensRow (w : Office) (a : Action) (m : ModificationRequest) : Bool :=
  match a with
  | .change (.event i event) => w.changes.calls[i]?.any fun c => m.pk == c.request.pk && c.reopens event m
  | .query i => w.sweeps[i]?.any fun s => s.writes && s.modificationIds.contains m.pk
  | _ => false

def reopens (w : Office) (a : Action) : Bool := w.requests.any fun m => m.status == .completed && w.reopensRow a m

/-- The request is completed. -/
def Completed (w : Office) (pk : Uuid) : Prop := (w.board.request pk).map (·.status) = some .completed

instance (w : Office) (pk : Uuid) : Decidable (w.Completed pk) :=
  inferInstanceAs (Decidable ((w.board.request pk).map (·.status) = some .completed))

end Office

variable {w : Office} {a : Action} {m : ModificationRequest} {pk : Uuid}

theorem Office.rewritten_completed (w : Office) (a : Action) (h : m.status = .completed) :
    (w.rewritten a m).status = .completed ↔ w.reopensRow a m = false := by
  cases a with
  | change a =>
    cases a with
    | quote given q =>
      simp only [Office.rewritten, Changes.World.rewritten, Office.reopensRow, Changes.supersede_of_completed h, ite_self,
        iff_true]
      exact h
    | ownerTotal k o =>
      have hr : Hostaway.ownerTotalRefusal w.changes.board o m ≠ none :=
        fun hn => Changes.ownerTotalRefusal_none hn (Changes.not_open_of_completed h)
      simpa [Office.rewritten, Changes.World.rewritten, Office.reopensRow, hr] using h
    | cancellation | execute | automatic => exact iff_of_true h rfl
    | event i event =>
      simp only [Office.rewritten, Changes.World.rewritten, Office.reopensRow]
      cases w.changes.calls[i]? with
      | none => exact iff_of_true h rfl
      | some c =>
        by_cases hk : m.pk = c.request.pk
        · simpa [hk] using Changes.Call.rewritten_completed w.changes.board c event h
        · simpa [hk] using h
  | snapshot d s =>
    refine iff_of_true ?_ rfl
    simp only [Office.rewritten, Office.reconciled, reconcile]
    split_ifs <;> first | exact h | rfl
  | reject k =>
    refine iff_of_true ?_ rfl
    simp only [Office.rewritten, rejectLocally, h, true_or, if_true, ite_self]
  | query i =>
    simp only [Office.rewritten, Office.reopensRow]
    cases w.sweeps[i]? with
    | none => exact iff_of_true h rfl
    | some s =>
      by_cases hs : s.writes <;> by_cases hm : m.pk ∈ s.modificationIds <;>
        simp [expireModification, hs, hm, h]
  | consume | verified | confirmed | cancelled | sweep => exact iff_of_true h rfl

/-- A step keeps what is completed exactly if it reopens nothing. -/
theorem Office.reopens_iff (h : Changes.Keyed w.board) (a : Action) :
    w.reopens a = false ↔ ∀ pk, w.Completed pk → (w.step a).Completed pk := by
  constructor
  · intro hr pk hc
    obtain ⟨m, hm, hs⟩ := Option.map_eq_some_iff.1 hc
    simp only [Office.reopens, List.any_eq_false, Bool.and_eq_true, beq_iff_eq, not_and, Bool.not_eq_true] at hr
    exact Option.map_eq_some_iff.2
      ⟨_, Office.request_step h a hm, (Office.rewritten_completed w a hs).2 (hr m (Table.mem_of_get hm) hs)⟩
  · intro hk
    by_contra hr
    simp only [Office.reopens, Bool.not_eq_false, List.any_eq_true, Bool.and_eq_true, beq_iff_eq] at hr
    obtain ⟨m, hmem, hs, hre⟩ := hr
    have hm : w.board.request m.pk = some m := Table.get_eq_of_mem h hmem
    obtain ⟨m', hm', hs'⟩ := Option.map_eq_some_iff.1 (hk m.pk (Option.map_eq_some_iff.2 ⟨m, hm, hs⟩))
    obtain rfl := Option.some.inj ((Office.request_step h a hm).symm.trans hm')
    rw [(Office.rewritten_completed w a hs).1 hs'] at hre
    cases hre

open Machine in
/-- A completed request stays completed in a run exactly if no action of the run reopens one. -/
theorem completed_is_final {w : Office} (h : Changes.Keyed w.board) (as : List Action) :
    Meets Office.step (fun w a => w.reopens a = false) w as ↔
      ∀ n k pk, n ≤ k → (run Office.step w (as.take n)).Completed pk → (run Office.step w (as.take k)).Completed pk :=
  meets_iff_stays (fun _ a h => Office.step_keyed h a) (fun _ a h => Office.reopens_iff h a) h

/-! ### A change whose update times out -/

/-- The request is claimed and its update is sent. -/
def sentRun : List Action :=
  [.change (.quote Changes.stay (Changes.shorter Changes.firstRequest 3 10)),
   .change (.automatic Changes.firstRequest false), .change (.event 0 (.check (Changes.liveChecks 11))),
   .change (.event 0 (.check (Changes.liveChecks 12))), .change (.event 0 (.check (Changes.liveChecks 13))),
   .change (.event 0 .send)]

/-- What Hostaway has for the shorter stay. -/
def shorterStay : Snapshot := ⟨77001, 40161, some 2000, "modified", 100, 103, 2, "SAR", 900, "paid", some 20⟩

def webhook (now : Time) : Action := .snapshot ⟨none, "direct", now⟩ shorterStay

/-- The answer is read and written, and a webhook of the same stay follows. -/
def answeredRun : List Action :=
  [.change (.event 0 (.reply (.updated shorterStay))), .change (.event 0 (.write 14)), webhook 15]

theorem completed_is_final_answered :
    (Machine.run Office.step changeOffice (sentRun ++ answeredRun)).Completed Changes.firstRequest ∧
      ∀ n k, n ≤ k → (Machine.run Office.step changeOffice ((sentRun ++ answeredRun).take n)).Completed Changes.firstRequest →
        (Machine.run Office.step changeOffice ((sentRun ++ answeredRun).take k)).Completed Changes.firstRequest :=
  ⟨by decide +kernel,
    fun n k => (completed_is_final changeOffice_keyed (sentRun ++ answeredRun)).1 (by decide +kernel) n k Changes.firstRequest⟩

/-- The update times out although it was applied, and the webhook comes before the execution writes its outcome. -/
def timedOutRun : List Action :=
  sentRun ++ [.change (.event 0 (.reply .uncertain)), webhook 14]

theorem completed_request_reopened :
    (Machine.run Office.step changeOffice timedOutRun).Completed Changes.firstRequest ∧
      ((Machine.run Office.step changeOffice (timedOutRun ++ [.change (.event 0 (.write 15))])).board.request
        Changes.firstRequest).map (·.status) = some .unknown := by
  decide +kernel

end Apartments.Expiration
