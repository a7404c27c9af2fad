import Apartments.Reservations.PaidChanges

/-!
# Updates behind a payment

`_complete_success` revalidates a change only while its request waits for the payment, and a revalidation that fails
parks it in another status. The call of `execute_automatic_modification` accepts more statuses than that check covers:
`bypasses` is the approval of a change for a visit that has not revalidated it, and without it every update behind a
payment was revalidated by the visit that sent it.
-/

namespace Apartments.Differences

open Payments Hostaway HyperPay Expiration

/-- An execution that no payment stands behind. -/
def Action.executes : Action → Bool
  | .office (.change a) => a.starts
  | .office _ | .checkout _ | .verify _ | .visit .. => false

namespace Till

/-- The approving transaction lets the call pass. -/
def approves (t : Till) (e : Checks) (c : Changes.Call) : Bool :=
  match c.stage with
  | .loaded ownerOverride =>
    !Changes.disabled e ownerOverride c.request &&
      (t.board.request c.request.pk).any fun m => approvalRefusal e t.board ownerOverride m == none
  | _ => false

/-- A change is approved for a visit that has not revalidated it. -/
def bypasses (t : Till) : Action → Bool
  | .office (.change (.event j (.check e))) =>
    t.visits.contains (.executing j false) &&
      t.office.changes.calls[j]?.any fun c => t.approves { e with payments := t.desk.payments } c
  | _ => false

end Till

/-- The call has not passed the approving transaction. -/
def waits (s : Changes.Stage) : Bool :=
  match s with
  | .loaded _ | .done _ => true
  | _ => false

/-- A call behind a visit that has not revalidated waits for ever. -/
structure Guarded (t : Till) : Prop where
  waiting : ∀ j, .executing j false ∈ t.visits → ∃ c, t.office.changes.calls[j]? = some c ∧ waits c.stage = true
  behind : ∀ j c, t.office.changes.calls[j]? = some c → ∃ revalidated, .executing j revalidated ∈ t.visits
  sends : ∀ s ∈ t.sends, s.2 = some true

variable {t : Till} {a : Action}

theorem Till.origin_mem {j : ℕ} {revalidated : Bool} (h : t.origin j = some revalidated) :
    .executing j revalidated ∈ t.visits := by
  obtain ⟨v, hv, he⟩ := List.exists_of_findSome?_eq_some h
  cases v with
  | executing k r =>
    simp only at he
    split_ifs at he with hk
    rw [← hk, ← Option.some.inj he]
    exact hv
  | asking | completing | revalidating | parking | paying | done => cases he

theorem Till.origin_isSome {j : ℕ} {revalidated : Bool} (h : .executing j revalidated ∈ t.visits) : (t.origin j).isSome := by
  rw [Option.isSome_iff_ne_none]
  intro hn
  have := List.findSome?_eq_none_iff.1 hn _ h
  simp at this

/-- A call that waits stays a call that waits, unless it is approved. -/
theorem waits_of_advance {b b' : Board} {c c' : Changes.Call} {event : Changes.Event}
    (h : Changes.advance b c event = some (b', c')) (hw : waits c.stage = true)
    (hok : ∀ e ownerOverride m, event = .check e → c.stage = .loaded ownerOverride →
      Changes.disabled e ownerOverride c.request = false → b.request c.request.pk = some m →
      approvalRefusal e b ownerOverride m ≠ none) : waits c'.stage = true := by
  obtain ⟨request, reservation, stage⟩ := c
  cases stage with
  | executing | claiming | sending | sent | finishing | completing | orphaned | orphanRefunded => cases hw
  | done code =>
    cases event with
    | check | send | reply => cases h
    | write now => simp only [Changes.advance, Changes.conclude] at h; split at h <;> simp_all
  | loaded ownerOverride =>
    cases event with
    | send | reply => cases h
    | write now => simp only [Changes.advance, Changes.conclude] at h; split at h <;> simp_all
    | check e =>
      simp only [Changes.advance, Changes.approve] at h
      split at h
      · cases h
        rfl
      · rename_i hd
        split at h
        · cases h
        · rename_i m hm
          split at h
          · cases h
            rfl
          · rename_i hr
            exact absurd hr (hok e ownerOverride m rfl rfl (by simpa using hd) hm)

/-! ### Steps -/

theorem mem_set_of_ne {α : Type} {l : List α} {i : ℕ} {x y b : α} (hi : l[i]? = some y) (hb : b ∈ l) (hne : b ≠ y) :
    b ∈ l.set i x := by
  obtain ⟨k, hk⟩ := List.mem_iff_getElem?.1 hb
  have hki : i ≠ k := by
    rintro rfl
    exact hne (Option.some.inj (hk.symm.trans hi))
  exact List.mem_iff_getElem?.2 ⟨k, (List.getElem?_set_ne hki).trans hk⟩

/-- Calls and sends stay, and what the visits lose or gain is behind no call. -/
theorem Guarded.visits (h : Guarded t) {t' : Till} (hc : t'.office.changes.calls = t.office.changes.calls)
    (hs : t'.sends = t.sends) (hv : ∀ j r, .executing j r ∈ t'.visits ↔ .executing j r ∈ t.visits) : Guarded t' := by
  refine ⟨fun j hj => ?_, fun j c hj => ?_, by rw [hs]; exact h.sends⟩
  · rw [hc]
    exact h.waiting j ((hv j false).1 hj)
  · rw [hc] at hj
    obtain ⟨r, hr⟩ := h.behind j c hj
    exact ⟨r, (hv j r).2 hr⟩

/-- A visit that goes on to no call. -/
theorem Guarded.stay (h : Guarded t) {t' : Till} {i : ℕ} {stage : Stage} (next : Stage) (hi : t.visits[i]? = some stage)
    (hst : ∀ j r, stage ≠ .executing j r) (hnext : ∀ j r, next ≠ .executing j r)
    (hc : t'.office.changes.calls = t.office.changes.calls) (hs : t'.sends = t.sends) (hv : t'.visits = t.visits.set i next) :
    Guarded t' := by
  refine h.visits hc hs fun j r => ?_
  rw [hv]
  constructor
  · intro hm
    exact (List.mem_or_eq_of_mem_set hm).resolve_right (hnext j r).symm
  · intro hm
    exact mem_set_of_ne hi hm (hst j r).symm

/-- The visit starts its call. -/
theorem Guarded.execute (h : Guarded t) {i : ℕ} {stage : Stage} (hi : t.visits[i]? = some stage)
    (hst : ∀ j r, stage ≠ .executing j r) (m : ModificationRequest) (r : Reservation) (revalidated : Bool) :
    Guarded (t.execute i m r revalidated) := by
  have hlen : i < t.visits.length := (List.getElem?_eq_some_iff.1 hi).1
  refine ⟨fun j hj => ?_, fun j c hj => ?_, h.sends⟩
  · rcases List.mem_or_eq_of_mem_set hj with hj | hj
    · obtain ⟨c, hc, hw⟩ := h.waiting j hj
      exact ⟨c, (List.getElem?_append_left (List.getElem?_eq_some_iff.1 hc).1).trans hc, hw⟩
    · cases hj
      exact ⟨⟨m, r, .loaded false⟩, List.getElem?_concat_length, rfl⟩
  · by_cases hjl : j < t.office.changes.calls.length
    · have hold : t.office.changes.calls[j]? = some c := (List.getElem?_append_left hjl).symm.trans hj
      obtain ⟨r', hr'⟩ := h.behind j c hold
      exact ⟨r', mem_set_of_ne hi hr' (hst j r').symm⟩
    · have hjl' : j = t.office.changes.calls.length := by
        have := (List.getElem?_eq_some_iff.1 hj).1
        simp only [Till.execute, List.length_append, List.length_singleton] at this
        omega
      subst hjl'
      exact ⟨revalidated, List.mem_iff_getElem?.2 ⟨i, List.getElem?_set_self hlen⟩⟩

theorem Stage.after_ne (done : Option Completion) (j : ℕ) (r : Bool) : Stage.after done ≠ .executing j r := by
  unfold Stage.after
  split <;> rintro ⟨⟩

theorem Guarded.visit (h : Guarded t) {i : ℕ} {stage : Stage} (hi : t.visits[i]? = some stage) (event : Event) :
    Guarded (t.visit i stage event) := by
  unfold Till.visit
  split
  · unfold Till.documented
    split
    · exact h.stay .done hi (by rintro _ _ ⟨⟩) (by rintro _ _ ⟨⟩) rfl rfl rfl
    · split
      · exact h.stay .done hi (by rintro _ _ ⟨⟩) (by rintro _ _ ⟨⟩) rfl rfl rfl
      · split
        · exact h.stay .done hi (by rintro _ _ ⟨⟩) (by rintro _ _ ⟨⟩) rfl rfl rfl
        · exact h.stay (Stage.after _) hi (by rintro _ _ ⟨⟩) (Stage.after_ne _) rfl rfl rfl
  · split
    · exact h.stay .done hi (by rintro _ _ ⟨⟩) (by rintro _ _ ⟨⟩) rfl rfl rfl
    · split
      · exact h.stay (.revalidating _ _ _) hi (by rintro _ _ ⟨⟩) (by rintro _ _ ⟨⟩) rfl rfl rfl
      · exact h.execute hi (by rintro _ _ ⟨⟩) ..
  · simp only [Till.answered]
    split_ifs
    · exact h.stay (.paying _) hi (by rintro _ _ ⟨⟩) (by rintro _ _ ⟨⟩) rfl rfl rfl
    · exact h.execute hi (by rintro _ _ ⟨⟩) ..
    · cases refusedStatus _ <;> exact h.stay .done hi (by rintro _ _ ⟨⟩) (by rintro _ _ ⟨⟩) rfl rfl rfl
    · cases refusedStatus _ <;> exact h.stay (.parking _) hi (by rintro _ _ ⟨⟩) (by rintro _ _ ⟨⟩) rfl rfl rfl
  · exact h.stay .done hi (by rintro _ _ ⟨⟩) (by rintro _ _ ⟨⟩) rfl rfl rfl
  · split <;> exact h.stay .done hi (by rintro _ _ ⟨⟩) (by rintro _ _ ⟨⟩) rfl rfl rfl
  · exact h

theorem approves_iff {e : Checks} {c : Changes.Call} {ownerOverride : Bool} {m : ModificationRequest}
    (hs : c.stage = .loaded ownerOverride) (hd : Changes.disabled e ownerOverride c.request = false)
    (hm : t.board.request c.request.pk = some m) :
    t.approves e c = true ↔ approvalRefusal e t.board ownerOverride m = none := by
  simp [Till.approves, hs, hd, hm]

/-- What a call makes of its event, read by the office. -/
theorem informed_event {j : ℕ} {a : Changes.Action} {event : Changes.Event}
    (h : t.informed (.change a) = .change (.event j event)) :
    (∃ e, a = .event j (.check e) ∧ event = .check { e with payments := t.desk.payments }) ∨
      a = .event j event ∧ ∀ e, event ≠ .check e := by
  cases a with
  | event i event' =>
    cases event' with
    | check e =>
      obtain ⟨rfl, rfl⟩ := Changes.Action.event.inj (Expiration.Action.change.inj h)
      exact .inl ⟨e, rfl, rfl⟩
    | send | reply | write =>
      obtain ⟨rfl, rfl⟩ := Changes.Action.event.inj (Expiration.Action.change.inj h)
      exact .inr ⟨rfl, fun e => Changes.Event.noConfusion⟩
  | quote | ownerTotal | cancellation | execute | automatic =>
    cases Expiration.Action.change.inj h

theorem informed_change (t : Till) (a : Changes.Action) : ∃ a', t.informed (.change a) = .change a' ∧ a'.starts = a.starts := by
  cases a with
  | event i event => cases event <;> exact ⟨_, rfl, rfl⟩
  | quote | ownerTotal | cancellation | execute | automatic => exact ⟨_, rfl, rfl⟩

/-- A call that a visit has not revalidated waits on after a step of the office. -/
theorem Guarded.waiting_office (h : Guarded t) {a : Expiration.Action} (hok : t.bypasses (.office a) = false) {j : ℕ}
    (hj : .executing j false ∈ t.visits) :
    ∃ c, (t.step (.office a)).office.changes.calls[j]? = some c ∧ waits c.stage = true := by
  obtain ⟨c, hc, hw⟩ := h.waiting j hj
  show ∃ c, (t.office.step (t.informed a)).changes.calls[j]? = some c ∧ _
  rw [Office.calls_step]
  cases a with
  | change a =>
    obtain ⟨a', ha', -⟩ := informed_change t a
    rw [ha']
    rcases Changes.World.call_step hc a' with hsame | ⟨event, b', c', rfl, ha, hc'⟩
    · exact ⟨c, hsame, hw⟩
    · refine ⟨c', hc', waits_of_advance ha hw ?_⟩
      rintro e ownerOverride m rfl hs hd hm hr
      rcases informed_event ha' with ⟨e, rfl, he⟩ | ⟨-, hne⟩
      · cases he
        rw [Till.bypasses, hc, Option.any_some, Bool.and_eq_false_iff] at hok
        rcases hok with hok | hok
        · simp [hj] at hok
        · rw [(approves_iff hs hd hm).2 hr] at hok
          cases hok
      · exact hne e rfl
  | snapshot | reject | consume | verified | confirmed | cancelled | sweep | query => exact ⟨c, hc, hw⟩

/-- The office starts no call and moves no visit. -/
theorem Guarded.behind_office (h : Guarded t) {a : Expiration.Action} (hx : Action.executes (.office a) = false) {j : ℕ}
    {c : Changes.Call} (hj : (t.step (.office a)).office.changes.calls[j]? = some c) :
    ∃ revalidated, .executing j revalidated ∈ t.visits := by
  have hlen : (t.step (.office a)).office.changes.calls.length = t.office.changes.calls.length := by
    show (t.office.step (t.informed a)).changes.calls.length = _
    rw [Office.calls_step]
    cases a with
    | change a =>
      obtain ⟨a', ha', hs⟩ := informed_change t a
      rw [ha']
      exact Changes.World.length_step (hs.trans hx)
    | snapshot | reject | consume | verified | confirmed | cancelled | sweep | query => rfl
  have hlt : j < t.office.changes.calls.length := hlen ▸ (List.getElem?_eq_some_iff.1 hj).1
  exact h.behind j _ (List.getElem?_eq_getElem hlt)

/-- What is sent, a visit stands behind that has revalidated it. -/
theorem Guarded.sent (h : Guarded t) {a : Expiration.Action} {s : Uuid × Option Bool} (hs : s ∈ t.sent a) :
    s.2 = some true := by
  unfold Till.sent at hs
  split at hs
  · rename_i j
    split at hs
    · rename_i c hc
      split_ifs at hs with hst
      · obtain rfl := List.mem_singleton.1 hs
        obtain ⟨r, hr⟩ := h.behind j c hc
        obtain ⟨revalidated, ho⟩ := Option.isSome_iff_exists.1 (Till.origin_isSome hr)
        cases revalidated with
        | true => exact ho
        | false =>
          obtain ⟨c', hc', hw⟩ := h.waiting j (Till.origin_mem ho)
          obtain rfl := Option.some.inj (hc'.symm.trans hc)
          rw [hst] at hw
          cases hw
      · cases hs
    · cases hs
  · cases hs

theorem Guarded.office (h : Guarded t) {a : Expiration.Action} (hx : Action.executes (.office a) = false)
    (hok : t.bypasses (.office a) = false) : Guarded (t.step (.office a)) := by
  refine ⟨fun j hj => h.waiting_office hok hj, fun j c hj => h.behind_office hx hj, fun s hs => ?_⟩
  rcases List.mem_append.1 hs with hs | hs
  · exact h.sends s hs
  · exact h.sent hs

theorem Guarded.step (h : Guarded t) (hx : a.executes = false) (hok : t.bypasses a = false) : Guarded (t.step a) := by
  cases a with
  | office a => exact h.office hx hok
  | checkout request =>
    simp only [Till.step]
    split
    · exact h
    · exact h.visits rfl rfl fun j r => by simp
  | verify attempt =>
    simp only [Till.step]
    split
    · exact h
    · split
      · exact h.visits rfl rfl fun j r => by simp
      · exact h.visits rfl rfl fun j r => by simp
      · exact h
      · exact h
      · exact h
  | visit i event =>
    simp only [Till.step]
    cases hi : t.visits[i]? with
    | none => exact h
    | some stage => exact h.visit hi event

/-- No call is under way and no visit. -/
structure Till.Idle (t : Till) : Prop where
  calls : t.office.changes.calls = []
  visits : t.visits = []
  sends : t.sends = []

theorem Till.Idle.guarded (h : t.Idle) : Guarded t :=
  ⟨by simp [h.visits], by simp [h.calls], by simp [h.sends]⟩

open Machine in
/-- As long as no change is approved for a visit that skipped the revalidation, every update was revalidated by the visit
that sent it. -/
theorem updates_are_revalidated {t : Till} (h : t.Idle) (as : List Action) (hx : ∀ a ∈ as, a.executes = false)
    (hok : Meets Till.step (fun t a => t.bypasses a = false) t as) : ∀ s ∈ (run Till.step t as).sends, s.2 = some true := by
  suffices hg : ∀ (as : List Action) (t : Till), Guarded t → (∀ a ∈ as, a.executes = false) →
      Meets Till.step (fun t a => t.bypasses a = false) t as → Guarded (run Till.step t as) from
    (hg as t h.guarded hx hok).sends
  intro as
  induction as with
  | nil => exact fun _ h _ _ => h
  | cons a as ih =>
    intro t h hx hok
    obtain ⟨ha, hx⟩ := List.forall_mem_cons.1 hx
    exact ih _ (h.step ha hok.1) hx hok.2

/-! ### A paid change that was not ready -/

def check (now : Time) : Action := .office (.change (.event 0 (.check (Changes.liveChecks now))))

/-- The call is approved, examined and claimed, and sends its update. -/
def updateRun : List Action := [check 16, check 17, check 18, .office (.change (.event 0 .send))]

/-- The difference is paid, and `verify` revalidates the change. -/
def revalidatedRun (quoteCode : String) : List Action :=
  checkoutRun ++ verifiedRun ++ [.visit 1 .load, .visit 1 (.answer 15 quoteCode)]

theorem emptyTill_idle : emptyTill.Idle := ⟨rfl, rfl, rfl⟩

theorem updates_are_revalidated_ready :
    (Machine.run Till.step emptyTill (revalidatedRun "ready" ++ updateRun)).sends.length = 1 ∧
      ∀ s ∈ (Machine.run Till.step emptyTill (revalidatedRun "ready" ++ updateRun)).sends, s.2 = some true :=
  ⟨by decide +kernel, updates_are_revalidated emptyTill_idle (revalidatedRun "ready" ++ updateRun) (by decide +kernel)
    (by decide +kernel)⟩

/-- Hostaway cannot be reached, the request is parked, and `verify` is called again. -/
def repeatedRun : List Action :=
  revalidatedRun "hostaway_temporarily_unavailable" ++ [.visit 1 .park, .verify attemptPk, .visit 2 .load] ++ updateRun

theorem parked_change_sent :
    ((Machine.run Till.step emptyTill (repeatedRun.take 9)).board.request Changes.firstRequest).map (·.status) =
        some .pendingAdminApproval ∧
      (Machine.run Till.step emptyTill repeatedRun).sends = [(Changes.firstRequest, some false)] := by
  decide +kernel

end Apartments.Differences
