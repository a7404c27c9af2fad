import Apartments.HyperPay.Gateway
import Apartments.Reservations.Till

/-!
# Paid changes

The money of a price difference is in the payment attempts, the fate of the change in the status of its request, and
the writers of the status do not look at the attempts. `drops` lists what takes a paid request out of the statuses in
which the change still goes on or an administrator sees it: a new quote supersedes it, a sweep expires it, a revalidation
withdraws it, the provider or an administrator rejects it, or the money comes when the request has left already.
-/

namespace Apartments.Hostaway.Changes

/-- The outcome that the call writes is the end of a change that was paid. -/
def Call.loses (c : Call) (event : Event) (kept : RequestStatus → Bool) : Bool :=
  match event, c.stage with
  | .write _, .finishing request _ _ => !kept request
  | _, _ => false

end Apartments.Hostaway.Changes

namespace Apartments.Differences

open Payments Hostaway HyperPay Expiration

/-- The change is made, goes on, or waits for an administrator. -/
def goesOn (s : RequestStatus) : Bool :=
  s == .completed || s == .processing || s == .unknown || s == .readyForHostaway || s == .awaitingPayment ||
    s == .pendingAdminApproval

namespace Till

/-- The difference was paid and nothing is owed back for it. -/
def holdsMoney (t : Till) (pk : Uuid) : Bool :=
  (t.desk.payments.any fun p => p.modificationRequest == some pk && p.status == .succeeded) &&
    !t.desk.obligations.any (·.modificationRequest == some pk)

/-- The action ends a change that goes on. -/
def ends (w : Office) (a : Expiration.Action) (m : ModificationRequest) : Bool :=
  match a with
  | .change (.quote given q) => (persistPricedRequest w.board given q).isOk && isOpen m && !isCancellation m
  | .change (.event i event) => w.changes.calls[i]?.any fun c => m.pk == c.request.pk && c.loses event goesOn
  | .reject pk => m.pk == pk && m.status != .completed
  | .query i => w.sweeps[i]?.any fun s => s.writes && s.modificationIds.contains m.pk
  | _ => false

/-- The document makes money of an attempt whose request has left already. -/
def comesLate (t : Till) (attempt : Uuid) (paymentRequest : Option Uuid) (settings : Settings) (document : Document)
    (now : Time) : Bool :=
  !stillPending paymentRequest document && (t.desk.payment attempt).any fun p =>
    !verifiedSuccess p && !idTaken t.desk (rewritten settings document now p) &&
      verifiedClass settings p document == .success &&
      t.requests.any fun m =>
        p.modificationRequest == some m.pk && !t.desk.obligations.any (·.modificationRequest == some m.pk) &&
          !goesOn m.status

/-- The action leaves the money of a difference with a request that has ended otherwise. -/
def drops (t : Till) : Action → Bool
  | .office a => t.requests.any fun m => t.holdsMoney m.pk && ends t.office a m
  | .visit i event =>
    match t.visits[i]?, event with
    | some (.asking attempt paymentRequest), .document settings document now =>
      t.comesLate attempt paymentRequest settings document now
    | some (.revalidating m r _), .answer now quoteCode =>
      (refusedStatus (revalidateForPayment m r now quoteCode)).isSome && t.holdsMoney m.pk &&
        (t.board.request m.pk).any (·.status == .awaitingPayment)
    | _, _ => false
  | .checkout _ | .verify _ => false

/-- Whatever has been paid goes on, or is owed back. -/
def Honest (t : Till) : Prop := ∀ m ∈ t.requests, t.holdsMoney m.pk = true → goesOn m.status = true

instance (t : Till) : Decidable t.Honest := inferInstanceAs (Decidable (∀ m ∈ t.requests, _ → _))

/-- The keys of the requests and of the attempts are primary keys. -/
structure Keyed (t : Till) : Prop where
  requests : Changes.Keyed t.board
  payments : (t.desk.payments.map (·.pk)).Nodup

end Till

variable {t : Till} {w : Office} {m : ModificationRequest}

/-! ### Steps of the office -/

theorem approvedRow_goesOn (now : Time) (m : ModificationRequest) : goesOn (approvedRow now m).status = true := by
  unfold approvedRow
  split
  · rename_i h
    simp [goesOn, h.1]
  · rfl

theorem prepareModification_goesOn (e : Checks) (b : Board) (h : goesOn m.status = true) :
    goesOn (prepareModification e b m).1.status = true := by
  unfold prepareModification
  dsimp only
  split_ifs
  · exact h
  · exact h
  · rfl

theorem Call.rewritten_goesOn (b : Board) (c : Changes.Call) (event : Changes.Event) (h : goesOn m.status = true) :
    goesOn (c.rewritten b event m).status = true ↔ c.loses event goesOn = false := by
  obtain ⟨request, reservation, stage⟩ := c
  cases event with
  | send | reply => exact iff_of_true (by cases stage <;> exact h) rfl
  | check e =>
    refine iff_of_true ?_ rfl
    cases stage with
    | loaded ownerOverride =>
      simp only [Changes.Call.rewritten]
      split_ifs
      · rfl
      · exact h
      · exact h
      · exact approvedRow_goesOn _ _
    | claiming => exact prepareModification_goesOn e b h
    | orphaned =>
      simp only [Changes.Call.rewritten]
      split_ifs
      · exact h
      · split
        · rfl
        · exact h
        · exact h
    | executing | sending | sent | finishing | completing | orphanRefunded | done => exact h
  | write now =>
    cases stage with
    | finishing request operation code => simp [Changes.Call.rewritten, Changes.Call.loses, finishedRequest]
    | completing => exact iff_of_true rfl rfl
    | orphanRefunded =>
      refine iff_of_true ?_ rfl
      simp only [Changes.Call.rewritten]
      split_ifs
      · exact h
      · rfl
    | loaded | executing | claiming | sending | sent | orphaned | done => exact iff_of_true h rfl

theorem Office.rewritten_goesOn (w : Office) (a : Expiration.Action) (h : goesOn m.status = true) :
    goesOn (w.rewritten a m).status = true ↔ Till.ends w a m = false := by
  cases a with
  | change a =>
    cases a with
    | quote given q =>
      simp only [Office.rewritten, Changes.World.rewritten, Till.ends, supersede, Office.board]
      by_cases hq : (persistPricedRequest w.changes.board given q).isOk = true
      · by_cases ho : (isOpen m && !isCancellation m) = true
        · simp [hq, ho]; rfl
        · simp [hq, ho, h]
      · simp [hq, h]
    | ownerTotal k o =>
      refine iff_of_true ?_ rfl
      simp only [Office.rewritten, Changes.World.rewritten]
      split_ifs
      · rfl
      · exact h
    | cancellation | execute | automatic => exact iff_of_true h rfl
    | event i event =>
      simp only [Office.rewritten, Changes.World.rewritten, Till.ends]
      cases w.changes.calls[i]? with
      | none => exact iff_of_true h rfl
      | some c =>
        by_cases hk : m.pk = c.request.pk
        · simpa [hk] using Call.rewritten_goesOn w.changes.board c event h
        · simpa [hk] using h
  | snapshot d s =>
    refine iff_of_true ?_ rfl
    simp only [Office.rewritten, Office.reconciled, reconcile]
    split_ifs <;> first | exact h | rfl
  | reject k =>
    simp only [Office.rewritten, Till.ends, rejectLocally]
    by_cases hk : m.pk = k
    · by_cases hs : m.status = .completed
      · simpa [hk, hs] using h
      · have hr : m.status ≠ .rejected := by rintro hr; rw [hr] at h; cases h
        simp [hk, hs, hr]; rfl
    · simpa [hk] using h
  | query i =>
    simp only [Office.rewritten, Till.ends]
    cases w.sweeps[i]? with
    | none => exact iff_of_true h rfl
    | some s =>
      by_cases hs : s.writes <;> by_cases hm : m.pk ∈ s.modificationIds <;>
        simp [expireModification, hs, hm, h]
      rfl
  | consume | verified | confirmed | cancelled | sweep => exact iff_of_true h rfl

/-! ### Steps of the till -/

theorem added_goesOn {a : Expiration.Action} (h : m ∈ w.added a) : goesOn m.status = true := by
  cases a with
  | change a =>
    cases a with
    | quote given q =>
      simp only [Office.added, Changes.World.added] at h
      split_ifs at h
      · rw [List.mem_singleton.1 h]
        simp only [quotedRequest, quotedStatus]
        split_ifs <;> rfl
      · cases h
    | cancellation q =>
      simp only [Office.added, Changes.World.added] at h
      split_ifs at h
      · rw [List.mem_singleton.1 h]
        simp only [cancellationRequest]
        split_ifs <;> rfl
      · cases h
    | ownerTotal | execute | automatic | event => cases h
  | snapshot | reject | consume | verified | confirmed | cancelled | sweep | query => cases h

/-- What an action must keep, where the money stays where it is and every request is rewritten by `f`. -/
theorem Till.honest_map {t' : Till} {f : ModificationRequest → ModificationRequest} {new : List ModificationRequest}
    (hreq : t'.requests = t.requests.map f ++ new) (hpk : ∀ m, (f m).pk = m.pk)
    (hmoney : ∀ pk, t'.holdsMoney pk = t.holdsMoney pk) (hnew : ∀ m ∈ new, goesOn m.status = true) :
    t'.Honest ↔ ∀ m ∈ t.requests, t.holdsMoney m.pk = true → goesOn (f m).status = true := by
  constructor
  · intro h m hm hmon
    refine h (f m) ?_ (by rwa [hmoney, hpk])
    rw [hreq]
    exact List.mem_append_left _ (List.mem_map_of_mem hm)
  · intro h m' hm' hmon
    rw [hreq] at hm'
    rcases List.mem_append.1 hm' with hm' | hm'
    · obtain ⟨m, hm, rfl⟩ := List.mem_map.1 hm'
      rw [hmoney, hpk] at hmon
      exact h m hm hmon
    · exact hnew m' hm'

theorem Till.honest_congr {t' : Till} (hreq : t'.requests = t.requests) (hmoney : ∀ pk, t'.holdsMoney pk = t.holdsMoney pk) :
    t'.Honest ↔ t.Honest := by
  simp only [Till.Honest, hreq, hmoney]

theorem Till.ends_informed (t : Till) (a : Expiration.Action) (m : ModificationRequest) :
    Till.ends t.office (t.informed a) m = Till.ends t.office a m := by
  unfold Till.informed
  split
  · simp only [Till.ends]
    rfl
  · rfl

theorem Till.drops_office (hk : t.Keyed) (h : t.Honest) (a : Expiration.Action) :
    t.drops (.office a) = false ↔ (t.step (.office a)).Honest := by
  have hmap : (t.step (.office a)).Honest ↔ _ :=
    Till.honest_map (Office.step_requests hk.requests (t.informed a)) (Office.rewritten_pk t.office (t.informed a))
      (fun _ => rfl) (fun m hm => added_goesOn hm)
  rw [hmap]
  simp only [Till.drops, List.any_eq_false, Bool.and_eq_true, not_and, Bool.not_eq_true]
  refine forall₂_congr fun m hm => forall_congr' fun hmon => ?_
  rw [← Till.ends_informed, Office.rewritten_goesOn _ _ (h m hm hmon)]

/-- Writing a document over one attempt leaves the money of the others, and adds its own if it is verified. -/
theorem holdsMoney_written {d : Desk} {p : PaymentAttempt} {settings : Settings} {document : Document} {now : Time}
    {pk : Uuid} (hk : (d.payments.map (·.pk)).Nodup) (hp : d.payment p.pk = some p) :
    ((d.modifyPayment p.pk (rewritten settings document now)).payments.any fun q =>
        q.modificationRequest == some pk && q.status == .succeeded) = true ↔
      (∃ q ∈ d.payments, q.pk ≠ p.pk ∧ q.modificationRequest = some pk ∧ q.status = .succeeded) ∨
        p.modificationRequest = some pk ∧ verifiedClass settings p document = .success := by
  have hstatus : ∀ c, statusOf c = .succeeded ↔ c = .success := fun c => by cases c <;> simp [statusOf]
  simp only [List.any_eq_true, Bool.and_eq_true, beq_iff_eq]
  constructor
  · rintro ⟨q', hq', hm, hs⟩
    obtain ⟨q, hq, rfl⟩ := Table.mem_modify.1 hq'
    by_cases hqp : q.pk = p.pk
    · obtain rfl := Table.eq_of_mem_of_key hk hq (Table.mem_of_get hp) hqp
      rw [if_pos rfl] at hm hs
      exact .inr ⟨hm, (hstatus _).1 hs⟩
    · rw [if_neg hqp] at hm hs
      exact .inl ⟨q, hq, hqp, hm, hs⟩
  · rintro (⟨q, hq, hqp, hm, hs⟩ | ⟨hm, hc⟩)
    · exact ⟨q, Table.mem_modify_of_ne hq hqp, hm, hs⟩
    · exact ⟨_, Table.mem_modify.2 ⟨p, Table.mem_of_get hp, rfl⟩, by simpa [rewritten] using hm,
        by simp [rewritten, hc, statusOf]⟩

/-- The desk and the requests decide whether a till is honest. -/
theorem Till.Honest.congr {t' : Till} (h : t.Honest) (hreq : t'.requests = t.requests) (hdesk : t'.desk = t.desk) :
    t'.Honest :=
  (Till.honest_congr hreq fun pk => by rw [Till.holdsMoney, hdesk]; rfl).2 h

/-- What a till whose attempt is written must keep. -/
theorem Till.honest_written (hk : t.Keyed) (h : t.Honest) {t' : Till} {p : PaymentAttempt} (settings : Settings)
    (document : Document) (now : Time) (hp : t.desk.payment p.pk = some p) (hreq : t'.requests = t.requests)
    (hdesk : t'.desk = t.desk.modifyPayment p.pk (rewritten settings document now)) :
    t'.Honest ↔ ¬(verifiedClass settings p document = .success ∧ ∃ m ∈ t.requests, p.modificationRequest = some m.pk ∧
      t.desk.obligations.any (·.modificationRequest == some m.pk) = false ∧ goesOn m.status = false) := by
  simp only [Till.Honest, hreq, Till.holdsMoney, hdesk, Bool.and_eq_true, Bool.not_eq_true', holdsMoney_written hk.payments hp]
  constructor
  · rintro hh ⟨hc, m, hm, hpm, ho, hg⟩
    rw [hh m hm ⟨.inr ⟨hpm, hc⟩, ho⟩] at hg
    cases hg
  · rintro hh m hm ⟨⟨q, hq, -, hqm, hqs⟩ | ⟨hpm, hc⟩, ho⟩
    · refine h m hm ?_
      simp only [Till.holdsMoney, Bool.and_eq_true, List.any_eq_true, Bool.not_eq_true', beq_iff_eq]
      exact ⟨⟨q, hq, hqm, hqs⟩, ho⟩
    · by_contra hg
      exact hh ⟨hc, m, hm, hpm, ho, by simpa using hg⟩

theorem Till.drops_document (hk : t.Keyed) (h : t.Honest) {i : ℕ} {attempt : Uuid} {paymentRequest : Option Uuid}
    {settings : Settings} {document : Document} {now : Time} :
    t.comesLate attempt paymentRequest settings document now = false ↔
      (t.documented i attempt paymentRequest settings document now).Honest := by
  have hsame : ∀ stage, (t.stay i stage).Honest := fun _ => h.congr rfl rfl
  unfold Till.comesLate Till.documented
  cases hpend : stillPending paymentRequest document with
  | true => exact iff_of_true (Bool.false_and _) (hsame _)
  | false =>
    cases hp : t.desk.payment attempt with
    | none => exact iff_of_true (Bool.and_false _) (hsame _)
    | some p =>
      obtain rfl : p.pk = attempt := Table.key_of_get hp
      simp only [Option.any_some, Bool.not_false, Bool.true_and, Bool.false_eq_true, if_false]
      cases hv : processVerification settings p document now t.desk with
      | error failure =>
        rw [processVerification_error hv]
        exact iff_of_true (by simp) (hsame _)
      | ok r =>
        obtain ⟨d, done⟩ := r
        rcases processVerification_ok hv with ⟨hs, rfl⟩ | ⟨hs, ht, rfl⟩
        · rw [hs]
          exact iff_of_true (by simp) (h.congr rfl rfl)
        · simp only [hs, ht, Bool.not_false, Bool.true_and]
          refine Iff.trans ?_ (Iff.symm (Till.honest_written hk h settings document now hp ?_ ?_))
          · rw [← Bool.not_eq_true]
            simp [and_assoc]
          · rfl
          · rfl

theorem refusedStatus_gone {code : String} {status : RequestStatus} (h : refusedStatus code = some status) :
    goesOn status = false := by
  unfold refusedStatus at h
  split_ifs at h <;> cases h <;> rfl

theorem refusedStatus_ready : refusedStatus "ready" = none := by decide

/-- A conditional update of one row. -/
theorem Till.honest_move (h : t.Honest) {t' : Till} (pk : Uuid) (status : RequestStatus)
    (hreq : t'.requests = Table.modify ModificationRequest.pk t.requests pk (moveAwaiting status)) (hdesk : t'.desk = t.desk) :
    t'.Honest ↔ goesOn status = true ∨
      ∀ m ∈ t.requests, m.pk = pk → t.holdsMoney m.pk = true → m.status ≠ .awaitingPayment := by
  have hpk : ∀ m : ModificationRequest, (if m.pk = pk then moveAwaiting status m else m).pk = m.pk := by
    intro m
    unfold moveAwaiting
    split_ifs <;> rfl
  have hmap : t'.Honest ↔ _ := Till.honest_map (hreq.trans (List.append_nil _).symm) hpk
    (fun k => by rw [Till.holdsMoney, hdesk]; rfl) (by simp)
  rw [hmap]
  constructor
  · intro hh
    by_contra hn
    simp only [not_or, Bool.not_eq_true, not_forall, ne_eq, not_not] at hn
    obtain ⟨hs, m, hm, hk, hmon, haw⟩ := hn
    have := hh m hm hmon
    rw [if_pos hk, moveAwaiting, if_pos haw, hs] at this
    cases this
  · intro hh m hm hmon
    have hgo := h m hm hmon
    unfold moveAwaiting
    split_ifs with hk haw
    · exact hh.resolve_right fun hno => hno m hm hk hmon haw
    · exact hgo
    · exact hgo

theorem checkedOut_money {d : Desk} (r : Reservation) (m : ModificationRequest) (o : Offer) (pk : Uuid) :
    ((checkedOut d r m o).any fun p => p.modificationRequest == some pk && p.status == .succeeded) =
      d.payments.any fun p => p.modificationRequest == some pk && p.status == .succeeded := by
  unfold checkedOut
  repeat' split
  all_goals first | rfl | simp [newAttempt]

/-- A refusal withdraws the request if it still waits for the payment. -/
theorem Till.drops_refusal (hk : t.Keyed) (h : t.Honest) (i : ℕ) (m : ModificationRequest) (code : String) (next : Stage) :
    ((refusedStatus code).isSome && t.holdsMoney m.pk && (t.board.request m.pk).any (·.status == .awaitingPayment)) = false ↔
      (((refusedStatus code).elim t fun status => t.modify m.pk (moveAwaiting status)).stay i next).Honest := by
  cases hs : refusedStatus code with
  | none => exact iff_of_true rfl (h.congr rfl rfl)
  | some status =>
    refine Iff.trans ?_ (Till.honest_move h m.pk status ?_ ?_).symm
    · simp only [Option.isSome_some, Bool.true_and, refusedStatus_gone hs, Bool.false_eq_true, false_or]
      cases hn : t.board.request m.pk with
      | none =>
        refine iff_of_true (by simp) fun n hnm hnk _ => ?_
        exact absurd hnk (Table.get_eq_none.1 hn n hnm)
      | some n =>
        have hnpk : n.pk = m.pk := Table.key_of_get hn
        have hnm : n ∈ t.requests := Table.mem_of_get hn
        rw [Bool.and_eq_false_iff, ← hnpk]
        constructor
        · rintro hor n' hn' hk' hmon
          obtain rfl := Table.eq_of_mem_of_key hk.requests hn' hnm hk'
          rcases hor with hor | hor
          · rw [hor] at hmon; cases hmon
          · simpa using hor
        · intro hall
          by_cases hmon : t.holdsMoney n.pk = true
          · exact .inr (by simpa using hall n hnm rfl hmon)
          · exact .inl (by simpa using hmon)
    · rfl
    · rfl

theorem Till.drops_visit (hk : t.Keyed) (h : t.Honest) (i : ℕ) (event : Event) :
    t.drops (.visit i event) = false ↔ (t.step (.visit i event)).Honest := by
  have hsame : ∀ t' : Till, t'.requests = t.requests → t'.desk = t.desk → t'.Honest := fun t' hr hd => h.congr hr hd
  simp only [Till.drops, Till.step]
  cases hi : t.visits[i]? with
  | none => exact iff_of_true rfl h
  | some stage =>
    simp only
    cases stage with
    | asking attempt paymentRequest =>
      cases event with
      | document settings document now => exact Till.drops_document hk h
      | load | answer | park | pay => exact iff_of_true rfl h
    | completing request =>
      refine iff_of_true (by cases event <;> rfl) ?_
      cases event with
      | load =>
        simp only [Till.visit]
        split
        · exact hsame _ rfl rfl
        · split_ifs <;> exact hsame _ rfl rfl
      | document | answer | park | pay => exact h
    | revalidating m r checkout =>
      cases event with
      | answer now quoteCode =>
        simp only [Till.visit, Till.answered]
        split_ifs with hready hcheck
        · rw [hready, refusedStatus_ready]
          exact iff_of_true rfl (hsame _ rfl rfl)
        · rw [hready, refusedStatus_ready]
          exact iff_of_true rfl (hsame _ rfl rfl)
        · exact Till.drops_refusal hk h ..
        · exact Till.drops_refusal hk h ..
      | document | load | park | pay => exact iff_of_true rfl h
    | parking request =>
      refine iff_of_true (by cases event <;> rfl) ?_
      cases event with
      | park =>
        refine (Till.honest_move h request .pendingAdminApproval ?_ ?_).2 (.inl rfl)
        · rfl
        · rfl
      | document | load | answer | pay => exact h
    | paying request =>
      refine iff_of_true (by cases event <;> rfl) ?_
      cases event with
      | pay offer =>
        simp only [Till.visit]
        split
        · exact hsame _ rfl rfl
        · refine (Till.honest_congr ?_ fun pk => ?_).2 h
          · rfl
          · simp only [Till.holdsMoney, checkedOut_money]
      | document | load | answer | park => exact h
    | executing | done => exact iff_of_true (by cases event <;> rfl) (by cases event <;> exact h)

theorem Till.drops_iff (hk : t.Keyed) (h : t.Honest) (a : Action) : t.drops a = false ↔ (t.step a).Honest := by
  cases a with
  | office a => exact Till.drops_office hk h a
  | checkout request =>
    simp only [Till.step]
    split
    · exact iff_of_true rfl h
    · exact iff_of_true rfl (h.congr rfl rfl)
  | verify attempt =>
    simp only [Till.step]
    split
    · exact iff_of_true rfl h
    · split <;> exact iff_of_true rfl (h.congr rfl rfl)
  | visit i event => exact Till.drops_visit hk h i event

/-! ### Runs -/

theorem checkedOut_keyed {d : Desk} (h : (d.payments.map (·.pk)).Nodup) (r : Reservation) (m : ModificationRequest)
    (o : Offer) : ((checkedOut d r m o).map (·.pk)).Nodup := by
  unfold checkedOut
  repeat' split
  all_goals try exact h
  rename_i hfresh
  simp only [List.any_eq_true, beq_iff_eq, not_exists, not_and] at hfresh
  rw [List.map_append]
  refine List.nodup_append.2 ⟨h, List.nodup_singleton _, ?_⟩
  rintro k hk k' hk' rfl
  obtain ⟨p, hp, rfl⟩ := List.mem_map.1 hk
  exact hfresh p hp (List.mem_singleton.1 hk')

theorem Till.Keyed.modify (hk : t.Keyed) (pk : Uuid) (status : RequestStatus) : (t.modify pk (moveAwaiting status)).Keyed := by
  have hpk : ∀ m : ModificationRequest, (moveAwaiting status m).pk = m.pk := fun m => by
    unfold moveAwaiting
    split <;> rfl
  refine ⟨?_, hk.payments⟩
  show ((Table.modify ModificationRequest.pk t.requests pk (moveAwaiting status)).map (·.pk)).Nodup
  rw [Table.map_key_modify fun m hm => (hpk m).trans hm]
  exact hk.requests

theorem Till.Keyed.congr (hk : t.Keyed) {t' : Till} (hr : t'.requests = t.requests) (hd : t'.desk = t.desk) : t'.Keyed := by
  refine ⟨?_, hd ▸ hk.payments⟩
  have h := hk.requests
  rwa [Changes.Keyed, show t.board.requests = _ from hr.symm] at h

theorem Till.Keyed.documented (hk : t.Keyed) (i : ℕ) (attempt : Uuid) (paymentRequest : Option Uuid)
    (settings : Settings) (document : Document) (now : Time) :
    (t.documented i attempt paymentRequest settings document now).Keyed := by
  unfold Till.documented
  split
  · exact hk.congr rfl rfl
  · split
    · exact hk.congr rfl rfl
    · split
      · exact hk.congr rfl rfl
      · rename_i p _ _ _ _ hv
        rcases processVerification_ok hv with ⟨-, rfl⟩ | ⟨-, -, rfl⟩
        · exact hk.congr rfl rfl
        · have hkeys : (t.desk.modifyPayment p.pk (rewritten settings document now)).payments.map (·.pk) =
              t.desk.payments.map (·.pk) := Table.map_key_modify fun _ hp => hp
          exact ⟨hk.requests, (congrArg List.Nodup hkeys).mpr hk.payments⟩

theorem Till.Keyed.visit (hk : t.Keyed) (i : ℕ) (stage : Stage) (event : Event) : (t.visit i stage event).Keyed := by
  unfold Till.visit
  split
  · exact hk.documented ..
  · split
    · exact hk.congr rfl rfl
    · split <;> exact hk.congr rfl rfl
  · simp only [Till.answered]
    split_ifs
    · exact hk.congr rfl rfl
    · exact hk.congr rfl rfl
    · cases refusedStatus _ with
      | none => exact hk.congr rfl rfl
      | some status => exact (hk.modify _ status).congr rfl rfl
    · cases refusedStatus _ with
      | none => exact hk.congr rfl rfl
      | some status => exact (hk.modify _ status).congr rfl rfl
  · exact (hk.modify _ .pendingAdminApproval).congr rfl rfl
  · split
    · exact hk.congr rfl rfl
    · exact ⟨hk.requests, checkedOut_keyed hk.payments ..⟩
  · exact hk

theorem Till.Keyed.step (hk : t.Keyed) (a : Action) : (t.step a).Keyed := by
  cases a with
  | office a => exact ⟨Office.step_keyed hk.requests (t.informed a), hk.payments⟩
  | checkout request =>
    simp only [Till.step]
    split
    · exact hk
    · exact hk.congr rfl rfl
  | verify attempt =>
    simp only [Till.step]
    split
    · exact hk
    · split <;> exact hk.congr rfl rfl
  | visit i event =>
    simp only [Till.step]
    split
    · exact hk
    · exact hk.visit ..

open Machine in
/-- Every paid change goes on, or is owed back, in every state of a run exactly if no step of it drops one. -/
theorem paid_changes_go_on {t : Till} (hk : t.Keyed) (h : t.Honest) (as : List Action) :
    Meets Till.step (fun t a => t.drops a = false) t as ↔ ∀ n, (run Till.step t (as.take n)).Honest :=
  meets_iff (fun _ a hk _ => hk.step a) (fun _ a hk h => Till.drops_iff hk h a) hk h

/-! ### A stay that is made longer -/

def difference : Dec := 300

/-- A longer stay, priced more. -/
def longer (pk : Uuid) (now : Time) : Quoted :=
  ⟨pk, .extendStay, 100, 105, 2, 1500, "SAR", some difference, pk.str, true, false, now, now + 100⟩

def emptyTill : Till := ⟨changeOffice, ⟨Changes.stay.bookingIntent, none, [], []⟩, [], []⟩

def attemptPk : Uuid := ⟨"6c1e7c1a-1f60-4f0e-9a51-0d5d7c2f1d01", rfl⟩

/-- The difference is quoted and its checkout is opened. -/
def checkoutRun : List Action :=
  [.office (.change (.quote Changes.stay (longer Changes.firstRequest 10))), .checkout Changes.firstRequest,
   .visit 0 (.answer 11 "ready"), .visit 0 (.pay ⟨12, true, true, attemptPk, "LSA-1", some "8ac7a4a1"⟩)]

def paidDocument : Document := { answerDocument "000.000.000" with amount := .finite difference }

def verifiedRun : List Action := [.verify attemptPk, .visit 1 (.document liveSettings paidDocument 14)]

theorem emptyTill_keyed : emptyTill.Keyed := ⟨changeOffice_keyed, by simp [emptyTill]⟩

theorem paid_changes_go_on_paid :
    (Machine.run Till.step emptyTill (checkoutRun ++ verifiedRun)).holdsMoney Changes.firstRequest = true ∧
      ∀ n, (Machine.run Till.step emptyTill ((checkoutRun ++ verifiedRun).take n)).Honest :=
  ⟨by decide +kernel,
    (paid_changes_go_on emptyTill_keyed (by decide +kernel) (checkoutRun ++ verifiedRun)).1 (by decide +kernel)⟩

/-- The difference is paid while the guest asks for another change. -/
def supersededRun : List Action :=
  checkoutRun ++ .office (.change (.quote Changes.stay (Changes.shorter Changes.secondRequest 3 13))) :: verifiedRun

theorem paid_change_superseded :
    (Machine.run Till.step emptyTill supersededRun).holdsMoney Changes.firstRequest = true ∧
      ((Machine.run Till.step emptyTill supersededRun).board.request Changes.firstRequest).map (·.status) =
        some .superseded ∧
      (Machine.run Till.step emptyTill supersededRun).desk.obligations = [] := by
  decide +kernel

end Apartments.Differences
