import Apartments.Hostaway.Modifications
import Apartments.Lib.Run

/-!
# Quotes and executions on one reservation

A quote, an owner's total and a cancellation request are one transaction each. An execution is a sequence of
transactions, unlocked reads and messages, and the events of any number of executions interleave with each other
and with the quotes; a call that crashes has no further events. A call carries the request and the reservation
as it last read them: `execute` decides whether a change is ready on these, and the transaction that claims the
operation looks at the operation only.

`revives` singles out the two writes that bring a closed request back: that claim, and the unlocked update of a
paid request when automatic approval is off. Without them a superseded request stays superseded.
-/

namespace Apartments.Hostaway.Changes

open Payments

/-- How the provider's update ends. -/
inductive UpdateReply
  | uncertain
  | rejected
  | updated (snapshot : Snapshot)
deriving DecidableEq

inductive Stage
  | loaded (ownerOverride : Bool)
  | executing
  | claiming
  | sending
  | sent
  | finishing (request : RequestStatus) (operation : OperationStatus) (code : String)
  | completing (snapshot : Snapshot)
  | orphaned
  | orphanRefunded
  | done (code : String)
deriving DecidableEq

structure Call where
  request : ModificationRequest
  reservation : Reservation
  stage : Stage
deriving DecidableEq

inductive Event
  | check (checks : Checks)
  | send
  | reply (reply : UpdateReply)
  | write (now : Time)
deriving DecidableEq

def Call.ended (c : Call) (code : String) : Call := { c with stage := .done code }

/-- Neither the settings nor the owner let the request be executed without an administrator. -/
def disabled (e : Checks) (ownerOverride : Bool) (m : ModificationRequest) : Bool :=
  !(e.automaticApproval || (isCancellation m && e.automaticCancellation) || ownerOverride)

/-- The object read before says that the payment is due, and it has been paid. -/
def paidMeanwhile (e : Checks) (m : ModificationRequest) : Bool :=
  m.status == .awaitingPayment && (differencePayment e m).isSome

/-- `execute_automatic_modification` up to the end of its approving transaction. -/
def approve (b : Board) (c : Call) (e : Checks) (ownerOverride : Bool) : Option (Board × Call) :=
  if disabled e ownerOverride c.request then
    some (if paidMeanwhile e c.request then
        b.modify c.request.pk fun m => { m with status := .pendingAdminApproval } else b,
      c.ended "automatic_approval_disabled")
  else
    match b.request c.request.pk with
    | none => none
    | some m =>
      match approvalRefusal e b ownerOverride m with
      | some code => some (b, c.ended code)
      | none =>
        some (b.modify c.request.pk fun _ => approvedRow e.now m,
          ⟨approvedRow e.now m, b.reservation,
            if orphanedCancellation b.reservation (approvedRow e.now m) then .orphaned else .executing⟩)

/-- `execute` before its claim; a cancellation is read again first. -/
def examine (b : Board) (c : Call) (e : Checks) : Option (Board × Call) :=
  match if isCancellation c.request then b.request c.request.pk else some c.request with
  | none => none
  | some m =>
    let r := if isCancellation c.request then b.reservation else c.reservation
    match executeRefusal e b m r with
    | some code => some (b, ⟨m, r, .done code⟩)
    | none => some (b, ⟨m, r, .claiming⟩)

/-- The transaction of `_prepare_operation`. -/
def prepare (b : Board) (c : Call) (e : Checks) : Option (Board × Call) :=
  match b.request c.request.pk with
  | none => none
  | some m =>
    some (b.modify c.request.pk fun _ => (prepareModification e b m).1,
      if (prepareModification e b m).2 = .claimed then { c with stage := .sending } else c.ended "not_sent")

/-- The reservation and the cancellation are closed without Hostaway. -/
def closeOrphan (b : Board) (pk : Uuid) (now : Time) : Board :=
  { b.modify pk fun m => { m with status := .completed, completedAt := some now } with
    reservation := orphanClosed now b.reservation }

/-- The first transaction of `_refund_orphaned_paid_reservation`. -/
def refundOrphan (b : Board) (c : Call) (e : Checks) : Option (Board × Call) :=
  match b.request c.request.pk with
  | none => none
  | some m =>
    if m.status = .completed then some (b, c.ended "already_completed")
    else if !orphanedCancellation b.reservation m then some (b, c.ended "orphaned_reservation_changed")
    else
      match e.orphanedRefund with
      | .refused code => some (b, c.ended code)
      | .settled code => some (closeOrphan b c.request.pk e.now, c.ended code)
      | .accepted => some (b, { c with stage := .orphanRefunded })

/-- The stage after the reply of the provider. -/
def replied (m : ModificationRequest) : UpdateReply → Stage
  | .uncertain => .finishing .unknown .unknown "hostaway_modification_uncertain"
  | .rejected => .finishing .failed .failed "hostaway_modification_rejected"
  | .updated s =>
    if snapshotMatches m s then .completing s else .finishing .unknown .unknown "hostaway_reconciliation_mismatch"

/-- The transaction that writes how the execution went. -/
def conclude (b : Board) (c : Call) (now : Time) : Option (Board × Call) :=
  match b.request c.request.pk, c.stage with
  | some _, .finishing request operation code =>
    some (b.modify c.request.pk (finishedRequest request operation code now), c.ended code)
  | some _, .completing s =>
    some ({ b.modify c.request.pk (completedRequest now) with reservation := changedReservation s now b.reservation },
      c.ended "completed")
  | some m, .orphanRefunded =>
    some (if m.status = .completed then b else closeOrphan b c.request.pk now, c.ended "orphaned_refunded")
  | _, _ => none

/-- One event of a call: the board and the call it leaves, if the call is at that event. -/
def advance (b : Board) (c : Call) : Event → Option (Board × Call)
  | .check e =>
    match c.stage with
    | .loaded ownerOverride => approve b c e ownerOverride
    | .executing => examine b c e
    | .claiming => prepare b c e
    | .orphaned => refundOrphan b c e
    | _ => none
  | .send => if c.stage = .sending then some (b, { c with stage := .sent }) else none
  | .reply r =>
    match c.stage, r with
    | .sent, r => some (b, { c with stage := replied c.request r })
    -- the request cannot be built, or not be authorised: nothing is sent
    | .sending, .rejected => some (b, { c with stage := replied c.request .rejected })
    | .sending, .uncertain => some (b, { c with stage := replied c.request .uncertain })
    | _, _ => none
  | .write now => conclude b c now

/-- `sends` logs the request of every update that was sent, with the status its row had then. -/
structure World where
  board : Board
  calls : List Call
  sends : List (Uuid × Option RequestStatus)
deriving DecidableEq

inductive Action
  | quote (given : Reservation) (quoted : Quoted)
  | ownerTotal (pk : Uuid) (total : OwnerTotal)
  | cancellation (asked : CancellationAsked)
  | execute (pk : Uuid)
  | automatic (pk : Uuid) (ownerOverride : Bool)
  | event (i : ℕ) (event : Event)
deriving DecidableEq

namespace World

def onBoard (w : World) : Except String Board → World
  | .ok b => { w with board := b }
  | .error _ => w

def load (w : World) (pk : Uuid) (stage : Stage) : World :=
  match w.board.request pk with
  | none => w
  | some m => { w with calls := w.calls ++ [⟨m, w.board.reservation, stage⟩] }

/-- What an event of a call sends. -/
def sent (w : World) (pk : Uuid) : Event → List (Uuid × Option RequestStatus)
  | .send => [(pk, (w.board.request pk).map (·.status))]
  | _ => []

def step (w : World) : Action → World
  | .quote given quoted => w.onBoard (persistPricedRequest w.board given quoted)
  | .ownerTotal pk total => w.onBoard (setOwnerFinalTotal w.board pk total)
  | .cancellation asked => w.onBoard (createCancellationRequest w.board asked)
  | .execute pk => w.load pk .executing
  | .automatic pk ownerOverride => w.load pk (.loaded ownerOverride)
  | .event i event =>
    match w.calls[i]? with
    | none => w
    | some c =>
      match advance w.board c event with
      | none => w
      | some (board, c') => ⟨board, w.calls.set i c', w.sends ++ w.sent c.request.pk event⟩

end World

/-- The request is open, or its outcome is pending. -/
def isLive (m : ModificationRequest) : Bool := isOpen m || m.status == .processing || m.status == .unknown

def liveChange (m : ModificationRequest) : Bool := !isCancellation m && isLive m

def attempts (m : ModificationRequest) : ℕ := m.operation.elim 0 (·.attemptCount)

/-- Opening the request again undoes a supersession or puts a second live change beside another one. -/
def resurrects (b : Board) (m : ModificationRequest) : Bool :=
  m.status == .superseded || (!isLive m && b.requests.any liveChange)

/-- The claim of `_prepare_operation` rechecks neither the status nor, for want of an owner's total, the quote. -/
def unchecked (m : ModificationRequest) : Bool :=
  !isCancellation m && m.ownerFinalTotal.isNone && claim m.operation false == .claimed

/-- The next check of the call brings back a request that is closed by now. -/
def Call.revives (b : Board) (c : Call) (e : Checks) : Bool :=
  match b.request c.request.pk, c.stage with
  | some m, .claiming => unchecked m && resurrects b m
  | some m, .loaded ownerOverride =>
    disabled e ownerOverride c.request && paidMeanwhile e c.request && (m.status == .processing || resurrects b m)
  | _, _ => false

namespace World

/-- The action is such a check. -/
def revives (w : World) : Action → Bool
  | .event i (.check e) => w.calls[i]?.any fun c => c.revives w.board e
  | _ => false

end World

/-! ### What a transaction does to the requests -/

structure Sound (b : Board) : Prop where
  keyed : (b.requests.map (·.pk)).Nodup
  oneLive : ∀ m ∈ b.requests, ∀ n ∈ b.requests, liveChange m → liveChange n → m = n
  cancellations : ∀ m ∈ b.requests, isCancellation m → m.status ≠ .superseded

/-- What no transaction takes from a request. -/
structure Kept (m m' : ModificationRequest) : Prop where
  cancellation : isCancellation m' = isCancellation m
  attempts : attempts m ≤ attempts m'
  superseded : m.status = .superseded → m'.status = .superseded

def Keeps (b b' : Board) : Prop :=
  ∀ pk m, b.request pk = some m → ∃ m', b'.request pk = some m' ∧ Kept m m'

/-- The board after the request `m` has been written. -/
def put (b : Board) (m : ModificationRequest) (r : Reservation) : Board :=
  { b.modify m.pk fun _ => m with reservation := r }

/-- What writing `m'` over `m` must respect. -/
structure Rewrites (b : Board) (m m' : ModificationRequest) : Prop extends Kept m m' where
  pk : m'.pk = m.pk
  fresh : m'.status = .superseded → m.status = .superseded
  live : liveChange m' → liveChange m ∨ ∀ n ∈ b.requests, liveChange n = false

variable {b b' b'' : Board} {m m' : ModificationRequest} {pk : Uuid} {r : Reservation}

theorem Kept.refl (m : ModificationRequest) : Kept m m := ⟨rfl, le_rfl, id⟩

theorem Kept.trans {m'' : ModificationRequest} (h : Kept m m') (h' : Kept m' m'') : Kept m m'' :=
  ⟨h'.cancellation.trans h.cancellation, h.attempts.trans h'.attempts, fun hs => h'.superseded (h.superseded hs)⟩

theorem Keeps.refl (b : Board) : Keeps b b := fun _ m hm => ⟨m, hm, .refl m⟩

theorem Keeps.trans (h : Keeps b b') (h' : Keeps b' b'') : Keeps b b'' := by
  intro pk m hm
  obtain ⟨m', hm', hk⟩ := h pk m hm
  obtain ⟨m'', hm'', hk'⟩ := h' pk m' hm'
  exact ⟨m'', hm'', hk.trans hk'⟩

theorem request_put (h : b.request m'.pk = some m) : (put b m' r).request m'.pk = some m' :=
  (Table.get_modify_self fun _ _ => rfl).trans (by rw [show Table.get _ _ _ = some m from h]; rfl)

theorem request_put_ne (h : pk ≠ m'.pk) : (put b m' r).request pk = b.request pk :=
  Table.get_modify_ne (fun _ _ => rfl) h

theorem Sound.put (h : Sound b) (hm : b.request m'.pk = some m) (hr : Rewrites b m m') : Sound (put b m' r) := by
  have hmem : m ∈ b.requests := Table.mem_of_get hm
  -- every row is an old one other than `m`, or the new one
  have hrow : ∀ n ∈ (Changes.put b m' r).requests, n = m' ∨ n ∈ b.requests ∧ n ≠ m := by
    intro n hn
    obtain ⟨a, ha, rfl⟩ := Table.mem_modify.1 hn
    by_cases hk : a.pk = m'.pk
    · exact .inl (by simp [hk])
    · refine .inr ⟨by simpa [hk] using ha, ?_⟩
      rintro rfl
      exact hk (by simpa [hk] using hr.pk.symm)
  refine ⟨?_, ?_, ?_⟩
  · show (List.map _ (Table.modify _ _ _ _)).Nodup
    rw [Table.map_key_modify fun _ _ => rfl]
    exact h.keyed
  · intro n hn n' hn' hl hl'
    rcases hrow n hn with rfl | ⟨hb, hne⟩ <;> rcases hrow n' hn' with rfl | ⟨hb', hne'⟩
    · rfl
    · rcases hr.live hl with hlm | hno
      · exact absurd (h.oneLive m hmem n' hb' hlm hl').symm hne'
      · rw [hno n' hb'] at hl'; cases hl'
    · rcases hr.live hl' with hlm | hno
      · exact absurd (h.oneLive m hmem n hb hlm hl).symm hne
      · rw [hno n hb] at hl; cases hl
    · exact h.oneLive n hb n' hb' hl hl'
  · intro n hn hc hs
    rcases hrow n hn with rfl | ⟨hn, -⟩
    · exact h.cancellations m hmem (hr.cancellation ▸ hc) (hr.fresh hs)
    · exact h.cancellations n hn hc hs

theorem Keeps.put (hm : b.request m'.pk = some m) (hr : Kept m m') : Keeps b (put b m' r) := by
  intro pk n hn
  by_cases hk : pk = m'.pk
  · subst hk
    obtain rfl : m = n := Option.some.inj (hm.symm.trans hn)
    exact ⟨m', request_put hm, hr⟩
  · exact ⟨n, (request_put_ne hk).trans hn, .refl n⟩

/-- A row that some execution has in hand keeps its status. -/
def Undisturbed (b b' : Board) (pk : Uuid) : Prop :=
  ∀ m m', b.request pk = some m → b'.request pk = some m' → m.status = .processing →
    isCancellation m ∨ m'.status = .processing

theorem supersede_pk (m : ModificationRequest) : (supersede m).pk = m.pk := by unfold supersede; split <;> rfl

theorem supersede_kept (m : ModificationRequest) : Kept m (supersede m) := by
  unfold supersede
  split
  · exact ⟨rfl, le_rfl, fun _ => rfl⟩
  · exact .refl m

/-- What is live after a supersession is being executed or of unknown outcome. -/
theorem status_of_live_supersede (h : liveChange (supersede m)) : m.status = .processing ∨ m.status = .unknown := by
  unfold supersede at h
  split at h
  · simp [liveChange, isLive, isOpen, openStatuses] at h
  · rename_i ho
    simp only [liveChange, isLive, Bool.and_eq_true, Bool.or_eq_true, Bool.not_eq_true', beq_iff_eq] at h ho
    obtain ⟨hc, (hopen | hp) | hu⟩ := h
    · exact absurd ⟨hopen, hc⟩ ho
    · exact .inl hp
    · exact .inr hu

theorem persistPricedRequest_ok {given : Reservation} {q : Quoted} (h : persistPricedRequest b given q = .ok b') :
    b' = { b with requests := b.requests.map supersede ++ [quotedRequest given q] } ∧
      (∀ m ∈ b.requests, m.pk ≠ q.pk) ∧ ∀ m ∈ b.requests, m.status ≠ .processing ∧ m.status ≠ .unknown := by
  unfold persistPricedRequest at h
  split at h
  · cases h
  split at h
  · cases h
  rename_i hkey
  split at h
  · cases h
  split at h
  · cases h
  split at h
  · cases h
  rename_i hbusy
  cases h
  simp only [List.any_eq_true, Bool.or_eq_true, beq_iff_eq, not_exists, not_and, not_or] at hkey hbusy
  exact ⟨rfl, fun m hm => (hkey m hm).2, hbusy⟩

theorem quotedStatus_ne (q : Quoted) (difference : Dec) : quotedStatus q difference ≠ .superseded := by
  unfold quotedStatus
  split_ifs <;> nofun

theorem Sound.quote {given : Reservation} {q : Quoted} (h : Sound b)
    (hq : persistPricedRequest b given q = .ok b') : Sound b' := by
  obtain ⟨rfl, hfresh, hidle⟩ := persistPricedRequest_ok hq
  have hnone : ∀ m ∈ b.requests.map supersede, ¬ liveChange m := by
    intro m hm hl
    obtain ⟨n, hn, rfl⟩ := List.mem_map.1 hm
    rcases status_of_live_supersede hl with hs | hs
    · exact (hidle n hn).1 hs
    · exact (hidle n hn).2 hs
  have hpks : (b.requests.map supersede).map (·.pk) = b.requests.map (·.pk) := by
    simp [Function.comp_def, supersede_pk]
  refine ⟨?_, ?_, ?_⟩
  · rw [List.map_append, hpks]
    refine List.nodup_append.2 ⟨h.keyed, List.nodup_singleton _, ?_⟩
    rintro k hk k' hk' rfl
    obtain ⟨m, hm, rfl⟩ := List.mem_map.1 hk
    exact hfresh m hm (by simpa [quotedRequest] using hk')
  · intro m hm n hn hl hl'
    rcases List.mem_append.1 hm with hm | hm
    · exact absurd hl (hnone m hm)
    rcases List.mem_append.1 hn with hn | hn
    · exact absurd hl' (hnone n hn)
    exact (List.mem_singleton.1 hm).trans (List.mem_singleton.1 hn).symm
  · intro m hm hc hs
    rcases List.mem_append.1 hm with hm | hm
    · obtain ⟨n, hn, rfl⟩ := List.mem_map.1 hm
      rw [(supersede_kept n).cancellation] at hc
      refine h.cancellations n hn hc ?_
      simpa [supersede, hc] using hs
    · rw [List.mem_singleton.1 hm] at hs
      exact quotedStatus_ne _ _ hs

theorem Keeps.quote {given : Reservation} {q : Quoted} (hq : persistPricedRequest b given q = .ok b') :
    Keeps b b' ∧ ∀ pk, Undisturbed b b' pk := by
  obtain ⟨rfl, -, hidle⟩ := persistPricedRequest_ok hq
  constructor
  · intro pk m hm
    refine ⟨supersede m, ?_, supersede_kept m⟩
    show Table.get _ (_ ++ _) pk = _
    rw [Table.get_append, Table.get_map supersede_pk, show Table.get _ _ pk = some m from hm]
    rfl
  · intro pk m m' hm _ hs
    exact absurd hs (hidle m (Table.mem_of_get hm)).1

theorem createCancellationRequest_ok {q : CancellationAsked} (h : createCancellationRequest b q = .ok b') :
    b' = { b with requests := b.requests ++ [cancellationRequest b.reservation q] } ∧
      ∀ m ∈ b.requests, m.pk ≠ q.pk := by
  unfold createCancellationRequest at h
  split at h
  · cases h
  split at h
  · cases h
  split at h
  · cases h
  split at h
  · cases h
  rename_i hkey
  split at h
  · cases h
  cases h
  simp only [List.any_eq_true, Bool.or_eq_true, beq_iff_eq, not_exists, not_and, not_or] at hkey
  exact ⟨rfl, fun m hm => (hkey m hm).2⟩

theorem Sound.cancellation {q : CancellationAsked} (h : Sound b) (hq : createCancellationRequest b q = .ok b') :
    Sound b' := by
  obtain ⟨rfl, hfresh⟩ := createCancellationRequest_ok hq
  have hnew : ∀ m ∈ b.requests ++ [cancellationRequest b.reservation q], liveChange m → m ∈ b.requests := by
    intro m hm hl
    rcases List.mem_append.1 hm with hm | hm
    · exact hm
    · rw [List.mem_singleton.1 hm] at hl
      cases hl
  refine ⟨?_, fun m hm n hn hl hl' => h.oneLive m (hnew m hm hl) n (hnew n hn hl') hl hl', ?_⟩
  · rw [List.map_append]
    refine List.nodup_append.2 ⟨h.keyed, List.nodup_singleton _, ?_⟩
    rintro k hk k' hk' rfl
    obtain ⟨m, hm, rfl⟩ := List.mem_map.1 hk
    exact hfresh m hm (by simpa [cancellationRequest] using hk')
  · intro m hm hc hs
    rcases List.mem_append.1 hm with hm | hm
    · exact h.cancellations m hm hc hs
    · rw [List.mem_singleton.1 hm] at hs
      simp only [cancellationRequest] at hs
      split at hs <;> cases hs

theorem Keeps.cancellation {q : CancellationAsked} (hq : createCancellationRequest b q = .ok b') :
    Keeps b b' ∧ ∀ pk, Undisturbed b b' pk := by
  obtain ⟨rfl, -⟩ := createCancellationRequest_ok hq
  have hget : ∀ pk m, b.request pk = some m →
      Board.request { b with requests := b.requests ++ [cancellationRequest b.reservation q] } pk = some m := by
    intro pk m hm
    show Table.get _ (_ ++ _) pk = _
    rw [Table.get_append, show Table.get _ _ pk = some m from hm]
    rfl
  refine ⟨fun pk m hm => ⟨m, hget pk m hm, .refl m⟩, fun pk m m' hm hm' hs => .inr ?_⟩
  rw [hget pk m hm] at hm'
  exact Option.some.inj hm' ▸ hs

/-- The statuses a request can be approved or priced in. -/
theorem isOpen_of_not {s : RequestStatus} (h : ¬(s ≠ .awaitingPayment ∧ s ≠ .pendingAdminApproval ∧ s ≠ .readyForHostaway)) :
    openStatuses.contains s = true ∧ s ≠ .processing ∧ s ≠ .superseded := by
  cases s <;> simp_all [openStatuses]

theorem modify_eq_put (h : Sound b) {f : ModificationRequest → ModificationRequest} (hm : b.request pk = some m)
    (hf : (f m).pk = m.pk) : b.modify pk f = put b (f m) b.reservation := by
  have hk : (f m).pk = pk := hf.trans (Table.key_of_get hm)
  rw [put, hk, Board.modify, Table.modify_eq_of_get h.keyed hm]
  rfl

theorem setOwnerFinalTotal_ok {o : OwnerTotal} (h : setOwnerFinalTotal b pk o = .ok b') :
    ∃ m, b.request pk = some m ∧ ownerTotalRefusal b o m = none ∧ b' = b.modify pk fun _ => ownerPriced o m := by
  unfold setOwnerFinalTotal at h
  split at h
  · cases h
  rename_i m hm
  split at h
  · cases h
  rename_i hr
  cases h
  exact ⟨m, hm, hr, rfl⟩

theorem ownerTotalRefusal_none {o : OwnerTotal} (h : ownerTotalRefusal b o m = none) :
    ¬(m.status ≠ .awaitingPayment ∧ m.status ≠ .pendingAdminApproval ∧ m.status ≠ .readyForHostaway) := by
  unfold ownerTotalRefusal at h
  split at h
  · cases h
  split at h
  · cases h
  rename_i hs
  exact fun h' => hs (.inl h')

/-- Opening an open request again changes nothing that matters. -/
theorem Rewrites.reopened (h : ¬(m.status ≠ .awaitingPayment ∧ m.status ≠ .pendingAdminApproval ∧ m.status ≠ .readyForHostaway))
    (hpk : m'.pk = m.pk) (ht : m'.requestType = m.requestType) (ho : m'.operation = m.operation)
    (hs : m'.status ≠ .superseded) : Rewrites b m m' := by
  obtain ⟨hopen, -, hsup⟩ := isOpen_of_not h
  refine ⟨⟨by simp [isCancellation, ht], by simp [attempts, ho], fun h => absurd h hsup⟩, hpk, fun h => absurd h hs, ?_⟩
  intro hl
  simp only [liveChange, isCancellation, ht, Bool.and_eq_true] at hl ⊢
  exact .inl ⟨hl.1, by simp [isLive, show isOpen m = true from hopen]⟩

theorem ownerTotal_spec {o : OwnerTotal} (h : Sound b) (ho : setOwnerFinalTotal b pk o = .ok b') :
    Sound b' ∧ Keeps b b' ∧ ∀ k, Undisturbed b b' k := by
  obtain ⟨m, hm, hr, rfl⟩ := setOwnerFinalTotal_ok ho
  have hst := ownerTotalRefusal_none hr
  have hpk : (ownerPriced o m).pk = m.pk := rfl
  have hm' : b.request (ownerPriced o m).pk = some m := by rw [hpk, Table.key_of_get hm]; exact hm
  have hrw : Rewrites b m (ownerPriced o m) := .reopened hst rfl rfl rfl nofun
  rw [modify_eq_put h (f := fun _ => ownerPriced o m) hm hpk]
  refine ⟨h.put hm' hrw, .put hm' hrw.toKept, fun k n n' hn hn' hs => .inr ?_⟩
  by_cases hk : k = (ownerPriced o m).pk
  · subst hk
    obtain rfl : m = n := Option.some.inj (hm'.symm.trans hn)
    exact absurd hs (isOpen_of_not hst).2.1
  · rw [request_put_ne hk, hn] at hn'
    exact Option.some.inj hn' ▸ hs

/-! ### What an event of a call can do -/

/-- The call has claimed the operation and not written the outcome yet. -/
def Stage.inFlight : Stage → Bool
  | .sending | .sent | .finishing .. | .completing _ => true
  | _ => false

/-- The call waits for nothing: it has written nothing yet, or it is done. -/
def Stage.idle : Stage → Bool
  | .loaded _ | .executing | .claiming | .orphaned | .done _ => true
  | _ => false

/-- The row of a call in flight waits for it; the row of an orphaned charge is a cancellation. -/
structure Backed (b : Board) (c : Call) : Prop where
  flight : c.stage.inFlight → ∃ m, b.request c.request.pk = some m ∧ 0 < attempts m ∧
    (isCancellation m ∨ m.status = .processing)
  outcome : ∀ request operation code, c.stage = .finishing request operation code → request ≠ .superseded
  orphan : c.stage = .orphanRefunded → ∃ m, b.request c.request.pk = some m ∧ isCancellation m

inductive Effect (b : Board) (c : Call) : Board → Call → Prop
  | quiet {c'} : c'.request.pk = c.request.pk → (c'.stage.inFlight → c.stage.inFlight) → Backed b c' → Effect b c b c'
  | wrote {m m' r c'} : b.request c.request.pk = some m → Rewrites b m m' → c'.request.pk = c.request.pk →
      (c'.stage.idle ∨ c'.stage = .sending ∧ attempts m = 0 ∧ 0 < attempts m' ∧ m'.status = .processing) →
      (c.stage.inFlight ∨ isCancellation m ∨ m.status ≠ .processing ∨ m'.status = .processing) →
      Effect b c (put b m' r) c'

variable {c c' : Call} {e : Checks}

theorem Stage.inFlight_of_idle {s : Stage} (h : s.idle) : s.inFlight = false := by
  cases s <;> first | rfl | cases h

theorem Backed.of_idle (h : c.stage.idle) : Backed b c := by
  refine ⟨fun hf => ?_, fun _ _ _ hs => ?_, fun hs => ?_⟩
  · rw [Stage.inFlight_of_idle h] at hf; cases hf
  · rw [hs] at h; cases h
  · rw [hs] at h; cases h

/-- Nothing is written, and the call waits for nothing. -/
theorem Effect.idle (hpk : c'.request.pk = c.request.pk) (h : c'.stage.idle) : Effect b c b c' :=
  .quiet hpk (fun hf => by rw [Stage.inFlight_of_idle h] at hf; cases hf) (.of_idle h)

theorem not_resurrects (h : resurrects b m = false) :
    m.status ≠ .superseded ∧ (isLive m ∨ ∀ n ∈ b.requests, liveChange n = false) := by
  simp only [resurrects, Bool.or_eq_false_iff, beq_eq_false_iff_ne, ne_eq, Bool.and_eq_false_iff,
    Bool.not_eq_false', List.any_eq_false, Bool.not_eq_true] at h
  exact h

/-- A request that is not resurrected may be given any status but `SUPERSEDED`. -/
theorem Rewrites.revived (h : m.status ≠ .superseded) (hl : isLive m ∨ ∀ n ∈ b.requests, liveChange n = false)
    (hpk : m'.pk = m.pk) (ht : m'.requestType = m.requestType) (ha : Changes.attempts m ≤ Changes.attempts m')
    (hs : m'.status ≠ .superseded) : Rewrites b m m' := by
  refine ⟨⟨by simp [isCancellation, ht], ha, fun h' => absurd h' h⟩, hpk, fun h => absurd h hs, ?_⟩
  intro hl'
  rcases hl with hl | hno
  · simp only [liveChange, isCancellation, ht, Bool.and_eq_true] at hl' ⊢
    exact .inl ⟨hl'.1, hl⟩
  · exact .inr hno

theorem approvalRefusal_none {ownerOverride : Bool} (h : approvalRefusal e b ownerOverride m = none) :
    ¬(m.status ≠ .awaitingPayment ∧ m.status ≠ .pendingAdminApproval ∧ m.status ≠ .readyForHostaway) := by
  unfold approvalRefusal at h
  intro hs
  rw [if_pos hs] at h
  split_ifs at h <;> simp_all

theorem approve_effect {ownerOverride : Bool} (hs : Sound b) (hst : c.stage = .loaded ownerOverride)
    (hok : c.revives b e = false) (h : approve b c e ownerOverride = some (b', c')) : Effect b c b' c' := by
  unfold approve at h
  split at h
  · rename_i hd
    cases h
    split
    · rename_i hp
      cases hm : b.request c.request.pk with
      | none =>
        rw [Board.modify, Table.modify_of_get_none hm]
        exact .idle rfl rfl
      | some m =>
        simp only [Call.revives, hm, hst, hd, hp, Bool.true_and, Bool.or_eq_false_iff, beq_eq_false_iff_ne] at hok
        obtain ⟨hne, hl⟩ := not_resurrects hok.2
        rw [modify_eq_put hs hm rfl]
        exact .wrote hm (.revived hne hl rfl rfl le_rfl nofun) rfl (.inl rfl) (.inr (.inr (.inl hok.1)))
    · exact .idle rfl rfl
  · split at h
    · cases h
    rename_i m hm
    split at h
    · cases h
      exact .idle rfl rfl
    rename_i hr
    cases h
    have hopen := approvalRefusal_none hr
    have hpk : (approvedRow e.now m).pk = m.pk := by unfold approvedRow; split <;> rfl
    have hready : (approvedRow e.now m).status = .readyForHostaway := by
      unfold approvedRow
      split
      · rename_i h; exact h.1
      · rfl
    rw [modify_eq_put hs (f := fun _ => approvedRow e.now m) hm hpk]
    refine .wrote hm (.reopened hopen hpk ?_ ?_ ?_) (hpk.trans (Table.key_of_get hm)) (.inl ?_)
      (.inr (.inr (.inl (isOpen_of_not hopen).2.1)))
    · unfold approvedRow; split <;> rfl
    · unfold approvedRow; split <;> rfl
    · rw [hready]; nofun
    · dsimp only; split <;> rfl

theorem examine_effect (h : examine b c e = some (b', c')) :
    Effect b c b' c' := by
  unfold examine at h
  split at h
  · cases h
  rename_i m hm
  have hpk : m.pk = c.request.pk := by
    split at hm
    · exact Table.key_of_get hm
    · exact congrArg _ (Option.some.inj hm).symm
  dsimp only at h
  split at h <;> cases h <;> exact .idle hpk rfl

theorem ready_of_executionBlocker (h : executionBlocker e m r = "") : m.status = .readyForHostaway := by
  unfold executionBlocker at h
  by_contra hs
  rw [if_pos hs] at h
  exact absurd h (by decide)

theorem live_of_ownerChangeBlocker (h : ownerChangeBlocker e b false r m = "") :
    m.status = .readyForHostaway ∨ m.status = .awaitingPayment := by
  unfold ownerChangeBlocker at h
  by_contra hs
  rw [not_or] at hs
  split_ifs at h <;> simp_all

/-- A claim that is granted finds the request ready, except where nothing is rechecked. -/
theorem live_of_claimBlocker (h : claimBlocker e b m = "") :
    isLive m ∧ m.status ≠ .superseded ∨ !isCancellation m ∧ m.ownerFinalTotal.isNone := by
  have hlive : m.status = .readyForHostaway ∨ m.status = .awaitingPayment → isLive m ∧ m.status ≠ .superseded := by
    rintro (hs | hs) <;> simp [isLive, isOpen, openStatuses, hs]
  unfold claimBlocker at h
  split at h
  · rename_i hc; exact absurd h hc.2
  rename_i hc
  split at h
  · exact .inl (hlive (live_of_ownerChangeBlocker h))
  rename_i ho
  by_cases hcan : isCancellation m
  · exact .inl (hlive (.inl (ready_of_executionBlocker (not_not.1 fun hne => hc ⟨hcan, hne⟩))))
  · exact .inr ⟨by simpa using hcan, by simpa using ho⟩

theorem claim_false (o : Option Operation) : claim o false = .refused ∨ claim o false = .claimed := by
  unfold claim
  split
  · split_ifs <;> first | exact .inl rfl | exact .inr rfl | contradiction
  · exact .inr rfl

theorem prepareModification_cases (e : Checks) (b : Board) (m : ModificationRequest) :
    prepareModification e b m = (m, .refused) ∨
      attempts m = 0 ∧ claim m.operation false = .claimed ∧
        ((∃ o, o.attemptCount = 0 ∧ prepareModification e b m = ({ m with operation := some o }, .conflicting)) ∨
          claimBlocker e b m = "" ∧ ∃ o, o.attemptCount = 1 ∧
            prepareModification e b m = ({ m with status := .processing, operation := some o }, .claimed)) := by
  rcases claim_false m.operation with hc | hc
  · exact .inl (by simp [prepareModification, hc])
  have hzero : attempts m = 0 := claim_eq_claimed hc
  have hcount : (m.operation.getD (newModification b.reservation)).attemptCount = 0 := by
    cases hop : m.operation with
    | none => rfl
    | some o => simpa [attempts, hop] using hzero
  refine .inr ⟨hzero, hc, ?_⟩
  by_cases hb : claimBlocker e b m = ""
  · exact .inr ⟨hb, claimedRow e.now (m.operation.getD (newModification b.reservation)),
      congrArg (· + 1) hcount, by simp [prepareModification, hc, hb]⟩
  · exact .inl ⟨{ m.operation.getD (newModification b.reservation) with
        status := .blocked, errorCode := claimBlocker e b m },
      hcount, by simp [prepareModification, hc, hb]⟩

theorem prepare_effect (hs : Sound b) (hst : c.stage = .claiming) (hok : c.revives b e = false)
    (h : prepare b c e = some (b', c')) : Effect b c b' c' := by
  unfold prepare at h
  split at h
  · cases h
  rename_i m hm
  cases h
  have hpk : (prepareModification e b m).1.pk = m.pk := by
    rcases prepareModification_cases e b m with hp | ⟨-, -, ⟨o, -, hp⟩ | ⟨-, o, -, hp⟩⟩ <;> rw [hp]
  rw [modify_eq_put hs (f := fun _ => (prepareModification e b m).1) hm hpk]
  rcases prepareModification_cases e b m with hp | ⟨hzero, hc, ⟨o, ho, hp⟩ | ⟨hb, o, ho, hp⟩⟩
  · rw [hp]
    exact .wrote hm ⟨.refl m, rfl, id, .inl⟩ rfl (.inl rfl) (.inr (.inr (em _).symm))
  · rw [hp]
    refine .wrote hm ⟨⟨rfl, ?_, id⟩, rfl, id, .inl⟩ rfl (.inl rfl) (.inr (.inr (em _).symm))
    rw [hzero]; exact Nat.zero_le _
  · rw [hp]
    have hlive : m.status ≠ .superseded ∧ (isLive m ∨ ∀ n ∈ b.requests, liveChange n = false) := by
      rcases live_of_claimBlocker hb with hl | ⟨hcan, hown⟩
      · exact ⟨hl.2, .inl hl.1⟩
      · refine not_resurrects ?_
        simpa [Call.revives, hm, hst, unchecked, hcan, hown, hc] using hok
    refine .wrote hm (.revived hlive.1 hlive.2 rfl rfl ?_ nofun) rfl (.inr ⟨rfl, hzero, ?_, rfl⟩)
      (.inr (.inr (.inr rfl)))
    · rw [hzero]; exact Nat.zero_le _
    · simp [attempts, ho]

/-- A cancellation may be closed at any time. -/
theorem closeOrphan_effect {now : Time} {code : String} (hs : Sound b) (hm : b.request c.request.pk = some m)
    (hcan : isCancellation m) : Effect b c (closeOrphan b c.request.pk now) (c.ended code) := by
  rw [closeOrphan, modify_eq_put hs hm rfl]
  refine .wrote (r := orphanClosed now b.reservation) hm ⟨⟨rfl, le_rfl, fun h => ?_⟩, rfl, nofun, fun h => ?_⟩ rfl
    (.inl rfl) (.inr (.inl hcan))
  · exact absurd h (hs.cancellations m (Table.mem_of_get hm) hcan)
  · change (!isCancellation m && _) = true at h
    simp [hcan] at h

theorem refundOrphan_effect (hs : Sound b) (h : refundOrphan b c e = some (b', c')) : Effect b c b' c' := by
  unfold refundOrphan at h
  split at h
  · cases h
  rename_i m hm
  split at h
  · cases h; exact .idle rfl rfl
  split at h
  · cases h; exact .idle rfl rfl
  rename_i ho
  have hcan : isCancellation m := by
    simp only [orphanedCancellation, Bool.not_eq_true', Bool.not_eq_false, Bool.and_eq_true] at ho
    exact ho.1.1.1
  split at h <;> cases h
  · exact .idle rfl rfl
  · exact closeOrphan_effect hs hm hcan
  · exact .quiet rfl nofun ⟨nofun, nofun, fun _ => ⟨m, hm, hcan⟩⟩

theorem finishedRequest_attempts (s : RequestStatus) (o : OperationStatus) (code : String) (now : Time)
    (m : ModificationRequest) : attempts (finishedRequest s o code now m) = attempts m := by
  cases h : m.operation <;> simp [attempts, finishedRequest, h]

theorem completedRequest_attempts (now : Time) (m : ModificationRequest) :
    attempts (completedRequest now m) = attempts m := by
  cases h : m.operation <;> simp [attempts, completedRequest, h]

theorem conclude_effect {now : Time} (hs : Sound b) (hb : Backed b c) (h : conclude b c now = some (b', c')) :
    Effect b c b' c' := by
  -- the outcome is written over a row that is being executed, or over a cancellation
  have hwrite : ∀ {m m' : ModificationRequest} {r code}, c.stage.inFlight → b.request c.request.pk = some m →
      m'.pk = m.pk → m'.requestType = m.requestType → attempts m ≤ attempts m' → m'.status ≠ .superseded →
      Effect b c (put b m' r) (c.ended code) := by
    intro m m' r code hf hm hpk ht ha hne
    obtain ⟨n, hn, -, hrow⟩ := hb.flight hf
    obtain rfl : m = n := Option.some.inj (hm.symm.trans hn)
    refine .wrote hm ?_ rfl (.inl rfl) (.inl hf)
    rcases hrow with hcan | hp
    · refine ⟨⟨by simp [isCancellation, ht], ha, fun h => ?_⟩, hpk, fun h => absurd h hne, fun h => ?_⟩
      · exact absurd h (hs.cancellations m (Table.mem_of_get hm) hcan)
      · have : isCancellation m' = true := by simpa [isCancellation, ht] using hcan
        simp [liveChange, this] at h
    · exact .revived (by rw [hp]; nofun) (.inl (by simp [isLive, hp])) hpk ht ha hne
  unfold conclude at h
  split at h
  · rename_i m request operation code hm hst
    cases h
    rw [modify_eq_put hs hm rfl]
    exact hwrite (by rw [hst]; rfl) hm rfl rfl (finishedRequest_attempts ..).ge (hb.outcome _ _ _ hst)
  · rename_i m s hm hst
    cases h
    rw [modify_eq_put hs hm rfl]
    exact hwrite (r := changedReservation s now b.reservation) (by rw [hst]; rfl) hm rfl rfl
      (completedRequest_attempts ..).ge nofun
  · rename_i m hm hst
    cases h
    split
    · exact .idle rfl rfl
    · obtain ⟨n, hn, hcan⟩ := hb.orphan hst
      exact closeOrphan_effect hs hn hcan
  · cases h

theorem replied_flight (m : ModificationRequest) (reply : UpdateReply) :
    (replied m reply).inFlight ∧ replied m reply ≠ .orphanRefunded ∧
      ∀ request operation code, replied m reply = .finishing request operation code → request ≠ .superseded := by
  cases reply with
  | uncertain | rejected => exact ⟨rfl, nofun, by rintro _ _ _ ⟨⟩; nofun⟩
  | updated s =>
    simp only [replied]
    split
    · exact ⟨rfl, nofun, nofun⟩
    · exact ⟨rfl, nofun, by rintro _ _ _ ⟨⟩; nofun⟩

theorem advance_effect {event : Event} (hs : Sound b) (hb : Backed b c)
    (hok : ∀ e, event = .check e → c.revives b e = false) (h : advance b c event = some (b', c')) :
    Effect b c b' c' := by
  have hreply : ∀ reply, c.stage.inFlight → Effect b c b { c with stage := replied c.request reply } := by
    intro reply hf
    obtain ⟨-, hor, hout⟩ := replied_flight c.request reply
    exact .quiet rfl (fun _ => hf) ⟨fun _ => hb.flight hf, hout, fun h => absurd h hor⟩
  cases event with
  | check e =>
    simp only [advance] at h
    split at h
    · rename_i hst; exact approve_effect hs hst (hok e rfl) h
    · exact examine_effect h
    · rename_i hst; exact prepare_effect hs hst (hok e rfl) h
    · exact refundOrphan_effect hs h
    · cases h
  | send =>
    simp only [advance] at h
    split at h <;> cases h
    rename_i hst
    have hf : c.stage.inFlight := by rw [hst]; rfl
    exact .quiet rfl (fun _ => hf) ⟨fun _ => hb.flight hf, nofun, nofun⟩
  | reply reply =>
    simp only [advance] at h
    split at h <;> cases h <;> rename_i hst <;> exact hreply _ (by rw [hst]; rfl)
  | write now => exact conclude_effect hs hb h

/-- A call keeps what it relies on when the rows of calls in flight are left to them. -/
theorem Backed.later (h : Backed b c) (hk : Keeps b b') (hu : c.stage.inFlight → Undisturbed b b' c.request.pk) :
    Backed b' c := by
  refine ⟨fun hf => ?_, h.outcome, fun ho => ?_⟩
  · obtain ⟨m, hm, ha, hrow⟩ := h.flight hf
    obtain ⟨m', hm', hkept⟩ := hk _ m hm
    refine ⟨m', hm', ha.trans_le hkept.attempts, ?_⟩
    rw [hkept.cancellation]
    exact hrow.elim .inl (hu hf m m' hm hm')
  · obtain ⟨m, hm, hcan⟩ := h.orphan ho
    obtain ⟨m', hm', hkept⟩ := hk _ m hm
    exact ⟨m', hm', hkept.cancellation.trans hcan⟩

theorem put_key (hm : b.request pk = some m) (hpk : m'.pk = m.pk) : m'.pk = pk := hpk.trans (Table.key_of_get hm)

theorem Effect.board (he : Effect b c b' c') (hs : Sound b) : Sound b' ∧ Keeps b b' := by
  cases he with
  | quiet => exact ⟨hs, .refl b⟩
  | wrote hm hr _ _ _ =>
    have hm' := hm
    rw [← put_key hm hr.pk] at hm'
    exact ⟨hs.put hm' hr, .put hm' hr.toKept⟩

theorem Effect.undisturbed (he : Effect b c b' c') {d : Call}
    (hne : c.stage.inFlight → d.request.pk ≠ c.request.pk) : Undisturbed b b' d.request.pk := by
  intro n n' hn hn' hp
  cases he with
  | quiet => rw [hn] at hn'; exact .inr (Option.some.inj hn' ▸ hp)
  | @wrote m m' r c' hm hr _ _ hkeep =>
    by_cases hk : d.request.pk = m'.pk
    · rw [hk] at hn hn'
      have hmk := put_key hm hr.pk
      rw [hmk] at hn
      obtain rfl : m = n := Option.some.inj (hm.symm.trans hn)
      rw [← hmk] at hm
      obtain rfl : m' = n' := Option.some.inj ((request_put hm).symm.trans hn')
      rcases hkeep with hf | hcan | hnp | hp'
      · exact absurd (hk.trans hmk) (hne hf)
      · exact .inl hcan
      · exact absurd hp hnp
      · exact .inr hp'
    · rw [request_put_ne hk, hn] at hn'
      exact .inr (Option.some.inj hn' ▸ hp)

/-- A call that holds a claim afterwards held it before, or took it on a row that had none. -/
theorem Effect.backed (he : Effect b c b' c') :
    Backed b' c' ∧ c'.request.pk = c.request.pk ∧
      (c'.stage.inFlight → c.stage.inFlight ∨ ∃ m, b.request c.request.pk = some m ∧ attempts m = 0) := by
  cases he with
  | quiet hpk hf hb => exact ⟨hb, hpk, fun h => .inl (hf h)⟩
  | @wrote m m' r c' hm hr hpk hst _ =>
    rcases hst with hidle | ⟨hst, hzero, hpos, hp⟩
    · exact ⟨.of_idle hidle, hpk, fun hf => by rw [Stage.inFlight_of_idle hidle] at hf; cases hf⟩
    · refine ⟨⟨fun _ => ⟨m', ?_, hpos, .inr hp⟩, by rw [hst]; nofun, by rw [hst]; nofun⟩, hpk, fun _ => .inr ⟨m, hm, hzero⟩⟩
      rw [hpk, ← put_key hm hr.pk]
      exact request_put (by rw [put_key hm hr.pk]; exact hm)

/-! ### Runs -/

structure Safe (w : World) : Prop where
  sound : Sound w.board
  backed : ∀ (i : ℕ) c, w.calls[i]? = some c → Backed w.board c
  apart : ∀ (i j : ℕ) c d, w.calls[i]? = some c → w.calls[j]? = some d → c.stage.inFlight → d.stage.inFlight →
    c.request.pk = d.request.pk → i = j
  sends : ∀ s ∈ w.sends, s.2 ≠ some .superseded

variable {w : World}

theorem Safe.onBoard (h : Safe w) {o : Except String Board}
    (ho : ∀ b', o = .ok b' → Sound b' ∧ Keeps w.board b' ∧ ∀ k, Undisturbed w.board b' k) :
    Safe (w.onBoard o) ∧ Keeps w.board (w.onBoard o).board := by
  cases o with
  | error => exact ⟨h, .refl _⟩
  | ok b' =>
    obtain ⟨hs, hk, hu⟩ := ho b' rfl
    exact ⟨⟨hs, fun i c hc => (h.backed i c hc).later hk fun _ => hu _, h.apart, h.sends⟩, hk⟩

theorem Safe.load (h : Safe w) {stage : Stage} (hidle : stage.idle) :
    Safe (w.load pk stage) ∧ Keeps w.board (w.load pk stage).board := by
  unfold World.load
  split
  · exact ⟨h, .refl _⟩
  rename_i m hm
  -- a call of the longer list is an old one, or the idle new one
  have hcalls : ∀ (i : ℕ) c, (w.calls ++ [⟨m, w.board.reservation, stage⟩])[i]? = some c →
      w.calls[i]? = some c ∨ c.stage.idle := by
    intro i c hc
    rw [List.getElem?_append] at hc
    split at hc
    · exact .inl hc
    · rw [List.getElem?_singleton] at hc
      split at hc <;> cases hc
      exact .inr hidle
  refine ⟨⟨h.sound, fun i c hc => ?_, fun i j c d hc hd hf hf' hpk => ?_, h.sends⟩, .refl _⟩
  · rcases hcalls i c hc with hc | hc
    · exact h.backed i c hc
    · exact .of_idle hc
  · rcases hcalls i c hc with hc | hc
    · rcases hcalls j d hd with hd | hd
      · exact h.apart i j c d hc hd hf hf' hpk
      · rw [Stage.inFlight_of_idle hd] at hf'; cases hf'
    · rw [Stage.inFlight_of_idle hc] at hf; cases hf

theorem Safe.moved (h : Safe w) {i : ℕ} {sent : List (Uuid × Option RequestStatus)} (hc : w.calls[i]? = some c)
    (he : Effect w.board c b' c') (hsent : ∀ s ∈ sent, s.2 ≠ some .superseded) :
    Safe ⟨b', w.calls.set i c', w.sends ++ sent⟩ ∧ Keeps w.board b' := by
  obtain ⟨hs, hk⟩ := he.board h.sound
  obtain ⟨hb, hpk, hfresh⟩ := he.backed
  have hcalls : ∀ (j : ℕ) d, (w.calls.set i c')[j]? = some d → j = i ∧ d = c' ∨ j ≠ i ∧ w.calls[j]? = some d := by
    intro j d hd
    rw [List.getElem?_set] at hd
    split at hd
    · split at hd <;> cases hd
      rename_i hij _
      exact .inl ⟨hij.symm, rfl⟩
    · rename_i hij
      exact .inr ⟨fun h => hij h.symm, hd⟩
  -- no other call in flight is about the request of a call that takes the claim
  have hother : ∀ (j : ℕ) d, j ≠ i → w.calls[j]? = some d → d.stage.inFlight → c'.stage.inFlight →
      d.request.pk ≠ c.request.pk := by
    intro j d hj hd hfd hf hdk
    rcases hfresh hf with hfc | ⟨m, hm, hzero⟩
    · exact hj (h.apart j i d c hd hc hfd hfc hdk)
    · obtain ⟨n, hn, hpos, -⟩ := (h.backed j d hd).flight hfd
      rw [hdk, hm] at hn
      obtain rfl := Option.some.inj hn
      omega
  refine ⟨⟨hs, fun j d hd => ?_, fun j k d f hd hf hfd hff hdf => ?_, fun s hs => ?_⟩, hk⟩
  · rcases hcalls j d hd with ⟨-, rfl⟩ | ⟨hj, hd⟩
    · exact hb
    · exact (h.backed j d hd).later hk fun hfd => he.undisturbed fun hfc hdk => hj (h.apart j i d c hd hc hfd hfc hdk)
  · rcases hcalls j d hd with ⟨rfl, rfl⟩ | ⟨hj, hdj⟩ <;> rcases hcalls k f hf with ⟨rfl, rfl⟩ | ⟨hk', hfk⟩
    · rfl
    · exact absurd (hdf.symm.trans hpk) (hother k f hk' hfk hff hfd)
    · exact absurd (hdf.trans hpk) (hother j d hj hdj hfd hff)
    · exact h.apart j k d f hdj hfk hfd hff hdf
  · rcases List.mem_append.1 hs with hs | hs
    · exact h.sends s hs
    · exact hsent s hs

theorem Safe.step (h : Safe w) {a : Action} (hok : w.revives a = false) :
    Safe (w.step a) ∧ Keeps w.board (w.step a).board := by
  cases a with
  | quote given q => exact h.onBoard fun b' hq => ⟨h.sound.quote hq, Keeps.quote hq⟩
  | ownerTotal pk o => exact h.onBoard fun b' ho => ownerTotal_spec h.sound ho
  | cancellation q => exact h.onBoard fun b' hq => ⟨h.sound.cancellation hq, Keeps.cancellation hq⟩
  | execute pk => exact h.load rfl
  | automatic pk ownerOverride => exact h.load rfl
  | event i event =>
    simp only [World.step]
    split
    · exact ⟨h, .refl _⟩
    rename_i c hc
    split
    · exact ⟨h, .refl _⟩
    rename_i b' c' hadv
    have hb := h.backed i c hc
    refine h.moved hc (advance_effect h.sound hb ?_ hadv) ?_
    · rintro e rfl
      simpa [World.revives, hc] using hok
    · cases event with
      | send =>
        -- a request that is sent is being executed, or it is a cancellation
        simp only [advance] at hadv
        split at hadv <;> cases hadv
        rename_i hst
        obtain ⟨m, hm, -, hrow⟩ := hb.flight (by rw [hst]; rfl)
        intro s hs
        rw [World.sent, List.mem_singleton] at hs
        rw [hs, hm]
        intro hsup
        have hsup : m.status = .superseded := Option.some.inj hsup
        rcases hrow with hcan | hp
        · exact h.sound.cancellations m (Table.mem_of_get hm) hcan hsup
        · rw [hp] at hsup; cases hsup
      | check | reply | write => exact nofun

/-- Any requests of a reservation with at most one live change, and no execution under way. -/
structure World.Quiet (w : World) : Prop where
  sound : Sound w.board
  calls : w.calls = []
  sends : w.sends = []

theorem World.Quiet.safe (h : w.Quiet) : Safe w :=
  ⟨h.sound, by simp [h.calls], by simp [h.calls], by simp [h.sends]⟩

theorem Sound.length_le (h : Sound b) : (b.requests.filter liveChange).length ≤ 1 := by
  have hnd : (b.requests.filter liveChange).Nodup := h.keyed.of_map.filter _
  match hl : b.requests.filter liveChange with
  | [] | [_] => simp
  | m :: n :: l =>
    have hmem : ∀ a ∈ b.requests.filter liveChange, a ∈ b.requests ∧ liveChange a := fun a => List.mem_filter.1
    rw [hl] at hnd hmem
    have hm := hmem m (by simp)
    have hn := hmem n (by simp)
    obtain rfl := h.oneLive m hm.1 n hn.1 hm.2 hn.2
    simp at hnd

open Machine in
/-- As long as no check brings a closed request back, updates are only sent for requests that are not superseded, at
most one change is live, and a superseded request stays superseded. -/
theorem superseded_requests_stay {w : World} (h : w.Quiet) (as bs : List Action)
    (hok : Meets World.step (fun w a => w.revives a = false) w (as ++ bs)) :
    (∀ s ∈ (run World.step w (as ++ bs)).sends, s.2 ≠ some .superseded) ∧
      ((run World.step w (as ++ bs)).board.requests.filter liveChange).length ≤ 1 ∧
      ∀ pk m, (run World.step w as).board.request pk = some m → m.status = .superseded →
        ∃ m', (run World.step w (as ++ bs)).board.request pk = some m' ∧ m'.status = .superseded := by
  have hstep : ∀ w a, Safe w → w.revives a = false → Safe (w.step a) := fun _ _ h hok => (h.step hok).1
  obtain ⟨has, hbs⟩ := meets_append.1 hok
  have hmid := has.inv hstep h.safe
  have hend := hbs.inv hstep hmid
  have hkeeps : Keeps (run World.step w as).board (run World.step (run World.step w as) bs).board :=
    hbs.rel (R := fun u v => Keeps u.board v.board) hstep (fun _ => .refl _) (fun _ _ _ => .trans)
      (fun _ _ h hok => (h.step hok).2) hmid
  rw [run_append]
  refine ⟨hend.sends, hend.sound.length_le, fun pk m hm hs => ?_⟩
  obtain ⟨m', hm', hk⟩ := hkeeps pk m hm
  exact ⟨m', hm', hk.superseded hs⟩

/-- Where nothing is rechecked the claim is granted whatever the status says by now. -/
theorem processing_of_unchecked (h : unchecked m) :
    (prepareModification e b m).2 = .claimed ∧ (prepareModification e b m).1.status = .processing := by
  simp only [unchecked, Bool.and_eq_true, Bool.not_eq_true', Option.isNone_iff_eq_none, beq_iff_eq] at h
  obtain ⟨⟨hcan, hown⟩, hc⟩ := h
  have hb : claimBlocker e b m = "" := by simp [claimBlocker, hcan, hown]
  simp [prepareModification, hc, hb]

/-! ### Two quotes for one stay -/

def stay : Reservation where
  pk := ⟨"6c1e7c1a-1f60-4f0e-9a51-0d5d7c2f1b01", rfl⟩
  isTest := false
  bookingIntent := some ⟨"6c1e7c1a-1f60-4f0e-9a51-0d5d7c2f1b02", rfl⟩
  property := some ⟨1, some 40160, some 40161⟩
  hostawayReservationId := some 77001
  hostawayListingMapId := some 40161
  channelId := some 2000
  sourceType := .directWebsite
  normalizedStatus := .confirmed
  hostawayStatus := "new"
  paymentStatus := "paid"
  checkIn := 100
  checkOut := 104
  guests := 2
  currency := "SAR"
  totalPrice := 1200
  sourceUpdatedAt := none
  lastSyncedAt := some 1
  confirmedAt := some 1
  cancelledAt := none
  pointsConfirmationStarted := false
  hold := false

def firstRequest : Uuid := ⟨"6c1e7c1a-1f60-4f0e-9a51-0d5d7c2f1b03", rfl⟩

def secondRequest : Uuid := ⟨"6c1e7c1a-1f60-4f0e-9a51-0d5d7c2f1b04", rfl⟩

/-- A shorter stay, priced less: nothing has to be paid and the request is ready at once. -/
def shorter (pk : Uuid) (nights : ℕ) (now : Time) : Quoted :=
  ⟨pk, .changeDates, 100, 100 + nights, 2, 300 * nights, "SAR", none, pk.str, true, false, now, now + 100⟩

def liveChecks (now : Time) : Checks :=
  ⟨now, true, true, true, true, true, "production", "", "", none, none, none, "ready", .refused "", []⟩

def quietWorld : World := ⟨⟨stay, []⟩, [], []⟩

/-- The first request is superseded before its execution is approved, the second one is carried out. -/
def orderlyRun : List Action :=
  [.quote stay (shorter firstRequest 3 10), .automatic firstRequest false, .quote stay (shorter secondRequest 2 11)]

def carriedOut : List Action :=
  [.event 0 (.check (liveChecks 12)), .automatic secondRequest false, .event 1 (.check (liveChecks 13)),
   .event 1 (.check (liveChecks 14)), .event 1 (.check (liveChecks 15)), .event 1 .send,
   .event 1 (.reply (.updated ⟨77001, 40161, some 2000, "modified", 100, 102, 2, "SAR", 600, "paid", none⟩)),
   .event 1 (.write 16)]

theorem superseded_requests_stay_carried_out :
    (Machine.run World.step quietWorld (orderlyRun ++ carriedOut)).sends = [(secondRequest, some .processing)] ∧
      ∃ m, (Machine.run World.step quietWorld (orderlyRun ++ carriedOut)).board.request firstRequest = some m ∧
        m.status = .superseded := by
  have hquiet : quietWorld.Quiet := ⟨⟨by simp [quietWorld], by simp [quietWorld], by simp [quietWorld]⟩, rfl, rfl⟩
  refine ⟨by decide +kernel, ?_⟩
  obtain ⟨m, hm, hs⟩ : ∃ m, (Machine.run World.step quietWorld orderlyRun).board.request firstRequest = some m ∧
      m.status = .superseded := by
    refine ⟨supersede (quotedRequest stay (shorter firstRequest 3 10)), ?_, ?_⟩ <;> decide +kernel
  exact (superseded_requests_stay hquiet orderlyRun carriedOut (by decide +kernel)).2.2 firstRequest m hm hs

/-- The execution of the first request has checked that it is ready when the second quote arrives. -/
def lateRun : List Action :=
  [.quote stay (shorter firstRequest 3 10), .automatic firstRequest false, .event 0 (.check (liveChecks 11)),
   .event 0 (.check (liveChecks 12)), .quote stay (shorter secondRequest 2 13)]

def claimedAnyway : List Action := [.event 0 (.check (liveChecks 14)), .event 0 .send]

/-- The superseded request is claimed and sent, next to the request that superseded it. -/
theorem superseded_request_sent :
    ((Machine.run World.step quietWorld lateRun).board.request firstRequest).map (·.status) = some .superseded ∧
      ((Machine.run World.step quietWorld (lateRun ++ claimedAnyway)).board.request firstRequest).map (·.status) =
        some .processing ∧
      (Machine.run World.step quietWorld (lateRun ++ claimedAnyway)).sends = [(firstRequest, some .processing)] ∧
      ((Machine.run World.step quietWorld (lateRun ++ claimedAnyway)).board.requests.filter liveChange).length = 2 := by
  decide +kernel

end Apartments.Hostaway.Changes
