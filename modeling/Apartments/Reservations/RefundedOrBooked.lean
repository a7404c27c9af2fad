import Apartments.Hostaway.OneRow
import Apartments.Reservations.Orphans

/-!
# Refunded or booked

The claim of a create call looks at the operation and the refund of an orphan at the reservation, and neither looks at
what the other leaves. `races` is a claim that is granted after the check of a refund call has passed. Without it a
refund and a create request exclude each other, and what is closed was never booked.
-/

namespace Apartments.Hostaway

/-- A call that ends without a confirmation does not give the reservation back. -/
def Settles (stage : Stage) : Prop :=
  ∀ code operation status id, stage = .finishing code operation status id → status ≠ .readyForHostaway

variable {rows rows' : Rows} {c : Call} {event : Event} {stage : Stage}

theorem normalizeStatus_ne_ready (s : String) : normalizeStatus s ≠ .readyForHostaway := by
  have hmap : ∀ p ∈ statusMap, p.2 ≠ .readyForHostaway := by decide
  unfold normalizeStatus
  cases h : statusMap.lookup (Text.casefold (Text.strip s)) with
  | none => exact nofun
  | some status =>
    obtain ⟨l, l', hl, -⟩ := List.lookup_eq_some_iff.1 h
    exact hmap (_, status) (hl ▸ List.mem_append_right _ List.mem_cons_self)

theorem createdStatus_ne_ready (kind : Kind) (s : Snapshot) : createdStatus kind s ≠ .readyForHostaway := by
  unfold createdStatus
  split
  · exact nofun
  · exact normalizeStatus_ne_ready _

theorem replied_settles (c : Call) (request : CreateRequest) (reply : CreateReply) : Settles (replied c request reply) := by
  intro code operation status id h
  cases reply with
  | uncertain | rejected =>
    obtain ⟨-, -, rfl, -⟩ := Stage.finishing.inj h
    exact nofun
  | created s =>
    simp only [replied] at h
    split at h
    · obtain ⟨-, -, rfl, -⟩ := Stage.finishing.inj h
      exact nofun
    · cases h

theorem advance_settles (h : advance rows c event = some (rows', stage)) : Settles stage := by
  cases event with
  | gates surroundings =>
    simp only [advance] at h
    split at h
    · split at h <;> cases h <;> rintro _ _ _ _ ⟨⟩
    · cases h
  | availability answer =>
    simp only [advance] at h
    split at h
    · rename_i channelId hst
      cases h
      intro code operation status id hs
      have hclaims := answered_claims c channelId answer
      rw [hs] at hclaims
      cases hclaims
    · cases h
  | send =>
    simp only [advance] at h
    split at h <;> cases h
    rintro _ _ _ _ ⟨⟩
  | reply reply =>
    simp only [advance] at h
    split at h <;> cases h
    exact replied_settles _ _ _
  | write now conflicts =>
    obtain ⟨kind, snapshot, s⟩ := c
    simp only [advance] at h
    cases s with
    | start | asking | sending | sent | done => cases h
    | failing | savingBlocked | finishing | confirming =>
      cases h
      rintro _ _ _ _ ⟨⟩
    | blocking code =>
      simp only [transact] at h
      split at h <;> cases h
      · rintro _ _ _ _ ⟨⟩
      · split <;> rintro _ _ _ _ ⟨⟩
    | preparing request =>
      have hp : (prepareOperation rows request now conflicts).2 = stage := congrArg Prod.snd (Option.some.inj h)
      rw [← hp]
      unfold prepareOperation
      split <;> rintro _ _ _ _ ⟨⟩

/-- The claim of a create is granted. -/
def granted (rows : Rows) (c : Call) (event : Event) : Bool :=
  match event, c.stage with
  | .write _ conflicts, .preparing _ => claim rows.operation conflicts == .claimed
  | _, _ => false

/-- Short of a claim the attempts stay as they are, and a reservation that is ready then has not been touched. -/
theorem advance_kept (h : advance rows c event = some (rows', stage)) (hs : Settles c.stage) (hg : granted rows c event = false) :
    rows'.attempts = rows.attempts ∧
      (rows'.reservation.normalizedStatus = .readyForHostaway → rows'.reservation = rows.reservation) := by
  have hsame : rows.attempts = rows.attempts ∧
      (rows.reservation.normalizedStatus = .readyForHostaway → rows.reservation = rows.reservation) := ⟨rfl, fun _ => rfl⟩
  obtain ⟨kind, snapshot, s⟩ := c
  cases event with
  | gates surroundings =>
    simp only [advance] at h
    split at h
    · split at h <;> cases h <;> exact hsame
    · cases h
  | availability | send | reply =>
    simp only [advance] at h
    split at h <;> cases h
    exact hsame
  | write now conflicts =>
    simp only [advance] at h
    cases s with
    | start | asking | sending | sent | done => cases h
    | failing code =>
      cases h
      exact ⟨rfl, by rintro ⟨⟩⟩
    | blocking code =>
      simp only [transact] at h
      split at h <;> cases h
      · rename_i hop
        exact ⟨by simp [Rows.attempts, hop, newBlocked], fun _ => rfl⟩
      · exact hsame
    | savingBlocked code =>
      cases h
      exact ⟨by cases hop : rows.operation <;> simp [Rows.attempts, hop], fun _ => rfl⟩
    | finishing code operation status id =>
      cases h
      refine ⟨by cases hop : rows.operation <;> simp [Rows.attempts, hop, finishedOperation], fun hr => ?_⟩
      exact absurd hr (hs _ _ _ _ rfl)
    | confirming request s =>
      cases h
      refine ⟨by cases hop : rows.operation <;> simp [Rows.attempts, hop, succeededRow], fun hr => ?_⟩
      exact absurd hr (createdStatus_ne_ready _ _)
    | preparing request =>
      have hp : prepareOperation rows request now conflicts = (rows', stage) := Option.some.inj h
      simp only [granted, beq_eq_false_iff_ne, ne_eq] at hg
      unfold prepareOperation at hp
      split at hp
      · cases hp
        exact hsame
      · cases hp
        exact ⟨by cases hop : rows.operation <;> simp [Rows.attempts, hop, newPrepared], fun _ => rfl⟩
      · rename_i hclaim
        exact absurd hclaim hg

/-- A granted claim leaves a reservation that is not ready. -/
theorem advance_granted (h : advance rows c event = some (rows', stage)) (hg : granted rows c event = true) :
    rows'.reservation.normalizedStatus ≠ .readyForHostaway := by
  obtain ⟨kind, snapshot, s⟩ := c
  unfold granted at hg
  split at hg
  · rename_i now conflicts request hst
    have hp : transact rows ⟨kind, snapshot, s⟩ now conflicts = some (rows', stage) := h
    simp only at hst
    simp only [transact, hst, prepareOperation, beq_iff_eq.1 hg] at hp
    cases hp
    rintro ⟨⟩
  · cases hg

end Apartments.Hostaway

namespace Apartments.Orphans

open Payments Hostaway HyperPay Refunds

/-- The check has passed, and the refund is not turned down. -/
def Stage.past : Stage → Bool
  | .submitting _ | .sending _ | .sent _ | .closing _ => true
  | .checking | .done _ => false

namespace Case

/-- A refund call has passed its check, or a refund has been sent. -/
def committed (c : Case) : Bool := c.calls.any (·.stage.past) || !c.refunds.isEmpty

/-- A create call is granted its claim beside a refund of the orphan. -/
def races (c : Case) : Action → Bool
  | .event i event => c.committed && c.world.calls[i]?.any fun call => Hostaway.granted c.world.rows call event
  | .create _ | .refund _ | .visit .. => false

/-- A reservation whose create was not tried, or has left READY_FOR_HOSTAWAY, and no call of either kind. -/
structure Idle (c : Case) : Prop where
  untouched : c.world.Untouched
  left : c.world.rows.attempts ≠ 0 → c.reservation.normalizedStatus ≠ .readyForHostaway
  calls : c.calls = []
  refunds : c.refunds = []
  closed : c.closed = []

/-- While a refund call is past its check, no create was tried and the reservation has no id. -/
structure Apart (c : Case) : Prop where
  oneClaim : World.OneClaim c.world
  settles : ∀ call ∈ c.world.calls, Settles call.stage
  left : c.world.rows.attempts ≠ 0 → c.reservation.normalizedStatus ≠ .readyForHostaway
  untried : c.committed = true → c.world.rows.attempts = 0
  unbooked : c.calls.any (·.stage.past) = true → c.reservation.hostawayReservationId = none
  closed : ∀ r ∈ c.closed, r.hostawayReservationId = none

variable {c c' : Case} {a : Action}

theorem Idle.apart (h : c.Idle) : c.Apart where
  oneClaim := h.untouched.oneClaim
  settles := by simp [h.untouched.noCalls]
  left := h.left
  untried := by simp [committed, h.calls, h.refunds]
  unbooked := by simp [h.calls]
  closed := by simp [h.closed]

/-! ### Create calls -/

theorem Apart.create (h : c.Apart) (a : Hostaway.Action)
    (hok : ∀ i event, a = .event i event → c.committed = true →
      (c.world.calls[i]?.any fun call => Hostaway.granted c.world.rows call event) = false) :
    Apart { c with world := c.world.step a } := by
  have hone := h.oneClaim.step a
  rcases c.world.step_cases a with hs | ⟨kind, hs⟩ | ⟨i, call, event, rows, stage, rfl, hc, hadv, hs⟩
  · rw [hs]
    exact h
  · refine ⟨hone, ?_, ?_, ?_, ?_, h.closed⟩ <;> simp only [hs]
    · intro call hcall
      rcases List.mem_append.1 hcall with hcall | hcall
      · exact h.settles call hcall
      · obtain rfl := List.mem_singleton.1 hcall
        exact nofun
    · exact h.left
    · exact h.untried
    · exact h.unbooked
  · have hset := h.settles call (List.mem_of_getElem? hc)
    have hcalls : ∀ call' ∈ (c.world.moved i call rows stage).calls, Settles call'.stage := by
      intro call' hcall
      rcases List.mem_or_eq_of_mem_set hcall with hcall | rfl
      · exact h.settles call' hcall
      · exact advance_settles hadv
    cases hg : Hostaway.granted c.world.rows call event with
    | true =>
      have hno : c.committed = false := by
        by_contra hcom
        have := hok i event rfl (by simpa using hcom)
        simp [hc, hg] at this
      have hpast : c.calls.any (·.stage.past) = false := (Bool.or_eq_false_iff.1 hno).1
      refine ⟨hone, ?_, ?_, ?_, ?_, h.closed⟩ <;> simp only [hs]
      · exact hcalls
      · exact fun _ => advance_granted hadv hg
      · intro hcom
        exact absurd hcom (by simpa [committed] using hno)
      · intro hp
        exact absurd hp (by simp [hpast])
    | false =>
      obtain ⟨hatt, hready⟩ := advance_kept hadv hset hg
      refine ⟨hone, ?_, ?_, ?_, ?_, h.closed⟩ <;> simp only [hs]
      · exact hcalls
      · intro hne hr
        have hsame := hready hr
        refine h.left (fun h0 => hne (hatt.trans h0)) ?_
        rw [Case.reservation, ← hsame]
        exact hr
      · exact fun hcom => hatt.trans (h.untried hcom)
      · intro hp
        -- no call has claimed the create, so this is no final write
        have h0 := h.untried (by simp [committed, hp])
        have hfin : call.stage.final = 0 := by
          have := call.stage.final_le_claims
          have := c.world.claims_le hc
          have := (h.oneClaim.idle h0).1
          omega
        obtain ⟨status, hr⟩ := (OneRow.advance_frame hadv hfin).1
        show rows.reservation.hostawayReservationId = none
        rw [hr]
        exact h.unbooked hp

/-! ### Refund calls -/

theorem any_past_set {calls : List Call} {i : ℕ} {call : Call} {stage : Stage}
    (h : (calls.set i { call with stage }).any (·.stage.past) = true) :
    calls.any (·.stage.past) = true ∨ stage.past = true := by
  obtain ⟨call', hmem, hp⟩ := List.any_eq_true.1 h
  rcases List.mem_or_eq_of_mem_set hmem with hmem | rfl
  · exact .inl (List.any_eq_true.2 ⟨call', hmem, hp⟩)
  · exact .inr hp

theorem past_of_get {i : ℕ} {call : Call} (hi : c.calls[i]? = some call) (hp : call.stage.past = true) :
    c.calls.any (·.stage.past) = true :=
  List.any_eq_true.2 ⟨call, List.mem_of_getElem? hi, hp⟩

/-- A refund call goes on; past its check it goes only from an orphan that is ready and has no id. -/
theorem Apart.goes (h : c.Apart) {i : ℕ} {call : Call} (hi : c.calls[i]? = some call) (stage : Stage)
    (hw : c'.world = c.world) (hcl : c'.closed = c.closed) (hcalls : c'.calls = c.calls.set i { call with stage })
    (href : c'.refunds = c.refunds ∨ call.stage.past = true)
    (hpast : stage.past = true → call.stage.past = true ∨
      c.reservation.normalizedStatus = .readyForHostaway ∧ c.reservation.hostawayReservationId = none) : c'.Apart := by
  have hres : c'.reservation = c.reservation := by rw [Case.reservation, hw]; rfl
  have hready : c.reservation.normalizedStatus = .readyForHostaway → c.world.rows.attempts = 0 := by
    intro hr
    by_contra hne
    exact h.left hne hr
  -- that a call is past its check is old, or is granted to an orphan
  have hany : c'.calls.any (·.stage.past) = true → c.calls.any (·.stage.past) = true ∨
      c.reservation.normalizedStatus = .readyForHostaway ∧ c.reservation.hostawayReservationId = none := by
    intro hp
    rw [hcalls] at hp
    rcases any_past_set hp with hp | hp
    · exact .inl hp
    · exact (hpast hp).imp_left (past_of_get hi)
  refine ⟨hw ▸ h.oneClaim, hw ▸ h.settles, ?_, ?_, ?_, hcl ▸ h.closed⟩
  · rw [hw, hres]
    exact h.left
  · rw [hw]
    intro hcom
    simp only [committed, Bool.or_eq_true] at hcom
    rcases hcom with hp | hrefund
    · rcases hany hp with hp | ⟨hr, -⟩
      · exact h.untried (by simp [committed, hp])
      · exact hready hr
    · rcases href with href | hp
      · rw [href] at hrefund
        exact h.untried (by simp only [committed, hrefund, Bool.or_true])
      · exact h.untried (by simp [committed, past_of_get hi hp])
  · rw [hres]
    intro hp
    rcases hany hp with hp | ⟨-, hid⟩
    · exact h.unbooked hp
    · exact hid

theorem Apart.congr (h : c.Apart) (hw : c'.world = c.world) (hcl : c'.closed = c.closed) (hcalls : c'.calls = c.calls)
    (href : c'.refunds = c.refunds) : c'.Apart := by
  have hres : c'.reservation = c.reservation := by rw [Case.reservation, hw]; rfl
  have hcom : c'.committed = c.committed := by rw [committed, hcalls, href]; rfl
  refine ⟨hw ▸ h.oneClaim, hw ▸ h.settles, ?_, ?_, ?_, hcl ▸ h.closed⟩
  · rw [hw, hres]
    exact h.left
  · rw [hw, hcom]
    exact h.untried
  · rw [hres, hcalls]
    exact h.unbooked

/-- What has no id may be closed. -/
theorem Apart.complete (h : c.Apart) (hid : c.reservation.hostawayReservationId = none) (now : Time) :
    (c.complete now).Apart := by
  unfold Case.complete
  split
  · exact h
  · refine ⟨⟨h.oneClaim.idle, h.oneClaim.claimed, h.oneClaim.sent⟩, h.settles, fun _ => nofun, h.untried, fun _ => hid, ?_⟩
    intro r hr
    rcases List.mem_append.1 hr with hr | hr
    · exact h.closed r hr
    · rw [List.mem_singleton.1 hr]
      exact hid

theorem complete_calls (c : Case) (now : Time) : (c.complete now).calls = c.calls := by
  unfold Case.complete
  split <;> rfl

/-- A call that has closed the record, or has been refused, is over. -/
theorem Apart.over (h : c.Apart) {i : ℕ} {call : Call} (hi : c.calls[i]? = some call) (code : String) :
    (c.stay i call (.done code)).Apart :=
  h.goes hi (.done code) rfl rfl rfl (.inl rfl) nofun

theorem Apart.closes (h : c.Apart) {i : ℕ} {call : Call} (hi : c.calls[i]? = some call)
    (hid : c.reservation.hostawayReservationId = none) (now : Time) (code : String) :
    ((c.complete now).stay i call (.done code)).Apart :=
  (h.complete hid now).over (by rw [complete_calls]; exact hi) code

theorem Apart.settled (h : c.Apart) {i : ℕ} {call : Call} (hi : c.calls[i]? = some call)
    (ho : orphanedCancellation c.reservation c.request = true) (now : Time) (refund : RefundObligation) :
    (c.settled i call now refund).Apart := by
  simp only [orphanedCancellation, Bool.and_eq_true, beq_iff_eq, Option.isNone_iff_eq_none] at ho
  unfold Case.settled
  split
  · exact h.closes hi ho.2 now _
  · exact h.over hi _
  · exact h.goes hi (.submitting refund.pk) rfl rfl rfl (.inl rfl) fun _ => .inr ⟨ho.1.2, ho.2⟩
  · exact h.goes hi (.submitting refund.pk) rfl rfl rfl (.inl rfl) fun _ => .inr ⟨ho.1.2, ho.2⟩

theorem Apart.check (h : c.Apart) {i : ℕ} {call : Call} (hi : c.calls[i]? = some call) (k : Checks) :
    (c.check i call k).Apart := by
  unfold Case.check
  split
  · exact h.over hi _
  split
  · exact h.over hi _
  split
  · exact h.over hi _
  rename_i ho
  have ho : orphanedCancellation c.reservation c.request = true := by simpa using ho
  have hid : c.reservation.hostawayReservationId = none := by
    simp only [orphanedCancellation, Bool.and_eq_true, Option.isNone_iff_eq_none] at ho
    exact ho.2
  split
  · have hdesk : (c.withDesk (testCancelled c.desk c.request.pk)).Apart := h.congr rfl rfl rfl rfl
    exact hdesk.closes hi hid _ _
  split
  · exact h.over hi _
  split
  · exact h.over hi _
  split
  · exact h.settled hi ho _ _
  split
  · rename_i refund _
    split
    · exact h.over hi _
    · have hrec : Apart { c with account := c.account.record refund } := h.congr rfl rfl rfl rfl
      exact hrec.settled hi ho _ _
  · exact h.over hi _
  · exact h.over hi _

theorem Apart.visit (h : c.Apart) {i : ℕ} {call : Call} (hi : c.calls[i]? = some call) (event : Event) :
    (c.visit i call event).Apart := by
  cases event with
  | check k =>
    simp only [Case.visit]
    split
    · exact h.check hi k
    · exact h
  | submit settings now =>
    simp only [Case.visit]
    split
    · rename_i refund hst
      split
      · exact h.over hi _
      · split
        · exact h.over hi _
        · exact h.goes hi (.sending _) rfl rfl rfl (.inl rfl) fun _ => .inl (by rw [hst]; rfl)
    · exact h
  | send now =>
    simp only [Case.visit]
    split
    · rename_i s hst
      have hp : call.stage.past = true := by rw [hst]; rfl
      split
      · exact h.goes hi (.sent s) rfl rfl rfl (.inr hp) fun _ => .inl hp
      · exact h.goes hi (.done _) rfl rfl rfl (.inl rfl) nofun
    · exact h
  | answer reply now =>
    simp only [Case.visit]
    split
    · rename_i s hst
      exact h.goes hi _ rfl rfl rfl (.inl rfl) fun _ => .inl (by rw [hst]; rfl)
    · exact h
  | close now =>
    simp only [Case.visit]
    split
    · rename_i code hst
      exact h.closes hi (h.unbooked (past_of_get hi (by rw [hst]; rfl))) now _
    · exact h

theorem Apart.step (h : c.Apart) (hok : c.races a = false) : (c.step a).Apart := by
  cases a with
  | create kind => exact h.create (.call kind) fun i event he => by cases he
  | event i event =>
    refine h.create (.event i (c.informed event)) fun j event' he hcom => ?_
    obtain ⟨rfl, rfl⟩ := Hostaway.Action.event.inj he
    have hgates : ∀ call, Hostaway.granted c.world.rows call (c.informed event) = Hostaway.granted c.world.rows call event := by
      intro call
      cases event <;> rfl
    simpa [races, hcom, hgates] using hok
  | refund approved =>
    refine ⟨h.oneClaim, h.settles, h.left, ?_, ?_, h.closed⟩
    · intro hcom
      exact h.untried (by simpa [Case.step, committed, Stage.past] using hcom)
    · intro hp
      exact h.unbooked (by simpa [Case.step, Stage.past] using hp)
  | visit i event =>
    simp only [Case.step]
    cases hi : c.calls[i]? with
    | none => exact h
    | some call => exact h.visit hi event

end Case

open Machine in
/-- As long as no create call is granted its claim beside a refund of the orphan, a refund and a create request are never
both sent, and no reservation that has a Hostaway id is closed. -/
theorem refunded_or_booked {c : Case} (h : c.Idle) (as : List Action)
    (hok : Meets Case.step (fun c a => c.races a = false) c as) :
    ((run Case.step c as).refunds = [] ∨ (run Case.step c as).world.requests = []) ∧
      ∀ r ∈ (run Case.step c as).closed, r.hostawayReservationId = none := by
  have hend := hok.inv (fun _ _ h hok => Case.Apart.step h hok) h.apart
  refine ⟨?_, hend.closed⟩
  by_contra hboth
  rw [not_or] at hboth
  have hidle := hend.oneClaim.idle (hend.untried (by simp [Case.committed, hboth.1]))
  exact hboth.2 (List.length_eq_zero_iff.1 hidle.2.1)

/-- A claim that is granted when the refund has been sent goes on to the create request. -/
theorem both_of_races {c : Case} {i : ℕ} {now : Time} {conflicts : Bool} (hr : c.refunds ≠ [])
    (h : c.races (.event i (.write now conflicts)) = true) :
    ((c.step (.event i (.write now conflicts))).step (.event i .send)).refunds ≠ [] ∧
      ((c.step (.event i (.write now conflicts))).step (.event i .send)).world.requests ≠ [] := by
  refine ⟨hr, ?_⟩
  simp only [Case.races, Bool.and_eq_true, Option.any_eq_true] at h
  obtain ⟨-, call, hc, hg⟩ := h
  have hlen : i < c.world.calls.length := (List.getElem?_eq_some_iff.1 hc).1
  unfold Hostaway.granted at hg
  split at hg
  · rename_i request hwrite hst
    obtain ⟨rfl, rfl⟩ := Hostaway.Event.write.inj hwrite
    have hadv : ∃ rows, advance c.world.rows call (.write now conflicts) = some (rows, .sending request) := by
      simp only [advance, transact, hst, prepareOperation, beq_iff_eq.1 hg]
      exact ⟨_, rfl⟩
    obtain ⟨rows, hadv⟩ := hadv
    have hcall : (c.step (.event i (.write now conflicts))).world.calls[i]? = some { call with stage := .sending request } := by
      simp only [Case.step, Case.informed, World.step, hc, hadv]
      exact List.getElem?_set_self hlen
    generalize c.step (.event i (.write now conflicts)) = c' at hcall ⊢
    simp [Case.step, Case.informed, World.step, hcall, advance, Stage.unsent]
  · cases hg

/-! ### A booking that is cancelled while it is made -/

def cancellationPk : Uuid := ⟨"9d4e7c1a-1f60-4f0e-9a51-0d5d7c2f1d09", rfl⟩

def obligationPk : Uuid := ⟨"9d4e7c1a-1f60-4f0e-9a51-0d5d7c2f1d10", rfl⟩

def paidCase : Case where
  world := freshWorld
  account := ⟨⟨900, "SAR", some "flexible", 1000, none⟩, ⟨⟨paidReservation.bookingIntent, none, paidSurroundings.payments, []⟩,
    [], [], []⟩⟩
  request := cancellationRequest paidReservation ⟨cancellationPk, "cancel-1", true, true, "", "", false, 5, 100⟩
  calls := []
  refunds := []
  closed := []

def flexible : Checks := ⟨true, ⟨true, []⟩, none, 20, obligationPk⟩

/-- The gateway confirms the refund of the whole payment. -/
def refundedRun : List Action :=
  [.refund none, .visit 0 (.check flexible), .visit 0 (.submit liveSettings 21), .visit 0 (.send 22),
   .visit 0 (.answer (.response 200 (.object (answerDocument "000.000.000"))) 23)]

/-- A create call up to its claim. -/
def createRun : List Action := [.create .paid, .event 0 (.gates paidSurroundings), .event 0 (.availability freeStay)]

def bookedRun : List Action :=
  [.event 0 (.write 30 false), .event 0 .send, .event 0 (.reply (.created createdStay)), .event 0 (.write 31 false)]

theorem paidCase_idle : paidCase.Idle := ⟨⟨rfl, rfl, rfl⟩, fun h => absurd rfl h, rfl, rfl, rfl⟩

/-- A create call that comes after the refund finds no payment. -/
theorem refunded_or_booked_refunded :
    (Machine.run Case.step paidCase (refundedRun ++ .visit 0 (.close 24) :: createRun ++ bookedRun)).refunds.length = 1 ∧
      (Machine.run Case.step paidCase (refundedRun ++ .visit 0 (.close 24) :: createRun ++ bookedRun)).closed.length = 1 ∧
      ((Machine.run Case.step paidCase (refundedRun ++ .visit 0 (.close 24) :: createRun ++ bookedRun)).refunds = [] ∨
        (Machine.run Case.step paidCase (refundedRun ++ .visit 0 (.close 24) :: createRun ++ bookedRun)).world.requests = []) ∧
      ∀ r ∈ (Machine.run Case.step paidCase (refundedRun ++ .visit 0 (.close 24) :: createRun ++ bookedRun)).closed,
        r.hostawayReservationId = none :=
  ⟨by decide +kernel, by decide +kernel,
    refunded_or_booked paidCase_idle (refundedRun ++ .visit 0 (.close 24) :: createRun ++ bookedRun) (by decide +kernel)⟩

/-- The create call has passed its gates when the refund begins; it books the stay before the record is closed. -/
theorem refunded_and_booked :
    (Machine.run Case.step paidCase (createRun ++ refundedRun ++ bookedRun)).refunds.map (·.amount) = ["900.00"] ∧
      (Machine.run Case.step paidCase (createRun ++ refundedRun ++ bookedRun)).world.requests = [0] ∧
      (Machine.run Case.step paidCase (createRun ++ refundedRun ++ bookedRun ++ [.visit 0 (.close 40)])).closed.map
        (fun r => (r.normalizedStatus, r.hostawayReservationId)) = [(.confirmed, some 77001)] ∧
      (Machine.run Case.step paidCase (createRun ++ refundedRun ++ bookedRun ++ [.visit 0 (.close 40)])).reservation.normalizedStatus =
        .cancelled := by
  decide +kernel

end Apartments.Orphans
