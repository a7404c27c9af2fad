import Apartments.Hostaway.CreateCalls
import Apartments.Hostaway.Webhooks

/-!
# Create calls and webhooks of the same stay

The create path finds its row by primary key, the webhook path by Hostaway id. `Site` puts both on one table: the
calls of a reservation and the rows that webhooks make. The id is unique, so a final write of an id that another
row carries raises and leaves the rows as the claim has left them. `accepted` logs the stays that the provider has
accepted, also those whose answer the call never reads (`lost`).
-/

namespace Apartments.Hostaway.OneRow

structure Site where
  world : World
  others : List Reservation
  accepted : List ℕ
deriving DecidableEq

inductive Action
  | create (action : Hostaway.Action)
  | lost (i : ℕ) (id : ℕ) (rejected : Bool)
  | snapshot (pk : Uuid) (delivery : Delivery) (snapshot : Snapshot)
deriving DecidableEq

def isSent : Stage → Bool
  | .sent _ => true
  | _ => false

/-- The Hostaway id that the final write of the call puts on the reservation. -/
def awaited : Stage → Option ℕ
  | .confirming _ s => some s.reservationId
  | .finishing _ _ _ id => if id = some 0 then none else id
  | _ => none

namespace Site

def reservation (w : Site) : Reservation := w.world.rows.reservation

/-- The whole table. -/
def table (w : Site) : List Reservation := w.reservation :: w.others

/-- Another row has this Hostaway id. -/
def taken (w : Site) (id : ℕ) : Bool := w.others.any (·.hostawayReservationId == some id)

/-- The final write of the call violates the unique id, or would confirm a reservation that is cancelled by now. -/
def violates (w : Site) (c : Call) : Bool :=
  (awaited c.stage).any w.taken ||
    match c.stage with
    | .confirming _ s => createdStatus c.kind s == .confirmed && w.reservation.cancelledAt.isSome
    | _ => false

/-- The exception ends the call. -/
def raised (w : Site) (i : ℕ) (c : Call) : Site :=
  { w with world := { w.world with calls := w.world.calls.set i { c with stage := .done "validation_error" } } }

/-- The stay that the answer says was accepted. -/
def accepts (w : Site) : Hostaway.Action → List ℕ
  | .event i (.reply (.created s)) => if w.world.calls[i]?.any (isSent ·.stage) then [s.reservationId] else []
  | _ => []

def create (w : Site) (a : Hostaway.Action) : Site := { w with world := w.world.step a, accepted := w.accepted ++ w.accepts a }

/-- `sync_reservation_snapshot`. -/
def sync (w : Site) (pk : Uuid) (d : Delivery) (s : Snapshot) : Site :=
  if w.reservation.hostawayReservationId = some s.reservationId then
    if isStale w.reservation s then w
    else { w with world.rows.reservation := syncedRow d s w.reservation }
  else
    match w.others.find? (·.hostawayReservationId == some s.reservationId) with
    | some o => if isStale o s then w else { w with others := Table.modify Reservation.pk w.others o.pk (syncedRow d s) }
    | none =>
      if w.table.any (·.pk == pk) then w else { w with others := w.others ++ [syncedRow d s (newRow pk s)] }

def step (w : Site) : Action → Site
  | .create (.event i (.reply (.created s))) =>
    -- an id is a positive number, or the answer is malformed
    if s.reservationId = 0 then w else w.create (.event i (.reply (.created s)))
  | .create (.event i (.write now conflicts)) =>
    match w.world.calls[i]? with
    | none => w
    | some c => if w.violates c then w.raised i c else w.create (.event i (.write now conflicts))
  | .create a => w.create a
  | .lost i id rejected =>
    if w.world.calls[i]?.any (isSent ·.stage) then
      { w with
        world := w.world.step (.event i (.reply (if rejected then .rejected else .uncertain)))
        accepted := w.accepted ++ [id] }
    else w
  | .snapshot pk d s => w.sync pk d s

/-- A snapshot comes before the final write of its stay, or the answer of a create that was accepted is not read. -/
def untimely (w : Site) : Action → Bool
  | .create (.event _ (.reply (.created s))) => w.taken s.reservationId
  | .create _ => false
  | .lost .. => true
  | .snapshot _ _ s => w.world.calls.any fun c => awaited c.stage == some s.reservationId

end Site

/-- Exactly one row carries the id, and it is the reservation. -/
def Whole (w : Site) (id : ℕ) : Prop :=
  w.table.filter (·.hostawayReservationId == some id) = [w.reservation]

/-- A reservation that is not in Hostaway yet, and no create call. -/
structure Fresh (w : Site) : Prop where
  untouched : w.world.Untouched
  unbooked : w.reservation.hostawayReservationId = none
  uncancelled : w.reservation.cancelledAt = none
  accepted : w.accepted = []

/-! ### What an event of a create call leaves alone -/

/-- The operation is being carried out. -/
def busy (rows : Rows) : Bool := rows.operation.any (·.status == .inProgress)

/-- A final write ends the operation. -/
def Ends (stage : Stage) : Prop := ∀ code operation status id, stage = .finishing code operation status id → operation ≠ .inProgress

variable {rows rows' : Rows} {c : Call} {event : Event} {stage : Stage}

theorem prepareOperation_frame (rows : Rows) (request : CreateRequest) (now : Time) (conflicts : Bool) :
    (∃ status, (prepareOperation rows request now conflicts).1.reservation =
        { rows.reservation with normalizedStatus := status }) ∧
      (busy (prepareOperation rows request now conflicts).1 = true →
        busy rows = true ∨ (prepareOperation rows request now conflicts).2.claims = 1) ∧
      awaited (prepareOperation rows request now conflicts).2 = none := by
  unfold prepareOperation
  cases h : claim rows.operation conflicts with
  | refused => exact ⟨⟨_, rfl⟩, .inl, rfl⟩
  | conflicting => exact ⟨⟨_, rfl⟩, by rintro ⟨⟩, rfl⟩
  | claimed => exact ⟨⟨_, rfl⟩, fun _ => .inr rfl, rfl⟩

/-- Short of its final write, a call touches nothing of the reservation but its status, and only a claim makes the
operation busy. -/
theorem advance_frame (h : advance rows c event = some (rows', stage)) (hf : c.stage.final = 0) :
    (∃ status, rows'.reservation = { rows.reservation with normalizedStatus := status }) ∧
      (busy rows' = true → busy rows = true ∨ stage.claims = 1) := by
  have hquiet : (∃ status, rows.reservation = { rows.reservation with normalizedStatus := status }) ∧
      (busy rows = true → busy rows = true ∨ stage.claims = 1) := ⟨⟨_, rfl⟩, .inl⟩
  cases event with
  | gates surroundings =>
    simp only [advance] at h
    split at h
    · split at h <;> cases h <;> exact hquiet
    · cases h
  | availability answer =>
    simp only [advance] at h
    split at h <;> cases h
    exact hquiet
  | send =>
    simp only [advance] at h
    split at h <;> cases h
    exact hquiet
  | reply reply =>
    simp only [advance] at h
    split at h <;> cases h
    exact hquiet
  | write now conflicts =>
    obtain ⟨kind, snapshot, s⟩ := c
    simp only [advance] at h
    cases s with
    | start | asking | sending | sent | done => cases h
    | finishing | confirming => cases hf
    | failing code => cases h; exact ⟨⟨_, rfl⟩, .inl⟩
    | blocking code =>
      simp only [transact] at h
      split at h <;> cases h
      · exact ⟨⟨_, rfl⟩, by rintro ⟨⟩⟩
      · exact hquiet
    | savingBlocked code =>
      cases h
      refine ⟨⟨_, rfl⟩, fun hb => ?_⟩
      cases hop : rows.operation <;> simp [busy, hop] at hb
    | preparing request =>
      have hp := prepareOperation_frame rows request now conflicts
      rw [show prepareOperation rows request now conflicts = (rows', stage) from Option.some.inj h] at hp
      exact ⟨hp.1, hp.2.1⟩

/-- The final write of a call. -/
theorem advance_final (h : advance rows c event = some (rows', stage)) (hf : c.stage.final = 1) (he : Ends c.stage) :
    (∃ now conflicts, event = .write now conflicts) ∧ awaited stage = none ∧ Ends stage ∧ busy rows' = false ∧
      rows'.reservation.pk = rows.reservation.pk ∧ rows'.reservation.bookingIntent = rows.reservation.bookingIntent ∧
      rows'.reservation.hostawayReservationId = (awaited c.stage).or rows.reservation.hostawayReservationId := by
  obtain ⟨kind, snapshot, s⟩ := c
  cases s with
  | start | asking | failing | blocking | savingBlocked | preparing | sending | sent | done => cases hf
  | finishing code operation status id =>
    cases event with
    | gates | availability | send | reply => cases h
    | write now conflicts =>
      cases h
      refine ⟨⟨now, conflicts, rfl⟩, rfl, by rintro _ _ _ _ ⟨⟩, ?_, rfl, rfl, ?_⟩
      · have := he _ _ _ _ rfl
        cases rows.operation <;> simp [busy, finishedOperation, this]
      · by_cases h0 : id = none ∨ id = some 0
        · rcases h0 with rfl | rfl <;> simp [finishedRow, awaited]
        · rw [not_or] at h0
          obtain ⟨id, rfl⟩ := Option.ne_none_iff_exists'.1 h0.1
          have h0 : id ≠ 0 := fun h => h0.2 (congrArg some h)
          simp [finishedRow, awaited, h0]
  | confirming request s =>
    cases event with
    | gates | availability | send | reply => cases h
    | write now conflicts =>
      cases h
      refine ⟨⟨now, conflicts, rfl⟩, rfl, by rintro _ _ _ _ ⟨⟩, ?_, rfl, rfl, rfl⟩
      cases rows.operation <;> simp [busy, succeededRow]

theorem final_of_awaited {id : ℕ} (h : awaited stage = some id) : stage.final = 1 := by
  cases stage <;> first | rfl | cases h

/-- A call that does not write its outcome next waits for no id. -/
theorem ends_of_final {P : ℕ → Prop} (hf : stage.final = 0) : Ends stage ∧ ∀ id, awaited stage = some id → P id := by
  constructor
  · rintro code operation status id rfl
    cases hf
  · intro id hid
    rw [final_of_awaited hid] at hf
    cases hf

/-- A call waits to write an id only since the answer that brought it. -/
theorem advance_awaited (h : advance rows c event = some (rows', stage)) :
    Ends stage ∧ ∀ id, awaited stage = some id → ∃ s, event = .reply (.created s) ∧ isSent c.stage = true ∧
      s.reservationId = id := by
  cases event with
  | gates surroundings =>
    simp only [advance] at h
    split at h
    · split at h <;> cases h <;> exact ends_of_final rfl
    · cases h
  | availability answer =>
    simp only [advance] at h
    split at h <;> cases h
    -- an answer to the availability request claims nothing
    have hfinal := (answered c ‹ℕ› answer).final_le_claims
    rw [answered_claims] at hfinal
    exact ends_of_final (Nat.le_zero.1 hfinal)
  | send =>
    simp only [advance] at h
    split at h <;> cases h
    exact ends_of_final rfl
  | reply reply =>
    simp only [advance] at h
    split at h <;> cases h
    rename_i request hs
    have hsent : isSent c.stage = true := by rw [hs]; rfl
    cases reply with
    | uncertain | rejected =>
      constructor
      · rintro _ _ _ _ ⟨⟩
        decide
      · rintro id ⟨⟩
    | created s =>
      simp only [replied]
      split
      · refine ⟨by rintro _ _ _ _ ⟨⟩; decide, fun id hid => ⟨s, rfl, hsent, ?_⟩⟩
        simp only [awaited] at hid
        split at hid
        · cases hid
        · exact Option.some.inj hid
      · exact ⟨by rintro _ _ _ _ ⟨⟩, fun id hid => ⟨s, rfl, hsent, Option.some.inj hid⟩⟩
  | write now conflicts =>
    obtain ⟨kind, snapshot, s⟩ := c
    simp only [advance] at h
    cases s with
    | start | asking | sending | sent | done => cases h
    | failing | savingBlocked | finishing | confirming => cases h; exact ends_of_final rfl
    | blocking code =>
      simp only [transact] at h
      split at h <;> cases h
      · exact ends_of_final rfl
      · split <;> exact ends_of_final rfl
    | preparing request =>
      have hp := (prepareOperation_frame rows request now conflicts).2.2
      have heq : prepareOperation rows request now conflicts = (rows', stage) := Option.some.inj h
      rw [heq] at hp
      refine ⟨fun code operation status id hs => ?_, fun id hid => by rw [hp] at hid; cases hid⟩
      rw [hs, prepareOperation] at heq
      split at heq <;> cases heq

/-! ### Runs -/

/-- The stays that were accepted are on their way to the reservation `r`, or there. -/
structure Tracked (r : Reservation) (w : Site) : Prop where
  oneClaim : w.world.OneClaim
  pk : w.reservation.pk = r.pk
  bookingIntent : w.reservation.bookingIntent = r.bookingIntent
  unbooked : w.world.finals = [] → w.reservation.hostawayReservationId = none ∧ w.reservation.cancelledAt = none
  apart : ∀ id, w.reservation.hostawayReservationId = some id → w.taken id = false
  waits : ∀ (i : ℕ) c id, w.world.calls[i]? = some c → awaited c.stage = some id → w.taken id = false
  accepted : ∀ id ∈ w.accepted, w.reservation.hostawayReservationId = some id ∨
    ∃ (i : ℕ) (c : Call), w.world.calls[i]? = some c ∧ awaited c.stage = some id
  ends : ∀ (i : ℕ) c, w.world.calls[i]? = some c → Ends c.stage
  busy : 0 < w.world.claims + w.world.finals.length → busy w.world.rows = true → 0 < w.world.claims

variable {w : Site} {r : Reservation}

theorem Fresh.tracked (h : Fresh w) : Tracked w.reservation w := by
  obtain ⟨hu, hb, hc, ha⟩ := h
  refine ⟨hu.oneClaim, rfl, rfl, fun _ => ⟨hb, hc⟩, ?_, ?_, ?_, ?_, ?_⟩
  · rw [hb]; exact nofun
  · simp [hu.noCalls]
  · simp [ha]
  · simp [hu.noCalls]
  · simp [World.claims, hu.noCalls, hu.noFinals]

/-- A call that writes its outcome next is the first one to do so. -/
theorem Tracked.first (h : Tracked r w) {i : ℕ} (hc : w.world.calls[i]? = some c) (hf : c.stage.final = 1) :
    w.world.finals = [] := by
  have hone := h.oneClaim.claimed
  have hmine := w.world.claims_le hc
  have hle := c.stage.final_le_claims
  exact List.length_eq_zero_iff.1 (by omega)

/-- The final write of a tracked call goes through. -/
theorem Tracked.not_violates (h : Tracked r w) {i : ℕ} (hc : w.world.calls[i]? = some c) : w.violates c = false := by
  simp only [Site.violates, Bool.or_eq_false_iff]
  constructor
  · cases ha : awaited c.stage with
    | none => rfl
    | some id => exact h.waits i c id hc ha
  · cases hs : c.stage with
    | confirming request s =>
      have := (h.unbooked (h.first hc (by rw [hs]; rfl))).2
      simp [this]
    | _ => rfl

/-- An event of a call keeps the stays tracked. -/
theorem Tracked.moved (h : Tracked r w) {i : ℕ} (hc : w.world.calls[i]? = some c)
    (hadv : advance w.world.rows c event = some (rows', stage)) {ids : List ℕ}
    (hids : ∀ id ∈ ids, awaited stage = some id)
    (htaken : ∀ s, event = .reply (.created s) → isSent c.stage = true → w.taken s.reservationId = false) :
    Tracked r { w with world := w.world.moved i c rows' stage, accepted := w.accepted ++ ids } := by
  have heff := advance_effect hadv
  obtain ⟨hends, hawait⟩ := advance_awaited hadv
  have hone := h.oneClaim.moved hc heff
  have hclaims : (w.world.moved i c rows' stage).claims + c.stage.claims = w.world.claims + stage.claims :=
    Table.sum_map_set (f := fun c => c.stage.claims) (b := { c with stage }) hc
  have hlt : i < w.world.calls.length := (List.getElem?_eq_some_iff.1 hc).1
  have hself : (w.world.moved i c rows' stage).calls[i]? = some { c with stage } := by
    simp [World.moved, hlt]
  have hother : ∀ j, j ≠ i → (w.world.moved i c rows' stage).calls[j]? = w.world.calls[j]? := by
    intro j hj
    simp [World.moved, Ne.symm hj]
  have hcalls : ∀ (j : ℕ) d, (w.world.moved i c rows' stage).calls[j]? = some d →
      d = { c with stage } ∨ w.world.calls[j]? = some d := by
    intro j d hd
    by_cases hj : j = i
    · subst hj
      exact .inl (Option.some.inj (hd.symm.trans hself))
    · exact .inr ((hother j hj) ▸ hd)
  -- what a call waits for has come with the answer, or is waited for already
  have hwaits : ∀ (j : ℕ) d id, (w.world.moved i c rows' stage).calls[j]? = some d → awaited d.stage = some id →
      w.taken id = false := by
    intro j d id hd hid
    rcases hcalls j d hd with rfl | hd
    · obtain ⟨s, he, hs, rfl⟩ := hawait id hid
      exact htaken s he hs
    · exact h.waits j d id hd hid
  have hstages : ∀ (j : ℕ) d, (w.world.moved i c rows' stage).calls[j]? = some d → Ends d.stage := by
    intro j d hd
    rcases hcalls j d hd with rfl | hd
    · exact hends
    · exact h.ends j d hd
  rcases Nat.eq_zero_or_pos c.stage.final with hf | hf
  · obtain ⟨⟨status, hrow⟩, hbusy⟩ := advance_frame hadv hf
    have hfinals : (w.world.moved i c rows' stage).finals = w.world.finals := by simp [World.moved, hf]
    have hres : ({ w with world := w.world.moved i c rows' stage, accepted := w.accepted ++ ids } : Site).reservation =
        { w.reservation with normalizedStatus := status } := hrow
    refine ⟨hone, by rw [hres]; exact h.pk, by rw [hres]; exact h.bookingIntent, ?_, ?_, hwaits, ?_, hstages, ?_⟩
    · rw [hres, hfinals]
      exact h.unbooked
    · rw [hres]
      exact h.apart
    · rw [hres]
      intro id hid
      rcases List.mem_append.1 hid with hid | hid
      · refine (h.accepted id hid).imp (fun hb => hb) ?_
        rintro ⟨j, d, hd, hw⟩
        have hj : j ≠ i := by
          rintro rfl
          rw [hc] at hd
          cases hd
          rw [final_of_awaited hw] at hf
          cases hf
        exact ⟨j, d, (hother j hj).trans hd, hw⟩
      · exact .inr ⟨i, _, hself, hids id hid⟩
    · rw [hfinals]
      intro hpos hb
      have hcounts := heff.counts
      rcases hbusy hb with hb | hb
      · rcases Nat.eq_zero_or_pos (w.world.claims + w.world.finals.length) with h0 | h0
        · have hpos : 0 < (w.world.moved i c rows' stage).claims + w.world.finals.length := hpos
          show 0 < (w.world.moved i c rows' stage).claims
          omega
        · have hpos := h.busy h0 hb
          have hkeep : c.stage.claims ≤ stage.claims := by
            generalize hcs : c.stage = s at heff hf
            cases heff with
            | quiet h0 => rw [h0]; exact Nat.zero_le _
            | failed | claimed => exact Nat.zero_le _
            | sent => exact le_rfl
            | replied h1 => rw [h1]; exact le_rfl
            | finished h1 => rw [h1] at hf; cases hf
          have hmine := w.world.claims_le hc
          show 0 < (w.world.moved i c rows' stage).claims
          omega
      · have hmine := w.world.claims_le hc
        show 0 < (w.world.moved i c rows' stage).claims
        omega
  · have hf1 : c.stage.final = 1 := by
      have := c.stage.final_le_claims
      have hle : c.stage.claims ≤ 1 := by cases c.stage <;> simp [Stage.claims]
      omega
    obtain ⟨⟨now, conflicts, rfl⟩, hnone, -, hidle, hpk, hbi, hrid⟩ := advance_final hadv hf1 (h.ends i c hc)
    have hfirst := h.first hc hf1
    have hunbooked := (h.unbooked hfirst).1
    have hfinals : (w.world.moved i c rows' stage).finals = [i] := by simp [World.moved, hf1, hfirst]
    have hres : ({ w with world := w.world.moved i c rows' stage, accepted := w.accepted ++ ids } : Site).reservation =
        rows'.reservation := rfl
    have hid : rows'.reservation.hostawayReservationId = awaited c.stage := by
      rw [hrid, show w.world.rows.reservation.hostawayReservationId = none from hunbooked, Option.or_none]
    have hempty : ids = [] := by
      refine List.eq_nil_iff_forall_not_mem.2 fun id hm => ?_
      rw [hids id hm] at hnone
      cases hnone
    refine ⟨hone, hpk.trans h.pk, hbi.trans h.bookingIntent, ?_, ?_, hwaits, ?_, hstages, ?_⟩
    · rw [hfinals]; rintro ⟨⟩
    · rw [hres, hid]
      exact fun id hid => h.waits i c id hc hid
    · rw [hres, hid, hempty, List.append_nil]
      intro id hm
      rcases h.accepted id hm with hb | ⟨j, d, hd, hw⟩
      · rw [show w.reservation.hostawayReservationId = none from hunbooked] at hb
        cases hb
      -- only one call holds the claim
      · by_cases hj : j = i
        · subst hj
          rw [hc] at hd
          cases hd
          exact .inl hw
        · exact .inr ⟨j, d, (hother j hj).trans hd, hw⟩
    · intro _ hb
      exact Bool.noConfusion (hidle.symm.trans hb)

theorem Site.create_cases (w : Site) (a : Hostaway.Action) :
    w.create a = w ∨
      (∃ kind, w.create a = { w with world := { w.world with calls := w.world.calls ++ [⟨kind, w.reservation, .start⟩] } }) ∨
      ∃ i c event rows stage ids, a = .event i event ∧ w.world.calls[i]? = some c ∧
        advance w.world.rows c event = some (rows, stage) ∧
        w.create a = { w with world := w.world.moved i c rows stage, accepted := w.accepted ++ ids } ∧
        ∀ id ∈ ids, ∃ s, event = .reply (.created s) ∧ isSent c.stage = true ∧ s.reservationId = id := by
  cases a with
  | call kind => exact .inr (.inl ⟨kind, by simp [create, accepts, World.step, reservation]⟩)
  | event i event =>
    cases hc : w.world.calls[i]? with
    | none =>
      refine .inl ?_
      have : w.accepts (.event i event) = [] := by
        unfold accepts
        split
        · simp_all
        · rfl
      simp [create, World.step, hc, this]
    | some c =>
      cases hadv : advance w.world.rows c event with
      | none =>
        refine .inl ?_
        have : w.accepts (.event i event) = [] := by
          unfold accepts
          split
          · rename_i j s heq
            cases heq
            rw [hc]
            cases hs : c.stage with
            | sent request => simp [advance, hs] at hadv
            | _ => simp [isSent, hs]
          · rfl
        simp [create, World.step, hc, hadv, this]
      | some p =>
        obtain ⟨rows, stage⟩ := p
        refine .inr (.inr ⟨i, c, event, rows, stage, w.accepts (.event i event), rfl, hc, hadv, ?_, ?_⟩)
        · simp [create, World.step, hc, hadv, World.moved]
        · intro id hid
          unfold accepts at hid
          split at hid
          · rename_i j s heq
            cases heq
            rw [hc] at hid
            split at hid
            · rename_i hs
              exact ⟨s, rfl, by simpa using hs, (List.mem_singleton.1 hid).symm⟩
            · cases hid
          · cases hid

theorem Tracked.create (h : Tracked r w) (a : Hostaway.Action)
    (ha : ∀ i s, a = .event i (.reply (.created s)) → s.reservationId ≠ 0 ∧ w.taken s.reservationId = false) :
    Tracked r (w.create a) := by
  rcases w.create_cases a with hs | ⟨kind, hs⟩ | ⟨i, c, event, rows, stage, ids, rfl, hc, hadv, hs, hids⟩ <;> rw [hs]
  · exact h
  · have hcalls : ∀ (j : ℕ) d, (w.world.calls ++ [⟨kind, w.reservation, .start⟩])[j]? = some d →
        w.world.calls[j]? = some d ∨ d.stage = .start := by
      intro j d hd
      rw [List.getElem?_append] at hd
      split at hd
      · exact .inl hd
      · rw [List.getElem?_singleton] at hd
        split at hd <;> cases hd
        exact .inr rfl
    have hclaims : World.claims { w.world with calls := w.world.calls ++ [⟨kind, w.reservation, .start⟩] } = w.world.claims := by
      simp [World.claims, Stage.claims]
    refine ⟨h.oneClaim.step (.call kind), h.pk, h.bookingIntent, h.unbooked, h.apart, fun j d id hd hw => ?_, fun id hid => ?_,
      fun j d hd => ?_, by rw [hclaims]; exact h.busy⟩
    · rcases hcalls j d hd with hd | hd
      · exact h.waits j d id hd hw
      · rw [hd] at hw; cases hw
    · refine (h.accepted id hid).imp (fun hb => hb) ?_
      rintro ⟨j, d, hd, hw⟩
      refine ⟨j, d, ?_, hw⟩
      show (w.world.calls ++ _)[j]? = _
      rw [List.getElem?_append_left (List.getElem?_eq_some_iff.1 hd).1]
      exact hd
    · rcases hcalls j d hd with hd | hd
      · exact h.ends j d hd
      · rw [hd]; rintro _ _ _ _ ⟨⟩
  · refine h.moved hc hadv (fun id hid => ?_) fun s he _ => (ha i s (by rw [he])).2
    obtain ⟨s, rfl, hsent, rfl⟩ := hids id hid
    have hpos := (ha i s rfl).1
    obtain ⟨kind, snapshot, st⟩ := c
    cases st with
    | sent request =>
      cases hadv
      simp only [replied]
      split
      · simp [awaited, hpos]
      · rfl
    | _ => cases hsent

/-- A snapshot of a stay that no call waits for. -/
theorem Tracked.sync (h : Tracked r w) {pk : Uuid} {d : Delivery} {s : Snapshot}
    (hw : ∀ (i : ℕ) c, w.world.calls[i]? = some c → awaited c.stage ≠ some s.reservationId) :
    Tracked r (w.sync pk d s) := by
  unfold Site.sync
  split
  · rename_i hid
    split
    · exact h
    have hfinals : w.world.finals ≠ [] := fun hf => by
      rw [(h.unbooked hf).1] at hid
      cases hid
    exact ⟨⟨h.oneClaim.idle, h.oneClaim.claimed, h.oneClaim.sent⟩, h.pk, h.bookingIntent, fun hf => absurd hf hfinals,
      h.apart, h.waits, h.accepted, h.ends, h.busy⟩
  rename_i hid
  split
  · rename_i o ho
    split
    · exact h
    -- the row keeps its id, so the same ids are taken
    have htaken : ∀ id, w.taken id = false → Site.taken
        { w with others := Table.modify Reservation.pk w.others o.pk (syncedRow d s) } id = false := by
      intro id hf
      simp only [Site.taken, List.any_eq_false] at hf ⊢
      intro o' ho'
      obtain ⟨o, ho, rfl⟩ := Table.mem_modify.1 ho'
      have := hf o ho
      split
      · exact this
      · exact this
    exact ⟨h.oneClaim, h.pk, h.bookingIntent, h.unbooked, fun id hid => htaken id (h.apart id hid),
      fun i c id hc ha => htaken id (h.waits i c id hc ha), h.accepted, h.ends, h.busy⟩
  · split
    · exact h
    have htaken : ∀ id, id ≠ s.reservationId → w.taken id = false →
        Site.taken { w with others := w.others ++ [syncedRow d s (newRow pk s)] } id = false := by
      intro id hne hf
      simp only [Site.taken, List.any_append, Bool.or_eq_false_iff] at hf ⊢
      refine ⟨hf, ?_⟩
      simp [newRow, Ne.symm hne]
    refine ⟨h.oneClaim, h.pk, h.bookingIntent, h.unbooked, fun id hb => htaken id ?_ (h.apart id hb),
      fun i c id hc ha => htaken id ?_ (h.waits i c id hc ha), h.accepted, h.ends, h.busy⟩
    · rintro rfl; exact hid hb
    · rintro rfl; exact hw i c hc ha

theorem Tracked.step (h : Tracked r w) {a : Action} (hok : w.untimely a = false) : Tracked r (w.step a) := by
  cases a with
  | lost i id rejected => cases hok
  | snapshot pk d s =>
    refine h.sync fun i c hc ha => ?_
    simp only [Site.untimely, List.any_eq_false, beq_iff_eq] at hok
    exact hok c (List.mem_of_getElem? hc) ha
  | create a =>
    cases a with
    | call kind => exact h.create _ nofun
    | event i event =>
      cases event with
      | gates | availability | send => exact h.create _ nofun
      | reply reply =>
        cases reply with
        | uncertain | rejected => exact h.create _ nofun
        | created s =>
          simp only [Site.step]
          split
          · exact h
          rename_i h0
          refine h.create _ ?_
          rintro _ _ ⟨⟩
          exact ⟨h0, hok⟩
      | write now conflicts =>
        simp only [Site.step]
        split
        · exact h
        rename_i c hc
        rw [if_neg (by rw [h.not_violates hc]; nofun)]
        exact h.create _ nofun

/-- With no call under way, a stay that was accepted is carried by the reservation alone. -/
theorem Tracked.whole (h : Tracked r w) (hend : w.world.claims = 0) {id : ℕ} (hid : id ∈ w.accepted) :
    Whole w id ∧ OneRow.busy w.world.rows = false := by
  have hb : w.reservation.hostawayReservationId = some id := by
    rcases h.accepted id hid with hb | ⟨i, c, hc, hw⟩
    · exact hb
    · have := w.world.claims_le hc
      have := c.stage.final_le_claims
      have := final_of_awaited hw
      omega
  constructor
  · have hothers : w.others.filter (·.hostawayReservationId == some id) = [] := by
      have := h.apart id hb
      simp only [Site.taken, List.any_eq_false] at this
      exact List.filter_eq_nil_iff.2 this
    simp [Whole, Site.table, hb, hothers]
  · have hfinals : w.world.finals ≠ [] := fun hf => by
      rw [(h.unbooked hf).1] at hb
      cases hb
    have hpos := List.length_pos_iff.2 hfinals
    by_contra hbusy
    have := h.busy (by omega) (by simpa using hbusy)
    omega

open Machine in
/-- As long as no snapshot comes before the final write of its stay and every accepted create is answered, a stay that
was accepted is carried by the reservation alone once the calls have finished, and its operation has ended. -/
theorem booking_never_splits (h : Fresh w) (as : List Action)
    (hok : Meets Site.step (fun w a => w.untimely a = false) w as) (hend : (run Site.step w as).world.claims = 0) :
    ∀ id ∈ (run Site.step w as).accepted, Whole (run Site.step w as) id ∧
      (run Site.step w as).reservation.pk = w.reservation.pk ∧
      (run Site.step w as).reservation.bookingIntent = w.reservation.bookingIntent ∧
      ¬((run Site.step w as).reservation.normalizedStatus = .creating ∧ busy (run Site.step w as).world.rows = true) := by
  have htracked : Tracked w.reservation (run Site.step w as) :=
    hok.inv (fun _ _ h hok => h.step hok) h.tracked
  intro id hid
  obtain ⟨hwhole, hbusy⟩ := htracked.whole hend hid
  exact ⟨hwhole, htracked.pk, htracked.bookingIntent, fun hc => by rw [hbusy] at hc; exact absurd hc.2 nofun⟩

/-- A snapshot that makes a row for a stay that a call waits for: the final write of that call raises. -/
theorem violates_of_untimely {pk : Uuid} {d : Delivery} {s : Snapshot} {i : ℕ} (hc : w.world.calls[i]? = some c)
    (ha : awaited c.stage = some s.reservationId) (hr : w.reservation.hostawayReservationId ≠ some s.reservationId)
    (hfree : w.taken s.reservationId = false) (hpk : w.table.any (·.pk == pk) = false) :
    (w.step (.snapshot pk d s)).violates c = true ∧ (w.step (.snapshot pk d s)).world.calls[i]? = some c := by
  have hfind : w.others.find? (·.hostawayReservationId == some s.reservationId) = none := by
    rw [List.find?_eq_none]
    simp only [Site.taken, List.any_eq_false] at hfree
    exact hfree
  have hstep : w.step (.snapshot pk d s) = { w with others := w.others ++ [syncedRow d s (newRow pk s)] } := by
    simp [Site.step, Site.sync, hr, hfind, hpk]
  rw [hstep]
  exact ⟨by simp [Site.violates, ha, Site.taken, newRow], hc⟩

/-! ### A webhook that overtakes its own booking -/

def freshSite : Site := ⟨freshWorld, [], []⟩

def webhookRow : Uuid := ⟨"7d2e7c1a-1f60-4f0e-9a51-0d5d7c2f1b01", rfl⟩

def delivered (now : Time) : Delivery := ⟨some ⟨1, some 40160, some 40161⟩, "luxurysmartapartments", now⟩

/-- The provider has accepted the stay and answered; the outcome is not written yet. -/
def acceptedRun : List Action :=
  [.create (.call .paid), .create (.event 0 (.gates paidSurroundings)), .create (.event 0 (.availability freeStay)),
   .create (.event 0 (.write 10 false)), .create (.event 0 .send), .create (.event 0 (.reply (.created createdStay)))]

def written : Action := .create (.event 0 (.write 12 false))

def notified (now : Time) : Action := .snapshot webhookRow (delivered now) createdStay

theorem booking_never_splits_booked :
    Whole (Machine.run Site.step freshSite (acceptedRun ++ [written, notified 13])) 77001 :=
  (booking_never_splits (w := freshSite) ⟨⟨rfl, rfl, rfl⟩, rfl, rfl, rfl⟩ (acceptedRun ++ [written, notified 13])
    (by decide +kernel) (by decide +kernel) 77001 (by decide +kernel)).1

/-- The webhook arrives before the outcome is written: the stay is carried by a row without an intent, and the
reservation stays `CREATING` with its operation `IN_PROGRESS`. -/
theorem webhook_splits_booking :
    let w := Machine.run Site.step freshSite (acceptedRun ++ [notified 11, written])
    w.accepted = [77001] ∧ w.world.claims = 0 ∧
      (w.table.filter (·.hostawayReservationId == some 77001)).map (fun r => (r.pk, r.bookingIntent)) = [(webhookRow, none)] ∧
      w.reservation.normalizedStatus = .creating ∧ busy w.world.rows = true := by
  decide +kernel

end Apartments.Hostaway.OneRow
