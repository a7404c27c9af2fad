import Apartments.Reservations.Completed
import Apartments.Reservations.Office
import Apartments.Reservations.Recording

/-!
# Recorded once

An operation is claimed once, so of the calls in flight, the filings that are not done and the obligations of a request
there is at most one together (`Counted`), and a request never has two obligations. What `loses` names is what keeps the
one from being recorded.
-/

namespace Apartments.Hostaway.Changes

open Payments

variable {b b' : Board} {c c' : Call} {event : Event} {e : Checks} {m : ModificationRequest}

/-- How a call goes on: to the claim with a Hostaway id, to the refund of an orphan without one, and into flight by a
claim that is granted. -/
structure Goes (b : Board) (c : Call) (event : Event) (c' : Call) : Prop where
  pk : c'.request.pk = c.request.pk
  reservation : c'.reservation = c.reservation ∨ c'.reservation = b.reservation
  claiming : c'.stage = .claiming → c'.reservation.hostawayReservationId.isSome = true
  orphaned : c'.stage = .orphaned → b.reservation.hostawayReservationId = none
  flight : c'.stage.inFlight = true → c.stage.inFlight = true ∧ (∀ s, c.stage ≠ .completing s) ∨
    c.stage = .claiming ∧ ∃ e m, event = .check e ∧ b.request c.request.pk = some m ∧
      (prepareModification e b m).2 = .claimed

/-- A call that is over. -/
theorem Goes.over (code : String) (hpk : c'.request.pk = c.request.pk)
    (hr : c'.reservation = c.reservation ∨ c'.reservation = b.reservation) (hs : c'.stage = .done code) : Goes b c event c' :=
  ⟨hpk, hr, by rw [hs]; nofun, by rw [hs]; nofun, by rw [hs]; nofun⟩

theorem isSome_of_executionBlocker {r : Reservation} (h : executionBlocker e m r = "") :
    r.hostawayReservationId.isSome = true := by
  rw [Option.isSome_iff_ne_none]
  intro hn
  unfold executionBlocker at h
  split at h <;> exact absurd h (by decide)

theorem isSome_of_executeRefusal {r : Reservation} (h : executeRefusal e b m r = none) :
    r.hostawayReservationId.isSome = true := by
  unfold executeRefusal at h
  split at h
  · cases h
  split at h
  · cases h
  split at h
  · cases h
  · rename_i hb
    exact isSome_of_executionBlocker (not_not.1 hb)

theorem Goes.approve {ownerOverride : Bool} (h : approve b c e ownerOverride = some (b', c')) :
    Goes b c (.check e) c' := by
  unfold Changes.approve at h
  split at h
  · cases h
    exact .over _ rfl (.inl rfl) rfl
  · split at h
    · cases h
    · rename_i m hm
      split at h
      · cases h
        exact .over _ rfl (.inl rfl) rfl
      · cases h
        refine ⟨(approvedRow_pk ..).trans (Table.key_of_get hm), .inr rfl, ?_, ?_, ?_⟩
        · dsimp only
          split <;> rintro ⟨⟩
        · dsimp only
          intro hs
          split at hs
          · rename_i ho
            simp only [orphanedCancellation, Bool.and_eq_true, Option.isNone_iff_eq_none] at ho
            exact ho.2
          · cases hs
        · dsimp only
          split <;> rintro ⟨⟩

theorem Goes.examine (h : examine b c e = some (b', c')) : Goes b c (.check e) c' := by
  unfold Changes.examine at h
  split at h
  · cases h
  · rename_i m hm
    have hpk : m.pk = c.request.pk := by
      split at hm
      · exact Table.key_of_get hm
      · rw [Option.some.inj hm]
    have hr : (if isCancellation c.request then b.reservation else c.reservation) = c.reservation ∨
        (if isCancellation c.request then b.reservation else c.reservation) = b.reservation := by
      split
      · exact .inr rfl
      · exact .inl rfl
    dsimp only at h
    split at h
    · cases h
      exact .over _ hpk hr rfl
    · rename_i href
      cases h
      exact ⟨hpk, hr, fun _ => isSome_of_executeRefusal href, by rintro ⟨⟩, by rintro ⟨⟩⟩

theorem Goes.prepare (hst : c.stage = .claiming) (h : prepare b c e = some (b', c')) : Goes b c (.check e) c' := by
  unfold Changes.prepare at h
  split at h
  · cases h
  · rename_i m hm
    cases h
    by_cases hc : (prepareModification e b m).2 = .claimed
    · rw [if_pos hc]
      exact ⟨rfl, .inl rfl, by rintro ⟨⟩, by rintro ⟨⟩, fun _ => .inr ⟨hst, e, m, rfl, hm, hc⟩⟩
    · rw [if_neg hc]
      exact .over _ rfl (.inl rfl) rfl

theorem Goes.refundOrphan (h : refundOrphan b c e = some (b', c')) : Goes b c (.check e) c' := by
  unfold Changes.refundOrphan at h
  split at h
  · cases h
  split at h
  · cases h
    exact .over _ rfl (.inl rfl) rfl
  split at h
  · cases h
    exact .over _ rfl (.inl rfl) rfl
  split at h <;> cases h
  · exact .over _ rfl (.inl rfl) rfl
  · exact .over _ rfl (.inl rfl) rfl
  · exact ⟨rfl, .inl rfl, by rintro ⟨⟩, by rintro ⟨⟩, by rintro ⟨⟩⟩

theorem replied_goes (m : ModificationRequest) (r : UpdateReply) :
    replied m r ≠ .claiming ∧ replied m r ≠ .orphaned := by
  cases r with
  | uncertain | rejected => exact ⟨by rintro ⟨⟩, by rintro ⟨⟩⟩
  | updated s =>
    simp only [replied]
    split <;> exact ⟨by rintro ⟨⟩, by rintro ⟨⟩⟩

theorem advance_goes (h : advance b c event = some (b', c')) : Goes b c event c' := by
  have hreply : ∀ r, c.stage = .sending ∨ c.stage = .sent → Goes b c event { c with stage := replied c.request r } := by
    intro r hst
    obtain ⟨hcl, hor⟩ := replied_goes c.request r
    refine ⟨rfl, .inl rfl, fun h => absurd h hcl, fun h => absurd h hor, fun _ => .inl ?_⟩
    rcases hst with hst | hst <;> rw [hst] <;> exact ⟨rfl, by rintro _ ⟨⟩⟩
  cases event with
  | check e =>
    simp only [advance] at h
    split at h
    · exact .approve h
    · exact .examine h
    · rename_i hst
      exact .prepare hst h
    · exact .refundOrphan h
    · cases h
  | send =>
    simp only [advance] at h
    split at h <;> cases h
    rename_i hst
    exact ⟨rfl, .inl rfl, by rintro ⟨⟩, by rintro ⟨⟩, fun _ => .inl (by rw [hst]; exact ⟨rfl, by rintro _ ⟨⟩⟩)⟩
  | reply r =>
    simp only [advance] at h
    split at h <;> cases h <;> rename_i hst
    · exact hreply _ (.inr hst)
    · exact hreply _ (.inl hst)
    · exact hreply _ (.inl hst)
  | write now =>
    simp only [advance, conclude] at h
    split at h <;> cases h <;> exact .over _ rfl (.inl rfl) rfl

theorem attempts_of_claimed (h : (prepareModification e b m).2 = .claimed) :
    attempts m = 0 ∧ attempts (prepareModification e b m).1 = 1 := by
  rcases prepareModification_cases e b m with hp | ⟨hzero, -, ⟨o, -, hp⟩ | ⟨-, o, ho, hp⟩⟩
  · rw [hp] at h
    cases h
  · rw [hp] at h
    cases h
  · rw [hp]
    exact ⟨hzero, by simp [attempts, ho]⟩

theorem Call.rewritten_attempts (b : Board) (c : Call) (event : Event) (m : ModificationRequest) :
    attempts m ≤ attempts (c.rewritten b event m) := by
  unfold Call.rewritten
  split
  · split_ifs
    · exact le_rfl
    · exact le_rfl
    · exact le_rfl
    · unfold approvedRow
      split <;> exact le_rfl
  · rename_i e _
    rcases prepareModification_cases e b m with hp | ⟨hzero, -, -⟩
    · rw [hp]
    · rw [hzero]
      exact Nat.zero_le _
  · split_ifs
    · exact le_rfl
    · split <;> exact le_rfl
  · exact (finishedRequest_attempts ..).ge
  · exact (completedRequest_attempts ..).ge
  · split_ifs <;> exact le_rfl
  · exact le_rfl

end Apartments.Hostaway.Changes

namespace Apartments.Recording

open Payments Hostaway HyperPay Refunds

/-- The call is in flight for the request. -/
def flight (pk : Uuid) (c : Changes.Call) : ℕ := if c.request.pk = pk ∧ c.stage.inFlight = true then 1 else 0

/-- The filing for the request is not done. -/
def unfiled (pk : Uuid) (f : Filing) : ℕ := if f.request = pk ∧ f.done = false then 1 else 0

namespace Bureau

def hostawayId (t : Bureau) : Option ℕ := t.board.reservation.hostawayReservationId

/-- What an obligation is for. -/
def marks (o : RefundObligation) : Option Uuid × RefundReason := (o.modificationRequest, o.reason)

/-- What there is of the one obligation of a request: it, a filing for it, or a call on the way to it. -/
def total (t : Bureau) (pk : Uuid) : ℕ :=
  t.recorded pk + (t.filings.map (unfiled pk)).sum + (t.world.calls.map (flight pk)).sum

/-- With a Hostaway id the claims go to the provider, without one the payment of an orphan is returned. -/
structure Counted (t : Bureau) : Prop where
  keyed : Changes.Keyed t.board
  reservations : ∀ c ∈ t.world.calls, c.reservation.hostawayReservationId = t.hostawayId
  booked : t.hostawayId.isSome = true → ∀ c ∈ t.world.calls, c.stage ≠ .orphaned
  unbooked : t.hostawayId = none → (∀ c ∈ t.world.calls, c.stage ≠ .claiming ∧ c.stage.inFlight = false) ∧ ∀ f ∈ t.filings, f.done = true
  single : t.hostawayId.isSome = true → ∀ pk, t.total pk ≤ 1
  untried : t.hostawayId.isSome = true → ∀ pk m, t.board.request pk = some m → Changes.attempts m = 0 → t.total pk = 0
  once : ∀ pk, t.recorded pk ≤ 1
  reasons : ∀ pk m, t.board.request pk = some m → isCancellation m = true →
    ∀ o ∈ t.obligations, o.modificationRequest = some pk → o.reason = .cancellation

variable {t t' : Bureau} {a : Action} {i : ℕ} {c c' : Changes.Call} {event : Changes.Event} {pk : Uuid}

theorem Idle.counted (h : t.Idle) : t.Counted where
  keyed := h.keyed
  reservations := by simp [h.calls]
  booked := by simp [h.calls]
  unbooked := by simp [h.calls, h.filings]
  single := fun _ pk => by simpa [Bureau.total, h.calls, h.filings] using h.once pk
  untried := fun hid pk m hm ha => by
    obtain rfl : m.pk = pk := Table.key_of_get hm
    simpa [Bureau.total, h.calls, h.filings] using h.untried hid m (Table.mem_of_get hm) ha
  once := h.once
  reasons := fun pk m hm hcan => by
    obtain rfl : m.pk = pk := Table.key_of_get hm
    exact h.reasons m (Table.mem_of_get hm) hcan

/-! ### Calls -/

theorem request_event (h : Changes.Keyed t.board) (i : ℕ) (event : Changes.Event) (pk : Uuid) :
    (t.world.step (.event i event)).board.request pk =
      (t.board.request pk).map (t.world.rewritten (.event i event)) := by
  have hreq : (t.world.step (.event i event)).board.requests = t.requests.map (t.world.rewritten (.event i event)) :=
    (Changes.World.step_requests h (.event i event)).trans (List.append_nil _)
  rw [Board.request, hreq]
  exact Table.get_map (Changes.World.rewritten_pk _ _)

theorem rebooked_id (b : Board) (c : Changes.Call) (event : Changes.Event) :
    (c.rebooked b event).hostawayReservationId = b.reservation.hostawayReservationId := by
  unfold Changes.Call.rebooked
  split
  · split
    · rfl
    · split <;> rfl
  · rfl
  · split <;> rfl
  · rfl

theorem id_event (t : Bureau) (i : ℕ) (event : Changes.Event) :
    (t.world.step (.event i event)).board.reservation.hostawayReservationId = t.hostawayId := by
  simp only [Changes.World.step]
  cases hc : t.world.calls[i]? with
  | none => rfl
  | some c =>
    simp only
    cases ha : Changes.advance t.world.board c event with
    | none => rfl
    | some r =>
      rw [show r.1.reservation = _ from Changes.advance_reservation ha]
      exact rebooked_id ..

theorem attempts_event (w : Changes.World) (i : ℕ) (event : Changes.Event) (m : ModificationRequest) :
    Changes.attempts m ≤ Changes.attempts (w.rewritten (.event i event) m) := by
  simp only [Changes.World.rewritten]
  split
  · exact le_rfl
  · split
    · exact Changes.Call.rewritten_attempts ..
    · exact le_rfl

theorem isCancellation_event (w : Changes.World) (i : ℕ) (event : Changes.Event) (m : ModificationRequest) :
    isCancellation (w.rewritten (.event i event) m) = isCancellation m := by
  have h := Changes.World.rewritten_terms w (.event i event) m
  simp only [Changes.terms, Prod.mk.injEq] at h
  rw [isCancellation, isCancellation, h.1]

theorem world_event (event : Changes.Event) (hc : t.world.calls[i]? = some c) :
    Changes.advance t.world.board c event = none ∧ t.world.step (.event i event) = t.world ∨
      ∃ b' c', Changes.advance t.world.board c event = some (b', c') ∧
        (t.world.step (.event i event)).calls = t.world.calls.set i c' := by
  simp only [Changes.World.step, hc]
  cases ha : Changes.advance t.world.board c event with
  | none => exact .inl ⟨rfl, rfl⟩
  | some r => exact .inr ⟨r.1, r.2, rfl, rfl⟩

/-- A call is in flight for its request only if it was, or the operation of the request had not been tried. -/
theorem flight_goes (hc : t.world.calls[i]? = some c) (hg : Changes.Goes t.world.board c event c') (pk : Uuid) :
    flight pk c' ≤ flight pk c ∨ ∃ m, t.board.request pk = some m ∧ Changes.attempts m = 0 ∧
      Changes.attempts (t.world.rewritten (.event i event) m) = 1 := by
  by_cases hf : c'.request.pk = pk ∧ c'.stage.inFlight = true
  · obtain ⟨hpk, hf⟩ := hf
    rcases hg.flight hf with ⟨hold, -⟩ | ⟨hst, e, m, rfl, hm, hclaim⟩
    · left
      simp [flight, hpk, hf, hold, hg.pk.symm.trans hpk]
    · right
      obtain ⟨hzero, hone⟩ := Changes.attempts_of_claimed hclaim
      have hmpk : m.pk = c.request.pk := Table.key_of_get hm
      refine ⟨m, ?_, hzero, ?_⟩
      · rw [← hpk, hg.pk]
        exact hm
      · simp only [Changes.World.rewritten, hc, hmpk, if_true, Changes.Call.rewritten, hst]
        exact hone
  · left
    rw [flight, if_neg hf]
    exact Nat.zero_le _

theorem flight_le (pk : Uuid) (c : Changes.Call) : flight pk c ≤ 1 := by
  unfold flight
  split <;> omega

theorem total_event (hcalls : (t.world.step (.event i event)).calls = t.world.calls.set i c') (hc : t.world.calls[i]? = some c)
    (pk : Uuid) : total { t with world := t.world.step (.event i event) } pk + flight pk c = t.total pk + flight pk c' := by
  have hsum := Table.sum_map_set (f := flight pk) (b := c') hc
  simp only [total, hcalls]
  show t.recorded pk + _ + _ + _ = _
  omega

/-- The event of a call moves the call and its request, and no filing or obligation. -/
theorem Counted.world (h : t.Counted) (hc : t.world.calls[i]? = some c) :
    Counted { t with world := t.world.step (.event i event) } := by
  rcases world_event event hc with ⟨-, hw⟩ | ⟨b', c', hadv, hcalls⟩
  · rw [hw]
    exact h
  have hg := Changes.advance_goes hadv
  have hid : hostawayId { t with world := t.world.step (.event i event) } = t.hostawayId := id_event t i event
  have hmem := List.mem_of_getElem? hc
  have hrow : ∀ pk m', (t.world.step (.event i event)).board.request pk = some m' →
      ∃ m, t.board.request pk = some m ∧ t.world.rewritten (.event i event) m = m' := by
    intro pk m' hm'
    rw [request_event h.keyed] at hm'
    exact Option.map_eq_some_iff.1 hm'
  have hcall : ∀ d ∈ (t.world.step (.event i event)).calls, d ∈ t.world.calls ∨ d = c' := by
    intro d hd
    rw [hcalls] at hd
    exact List.mem_or_eq_of_mem_set hd
  have hres : c'.reservation.hostawayReservationId = t.hostawayId := by
    rcases hg.reservation with hr | hr <;> rw [hr]
    · exact h.reservations c hmem
    · rfl
  have htotal := total_event hcalls hc
  refine ⟨Changes.World.step_keyed h.keyed _, ?_, ?_, ?_, ?_, ?_, h.once, ?_⟩
  · rw [hid]
    intro d hd
    rcases hcall d hd with hd | rfl
    · exact h.reservations d hd
    · exact hres
  · rw [hid]
    intro hsome d hd
    rcases hcall d hd with hd | rfl
    · exact h.booked hsome d hd
    · intro ho
      rw [show t.hostawayId = none from hg.orphaned ho] at hsome
      cases hsome
  · rw [hid]
    intro hnone
    obtain ⟨hold, hfilings⟩ := h.unbooked hnone
    refine ⟨fun d hd => ?_, hfilings⟩
    rcases hcall d hd with hd | rfl
    · exact hold d hd
    · constructor
      · intro hcl
        have := hg.claiming hcl
        rw [hres, hnone] at this
        cases this
      · by_contra hf
        rcases hg.flight (by simpa using hf) with ⟨hfl, -⟩ | ⟨hst, -⟩
        · rw [(hold c hmem).2] at hfl
          cases hfl
        · exact (hold c hmem).1 hst
  · rw [hid]
    intro hsome pk
    have hone := h.single hsome pk
    have := htotal pk
    rcases flight_goes hc hg pk with hle | ⟨m, hm, hzero, -⟩
    · omega
    · have := h.untried hsome pk m hm hzero
      have := flight_le pk c'
      omega
  · rw [hid]
    intro hsome pk m' hm' hzero
    obtain ⟨m, hm, rfl⟩ := hrow pk m' hm'
    have hmono := attempts_event t.world i event m
    have hnone := h.untried hsome pk m hm (by omega)
    have := htotal pk
    rcases flight_goes hc hg pk with hle | ⟨n, hn, -, hone⟩
    · omega
    · obtain rfl := Option.some.inj (hn.symm.trans hm)
      omega
  · intro pk m' hm' hcan
    obtain ⟨m, hm, rfl⟩ := hrow pk m' hm'
    rw [isCancellation_event] at hcan
    exact h.reasons pk m hm hcan

/-! ### Filings and obligations -/

theorem recorded_of_marks (h : t'.obligations.map marks = t.obligations.map marks) (pk : Uuid) :
    t'.recorded pk = t.recorded pk := by
  have hcount : ∀ l : List RefundObligation, (l.filter (·.modificationRequest == some pk)).length =
      ((l.map marks).filter (·.1 == some pk)).length := by
    intro l
    simp [List.filter_map, Function.comp_def, marks]
  rw [recorded, recorded, hcount, hcount, h]

theorem Counted.congr (h : t.Counted) (hw : t'.world = t.world) (hg : t'.gateway = t.gateway) (hf : t'.filings = t.filings) :
    t'.Counted := by
  have hrec : ∀ pk, t'.recorded pk = t.recorded pk := fun pk => by rw [recorded, obligations, hg]; rfl
  have htotal : ∀ pk, t'.total pk = t.total pk := fun pk => by rw [Bureau.total, Bureau.total, hrec, hf, hw]
  have hid : t'.hostawayId = t.hostawayId := by rw [hostawayId, board, hw]; rfl
  refine ⟨?_, ?_, ?_, ?_, ?_, ?_, ?_, ?_⟩
  · rw [board, hw]
    exact h.keyed
  · rw [hw, hid]
    exact h.reservations
  · rw [hw, hid]
    exact h.booked
  · rw [hw, hid, hf]
    exact h.unbooked
  · intro hsome pk
    rw [htotal]
    exact h.single (hid ▸ hsome) pk
  · intro hsome pk m hm ha
    rw [htotal]
    rw [board, hw] at hm
    exact h.untried (hid ▸ hsome) pk m hm ha
  · intro pk
    rw [hrec]
    exact h.once pk
  · intro pk m hm hcan o ho
    rw [board, hw] at hm
    rw [obligations, hg] at ho
    exact h.reasons pk m hm hcan o ho

/-- A call that has completed its request, of which there is nothing else, files for its refund. -/
theorem Counted.file (h : t.Counted) {f : Filing} (hsome : t.hostawayId.isSome = true) (hzero : t.total f.request = 0)
    (htried : ∀ m, t.board.request f.request = some m → Changes.attempts m ≠ 0) :
    Counted { t with filings := t.filings ++ [f] : Bureau } := by
  have htotal : ∀ pk, Bureau.total { t with filings := t.filings ++ [f] } pk = t.total pk + unfiled pk f := by
    intro pk
    simp only [Bureau.total, List.map_append, List.map_singleton, List.sum_append, List.sum_singleton]
    show t.recorded pk + _ + _ = _
    omega
  have hopen : ∀ pk, unfiled pk f ≤ 1 := fun pk => by unfold unfiled; split <;> omega
  have hother : ∀ pk, pk ≠ f.request → unfiled pk f = 0 := fun pk hne => if_neg fun hf => hne hf.1.symm
  refine ⟨h.keyed, h.reservations, h.booked, ?_, ?_, ?_, h.once, h.reasons⟩
  · intro hnone
    rw [show t.hostawayId = none from hnone] at hsome
    cases hsome
  · intro _ pk
    have := hopen pk
    have := h.single hsome pk
    rw [htotal]
    by_cases hpk : pk = f.request
    · subst hpk
      omega
    · rw [hother pk hpk]
      omega
  · intro _ pk m hm ha
    rw [htotal, h.untried hsome pk m hm ha]
    by_cases hpk : pk = f.request
    · subst hpk
      exact absurd ha (htried m hm)
    · rw [hother pk hpk]

theorem recorded_record (t : Bureau) (o : Option RefundObligation) (pk : Uuid) :
    (t.record o).recorded pk = t.recorded pk + if o.any (·.modificationRequest == some pk) then 1 else 0 := by
  cases o with
  | none => simp [recorded, record, obligations]
  | some o =>
    simp only [recorded, record, obligations, Option.toList_some, List.filter_append, List.length_append, Option.any_some]
    by_cases ho : o.modificationRequest == some pk <;> simp [ho]

theorem recordObligation_row {a : Account} {reason : RefundReason} {r : RefundComputation} {modification pk : Uuid}
    {o : RefundObligation} (h : (recordObligation a reason r modification pk).toOption.join = some o) :
    o.modificationRequest = some modification ∧ o.reason = reason := by
  unfold recordObligation at h
  split at h
  · cases h
  · split at h
    · cases h
    · cases h
      exact ⟨rfl, rfl⟩

theorem orphanRefund_row {approved : Option Dec.Column} {moment : Time} {m : ModificationRequest} {k : Desk}
    {o : RefundObligation} (h : t.orphanRefund approved moment m k = some o) :
    o.modificationRequest = some m.pk ∧ o.reason = .cancellation ∧ isCancellation m = true ∧
      Orphans.recorded t.gateway.desk m.pk = none := by
  unfold orphanRefund at h
  split at h
  · cases h
  · rename_i hgo
    simp only [Bool.or_eq_true, not_or, Bool.not_eq_true, Bool.not_eq_false', Option.isSome_eq_false_iff,
      Option.isNone_iff_eq_none] at hgo
    split at h
    · cases h
    · split at h
      · cases h
      · obtain ⟨hm, hr⟩ := recordObligation_row h
        have horphan := hgo.1.2
        simp only [orphanedCancellation, Bool.and_eq_true] at horphan
        exact ⟨hm, hr, horphan.1.1.1, hgo.2⟩

/-- The one obligation of an orphan. -/
theorem Counted.orphan (h : t.Counted) (hnone : t.hostawayId = none) {m : ModificationRequest} (hm : t.board.request m.pk = some m)
    {o : RefundObligation} (ho : o.modificationRequest = some m.pk) (hreason : o.reason = .cancellation)
    (hcan : isCancellation m = true) (hrec : Orphans.recorded t.gateway.desk m.pk = none) : (t.record (some o)).Counted := by
  have hzero : t.recorded m.pk = 0 := by
    simp only [Orphans.recorded, List.getLast?_eq_none_iff, List.filter_eq_nil_iff, Bool.and_eq_true, beq_iff_eq,
      not_and] at hrec
    simp only [recorded, List.length_eq_zero_iff, List.filter_eq_nil_iff, beq_iff_eq]
    intro o' ho' hpk
    exact hrec o' ho' hpk (h.reasons m.pk m hm hcan o' ho' hpk)
  refine ⟨h.keyed, h.reservations, h.booked, h.unbooked, ?_, ?_, fun pk => ?_, fun pk n hn hc o' ho' hpk => ?_⟩
  · intro hsome
    rw [show (t.record (some o)).hostawayId = none from hnone] at hsome
    cases hsome
  · intro hsome
    rw [show (t.record (some o)).hostawayId = none from hnone] at hsome
    cases hsome
  · rw [recorded_record]
    have := h.once pk
    by_cases hpk : pk = m.pk
    · subst hpk
      split <;> omega
    · rw [if_neg]
      · omega
      · simpa [ho] using fun h => hpk h.symm
  · rcases List.mem_append.1 ho' with ho' | ho'
    · exact h.reasons pk n hn hc o' ho' hpk
    · obtain rfl : o' = o := by simpa using ho'
      exact hreason

theorem recordRefundIfOwed_row {settings : Refunds.Settings} {acc : Account} {moment : Time} {m : ModificationRequest}
    {approved : Option Dec.Column} {o : RefundObligation}
    (h : recordRefundIfOwed settings acc moment m approved pk = some o) :
    o.modificationRequest = some m.pk ∧ o.reason = reason m := by
  unfold recordRefundIfOwed at h
  split at h
  · cases h
  · exact recordObligation_row h

/-- A filing is done with the obligation of its request, or without one. -/
theorem Counted.filed (h : t.Counted) {f : Filing} {o : Option RefundObligation} (hi : t.filings[i]? = some f)
    (hf : f.done = false)
    (ho : ∀ o' ∈ o, ∃ m, t.board.request f.request = some m ∧ o'.modificationRequest = some m.pk ∧ o'.reason = reason m) :
    Counted { t.record o with filings := t.filings.set i { f with done := true } : Bureau } := by
  have hopen : t.hostawayId.isSome = true := by
    by_contra hnone
    have := (h.unbooked (by simpa using hnone)).2 f (List.mem_of_getElem? hi)
    rw [hf] at this
    cases this
  have hrow : ∀ pk, (o.any fun o' => o'.modificationRequest == some pk) = true → f.request = pk := by
    intro pk hany
    obtain ⟨o', ho', hpk⟩ := (Option.any_eq_true ..).1 hany
    obtain ⟨m, hm, hmod, -⟩ := ho o' ho'
    rw [hmod] at hpk
    exact (Table.key_of_get hm).symm.trans (Option.some.inj (beq_iff_eq.1 hpk))
  have htotal : ∀ pk, Bureau.total { t.record o with filings := t.filings.set i { f with done := true } } pk ≤ t.total pk := by
    intro pk
    have hsum := Table.sum_map_set (f := unfiled pk) (b := { f with done := true }) hi
    have hdone : unfiled pk { f with done := true } = 0 := if_neg fun h => Bool.noConfusion h.2
    have hrec : Bureau.recorded { t.record o with filings := t.filings.set i { f with done := true } } pk = (t.record o).recorded pk :=
      rfl
    simp only [Bureau.total, hrec, recorded_record]
    show _ + (List.map (unfiled pk) (t.filings.set i _)).sum + (List.map (flight pk) t.world.calls).sum ≤ _
    rw [hdone] at hsum
    by_cases hpk : (o.any fun o' => o'.modificationRequest == some pk) = true
    · have : unfiled pk f = 1 := if_pos ⟨hrow pk hpk, hf⟩
      rw [if_pos hpk]
      omega
    · rw [if_neg hpk]
      omega
  refine ⟨h.keyed, h.reservations, h.booked, ?_, ?_, ?_, ?_, ?_⟩
  · intro hnone
    rw [show t.hostawayId = none from hnone] at hopen
    cases hopen
  · intro _ pk
    exact (htotal pk).trans (h.single hopen pk)
  · intro _ pk m hm ha
    have := h.untried hopen pk m hm ha
    have := htotal pk
    omega
  · intro pk
    have hle : Bureau.recorded { t.record o with filings := t.filings.set i { f with done := true } } pk ≤
        Bureau.total { t.record o with filings := t.filings.set i { f with done := true } } pk := by
      unfold Bureau.total
      omega
    have := h.single hopen pk
    have := htotal pk
    omega
  · intro pk m hm hcan o' ho' hpk
    rcases List.mem_append.1 ho' with ho' | ho'
    · exact h.reasons pk m hm hcan o' ho' hpk
    · obtain ⟨n, hn, hmod, hr⟩ := ho o' (Option.mem_toList.1 ho')
      obtain rfl : n.pk = pk := Option.some.inj (hmod.symm.trans hpk)
      have hnm : t.board.request f.request = t.board.request n.pk := by rw [← Table.key_of_get hn]
      obtain rfl := Option.some.inj ((hnm.symm.trans hn).symm.trans hm)
      rw [hr, reason, if_pos hcan]

theorem reconcile_frame (s : Snapshot) (now : Time) (m : ModificationRequest) :
    (reconcile s now m).pk = m.pk ∧ (reconcile s now m).operation = m.operation ∧
      (reconcile s now m).requestType = m.requestType := by
  unfold reconcile
  split <;> exact ⟨rfl, rfl, rfl⟩

/-- What a snapshot makes of a request. -/
theorem request_snapshot (b : Board) (d : Delivery) (s : Snapshot) (pk : Uuid) :
    ∃ f : ModificationRequest → ModificationRequest, (∀ m, (f m).pk = m.pk ∧ (f m).operation = m.operation ∧
        (f m).requestType = m.requestType) ∧ (syncReservation b d s).requests = b.requests.map f ∧
      (syncReservation b d s).request pk = (b.request pk).map f := by
  suffices h : ∃ f : ModificationRequest → ModificationRequest, (∀ m, (f m).pk = m.pk ∧ (f m).operation = m.operation ∧
      (f m).requestType = m.requestType) ∧ (syncReservation b d s).requests = b.requests.map f by
    obtain ⟨f, hf, hreq⟩ := h
    refine ⟨f, hf, hreq, ?_⟩
    rw [Board.request, hreq]
    exact Table.get_map fun m => (hf m).1
  refine ⟨_, fun m => ?_, Expiration.syncReservation_requests b d s⟩
  split
  · exact ⟨rfl, rfl, rfl⟩
  · exact reconcile_frame s d.now m

theorem syncReservation_id (b : Board) (d : Delivery) (s : Snapshot) :
    (syncReservation b d s).reservation.hostawayReservationId = b.reservation.hostawayReservationId := by
  unfold syncReservation
  split <;> rfl

/-- A snapshot writes neither an operation nor an obligation. -/
theorem Counted.snapshot (h : t.Counted) (d : Delivery) (s : Snapshot) :
    Counted { t with world.board := syncReservation t.board d s : Bureau } := by
  have hid : hostawayId { t with world.board := syncReservation t.board d s } = t.hostawayId := syncReservation_id t.board d s
  have hrow : ∀ pk m', (syncReservation t.board d s).request pk = some m' → ∃ m, t.board.request pk = some m ∧
      m'.operation = m.operation ∧ m'.requestType = m.requestType := by
    intro pk m' hm'
    obtain ⟨f, hf, -, hget⟩ := request_snapshot t.board d s pk
    rw [hget] at hm'
    obtain ⟨m, hm, rfl⟩ := Option.map_eq_some_iff.1 hm'
    exact ⟨m, hm, (hf m).2⟩
  refine ⟨?_, ?_, ?_, ?_, ?_, ?_, h.once, ?_⟩
  · obtain ⟨f, hf, hreq, -⟩ := request_snapshot t.board d s ⟨"0", rfl⟩
    show ((syncReservation t.board d s).requests.map (·.pk)).Nodup
    rw [hreq, List.map_map]
    exact (List.map_congr_left fun m _ => (hf m).1).symm ▸ h.keyed
  · intro c hc
    exact (h.reservations c hc).trans hid.symm
  · rw [hid]
    exact h.booked
  · rw [hid]
    exact h.unbooked
  · rw [hid]
    exact h.single
  · rw [hid]
    intro hsome pk m' hm' ha
    obtain ⟨m, hm, hop, -⟩ := hrow pk m' hm'
    refine h.untried hsome pk m hm ?_
    rw [Changes.attempts, ← hop]
    exact ha
  · intro pk m' hm' hcan
    obtain ⟨m, hm, -, htype⟩ := hrow pk m' hm'
    refine h.reasons pk m hm ?_
    rw [isCancellation, ← htype]
    exact hcan

/-! ### Refund calls -/

theorem modifyObligation_marks {f : RefundObligation → RefundObligation} (d : HyperPay.Desk) (pk : Uuid)
    (hf : ∀ o, marks (f o) = marks o) : (d.modifyObligation pk f).obligations.map marks = d.obligations.map marks := by
  rw [Desk.modifyObligation, Table.modify, List.map_map]
  refine List.map_congr_left fun o _ => ?_
  simp only [Function.comp_apply]
  split
  · exact hf o
  · rfl

theorem recordResponse_marks (refund : RefundObligation) (payment : PaymentAttempt) (document : Document)
    (operator : Option ℕ) (now : Time) (d : HyperPay.Desk) :
    (recordResponse refund payment document operator now d).1.obligations.map marks = d.obligations.map marks := by
  unfold recordResponse
  split
  · exact modifyObligation_marks d refund.pk fun _ => rfl
  · exact modifyObligation_marks d refund.pk fun _ => rfl
  · exact modifyObligation_marks d refund.pk fun _ => rfl

theorem settle_marks (s : Submission) (reply : Reply) (operator : Option ℕ) (now : Time) (d : HyperPay.Desk) :
    (settle s reply operator now d).1.obligations.map marks = d.obligations.map marks := by
  unfold settle
  split
  · split
    · rfl
    · exact recordResponse_marks ..
  · split
    · exact modifyObligation_marks d s.refund.pk fun _ => rfl
    · exact modifyObligation_marks d s.refund.pk fun _ => rfl
    · exact modifyObligation_marks d s.refund.pk fun _ => rfl
    · exact modifyObligation_marks d s.refund.pk fun _ => rfl
    · rfl
  · rfl

/-- A refund call writes the progress of an obligation, not what it is for. -/
theorem gateway_marks (g : Gateway) {action : HyperPay.Action} (h : isRefundCall action = true) :
    (g.step action).desk.obligations.map marks = g.desk.obligations.map marks := by
  have hm := Gateway.step_move g action
  generalize g.step action = g' at hm ⊢
  cases hm with
  | stay | sent => rfl
  | submitted | unsent => exact modifyObligation_marks g.desk _ fun _ => rfl
  | answered => exact settle_marks ..
  | recorded | completed | asked | dropped | processed => cases h

theorem Counted.gateway (h : t.Counted) {action : HyperPay.Action} (hcall : isRefundCall action = true) :
    Counted { t with gateway := t.gateway.step action } := by
  have hmarks := gateway_marks t.gateway hcall
  have hrec : ∀ pk, Bureau.recorded { t with gateway := t.gateway.step action } pk = t.recorded pk :=
    recorded_of_marks hmarks
  have htotal : ∀ pk, Bureau.total { t with gateway := t.gateway.step action } pk = t.total pk := by
    intro pk
    rw [Bureau.total, Bureau.total, hrec]
  refine ⟨h.keyed, h.reservations, h.booked, h.unbooked, ?_, ?_, ?_, ?_⟩
  · intro hsome pk
    rw [htotal]
    exact h.single hsome pk
  · intro hsome pk m hm ha
    rw [htotal]
    exact h.untried hsome pk m hm ha
  · intro pk
    rw [hrec]
    exact h.once pk
  · intro pk m hm hcan o ho hpk
    have hmem := List.mem_map_of_mem (f := marks) ho
    rw [obligations, hmarks] at hmem
    obtain ⟨o', ho', hsame⟩ := List.mem_map.1 hmem
    simp only [marks, Prod.mk.injEq] at hsame
    rw [← hsame.2]
    exact h.reasons pk m hm hcan o' ho' (hsame.1.trans hpk)

/-! ### Steps -/

theorem Counted.automatic (h : t.Counted) (pk : Uuid) (ownerOverride : Bool) (approved : Option Dec.Column) :
    (t.step (.automatic pk ownerOverride approved)).Counted := by
  simp only [step, Changes.World.step, Changes.World.load]
  cases hm : t.world.board.request pk with
  | none => exact h.congr rfl rfl rfl
  | some m =>
    simp only
    have hnew : ∀ k, flight k (⟨m, t.board.reservation, .loaded ownerOverride⟩ : Changes.Call) = 0 :=
      fun k => if_neg fun hf => Bool.noConfusion hf.2
    have htotal : ∀ k, ((t.world.calls ++ [(⟨m, t.board.reservation, .loaded ownerOverride⟩ : Changes.Call)]).map (flight k)).sum =
        (t.world.calls.map (flight k)).sum := by
      intro k
      rw [List.map_append, List.sum_append, List.map_singleton, List.sum_singleton, hnew, add_zero]
    refine ⟨h.keyed, ?_, ?_, ?_, ?_, ?_, h.once, h.reasons⟩
    · intro c hc
      rcases List.mem_append.1 hc with hc | hc
      · exact h.reservations c hc
      · rw [List.mem_singleton.1 hc]
        rfl
    · intro hsome c hc
      rcases List.mem_append.1 hc with hc | hc
      · exact h.booked hsome c hc
      · rw [List.mem_singleton.1 hc]
        rintro ⟨⟩
    · intro hnone
      refine ⟨fun c hc => ?_, (h.unbooked hnone).2⟩
      rcases List.mem_append.1 hc with hc | hc
      · exact (h.unbooked hnone).1 c hc
      · rw [List.mem_singleton.1 hc]
        exact ⟨by rintro ⟨⟩, rfl⟩
    · intro hsome k
      exact (congrArg (_ + ·) (htotal k)).trans_le (h.single hsome k)
    · intro hsome k n hn ha
      exact (congrArg (_ + ·) (htotal k)).trans (h.untried hsome k n hn ha)

/-- What `book` does: a completing call files, a call that finds the request completed answers, an orphan may get its
obligation, and nothing else is written. -/
inductive Booked (t t' : Bureau) (i : ℕ) (c : Changes.Call) (k : Desk) : Changes.Event → Bureau → Prop
  | filed {now s m} : c.stage = .completing s → t.board.request c.request.pk = some m →
      Booked t t' i c k (.write now)
        { t'.complete [m.pk] (if owes k.settings t'.account now m (t.approvedAmount i) then [m.pk] else []) with
          filings := t.filings ++ [⟨m.pk, t.approvedAmount i, false⟩] }
  | answered {e ownerOverride m} : c.stage = .loaded ownerOverride → t.board.request c.request.pk = some m →
      m.status = .completed → Booked t t' i c k (.check e) { t' with answered := t.answered ++ [m.pk] }
  | orphaned {e m} : c.stage = .orphaned → t.board.request c.request.pk = some m →
      Booked t t' i c k (.check e) (t'.record (t.orphanRefund (t.approvedAmount i) e.now m k))
  | other {event : Changes.Event} : Booked t t' i c k event t'

theorem book_booked (t t' : Bureau) (i : ℕ) (c : Changes.Call) (event : Changes.Event) (k : Desk) :
    Booked t t' i c k event (t.book t' i c event k) := by
  unfold book
  split
  · exact .filed (by assumption) (by assumption)
  · split
    · exact .answered (by assumption) (by assumption) (by assumption)
    · exact .other
  · exact .orphaned (by assumption) (by assumption)
  · exact .other

theorem Counted.advanced (h : t.Counted) (hc : t.world.calls[i]? = some c) (k : Desk) :
    (t.book { t with world := t.world.step (.event i event) } i c event k).Counted := by
  have hw : Counted { t with world := t.world.step (.event i event) } := h.world hc
  have hb := book_booked t { t with world := t.world.step (.event i event) } i c event k
  generalize t.book _ i c event k = t' at hb ⊢
  cases hb with
  | other => exact hw
  | answered => exact hw.congr rfl rfl rfl
  | @orphaned e m hst hm =>
    cases ho : t.orphanRefund (t.approvedAmount i) e.now m k with
    | none => exact hw.congr rfl (by simp [record, obligations]) rfl
    | some o =>
      obtain ⟨hmod, hreason, hcan, hnone⟩ := orphanRefund_row ho
      have hid : t.hostawayId = none := by
        by_contra hsome
        exact h.booked (Option.isSome_iff_ne_none.2 hsome) c (List.mem_of_getElem? hc) hst
      have hmpk : m.pk = c.request.pk := Table.key_of_get hm
      refine hw.orphan ?_ (m := t.world.rewritten (.event i (.check e)) m) ?_ ?_ hreason ?_ ?_
      · exact (id_event ..).trans hid
      · rw [Changes.World.rewritten_pk]
        show (t.world.step (.event i (.check e))).board.request m.pk = _
        rw [request_event h.keyed, hmpk, hm]
        rfl
      · rw [Changes.World.rewritten_pk]
        exact hmod
      · rw [isCancellation_event]
        exact hcan
      · rw [Changes.World.rewritten_pk]
        exact hnone
  | @filed now s m hst hm =>
    have hmpk : m.pk = c.request.pk := Table.key_of_get hm
    have hsome : t.hostawayId.isSome = true := by
      by_contra hnone
      have := ((h.unbooked (by simpa using hnone)).1 c (List.mem_of_getElem? hc)).2
      rw [hst] at this
      cases this
    have hfl : flight c.request.pk c = 1 := if_pos ⟨rfl, by rw [hst]; rfl⟩
    have htried : Changes.attempts m ≠ 0 := by
      intro hzero
      have hnone := h.untried hsome c.request.pk m hm hzero
      have hle := List.le_sum_of_mem (List.mem_map_of_mem (f := flight c.request.pk) (List.mem_of_getElem? hc))
      unfold Bureau.total at hnone
      omega
    have hzero : Bureau.total { t with world := t.world.step (.event i (.write now)) } c.request.pk = 0 := by
      rcases world_event (.write now) hc with ⟨hadv, -⟩ | ⟨b', c', hadv, hcalls⟩
      · simp only [Changes.advance, Changes.conclude, hst] at hadv
        have : t.world.board.request c.request.pk = some m := hm
        rw [this] at hadv
        cases hadv
      · have := total_event hcalls hc c.request.pk
        have := h.single hsome c.request.pk
        have hend : flight c.request.pk c' = 0 := by
          refine if_neg fun hf => ?_
          rcases (Changes.advance_goes hadv).flight hf.2 with ⟨-, hne⟩ | ⟨hcl, -⟩
          · exact hne s hst
          · rw [hst] at hcl
            cases hcl
        omega
    have hfile := hw.file (f := ⟨m.pk, t.approvedAmount i, false⟩) (by rw [← hsome]; exact congrArg Option.isSome (id_event ..))
      (by rw [hmpk]; exact hzero) ?_
    · exact hfile.congr rfl rfl rfl
    · intro m' hm'
      have hrow : (t.world.step (.event i (.write now))).board.request m.pk = some m' := hm'
      rw [request_event h.keyed, hmpk, hm] at hrow
      obtain rfl := Option.some.inj hrow
      have := attempts_event t.world i (.write now) m
      omega

theorem Counted.recordFiling (h : t.Counted) {f : Filing} (hi : t.filings[i]? = some f) (hf : f.done = false)
    (moment : Time) (k : Desk) :
    Counted { t.record ((t.board.request f.request).bind fun m =>
        recordRefundIfOwed k.settings t.account moment m f.approvedRefundAmount k.pk) with
      filings := t.filings.set i { f with done := true } : Bureau } := by
  refine h.filed hi hf fun o ho => ?_
  obtain ⟨m, hm, hrec⟩ := Option.bind_eq_some_iff.1 ho
  exact ⟨m, hm, recordRefundIfOwed_row hrec⟩

/-- Every step keeps the count. -/
theorem Counted.step (h : t.Counted) (a : Action) : (t.step a).Counted := by
  cases a with
  | automatic pk ownerOverride approved => exact h.automatic pk ownerOverride approved
  | event i event k =>
    simp only [Bureau.step]
    split
    · exact h
    · rename_i c hc
      exact h.advanced hc k
  | record i moment k =>
    simp only [Bureau.step]
    split
    · exact h
    · rename_i f hi
      split
      · exact h
      · rename_i hf
        exact h.recordFiling hi (by simpa using hf) moment k
  | snapshot d s settings => exact (h.snapshot d s).congr rfl rfl rfl
  | gateway action =>
    simp only [Bureau.step]
    split
    · rename_i hcall
      exact h.gateway hcall
    · exact h

/-! ### What is owed -/

/-- What is owed for a completed request is recorded or still filed, and recorded by the time a call finds it completed. -/
structure Kept (t : Bureau) : Prop where
  recorded : ∀ pk ∈ t.due, 1 ≤ t.recorded pk ∨ t.pending pk = true
  answered : ∀ pk ∈ t.answered, pk ∈ t.due → 1 ≤ t.recorded pk

theorem Kept.grow (h : t.Kept) (hdue : t'.due = t.due) (hans : ∀ pk ∈ t'.answered, pk ∈ t.answered)
    (hrec : ∀ pk, t.recorded pk ≤ t'.recorded pk) (hpend : ∀ pk, t.pending pk = true → 1 ≤ t'.recorded pk ∨ t'.pending pk = true) :
    t'.Kept := by
  constructor
  · rw [hdue]
    intro pk hpk
    rcases h.recorded pk hpk with hr | hp
    · exact .inl (hr.trans (hrec pk))
    · exact hpend pk hp
  · rw [hdue]
    intro pk hpk hd
    exact (h.answered pk (hans pk hpk) hd).trans (hrec pk)

theorem recordObligation_of_covers {acc : Account} {r : RefundComputation} {reason : RefundReason} {modification : Uuid}
    (hpos : 0 < r.amount) (hc : covers acc r = true) :
    ((recordObligation acc reason r modification pk).toOption.join).isSome = true := by
  unfold recordObligation
  rw [if_neg (not_le.2 hpos), if_neg]
  · rfl
  · simp only [covers, Bool.not_eq_eq_eq_not, Bool.not_true, Bool.and_eq_false_iff, decide_eq_false_iff_not] at hc
    rintro ⟨hreceipt, hlt⟩
    rcases hc with hc | hc
    · exact Bool.noConfusion (hc.symm.trans hreceipt)
    · exact hc hlt

/-- A filing that loses nothing is done with an obligation, if one is owed. -/
theorem recordRefundIfOwed_isSome {i : ℕ} {f : Filing} {moment : Time} {k : Desk} (hi : t.filings[i]? = some f)
    (hdone : f.done = false) (hdue : f.request ∈ t.due) (hok : t.loses (.record i moment k) = false) :
    ∃ m o, t.board.request f.request = some m ∧
      recordRefundIfOwed k.settings t.account moment m f.approvedRefundAmount k.pk = some o := by
  simp only [loses, hi, Option.any_some, hdone, Bool.not_false, Bool.true_and, List.contains_eq_mem, hdue, decide_true,
    Bool.not_eq_false'] at hok
  obtain ⟨m, hm, hr⟩ := (Option.any_eq_true ..).1 hok
  obtain ⟨r, href, hcov⟩ := (Option.any_eq_true ..).1 hr
  rw [Bool.and_eq_true, decide_eq_true_eq] at hcov
  have hsome : ((recordObligation t.account (reason m) r m.pk k.pk).toOption.join).isSome = true :=
    recordObligation_of_covers hcov.1 hcov.2
  obtain ⟨o, ho⟩ := Option.isSome_iff_exists.1 hsome
  refine ⟨m, o, hm, ?_⟩
  rw [recordRefundIfOwed, href]
  exact ho

theorem Kept.record (h : t.Kept) {f : Filing} {moment : Time} {k : Desk} (hi : t.filings[i]? = some f)
    (hdone : f.done = false) (hok : t.loses (.record i moment k) = false) :
    Kept { t.record ((t.board.request f.request).bind fun m =>
        recordRefundIfOwed k.settings t.account moment m f.approvedRefundAmount k.pk) with
      filings := t.filings.set i { f with done := true } : Bureau } := by
  generalize ho : ((t.board.request f.request).bind fun m =>
    recordRefundIfOwed k.settings t.account moment m f.approvedRefundAmount k.pk) = o
  have hrec : ∀ pk, Bureau.recorded { t.record o with filings := t.filings.set i { f with done := true } } pk =
      t.recorded pk + if o.any (·.modificationRequest == some pk) then 1 else 0 := recorded_record t o
  constructor
  · intro pk hd
    rw [hrec]
    rcases h.recorded pk hd with hr | hp
    · exact .inl (hr.trans (Nat.le_add_right ..))
    by_cases hpk : pk = f.request
    · -- the filing is the one of the request
      subst hpk
      obtain ⟨m, o', hm, ho'⟩ := recordRefundIfOwed_isSome hi hdone hd hok
      rw [hm, Option.bind_some, ho'] at ho
      subst ho
      have hmod := (recordRefundIfOwed_row ho').1
      have hmpk : m.pk = f.request := Table.key_of_get hm
      rw [hmpk] at hmod
      left
      simp [hmod]
    · right
      obtain ⟨g, hg, hopen⟩ := List.any_eq_true.1 hp
      simp only [Bool.and_eq_true, beq_iff_eq] at hopen
      refine List.any_eq_true.2 ⟨g, ?_, by simp [hopen]⟩
      obtain ⟨j, hj⟩ := List.getElem?_of_mem hg
      have hne : i ≠ j := by
        rintro rfl
        rw [hi] at hj
        cases hj
        exact hpk hopen.1.symm
      refine List.mem_of_getElem? (i := j) ?_
      rw [List.getElem?_set_ne hne]
      exact hj
  · intro pk ha hd
    rw [hrec]
    exact (h.answered pk ha hd).trans (Nat.le_add_right ..)

theorem Kept.advanced (h : t.Kept) (hc : t.world.calls[i]? = some c) {k : Desk}
    (hok : t.loses (.event i event k) = false) :
    (t.book { t with world := t.world.step (.event i event) } i c event k).Kept := by
  have hw : Kept { t with world := t.world.step (.event i event) } :=
    h.grow rfl (fun _ h => h) (fun _ => le_rfl) fun _ => .inr
  have hb := book_booked t { t with world := t.world.step (.event i event) } i c event k
  generalize t.book _ i c event k = t' at hb ⊢
  cases hb with
  | other => exact hw
  | @answered e ownerOverride m hst hm hcomp =>
    refine ⟨h.recorded, fun pk ha hd => ?_⟩
    rcases List.mem_append.1 ha with ha | ha
    · exact h.answered pk ha hd
    · obtain rfl := List.mem_singleton.1 ha
      refine (h.recorded m.pk hd).resolve_right fun hp => ?_
      have hmpk : m.pk = c.request.pk := Table.key_of_get hm
      rw [hmpk] at hd hp
      simp [loses, hc, hst, hd, hp, hm, hcomp] at hok
  | @orphaned e m =>
    refine hw.grow rfl (fun _ h => h) (fun pk => ?_) fun _ => .inr
    rw [recorded_record]
    exact Nat.le_add_right ..
  | @filed now s m =>
    constructor
    · intro pk hd
      rcases List.mem_append.1 hd with hd | hd
      · rcases h.recorded pk hd with hr | hp
        · exact .inl hr
        · right
          obtain ⟨g, hg, hopen⟩ := List.any_eq_true.1 hp
          exact List.any_eq_true.2 ⟨g, List.mem_append_left _ hg, hopen⟩
      · right
        have hpk : pk = m.pk := by
          split at hd
          · exact List.mem_singleton.1 hd
          · cases hd
        exact List.any_eq_true.2 ⟨⟨m.pk, t.approvedAmount i, false⟩, List.mem_append_right _ (List.mem_singleton.2 rfl),
          by simp [hpk]⟩
    · intro pk ha hd
      obtain ⟨ha, hne⟩ := List.mem_filter.1 ha
      have hne : pk ≠ m.pk := by simpa using hne
      rcases List.mem_append.1 hd with hd | hd
      · exact h.answered pk ha hd
      · split at hd
        · exact absurd (List.mem_singleton.1 hd) hne
        · cases hd

theorem Kept.snapshot (h : t.Kept) {d : Delivery} {s : Snapshot} {settings : Refunds.Settings}
    (hok : t.loses (.snapshot d s settings) = false) : (t.step (.snapshot d s settings)).Kept := by
  have hnone : (t.completedBy d s).filter (fun m =>
      owes settings { t with world.board := syncReservation t.board d s : Bureau }.account d.now m none) = [] := by
    rw [List.filter_eq_nil_iff]
    intro m hm ho
    simp only [loses, List.any_eq_false] at hok
    exact hok m hm ho
  refine h.grow ?_ (fun pk ha => (List.mem_filter.1 ha).1) (fun _ => le_rfl) fun _ => .inr
  simp only [Bureau.step, complete, hnone, List.map_nil, List.append_nil]

theorem Kept.step (h : t.Kept) (hok : t.loses a = false) : (t.step a).Kept := by
  cases a with
  | automatic => exact h.grow rfl (fun _ h => h) (fun _ => le_rfl) fun _ => .inr
  | event i event k =>
    simp only [Bureau.step]
    split
    · exact h
    · rename_i c hc
      exact h.advanced hc hok
  | record i moment k =>
    simp only [Bureau.step]
    split
    · exact h
    · rename_i f hi
      split
      · exact h
      · rename_i hf
        exact h.record hi (by simpa using hf) hok
  | snapshot => exact h.snapshot hok
  | gateway action =>
    simp only [Bureau.step]
    split
    · rename_i hcall
      have hrec : ∀ pk, Bureau.recorded { t with gateway := t.gateway.step action } pk = t.recorded pk :=
        recorded_of_marks (gateway_marks t.gateway hcall)
      exact h.grow rfl (fun _ h => h) (fun pk => (hrec pk).ge) fun _ => .inr
    · exact h

theorem Idle.kept (h : t.Idle) : t.Kept := ⟨by simp [h.due], by simp [h.due]⟩

end Bureau

open Machine in
/-- No request ever has two obligations, and, as long as no action of the run loses a refund, a request for which one was
owed when it was completed has exactly one once a call has found it completed. -/
theorem refund_recorded_once {t : Bureau} (h : t.Idle) (as : List Action) :
    (∀ pk, (run Bureau.step t as).recorded pk ≤ 1) ∧
      (Meets Bureau.step (fun t a => t.loses a = false) t as →
        ∀ pk ∈ (run Bureau.step t as).due, pk ∈ (run Bureau.step t as).answered →
          (run Bureau.step t as).recorded pk = 1) := by
  have hcount := (run_inv (I := Bureau.Counted) (fun _ a h => h.step a) h.counted as).once
  refine ⟨hcount, fun hok pk hd ha => ?_⟩
  have hkept := hok.inv (I := Bureau.Kept) (fun _ _ h hok => h.step hok) h.kept
  exact le_antisymm (hcount pk) (hkept.answered pk ha hd)

/-! ### A paid stay that is shortened -/

open Hostaway.Changes (firstRequest liveChecks)

def paidStay : Bureau where
  world := ⟨⟨Changes.stay, [quotedRequest Changes.stay (Changes.shorter firstRequest 3 10)]⟩, [], []⟩
  cancellationPolicy := some "flexible"
  checkInTime := 57600
  components := none
  gateway := ⟨⟨Changes.stay.bookingIntent, none,
    [{ cardPayment with
      bookingIntent := Changes.stay.bookingIntent.getD cardPayment.bookingIntent
      amount := 1200 }], []⟩, [], [], []⟩
  approved := []
  filings := []
  due := []
  answered := []

def refundDesk : Desk := ⟨⟨true, []⟩, true, ⟨"6c1e7c1a-1f60-4f0e-9a51-0d5d7c2f1b15", rfl⟩⟩

/-- The change is sent to the provider. -/
def sentRun : List Action :=
  [.automatic firstRequest false none, .event 0 (.check (liveChecks 12)) refundDesk,
   .event 0 (.check (liveChecks 13)) refundDesk, .event 0 (.check (liveChecks 14)) refundDesk, .event 0 .send refundDesk]

/-- A call after the change has been completed. -/
def askedAgain : List Action := [.automatic firstRequest false none, .event 1 (.check (liveChecks 18)) refundDesk]

def answeredRun : List Action :=
  sentRun ++
    [.event 0 (.reply (.updated Expiration.shorterStay)) refundDesk, .event 0 (.write 16) refundDesk, .record 0 17 refundDesk] ++
    askedAgain

theorem paidStay_idle : paidStay.Idle where
  keyed := by simp [Changes.Keyed, Bureau.board, paidStay]
  calls := rfl
  filings := rfl
  due := rfl
  once := fun _ => Nat.zero_le _
  untried := fun _ _ _ _ => rfl
  reasons := fun _ _ _ _ ho => by cases ho

/-- The provider answers, the call records the refund of 300 and a later one finds the change completed. -/
theorem refund_recorded_once_answered :
    (Machine.run Bureau.step paidStay answeredRun).obligations.map (·.amount) = [300] ∧
      (Machine.run Bureau.step paidStay answeredRun).recorded firstRequest = 1 :=
  ⟨by decide +kernel,
    (refund_recorded_once paidStay_idle answeredRun).2 (by decide +kernel) firstRequest (by decide +kernel) (by decide +kernel)⟩

/-- The update times out and is left uncertain, and a webhook completes the change. -/
def uncertainRun : List Action :=
  sentRun ++
    [.event 0 (.reply .uncertain) refundDesk, .event 0 (.write 16) refundDesk,
     .snapshot ⟨none, "direct", 17⟩ Expiration.shorterStay refundDesk.settings] ++ askedAgain

def crashedRun : List Action :=
  sentRun ++ [.event 0 (.reply (.updated Expiration.shorterStay)) refundDesk, .event 0 (.write 16) refundDesk] ++ askedAgain

/-- The change is made, 300 is owed back, and the call that finds it completed leaves it at that. -/
theorem refund_never_recorded :
    (Machine.run Bureau.step paidStay uncertainRun).requests.map (·.status) = [.completed] ∧
      firstRequest ∈ (Machine.run Bureau.step paidStay uncertainRun).due ∧
      firstRequest ∈ (Machine.run Bureau.step paidStay uncertainRun).answered ∧
      (Machine.run Bureau.step paidStay uncertainRun).recorded firstRequest = 0 := by
  decide +kernel

/-- So does the retry of a call that ended between the transaction that completes the change and the one that records the
refund. -/
theorem refund_lost_between_transactions :
    (Machine.run Bureau.step paidStay crashedRun).requests.map (·.status) = [.completed] ∧
      firstRequest ∈ (Machine.run Bureau.step paidStay crashedRun).due ∧
      firstRequest ∈ (Machine.run Bureau.step paidStay crashedRun).answered ∧
      (Machine.run Bureau.step paidStay crashedRun).recorded firstRequest = 0 := by
  decide +kernel

end Apartments.Recording
