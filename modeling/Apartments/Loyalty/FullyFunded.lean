import Apartments.Lib.Run
import Apartments.Loyalty.Funding

/-!
# A stay is sent when it is paid in full

`Funded` holds along every run that is never exposed. Its core is `Pending`: the transaction under the financial lock
leaves the value of the points alone, or moves them while no attempt is live, or ends a confirmation that cost no cash.
A payment that a call has matched stays collected, so that nothing moves the points below it before the request is sent.
-/

namespace Apartments.Funding

open Loyalty Payments Documents Machine

variable {w w' : World} {o : Outside} {d d' : Document} {op : Op} {t : Tx} {a : Action} {p : Attempt} {i : ℕ}
  {s : PaymentStatus}

/-! ### Attempts and points -/

theorem live_of_collected (h : collected s = true) : live s = true := by
  cases s <;> simp_all [collected, live]

/-- The statuses at which `hold` goes on are those at which `release_allowed` does. -/
theorem unpaid_eq (b : Booking) : unpaid b = !b.attempts.any live := by
  rw [unpaid, List.not_any_eq_all_not]
  refine congrArg (List.all b.attempts) (funext fun s => ?_)
  cases s <;> rfl

/-- No attempt of the booking is under way or has collected. -/
def World.Dead (w : World) : Prop := ∀ p ∈ w.attempts, live p.status = false

theorem World.sees_gross (h : w.sees o = true) : o.gross = w.gross := by
  simp only [World.sees, Bool.and_eq_true, beq_iff_eq] at h
  exact h.2

theorem World.sees_member (h : w.sees o = true) : o.member = w.member := by
  simp only [World.sees, Bool.and_eq_true, beq_iff_eq] at h
  exact h.1.2

theorem World.sees_any (h : w.sees o = true) : o.booking.attempts.any live = w.attempts.any fun p => live p.status := by
  simp only [World.sees, Bool.and_eq_true, beq_iff_eq] at h
  rw [h.1.1, List.any_map]
  rfl

theorem World.dead_of_any (h : (w.attempts.any fun p => live p.status) = false) : w.Dead := by
  intro p hp
  simpa using List.any_eq_false.1 h p hp

theorem valueOf_congr (hhold : d'.hold = d.hold) (hredemption : d'.redemption = d.redemption) :
    valueOf d' = valueOf d := by
  simp only [valueOf, allocation, hhold, hredemption]

theorem valueOf_hold {held : Hold} (h : d.hold = some held) : valueOf d = some held.value := by
  simp [valueOf, allocation, h]

theorem valueOf_redemption (h : d.hold = none) : valueOf d = d.redemption.map (·.value) := by
  simp [valueOf, allocation, h, Function.comp_def]

theorem valueOf_restored {r r' : Redemption} (h : d.redemption = some r) (hv : r'.value = r.value) :
    valueOf { d with redemption := some r' } = valueOf d := by
  simp only [valueOf, allocation, h]
  cases d.hold with
  | none => simp [hv]
  | some held => rfl

theorem cashDue_value {due v : Dec} (h : Documents.cashDue o d = some due) (hv : valueOf d = some v) :
    due + v = o.gross := by
  obtain ⟨⟨value, member⟩, halloc, rfl⟩ := Option.map_eq_some_iff.1 hv
  simp only [Documents.cashDue, halloc] at h
  split_ifs at h
  obtain rfl := Option.some.inj h
  exact sub_add_cancel _ _

theorem cashDue_none {due : Dec} (h : Documents.cashDue o d = some due) (hv : valueOf d = none) : due = o.gross := by
  have halloc : allocation d = none := Option.map_eq_none_iff.1 hv
  simp only [Documents.cashDue, halloc] at h
  exact (Option.some.inj h).symm

/-- What `cash_due` answers and the points make the amount of the intent. -/
theorem cashDue_sum {due : Dec} (h : Documents.cashDue o d = some due) : due + (valueOf d).getD 0 = o.gross := by
  cases hv : valueOf d with
  | none => simpa using cashDue_none h hv
  | some v => exact cashDue_value h hv

theorem World.cashDue_add {due : Dec} (h : w.cashDue o = some due) : due + (valueOf w.document).getD 0 = o.gross := by
  simp only [World.cashDue] at h
  split_ifs at h with _ hkeys
  · simp only [not_or, not_not] at hkeys
    have hnone : valueOf w.document = none := by rw [valueOf_redemption hkeys.1, hkeys.2.1, Option.map_none]
    rw [hnone, ← Option.some.inj h]
    exact add_zero _
  · exact cashDue_sum h

/-! ### The invariant -/

/-- A command under the financial lock is to leave the points alone, or moves them beside no live attempt, or ends a
confirmation. -/
structure Pending (w : World) (t : Tx) : Prop where
  attempt : ∀ p, t.attempt = some p → 0 < p.amount ∧ p.points = valueOf t.document ∧
    p.amount + p.points.getD 0 = w.gross
  holder : ∀ held, t.document.hold = some held → held.member = w.member
  value : valueOf t.document = valueOf w.document ∨ (t.op.moves = true ∧ t.document.hold ≠ w.document.hold) ∨
    (t.op = .abandonConfirmation ∧ w.call ≠ none)
  dead : t.op.moves = true → t.document.hold ≠ w.document.hold → w.Dead
  calling : w.call ≠ none ∨ t.op = .confirmPointsBooking → t.op = .abandonConfirmation ∨
    (valueOf t.document = some w.gross ∧ t.document.pointsConfirmationStarted = true)

structure Funded (w : World) : Prop where
  positive : ∀ p ∈ w.attempts, 0 < p.amount
  computed : ∀ p ∈ w.attempts, ∀ v, p.points = some v → p.amount + v = w.gross
  holder : ∀ held, w.document.hold = some held → held.member = w.member
  calling : w.call ≠ none → valueOf w.document = some w.gross ∧ w.document.pointsConfirmationStarted = true
  dues : ∀ c ∈ w.dues, ∀ p ∈ w.attempts, live p.status = true → p.amount = c →
    c + (valueOf w.document).getD 0 = w.gross
  creates : ∀ c ∈ w.creates, (∃ p ∈ w.attempts, collected p.status = true ∧ p.amount = c) ∧
    c + (valueOf w.document).getD 0 = w.gross
  tx : ∀ t, w.tx = some t → Pending w t
  sent : ∀ x ∈ w.sent, x.cash + x.points = w.gross

/-- The points are those of the member of the booking. -/
theorem Funded.ownPoints (h : Funded w) : w.ownPoints = (valueOf w.document).getD 0 := by
  unfold World.ownPoints
  split
  · rename_i held hheld
    rw [if_pos (h.holder held hheld), valueOf_hold hheld, Option.getD_some]
  · rename_i hnone
    rw [valueOf_redemption hnone]

/-- While the call of a full-points confirmation is under way, no payment is due. -/
theorem Funded.not_due (h : Funded w) (hcall : w.call ≠ none) (hp : p ∈ w.attempts) :
    p.amount + (valueOf w.document).getD 0 ≠ w.gross := by
  intro hsum
  rw [(h.calling hcall).1, Option.getD_some] at hsum
  have := h.positive p hp
  linarith

/-! ### The commands -/

/-- A release that goes on found the hold frozen beside dead attempts, or not frozen. -/
theorem of_releaseAllowed (h : (releaseAllowed (o.loaded d)).isOk = true) :
    d.pointsConfirmationStarted = false ∧ (d.checkoutFrozen = true → o.booking.attempts.any live = false) := by
  simp only [releaseAllowed, Outside.loaded] at h
  by_cases hstarted : d.pointsConfirmationStarted = true
  · simp [hstarted, raiseIf, Except.isOk, Except.toBool, bind, Except.bind] at h
  · refine ⟨eq_false_of_ne_true hstarted, fun hfrozen => ?_⟩
    by_contra hany
    have hunder : underPayment { o.booking with loyaltyState := d.toLoyaltyState } = true := eq_true_of_ne_false hany
    simp [hstarted, hfrozen, hunder, raiseIf, Except.isOk, Except.toBool, bind, Except.bind] at h

theorem valueOf_released (h : d.hold = none) : valueOf (released d) = valueOf d := valueOf_congr h.symm rfl

theorem of_map {x : Option Document} {q : Option Attempt}
    (h : (x.map fun d => (d, (none : Option Attempt))) = some (d', q)) : x = some d' ∧ q = none := by
  obtain ⟨d, hd, heq⟩ := Option.map_eq_some_iff.1 h
  cases heq
  exact ⟨hd, rfl⟩

/-- A command that leaves the points alone. -/
theorem Pending.still (h : Funded w) {q : Option Attempt} (hop : op ≠ .confirmPointsBooking)
    (hmoves : op.moves = true → d'.hold = w.document.hold)
    (hattempt : ∀ p, q = some p → 0 < p.amount ∧ p.points = valueOf d' ∧ p.amount + p.points.getD 0 = w.gross)
    (hholder : ∀ held, d'.hold = some held → held.member = w.member) (hvalue : valueOf d' = valueOf w.document)
    (hstarted : d'.pointsConfirmationStarted = w.document.pointsConfirmationStarted) : Pending w ⟨op, d', q⟩ where
  attempt := hattempt
  holder := hholder
  value := .inl hvalue
  dead hop hhold := absurd (hmoves hop) hhold
  calling hcall := by
    rcases hcall with hcall | hcall
    · obtain ⟨hv, hs⟩ := h.calling hcall
      exact .inr ⟨hvalue.trans hv, hstarted.trans hs⟩
    · exact absurd hcall hop

/-- `release` and `release_expired_points`. -/
theorem Pending.released (h : Funded w) (hsees : w.sees o = true) (hop : op.moves = true)
    (hallowed : (releaseAllowed (o.loaded w.document)).isOk = true)
    (hfrozen : w.document.hold ≠ none → w.document.checkoutFrozen = true ∨ w.Dead) :
    Pending w ⟨op, released w.document, none⟩ := by
  obtain ⟨hstarted, hlive⟩ := of_releaseAllowed hallowed
  have hconfirm : op ≠ .confirmPointsBooking := by
    rintro rfl
    cases hop
  by_cases hhold : w.document.hold = none
  · exact .still h hconfirm (fun _ => hhold.symm) nofun nofun (valueOf_released hhold) rfl
  · have hdead : w.Dead := by
      rcases hfrozen hhold with hf | hdead
      · exact World.dead_of_any ((World.sees_any hsees).symm.trans (hlive hf))
      · exact hdead
    refine ⟨nofun, nofun, .inr (.inl ⟨hop, fun heq => hhold heq.symm⟩), fun _ _ => hdead, fun hcall => ?_⟩
    rcases hcall with hcall | hcall
    · exact absurd (h.calling hcall).2 (by simp [hstarted])
    · exact absurd hcall hconfirm

theorem Pending.createCheckout (h : Funded w) (hgross : o.gross = w.gross) {payable : Bool} {q : Option Attempt}
    (hn : w.createCheckout o payable = some (d', q)) : Pending w ⟨.createCheckout payable, d', q⟩ := by
  unfold World.createCheckout at hn
  split at hn
  · cases hn
  rename_i due hdue
  split_ifs at hn with hpayable
  have hsame : ((freeze o w.document).getD w.document).hold = w.document.hold ∧
      ((freeze o w.document).getD w.document).redemption = w.document.redemption ∧
      ((freeze o w.document).getD w.document).pointsConfirmationStarted = w.document.pointsConfirmationStarted := by
    cases hf : freeze o w.document with
    | none => exact ⟨rfl, rfl, rfl⟩
    | some frozen =>
      rw [freeze_eq hf]
      exact ⟨rfl, rfl, rfl⟩
  obtain ⟨hhold, hredemption, hstarted⟩ := hsame
  have hvalue : valueOf ((freeze o w.document).getD w.document) = valueOf w.document := valueOf_congr hhold hredemption
  have hnew : ∀ q, (∀ p, q = some p → 0 < p.amount ∧ p.points = valueOf w.document ∧
      p.amount + p.points.getD 0 = w.gross) →
      Pending w ⟨.createCheckout payable, (freeze o w.document).getD w.document, q⟩ := fun q hq =>
    .still h nofun nofun (hvalue ▸ hq) (fun held hheld => h.holder held (hhold ▸ hheld)) hvalue hstarted
  simp only at hn
  split at hn
  · split_ifs at hn
    cases hn
    exact hnew none nofun
  · cases hn
    refine hnew _ fun p hp => ?_
    cases hp
    exact ⟨not_le.1 fun hle => hpayable (.inr hle), rfl, hgross ▸ cashDue_sum hdue⟩

theorem next_pending (h : Funded w) (hsees : w.sees o = true) (hok : w.exposed (.begin o op) = false)
    {q : Option Attempt} (hn : w.next o op = some (d', q)) : Pending w ⟨op, d', q⟩ := by
  have hgross := World.sees_gross hsees
  have hmember := World.sees_member hsees
  -- a hold that is not frozen is released beside dead attempts only
  have hfrozen :
      (w.document.hold.isSome && !w.document.checkoutFrozen && w.attempts.any fun p => live p.status) = false →
      w.document.hold ≠ none → w.document.checkoutFrozen = true ∨ w.Dead := by
    intro hexposed hhold
    obtain ⟨held, hheld⟩ := Option.ne_none_iff_exists'.1 hhold
    by_cases hf : w.document.checkoutFrozen = true
    · exact .inl hf
    · exact .inr (World.dead_of_any (by simpa [hheld, hf] using hexposed))
  cases op with
  | hold request value =>
    obtain ⟨hd, rfl⟩ := of_map hn
    obtain ⟨hunpaid, hhold, hredemption, n, rfl⟩ := hold_eq hd
    have hdead : w.Dead := World.dead_of_any (by simpa [unpaid_eq, World.sees_any hsees] using hunpaid)
    refine ⟨nofun, ?_, .inr (.inl ⟨rfl, by simp [hhold]⟩), fun _ _ => hdead, fun hcall => ?_⟩
    · intro held hheld
      obtain rfl := Option.some.inj hheld
      exact hmember
    · rcases hcall with hcall | hcall
      · have hv := (h.calling hcall).1
        rw [valueOf_redemption hhold, hredemption] at hv
        cases hv
      · cases hcall
  | release =>
    obtain ⟨hd, rfl⟩ := of_map hn
    obtain ⟨hallowed, rfl⟩ := release_eq hd
    exact .released h hsees rfl hallowed (hfrozen hok)
  | releaseExpiredPoints expired =>
    obtain ⟨hd, rfl⟩ := of_map hn
    obtain ⟨hallowed, rfl⟩ := releaseExpiredPoints_eq hd
    exact .released h hsees rfl hallowed (hfrozen hok)
  | redeem row =>
    obtain ⟨hd, rfl⟩ := of_map hn
    obtain ⟨-, held, r, hheld, hr, rfl⟩ := redeem_eq hd
    refine .still h nofun nofun nofun nofun ?_ rfl
    rw [valueOf_redemption rfl, valueOf_hold hheld, ← hr]
    rfl
  | restorePoints value reference posted =>
    obtain ⟨hd, rfl⟩ := of_map hn
    rcases restored_eq (Option.filter_eq_some_iff.1 hd).1 with rfl | ⟨r, target, hr, -, rfl⟩
    · exact .still h nofun nofun nofun h.holder rfl rfl
    · exact .still h nofun nofun nofun h.holder (valueOf_restored hr rfl) rfl
  | createCheckout payable => exact .createCheckout h hgross hn
  | confirmPointsBooking =>
    obtain ⟨hd, rfl⟩ := of_map hn
    obtain ⟨hhold, hdue, rfl⟩ := confirmPointsBooking_eq hd
    obtain ⟨held, hheld⟩ := Option.ne_none_iff_exists'.1 hhold
    have hfull : valueOf w.document = some w.gross := by
      have hv := valueOf_hold hheld
      have := cashDue_value hdue hv
      rw [zero_add, hgross] at this
      exact this ▸ hv
    exact ⟨nofun, h.holder, .inl rfl, nofun, fun _ => .inr ⟨hfull, rfl⟩⟩
  | abandonConfirmation =>
    simp only [World.next] at hn
    split_ifs at hn with hcall
    obtain ⟨hd, rfl⟩ := of_map hn
    obtain rfl := Option.some.inj hd
    exact ⟨nofun, nofun, .inr (.inr ⟨rfl, by simp [hcall]⟩), nofun, fun _ => .inl rfl⟩

/-! ### Steps -/

theorem Pending.congr (h : Pending w t) (hgross : w'.gross = w.gross) (hmember : w'.member = w.member)
    (hdocument : w'.document = w.document) (hcall : w'.call ≠ none ↔ w.call ≠ none)
    (hdead : t.op.moves = true → t.document.hold ≠ w.document.hold → w.Dead → w'.Dead) : Pending w' t where
  attempt p hp := hgross ▸ h.attempt p hp
  holder held hheld := hmember ▸ h.holder held hheld
  value := by
    rcases h.value with hv | ⟨hop, hhold⟩ | ⟨hop, hc⟩
    · exact .inl (hdocument ▸ hv)
    · exact .inr (.inl ⟨hop, hdocument ▸ hhold⟩)
    · exact .inr (.inr ⟨hop, hcall.2 hc⟩)
  dead hop hhold := by
    rw [hdocument] at hhold
    exact hdead hop hhold (h.dead hop hhold)
  calling hc := by
    rw [hgross]
    exact h.calling (hc.imp_left hcall.1)

theorem World.of_outdated {c : Dec} (h : w.outdated c = false) (hc : c ∈ w.dues) :
    c + (valueOf w.document).getD 0 = w.gross := by
  by_contra hne
  simp [World.outdated, hc, hne] at h

/-- The attempts change; what was collected stays collected, and what comes to life is neither beside a moving hold nor
outdated. -/
theorem Funded.attempts (h : Funded w) (hw : w' = { w with attempts := w'.attempts })
    (hnew : ∀ p ∈ w'.attempts, (∃ q ∈ w.attempts, p.amount = q.amount ∧ p.points = q.points) ∨
      (0 < p.amount ∧ p.points = none))
    (hkept : ∀ p ∈ w.attempts, collected p.status = true →
      ∃ q ∈ w'.attempts, collected q.status = true ∧ q.amount = p.amount)
    (hlive : ∀ p ∈ w'.attempts, live p.status = true → (∃ q ∈ w.attempts, live q.status = true ∧ q.amount = p.amount) ∨
      (w.moving = false ∧ w.outdated p.amount = false)) : Funded w' := by
  rw [hw] at hnew hkept hlive ⊢
  refine ⟨fun p hp => ?_, fun p hp v hv => ?_, h.holder, h.calling, fun c hc p hp hl hpc => ?_, fun c hc => ?_,
    fun t ht => ?_, h.sent⟩
  · rcases hnew p hp with ⟨q, hq, ha, -⟩ | ⟨hpos, -⟩
    · exact ha ▸ h.positive q hq
    · exact hpos
  · rcases hnew p hp with ⟨q, hq, ha, hpoints⟩ | ⟨-, hnone⟩
    · exact ha ▸ h.computed q hq v (hpoints ▸ hv)
    · rw [hnone] at hv
      cases hv
  · rcases hlive p hp hl with ⟨q, hq, hql, ha⟩ | ⟨-, hout⟩
    · exact h.dues c hc q hq hql (ha.trans hpc)
    · exact World.of_outdated (hpc ▸ hout) hc
  · obtain ⟨⟨p, hp, hcol, rfl⟩, hsum⟩ := h.creates c hc
    exact ⟨hkept p hp hcol, hsum⟩
  · refine (h.tx t ht).congr rfl rfl rfl Iff.rfl fun hop hhold hd p hp => ?_
    have ht : w.tx = some t := ht
    have hmoving : w.moving = true := by simp [World.moving, ht, hop, hhold]
    by_contra hl
    rcases hlive p hp (eq_true_of_ne_false hl) with ⟨q, hq, hql, -⟩ | ⟨hstill, -⟩
    · simp [hd q hq] at hql
    · simp [hmoving] at hstill

/-- One attempt changes its status. -/
theorem Funded.setStatus (h : Funded w) (hi : w.attempts[i]? = some p)
    (hcol : collected p.status = true → collected s = true)
    (hlive : live s = true → live p.status = true ∨ (w.moving = false ∧ w.outdated p.amount = false)) :
    Funded (w.setStatus i p s) := by
  have hp : p ∈ w.attempts := List.mem_of_getElem? hi
  have hmem : ∀ q ∈ (w.setStatus i p s).attempts, q ∈ w.attempts ∨ q = { p with status := s } :=
    fun q hq => List.mem_or_eq_of_mem_set hq
  refine h.attempts rfl (fun q hq => .inl ?_) (fun q hq hc => ?_) fun q hq hl => ?_
  · rcases hmem q hq with hq | rfl
    · exact ⟨q, hq, rfl, rfl⟩
    · exact ⟨p, hp, rfl, rfl⟩
  · obtain ⟨j, hj⟩ := List.getElem?_of_mem hq
    by_cases hij : i = j
    · subst hij
      obtain rfl := Option.some.inj (hi.symm.trans hj)
      exact ⟨{ p with status := s }, List.mem_set (List.getElem?_eq_some_iff.1 hi).1 _, hcol hc, rfl⟩
    · refine ⟨q, List.mem_of_getElem? (i := j) ?_, hc, rfl⟩
      simp only [World.setStatus, List.getElem?_set_ne hij, hj]
  · rcases hmem q hq with hq | rfl
    · exact .inl ⟨q, hq, hl, rfl⟩
    · exact (hlive hl).imp_left fun hpl => ⟨p, hp, hpl, rfl⟩

theorem calls_cases {call : Option Stage} (h : op.calls call ≠ none) :
    op ≠ .abandonConfirmation ∧ (call ≠ none ∨ op = .confirmPointsBooking) := by
  cases op <;> simp_all [Op.calls]

/-- The points move under a commit only if no live payment is due with them. -/
theorem Funded.sum_committed (h : Funded w) (ht : w.tx = some t) (hp : p ∈ w.attempts) (hlive : live p.status = true)
    (hsum : p.amount + (valueOf w.document).getD 0 = w.gross) :
    p.amount + (valueOf t.document).getD 0 = w.gross := by
  have hpending := h.tx t ht
  rcases hpending.value with hv | ⟨hop, hhold⟩ | ⟨-, hcall⟩
  · exact hv ▸ hsum
  · simp [hpending.dead hop hhold p hp] at hlive
  · exact absurd hsum (h.not_due hcall hp)

theorem Funded.commit (h : Funded w) (ht : w.tx = some t) : Funded (w.committed t) := by
  have hpending := h.tx t ht
  have hcalling : t.op.calls w.call ≠ none → valueOf t.document = some w.gross ∧
      t.document.pointsConfirmationStarted = true := by
    intro hcall
    obtain ⟨hop, hc⟩ := calls_cases hcall
    exact (hpending.calling hc).resolve_left hop
  refine ⟨fun p hp => ?_, fun p hp v hv => ?_, hpending.holder, hcalling, fun c hc p hp hl hpc => ?_, fun c hc => ?_,
    fun t' ht' => ?_, h.sent⟩
  · rcases List.mem_append.1 hp with hp | hp
    · exact h.positive p hp
    · exact (hpending.attempt p (Option.mem_toList.1 hp)).1
  · rcases List.mem_append.1 hp with hp | hp
    · exact h.computed p hp v hv
    · have hsum := (hpending.attempt p (Option.mem_toList.1 hp)).2.2
      rwa [hv, Option.getD_some] at hsum
  · subst hpc
    rcases List.mem_append.1 hp with hp | hp
    · exact h.sum_committed ht hp hl (h.dues _ hc p hp hl rfl)
    · obtain ⟨-, hpoints, hsum⟩ := hpending.attempt p (Option.mem_toList.1 hp)
      rwa [hpoints] at hsum
  · obtain ⟨⟨p, hp, hcol, rfl⟩, hsum⟩ := h.creates c hc
    exact ⟨⟨p, List.mem_append_left _ hp, hcol, rfl⟩, h.sum_committed ht hp (live_of_collected hcol) hsum⟩
  · cases ht'

/-- Only what the calls have read, matched or sent changes. -/
theorem Funded.sends (h : Funded w) {dues creates : List Dec} {sent : List Sending}
    (hdues : ∀ c ∈ dues, ∀ p ∈ w.attempts, live p.status = true → p.amount = c →
      c + (valueOf w.document).getD 0 = w.gross)
    (hcreates : ∀ c ∈ creates, (∃ p ∈ w.attempts, collected p.status = true ∧ p.amount = c) ∧
      c + (valueOf w.document).getD 0 = w.gross)
    (hsent : ∀ x ∈ sent, x.cash + x.points = w.gross) :
    Funded { w with dues := dues, creates := creates, sent := sent } :=
  ⟨h.positive, h.computed, h.holder, h.calling, hdues, hcreates,
    fun t ht => (h.tx t ht).congr rfl rfl rfl Iff.rfl fun _ _ hd => hd, hsent⟩

/-- The call of a confirmation goes on. -/
theorem Funded.stage (h : Funded w) (hcall : w.call ≠ none) {stage : Stage} {sent : List Sending}
    (hsent : ∀ x ∈ sent, x.cash + x.points = w.gross) : Funded { w with call := some stage, sent := sent } :=
  ⟨h.positive, h.computed, h.holder, fun _ => h.calling hcall, h.dues, h.creates,
    fun t ht => (h.tx t ht).congr rfl rfl rfl ⟨fun _ => hcall, fun _ => nofun⟩ fun _ _ hd => hd, hsent⟩

theorem Funded.begin (h : Funded w) (hok : w.exposed (.begin o op) = false) : Funded (w.step (.begin o op)) := by
  simp only [World.step]
  split_ifs with hfree
  · exact h
  simp only [not_or, Bool.not_eq_false] at hfree
  split
  · exact h
  · rename_i d' q hn
    have hp := next_pending h hfree.2.2 hok hn
    refine ⟨h.positive, h.computed, h.holder, h.calling, h.dues, h.creates, fun t ht => ?_, h.sent⟩
    obtain rfl := Option.some.inj ht
    exact hp.congr rfl rfl rfl Iff.rfl fun _ _ hd => hd

theorem Funded.charge (h : Funded w) {amount : Dec} {currency : String} {session : Bool}
    (hok : w.exposed (.charge amount currency s session) = false) :
    Funded (w.step (.charge amount currency s session)) := by
  simp only [World.step]
  split_ifs with hpos
  · exact h
  simp only [World.exposed] at hok
  refine h.attempts rfl (fun p hp => ?_) (fun p hp hc => ⟨p, List.mem_append_left _ hp, hc, rfl⟩) fun p hp hl => ?_
  · rcases List.mem_append.1 hp with hp | hp
    · exact .inl ⟨p, hp, rfl, rfl⟩
    · obtain rfl := List.mem_singleton.1 hp
      exact .inr ⟨not_le.1 hpos, rfl⟩
  · rcases List.mem_append.1 hp with hp | hp
    · exact .inl ⟨p, hp, hl, rfl⟩
    · obtain rfl := List.mem_singleton.1 hp
      have hl : live s = true := hl
      exact .inr (by simpa [hl] using hok)

theorem Funded.report (h : Funded w) (hok : w.exposed (.report i s) = false) : Funded (w.step (.report i s)) := by
  simp only [World.step]
  split
  · rename_i p hp
    split_ifs with hs
    · exact h
    simp only [World.exposed, hp] at hok
    have hok : (!live p.status && live s && (w.moving || w.outdated p.amount) || collected p.status && !collected s) =
        false := by simpa [hs] using hok
    obtain ⟨hmove, hkeep⟩ := Bool.or_eq_false_iff.1 hok
    refine h.setStatus hp (fun hc => by simpa [hc] using hkeep) fun hl => ?_
    by_cases hpl : live p.status = true
    · exact .inl hpl
    · exact .inr (by simpa [hl, hpl] using hmove)
  · exact h

theorem Funded.refund (h : Funded w) : Funded (w.step (.refund i s)) := by
  simp only [World.step]
  split
  · rename_i p hp
    split_ifs with hs
    · have hc : collected p.status = true := by rcases hs.1 with hs | hs <;> rw [hs] <;> rfl
      exact h.setStatus hp (fun _ => by rcases hs.2 with hs | hs <;> rw [hs] <;> rfl) fun _ =>
        .inl (live_of_collected hc)
    · exact h
  · exact h

theorem Funded.due (h : Funded w) : Funded (w.step (.due o)) := by
  simp only [World.step]
  split_ifs with hsees
  · exact h
  split
  · rename_i due hdue
    have hsum := World.cashDue_add hdue
    rw [World.sees_gross (eq_true_of_ne_false hsees)] at hsum
    refine h.sends (fun c hc p hp hl hpc => ?_) h.creates h.sent
    rcases List.mem_append.1 hc with hc | hc
    · exact h.dues c hc p hp hl hpc
    · obtain rfl := List.mem_singleton.1 hc
      exact hsum
  · exact h

theorem Funded.check (h : Funded w) {k : ℕ} : Funded (w.step (.check k)) := by
  simp only [World.step]
  split
  · rename_i due hdue
    have hdues : ∀ c ∈ w.dues.eraseIdx k, ∀ p ∈ w.attempts, live p.status = true → p.amount = c →
        c + (valueOf w.document).getD 0 = w.gross := fun c hc => h.dues c (List.mem_of_mem_eraseIdx hc)
    split_ifs with hpaid
    · obtain ⟨p, hp, hmatch⟩ := List.any_eq_true.1 hpaid
      simp only [Bool.and_eq_true, beq_iff_eq] at hmatch
      have hcol : collected p.status = true := by rw [hmatch.1.1]; rfl
      refine h.sends hdues (fun c hc => ?_) h.sent
      rcases List.mem_append.1 hc with hc | hc
      · exact h.creates c hc
      · obtain rfl := List.mem_singleton.1 hc
        exact ⟨⟨p, hp, hcol, hmatch.1.2⟩,
          h.dues _ (List.mem_of_getElem? hdue) p hp (live_of_collected hcol) hmatch.1.2⟩
    · exact h.sends hdues h.creates h.sent
  · exact h

theorem Funded.send (h : Funded w) {k : ℕ} : Funded (w.step (.send k)) := by
  simp only [World.step]
  split
  · rename_i cash hcash
    refine h.sends h.dues (fun c hc => h.creates c (List.mem_of_mem_eraseIdx hc)) fun x hx => ?_
    rcases List.mem_append.1 hx with hx | hx
    · exact h.sent x hx
    · obtain rfl := List.mem_singleton.1 hx
      rw [h.ownPoints]
      exact (h.creates cash (List.mem_of_getElem? hcash)).2
  · exact h

theorem Funded.checkPoints (h : Funded w) : Funded (w.step (.checkPoints o)) := by
  simp only [World.step]
  split_ifs with hidle
  · exact h
  · simp only [not_or, not_not] at hidle
    exact h.stage (by simp [hidle.1]) h.sent
  · simp only [not_or, not_not] at hidle
    exact h.stage (by simp [hidle.1]) h.sent

theorem Funded.sendPoints (h : Funded w) {rejected : Bool} : Funded (w.step (.sendPoints rejected)) := by
  simp only [World.step]
  split_ifs with hcall
  · have hne : w.call ≠ none := by simp [hcall]
    refine h.stage hne fun x hx => ?_
    rcases List.mem_append.1 hx with hx | hx
    · exact h.sent x hx
    · obtain rfl := List.mem_singleton.1 hx
      rw [h.ownPoints, (h.calling hne).1]
      exact zero_add _
  · exact h

theorem Funded.step (h : Funded w) (a : Action) (hok : w.exposed a = false) : Funded (w.step a) := by
  cases a with
  | switch enabled =>
    exact ⟨h.positive, h.computed, h.holder, h.calling, h.dues, h.creates,
      fun t ht => (h.tx t ht).congr rfl rfl rfl Iff.rfl fun _ _ hd => hd, h.sent⟩
  | begin o op => exact h.begin hok
  | commit =>
    simp only [World.step]
    split
    · exact h
    · exact h.commit (by assumption)
  | abort =>
    refine ⟨h.positive, h.computed, h.holder, h.calling, h.dues, h.creates, fun t ht => ?_, h.sent⟩
    cases ht
  | charge amount currency status session => exact h.charge hok
  | report i status => exact h.report hok
  | refund i status => exact h.refund
  | due o => exact h.due
  | check k => exact h.check
  | drop k => exact h.sends h.dues (fun c hc => h.creates c (List.mem_of_mem_eraseIdx hc)) h.sent
  | send k => exact h.send
  | checkPoints o => exact h.checkPoints
  | dropPoints rejected =>
    simp only [World.step]
    split_ifs with hcall
    · exact h.stage (by simp [hcall]) h.sent
    · exact h
  | sendPoints rejected => exact h.sendPoints

/-! ### Runs -/

theorem World.step_gross (w : World) (a : Action) : (w.step a).gross = w.gross := by
  cases a <;> simp only [World.step] <;> repeat' split
  all_goals rfl

/-- Only a commit writes the document. -/
theorem World.step_document (w : World) (a : Action) :
    (w.step a).document = w.document ∨ ∃ t, w.tx = some t ∧ (w.step a).document = t.document := by
  cases a with
  | commit =>
    simp only [World.step]
    split
    · exact .inl rfl
    · exact .inr ⟨_, by assumption, rfl⟩
  | _ =>
    refine .inl ?_
    simp only [World.step]
    repeat' split
    all_goals rfl

theorem World.Fresh.funded (h : w.Fresh) : Funded w where
  positive p hp := by simp [h.attempts] at hp
  computed p hp := by simp [h.attempts] at hp
  holder held hheld := by simp [h.hold] at hheld
  calling hcall := absurd h.call hcall
  dues c hc := by simp [h.dues] at hc
  creates c hc := by simp [h.creates] at hc
  tx t ht := by simp [h.tx] at ht
  sent x hx := by simp [h.sent] at hx

/-- The points under a live checkout stay. -/
theorem Funded.keeps (h : Funded w) (a : Action) (hp : p ∈ w.attempts) (hlive : live p.status = true) {v : Dec}
    (hpoints : p.points = some v) (hv : valueOf w.document = some v) : valueOf (w.step a).document = some v := by
  rcases World.step_document w a with hdoc | ⟨t, ht, hdoc⟩
  · exact hdoc ▸ hv
  have hpending := h.tx t ht
  rw [hdoc]
  rcases hpending.value with hvalue | ⟨hop, hhold⟩ | ⟨-, hcall⟩
  · exact hvalue.trans hv
  · exact absurd hlive (by simp [hpending.dead hop hhold p hp])
  · -- a confirmation is fully paid with points, so that its points are not those of a checkout
    have hfull : v = w.gross := Option.some.inj (hv.symm.trans (h.calling hcall).1)
    have := h.computed p hp v hpoints
    have := h.positive p hp
    linarith

/-- In a run that is never exposed, what is sent is paid in full, and the points below a live checkout stay. -/
theorem sent_in_full (h : w.Fresh) (as : List Action) (a : Action)
    (hok : Meets World.step (fun w a => w.exposed a = false) w (as ++ [a])) :
    (∀ x ∈ (run World.step w (as ++ [a])).sent, x.cash + x.points = w.gross) ∧
      ∀ p ∈ (run World.step w as).attempts, live p.status = true → ∀ v, p.points = some v →
        valueOf (run World.step w as).document = some v →
          valueOf (run World.step w (as ++ [a])).document = some v := by
  have hrun : ∀ {bs : List Action}, Meets World.step (fun w a => w.exposed a = false) w bs →
      Funded (run World.step w bs) ∧ (run World.step w bs).gross = w.gross := fun hbs =>
    hbs.inv (I := fun v => Funded v ∧ v.gross = w.gross)
      (fun v a hv ha => ⟨hv.1.step a ha, (World.step_gross v a).trans hv.2⟩) ⟨h.funded, rfl⟩
  obtain ⟨hend, hgross⟩ := hrun hok
  obtain ⟨hmid, -⟩ := hrun (meets_append.1 hok).1
  refine ⟨fun x hx => hgross ▸ hend.sent x hx, fun p hp hlive v hpoints hv => ?_⟩
  rw [run_append]
  exact hmid.keeps a hp hlive hpoints hv

/-! ### A hold placed again -/

/-- What a command of the guest reads beside these attempts. -/
def seen (statuses : List PaymentStatus) : Outside where
  allowed := true
  booking := ⟨⟨"7d2e7c1a-1f60-4f0e-9a51-0d5d7c2f1f91", rfl⟩, some 1, .directWebsite, .awaitingPayment, 5, statuses,
    .empty⟩
  member := 1
  available := 500
  total := 1000
  gross := 1000
  cash := 0

def unpaidStay : World where
  gross := 1000
  member := 1
  enabled := true
  document := ⟨.empty, [], none, none⟩
  attempts := []
  tx := none
  call := none
  dues := []
  creates := []
  sent := []

/-- 300 points are held, and a checkout is opened for the rest. -/
def checkedOut : List Action :=
  [.begin (seen []) (.hold "hold-1" 300), .commit, .begin (seen []) (.createCheckout true), .commit]

/-- The payment succeeds and is matched; the guest cannot release the points before the stay is sent. -/
theorem sent_in_full_frozen :
    ((run World.step unpaidStay (checkedOut ++ [.report 0 .succeeded, .due (seen [.succeeded]), .check 0,
      .begin (seen [.succeeded]) .release, .commit] ++ [.send 0])).sent.all fun x => x.cash + x.points == 1000) = true := by
  refine List.all_eq_true.2 fun x hx => beq_iff_eq.2 ?_
  exact (sent_in_full (w := unpaidStay) ⟨rfl, rfl, rfl, rfl, rfl, rfl, rfl⟩ _ _ (by decide +kernel)).1 x hx

/-- The payment is reported as failed and the points are released and held again, without a freeze. The payment then
succeeds and is matched, and the guest releases the points before the stay is sent. -/
def releasedRun : List Action :=
  checkedOut ++ [.report 0 .failed, .begin (seen [.failed]) .release, .commit,
    .begin (seen [.failed]) (.hold "hold-2" 300), .commit, .report 0 .succeeded, .due (seen [.succeeded]), .check 0,
    .begin (seen [.succeeded]) .release, .commit, .send 0]

/-- The stay is sent for 700 of 1000. -/
theorem released_stay_sent :
    ⟨700, 0⟩ ∈ (run World.step unpaidStay releasedRun).sent ∧
      ¬∀ x ∈ (run World.step unpaidStay releasedRun).sent, x.cash + x.points = unpaidStay.gross := by
  have hsent : (run World.step unpaidStay releasedRun).sent = [⟨700, 0⟩] := by decide +kernel
  rw [hsent]
  exact ⟨List.mem_singleton_self _, by decide +kernel⟩

end Apartments.Funding
