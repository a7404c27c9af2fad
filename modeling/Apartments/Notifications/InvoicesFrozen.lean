import Apartments.Notifications.Invoices
import Mathlib.Data.List.Nodup

/-!
# What no step does to an invoice

A row of `GuestInvoice` is written only under its lock and only while it is a draft (`Keeps`), and a draft becomes
issued in two places only, each with the token of the snapshot that the row holds at that moment (`IssuedBy`).
-/

namespace Apartments.Invoices

variable {c : Tools} {w w' : World}

/-- The bookings that have an invoice. -/
def World.ids (w : World) : List ℕ := w.invoices.map Invoice.hostawayReservationId

/-- Every row stays, for its booking, and an issued one as it was; no booking gets a second one. -/
structure World.Keeps (w w' : World) : Prop where
  rows : ∀ {key : ℕ} {inv}, w.invoices[key]? = some inv → ∃ inv', w'.invoices[key]? = some inv' ∧
    inv'.hostawayReservationId = inv.hostawayReservationId ∧ (inv.issuedAt.isSome → inv' = inv)
  nodup : w.ids.Nodup → w'.ids.Nodup

namespace World.Keeps

theorem of_invoices (h : w'.invoices = w.invoices) : w.Keeps w' :=
  ⟨fun {_ inv} hinv => ⟨inv, h ▸ hinv, rfl, fun _ => rfl⟩, fun hids => by rwa [World.ids, h]⟩

theorem trans {u v : World} (h : w.Keeps u) (h' : u.Keeps v) : w.Keeps v := by
  refine ⟨fun {key inv} hinv => ?_, fun hids => h'.nodup (h.nodup hids)⟩
  obtain ⟨a, ha, hid, hissued⟩ := h.rows hinv
  obtain ⟨b, hb, hid', hissued'⟩ := h'.rows ha
  refine ⟨b, hb, hid'.trans hid, fun hi => ?_⟩
  obtain rfl := hissued hi
  exact hissued' hi

theorem write {key : ℕ} {inv inv' : Invoice} (hinv : w.invoices[key]? = some inv) (hdraft : inv.issuedAt.isSome = false)
    (hid : inv'.hostawayReservationId = inv.hostawayReservationId) : w.Keeps (w.writeInvoice key inv') := by
  obtain ⟨hlt, rfl⟩ := List.getElem?_eq_some_iff.1 hinv
  constructor
  · intro k a ha
    by_cases hk : key = k
    · subst hk
      obtain rfl := Option.some.inj (hinv.symm.trans ha)
      exact ⟨inv', by simp [World.writeInvoice, hlt], hid, fun hi => by simp [hdraft] at hi⟩
    · exact ⟨a, by rwa [World.writeInvoice, List.getElem?_set_ne hk], rfl, fun _ => rfl⟩
  · have hsame : (w.writeInvoice key inv').ids = w.ids := by
      rw [World.ids, World.ids, World.writeInvoice, List.map_set, hid, ← List.getElem_map Invoice.hostawayReservationId]
      · exact List.set_getElem_self _
      · simpa using hlt
    exact fun hids => hsame ▸ hids

theorem create {hostawayId : ℕ} {s : Snapshot} {language : String} (h : hostawayId ∉ w.ids) :
    w.Keeps { w with invoices := w.invoices ++ [.new hostawayId s language] } := by
  constructor
  · intro k a ha
    have hk := (List.getElem?_eq_some_iff.1 ha).1
    exact ⟨a, by rwa [List.getElem?_append_left hk], rfl, fun _ => rfl⟩
  · intro hids
    simpa [World.ids, Invoice.new] using List.Nodup.concat h hids

end World.Keeps

/-- Whatever is issued in `w'` was so in `w`. -/
def World.IssuesNothing (w w' : World) : Prop :=
  ∀ (key : ℕ) inv, w'.invoices[key]? = some inv → inv.issuedAt.isSome → w.invoices[key]? = some inv

namespace World.IssuesNothing

theorem of_invoices (h : w'.invoices = w.invoices) : w.IssuesNothing w' := fun _ _ hinv _ => h ▸ hinv

/-- A write at `key` issues nothing elsewhere. -/
theorem of_set {key k : ℕ} {inv inv' : Invoice} (h : (w.writeInvoice key inv').invoices[k]? = some inv) :
    w.invoices[k]? = some inv ∨ k = key ∧ inv = inv' := by
  by_cases hk : key = k
  · subst hk
    rw [World.writeInvoice, List.getElem?_set_self'] at h
    obtain ⟨_, _, rfl⟩ := Option.map_eq_some_iff.1 h
    exact .inr ⟨rfl, rfl⟩
  · rw [World.writeInvoice, List.getElem?_set_ne hk] at h
    exact .inl h

end World.IssuesNothing

/-- The row of `getOrCreate`: the one that is there, or a new draft. -/
theorem getOrCreate_cases (w : World) (hostawayId : ℕ) (s : Snapshot) (language : String) :
    (∃ key inv, w.getOrCreate hostawayId s language = (w, key) ∧ w.invoices[key]? = some inv ∧
      inv.hostawayReservationId = hostawayId) ∨
    hostawayId ∉ w.ids ∧ w.getOrCreate hostawayId s language =
      ({ w with invoices := w.invoices ++ [.new hostawayId s language] }, w.invoices.length) := by
  unfold World.getOrCreate
  cases hfind : w.invoiceOf hostawayId with
  | some key =>
    obtain ⟨hlt, hid, _⟩ := List.findIdx?_eq_some_iff_getElem.1 hfind
    exact .inl ⟨key, w.invoices[key], rfl, List.getElem?_eq_getElem hlt, by simpa using hid⟩
  | none =>
    refine .inr ⟨fun hmem => ?_, rfl⟩
    obtain ⟨inv, hinv, hid⟩ := List.mem_map.1 hmem
    have hne := List.findIdx?_eq_none_iff.1 hfind inv hinv
    simp [hid] at hne

theorem getOrCreate_spec {hostawayId key : ℕ} {s : Snapshot} {language : String} {u : World}
    (h : w.getOrCreate hostawayId s language = (u, key)) :
    w.Keeps u ∧ w.IssuesNothing u ∧ (∃ inv, u.invoices[key]? = some inv ∧ inv.hostawayReservationId = hostawayId) ∧
      ∃ rows, u = { w with invoices := rows } := by
  obtain ⟨key', inv, heq, hinv, hid⟩ | ⟨hfree, heq⟩ := getOrCreate_cases w hostawayId s language
  · obtain ⟨rfl, rfl⟩ := Prod.mk.inj (heq.symm.trans h)
    exact ⟨.of_invoices rfl, .of_invoices rfl, ⟨inv, hinv, hid⟩, w.invoices, rfl⟩
  · obtain ⟨rfl, rfl⟩ := Prod.mk.inj (heq.symm.trans h)
    refine ⟨.create hfree, fun k inv hinv hissued => ?_, ⟨.new hostawayId s language, by simp, rfl⟩, _, rfl⟩
    rcases Nat.lt_or_ge k w.invoices.length with hk | hk
    · rwa [List.getElem?_append_left hk] at hinv
    · rw [List.getElem?_append_right hk] at hinv
      obtain rfl := List.mem_singleton.1 (List.mem_of_getElem? hinv)
      cases hissued

/-- What `prepare` does to the row of its booking: it is written while it is a draft. -/
theorem prepare_cases (w : World) (hostawayId : ℕ) (s : Snapshot) :
    ∃ u key inv, w.getOrCreate hostawayId s s.language = (u, key) ∧ u.invoices[key]? = some inv ∧
      (w.prepare hostawayId s = u ∨
        inv.issuedAt.isSome = false ∧
          w.prepare hostawayId s = u.writeInvoice key { inv with snapshot := s, language := s.language }) := by
  obtain ⟨⟨u, key⟩, hu⟩ : ∃ p, w.getOrCreate hostawayId s s.language = p := ⟨_, rfl⟩
  obtain ⟨-, -, ⟨inv, hinv, -⟩, -⟩ := getOrCreate_spec hu
  refine ⟨u, key, inv, hu, hinv, ?_⟩
  simp only [World.prepare, hu, hinv]
  split_ifs with hissued
  · exact .inl rfl
  · exact .inr ⟨by simpa using hissued, rfl⟩

/-- What `issue` does if it does not raise: a draft whose token was reviewed becomes an issued row. -/
theorem issue_cases {key year : ℕ} {r : Reviewed} (h : w.issue c key r year = some w') :
    w' = w ∨ ∃ draft inv, w.invoices[key]? = some draft ∧ draft.issuedAt.isSome = false ∧
      r.snapshotToken = c.token key draft.snapshot ∧ draft.issue c key r year w.now = some inv ∧
      w' = w.writeInvoice key inv := by
  unfold World.issue at h
  split at h
  · cases h
  rename_i draft hdraft
  split_ifs at h with hissued htoken
  · exact .inl (Option.some.inj h).symm
  · obtain ⟨inv, hinv, rfl⟩ := Option.map_eq_some_iff.1 h
    exact .inr ⟨draft, inv, hdraft, by simpa using hissued, not_not.1 htoken, hinv, rfl⟩

/-- What the transaction of `queue_invoice_delivery` does: nothing, a new delivery, or a failed one once more. -/
inductive Queued (w w' : World) (key : ℕ) (channel : UltraMsg.Channel) (recipient : String) (retryFailed : Bool) : Prop
  | same (eq : w' = w)
  | new (presentation : Option ℕ) (free : w.deliveryOf key channel recipient = none)
      (deliveries : w'.deliveries = w.deliveries ++ [⟨key, channel, recipient, presentation, .queued, 0⟩])
      (workers : w'.workers = w.workers) (log : w'.log = w.log)
  | again (k : ℕ) (d : Delivery) (presentation : Option ℕ) (retry : retryFailed = true)
      (found : w.deliveryOf key channel recipient = some k) (delivery : w.deliveries[k]? = some d) (failed : d.status = .failed)
      (deliveries : w'.deliveries = w.deliveries.set k { d with status := .queued, presentation := presentation })
      (workers : w'.workers = w.workers) (log : w'.log = w.log ++ [.requested k])

theorem queueDelivery_cases {key : ℕ} {channel : UltraMsg.Channel} {recipient : String} {retryFailed : Bool}
    (h : w.queueDelivery key channel recipient retryFailed = some w') :
    w'.invoices = w.invoices ∧ Queued w w' key channel recipient retryFailed := by
  unfold World.queueDelivery at h
  split at h
  · cases h
  split_ifs at h
  split at h
  · rename_i hfree
    obtain rfl := Option.some.inj h
    exact ⟨rfl, .new _ hfree rfl rfl rfl⟩
  · rename_i k hfound
    split at h
    · cases h
    rename_i d hd
    split_ifs at h with hretry
    · obtain rfl := Option.some.inj h
      exact ⟨rfl, .again k d _ hretry.2 hfound hd hretry.1 rfl rfl rfl⟩
    · obtain rfl := Option.some.inj h
      exact ⟨rfl, .same rfl⟩

/-- What no request breaks holds after all the requests of the assistant, which touch no invoice. -/
theorem foldlM_queueDelivery {P : World → Prop} {key : ℕ} {forms : List (UltraMsg.Channel × String)}
    (hP : ∀ u v channel recipient, P u → Queued u v key channel recipient false → P v) (h0 : P w)
    (h : forms.foldlM (fun u form => u.queueDelivery key form.1 form.2 false) w = some w') :
    P w' ∧ w'.invoices = w.invoices := by
  induction forms generalizing w with
  | nil =>
    obtain rfl := Option.some.inj h
    exact ⟨h0, rfl⟩
  | cons form forms ih =>
    rw [List.foldlM_cons] at h
    obtain ⟨u, hu, hrest⟩ := Option.bind_eq_some_iff.1 h
    obtain ⟨hinvoices, hqueued⟩ := queueDelivery_cases hu
    obtain ⟨hw', hsame⟩ := ih (hP w u form.1 form.2 h0 hqueued) hrest
    exact ⟨hw', hsame.trans hinvoices⟩

/-- What the assistant's request does: the invoice is there and issued, and then its deliveries are queued. -/
theorem sendRequest_cases {hostawayId year : ℕ} {checked : Snapshot} {review : Reviewed}
    {forms : List (UltraMsg.Channel × String)} (h : w.sendRequest c hostawayId checked review forms year = some w') :
    ∃ u key inv v, w.getOrCreate hostawayId checked review.language = (u, key) ∧ u.invoices[key]? = some inv ∧
      forms.foldlM (fun u form => u.queueDelivery key form.1 form.2 false) v = some w' ∧
      (v = u ∨ inv.issuedAt.isSome = false ∧ ∃ inv',
        ({ inv with snapshot := checked } : Invoice).issue c key { review with snapshotToken := c.token key checked }
          year u.now = some inv' ∧ v = u.writeInvoice key inv') := by
  obtain ⟨⟨u, key⟩, hu⟩ : ∃ p, w.getOrCreate hostawayId checked review.language = p := ⟨_, rfl⟩
  obtain ⟨-, -, ⟨inv, hinv, -⟩, -⟩ := getOrCreate_spec hu
  simp only [World.sendRequest, hu, hinv] at h
  obtain ⟨v, hv, hfold⟩ := Option.bind_eq_some_iff.1 h
  refine ⟨u, key, inv, v, hu, hinv, hfold, ?_⟩
  split_ifs at hv with hissued hagrees
  · exact .inl (Option.some.inj hv).symm
  · have hlt := (List.getElem?_eq_some_iff.1 hinv).1
    have hdraft : inv.issuedAt.isSome = false := by simpa using hissued
    have hget : (u.writeInvoice key { inv with snapshot := checked }).invoices[key]? =
        some { inv with snapshot := checked } := by
      simp [World.writeInvoice, hlt]
    simp only [World.issue, hget, hdraft, Bool.false_eq_true, if_false, ne_eq, not_true_eq_false] at hv
    obtain ⟨inv', hinv', rfl⟩ := Option.map_eq_some_iff.1 hv
    exact .inr ⟨hdraft, inv', hinv', by simp [World.writeInvoice]⟩

/-! ### Every step -/

theorem Invoice.issue_booking {inv issued : Invoice} {key year : ℕ} {r : Reviewed} {now : Time}
    (h : inv.issue c key r year now = some issued) : issued.hostawayReservationId = inv.hostawayReservationId := by
  obtain ⟨pdf, _, rfl⟩ := Option.map_eq_some_iff.1 h
  rfl

/-- What a dispatcher or a worker does to the deliveries. -/
inductive Advance (w w' : World) : Prop
  | aside (deliveries : w'.deliveries = w.deliveries) (workers : w'.workers = w.workers) (log : w'.log = w.log)
  /-- The broker may have the task, or not. -/
  | doubt (key : ℕ) (d : Delivery) (dispatching : List ℕ) (row : w.deliveries[key]? = some d)
      (queued : d.status = .queued)
      (eq : w' = ({ w with dispatching := dispatching } : World).writeDelivery key { d with status := .review })
  | claim (i key : ℕ) (d : Delivery) (row : w.deliveries[key]? = some d) (queued : d.status = .queued)
      (eq : w' = (w.writeDelivery key { d with status := .sending, attemptCount := d.attemptCount + 1 }).setWorker i
        (some ⟨key, .claimed⟩))
  | call (i : ℕ) (x : Worker) (q : UltraMsg.Invoice) (worker : w.workers i = some x) (claimed : x.stage = .claimed)
      (eq : w' = (w.record (.called x.key)).setWorker i (some { x with stage := .calling q }))
  /-- It ends without a call. -/
  | skip (i : ℕ) (x : Worker) (status : DeliveryStatus) (worker : w.workers i = some x) (claimed : x.stage = .claimed)
      (eq : w' = w.setWorker i (some { x with stage := .ended status }))
  | answer (i : ℕ) (x : Worker) (q : UltraMsg.Invoice) (status : DeliveryStatus) (worker : w.workers i = some x)
      (calling : x.stage = .calling q) (ne_queued : status ≠ .queued) (eq : w' = w.finishCall i x status)
  | close (i : ℕ) (x : Worker) (d : Delivery) (status : DeliveryStatus) (worker : w.workers i = some x)
      (ended : x.stage = .ended status) (row : w.deliveries[x.key]? = some d)
      (eq : w' = (w.writeDelivery x.key { d with status := status }).setWorker i none)
  | leave (i : ℕ) (eq : w' = w.setWorker i none)

theorem Advance.same (h : w' = w) : Advance w w' := .aside (h ▸ rfl) (h ▸ rfl) (h ▸ rfl)

theorem DeliveryStatus.ofState_ne_queued (state : UltraMsg.State) : DeliveryStatus.ofState state ≠ .queued := by
  cases state <;> decide

theorem refresh_advance (w : World) (key : ℕ) (designVersion : String) :
    (w.refresh c key designVersion).invoices = w.invoices ∧ Advance w (w.refresh c key designVersion) := by
  unfold World.refresh
  split
  · exact ⟨rfl, .same rfl⟩
  · split_ifs
    · exact ⟨rfl, .same rfl⟩
    · split <;> exact ⟨rfl, .aside rfl rfl rfl⟩

theorem dispatch_advance (w : World) (key : ℕ) (acknowledged : Bool) :
    (w.dispatch key acknowledged).invoices = w.invoices ∧ Advance w (w.dispatch key acknowledged) := by
  unfold World.dispatch
  dsimp only
  split_ifs
  · exact ⟨rfl, .aside rfl rfl rfl⟩
  · split
    · rename_i d hd
      split_ifs with hqueued
      · exact ⟨rfl, .doubt key d (w.dispatching.erase key) hd hqueued rfl⟩
      · exact ⟨rfl, .aside rfl rfl rfl⟩
    · exact ⟨rfl, .aside rfl rfl rfl⟩
  · exact ⟨rfl, .same rfl⟩

theorem deliver_advance (w : World) (i key : ℕ) :
    (w.deliver i key).invoices = w.invoices ∧ Advance w (w.deliver i key) := by
  unfold World.deliver
  split
  · rename_i d _ hd
    split_ifs with hqueued
    · exact ⟨rfl, .same rfl⟩
    · exact ⟨rfl, .claim i key d hd (not_not.1 hqueued) rfl⟩
  · exact ⟨rfl, .same rfl⟩

theorem call_advance {i : ℕ} {x : Worker} {built : Bool} (hx : w.workers i = some x) (hclaimed : x.stage = .claimed) :
    (w.call i x built).invoices = w.invoices ∧ Advance w (w.call i x built) := by
  unfold World.call
  split
  · exact ⟨rfl, .same rfl⟩
  · dsimp only
    split_ifs
    · exact ⟨rfl, .call i x _ hx hclaimed rfl⟩
    · exact ⟨rfl, .skip i x _ hx hclaimed rfl⟩

theorem finish_advance {i : ℕ} {x : Worker} {status : DeliveryStatus} (hx : w.workers i = some x)
    (hended : x.stage = .ended status) :
    (w.finish i x status).invoices = w.invoices ∧ Advance w (w.finish i x status) := by
  unfold World.finish
  split
  · rename_i d hd
    split_ifs
    · exact ⟨rfl, .close i x d status hx hended hd rfl⟩
    · exact ⟨rfl, .leave i rfl⟩
  · exact ⟨rfl, .leave i rfl⟩

/-- The steps that write an invoice, those that queue a delivery, and the others. -/
theorem step_cases (w : World) (a : Action) :
    (∃ hostawayId s, a = .prepare hostawayId s) ∨ (∃ key r year, a = .issue key r year) ∨
      (∃ hostawayId checked review forms year, a = .send hostawayId checked review forms year) ∨
      (step c w a).invoices = w.invoices ∧
        (Advance w (step c w a) ∨
          ∃ key channel recipient, a = .queue key channel recipient ∧ Queued w (step c w a) key channel recipient true) := by
  cases a with
  | prepare hostawayId s => exact .inl ⟨hostawayId, s, rfl⟩
  | issue key r year => exact .inr (.inl ⟨key, r, year, rfl⟩)
  | send hostawayId checked review forms year =>
    exact .inr (.inr (.inl ⟨hostawayId, checked, review, forms, year, rfl⟩))
  | queue key channel recipient =>
    refine .inr (.inr (.inr ?_))
    simp only [step]
    cases hq : w.queueDelivery key channel recipient true with
    | none => exact ⟨rfl, .inl (.same rfl)⟩
    | some v =>
      obtain ⟨hinvoices, hqueued⟩ := queueDelivery_cases hq
      exact ⟨hinvoices, .inr ⟨key, channel, recipient, rfl, hqueued⟩⟩
  | wait | configure => exact .inr (.inr (.inr ⟨rfl, .inl (.aside rfl rfl rfl)⟩))
  | crash i => exact .inr (.inr (.inr ⟨rfl, .inl (.leave i rfl)⟩))
  | refresh key designVersion => exact .inr (.inr (.inr ((refresh_advance w key designVersion).imp_right .inl)))
  | dispatch key acknowledged => exact .inr (.inr (.inr ((dispatch_advance w key acknowledged).imp_right .inl)))
  | deliver i key => exact .inr (.inr (.inr ((deliver_advance w i key).imp_right .inl)))
  | call i built =>
    refine .inr (.inr (.inr (And.imp_right .inl ?_)))
    simp only [step]
    split
    · split_ifs with hclaimed
      · exact call_advance ‹_› hclaimed
      · exact ⟨rfl, .same rfl⟩
    · exact ⟨rfl, .same rfl⟩
  | answer i answer mailed =>
    refine .inr (.inr (.inr (And.imp_right .inl ?_)))
    simp only [step]
    split
    · split
      · exact ⟨rfl, .answer i _ _ _ ‹_› ‹_› (DeliveryStatus.ofState_ne_queued _) rfl⟩
      · exact ⟨rfl, .same rfl⟩
      · exact ⟨rfl, .same rfl⟩
    · exact ⟨rfl, .same rfl⟩
  | interrupt i =>
    refine .inr (.inr (.inr (And.imp_right .inl ?_)))
    simp only [step]
    split
    · split
      · exact ⟨rfl, .skip i _ _ ‹_› ‹_› rfl⟩
      · exact ⟨rfl, .answer i _ _ _ ‹_› ‹_› (by decide) rfl⟩
      · exact ⟨rfl, .same rfl⟩
    · exact ⟨rfl, .same rfl⟩
  | finish i =>
    refine .inr (.inr (.inr (And.imp_right .inl ?_)))
    simp only [step]
    split
    · split
      · exact finish_advance ‹_› ‹_›
      · exact ⟨rfl, .same rfl⟩
      · exact ⟨rfl, .same rfl⟩
    · exact ⟨rfl, .same rfl⟩

theorem step_keeps (w : World) (a : Action) : w.Keeps (step c w a) := by
  obtain ⟨hostawayId, s, rfl⟩ | ⟨key, r, year, rfl⟩ | ⟨hostawayId, checked, review, forms, year, rfl⟩ | hsame :=
    step_cases (c := c) w a
  · obtain ⟨u, key, inv, hu, hinv, heq | ⟨hdraft, heq⟩⟩ := prepare_cases w hostawayId s
    · exact (congrArg w.Keeps heq).mpr (getOrCreate_spec hu).1
    · exact (congrArg w.Keeps heq).mpr ((getOrCreate_spec hu).1.trans (.write hinv hdraft rfl))
  · simp only [step]
    cases h : w.issue c key r year with
    | none => exact .of_invoices rfl
    | some v =>
      obtain rfl | ⟨draft, inv, hdraft, hfree, -, hissue, rfl⟩ := issue_cases h
      · exact .of_invoices rfl
      · exact .write hdraft hfree (Invoice.issue_booking hissue)
  · simp only [step]
    cases h : w.sendRequest c hostawayId checked review forms year with
    | none => exact .of_invoices rfl
    | some w' =>
      obtain ⟨u, key, inv, v, hu, hinv, hfold, hv⟩ := sendRequest_cases h
      have hrest : v.Keeps w' := .of_invoices (foldlM_queueDelivery (P := fun _ => True) (by simp) trivial hfold).2
      refine ((getOrCreate_spec hu).1.trans ?_).trans hrest
      obtain rfl | ⟨hdraft, inv', hissue, rfl⟩ := hv
      · exact .of_invoices rfl
      · have hid := Invoice.issue_booking hissue
        exact .write hinv hdraft hid
  · exact .of_invoices hsame.1

theorem keeps_run (c : Tools) (w : World) (as : List Action) : w.Keeps (Machine.run (step c) w as) :=
  Machine.run_inv (I := fun v => w.Keeps v) (fun v a h => h.trans (step_keeps v a)) (.of_invoices rfl) as

theorem nodup_after (c : Tools) (as : List Action) : (after c as).ids.Nodup :=
  (keeps_run c initial as).nodup List.nodup_nil

theorem row_unique {j k : ℕ} {inv inv' : Invoice} (h : w.ids.Nodup) (hj : w.invoices[j]? = some inv)
    (hk : w.invoices[k]? = some inv') (hid : inv.hostawayReservationId = inv'.hostawayReservationId) : j = k := by
  have hlt := (List.getElem?_eq_some_iff.1 hj).1
  refine (List.getElem?_inj (by simpa [World.ids] using hlt) h).1 ?_
  simp [World.ids, hj, hk, hid]

/-- The step leaves an invoice for the booking: a preparation, or a request that is not refused. -/
def World.Opens (c : Tools) (w : World) (hostawayId : ℕ) : Action → Prop
  | .prepare id _ => id = hostawayId
  | .send id checked review forms year => id = hostawayId ∧ (w.sendRequest c id checked review forms year).isSome
  | _ => False

/-- An invoice that a step opens is there. -/
theorem World.Opens.row {hostawayId : ℕ} {a : Action} (h : w.Opens c hostawayId a) :
    ∃ (key : ℕ) (inv : Invoice), (step c w a).invoices[key]? = some inv ∧ inv.hostawayReservationId = hostawayId := by
  have hcreated : ∀ {s language u key}, w.getOrCreate hostawayId s language = (u, key) → u.Keeps (step c w a) →
      ∃ (key : ℕ) (inv : Invoice), (step c w a).invoices[key]? = some inv ∧
        inv.hostawayReservationId = hostawayId := by
    intro s language u key hu hkeeps
    obtain ⟨-, -, ⟨inv, hinv, hid⟩, -⟩ := getOrCreate_spec hu
    obtain ⟨inv', hinv', hid', -⟩ := hkeeps.rows hinv
    exact ⟨key, inv', hinv', hid'.trans hid⟩
  cases a with
  | prepare id s =>
    obtain rfl : id = hostawayId := h
    obtain ⟨u, key, inv, hu, hinv, heq | ⟨hdraft, heq⟩⟩ := prepare_cases w id s
    · exact hcreated hu ((congrArg u.Keeps heq).mpr (.of_invoices rfl))
    · exact hcreated hu ((congrArg u.Keeps heq).mpr (.write hinv hdraft rfl))
  | send id checked review forms year =>
    obtain ⟨rfl, hsome⟩ := h
    obtain ⟨w', hw'⟩ := Option.isSome_iff_exists.1 hsome
    obtain ⟨u, key, inv, v, hu, hinv, hfold, hv⟩ := sendRequest_cases hw'
    have hstep : step c w (.send id checked review forms year) = w' := by simp [step, hw']
    have hrest : v.Keeps w' := .of_invoices (foldlM_queueDelivery (P := fun _ => True) (by simp) trivial hfold).2
    refine hcreated hu (hstep ▸ .trans ?_ hrest)
    obtain rfl | ⟨hdraft, inv', hissue, rfl⟩ := hv
    · exact .of_invoices rfl
    · have hid := Invoice.issue_booking hissue
      exact .write hinv hdraft hid
  | wait | configure | issue | refresh | queue | dispatch | deliver | call | answer | interrupt | finish | crash =>
    exact h.elim

/-- The two places where an invoice is issued, with the token of the snapshot that its row holds. -/
inductive IssuedBy (c : Tools) (w : World) (key : ℕ) (inv : Invoice) : Action → Prop
  | issue (draft : Invoice) (r : Reviewed) (year : ℕ) (row : w.invoices[key]? = some draft)
      (unissued : draft.issuedAt = none) (token : r.snapshotToken = c.token key draft.snapshot)
      (eq : draft.issue c key r year w.now = some inv) : IssuedBy c w key inv (.issue key r year)
  | send (draft : Invoice) (hostawayId : ℕ) (checked : Snapshot) (review : Reviewed)
      (forms : List (UltraMsg.Channel × String)) (year : ℕ) (booking : draft.hostawayReservationId = hostawayId)
      (unissued : draft.issuedAt = none) (reviewed : draft.snapshot = checked)
      (eq : draft.issue c key { review with snapshotToken := c.token key checked } year w.now = some inv) :
      IssuedBy c w key inv (.send hostawayId checked review forms year)

theorem step_issues {a : Action} {key : ℕ} {inv : Invoice} (hinv : (step c w a).invoices[key]? = some inv)
    (hissued : inv.issuedAt.isSome) : w.invoices[key]? = some inv ∨ IssuedBy c w key inv a := by
  obtain ⟨hostawayId, s, rfl⟩ | ⟨k, r, year, rfl⟩ | ⟨hostawayId, checked, review, forms, year, rfl⟩ | hsame :=
    step_cases (c := c) w a
  · obtain ⟨u, k, draft, hu, -, heq | ⟨hdraft, heq⟩⟩ := prepare_cases w hostawayId s
    · simp only [step, heq] at hinv
      exact .inl ((getOrCreate_spec hu).2.1 key inv hinv hissued)
    · simp only [step, heq] at hinv
      obtain hold | ⟨rfl, rfl⟩ := World.IssuesNothing.of_set hinv
      · exact .inl ((getOrCreate_spec hu).2.1 key inv hold hissued)
      · simp [hdraft] at hissued
  · simp only [step] at hinv
    cases h : w.issue c k r year with
    | none => exact .inl (by simpa [h] using hinv)
    | some v =>
      simp only [h, Option.getD_some] at hinv
      obtain rfl | ⟨draft, inv', hdraft, hfree, htoken, hissue, rfl⟩ := issue_cases h
      · exact .inl hinv
      · obtain hold | ⟨rfl, rfl⟩ := World.IssuesNothing.of_set hinv
        · exact .inl hold
        · exact .inr (.issue draft r year hdraft (by simpa using hfree) htoken hissue)
  · simp only [step] at hinv
    cases h : w.sendRequest c hostawayId checked review forms year with
    | none => exact .inl (by simpa [h] using hinv)
    | some w' =>
      simp only [h, Option.getD_some] at hinv
      obtain ⟨u, k, draft, v, hu, hdraft, hfold, hv⟩ := sendRequest_cases h
      obtain ⟨-, hnothing, ⟨draft', hrow, hid⟩, rows, rfl⟩ := getOrCreate_spec hu
      obtain rfl := Option.some.inj (hdraft.symm.trans hrow)
      rw [(foldlM_queueDelivery (P := fun _ => True) (by simp) trivial hfold).2] at hinv
      obtain rfl | ⟨hfree, inv', hissue, rfl⟩ := hv
      · exact .inl (hnothing key inv hinv hissued)
      · obtain hold | ⟨rfl, rfl⟩ := World.IssuesNothing.of_set hinv
        · exact .inl (hnothing key inv hold hissued)
        · exact .inr (.send { draft with snapshot := checked } hostawayId checked review forms year hid
            (by simpa using hfree) rfl hissue)
  · exact .inl (hsame.1 ▸ hinv)

end Apartments.Invoices
