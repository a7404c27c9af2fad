import Apartments.Notifications.InvoicesFrozen

/-!
# An issued invoice is frozen, and a delivery is not repeated

What a delivery may see of the provider is a small machine (`Phase`): a call is made when the delivery is ready for one,
an end other than a refusal is final, and after a refusal only a click of the owner makes it ready again. The log of
every run is a run of that machine for each delivery (`Sound`), from which its order is read off.
-/

namespace Apartments.Invoices

variable {c : Tools} {w w' : World}

/-! ### The calls of one delivery -/

inductive Phase
  | ready | calling | refused | over
deriving DecidableEq, Repr

/-- What an event does to the delivery `k`; `none` is an event that must not be. -/
def Phase.next (k : ℕ) (p : Phase) : Event → Option Phase
  | .called key => if key ≠ k then some p else if p = .ready then some .calling else none
  | .ended key status =>
    if key ≠ k then some p
    else if p = .calling then some (if status = .failed then .refused else .over) else none
  | .requested key => if key ≠ k then some p else if p = .ready ∨ p = .refused then some .ready else none

/-- Where the events of a log lead, from a phase of the delivery `k`. -/
def Phase.run (k : ℕ) : Phase → List Event → Option Phase
  | p, [] => some p
  | p, e :: l => (p.next k e).bind fun q => run k q l

def phase (k : ℕ) (log : List Event) : Option Phase := Phase.run k .ready log

namespace Phase

variable {k : ℕ} {p q : Phase} {e : Event} {l l' : List Event}

theorem run_append : run k p (l ++ l') = (run k p l).bind fun q => run k q l' := by
  induction l generalizing p with
  | nil => rfl
  | cons e l ih =>
    simp only [List.cons_append, run, Option.bind_assoc]
    exact congrArg _ (funext fun q => ih)

/-- What is over stays over. -/
theorem run_over (h : run k .over l = some q) : q = .over := by
  induction l with
  | nil => exact (Option.some.inj h).symm
  | cons e l ih =>
    obtain ⟨p, hp, hrun⟩ := Option.bind_eq_some_iff.1 h
    have hover : p = .over := by
      cases e <;> simp only [next] at hp <;> split_ifs at hp <;> simp_all
    exact ih (hover ▸ hrun)

/-- After a refusal the owner makes the delivery ready again. -/
theorem run_refused (h : run k .refused l = some .ready) : ∃ m n, l = m ++ .requested k :: n := by
  induction l with
  | nil => cases h
  | cons e l ih =>
    obtain ⟨p, hp, hrun⟩ := Option.bind_eq_some_iff.1 h
    by_cases he : e = .requested k
    · exact ⟨[], l, by rw [he]; rfl⟩
    · have hsame : p = .refused := by
        cases e <;> simp only [next] at hp <;> split_ifs at hp <;> simp_all
      obtain ⟨m, n, rfl⟩ := ih (hsame ▸ hrun)
      exact ⟨e :: m, n, rfl⟩

/-- A call ends, and is asked for again, before the delivery is ready for the next one. -/
theorem run_calling (h : run k .calling l = some .ready) :
    ∃ m s n n', l = m ++ .ended k s :: (n ++ .requested k :: n') := by
  induction l with
  | nil => cases h
  | cons e l ih =>
    obtain ⟨p, hp, hrun⟩ := Option.bind_eq_some_iff.1 h
    by_cases he : ∃ s, e = .ended k s
    · obtain ⟨s, rfl⟩ := he
      by_cases hs : s = .failed
      · have hrefused : p = .refused := by simpa [next, hs, eq_comm] using hp
        obtain ⟨n, n', rfl⟩ := run_refused (hrefused ▸ hrun)
        exact ⟨[], s, n, n', rfl⟩
      · have hover : p = .over := by simpa [next, hs, eq_comm] using hp
        exact absurd (run_over (hover ▸ hrun)) (by decide)
    · have hsame : p = .calling := by
        cases e <;> simp only [next] at hp <;> split_ifs at hp <;> simp_all
      obtain ⟨m, s, n, n', rfl⟩ := ih (hsame ▸ hrun)
      exact ⟨e :: m, s, n, n', rfl⟩

end Phase

variable {k : ℕ} {log : List Event}

theorem phase_snoc (k : ℕ) (log : List Event) (e : Event) :
    phase k (log ++ [e]) = (phase k log).bind fun p => p.next k e := by
  rw [phase, Phase.run_append]
  exact congrArg _ (funext fun p => by simp [Phase.run])

def Event.key : Event → ℕ
  | .called key | .ended key _ | .requested key => key

theorem phase_other {e : Event} (he : k ≠ e.key) : phase k (log ++ [e]) = phase k log := by
  have hnext : ∀ p : Phase, p.next k e = some p := by
    intro p
    cases e <;> exact if_pos (Ne.symm he)
  rw [phase_snoc]
  simp only [hnext, Option.bind_fun_some]

theorem phase_called (h : phase k log = some .ready) : phase k (log ++ [.called k]) = some .calling := by
  simp [phase_snoc, h, Phase.next]

theorem phase_ended {s : DeliveryStatus} (h : phase k log = some .calling) :
    phase k (log ++ [.ended k s]) = some (if s = .failed then .refused else .over) := by
  simp [phase_snoc, h, Phase.next]

theorem phase_requested (h : phase k log = some .ready ∨ phase k log = some .refused) :
    phase k (log ++ [.requested k]) = some .ready := by
  rcases h with h | h <;> simp [phase_snoc, h, Phase.next]

theorem phase_of_append {l l' : List Event} (h : (phase k (l ++ l')).isSome) :
    ∃ p, phase k l = some p ∧ (Phase.run k p l').isSome := by
  rw [phase, Phase.run_append] at h
  obtain ⟨q, hq⟩ := Option.isSome_iff_exists.1 h
  obtain ⟨p, hp, hrun⟩ := Option.bind_eq_some_iff.1 hq
  exact ⟨p, hp, by simp [hrun]⟩

/-- Between two calls one has ended, and the owner has asked for another. -/
theorem asked_between {l l' l'' : List Event}
    (h : (phase k (l ++ .called k :: (l' ++ .called k :: l''))).isSome) :
    ∃ m s n n', l' = m ++ .ended k s :: (n ++ .requested k :: n') := by
  obtain ⟨p, _, hp⟩ := phase_of_append h
  obtain ⟨q, hq⟩ := Option.isSome_iff_exists.1 hp
  obtain ⟨r, hr, hrun⟩ := Option.bind_eq_some_iff.1 hq
  rw [Phase.run_append] at hrun
  obtain ⟨t, ht, hlast⟩ := Option.bind_eq_some_iff.1 hrun
  obtain ⟨u, hu, _⟩ := Option.bind_eq_some_iff.1 hlast
  have hcalling : r = .calling := by
    simp only [Phase.next] at hr
    split_ifs at hr <;> simp_all
  have hready : t = .ready := by
    simp only [Phase.next] at hu
    split_ifs at hu <;> simp_all
  exact Phase.run_calling (hcalling ▸ hready ▸ ht)

/-- After an end that is no refusal there is no further call. -/
theorem failed_before {l l' l'' : List Event} {s : DeliveryStatus}
    (h : (phase k (l ++ .ended k s :: (l' ++ .called k :: l''))).isSome) : s = .failed := by
  obtain ⟨p, _, hp⟩ := phase_of_append h
  obtain ⟨q, hq⟩ := Option.isSome_iff_exists.1 hp
  obtain ⟨r, hr, hrun⟩ := Option.bind_eq_some_iff.1 hq
  rw [Phase.run_append] at hrun
  obtain ⟨t, ht, hlast⟩ := Option.bind_eq_some_iff.1 hrun
  obtain ⟨u, hu, _⟩ := Option.bind_eq_some_iff.1 hlast
  by_contra hs
  have hover : r = .over := by
    simp only [Phase.next, hs] at hr
    split_ifs at hr <;> simp_all
  have hstays := Phase.run_over (hover ▸ ht)
  simp [Phase.next, hstays] at hu

/-! ### The deliveries and their workers -/

/-- What the state of a row says of its calls: a queued one may be called for, a failed one was not accepted. -/
def DeliveryStatus.Fits : DeliveryStatus → Option Phase → Prop
  | .queued, p => p = some .ready
  | .failed, p => p = some .ready ∨ p = some .refused
  | _, _ => True

theorem DeliveryStatus.Fits.of_ready {status : DeliveryStatus} {p : Option Phase} (h : p = some .ready) :
    status.Fits p := by
  cases status with
  | queued => exact h
  | failed => exact .inl h
  | sending | accepted | review => trivial

/-- What the state of a worker says of the calls of its delivery. -/
def Stage.Fits : Stage → Option Phase → Prop
  | .claimed, p => p = some .ready
  | .calling _, p => p = some .calling
  | .ended status, p => status.Fits p

/-- What identifies a delivery. -/
def Delivery.triple (d : Delivery) : ℕ × UltraMsg.Channel × String := (d.invoice, d.channel, d.recipient)

/-- A worker holds a delivery that is being sent, alone, and log, rows and workers agree. -/
structure Tracked (w : World) : Prop where
  triples : (w.deliveries.map Delivery.triple).Nodup
  phased : ∀ k, (phase k w.log).isSome
  fresh : ∀ k, w.deliveries.length ≤ k → phase k w.log = some .ready
  rows : ∀ (k : ℕ) (d : Delivery), w.deliveries[k]? = some d → d.status.Fits (phase k w.log)
  held : ∀ i x, w.workers i = some x → ∃ d, w.deliveries[x.key]? = some d ∧ d.status = .sending
  alone : ∀ i j x y, w.workers i = some x → w.workers j = some y → x.key = y.key → i = j
  stages : ∀ i x, w.workers i = some x → x.stage.Fits (phase x.key w.log)

namespace Tracked

theorem congr (h : Tracked w) (hd : w'.deliveries = w.deliveries) (hw : w'.workers = w.workers) (hl : w'.log = w.log) :
    Tracked w' := by
  obtain ⟨triples, phased, fresh, rows, held, alone, stages⟩ := h
  constructor <;> simpa only [hd, hw, hl]

/-- A row that no worker holds may be written, if its new state fits. -/
theorem write {key : ℕ} {d d' : Delivery} (h : Tracked w) (hd : w.deliveries[key]? = some d)
    (htriple : d'.triple = d.triple) (hfree : ∀ i x, w.workers i = some x → x.key ≠ key)
    (hfits : d'.status.Fits (phase key w.log)) : Tracked (w.writeDelivery key d') := by
  obtain ⟨hlt, rfl⟩ := List.getElem?_eq_some_iff.1 hd
  have hother : ∀ k, k ≠ key → (w.writeDelivery key d').deliveries[k]? = w.deliveries[k]? := fun k hk =>
    List.getElem?_set_ne (Ne.symm hk)
  refine { h with triples := ?_, fresh := fun k hk => ?_, rows := fun k e he => ?_, held := fun i x hx => ?_ }
  · have hsame : (w.deliveries.set key d').map Delivery.triple = w.deliveries.map Delivery.triple := by
      rw [List.map_set, htriple, ← List.getElem_map Delivery.triple]
      · exact List.set_getElem_self _
      · simpa using hlt
    exact hsame ▸ h.triples
  · exact h.fresh k (by simpa [World.writeDelivery] using hk)
  · by_cases hk : k = key
    · subst hk
      obtain rfl : d' = e := by simpa [World.writeDelivery, hlt] using he
      exact hfits
    · exact h.rows k e (hother k hk ▸ he)
  · rw [hother x.key (hfree i x hx)]
    exact h.held i x hx

/-- A worker that lets go of its delivery. -/
theorem release (h : Tracked w) (i : ℕ) : Tracked (w.setWorker i none) := by
  have hkept : ∀ j x, (w.setWorker i none).workers j = some x → w.workers j = some x := by
    intro j x hx
    simp only [World.setWorker] at hx
    split_ifs at hx
    exact hx
  exact { h with
    held := fun j x hx => h.held j x (hkept j x hx)
    alone := fun j j' x y hx hy => h.alone j j' x y (hkept j x hx) (hkept j' y hy)
    stages := fun j x hx => h.stages j x (hkept j x hx) }

/-- Nobody holds what a free worker released. -/
theorem released {i : ℕ} {x : Worker} (h : Tracked w) (hx : w.workers i = some x) (j : ℕ) (y : Worker)
    (hy : (w.setWorker i none).workers j = some y) : y.key ≠ x.key := by
  simp only [World.setWorker] at hy
  split_ifs at hy with hj
  exact fun hkey => hj (h.alone j i y x hy hx hkey)

/-- A free worker takes a delivery that is ready. -/
theorem hire {i key : ℕ} {d : Delivery} (h : Tracked w) (hd : w.deliveries[key]? = some d)
    (hsending : d.status = .sending) (hfree : ∀ j x, w.workers j = some x → x.key ≠ key)
    (hready : phase key w.log = some .ready) : Tracked (w.setWorker i (some ⟨key, .claimed⟩)) := by
  have hcases : ∀ j x, (w.setWorker i (some ⟨key, .claimed⟩)).workers j = some x →
      j = i ∧ x = ⟨key, .claimed⟩ ∨ j ≠ i ∧ w.workers j = some x := by
    intro j x hx
    simp only [World.setWorker] at hx
    split_ifs at hx with hj
    · exact .inl ⟨hj, (Option.some.inj hx).symm⟩
    · exact .inr ⟨hj, hx⟩
  refine { h with held := fun j x hx => ?_, alone := fun j j' x y hx hy hkey => ?_, stages := fun j x hx => ?_ }
  · obtain ⟨-, rfl⟩ | ⟨-, hx⟩ := hcases j x hx
    · exact ⟨d, hd, hsending⟩
    · exact h.held j x hx
  · obtain ⟨rfl, rfl⟩ | ⟨-, hold⟩ := hcases j x hx <;> obtain ⟨rfl, rfl⟩ | ⟨-, hold'⟩ := hcases j' y hy
    · rfl
    · exact absurd hkey.symm (hfree j' y hold')
    · exact absurd hkey (hfree j x hold)
    · exact h.alone j j' x y hold hold' hkey
  · obtain ⟨-, rfl⟩ | ⟨-, hx⟩ := hcases j x hx
    · exact hready
    · exact h.stages j x hx

/-- A worker goes on with its delivery, and the log with it. -/
theorem goOn {i : ℕ} {x : Worker} {stage : Stage} {log : List Event} (h : Tracked w) (hx : w.workers i = some x)
    (hother : ∀ k, k ≠ x.key → phase k log = phase k w.log) (hsome : (phase x.key log).isSome)
    (hfits : stage.Fits (phase x.key log)) :
    Tracked (({ w with log := log } : World).setWorker i (some { x with stage := stage })) := by
  obtain ⟨d, hd, hsending⟩ := h.held i x hx
  have hlt := (List.getElem?_eq_some_iff.1 hd).1
  have hcases : ∀ j y,
      (({ w with log := log } : World).setWorker i (some { x with stage := stage })).workers j = some y →
        ∃ y', w.workers j = some y' ∧ y'.key = y.key ∧ (j = i ∧ y.stage = stage ∨ j ≠ i ∧ y' = y) := by
    intro j y hy
    simp only [World.setWorker] at hy
    split_ifs at hy with hj
    · obtain rfl := Option.some.inj hy
      exact ⟨x, hj ▸ hx, rfl, .inl ⟨hj, rfl⟩⟩
    · exact ⟨y, hy, rfl, .inr ⟨hj, rfl⟩⟩
  refine ⟨h.triples, fun k => ?_, fun k hk => ?_, fun k e he => ?_, fun j y hy => ?_, fun j j' y z hy hz hkey => ?_,
    fun j y hy => ?_⟩
  · by_cases hk : k = x.key
    · exact hk ▸ hsome
    · exact hother k hk ▸ h.phased k
  · have hk' : k ≠ x.key := fun heq => absurd hk (by rw [heq]; exact Nat.not_le.2 hlt)
    exact (hother k hk').trans (h.fresh k hk)
  · by_cases hk : k = x.key
    · subst hk
      obtain rfl := Option.some.inj (hd.symm.trans he)
      simp [hsending, DeliveryStatus.Fits]
    · exact (hother k hk).symm ▸ h.rows k e he
  · obtain ⟨y', hy', hkey, -⟩ := hcases j y hy
    exact hkey ▸ h.held j y' hy'
  · obtain ⟨y', hy', hykey, -⟩ := hcases j y hy
    obtain ⟨z', hz', hzkey, -⟩ := hcases j' z hz
    exact h.alone j j' y' z' hy' hz' (hykey.trans (hkey.trans hzkey.symm))
  · obtain ⟨y', hy', hkey, ⟨rfl, hstage⟩ | ⟨hj, rfl⟩⟩ := hcases j y hy
    · obtain rfl := Option.some.inj (hx.symm.trans hy')
      exact hkey ▸ hstage ▸ hfits
    · have hne : y'.key ≠ x.key := fun heq => hj (h.alone j i y' x hy' hx heq)
      exact (hother y'.key hne).symm ▸ h.stages j y' hy'

/-- Nobody holds a delivery that is not being sent. -/
theorem idle {k : ℕ} {d : Delivery} (h : Tracked w) (hd : w.deliveries[k]? = some d) (hstatus : d.status ≠ .sending)
    (i : ℕ) (x : Worker) (hx : w.workers i = some x) : x.key ≠ k := by
  rintro rfl
  obtain ⟨e, he, hsending⟩ := h.held i x hx
  obtain rfl := Option.some.inj (hd.symm.trans he)
  exact hstatus hsending

/-- The owner asks for a failed delivery once more. -/
theorem ask {k : ℕ} {d : Delivery} (h : Tracked w) (hd : w.deliveries[k]? = some d) (hfailed : d.status = .failed) :
    Tracked (w.record (.requested k)) := by
  have hbefore : phase k w.log = some .ready ∨ phase k w.log = some .refused := by
    have hfits := h.rows k d hd
    rwa [hfailed] at hfits
  have hready : phase k (w.record (.requested k)).log = some .ready := phase_requested hbefore
  have hother : ∀ j, j ≠ k → phase j (w.record (.requested k)).log = phase j w.log := fun j hj => phase_other hj
  have hidle := h.idle hd (by simp [hfailed])
  refine { h with
    phased := fun j => ?_
    fresh := fun j hj => ?_
    rows := fun j e he => ?_
    stages := fun i x hx => (hother x.key (hidle i x hx)).symm ▸ h.stages i x hx }
  · by_cases hj : j = k
    · subst hj
      simp [hready]
    · exact hother j hj ▸ h.phased j
  · have hlt := (List.getElem?_eq_some_iff.1 hd).1
    have hj' : j ≠ k := fun heq => absurd hj (by rw [heq]; exact Nat.not_le.2 hlt)
    exact (hother j hj').trans (h.fresh j hj)
  · by_cases hj : j = k
    · subst hj
      obtain rfl := Option.some.inj (hd.symm.trans he)
      rw [hready, hfailed]
      exact .inl rfl
    · exact (hother j hj).symm ▸ h.rows j e he

theorem queue {key : ℕ} {channel : UltraMsg.Channel} {recipient : String} {retryFailed : Bool} (h : Tracked w)
    (hq : Queued w w' key channel recipient retryFailed) : Tracked w' := by
  cases hq with
  | same eq => exact eq ▸ h
  | again k d presentation _ _ hd hfailed hdeliveries hworkers hlog =>
    have hready : phase k (w.record (.requested k)).log = some .ready := by
      have hfits := h.rows k d hd
      rw [hfailed] at hfits
      exact phase_requested hfits
    have hwritten : Tracked ((w.record (.requested k)).writeDelivery k
        { d with status := .queued, presentation := presentation }) :=
      (h.ask hd hfailed).write hd rfl (h.idle hd (by simp [hfailed])) hready
    exact hwritten.congr hdeliveries hworkers hlog
  | new presentation hfree hdeliveries hworkers hlog =>
    have hleft : ∀ (k : ℕ) d, w.deliveries[k]? = some d → w'.deliveries[k]? = some d := by
      intro k d hd
      rw [hdeliveries, List.getElem?_append_left (List.getElem?_eq_some_iff.1 hd).1]
      exact hd
    have hnew : (⟨key, channel, recipient, presentation, .queued, 0⟩ : Delivery).triple ∉
        w.deliveries.map Delivery.triple := by
      intro hmem
      obtain ⟨d, hd, htriple⟩ := List.mem_map.1 hmem
      have hne := List.findIdx?_eq_none_iff.1 hfree d hd
      simp only [Delivery.triple, Prod.mk.injEq] at htriple
      simp [htriple] at hne
    refine ⟨?_, fun k => hlog ▸ h.phased k, fun k hk => ?_, fun k d hd => ?_, fun i x hx => ?_, ?_, ?_⟩
    · rw [hdeliveries, List.map_append]
      simpa using List.Nodup.concat hnew h.triples
    · rw [hlog]
      refine h.fresh k ?_
      rw [hdeliveries, List.length_append] at hk
      exact le_trans (Nat.le_add_right _ _) hk
    · rw [hlog]
      rw [hdeliveries] at hd
      rcases Nat.lt_or_ge k w.deliveries.length with hk | hk
      · rw [List.getElem?_append_left hk] at hd
        exact h.rows k d hd
      · rw [List.getElem?_append_right hk] at hd
        obtain rfl := List.mem_singleton.1 (List.mem_of_getElem? hd)
        exact h.fresh k hk
    · rw [hworkers] at hx
      obtain ⟨d, hd, hsending⟩ := h.held i x hx
      exact ⟨d, hleft x.key d hd, hsending⟩
    · rw [hworkers]
      exact h.alone
    · rw [hworkers, hlog]
      exact h.stages

/-- What a dispatcher or a worker does. -/
theorem advance (h : Tracked w) (ha : Advance w w') : Tracked w' := by
  cases ha with
  | aside hdeliveries hworkers hlog => exact h.congr hdeliveries hworkers hlog
  | doubt key d dispatching hd hqueued heq =>
    have herased : Tracked { w with dispatching := dispatching } := h.congr rfl rfl rfl
    exact heq ▸ herased.write hd rfl (herased.idle hd (by simp [hqueued])) trivial
  | claim i key d hd hqueued heq =>
    have hready : phase key w.log = some .ready := by
      have hfits := h.rows key d hd
      rwa [hqueued] at hfits
    have hidle := h.idle hd (by simp [hqueued])
    have hlt := (List.getElem?_eq_some_iff.1 hd).1
    have hclaimed : Tracked (w.writeDelivery key { d with status := .sending, attemptCount := d.attemptCount + 1 }) :=
      h.write hd rfl hidle trivial
    exact heq ▸ hclaimed.hire (List.getElem?_set_self hlt) rfl hidle hready
  | call i x q hx hstage heq =>
    have hready : phase x.key w.log = some .ready := by
      have hfits := h.stages i x hx
      rwa [hstage] at hfits
    have hcalling : phase x.key (w.log ++ [.called x.key]) = some .calling := phase_called hready
    have hother : ∀ k, k ≠ x.key → phase k (w.log ++ [.called x.key]) = phase k w.log := fun k hk => phase_other hk
    exact heq ▸ h.goOn hx hother (by simp [hcalling]) hcalling
  | skip i x status hx hstage heq =>
    have hready : phase x.key w.log = some .ready := by
      have hfits := h.stages i x hx
      rwa [hstage] at hfits
    exact heq ▸ h.goOn hx (fun _ _ => rfl) (h.phased _) (.of_ready hready)
  | answer i x q status hx hstage hstatus heq =>
    have hcalling := h.stages i x hx
    rw [hstage] at hcalling
    have hended : phase x.key (w.log ++ [.ended x.key status]) = some (if status = .failed then .refused else .over) :=
      phase_ended hcalling
    have hother : ∀ k, k ≠ x.key → phase k (w.log ++ [.ended x.key status]) = phase k w.log :=
      fun k hk => phase_other hk
    have hfits : status.Fits (phase x.key (w.log ++ [.ended x.key status])) := by
      rw [hended]
      cases status with
      | queued => exact absurd rfl hstatus
      | failed => exact .inr rfl
      | sending | accepted | review => trivial
    exact heq ▸ h.goOn hx hother (by simp [hended]) hfits
  | close i x d status hx hstage hd heq =>
    have hfits := h.stages i x hx
    rw [hstage] at hfits
    exact heq ▸ (h.release i).write hd rfl (h.released hx) hfits
  | leave i heq => exact heq ▸ h.release i

end Tracked

theorem step_tracked (h : Tracked w) (a : Action) : Tracked (step c w a) := by
  obtain ⟨hostawayId, s, rfl⟩ | ⟨key, r, year, rfl⟩ | ⟨hostawayId, checked, review, forms, year, rfl⟩ | ⟨-, hrest⟩ :=
    step_cases (c := c) w a
  · obtain ⟨u, key, inv, hu, -, hprepare⟩ := prepare_cases w hostawayId s
    obtain ⟨-, -, -, rows, rfl⟩ := getOrCreate_spec hu
    simp only [step]
    obtain heq | ⟨-, heq⟩ := hprepare <;> exact heq ▸ h.congr rfl rfl rfl
  · simp only [step]
    cases hissue : w.issue c key r year with
    | none => exact h
    | some v =>
      obtain rfl | ⟨draft, inv, -, -, -, -, rfl⟩ := issue_cases hissue
      · exact h
      · exact h.congr rfl rfl rfl
  · simp only [step]
    cases hsend : w.sendRequest c hostawayId checked review forms year with
    | none => exact h
    | some v =>
      obtain ⟨u, key, inv, v', hu, -, hfold, hv'⟩ := sendRequest_cases hsend
      obtain ⟨-, -, -, rows, rfl⟩ := getOrCreate_spec hu
      have hissued : Tracked v' := by
        obtain rfl | ⟨-, inv', -, rfl⟩ := hv' <;> exact h.congr rfl rfl rfl
      exact (foldlM_queueDelivery (fun _ _ _ _ hP hq => hP.queue hq) hissued hfold).1
  · obtain hadvance | ⟨key, channel, recipient, rfl, hqueued⟩ := hrest
    · exact h.advance hadvance
    · exact h.queue hqueued

theorem after_tracked (c : Tools) (as : List Action) : Tracked (after c as) := by
  refine Machine.run_inv (I := Tracked) (fun _ a h => step_tracked h a) ?_ as
  refine ⟨List.nodup_nil, fun _ => rfl, fun _ _ => rfl, ?_, ?_, ?_, ?_⟩ <;> simp [initial]

/-! ### What the owner asks for -/

/-- The step `a` is the owner's click for the failed delivery `k`. -/
def World.Clicked (w : World) (k : ℕ) (a : Action) : Prop :=
  ∃ key channel recipient d, a = .queue key channel recipient ∧ w.deliveries[k]? = some d ∧
    d.triple = (key, channel, recipient) ∧ d.status = .failed

theorem Queued.clicked {key : ℕ} {channel : UltraMsg.Channel} {recipient : String} {retryFailed : Bool}
    (h : Queued w w' key channel recipient retryFailed) :
    w'.log = w.log ∨ retryFailed = true ∧
      ∃ k d, w'.log = w.log ++ [.requested k] ∧ w.deliveries[k]? = some d ∧ d.triple = (key, channel, recipient) ∧
        d.status = .failed := by
  cases h with
  | same eq => exact .inl (eq ▸ rfl)
  | new _ _ _ _ hlog => exact .inl hlog
  | again k d _ hretry hfound hd hfailed _ _ hlog =>
    obtain ⟨hlt, hthis, -⟩ := List.findIdx?_eq_some_iff_getElem.1 hfound
    obtain rfl := Option.some.inj ((List.getElem?_eq_getElem hlt).symm.trans hd)
    exact .inr ⟨hretry, k, _, hlog, hd, by simpa [Delivery.triple, and_assoc] using hthis, hfailed⟩

theorem Advance.unrequested (h : Advance w w') : ∃ news, w'.log = w.log ++ news ∧ ∀ k, .requested k ∉ news := by
  cases h with
  | aside _ _ hlog => exact ⟨[], by simpa using hlog, by simp⟩
  | call _ x _ _ _ heq => exact ⟨[.called x.key], heq ▸ rfl, by simp⟩
  | answer _ x _ status _ _ _ heq => exact ⟨[.ended x.key status], heq ▸ rfl, by simp⟩
  | doubt | claim | skip | close | leave => exact ⟨[], by subst_vars; exact (List.append_nil _).symm, by simp⟩

/-- A step only adds to the log, and a request only if it is a click. -/
theorem step_log (w : World) (a : Action) :
    ∃ news, (step c w a).log = w.log ++ news ∧ ∀ k, .requested k ∈ news → w.Clicked k a := by
  have hsame : (step c w a).log = w.log →
      ∃ news, (step c w a).log = w.log ++ news ∧ ∀ k, .requested k ∈ news → w.Clicked k a :=
    fun hlog => ⟨[], by simpa using hlog, by simp⟩
  obtain ⟨hostawayId, s, rfl⟩ | ⟨key, r, year, rfl⟩ | ⟨hostawayId, checked, review, forms, year, rfl⟩ | ⟨-, hrest⟩ :=
    step_cases (c := c) w a
  · obtain ⟨u, key, inv, hu, -, hprepare⟩ := prepare_cases w hostawayId s
    obtain ⟨-, -, -, rows, rfl⟩ := getOrCreate_spec hu
    refine hsame ?_
    simp only [step]
    obtain heq | ⟨-, heq⟩ := hprepare <;> exact heq ▸ rfl
  · refine hsame ?_
    simp only [step]
    cases hissue : w.issue c key r year with
    | none => rfl
    | some v => obtain rfl | ⟨draft, inv, -, -, -, -, rfl⟩ := issue_cases hissue <;> rfl
  · refine hsame ?_
    simp only [step]
    cases hsend : w.sendRequest c hostawayId checked review forms year with
    | none => rfl
    | some v =>
      obtain ⟨u, key, inv, v', hu, -, hfold, hv'⟩ := sendRequest_cases hsend
      obtain ⟨-, -, -, rows, rfl⟩ := getOrCreate_spec hu
      have hissued : v'.log = w.log := by
        obtain rfl | ⟨-, inv', -, rfl⟩ := hv' <;> rfl
      refine (foldlM_queueDelivery (P := fun u => u.log = w.log) (fun u x _ _ hu hq => ?_) hissued hfold).1
      obtain hlog | ⟨hretry, _⟩ := hq.clicked
      · exact hlog.trans hu
      · cases hretry
  · obtain hadvance | ⟨key, channel, recipient, rfl, hqueued⟩ := hrest
    · obtain ⟨news, hlog, hnone⟩ := hadvance.unrequested
      exact ⟨news, hlog, fun k hk => absurd hk (hnone k)⟩
    · obtain hlog | ⟨-, k, d, hlog, hd, htriple, hfailed⟩ := hqueued.clicked
      · exact hsame hlog
      · refine ⟨[.requested k], hlog, fun j hj => ?_⟩
        obtain rfl := Event.requested.inj (List.mem_singleton.1 hj)
        exact ⟨key, channel, recipient, d, rfl, hd, htriple, hfailed⟩

/--
In every run there is exactly one invoice for a booking that one was prepared or asked for, and none has two; the rows
stay, and an issued one as it is; it is issued by the owner with the token of the snapshot that is in the row, or by the
assistant's request with the snapshot that it writes there; a delivery is identified by its invoice, channel and
recipient, and has at most one worker in the call of the provider; between two calls for it the first has failed and
the owner has then asked for it again, which only a click for the failed delivery records; and no call follows one that
ended otherwise.
-/
theorem frozen_and_sent_once (c : Tools) (as bs : List Action) :
    (after c as).ids.Nodup ∧
      (∀ l a l' hostawayId, as = l ++ a :: l' → (after c l).Opens c hostawayId a →
        ∃! key : ℕ, ∃ inv, (after c as).invoices[key]? = some inv ∧ inv.hostawayReservationId = hostawayId) ∧
      (∀ (key : ℕ) inv, (after c as).invoices[key]? = some inv → inv.issuedAt.isSome →
        (after c (as ++ bs)).invoices[key]? = some inv) ∧
      (∀ a (key : ℕ) inv, (after c (as ++ [a])).invoices[key]? = some inv → inv.issuedAt.isSome →
        (after c as).invoices[key]? = some inv ∨ IssuedBy c (after c as) key inv a) ∧
      ((after c as).deliveries.map Delivery.triple).Nodup ∧
      (∀ i j x y q q', (after c as).workers i = some x → (after c as).workers j = some y → x.stage = .calling q →
        y.stage = .calling q' → x.key = y.key → i = j) ∧
      (∀ k l l' l'', (after c as).log = l ++ .called k :: (l' ++ .called k :: l'') →
        ∃ m n n', l' = m ++ .ended k .failed :: (n ++ .requested k :: n')) ∧
      (∀ k s l l' l'', (after c as).log = l ++ .ended k s :: (l' ++ .called k :: l'') → s = .failed) ∧
      ∀ a k, .requested k ∈ (after c (as ++ [a])).log.drop (after c as).log.length → (after c as).Clicked k a := by
  have h := after_tracked c as
  have hfailed : ∀ k s l l' l'', (after c as).log = l ++ .ended k s :: (l' ++ .called k :: l'') → s = .failed :=
    fun k s l l' l'' hlog => failed_before (hlog ▸ h.phased k)
  have hsnoc : ∀ a, after c (as ++ [a]) = step c (after c as) a := fun a => Machine.run_append
  refine ⟨nodup_after c as, fun l a l' hostawayId has hopens => ?_, fun key inv hinv hissued => ?_,
    fun a key inv hinv hissued => ?_, h.triples, fun i j x y _ _ hx hy _ _ hkey => h.alone i j x y hx hy hkey,
    fun k l l' l'' hlog => ?_, hfailed, fun a k hk => ?_⟩
  · obtain ⟨key, inv, hinv, hid⟩ := hopens.row
    have hrun : after c as = Machine.run (step c) (step c (after c l) a) l' := by
      rw [has, after, Machine.run_append, Machine.run_cons]
    obtain ⟨inv', hinv', hid', -⟩ := (keeps_run c (step c (after c l) a) l').rows hinv
    refine ⟨key, ⟨inv', hrun ▸ hinv', hid'.trans hid⟩, ?_⟩
    rintro k ⟨other, hother, hsame⟩
    exact row_unique (nodup_after c as) hother (hrun ▸ hinv') (hsame.trans (hid'.trans hid).symm)
  · obtain ⟨inv', hinv', -, hsame⟩ := (keeps_run c (after c as) bs).rows hinv
    rw [after, Machine.run_append, hinv', hsame hissued]
  · exact step_issues (hsnoc a ▸ hinv) hissued
  · obtain ⟨m, s, n, n', rfl⟩ := asked_between (hlog ▸ h.phased k)
    have hended : (after c as).log =
        (l ++ .called k :: m) ++ .ended k s :: ((n ++ .requested k :: n') ++ .called k :: l'') := by
      simpa using hlog
    obtain rfl := hfailed k s _ _ _ hended
    exact ⟨m, n, n', rfl⟩
  · obtain ⟨news, hlog, hclicked⟩ := step_log (c := c) (after c as) a
    rw [hsnoc, hlog, List.drop_left] at hk
    exact hclicked k hk

/-- The provider refuses the file, the owner clicks once more, and the second call ends in doubt. -/
theorem frozen_and_sent_once_refused :
    let tools : Tools := ⟨fun _ s => s.total, fun _ => "1F", fun _ => some [0x25, 0x50, 0x44, 0x46, 0x2d]⟩
    let draft : Snapshot := ⟨"HM1", "Sara", "", "966500000000", "ar", "300.00", "SAR", "2026-03-01", "2026-03-03", ""⟩
    let before : List Action := [.prepare 7 draft, .issue 0 ⟨"300.00", "HM1", "Sara A", "", "966500000000", "ar"⟩ 2026,
      .queue 0 .whatsapp "966500000000", .deliver 0 0, .call 0 true, .answer 0 (.reply 400 .unreadable) none, .finish 0]
    let again : List Action := [.queue 0 .whatsapp "966500000000", .deliver 1 0, .call 1 true]
    (∃! key : ℕ, ∃ inv, (after tools before).invoices[key]? = some inv ∧ inv.hostawayReservationId = 7) ∧
      (∃ inv, inv.issuedAt.isSome ∧ (after tools before).invoices[0]? = some inv ∧
        (after tools (before ++ again)).invoices[0]? = some inv) ∧
      (∃ m n n' : List Event, [.ended 0 .failed, .requested 0] = m ++ .ended 0 .failed :: (n ++ .requested 0 :: n')) ∧
      (after tools before).Clicked 0 (.queue 0 .whatsapp "966500000000") := by
  intro tools draft before again
  have h := frozen_and_sent_once tools before again
  have hagain := frozen_and_sent_once tools (before ++ again) []
  refine ⟨h.2.1 [] _ _ 7 rfl rfl, ?_, hagain.2.2.2.2.2.2.1 0 [] [.ended 0 .failed, .requested 0] [] ?_,
    h.2.2.2.2.2.2.2.2 (.queue 0 .whatsapp "966500000000") 0 ?_⟩
  · have hissued : ((after tools before).invoices[0]?.any fun inv => inv.issuedAt.isSome) = true := by decide +kernel
    obtain ⟨inv, hinv, hsome⟩ := (Option.any_eq_true _ _).1 hissued
    exact ⟨inv, hsome, hinv, h.2.2.1 0 inv hinv hsome⟩
  · decide +kernel
  · decide +kernel

end Apartments.Invoices
