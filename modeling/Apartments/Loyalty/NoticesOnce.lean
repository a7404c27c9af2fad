import Apartments.Loyalty.Notices
import Mathlib.Data.List.Nodup
import Mathlib.Data.List.Pairwise

/-!
# A notice is sent once, in order, to its phone

While a worker lives its notice is being sent, with the time at which the worker claimed it; the time limit ends the
worker long before `recover_notices` looks at the notice. So what a worker holds is written by nobody else, and every
way back to the queue is one on which nothing was sent (`Sound`).
-/

namespace Apartments.Notices

variable {phoneDigest : String → String} {w w' : World}

namespace World

/-- The keys of the notices that were sent. -/
def sentKeys (w : World) : List ℕ := w.sent.map Submission.key

@[simp] theorem setWorker_self (w : World) (i : ℕ) (x : Option Worker) : (w.setWorker i x).workers i = x := if_pos rfl

theorem setWorker_ne (w : World) {i j : ℕ} (x : Option Worker) (h : j ≠ i) :
    (w.setWorker i x).workers j = w.workers j := if_neg h

end World

/-- Still to be sent, or being sent. -/
def Status.Open (s : Status) : Prop := s = .queued ∨ s = .sending

/-- Nothing is sent any more; only a welcome that waits for the proof of a phone is taken up again. -/
def Notice.Settled (n : Notice) : Prop :=
  n.status = .accepted ∨ n.status = .uncertain ∨ n.status = .failed ∨
    n.status = .skipped ∧ ¬ (n.source.isEvent [.join] = true ∧ n.errorCode = "verified_mobile_required")

structure Sound (w : World) : Prop where
  job : ∀ i x, w.workers i = some x → ∃ n, w.notices[x.key]? = some n ∧ n.status = .sending ∧
    n.startedAt = some x.started ∧ n.source = x.notice.source
  inTime : ∀ i x, w.workers i = some x → w.now < x.started + 45
  one : ∀ i j x y, w.workers i = some x → w.workers j = some y → x.key = y.key → i = j
  addressee : ∀ i x, w.workers i = some x → w.queuedFor x.key = some (x.binding, x.phone)
  toSend : ∀ i x, w.workers i = some x → x.stage ≠ .outcome → x.key ∉ w.sentKeys
  unsent : ∀ (k : ℕ) (n : Notice), w.notices[k]? = some n → n.status = .queued ∨ n.status = .skipped → k ∉ w.sentKeys
  log : ∀ s ∈ w.sent, (∃ n, w.notices[s.key]? = some n ∧ n.source = s.source) ∧
    w.queuedFor s.key = some (s.binding, s.phone)
  nodup : w.sentKeys.Nodup
  increasing : ∀ (j k : ℕ) (a b : Notice), w.notices[j]? = some a → w.notices[k]? = some b → j < k →
    ∀ m c s m' c' s', a.source = .ledger m c s → b.source = .ledger m' c' s' → s < s'
  posted : ∀ (k : ℕ) (n : Notice), w.notices[k]? = some n → ∀ m c s, n.source = .ledger m c s → s ≤ w.sequence
  turn : ∀ (k : ℕ) (n : Notice), w.notices[k]? = some n → n.status = .sending ∨ k ∈ w.sentKeys →
    ∀ (j : ℕ) (m : Notice), w.notices[j]? = some m → m.source.earlier n.source = true → ¬ m.status.Open
  ordered : w.sent.Pairwise fun a b => ∀ m c s c' s', a.source = .ledger m c s → b.source = .ledger m c' s' → s < s'
  bindings : ∀ (k : ℕ) (n : Notice) pk, w.notices[k]? = some n → n.recipientBinding = some pk →
    ∃ p, w.phones[pk]? = some (some p) ∧ w.queuedFor k = some (pk, p)

namespace Sound

theorem of_initial : Sound initial where
  job := by simp [initial]
  inTime := by simp [initial]
  one := by simp [initial]
  addressee := by simp [initial]
  toSend := by simp [initial]
  unsent := by simp [initial]
  log := by simp [initial]
  nodup := by simp [initial, World.sentKeys]
  increasing := by simp [initial]
  posted := by simp [initial]
  turn := by simp [initial]
  ordered := by simp [initial]
  bindings := by simp [initial]

/-- A notice with the key `k` becomes another one, by a write that neither claims nor posts. -/
structure Row (w w' : World) (k : ℕ) (n n' : Notice) : Prop where
  source : n'.source = n.source
  sending : n'.status = .sending → n.status = .sending ∧ n'.startedAt = n.startedAt
  queued : n'.status = .queued → n.status.Open ∨ ∀ a, a.earlier n.source = false ∧ n.source.earlier a = false
  unsent : n'.status = .queued ∨ n'.status = .skipped → n.status = .queued ∨ n.status = .skipped ∨ k ∉ w.sentKeys
  held : ∀ i x, w'.workers i = some x → x.key = k → n'.status = .sending
  binding : ∀ pk, n'.recipientBinding = some pk →
    ∃ p, w'.phones[pk]? = some (some p) ∧ w'.queuedFor k = some (pk, p)

/-- What is left alone, while its phone is. -/
theorem Row.refl (h : Sound w) {k : ℕ} {n : Notice} (hn : w.notices[k]? = some n)
    (hworkers : ∀ i x, w'.workers i = some x → w.workers i = some x)
    (hbinding : ∀ pk p, n.recipientBinding = some pk → w.phones[pk]? = some (some p) →
      w.queuedFor k = some (pk, p) → w'.phones[pk]? = some (some p) ∧ w'.queuedFor k = some (pk, p)) :
    Row w w' k n n where
  source := rfl
  sending := fun hs => ⟨hs, rfl⟩
  queued := fun hs => .inl (.inl hs)
  unsent := by
    rintro (hs | hs)
    · exact .inl hs
    · exact .inr (.inl hs)
  held := by
    intro i x hx hk
    obtain ⟨m, hm, hs, _⟩ := h.job i x (hworkers i x hx)
    rw [hk, hn] at hm
    obtain rfl := Option.some.inj hm
    exact hs
  binding := by
    intro pk hpk
    obtain ⟨p, hp, hfor⟩ := h.bindings k n pk hn hpk
    exact ⟨p, hbinding pk p hpk hp hfor⟩

/-- Writes that neither claim nor post, by workers of which some may be gone. -/
theorem rows (h : Sound w) (hsent : w'.sent = w.sent) (hsequence : w.sequence ≤ w'.sequence)
    (hworkers : ∀ i x, w'.workers i = some x → w.workers i = some x)
    (htime : ∀ i x, w'.workers i = some x → w'.now < x.started + 45)
    (hfor : ∀ k, w'.queuedFor k = w.queuedFor k ∨
      k ∉ w.sentKeys ∧ ∀ i x, w'.workers i = some x → x.key ≠ k)
    (hlength : w'.notices.length = w.notices.length)
    (hrows : ∀ (k : ℕ) n', w'.notices[k]? = some n' → ∃ n, w.notices[k]? = some n ∧ Row w w' k n n') : Sound w' := by
  have hkeys : w'.sentKeys = w.sentKeys := by rw [World.sentKeys, hsent, World.sentKeys]
  have hback : ∀ (k : ℕ) n, w.notices[k]? = some n → ∃ n', w'.notices[k]? = some n' ∧ Row w w' k n n' := by
    intro k n hn
    have hk : k < w'.notices.length := hlength ▸ (List.getElem?_eq_some_iff.1 hn).1
    obtain ⟨m, hm, hrow⟩ := hrows k w'.notices[k] (List.getElem?_eq_getElem hk)
    obtain rfl : m = n := Option.some.inj (hm.symm.trans hn)
    exact ⟨_, List.getElem?_eq_getElem hk, hrow⟩
  constructor
  case job =>
    intro i x hx
    obtain ⟨n, hn, _, hstarted, hsource⟩ := h.job i x (hworkers i x hx)
    obtain ⟨n', hn', hrow⟩ := hback x.key n hn
    have hsending := hrow.held i x hx rfl
    exact ⟨n', hn', hsending, (hrow.sending hsending).2.trans hstarted, hrow.source.trans hsource⟩
  case inTime => exact htime
  case one => exact fun i j x y hx hy => h.one i j x y (hworkers i x hx) (hworkers j y hy)
  case addressee =>
    intro i x hx
    rcases hfor x.key with hk | hk
    · exact hk.trans (h.addressee i x (hworkers i x hx))
    · exact absurd rfl (hk.2 i x hx)
  case toSend =>
    intro i x hx
    rw [hkeys]
    exact h.toSend i x (hworkers i x hx)
  case unsent =>
    intro k n' hn' hs
    obtain ⟨n, hn, hrow⟩ := hrows k n' hn'
    rw [hkeys]
    rcases hrow.unsent hs with hq | hq | hq
    · exact h.unsent k n hn (.inl hq)
    · exact h.unsent k n hn (.inr hq)
    · exact hq
  case log =>
    intro s hs
    rw [hsent] at hs
    obtain ⟨⟨n, hn, hsource⟩, hs'⟩ := h.log s hs
    obtain ⟨n', hn', hrow⟩ := hback s.key n hn
    refine ⟨⟨n', hn', hrow.source.trans hsource⟩, ?_⟩
    rcases hfor s.key with hk | hk
    · exact hk.trans hs'
    · exact absurd (List.mem_map_of_mem hs) hk.1
  case nodup =>
    rw [hkeys]
    exact h.nodup
  case increasing =>
    intro j k a' b' ha' hb' hjk
    obtain ⟨a, ha, hra⟩ := hrows j a' ha'
    obtain ⟨b, hb, hrb⟩ := hrows k b' hb'
    rw [hra.source, hrb.source]
    exact h.increasing j k a b ha hb hjk
  case posted =>
    intro k n' hn' m c s hs
    obtain ⟨n, hn, hrow⟩ := hrows k n' hn'
    rw [hrow.source] at hs
    exact (h.posted k n hn m c s hs).trans hsequence
  case turn =>
    intro k n' hn' hs j m' hm' hearlier hopen
    obtain ⟨n, hn, hrn⟩ := hrows k n' hn'
    obtain ⟨m, hm, hrm⟩ := hrows j m' hm'
    rw [hrm.source, hrn.source] at hearlier
    rw [hkeys] at hs
    have hclosed := h.turn k n hn (hs.imp_left fun h' => (hrn.sending h').1) j m hm hearlier
    rcases hopen with hq | hq
    · rcases hrm.queued hq with ho | ho
      · exact hclosed ho
      · exact absurd hearlier (by simp [(ho n.source).2])
    · exact hclosed (.inr (hrm.sending hq).1)
  case ordered =>
    rw [hsent]
    exact h.ordered
  case bindings =>
    intro k n' pk hn' hpk
    obtain ⟨n, hn, hrow⟩ := hrows k n' hn'
    exact hrow.binding pk hpk

theorem getElem?_set_cases {α : Type*} {l : List α} {j k : ℕ} {a b : α} (h : (l.set k a)[j]? = some b) :
    j = k ∧ b = a ∨ j ≠ k ∧ l[j]? = some b := by
  rw [List.getElem?_set] at h
  split_ifs at h with hjk hk
  · exact .inl ⟨hjk.symm, (Option.some.inj h).symm⟩
  · exact .inr ⟨fun hkj => hjk hkj.symm, h⟩

/-- One notice is written. -/
theorem set (h : Sound w) {k : ℕ} {n n' : Notice} (hn : w.notices[k]? = some n)
    (hnotices : w'.notices = w.notices.set k n') (hsent : w'.sent = w.sent) (hsequence : w'.sequence = w.sequence)
    (hnow : w'.now = w.now) (hworkers : ∀ i x, w'.workers i = some x → w.workers i = some x)
    (hphones : ∀ (pk : ℕ) (p : VerifiedPhone), w.phones[pk]? = some (some p) → w'.phones[pk]? = some (some p))
    (hfor : ∀ j, j ≠ k → w'.queuedFor j = w.queuedFor j)
    (hk : w'.queuedFor k = w.queuedFor k ∨ k ∉ w.sentKeys ∧ ∀ i x, w'.workers i = some x → x.key ≠ k)
    (hrow : Row w w' k n n') : Sound w' := by
  refine h.rows hsent hsequence.ge hworkers (fun i x hx => hnow ▸ h.inTime i x (hworkers i x hx)) (fun j => ?_)
    (by rw [hnotices, List.length_set]) (fun j b hb => ?_)
  · by_cases hj : j = k
    · exact hj ▸ hk
    · exact .inl (hfor j hj)
  · rw [hnotices] at hb
    rcases getElem?_set_cases hb with ⟨rfl, rfl⟩ | ⟨hj, hb⟩
    · exact ⟨n, hn, hrow⟩
    · exact ⟨b, hb, .refl h hb hworkers fun pk p _ hp hpk => ⟨hphones pk p hp, (hfor j hj).trans hpk⟩⟩

/-- Nobody works on a notice that is not being sent. -/
theorem not_held (h : Sound w) {k : ℕ} {n : Notice} (hn : w.notices[k]? = some n) (hs : n.status ≠ .sending) {i : ℕ}
    {x : Worker} (hx : w.workers i = some x) : x.key ≠ k := by
  rintro rfl
  obtain ⟨m, hm, hsending, _⟩ := h.job i x hx
  obtain rfl : m = n := Option.some.inj (hm.symm.trans hn)
  exact hs hsending

/-- A claim that closes a queued notice. -/
theorem close (h : Sound w) {k : ℕ} {n n' : Notice} (hn : w.notices[k]? = some n) (hq : n.status = .queued)
    (hsource : n'.source = n.source) (hbinding : n'.recipientBinding = n.recipientBinding)
    (hstatus : ¬ n'.status.Open) : Sound (w.write k n') := by
  refine h.set hn rfl rfl rfl rfl (fun _ _ hx => hx) (fun _ _ hp => hp) (fun _ _ => rfl) (.inl rfl) ?_
  constructor
  case source => exact hsource
  case sending => exact fun hs => absurd (.inr hs) hstatus
  case queued => exact fun hs => absurd (.inl hs) hstatus
  case unsent => exact fun _ => .inl hq
  case held => exact fun i x hx hk => absurd hk (h.not_held hn (by simp [hq]) hx)
  case binding => exact fun pk hpk => h.bindings k n pk hn (hbinding ▸ hpk)

theorem update_of_job (h : Sound w) {i : ℕ} {x : Worker} (hx : w.workers i = some x) (f : Notice → Notice) :
    ∃ n, w.notices[x.key]? = some n ∧ n.status = .sending ∧ w.update x.key f = w.write x.key (f n) := by
  obtain ⟨n, hn, hs, _⟩ := h.job i x hx
  refine ⟨n, hn, hs, ?_⟩
  unfold World.update
  rw [hn]
  exact if_pos hs

/-- A worker writes its outcome; what it puts back it has not sent. -/
theorem finish (h : Sound w) {i : ℕ} {x : Worker} (hx : w.workers i = some x) {f : Notice → Notice}
    (hsource : ∀ n, (f n).source = n.source) (hbinding : ∀ n, (f n).recipientBinding = n.recipientBinding)
    (hstatus : ∀ n, (f n).status ≠ .sending)
    (hunsent : ∀ n, (f n).status = .queued ∨ (f n).status = .skipped → x.stage ≠ .outcome) :
    Sound (w.finish i x.key f) := by
  obtain ⟨n, hn, hs, hupdate⟩ := h.update_of_job hx f
  have hworkers : ∀ j y, ((w.write x.key (f n)).setWorker i none).workers j = some y →
      j ≠ i ∧ w.workers j = some y := by
    intro j y hy
    by_cases hj : j = i
    · rw [hj, World.setWorker_self] at hy
      cases hy
    · exact ⟨hj, by rwa [World.setWorker_ne _ _ hj] at hy⟩
  rw [World.finish, hupdate]
  refine h.set hn rfl rfl rfl rfl (fun j y hy => (hworkers j y hy).2) (fun _ _ hp => hp) (fun _ _ => rfl) (.inl rfl) ?_
  constructor
  case source => exact hsource n
  case sending => exact fun hs' => absurd hs' (hstatus n)
  case queued => exact fun _ => .inl (.inr hs)
  case unsent => exact fun hq => .inr (.inr (h.toSend i x hx (hunsent n hq)))
  case held =>
    intro j y hy hk
    exact absurd (h.one j i y x (hworkers j y hy).2 hx hk) (hworkers j y hy).1
  case binding => exact fun pk hpk => h.bindings x.key n pk hn (hbinding n ▸ hpk)

/-- A worker goes on to its next stage without sending. -/
theorem advance (h : Sound w) {i : ℕ} {x : Worker} (hx : w.workers i = some x) (hstage : x.stage ≠ .outcome)
    (s : Stage) : Sound (w.setWorker i (some { x with stage := s })) := by
  have hworkers : ∀ j y, (w.setWorker i (some { x with stage := s })).workers j = some y →
      ∃ z, w.workers j = some z ∧ y = { z with stage := y.stage } ∧ (y.stage ≠ .outcome → z.stage ≠ .outcome) := by
    intro j y hy
    by_cases hj : j = i
    · rw [hj, World.setWorker_self] at hy
      obtain rfl := Option.some.inj hy
      exact ⟨x, hj ▸ hx, rfl, fun _ => hstage⟩
    · rw [World.setWorker_ne _ _ hj] at hy
      exact ⟨y, hy, rfl, id⟩
  constructor
  case job =>
    intro j y hy
    obtain ⟨z, hz, hyz, _⟩ := hworkers j y hy
    rw [hyz]
    exact h.job j z hz
  case inTime =>
    intro j y hy
    obtain ⟨z, hz, hyz, _⟩ := hworkers j y hy
    rw [hyz]
    exact h.inTime j z hz
  case one =>
    intro j k y y' hy hy' hkey
    obtain ⟨z, hz, hyz, _⟩ := hworkers j y hy
    obtain ⟨z', hz', hyz', _⟩ := hworkers k y' hy'
    rw [hyz, hyz'] at hkey
    exact h.one j k z z' hz hz' hkey
  case addressee =>
    intro j y hy
    obtain ⟨z, hz, hyz, _⟩ := hworkers j y hy
    rw [hyz]
    exact h.addressee j z hz
  case toSend =>
    intro j y hy hs
    obtain ⟨z, hz, hyz, hzs⟩ := hworkers j y hy
    rw [hyz]
    exact h.toSend j z hz (hzs hs)
  case unsent => exact h.unsent
  case log => exact h.log
  case nodup => exact h.nodup
  case increasing => exact h.increasing
  case posted => exact h.posted
  case turn => exact h.turn
  case ordered => exact h.ordered
  case bindings => exact h.bindings

/-- The call of `send_image`: its worker holds the notice, and it was not made before. -/
theorem send (h : Sound w) {i : ℕ} {x : Worker} (hx : w.workers i = some x) (hstage : x.stage = .outcome)
    (hnew : x.key ∉ w.sentKeys) :
    Sound { w with sent := w.sent ++ [⟨x.key, x.notice.source, x.binding, x.phone⟩] } := by
  obtain ⟨n, hn, hsending, hstarted, hsource⟩ := h.job i x hx
  have hkeys : World.sentKeys { w with sent := w.sent ++ [⟨x.key, x.notice.source, x.binding, x.phone⟩] } =
      w.sentKeys ++ [x.key] := by
    simp [World.sentKeys]
  have hmem : ∀ k, k ∈ World.sentKeys { w with sent := w.sent ++ [⟨x.key, x.notice.source, x.binding, x.phone⟩] } ↔
      k ∈ w.sentKeys ∨ k = x.key := by
    intro k
    rw [hkeys, List.mem_append, List.mem_singleton]
  constructor
  case job => exact h.job
  case inTime => exact h.inTime
  case one => exact h.one
  case addressee => exact h.addressee
  case toSend =>
    intro j y hy hs hk
    rcases (hmem y.key).1 hk with hk | hk
    · exact h.toSend j y hy hs hk
    · obtain rfl := h.one j i y x hy hx hk
      obtain rfl := Option.some.inj (hy.symm.trans hx)
      exact hs hstage
  case unsent =>
    intro k m hm hs hk
    rcases (hmem k).1 hk with hk | rfl
    · exact h.unsent k m hm hs hk
    · obtain rfl : m = n := Option.some.inj (hm.symm.trans hn)
      simp [hsending] at hs
  case log =>
    intro s hs
    rcases List.mem_append.1 hs with hs | hs
    · exact h.log s hs
    · obtain rfl := List.mem_singleton.1 hs
      exact ⟨⟨n, hn, hsource⟩, h.addressee i x hx⟩
  case nodup =>
    rw [hkeys]
    exact List.nodup_append.2 ⟨h.nodup, List.nodup_singleton _, by simpa using fun k hk => ne_of_mem_of_not_mem hk hnew⟩
  case increasing => exact h.increasing
  case posted => exact h.posted
  case turn =>
    intro k m hm hs j a ha hearlier
    refine h.turn k m hm ?_ j a ha hearlier
    rcases hs with hs | hk
    · exact .inl hs
    · rcases (hmem k).1 hk with hk | rfl
      · exact .inr hk
      · obtain rfl : m = n := Option.some.inj (hm.symm.trans hn)
        exact .inl hsending
  case ordered =>
    refine List.pairwise_append.2 ⟨h.ordered, List.pairwise_singleton _ _, fun a ha b hb m c s c' s' has hbs => ?_⟩
    obtain rfl := List.mem_singleton.1 hb
    obtain ⟨⟨k, hk, hks⟩, _⟩ := h.log a ha
    have hns : n.source = .ledger m c' s' := hsource.trans hbs
    have hne : a.key ≠ x.key := ne_of_mem_of_not_mem (List.mem_map_of_mem ha) hnew
    -- a smaller number would be an earlier movement that was already closed when this one was sent
    rcases lt_trichotomy a.key x.key with hlt | heq | hgt
    · exact h.increasing _ _ k n hk hn hlt m c s m c' s' (hks.trans has) hns
    · exact absurd heq hne
    · have hlt := h.increasing _ _ n k hn hk hgt m c' s' m c s hns (hks.trans has)
      refine absurd (.inr hsending) (h.turn a.key k hk (.inr (List.mem_map_of_mem ha)) x.key n hn ?_)
      rw [hns, hks.trans has]
      simpa [Source.earlier] using hlt
  case bindings => exact h.bindings

/-- The claim that goes on to send. -/
theorem claim (h : Sound w) {i k pk : ℕ} {n : Notice} {p : VerifiedPhone} (hi : w.workers i = none)
    (hn : w.notices[k]? = some n) (hq : n.status = .queued) (hblocked : n.blocked w.notices = false)
    (hpk : n.recipientBinding = some pk) (hp : w.phone (some pk) = some p) :
    Sound ((w.write k (n.start w.now)).setWorker i (some ⟨k, n.start w.now, pk, p, w.now, .connection⟩)) := by
  have hlt : k < w.notices.length := (List.getElem?_eq_some_iff.1 hn).1
  have hnk : (w.notices.set k (n.start w.now))[k]? = some (n.start w.now) := by simp [hlt]
  have hold : ∀ (j : ℕ) m, j ≠ k → w.notices[j]? = some m → (w.notices.set k (n.start w.now))[j]? = some m := by
    intro j m hj hm
    rwa [List.getElem?_set_ne (Ne.symm hj)]
  have hfor : w.queuedFor k = some (pk, p) := by
    obtain ⟨q, hq', hfor⟩ := h.bindings k n pk hn hpk
    have hqp : w.phone (some pk) = some q := by simp [World.phone, hq']
    obtain rfl := Option.some.inj (hqp.symm.trans hp)
    exact hfor
  have hworkers : ∀ j y, ((w.write k (n.start w.now)).setWorker i
      (some ⟨k, n.start w.now, pk, p, w.now, .connection⟩)).workers j = some y →
      j = i ∧ y = ⟨k, n.start w.now, pk, p, w.now, .connection⟩ ∨ j ≠ i ∧ w.workers j = some y ∧ y.key ≠ k := by
    intro j y hy
    by_cases hj : j = i
    · rw [hj, World.setWorker_self] at hy
      exact .inl ⟨hj, (Option.some.inj hy).symm⟩
    · rw [World.setWorker_ne _ _ hj] at hy
      exact .inr ⟨hj, hy, h.not_held hn (by simp [hq]) hy⟩
  constructor
  case job =>
    intro j y hy
    rcases hworkers j y hy with ⟨_, rfl⟩ | ⟨_, hy, hne⟩
    · exact ⟨_, hnk, rfl, rfl, rfl⟩
    · obtain ⟨m, hm, hm'⟩ := h.job j y hy
      exact ⟨m, hold y.key m hne hm, hm'⟩
  case inTime =>
    intro j y hy
    rcases hworkers j y hy with ⟨_, rfl⟩ | ⟨_, hy, _⟩
    · exact Nat.lt_add_of_pos_right (by decide)
    · exact h.inTime j y hy
  case one =>
    intro j j' y y' hy hy' hkey
    rcases hworkers j y hy with ⟨rfl, rfl⟩ | ⟨_, hy, hne⟩
    · rcases hworkers j' y' hy' with ⟨rfl, rfl⟩ | ⟨_, hy', hne'⟩
      · rfl
      · exact absurd hkey.symm hne'
    · rcases hworkers j' y' hy' with ⟨rfl, rfl⟩ | ⟨_, hy', hne'⟩
      · exact absurd hkey hne
      · exact h.one j j' y y' hy hy' hkey
  case addressee =>
    intro j y hy
    rcases hworkers j y hy with ⟨_, rfl⟩ | ⟨_, hy, _⟩
    · exact hfor
    · exact h.addressee j y hy
  case toSend =>
    intro j y hy hs
    rcases hworkers j y hy with ⟨_, rfl⟩ | ⟨_, hy, _⟩
    · exact h.unsent k n hn (.inl hq)
    · exact h.toSend j y hy hs
  case unsent =>
    intro j m hm hs
    rcases getElem?_set_cases hm with ⟨rfl, rfl⟩ | ⟨_, hm⟩
    · exact h.unsent j n hn (.inl hq)
    · exact h.unsent j m hm hs
  case log =>
    intro s hs
    obtain ⟨⟨m, hm, hsource⟩, hs'⟩ := h.log s hs
    refine ⟨⟨m, hold s.key m ?_ hm, hsource⟩, hs'⟩
    rintro rfl
    exact h.unsent s.key n hn (.inl hq) (List.mem_map_of_mem hs)
  case nodup => exact h.nodup
  case increasing =>
    intro a b na nb ha hb hab
    have hsrc : ∀ (j : ℕ) m, (w.notices.set k (n.start w.now))[j]? = some m →
        ∃ m', w.notices[j]? = some m' ∧ m'.source = m.source := by
      intro j m hm
      rcases getElem?_set_cases hm with ⟨rfl, rfl⟩ | ⟨_, hm⟩
      · exact ⟨n, hn, rfl⟩
      · exact ⟨m, hm, rfl⟩
    obtain ⟨na', ha', hsa⟩ := hsrc a na ha
    obtain ⟨nb', hb', hsb⟩ := hsrc b nb hb
    rw [← hsa, ← hsb]
    exact h.increasing a b na' nb' ha' hb' hab
  case posted =>
    intro j m hm
    rcases getElem?_set_cases hm with ⟨rfl, rfl⟩ | ⟨_, hm⟩
    · exact h.posted j n hn
    · exact h.posted j m hm
  case turn =>
    intro a na ha hs b nb hb hearlier
    have hfree : ∀ (j : ℕ) m, w.notices[j]? = some m → m.source.earlier n.source = true → ¬ m.status.Open := by
      intro j m hm he hopen
      refine absurd hblocked (Bool.not_eq_false _ ▸ ?_)
      refine List.any_eq_true.2 ⟨m, List.mem_of_getElem? hm, ?_⟩
      rcases hopen with ho | ho <;> simp [he, ho]
    rcases getElem?_set_cases hb with ⟨rfl, rfl⟩ | ⟨_, hnb⟩
    · -- what is claimed was queued, so nothing later is being sent or was sent
      rcases getElem?_set_cases ha with ⟨rfl, rfl⟩ | ⟨_, ha⟩
      · cases hsource : n.source <;> simp [Notice.start, Source.earlier, hsource] at hearlier
      · exact absurd (.inl hq) (h.turn a na ha hs b n hn hearlier)
    · rcases getElem?_set_cases ha with ⟨rfl, rfl⟩ | ⟨_, ha⟩
      · exact hfree b nb hnb hearlier
      · exact h.turn a na ha hs b nb hnb hearlier
  case ordered => exact h.ordered
  case bindings =>
    intro j m pk' hm hpk'
    rcases getElem?_set_cases hm with ⟨rfl, rfl⟩ | ⟨_, hm⟩
    · exact h.bindings j n pk' hn hpk'
    · exact h.bindings j m pk' hm hpk'

theorem bindingOf_eq_some {phones : List (Option VerifiedPhone)} {user pk : ℕ} {p : VerifiedPhone}
    (h : bindingOf phones user = some (pk, p)) : phones[pk]? = some (some p) ∧ p.user = user := by
  obtain ⟨⟨o, j⟩, hmem, ho⟩ := List.exists_of_findSome?_eq_some h
  have hj := List.mem_zipIdx_iff_getElem?.1 hmem
  cases o with
  | none => simp at ho
  | some q =>
    simp only [Option.bind_some] at ho
    split_ifs at ho with hu
    obtain ⟨rfl, rfl⟩ := Prod.mk.inj (Option.some.inj ho)
    exact ⟨hj, hu⟩

/-- A notice is queued for what is new. -/
theorem queue (h : Sound w) (source : Source) (hasProfile : Bool)
    (hnew : ∀ m c s, source = .ledger m c s → s = w.sequence ∧
      ∀ (k : ℕ) (n : Notice), w.notices[k]? = some n → ∀ m' c' s', n.source = .ledger m' c' s' → s' < s) :
    Sound (w.queue phoneDigest source hasProfile) := by
  have hcases : ∀ (k : ℕ) m, (w.queue phoneDigest source hasProfile).notices[k]? = some m →
      w.notices[k]? = some m ∧ k < w.notices.length ∨ k = w.notices.length ∧
        m = .new phoneDigest source (bindingOf w.phones source.customer) hasProfile w.now := by
    intro k m hm
    rcases Nat.lt_trichotomy k w.notices.length with hk | hk | hk
    · rw [World.queue, List.getElem?_append_left hk] at hm
      exact .inl ⟨hm, hk⟩
    · rw [World.queue, hk, List.getElem?_concat_length] at hm
      exact .inr ⟨hk, (Option.some.inj hm).symm⟩
    · rw [World.queue, List.getElem?_eq_none (by simp; omega)] at hm
      cases hm
  have hold : ∀ (k : ℕ) m, w.notices[k]? = some m →
      (w.queue phoneDigest source hasProfile).notices[k]? = some m ∧
        (w.queue phoneDigest source hasProfile).queuedFor k = w.queuedFor k := by
    intro k m hm
    have hk := (List.getElem?_eq_some_iff.1 hm).1
    exact ⟨by rwa [World.queue, List.getElem?_append_left hk], if_neg hk.ne⟩
  have hsentKey : ∀ k, k ∈ w.sentKeys → k < w.notices.length := by
    intro k hk
    obtain ⟨s, hs, rfl⟩ := List.mem_map.1 hk
    obtain ⟨⟨n, hn, _⟩, _⟩ := h.log s hs
    exact (List.getElem?_eq_some_iff.1 hn).1
  have hstatus : (Notice.new phoneDigest source (bindingOf w.phones source.customer) hasProfile w.now).status ≠
      .sending := by
    unfold Notice.new
    dsimp only
    split_ifs <;> simp
  constructor
  case job =>
    intro i x hx
    obtain ⟨n, hn, hn'⟩ := h.job i x hx
    exact ⟨n, (hold x.key n hn).1, hn'⟩
  case inTime => exact h.inTime
  case one => exact h.one
  case addressee =>
    intro i x hx
    obtain ⟨n, hn, _⟩ := h.job i x hx
    exact (hold x.key n hn).2.trans (h.addressee i x hx)
  case toSend => exact h.toSend
  case unsent =>
    intro k m hm hs
    rcases hcases k m hm with ⟨hm, _⟩ | ⟨rfl, _⟩
    · exact h.unsent k m hm hs
    · exact fun hk => absurd (hsentKey _ hk) (lt_irrefl _)
  case log =>
    intro s hs
    obtain ⟨⟨n, hn, hsource⟩, hs'⟩ := h.log s hs
    exact ⟨⟨n, (hold s.key n hn).1, hsource⟩, (hold s.key n hn).2.trans hs'⟩
  case nodup => exact h.nodup
  case increasing =>
    intro j k a b ha hb hjk m c s m' c' s' has hbs
    rcases hcases j a ha with ⟨ha, hj⟩ | ⟨rfl, rfl⟩
    · rcases hcases k b hb with ⟨hb, _⟩ | ⟨rfl, rfl⟩
      · exact h.increasing j k a b ha hb hjk m c s m' c' s' has hbs
      · exact (hnew m' c' s' hbs).2 j a ha m c s has
    · rcases hcases k b hb with ⟨_, hk⟩ | ⟨rfl, _⟩
      · omega
      · omega
  case posted =>
    intro k n hn m c s hs
    rcases hcases k n hn with ⟨hn, _⟩ | ⟨_, rfl⟩
    · exact h.posted k n hn m c s hs
    · exact (hnew m c s hs).1.le
  case turn =>
    intro k n hn hs j a ha hearlier
    rcases hcases k n hn with ⟨hn, hk⟩ | ⟨rfl, rfl⟩
    · rcases hcases j a ha with ⟨ha, _⟩ | ⟨_, rfl⟩
      · exact h.turn k n hn hs j a ha hearlier
      · -- the new movement is none that is earlier than an old one
        exfalso
        cases hsrc : source with
        | event => simp [Notice.new, hsrc, Source.earlier] at hearlier
        | ledger m c s =>
          cases hnsrc : n.source with
          | event => simp [Notice.new, hsrc, hnsrc, Source.earlier] at hearlier
          | ledger m' c' s' =>
            have hlt := (hnew m c s hsrc).2 k n hn m' c' s' hnsrc
            simp only [Notice.new, hsrc, hnsrc, Source.earlier, Bool.and_eq_true, decide_eq_true_eq] at hearlier
            omega
    · rcases hs with hs | hs
      · exact absurd hs hstatus
      · exact absurd (hsentKey _ hs) (lt_irrefl _)
  case ordered => exact h.ordered
  case bindings =>
    intro k n pk hn hpk
    rcases hcases k n hn with ⟨hn, hk⟩ | ⟨rfl, rfl⟩
    · rw [(hold k n hn).2]
      exact h.bindings k n pk hn hpk
    · obtain ⟨⟨pk', p⟩, hb, rfl⟩ := Option.map_eq_some_iff.1 hpk
      exact ⟨p, (bindingOf_eq_some hb).1, (if_pos rfl).trans hb⟩

/-! ### The steps -/

theorem wait (h : Sound w) (seconds : ℕ) : Sound (w.wait seconds) := by
  have hworkers : ∀ i x, (w.wait seconds).workers i = some x → w.workers i = some x ∧
      w.now + seconds < x.started + 45 := by
    intro i x hx
    obtain ⟨hx, ht⟩ := Option.filter_eq_some_iff.1 hx
    exact ⟨hx, by simpa using ht⟩
  refine h.rows rfl le_rfl (fun i x hx => (hworkers i x hx).1) (fun i x hx => (hworkers i x hx).2) (fun _ => .inl rfl)
    rfl fun k n hn => ⟨n, hn, .refl h hn (fun i x hx => (hworkers i x hx).1) fun _ _ _ hp hk => ⟨hp, hk⟩⟩

theorem crash (h : Sound w) (i : ℕ) : Sound (w.setWorker i none) := by
  have hworkers : ∀ j x, (w.setWorker i none).workers j = some x → w.workers j = some x := by
    intro j x hx
    by_cases hj : j = i
    · rw [hj, World.setWorker_self] at hx
      cases hx
    · rwa [World.setWorker_ne _ _ hj] at hx
  exact h.rows rfl le_rfl hworkers (fun j x hx => h.inTime j x (hworkers j x hx)) (fun _ => .inl rfl) rfl
    fun k n hn => ⟨n, hn, .refl h hn hworkers fun _ _ _ hp hk => ⟨hp, hk⟩⟩

theorem enable (h : Sound w) (enabled : Bool) : Sound { w with enabled := enabled } :=
  h.rows rfl le_rfl (fun _ _ hx => hx) h.inTime (fun _ => .inl rfl) rfl fun _ n hn =>
    ⟨n, hn, .refl h hn (fun _ _ hx => hx) fun _ _ _ hp hk => ⟨hp, hk⟩⟩

theorem nextSequence (h : Sound w) : Sound { w with sequence := w.sequence + 1 } :=
  h.rows rfl (Nat.le_succ _) (fun _ _ hx => hx) h.inTime (fun _ => .inl rfl) rfl fun _ n hn =>
    ⟨n, hn, .refl h hn (fun _ _ hx => hx) fun _ _ _ hp hk => ⟨hp, hk⟩⟩

theorem addPhone (h : Sound w) (p : VerifiedPhone) : Sound { w with phones := w.phones ++ [some p] } :=
  h.rows rfl le_rfl (fun _ _ hx => hx) h.inTime (fun _ => .inl rfl) rfl fun _ n hn =>
    ⟨n, hn, .refl h hn (fun _ _ hx => hx) fun pk q _ hq hk =>
      ⟨by rwa [List.getElem?_append_left (List.getElem?_eq_some_iff.1 hq).1], hk⟩⟩

theorem forget (h : Sound w) (pk : ℕ) : Sound (w.forget pk) := by
  refine h.rows rfl le_rfl (fun _ _ hx => hx) h.inTime (fun _ => .inl rfl) (by simp [World.forget]) fun k n' hn' => ?_
  simp only [World.forget, List.getElem?_map] at hn'
  obtain ⟨n, hn, rfl⟩ := Option.map_eq_some_iff.1 hn'
  refine ⟨n, hn, ?_⟩
  unfold Notice.unbind
  by_cases hpk : n.recipientBinding = some pk
  · rw [if_pos hpk]
    have hr : Row w w k n n := .refl h hn (fun _ _ hx => hx) fun _ _ _ hp hk => ⟨hp, hk⟩
    exact ⟨rfl, hr.sending, hr.queued, hr.unsent, hr.held, nofun⟩
  · rw [if_neg hpk]
    refine .refl h hn (fun _ _ hx => hx) fun pk' p hpk' hp hk => ⟨?_, hk⟩
    have hne : pk ≠ pk' := fun he => hpk (he ▸ hpk')
    simpa [World.forget, List.getElem?_set_ne hne] using hp

theorem recover (h : Sound w) : Sound w.recoverNotices := by
  unfold World.recoverNotices
  split_ifs
  · exact h
  refine h.rows rfl le_rfl (fun _ _ hx => hx) h.inTime (fun _ => .inl rfl) (by simp) fun k n' hn' => ?_
  simp only [List.getElem?_map] at hn'
  obtain ⟨n, hn, rfl⟩ := Option.map_eq_some_iff.1 hn'
  refine ⟨n, hn, ?_⟩
  by_cases hold : n.status = .sending ∧ n.startedAt.any (· + 600 ≤ w.now)
  · rw [if_pos hold]
    constructor
    case source => rfl
    case sending => exact nofun
    case queued => exact nofun
    case unsent => simp [Notice.lose]
    case held =>
      -- a worker of a notice that old has been ended by its time limit
      intro i x hx hk
      obtain ⟨m, hm, _, hstarted, _⟩ := h.job i x hx
      rw [hk, hn] at hm
      obtain rfl := Option.some.inj hm
      have ht := h.inTime i x hx
      have h600 := hold.2
      rw [hstarted, Option.any_some, decide_eq_true_eq] at h600
      exact absurd (le_trans (Nat.add_le_add_left (by decide) _) h600) (not_le.2 ht)
    case binding => exact fun pk hpk => h.bindings k n pk hn hpk
  · rw [if_neg hold]
    exact .refl h hn (fun _ _ hx => hx) fun _ _ _ hp hk => ⟨hp, hk⟩

theorem resume (h : Sound w) {pk : ℕ} {p : VerifiedPhone} (hp : w.phones[pk]? = some (some p)) (key : Option ℕ)
    (memberActive : Bool) : Sound (w.resumeWelcome phoneDigest pk p key memberActive) := by
  unfold World.resumeWelcome
  split
  · exact h
  split
  · exact h
  rename_i key _ n hn
  split_ifs with hawaits
  · simp only [Notice.awaitsProof, Bool.and_eq_true, beq_iff_eq] at hawaits
    obtain ⟨_, ⟨⟨⟨⟨hevent, _⟩, _⟩, hskipped⟩, _⟩, _⟩ := hawaits
    have hkey : key ∉ w.sentKeys := h.unsent key n hn (.inr hskipped)
    have hheld : ∀ i x, w.workers i = some x → x.key ≠ key := fun i x hx => h.not_held hn (by simp [hskipped]) hx
    refine h.set hn rfl rfl rfl rfl (fun _ _ hx => hx) (fun _ _ hq => hq) (fun j hj => if_neg hj)
      (.inr ⟨hkey, hheld⟩) ?_
    constructor
    case source => rfl
    case sending => exact nofun
    case queued =>
      refine fun _ => .inr fun a => ?_
      cases hsource : n.source with
      | ledger => simp [hsource, Source.isEvent] at hevent
      | event => cases a <;> simp [Source.earlier]
    case unsent => exact fun _ => .inr (.inl hskipped)
    case held => exact fun i x hx hk => absurd hk (hheld i x hx)
    case binding =>
      intro pk' hpk'
      obtain rfl : pk = pk' := Option.some.inj hpk'
      exact ⟨p, hp, if_pos rfl⟩
  · exact h

theorem deliver (h : Sound w) (i key : ℕ) (c : Claim) : Sound (w.deliver phoneDigest i key c) := by
  unfold World.deliver
  split
  case h_2 => exact h
  rename_i n hi hn
  split_ifs
  · exact h
  unfold World.decision
  by_cases hq : n.status ≠ .queued ∨ w.now < n.nextAttemptAt
  · rw [if_pos hq]
    exact h
  rw [if_neg hq]
  have hqueued : n.status = .queued := by
    by_contra hne
    exact hq (.inl hne)
  have hskip : ∀ code, ¬ (n.skip code).status.Open := fun code ho => by simp [Notice.skip, Status.Open] at ho
  split_ifs with h1 h2 h3 h4 h5
  · exact h.close hn hqueued rfl rfl (hskip _)
  · exact h.close hn hqueued rfl rfl (hskip _)
  · exact h
  · exact h
  · exact h.close hn hqueued rfl rfl fun ho => by simp [Notice.fail, Status.Open] at ho
  · cases hpk : n.recipientBinding with
    | none => exact h
    | some pk =>
      cases hp : w.phone (some pk) with
      | none => exact h
      | some p => exact h.claim hi hn hqueued (by simpa using h3) hpk hp

theorem step (h : Sound w) (a : Action) : Sound (step phoneDigest w a) := by
  cases a with
  | wait seconds => exact h.wait seconds
  | enable enabled => exact h.enable enabled
  | post member customer hasProfile saved =>
    unfold Notices.step World.queueNotice
    dsimp only
    split_ifs
    · exact h.nextSequence
    · refine h.nextSequence.queue _ hasProfile fun m c s hs => ?_
      obtain ⟨rfl, rfl, rfl⟩ := Source.ledger.inj hs
      exact ⟨rfl, fun k n hn m' c' s' hs' => Nat.lt_succ_of_le (h.posted k n hn m' c' s' hs')⟩
    · exact h.nextSequence
  | record member customer kind fromHistory ofLedger hasProfile saved =>
    unfold Notices.step World.queueLifecycle
    dsimp only
    cases member with
    | none => split_ifs <;> exact h
    | some member =>
      dsimp only
      split_ifs
      · exact h
      · exact h.queue _ hasProfile fun m c s hs => nomatch hs
      · exact h
  | verify user phone version resumed memberActive =>
    unfold Notices.step World.verify
    dsimp only
    split_ifs
    · exact h
    · exact (h.addPhone _).resume (by simp) resumed memberActive
  | forget binding => exact h.forget binding
  | deliver i key c => exact h.deliver i key c
  | connect i =>
    unfold Notices.step
    dsimp only
    split
    · rename_i x hx
      split_ifs with hs
      · exact h.advance hx (by simp [hs]) .check
      · exact h
    · exact h
  | recheck i =>
    unfold Notices.step
    dsimp only
    split
    · rename_i x hx
      split_ifs with hs hc
      · exact h.advance hx (by simp [hs]) .send
      · exact h.finish hx (fun _ => rfl) (fun _ => rfl) (fun _ => nofun) fun _ _ => by simp [hs]
      · exact h
    · exact h
  | sendImage i =>
    unfold Notices.step
    dsimp only
    split
    · rename_i x hx
      split_ifs with hs
      · have hadvance := h.advance hx (by simp [hs]) .outcome
        exact hadvance.send (x := { x with stage := .outcome }) (World.setWorker_self ..) rfl
          (h.toSend i x hx (by simp [hs]))
      · exact h
    · exact h
  | answer i reference =>
    unfold Notices.step
    dsimp only
    split
    · rename_i x hx
      split_ifs with hs
      · exact h.finish hx (fun _ => rfl) (fun _ => rfl) (fun _ => nofun) fun _ hq => by simp [Notice.accept] at hq
      · exact h
    · exact h
  | raise i =>
    unfold Notices.step
    dsimp only
    split
    · rename_i x hx
      split_ifs with hs
      · exact h.finish hx (fun _ => rfl) (fun _ => rfl) (fun _ => nofun) fun _ _ => by rcases hs with hs | hs <;> simp [hs]
      · exact h.finish hx (fun _ => rfl) (fun _ => rfl) (fun _ => nofun) fun _ hq => by simp [Notice.lose] at hq
    · exact h
  | crash i => exact h.crash i
  | recover => exact h.recover

variable (phoneDigest) in
theorem after (as : List Action) : Sound (after phoneDigest as) :=
  Machine.run_inv (fun _ a h => h.step a) of_initial as

end Sound

/-! ### What is settled stays -/

section Settled

variable {n m : Notice} {j k : ℕ}

theorem Notice.not_settled_of_open (h : n.status.Open) : ¬ n.Settled := by
  rcases h with h | h <;> simp [Notice.Settled, h]

/-- The notice is still what it is about, and where it was. -/
def World.Keeps (w w' : World) : Prop :=
  ∀ (k : ℕ) n, w.notices[k]? = some n → n.Settled →
    ∃ n', w'.notices[k]? = some n' ∧ n'.source = n.source ∧ n'.status = n.status ∧ n'.errorCode = n.errorCode

namespace World.Keeps

theorem of_notices (h : w'.notices = w.notices) : w.Keeps w' := by
  intro k n hn _
  exact ⟨n, h ▸ hn, rfl, rfl, rfl⟩

/-- A write to a notice that is not settled. -/
theorem set (hm : w.notices[j]? = some m) (hset : ¬ m.Settled) {m' : Notice}
    (h : w'.notices = w.notices.set j m') : w.Keeps w' := by
  intro k n hn hs
  have hjk : j ≠ k := by
    rintro rfl
    obtain rfl := Option.some.inj (hm.symm.trans hn)
    exact hset hs
  exact ⟨n, by rwa [h, List.getElem?_set_ne hjk], rfl, rfl, rfl⟩

theorem map {f : Notice → Notice} (h : w'.notices = w.notices.map f)
    (hf : ∀ n, n.Settled → (f n).source = n.source ∧ (f n).status = n.status ∧ (f n).errorCode = n.errorCode) :
    w.Keeps w' := by
  intro k n hn hs
  exact ⟨f n, by simp [h, hn], hf n hs⟩

theorem trans {u v : World} (h : w.Keeps u) (h' : u.Keeps v) : w.Keeps v := by
  intro k n hn hs
  obtain ⟨m, hm, hsource, hstatus, hcode⟩ := h k n hn hs
  obtain ⟨m', hm', hsource', hstatus', hcode'⟩ := h' k m hm (by rwa [Notice.Settled, hsource, hstatus, hcode])
  exact ⟨m', hm', hsource'.trans hsource, hstatus'.trans hstatus, hcode'.trans hcode⟩

theorem update (w : World) (key i : ℕ) (f : Notice → Notice) : w.Keeps (w.finish i key f) := by
  unfold World.finish World.update
  split
  · rename_i m hm
    split_ifs with hs
    · exact set hm (Notice.not_settled_of_open (.inr hs)) rfl
    · exact of_notices rfl
  · exact of_notices rfl

theorem queue (w : World) (source : Source) (hasProfile : Bool) :
    w.Keeps (w.queue phoneDigest source hasProfile) := by
  intro k n hn _
  have hk := (List.getElem?_eq_some_iff.1 hn).1
  exact ⟨n, by rwa [World.queue, List.getElem?_append_left hk], rfl, rfl, rfl⟩

theorem deliver (w : World) (i key : ℕ) (c : Claim) : w.Keeps (w.deliver phoneDigest i key c) := by
  unfold World.deliver
  split
  case h_2 => exact of_notices rfl
  rename_i n _ hn
  split_ifs
  · exact of_notices rfl
  unfold World.decision
  by_cases hq : n.status ≠ .queued ∨ w.now < n.nextAttemptAt
  · rw [if_pos hq]
    exact of_notices rfl
  rw [if_neg hq]
  have hset : ¬ n.Settled := by
    refine Notice.not_settled_of_open (.inl ?_)
    by_contra hne
    exact hq (.inl hne)
  split_ifs
  · exact set hn hset rfl
  · exact set hn hset rfl
  · exact of_notices rfl
  · exact of_notices rfl
  · exact set hn hset rfl
  · cases n.recipientBinding with
    | none => exact of_notices rfl
    | some pk =>
      cases w.phone (some pk) with
      | none => exact of_notices rfl
      | some p => exact set hn hset rfl

theorem resume (w : World) (pk : ℕ) (p : VerifiedPhone) (key : Option ℕ) (memberActive : Bool) :
    w.Keeps (w.resumeWelcome phoneDigest pk p key memberActive) := by
  unfold World.resumeWelcome
  split
  · exact of_notices rfl
  split
  · exact of_notices rfl
  rename_i m hm
  split_ifs with hawaits
  · refine set hm ?_ rfl
    simp only [Notice.awaitsProof, Bool.and_eq_true, beq_iff_eq] at hawaits
    obtain ⟨_, ⟨⟨⟨⟨hevent, _⟩, _⟩, hskipped⟩, hcode⟩, _⟩ := hawaits
    rintro (hs | hs | hs | ⟨_, hs⟩)
    · simp [hskipped] at hs
    · simp [hskipped] at hs
    · simp [hskipped] at hs
    · exact hs ⟨hevent, hcode⟩
  · exact of_notices rfl

theorem step (w : World) (a : Action) : w.Keeps (step phoneDigest w a) := by
  cases a with
  | wait | enable | crash => exact of_notices rfl
  | post member customer hasProfile saved =>
    unfold Notices.step World.queueNotice
    dsimp only
    split_ifs
    · exact of_notices rfl
    · exact queue { w with sequence := w.sequence + 1 } _ hasProfile
    · exact of_notices rfl
  | record member customer kind fromHistory ofLedger hasProfile saved =>
    unfold Notices.step World.queueLifecycle
    dsimp only
    cases member with
    | none => split_ifs <;> exact of_notices rfl
    | some member =>
      dsimp only
      split_ifs
      · exact of_notices rfl
      · exact queue w _ hasProfile
      · exact of_notices rfl
  | verify user phone version resumed memberActive =>
    unfold Notices.step World.verify
    dsimp only
    split_ifs
    · exact of_notices rfl
    · have hphones : w.Keeps { w with phones := w.phones ++ [some ⟨user, phone, version⟩] } := of_notices rfl
      exact hphones.trans (resume _ _ _ resumed memberActive)
  | forget binding =>
    refine map rfl fun n _ => ?_
    unfold Notice.unbind
    split_ifs <;> exact ⟨rfl, rfl, rfl⟩
  | deliver i key c => exact deliver w i key c
  | connect i =>
    unfold Notices.step
    dsimp only
    split
    · split_ifs <;> exact of_notices rfl
    · exact of_notices rfl
  | sendImage i =>
    unfold Notices.step
    dsimp only
    split
    · split_ifs <;> exact of_notices rfl
    · exact of_notices rfl
  | recheck i =>
    unfold Notices.step
    dsimp only
    split
    · split_ifs
      · exact of_notices rfl
      · exact update w _ i _
      · exact of_notices rfl
    · exact of_notices rfl
  | answer i reference =>
    unfold Notices.step
    dsimp only
    split
    · split_ifs
      · exact update w _ i _
      · exact of_notices rfl
    · exact of_notices rfl
  | raise i =>
    unfold Notices.step
    dsimp only
    split
    · split_ifs
      · exact update w _ i _
      · exact update w _ i _
    · exact of_notices rfl
  | recover =>
    unfold Notices.step World.recoverNotices
    dsimp only
    split_ifs
    · exact of_notices rfl
    · refine map rfl fun n hs => ?_
      have hne : n.status ≠ .sending := fun h => Notice.not_settled_of_open (.inr h) hs
      simp [hne]

variable (phoneDigest) in
theorem run (w : World) (as : List Action) : w.Keeps (Machine.run (Notices.step phoneDigest) w as) := by
  induction as generalizing w with
  | nil => exact of_notices rfl
  | cons a as ih => exact (step w a).trans (ih _)

end World.Keeps

end Settled

/--
Whatever tasks are started, and whatever the provider does: `send_image` is called at most once for a notice, for the
movements of a member in the order of the ledger, and for the phone that the notice was queued for; and a notice that
is settled stays where it is.
-/
theorem notices_sent_once (phoneDigest : String → String) (as : List Action) :
    (after phoneDigest as).sentKeys.Nodup ∧
      (after phoneDigest as).sent.Pairwise (fun a b =>
        ∀ m c s c' s', a.source = .ledger m c s → b.source = .ledger m c' s' → s < s') ∧
      (∀ s ∈ (after phoneDigest as).sent,
        (∃ n, (after phoneDigest as).notices[s.key]? = some n ∧ n.source = s.source) ∧
          (after phoneDigest as).queuedFor s.key = some (s.binding, s.phone)) ∧
      ∀ (k : ℕ) n bs, (after phoneDigest as).notices[k]? = some n → n.Settled →
        ∃ n', (after phoneDigest (as ++ bs)).notices[k]? = some n' ∧ n'.status = n.status ∧
          n'.errorCode = n.errorCode := by
  have h := Sound.after phoneDigest as
  refine ⟨h.nodup, h.ordered, h.log, fun k n bs hn hs => ?_⟩
  obtain ⟨n', hn', _, hkept⟩ := World.Keeps.run phoneDigest (after phoneDigest as) bs k n hn hs
  exact ⟨n', by rwa [Notices.after, Machine.run_append], hkept⟩

/-- A movement is posted, sent and accepted; the task is started once more, and the worker of the first dies late. -/
theorem notices_sent_once_accepted :
    let sent : List Action := [.verify 1 "966500000000" 7 none true, .post 3 1 true true,
      .deliver 0 0 ⟨true, true, true, true, true, true, true⟩, .connect 0, .recheck 0, .sendImage 0, .answer 0 "m1"]
    (after id sent).queuedFor 0 = some (0, ⟨1, "966500000000", 7⟩) ∧
      ∃ n, (after id (sent ++ [.deliver 0 0 ⟨true, true, true, true, true, true, true⟩, .raise 0])).notices[0]? =
        some n ∧ n.status = .accepted := by
  intro sent
  have h := notices_sent_once id sent
  obtain ⟨n, hn, hs, _⟩ := h.2.2.2 0 _ [.deliver 0 0 ⟨true, true, true, true, true, true, true⟩, .raise 0] rfl (.inl rfl)
  exact ⟨(h.2.2.1 ⟨0, .ledger 3 1 1, 0, ⟨1, "966500000000", 7⟩⟩ (by decide +kernel)).2, n, hn, hs⟩

end Apartments.Notices
