import Apartments.Mornings.Queue

/-!
# What the queue hands out, and to whom

The workers of the queue and the gateway in one machine, with two ghost lists: who claimed which reservation, and who
was handed which job. A row is only ever rewritten as `Kept` says, so a job that was told to be sent is never pending
again, and the owner of a lease is the last worker the job was handed to, for the revision its stay still has.
-/

namespace Apartments.Morning

open Payments Verification Machine

/-- Who claimed the reservation of a stay, for which revision, and when. -/
structure Claim where
  stay : Uuid
  worker : String
  revision : ℕ
  claimedAt : Time
deriving DecidableEq

/-- Who was handed a job, for which revision, and whether to send it. -/
structure Lease where
  jobKey : String
  worker : String
  revision : ℕ
  sent : Bool
deriving DecidableEq

structure Works (H : Type) where
  queue : Queue
  gateway : Gateway H
  claims : List Claim
  leases : List Lease

inductive WorkAct (F : Type)
  | tick (seconds : ℕ)
  | enable (enabled : Bool)
  | ingest (s : Snapshot)
  | claimBooking (worker : String) (apartments : List ℕ) (skipped : List Uuid)
  | eventClaimBooking (worker : String) (stay : Uuid) (revision : ℕ) (apartments : List ℕ) (skipped : List Uuid)
  | prepare (stay : Uuid) (revision : ℕ) (worker : String) (batch : List JobAsked)
  | next (worker : String) (skipped : List String)
  | eventNext (worker : String) (stay : Uuid) (revision : ℕ) (skipped : List String)
  | result (key : String) (worker : String) (result : Queue.JobResult)
  | sendMessage (s : Stay F) (attempts : List MorningPaymentAttempt) (token : Option DeliveryToken)
      (request : Option Message)
  | call (i : ℕ) (send : UltraMsg.Send)
  | record (i : ℕ)

namespace Works

variable {F H : Type} [DecidableEq H]

def claimed (w : Works H) (worker : String) (q : Queue × Option Reservation) : Works H :=
  { w with
    queue := q.1
    claims := w.claims ++ q.2.toList.map fun r => ⟨r.stay, worker, r.revision, w.queue.now⟩ }

def handed (w : Works H) (worker : String) (q : Queue × Queue.Handout) : Works H :=
  { w with
    queue := q.1
    leases := w.leases ++
      match q.2 with
      | .idle => []
      | .send j _ => [⟨j.jobKey, worker, j.revision, true⟩]
      | .check j _ => [⟨j.jobKey, worker, j.revision, false⟩] }

def step (g : GatewaySite H) (w : Works H) : WorkAct F → Works H
  | .tick seconds => { w with queue := { w.queue with now := w.queue.now + seconds } }
  | .enable enabled => { w with queue := { w.queue with enabled := enabled } }
  | .ingest s => { w with queue := (w.queue.ingest s).1 }
  | .claimBooking worker apartments skipped =>
    w.claimed worker (w.queue.claimBooking worker apartments.contains skipped)
  | .eventClaimBooking worker stay revision apartments skipped =>
    w.claimed worker (w.queue.eventClaimBooking worker stay revision apartments.contains skipped)
  | .prepare stay revision worker batch => { w with queue := (w.queue.prepare g.md5 stay revision worker batch).1 }
  | .next worker skipped => w.handed worker (w.queue.next g.md5 worker skipped)
  | .eventNext worker stay revision skipped =>
    w.handed worker (w.queue.eventNext g.md5 worker stay revision skipped)
  | .result key worker result => { w with queue := (w.queue.result key worker result).1 }
  | .sendMessage s attempts token request =>
    { w with gateway := (w.gateway.sendMessage g s attempts w.queue.now token request).1 }
  | .call i send => { w with gateway := w.gateway.call i send }
  | .record i => { w with gateway := w.gateway.record i }

/-- Nothing has been ingested, handed out or sent yet. -/
structure Fresh (w : Works H) : Prop where
  queue : w.queue.reservations = [] ∧ w.queue.jobs = []
  gateway : w.gateway.senders = [] ∧ w.gateway.called = []
  logs : w.claims = [] ∧ w.leases = []

/-- The last worker that claimed the stay. -/
def lastClaim (w : Works H) (stay : Uuid) : Option Claim := (w.claims.filter (·.stay == stay)).getLast?

end Works

/-! ### Rewriting a job -/

/-- A row as every function but a hand-out rewrites it. -/
structure Job.Kept (x y : Job) : Prop where
  key : y.jobKey = x.jobKey
  stay : y.stay = x.stay
  fresh : y.state = .pending → (x.state = .pending → x.attempts = 0) → y.attempts = 0
  attempts : y.attempts = x.attempts
  lease : y.leaseOwner.isSome → y.state.posted = true →
    y.leaseOwner = x.leaseOwner ∧ x.state.posted = true ∧ y.revision = x.revision
  delivered : x.state = .delivered → y = x

namespace Job.Kept

variable {x : Job} {q : Queue} {r : Reservation} {m : JobAsked} {now : Time} {scope : Scope}

theorem refl (x : Job) : x.Kept x := ⟨rfl, rfl, fun h h' => h' h, rfl, fun _ h => ⟨rfl, h, rfl⟩, fun _ => rfl⟩

theorem superseded (stay : Uuid) : x.Kept (x.superseded stay) := by
  unfold Job.superseded
  split
  · rename_i h
    exact ⟨rfl, rfl, fun h' => (by cases h'), rfl, fun h' => (by cases h'), fun h' => (by simp [h', JobState.unfinished] at h)⟩
  · exact refl x

theorem revived : x.Kept (q.revived r m x) := by
  unfold Queue.revived
  split
  · exact refl x
  · rename_i h
    refine ⟨rfl, rfl, fun h' _ => ?_, rfl, fun h' => (by cases h'), fun h' => absurd h' h⟩
    dsimp only at h'
    split at h'
    · cases h'
    · rename_i h0
      exact Nat.eq_zero_of_not_pos h0

theorem expire : x.Kept (Queue.expire now scope x) := by
  unfold Queue.expire
  split
  · rename_i h
    exact ⟨rfl, rfl, fun h' => (by cases h'), rfl, fun _ h' => (by simp [JobState.posted] at h'),
      fun h' => (by simp [h', JobState.unfinished] at h)⟩
  · exact refl x

theorem fail : x.Kept (Queue.fail now scope x) := by
  unfold Queue.fail
  split
  · rename_i h
    exact ⟨rfl, rfl, fun h' => (by cases h'), rfl, fun h' => (by cases h'), fun h' => (by simp [h', JobState.posted] at h)⟩
  · exact refl x

theorem recorded {worker : String} {result : Queue.JobResult} (h : Queue.holds worker x = true) :
    x.Kept (Queue.recorded now result x) := by
  have hp : x.state.posted = true := (Bool.and_eq_true_iff.1 h).2
  refine ⟨rfl, rfl, fun h' => ?_, rfl, fun h' => (by cases h'), fun h' => (by simp [h', JobState.posted] at hp)⟩
  simp only [Queue.recorded] at h'
  split at h' <;> cases h'

end Job.Kept

/-! ### The rows of the jobs -/

/-- The last of the hand-outs of a job. -/
def lastOf (leases : List Lease) (key : String) : Option Lease := (leases.filter (·.jobKey == key)).getLast?

/-- What the rows say of the hand-outs, on the reservations of `q`. -/
structure JobsOk (q : Queue) (leases : List Lease) (jobs : List Job) : Prop where
  keys : (jobs.map (·.jobKey)).Nodup
  fresh : ∀ j ∈ jobs, j.state = .pending → j.attempts = 0
  sent : ∀ l ∈ leases, l.sent = true → ∃ j ∈ jobs, j.jobKey = l.jobKey ∧ 0 < j.attempts
  lease : ∀ j ∈ jobs, ∀ worker, j.leaseOwner = some worker → j.state.posted = true →
    (∃ sent, lastOf leases j.jobKey = some ⟨j.jobKey, worker, j.revision, sent⟩) ∧ (q.current j).isSome = true

section Jobs

variable {q q' : Queue} {leases : List Lease} {jobs jobs' jobs'' : List Job} {j : Job} {f : Job → Job}

theorem current_congr {x y : Job} (hs : y.stay = x.stay) (hr : y.revision = x.revision) : q.current y = q.current x := by
  rw [Queue.current, Queue.current, hs, hr]

theorem JobsOk.map (h : JobsOk q leases jobs) (hf : ∀ x ∈ jobs, x.Kept (f x)) : JobsOk q leases (jobs.map f) := by
  refine ⟨?_, fun y hy hp => ?_, fun l hl hs => ?_, fun y hy worker hw hp => ?_⟩
  · rw [List.map_map]
    exact (List.map_congr_left fun x hx => (hf x hx).key) ▸ h.keys
  · obtain ⟨x, hx, rfl⟩ := List.mem_map.1 hy
    exact (hf x hx).fresh hp (h.fresh x hx)
  · obtain ⟨x, hx, hk, ha⟩ := h.sent l hl hs
    exact ⟨f x, List.mem_map_of_mem hx, (hf x hx).key.trans hk, (hf x hx).attempts.symm ▸ ha⟩
  · obtain ⟨x, hx, rfl⟩ := List.mem_map.1 hy
    obtain ⟨ho, hp', hr⟩ := (hf x hx).lease (by rw [hw]; rfl) hp
    rw [current_congr (hf x hx).stay hr, (hf x hx).key, hr]
    exact h.lease x hx worker (ho.symm.trans hw) hp'

theorem JobsOk.push (h : JobsOk q leases jobs) (hnew : Table.get Job.jobKey jobs j.jobKey = none)
    (hj : j.attempts = 0 ∧ j.leaseOwner = none) : JobsOk q leases (jobs ++ [j]) := by
  refine ⟨?_, fun y hy hp => ?_, fun l hl hs => ?_, fun y hy worker hw hp => ?_⟩
  · rw [List.map_append]
    refine List.nodup_append'.2 ⟨h.keys, by simp, ?_⟩
    simpa using Table.get_eq_none.1 hnew
  · rcases List.mem_append.1 hy with hy | hy
    · exact h.fresh y hy hp
    · rw [List.mem_singleton.1 hy]
      exact hj.1
  · obtain ⟨x, hx, hk⟩ := h.sent l hl hs
    exact ⟨x, List.mem_append_left _ hx, hk⟩
  · rcases List.mem_append.1 hy with hy | hy
    · exact h.lease y hy worker hw hp
    · rw [List.mem_singleton.1 hy, hj.2] at hw
      cases hw

/-- The rows go on as the functions rewrite them: they stay sound, and a delivered job stays as it is. -/
def Evolves (q : Queue) (leases : List Lease) (jobs jobs' : List Job) : Prop :=
  JobsOk q leases jobs → JobsOk q leases jobs' ∧ ∀ j ∈ jobs, j.state = .delivered → j ∈ jobs'

theorem Evolves.refl : Evolves q leases jobs jobs := fun h => ⟨h, fun _ hj _ => hj⟩

theorem Evolves.trans (h : Evolves q leases jobs jobs') (h' : Evolves q leases jobs' jobs'') :
    Evolves q leases jobs jobs'' := fun hok =>
  ⟨(h' (h hok).1).1, fun j hj hd => (h' (h hok).1).2 j ((h hok).2 j hj hd) hd⟩

theorem Evolves.map (hf : ∀ x ∈ jobs, x.Kept (f x)) : Evolves q leases jobs (jobs.map f) := fun hok =>
  ⟨hok.map hf, fun j hj hd => List.mem_map.2 ⟨j, hj, (hf j hj).delivered hd⟩⟩

theorem Evolves.modify {key : String} (hf : ∀ x ∈ jobs, x.jobKey = key → x.Kept (f x)) :
    Evolves q leases jobs (Table.modify Job.jobKey jobs key f) :=
  Evolves.map fun x hx => by
    split
    · exact hf x hx (by assumption)
    · exact .refl x

theorem Evolves.insert (h : Queue.insertJob jobs j f = some jobs') (hf : ∀ x ∈ jobs, x.Kept (f x))
    (hj : j.attempts = 0 ∧ j.leaseOwner = none) : Evolves q leases jobs jobs' := by
  unfold Queue.insertJob at h
  split_ifs at h with hget hany
  · cases h
    exact Evolves.modify fun x hx _ => hf x hx
  · cases h
    have hnone : Table.get Job.jobKey jobs j.jobKey = none := by simpa using hget
    exact fun hok => ⟨hok.push hnone hj, fun x hx _ => List.mem_append_left _ hx⟩

/-- A fold that may fail keeps what each of its steps keeps. -/
theorem foldlM_inv {α β : Type*} {P : β → Prop} {f : β → α → Option β} {l : List α}
    (hstep : ∀ a ∈ l, ∀ b b', P b → f b a = some b' → P b') {b b' : β} (h : l.foldlM f b = some b') (h0 : P b) :
    P b' := by
  induction l generalizing b with
  | nil =>
    cases h
    exact h0
  | cons a l ih =>
    rw [List.foldlM_cons] at h
    obtain ⟨c, hc, hl⟩ := Option.bind_eq_some_iff.1 h
    exact ih (fun a ha => hstep a (List.mem_cons_of_mem _ ha)) hl (hstep a List.mem_cons_self b c h0 hc)

theorem Evolves.prepared {md5 : String → String} {r : Reservation} {batch : List JobAsked}
    (h : batch.foldlM (q.prepareJob md5 r) jobs = some jobs') : Evolves q' leases jobs jobs' := by
  refine foldlM_inv (P := Evolves q' leases jobs) (fun m _ b b' hb hm => hb.trans ?_) h .refl
  unfold Queue.prepareJob at hm
  split_ifs at hm
  exact Evolves.insert hm (fun x _ => Job.Kept.revived) ⟨rfl, rfl⟩

theorem Evolves.swept {md5 : String → String} {scope : Scope} (h : q.swept md5 scope = some jobs') :
    Evolves q' leases q.jobs jobs' := by
  have hexpire : Evolves q' leases q.jobs (q.jobs.map (Queue.expire q.now scope)) :=
    Evolves.map fun _ _ => Job.Kept.expire
  refine hexpire.trans ((Evolves.map fun _ _ => Job.Kept.fail).trans
    (foldlM_inv (P := Evolves q' leases _) (fun j _ b b' hb hj => hb.trans ?_) h .refl))
  unfold Queue.attend at hj
  split_ifs at hj
  · split at hj
    · cases hj
      exact .refl
    · exact Evolves.insert hj (fun x _ => .refl x) ⟨rfl, rfl⟩
  · cases hj
    exact .refl

end Jobs

/-! ### The functions -/

section Functions

variable {q : Queue} {stay : Uuid} {f : Reservation → Reservation} {j : Job} {leases : List Lease} {md5 : String → String}
  {scope : Scope} {worker : String} {skipped : List String}

theorem current_isSome : (q.current j).isSome = true ↔ ∃ r, q.reservation j.stay = some r ∧ r.revision = j.revision := by
  rw [Queue.current]
  cases q.reservation j.stay <;> simp [Option.filter]

theorem JobsOk.congr {q' : Queue} {jobs : List Job} (h : JobsOk q leases jobs)
    (hc : ∀ x ∈ jobs, x.leaseOwner.isSome → x.state.posted = true → (q.current x).isSome → (q'.current x).isSome) :
    JobsOk q' leases jobs :=
  ⟨h.keys, h.fresh, h.sent, fun x hx worker hw hp =>
    ⟨(h.lease x hx worker hw hp).1, hc x hx (by rw [hw]; rfl) hp (h.lease x hx worker hw hp).2⟩⟩

theorem reservation_modify (hf : ∀ r, (f r).stay = r.stay) (x : Uuid) :
    (q.modifyReservation stay f).reservation x = if x = stay then (q.reservation x).map f else q.reservation x := by
  split
  · rename_i hx
    subst hx
    exact Table.get_modify_self fun r hr => (hf r).trans hr
  · rename_i hx
    exact Table.get_modify_ne (fun r hr => (hf r).trans hr) hx

/-- A reservation that keeps its revision keeps its jobs current. -/
theorem current_modify (hf : ∀ r, (f r).stay = r.stay ∧ (f r).revision = r.revision) (h : (q.current j).isSome = true) :
    ((q.modifyReservation stay f).current j).isSome = true := by
  obtain ⟨r, hr, hv⟩ := current_isSome.1 h
  rw [current_isSome, reservation_modify fun r => (hf r).1]
  split
  · exact ⟨f r, by rw [hr]; rfl, (hf r).2.trans hv⟩
  · exact ⟨r, hr, hv⟩

theorem ingest_cases (q : Queue) (s : Snapshot) :
    (q.ingest s).1 = q ∨
    (q.reservation s.stay = none ∧
      (q.ingest s).1 = { q with reservations := q.reservations ++ [newReservation s q.now] }) ∨
    ∃ r, (q.enabled = true ∧ s.valid = true) ∧ q.reservation s.stay = some r ∧ r.revision < s.revision ∧
      (q.ingest s).1 =
        { q with jobs := q.jobs.map (Job.superseded s.stay) }.modifyReservation s.stay
          (Reservation.revised s q.now) := by
  unfold Queue.ingest
  split
  · exact .inl rfl
  rename_i hopen
  split
  · exact .inr (.inl ⟨by assumption, rfl⟩)
  rename_i r hr
  split
  · exact .inl rfl
  split
  · exact .inl rfl
  · exact .inr (.inr ⟨r, by simpa using hopen, hr, by omega, rfl⟩)

theorem claimWith_cases (q : Queue) (scope : Scope) (worker : String) (apartment : ℕ → Bool) (skipped : List Uuid) :
    ((q.claimWith scope worker apartment skipped) = (q, none)) ∨
    ∃ r ∈ q.reservations, q.claimWith scope worker apartment skipped =
      (q.modifyReservation r.stay fun r => { r with prepareOwner := some worker, prepareUntil := some (q.now + 90) },
        some r) := by
  unfold Queue.claimWith
  split
  · exact .inl rfl
  rename_i r hr
  split
  · exact .inl rfl
  · exact .inr ⟨r, List.mem_of_mem_filter (Table.mem_of_first hr), rfl⟩

theorem prepare_cases (q : Queue) (md5 : String → String) (stay : Uuid) (revision : ℕ) (worker : String)
    (batch : List JobAsked) :
    (q.prepare md5 stay revision worker batch) = (q, false) ∨
    ∃ r jobs, q.reservation stay = some r ∧ q.prepares revision worker r = true ∧
      batch.foldlM (q.prepareJob md5 r) q.jobs = some jobs ∧
      q.prepare md5 stay revision worker batch =
        ({ q with jobs := jobs }.modifyReservation stay fun r =>
            { r with preparedRevision := revision, prepareOwner := none, prepareUntil := none }, true) := by
  unfold Queue.prepare
  split
  · exact .inl rfl
  rename_i r hr
  split
  · exact .inl rfl
  rename_i hc
  split
  · exact .inl rfl
  · rename_i jobs hjobs
    exact .inr ⟨r, jobs, hr, by simpa using fun h => hc (.inl h), hjobs, rfl⟩

/-- A hand-out begins with the sweep, and goes on with a job that is ready after it. -/
theorem nextWith_cases (q : Queue) (md5 : String → String) (scope : Scope) (worker : String) (skipped : List String) :
    q.nextWith md5 scope worker skipped = (q, .idle) ∨
    ∃ jobs, q.swept md5 scope = some jobs ∧
      (q.nextWith md5 scope worker skipped = ({ q with jobs := jobs }, .idle) ∨
        ∃ j r, j ∈ jobs ∧ ({ q with jobs := jobs } : Queue).ready scope skipped j = true ∧
          q.reservation j.stay = some r ∧
          q.nextWith md5 scope worker skipped =
            (({ q with jobs := jobs } : Queue).modifyJob j.jobKey (Queue.leased q.now worker),
              if j.state = .pending then .send j r.payload else .check j r.payload)) := by
  unfold Queue.nextWith
  split
  · exact .inl rfl
  split
  · exact .inl rfl
  rename_i jobs hjobs
  refine .inr ⟨jobs, hjobs, ?_⟩
  dsimp only
  split
  · exact .inl rfl
  rename_i j hj
  have hmem := Table.mem_of_first hj
  split
  · exact .inl rfl
  · rename_i r hr
    exact .inr ⟨j, r, List.mem_of_mem_filter hmem, (List.mem_filter.1 hmem).2, hr, rfl⟩

theorem result_cases (q : Queue) (key : String) (worker : String) (result : Queue.JobResult) :
    q.result key worker result = (q, false) ∨
    ∃ j ∈ q.jobs, j.jobKey = key ∧ Queue.holds worker j = true ∧
      q.result key worker result = (q.modifyJob key (Queue.recorded q.now result), true) := by
  unfold Queue.result
  split
  · exact .inl rfl
  rename_i j hj
  split
  · exact .inr ⟨j, Table.mem_of_get hj, Table.key_of_get hj, by assumption, rfl⟩
  · exact .inl rfl

/-- The job that is ready has its reservation, and nothing before it is unfinished. -/
theorem ready_spec (h : q.ready scope skipped j = true) :
    (q.current j).isSome = true ∧ j.state.unfinished = true ∧ Queue.blocked q.jobs j = false := by
  simp only [Queue.ready, Bool.and_eq_true, Bool.not_eq_true'] at h
  exact ⟨h.1.1.1.1.1.1.2, h.1.1.1.1.1.2, h.1.2⟩

theorem mem_insertJob {jobs jobs' : List Job} {f : Job → Job} {x : Job} (h : Queue.insertJob jobs j f = some jobs')
    (hx : x ∈ jobs') : (∃ y ∈ jobs, x = f y ∨ x = y) ∨ x = j := by
  unfold Queue.insertJob at h
  split_ifs at h
  · cases h
    obtain ⟨y, hy, rfl⟩ := Table.mem_modify.1 hx
    refine .inl ⟨y, hy, ?_⟩
    split
    · exact .inl rfl
    · exact .inr rfl
  · cases h
    rcases List.mem_append.1 hx with hx | hx
    · exact .inl ⟨x, hx, .inr rfl⟩
    · exact .inr (List.mem_singleton.1 hx)

/-- The eligibility of the job has not ended. -/
def Job.eligible (now : Time) (j : Job) : Prop := ∀ t, j.eligibleUntil = some t → now < t

theorem fail_unfinished {now : Time} (h : (Queue.fail now scope j).state.unfinished = true) :
    Queue.fail now scope j = j := by
  unfold Queue.fail at h ⊢
  split
  · rename_i hc
    rw [if_pos hc] at h
    cases h
  · rfl

theorem expire_unfinished {now : Time} (h : (Queue.expire now scope j).state.unfinished = true) :
    Queue.expire now scope j = j ∧ (inScope scope j.stay j.revision = true → j.eligible now) := by
  unfold Queue.expire at h ⊢
  split
  · rename_i hc
    rw [if_pos hc] at h
    cases h
  · rename_i hc
    rw [if_neg hc] at h
    refine ⟨rfl, fun hs t ht => ?_⟩
    simpa [hs, ht, h] using hc

/-- After the sweep, an unfinished job of the scope is eligible. -/
theorem swept_eligible {jobs : List Job} (h : q.swept md5 scope = some jobs) :
    ∀ x ∈ jobs, inScope scope x.stay x.revision = true → x.state.unfinished = true → x.eligible q.now := by
  refine foldlM_inv (P := fun l => ∀ x ∈ l, inScope scope x.stay x.revision = true → x.state.unfinished = true →
    x.eligible q.now) (fun y _ b b' hb hy x hx hs hu => ?_) h ?_
  · unfold Queue.attend at hy
    split_ifs at hy
    · split at hy
      · cases hy
        exact hb x hx hs hu
      · rcases mem_insertJob hy hx with ⟨z, hz, hxz⟩ | rfl
        · obtain rfl : x = z := hxz.elim id id
          exact hb x hz hs hu
        · intro t ht
          cases ht
    · cases hy
      exact hb x hx hs hu
  · intro x hx hs hu
    obtain ⟨y, hy, rfl⟩ := List.mem_map.1 hx
    obtain ⟨z, hz, rfl⟩ := List.mem_map.1 hy
    have hfail := fail_unfinished hu
    rw [hfail] at hs hu ⊢
    obtain ⟨heq, hok⟩ := expire_unfinished hu
    rw [heq] at hs ⊢
    exact hok hs

end Functions

/-! ### Handing out once -/

/-- The log after a hand-out of a job that is ready. -/
theorem JobsOk.hand {q : Queue} {leases : List Lease} {jobs : List Job} {j : Job} (h : JobsOk q leases jobs)
    (hj : j ∈ jobs) (hcurrent : (q.current j).isSome = true) (worker : String) (now : Time) (sent : Bool) (hsent : sent = true → j.state = .pending) :
    JobsOk q (leases ++ [⟨j.jobKey, worker, j.revision, sent⟩])
      (Table.modify Job.jobKey jobs j.jobKey (Queue.leased now worker)) := by
  have hlast : ∀ key, lastOf (leases ++ [⟨j.jobKey, worker, j.revision, sent⟩]) key =
      if j.jobKey = key then some ⟨j.jobKey, worker, j.revision, sent⟩ else lastOf leases key := by
    intro key
    rw [lastOf, List.filter_append]
    split
    · rename_i hk
      simp [hk]
    · rename_i hk
      simp [hk, lastOf]
  have hkeys : (Table.modify Job.jobKey jobs j.jobKey (Queue.leased now worker)).map Job.jobKey = jobs.map Job.jobKey :=
    Table.map_key_modify fun _ hx => hx
  refine ⟨hkeys.symm ▸ h.keys, fun y hy hp => ?_, fun l hl hs => ?_, fun y hy w hw hp => ?_⟩
  · obtain ⟨x, hx, rfl⟩ := Table.mem_modify.1 hy
    split at hp
    · simp only [Queue.leased] at hp
      split at hp <;> cases hp
    · rename_i hk
      rw [if_neg hk]
      exact h.fresh x hx hp
  · have hrow : ∀ x ∈ jobs, x.jobKey = l.jobKey → 0 < (if x.jobKey = j.jobKey then Queue.leased now worker x else x).attempts →
        ∃ y ∈ Table.modify Job.jobKey jobs j.jobKey (Queue.leased now worker), y.jobKey = l.jobKey ∧ 0 < y.attempts := by
      intro x hx hk ha
      refine ⟨_, Table.mem_modify.2 ⟨x, hx, rfl⟩, ?_, ha⟩
      split <;> exact hk
    rcases List.mem_append.1 hl with hl | hl
    · obtain ⟨x, hx, hk, ha⟩ := h.sent l hl hs
      refine hrow x hx hk ?_
      split
      · simp only [Queue.leased]
        split <;> omega
      · exact ha
    · obtain rfl := List.mem_singleton.1 hl
      refine hrow j hj rfl ?_
      rw [if_pos rfl, Queue.leased, if_pos (hsent hs), if_pos (hsent hs)]
      exact Nat.succ_pos _
  · obtain ⟨x, hx, rfl⟩ := Table.mem_modify.1 hy
    split at hw
    · rename_i hk
      obtain rfl := Table.eq_of_mem_of_key h.keys hx hj hk
      rw [if_pos rfl, hlast]
      have hw' : worker = w := Option.some.inj hw
      exact ⟨⟨sent, by simp [Queue.leased, hw']⟩, hcurrent⟩
    · rename_i hk
      rw [if_neg hk] at hp ⊢
      rw [hlast, if_neg (Ne.symm hk)]
      exact h.lease x hx w hw hp

namespace Works

variable {F H : Type} {g : GatewaySite H} {w w' : Works H} {q : Queue} {worker : String}

/-- The invariant: the rows agree with the hand-outs, the claims with the reservations. -/
structure Ok (g : GatewaySite H) (w : Works H) : Prop where
  jobs : JobsOk w.queue w.leases w.queue.jobs
  stays : (w.queue.reservations.map (·.stay)).Nodup
  claims : ∀ r ∈ w.queue.reservations, ∀ worker, r.prepareOwner = some worker →
    ∃ since, w.lastClaim r.stay = some ⟨r.stay, worker, r.revision, since⟩ ∧ r.prepareUntil = some (since + 90)
  once : ((w.leases.filter (·.sent)).map (·.jobKey)).Nodup
  gateway : Gateway.Single g w.gateway

theorem Fresh.ok (h : Fresh w) : Ok g w := by
  obtain ⟨hr, hj⟩ := h.queue
  obtain ⟨hs, hc⟩ := h.gateway
  obtain ⟨-, hl⟩ := h.logs
  refine ⟨⟨by simp [hj], by simp [hj], by simp [hl], by simp [hj]⟩, by simp [hr], by simp [hr], by simp [hl], ?_⟩
  constructor <;> simp [hc, Gateway.waiting, hs]

/-- A step that leaves reservations, claims and hand-outs alone. -/
theorem Ok.same (h : Ok g w) {jobs : List Job} (hjobs : JobsOk w.queue w.leases jobs) :
    Ok g { w with queue := { w.queue with jobs := jobs } } :=
  ⟨hjobs.congr fun _ _ _ _ hc => hc, h.stays, h.claims, h.once, h.gateway⟩

/-- A reservation is rewritten without its revision; an owner it has then was logged. -/
theorem Ok.modify (h : Ok g w) {stay : Uuid} {f : Reservation → Reservation} {claims : List Claim}
    (hf : ∀ r, (f r).stay = r.stay ∧ (f r).revision = r.revision)
    (howner : ∀ r ∈ w.queue.reservations, ∀ worker,
      (if r.stay = stay then f r else r).prepareOwner = some worker → ∃ since,
        ({ w with claims := claims } : Works H).lastClaim r.stay = some ⟨r.stay, worker, r.revision, since⟩ ∧
          (if r.stay = stay then f r else r).prepareUntil = some (since + 90)) :
    Ok g { w with queue := w.queue.modifyReservation stay f, claims := claims } := by
  refine ⟨h.jobs.congr fun _ _ _ _ hc => current_modify hf hc, ?_, fun r hr worker hw => ?_, h.once, h.gateway⟩
  · exact (Table.map_key_modify fun r hr => (hf r).1.trans hr).symm ▸ h.stays
  · obtain ⟨r₀, hr₀, rfl⟩ := Table.mem_modify.1 hr
    obtain ⟨since, hlast, hu⟩ := howner r₀ hr₀ worker hw
    refine ⟨since, ?_, hu⟩
    split
    · rw [(hf r₀).1, (hf r₀).2]
      exact hlast
    · exact hlast

theorem Ok.ingest (h : Ok g w) (s : Snapshot) : Ok g { w with queue := (w.queue.ingest s).1 } := by
  rcases ingest_cases w.queue s with heq | ⟨hnone, heq⟩ | ⟨r, -, hr, hlt, heq⟩
  · rw [heq]
    exact h
  · rw [heq]
    refine ⟨h.jobs.congr fun x _ _ _ hc => ?_, ?_, fun r hr worker hw => ?_, h.once, h.gateway⟩
    · obtain ⟨r, hr, hv⟩ := current_isSome.1 hc
      refine current_isSome.2 ⟨r, ?_, hv⟩
      have hget : Table.get Reservation.stay w.queue.reservations x.stay = some r := hr
      rw [Queue.reservation, Table.get_append, hget]
      rfl
    · rw [List.map_append]
      exact List.nodup_append'.2 ⟨h.stays, by simp, by simpa [newReservation] using Table.get_eq_none.1 hnone⟩
    · rcases List.mem_append.1 hr with hr | hr
      · exact h.claims r hr worker hw
      · rw [List.mem_singleton.1 hr] at hw
        cases hw
  · rw [heq]
    -- a job whose lease is kept belongs to another stay, whose reservation stays
    have hrows : JobsOk w.queue w.leases (w.queue.jobs.map (Job.superseded s.stay)) :=
      h.jobs.map fun x _ => .superseded s.stay
    refine ⟨hrows.congr fun x hx hl hp hc => ?_, ?_, fun r' hr' worker hw => ?_, h.once, h.gateway⟩
    · obtain ⟨y, -, rfl⟩ := List.mem_map.1 hx
      have hne : (y.superseded s.stay).stay ≠ s.stay := by
        intro heq
        rw [(Job.Kept.superseded s.stay).stay] at heq
        obtain ⟨-, hp', -⟩ := (Job.Kept.superseded (x := y) s.stay).lease hl hp
        have hu : y.state.unfinished = true := by
          revert hp'
          cases y.state <;> simp [JobState.posted, JobState.unfinished]
        simp [Job.superseded, heq, hu, JobState.posted] at hp
      obtain ⟨r', hr', hv⟩ := current_isSome.1 hc
      refine current_isSome.2 ⟨r', ?_, hv⟩
      exact ((reservation_modify (f := Reservation.revised s w.queue.now) (fun _ => rfl) _).trans (if_neg hne)).trans hr'
    · have hstays : (Table.modify Reservation.stay w.queue.reservations s.stay (Reservation.revised s w.queue.now)).map
          Reservation.stay = w.queue.reservations.map Reservation.stay := Table.map_key_modify fun _ hr => hr
      exact hstays.symm ▸ h.stays
    · obtain ⟨r₀, hr₀, rfl⟩ := Table.mem_modify.1 hr'
      split at hw
      · cases hw
      · rename_i hk
        rw [if_neg hk]
        exact h.claims r₀ hr₀ worker hw

theorem Ok.claimed (h : Ok g w) (scope : Scope) (apartment : ℕ → Bool) (skipped : List Uuid) :
    Ok g (w.claimed worker (w.queue.claimWith scope worker apartment skipped)) := by
  rcases claimWith_cases w.queue scope worker apartment skipped with heq | ⟨r, hr, heq⟩
  · rw [heq]
    have hnil : w.claims ++ [] = w.claims := List.append_nil _
    exact ⟨h.jobs, h.stays, by simpa [lastClaim, Works.claimed] using h.claims, h.once, h.gateway⟩
  · rw [heq]
    refine h.modify (fun _ => ⟨rfl, rfl⟩) fun r' hr' worker' hw => ?_
    have hlast : ∀ stay, ({ w with claims := w.claims ++ [⟨r.stay, worker, r.revision, w.queue.now⟩] } : Works H).lastClaim
        stay = if r.stay = stay then some ⟨r.stay, worker, r.revision, w.queue.now⟩ else w.lastClaim stay := by
      intro stay
      rw [lastClaim, List.filter_append]
      split
      · rename_i hk
        simp [hk]
      · rename_i hk
        simp [hk, lastClaim]
    by_cases hk : r'.stay = r.stay
    · obtain rfl := Table.eq_of_mem_of_key h.stays hr' hr hk
      rw [if_pos rfl] at hw ⊢
      cases hw
      exact ⟨w.queue.now, (hlast _).trans (if_pos rfl), rfl⟩
    · rw [if_neg hk] at hw ⊢
      obtain ⟨since, hl, hu⟩ := h.claims r' hr' worker' hw
      exact ⟨since, ((hlast _).trans (if_neg (Ne.symm hk))).trans hl, hu⟩

theorem Ok.prepare (h : Ok g w) (stay : Uuid) (revision : ℕ) (batch : List JobAsked) :
    Ok g { w with queue := (w.queue.prepare g.md5 stay revision worker batch).1 } := by
  rcases prepare_cases w.queue g.md5 stay revision worker batch with heq | ⟨r, jobs, hr, hp, hjobs, heq⟩
  · rw [heq]
    exact h
  · rw [heq]
    have hevolves : Evolves w.queue w.leases w.queue.jobs jobs := Evolves.prepared hjobs
    have hok := h.same (hevolves h.jobs).1
    refine hok.modify (fun _ => ⟨rfl, rfl⟩) fun r' hr' worker' hw => ?_
    by_cases hk : r'.stay = stay
    · rw [if_pos hk] at hw
      cases hw
    · rw [if_neg hk] at hw ⊢
      exact h.claims r' hr' worker' hw

theorem Ok.handed (h : Ok g w) (scope : Scope) (skipped : List String) :
    Ok g (w.handed worker (w.queue.nextWith g.md5 scope worker skipped)) := by
  have hidle : ∀ jobs, JobsOk w.queue w.leases jobs →
      Ok g (w.handed worker ({ w.queue with jobs := jobs }, .idle)) := by
    intro jobs hjobs
    have hok := h.same hjobs
    exact ⟨by simpa [Works.handed] using hok.jobs, hok.stays, hok.claims, by simpa [Works.handed] using h.once,
      h.gateway⟩
  rcases nextWith_cases w.queue g.md5 scope worker skipped with heq | ⟨jobs, hswept, heq | ⟨j, r, hj, hready, hr, heq⟩⟩
  · rw [heq]
    exact hidle w.queue.jobs h.jobs
  · rw [heq]
    exact hidle jobs (Evolves.swept hswept h.jobs).1
  · rw [heq]
    have hjobs : JobsOk w.queue w.leases jobs := (Evolves.swept hswept h.jobs).1
    obtain ⟨hcurrent, -, -⟩ := ready_spec hready
    by_cases hp : j.state = .pending
    · have hok := hjobs.hand hj hcurrent worker w.queue.now true fun _ => hp
      simp only [Works.handed, hp, if_true]
      refine ⟨hok.congr fun _ _ _ _ hc => hc, h.stays, h.claims, ?_, h.gateway⟩
      rw [List.filter_append, List.map_append]
      refine List.nodup_append'.2 ⟨h.once, by simp, ?_⟩
      simp only [List.filter_cons_of_pos, List.filter_nil, List.map_cons, List.map_nil, List.disjoint_singleton]
      intro hmem
      obtain ⟨l, hl, hk⟩ := List.mem_map.1 hmem
      obtain ⟨hl, hs⟩ := List.mem_filter.1 hl
      obtain ⟨x, hx, hxk, ha⟩ := hjobs.sent l hl hs
      rw [Table.eq_of_mem_of_key hjobs.keys hx hj (hxk.trans hk), hjobs.fresh j hj hp] at ha
      exact absurd ha (lt_irrefl 0)
    · have hok := hjobs.hand hj hcurrent worker w.queue.now false fun hf => by cases hf
      simp only [Works.handed, hp, if_false]
      refine ⟨hok.congr fun _ _ _ _ hc => hc, h.stays, h.claims, ?_, h.gateway⟩
      simpa using h.once

theorem Ok.result (h : Ok g w) (key : String) (result : Queue.JobResult) :
    Ok g { w with queue := (w.queue.result key worker result).1 } := by
  rcases result_cases w.queue key worker result with heq | ⟨j, hj, hk, hholds, heq⟩
  · rw [heq]
    exact h
  · rw [heq]
    refine h.same (Evolves.modify (fun x hx hxk => ?_) h.jobs).1
    rw [Table.eq_of_mem_of_key h.jobs.keys hx hj (hxk.trans hk.symm)]
    exact .recorded hholds

theorem Ok.step [DecidableEq H] (h : Ok g w) (a : WorkAct F) : Ok g (w.step g a) := by
  cases a with
  | tick seconds => exact ⟨h.jobs.congr fun _ _ _ _ hc => hc, h.stays, h.claims, h.once, h.gateway⟩
  | enable enabled => exact ⟨h.jobs.congr fun _ _ _ _ hc => hc, h.stays, h.claims, h.once, h.gateway⟩
  | ingest s => exact h.ingest s
  | claimBooking worker apartments skipped => exact h.claimed ..
  | eventClaimBooking worker stay revision apartments skipped => exact h.claimed ..
  | prepare stay revision worker batch => exact h.prepare ..
  | next worker skipped => exact h.handed ..
  | eventNext worker stay revision skipped => exact h.handed ..
  | result key worker result => exact h.result ..
  | sendMessage s attempts token request => exact ⟨h.jobs, h.stays, h.claims, h.once, h.gateway.sendMessage⟩
  | call i send => exact ⟨h.jobs, h.stays, h.claims, h.once, h.gateway.call⟩
  | record i => exact ⟨h.jobs, h.stays, h.claims, h.once, h.gateway.record⟩

/-! ### What is promised -/

/-- The job is for the revision its stay has, still eligible, and after all that comes before it. -/
def Timely (q : Queue) (j : Job) : Prop :=
  (∃ r, q.reservation j.stay = some r ∧ r.revision = j.revision) ∧ j.eligible q.now ∧
    ∀ e ∈ q.jobs, e.stay = j.stay → e.revision = j.revision → e.recipientKind = j.recipientKind →
      e.sequence < j.sequence → e.state.unfinished = false

/-- The promises on a state and its next step; `nextWith` without a scope is `lsa07_next`, with one `lsa07_event_next`. -/
structure InOrder (g : GatewaySite H) (w : Works H) : Prop where
  sent : ((w.leases.filter (·.sent)).map (·.jobKey)).Nodup
  called : (w.gateway.called.map (·.jobKey)).Nodup
  timely : ∀ scope worker skipped j s, (w.queue.nextWith g.md5 scope worker skipped).2 = .send j s →
    Timely (w.queue.nextWith g.md5 scope worker skipped).1 j
  prepared : ∀ stay revision worker batch, (w.queue.prepare g.md5 stay revision worker batch).1 ≠ w.queue →
    (∃ since, w.lastClaim stay = some ⟨stay, worker, revision, since⟩ ∧ w.queue.now ≤ since + 90) ∧
      ∃ r, w.queue.reservation stay = some r ∧ r.revision = revision
  recorded : ∀ key worker result, (w.queue.result key worker result).1 ≠ w.queue →
    ∃ j ∈ w.queue.jobs, j.jobKey = key ∧ (∃ sent, lastOf w.leases key = some ⟨key, worker, j.revision, sent⟩) ∧
      ∃ r, w.queue.reservation j.stay = some r ∧ r.revision = j.revision

theorem Ok.timely (h : Ok g w) {scope : Scope} {skipped : List String} {j : Job} {s : Snapshot}
    (hs : (w.queue.nextWith g.md5 scope worker skipped).2 = .send j s) :
    Timely (w.queue.nextWith g.md5 scope worker skipped).1 j := by
  rcases nextWith_cases w.queue g.md5 scope worker skipped with heq | ⟨jobs, hswept, heq | ⟨x, r, hx, hready, hr, heq⟩⟩
  · rw [heq] at hs
    cases hs
  · rw [heq] at hs
    cases hs
  obtain ⟨hcurrent, hunfinished, hblocked⟩ := ready_spec hready
  have hscope : inScope scope x.stay x.revision = true := by
    simp only [Queue.ready, Bool.and_eq_true] at hready
    exact hready.1.1.1.1.1.1.1
  have hjobs : JobsOk w.queue w.leases jobs := (Evolves.swept hswept h.jobs).1
  rw [heq] at hs ⊢
  obtain rfl : x = j := by
    dsimp only at hs
    split at hs <;> cases hs
    rfl
  refine ⟨current_isSome.1 hcurrent, swept_eligible hswept x hx hscope hunfinished, fun e he h1 h2 h3 h4 => ?_⟩
  obtain ⟨y, hy, rfl⟩ := Table.mem_modify.1 he
  by_cases hk : y.jobKey = x.jobKey
  · obtain rfl := Table.eq_of_mem_of_key hjobs.keys hy hx hk
    rw [if_pos rfl] at h4
    exact absurd h4 (lt_irrefl _)
  · rw [if_neg hk] at h1 h2 h3 h4 ⊢
    have hb := hblocked
    simp only [Queue.blocked, List.any_eq_false, Bool.and_eq_true, beq_iff_eq, decide_eq_true_eq, not_and] at hb
    simpa using hb y hy ⟨⟨⟨h1, h2⟩, h3⟩, h4⟩

theorem Ok.prepared (h : Ok g w) {stay : Uuid} {revision : ℕ} {batch : List JobAsked}
    (hne : (w.queue.prepare g.md5 stay revision worker batch).1 ≠ w.queue) :
    (∃ since, w.lastClaim stay = some ⟨stay, worker, revision, since⟩ ∧ w.queue.now ≤ since + 90) ∧
      ∃ r, w.queue.reservation stay = some r ∧ r.revision = revision := by
  rcases prepare_cases w.queue g.md5 stay revision worker batch with heq | ⟨r, jobs, hr, hp, -, -⟩
  · exact absurd (congrArg Prod.fst heq) hne
  simp only [Queue.prepares, Bool.and_eq_true, beq_iff_eq, Bool.not_eq_true'] at hp
  obtain ⟨⟨hrev, howner⟩, huntil⟩ := hp
  obtain ⟨since, hlast, hu⟩ := h.claims r (Table.mem_of_get hr) worker howner
  have hstay : r.stay = stay := Table.key_of_get hr
  refine ⟨⟨since, ?_, ?_⟩, r, hr, hrev⟩
  · rw [← hstay, hlast, hrev]
  · simpa [hu] using huntil

theorem Ok.recorded (h : Ok g w) {key : String} {result : Queue.JobResult}
    (hne : (w.queue.result key worker result).1 ≠ w.queue) :
    ∃ j ∈ w.queue.jobs, j.jobKey = key ∧ (∃ sent, lastOf w.leases key = some ⟨key, worker, j.revision, sent⟩) ∧
      ∃ r, w.queue.reservation j.stay = some r ∧ r.revision = j.revision := by
  rcases result_cases w.queue key worker result with heq | ⟨j, hj, rfl, hholds, -⟩
  · exact absurd (congrArg Prod.fst heq) hne
  simp only [Queue.holds, Bool.and_eq_true, beq_iff_eq] at hholds
  obtain ⟨hlast, hcurrent⟩ := h.jobs.lease j hj worker hholds.1 hholds.2
  exact ⟨j, hj, rfl, hlast, current_isSome.1 hcurrent⟩

theorem Ok.inOrder (h : Ok g w) : InOrder g w :=
  ⟨h.once, h.gateway.keys, fun _ _ _ _ _ hs => h.timely hs, fun _ _ _ _ hne => h.prepared hne,
    fun _ _ _ hne => h.recorded hne⟩

/-- A delivered job stays as it is, and a stay never goes back to an older revision. -/
structure Onward (w w' : Works H) : Prop where
  delivered : ∀ j ∈ w.queue.jobs, j.state = .delivered → j ∈ w'.queue.jobs
  revisions : ∀ r ∈ w.queue.reservations, ∃ r' ∈ w'.queue.reservations, r'.stay = r.stay ∧ r.revision ≤ r'.revision

theorem Onward.refl (w : Works H) : Onward w w := ⟨fun _ hj _ => hj, fun r hr => ⟨r, hr, rfl, le_rfl⟩⟩

theorem Onward.trans {w'' : Works H} (h : Onward w w') (h' : Onward w' w'') : Onward w w'' := by
  refine ⟨fun j hj hd => h'.delivered j (h.delivered j hj hd) hd, fun r hr => ?_⟩
  obtain ⟨r', hr', hs, hle⟩ := h.revisions r hr
  obtain ⟨r'', hr'', hs', hle'⟩ := h'.revisions r' hr'
  exact ⟨r'', hr'', hs'.trans hs, hle.trans hle'⟩

theorem Onward.of_modify {stay : Uuid} {f : Reservation → Reservation}
    (hw : w'.queue.reservations = Table.modify Reservation.stay w.queue.reservations stay f)
    (hjobs : ∀ j ∈ w.queue.jobs, j.state = .delivered → j ∈ w'.queue.jobs)
    (hf : ∀ r ∈ w.queue.reservations, r.stay = stay → (f r).stay = r.stay ∧ r.revision ≤ (f r).revision) :
    Onward w w' := by
  refine ⟨hjobs, fun r hr => ⟨_, hw ▸ Table.mem_modify.2 ⟨r, hr, rfl⟩, ?_⟩⟩
  split
  · exact hf r hr (by assumption)
  · exact ⟨rfl, le_rfl⟩

theorem Onward.of_jobs (hjobs : ∀ j ∈ w.queue.jobs, j.state = .delivered → j ∈ w'.queue.jobs)
    (hw : w'.queue.reservations = w.queue.reservations) : Onward w w' :=
  ⟨hjobs, fun r hr => ⟨r, hw ▸ hr, rfl, le_rfl⟩⟩

theorem Ok.onward_ingest (h : Ok g w) (s : Snapshot) : Onward w { w with queue := (w.queue.ingest s).1 } := by
  rcases ingest_cases w.queue s with heq | ⟨-, heq⟩ | ⟨r, -, hr, hlt, heq⟩
  · rw [heq]
    exact .refl w
  · rw [heq]
    exact ⟨fun j hj _ => hj, fun r hr => ⟨r, List.mem_append_left _ hr, rfl, le_rfl⟩⟩
  · rw [heq]
    refine .of_modify rfl (fun j hj hd => ?_) fun r' hr' hk => ⟨rfl, ?_⟩
    · exact List.mem_map.2 ⟨j, hj, (Job.Kept.superseded s.stay).delivered hd⟩
    · obtain rfl := Table.eq_of_mem_of_key h.stays hr' (Table.mem_of_get hr) (hk.trans (Table.key_of_get hr).symm)
      exact hlt.le

theorem onward_claimed (scope : Scope) (apartment : ℕ → Bool) (skipped : List Uuid) :
    Onward w (w.claimed worker (w.queue.claimWith scope worker apartment skipped)) := by
  rcases claimWith_cases w.queue scope worker apartment skipped with heq | ⟨r, hr, heq⟩
  · rw [heq]
    exact .of_jobs (fun j hj _ => hj) rfl
  · rw [heq]
    exact .of_modify rfl (fun j hj _ => hj) fun _ _ _ => ⟨rfl, le_rfl⟩

theorem Ok.onward_prepare (h : Ok g w) (stay : Uuid) (revision : ℕ) (batch : List JobAsked) :
    Onward w { w with queue := (w.queue.prepare g.md5 stay revision worker batch).1 } := by
  rcases prepare_cases w.queue g.md5 stay revision worker batch with heq | ⟨r, jobs, -, -, hjobs, heq⟩
  · rw [heq]
    exact .refl w
  · rw [heq]
    have hevolves : Evolves w.queue w.leases w.queue.jobs jobs := Evolves.prepared hjobs
    exact .of_modify rfl (hevolves h.jobs).2 fun _ _ _ => ⟨rfl, le_rfl⟩

theorem Ok.onward_handed (h : Ok g w) (scope : Scope) (skipped : List String) :
    Onward w (w.handed worker (w.queue.nextWith g.md5 scope worker skipped)) := by
  rcases nextWith_cases w.queue g.md5 scope worker skipped with heq | ⟨jobs, hswept, heq | ⟨x, r, hx, hready, -, heq⟩⟩
  · rw [heq]
    exact .of_jobs (fun j hj _ => hj) rfl
  · rw [heq]
    exact .of_jobs (Evolves.swept hswept h.jobs).2 rfl
  · rw [heq]
    obtain ⟨hok, hkept⟩ := Evolves.swept hswept h.jobs
    refine .of_jobs (fun j hj hd => ?_) rfl
    refine Table.mem_modify_of_ne (hkept j hj hd) fun hk => ?_
    obtain rfl := Table.eq_of_mem_of_key hok.keys (hkept j hj hd) hx hk
    simpa [hd, JobState.unfinished] using (ready_spec hready).2.1

theorem Ok.onward_result (h : Ok g w) (key : String) (result : Queue.JobResult) :
    Onward w { w with queue := (w.queue.result key worker result).1 } := by
  rcases result_cases w.queue key worker result with heq | ⟨x, hx, rfl, hholds, heq⟩
  · rw [heq]
    exact .refl w
  · rw [heq]
    refine .of_jobs (fun j hj hd => Table.mem_modify_of_ne hj fun hk => ?_) rfl
    obtain rfl := Table.eq_of_mem_of_key h.jobs.keys hj hx hk
    simp [Queue.holds, hd, JobState.posted] at hholds

theorem Ok.onward [DecidableEq H] (h : Ok g w) (a : WorkAct F) : Onward w (w.step g a) := by
  cases a with
  | ingest s => exact h.onward_ingest s
  | claimBooking worker apartments skipped => exact onward_claimed ..
  | eventClaimBooking worker stay revision apartments skipped => exact onward_claimed ..
  | prepare stay revision worker batch => exact h.onward_prepare ..
  | next worker skipped => exact h.onward_handed ..
  | eventNext worker stay revision skipped => exact h.onward_handed ..
  | result key worker result => exact h.onward_result ..
  | _ => exact .of_jobs (fun j hj _ => hj) rfl

variable [DecidableEq H]

/-- In every run of the workers and the gateway a job is sent once, in order and for the revision its stay has, only the
worker that a job was handed to last records its result, and delivered jobs and revisions are not taken back. -/
theorem queue_hands_out_in_order (h : Fresh w) (as bs : List (WorkAct F)) :
    InOrder g (run (step g) w as) ∧ Onward (run (step g) w as) (run (step g) w (as ++ bs)) := by
  have hok : Ok g (run (step g) w as) := run_inv (fun _ a hw => hw.step a) h.ok as
  refine ⟨hok.inOrder, ?_⟩
  rw [run_append]
  refine (run_inv (I := fun w' => Ok g w' ∧ Onward (run (step g) w as) w') (fun w' a hw => ?_) ⟨hok, .refl _⟩ bs).2
  exact ⟨hw.1.step a, hw.2.trans (hw.1.onward a)⟩

/-! ### A lease that runs out -/

def statusKey : String := "lsa07:07000000-0000-4000-8000-000000000061:r1:status"

/-- The digest of the one key of the run. -/
def statusGate : GatewaySite Message where
  enabled := true
  workGroupId := "120363408128237629@g.us"
  md5 key := if key = statusKey then "96afb2f603f847f302fc1a14c6988807" else key
  payloadHash := id

def emptyWorks : Works Message := ⟨⟨true, "120363408128237629@g.us", 1000, [], []⟩, ⟨[], [], []⟩, [], []⟩

/-- The status message is handed to a worker, whose lease of ninety seconds is over when it reports; no other worker has
asked for the job. -/
def leaseOver : List (WorkAct Unit) :=
  [.ingest paidSnapshot, .eventClaimBooking "exec-1" queuedStay 1 [7] [],
    .prepare queuedStay 1 "exec-1" [⟨.statusNew, "Confirmed", statusKey, 1, .guest, 1000, some 40000⟩],
    .eventNext "exec-1" queuedStay 1 [], .tick 100]

theorem emptyWorks_fresh : Fresh emptyWorks := ⟨⟨rfl, rfl⟩, ⟨rfl, rfl⟩, ⟨rfl, rfl⟩⟩

/-- The lease has ended, and the result is still recorded. -/
theorem expired_lease_recorded :
    (∃ j ∈ (run (step statusGate) emptyWorks leaseOver).queue.jobs,
      j.jobKey = statusKey ∧ ∃ t, j.leaseUntil = some t ∧ t < (run (step statusGate) emptyWorks leaseOver).queue.now) ∧
    ((run (step statusGate) emptyWorks leaseOver).queue.result statusKey "exec-1" ⟨true, none, ""⟩).1 ≠
      (run (step statusGate) emptyWorks leaseOver).queue := by
  have hjobs : ∃ j ∈ (run (step statusGate) emptyWorks leaseOver).queue.jobs, j.jobKey = statusKey ∧
      j.leaseUntil = some 1090 := by
    decide +kernel
  obtain ⟨j, hj, hk, hu⟩ := hjobs
  have hnow : (run (step statusGate) emptyWorks leaseOver).queue.now = 1100 := by decide +kernel
  refine ⟨⟨j, hj, hk, 1090, hu, hnow ▸ by decide⟩, ?_⟩
  decide +kernel

/-- Another worker takes the job over and is told to check it, and only its result is recorded. -/
theorem queue_hands_out_taken_over :
    InOrder statusGate (run (step statusGate) emptyWorks
        (leaseOver ++ [.next "exec-2" [], .result statusKey "exec-1" ⟨true, none, ""⟩])) ∧
      (run (step statusGate) emptyWorks
        (leaseOver ++ [.next "exec-2" [], .result statusKey "exec-1" ⟨true, none, ""⟩])).leases =
          [⟨statusKey, "exec-1", 1, true⟩, ⟨statusKey, "exec-2", 1, false⟩] ∧
      ∃ j ∈ (run (step statusGate) emptyWorks
        (leaseOver ++ [.next "exec-2" [], .result statusKey "exec-1" ⟨true, none, ""⟩])).queue.jobs,
          j.state = .check :=
  ⟨(queue_hands_out_in_order emptyWorks_fresh _ []).1, by decide +kernel, by decide +kernel⟩

end Works

end Apartments.Morning
