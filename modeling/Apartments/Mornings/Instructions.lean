import Apartments.Mornings.Handouts
import Apartments.Mornings.Render

/-!
# The instructions of a revised stay

`lsa07_ingest` supersedes every job that has not ended, and `render` builds the rules and the guide again only if they
differ from what the payload before tells. A revision that keeps them therefore depends on the jobs of an earlier one,
which `instructions_kept` asks to have ended by then; `instructions_lost` is a run in which they never were.
-/

namespace Apartments.Morning

open Machine

/-! ### Rows that last -/

/-- A row that stays the one it is, and is not superseded. -/
structure Job.Lasting (x y : Job) : Prop where
  key : y.jobKey = x.jobKey
  stay : y.stay = x.stay
  kind : y.kind = x.kind
  told : x.state ≠ .superseded → y.state ≠ .superseded

/-- The job is there and has not been superseded. -/
def Has (jobs : List Job) (stay : Uuid) (key : String) (kind : Kind) : Prop :=
  ∃ j ∈ jobs, j.jobKey = key ∧ j.stay = stay ∧ j.kind = kind ∧ j.state ≠ .superseded

def Keyed (jobs : List Job) : Prop := ∀ j ∈ jobs, KeyTells j.jobKey j.stay j.kind

/-- No row is lost, and the keys go on telling their rows. -/
structure Lasts (jobs jobs' : List Job) : Prop where
  rows : ∀ x ∈ jobs, ∃ y ∈ jobs', x.Lasting y
  keyed : Keyed jobs → Keyed jobs'

section Rows

variable {q : Queue} {jobs jobs' jobs'' : List Job} {j x y : Job} {f : Job → Job} {stay : Uuid} {key : String} {kind : Kind}
  {r : Reservation} {m : JobAsked} {now : Time} {scope : Scope} {md5 : String → String}

theorem Job.Lasting.refl (x : Job) : x.Lasting x := ⟨rfl, rfl, rfl, id⟩

theorem Job.Lasting.revived : x.Lasting (q.revived r m x) := by
  unfold Queue.revived
  split
  · exact refl x
  · refine ⟨rfl, rfl, rfl, fun _ => ?_⟩
    dsimp only
    split <;> simp

theorem Job.Lasting.expire : x.Lasting (Queue.expire now scope x) := by
  unfold Queue.expire
  split
  · exact ⟨rfl, rfl, rfl, fun _ => by simp⟩
  · exact refl x

theorem Job.Lasting.fail : x.Lasting (Queue.fail now scope x) := by
  unfold Queue.fail
  split
  · exact ⟨rfl, rfl, rfl, fun _ => by simp⟩
  · exact refl x

theorem Job.Lasting.leased {worker : String} : x.Lasting (Queue.leased now worker x) := by
  refine ⟨rfl, rfl, rfl, fun _ => ?_⟩
  simp only [Queue.leased]
  split <;> simp

theorem Job.Lasting.recorded {result : Queue.JobResult} : x.Lasting (Queue.recorded now result x) := by
  refine ⟨rfl, rfl, rfl, fun _ => ?_⟩
  simp only [Queue.recorded]
  split <;> simp

theorem Has.lasts (h : Has jobs stay key kind) (hl : Lasts jobs jobs') : Has jobs' stay key kind := by
  obtain ⟨x, hx, hk, hs, hkind, ht⟩ := h
  obtain ⟨y, hy, hxy⟩ := hl.rows x hx
  exact ⟨y, hy, hxy.key.trans hk, hxy.stay.trans hs, hxy.kind.trans hkind, hxy.told ht⟩

theorem Lasts.refl (jobs : List Job) : Lasts jobs jobs := ⟨fun x hx => ⟨x, hx, .refl x⟩, id⟩

theorem Lasts.trans (h : Lasts jobs jobs') (h' : Lasts jobs' jobs'') : Lasts jobs jobs'' := by
  refine ⟨fun x hx => ?_, fun hk => h'.keyed (h.keyed hk)⟩
  obtain ⟨y, hy, hxy⟩ := h.rows x hx
  obtain ⟨z, hz, hyz⟩ := h'.rows y hy
  exact ⟨z, hz, hyz.key.trans hxy.key, hyz.stay.trans hxy.stay, hyz.kind.trans hxy.kind,
    fun ht => hyz.told (hxy.told ht)⟩

theorem Lasts.map (hf : ∀ x : Job, x.Lasting (f x)) : Lasts jobs (jobs.map f) := by
  refine ⟨fun x hx => ⟨f x, List.mem_map_of_mem hx, hf x⟩, fun hk y hy => ?_⟩
  obtain ⟨x, hx, rfl⟩ := List.mem_map.1 hy
  rw [(hf x).key, (hf x).stay, (hf x).kind]
  exact hk x hx

theorem Lasts.modify (hf : ∀ x : Job, x.Lasting (f x)) : Lasts jobs (Table.modify Job.jobKey jobs key f) :=
  Lasts.map fun x => by
    split
    · exact hf x
    · exact .refl x

theorem Lasts.insert (h : Queue.insertJob jobs j f = some jobs') (hf : ∀ x : Job, x.Lasting (f x))
    (hj : KeyTells j.jobKey j.stay j.kind) : Lasts jobs jobs' := by
  unfold Queue.insertJob at h
  split_ifs at h
  · cases h
    exact Lasts.modify hf
  · cases h
    refine ⟨fun x hx => ⟨x, List.mem_append_left _ hx, .refl x⟩, fun hk y hy => ?_⟩
    rcases List.mem_append.1 hy with hy | hy
    · exact hk y hy
    · rw [List.mem_singleton.1 hy]
      exact hj

/-- Two rows of one key are of one stay. -/
theorem stay_of_key {x y : Uuid} {k k' : Kind} (hx : KeyTells key x k) (hy : KeyTells key y k') : x = y :=
  Uuid.ext_str (String.toList_injective (hx.stay.symm.trans hy.stay))

/-- The job of a key that tells its kind is there once it is inserted. -/
theorem Has.insert (h : Queue.insertJob jobs j f = some jobs') (hkeyed : Keyed jobs) (hf : ∀ x : Job, x.Lasting (f x))
    (hstate : ∀ x : Job, (f x).state ≠ .superseded) (hj : KeyTells j.jobKey j.stay j.kind)
    (hkind : keyKind j.jobKey = some j.kind) (hnew : j.state ≠ .superseded) :
    Has jobs' j.stay j.jobKey j.kind := by
  unfold Queue.insertJob at h
  split_ifs at h with hget hany
  · cases h
    obtain ⟨x, hx⟩ := Option.isSome_iff_exists.1 hget
    have hk : x.jobKey = j.jobKey := Table.key_of_get hx
    have hxk := hkeyed x (Table.mem_of_get hx)
    refine ⟨f x, Table.mem_modify.2 ⟨x, Table.mem_of_get hx, if_pos hk⟩, (hf x).key.trans hk, ?_, ?_, hstate x⟩
    · rw [hk] at hxk
      exact (hf x).stay.trans (stay_of_key hxk hj)
    · exact (hf x).kind.trans (hxk.kind _ (hk ▸ hkind))
  · cases h
    exact ⟨j, List.mem_append_right _ (List.mem_singleton_self j), rfl, rfl, rfl, hnew⟩

theorem prepareJob_some (h : q.prepareJob md5 r jobs m = some jobs') :
    Queue.insertJob jobs (q.newJob md5 r m) (q.revived r m) = some jobs' := by
  unfold Queue.prepareJob at h
  split_ifs at h
  exact h

theorem Lasts.prepared {batch : List JobAsked} (hbatch : ∀ m ∈ batch, KeyTells m.jobKey r.stay m.kind)
    (h : batch.foldlM (q.prepareJob md5 r) jobs = some jobs') : Lasts jobs jobs' :=
  foldlM_inv (P := Lasts jobs)
    (fun m hm _ _ hb hj => hb.trans (.insert (prepareJob_some hj) (fun _ => .revived) (hbatch m hm))) h (.refl jobs)

/-- A long-lived job of the batch is there after it. -/
theorem Has.prepared {batch : List JobAsked} (hkeyed : Keyed jobs)
    (hbatch : ∀ m ∈ batch, KeyTells m.jobKey r.stay m.kind) (h : batch.foldlM (q.prepareJob md5 r) jobs = some jobs')
    (hm : m ∈ batch) (hkind : keyKind m.jobKey = some m.kind) : Has jobs' r.stay m.jobKey m.kind := by
  induction batch generalizing jobs with
  | nil => cases hm
  | cons m' batch ih =>
    rw [List.foldlM_cons] at h
    obtain ⟨next, hone, hl⟩ := Option.bind_eq_some_iff.1 h
    have hins := prepareJob_some hone
    have hlasts : Lasts jobs next := .insert hins (fun _ => .revived) (hbatch m' (by simp))
    have htail : ∀ m ∈ batch, KeyTells m.jobKey r.stay m.kind := fun m hm => hbatch m (by simp [hm])
    rcases List.mem_cons.1 hm with rfl | hm
    · have hstate : ∀ x, (q.revived r m x).state ≠ .superseded := by
        intro x
        unfold Queue.revived
        split
        · rename_i hd
          simp [hd]
        · dsimp only
          split <;> simp
      have hnow : Has next r.stay m.jobKey m.kind :=
        Has.insert hins hkeyed (fun _ => .revived) hstate (hbatch m (by simp)) hkind (by simp [Queue.newJob])
      exact hnow.lasts (.prepared htail hl)
    · exact ih (hlasts.keyed hkeyed) htail hl hm

theorem Lasts.swept (h : q.swept md5 scope = some jobs') : Lasts q.jobs jobs' := by
  have hmap : Lasts q.jobs ((q.jobs.map (Queue.expire q.now scope)).map (Queue.fail q.now scope)) :=
    (Lasts.map fun _ => .expire).trans (Lasts.map fun _ => .fail)
  refine hmap.trans (foldlM_inv (P := Lasts _) (fun j _ b b' hb hj => hb.trans ?_) h (.refl _))
  unfold Queue.attend at hj
  split_ifs at hj
  · split at hj
    · cases hj
      exact .refl _
    · exact Lasts.insert hj (fun x => .refl x) (attention_keyTells _)
  · cases hj
    exact .refl _

theorem Has.other {jobs : List Job} {stay other : Uuid} {key : String} {kind : Kind} (h : Has jobs stay key kind)
    (hne : stay ≠ other) : Has (jobs.map (Job.superseded other)) stay key kind := by
  obtain ⟨j, hj, hk, hs, hkind, ht⟩ := h
  have hsame : j.superseded other = j := if_neg fun hc => hne (hs ▸ hc.1)
  exact ⟨j, List.mem_map.2 ⟨j, hj, hsame⟩, hk, hs, hkind, ht⟩

end Rows

/-! ### Preparing what was claimed -/

/-- An execution that has claimed a booking: what `render` is given. -/
structure Preparer where
  worker : String
  booking : Snapshot
  previous : Option Snapshot
  claimedAt : Time
deriving DecidableEq

/-- The queue with the executions that prepare it, and which revision was prepared from a claim of which time. -/
structure Desk where
  queue : Queue
  preparers : List Preparer
  prepared : List (Uuid × ℕ × Time)

inductive DeskAct
  | tick (seconds : ℕ)
  | enable (enabled : Bool)
  | ingest (s : Snapshot)
  | claimBooking (worker : String) (apartments : List ℕ) (skipped : List Uuid)
  | eventClaimBooking (worker : String) (stay : Uuid) (revision : ℕ) (apartments : List ℕ) (skipped : List Uuid)
  | prepare (i : ℕ)
  | next (worker : String) (skipped : List String)
  | eventNext (worker : String) (stay : Uuid) (revision : ℕ) (skipped : List String)
  | result (key : String) (worker : String) (result : Queue.JobResult)

namespace Desk

def claimed (d : Desk) (worker : String) (q : Queue × Option Reservation) : Desk :=
  { d with
    queue := q.1
    preparers := d.preparers ++ q.2.toList.map fun r => ⟨worker, r.payload, r.previousPayload, d.queue.now⟩ }

/-- The batch of the claim is rendered and handed to `lsa07_prepare`. -/
def prepare (fill : Templates) (md5 : String → String) (d : Desk) (i : ℕ) : Desk :=
  match d.preparers[i]? with
  | none => d
  | some p =>
    match render fill p.booking p.previous p.claimedAt with
    | none => d
    | some batch =>
      match d.queue.prepare md5 p.booking.stay p.booking.revision p.worker batch with
      | (q, false) => { d with queue := q }
      | (q, true) =>
        { d with queue := q, prepared := d.prepared ++ [(p.booking.stay, p.booking.revision, p.claimedAt)] }

def step (fill : Templates) (md5 : String → String) (d : Desk) : DeskAct → Desk
  | .tick seconds => { d with queue := { d.queue with now := d.queue.now + seconds } }
  | .enable enabled => { d with queue := { d.queue with enabled := enabled } }
  | .ingest s => { d with queue := (d.queue.ingest s).1 }
  | .claimBooking worker apartments skipped =>
    d.claimed worker (d.queue.claimBooking worker apartments.contains skipped)
  | .eventClaimBooking worker stay revision apartments skipped =>
    d.claimed worker (d.queue.eventClaimBooking worker stay revision apartments.contains skipped)
  | .prepare i => d.prepare fill md5 i
  | .next worker skipped => { d with queue := (d.queue.next md5 worker skipped).1 }
  | .eventNext worker stay revision skipped => { d with queue := (d.queue.eventNext md5 worker stay revision skipped).1 }
  | .result key worker result => { d with queue := (d.queue.result key worker result).1 }

structure Fresh (d : Desk) : Prop where
  queue : d.queue.reservations = [] ∧ d.queue.jobs = []
  prepared : d.preparers = [] ∧ d.prepared = []

def rulesKey (g : Snapshot) : String := jobPrefix g.stay ++ rulesSuffix g

def guideKey (g : Snapshot) : String := jobPrefix g.stay ++ guideSuffix g

/-- Both instructions of the payload are there. -/
def HasBoth (jobs : List Job) (g : Snapshot) : Prop :=
  Has jobs g.stay (rulesKey g) .houseRules ∧ Has jobs g.stay (guideKey g) .checkinGuide

/-- A paid revision that was prepared before the stay was over has its rules and its guide. -/
def Instructed (d : Desk) : Prop :=
  ∀ r ∈ d.queue.reservations, r.payload.status = .paid → r.preparedRevision = r.revision →
    (∃ t, (r.stay, r.revision, t) ∈ d.prepared ∧ t < r.payload.endsAt) → HasBoth d.queue.jobs r.payload

/-- The job of the key has ended without being superseded. -/
def Finished (q : Queue) (key : String) : Prop :=
  ∃ j ∈ q.jobs, j.jobKey = key ∧ (j.state = .delivered ∨ j.state = .failed ∨ j.state = .expired)

/-- A paid revision that keeps the phone finds the rules ended, and one that keeps the listing and the arrival too finds
the guide ended. -/
def ok (d : Desk) : DeskAct → Prop
  | .ingest s => d.queue.enabled = true → s.valid = true → s.status = .paid → ∀ r ∈ d.queue.reservation s.stay,
      r.revision < s.revision → digits r.payload.phone = digits s.phone →
        Finished d.queue (rulesKey s) ∧
          (r.payload.listingMapId = s.listingMapId → r.payload.startsAt = s.startsAt →
            Finished d.queue (guideKey s))
  | _ => True

/-- What `render` will not build again is there already, and what was prepared is there. -/
structure Ok (d : Desk) : Prop where
  stays : (d.queue.reservations.map (·.stay)).Nodup
  payload : ∀ r ∈ d.queue.reservations, r.payload.stay = r.stay ∧ r.payload.revision = r.revision
  claims : ∀ p ∈ d.preparers, ∃ r ∈ d.queue.reservations, r.stay = p.booking.stay ∧ p.booking.revision ≤ r.revision ∧
    (p.booking.revision = r.revision → p.booking = r.payload ∧ p.previous = r.previousPayload)
  logged : ∀ e ∈ d.prepared, ∃ r ∈ d.queue.reservations, r.stay = e.1 ∧ e.2.1 ≤ r.revision
  keyed : Keyed d.queue.jobs
  kept : ∀ r ∈ d.queue.reservations, r.payload.status = .paid →
    (wantsRules r.payload r.previousPayload = false →
      Has d.queue.jobs r.stay (rulesKey r.payload) .houseRules) ∧
    (wantsGuide r.payload r.previousPayload = false →
      Has d.queue.jobs r.stay (guideKey r.payload) .checkinGuide)
  told : ∀ r ∈ d.queue.reservations, ∀ t, (r.stay, r.revision, t) ∈ d.prepared → r.payload.status = .paid →
    t < r.payload.endsAt → HasBoth d.queue.jobs r.payload

variable {d d' : Desk} {fill : Templates} {md5 : String → String} {worker : String}

theorem HasBoth.lasts {g : Snapshot} {jobs jobs' : List Job} (h : HasBoth jobs g) (hl : Lasts jobs jobs') :
    HasBoth jobs' g := ⟨h.1.lasts hl, h.2.lasts hl⟩

theorem Fresh.ok (h : Fresh d) : Ok d := by
  obtain ⟨hr, hj⟩ := h.queue
  obtain ⟨hp, hl⟩ := h.prepared
  constructor <;> simp [hr, hj, hp, hl, Keyed]

theorem Ok.instructed (h : Ok d) : Instructed d := fun r hr hpaid _ ⟨t, ht, hlt⟩ => h.told r hr t ht hpaid hlt

/-- The rows go on; the reservations are rewritten without their payloads. -/
theorem Ok.lasts (h : Ok d) {jobs : List Job} (stay : Uuid) {f : Reservation → Reservation}
    (hjobs : Lasts d.queue.jobs jobs) (hf : ∀ r, (f r).stay = r.stay ∧ (f r).revision = r.revision ∧
      (f r).payload = r.payload ∧ (f r).previousPayload = r.previousPayload) :
    Ok { d with queue := ({ d.queue with jobs := jobs } : Queue).modifyReservation stay f } := by
  have hmem : ∀ r ∈ Table.modify Reservation.stay d.queue.reservations stay f, ∃ r₀ ∈ d.queue.reservations,
      r.stay = r₀.stay ∧ r.revision = r₀.revision ∧ r.payload = r₀.payload ∧
        r.previousPayload = r₀.previousPayload := by
    intro r hr
    obtain ⟨r₀, hr₀, rfl⟩ := Table.mem_modify.1 hr
    refine ⟨r₀, hr₀, ?_⟩
    split
    · exact hf r₀
    · exact ⟨rfl, rfl, rfl, rfl⟩
  have hback : ∀ r₀ ∈ d.queue.reservations, ∃ r ∈ Table.modify Reservation.stay d.queue.reservations stay f,
      r.stay = r₀.stay ∧ r.revision = r₀.revision ∧ r.payload = r₀.payload ∧
        r.previousPayload = r₀.previousPayload := by
    intro r₀ hr₀
    refine ⟨_, Table.mem_modify.2 ⟨r₀, hr₀, rfl⟩, ?_⟩
    split
    · exact hf r₀
    · exact ⟨rfl, rfl, rfl, rfl⟩
  refine ⟨?_, fun r hr => ?_, fun p hp => ?_, fun e he => ?_, hjobs.keyed h.keyed, fun r hr hpaid => ?_,
    fun r hr t ht hpaid hlt => ?_⟩
  · exact (Table.map_key_modify fun r hr => (hf r).1.trans hr).symm ▸ h.stays
  · obtain ⟨r₀, hr₀, h1, h2, h3, -⟩ := hmem r hr
    rw [h1, h2, h3]
    exact h.payload r₀ hr₀
  · obtain ⟨r₀, hr₀, hs, hle, heq⟩ := h.claims p hp
    obtain ⟨r, hr, h1, h2, h3, h4⟩ := hback r₀ hr₀
    exact ⟨r, hr, h1.trans hs, h2 ▸ hle, fun hv => by rw [h3, h4]; exact heq (hv.trans h2)⟩
  · obtain ⟨r₀, hr₀, hs, hle⟩ := h.logged e he
    obtain ⟨r, hr, h1, h2, -⟩ := hback r₀ hr₀
    exact ⟨r, hr, h1.trans hs, h2 ▸ hle⟩
  · obtain ⟨r₀, hr₀, h1, -, h3, h4⟩ := hmem r hr
    rw [h1, h3, h4]
    rw [h3] at hpaid
    exact ⟨fun hw => ((h.kept r₀ hr₀ hpaid).1 hw).lasts hjobs, fun hw => ((h.kept r₀ hr₀ hpaid).2 hw).lasts hjobs⟩
  · obtain ⟨r₀, hr₀, h1, h2, h3, -⟩ := hmem r hr
    rw [h3] at hpaid hlt ⊢
    rw [h1, h2] at ht
    exact (h.told r₀ hr₀ t ht hpaid hlt).lasts hjobs

theorem Ok.jobs (h : Ok d) {jobs : List Job} (hjobs : Lasts d.queue.jobs jobs) :
    Ok { d with queue := { d.queue with jobs := jobs } } :=
  ⟨h.stays, h.payload, h.claims, h.logged, hjobs.keyed h.keyed,
    fun r hr hpaid => ⟨fun hw => ((h.kept r hr hpaid).1 hw).lasts hjobs, fun hw => ((h.kept r hr hpaid).2 hw).lasts hjobs⟩,
    fun r hr t ht hpaid hlt => (h.told r hr t ht hpaid hlt).lasts hjobs⟩

/-! ### Steps -/

/-- A job that has ended is not superseded by a new revision. -/
theorem Finished.has {q : Queue} {s : Snapshot} {suffix : String} {kind : Kind} {other : Uuid}
    (h : Finished q (jobPrefix s.stay ++ suffix)) (hkeyed : Keyed q.jobs)
    (hkind : keyKind (jobPrefix s.stay ++ suffix) = some kind) :
    Has (q.jobs.map (Job.superseded other)) s.stay (jobPrefix s.stay ++ suffix) kind := by
  obtain ⟨j, hj, hk, hstate⟩ := h
  have hsame : j.superseded other = j := if_neg fun hc => by
    have hu := hc.2
    rcases hstate with hs | hs | hs <;> rw [hs] at hu <;> cases hu
  have hj' := hkeyed j hj
  rw [hk] at hj'
  refine ⟨j, List.mem_map.2 ⟨j, hj, hsame⟩, hk, ?_, hj'.kind kind hkind, ?_⟩
  · exact Uuid.ext_str (String.toList_injective (hj'.stay.symm.trans keyStay_append))
  · rcases hstate with hs | hs | hs <;> simp [hs]

theorem wantsRules_false {g : Snapshot} {p : Option Snapshot} (h : wantsRules g p = false) :
    ∃ q, p = some q ∧ digits q.phone = digits g.phone := by
  cases p with
  | none => simp [wantsRules, newBooking] at h
  | some q => exact ⟨q, rfl, by simpa [wantsRules, newBooking, phoneChanged] using h⟩

theorem wantsGuide_false {g : Snapshot} {p : Option Snapshot} (h : wantsGuide g p = false) :
    ∃ q, p = some q ∧ digits q.phone = digits g.phone ∧ q.listingMapId = g.listingMapId ∧ q.startsAt = g.startsAt := by
  cases p with
  | none => simp [wantsGuide, newBooking] at h
  | some q =>
    simp only [wantsGuide, newBooking, phoneChanged, Option.elim_some, Option.any_some, Bool.or_eq_false_iff,
      bne_eq_false_iff_eq] at h
    exact ⟨q, rfl, h.1.2, h.2.1, h.2.2⟩

theorem Ok.ingest (h : Ok d) {s : Snapshot} (hok : ok d (.ingest s)) : Ok { d with queue := (d.queue.ingest s).1 } := by
  rcases ingest_cases d.queue s with heq | ⟨hnone, heq⟩ | ⟨r, ⟨henabled, hvalid⟩, hr, hlt, heq⟩
  · rw [heq]
    exact h
  · rw [heq]
    have hfree : ∀ r ∈ d.queue.reservations, r.stay ≠ s.stay := Table.get_eq_none.1 hnone
    refine ⟨?_, fun r hr => ?_, fun p hp => ?_, fun e he => ?_, h.keyed, fun r hr hpaid => ?_,
      fun r hr t ht hpaid hend => ?_⟩
    · rw [List.map_append]
      exact List.nodup_append'.2 ⟨h.stays, by simp, by simpa [newReservation] using hfree⟩
    · rcases List.mem_append.1 hr with hr | hr
      · exact h.payload r hr
      · rw [List.mem_singleton.1 hr]
        exact ⟨rfl, rfl⟩
    · obtain ⟨r, hr, hrest⟩ := h.claims p hp
      exact ⟨r, List.mem_append_left _ hr, hrest⟩
    · obtain ⟨r, hr, hrest⟩ := h.logged e he
      exact ⟨r, List.mem_append_left _ hr, hrest⟩
    · rcases List.mem_append.1 hr with hr | hr
      · exact h.kept r hr hpaid
      · rw [List.mem_singleton.1 hr]
        exact ⟨fun hw => absurd hw (by simp [newReservation, wantsRules, newBooking]),
          fun hw => absurd hw (by simp [newReservation, wantsGuide, newBooking])⟩
    · rcases List.mem_append.1 hr with hr | hr
      · exact h.told r hr t ht hpaid hend
      · rw [List.mem_singleton.1 hr] at ht
        obtain ⟨r', hr', hs, -⟩ := h.logged _ ht
        exact absurd hs (hfree r' hr')
  · rw [heq]
    have hrmem := Table.mem_of_get hr
    have hrstay : r.stay = s.stay := Table.key_of_get hr
    -- the reservations are the ones from before, or the one of the stay, which has the new payload
    have hmem : ∀ r' ∈ Table.modify Reservation.stay d.queue.reservations s.stay (Reservation.revised s d.queue.now),
        r' = r.revised s d.queue.now ∨ r' ∈ d.queue.reservations ∧ r'.stay ≠ s.stay := by
      intro r' hr'
      obtain ⟨r₀, hr₀, rfl⟩ := Table.mem_modify.1 hr'
      split
      · rename_i hk
        rw [Table.eq_of_mem_of_key h.stays hr₀ hrmem (hk.trans hrstay.symm)]
        exact .inl rfl
      · rename_i hk
        exact .inr ⟨hr₀, hk⟩
    have hback : ∀ r₀ ∈ d.queue.reservations, r₀.stay ≠ s.stay →
        r₀ ∈ Table.modify Reservation.stay d.queue.reservations s.stay (Reservation.revised s d.queue.now) :=
      fun r₀ hr₀ hne => Table.mem_modify_of_ne hr₀ hne
    have hnew : r.revised s d.queue.now ∈
        Table.modify Reservation.stay d.queue.reservations s.stay (Reservation.revised s d.queue.now) :=
      Table.mem_modify.2 ⟨r, hrmem, if_pos hrstay⟩
    have hboth : ∀ r' ∈ d.queue.reservations, r'.stay ≠ s.stay → HasBoth d.queue.jobs r'.payload →
        HasBoth (d.queue.jobs.map (Job.superseded s.stay)) r'.payload := by
      intro r' hr' hne hb
      have hp := (h.payload r' hr').1
      exact ⟨hb.1.other (hp ▸ hne), hb.2.other (hp ▸ hne)⟩
    refine ⟨?_, fun r' hr' => ?_, fun p hp => ?_, fun e he => ?_, fun j hj => ?_, fun r' hr' hpaid => ?_,
      fun r' hr' t ht hpaid hend => ?_⟩
    · have hstays : (Table.modify Reservation.stay d.queue.reservations s.stay (Reservation.revised s d.queue.now)).map
          Reservation.stay = d.queue.reservations.map Reservation.stay := Table.map_key_modify fun _ hr => hr
      exact hstays.symm ▸ h.stays
    · rcases hmem r' hr' with rfl | ⟨hr', -⟩
      · exact ⟨hrstay.symm, rfl⟩
      · exact h.payload r' hr'
    · obtain ⟨r₀, hr₀, hs, hle, hsame⟩ := h.claims p hp
      by_cases hk : r₀.stay = s.stay
      · obtain rfl := Table.eq_of_mem_of_key h.stays hr₀ hrmem (hk.trans hrstay.symm)
        refine ⟨_, hnew, hs, (hle.trans hlt.le : _), fun hv => ?_⟩
        have hv : p.booking.revision = s.revision := hv
        omega
      · exact ⟨r₀, hback r₀ hr₀ hk, hs, hle, hsame⟩
    · obtain ⟨r₀, hr₀, hs, hle⟩ := h.logged e he
      by_cases hk : r₀.stay = s.stay
      · obtain rfl := Table.eq_of_mem_of_key h.stays hr₀ hrmem (hk.trans hrstay.symm)
        exact ⟨_, hnew, hs, hle.trans hlt.le⟩
      · exact ⟨r₀, hback r₀ hr₀ hk, hs, hle⟩
    · obtain ⟨x, hx, rfl⟩ := List.mem_map.1 hj
      have hx' := h.keyed x hx
      unfold Job.superseded
      split <;> exact hx'
    · rcases hmem r' hr' with rfl | ⟨hr', hne⟩
      · refine ⟨fun hw => ?_, fun hw => ?_⟩
        · obtain ⟨p, hp, hphone⟩ := wantsRules_false hw
          cases hp
          exact (hok henabled hvalid hpaid r hr hlt hphone).1.has h.keyed keyKind_rules |>.imp fun j hj =>
            ⟨hj.1, hj.2.1, hj.2.2.1.trans hrstay.symm, hj.2.2.2⟩
        · obtain ⟨p, hp, hphone, hlisting, hstart⟩ := wantsGuide_false hw
          cases hp
          exact ((hok henabled hvalid hpaid r hr hlt hphone).2 hlisting hstart).has h.keyed keyKind_guide |>.imp fun j hj =>
            ⟨hj.1, hj.2.1, hj.2.2.1.trans hrstay.symm, hj.2.2.2⟩
      · obtain ⟨hrules, hguide⟩ := h.kept r' hr' hpaid
        exact ⟨fun hw => (hrules hw).other hne, fun hw => (hguide hw).other hne⟩
    · rcases hmem r' hr' with rfl | ⟨hr', hne⟩
      · obtain ⟨r₀, hr₀, hs, hle⟩ := h.logged _ ht
        obtain rfl := Table.eq_of_mem_of_key h.stays hr₀ hrmem hs
        exact absurd (lt_of_lt_of_le hlt hle) (lt_irrefl _)
      · exact hboth r' hr' hne (h.told r' hr' t ht hpaid hend)

theorem Ok.claimed (h : Ok d) (scope : Scope) (apartment : ℕ → Bool) (skipped : List Uuid) :
    Ok (d.claimed worker (d.queue.claimWith scope worker apartment skipped)) := by
  rcases claimWith_cases d.queue scope worker apartment skipped with heq | ⟨r, hr, heq⟩
  · rw [heq]
    exact ⟨h.stays, h.payload, by simpa [Desk.claimed] using h.claims, h.logged, h.keyed, h.kept, h.told⟩
  · rw [heq]
    have hok := h.lasts r.stay (.refl d.queue.jobs)
      (f := fun r => { r with prepareOwner := some worker, prepareUntil := some (d.queue.now + 90) })
      fun _ => ⟨rfl, rfl, rfl, rfl⟩
    refine ⟨hok.stays, hok.payload, fun p hp => ?_, hok.logged, hok.keyed, hok.kept, hok.told⟩
    rcases List.mem_append.1 hp with hp | hp
    · exact hok.claims p hp
    · obtain rfl : p = ⟨worker, r.payload, r.previousPayload, d.queue.now⟩ := by simpa using hp
      obtain ⟨hs, hv⟩ := h.payload r hr
      refine ⟨_, Table.mem_modify.2 ⟨r, hr, if_pos rfl⟩, hs.symm, hv.le, fun _ => ⟨rfl, rfl⟩⟩

theorem Ok.prepare (h : Ok d) (i : ℕ) : Ok (d.prepare fill md5 i) := by
  unfold Desk.prepare
  split
  · exact h
  rename_i p hi
  split
  · exact h
  rename_i batch hrender
  rcases prepare_cases d.queue md5 p.booking.stay p.booking.revision p.worker batch with
    heq | ⟨r, jobs, hr, hprepares, hjobs, heq⟩
  · rw [heq]
    exact h
  rw [heq]
  have hrmem := Table.mem_of_get hr
  have hrstay : r.stay = p.booking.stay := Table.key_of_get hr
  have hrev : r.revision = p.booking.revision := by
    simp only [Queue.prepares, Bool.and_eq_true, beq_iff_eq] at hprepares
    exact hprepares.1.1
  -- the claim is of the payload that the reservation still has
  obtain ⟨r₀, hr₀, hs₀, -, hsame⟩ := h.claims p (List.mem_of_getElem? hi)
  obtain rfl := Table.eq_of_mem_of_key h.stays hr₀ hrmem (hs₀.trans hrstay.symm)
  obtain ⟨hbooking, hprevious⟩ := hsame hrev.symm
  have hbatch : ∀ m ∈ batch, KeyTells m.jobKey r₀.stay m.kind := fun m hm => by
    rw [hrstay]
    exact (render_mem hrender hm).keyTells
  have hlasts : Lasts d.queue.jobs jobs := .prepared hbatch hjobs
  have hok := h.lasts p.booking.stay hlasts
    (f := fun r => { r with preparedRevision := p.booking.revision, prepareOwner := none, prepareUntil := none })
    fun _ => ⟨rfl, rfl, rfl, rfl⟩
  have hboth : p.booking.status = .paid → p.claimedAt < p.booking.endsAt → HasBoth jobs p.booking := by
    intro hpaid hend
    have hkept := h.kept r₀ hr₀ (hbooking ▸ hpaid)
    rw [← hbooking, ← hprevious, hrstay] at hkept
    constructor
    · cases hw : wantsRules p.booking p.previous with
      | true =>
        obtain ⟨m, hm, hk, hkind⟩ := render_rules hrender hpaid hend hw
        have hhas := Has.prepared h.keyed hbatch hjobs hm (hk.symm ▸ hkind.symm ▸ keyKind_rules)
        rwa [hk, hkind, hrstay] at hhas
      | false => exact (hkept.1 hw).lasts hlasts
    · cases hw : wantsGuide p.booking p.previous with
      | true =>
        obtain ⟨m, hm, hk, hkind⟩ := render_guide hrender hpaid hend hw
        have hhas := Has.prepared h.keyed hbatch hjobs hm (hk.symm ▸ hkind.symm ▸ keyKind_guide)
        rwa [hk, hkind, hrstay] at hhas
      | false => exact (hkept.2 hw).lasts hlasts
  refine ⟨hok.stays, hok.payload, hok.claims, fun e he => ?_, hok.keyed, hok.kept, fun r hr t ht hpaid hend => ?_⟩
  · rcases List.mem_append.1 he with he | he
    · exact hok.logged e he
    · rw [List.mem_singleton.1 he]
      exact ⟨_, Table.mem_modify.2 ⟨r₀, hr₀, rfl⟩, by split <;> exact hrstay, by split <;> exact hrev.ge⟩
  · rcases List.mem_append.1 ht with ht | ht
    · exact hok.told r hr t ht hpaid hend
    · obtain ⟨r₁, hr₁, rfl⟩ := Table.mem_modify.1 hr
      have hentry := List.mem_singleton.1 ht
      have hstay : r₁.stay = p.booking.stay := by
        have := congrArg Prod.fst hentry
        split at this <;> exact this
      obtain rfl := Table.eq_of_mem_of_key h.stays hr₁ hr₀ (hstay.trans hrstay.symm)
      rw [if_pos hstay] at hpaid hend ⊢
      have ht : t = p.claimedAt := congrArg (fun e => e.2.2) hentry
      subst ht
      have hpay : r₁.payload = p.booking := hbooking.symm
      dsimp only at hpaid hend ⊢
      rw [hpay] at hpaid hend ⊢
      exact hboth hpaid hend

theorem Ok.handed (h : Ok d) (scope : Scope) (skipped : List String) :
    Ok { d with queue := (d.queue.nextWith md5 scope worker skipped).1 } := by
  rcases nextWith_cases d.queue md5 scope worker skipped with heq | ⟨jobs, hswept, heq | ⟨j, r, -, -, -, heq⟩⟩
  · rw [heq]
    exact h
  · rw [heq]
    exact h.jobs (.swept hswept)
  · rw [heq]
    exact h.jobs ((Lasts.swept hswept).trans (.modify fun _ => .leased))

theorem Ok.result (h : Ok d) (key : String) (result : Queue.JobResult) :
    Ok { d with queue := (d.queue.result key worker result).1 } := by
  rcases result_cases d.queue key worker result with heq | ⟨j, -, -, -, heq⟩
  · rw [heq]
    exact h
  · rw [heq]
    exact h.jobs (.modify fun _ => .recorded)

theorem Ok.step (h : Ok d) (a : DeskAct) (hok : ok d a) : Ok (d.step fill md5 a) := by
  cases a with
  | tick seconds => exact ⟨h.stays, h.payload, h.claims, h.logged, h.keyed, h.kept, h.told⟩
  | enable enabled => exact ⟨h.stays, h.payload, h.claims, h.logged, h.keyed, h.kept, h.told⟩
  | ingest s => exact h.ingest hok
  | claimBooking worker apartments skipped => exact h.claimed ..
  | eventClaimBooking worker stay revision apartments skipped => exact h.claimed ..
  | prepare i => exact h.prepare i
  | next worker skipped => exact h.handed ..
  | eventNext worker stay revision skipped => exact h.handed ..
  | result key worker result => exact h.result ..

/-- If every paid revision that keeps what the rules or the guide tell finds them ended, none of them is ever lost. -/
theorem instructions_kept (h : Fresh d) {as : List DeskAct} (hrun : Meets (step fill md5) ok d as) :
    Instructed (run (step fill md5) d as) :=
  (hrun.inv (I := Ok) (fun _ a hd hok => hd.step a hok) h.ok).instructed

/-! ### A renamed guest -/

instance (q : Queue) (key : String) : Decidable (Finished q key) :=
  inferInstanceAs (Decidable (∃ j ∈ q.jobs, j.jobKey = key ∧ (j.state = .delivered ∨ j.state = .failed ∨
    j.state = .expired)))

instance (d : Desk) : (a : DeskAct) → Decidable (ok d a)
  | .ingest s => inferInstanceAs (Decidable (d.queue.enabled = true → s.valid = true → s.status = .paid →
      ∀ r ∈ d.queue.reservation s.stay, r.revision < s.revision → digits r.payload.phone = digits s.phone →
        Finished d.queue (rulesKey s) ∧ (r.payload.listingMapId = s.listingMapId →
          r.payload.startsAt = s.startsAt → Finished d.queue (guideKey s))))
  | .tick _ | .enable _ | .claimBooking .. | .eventClaimBooking .. | .prepare _ | .next .. | .eventNext .. | .result .. =>
    .isTrue trivial

/-- The digests of the keys of the runs. -/
def stayDigests : List (String × String) :=
  [("r1:status", "96afb2f603f847f302fc1a14c6988807"),
    ("r1:group", "746be3478245344550764a341505a198"),
    ("r2:status", "1fdad203c7dd7a17b63342e516e3056c"),
    ("r2:group", "8f5bf4d168487d36b81d768089527566"),
    ("rules:16502530000", "6543f4d45e151593f3d31d8a52ae4e47"),
    ("guide:7:20000000:16502530000", "b3aba36d7740d705943e0edcef598a3f"),
    ("checkout:7:40000000:16502530000", "83aa9f2f1049e774e5331a60576a0fa3")]

def stayMd5 (key : String) : String :=
  ((stayDigests.find? fun entry => jobPrefix queuedStay ++ entry.1 == key).map (·.2)).getD key

def plainTemplates : Templates := fun _ _ => some "Instructions"

/-- The batch of a paid booking with these templates. -/
def plainBatch (g : Snapshot) (p : Option Snapshot) (now : Time) : List JobAsked :=
  [⟨statusKind g p, statusBody g p, jobPrefix g.stay ++ statusSuffix g, 1, .guest, now, eligibility g⟩,
    ⟨.groupNotice, operational g p, jobPrefix g.stay ++ groupSuffix g, 0, .group, now, eligibility g⟩] ++
  (if paidFor g && decide (now < g.endsAt) && wantsRules g p then
    [⟨.houseRules, "Instructions", jobPrefix g.stay ++ rulesSuffix g, 2, .guest, now, some g.endsAt⟩] else []) ++
  (if paidFor g && decide (now < g.endsAt) && wantsGuide g p then
    [⟨.checkinGuide, "Instructions", jobPrefix g.stay ++ guideSuffix g, 3, .guest, now, some g.endsAt⟩] else []) ++
  (if paidFor g && decide (now + 3600 < g.endsAt) then
    [⟨.reminderCheckout, reminderBody g, jobPrefix g.stay ++ checkoutSuffix g, 4, .guest, g.endsAt - 3600,
      some g.endsAt⟩] else [])

/-- The texts of the batch are short. -/
def plainShort (g : Snapshot) (p : Option Snapshot) : Bool :=
  short (statusBody g p) && short (operational g p) && short (reminderBody g)

theorem render_plain {g : Snapshot} {p : Option Snapshot} {now : Time} (hphone : phoneValid g.phone = true)
    (hend : now < g.endsAt) (hshort : plainShort g p = true) :
    render plainTemplates g p now = some (plainBatch g p now) ∧ ∀ m ∈ plainBatch g p now, short m.body = true := by
  simp only [plainShort, Bool.and_eq_true] at hshort
  obtain ⟨⟨hs, hg⟩, hc⟩ := hshort
  have hlong : short "Instructions" = true := by decide
  constructor
  · exact render_parts_of hphone hend (addJob_short hs) (addJob_short hg) (optionally_eq_ite (addJob_short hlong))
      (optionally_eq_ite (addJob_short hlong)) (optionally_eq_ite (addJob_short hc)) rfl
  · intro m hm
    simp only [plainBatch, List.mem_append, List.mem_cons, List.not_mem_nil, or_false] at hm
    rcases hm with (((rfl | rfl) | hm) | hm) | hm
    · exact hs
    · exact hg
    · split at hm
      · rw [List.mem_singleton.1 hm]
        exact hlong
      · cases hm
    · split at hm
      · rw [List.mem_singleton.1 hm]
        exact hlong
      · cases hm
    · split at hm
      · rw [List.mem_singleton.1 hm]
        exact hc
      · cases hm

def deskSnapshot : Snapshot := { paidSnapshot with guestName := "G", listingName := "L", managementUrl := "/" }

def renamedSnapshot : Snapshot :=
  { deskSnapshot with
    revision := 2
    fingerprint := String.ofList (List.replicate 64 'b')
    guestName := "H"
    deliveryToken := ⟨queuedStay, 2, 1000⟩ }

def emptyDesk : Desk := ⟨⟨true, "120363408128237629@g.us", 1000, [], []⟩, [], []⟩

def claimFor (revision : ℕ) : DeskAct := .eventClaimBooking "exec-1" queuedStay revision [7] []

/-- The guest is renamed before the first revision is prepared. -/
def renamedBefore : List DeskAct := [.ingest deskSnapshot, .ingest renamedSnapshot, claimFor 2, .prepare 0]

/-- A desk on which a paid revision was prepared in time and every job of the house rules, if any, was superseded. -/
theorem not_instructed {d : Desk} (h : ∃ r ∈ d.queue.reservations, r.payload.status = .paid ∧
    r.preparedRevision = r.revision ∧ (∃ e ∈ d.prepared, e.1 = r.stay ∧ e.2.1 = r.revision ∧ e.2.2 < r.payload.endsAt) ∧
      ∀ j ∈ d.queue.jobs, j.kind = .houseRules → j.state = .superseded) : ¬Instructed d := by
  intro hd
  obtain ⟨r, hr, hpaid, hrev, ⟨⟨stay, revision, t⟩, he, rfl, rfl, hlt⟩, hnone⟩ := h
  obtain ⟨⟨j, hj, -, -, hkind, ht⟩, -⟩ := hd r hr hpaid hrev ⟨t, he, hlt⟩
  exact ht (hnone j hj hkind)

/-- The desk after a batch with the plain templates. -/
def put (md5 : String → String) (d : Desk) (p : Preparer) : Desk :=
  match d.queue.put md5 p.booking.stay p.booking.revision p.worker (plainBatch p.booking p.previous p.claimedAt) with
  | (q, false) => { d with queue := q }
  | (q, true) => { d with queue := q, prepared := d.prepared ++ [(p.booking.stay, p.booking.revision, p.claimedAt)] }

theorem prepare_put {md5 : String → String} {d : Desk} {i : ℕ} {p : Preparer} (hp : d.preparers[i]? = some p)
    (hready : (phoneValid p.booking.phone && decide (p.claimedAt < p.booking.endsAt) && plainShort p.booking p.previous) =
      true) : d.prepare plainTemplates md5 i = d.put md5 p := by
  simp only [Bool.and_eq_true, decide_eq_true_eq] at hready
  obtain ⟨hrender, hshort⟩ := render_plain hready.1.1 hready.1.2 hready.2
  simp only [Desk.prepare, put, hp, hrender, Queue.prepare_short hshort]

/-- The execution that claims the first revision, and the one that claims the renamed one. -/
def firstPreparer : Preparer := ⟨"exec-1", deskSnapshot, none, 1000⟩

def renamedPreparer : Preparer := ⟨"exec-1", renamedSnapshot, some deskSnapshot, 1000⟩

theorem renamed_ready :
    (phoneValid renamedSnapshot.phone && decide (1000 < renamedSnapshot.endsAt) &&
      plainShort renamedSnapshot (some deskSnapshot)) = true := by decide +kernel

/-- No job for the rules is ever built. -/
theorem instructions_lost : ¬Instructed (run (step plainTemplates stayMd5) emptyDesk renamedBefore) := by
  have hacts : renamedBefore = [.ingest deskSnapshot, .ingest renamedSnapshot, claimFor 2] ++ [.prepare 0] := rfl
  obtain ⟨hclaimed, hlost⟩ :
      (run (step plainTemplates stayMd5) emptyDesk [.ingest deskSnapshot, .ingest renamedSnapshot,
        claimFor 2]).preparers[0]? = some renamedPreparer ∧
      ∃ r ∈ ((run (step plainTemplates stayMd5) emptyDesk [.ingest deskSnapshot, .ingest renamedSnapshot,
          claimFor 2]).put stayMd5 renamedPreparer).queue.reservations,
        r.payload.status = .paid ∧ r.preparedRevision = r.revision ∧
          (∃ e ∈ ((run (step plainTemplates stayMd5) emptyDesk [.ingest deskSnapshot, .ingest renamedSnapshot,
            claimFor 2]).put stayMd5 renamedPreparer).prepared,
            e.1 = r.stay ∧ e.2.1 = r.revision ∧ e.2.2 < r.payload.endsAt) ∧
          ∀ j ∈ ((run (step plainTemplates stayMd5) emptyDesk [.ingest deskSnapshot, .ingest renamedSnapshot,
            claimFor 2]).put stayMd5 renamedPreparer).queue.jobs, j.kind = .houseRules → j.state = .superseded := by
    decide +kernel
  rw [hacts, run_append, run_cons, run_nil]
  show ¬Instructed ((run (step plainTemplates stayMd5) emptyDesk [.ingest deskSnapshot, .ingest renamedSnapshot,
    claimFor 2]).prepare plainTemplates stayMd5 0)
  rw [prepare_put hclaimed renamed_ready]
  exact not_instructed hlost

def deliverNext (key : String) : List DeskAct :=
  [.eventNext "exec-1" queuedStay 1 [], .result key "exec-1" ⟨true, some "wa-1", ""⟩]

/-- Everything but the reminder is delivered before the guest is renamed. -/
def renamedAfter : List DeskAct :=
  [.ingest deskSnapshot, claimFor 1, .prepare 0] ++
    (["r1:group", "r1:status", "rules:16502530000", "guide:7:20000000:16502530000"].flatMap fun suffix =>
      deliverNext (jobPrefix queuedStay ++ suffix)) ++
    [.ingest renamedSnapshot, claimFor 2, .prepare 1]

theorem emptyDesk_fresh : Fresh emptyDesk := ⟨⟨rfl, rfl⟩, ⟨rfl, rfl⟩⟩

/-- What is done between the two preparations. -/
def between : List DeskAct :=
  (["r1:group", "r1:status", "rules:16502530000", "guide:7:20000000:16502530000"].flatMap fun suffix =>
    deliverNext (jobPrefix queuedStay ++ suffix)) ++ [.ingest renamedSnapshot, claimFor 2]

def preparedDesk : Desk :=
  (run (step plainTemplates stayMd5) emptyDesk [.ingest deskSnapshot, claimFor 1]).put stayMd5 firstPreparer

theorem prepare_first :
    (run (step plainTemplates stayMd5) emptyDesk [.ingest deskSnapshot, claimFor 1]).prepare plainTemplates stayMd5 0 =
      preparedDesk :=
  prepare_put (p := firstPreparer) (by decide +kernel) (by decide +kernel)

theorem instructions_kept_renamed :
    Meets (step plainTemplates stayMd5) ok emptyDesk renamedAfter ∧
      (run (step plainTemplates stayMd5) emptyDesk renamedAfter).prepared =
        [(queuedStay, 1, 1000), (queuedStay, 2, 1000)] ∧
      Instructed (run (step plainTemplates stayMd5) emptyDesk renamedAfter) := by
  have hacts : renamedAfter = [.ingest deskSnapshot, claimFor 1] ++ (.prepare 0 :: (between ++ [.prepare 1])) := rfl
  obtain ⟨hbetween, hclaimed, hprepared⟩ : Meets (step plainTemplates stayMd5) ok preparedDesk between ∧
      (run (step plainTemplates stayMd5) preparedDesk between).preparers[1]? = some renamedPreparer ∧
      ((run (step plainTemplates stayMd5) preparedDesk between).put stayMd5 renamedPreparer).prepared =
        [(queuedStay, 1, 1000), (queuedStay, 2, 1000)] := by
    decide +kernel
  have hmeets : Meets (step plainTemplates stayMd5) ok emptyDesk renamedAfter := by
    rw [hacts]
    refine meets_append.2 ⟨by decide +kernel, trivial, meets_append.2 ⟨?_, trivial, trivial⟩⟩
    show Meets _ ok ((run (step plainTemplates stayMd5) emptyDesk [.ingest deskSnapshot, claimFor 1]).prepare
      plainTemplates stayMd5 0) between
    rw [prepare_first]
    exact hbetween
  refine ⟨hmeets, ?_, instructions_kept emptyDesk_fresh hmeets⟩
  rw [hacts, run_append, run_cons, run_append, run_cons, run_nil]
  show ((run (step plainTemplates stayMd5) ((run (step plainTemplates stayMd5) emptyDesk
    [.ingest deskSnapshot, claimFor 1]).prepare plainTemplates stayMd5 0) between).prepare plainTemplates stayMd5
      1).prepared = _
  rw [prepare_first, prepare_put hclaimed renamed_ready, hprepared]

end Desk

end Apartments.Morning
