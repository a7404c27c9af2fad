import Apartments.Hostaway.Listings
import Apartments.Lib.Run
import Mathlib.Data.List.Dedup
import Mathlib.Data.List.Induction
import Mathlib.Data.List.Sort

/-!
# Listings that are gone (`integrations/hostaway/property_services.py`, `_run_sync`)

The synchronization writes one property in each transaction and counts, after a full look at the provider, the
properties that were not there. A sync of the model is everything that its environment decides: what the provider
answers, which writes fail, and when the process dies.
-/

namespace Apartments.PropertySync

/-- A row of `Property`; the table has at most one for a listing. -/
structure Property where
  hostawayIsActive : Bool
  isVisible : Bool
  automatic : Bool
  publishBlockers : List String
  sourceMissing : Bool
  consecutiveMissingSyncs : ℕ
  lastSeenAt : Option Time
  sourceUpdatedAt : Option Time

abbrev Table := ℕ → Option Property

/-- `IntegrationSyncRun` has no more of the report than this that a claim of coverage rests on. -/
structure Report where
  fetched : ℕ
  propertiesFailed : ℕ
  sourceMissingMarked : ℕ
  errors : List String
  paginationComplete : Bool

/-- What becomes of the transaction of a listing; `died` is an error that is not caught, or the end of the process. -/
inductive Fate
  | saved | failed | died
deriving DecidableEq

/-- What `get_amenities` does; only an authentication error ends the run. -/
inductive Amenities
  | read (errors : List String)
  | unavailable (error : String)
  | rejected

/--
A call of `sync_properties`. `busy` says that another sync holds the lock, `found` what the publishing policy finds
against a property, and `reached` the rows that the marking gets to, in the order the database hands them out.
-/
structure Sync where
  listingId : Option ℤ
  limit : Option ℤ
  dryRun : Bool
  force : Bool
  busy : Bool
  autoPublish : Bool
  provider : Provider
  single : ℕ → Option Payload
  amenities : Option Amenities
  fate : ℕ → Fate
  found : ℕ → List String
  reached : List ℕ
  once : reached.Nodup
  now : Time

/-! ### One property -/

/-- `_is_stale`. -/
def isStale (existing : Option Property) (listing : HostawayListing) (force : Bool) : Bool :=
  match existing.bind Property.sourceUpdatedAt, listing.sourceUpdatedAt with
  | some known, some given => !force && given < known
  | _, _ => false

/-- `_apply_publish_policy`, the readiness being `blockers`. -/
def applyPublishPolicy (autoPublish : Bool) (blockers : List String) (p : Property) : Property :=
  { p with
    publishBlockers := blockers
    isVisible :=
      if !p.hostawayIsActive then false else if p.automatic && autoPublish then blockers = [] else p.isVisible }

/-- What `update_or_create` creates. -/
def created : Property := ⟨true, false, true, [], false, 0, none, none⟩

/-- `_persist_unit`. -/
def persistUnit (r : Sync) (found : List String) (existing : Option Property) (l : HostawayListing) : Property :=
  if isStale existing l r.force then
    { existing.getD created with sourceMissing := false, consecutiveMissingSyncs := 0, lastSeenAt := some r.now }
  else
    applyPublishPolicy r.autoPublish found
      { existing.getD created with
        hostawayIsActive := l.isActive
        sourceUpdatedAt := l.sourceUpdatedAt
        sourceMissing := false
        consecutiveMissingSyncs := 0
        lastSeenAt := some r.now }

/-- The body of the loop of `_mark_missing_properties`. -/
def Property.missed (p : Property) : Property :=
  if 2 ≤ p.consecutiveMissingSyncs + 1 ∧ p.sourceMissing = false then
    { p with
      consecutiveMissingSyncs := p.consecutiveMissingSyncs + 1
      sourceMissing := true
      isVisible := false
      publishBlockers := ("missing_from_source" :: p.publishBlockers).dedup.insertionSort (· ≤ ·) }
  else { p with consecutiveMissingSyncs := p.consecutiveMissingSyncs + 1 }

/-! ### A run -/

def Table.put (t : Table) (id : ℕ) (p : Property) : Table := fun k => if k = id then some p else t k

/-- What a loop that writes has done so far, and whether the process is still there. -/
structure Progress where
  table : Table
  report : Report
  alive : Bool

namespace Progress

def write (s : Progress) (id : ℕ) (p : Property) : Progress := { s with table := s.table.put id p }

/-- `report.source_missing_marked += newly_marked`. -/
def countMarked (s : Progress) (newlyMarked : ℕ) : Progress :=
  { s with report := { s.report with sourceMissingMarked := s.report.sourceMissingMarked + newlyMarked } }

/-- The transaction of a listing failed. -/
def fail (s : Progress) (l : HostawayListing) : Progress :=
  { s with
    report :=
      { s.report with
        propertiesFailed := s.report.propertiesFailed + 1
        errors := s.report.errors ++ ["Listing " ++ toString l.listingId ++ ": database update failed"] } }

end Progress

/-- `_mark_missing_properties`; a counter that has no room left makes the save fail, and with it the run. -/
def markMissing (seen : List ℕ) : List ℕ → Progress → Progress
  | [], s => s
  | id :: ids, s =>
    match s.table id with
    | none => markMissing seen ids s
    | some p =>
      if id ∈ seen then markMissing seen ids s
      else if 32767 < p.missed.consecutiveMissingSyncs then { s with alive := false }
      else
        markMissing seen ids
          ((s.write id p.missed).countMarked (if p.missed.sourceMissing && !p.sourceMissing then 1 else 0))

namespace Sync

variable (r : Sync)

def coverage : Coverage := fetchListings r.provider r.single (r.listingId.map Int.toNat) (r.limit.map Int.toNat)

/-- The listings that `normalize_listing` accepts. -/
def listings : List HostawayListing := r.coverage.records.filterMap fun p => (normalizeListing p).toOption

def listingIds : List ℕ := r.listings.map HostawayListing.listingId

def rejected (p : Payload) : Bool := (normalizeListing p).toOption.isNone

/-- The texts of the loop that normalizes the payloads. -/
def rejections : List String :=
  r.coverage.records.zipIdx.flatMap fun (p, index) =>
    match normalizeListing p with
    | .error exc => ["Listing payload " ++ toString index ++ " rejected: " ++ exc]
    | .ok l => l.validationErrors.map fun error => "Listing " ++ toString l.listingId ++ ": " ++ error

/-- What the amenities add to the errors; `none` if they end the run. -/
def amenityErrors : Option (List String) :=
  match r.amenities with
  | none => some []
  | some (.read errors) => some errors
  | some (.unavailable error) => some ["Amenity definitions unavailable: " ++ error]
  | some .rejected => none

/-- The arguments are in order, the lock was free, and reading the provider did not end the run. -/
def starts : Bool :=
  r.listingId.all (0 < ·) && r.limit.all (0 < ·) && !r.busy && !r.coverage.failed && r.amenityErrors.isSome

/-- The report before the first property is written. -/
def firstReport : Report where
  fetched := r.coverage.records.length
  propertiesFailed := r.coverage.records.countP rejected
  sourceMissingMarked := 0
  errors := r.coverage.errors ++ r.amenityErrors.getD [] ++ r.rejections
  paginationComplete := r.coverage.complete

/-- The loop over the listings; a dry run only simulates. -/
def persistUnits : ℕ → List HostawayListing → Progress → Progress
  | _, [], s => s
  | i, l :: ls, s =>
    match r.fate i with
    | .died => { s with alive := false }
    | .failed => persistUnits (i + 1) ls (s.fail l)
    | .saved =>
      persistUnits (i + 1) ls
        (if r.dryRun then s else s.write l.listingId (persistUnit r (r.found i) (s.table l.listingId) l))

/-- Whether a run that got through its listings goes on to mark the missing ones. -/
def marks (report : Report) : Bool :=
  !r.dryRun && r.listingId.isNone && r.limit.isNone && report.paginationComplete && report.propertiesFailed == 0

end Sync

/-- `_run_sync`; a run that does not start leaves everything as it is. -/
def syncProperties (t : Table) (r : Sync) : Progress :=
  if !r.starts then ⟨t, r.firstReport, false⟩
  else
    let s := r.persistUnits 0 r.listings ⟨t, r.firstReport, true⟩
    if !s.alive then s
    else if r.marks s.report then markMissing r.listingIds r.reached s
    else if !r.dryRun && r.listingId.isNone && r.limit.isNone && !s.report.paginationComplete then
      { s with
        report :=
          { s.report with
            errors :=
              s.report.errors ++ ["Full listing pagination was incomplete; missing-source state was unchanged."] } }
    else s

/-- The table after the syncs `rs`, of which the lock lets one at a time run; at first there is no property. -/
abbrev after (rs : List Sync) : Table := Machine.run (fun t r => (syncProperties t r).table) (fun _ => none) rs

/-! ### What a run does to one property -/

namespace Sync

variable {r : Sync}

/-- The listings whose transaction is committed: up to where the process dies, those that do not fail. -/
def savesFrom (r : Sync) : ℕ → List HostawayListing → List ℕ
  | _, [] => []
  | i, l :: ls =>
    match r.fate i with
    | .died => []
    | .failed => savesFrom r (i + 1) ls
    | .saved => l.listingId :: savesFrom r (i + 1) ls

def saves (r : Sync) : List ℕ := if r.starts && !r.dryRun then r.savesFrom 0 r.listings else []

/-- A complete full sync without a failure, which goes on to mark what it did not find. -/
structure FullLook (r : Sync) : Prop where
  starts : r.starts = true
  dryRun : r.dryRun = false
  listingId : r.listingId = none
  limit : r.limit = none
  complete : r.coverage.complete = true
  accepted : ∀ p ∈ r.coverage.records, rejected p = false
  saved : ∀ i < r.listings.length, r.fate i = .saved

instance (r : Sync) : Decidable r.FullLook :=
  decidable_of_iff
    (r.starts = true ∧ r.dryRun = false ∧ r.listingId = none ∧ r.limit = none ∧ r.coverage.complete = true ∧
      (∀ p ∈ r.coverage.records, rejected p = false) ∧ ∀ i < r.listings.length, r.fate i = .saved)
    ⟨fun ⟨h1, h2, h3, h4, h5, h6, h7⟩ => ⟨h1, h2, h3, h4, h5, h6, h7⟩,
      fun ⟨h1, h2, h3, h4, h5, h6, h7⟩ => ⟨h1, h2, h3, h4, h5, h6, h7⟩⟩

/-- A full look that does not find the listing. -/
def Misses (r : Sync) (id : ℕ) : Prop := r.FullLook ∧ id ∉ r.listingIds

instance (r : Sync) (id : ℕ) : Decidable (r.Misses id) := inferInstanceAs (Decidable (_ ∧ _))

end Sync

/-- The property is there, and nothing counts against it. -/
def Table.Present (t : Table) (id : ℕ) : Prop :=
  ∃ p, t id = some p ∧ p.sourceMissing = false ∧ p.consecutiveMissingSyncs = 0

namespace Table

variable {t : Table} {id k : ℕ} {p : Property}

@[simp] theorem put_self : t.put id p id = some p := if_pos rfl

theorem put_ne (h : k ≠ id) : t.put id p k = t k := if_neg h

theorem present_congr {t' : Table} (h : t' id = t id) : t'.Present id ↔ t.Present id := by
  unfold Present
  rw [h]

end Table

@[simp] theorem applyPublishPolicy_sourceMissing (autoPublish : Bool) (blockers : List String) (p : Property) :
    (applyPublishPolicy autoPublish blockers p).sourceMissing = p.sourceMissing := rfl

@[simp] theorem applyPublishPolicy_consecutiveMissingSyncs (autoPublish : Bool) (blockers : List String)
    (p : Property) :
    (applyPublishPolicy autoPublish blockers p).consecutiveMissingSyncs = p.consecutiveMissingSyncs := rfl

/-- A sighting, also a stale one, resets what is counted against a property. -/
theorem persistUnit_resets (r : Sync) (found : List String) (existing : Option Property) (l : HostawayListing) :
    (persistUnit r found existing l).sourceMissing = false ∧
      (persistUnit r found existing l).consecutiveMissingSyncs = 0 := by
  unfold persistUnit
  split_ifs <;> simp

theorem Property.missed_count (p : Property) :
    p.missed.consecutiveMissingSyncs = p.consecutiveMissingSyncs + 1 := by
  unfold Property.missed
  split_ifs <;> rfl

/-- A property is declared missing by the second full look that does not find it, which hides it. -/
theorem Property.missed_sourceMissing {p : Property} (h : p.missed.sourceMissing = true) :
    p.sourceMissing = true ∨ 1 ≤ p.consecutiveMissingSyncs ∧ p.missed.isVisible = false ∧
      "missing_from_source" ∈ p.missed.publishBlockers := by
  unfold Property.missed at h ⊢
  split_ifs at h ⊢ with hc
  · refine .inr ⟨by omega, rfl, ?_⟩
    simp [List.mem_insertionSort]
  · exact .inl h

theorem markMissing_of_not_mem (seen : List ℕ) {ids : List ℕ} {id : ℕ} (s : Progress) (h : id ∉ ids ∨ id ∈ seen) :
    (markMissing seen ids s).table id = s.table id := by
  induction ids generalizing s with
  | nil => rfl
  | cons k ids ih =>
    have hids : id ∉ ids ∨ id ∈ seen := h.imp_left fun h' hm => h' (List.mem_cons_of_mem _ hm)
    unfold markMissing
    split
    · exact ih s hids
    · by_cases hseen : k ∈ seen
      · rw [if_pos hseen]
        exact ih s hids
      rw [if_neg hseen]
      by_cases hroom : 32767 < (Property.missed ‹_›).consecutiveMissingSyncs
      · rw [if_pos hroom]
      · rw [if_neg hroom, ih _ hids]
        refine Table.put_ne ?_
        rintro rfl
        rcases h with h | h
        · exact h List.mem_cons_self
        · exact hseen h

/-- The marking counts one look against a property that was not seen, or does not get to it. -/
theorem markMissing_table (seen : List ℕ) {ids : List ℕ} (hnd : ids.Nodup) (s : Progress) (id : ℕ) :
    (markMissing seen ids s).table id = s.table id ∨
      id ∉ seen ∧ (markMissing seen ids s).table id = (s.table id).map Property.missed := by
  induction ids generalizing s with
  | nil => exact .inl rfl
  | cons k ids ih =>
    rw [List.nodup_cons] at hnd
    unfold markMissing
    split
    · exact ih hnd.2 s
    · rename_i p hp
      by_cases hseen : k ∈ seen
      · rw [if_pos hseen]
        exact ih hnd.2 s
      rw [if_neg hseen]
      by_cases hroom : 32767 < p.missed.consecutiveMissingSyncs
      · rw [if_pos hroom]
        exact .inl rfl
      rw [if_neg hroom]
      by_cases hk : id = k
      · subst hk
        refine .inr ⟨hseen, ?_⟩
        rw [markMissing_of_not_mem seen _ (.inl hnd.1), hp]
        exact Table.put_self
      · have hput : s.table.put k p.missed id = s.table id := Table.put_ne hk
        rw [← hput]
        exact ih hnd.2 _

namespace Sync

variable {r : Sync} {id : ℕ}

variable (id) in
/-- The loop over the listings leaves alone what it does not save, and what it saves is there. -/
theorem persistUnits_table (hdry : r.dryRun = false) (i : ℕ) (ls : List HostawayListing) (s : Progress) :
    (id ∉ r.savesFrom i ls → (r.persistUnits i ls s).table id = s.table id) ∧
      (id ∈ r.savesFrom i ls ∨ s.table.Present id → (r.persistUnits i ls s).table.Present id) := by
  induction ls generalizing i s with
  | nil => simp [savesFrom, persistUnits]
  | cons l ls ih =>
    unfold savesFrom persistUnits
    cases r.fate i with
    | died => simp
    | failed => exact ih (i + 1) _
    | saved =>
      simp only [hdry, Bool.false_eq_true, if_false, List.mem_cons, not_or]
      refine ⟨fun ⟨hne, hls⟩ => ?_, fun h => ?_⟩
      · rw [(ih (i + 1) _).1 hls]
        exact Table.put_ne hne
      · refine (ih (i + 1) _).2 ?_
        by_cases hid : id = l.listingId
        · subst hid
          exact .inr ⟨_, Table.put_self, persistUnit_resets ..⟩
        · refine (h.imp_left (Or.resolve_left · hid)).imp_right fun hp => ?_
          have hput := Table.put_ne (t := s.table) (p := persistUnit r (r.found i) (s.table l.listingId) l) hid
          rw [← Table.present_congr hput] at hp
          exact hp

theorem persistUnits_dry (hdry : r.dryRun = true) (i : ℕ) (ls : List HostawayListing) (s : Progress) :
    (r.persistUnits i ls s).table = s.table := by
  induction ls generalizing i s with
  | nil => rfl
  | cons l ls ih =>
    unfold persistUnits
    cases r.fate i with
    | died => rfl
    | failed => exact ih (i + 1) _
    | saved => simp [hdry, ih]

/-- What the loop over the listings leaves of the report's coverage and of its failures. -/
theorem persistUnits_report (i : ℕ) (ls : List HostawayListing) (s : Progress) :
    (r.persistUnits i ls s).report.paginationComplete = s.report.paginationComplete ∧
      s.report.propertiesFailed ≤ (r.persistUnits i ls s).report.propertiesFailed := by
  induction ls generalizing i s with
  | nil => simp [persistUnits]
  | cons l ls ih =>
    unfold persistUnits
    cases r.fate i with
    | died => simp
    | failed =>
      have h := ih (i + 1) (s.fail l)
      exact ⟨h.1, (Nat.le_succ _).trans h.2⟩
    | saved =>
      refine ⟨(ih (i + 1) _).1.trans ?_, le_trans (le_of_eq ?_) (ih (i + 1) _).2⟩
      · split_ifs <;> rfl
      · split_ifs <;> rfl

/-- A run that gets through its listings without a failure has saved them all. -/
theorem persistUnits_saved {i : ℕ} {ls : List HostawayListing} {s : Progress}
    (halive : (r.persistUnits i ls s).alive = true) (hfailed : (r.persistUnits i ls s).report.propertiesFailed = 0) :
    ∀ j < ls.length, r.fate (i + j) = .saved := by
  induction ls generalizing i s with
  | nil => simp
  | cons l ls ih =>
    unfold persistUnits at halive hfailed
    cases hf : r.fate i with
    | died => simp [hf] at halive
    | failed =>
      rw [hf] at hfailed
      have h := (persistUnits_report (r := r) (i + 1) ls (s.fail l)).2
      rw [hfailed] at h
      exact absurd h (Nat.not_succ_le_zero _)
    | saved =>
      rw [hf] at halive hfailed
      rintro (_ | j) hj
      · simpa using hf
      · have := ih halive hfailed j (by simpa using hj)
        rwa [Nat.add_right_comm] at this

theorem savesFrom_all {i : ℕ} {ls : List HostawayListing} (h : ∀ j < ls.length, r.fate (i + j) = .saved) :
    r.savesFrom i ls = ls.map HostawayListing.listingId := by
  induction ls generalizing i with
  | nil => rfl
  | cons l ls ih =>
    have h0 : r.fate i = .saved := by simpa using h 0 (by simp)
    unfold savesFrom
    rw [h0]
    simp only [List.map_cons, List.cons.injEq, true_and]
    refine ih fun j hj => ?_
    have := h (j + 1) (by simpa using hj)
    rwa [← Nat.add_assoc, Nat.add_right_comm] at this

theorem FullLook.saves (h : r.FullLook) : r.saves = r.listingIds := by
  unfold Sync.saves
  rw [h.starts, h.dryRun]
  exact savesFrom_all fun j hj => by simpa using h.saved j hj

/-- Only a full look marks. -/
theorem fullLook_of_marks {t : Table} (hstarts : r.starts = true)
    (halive : (r.persistUnits 0 r.listings ⟨t, r.firstReport, true⟩).alive = true)
    (h : r.marks (r.persistUnits 0 r.listings ⟨t, r.firstReport, true⟩).report = true) : r.FullLook := by
  simp only [marks, Bool.and_eq_true, Bool.not_eq_true', Option.isNone_iff_eq_none, beq_iff_eq] at h
  obtain ⟨⟨⟨⟨hdry, hid⟩, hlimit⟩, hcomplete⟩, hfailed⟩ := h
  have hreport := persistUnits_report (r := r) 0 r.listings ⟨t, r.firstReport, true⟩
  rw [hcomplete, hfailed] at hreport
  refine ⟨hstarts, hdry, hid, hlimit, hreport.1.symm, fun p hp => ?_, ?_⟩
  · have h0 : r.coverage.records.countP rejected = 0 := Nat.le_zero.1 hreport.2
    simpa using List.countP_eq_zero.1 h0 p hp
  · simpa using persistUnits_saved halive hfailed

end Sync

/-- What one sync does to the property of a listing. -/
theorem syncProperties_table (t : Table) (r : Sync) (id : ℕ) :
    (id ∈ r.saves ∧ (syncProperties t r).table.Present id) ∨
      (id ∉ r.saves ∧ (syncProperties t r).table id = t id) ∨
      (r.Misses id ∧ (syncProperties t r).table id = (t id).map Property.missed) := by
  cases hstarts : r.starts with
  | false => exact .inr (.inl ⟨by simp [Sync.saves, hstarts], by simp [syncProperties, hstarts]⟩)
  | true =>
    have key : ∀ s : Progress, s.table = (r.persistUnits 0 r.listings ⟨t, r.firstReport, true⟩).table →
        (id ∈ r.saves ∧ s.table.Present id) ∨ (id ∉ r.saves ∧ s.table id = t id) := by
      intro s hs
      rw [hs]
      cases hdry : r.dryRun with
      | true => exact .inr ⟨by simp [Sync.saves, hdry], by rw [Sync.persistUnits_dry hdry]⟩
      | false =>
        have hsaves : r.saves = r.savesFrom 0 r.listings := by simp [Sync.saves, hstarts, hdry]
        have h := Sync.persistUnits_table id hdry 0 r.listings ⟨t, r.firstReport, true⟩
        rw [hsaves]
        by_cases hid : id ∈ r.savesFrom 0 r.listings
        · exact .inl ⟨hid, h.2 (.inl hid)⟩
        · exact .inr ⟨hid, h.1 hid⟩
    unfold syncProperties
    simp only [hstarts, Bool.not_true, Bool.false_eq_true, if_false]
    split_ifs with halive hmarks hfull
    · exact (key _ rfl).imp_right .inl
    · have hlook := Sync.fullLook_of_marks hstarts (by simpa using halive) hmarks
      rcases markMissing_table r.listingIds r.once (r.persistUnits 0 r.listings ⟨t, r.firstReport, true⟩) id
        with hsame | ⟨hseen, hmissed⟩
      · rw [Table.present_congr hsame, hsame]
        exact (key _ rfl).imp_right .inl
      · rcases key _ rfl with ⟨hsaved, _⟩ | ⟨_, hsame⟩
        · rw [hlook.saves] at hsaved
          exact absurd hsaved hseen
        · rw [hsame] at hmissed
          exact .inr (.inr ⟨⟨hlook, hseen⟩, hmissed⟩)
    · exact (key _ rfl).imp_right .inl
    · exact (key _ rfl).imp_right .inl

/-! ### Runs -/

/-- A full look did not find the listing, and no sync since has saved it. -/
def MissedOnce (id : ℕ) (rs : List Sync) : Prop :=
  ∃ as a bs, rs = as ++ a :: bs ∧ a.Misses id ∧ ∀ r ∈ bs, id ∉ r.saves

/-- Two full looks did not find the listing, and no sync since the first of them has saved it. -/
def MissedTwice (id : ℕ) (rs : List Sync) : Prop :=
  ∃ as a bs b cs, rs = as ++ a :: (bs ++ b :: cs) ∧ a.Misses id ∧ b.Misses id ∧ ∀ r ∈ bs ++ b :: cs, id ∉ r.saves

section Missed

variable {id : ℕ} {rs : List Sync} {r : Sync}

theorem Sync.Misses.not_saves (h : r.Misses id) : id ∉ r.saves := by
  rw [h.1.saves]
  exact h.2

theorem MissedOnce.new (rs : List Sync) (h : r.Misses id) : MissedOnce id (rs ++ [r]) :=
  ⟨rs, r, [], rfl, h, by simp⟩

theorem MissedOnce.keep (h : MissedOnce id rs) (hr : id ∉ r.saves) : MissedOnce id (rs ++ [r]) := by
  obtain ⟨as, a, bs, rfl, ha, hbs⟩ := h
  refine ⟨as, a, bs ++ [r], by simp, ha, fun x hx => ?_⟩
  rcases List.mem_append.1 hx with hx | hx
  · exact hbs x hx
  · exact (List.mem_singleton.1 hx) ▸ hr

theorem MissedOnce.again (h : MissedOnce id rs) (hr : r.Misses id) : MissedTwice id (rs ++ [r]) := by
  obtain ⟨as, a, bs, rfl, ha, hbs⟩ := h
  refine ⟨as, a, bs, r, [], by simp, ha, hr, fun x hx => ?_⟩
  rcases List.mem_append.1 hx with hx | hx
  · exact hbs x hx
  · exact (List.mem_singleton.1 hx) ▸ hr.not_saves

theorem MissedTwice.keep (h : MissedTwice id rs) (hr : id ∉ r.saves) : MissedTwice id (rs ++ [r]) := by
  obtain ⟨as, a, bs, b, cs, rfl, ha, hb, hbs⟩ := h
  refine ⟨as, a, bs, b, cs ++ [r], by simp, ha, hb, fun x hx => ?_⟩
  rw [← List.cons_append, ← List.append_assoc, List.mem_append] at hx
  rcases hx with hx | hx
  · exact hbs x hx
  · exact (List.mem_singleton.1 hx) ▸ hr

end Missed

/-- What is counted against a property was counted by full looks that did not find it. -/
structure Property.Counted (p : Property) (id : ℕ) (rs : List Sync) : Prop where
  once : 1 ≤ p.consecutiveMissingSyncs → MissedOnce id rs
  twice : p.sourceMissing = true → MissedTwice id rs

theorem after_snoc (rs : List Sync) (r : Sync) : after (rs ++ [r]) = (syncProperties (after rs) r).table := by
  simp [after, Machine.run_append]

theorem after_counted (rs : List Sync) (id : ℕ) : ∀ p, after rs id = some p → p.Counted id rs := by
  induction rs using List.reverseRecOn with
  | nil => exact fun p hp => nomatch hp
  | append_singleton rs r ih =>
    intro p hp
    rw [after_snoc] at hp
    rcases syncProperties_table (after rs) r id with ⟨_, q, hq, hmissing, hcount⟩ | ⟨hsaves, hsame⟩ | ⟨hr, hmissed⟩
    · obtain rfl : q = p := Option.some.inj (hq.symm.trans hp)
      exact ⟨fun h => by omega, fun h => by simp [hmissing] at h⟩
    · have h := ih p (hsame.symm.trans hp)
      exact ⟨fun h1 => (h.once h1).keep hsaves, fun h2 => (h.twice h2).keep hsaves⟩
    · obtain ⟨q, hq, rfl⟩ := Option.map_eq_some_iff.1 (hmissed.symm.trans hp)
      have h := ih q hq
      refine ⟨fun _ => .new rs hr, fun h2 => ?_⟩
      rcases Property.missed_sourceMissing h2 with h2 | ⟨h1, _⟩
      · exact (h.twice h2).keep hr.not_saves
      · exact (h.once h1).again hr

/--
After any sequence of syncs a property is missing only if two full looks did not find it and nothing saved it since the
first of them; a sync that is no full look leaves each property as it is or resets it; one that saves a listing,
although it is stale, resets it; a sync that declares a property missing hides it; and the loop over the pages makes at
most a thousand calls, and covers the listings where it says so.
-/
theorem missing_after_two_looks (rs : List Sync) (r : Sync) (id : ℕ) :
    (∀ p, after rs id = some p → p.sourceMissing = true → MissedTwice id rs) ∧
      (¬ r.FullLook → after (rs ++ [r]) id = after rs id ∨ id ∈ r.saves ∧ (after (rs ++ [r])).Present id) ∧
      (id ∈ r.saves → (after (rs ++ [r])).Present id) ∧
      (∀ p q, after rs id = some p → p.sourceMissing = false → after (rs ++ [r]) id = some q →
        q.sourceMissing = true →
          r.Misses id ∧ q.isVisible = false ∧ "missing_from_source" ∈ q.publishBlockers) ∧
      r.coverage.calls.length ≤ 1000 ∧ (r.coverage.complete = true → Covered r.coverage.calls) := by
  have key := syncProperties_table (after rs) r id
  rw [← after_snoc] at key
  refine ⟨fun p hp h => (after_counted rs id p hp).twice h, fun hr => ?_, fun hsaves => ?_, fun p q hp hpm hq hqm => ?_,
    fetchListings_calls .., fun h => (fetchListings_complete h).2.2⟩
  · rcases key with h | ⟨_, h⟩ | ⟨h, _⟩
    · exact .inr h
    · exact .inl h
    · exact absurd h.1 hr
  · rcases key with ⟨_, h⟩ | ⟨h, _⟩ | ⟨h, _⟩
    · exact h
    · exact absurd hsaves h
    · exact absurd hsaves h.not_saves
  · rcases key with ⟨_, x, hx, hxm, _⟩ | ⟨_, h⟩ | ⟨hr, h⟩
    · obtain rfl : x = q := Option.some.inj (hx.symm.trans hq)
      exact absurd hqm (by simp [hxm])
    · obtain rfl : p = q := Option.some.inj (hp.symm.trans (h.symm.trans hq))
      exact absurd hqm (by simp [hpm])
    · obtain ⟨x, hx, rfl⟩ := Option.map_eq_some_iff.1 (h.symm.trans hq)
      obtain rfl : p = x := Option.some.inj (hp.symm.trans hx)
      rcases Property.missed_sourceMissing hqm with h' | ⟨_, h'⟩
      · exact absurd h' (by simp [hpm])
      · exact ⟨hr, h'⟩

/-! ### A sighting that is not saved -/

/-- A payload as the provider gives it for a listing. -/
def listed (id : ℤ) : Payload := ⟨some id, none, true, none, []⟩

/-- A full sync that is answered with one page, whose count is announced as it is. -/
def fullSync (page : List Payload) (fate : Fate) (reached : List ℕ) (once : reached.Nodup) : Sync where
  listingId := none
  limit := none
  dryRun := false
  force := false
  busy := false
  autoPublish := true
  provider := fun _ _ _ => some (page, some page.length)
  single := fun _ => none
  amenities := some (.read [])
  fate := fun _ => fate
  found := fun _ => []
  reached := reached
  once := once
  now := 0

def foundSync (fate : Fate) : Sync := fullSync [listed 7] fate [] List.nodup_nil

def goneSync : Sync := fullSync [] .saved [7] (List.nodup_singleton 7)

/-- The second look declares the property missing, and so hides it; a sighting brings it back. -/
theorem missing_after_two_looks_gone :
    MissedTwice 7 [foundSync .saved, goneSync, goneSync] ∧ goneSync.Misses 7 ∧
      (after [foundSync .saved, goneSync, goneSync, foundSync .saved]).Present 7 := by
  have hgone := missing_after_two_looks [foundSync .saved, goneSync] goneSync 7
  have hthere := missing_after_two_looks [foundSync .saved, goneSync, goneSync] (foundSync .saved) 7
  exact ⟨hthere.1 _ rfl (by decide +kernel), (hgone.2.2.2.1 _ _ rfl (by decide +kernel) rfl (by decide +kernel)).1,
    hthere.2.2.1 (by decide +kernel)⟩

/-- A property is declared missing although a sync found it between the two looks: it could not be written. -/
theorem missing_although_sighted :
    ¬ ∀ (rs : List Sync) (id : ℕ) (p : Property), after rs id = some p → p.sourceMissing = true →
      ∃ as a bs b cs, rs = as ++ a :: (bs ++ b :: cs) ∧ a.Misses id ∧ b.Misses id ∧ ∀ r ∈ bs, id ∉ r.listingIds := by
  intro h
  obtain ⟨as, a, bs, b, cs, hrs, ha, hb, hbs⟩ :=
    h [foundSync .saved, goneSync, foundSync .failed, goneSync] 7 _ rfl (by decide +kernel)
  have hfound (fate : Fate) : 7 ∈ (foundSync fate).listingIds := by
    cases fate <;> decide +kernel
  -- the first look is the second sync, so the failing one is the other look or lies between the two
  rcases as with _ | ⟨_, _ | ⟨_, _ | ⟨_, _ | ⟨_, as⟩⟩⟩⟩
  · obtain rfl := (List.cons.inj hrs).1
    exact ha.2 (hfound _)
  · obtain ⟨-, hrs⟩ := List.cons.inj hrs
    obtain ⟨-, hrs⟩ := List.cons.inj hrs
    cases bs with
    | nil =>
      obtain rfl := (List.cons.inj hrs).1
      exact hb.2 (hfound _)
    | cons x bs =>
      obtain rfl := (List.cons.inj hrs).1
      exact hbs _ List.mem_cons_self (hfound _)
  · obtain ⟨-, hrs⟩ := List.cons.inj hrs
    obtain ⟨-, hrs⟩ := List.cons.inj hrs
    obtain rfl := (List.cons.inj hrs).1
    exact ha.2 (hfound _)
  · simp at hrs
  · simp at hrs

end Apartments.PropertySync
