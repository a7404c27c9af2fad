import Apartments.Hostaway.Refresh

/-!
# The order of snapshots (`webhook_processor.py`)

Any number of `sync_reservation_snapshot` calls for one stay, in any order. A call that raises leaves the row as it is.
The snapshots that were applied are a ghost list, the newest call last.
-/

namespace Apartments.SnapshotOrder

open Hostaway Refresh

/-- A call: `pk` is for the row that it may have to make, `clean` is the verdict of `full_clean` on the fields that
`cleaned` does not check. -/
structure SyncCall where
  pk : Uuid
  delivery : Delivery
  snapshot : Snapshot
  clean : Bool

/-- The row as it is saved. -/
def saved (c : SyncCall) (r : Reservation) : Option (Reservation × Bool) :=
  if c.clean then (cleaned (syncedRow c.delivery c.snapshot r)).map fun r => (r, false) else none

/-- `sync_reservation_snapshot`: the row and whether the snapshot was stale; `none` is the exception of `full_clean`. -/
def syncSnapshot (c : SyncCall) : Option Reservation → Option (Reservation × Bool)
  | none => saved c (newRow c.pk c.snapshot)
  | some r => if isStale r c.snapshot then some (r, true) else saved c r

/-- The row of a stay and the snapshots it was written from. -/
structure Synced where
  row : Option Reservation
  applied : List Snapshot

/-- A call for the stay `id`; a snapshot of another stay is written to another row. -/
def step (id : ℕ) (w : Synced) (c : SyncCall) : Synced :=
  if c.snapshot.reservationId ≠ id then w
  else
    match syncSnapshot c w.row with
    | none => w
    | some (_, true) => w
    | some (r, false) => ⟨some r, w.applied ++ [c.snapshot]⟩

/-- `source_updated_at` of the row, if there is one. -/
def Synced.updatedAt (w : Synced) : Option Time := w.row.bind (·.sourceUpdatedAt)

/-- The state is known to be from `t` or later. -/
def Synced.Since (w : Synced) (t : Time) : Prop := ∃ t' ∈ w.updatedAt, t ≤ t'

/-- The row says what the snapshot said. -/
structure Brought (s : Snapshot) (r : Reservation) : Prop where
  checkIn : r.checkIn = s.checkIn
  checkOut : r.checkOut = s.checkOut
  guests : r.guests = s.guests
  totalPrice : r.totalPrice = s.totalPrice
  currency : r.currency = Text.upper s.currency
  hostawayStatus : r.hostawayStatus = s.status
  normalizedStatus : r.normalizedStatus = normalizeStatus s.status

/-- The row says what the last of the applied snapshots said, and no applied one is newer. -/
def Synced.FromNewest (w : Synced) : Prop :=
  ∀ s, w.applied.getLast? = some s →
    (∃ r, w.row = some r ∧ Brought s r) ∧ ∀ s' ∈ w.applied, ∀ t ∈ s.updatedAt, ∀ t' ∈ s'.updatedAt, t' ≤ t

/-- The check constraint `reservation_not_confirmed_and_cancelled`. -/
def Synced.NotBoth (w : Synced) : Prop := ∀ r ∈ w.row, r.confirmedAt = none ∨ r.cancelledAt = none

/-- The payment status says that nothing is known to be paid. -/
def lacking (status : String) : Bool := decide (Text.casefold (Text.strip status) ∈ ["", "unknown", "unpaid"])

def isPaid (status : String) : Bool := Text.casefold (Text.strip status) == "paid"

/-- A recorded `paid` is not replaced by a status that lacks it. -/
def PaidKept (w w' : Synced) : Prop :=
  ∀ r ∈ w.row, isPaid r.paymentStatus = true → ∃ r' ∈ w'.row, lacking r'.paymentStatus = false

/-- `full_clean` passes the snapshot of the call. -/
def SyncCall.storable (c : SyncCall) : Bool :=
  c.clean && (Text.upper c.snapshot.currency).length == 3 && (Text.upper c.snapshot.currency).toList.all Char.isAlpha

/-- The call does not bring an undated snapshot to a dated row. -/
def Dated (id : ℕ) (w : Synced) (c : SyncCall) : Prop :=
  c.snapshot.reservationId = id → c.storable = true → c.snapshot.updatedAt = none → w.updatedAt = none

variable {id : ℕ} {w : Synced} {c : SyncCall} {r : Reservation} {s : Snapshot}

/-! ### One call -/

theorem saved_eq (c : SyncCall) (r : Reservation) :
    saved c r =
      if c.storable then
        some ({ syncedRow c.delivery c.snapshot r with currency := Text.upper c.snapshot.currency }, false)
      else none := by
  unfold saved cleaned SyncCall.storable
  rw [syncedRow_currency]
  cases c.clean <;> simp

/-- What a call answers about the snapshot is whether the row was written from a newer one. -/
theorem stale_of_sync {row : Option Reservation} {stale : Bool} (h : syncSnapshot c row = some (r, stale)) :
    row.any (isStale · c.snapshot) = stale := by
  have hsaved : ∀ r₀, saved c r₀ = some (r, stale) → stale = false := by
    intro r₀ hr
    rw [saved_eq] at hr
    split_ifs at hr
    cases hr
    rfl
  cases row with
  | none => exact (hsaved _ h).symm
  | some r₀ =>
    rw [syncSnapshot] at h
    split_ifs at h with hstale
    · cases h
      exact hstale
    · rw [hsaved _ h]
      simpa using hstale

/-- The row that a call starts from. -/
def SyncCall.given (c : SyncCall) (row : Option Reservation) : Reservation := row.getD (newRow c.pk c.snapshot)

theorem given_updatedAt (c : SyncCall) (w : Synced) : (c.given w.row).sourceUpdatedAt = w.updatedAt := by
  unfold SyncCall.given Synced.updatedAt
  cases w.row <;> rfl

/-- The row that a call leaves if it writes. -/
def SyncCall.left (c : SyncCall) (row : Option Reservation) : Reservation :=
  { syncedRow c.delivery c.snapshot (c.given row) with currency := Text.upper c.snapshot.currency }

/-- A call writes, or it leaves everything as it is: because it is for another stay, raises or is stale. -/
theorem step_cases (id : ℕ) (w : Synced) (c : SyncCall) :
    (step id w c = w ∧ (c.snapshot.reservationId ≠ id ∨ c.storable = false ∨
      ∃ t ∈ w.updatedAt, ∃ t' ∈ c.snapshot.updatedAt, t' < t)) ∨
    (c.snapshot.reservationId = id ∧ c.storable = true ∧ (∀ t ∈ w.updatedAt, ∀ t' ∈ c.snapshot.updatedAt, t ≤ t') ∧
      step id w c = ⟨some (c.left w.row), w.applied ++ [c.snapshot]⟩) := by
  by_cases hid : c.snapshot.reservationId = id
  swap
  · exact .inl ⟨if_pos hid, .inl hid⟩
  have hstep : step id w c =
      match syncSnapshot c w.row with
      | none => w
      | some (_, true) => w
      | some (r, false) => ⟨some r, w.applied ++ [c.snapshot]⟩ := if_neg (not_not_intro hid)
  rw [hstep]
  obtain ⟨row, applied⟩ := w
  cases row with
  | none =>
    simp only [syncSnapshot, saved_eq]
    cases hc : c.storable with
    | false => exact .inl ⟨rfl, .inr (.inl rfl)⟩
    | true => exact .inr ⟨hid, rfl, by simp [Synced.updatedAt], rfl⟩
  | some r =>
    simp only [syncSnapshot, saved_eq]
    by_cases hstale : isStale r c.snapshot = true
    · rw [if_pos hstale]
      refine .inl ⟨rfl, .inr (.inr ?_)⟩
      unfold isStale at hstale
      split at hstale
      · next t t' ht ht' => exact ⟨t, ht, t', ht', of_decide_eq_true hstale⟩
      · exact absurd hstale (by decide)
    · rw [if_neg hstale]
      cases hc : c.storable with
      | false => exact .inl ⟨rfl, .inr (.inl rfl)⟩
      | true =>
        refine .inr ⟨hid, rfl, fun t ht t' ht' => le_of_not_gt fun hlt => hstale ?_, rfl⟩
        have ht : r.sourceUpdatedAt = some t := ht
        have ht' : c.snapshot.updatedAt = some t' := ht'
        simp [isStale, ht, ht', hlt]

@[simp] theorem left_updatedAt (c : SyncCall) (row : Option Reservation) :
    (c.left row).sourceUpdatedAt = c.snapshot.updatedAt := rfl

theorem brought_left (c : SyncCall) (row : Option Reservation) : Brought c.snapshot (c.left row) := by
  constructor <;> simp only [SyncCall.left, syncedRow]

theorem merge_kept {current incoming : String} (h : isPaid current = true) :
    lacking (mergePaymentStatus current incoming) = false := by
  unfold mergePaymentStatus
  rw [isPaid, beq_iff_eq] at h
  split_ifs with hm
  · simp [lacking, h]
  · simpa [lacking, h] using hm

/-- The snapshot of a board's own stay is stored as the call does it. -/
theorem store_eq (c : SyncCall) (b : Board) (h : b.reservation.hostawayReservationId = some c.snapshot.reservationId) :
    (store c.clean c.delivery c.snapshot b).map (·.reservation) =
      (syncSnapshot c (some b.reservation)).map Prod.fst := by
  unfold store syncSnapshot saved
  by_cases hstale : isStale b.reservation c.snapshot = true
  · simp [hstale]
  · cases c.clean with
    | false => simp [h, hstale]
    | true => simp [h, hstale, Option.map_map, Function.comp_def]

/-! ### What every run keeps -/

theorem PaidKept.refl (w : Synced) : PaidKept w w := by
  intro r hr hpaid
  rw [isPaid, beq_iff_eq] at hpaid
  exact ⟨r, hr, by simp [lacking, hpaid]⟩

theorem paidKept_step (id : ℕ) (w : Synced) (c : SyncCall) : PaidKept w (step id w c) := by
  rcases step_cases id w c with ⟨hs, -⟩ | ⟨-, -, -, hs⟩
  · rw [hs]
    exact .refl w
  · rw [hs]
    intro r hr hpaid
    refine ⟨_, rfl, ?_⟩
    have hr : w.row = some r := hr
    have hleft : (c.left w.row).paymentStatus = mergePaymentStatus r.paymentStatus c.snapshot.paymentStatus := by
      simp [SyncCall.left, SyncCall.given, hr, syncedRow]
    rw [hleft]
    exact merge_kept hpaid

theorem notBoth_left (h : w.NotBoth) (c : SyncCall) :
    (c.left w.row).confirmedAt = none ∨ (c.left w.row).cancelledAt = none := by
  have hgiven : (c.given w.row).confirmedAt = none ∨ (c.given w.row).cancelledAt = none := by
    unfold SyncCall.given
    cases hrow : w.row with
    | none => exact .inl rfl
    | some r => exact h r hrow
  simp only [SyncCall.left, syncedRow]
  split_ifs
  · exact .inr rfl
  · exact .inl rfl
  · exact hgiven

theorem notBoth_step (h : w.NotBoth) (c : SyncCall) : (step id w c).NotBoth := by
  rcases step_cases id w c with ⟨hs, -⟩ | ⟨-, -, -, hs⟩
  · rwa [hs]
  · rw [hs]
    rintro r hr
    obtain rfl : c.left w.row = r := Option.some.inj hr
    exact notBoth_left h c

/-! ### What dated calls keep -/

/-- No applied snapshot is newer than the row, and the row says what the last of them said. -/
structure Newest (w : Synced) : Prop where
  since : ∀ s ∈ w.applied, ∀ t ∈ s.updatedAt, w.Since t
  last : ∀ s, w.applied.getLast? = some s → ∃ r, w.row = some r ∧ Brought s r ∧ r.sourceUpdatedAt = s.updatedAt

/-- A call keeps what is known of the time of the state exactly if it is dated. -/
theorem dated_iff (id : ℕ) (w : Synced) (c : SyncCall) :
    Dated id w c ↔ ∀ t, w.Since t → (step id w c).Since t := by
  rcases step_cases id w c with ⟨hs, hskip⟩ | ⟨hid, hclean, hle, hs⟩
  · rw [hs]
    refine iff_of_true (fun hid hclean hnone => ?_) fun t ht => ht
    rcases hskip with hother | hraised | ⟨-, -, t', ht', -⟩
    · exact absurd hid hother
    · rw [hclean] at hraised
      cases hraised
    · rw [hnone] at ht'
      cases ht'
  · rw [hs]
    constructor
    · rintro hdated t ⟨t', ht', hlt⟩
      cases hu : c.snapshot.updatedAt with
      | none =>
        rw [hdated hid hclean hu] at ht'
        cases ht'
      | some u => exact ⟨u, hu, hlt.trans (hle t' ht' u hu)⟩
    · intro hkept _ _ hnone
      by_contra hsome
      obtain ⟨t, ht⟩ := Option.ne_none_iff_exists'.1 hsome
      obtain ⟨t', ht', -⟩ := hkept t ⟨t, ht, le_rfl⟩
      have ht' : c.snapshot.updatedAt = some t' := ht'
      rw [hnone] at ht'
      cases ht'

theorem Newest.step (h : Newest w) (hdated : Dated id w c) : Newest (step id w c) := by
  have hkept := (dated_iff id w c).1 hdated
  rcases step_cases id w c with ⟨hs, -⟩ | ⟨-, -, -, hs⟩
  · rwa [hs]
  · rw [hs] at hkept ⊢
    constructor
    · intro s hmem t ht
      rcases List.mem_append.1 hmem with hold | hnew
      · exact hkept t (h.since s hold t ht)
      · rw [List.mem_singleton.1 hnew] at ht
        exact ⟨t, ht, le_rfl⟩
    · intro s hlast
      obtain rfl : c.snapshot = s := by simpa using hlast
      exact ⟨_, rfl, brought_left c w.row, rfl⟩

theorem Newest.fromNewest (h : Newest w) : w.FromNewest := by
  intro s hs
  obtain ⟨r, hr, hbrought, hupdated⟩ := h.last s hs
  refine ⟨⟨r, hr, hbrought⟩, fun s' hs' t ht t' ht' => ?_⟩
  obtain ⟨u, hu, hle⟩ := h.since s' hs' t' ht'
  have hu : w.row.bind (·.sourceUpdatedAt) = some u := hu
  rw [hr, Option.bind_some, hupdated, ht] at hu
  exact hle.trans_eq (Option.some.inj hu).symm

/-! ### Runs -/

/-- The run of calls from a row that may have been there before them. -/
abbrev after (id : ℕ) (row : Option Reservation) (calls : List SyncCall) (n : ℕ) : Synced :=
  Machine.run (step id) ⟨row, []⟩ (calls.take n)

/-- A run keeps the newest state exactly if none of its calls brings an undated snapshot to a dated row. -/
theorem newest_kept_iff (id : ℕ) (row : Option Reservation) (calls : List SyncCall)
    (hrow : ∀ r ∈ row, r.confirmedAt = none ∨ r.cancelledAt = none) :
    Machine.Meets (step id) (Dated id) ⟨row, []⟩ calls ↔
      (∀ n k t, n ≤ k → (after id row calls n).Since t → (after id row calls k).Since t) ∧
      (∀ n, (after id row calls n).FromNewest ∧ (after id row calls n).NotBoth) ∧
      ∀ n, PaidKept (after id row calls n) (after id row calls (n + 1)) := by
  have hstays : Machine.Meets (step id) (Dated id) ⟨row, []⟩ calls ↔
      ∀ n k t, n ≤ k → (after id row calls n).Since t → (after id row calls k).Since t :=
    Machine.meets_iff_stays (I := fun _ => True) (P := Synced.Since) (fun w c _ => trivial)
      (fun w c _ => dated_iff id w c) trivial
  refine ⟨fun h => ⟨hstays.1 h, fun n => ⟨?_, ?_⟩, fun n => ?_⟩, fun h => hstays.2 h.1⟩
  · have htake : Machine.Meets (step id) (Dated id) ⟨row, []⟩ (calls.take n) := by
      rw [← List.take_append_drop n calls] at h
      exact (Machine.meets_append.1 h).1
    have hnew : Newest (after id row calls n) :=
      htake.inv (fun w c hw hd => hw.step hd) ⟨by simp, by simp⟩
    exact hnew.fromNewest
  · have hboth : Synced.NotBoth ⟨row, []⟩ := hrow
    exact Machine.run_inv (I := Synced.NotBoth) (fun w c hw => notBoth_step hw c) hboth (calls.take n)
  · rw [after, after, List.take_add_one, Machine.run_append]
    cases calls[n]? with
    | none => exact .refl _
    | some c => exact paidKept_step id _ c

/-- A snapshot of the stay as it was for so many guests. -/
def snapshotCall (guests : ℕ) (updatedAt : Option Time) : SyncCall where
  pk := ⟨"a1", by decide⟩
  delivery := delivery
  snapshot := { labelled "SAR" with guests := guests, updatedAt := updatedAt }
  clean := true

/-- The last snapshot is older than the one before it. -/
def allDated : List SyncCall := [snapshotCall 2 (some 10), snapshotCall 3 (some 20), snapshotCall 4 (some 15)]

theorem newest_kept_dated :
    (∀ n k t, n ≤ k → (after 77001 none allDated n).Since t → (after 77001 none allDated k).Since t) ∧
      (∀ n, (after 77001 none allDated n).FromNewest ∧ (after 77001 none allDated n).NotBoth) ∧
      ∀ n, PaidKept (after 77001 none allDated n) (after 77001 none allDated (n + 1)) := by
  refine (newest_kept_iff 77001 none allDated (by simp)).1 ⟨?_, ?_, ?_, trivial⟩
  all_goals exact fun _ _ hnone => absurd hnone (by simp [snapshotCall])

def undatedBetween : List SyncCall := [snapshotCall 2 (some 10), snapshotCall 3 none, snapshotCall 4 (some 5)]

/-- The undated snapshot clears the time of the row, and one from before the first is applied. -/
theorem older_replaces_newer :
    ¬ (after 77001 none undatedBetween 3).FromNewest ∧
      (after 77001 none undatedBetween 1).updatedAt = some 10 ∧
      (after 77001 none undatedBetween 2).updatedAt = none ∧
      (after 77001 none undatedBetween 3).row.map (·.guests) = some 4 := by
  refine ⟨fun h => ?_, by decide, by decide, by decide⟩
  have happlied : (after 77001 none undatedBetween 3).applied = undatedBetween.map (·.snapshot) := by decide
  have hle := (h (snapshotCall 4 (some 5)).snapshot (by rw [happlied]; rfl)).2 (snapshotCall 2 (some 10)).snapshot
    (by rw [happlied]; simp [undatedBetween]) 5 rfl 10 rfl
  exact absurd hle (by decide)

end Apartments.SnapshotOrder
