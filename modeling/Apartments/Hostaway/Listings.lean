import Mathlib.Data.List.Basic
import Apartments.Models

/-!
# Reading the listings (`integrations/hostaway/property_services.py`, `_fetch_listings`)

A provider answers a call by its number, the page's limit and its offset, with a page and a count or with an error; it
may give more records than asked for, repeat them, and change the count. `calls` keeps the pages that were read.
-/

namespace Apartments.PropertySync

/-- What `normalize_listing` looks at before it accepts a payload, as `_integer` reads it; `listingMapId` may be empty. -/
structure Payload where
  id : Option ℤ
  listingMapId : Option (Option ℤ)
  isActive : Bool
  sourceUpdatedAt : Option Time
  validationErrors : List String

structure HostawayListing where
  listingId : ℕ
  listingMapId : Option ℕ
  isActive : Bool
  sourceUpdatedAt : Option Time
  validationErrors : List String

/-- `_positive_integer`. -/
def positiveInteger (parsed : Option ℤ) (fieldName : String) : Except String ℕ :=
  match parsed with
  | none => .error (fieldName ++ " must be an integer")
  | some n => if n ≤ 0 then .error (fieldName ++ " must be positive") else .ok n.toNat

/-- `_optional_positive_integer`. -/
def optionalPositiveInteger (parsed : Option (Option ℤ)) (fieldName : String) : Except String (Option ℕ) :=
  match parsed with
  | none => .ok none
  | some n => (positiveInteger n fieldName).map some

def normalizeListing (p : Payload) : Except String HostawayListing := do
  let listingId ← positiveInteger p.id "id"
  let listingMapId ← optionalPositiveInteger p.listingMapId "listingMapId"
  return ⟨listingId, listingMapId, p.isActive, p.sourceUpdatedAt, p.validationErrors⟩

/-- A call of `get_listings` that was answered. -/
structure Call where
  limit : ℕ
  offset : ℕ
  page : List Payload
  count : Option ℕ

/-- `get_listings` by the number of the call, its limit and its offset; `none` is a `HostawayError`. -/
abbrev Provider := ℕ → ℕ → ℕ → Option (List Payload × Option ℕ)

/-- The variables of the loop, with the calls that it made; `failed` if one of them raised. -/
structure Coverage where
  records : List Payload
  offset : ℕ
  expectedCount : Option ℕ
  complete : Bool
  errors : List String
  failed : Bool
  calls : List Call

namespace Coverage

def start : Coverage := ⟨[], 0, none, false, [], false, []⟩

/-- `remaining`. -/
def remaining (limit : Option ℕ) (s : Coverage) : ℕ :=
  match limit with
  | none => 100
  | some n => min 100 (n - s.records.length)

/-- A page is added, and the first count that is announced becomes the expected one. -/
def read (s : Coverage) (limit : ℕ) (page : List Payload) (count : Option ℕ) : Coverage :=
  { s with
    records := s.records ++ page
    offset := s.offset + page.length
    expectedCount := s.expectedCount <|> count
    calls := s.calls ++ [⟨limit, s.offset, page, count⟩] }

/-- The count of a page is another one than the expected one. -/
def countChanged (s : Coverage) (count : Option ℕ) : Bool :=
  match count, s.expectedCount with
  | some n, some m => n != m
  | _, _ => false

/-- The expected count, if there is one, is reached. -/
def reached (s : Coverage) : Bool := s.expectedCount.all (· ≤ s.offset)

/-- Whether the loop ends after a page that was asked for with `limit`, and what it then says of the coverage. -/
def verdict (s : Coverage) (limit : ℕ) (page : List Payload) : Option Bool :=
  if page = [] then some s.reached
  else if s.expectedCount.isSome then (if s.reached then some true else none)
  else if page.length < limit then some true
  else none

end Coverage

/-- The `while` loop of `_fetch_listings`; `left` is what is left of the 1000 pages of the safety limit. -/
def readPages (provider : Provider) (limit : Option ℕ) (left : ℕ) (s : Coverage) : Coverage :=
  if limit.all (s.records.length < ·) then
    match left with
    | 0 => { s with errors := s.errors ++ ["Listing pagination safety limit reached."] }
    | left + 1 =>
      match provider s.calls.length (s.remaining limit) s.offset with
      | none => { s with failed := true }
      | some (page, count) =>
        if s.countChanged count then
          { s.read (s.remaining limit) page count with
            errors := s.errors ++ ["Listing count changed during pagination."] }
        else
          match (s.read (s.remaining limit) page count).verdict (s.remaining limit) page with
          | some complete => { s.read (s.remaining limit) page count with complete := complete }
          | none => readPages provider limit left (s.read (s.remaining limit) page count)
  else s

/-- `_fetch_listings`; `single` is what `get_listing` gives for the id that is asked for. -/
def fetchListings (provider : Provider) (single : ℕ → Option Payload) (listingId limit : Option ℕ) : Coverage :=
  match listingId with
  | some id =>
    match single id with
    | none => { Coverage.start with failed := true }
    | some record => { Coverage.start with records := [record] }
  | none =>
    let s := readPages provider limit 1000 .start
    if limit.isSome then { s with complete := false } else s

/-! ### When the loop says that it has read everything -/

/-- The pages read reach the one count that was announced, or end unannounced with a page that is not full. -/
def Covered (calls : List Call) : Prop :=
  (∃ n, (∃ c ∈ calls, c.count = some n) ∧ (∀ c ∈ calls, ∀ m, c.count = some m → m = n) ∧
      n ≤ (calls.flatMap Call.page).length) ∨
    (∀ c ∈ calls, c.count = none) ∧ ∃ c, calls.getLast? = some c ∧ c.page.length < c.limit

/-- What holds between two rounds of the loop: the variables are those of the calls, and nothing is declared yet. -/
structure Coverage.Faithful (s : Coverage) : Prop where
  records : s.records = s.calls.flatMap Call.page
  offset : s.offset = s.records.length
  expected : ∀ n, s.expectedCount = some n → ∃ c ∈ s.calls, c.count = some n
  counts : ∀ c ∈ s.calls, ∀ n, c.count = some n → s.expectedCount = some n
  undeclared : s.complete = false

namespace Coverage.Faithful

variable {s : Coverage} {limit left : ℕ} {page : List Payload} {count : Option ℕ}

theorem start : Coverage.start.Faithful where
  records := rfl
  offset := rfl
  expected := by simp [Coverage.start]
  counts := by simp [Coverage.start]
  undeclared := rfl

theorem read (h : s.Faithful) (hsame : s.countChanged count = false) : (s.read limit page count).Faithful where
  records := by simp [Coverage.read, h.records]
  offset := by simp [Coverage.read, h.offset]
  expected := by
    intro n hn
    simp only [Coverage.read] at hn ⊢
    cases he : s.expectedCount with
    | none =>
      rw [he] at hn
      exact ⟨_, List.mem_append_right _ (List.mem_singleton_self _), by simpa using hn⟩
    | some m =>
      obtain ⟨c, hc, hcn⟩ := h.expected m he
      rw [he] at hn
      exact ⟨c, List.mem_append_left _ hc, by simpa [hcn] using hn⟩
  counts := by
    intro c hc n hn
    simp only [Coverage.read, List.mem_append, List.mem_singleton] at hc ⊢
    rcases hc with hc | rfl
    · simp [h.counts c hc n hn]
    · obtain rfl : count = some n := hn
      cases he : s.expectedCount with
      | none => simp
      | some m =>
        have hnm : n = m := by simpa [countChanged, he] using hsame
        simp [hnm]
  undeclared := h.undeclared

/-- A loop that ends on the verdict that everything is read has read up to the count, or to an unannounced end. -/
theorem covered (h : (s.read limit page count).Faithful) (hlimit : 0 < limit)
    (hv : (s.read limit page count).verdict limit page = some true) : Covered (s.read limit page count).calls := by
  cases he : (s.read limit page count).expectedCount with
  | some n =>
    have hn : n ≤ (s.read limit page count).offset := by
      simp only [verdict, reached, he] at hv
      split_ifs at hv <;> simp_all
    rw [h.offset, h.records] at hn
    refine .inl ⟨n, h.expected n he, fun c hc m hm => ?_, hn⟩
    have := h.counts c hc m hm
    simp_all
  | none =>
    refine .inr ⟨fun c hc => ?_, ⟨limit, s.offset, page, count⟩, by simp [Coverage.read], ?_⟩
    · cases hcount : c.count with
      | none => rfl
      | some m => simp [h.counts c hc m hcount] at he
    · simp only [verdict, he] at hv
      split_ifs at hv with h1 h2 <;> simp_all

end Coverage.Faithful

theorem readPages_calls (provider : Provider) (limit : Option ℕ) (left : ℕ) (s : Coverage) :
    (readPages provider limit left s).calls.length ≤ s.calls.length + left := by
  induction left generalizing s with
  | zero =>
    unfold readPages
    split_ifs <;> simp
  | succ left ih =>
    unfold readPages
    split_ifs
    · dsimp only
      split
      · simp
      · rename_i page count _
        split_ifs
        · simp [Coverage.read]
        · split
          · simp [Coverage.read]
          · refine (ih _).trans ?_
            simp only [Coverage.read, List.length_append, List.length_singleton]
            omega
    · simp

theorem readPages_covered (provider : Provider) {s : Coverage} (h : s.Faithful) (left : ℕ)
    (hc : (readPages provider none left s).complete = true) :
    Covered (readPages provider none left s).calls := by
  induction left generalizing s with
  | zero => simp [readPages, h.undeclared] at hc
  | succ left ih =>
    unfold readPages at hc ⊢
    simp only [Option.all_none, if_true] at hc ⊢
    split at hc
    · simp [h.undeclared] at hc
    · rename_i page count _
      split_ifs at hc ⊢ with hchanged
      · simp [Coverage.read, h.undeclared] at hc
      · have hread : (s.read (s.remaining none) page count).Faithful := h.read (by simpa using hchanged)
        split at hc
        · rename_i complete hv
          obtain rfl : complete = true := hc
          exact hread.covered (by simp [Coverage.remaining]) hv
        · exact ih hread hc

/-- The loop calls the provider at most a thousand times. -/
theorem fetchListings_calls (provider : Provider) (single : ℕ → Option Payload) (listingId limit : Option ℕ) :
    (fetchListings provider single listingId limit).calls.length ≤ 1000 := by
  have h := readPages_calls provider limit 1000 .start
  simp only [Coverage.start, List.length_nil, zero_add] at h
  unfold fetchListings
  cases listingId with
  | some id =>
    dsimp only
    split <;> simp [Coverage.start]
  | none =>
    dsimp only
    split_ifs
    · exact h
    · exact h

/-- Coverage is only declared without a listing and without a limit, and then the pages cover the listings. -/
theorem fetchListings_complete {provider : Provider} {single : ℕ → Option Payload} {listingId limit : Option ℕ}
    (h : (fetchListings provider single listingId limit).complete = true) :
    listingId = none ∧ limit = none ∧ Covered (fetchListings provider single listingId limit).calls := by
  unfold fetchListings at h ⊢
  cases listingId with
  | some id =>
    dsimp only at h
    split at h <;> simp [Coverage.start] at h
  | none =>
    cases limit with
    | some n => simp at h
    | none => exact ⟨rfl, rfl, readPages_covered provider .start 1000 h⟩

end Apartments.PropertySync
