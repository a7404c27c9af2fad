import Apartments.Hostaway.Booking
import Apartments.Lib.Outcome
import Apartments.Lib.Run
import Apartments.Lib.Traverse
import Apartments.Loyalty.Departures
import Mathlib.Data.Finset.Card
import Mathlib.Data.Int.Interval
import Mathlib.Data.Int.Order.Basic
import Mathlib.Data.Prod.Lex
import Mathlib.Data.String.Basic

/-!
# The history of a guest (`sama_guest_history.py`)

`guest_history` reads the stays of all guests page by page into a document that it keeps in the cache for a minute, under
a lock that may expire while it is held. Its callers are a machine: a caller reads the document, takes the lock, reads
pages, stores the document, and then looks at the lock and deletes it, with any steps of other callers between these.
What a scan meets (the properties, the pages, the clock) is the `Call` that its action carries.
-/

namespace Apartments.History

open Hostaway (normalizeStatus)
open Loyalty (Zone Zones)
open Machine

/-- The libraries that read a phone number, and the hash of its key. -/
structure Library where
  nfkc : String → String
  /-- `unicodedata.decimal`, of a decimal character. -/
  decimal : Char → Option ℕ
  /-- The number in its international format, if it is a valid one. -/
  e164 : String → Option String
  /-- `phone_key`. -/
  phoneKey : String → String
  zones : Zones

structure Property where
  hostawayListingMapId : Option ℕ
  slug : String
  timeZoneName : String
  countryCode : String
  displayCheckInHour : Option ℕ
  displayCheckOutHour : Option ℕ
deriving DecidableEq

/-- A row of a page. An `id`, a phone or a number of guests of another type is `none`, and so is a date that cannot be
read; a missing status is empty. -/
structure RemoteRow where
  id : Option ℤ
  phone : Option String
  status : Option String
  listingMapId : Option ℕ
  arrivalDate : Option ℕ
  departureDate : Option ℕ
  numberOfGuests : Option ℤ
deriving DecidableEq

structure PublicStay where
  propertySlug : String
  checkIn : ℕ
  checkOut : ℕ
  startsAt : Time
  endsAt : Time
  guests : Option ℤ
deriving DecidableEq

structure Entry where
  phoneKey : String
  stay : PublicStay
deriving DecidableEq

structure Document where
  stays : List Entry
  seen : Finset ℤ
  cursor : Option ℤ
  complete : Bool
  bounded : Bool
  checkedAt : Option Time
deriving DecidableEq

/-- `unverified` is the error that is raised after the document has been deleted. -/
inductive Failure
  | response (message : String)
  | unverified
  | raised
deriving DecidableEq

structure Answer where
  matchKey : String
  checkedAt : Time
  coverage : String
  stays : List PublicStay
deriving DecidableEq

/-- What a scan meets: the pages after a cursor in the rounds left, and whether the time was up at each of the three
checks of a round. A page that cannot be read is `none`. -/
structure Call where
  properties : List Property
  page : ℕ → Option ℤ → Option (List RemoteRow)
  late : ℕ → Fin 3 → Bool
  checkedAt : Time

/-! ### A row -/

def phoneChar (c : Char) : Bool :=
  c == '+' || c.isDigit || Text.isSpace c || c == '(' || c == ')' || c == '.' || c == '-'

def separator (c : Char) : Bool := Text.isSpace c || c == '(' || c == ')' || c == '.' || c == '-'

/-- `canonical_phone`. -/
def canonicalPhone (lib : Library) (value : Option String) : Option String :=
  value.bind fun value =>
    if 80 < value.length then none
    else
      let chars := (lib.nfkc value).toList.flatMap fun c => ((lib.decimal c).map fun n => (toString n).toList).getD [c]
      if chars = [] ∨ chars.all phoneChar = false then none
      else
        match chars.filter fun c => !separator c with
        | '0' :: '0' :: digits => lib.e164 (String.ofList ('+' :: digits))
        | '+' :: digits => lib.e164 (String.ofList ('+' :: digits))
        | digits => lib.e164 (String.ofList ('+' :: digits))

/-- The time zone of a property, or that of its country. -/
def propertyZone (zones : Zones) (p : Property) : Except Failure Zone :=
  if p.timeZoneName ≠ "" then found (zones.info p.timeZoneName) .raised
  else if Text.upper p.countryCode = "SA" then .ok zones.riyadh
  else if Text.upper p.countryCode = "MA" then .ok zones.casablanca
  else .error .raised

/-- `guests`, when it can be a number of guests. -/
def guestCount (n : Option ℤ) : Option ℤ := n.filter fun n => decide (1 ≤ n ∧ n ≤ 20)

/-- `project_stay`, with the guests. Two times of one zone are compared as wall times. -/
def projectStay (lib : Library) (properties : List (ℕ × Property)) (row : RemoteRow) : Except Failure (Option Entry) :=
  match canonicalPhone lib row.phone with
  | none => .ok none
  | some phone => do
    let status ← found row.status .raised
    if normalizeStatus status ∉ [.confirmed, .modified] then return none
    else
      match row.listingMapId.bind fun listing => properties.lookup listing with
      | none => return none
      | some p => do
        let checkIn ← found row.arrivalDate .raised
        let checkOut ← found row.departureDate .raised
        raiseIf (checkOut ≤ checkIn) (.response "Invalid stay context dates.")
        let zone ← propertyZone lib.zones p
        let arrivalHour := p.displayCheckInHour.getD 15
        let departureHour := p.displayCheckOutHour.getD 12
        raiseIf (checkOut * 86400 + departureHour * 3600 ≤ checkIn * 86400 + arrivalHour * 3600)
          (.response "Invalid stay context interval.")
        return some
          { phoneKey := lib.phoneKey phone
            stay :=
              { propertySlug := p.slug
                checkIn := checkIn
                checkOut := checkOut
                startsAt := zone.moment checkIn arrivalHour
                endsAt := zone.moment checkOut departureHour
                guests := guestCount row.numberOfGuests } }

/-! ### A scan -/

/-- The properties by their listing. -/
def propertyMap : List Property → List (ℕ × Property) → Except Failure (List (ℕ × Property))
  | [], properties => .ok properties
  | p :: ps, properties =>
    match p.hostawayListingMapId with
    | none | some 0 => propertyMap ps properties
    | some identifier => do
      raiseIf ((properties.lookup identifier).isSome = true) (.response "Ambiguous history property mapping.")
      propertyMap ps ((identifier, p) :: properties)

/-- The identifier of a row that has not been seen. -/
def newIdentifier (seen : Finset ℤ) (row : RemoteRow) : Except Failure ℤ := do
  let identifier ← found row.id .unverified
  raiseIf (identifier ≤ 0 ∨ identifier ∈ seen) .unverified
  return identifier

/-- The loop over the rows of a page. -/
def scanRows (lib : Library) (properties : List (ℕ × Property)) : Document → List RemoteRow → Except Failure Document
  | d, [] => .ok d
  | d, row :: rows =>
    if 10000 ≤ d.seen.card then .ok { d with bounded := true }
    else do
      let identifier ← newIdentifier d.seen row
      let stay ← projectStay lib properties row
      scanRows lib properties
        { d with seen := insert identifier d.seen, stays := d.stays ++ stay.toList } rows

/-- The loop over the pages, with the rounds that are left. -/
def pages (lib : Library) (c : Call) (properties : List (ℕ × Property)) : ℕ → Document → Except Failure Document
  | 0, d => .ok d
  | left + 1, d =>
    if c.late left 0 then .ok d
    else do
      let rows ← found (c.page left d.cursor) .raised
      if c.late left 1 then return d
      else do
        raiseIf (100 < rows.length) (.response "Unbounded history page.")
        let d ← scanRows lib properties d rows
        match rows.getLast? with
        | none => return { d with complete := true }
        | some last =>
          if 10000 ≤ d.seen.card then return { d with cursor := last.id, bounded := true }
          else if c.late left 2 then return { d with cursor := last.id }
          else pages lib c properties left { d with cursor := last.id }

/-- `_populate_history`, up to the cache. -/
def populateHistory (lib : Library) (c : Call) (d : Document) : Except Failure Document := do
  let properties ← propertyMap c.properties []
  raiseIf (properties = []) (.response "No history property mapping.")
  let d ← pages lib c properties 20 d
  return { d with checkedAt := some c.checkedAt }

/-! ### An answer -/

/-- `(s["check_out"], s["check_in"], s["property_slug"])`. -/
def PublicStay.sortKey (s : PublicStay) : ℕ ×ₗ ℕ ×ₗ String := toLex (s.checkOut, toLex (s.checkIn, s.propertySlug))

/-- The finished stays of a phone in the document. -/
def finishedStays (lib : Library) (phone : String) (now : Time) (stays : List Entry) : List PublicStay :=
  (stays.filter fun e => e.phoneKey == lib.phoneKey phone && decide (e.stay.endsAt ≤ now)).map (·.stay)

/-- The answer of `guest_history` from its document. -/
def answer (lib : Library) (phone : String) (now : Time) (d : Document) : Except Failure Answer := do
  let checkedAt ← found d.checkedAt .raised
  return { matchKey := lib.phoneKey phone
           checkedAt := checkedAt
           coverage := if d.complete then "complete" else "partial"
           stays := ((finishedStays lib phone now d.stays).insertionSort fun a b => b.sortKey ≤ a.sortKey).take 5 }

/-! ### The callers -/

inductive Phase
  /-- The document is incomplete, and the lock is still to be taken. -/
  | read (d : Document)
  /-- Another caller holds the lock. -/
  | busy
  | scanning (d : Document)
  /-- The scan is over, and the lock is still to be looked at. -/
  | scanned (result : Except Failure Document)
  /-- The lock was found to be this caller's. -/
  | unlocking (result : Except Failure Document)
  | ended (result : Except Failure Answer)

structure Caller where
  phone : String
  now : Time
  phase : Phase

/-- The cutoff, which is the day of the document and of its lock. -/
def Caller.cutoff (c : Caller) : ℕ := c.now / 86400

structure World where
  cache : ℕ → Option Document
  /-- The caller that took the lock. -/
  lock : ℕ → Option ℕ
  callers : List Caller

inductive Action
  | begin (phone : String) (now : Time)
  | acquire (i : ℕ)
  | reread (i : ℕ)
  | scan (i : ℕ) (call : Call)
  | lookAtLock (i : ℕ)
  | unlock (i : ℕ)
  | expireDocument (day : ℕ)
  | expireLock (day : ℕ)

def emptyDocument : Document := ⟨[], ∅, none, false, false, none⟩

def World.start : World := ⟨fun _ => none, fun _ => none, []⟩

/-- What a caller does with a document that it has read first. -/
def opened (lib : Library) (phone : String) (now : Time) (d : Document) : Phase :=
  if d.complete = false ∧ d.bounded = false then .read d else .ended (answer lib phone now d)

/-- The end of a call whose scan has ended. -/
def concluded (lib : Library) (c : Caller) (result : Except Failure Document) : Phase :=
  .ended (result >>= answer lib c.phone c.now)

/-- The cached document after a scan. -/
def stored (old : Option Document) : Except Failure Document → Option Document
  | .ok d => some d
  | .error .unverified => none
  | .error _ => old

def World.setPhase (w : World) (i : ℕ) (c : Caller) (phase : Phase) : World :=
  { w with callers := w.callers.set i { c with phase := phase } }

/-- One step of `guest_history`, or of the cache. A step that is not the next of its caller does nothing. -/
def step (lib : Library) (w : World) : Action → World
  | .begin phone now =>
    let d := (w.cache (now / 86400)).getD emptyDocument
    { w with callers := w.callers ++ [⟨phone, now, opened lib phone now d⟩] }
  | .acquire i =>
    match w.callers[i]? with
    | some c =>
      match c.phase with
      | .read d =>
        if w.lock c.cutoff = none then
          { w.setPhase i c (.scanning d) with lock := Function.update w.lock c.cutoff (some i) }
        else w.setPhase i c .busy
      | _ => w
    | none => w
  | .reread i =>
    match w.callers[i]? with
    | some c =>
      match c.phase with
      | .busy =>
        let d := (w.cache c.cutoff).getD { emptyDocument with checkedAt := some c.now }
        w.setPhase i c (.ended (answer lib c.phone c.now d))
      | _ => w
    | none => w
  | .scan i call =>
    match w.callers[i]? with
    | some c =>
      match c.phase with
      | .scanning d =>
        let result := populateHistory lib call d
        { w.setPhase i c (.scanned result) with
          cache := Function.update w.cache c.cutoff (stored (w.cache c.cutoff) result) }
      | _ => w
    | none => w
  | .lookAtLock i =>
    match w.callers[i]? with
    | some c =>
      match c.phase with
      | .scanned result =>
        if w.lock c.cutoff = some i then w.setPhase i c (.unlocking result)
        else w.setPhase i c (concluded lib c result)
      | _ => w
    | none => w
  | .unlock i =>
    match w.callers[i]? with
    | some c =>
      match c.phase with
      | .unlocking result =>
        { w.setPhase i c (concluded lib c result) with lock := Function.update w.lock c.cutoff none }
      | _ => w
    | none => w
  | .expireDocument day => { w with cache := Function.update w.cache day none }
  | .expireLock day => { w with lock := Function.update w.lock day none }

/-! ### What a document holds -/

/-- The key that the pages are sorted by. -/
def RemoteRow.identifier (r : RemoteRow) : ℤ := r.id.getD 0

/-- The rows of the provider for one cutoff, in the order of their ids. -/
structure RemoteHistory where
  rows : List RemoteRow
  positive : ∀ r ∈ rows, 0 < r.identifier
  ordered : rows.Pairwise fun a b => a.identifier < b.identifier

/-- The rows after a cursor. -/
def RemoteHistory.after (h : RemoteHistory) (cursor : Option ℤ) : List RemoteRow :=
  h.rows.filter fun r => cursor.all (· < r.identifier)

/-- A page lists the next rows in order, and is empty only when there are none; or it fails. -/
def Call.Lists (c : Call) (h : RemoteHistory) : Prop :=
  ∀ left cursor, ∀ rows ∈ c.page left cursor, rows <+: h.after cursor ∧ (rows = [] → h.after cursor = [])

/-- The guard of a run: what a scan is given is listed by the provider. -/
def Listed (remote : ℕ → RemoteHistory) (w : World) : Action → Prop
  | .scan i call => ∀ c ∈ w.callers[i]?, call.Lists (remote c.cutoff)
  | _ => True

/-- What a row was read as, by the properties of some moment. -/
def ReadAs (lib : Library) (x : RemoteRow × Option Entry) : Prop :=
  ∃ properties, projectStay lib properties x.1 = .ok x.2

/-- The document was collected from the rows of `done`, each read once. -/
structure Collected (lib : Library) (done : List (RemoteRow × Option Entry)) (d : Document) : Prop where
  read : ∀ x ∈ done, ReadAs lib x
  stays : d.stays = done.filterMap (·.2)
  seen : d.seen = (done.map (·.1.identifier)).toFinset
  once : (done.map (·.1.identifier)).Nodup
  positive : ∀ x ∈ done, x.1.id = some x.1.identifier
  length_le : done.length ≤ 10000

/-- The rows of `done` are the first ones of the history. A document that goes on has its cursor after them and before
all others, one that was cut has 10000 of them, and a complete one has them all. -/
structure Consistent (lib : Library) (h : RemoteHistory) (done : List (RemoteRow × Option Entry)) (d : Document) : Prop
    extends Collected lib done d where
  first : done.map (·.1) <+: h.rows
  going : d.bounded = false → done.length < 10000 ∧ h.rows = done.map (·.1) ++ h.after d.cursor
  cut : d.bounded = true → done.length = 10000 ∧ d.complete = false
  all : d.complete = true → done.map (·.1) = h.rows

/-- Some rows were read into the document. -/
def Sound (lib : Library) (h : RemoteHistory) (d : Document) : Prop := ∃ done, Consistent lib h done d

variable {lib : Library} {h : RemoteHistory} {c : Call} {d d' : Document} {properties : List (ℕ × Property)}
  {row : RemoteRow} {rows rest : List RemoteRow} {done : List (RemoteRow × Option Entry)}

theorem Collected.card_seen (hd : Collected lib done d) : d.seen.card = done.length := by
  rw [hd.seen, List.toFinset_card_of_nodup hd.once, List.length_map]

theorem Collected.bounded (hd : Collected lib done d) (b : Bool) : Collected lib done { d with bounded := b } :=
  ⟨hd.read, hd.stays, hd.seen, hd.once, hd.positive, hd.length_le⟩

theorem Collected.cursor (hd : Collected lib done d) (i : Option ℤ) : Collected lib done { d with cursor := i } :=
  ⟨hd.read, hd.stays, hd.seen, hd.once, hd.positive, hd.length_le⟩

theorem newIdentifier_eq_ok {seen : Finset ℤ} {i : ℤ} :
    newIdentifier seen row = .ok i ↔ row.id = some i ∧ 0 < i ∧ i ∉ seen := by
  simp only [newIdentifier, bind_eq_ok, found_eq_ok, raiseIf_eq_ok, pure_eq_ok, not_or, not_le]
  constructor
  · rintro ⟨_, hi, _, hnew, rfl⟩
    exact ⟨hi, hnew⟩
  · rintro ⟨hi, hnew⟩
    exact ⟨i, hi, (), hnew, rfl⟩

/-- One row is added to what was read. -/
theorem Collected.add {stay : Option Entry} {i : ℤ} (hd : Collected lib done d) (hcard : d.seen.card < 10000)
    (hi : newIdentifier d.seen row = .ok i) (hstay : projectStay lib properties row = .ok stay) :
    Collected lib (done ++ [(row, stay)]) { d with seen := insert i d.seen, stays := d.stays ++ stay.toList } := by
  obtain ⟨hid, hpos, hnew⟩ := newIdentifier_eq_ok.1 hi
  have hidentifier : row.identifier = i := by rw [RemoteRow.identifier, hid, Option.getD_some]
  rw [hd.card_seen] at hcard
  constructor
  case read =>
    intro x hx
    rcases List.mem_append.1 hx with hx | hx
    · exact hd.read x hx
    · obtain rfl := List.mem_singleton.1 hx
      exact ⟨properties, hstay⟩
  case stays =>
    show d.stays ++ stay.toList = _
    rw [hd.stays, List.filterMap_append]
    cases stay <;> rfl
  case seen =>
    show insert i d.seen = _
    rw [hd.seen, List.map_append, List.toFinset_append, ← hidentifier]
    ext j
    simp
  case once =>
    rw [List.map_append, List.nodup_append]
    refine ⟨hd.once, List.nodup_singleton _, ?_⟩
    intro a ha b hb
    obtain rfl := List.mem_singleton.1 hb
    rintro rfl
    rw [hd.seen, List.mem_toFinset, ← hidentifier] at hnew
    exact hnew ha
  case positive =>
    intro x hx
    rcases List.mem_append.1 hx with hx | hx
    · exact hd.positive x hx
    · obtain rfl := List.mem_singleton.1 hx
      rw [hidentifier]
      exact hid
  case length_le =>
    rw [List.length_append, List.length_singleton]
    omega

/-- A page is read to its end, or up to the row that would be one too many. -/
theorem scanRows_spec (hd : Collected lib done d) (hr : scanRows lib properties d rows = .ok d') :
    ∃ new, new.map (·.1) <+: rows ∧ Collected lib (done ++ new) d' ∧
      d'.cursor = d.cursor ∧ d'.complete = d.complete ∧
      ((d'.bounded = d.bounded ∧ new.map (·.1) = rows) ∨ (d'.bounded = true ∧ 10000 ≤ (done ++ new).length)) := by
  induction rows generalizing done d with
  | nil =>
    obtain rfl := Except.ok.inj hr
    exact ⟨[], List.prefix_refl _, by simpa using hd, rfl, rfl, .inl ⟨rfl, rfl⟩⟩
  | cons row rows ih =>
    unfold scanRows at hr
    split at hr
    next hfull =>
      obtain rfl := Except.ok.inj hr
      rw [hd.card_seen] at hfull
      refine ⟨[], List.nil_prefix, ?_, rfl, rfl, .inr ⟨rfl, by simpa using hfull⟩⟩
      simpa using hd.bounded true
    next hfull =>
      obtain ⟨i, hi, hr⟩ := bind_eq_ok.1 hr
      obtain ⟨stay, hstay, hr⟩ := bind_eq_ok.1 hr
      obtain ⟨new, hnew, hd', hcursor, hcomplete, hcase⟩ := ih (hd.add (not_le.1 hfull) hi hstay) hr
      refine ⟨(row, stay) :: new, ?_, by simpa using hd', hcursor, hcomplete, ?_⟩
      · rw [List.map_cons, List.cons_prefix_cons]
        exact ⟨rfl, hnew⟩
      · rcases hcase with ⟨hb, hall⟩ | ⟨hb, hlen⟩
        · exact .inl ⟨hb, by rw [List.map_cons, hall]⟩
        · exact .inr ⟨hb, by simpa using hlen⟩

theorem RemoteHistory.after_none (h : RemoteHistory) : h.after none = h.rows := by simp [RemoteHistory.after]

/-- After the last of the first rows come the others. -/
theorem RemoteHistory.after_last {first : List RemoteRow} {last : RemoteRow} (hrows : h.rows = first ++ rest)
    (hlast : first.getLast? = some last) : h.after (some last.identifier) = rest := by
  obtain ⟨init, rfl⟩ := List.getLast?_eq_some_iff.1 hlast
  have hord := h.ordered
  rw [hrows, List.pairwise_append] at hord
  obtain ⟨hfirst, -, hrest⟩ := hord
  rw [List.pairwise_append] at hfirst
  unfold RemoteHistory.after
  rw [hrows, List.filter_append, List.filter_eq_nil_iff.2, List.filter_eq_self.2, List.nil_append]
  · intro r hr
    have := hrest last (by simp) r hr
    simpa using this
  · intro r hr
    rcases List.mem_append.1 hr with hr | hr
    · have := hfirst.2.2 r hr last (by simp)
      simpa using this.le
    · obtain rfl := List.mem_singleton.1 hr
      simp

theorem Consistent.of_going (hd : Collected lib done d) (hb : d.bounded = false) (hc : d.complete = false)
    (hlt : done.length < 10000) (hrows : h.rows = done.map (·.1) ++ h.after d.cursor) : Consistent lib h done d where
  toCollected := hd
  first := ⟨_, hrows.symm⟩
  going := fun _ => ⟨hlt, hrows⟩
  cut := fun hb' => by rw [hb] at hb'; cases hb'
  all := fun hc' => by rw [hc] at hc'; cases hc'

theorem Consistent.of_cut (hd : Collected lib done d) (hb : d.bounded = true) (hc : d.complete = false)
    (hlen : 10000 ≤ done.length) (hfirst : done.map (·.1) <+: h.rows) : Consistent lib h done d where
  toCollected := hd
  first := hfirst
  going := fun hb' => by rw [hb] at hb'; cases hb'
  cut := fun _ => ⟨le_antisymm hd.length_le hlen, hc⟩
  all := fun hc' => by rw [hc] at hc'; cases hc'

theorem Consistent.of_all (hd : Collected lib done d) (hb : d.bounded = false) (hlt : done.length < 10000)
    (hrows : h.rows = done.map (·.1) ++ h.after d.cursor) (hnone : h.after d.cursor = []) : Consistent lib h done d where
  toCollected := hd
  first := ⟨_, hrows.symm⟩
  going := fun _ => ⟨hlt, hrows⟩
  cut := fun hb' => by rw [hb] at hb'; cases hb'
  all := fun _ => by rw [hrows, hnone, List.append_nil]

/-- A scan that goes on from the cursor of a document leaves a document that is as good. -/
theorem pages_spec (hlists : c.Lists h) {left : ℕ} (hd : Collected lib done d) (hb : d.bounded = false)
    (hc : d.complete = false) (hlt : done.length < 10000) (hrows : h.rows = done.map (·.1) ++ h.after d.cursor)
    (hp : pages lib c properties left d = .ok d') : Sound lib h d' := by
  induction left generalizing done d with
  | zero =>
    obtain rfl := Except.ok.inj hp
    exact ⟨done, .of_going hd hb hc hlt hrows⟩
  | succ left ih =>
    unfold pages at hp
    split at hp
    · obtain rfl := Except.ok.inj hp
      exact ⟨done, .of_going hd hb hc hlt hrows⟩
    obtain ⟨page, hpage, hp⟩ := bind_eq_ok.1 hp
    rw [found_eq_ok] at hpage
    obtain ⟨hlisted, hempty⟩ := hlists left d.cursor page hpage
    split at hp
    · obtain rfl := Except.ok.inj hp
      exact ⟨done, .of_going hd hb hc hlt hrows⟩
    obtain ⟨-, -, hp⟩ := bind_eq_ok.1 hp
    obtain ⟨e, he, hp⟩ := bind_eq_ok.1 hp
    obtain ⟨new, hnew, hdone, hcursor, hcomplete, hcase⟩ := scanRows_spec hd he
    obtain ⟨rest, hrest⟩ := hlisted
    rw [← hrest] at hrows
    rw [hc] at hcomplete
    have hfirst : (done ++ new).map (·.1) <+: h.rows := by
      rw [hrows, List.map_append]
      exact (List.prefix_append_right_inj _).2 (hnew.trans (List.prefix_append _ _))
    split at hp
    next hlast =>
      -- the empty page
      obtain rfl := Except.ok.inj hp
      obtain rfl := List.getLast?_eq_none_iff.1 hlast
      obtain rfl : new = [] := List.map_eq_nil_iff.1 (List.prefix_nil.1 hnew)
      rw [List.append_nil] at hdone hcase
      have hbe : e.bounded = false := by
        rcases hcase with ⟨hbe, -⟩ | ⟨-, hlen⟩
        · rw [hbe, hb]
        · omega
      have hnone := hempty rfl
      rw [hnone] at hrest
      rw [hrest, ← hnone, ← hcursor] at hrows
      refine ⟨done, .of_all ⟨hdone.read, hdone.stays, hdone.seen, hdone.once, hdone.positive, hdone.length_le⟩ hbe hlt
        hrows ?_⟩
      show h.after e.cursor = []
      rw [hcursor, hnone]
    next last hlast =>
      split at hp
      next hfull =>
        obtain rfl := Except.ok.inj hp
        rw [hdone.card_seen] at hfull
        exact ⟨done ++ new, .of_cut ((hdone.bounded true).cursor last.id) rfl hcomplete hfull hfirst⟩
      next hfull =>
        rw [hdone.card_seen, not_le] at hfull
        obtain ⟨hbe, hall⟩ : e.bounded = d.bounded ∧ new.map (·.1) = page := by
          rcases hcase with hcase | ⟨-, hlen⟩
          · exact hcase
          · omega
        rw [hb] at hbe
        have hnext : h.rows = (done ++ new).map (·.1) ++ h.after last.id := by
          have hsplit : h.rows = (done ++ new).map (·.1) ++ rest := by
            rw [hrows, List.map_append, hall, List.append_assoc]
          have hlast' : ((done ++ new).map (·.1)).getLast? = some last := by
            rw [List.map_append, hall, List.getLast?_append, hlast, Option.some_or]
          obtain ⟨x, hx, rfl⟩ := List.mem_map.1 (List.mem_of_getLast? hlast')
          rw [hdone.positive x hx, h.after_last hsplit hlast']
          exact hsplit
        split at hp
        · obtain rfl := Except.ok.inj hp
          exact ⟨done ++ new, .of_going (hdone.cursor last.id) hbe hcomplete hfull hnext⟩
        · exact ih (hdone.cursor last.id) hbe hcomplete hfull hnext hp

theorem populateHistory_sound (hlists : c.Lists h) (hd : Sound lib h d) (hb : d.bounded = false)
    (hc : d.complete = false) (hp : populateHistory lib c d = .ok d') : Sound lib h d' := by
  simp only [populateHistory, bind_eq_ok, pure_eq_ok] at hp
  obtain ⟨properties, -, -, -, e, he, rfl⟩ := hp
  obtain ⟨done, hdone⟩ := hd
  obtain ⟨hlt, hrows⟩ := hdone.going hb
  obtain ⟨done', hdone'⟩ := pages_spec hlists hdone.toCollected hb hc hlt hrows he
  exact ⟨done', ⟨hdone'.read, hdone'.stays, hdone'.seen, hdone'.once, hdone'.positive, hdone'.length_le⟩,
    hdone'.first, hdone'.going, hdone'.cut, hdone'.all⟩

theorem sound_empty (lib : Library) (h : RemoteHistory) (checkedAt : Option Time) :
    Sound lib h { emptyDocument with checkedAt := checkedAt } := by
  refine ⟨[], .of_going ⟨nofun, rfl, rfl, List.nodup_nil, nofun, Nat.zero_le _⟩ rfl rfl (Nat.zero_lt_succ _) ?_⟩
  exact h.after_none.symm

/-! ### The documents of the callers -/

/-- What a caller holds was read from the history of its cutoff. -/
def Caller.Sound (lib : Library) (h : RemoteHistory) (c : Caller) : Prop :=
  match c.phase with
  | .read d | .scanning d => History.Sound lib h d ∧ d.complete = false ∧ d.bounded = false
  | .busy => True
  | .scanned result | .unlocking result => ∀ d, result = .ok d → History.Sound lib h d
  | .ended result => ∀ a, result = .ok a → ∃ d, History.Sound lib h d ∧ answer lib c.phone c.now d = .ok a

structure World.Sound (lib : Library) (remote : ℕ → RemoteHistory) (w : World) : Prop where
  cache : ∀ day d, w.cache day = some d → History.Sound lib (remote day) d
  callers : ∀ c ∈ w.callers, c.Sound lib (remote c.cutoff)

variable {remote : ℕ → RemoteHistory} {w : World} {caller : Caller} {i : ℕ}

theorem sound_opened (phone : String) (now : Time) (hd : Sound lib h d) :
    Caller.Sound lib h ⟨phone, now, opened lib phone now d⟩ := by
  by_cases hopen : d.complete = false ∧ d.bounded = false
  · have hphase : opened lib phone now d = .read d := if_pos hopen
    rw [hphase]
    exact ⟨hd, hopen⟩
  · have hphase : opened lib phone now d = .ended (answer lib phone now d) := if_neg hopen
    rw [hphase]
    exact fun a ha => ⟨d, hd, ha⟩

theorem sound_concluded {result : Except Failure Document} (hr : ∀ d, result = .ok d → Sound lib h d) :
    Caller.Sound lib h { caller with phase := concluded lib caller result } := by
  intro a ha
  obtain ⟨d, hd, ha⟩ := bind_eq_ok.1 ha
  exact ⟨d, hr d hd, ha⟩

theorem sound_cached (hw : w.Sound lib remote) (day : ℕ) (checkedAt : Option Time) :
    Sound lib (remote day) ((w.cache day).getD { emptyDocument with checkedAt := checkedAt }) := by
  cases hcache : w.cache day with
  | none => exact sound_empty lib (remote day) checkedAt
  | some d => exact hw.cache day d hcache

theorem sound_stored {old : Option Document} {result : Except Failure Document}
    (hold : ∀ d, old = some d → Sound lib h d) (hr : ∀ d, result = .ok d → Sound lib h d)
    (hd : stored old result = some d) : Sound lib h d := by
  match result, hd with
  | .ok e, hd => exact hr d (congrArg Except.ok (Option.some.inj hd))
  | .error (.response _), hd => exact hold d hd
  | .error .raised, hd => exact hold d hd

theorem World.Sound.setPhase (hw : w.Sound lib remote) (caller : Caller) (phase : Phase)
    (hc : Caller.Sound lib (remote caller.cutoff) { caller with phase := phase }) :
    (w.setPhase i caller phase).Sound lib remote where
  cache := hw.cache
  callers := by
    intro c hmem
    rcases List.mem_or_eq_of_mem_set hmem with hmem | rfl
    · exact hw.callers c hmem
    · exact hc

theorem World.Sound.setLock (hw : w.Sound lib remote) (lock : ℕ → Option ℕ) :
    World.Sound lib remote { w with lock := lock } := ⟨hw.cache, hw.callers⟩

theorem World.Sound.setCache (hw : w.Sound lib remote) {day : ℕ} {o : Option Document}
    (ho : ∀ d, o = some d → History.Sound lib (remote day) d) :
    World.Sound lib remote { w with cache := Function.update w.cache day o } where
  cache := by
    intro day' d hd
    change Function.update w.cache day o day' = some d at hd
    by_cases hday : day' = day
    · subst hday
      rw [Function.update_self] at hd
      exact ho d hd
    · rw [Function.update_of_ne hday] at hd
      exact hw.cache day' d hd
  callers := hw.callers

/-- No step of a caller or of the cache leaves a document that is not sound. -/
theorem sound_step (hw : w.Sound lib remote) (a : Action) (hlisted : Listed remote w a) :
    (step lib w a).Sound lib remote := by
  cases a with
  | begin phone now =>
    refine ⟨hw.cache, fun c hc => ?_⟩
    rcases List.mem_append.1 hc with hc | hc
    · exact hw.callers c hc
    · obtain rfl := List.mem_singleton.1 hc
      exact sound_opened phone now (sound_cached hw (now / 86400) none)
  | acquire i =>
    cases hi : w.callers[i]? with
    | none => simpa only [step, hi] using hw
    | some c =>
      have hc := hw.callers c (List.mem_of_getElem? hi)
      unfold Caller.Sound at hc
      cases hphase : c.phase with
      | read d =>
        rw [hphase] at hc
        simp only [step, hi, hphase]
        split
        · exact (hw.setPhase c (.scanning d) hc).setLock _
        · exact hw.setPhase c .busy trivial
      | _ => simpa only [step, hi, hphase] using hw
  | reread i =>
    cases hi : w.callers[i]? with
    | none => simpa only [step, hi] using hw
    | some c =>
      cases hphase : c.phase with
      | busy =>
        simp only [step, hi, hphase]
        exact hw.setPhase c _ fun a ha => ⟨_, sound_cached hw c.cutoff (some c.now), ha⟩
      | _ => simpa only [step, hi, hphase] using hw
  | scan i call =>
    cases hi : w.callers[i]? with
    | none => simpa only [step, hi] using hw
    | some c =>
      have hc := hw.callers c (List.mem_of_getElem? hi)
      unfold Caller.Sound at hc
      cases hphase : c.phase with
      | scanning d =>
        rw [hphase] at hc
        obtain ⟨hd, hcomplete, hb⟩ := hc
        have hresult : ∀ e, populateHistory lib call d = .ok e → Sound lib (remote c.cutoff) e :=
          fun e he => populateHistory_sound (hlisted c hi) hd hb hcomplete he
        simp only [step, hi, hphase]
        exact (hw.setPhase c (.scanned (populateHistory lib call d)) hresult).setCache fun e he =>
          sound_stored (hw.cache c.cutoff) hresult he
      | _ => simpa only [step, hi, hphase] using hw
  | lookAtLock i =>
    cases hi : w.callers[i]? with
    | none => simpa only [step, hi] using hw
    | some c =>
      have hc := hw.callers c (List.mem_of_getElem? hi)
      unfold Caller.Sound at hc
      cases hphase : c.phase with
      | scanned result =>
        rw [hphase] at hc
        simp only [step, hi, hphase]
        split
        · exact hw.setPhase c (.unlocking result) hc
        · exact hw.setPhase c _ (sound_concluded hc)
      | _ => simpa only [step, hi, hphase] using hw
  | unlock i =>
    cases hi : w.callers[i]? with
    | none => simpa only [step, hi] using hw
    | some c =>
      have hc := hw.callers c (List.mem_of_getElem? hi)
      unfold Caller.Sound at hc
      cases hphase : c.phase with
      | unlocking result =>
        rw [hphase] at hc
        simp only [step, hi, hphase]
        exact (hw.setPhase c _ (sound_concluded hc)).setLock _
      | _ => simpa only [step, hi, hphase] using hw
  | expireDocument day => exact hw.setCache nofun
  | expireLock day => exact hw.setLock _

theorem sound_run {as : List Action} (hrun : Meets (step lib) (Listed remote) World.start as) :
    (run (step lib) World.start as).Sound lib remote :=
  hrun.inv (fun _ a hw hlisted => sound_step hw a hlisted) ⟨nofun, nofun⟩

/-! ### The answers -/

/-- What an answer says of the rows that its document was collected from. -/
structure AnsweredFrom (lib : Library) (h : RemoteHistory) (done : List (RemoteRow × Option Entry)) (c : Caller)
    (a : Answer) : Prop where
  complete : a.coverage = "complete" → done.map (·.1) = h.rows ∧ done.length < 10000
  latest : ∃ order : List PublicStay, order.Perm (finishedStays lib c.phone c.now (done.filterMap (·.2))) ∧
    order.Pairwise (fun s t => t.sortKey ≤ s.sortKey) ∧ a.stays = order.take 5
  length_le : a.stays.length ≤ 5
  own : ∀ s ∈ a.stays, s.endsAt ≤ c.now ∧
    ∃ x ∈ done, ∃ e ∈ x.2, e.stay = s ∧ canonicalPhone lib x.1.phone = some c.phone

theorem phone_of_projectStay {e : Entry} (hp : projectStay lib properties row = .ok (some e)) :
    ∃ phone, canonicalPhone lib row.phone = some phone ∧ e.phoneKey = lib.phoneKey phone := by
  unfold projectStay at hp
  split at hp
  · cases hp
  next phone hphone =>
    refine ⟨phone, hphone, ?_⟩
    obtain ⟨status, -, hp⟩ := bind_eq_ok.1 hp
    split at hp
    · cases hp
    split at hp
    · cases hp
    simp only [bind_eq_ok, pure_eq_ok] at hp
    obtain ⟨_, -, _, -, _, -, _, -, _, -, he⟩ := hp
    rw [← Option.some.inj he]

theorem mem_finishedStays {phone : String} {now : Time} {stays : List Entry} {s : PublicStay} :
    s ∈ finishedStays lib phone now stays ↔
      ∃ e ∈ stays, e.phoneKey = lib.phoneKey phone ∧ e.stay.endsAt ≤ now ∧ e.stay = s := by
  simp [finishedStays, and_assoc]

theorem answeredFrom {a : Answer} (collisionFree : Function.Injective lib.phoneKey) (hd : Consistent lib h done d)
    (ha : answer lib caller.phone caller.now d = .ok a) : AnsweredFrom lib h done caller a := by
  simp only [answer, bind_eq_ok, pure_eq_ok] at ha
  obtain ⟨checkedAt, -, rfl⟩ := ha
  have htotal : Std.Total fun s t : PublicStay => t.sortKey ≤ s.sortKey := ⟨fun s t => le_total t.sortKey s.sortKey⟩
  have htrans : IsTrans PublicStay fun s t => t.sortKey ≤ s.sortKey := ⟨fun s t u hts hut => hut.trans hts⟩
  constructor
  case complete =>
    intro hcoverage
    have hc : d.complete = true := by
      by_contra hc
      have hlabel : (if d.complete = true then "complete" else "partial") = "partial" := if_neg hc
      rw [hlabel] at hcoverage
      change "partial" = "complete" at hcoverage
      exact absurd hcoverage (by decide)
    have hb : d.bounded = false := by
      cases hb : d.bounded with
      | false => rfl
      | true =>
        have hcut := (hd.cut hb).2
        rw [hc] at hcut
        cases hcut
    exact ⟨hd.all hc, (hd.going hb).1⟩
  case latest =>
    refine ⟨_, ?_, List.pairwise_insertionSort _ _, rfl⟩
    rw [← hd.stays]
    exact List.perm_insertionSort _ _
  case length_le => exact List.length_take_le _ _
  case own =>
    intro s hs
    have hmem := (List.perm_insertionSort _ _).mem_iff.1 (List.mem_of_mem_take hs)
    obtain ⟨e, he, hkey, hend, rfl⟩ := mem_finishedStays.1 hmem
    rw [hd.stays] at he
    obtain ⟨x, hx, hxe⟩ := List.mem_filterMap.1 he
    obtain ⟨properties, hread⟩ := hd.read x hx
    rw [hxe] at hread
    obtain ⟨phone, hphone, hsame⟩ := phone_of_projectStay hread
    rw [← collisionFree (hsame.symm.trans hkey)]
    exact ⟨hend, x, hx, e, hxe, rfl, hphone⟩

/-- Whatever the callers, their pages, their deadlines, the lock and the cache do, a cached document holds the first rows
of its history, each read once, and every answer is the latest five of the finished stays of its phone among such rows;
it is complete only when they are all the rows. -/
theorem guest_history_collects (lib : Library) (remote : ℕ → RemoteHistory)
    (collisionFree : Function.Injective lib.phoneKey) (as : List Action)
    (hrun : Meets (step lib) (Listed remote) World.start as) :
    (∀ day, ∀ d ∈ (run (step lib) World.start as).cache day, ∃ done, Consistent lib (remote day) done d) ∧
    ∀ c ∈ (run (step lib) World.start as).callers, ∀ a, c.phase = .ended (.ok a) →
      ∃ done d, Consistent lib (remote c.cutoff) done d ∧ AnsweredFrom lib (remote c.cutoff) done c a := by
  have hsound := sound_run hrun
  refine ⟨fun day d hd => hsound.cache day d hd, fun c hc a hphase => ?_⟩
  have hcaller := hsound.callers c hc
  unfold Caller.Sound at hcaller
  rw [hphase] at hcaller
  obtain ⟨d, ⟨done, hd⟩, ha⟩ := hcaller a rfl
  exact ⟨done, d, hd, answeredFrom collisionFree hd ha⟩

/-- The answer a caller got: its coverage and the check-out dates of its stays. -/
def Caller.got (c : Caller) : Option (String × List ℕ) :=
  match c.phase with
  | .ended (.ok a) => some (a.coverage, a.stays.map (·.checkOut))
  | _ => none

def sampleZone : Zone := ⟨fun wall => wall, fun t => t⟩

def sampleKey : String := "bf01f6e6eedf7750c70bd127caf38355c529f12bbd2add739d15e99702b7fc86"

def sampleLibrary : Library where
  nfkc := fun s => s
  decimal := fun c => if c.isDigit then some (c.toNat - 48) else none
  e164 := some
  phoneKey := fun phone => if phone = "+966500000001" then sampleKey else String.ofList ('#' :: phone.toList)
  zones := ⟨fun name => if name = "Africa/Casablanca" ∨ name = "Asia/Riyadh" then some sampleZone else none,
    sampleZone, sampleZone, rfl, rfl⟩

theorem sampleLibrary_phoneKey : Function.Injective sampleLibrary.phoneKey := by
  have hother (phone : String) : String.ofList ('#' :: phone.toList) ≠ sampleKey := by
    intro h
    have hlist := congrArg String.toList h
    rw [String.toList_ofList] at hlist
    exact absurd (List.cons.inj hlist).1 (by decide)
  intro p q hpq
  change (if p = "+966500000001" then sampleKey else String.ofList ('#' :: p.toList)) =
    if q = "+966500000001" then sampleKey else String.ofList ('#' :: q.toList) at hpq
  split_ifs at hpq with hp hq hq
  · rw [hp, hq]
  · exact absurd hpq.symm (hother q)
  · exact absurd hpq (hother p)
  · have hlist := congrArg String.toList hpq
    rw [String.toList_ofList, String.toList_ofList] at hlist
    exact String.toList_injective (List.cons.inj hlist).2

def sampleProperty : Property := ⟨some 7, "studio", "", "sa", none, some 11⟩

def sampleRow (i : ℤ) (phone : String) (arrival : ℕ) : RemoteRow :=
  ⟨some i, some phone, some "new", some 7, some arrival, some (arrival + 2), some 2⟩

def sampleHistory : RemoteHistory where
  rows := [sampleRow 3 "00966 500000001" 10, sampleRow 8 "+966 500000002" 12, sampleRow 9 "+966-500000001" 14]
  positive := by decide
  ordered := by decide

/-- The first two rows, and then the others; the first scan has no time for its second page. -/
def sampleCall (slow : Bool) : Call where
  properties := [sampleProperty]
  page := fun _ cursor => some ((sampleHistory.after cursor).take 2)
  late := fun left _ => slow && left == 18
  checkedAt := 3000000

theorem sampleCall_lists (slow : Bool) : (sampleCall slow).Lists sampleHistory := by
  rintro left cursor rows hrows
  obtain rfl := Option.some.inj hrows
  refine ⟨List.take_prefix _ _, fun hnone => ?_⟩
  simpa using hnone

/-- A caller that runs out of time, one that meets its lock, and one that reads the rest after it. -/
def sampleVisits : List Action :=
  [.begin "+966500000001" 3000000, .acquire 0, .begin "+966500000001" 3000001, .acquire 1, .scan 0 (sampleCall true),
   .reread 1, .expireLock 34, .lookAtLock 0, .begin "+966500000001" 3000030, .acquire 2, .scan 2 (sampleCall false),
   .lookAtLock 2, .unlock 2]

theorem guest_history_collects_sample :
    (run (step sampleLibrary) World.start sampleVisits).callers.map (·.got) =
      [some ("partial", [12]), some ("partial", [12]), some ("complete", [16, 12])] ∧
    ∀ c ∈ (run (step sampleLibrary) World.start sampleVisits).callers, ∀ a, c.phase = .ended (.ok a) →
      ∃ done d, Consistent sampleLibrary sampleHistory done d ∧ AnsweredFrom sampleLibrary sampleHistory done c a := by
  refine ⟨by decide +kernel, ?_⟩
  refine (guest_history_collects sampleLibrary (fun _ => sampleHistory) sampleLibrary_phoneKey sampleVisits ?_).2
  simp only [sampleVisits, meets_cons, meets_nil, Listed, sampleCall_lists, implies_true, and_self]

/-! ### The history that is cut -/

/-- A row without a phone. -/
def namelessRow (i : ℕ) : RemoteRow := ⟨some i, none, some "", none, none, none, none⟩

theorem identifier_namelessRow (i : ℕ) : (namelessRow i).identifier = i := rfl

/-- 10001 rows without a phone. -/
def longHistory : RemoteHistory where
  rows := (List.range' 1 10001).map namelessRow
  positive := by
    intro r hr
    obtain ⟨i, hi, rfl⟩ := List.mem_map.1 hr
    have := (List.mem_range'_1.1 hi).1
    rw [identifier_namelessRow]
    omega
  ordered := by
    rw [List.pairwise_map]
    exact (List.pairwise_lt_range' 1).imp fun hij => Int.ofNat_lt.2 hij

/-- A page of 99 rows and then pages of 100. -/
def longCall : Call where
  properties := [sampleProperty]
  page := fun _ cursor => some ((longHistory.after cursor).take (if cursor = none then 99 else 100))
  late := fun _ _ => false
  checkedAt := 0

theorem longCall_lists : longCall.Lists longHistory := by
  rintro left cursor rows hrows
  obtain rfl := Option.some.inj hrows
  refine ⟨List.take_prefix _ _, fun hnone => ?_⟩
  rcases List.take_eq_nil_iff.1 hnone with hzero | hnil
  · split at hzero <;> omega
  · exact hnil

/-- The identifiers of the first `k` rows. -/
def identifiers (k : ℕ) : Finset ℤ := (Finset.range k).image fun i => ((i + 1 : ℕ) : ℤ)

theorem mem_identifiers {k : ℕ} {i : ℤ} : i ∈ identifiers k ↔ 1 ≤ i ∧ i ≤ k := by
  rw [identifiers, Finset.mem_image]
  constructor
  · rintro ⟨n, hn, rfl⟩
    have hlt := Finset.mem_range.1 hn
    omega
  · rintro ⟨hpos, hle⟩
    exact ⟨i.toNat - 1, Finset.mem_range.2 (by omega), by omega⟩

theorem card_identifiers (k : ℕ) : (identifiers k).card = k := by
  have hinj : Function.Injective fun i : ℕ => ((i + 1 : ℕ) : ℤ) := by
    intro i j h
    simp only at h
    omega
  rw [identifiers, Finset.card_image_of_injective _ hinj, Finset.card_range]

/-- The document after `k` rows of the long history. -/
def collectedTo (k : ℕ) (cursor : Option ℤ) (checkedAt : Option Time) : Document :=
  ⟨[], identifiers k, cursor, false, false, checkedAt⟩

variable {k m : ℕ} {cursor : Option ℤ} {checkedAt : Option Time}

theorem scanRows_nameless (hk : k + m ≤ 10000) (rest : List RemoteRow) :
    scanRows sampleLibrary properties (collectedTo k cursor checkedAt)
        ((List.range' (k + 1) m).map namelessRow ++ rest) =
      scanRows sampleLibrary properties (collectedTo (k + m) cursor checkedAt) rest := by
  induction m generalizing k with
  | zero => rfl
  | succ m ih =>
    have hcard : ¬ 10000 ≤ (collectedTo k cursor checkedAt).seen.card := by
      show ¬ 10000 ≤ (identifiers k).card
      rw [card_identifiers]
      omega
    have hnew : newIdentifier (collectedTo k cursor checkedAt).seen (namelessRow (k + 1)) = .ok ((k + 1 : ℕ) : ℤ) := by
      rw [newIdentifier_eq_ok]
      refine ⟨rfl, by omega, ?_⟩
      show ((k + 1 : ℕ) : ℤ) ∉ identifiers k
      rw [mem_identifiers]
      omega
    have hseen : insert ((k + 1 : ℕ) : ℤ) (identifiers k) = identifiers (k + 1) := by
      ext i
      simp only [Finset.mem_insert, mem_identifiers]
      omega
    rw [List.range'_succ, List.map_cons, List.cons_append, scanRows, if_neg hcard, hnew]
    show scanRows sampleLibrary properties
      ⟨[], insert ((k + 1 : ℕ) : ℤ) (identifiers k), cursor, false, false, checkedAt⟩ _ = _
    have hsum : k + (m + 1) = k + 1 + m := by omega
    rw [hseen, hsum]
    exact ih (hsum ▸ hk)

/-- The cursor after `k` rows. -/
def cursorAt (k : ℕ) : Option ℤ := if k = 0 then none else some k

theorem after_cursorAt (hk : k ≤ 10001) :
    longHistory.after (cursorAt k) = (List.range' (k + 1) (10001 - k)).map namelessRow := by
  unfold cursorAt
  split
  next h0 =>
    subst h0
    exact longHistory.after_none
  next h0 =>
    have hrows : longHistory.rows =
        (List.range' 1 k).map namelessRow ++ (List.range' (k + 1) (10001 - k)).map namelessRow := by
      rw [← List.map_append, Nat.add_comm k 1, List.range'_append_1, Nat.add_sub_cancel' hk]
      rfl
    have hlast : ((List.range' 1 k).map namelessRow).getLast? = some (namelessRow k) := by
      rw [List.getLast?_map, List.getLast?_range', if_neg h0, Nat.add_sub_cancel_left]
      rfl
    exact longHistory.after_last hrows hlast

/-- How many rows the page after `k` rows has. -/
def pageSize (k : ℕ) : ℕ := min (if k = 0 then 99 else 100) (10001 - k)

/-- The page after `k` rows. -/
def pageAfter (k : ℕ) : List RemoteRow := (List.range' (k + 1) (pageSize k)).map namelessRow

theorem longCall_page (left : ℕ) (hk : k ≤ 10001) : longCall.page left (cursorAt k) = some (pageAfter k) := by
  have hlimit : (if cursorAt k = none then 99 else 100) = if k = 0 then 99 else 100 := by
    unfold cursorAt
    split <;> simp
  show some ((longHistory.after (cursorAt k)).take (if cursorAt k = none then 99 else 100)) = _
  rw [after_cursorAt hk, hlimit, ← List.map_take]
  unfold pageAfter pageSize
  rcases le_total (if k = 0 then 99 else 100) (10001 - k) with hle | hle
  · rw [List.take_range'_of_length_ge hle, min_eq_left hle]
  · rw [List.take_range'_of_length_le hle, min_eq_right hle]

theorem length_pageAfter_le (k : ℕ) : (pageAfter k).length ≤ 100 := by
  unfold pageAfter pageSize
  rw [List.length_map, List.length_range']
  split <;> omega

theorem getLast_pageAfter (hk : k < 10001) : (pageAfter k).getLast? = some (namelessRow (k + pageSize k)) := by
  have hpos : pageSize k ≠ 0 := by
    unfold pageSize
    split <;> omega
  unfold pageAfter
  rw [List.getLast?_map, List.getLast?_range', if_neg hpos]
  exact congrArg (fun i => some (namelessRow i)) (by omega)

/-- A round in time that reads a page that is not empty. -/
theorem pages_succ {left : ℕ} {last : RemoteRow} (hlate : ∀ i, c.late left i = false)
    (hpage : c.page left d.cursor = some rows) (hlen : rows.length ≤ 100)
    (hscan : scanRows lib properties d rows = .ok d') (hlast : rows.getLast? = some last) :
    pages lib c properties (left + 1) d =
      if 10000 ≤ d'.seen.card then .ok { d' with cursor := last.id, bounded := true }
      else pages lib c properties left { d' with cursor := last.id } := by
  rw [pages, hlate, if_neg Bool.false_ne_true, hpage]
  show (if c.late left 1 = true then _ else raiseIf (100 < rows.length) _ >>= fun _ => _) = _
  rw [hlate, if_neg Bool.false_ne_true, raiseIf_of_not hlen.not_gt]
  show (scanRows lib properties d rows >>= fun d => _) = _
  rw [hscan]
  show (match rows.getLast? with | none => _ | some last => _) = _
  rw [hlast]
  show (if 10000 ≤ d'.seen.card then _ else if c.late left 2 = true then _ else _) = _
  rw [hlate, if_neg Bool.false_ne_true]
  rfl

theorem card_collectedTo (k : ℕ) (cursor : Option ℤ) (checkedAt : Option Time) :
    (collectedTo k cursor checkedAt).seen.card = k := by
  show (identifiers k).card = k
  exact card_identifiers k

/-- A round that reads a page whole and goes on. -/
theorem pages_next {left : ℕ} (hk : k + pageSize k < 10000) :
    pages sampleLibrary longCall properties (left + 1) (collectedTo k (cursorAt k) checkedAt) =
      pages sampleLibrary longCall properties left
        (collectedTo (k + pageSize k) (cursorAt (k + pageSize k)) checkedAt) := by
  have hscan : scanRows sampleLibrary properties (collectedTo k (cursorAt k) checkedAt) (pageAfter k) =
      .ok (collectedTo (k + pageSize k) (cursorAt k) checkedAt) := by
    have h := @scanRows_nameless properties k (pageSize k) (cursorAt k) checkedAt hk.le []
    rwa [List.append_nil] at h
  have hpos : k + pageSize k ≠ 0 := by
    unfold pageSize
    split <;> omega
  have hcursor : cursorAt (k + pageSize k) = (namelessRow (k + pageSize k)).id := if_neg hpos
  rw [pages_succ (fun _ => rfl) (longCall_page left (by omega)) (length_pageAfter_le k) hscan
    (getLast_pageAfter (by omega)), card_collectedTo, if_neg (by omega), hcursor]
  rfl

/-- Pages of 100 rows, as long as they fit. -/
theorem pages_far {left : ℕ} (h0 : k ≠ 0) (hk : k + 100 * left ≤ 9999) :
    pages sampleLibrary longCall properties left (collectedTo k (cursorAt k) checkedAt) =
      .ok (collectedTo (k + 100 * left) (cursorAt (k + 100 * left)) checkedAt) := by
  induction left generalizing k with
  | zero => rfl
  | succ left ih =>
    have hsize : pageSize k = 100 := by
      unfold pageSize
      rw [if_neg h0]
      omega
    have hsum : k + 100 * (left + 1) = k + 100 + 100 * left := by omega
    rw [pages_next (by omega), hsize, hsum]
    exact ih (by omega) (by omega)

/-- The last page has one row too many, and the cursor is set behind it. -/
theorem pages_cut {left : ℕ} :
    pages sampleLibrary longCall properties (left + 1) (collectedTo 9999 (cursorAt 9999) checkedAt) =
      .ok { collectedTo 10000 (some 10001) checkedAt with bounded := true } := by
  have hscan : scanRows sampleLibrary properties (collectedTo 9999 (cursorAt 9999) checkedAt) (pageAfter 9999) =
      .ok { collectedTo 10000 (cursorAt 9999) checkedAt with bounded := true } := by
    show scanRows _ _ _ ((List.range' (9999 + 1) 1).map namelessRow ++ [namelessRow 10001]) = _
    rw [scanRows_nameless (by omega), scanRows, if_pos (card_collectedTo _ _ _).ge]
  have hcard : 10000 ≤ { collectedTo 10000 (cursorAt 9999) checkedAt with bounded := true }.seen.card :=
    (card_collectedTo 10000 (cursorAt 9999) checkedAt).ge
  have hpage : longCall.page left (cursorAt 9999) = some (pageAfter 9999) := longCall_page left (by omega)
  have hlast : (pageAfter 9999).getLast? = some (namelessRow 10001) := getLast_pageAfter (by decide)
  rw [pages_succ (fun _ => rfl) hpage (length_pageAfter_le 9999) hscan hlast, if_pos hcard]
  rfl

/-- A call that meets no other. -/
def alone (i : ℕ) (call : Call) : List Action :=
  [.begin "" 0, .acquire i, .scan i call, .lookAtLock i, .unlock i]

/-- The calls before this one are over, and the document of the first day is `d`. -/
structure World.Quiet (w : World) (i : ℕ) (d : Document) : Prop where
  cache : (w.cache 0).getD emptyDocument = d
  lock : w.lock 0 = none
  callers : w.callers.length = i

theorem quiet_alone {call : Call} (hw : w.Quiet i d) (hc : d.complete = false) (hb : d.bounded = false)
    (hp : populateHistory lib call d = .ok d') :
    ((run (step lib) w (alone i call)).Quiet (i + 1) d') ∧
      (run (step lib) w (alone i call)).cache 0 = some d' := by
  have hopen : opened lib "" 0 ((w.cache 0).getD emptyDocument) = .read d := by
    rw [hw.cache]
    exact if_pos ⟨hc, hb⟩
  have hset : ∀ c c' : Caller, (w.callers ++ [c]).set i c' = w.callers ++ [c'] := by
    intro c c'
    rw [← hw.callers, List.set_append_right _ _ le_rfl, Nat.sub_self]
    rfl
  have hlock := hw.lock
  have hlength := hw.callers
  constructor
  · constructor <;>
      simp [alone, step, World.setPhase, Caller.cutoff, stored, hopen, hset, hlock, hp, hlength]
  · simp [alone, step, World.setPhase, Caller.cutoff, stored, hopen, hset, hlock, hp, hlength]

theorem populateHistory_longCall (h : pages sampleLibrary longCall [(7, sampleProperty)] 20 d = .ok d') :
    populateHistory sampleLibrary longCall d = .ok { d' with checkedAt := some 0 } := by
  show (pages sampleLibrary longCall [(7, sampleProperty)] 20 d >>= fun d => _) = _
  rw [h]
  rfl

/-- Calls one after the other. -/
def calls (n : ℕ) : List Action := (List.range n).flatMap fun i => alone i longCall

theorem calls_succ (n : ℕ) : calls (n + 1) = calls n ++ alone n longCall := by
  unfold calls
  rw [List.range_succ, List.flatMap_append, List.flatMap_singleton]

theorem meets_calls (n : ℕ) (w : World) : Meets (step sampleLibrary) (Listed fun _ => longHistory) w (calls n) := by
  induction n with
  | zero => exact meets_nil
  | succ n ih =>
    rw [calls_succ, meets_append]
    refine ⟨ih, ?_⟩
    simp only [alone, meets_cons, meets_nil, Listed, longCall_lists, implies_true, and_self]

theorem quiet_calls {n : ℕ} (hn : n < 5) :
    (run (step sampleLibrary) World.start (calls (n + 1))).Quiet (n + 1)
      (collectedTo (1999 + 2000 * n) (cursorAt (1999 + 2000 * n)) (some 0)) := by
  induction n with
  | zero =>
    have hpages : pages sampleLibrary longCall [(7, sampleProperty)] 20 emptyDocument =
        .ok (collectedTo 1999 (cursorAt 1999) none) := by
      have hempty : emptyDocument = collectedTo 0 (cursorAt 0) none := rfl
      rw [hempty, pages_next (by decide)]
      exact pages_far (by decide) (by decide)
    have hstart : World.start.Quiet 0 emptyDocument := ⟨rfl, rfl, rfl⟩
    exact (quiet_alone hstart rfl rfl (populateHistory_longCall hpages)).1
  | succ n ih =>
    rw [calls_succ, run_append]
    have hsum : 1999 + 2000 * (n + 1) = 1999 + 2000 * n + 100 * 20 := by omega
    have hpages := @pages_far [(7, sampleProperty)] (1999 + 2000 * n) (some 0) 20 (by omega) (by omega)
    rw [hsum]
    exact (quiet_alone (ih (by omega)) rfl rfl (populateHistory_longCall hpages)).1

/-- After 9999 rows comes a page of two; the first is read, and the cursor is set to the second. -/
theorem cursor_past_unread_row :
    Meets (step sampleLibrary) (Listed fun _ => longHistory) World.start (calls 6) ∧
    ∃ d ∈ (run (step sampleLibrary) World.start (calls 6)).cache 0, ∃ read unread : RemoteRow,
      longCall.page 19 (some 9999) = some [read, unread] ∧ read.identifier ∈ d.seen ∧ unread.identifier ∉ d.seen ∧
        d.cursor = unread.id := by
  refine ⟨meets_calls 6 World.start, ?_⟩
  have hquiet : (run (step sampleLibrary) World.start (calls 5)).Quiet 5 (collectedTo 9999 (cursorAt 9999) (some 0)) :=
    @quiet_calls 4 (by omega)
  have hpages := @pages_cut [(7, sampleProperty)] (some 0) 19
  have hcall := (quiet_alone hquiet rfl rfl (populateHistory_longCall hpages)).2
  have hpage : longCall.page 19 (cursorAt 9999) = some (pageAfter 9999) := longCall_page 19 (by omega)
  have hrows : pageAfter 9999 = [namelessRow 10000, namelessRow 10001] := rfl
  have hcursor : cursorAt 9999 = some 9999 := by simp [cursorAt]
  rw [hrows, hcursor] at hpage
  have hcalls : calls 6 = calls 5 ++ alone 5 longCall := calls_succ 5
  rw [hcalls, run_append]
  refine ⟨_, Option.mem_def.2 hcall, namelessRow 10000, namelessRow 10001, hpage, ?_, ?_, rfl⟩
  · show (10000 : ℤ) ∈ identifiers 10000
    rw [mem_identifiers]
    omega
  · show (10001 : ℤ) ∉ identifiers 10000
    rw [mem_identifiers]
    omega

end Apartments.History
