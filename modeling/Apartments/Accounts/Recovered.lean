import Apartments.Accounts.Recovery

/-!
# What an import recovers

The pages that are stored for an import follow on each other, whatever tasks run and whatever answers they get: a page is
stored only under the lease that stands, and while a lease stands the cursor stays where the page was asked for. So what is
complete has read everything, and the stays that its guest is shown are those that its pages stored.
-/

namespace Apartments.Recovery

open Machine

variable {site : Site} {w w' : World} {f : Fetch} {job : BookingHistoryImport} {user generation : ℕ}

/-! ### Pages in their order -/

/-- The identifier that the next page is read after. -/
def Page.last (p : Page) : Option ℕ := p.ids.getLast?

/-- Pages that follow on each other from a cursor; none follows on an empty page. -/
def Follows : Option ℕ → List Page → Prop
  | _, [] => True
  | cursor, p :: ps => p.cursor = cursor ∧ (p.rows = [] → ps = []) ∧ Follows p.last ps

/-- Where the pages end that begin at a cursor. -/
def ends (cursor : Option ℕ) (ps : List Page) : Option ℕ := ps.foldl (fun _ p => p.last) cursor

theorem Follows.concat {cursor : Option ℕ} {ps : List Page} {p : Page} (h : Follows cursor ps)
    (hfull : ∀ q ∈ ps, q.rows ≠ []) (hp : p.cursor = ends cursor ps) : Follows cursor (ps ++ [p]) := by
  induction ps generalizing cursor with
  | nil => exact ⟨hp, fun _ => rfl, trivial⟩
  | cons q ps ih =>
    obtain ⟨hcursor, -, hrest⟩ := h
    refine ⟨hcursor, fun hempty => absurd hempty (hfull q List.mem_cons_self), ?_⟩
    exact ih hrest (fun x hx => hfull x (List.mem_cons_of_mem q hx)) hp

theorem ends_concat (cursor : Option ℕ) (ps : List Page) (p : Page) : ends cursor (ps ++ [p]) = p.last := by
  unfold ends
  rw [List.foldl_append]
  rfl

/-- The pages that were stored for an import of a user. -/
def World.pagesOf (w : World) (user generation : ℕ) : List Page :=
  w.pages.filter fun p => p.user == user && p.generation == generation

theorem mem_pagesOf {p : Page} : p ∈ w.pagesOf user generation ↔ p ∈ w.pages ∧ p.user = user ∧ p.generation = generation := by
  unfold World.pagesOf
  rw [List.mem_filter, Bool.and_eq_true, beq_iff_eq, beq_iff_eq]

/-- What the pages of one import have in common. -/
structure Chained (ps : List Page) : Prop where
  follows : Follows none ps
  lasts : (ps.filterMap Page.last).Nodup
  length : ps.length ≤ maxPages
  digest : ∀ p ∈ ps, ∀ q ∈ ps, p.identity.digest = q.identity.digest

/-! ### Rows -/

/-- The stay was saved for a row of this page. -/
structure Saved (site : Site) (identity : Identity) (rows : List Handled) (stay : GuestBookingHistory) (h : Handled) :
    Prop where
  mem : h ∈ rows
  id : h.id = stay.hostawayReservationId
  stored : ∃ created, h.fate = .stored created
  agrees : agrees site h.row.guestEmail h.row.phone identity = true
  values : ∃ properties, project site properties h.id h.row = some stay.values

/-- The stay is this guest's, as this import has saved it. -/
structure Current (user generation : ℕ) (stay : GuestBookingHistory) : Prop where
  user : stay.user = user
  generation : stay.lastSeenGeneration = generation
  visible : stay.isVisible = true

/-- What the rows of a page leave. -/
structure Stores (site : Site) (f : Fetch) (w w' : World) (rows : List Handled) : Prop where
  rest : w' = { w with stays := w'.stays, intents := w'.intents }
  ids : (w'.stays.map GuestBookingHistory.hostawayReservationId).Nodup
  kept : ∀ s ∈ w.stays, s ∈ w'.stays ∨ s.user = f.user ∧ ∃ s' ∈ w'.stays,
    s'.hostawayReservationId = s.hostawayReservationId ∧ Current f.user f.generation s'
  origin : ∀ s ∈ w'.stays, s ∈ w.stays ∨ Current f.user f.generation s ∧ ∃ h, Saved site f.identity rows s h
  saved : ∀ h ∈ rows, ∀ created, h.fate = .stored created →
    ∃ s ∈ w'.stays, s.hostawayReservationId = h.id ∧ Current f.user f.generation s

theorem saveStay_cases {id : ℕ} {row : RemoteBooking} {values : Values} {fate : Fate}
    (h : saveStay f w id row values = some (w', fate)) :
    w' = w ∧ fate = .foreign ∨ (∀ s, w.stay id = some s → s.user = f.user) ∧ (∃ created, fate = .stored created) ∧
      w' = { w with stays := Table.put GuestBookingHistory.hostawayReservationId w.stays (savedStay f w.now id values) } := by
  unfold saveStay at h
  split at h
  · obtain ⟨rfl, rfl⟩ := Prod.mk.inj (Option.some.inj h)
    exact .inl ⟨rfl, rfl⟩
  · rename_i hown
    split at h
    · cases h
    · obtain ⟨rfl, rfl⟩ := Prod.mk.inj (Option.some.inj h)
      refine .inr ⟨fun s hs => ?_, ⟨_, rfl⟩, rfl⟩
      rw [hs] at hown
      simpa using hown

theorem siteFate_cases {id : ℕ} {fate : Fate} (h : siteFate site f w id = some (w', fate)) :
    w' = { w with intents := w'.intents } ∧ ∀ created, fate ≠ .stored created := by
  unfold siteFate at h
  obtain ⟨intent, -, h⟩ := Option.bind_eq_some_iff.1 h
  split at h
  · obtain ⟨rfl, rfl⟩ := Prod.mk.inj (Option.some.inj h)
    refine ⟨rfl, fun created => ?_⟩
    split <;> simp
  · split at h
    · obtain ⟨rfl, rfl⟩ := Prod.mk.inj (Option.some.inj h)
      exact ⟨rfl, fun created => by simp⟩
    · cases h

/-- A row leaves the stays as they are, or saves its projection. -/
theorem storeRow_cases {id : ℕ} {row : RemoteBooking} {fate : Fate} (h : storeRow site f w id row = some (w', fate)) :
    (w' = { w with intents := w'.intents } ∧ ∀ created, fate ≠ .stored created) ∨
      agrees site row.guestEmail row.phone f.identity = true ∧ (∀ s, w.stay id = some s → s.user = f.user) ∧
        (∃ created, fate = .stored created) ∧ ∃ values, project site w.properties id row = some values ∧
          w' = { w with stays := Table.put GuestBookingHistory.hostawayReservationId w.stays (savedStay f w.now id values) } := by
  unfold storeRow at h
  split at h
  · obtain ⟨rfl, rfl⟩ := Prod.mk.inj (Option.some.inj h)
    exact .inl ⟨rfl, fun created => by simp⟩
  · rename_i hagrees
    split at h
    · obtain ⟨rfl, rfl⟩ := Prod.mk.inj (Option.some.inj h)
      exact .inl ⟨rfl, fun created => by simp⟩
    · rename_i values hvalues
      split at h
      · rename_i result hsite
        obtain rfl := Option.some.inj h
        exact .inl (siteFate_cases hsite)
      · rcases saveStay_cases h with ⟨rfl, rfl⟩ | ⟨hown, hstored, hw'⟩
        · exact .inl ⟨rfl, fun created => by simp⟩
        · exact .inr ⟨by simpa using hagrees, hown, hstored, values, hvalues, hw'⟩

theorem Stores.refl (hnd : (w.stays.map GuestBookingHistory.hostawayReservationId).Nodup) : Stores site f w w [] :=
  ⟨rfl, hnd, fun _ hs => .inl hs, fun _ hs => .inl hs, fun _ hh => absurd hh List.not_mem_nil⟩

theorem Saved.mono {identity : Identity} {rows rows' : List Handled} {s : GuestBookingHistory} {h : Handled}
    (hs : Saved site identity rows s h) (hrows : rows ⊆ rows') : Saved site identity rows' s h :=
  ⟨hrows hs.mem, hs.id, hs.stored, hs.agrees, hs.values⟩

/-- A stay that was saved is there after the rest of the page. -/
theorem Stores.current {rows : List Handled} (h : Stores site f w w' rows) {s : GuestBookingHistory} (hs : s ∈ w.stays)
    (hcurrent : Current f.user f.generation s) :
    ∃ s' ∈ w'.stays, s'.hostawayReservationId = s.hostawayReservationId ∧ Current f.user f.generation s' := by
  rcases h.kept s hs with hs' | ⟨-, hkept⟩
  · exact ⟨s, hs', rfl, hcurrent⟩
  · exact hkept

theorem Stores.trans {w'' : World} {h : Handled} {rows : List Handled} (h₁ : Stores site f w w' [h])
    (h₂ : Stores site f w' w'' rows) : Stores site f w w'' (h :: rows) := by
  refine ⟨?_, h₂.ids, fun s hs => ?_, fun s hs => ?_, fun x hx created hfate => ?_⟩
  · rw [h₂.rest, h₁.rest]
  · rcases h₁.kept s hs with hs' | ⟨huser, s', hs', hid, hcurrent⟩
    · exact h₂.kept s hs'
    · obtain ⟨s'', hs'', hid', hcurrent'⟩ := h₂.current hs' hcurrent
      exact .inr ⟨huser, s'', hs'', hid'.trans hid, hcurrent'⟩
  · rcases h₂.origin s hs with hs' | ⟨hcurrent, x, hsaved⟩
    · exact (h₁.origin s hs').imp_right fun ⟨hcurrent, x, hsaved⟩ =>
        ⟨hcurrent, x, hsaved.mono (List.cons_subset_cons h (List.nil_subset rows))⟩
    · exact .inr ⟨hcurrent, x, hsaved.mono (List.subset_cons_self h rows)⟩
  · rcases List.mem_cons.1 hx with rfl | hx
    · obtain ⟨s', hs', hid, hcurrent⟩ := h₁.saved x (List.mem_singleton_self x) created hfate
      obtain ⟨s'', hs'', hid', hcurrent'⟩ := h₂.current hs' hcurrent
      exact ⟨s'', hs'', hid'.trans hid, hcurrent'⟩
    · exact h₂.saved x hx created hfate

theorem current_savedStay (f : Fetch) (now : Time) (id : ℕ) (values : Values) :
    Current f.user f.generation (savedStay f now id values) := ⟨rfl, rfl, rfl⟩

theorem storeRow_spec (hnd : (w.stays.map GuestBookingHistory.hostawayReservationId).Nodup) {id : ℕ} {row : RemoteBooking}
    {fate : Fate} (h : storeRow site f w id row = some (w', fate)) : Stores site f w w' [⟨id, row, fate⟩] := by
  rcases storeRow_cases h with ⟨hw', hfate⟩ | ⟨hagrees, hown, hfate, values, hvalues, rfl⟩
  · rw [hw']
    refine ⟨rfl, hnd, fun s hs => .inl hs, fun s hs => .inl hs, fun x hx created hx' => ?_⟩
    rw [List.mem_singleton.1 hx] at hx'
    exact absurd hx' (hfate created)
  · refine ⟨rfl, Table.nodup_put hnd, fun s hs => ?_, fun s hs => ?_, fun x hx created hx' => ?_⟩
    · by_cases hid : s.hostawayReservationId = id
      · refine .inr ⟨?_, savedStay f w.now id values, Table.mem_put.2 (.inl rfl), hid.symm, current_savedStay ..⟩
        exact hown s (hid ▸ Table.get_eq_of_mem hnd hs)
      · exact .inl (Table.mem_put.2 (.inr ⟨hs, hid⟩))
    · rcases Table.mem_put.1 hs with rfl | ⟨hs, -⟩
      · exact .inr ⟨current_savedStay .., _, List.mem_singleton_self _, rfl, hfate, hagrees, _, hvalues⟩
      · exact .inl hs
    · rw [List.mem_singleton.1 hx]
      exact ⟨_, Table.mem_put.2 (.inl rfl), rfl, current_savedStay ..⟩

theorem storeRows_spec (hnd : (w.stays.map GuestBookingHistory.hostawayReservationId).Nodup)
    {rows : List (ℕ × RemoteBooking)} {handled : List Handled} (h : storeRows site f w rows = some (w', handled)) :
    Stores site f w w' handled ∧ handled.map Handled.id = rows.map Prod.fst := by
  induction rows generalizing w handled with
  | nil =>
    obtain ⟨rfl, rfl⟩ := Prod.mk.inj (Option.some.inj h)
    exact ⟨.refl hnd, rfl⟩
  | cons x rows ih =>
    obtain ⟨id, row⟩ := x
    obtain ⟨⟨v, fate⟩, hrow, h⟩ := Option.bind_eq_some_iff.1 h
    obtain ⟨⟨v', rest⟩, hrows, heq⟩ := Option.map_eq_some_iff.1 h
    obtain ⟨rfl, rfl⟩ := Prod.mk.inj heq
    have hfirst := storeRow_spec hnd hrow
    obtain ⟨hstores, hids⟩ := ih hfirst.ids hrows
    exact ⟨hfirst.trans hstores, congrArg (id :: ·) hids⟩

/-! ### The imports -/

/-- Where an import stands that may still read a page. -/
structure Reading (job : BookingHistoryImport) (ps : List Page) : Prop where
  cursor : job.cursor = ends none ps
  full : ∀ p ∈ ps, p.rows ≠ []
  seen : job.seenCursors = ps.filterMap Page.last
  count : job.pages = ps.length
  below : ps.length < maxPages

/-- The import has read an empty page, and its guest is shown nothing that it has not saved. -/
structure Whole (w : World) (job : BookingHistoryImport) : Prop where
  lease : job.lease = none
  empty : ∃ ps p, w.pagesOf job.user job.generation = ps ++ [p] ∧ p.rows = []
  shown : ∀ s ∈ w.stays, s.user = job.user → s.isVisible = true → s.lastSeenGeneration = job.generation

structure Import (w : World) (job : BookingHistoryImport) : Prop where
  generation : job.generation < w.nextUuid
  leased : ∀ lease, job.lease = some lease → lease < w.nextUuid
  held : ∀ f ∈ w.fetches, f.user = job.user → job.lease = some f.lease → f.cursor = job.cursor
  asked : ∀ f ∈ w.fetches, f.user = job.user → f.generation = job.generation → f.identity.digest = job.identityDigest
  digest : ∀ p ∈ w.pagesOf job.user job.generation, p.identity.digest = job.identityDigest
  reading : job.active = true ∨ job.lease ≠ none → Reading job (w.pagesOf job.user job.generation)
  complete : job.status = .complete → Whole w job
  saved : ∀ p ∈ w.pagesOf job.user job.generation, ∀ h ∈ p.rows, ∀ created, h.fate = .stored created →
    ∃ s ∈ w.stays, s.hostawayReservationId = h.id ∧ Current job.user job.generation s

structure Sound (site : Site) (w : World) : Prop where
  users : (w.imports.map BookingHistoryImport.user).Nodup
  ids : (w.stays.map GuestBookingHistory.hostawayReservationId).Nodup
  imports : ∀ job ∈ w.imports, Import w job
  fetches : ∀ f ∈ w.fetches, f.generation < w.nextUuid ∧ f.lease < w.nextUuid
  pages : ∀ p ∈ w.pages, p.generation < w.nextUuid ∧ p.lease < w.nextUuid
  leases : (w.fetches.map Fetch.lease ++ w.pages.map Page.lease).Nodup
  chained : ∀ user generation, Chained (w.pagesOf user generation)
  origin : ∀ s ∈ w.stays, ∃ p ∈ w.pages, p.user = s.user ∧ p.generation = s.lastSeenGeneration ∧
    ∃ h, Saved site p.identity p.rows s h

/-- The parts of the world that an import rests on. -/
structure SameImports (w w' : World) : Prop where
  stays : w'.stays = w.stays
  fetches : w'.fetches = w.fetches
  pages : w'.pages = w.pages
  nextUuid : w'.nextUuid = w.nextUuid

theorem SameImports.pagesOf (h : SameImports w w') (user generation : ℕ) :
    w'.pagesOf user generation = w.pagesOf user generation := by
  unfold World.pagesOf
  rw [h.pages]

theorem Import.congr (h : Import w job) (hw : SameImports w w') : Import w' job := by
  refine ⟨?_, ?_, ?_, ?_, ?_, fun hactive => ?_, fun hcomplete => ?_, ?_⟩
  · rw [hw.nextUuid]
    exact h.generation
  · rw [hw.nextUuid]
    exact h.leased
  · rw [hw.fetches]
    exact h.held
  · rw [hw.fetches]
    exact h.asked
  · rw [hw.pagesOf]
    exact h.digest
  · rw [hw.pagesOf]
    exact h.reading hactive
  · obtain ⟨hlease, hempty, hshown⟩ := h.complete hcomplete
    refine ⟨hlease, ?_, ?_⟩
    · rwa [hw.pagesOf]
    · rwa [hw.stays]
  · rw [hw.pagesOf, hw.stays]
    exact h.saved

theorem Sound.congr (h : Sound site w) (hw : SameImports w w') (husers : (w'.imports.map BookingHistoryImport.user).Nodup)
    (himports : ∀ job ∈ w'.imports, Import w job) : Sound site w' := by
  refine ⟨husers, ?_, fun job hjob => (himports job hjob).congr hw, ?_, ?_, ?_, fun user generation => ?_, ?_⟩
  · rw [hw.stays]
    exact h.ids
  · rw [hw.fetches, hw.nextUuid]
    exact h.fetches
  · rw [hw.pages, hw.nextUuid]
    exact h.pages
  · rw [hw.fetches, hw.pages]
    exact h.leases
  · rw [hw.pagesOf]
    exact h.chained user generation
  · rw [hw.stays, hw.pages]
    exact h.origin

/-- What stops an import, or leaves it. -/
structure Halts (job job' : BookingHistoryImport) : Prop where
  user : job'.user = job.user
  generation : job'.generation = job.generation
  digest : job'.identityDigest = job.identityDigest
  reading : job'.cursor = job.cursor ∧ job'.seenCursors = job.seenCursors ∧ job'.pages = job.pages
  active : job'.active = true → job.active = true
  complete : job'.status = .complete → job' = job
  lease : job'.lease = job.lease ∨ job'.lease = none

theorem Halts.refl (job : BookingHistoryImport) : Halts job job :=
  ⟨rfl, rfl, rfl, ⟨rfl, rfl, rfl⟩, id, fun _ => rfl, .inl rfl⟩

theorem Halts.partly {job' : BookingHistoryImport} (hjob' : job' = { job with
    status := .partly, errorCode := job'.errorCode, lease := job'.lease, lockedUntil := job'.lockedUntil,
    updatedAt := job'.updatedAt }) (hlease : job'.lease = job.lease ∨ job'.lease = none) : Halts job job' := by
  have hstatus : job'.status = .partly := by rw [hjob']
  refine ⟨by rw [hjob'], by rw [hjob'], by rw [hjob'], ?_, fun hactive => ?_, fun hcomplete => ?_, hlease⟩
  · rw [hjob']
    exact ⟨rfl, rfl, rfl⟩
  · unfold BookingHistoryImport.active at hactive
    rw [hstatus] at hactive
    cases hactive
  · rw [hstatus] at hcomplete
    cases hcomplete

theorem Import.halted {job' : BookingHistoryImport} (h : Import w job) (hh : Halts job job') : Import w job' := by
  have hlease : ∀ lease, job'.lease = some lease → job.lease = some lease := by
    intro lease hl
    rcases hh.lease with heq | heq
    · rwa [heq] at hl
    · rw [heq] at hl
      cases hl
  refine ⟨?_, fun lease hl => h.leased lease (hlease lease hl), ?_, ?_, ?_, fun hactive => ?_, fun hcomplete => ?_, ?_⟩
  · rw [hh.generation]
    exact h.generation
  · rw [hh.user, hh.reading.1]
    exact fun f hf huser hl => h.held f hf huser (hlease _ hl)
  · rw [hh.user, hh.generation, hh.digest]
    exact h.asked
  · rw [hh.user, hh.generation, hh.digest]
    exact h.digest
  · have hreading := h.reading <| hactive.imp hh.active fun hne hnone => hne <| by
      rcases hh.lease with heq | heq
      · rw [heq, hnone]
      · exact heq
    rw [hh.user, hh.generation]
    exact ⟨hh.reading.1.trans hreading.cursor, hreading.full, hh.reading.2.1.trans hreading.seen,
      hh.reading.2.2.trans hreading.count, hreading.below⟩
  · obtain rfl := hh.complete hcomplete
    exact h.complete hcomplete
  · rw [hh.user, hh.generation]
    exact h.saved

theorem Sound.halted (h : Sound site w) {g : BookingHistoryImport → BookingHistoryImport}
    (hg : ∀ job ∈ w.imports, job.user = user → Halts job (g job)) (huser : ∀ job, job.user = user → (g job).user = user) :
    Sound site (w.modifyJob user g) := by
  refine h.congr ⟨rfl, rfl, rfl, rfl⟩ ?_ fun job hjob => ?_
  · show ((Table.modify BookingHistoryImport.user w.imports user g).map BookingHistoryImport.user).Nodup
    rw [Table.map_key_modify huser]
    exact h.users
  · obtain ⟨old, hold, rfl⟩ := Table.mem_modify.1 hjob
    split
    · rename_i hu
      exact (h.imports old hold).halted (hg old hold hu)
    · exact h.imports old hold

/-! ### Starting an import, and asking for a page -/

theorem pagesOf_nextUuid (h : Sound site w) (user : ℕ) : w.pagesOf user w.nextUuid = [] := by
  unfold World.pagesOf
  refine List.filter_eq_nil_iff.2 fun p hp hkey => ?_
  have hlt := (h.pages p hp).1
  rw [Bool.and_eq_true, beq_iff_eq, beq_iff_eq] at hkey
  omega

theorem Import.mono (h : Import w job) {n : ℕ} (hn : w.nextUuid ≤ n) : Import { w with nextUuid := n } job :=
  ⟨Nat.lt_of_lt_of_le h.generation hn, fun lease hl => Nat.lt_of_lt_of_le (h.leased lease hl) hn, h.held, h.asked, h.digest,
    h.reading, fun hcomplete => ⟨(h.complete hcomplete).lease, (h.complete hcomplete).empty, (h.complete hcomplete).shown⟩,
    h.saved⟩

theorem Sound.mono (h : Sound site w) {n : ℕ} (hn : w.nextUuid ≤ n) : Sound site { w with nextUuid := n } := by
  refine ⟨h.users, h.ids, fun job hjob => (h.imports job hjob).mono hn, fun f hf => ?_, fun p hp => ?_, h.leases, h.chained,
    h.origin⟩
  · obtain ⟨hgeneration, hlease⟩ := h.fetches f hf
    exact ⟨Nat.lt_of_lt_of_le hgeneration hn, Nat.lt_of_lt_of_le hlease hn⟩
  · obtain ⟨hgeneration, hlease⟩ := h.pages p hp
    exact ⟨Nat.lt_of_lt_of_le hgeneration hn, Nat.lt_of_lt_of_le hlease hn⟩

/-- A new import has no page. -/
theorem import_new (h : Sound site w) (user : ℕ) (identity : Identity) (added : ℕ) (now : Time) :
    Import { w with nextUuid := w.nextUuid + 1 } (newImport user w.nextUuid identity added now) := by
  have hnone : w.pagesOf user w.nextUuid = [] := pagesOf_nextUuid h user
  refine ⟨Nat.lt_succ_self _, fun lease hl => ?_, fun f hf _ hl => ?_, fun f hf _ hgeneration => ?_, fun p hp => ?_,
    fun _ => ?_, fun hcomplete => ?_, fun p hp => ?_⟩
  · cases hl
  · cases hl
  · have hlt := (h.fetches f hf).1
    have heq : f.generation = w.nextUuid := hgeneration
    omega
  · have hp : p ∈ w.pagesOf user w.nextUuid := hp
    rw [hnone] at hp
    exact absurd hp List.not_mem_nil
  · show Reading _ (w.pagesOf user w.nextUuid)
    rw [hnone]
    exact ⟨rfl, fun p hp => absurd hp List.not_mem_nil, rfl, rfl, by decide⟩
  · cases hcomplete
  · have hp : p ∈ w.pagesOf user w.nextUuid := hp
    rw [hnone] at hp
    exact absurd hp List.not_mem_nil

theorem Sound.started (h : Sound site w) (user : ℕ) : Sound site (startImport site user w).1 := by
  unfold startImport
  split
  · exact h
  · rename_i identity hidentity
    split
    · exact h
    · have hnext : Sound site { w with nextUuid := w.nextUuid + 1 } := h.mono (Nat.le_succ _)
      refine hnext.congr ⟨rfl, rfl, rfl, rfl⟩ (Table.nodup_put h.users) fun job hjob => ?_
      rcases Table.mem_put.1 hjob with rfl | ⟨hjob, -⟩
      · exact import_new h user identity _ w.now
      · exact hnext.imports job hjob

theorem Sound.unqueued (h : Sound site w) (user generation : ℕ) : Sound site (Recovery.unqueued user generation w) := by
  refine h.halted (fun job _ _ => ?_) fun job hu => ?_
  · split
    · exact .partly rfl (.inl rfl)
    · exact .refl job
  · split <;> exact hu

/-- The task whose page is asked for next. -/
theorem Import.leasing (h : Import w job) (hw : Sound site w) (hactive : job.active = true) {identity : Identity}
    (hdigest : identity.digest = job.identityDigest) (until_ : Time) (now : Time) :
    Import { w with
      fetches := w.fetches ++ [⟨job.user, job.generation, w.nextUuid, job.cursor, identity⟩]
      nextUuid := w.nextUuid + 1 }
      { job with lease := some w.nextUuid, lockedUntil := some until_, status := .running, updatedAt := now } := by
  refine ⟨Nat.lt_succ_of_lt h.generation, fun lease hl => ?_, fun f hf huser hl => ?_, fun f hf huser hgeneration => ?_,
    h.digest, fun _ => ?_, fun hcomplete => ?_, h.saved⟩
  · obtain rfl := Option.some.inj hl
    exact Nat.lt_succ_self _
  · rcases List.mem_append.1 hf with hf | hf
    · have hlt := (hw.fetches f hf).2
      have heq : w.nextUuid = f.lease := Option.some.inj hl
      omega
    · rw [List.mem_singleton.1 hf]
  · rcases List.mem_append.1 hf with hf | hf
    · exact h.asked f hf huser hgeneration
    · rw [List.mem_singleton.1 hf]
      exact hdigest
  · obtain ⟨hcursor, hfull, hseen, hcount, hbelow⟩ := h.reading (.inl hactive)
    exact ⟨hcursor, hfull, hseen, hcount, hbelow⟩
  · cases hcomplete

/-- A task for another user is asked for. -/
theorem Import.others (h : Import w job) {f : Fetch} (hf : f.user ≠ job.user) :
    Import { w with fetches := w.fetches ++ [f], nextUuid := w.nextUuid + 1 } job := by
  refine ⟨Nat.lt_succ_of_lt h.generation, fun lease hl => Nat.lt_succ_of_lt (h.leased lease hl), fun g hg huser => ?_,
    fun g hg huser => ?_, h.digest, h.reading, fun hcomplete => ?_, h.saved⟩
  · rcases List.mem_append.1 hg with hg | hg
    · exact h.held g hg huser
    · rw [List.mem_singleton.1 hg] at huser
      exact absurd huser hf
  · rcases List.mem_append.1 hg with hg | hg
    · exact h.asked g hg huser
    · rw [List.mem_singleton.1 hg] at huser
      exact absurd huser hf
  · obtain ⟨hlease, hempty, hshown⟩ := h.complete hcomplete
    exact ⟨hlease, hempty, hshown⟩

theorem Sound.begun (h : Sound site w) (user generation : ℕ) : Sound site (begin site user generation w) := by
  unfold begin
  split
  · exact h
  · rename_i job hjob
    split
    · exact h
    · rename_i hready
      obtain ⟨hgeneration, hactive, -⟩ : job.generation = generation ∧ job.active = true ∧ _ := by
        simpa only [not_or, not_not, Bool.not_eq_false] using hready
      obtain rfl : job.user = user := Table.key_of_get hjob
      have hmem : job ∈ w.imports := Table.mem_of_get hjob
      split
      · exact h.halted (fun old _ _ => .partly rfl (.inl rfl)) fun old hu => hu
      · rename_i identity hidentity
        obtain ⟨-, hdigest⟩ := Option.filter_eq_some_iff.1 hidentity
        subst hgeneration
        refine ⟨?_, h.ids, fun job' hjob' => ?_, fun f hf => ?_, fun p hp => ?_, ?_, h.chained, h.origin⟩
        · show ((Table.modify BookingHistoryImport.user w.imports job.user _).map BookingHistoryImport.user).Nodup
          rw [Table.map_key_modify]
          · exact h.users
          · exact fun old hu => hu
        · obtain ⟨old, hold, rfl⟩ := Table.mem_modify.1 hjob'
          split
          · rename_i hu
            obtain rfl : old = job := Table.eq_of_mem_of_key h.users hold hmem hu
            exact ((h.imports old hold).leasing h hactive (beq_iff_eq.1 hdigest) _ _).congr ⟨rfl, rfl, rfl, rfl⟩
          · rename_i hu
            exact ((h.imports old hold).others fun heq => hu heq.symm).congr ⟨rfl, rfl, rfl, rfl⟩
        · rcases List.mem_append.1 hf with hf | hf
          · exact ⟨Nat.lt_succ_of_lt (h.fetches f hf).1, Nat.lt_succ_of_lt (h.fetches f hf).2⟩
          · rw [List.mem_singleton.1 hf]
            exact ⟨Nat.lt_succ_of_lt (h.imports job hmem).generation, Nat.lt_succ_self _⟩
        · exact ⟨Nat.lt_succ_of_lt (h.pages p hp).1, Nat.lt_succ_of_lt (h.pages p hp).2⟩
        · -- the new lease is nobody's
          have hnew : w.nextUuid ∉ w.fetches.map Fetch.lease ++ w.pages.map Page.lease := by
            intro hlease
            rcases List.mem_append.1 hlease with hl | hl
            · obtain ⟨f, hf, heq⟩ := List.mem_map.1 hl
              have hlt := (h.fetches f hf).2
              omega
            · obtain ⟨p, hp, heq⟩ := List.mem_map.1 hl
              have hlt := (h.pages p hp).2
              omega
          show ((w.fetches ++ [_]).map Fetch.lease ++ w.pages.map Page.lease).Nodup
          rw [List.map_append, List.append_assoc]
          exact (List.perm_middle.nodup_iff.2 (List.nodup_cons.2 ⟨hnew, h.leases⟩) :)

/-! ### Storing a page -/

/-- What is known of a task whose page is on its way. -/
structure Pending (w : World) (f : Fetch) : Prop where
  generation : f.generation < w.nextUuid
  lease : f.lease < w.nextUuid
  fresh : f.lease ∉ w.fetches.map Fetch.lease ++ w.pages.map Page.lease
  held : ∀ job ∈ w.imports, f.user = job.user → job.lease = some f.lease → f.cursor = job.cursor
  asked : ∀ job ∈ w.imports, f.user = job.user → f.generation = job.generation → f.identity.digest = job.identityDigest

theorem Sound.taken (h : Sound site w) {i : ℕ} (hf : w.fetches[i]? = some f) :
    Sound site { w with fetches := w.fetches.eraseIdx i } ∧ Pending { w with fetches := w.fetches.eraseIdx i } f := by
  have hperm : w.fetches.Perm (f :: w.fetches.eraseIdx i) := Table.perm_of_getElem? hf
  have hmem : f ∈ w.fetches := List.mem_of_getElem? hf
  have hsub : ∀ g ∈ w.fetches.eraseIdx i, g ∈ w.fetches := fun g hg => List.mem_of_mem_eraseIdx hg
  have hnodup : (f.lease :: ((w.fetches.eraseIdx i).map Fetch.lease ++ w.pages.map Page.lease)).Nodup :=
    ((hperm.map Fetch.lease).append_right _).nodup_iff.1 h.leases
  refine ⟨⟨h.users, h.ids, fun job hjob => ?_, fun g hg => h.fetches g (hsub g hg), h.pages, (List.nodup_cons.1 hnodup).2,
    h.chained, h.origin⟩, ⟨(h.fetches f hmem).1, (h.fetches f hmem).2, (List.nodup_cons.1 hnodup).1, fun job hjob => ?_,
    fun job hjob => ?_⟩⟩
  · have himport := h.imports job hjob
    refine ⟨himport.generation, himport.leased, fun g hg => himport.held g (hsub g hg), fun g hg => himport.asked g (hsub g hg),
      himport.digest, himport.reading, fun hcomplete => ?_, himport.saved⟩
    obtain ⟨hlease, hempty, hshown⟩ := himport.complete hcomplete
    exact ⟨hlease, hempty, hshown⟩
  · exact (h.imports job hjob).held f hmem
  · exact (h.imports job hjob).asked f hmem

/-- A page that is stored: the lease still stands, and its last identifier is new. -/
structure Commits (site : Site) (f : Fetch) (w : World) (job : BookingHistoryImport) (v : World) (rows : List Handled) :
    Prop where
  mem : job ∈ w.imports
  user : job.user = f.user
  lease : job.lease = some f.lease
  generation : job.generation = f.generation
  stores : Stores site f w v rows
  unseen : ∀ last ∈ (rows.map Handled.id).getLast?, last ∉ job.seenCursors

theorem of_guard {α : Type} {c : Prop} [Decidable c] {k : Unit → Option α} {a : α} (h : (guard c >>= k) = some a) :
    c ∧ k () = some a := by
  by_cases hc : c
  · rw [guard, if_pos hc] at h
    exact ⟨hc, h⟩
  · rw [guard, if_neg hc] at h
    cases h

theorem commit_cases (hnd : (w.stays.map GuestBookingHistory.hostawayReservationId).Nodup)
    {items : List (Option RemoteBooking)} (h : commit site f w items = some w') :
    w' = w ∨ ∃ job v rows, Commits site f w job v rows ∧ w' = stored f v rows := by
  obtain ⟨rows, -, h⟩ := Option.bind_eq_some_iff.1 h
  obtain ⟨job, hjob, h⟩ := Option.bind_eq_some_iff.1 h
  split at h
  · exact .inl (Option.some.inj h).symm
  · rename_i hstands
    obtain ⟨hlease, hgeneration⟩ : job.lease = some f.lease ∧ job.generation = f.generation := by
      simpa only [not_or, not_not] using hstands
    obtain ⟨current, -, h⟩ := Option.bind_eq_some_iff.1 h
    obtain ⟨-, h⟩ := of_guard h
    obtain ⟨hunseen, h⟩ := of_guard h
    obtain ⟨⟨v, handled⟩, hrows, h⟩ := Option.bind_eq_some_iff.1 h
    obtain ⟨hstores, hids⟩ := storeRows_spec hnd hrows
    refine .inr ⟨job, v, handled, ⟨Table.mem_of_get hjob, Table.key_of_get hjob, hlease, hgeneration, hstores, ?_⟩,
      (Option.some.inj h).symm⟩
    rw [hids]
    exact hunseen

/-- The page that is recorded. -/
def Fetch.page (f : Fetch) (rows : List Handled) : Page := ⟨f.user, f.generation, f.lease, f.cursor, f.identity, rows⟩

/-- A stay after a page: the last page hides it, if this import has not seen it. -/
inductive After (f : Fetch) (rows : List Handled) (old : GuestBookingHistory) : GuestBookingHistory → Prop
  | same (h : rows = [] → old.user = f.user → old.lastSeenGeneration = f.generation) : After f rows old old
  | hidden (hrows : rows = []) (huser : old.user = f.user) (hgeneration : old.lastSeenGeneration ≠ f.generation) :
    After f rows old { old with isVisible := false }

theorem after_hidden {rows : List Handled} (hrows : rows = []) (old : GuestBookingHistory) : After f rows old (hidden f old) := by
  unfold hidden
  split
  · rename_i h
    exact .hidden hrows h.1 h.2
  · rename_i h
    refine .same fun _ huser => ?_
    by_contra hne
    exact h ⟨huser, hne⟩

section
variable {v : World} {rows : List Handled} {s : GuestBookingHistory}

theorem of_mem_stored (hs : s ∈ (stored f v rows).stays) : ∃ old ∈ v.stays, After f rows old s := by
  unfold stored at hs
  dsimp only at hs
  split at hs
  · rename_i hrows
    obtain ⟨old, hold, rfl⟩ := List.mem_map.1 hs
    exact ⟨old, hold, after_hidden hrows old⟩
  · rename_i hrows
    exact ⟨s, hs, .same fun h => absurd h hrows⟩

theorem mem_stored (hs : s ∈ v.stays) : ∃ s' ∈ (stored f v rows).stays, After f rows s s' := by
  unfold stored
  dsimp only
  split
  · rename_i hrows
    exact ⟨hidden f s, List.mem_map_of_mem hs, after_hidden hrows s⟩
  · rename_i hrows
    exact ⟨s, hs, .same fun h => absurd h hrows⟩

/-- Nothing else changes. -/
theorem After.rest {s' : GuestBookingHistory} (h : After f rows s s') : s' = { s with isVisible := s'.isVisible } := by
  cases h <;> rfl

theorem After.eq {s' : GuestBookingHistory} (h : After f rows s s')
    (hs : s.user = f.user → s.lastSeenGeneration = f.generation) : s' = s := by
  cases h with
  | same => rfl
  | hidden _ huser hgeneration => exact absurd (hs huser) hgeneration

theorem Stores.pages (h : Stores site f w v rows) : (stored f v rows).pages = w.pages ++ [f.page rows] := by
  show v.pages ++ _ = _
  rw [h.rest]
  rfl

theorem Stores.pagesOf_own (h : Stores site f w v rows) :
    (stored f v rows).pagesOf f.user f.generation = w.pagesOf f.user f.generation ++ [f.page rows] := by
  unfold World.pagesOf
  rw [h.pages, List.filter_append]
  simp [Fetch.page]

theorem Stores.pagesOf_other (h : Stores site f w v rows) (hne : ¬ (user = f.user ∧ generation = f.generation)) :
    (stored f v rows).pagesOf user generation = w.pagesOf user generation := by
  unfold World.pagesOf
  rw [h.pages, List.filter_append]
  have hnone : [f.page rows].filter (fun p => p.user == user && p.generation == generation) = [] := by
    refine List.filter_eq_nil_iff.2 fun p hp hkey => hne ?_
    rw [List.mem_singleton.1 hp, Bool.and_eq_true, beq_iff_eq, beq_iff_eq] at hkey
    exact ⟨hkey.1.symm, hkey.2.symm⟩
  rw [hnone, List.append_nil]

end

/-- What this import has saved it does not hide. -/
theorem After.current {rows : List Handled} {s s' : GuestBookingHistory} (h : After f rows s s')
    (hs : Current f.user f.generation s) : Current f.user f.generation s' := by
  rw [h.eq fun _ => hs.generation]
  exact hs

/-- The import of somebody else. -/
theorem Import.other {v : World} {rows : List Handled} (h : Import w job) (hc : Stores site f w v rows)
    (hne : job.user ≠ f.user) : Import (stored f v rows) job := by
  have hpages : (stored f v rows).pagesOf job.user job.generation = w.pagesOf job.user job.generation :=
    hc.pagesOf_other fun heq => hne heq.1
  have hnext : (stored f v rows).nextUuid = w.nextUuid := by
    show v.nextUuid = _
    rw [hc.rest]
  have hfetches : (stored f v rows).fetches = w.fetches := by
    show v.fetches = _
    rw [hc.rest]
  -- the stays of this guest are those from before
  have hsame : ∀ s ∈ (stored f v rows).stays, s.user = job.user → s ∈ w.stays := by
    intro s hs huser
    obtain ⟨old, hold, hafter⟩ := of_mem_stored hs
    have hother : old.user ≠ f.user := by
      rw [hafter.rest] at huser
      exact fun heq => hne (huser.symm.trans heq)
    rw [hafter.eq fun heq => absurd heq hother]
    rcases hc.origin old hold with hold | ⟨hcurrent, -⟩
    · exact hold
    · exact absurd hcurrent.user hother
  refine ⟨?_, ?_, ?_, ?_, ?_, fun hactive => ?_, fun hcomplete => ?_, ?_⟩
  · rw [hnext]
    exact h.generation
  · rw [hnext]
    exact h.leased
  · rw [hfetches]
    exact h.held
  · rw [hfetches]
    exact h.asked
  · rw [hpages]
    exact h.digest
  · rw [hpages]
    exact h.reading hactive
  · obtain ⟨hlease, hempty, hshown⟩ := h.complete hcomplete
    refine ⟨hlease, ?_, fun s hs huser => hshown s (hsame s hs huser) huser⟩
    rwa [hpages]
  · rw [hpages]
    intro p hp x hx created hfate
    obtain ⟨s, hs, hid, hcurrent⟩ := h.saved p hp x hx created hfate
    have hother : s.user ≠ f.user := fun heq => hne (hcurrent.user.symm.trans heq)
    rcases hc.kept s hs with hs | ⟨heq, -⟩
    · obtain ⟨s', hs', hafter⟩ : ∃ s' ∈ (stored f v rows).stays, After f rows s s' := mem_stored hs
      rw [hafter.eq fun heq => absurd heq hother] at hs'
      exact ⟨s, hs', hid, hcurrent⟩
    · exact absurd heq hother

/-- Where the import of a page stands after it. -/
theorem afterPage_cases (now : Time) (rows : List Handled) (job : BookingHistoryImport) :
    (afterPage now rows job).user = job.user ∧ (afterPage now rows job).generation = job.generation ∧
      (afterPage now rows job).identityDigest = job.identityDigest ∧ (afterPage now rows job).lease = none ∧
      ((rows = [] ∧ (afterPage now rows job).active = false) ∨
        (afterPage now rows job).active = false ∧ (afterPage now rows job).status ≠ .complete ∨
        ∃ cursor, (rows.map Handled.id).getLast? = some cursor ∧ job.pages + 1 < maxPages ∧
          (afterPage now rows job).status = .queued ∧ (afterPage now rows job).cursor = some cursor ∧
          (afterPage now rows job).seenCursors = job.seenCursors ++ [cursor] ∧
          (afterPage now rows job).pages = job.pages + 1) := by
  unfold afterPage
  dsimp only
  split
  · rename_i hlast
    refine ⟨rfl, rfl, rfl, rfl, .inl ⟨?_, rfl⟩⟩
    exact List.map_eq_nil_iff.1 (List.getLast?_eq_none_iff.1 hlast)
  · rename_i cursor hlast
    split
    · exact ⟨rfl, rfl, rfl, rfl, .inr (.inl ⟨rfl, by simp⟩)⟩
    · rename_i hpages
      exact ⟨rfl, rfl, rfl, rfl, .inr (.inr ⟨cursor, hlast, Nat.lt_of_not_le hpages, rfl, rfl, rfl, rfl⟩)⟩

/-- The import that the page belongs to. -/
theorem Import.paged {v : World} {rows : List Handled} (h : Import w job) (hf : Pending w f)
    (hc : Commits site f w job v rows) : Import (stored f v rows) (afterPage v.now rows job) := by
  obtain ⟨huser, hgeneration, hdigest, hlease, hcases⟩ := afterPage_cases v.now rows job
  have hpages : (stored f v rows).pagesOf (afterPage v.now rows job).user (afterPage v.now rows job).generation =
      w.pagesOf job.user job.generation ++ [f.page rows] := by
    rw [huser, hgeneration, hc.user, hc.generation]
    exact hc.stores.pagesOf_own
  have hfetches : (stored f v rows).fetches = w.fetches := by
    show v.fetches = _
    rw [hc.stores.rest]
  have hreading : Reading job (w.pagesOf job.user job.generation) := h.reading <| .inr <| by
    rw [hc.lease]
    exact Option.some_ne_none _
  refine ⟨?_, fun lease hl => ?_, fun g _ _ hl => ?_, ?_, fun p hp => ?_, fun hopen => ?_, fun hcomplete => ?_, fun p hp => ?_⟩
  · rw [hgeneration]
    show _ < v.nextUuid
    rw [hc.stores.rest]
    exact h.generation
  · rw [hlease] at hl
    cases hl
  · rw [hlease] at hl
    cases hl
  · rw [hfetches, huser, hgeneration, hdigest]
    exact h.asked
  · rw [hpages] at hp
    rw [hdigest]
    rcases List.mem_append.1 hp with hp | hp
    · exact h.digest p hp
    · rw [List.mem_singleton.1 hp]
      exact hf.asked job hc.mem hc.user.symm hc.generation.symm
  · rw [hpages]
    rcases hcases with ⟨-, hstopped⟩ | ⟨hstopped, -⟩ | ⟨cursor, hlast, hbelow, -, hcursor, hseen, hcount⟩
    · rw [hstopped, hlease] at hopen
      simp at hopen
    · rw [hstopped, hlease] at hopen
      simp at hopen
    · have hlast' : (f.page rows).last = some cursor := hlast
      refine ⟨?_, fun p hp => ?_, ?_, ?_, ?_⟩
      · rw [hcursor, ends_concat, hlast']
      · rcases List.mem_append.1 hp with hp | hp
        · exact hreading.full p hp
        · rw [List.mem_singleton.1 hp]
          rintro hempty
          have hempty : rows = [] := hempty
          rw [hempty] at hlast
          cases hlast
      · rw [hseen, hreading.seen, List.filterMap_append, List.filterMap_cons_some hlast', List.filterMap_nil]
      · rw [hcount, hreading.count, List.length_append]
        rfl
      · have hcount := hreading.count
        rw [List.length_append, List.length_singleton]
        omega
  · rcases hcases with ⟨hrows, -⟩ | ⟨-, hne⟩ | ⟨_, -, -, hqueued, -⟩
    · refine ⟨hlease, ⟨_, _, hpages, hrows⟩, fun s hs hown hvisible => ?_⟩
      rw [huser] at hown
      rw [hgeneration, hc.generation]
      obtain ⟨old, -, hafter⟩ := of_mem_stored hs
      cases hafter with
      | same hsame => exact hsame hrows (hown.trans hc.user)
      | hidden => cases hvisible
    · exact absurd hcomplete hne
    · rw [hqueued] at hcomplete
      cases hcomplete
  · rw [hpages] at hp
    intro x hx created hfate
    rw [huser, hgeneration, hc.user, hc.generation]
    have hsaved : ∃ s ∈ v.stays, s.hostawayReservationId = x.id ∧ Current f.user f.generation s := by
      rcases List.mem_append.1 hp with hp | hp
      · obtain ⟨s, hs, hid, hcurrent⟩ := h.saved p hp x hx created hfate
        rw [hc.user, hc.generation] at hcurrent
        obtain ⟨s', hs', hid', hcurrent'⟩ := hc.stores.current hs hcurrent
        exact ⟨s', hs', hid'.trans hid, hcurrent'⟩
      · rw [List.mem_singleton.1 hp] at hx
        exact hc.stores.saved x hx created hfate
    obtain ⟨s, hs, hid, hcurrent⟩ := hsaved
    obtain ⟨s', hs', hafter⟩ := mem_stored hs
    refine ⟨s', hs', ?_, hafter.current hcurrent⟩
    rw [hafter.rest]
    exact hid

theorem Sound.stored {v : World} {rows : List Handled} (h : Sound site w) (hf : Pending w f)
    (hc : Commits site f w job v rows) : Sound site (stored f v rows) := by
  have hreading : Reading job (w.pagesOf job.user job.generation) := (h.imports job hc.mem).reading <| .inr <| by
    rw [hc.lease]
    exact Option.some_ne_none _
  have himports : (Recovery.stored f v rows).imports =
      Table.modify BookingHistoryImport.user w.imports f.user (afterPage v.now rows) := by
    show Table.modify _ v.imports _ _ = _
    rw [hc.stores.rest]
  have hnext : (Recovery.stored f v rows).nextUuid = w.nextUuid := by
    show v.nextUuid = _
    rw [hc.stores.rest]
  have hfetches : (Recovery.stored f v rows).fetches = w.fetches := by
    show v.fetches = _
    rw [hc.stores.rest]
  refine ⟨?_, ?_, fun job' hjob' => ?_, ?_, fun p hp => ?_, ?_, fun user generation => ?_, fun s hs => ?_⟩
  · rw [himports, Table.map_key_modify]
    · exact h.users
    · exact fun old hu => (afterPage_cases v.now rows old).1.trans hu
  · unfold Recovery.stored
    dsimp only
    split
    · have hsame : (fun s => (hidden f s).hostawayReservationId) = GuestBookingHistory.hostawayReservationId := by
        funext s
        rw [(after_hidden (rfl : ([] : List Handled) = []) s).rest]
      rw [List.map_map]
      show (v.stays.map fun s => (hidden f s).hostawayReservationId).Nodup
      rw [hsame]
      exact hc.stores.ids
    · exact hc.stores.ids
  · rw [himports] at hjob'
    obtain ⟨old, hold, rfl⟩ := Table.mem_modify.1 hjob'
    split
    · rename_i hu
      obtain rfl : old = job := Table.eq_of_mem_of_key h.users hold hc.mem (hu.trans hc.user.symm)
      exact (h.imports old hold).paged hf hc
    · rename_i hu
      exact (h.imports old hold).other hc.stores hu
  · rw [hnext, hfetches]
    exact h.fetches
  · rw [hc.stores.pages] at hp
    rw [hnext]
    rcases List.mem_append.1 hp with hp | hp
    · exact h.pages p hp
    · rw [List.mem_singleton.1 hp]
      exact ⟨hf.generation, hf.lease⟩
  · rw [hfetches, hc.stores.pages, List.map_append, ← List.append_assoc]
    exact List.nodup_append_comm.1 (List.nodup_cons.2 ⟨hf.fresh, h.leases⟩)
  · by_cases hown : user = f.user ∧ generation = f.generation
    · obtain ⟨rfl, rfl⟩ := hown
      rw [hc.stores.pagesOf_own]
      rw [hc.user, hc.generation] at hreading
      have hchained := h.chained f.user f.generation
      have hdigest : ∀ p ∈ w.pagesOf f.user f.generation ++ [f.page rows], p.identity.digest = job.identityDigest := by
        intro p hp
        rcases List.mem_append.1 hp with hp | hp
        · rw [← hc.user, ← hc.generation] at hp
          exact (h.imports job hc.mem).digest p hp
        · rw [List.mem_singleton.1 hp]
          exact hf.asked job hc.mem hc.user.symm hc.generation.symm
      refine ⟨hchained.follows.concat hreading.full ?_, ?_, ?_, fun p hp q hq => (hdigest p hp).trans (hdigest q hq).symm⟩
      · exact (hf.held job hc.mem hc.user.symm hc.lease).trans hreading.cursor
      · rw [List.filterMap_append]
        refine List.nodup_append.2 ⟨hchained.lasts, ?_, ?_⟩
        · cases hlast : (f.page rows).last with
          | none => simp [hlast]
          | some cursor => simp [hlast]
        · rintro cursor hcursor last hlast rfl
          obtain ⟨p, hp, hlast⟩ := List.mem_filterMap.1 hlast
          rw [List.mem_singleton.1 hp] at hlast
          rw [← hreading.seen] at hcursor
          exact hc.unseen cursor hlast hcursor
      · have hbelow := hreading.below
        rw [List.length_append, List.length_singleton]
        omega
    · rw [hc.stores.pagesOf_other hown]
      exact h.chained user generation
  · obtain ⟨old, hold, hafter⟩ := of_mem_stored hs
    rw [hc.stores.pages]
    have hsaved : ∀ {identity rows x}, Saved site identity rows old x → Saved site identity rows s x := by
      intro identity rows x hx
      rw [hafter.rest]
      exact ⟨hx.mem, hx.id, hx.stored, hx.agrees, hx.values⟩
    have huser : s.user = old.user := by rw [hafter.rest]
    have hgeneration : s.lastSeenGeneration = old.lastSeenGeneration := by rw [hafter.rest]
    rw [huser, hgeneration]
    rcases hc.stores.origin old hold with hold | ⟨hcurrent, x, hx⟩
    · obtain ⟨p, hp, hpu, hpg, x, hx⟩ := h.origin old hold
      exact ⟨p, List.mem_append_left _ hp, hpu, hpg, x, hsaved hx⟩
    · exact ⟨f.page rows, List.mem_append_right _ (List.mem_singleton_self _), hcurrent.user.symm, hcurrent.generation.symm,
        x, hsaved hx⟩

/-! ### Every run -/

theorem Sound.failed (h : Sound site w) (f : Fetch) : Sound site (failed f w) := by
  refine h.halted (fun job _ _ => ?_) fun job hu => ?_
  · split
    · exact .partly rfl (.inr rfl)
    · exact .refl job
  · split <;> exact hu

theorem Sound.received (h : Sound site w) (i : ℕ) (answer : Option (List (Option RemoteBooking))) :
    Sound site (receive site i answer w) := by
  unfold receive
  split
  · exact h
  · rename_i f hf
    obtain ⟨hw, hpending⟩ := h.taken hf
    dsimp only
    cases hcommit : answer.bind (commit site f { w with fetches := w.fetches.eraseIdx i }) with
    | none => exact hw.failed f
    | some w' =>
      obtain ⟨items, -, hitems⟩ := Option.bind_eq_some_iff.1 hcommit
      rcases commit_cases hw.ids hitems with rfl | ⟨job, v, rows, hc, rfl⟩
      · exact hw
      · exact hw.stored hpending hc

theorem Sound.step (h : Sound site w) (e : Event) : Sound site (w.step site e) := by
  cases e with
  | tick seconds => exact h.congr ⟨rfl, rfl, rfl, rfl⟩ h.users h.imports
  | account a => exact h.congr ⟨rfl, rfl, rfl, rfl⟩ h.users h.imports
  | book properties reservations intents => exact h.congr ⟨rfl, rfl, rfl, rfl⟩ h.users h.imports
  | start user => exact h.started user
  | unqueued user generation => exact h.unqueued user generation
  | begin user generation => exact h.begun user generation
  | receive i answer => exact h.received i answer

theorem World.Fresh.sound (hw : w.Fresh) : Sound site w := by
  have hpages : ∀ user generation, w.pagesOf user generation = [] := by
    intro user generation
    unfold World.pagesOf
    rw [hw.pages]
    rfl
  refine ⟨?_, ?_, ?_, ?_, ?_, ?_, fun user generation => ?_, ?_⟩
  · simp [hw.imports]
  · simp [hw.stays]
  · simp [hw.imports]
  · simp [hw.fetches]
  · simp [hw.pages]
  · simp [hw.fetches, hw.pages]
  · rw [hpages]
    exact ⟨trivial, List.nodup_nil, Nat.zero_le _, fun p hp => absurd hp List.not_mem_nil⟩
  · simp [hw.stays]

/-- The world after these events. -/
def World.after (site : Site) (w : World) (es : List Event) : World := run (World.step site) w es

theorem sound_after (hw : w.Fresh) (es : List Event) : Sound site (w.after site es) :=
  run_inv (I := Sound site) (fun _ e h => h.step e) hw.sound es

/-- The pages that are stored for an import follow on each other from the first, none of them twice. -/
theorem pages_follow (site : Site) (hw : w.Fresh) (es : List Event) (user generation : ℕ) :
    Chained ((w.after site es).pagesOf user generation) ∧ ((w.after site es).pages.map Page.lease).Nodup :=
  ⟨(sound_after hw es).chained user generation, (List.nodup_append.1 (sound_after hw es).leases).2.1⟩

/-- An import that is complete has read all pages to an empty one, and its guest is shown just the stays that they stored. -/
theorem complete_import (site : Site) (hw : w.Fresh) (es : List Event) (hjob : job ∈ (w.after site es).imports)
    (hcomplete : job.status = .complete) :
    (∃ ps p, (w.after site es).pagesOf job.user job.generation = ps ++ [p] ∧ p.rows = []) ∧
      ∀ s ∈ (w.after site es).stays, s.user = job.user →
        (s.isVisible = true ↔ ∃ p ∈ (w.after site es).pagesOf job.user job.generation, ∃ h,
          Saved site p.identity p.rows s h) := by
  have h : Sound site (w.after site es) := sound_after hw es
  have himport := h.imports job hjob
  have hwhole := himport.complete hcomplete
  refine ⟨hwhole.empty, fun s hs huser => ⟨fun hvisible => ?_, ?_⟩⟩
  · obtain ⟨p, hp, hpu, hpg, x, hx⟩ := h.origin s hs
    refine ⟨p, mem_pagesOf.2 ⟨hp, hpu.trans huser, ?_⟩, x, hx⟩
    exact hpg.trans (hwhole.shown s hs huser hvisible)
  · rintro ⟨p, hp, x, hx⟩
    obtain ⟨created, hfate⟩ := hx.stored
    obtain ⟨s', hs', hid, hcurrent⟩ := himport.saved p hp x hx.mem created hfate
    obtain rfl : s' = s := Table.eq_of_mem_of_key h.ids hs' hs (hid.trans hx.id)
    exact hcurrent.visible

/-! ### Whose stays they are -/

theorem committed_stays {rows : List Handled} (h : Stores site f w w' rows) {s : GuestBookingHistory} (hs : s ∈ w.stays) :
    ∃ s' ∈ (stored f w' rows).stays, s'.hostawayReservationId = s.hostawayReservationId ∧ s'.user = s.user := by
  have hv : ∃ v ∈ w'.stays, v.hostawayReservationId = s.hostawayReservationId ∧ v.user = s.user := by
    rcases h.kept s hs with hs' | ⟨huser, v, hv, hid, hcurrent⟩
    · exact ⟨s, hs', rfl, rfl⟩
    · exact ⟨v, hv, hid, hcurrent.user.trans huser.symm⟩
  obtain ⟨v, hv, hid, huser⟩ := hv
  obtain ⟨s', hs', hafter⟩ := mem_stored hv
  refine ⟨s', hs', ?_⟩
  rw [hafter.rest]
  exact ⟨hid, huser⟩

/-- What a step does to the stays, the tasks and the pages. -/
structure Advances (site : Site) (w w' : World) : Prop where
  stays : ∀ s ∈ w.stays, ∃ s' ∈ w'.stays, s'.hostawayReservationId = s.hostawayReservationId ∧ s'.user = s.user
  fetches : ∀ f ∈ w'.fetches, f ∈ w.fetches ∨ identityFor site w f.user = some f.identity
  pages : ∀ p ∈ w'.pages, p ∈ w.pages ∨ ∃ f ∈ w.fetches, p.user = f.user ∧ p.identity = f.identity

theorem Advances.quiet (hstays : w'.stays = w.stays) (hfetches : ∀ f ∈ w'.fetches, f ∈ w.fetches)
    (hpages : w'.pages = w.pages) : Advances site w w' where
  stays s hs := ⟨s, hstays ▸ hs, rfl, rfl⟩
  fetches f hf := .inl (hfetches f hf)
  pages _ hp := .inl (hpages ▸ hp)

theorem advances_receive (h : Sound site w) (i : ℕ) (answer : Option (List (Option RemoteBooking))) :
    Advances site w (receive site i answer w) := by
  unfold receive
  split
  · exact .quiet rfl (fun f hf => hf) rfl
  · rename_i f hf
    have hmem : f ∈ w.fetches := List.mem_of_getElem? hf
    have hsub : ∀ g ∈ w.fetches.eraseIdx i, g ∈ w.fetches := fun g hg => List.mem_of_mem_eraseIdx hg
    dsimp only
    cases hcommit : answer.bind (commit site f { w with fetches := w.fetches.eraseIdx i }) with
    | none => exact .quiet rfl hsub rfl
    | some w' =>
      obtain ⟨items, -, hitems⟩ := Option.bind_eq_some_iff.1 hcommit
      rcases commit_cases (h.taken hf).1.ids hitems with rfl | ⟨job, v, rows, hc, rfl⟩
      · exact .quiet rfl hsub rfl
      · refine ⟨fun s hs => committed_stays hc.stores hs, fun g hg => .inl (hsub g ?_), fun p hp => ?_⟩
        · have hfetches : v.fetches = w.fetches.eraseIdx i := by rw [hc.stores.rest]
          exact hfetches ▸ hg
        · have hp : p ∈ (stored f v rows).pages := hp
          rw [hc.stores.pages] at hp
          rcases List.mem_append.1 hp with hp | hp
          · exact .inl hp
          · rw [List.mem_singleton.1 hp]
            exact .inr ⟨f, hmem, rfl, rfl⟩

theorem advances_step (h : Sound site w) (e : Event) : Advances site w (w.step site e) := by
  cases e with
  | tick | account | book | unqueued => exact .quiet rfl (fun f hf => hf) rfl
  | start user =>
    unfold World.step startImport
    dsimp only
    split
    · exact .quiet rfl (fun f hf => hf) rfl
    · split
      · exact .quiet rfl (fun f hf => hf) rfl
      · exact .quiet rfl (fun f hf => hf) rfl
  | begin user generation =>
    unfold World.step begin
    dsimp only
    split
    · exact .quiet rfl (fun f hf => hf) rfl
    · split
      · exact .quiet rfl (fun f hf => hf) rfl
      · split
        · exact .quiet rfl (fun f hf => hf) rfl
        · rename_i identity hidentity
          refine ⟨fun s hs => ⟨s, hs, rfl, rfl⟩, fun f hf => ?_, fun p hp => .inl hp⟩
          rcases List.mem_append.1 hf with hf | hf
          · exact .inl hf
          · rw [List.mem_singleton.1 hf]
            exact .inr (Option.filter_eq_some_iff.1 hidentity).1
  | receive i answer => exact advances_receive h i answer

/-- The guest had this identity at some time of the run. -/
def Verified (site : Site) (w : World) (es : List Event) (user : ℕ) (identity : Identity) : Prop :=
  ∃ before, before <+: es ∧ identityFor site (w.after site before) user = some identity

theorem Verified.concat {es : List Event} {identity : Identity} (h : Verified site w es user identity) (e : Event) :
    Verified site w (es ++ [e]) user identity := by
  obtain ⟨before, hbefore, hidentity⟩ := h
  exact ⟨before, hbefore.trans (List.prefix_append es [e]), hidentity⟩

theorem asked_of_verified (hw : w.Fresh) (es : List Event) :
    (∀ f ∈ (w.after site es).fetches, Verified site w es f.user f.identity) ∧
      ∀ p ∈ (w.after site es).pages, Verified site w es p.user p.identity := by
  induction es using List.reverseRecOn with
  | nil =>
    show (∀ f ∈ w.fetches, _) ∧ ∀ p ∈ w.pages, _
    rw [hw.fetches, hw.pages]
    exact ⟨fun f hf => absurd hf List.not_mem_nil, fun p hp => absurd hp List.not_mem_nil⟩
  | append_singleton es e ih =>
    obtain ⟨hfetches, hpages⟩ := ih
    have hsound : Sound site (w.after site es) := sound_after hw es
    have hstep := advances_step hsound e
    have hafter : w.after site (es ++ [e]) = (w.after site es).step site e := run_append
    rw [hafter]
    refine ⟨fun f hf => ?_, fun p hp => ?_⟩
    · rcases hstep.fetches f hf with hf | hidentity
      · exact (hfetches f hf).concat e
      · exact ⟨es, List.prefix_append es [e], hidentity⟩
    · rcases hstep.pages p hp with hp | ⟨f, hf, hpu, hpi⟩
      · exact (hpages p hp).concat e
      · rw [hpu, hpi]
        exact (hfetches f hf).concat e

theorem stays_kept (h : Sound site w) {s : GuestBookingHistory} (hs : s ∈ w.stays) (es : List Event) :
    ∃ s' ∈ (w.after site es).stays, s'.hostawayReservationId = s.hostawayReservationId ∧ s'.user = s.user := by
  refine (run_inv (I := fun v => Sound site v ∧ ∃ s' ∈ v.stays,
    s'.hostawayReservationId = s.hostawayReservationId ∧ s'.user = s.user) (fun v e hv => ?_) ⟨h, s, hs, rfl, rfl⟩ es).2
  obtain ⟨hsound, s', hs', hid, huser⟩ := hv
  obtain ⟨t, ht, hid', huser'⟩ := (advances_step hsound e).stays s' hs'
  exact ⟨hsound.step e, t, ht, hid'.trans hid, huser'.trans huser⟩

/-- Hashes tell everything, and all texts are plain. -/
def plainSite : Site := ⟨History.sampleLibrary, fun _ => true, fun text => text, fun text => text⟩

def guestAccount : Account := ⟨7, true, "Sara@Example.com", true, some ⟨"+966500000001", "v1"⟩⟩

def remoteBooking (id : ℕ) (phone : String) : RemoteBooking :=
  ⟨some id, some "sara@example.com", some phone,
    .reservation ⟨id, 31, some 2018, "new", 20000, 20003, 2, "SAR", 900, "paid", none⟩, some "Studio", some "Airbnb", false⟩

def emptyWorld : World := ⟨1000, [guestAccount], [], [], [], [], [], [], [], 0⟩

/-- A page with a booking of the guest and one of another phone, and then the end. -/
def guestImport : List Event :=
  [.start 7, .begin 7 0, .begin 7 0, .receive 0 (some [some (remoteBooking 11 "00966 500000001"),
    some (remoteBooking 12 "+966500000002")]), .begin 7 0, .receive 0 (some [])]

theorem fresh_emptyWorld : emptyWorld.Fresh := ⟨rfl, rfl, rfl, rfl⟩

/-- The task that comes twice reads one page. -/
theorem pages_follow_two : ((emptyWorld.after plainSite guestImport).pagesOf 7 0).map Page.cursor = [none, some 12] ∧
    Chained ((emptyWorld.after plainSite guestImport).pagesOf 7 0) ∧
    ((emptyWorld.after plainSite guestImport).pages.map Page.lease).Nodup :=
  ⟨by decide +kernel, pages_follow plainSite fresh_emptyWorld guestImport 7 0⟩

def guestIdentity : Identity :=
  ⟨"sara@example.com", "+966500000001", "7:sara@example.com:+966500000001:v1"⟩

def guestJob : BookingHistoryImport :=
  { newImport 7 0 guestIdentity 1 1000 with status := .complete, cursor := some 12, seenCursors := [12], pages := 2 }

theorem complete_import_two :
    (∃ ps p, (emptyWorld.after plainSite guestImport).pagesOf guestJob.user guestJob.generation = ps ++ [p] ∧
      p.rows = []) ∧
    ∀ s ∈ (emptyWorld.after plainSite guestImport).stays, s.user = guestJob.user →
      (s.isVisible = true ↔
        ∃ p ∈ (emptyWorld.after plainSite guestImport).pagesOf guestJob.user guestJob.generation, ∃ h,
          Saved plainSite p.identity p.rows s h) :=
  complete_import plainSite fresh_emptyWorld guestImport (by decide +kernel) rfl

def guestStay : GuestBookingHistory :=
  savedStay ⟨7, 0, 1, none, guestIdentity⟩ 1000 11 ⟨none, "Studio", some 2018, "Airbnb", .confirmed, 20000, 20003, 2, "SAR", 900⟩

/-- The guest changes to another phone and imports again. -/
def laterImport : List Event :=
  [.tick 60, .account { guestAccount with binding := some ⟨"+966500000002", "v2"⟩ }, .start 7, .begin 7 3, .receive 0 (some [])]

/-- The stay is hidden after it. -/
example : (emptyWorld.after plainSite (guestImport ++ laterImport)).stays.map (·.isVisible) = [false] := by decide +kernel

end Apartments.Recovery
