import Apartments.Lib.Run
import Apartments.Lib.Traverse
import Apartments.Loyalty.Invitations

/-!
# One send permit for a guest

Once `consume` has handed out the permit of a row, no claim and no permit is granted for its booking, or to another row with
the same phone, e-mail or customer. A row with a permit never goes back to a state that can be claimed. The one report
that would put it there is that of a request which could not be queued, and that comes only while the request is queued:
`Waiting` says that the row of a queued request has no permit and that no other caller reaches it.
-/

namespace Apartments.Invitations

open Machine

/-- A state after the permit. -/
def State.sent : State → Bool
  | .unknown | .failed | .accepted | .delivered | .read => true
  | .claimed | .blocked | .queueFailed => false

/-- The rows are for one phone, one e-mail or one customer. -/
def Shares (r s : JoinInvitation) : Prop :=
  (r.phone ≠ "" ∧ r.phone = s.phone) ∨
    (r.email ≠ "" ∧ s.email ≠ "" ∧ Text.casefold (Text.strip r.email) = Text.casefold (Text.strip s.email)) ∨
    ∃ c, r.customer = some c ∧ s.customer = some c

/-- The row was claimed for the booking of the request, under the key that the booking has or had. -/
structure Waiting (w : Registry) (q : Request) (r : JoinInvitation) : Prop where
  unsent : r.dispatchedAt = none
  website : r.origin = .website
  booked : ∃ b, w.booking q.id.booking = some b ∧
    (r.reservationKey = .site b.pk ∨ ∃ n, b.hostawayReservationId = some n ∧ r.reservationKey = .hostaway n)

section
variable (h : Hashes)

structure Sound (w : Registry) : Prop where
  pks : (w.rows.map (·.pk)).Nodup
  keys : (w.rows.map (·.reservationKey)).Nodup
  ids : (w.requests.map (·.id)).Nodup
  phones : ∀ r ∈ w.rows, r.phoneDigest = h.phoneDigest r.phone
  emails : ∀ r ∈ w.rows, r.emailDigest = h.emailDigest r.email
  events : ∀ r ∈ w.rows, ∃ e, r.eventKey = h.keyed (r.origin.text ++ e)
  sent : ∀ r ∈ w.rows, r.dispatchedAt ≠ none → r.state.sent = true
  alone : ∀ s ∈ w.rows, s.dispatchedAt ≠ none → ∀ r ∈ w.rows, r.state = .claimed → Shares r s → r.expiresAt ≤ w.now
  waiting : ∀ q ∈ w.requests, q.status = .queued → ∀ pk, q.sharedInvitation = some pk →
    ∃ r ∈ w.rows, r.pk = pk ∧ Waiting w q r
  single : ∀ q ∈ w.requests, ∀ q' ∈ w.requests, q.status = .queued → q'.status = .queued → ∀ pk,
    q.sharedInvitation = some pk → q'.sharedInvitation = some pk → q.id = q'.id

end

/-- A granted row: none with a permit has its booking or its guest. -/
def Clear (w : Registry) (r : JoinInvitation) : Prop :=
  ∀ s ∈ w.rows, s.dispatchedAt ≠ none → s.pk ≠ r.pk ∧ s.reservationKey ≠ r.reservationKey ∧ ¬ Shares r s

variable {h : Hashes} {w w' : Registry} {r s : JoinInvitation} {q : Request} {c : Claim} {d : Decision} {pk k : Uuid}
  {isMember : Bool} {row : Option Uuid} {id : RequestId} {state : State} {providerId : String}

/-! ### Rows with a permit -/

theorem standing_of_sent (hs : s.state.sent = true) (now : Time) : standing now s = true := by
  unfold standing
  cases hstate : s.state <;> simp_all [State.sent]

theorem reclaimable_of_sent (hs : s.state.sent = true) (now : Time) (eventKey : String) :
    reclaimable now eventKey s = false := by
  unfold reclaimable
  cases hstate : s.state <;> simp_all [State.sent]

/-- `competing` finds every standing row of the same guest. -/
theorem matched_of_shares (hs : Shares r s) (hphone : s.phoneDigest = h.phoneDigest s.phone)
    (hemail : s.emailDigest = h.emailDigest s.email) (key : Key) :
    matched h key r.phone r.email r.customer s = true := by
  unfold matched
  rcases hs with ⟨hne, heq⟩ | ⟨hr, hs, heq⟩ | ⟨c, hr, hs⟩
  · have hdigest : s.phoneDigest = h.phone r.phone := by
      rw [hphone, ← heq, Hashes.phoneDigest, if_neg hne]
    simp [hne, hdigest]
  · have hdigest : s.emailDigest = h.recipientHmac r.email := by
      rw [hemail, Hashes.emailDigest, if_neg hs, Hashes.recipientHmac, Hashes.recipientHmac, heq]
    simp [hr, hdigest]
  · simp [hr, hs]

theorem matched_key (r : JoinInvitation) (phone email : String) (customer : Option User) :
    matched h r.reservationKey phone email customer r = true := by
  simp [matched]

/-- No competing row: what matches does not stand. -/
theorem competing_eq_false {key : Key} {phone email : String} {customer : Option User} {exclude : Option Uuid}
    (hc : competing h w key phone email customer exclude = false) (hs : s ∈ w.rows) (hpk : exclude ≠ some s.pk)
    (hm : matched h key phone email customer s = true) : standing w.now s = false := by
  unfold competing at hc
  have hnot := List.any_eq_false.1 hc s hs
  simp only [Bool.and_eq_true, bne_iff_ne, ne_eq, not_and, Bool.not_eq_true] at hnot
  exact hnot ⟨hpk, hm⟩

theorem Sound.row_eq (hw : Sound h w) (hr : r ∈ w.rows) : w.row r.pk = some r := Table.get_eq_of_mem hw.pks hr

theorem Sound.rowOf_eq (hw : Sound h w) (hr : r ∈ w.rows) : w.rowOf r.reservationKey = some r :=
  Table.get_eq_of_mem hw.keys hr

theorem mem_of_row (hr : w.row pk = some r) : r ∈ w.rows ∧ r.pk = pk := ⟨Table.mem_of_get hr, Table.key_of_get hr⟩

/-- A claimed row has no permit. -/
theorem Sound.unsent (hw : Sound h w) (hr : r ∈ w.rows) (hstate : r.state.sent = false) : r.dispatchedAt = none := by
  by_contra hne
  have := hw.sent r hr hne
  rw [hstate] at this
  cases this

/-! ### What a claim finds -/

/-- A booking is named by the key that it has. -/
def Named (w : Registry) (key : Key) : Prop :=
  ∀ pk, key = .site pk → ∃ b, w.booking pk = some b ∧ bookingKey b = key

theorem named_bookingKey {b : Booking} (hb : w.booking pk = some b) : Named w (bookingKey b) := by
  intro pk' hkey
  have hpk : b.pk = pk := Table.key_of_get hb
  unfold bookingKey at hkey
  split at hkey
  · cases hkey
  · obtain rfl : b.pk = pk' := Key.site.inj hkey
    exact ⟨b, hpk ▸ hb, rfl⟩

/-- The request in whose name a row waits is found by every claim of the row's booking that does not leave it out. -/
theorem Waiting.legacy (hwait : Waiting w q r) (hq : q ∈ w.requests) (hstatus : q.status = .queued)
    (hnamed : Named w r.reservationKey) (phone email : String) {exclude : Option RequestId}
    (hexclude : exclude ≠ some q.id) : legacyExists h w r.reservationKey phone email exclude = true := by
  obtain ⟨b, hb, hkey⟩ := hwait.booked
  have hbooking : bookingKey b = r.reservationKey := by
    rcases hkey with hsite | ⟨n, hn, hhostaway⟩
    · obtain ⟨b', hb', hkey'⟩ := hnamed b.pk hsite
      have hpk : b.pk = q.id.booking := Table.key_of_get hb
      rw [hpk, hb] at hb'
      obtain rfl := Option.some.inj hb'
      exact hkey'
    · rw [hhostaway, bookingKey, hn]
  unfold legacyExists
  refine List.any_eq_true.2 ⟨q, hq, ?_⟩
  rw [hb, hstatus]
  simp [hexclude, hbooking, RequestStatus.inFlight]

/-- What an eligible claim has passed. -/
structure Passed (h : Hashes) (w : Registry) (c : Claim) : Prop where
  own : ∀ r ∈ w.rows, r.reservationKey = c.key → reclaimable w.now (c.eventKey h) r = true
  rivals : competing h w c.key c.phone c.email c.customer ((w.rowOf c.key).map (·.pk)) = false
  legacy : legacyExists h w c.key c.phone c.email c.excludeLegacy = false

/-- How an eligible claim leaves its row. -/
inductive Claimed (h : Hashes) (w : Registry) (c : Claim) : Uuid → Registry → Prop
  | again (r : JoinInvitation) (hr : r ∈ w.rows) (hkey : r.reservationKey = c.key) (hstate : r.state = .claimed)
      (hevent : r.eventKey = c.eventKey h) (hexpires : w.now < r.expiresAt) : Claimed h w c r.pk w
  | renewed (r : JoinInvitation) (hr : r ∈ w.rows) (hkey : r.reservationKey = c.key) :
      Claimed h w c r.pk (w.modifyRow r.pk (renewed h w.now c))
  | created (pk : Uuid) (hrow : ∀ r ∈ w.rows, r.reservationKey ≠ c.key) (hpk : ∀ r ∈ w.rows, r.pk ≠ pk) :
      Claimed h w c pk { w with rows := w.rows ++ [newRow h pk w.now c] }

theorem claim_cases (hw : Sound h w) (hc : claim h w isMember pk c = .ok (d, row, w')) :
    (d ≠ .eligible ∧ w' = w) ∨ (d = .eligible ∧ Passed h w c ∧ ∃ k, row = some k ∧ Claimed h w c k w') := by
  unfold claim at hc
  dsimp only at hc
  split at hc
  · cases hc
  split at hc
  · cases hc
    exact .inl ⟨by rintro ⟨⟩, rfl⟩
  split at hc
  · cases hc
    exact .inl ⟨by rintro ⟨⟩, rfl⟩
  split at hc
  · cases hc
    exact .inl ⟨by rintro ⟨⟩, rfl⟩
  rename_i hown
  split at hc
  · cases hc
    exact .inl ⟨by rintro ⟨⟩, rfl⟩
  rename_i hrivals
  split at hc
  · cases hc
    exact .inl ⟨by rintro ⟨⟩, rfl⟩
  rename_i hlegacy
  have hpassed : Passed h w c := by
    refine ⟨fun r hr hkey => ?_, by simpa using hrivals, by simpa using hlegacy⟩
    have hrow := hw.rowOf_eq hr
    rw [hkey] at hrow
    simpa [hrow] using hown
  right
  cases hrow : w.rowOf c.key with
  | none =>
    rw [hrow] at hc
    dsimp only at hc
    split at hc
    · cases hc
    · rename_i hpk
      cases hc
      refine ⟨rfl, hpassed, pk, rfl, .created pk (Table.get_eq_none.1 hrow) ?_⟩
      have hnone : w.row pk = none := by simpa using hpk
      exact Table.get_eq_none.1 hnone
  | some r =>
    have hr : r ∈ w.rows := Table.mem_of_get hrow
    have hkey : r.reservationKey = c.key := Table.key_of_get hrow
    rw [hrow] at hc
    dsimp only at hc
    split at hc
    · rename_i hagain
      split at hc
      · cases hc
      · cases hc
        exact ⟨rfl, hpassed, r.pk, rfl, .again r hr hkey hagain.1 hagain.2.1 hagain.2.2⟩
    · cases hc
      exact ⟨rfl, hpassed, r.pk, rfl, .renewed r hr hkey⟩

/-! ### Writing one row -/

theorem Shares.symm (hs : Shares r s) : Shares s r := by
  rcases hs with ⟨hne, heq⟩ | ⟨hr, hs, heq⟩ | ⟨c, hr, hs⟩
  · exact .inl ⟨heq ▸ hne, heq.symm⟩
  · exact .inr (.inl ⟨hs, hr, heq.symm⟩)
  · exact .inr (.inr ⟨c, hs, hr⟩)

/-- A row may be rewritten in a sound registry. -/
structure Rewrites (h : Hashes) (w : Registry) (r r' : JoinInvitation) : Prop where
  pk : r'.pk = r.pk
  key : r'.reservationKey = r.reservationKey
  phone : r'.phoneDigest = h.phoneDigest r'.phone
  email : r'.emailDigest = h.emailDigest r'.email
  event : ∃ e, r'.eventKey = h.keyed (r'.origin.text ++ e)
  sent : r'.dispatchedAt ≠ none → r'.state.sent = true
  claimed : ∀ s ∈ w.rows, s.dispatchedAt ≠ none → r'.state = .claimed → Shares r' s → r'.expiresAt ≤ w.now
  permit : ∀ s ∈ w.rows, s.pk ≠ r.pk → r'.dispatchedAt ≠ none → s.state = .claimed → Shares s r' → s.expiresAt ≤ w.now
  waiting : ∀ q ∈ w.requests, q.status = .queued → q.sharedInvitation = some r.pk → Waiting w q r → Waiting w q r'

theorem mem_modifyRow (hw : Sound h w) (hr : r ∈ w.rows) {f : JoinInvitation → JoinInvitation} {x : JoinInvitation} :
    x ∈ (w.modifyRow r.pk f).rows ↔ x = f r ∨ (x ∈ w.rows ∧ x.pk ≠ r.pk) := by
  show x ∈ Table.modify _ _ _ _ ↔ _
  rw [Table.mem_modify]
  constructor
  · rintro ⟨y, hy, hx⟩
    split_ifs at hx with hpk
    · exact .inl (Table.eq_of_mem_of_key hw.pks hy hr hpk ▸ hx.symm)
    · exact .inr ⟨hx ▸ hy, hx ▸ hpk⟩
  · rintro (hx | ⟨hx, hpk⟩)
    · exact ⟨r, hr, by rw [if_pos rfl, hx]⟩
    · exact ⟨x, hx, if_neg hpk⟩

theorem map_modifyRow {κ : Type} (hw : Sound h w) (hr : r ∈ w.rows) {f : JoinInvitation → JoinInvitation}
    {g : JoinInvitation → κ} (hg : g (f r) = g r) : (w.modifyRow r.pk f).rows.map g = w.rows.map g := by
  show (w.rows.map fun a => if a.pk = r.pk then f a else a).map g = _
  rw [List.map_map]
  refine List.map_congr_left fun a ha => ?_
  show g (if a.pk = r.pk then f a else a) = g a
  split_ifs with hpk
  · rw [Table.eq_of_mem_of_key hw.pks ha hr hpk, hg]
  · rfl

theorem Waiting.congr (hwait : Waiting w q r) (hb : w'.bookings = w.bookings) : Waiting w' q r := by
  refine ⟨hwait.unsent, hwait.website, ?_⟩
  rw [Registry.booking, hb]
  exact hwait.booked

theorem Sound.modifyRow (hw : Sound h w) (hr : r ∈ w.rows) {f : JoinInvitation → JoinInvitation}
    (hf : Rewrites h w r (f r)) : Sound h (w.modifyRow r.pk f) := by
  refine
    { pks := ?_, keys := ?_, ids := hw.ids, phones := ?_, emails := ?_, events := ?_, sent := ?_, alone := ?_
      waiting := ?_, single := hw.single }
  · rw [map_modifyRow hw hr hf.pk]
    exact hw.pks
  · rw [map_modifyRow hw hr hf.key]
    exact hw.keys
  · intro x hx
    rcases (mem_modifyRow hw hr).1 hx with rfl | ⟨hx, -⟩
    · exact hf.phone
    · exact hw.phones x hx
  · intro x hx
    rcases (mem_modifyRow hw hr).1 hx with rfl | ⟨hx, -⟩
    · exact hf.email
    · exact hw.emails x hx
  · intro x hx
    rcases (mem_modifyRow hw hr).1 hx with rfl | ⟨hx, -⟩
    · exact hf.event
    · exact hw.events x hx
  · intro x hx
    rcases (mem_modifyRow hw hr).1 hx with rfl | ⟨hx, -⟩
    · exact hf.sent
    · exact hw.sent x hx
  · intro s hs hd x hx hstate hshares
    rcases (mem_modifyRow hw hr).1 hs with rfl | ⟨hs, -⟩ <;> rcases (mem_modifyRow hw hr).1 hx with rfl | ⟨hx, hpk⟩
    · have hsent := hf.sent hd
      rw [hstate] at hsent
      cases hsent
    · exact hf.permit x hx hpk hd hstate hshares
    · exact hf.claimed s hs hd hstate hshares
    · exact hw.alone s hs hd x hx hstate hshares
  · intro q hq hstatus pk hshared
    obtain ⟨x, hx, hpk, hwait⟩ := hw.waiting q hq hstatus pk hshared
    by_cases hxr : x.pk = r.pk
    · obtain rfl : x = r := Table.eq_of_mem_of_key hw.pks hx hr hxr
      refine ⟨f x, (mem_modifyRow hw hr).2 (.inl rfl), hf.pk.trans hpk, ?_⟩
      exact (hf.waiting q hq hstatus (hshared.trans (congrArg some hpk.symm)) hwait).congr rfl
    · exact ⟨x, (mem_modifyRow hw hr).2 (.inr ⟨hx, hxr⟩), hpk, hwait.congr rfl⟩

theorem Sound.blocked (hw : Sound h w) (hr : r ∈ w.rows) (hstate : r.state = .claimed) :
    Sound h (w.modifyRow r.pk (setState .blocked)) := by
  have hunsent : r.dispatchedAt = none := hw.unsent hr (by rw [hstate]; rfl)
  exact hw.modifyRow hr
    { pk := rfl
      key := rfl
      phone := hw.phones r hr
      email := hw.emails r hr
      event := hw.events r hr
      sent := fun hd => absurd hunsent hd
      claimed := fun _ _ _ hclaimed => by cases hclaimed
      permit := fun _ _ _ hd => absurd hunsent hd
      waiting := fun _ _ _ _ hwait => ⟨hwait.unsent, hwait.website, hwait.booked⟩ }

/-- The permit of a row that no queued request waits for. -/
theorem Sound.dispatched (hw : Sound h w) (hr : r ∈ w.rows)
    (hrivals : competing h w r.reservationKey r.phone r.email r.customer (some r.pk) = false)
    (hfree : ∀ q ∈ w.requests, q.status = .queued → q.sharedInvitation ≠ some r.pk) :
    Sound h (w.modifyRow r.pk (Invitations.dispatched w.now)) := by
  refine hw.modifyRow hr
    { pk := rfl
      key := rfl
      phone := hw.phones r hr
      email := hw.emails r hr
      event := hw.events r hr
      sent := fun _ => rfl
      claimed := fun _ _ _ hclaimed => by cases hclaimed
      permit := fun s hs hpk _ hclaimed hshares => ?_
      waiting := fun q hq hstatus hshared _ => absurd hshared (hfree q hq hstatus) }
  -- a claim of the same guest would have stood in the way
  have hmatched := matched_of_shares (r := r) hshares.symm (hw.phones s hs) (hw.emails s hs) r.reservationKey
  have hstanding := competing_eq_false hrivals hs (fun heq => hpk (Option.some.inj heq).symm) hmatched
  by_contra hlt
  unfold standing at hstanding
  rw [hclaimed] at hstanding
  simp [hlt] at hstanding

/-! ### A claim -/

/-- A row with a permit is not the one of an eligible claim, and has another guest. -/
theorem Passed.clear (hp : Passed h w c) (hw : Sound h w) (hs : s ∈ w.rows) (hd : s.dispatchedAt ≠ none) :
    s.reservationKey ≠ c.key ∧ matched h c.key c.phone c.email c.customer s = false := by
  have hsent := hw.sent s hs hd
  have hkey : s.reservationKey ≠ c.key := by
    intro hkey
    have hown := hp.own s hs hkey
    rw [reclaimable_of_sent hsent] at hown
    cases hown
  refine ⟨hkey, ?_⟩
  by_contra hm
  have hm : matched h c.key c.phone c.email c.customer s = true := by simpa using hm
  have hpk : (w.rowOf c.key).map (·.pk) ≠ some s.pk := by
    intro hrow
    obtain ⟨r, hr, hpk⟩ := Option.map_eq_some_iff.1 hrow
    obtain rfl : r = s := Table.eq_of_mem_of_key hw.pks (Table.mem_of_get hr) hs hpk
    exact hkey (Table.key_of_get hr)
  have hstanding := competing_eq_false hp.rivals hs hpk hm
  rw [standing_of_sent hsent] at hstanding
  cases hstanding

/-- No queued request waits for the row of an eligible claim. -/
theorem Passed.unwaited (hp : Passed h w c) (hw : Sound h w) (hnamed : Named w c.key)
    (hexclude : ∀ q ∈ w.requests, c.excludeLegacy = some q.id → q.sharedInvitation = none) (hr : r ∈ w.rows)
    (hkey : r.reservationKey = c.key) (hq : q ∈ w.requests) (hstatus : q.status = .queued) :
    q.sharedInvitation ≠ some r.pk := by
  intro hshared
  obtain ⟨r', hr', hpk, hwait⟩ := hw.waiting q hq hstatus r.pk hshared
  obtain rfl : r' = r := Table.eq_of_mem_of_key hw.pks hr' hr hpk
  have hout : c.excludeLegacy ≠ some q.id := by
    intro hout
    have hnone := hexclude q hq hout
    rw [hshared] at hnone
    cases hnone
  have hlegacy : legacyExists h w r'.reservationKey c.phone c.email c.excludeLegacy = true :=
    hwait.legacy hq hstatus (hkey ▸ hnamed) c.phone c.email hout
  rw [hkey, hp.legacy] at hlegacy
  cases hlegacy

theorem eventKey_eq (c : Claim) : ∃ e, c.eventKey h = h.keyed (c.origin.text ++ e) :=
  ⟨":" ++ c.source ++ ":" ++ c.eventId, by simp only [Claim.eventKey, String.append_assoc]⟩

/-- What a claim writes is for a guest without a permit. -/
theorem Passed.guest (hp : Passed h w c) (hw : Sound h w) (hphone : r.phone = c.phone) (hemail : r.email = c.email)
    (hcustomer : r.customer = c.customer) (hs : s ∈ w.rows) (hd : s.dispatchedAt ≠ none) : ¬ Shares r s := by
  intro hshares
  have hmatched := matched_of_shares hshares (hw.phones s hs) (hw.emails s hs) c.key
  rw [hphone, hemail, hcustomer, (hp.clear hw hs hd).2] at hmatched
  cases hmatched

theorem Passed.unsent (hp : Passed h w c) (hw : Sound h w) (hr : r ∈ w.rows) (hkey : r.reservationKey = c.key) :
    r.dispatchedAt = none := by
  by_contra hd
  exact (hp.clear hw hr hd).1 hkey

theorem Sound.renewed (hw : Sound h w) (hp : Passed h w c) (hr : r ∈ w.rows) (hkey : r.reservationKey = c.key)
    (hfree : ∀ q ∈ w.requests, q.status = .queued → q.sharedInvitation ≠ some r.pk) :
    Sound h (w.modifyRow r.pk (Invitations.renewed h w.now c)) := by
  have hunsent : r.dispatchedAt = none := hp.unsent hw hr hkey
  exact hw.modifyRow hr
    { pk := rfl
      key := rfl
      phone := rfl
      email := rfl
      event := eventKey_eq c
      sent := fun hd => absurd hunsent hd
      claimed := fun s hs hd _ hshares => absurd hshares (hp.guest hw rfl rfl rfl hs hd)
      permit := fun _ _ _ hd => absurd hunsent hd
      waiting := fun q hq hstatus hshared _ => absurd hshared (hfree q hq hstatus) }

theorem Sound.created (hw : Sound h w) (hp : Passed h w c) (hrow : ∀ r ∈ w.rows, r.reservationKey ≠ c.key)
    (hpk : ∀ r ∈ w.rows, r.pk ≠ pk) : Sound h { w with rows := w.rows ++ [newRow h pk w.now c] } := by
  have hmem : ∀ x ∈ w.rows ++ [newRow h pk w.now c], x ∈ w.rows ∨ x = newRow h pk w.now c := by
    intro x hx
    rcases List.mem_append.1 hx with hx | hx
    · exact .inl hx
    · exact .inr (List.mem_singleton.1 hx)
  refine
    { pks := ?_, keys := ?_, ids := hw.ids, phones := ?_, emails := ?_, events := ?_, sent := ?_, alone := ?_
      waiting := ?_, single := hw.single }
  · rw [List.map_append]
    refine List.nodup_append.2 ⟨hw.pks, List.nodup_singleton _, ?_⟩
    rintro a ha b hb rfl
    obtain ⟨x, hx, hxa⟩ := List.mem_map.1 ha
    exact hpk x hx (hxa.trans (List.mem_singleton.1 hb))
  · rw [List.map_append]
    refine List.nodup_append.2 ⟨hw.keys, List.nodup_singleton _, ?_⟩
    rintro a ha b hb rfl
    obtain ⟨x, hx, hxa⟩ := List.mem_map.1 ha
    exact hrow x hx (hxa.trans (List.mem_singleton.1 hb))
  · intro x hx
    rcases hmem x hx with hx | rfl
    · exact hw.phones x hx
    · rfl
  · intro x hx
    rcases hmem x hx with hx | rfl
    · exact hw.emails x hx
    · rfl
  · intro x hx
    rcases hmem x hx with hx | rfl
    · exact hw.events x hx
    · exact eventKey_eq c
  · intro x hx hd
    rcases hmem x hx with hx | rfl
    · exact hw.sent x hx hd
    · exact absurd rfl hd
  · intro s hs hd x hx hstate hshares
    rcases hmem s hs with hs | rfl
    · rcases hmem x hx with hx | rfl
      · exact hw.alone s hs hd x hx hstate hshares
      · exact absurd hshares (hp.guest hw rfl rfl rfl hs hd)
    · exact absurd rfl hd
  · intro q hq hstatus pk' hshared
    obtain ⟨x, hx, hxpk, hwait⟩ := hw.waiting q hq hstatus pk' hshared
    exact ⟨x, List.mem_append_left _ hx, hxpk, hwait.congr rfl⟩

/-- The row of an eligible claim, in a registry that differs in nothing else. -/
structure Held (h : Hashes) (w : Registry) (c : Claim) (k : Uuid) (w' : Registry) (r : JoinInvitation) : Prop where
  sound : Sound h w'
  row : w'.row k = some r
  key : r.reservationKey = c.key
  claimed : r.state = .claimed
  now : w'.now = w.now
  requests : w'.requests = w.requests
  bookings : w'.bookings = w.bookings
  unwaited : ∀ q ∈ w.requests, q.status = .queued → q.sharedInvitation ≠ some k
  permits : ∀ s ∈ w.rows, s.dispatchedAt ≠ none → s ∈ w'.rows
  clear : Clear w r
  origin : Function.Injective h.keyed → r.origin = c.origin

theorem origin_eq (hinj : Function.Injective h.keyed) {o o' : Origin} {e e' : String}
    (heq : h.keyed (o.text ++ e) = h.keyed (o'.text ++ e')) : o = o' := by
  have hlist := congrArg String.toList (hinj heq)
  rw [String.toList_append, String.toList_append] at hlist
  cases o <;> cases o' <;> first | rfl | (simp [Origin.text] at hlist)

theorem Claimed.held (hcl : Claimed h w c k w') (hw : Sound h w) (hp : Passed h w c) (hnamed : Named w c.key)
    (hexclude : ∀ q ∈ w.requests, c.excludeLegacy = some q.id → q.sharedInvitation = none) :
    ∃ r, Held h w c k w' r := by
  cases hcl with
  | again r hr hkey hstate hevent hexpires =>
    refine ⟨r, ⟨hw, hw.row_eq hr, hkey, hstate, rfl, rfl, rfl, fun q hq => hp.unwaited hw hnamed hexclude hr hkey hq,
      fun s hs _ => hs, fun s hs hd => ?_, fun hinj => ?_⟩⟩
    · have hother := (hp.clear hw hs hd).1
      refine ⟨fun hpk => hother ?_, hkey ▸ hother, fun hshares => ?_⟩
      · rw [Table.eq_of_mem_of_key hw.pks hs hr hpk, hkey]
      · exact absurd hexpires (Nat.not_lt.2 (hw.alone s hs hd r hr hstate hshares))
    · obtain ⟨e, he⟩ := hw.events r hr
      obtain ⟨e', he'⟩ := eventKey_eq (h := h) c
      exact origin_eq hinj (he.symm.trans (hevent.trans he'))
  | renewed r hr hkey =>
    have hfree : ∀ q ∈ w.requests, q.status = .queued → q.sharedInvitation ≠ some r.pk :=
      fun q hq => hp.unwaited hw hnamed hexclude hr hkey hq
    have hsound := hw.renewed hp hr hkey hfree
    have hunsent := hp.unsent hw hr hkey
    have hne : ∀ s, s.dispatchedAt ≠ none → s ∈ w.rows → s.pk ≠ r.pk := by
      intro s hd hs hpk
      rw [Table.eq_of_mem_of_key hw.pks hs hr hpk] at hd
      exact hd hunsent
    refine ⟨Invitations.renewed h w.now c r, ⟨hsound, hsound.row_eq ((mem_modifyRow hw hr).2 (.inl rfl)), hkey, rfl, rfl, rfl,
      rfl, hfree, fun s hs hd => (mem_modifyRow hw hr).2 (.inr ⟨hs, hne s hd hs⟩), fun s hs hd => ?_, fun _ => rfl⟩⟩
    refine ⟨hne s hd hs, ?_, hp.guest hw rfl rfl rfl hs hd⟩
    show s.reservationKey ≠ r.reservationKey
    rw [hkey]
    exact (hp.clear hw hs hd).1
  | created pk hrow hpk =>
    have hsound := hw.created hp hrow hpk
    refine ⟨newRow h k w.now c, ⟨hsound, hsound.row_eq (List.mem_append_right _ (List.mem_singleton_self _)), rfl, rfl, rfl,
      rfl, rfl, fun q hq hstatus hshared => ?_, fun s hs _ => List.mem_append_left _ hs, fun s hs hd => ?_, fun _ => rfl⟩⟩
    · obtain ⟨r, hr, hrpk, -⟩ := hw.waiting q hq hstatus k hshared
      exact hpk r hr hrpk
    · exact ⟨hpk s hs, hrow s hs, hp.guest hw rfl rfl rfl hs hd⟩

/-! ### What is kept -/

/-- Two versions of a row, for the same booking and guest. -/
structure Same (r r' : JoinInvitation) : Prop where
  pk : r'.pk = r.pk
  key : r'.reservationKey = r.reservationKey
  phone : r'.phone = r.phone
  email : r'.email = r.email
  customer : r'.customer = r.customer

theorem Same.refl (r : JoinInvitation) : Same r r := ⟨rfl, rfl, rfl, rfl, rfl⟩

theorem Same.trans {r' r'' : JoinInvitation} (h₁ : Same r r') (h₂ : Same r' r'') : Same r r'' :=
  ⟨h₂.pk.trans h₁.pk, h₂.key.trans h₁.key, h₂.phone.trans h₁.phone, h₂.email.trans h₁.email,
    h₂.customer.trans h₁.customer⟩

theorem Same.shares {r' s' : JoinInvitation} (hr : Same r r') (hs : Same s s') (h : Shares r' s') : Shares r s := by
  unfold Shares at h
  rwa [hr.phone, hr.email, hr.customer, hs.phone, hs.email, hs.customer] at h

/-- The rows with a permit keep it, with their booking and guest. -/
def Keeps (w w' : Registry) : Prop :=
  ∀ s ∈ w.rows, s.dispatchedAt ≠ none → ∃ s' ∈ w'.rows, Same s s' ∧ s'.dispatchedAt ≠ none

/-- All rows keep their booking and guest. -/
def Follows (w w' : Registry) : Prop :=
  ∀ s ∈ w.rows, ∃ s' ∈ w'.rows, Same s s' ∧ (s.dispatchedAt ≠ none → s'.dispatchedAt ≠ none)

theorem Keeps.refl (w : Registry) : Keeps w w := fun s hs hd => ⟨s, hs, .refl s, hd⟩

theorem Keeps.trans {w'' : Registry} (h₁ : Keeps w w') (h₂ : Keeps w' w'') : Keeps w w'' := by
  intro s hs hd
  obtain ⟨s', hs', hsame, hd'⟩ := h₁ s hs hd
  obtain ⟨s'', hs'', hsame', hd''⟩ := h₂ s' hs' hd'
  exact ⟨s'', hs'', hsame.trans hsame', hd''⟩

theorem Follows.keeps (hf : Follows w w') : Keeps w w' := by
  intro s hs hd
  obtain ⟨s', hs', hsame, hd'⟩ := hf s hs
  exact ⟨s', hs', hsame, hd' hd⟩

theorem follows_of_rows (hrows : w'.rows = w.rows) : Follows w w' :=
  fun s hs => ⟨s, hrows ▸ hs, .refl s, id⟩

theorem follows_modifyRow {f : JoinInvitation → JoinInvitation} (hsame : ∀ x, Same x (f x))
    (hd : ∀ x, x.dispatchedAt ≠ none → (f x).dispatchedAt ≠ none) : Follows w (w.modifyRow pk f) := by
  intro s hs
  refine ⟨if s.pk = pk then f s else s, Table.mem_modify.2 ⟨s, hs, rfl⟩, ?_⟩
  split
  · exact ⟨hsame s, hd s⟩
  · exact ⟨.refl s, id⟩

/-- A row stays clear of what had a permit before. -/
theorem Clear.same {r' : JoinInvitation} (hr : Clear w r) (hsame : Same r r') : Clear w r' := by
  intro s hs hd
  obtain ⟨hpk, hkey, hshares⟩ := hr s hs hd
  exact ⟨hsame.pk ▸ hpk, hsame.key ▸ hkey, fun h => hshares (hsame.shares (.refl s) h)⟩

theorem Clear.of_keeps {w₀ : Registry} (hr : Clear w r) (hk : Keeps w₀ w) : Clear w₀ r := by
  intro s hs hd
  obtain ⟨s', hs', hsame, hd'⟩ := hk s hs hd
  obtain ⟨hpk, hkey, hshares⟩ := hr s' hs' hd'
  refine ⟨hsame.pk ▸ hpk, hsame.key ▸ hkey, fun h => hshares ?_⟩
  unfold Shares
  rw [hsame.phone, hsame.email, hsame.customer]
  exact h

/-- What a transaction of a caller does to a sound registry. -/
structure Advances (h : Hashes) (w : Registry) (o : Outcome) : Prop where
  sound : Sound h o.registry
  keeps : Keeps w o.registry
  granted : ∀ k ∈ o.claimed.toList ++ o.permitted.toList, ∃ r ∈ o.registry.rows, r.pk = k ∧ Clear w r
  permitted : ∀ k, o.permitted = some k → ∃ r ∈ o.registry.rows, r.pk = k ∧ r.dispatchedAt ≠ none

theorem Advances.quiet (hs : Sound h w') (hk : Keeps w w') : Advances h w (.quiet w') :=
  ⟨hs, hk, fun _ hk => absurd hk List.not_mem_nil, fun _ hk => by cases hk⟩

/-! ### Requests -/

/-- A request that is no longer queued does not wait. -/
theorem Sound.retired (hw : Sound h w) {f : Request → Request} (hid : ∀ q, (f q).id = q.id)
    (hstatus : ∀ q, (f q).status ≠ .queued) : Sound h (w.modifyRequest id f) := by
  have hold : ∀ q ∈ (w.modifyRequest id f).requests, q.status = .queued → q ∈ w.requests := by
    intro q hq hqueued
    obtain ⟨q₀, hq₀, hq⟩ := Table.mem_modify.1 hq
    split_ifs at hq
    · exact absurd (hq ▸ hqueued) (hstatus q₀)
    · exact hq ▸ hq₀
  refine { hw with ids := ?_, waiting := ?_, single := ?_ }
  · show ((Table.modify Request.id w.requests id f).map Request.id).Nodup
    rw [Table.map_key_modify fun q hq => (hid q).trans hq]
    exact hw.ids
  · intro q hq hqueued pk hshared
    obtain ⟨r, hr, hpk, hwait⟩ := hw.waiting q (hold q hq hqueued) hqueued pk hshared
    exact ⟨r, hr, hpk, hwait.congr rfl⟩
  · intro q hq q' hq' hqueued hqueued'
    exact hw.single q (hold q hq hqueued) q' (hold q' hq' hqueued') hqueued hqueued'

theorem Sound.blockRequest (hw : Sound h w) : Sound h (w.modifyRequest id (setStatus .blocked)) :=
  hw.retired (fun _ => rfl) fun _ => by rintro ⟨⟩

/-- The row of a claim in the name of a booking waits for the request. -/
theorem Held.waits (hh : Held h w c k w' r) (hinj : Function.Injective h.keyed) {b : Booking}
    (hb : w.booking q.id.booking = some b) (hkey : c.key = bookingKey b) (ho : c.origin = .website) : Waiting w' q r := by
  refine ⟨hh.sound.unsent (Table.mem_of_get hh.row) (by rw [hh.claimed]; rfl), (hh.origin hinj).trans ho, b, ?_, ?_⟩
  · rw [Registry.booking, hh.bookings]
    exact hb
  · rw [hh.key, hkey, bookingKey]
    split
    · rename_i n hn
      exact .inr ⟨n, hn, rfl⟩
    · exact .inl rfl

/-! ### A permit -/

/-- How `consume` leaves the registry. -/
inductive Consumed (h : Hashes) (w : Registry) (k : Uuid) : Decision → Registry → Prop
  | same (d : Decision) (hd : d ≠ .eligible) : Consumed h w k d w
  | blocked (d : Decision) (hd : d ≠ .eligible) (r : JoinInvitation) (hr : r ∈ w.rows) (hstate : r.state = .claimed) :
      Consumed h w k d (w.modifyRow r.pk (setState .blocked))
  | granted (r : JoinInvitation) (hr : r ∈ w.rows) (hpk : r.pk = k) (hstate : r.state = .claimed)
      (hrivals : competing h w r.reservationKey r.phone r.email r.customer (some r.pk) = false) :
      Consumed h w k .eligible (w.modifyRow r.pk (dispatched w.now))

theorem consume_cases {c : Consumption} (hc : consume h w isMember c = .ok (d, w')) : Consumed h w c.row d w' := by
  unfold consume at hc
  simp only [bind_eq_ok, found_eq_ok] at hc
  obtain ⟨r, hrow, booking, -, hc⟩ := hc
  have hr : r ∈ w.rows := Table.mem_of_get hrow
  split at hc
  · cases hc
    split
    · exact .blocked _ (by rintro ⟨⟩) r hr ‹_›
    · exact .same _ (by rintro ⟨⟩)
  split at hc
  · cases hc
    exact .same _ (by rintro ⟨⟩)
  rename_i hstate
  rw [not_not] at hstate
  split at hc
  · cases hc
    exact .blocked _ (by rintro ⟨⟩) r hr hstate
  split at hc
  · cases hc
  split at hc
  · cases hc
    exact .blocked _ (by rintro ⟨⟩) r hr hstate
  rename_i hfree
  rw [Bool.or_eq_true, not_or, Bool.not_eq_true] at hfree
  cases hc
  exact .granted r hr (Table.key_of_get hrow) hstate hfree.1

theorem Consumed.modifyRequest (hc : Consumed h w k d w') (f : Request → Request) :
    Consumed h (w.modifyRequest id f) k d (w'.modifyRequest id f) := by
  cases hc with
  | same d hd => exact .same d hd
  | blocked d hd r hr hstate => exact .blocked d hd r hr hstate
  | granted r hr hpk hstate hrivals => exact .granted r hr hpk hstate hrivals

theorem Consumed.follows (hc : Consumed h w k d w') : Follows w w' := by
  cases hc with
  | same => exact follows_of_rows rfl
  | blocked => exact follows_modifyRow (fun _ => ⟨rfl, rfl, rfl, rfl, rfl⟩) fun _ => id
  | granted => exact follows_modifyRow (fun _ => ⟨rfl, rfl, rfl, rfl, rfl⟩) fun _ _ => Option.some_ne_none _

theorem Consumed.sound (hc : Consumed h w k d w') (hw : Sound h w)
    (hfree : ∀ q ∈ w.requests, q.status = .queued → q.sharedInvitation ≠ some k) : Sound h w' := by
  cases hc with
  | same => exact hw
  | blocked d hd r hr hstate => exact hw.blocked hr hstate
  | granted r hr hpk hstate hrivals => exact hw.dispatched hr hrivals (hpk ▸ hfree)

/-- The row that is granted was claimed, and none with a permit has its booking or its guest. -/
theorem Consumed.clear (hc : Consumed h w k .eligible w') (hw : Sound h w) :
    ∃ r ∈ w'.rows, r.pk = k ∧ r.dispatchedAt ≠ none ∧ Clear w r := by
  cases hc with
  | same _ hd => exact absurd rfl hd
  | blocked _ hd => exact absurd rfl hd
  | granted r hr hpk hstate hrivals =>
    refine ⟨dispatched w.now r, (mem_modifyRow hw hr).2 (.inl rfl), hpk, Option.some_ne_none _, fun s hs hd => ?_⟩
    have hsent := hw.sent s hs hd
    have hne : s.pk ≠ r.pk := by
      intro heq
      rw [Table.eq_of_mem_of_key hw.pks hs hr heq, hstate] at hsent
      cases hsent
    have hunmatched : matched h r.reservationKey r.phone r.email r.customer s = false := by
      by_contra hm
      have hstanding := competing_eq_false hrivals hs (fun heq => hne (Option.some.inj heq).symm) (by simpa using hm)
      rw [standing_of_sent hsent] at hstanding
      cases hstanding
    refine ⟨hne, fun hkey => ?_, fun hshares => ?_⟩
    · have hmatched := matched_key (h := h) s r.phone r.email r.customer
      rw [show s.reservationKey = r.reservationKey from hkey, hunmatched] at hmatched
      cases hmatched
    · have hmatched := matched_of_shares (r := r) hshares (hw.phones s hs) (hw.emails s hs) r.reservationKey
      rw [hunmatched] at hmatched
      cases hmatched

/-- What `permit` may answer with: the request blocked, or on its way with the permit of its row. -/
theorem permit_cases {delivery : Delivery} {claimed : Option Uuid} {o : Outcome}
    (hp : permit h w isMember id delivery claimed k = .ok o) :
    ∃ d w', Consumed h w k d w' ∧ (d ≠ .eligible ∧ o = Invitations.blockRequest w' id claimed ∨
      d = .eligible ∧ o = ⟨w'.modifyRequest id (setStatus .sending), claimed, some k⟩) := by
  have hblocked : ∃ d w', Consumed h w k d w' ∧ (d ≠ .eligible ∧ Invitations.blockRequest w id claimed =
      Invitations.blockRequest w' id claimed ∨ d = .eligible ∧ Invitations.blockRequest w id claimed =
      ⟨w'.modifyRequest id (setStatus .sending), claimed, some k⟩) :=
    ⟨.blocked, w, .same _ (by rintro ⟨⟩), .inl ⟨by rintro ⟨⟩, rfl⟩⟩
  unfold permit at hp
  split at hp
  · cases hp
    exact hblocked
  split at hp
  · rename_i w' hc
    cases hp
    exact ⟨_, w', consume_cases hc, .inr ⟨rfl, rfl⟩⟩
  · rename_i d w' hd hc
    cases hp
    exact ⟨d, w', consume_cases hc, .inl ⟨hd, rfl⟩⟩
  · cases hp
    exact hblocked
  · cases hp

/-- A permit for the queued request that waits for the row. -/
theorem permit_advances {delivery : Delivery} {claimed : Option Uuid} {o : Outcome} (hw : Sound h w)
    (hp : permit h w isMember id delivery claimed k = .ok o)
    (hfree : ∀ q ∈ w.requests, q.status = .queued → q.sharedInvitation = some k → q.id = id) :
    Sound h o.registry ∧ Follows w o.registry ∧ o.claimed = claimed ∧
      ∀ k', o.permitted = some k' → ∃ r ∈ o.registry.rows, r.pk = k' ∧ r.dispatchedAt ≠ none ∧ Clear w r := by
  obtain ⟨d, w', hc, hcases⟩ := permit_cases hp
  have hsound : ∀ status, status ≠ .queued → Sound h (w'.modifyRequest id (setStatus status)) := by
    intro status hstatus
    refine (hc.modifyRequest (setStatus status)).sound (hw.retired (fun _ => rfl) fun _ => hstatus) ?_
    intro q hq hqueued hshared
    obtain ⟨q₀, hq₀, hq⟩ := Table.mem_modify.1 hq
    split_ifs at hq with hid
    · exact hstatus (by rw [← hqueued, ← hq]; rfl)
    · rw [← hq] at hqueued hshared
      exact hid (hfree q₀ hq₀ hqueued hshared)
  obtain ⟨-, rfl⟩ | ⟨rfl, rfl⟩ := hcases
  · exact ⟨hsound .blocked (by rintro ⟨⟩), hc.follows, rfl, fun k' hk => by cases hk⟩
  · refine ⟨hsound .sending (by rintro ⟨⟩), hc.follows, rfl, fun k' hk => ?_⟩
    cases hk
    exact hc.clear hw

/-! ### Reports -/

theorem record_cases (hrec : record w pk state providerId = .ok w') :
    ∃ r ∈ w.rows, r.pk = pk ∧ state ≠ .claimed ∧ w' = w.modifyRow r.pk (reported w.now state providerId) := by
  unfold record at hrec
  simp only [bind_eq_ok, found_eq_ok, raiseIf_eq_ok, exists_const, pure_eq_ok] at hrec
  obtain ⟨r, hrow, hstate, -, -, -, rfl⟩ := hrec
  have hpk : r.pk = pk := Table.key_of_get hrow
  exact ⟨r, Table.mem_of_get hrow, hpk, hstate, by rw [hpk]⟩

/-- A report is of a state after the permit, or the row has no permit. -/
theorem Sound.recorded (hw : Sound h w) (hrec : record w pk state providerId = .ok w')
    (hstate : state.sent = true ∨ ∀ r ∈ w.rows, r.pk = pk → r.dispatchedAt = none) : Sound h w' ∧ Follows w w' := by
  obtain ⟨r, hr, rfl, hclaimed, rfl⟩ := record_cases hrec
  have hkept : (reported w.now state providerId r).state = .claimed → r.state = .claimed := by
    intro heq
    simp only [reported] at heq
    split at heq
    · exact absurd heq hclaimed
    · exact heq
  refine ⟨hw.modifyRow hr ?_, follows_modifyRow (fun _ => ⟨rfl, rfl, rfl, rfl, rfl⟩) fun _ => id⟩
  refine
    { pk := rfl
      key := rfl
      phone := hw.phones r hr
      email := hw.emails r hr
      event := hw.events r hr
      sent := fun hd => ?_
      claimed := fun s hs hd heq hshares => hw.alone s hs hd r hr (hkept heq) hshares
      permit := fun s hs _ hd heq hshares => hw.alone r hr hd s hs heq hshares
      waiting := fun _ _ _ _ hwait => ⟨hwait.unsent, hwait.website, hwait.booked⟩ }
  have hsent : state.sent = true := hstate.resolve_right fun hall => hd (hall r hr rfl)
  simp only [reported]
  split
  · exact hsent
  · exact hw.sent r hr hd

/-! ### The callers -/

/-- The row of a claim for the guest of a new or an old request without one. -/
structure Shared (w : Registry) (q : Request) (r : JoinInvitation) : Prop where
  row : r ∈ w.rows
  shared : q.sharedInvitation = some r.pk
  waits : Waiting w q r
  free : ∀ q' ∈ w.requests, q'.status = .queued → q'.sharedInvitation ≠ some r.pk

theorem Sound.queued (hw : Sound h w) (hnew : w.request q.id = none) (hq : Shared w q r) :
    Sound h { w with requests := w.requests ++ [q] } := by
  refine { hw with ids := ?_, waiting := ?_, single := ?_ }
  · rw [List.map_append]
    refine List.nodup_append.2 ⟨hw.ids, List.nodup_singleton _, ?_⟩
    rintro a ha b hb rfl
    obtain ⟨x, hx, hxa⟩ := List.mem_map.1 ha
    exact Table.get_eq_none.1 hnew x hx (hxa.trans (List.mem_singleton.1 hb))
  · intro x hx hqueued pk hshared
    rcases List.mem_append.1 hx with hx | hx
    · obtain ⟨y, hy, hpk, hwait⟩ := hw.waiting x hx hqueued pk hshared
      exact ⟨y, hy, hpk, hwait.congr rfl⟩
    · obtain rfl := List.mem_singleton.1 hx
      exact ⟨r, hq.row, Option.some.inj (hq.shared.symm.trans hshared), hq.waits.congr rfl⟩
  · intro x hx y hy hxq hyq pk hxs hys
    rcases List.mem_append.1 hx with hx | hx <;> rcases List.mem_append.1 hy with hy | hy
    · exact hw.single x hx y hy hxq hyq pk hxs hys
    · rw [List.mem_singleton.1 hy, hq.shared] at hys
      exact absurd (hxs.trans hys.symm) (hq.free x hx hxq)
    · rw [List.mem_singleton.1 hx, hq.shared] at hxs
      exact absurd (hys.trans hxs.symm) (hq.free y hy hyq)
    · rw [List.mem_singleton.1 hx, List.mem_singleton.1 hy]

/-- The row is written into the request. -/
theorem Sound.shared (hw : Sound h w) (hq : q ∈ w.requests) (hs : Shared w (share (some r.pk) q) r) :
    Sound h (w.modifyRequest q.id (share (some r.pk))) := by
  have hmem : ∀ x ∈ (w.modifyRequest q.id (share (some r.pk))).requests,
      x = share (some r.pk) q ∨ (x ∈ w.requests ∧ x.id ≠ q.id) := by
    intro x hx
    obtain ⟨y, hy, hx⟩ := Table.mem_modify.1 hx
    split_ifs at hx with hid
    · exact .inl (Table.eq_of_mem_of_key hw.ids hy hq hid ▸ hx.symm)
    · exact .inr ⟨hx ▸ hy, hx ▸ hid⟩
  refine { hw with ids := ?_, waiting := ?_, single := ?_ }
  · show ((Table.modify Request.id w.requests q.id (share (some r.pk))).map Request.id).Nodup
    have hid : ∀ x : Request, x.id = q.id → (share (some r.pk) x).id = q.id := fun _ hid => hid
    rw [Table.map_key_modify hid]
    exact hw.ids
  · intro x hx hqueued pk hshared
    rcases hmem x hx with rfl | ⟨hx, -⟩
    · exact ⟨r, hs.row, Option.some.inj (hs.shared.symm.trans hshared), hs.waits.congr rfl⟩
    · obtain ⟨y, hy, hpk, hwait⟩ := hw.waiting x hx hqueued pk hshared
      exact ⟨y, hy, hpk, hwait.congr rfl⟩
  · intro x hx y hy hxq hyq pk hxs hys
    rcases hmem x hx with rfl | ⟨hx, -⟩ <;> rcases hmem y hy with rfl | ⟨hy, -⟩
    · rfl
    · exact absurd (hys.trans (hxs.symm.trans hs.shared)) (hs.free y hy hyq)
    · exact absurd (hxs.trans (hys.symm.trans hs.shared)) (hs.free x hx hxq)
    · exact hw.single x hx y hy hxq hyq pk hxs hys

theorem Held.keeps (hh : Held h w c k w' r) : Keeps w w' := fun s hs hd => ⟨s, hh.permits s hs hd, .refl s, hd⟩

theorem Held.mem (hh : Held h w c k w' r) : r ∈ w'.rows ∧ r.pk = k := mem_of_row hh.row

/-- A claim that is eligible holds its row. -/
theorem claim_held (hw : Sound h w) (hc : claim h w isMember pk c = .ok (.eligible, row, w')) (hnamed : Named w c.key)
    (hexclude : ∀ q ∈ w.requests, c.excludeLegacy = some q.id → q.sharedInvitation = none) :
    ∃ k r, row = some k ∧ Held h w c k w' r := by
  rcases claim_cases hw hc with ⟨hd, -⟩ | ⟨-, hp, k, rfl, hcl⟩
  · exact absurd rfl hd
  · obtain ⟨r, hh⟩ := hcl.held hw hp hnamed hexclude
    exact ⟨k, r, rfl, hh⟩

theorem claim_refused (hw : Sound h w) (hc : claim h w isMember pk c = .ok (d, row, w')) (hd : d ≠ .eligible) : w' = w := by
  rcases claim_cases hw hc with ⟨-, rfl⟩ | ⟨rfl, -⟩
  · rfl
  · exact absurd rfl hd

theorem apiClaim_advances {a : Application} {o : Outcome} (hw : Sound h w) (ha : apiClaim h w isMember pk a = .ok o) :
    Advances h w o := by
  unfold apiClaim at ha
  simp only [bind_eq_ok] at ha
  obtain ⟨⟨key, booking⟩, hcanonical, ha⟩ := ha
  have hnamed : Named w key := by
    cases href : a.reference with
    | hostaway id =>
      rw [href] at hcanonical
      cases hcanonical
      rintro pk ⟨⟩
    | site bpk =>
      rw [href] at hcanonical
      simp only [canonicalBooking, bind_eq_ok, found_eq_ok] at hcanonical
      obtain ⟨b, hb, hcanonical⟩ := hcanonical
      cases hcanonical
      exact named_bookingKey hb
  split at ha
  · cases ha
    exact .quiet hw (.refl w)
  simp only [bind_eq_ok] at ha
  obtain ⟨⟨d, row, w'⟩, hc, ha⟩ := ha
  cases ha
  dsimp only
  split
  · rename_i hd
    subst hd
    obtain ⟨k, r, rfl, hh⟩ := claim_held hw hc hnamed fun _ _ hnone => by cases hnone
    refine ⟨hh.sound, hh.keeps, fun k' hk' => ?_, fun _ hk => by cases hk⟩
    obtain rfl : k' = k := by simpa using hk'
    exact ⟨r, hh.mem.1, hh.mem.2, hh.clear⟩
  · rename_i hd
    rw [claim_refused hw hc hd]
    exact .quiet hw (.refl w)

theorem preflight_advances {t : Ticket} {phone : String} {o : Outcome} (hw : Sound h w)
    (ha : preflight h w isMember pk t phone = .ok o) : Advances h w o := by
  unfold preflight apiRow at ha
  simp only [bind_eq_ok, found_eq_ok, raiseIf_eq_ok, exists_const, not_not] at ha
  obtain ⟨r₀, ⟨r, hrow, horigin, -⟩, ⟨d, w'⟩, hc, ha⟩ := ha
  cases ha
  have hconsumed := consume_cases hc
  have hfree : ∀ q ∈ w.requests, q.status = .queued → q.sharedInvitation ≠ some pk := by
    intro q hq hqueued hshared
    obtain ⟨x, hx, hpk, hwait⟩ := hw.waiting q hq hqueued pk hshared
    obtain ⟨hr, hrpk⟩ := mem_of_row hrow
    rw [Table.eq_of_mem_of_key hw.pks hx hr (hpk.trans hrpk.symm)] at hwait
    have := hwait.website.symm.trans horigin
    cases this
  have hsound := hconsumed.sound hw hfree
  dsimp only
  split
  · rename_i hd
    subst hd
    obtain ⟨r', hr', hpk, hd', hclear⟩ := hconsumed.clear hw
    refine ⟨hsound, hconsumed.follows.keeps, fun k hk => ?_, fun k hk => ?_⟩
    · obtain rfl : k = pk := by simpa using hk
      exact ⟨r', hr', hpk, hclear⟩
    · obtain rfl : pk = k := Option.some.inj hk
      exact ⟨r', hr', hpk, hd'⟩
  · exact .quiet hsound hconsumed.follows.keeps

theorem apiRecord_advances {o : Outcome} (hw : Sound h w) (ha : apiRecord w pk state providerId = .ok o) :
    Advances h w o := by
  unfold apiRecord at ha
  simp only [bind_eq_ok, raiseIf_eq_ok, exists_const, not_not] at ha
  obtain ⟨hstate, -, -, w', hrec, ha⟩ := ha
  cases ha
  obtain ⟨hsound, hfollows⟩ := hw.recorded hrec (.inl (by revert hstate; cases state <;> decide))
  exact .quiet hsound hfollows.keeps

theorem inviteReport_advances {o : Outcome} (hw : Sound h w) (ha : inviteReport w pk state providerId = .ok o) :
    Advances h w o := by
  unfold inviteReport at ha
  simp only [bind_eq_ok, found_eq_ok] at ha
  obtain ⟨r, -, ha⟩ := ha
  split at ha
  · simp only [bind_eq_ok, raiseIf_eq_ok, exists_const, not_not] at ha
    obtain ⟨hstate, w', hrec, ha⟩ := ha
    cases ha
    obtain ⟨hsound, hfollows⟩ := hw.recorded hrec (.inl (by revert hstate; cases state <;> decide))
    exact .quiet hsound hfollows.keeps
  all_goals
    cases ha
    exact .quiet hw (.refl w)

/-- The permit that follows a claim in the same transaction. -/
theorem Held.permitted (hh : Held h w c k w' r) {w'' : Registry} (hc : Consumed h w' k d w'') :
    Advances h w ⟨w'', some k, if d = .eligible then some k else none⟩ := by
  have hfree : ∀ q ∈ w'.requests, q.status = .queued → q.sharedInvitation ≠ some k := by
    rw [hh.requests]
    exact hh.unwaited
  obtain ⟨r', hr', hsame, -⟩ := hc.follows r hh.mem.1
  refine ⟨hc.sound hh.sound hfree, hh.keeps.trans hc.follows.keeps, fun k' hk' => ?_, fun k' hk' => ?_⟩
  · have hk : k' = k := by
      split at hk' <;> simpa using hk'
    exact ⟨r', hr', hsame.pk.trans (hh.mem.2.trans hk.symm), hh.clear.same hsame⟩
  · dsimp only at hk'
    split at hk'
    · rename_i hd
      subst hd
      obtain ⟨x, hx, hpk, hd', -⟩ := hc.clear hh.sound
      exact ⟨x, hx, hpk.trans (Option.some.inj hk'), hd'⟩
    · cases hk'

theorem invite_advances {i : Invited} {o : Outcome} (hw : Sound h w) (ha : invite h w isMember pk i = .ok o) :
    Advances h w o := by
  unfold invite at ha
  simp only [bind_eq_ok] at ha
  obtain ⟨⟨d, row, w'⟩, hc, ha⟩ := ha
  dsimp only at ha
  by_cases hd : d = .eligible
  · subst hd
    obtain ⟨k, r, rfl, hh⟩ := claim_held hw hc (by rintro pk ⟨⟩) fun _ _ hnone => by cases hnone
    simp only [bind_eq_ok] at ha
    obtain ⟨⟨d', w''⟩, hconsume, ha⟩ := ha
    cases ha
    exact hh.permitted (consume_cases hconsume)
  · rw [claim_refused hw hc hd] at ha
    split at ha
    · exact absurd rfl hd
    · cases ha
      exact .quiet hw (.refl w)

theorem queue_advances (hinj : Function.Injective h.keyed) {t : Target} {issued : Bool} {o : Outcome} (hw : Sound h w)
    (ha : queue h w isMember pk id t issued = .ok o) : Advances h w o := by
  unfold queue at ha
  simp only [bind_eq_ok, found_eq_ok] at ha
  obtain ⟨b, hb, ha⟩ := ha
  split at ha
  · cases ha
    exact .quiet hw (.refl w)
  rename_i hnew
  have hnew : w.request id = none := by simpa using hnew
  simp only [bind_eq_ok, raiseIf_eq_ok, exists_const, not_or, not_not] at ha
  obtain ⟨⟨d, row, w'⟩, hc, ⟨rfl, -⟩, ha⟩ := ha
  cases ha
  obtain ⟨k, r, rfl, hh⟩ := claim_held hw hc (named_bookingKey hb) fun _ _ hnone => by cases hnone
  obtain ⟨hr, hpk⟩ := hh.mem
  have hshared : Shared w' (newRequest h w'.now id t (some k)) r := by
    refine ⟨hr, congrArg some hpk.symm, hh.waits hinj hb rfl rfl, ?_⟩
    rw [hh.requests, hpk]
    exact hh.unwaited
  have hnew' : w'.request (newRequest h w'.now id t (some k)).id = none := by
    rw [Registry.request, hh.requests]
    exact hnew
  refine ⟨hh.sound.queued hnew' hshared, hh.keeps, fun k' hk' => ?_, fun _ hk => by cases hk⟩
  obtain rfl : k' = k := by simpa using hk'
  exact ⟨r, hr, hpk, hh.clear⟩

/-- A request that is finished reports for its row; one that could not be queued has no permit. -/
theorem finish_advances {expected status : RequestStatus} {o : Outcome} (hw : Sound h w) (hstatus : status ≠ .queued)
    (hstate : state.sent = true ∨ expected = .queued)
    (ha : finish w id expected status state providerId = .ok o) : Advances h w o := by
  unfold finish at ha
  cases hq : w.request id with
  | none =>
    rw [hq] at ha
    cases ha
    exact .quiet hw (.refl w)
  | some q =>
    rw [hq] at ha
    dsimp only at ha
    split at ha
    · cases ha
      exact .quiet hw (.refl w)
    rename_i hexpected
    rw [not_not] at hexpected
    have hretired : Sound h (w.modifyRequest id (setStatus status)) := hw.retired (fun _ => rfl) fun _ => hstatus
    cases hshared : q.sharedInvitation with
    | none =>
      rw [hshared] at ha
      cases ha
      exact .quiet hretired (follows_of_rows rfl).keeps
    | some shared =>
      rw [hshared] at ha
      simp only [bind_eq_ok] at ha
      obtain ⟨w', hrec, ha⟩ := ha
      cases ha
      have hunsent : state.sent = true ∨
          ∀ r ∈ (w.modifyRequest id (setStatus status)).rows, r.pk = shared → r.dispatchedAt = none := by
        refine hstate.imp_right fun hqueued r hr hpk => ?_
        obtain ⟨x, hx, hxpk, hwait⟩ := hw.waiting q (Table.mem_of_get hq) (hexpected.trans hqueued) shared hshared
        rw [Table.eq_of_mem_of_key hw.pks hr hx (hpk.trans hxpk.symm)]
        exact hwait.unsent
      obtain ⟨hsound, hfollows⟩ := hretired.recorded hrec hunsent
      exact .quiet hsound fun s hs hd => hfollows.keeps s hs hd

/-- A request that is blocked, with what was claimed for it. -/
theorem blocked_advances (hw : Sound h w) : Advances h w (Invitations.blockRequest w id none) :=
  ⟨hw.blockRequest, (follows_of_rows rfl).keeps, fun _ hk => absurd hk List.not_mem_nil, fun _ hk => by cases hk⟩

theorem deliver_advances (hinj : Function.Injective h.keyed) {delivery : Delivery} {o : Outcome} (hw : Sound h w)
    (ha : deliver h w isMember pk id delivery = .ok o) : Advances h w o := by
  unfold deliver at ha
  simp only [bind_eq_ok, found_eq_ok] at ha
  obtain ⟨b, hb, ha⟩ := ha
  cases hq : w.request id with
  | none =>
    rw [hq] at ha
    cases ha
    exact .quiet hw (.refl w)
  | some q =>
  rw [hq] at ha
  dsimp only at ha
  have hqmem : q ∈ w.requests := Table.mem_of_get hq
  have hqid : q.id = id := Table.key_of_get hq
  split at ha
  · cases ha
    exact .quiet hw (.refl w)
  rename_i hqueued
  rw [not_not] at hqueued
  split at ha
  · cases ha
    exact blocked_advances hw
  cases hshared : q.sharedInvitation with
  | some shared =>
    rw [hshared] at ha
    dsimp only at ha
    obtain ⟨hsound, hfollows, hclaimed, hpermitted⟩ := permit_advances hw ha fun q' hq' hqueued' hshared' =>
      (hw.single q' hq' q hqmem hqueued' hqueued shared hshared' hshared).trans hqid
    refine ⟨hsound, hfollows.keeps, fun k hk => ?_, fun k hk => ?_⟩
    · rw [hclaimed] at hk
      obtain ⟨r, hr, hpk, -, hclear⟩ := hpermitted k (by simpa using hk)
      exact ⟨r, hr, hpk, hclear⟩
    · obtain ⟨r, hr, hpk, hd, -⟩ := hpermitted k hk
      exact ⟨r, hr, hpk, hd⟩
  | none =>
    rw [hshared] at ha
    dsimp only at ha
    -- the claim in the name of the request leaves out the request itself, which has no row yet
    have hexclude : ∀ q' ∈ w.requests, some id = some q'.id → q'.sharedInvitation = none := by
      intro q' hq' hid
      rw [Table.eq_of_mem_of_key hw.ids hq' hqmem ((Option.some.inj hid).symm.trans hqid.symm)]
      exact hshared
    split at ha
    · rename_i row w' hc
      obtain ⟨k, r, hk, hh⟩ := claim_held hw hc (named_bookingKey hb) hexclude
      obtain rfl := Option.some.inj hk
      obtain ⟨hr, hpk⟩ := hh.mem
      have hq' : w'.request q.id = some q := by
        rw [Registry.request, hh.requests, hqid]
        exact hq
      have hs : Shared w' (share (some r.pk) q) r := by
        refine ⟨hr, rfl, hh.waits hinj (q := share (some r.pk) q) ?_ rfl rfl, ?_⟩
        · show w.booking q.id.booking = some b
          rw [hqid]
          exact hb
        · rw [hh.requests, hpk]
          exact hh.unwaited
      have hsound := hh.sound.shared (Table.mem_of_get hq') hs
      rw [hqid, hpk] at hsound
      have hfree : ∀ q' ∈ (w'.modifyRequest id (share (some row))).requests, q'.status = .queued →
          q'.sharedInvitation = some row → q'.id = id := by
        intro q' hq' hqueued' hshared'
        obtain ⟨y, hy, rfl⟩ := Table.mem_modify.1 hq'
        split_ifs at hqueued' hshared' ⊢ with hid
        · exact hid
        · rw [hh.requests] at hy
          exact absurd hshared' (hh.unwaited y hy hqueued')
      obtain ⟨hsound', hfollows, hclaimed, hpermitted⟩ := permit_advances hsound ha hfree
      have hkeeps : Keeps w (w'.modifyRequest id (share (some row))) := hh.keeps
      obtain ⟨r', hr', hsame, -⟩ := hfollows r hr
      refine ⟨hsound', hkeeps.trans hfollows.keeps, fun k hk => ?_, fun k hk => ?_⟩
      · rw [hclaimed] at hk
        rcases List.mem_append.1 hk with hk | hk
        · obtain rfl : k = row := by simpa using hk
          exact ⟨r', hr', hsame.pk.trans hpk, hh.clear.same hsame⟩
        · obtain ⟨x, hx, hxpk, -, hclear⟩ := hpermitted k (by simpa using hk)
          exact ⟨x, hx, hxpk, hclear.of_keeps hkeeps⟩
      · obtain ⟨x, hx, hxpk, hd, -⟩ := hpermitted k hk
        exact ⟨x, hx, hxpk, hd⟩
    · rename_i d row w' hrefused hc
      cases ha
      have hd : d ≠ .eligible := by
        rintro rfl
        obtain ⟨k, r, rfl, -⟩ := claim_held hw hc (named_bookingKey hb) hexclude
        exact hrefused k rfl rfl
      rw [claim_refused hw hc hd]
      exact blocked_advances hw
    · cases ha
      exact blocked_advances hw
    · cases ha

/-! ### Runs -/

theorem Sound.ticked (hw : Sound h w) (seconds : ℕ) : Sound h { w with now := w.now + seconds } := by
  refine { hw with alone := ?_, waiting := ?_ }
  · intro s hs hd r hr hclaimed hshares
    exact (hw.alone s hs hd r hr hclaimed hshares).trans (Nat.le_add_right ..)
  · intro q hq hqueued pk hshared
    obtain ⟨r, hr, hpk, hwait⟩ := hw.waiting q hq hqueued pk hshared
    exact ⟨r, hr, hpk, hwait.congr rfl⟩

/-- A booking may change in anything but its number at Hostaway, once it has one. -/
theorem Sound.rebooked (hw : Sound h w) {f : Booking → Booking} (hpk : ∀ b, (f b).pk = b.pk)
    (hid : ∀ b n, b.hostawayReservationId = some n → (f b).hostawayReservationId = some n) :
    Sound h { w with bookings := Table.modify Booking.pk w.bookings pk f } := by
  refine { hw with waiting := ?_ }
  intro q hq hqueued pk' hshared
  obtain ⟨r, hr, hrpk, hwait⟩ := hw.waiting q hq hqueued pk' hshared
  refine ⟨r, hr, hrpk, hwait.unsent, hwait.website, ?_⟩
  obtain ⟨b, hb, hkey⟩ := hwait.booked
  have hkeep : ∀ b : Booking, b.pk = pk → (f b).pk = pk := fun b hb => (hpk b).trans hb
  by_cases hbooking : q.id.booking = pk
  · refine ⟨f b, ?_, ?_⟩
    · show Table.get Booking.pk (Table.modify Booking.pk w.bookings pk f) q.id.booking = _
      rw [hbooking, Table.get_modify_self hkeep, ← hbooking]
      exact congrArg (Option.map f) hb
    · rw [hpk]
      exact hkey.imp_right fun ⟨n, hn, hr⟩ => ⟨n, hid b n hn, hr⟩
  · refine ⟨b, ?_, hkey⟩
    exact (Table.get_modify_ne hkeep hbooking).trans hb

theorem act_advances (hinj : Function.Injective h.keyed) (hw : Sound h w) {a : Action} {o : Outcome}
    (ha : act h w a = .ok o) : Advances h w o := by
  cases a with
  | tick seconds =>
    cases ha
    exact .quiet (hw.ticked seconds) (follows_of_rows rfl).keeps
  | apiClaim => exact apiClaim_advances hw ha
  | preflight => exact preflight_advances hw ha
  | apiRecord => exact apiRecord_advances hw ha
  | queue => exact queue_advances hinj hw ha
  | queueFailed => exact finish_advances hw (by rintro ⟨⟩) (.inr rfl) ha
  | deliver => exact deliver_advances hinj hw ha
  | accepted => exact finish_advances hw (by rintro ⟨⟩) (.inl rfl) ha
  | uncertain => exact finish_advances hw (by rintro ⟨⟩) (.inl rfl) ha
  | invite => exact invite_advances hw ha
  | inviteReport => exact inviteReport_advances hw ha
  | linked booking id =>
    cases ha
    refine .quiet (hw.rebooked (fun _ => rfl) fun b n hn => ?_) (follows_of_rows rfl).keeps
    show some (b.hostawayReservationId.getD id) = some n
    rw [hn]
    rfl
  | moved booking directWebsite isTest closed customer =>
    cases ha
    exact .quiet (hw.rebooked (fun _ => rfl) fun _ _ hn => hn) (follows_of_rows rfl).keeps

theorem step_spec (hinj : Function.Injective h.keyed) (hw : Sound h w) (a : Action) :
    Sound h (step h w a) ∧ Keeps w (step h w a) := by
  unfold step
  cases ha : act h w a with
  | error e => exact ⟨hw, .refl w⟩
  | ok o =>
    have hadv := act_advances hinj hw ha
    exact ⟨hadv.sound, hadv.keeps⟩

/-- The registry before its first invitation, beside the receipts from before there were rows. -/
structure Registry.Fresh (w : Registry) : Prop where
  rows : w.rows = []
  ids : (w.requests.map (·.id)).Nodup
  unshared : ∀ q ∈ w.requests, q.sharedInvitation = none

theorem Registry.Fresh.sound (hw : w.Fresh) : Sound h w where
  pks := by rw [hw.rows]; exact List.nodup_nil
  keys := by rw [hw.rows]; exact List.nodup_nil
  ids := hw.ids
  phones := by rw [hw.rows]; exact fun _ hr => absurd hr List.not_mem_nil
  emails := by rw [hw.rows]; exact fun _ hr => absurd hr List.not_mem_nil
  events := by rw [hw.rows]; exact fun _ hr => absurd hr List.not_mem_nil
  sent := by rw [hw.rows]; exact fun _ hr => absurd hr List.not_mem_nil
  alone := by rw [hw.rows]; exact fun _ hr => absurd hr List.not_mem_nil
  waiting := fun q hq _ pk hshared => by rw [hw.unshared q hq] at hshared; cases hshared
  single := fun q hq _ _ _ _ pk hshared => by rw [hw.unshared q hq] at hshared; cases hshared

theorem run_keeps (hinj : Function.Injective h.keyed) (hw : Sound h w) (as : List Action) :
    Sound h (run (step h) w as) ∧ Keeps w (run (step h) w as) :=
  run_inv (I := fun v => Sound h v ∧ Keeps w v)
    (fun _ a hv => ⟨(step_spec hinj hv.1 a).1, hv.2.trans (step_spec hinj hv.1 a).2⟩) ⟨hw, .refl w⟩ as

theorem permitted_step (hinj : Function.Injective h.keyed) (hw : Sound h w) {a : Action} (hp : permitted h w a = some pk) :
    ∃ s ∈ (step h w a).rows, s.pk = pk ∧ s.dispatchedAt ≠ none := by
  unfold permitted at hp
  unfold step
  cases ha : act h w a with
  | error e => rw [ha] at hp; cases hp
  | ok o =>
    rw [ha] at hp
    exact (act_advances hinj hw ha).permitted pk hp

theorem eligible_step (hinj : Function.Injective h.keyed) (hw : Sound h w) {a : Action} (hk : k ∈ eligible h w a) :
    ∃ r ∈ (step h w a).rows, r.pk = k ∧ Clear w r := by
  unfold eligible at hk
  unfold step
  cases ha : act h w a with
  | error e => rw [ha] at hk; exact absurd hk List.not_mem_nil
  | ok o =>
    rw [ha] at hk
    exact (act_advances hinj hw ha).granted k hk

/-- Once the permit of a row was handed out, no claim and no permit of any caller is granted for its booking, or to a row
with its phone, its e-mail or its customer. -/
theorem permit_issued_once (hinj : Function.Injective h.keyed) (hw : w.Fresh) (as bs : List Action) (a b : Action)
    (hp : permitted h (run (step h) w as) a = some pk) (hk : k ∈ eligible h (run (step h) w (as ++ a :: bs)) b) :
    ∃ s r, (run (step h) w (as ++ [a])).row pk = some s ∧ s.dispatchedAt ≠ none ∧
      (run (step h) w (as ++ a :: bs ++ [b])).row k = some r ∧
      r.pk ≠ s.pk ∧ r.reservationKey ≠ s.reservationKey ∧ ¬ Shares r s := by
  have hbefore := (run_keeps hinj (hw.sound (h := h)) as).1
  have hafter := (step_spec hinj hbefore a).1
  obtain ⟨hlater, hkeeps⟩ := run_keeps hinj hafter bs
  have hend := (step_spec hinj hlater b).1
  obtain ⟨s, hs, rfl, hd⟩ := permitted_step hinj hbefore hp
  rw [run_append, run_cons] at hk
  obtain ⟨r, hr, rfl, hclear⟩ := eligible_step hinj hlater hk
  obtain ⟨hpk, hkey, hshares⟩ := hclear.of_keeps hkeeps s hs hd
  refine ⟨s, r, ?_, hd, ?_, hpk.symm, hkey.symm, hshares⟩
  · rw [run_append, run_cons, run_nil]
    exact hafter.row_eq hs
  · rw [run_append, run_append, run_cons, run_cons, run_nil]
    exact hend.row_eq hr

/-! ### Two bookings of one guest -/

/-- Hashes that tell everything. -/
def plain : Hashes := ⟨fun s => "p" ++ s, fun s => "e" ++ s, fun s => s⟩

def firstBooking : Booking := ⟨⟨"0e1a0001", by decide⟩, some 501, false, false, false, none⟩

def secondBooking : Booking := ⟨⟨"0e1a0002", by decide⟩, some 502, false, false, false, none⟩

def firstRow : Uuid := ⟨"0e1a0011", by decide⟩

def secondRow : Uuid := ⟨"0e1a0012", by decide⟩

def untouched : Registry := ⟨1000, [], [], [firstBooking, secondBooking]⟩

/-- The claim of the n8n API for a booking. -/
def applied (pk : Uuid) (id : ℕ) (phone : String) : Action :=
  .apiClaim false pk ⟨.hostaway id, phone, "", "ar", "loyalty", "stay-" ++ phone⟩

def firstPermit : Action := .preflight false firstRow ⟨true, firstRow, "p+966500000001", 1⟩ "+966500000001"

/-- The guest of the other booking is another one. -/
theorem permit_issued_once_reported :
    ∃ s r, (run (step plain) untouched ([applied firstRow 501 "+966500000001"] ++ [firstPermit])).row firstRow = some s ∧
      s.dispatchedAt ≠ none ∧
      (run (step plain) untouched ([applied firstRow 501 "+966500000001"] ++ firstPermit ::
        [.apiRecord firstRow .failed "", .tick 400] ++ [applied secondRow 502 "+966500000002"])).row secondRow = some r ∧
      r.pk ≠ s.pk ∧ r.reservationKey ≠ s.reservationKey ∧ ¬ Shares r s :=
  permit_issued_once (w := untouched) (fun _ _ heq => heq) ⟨rfl, List.nodup_nil, fun _ hq => absurd hq List.not_mem_nil⟩
    [applied firstRow 501 "+966500000001"] [.apiRecord firstRow .failed "", .tick 400] firstPermit
    (applied secondRow 502 "+966500000002") (by decide +kernel) (by decide +kernel)

/-- The same guest is not invited for the other booking after the message failed. -/
example : eligible plain (run (step plain) untouched [applied firstRow 501 "+966500000001", firstPermit,
    .apiRecord firstRow .failed "", .tick 400]) (applied secondRow 502 "+966500000001") = [] := by decide +kernel

end Apartments.Invitations
