import Apartments.Loyalty.Books
import Mathlib.Logic.Relation

/-!
# The moves of the loyalty core

`Sound` is the invariant of the tables: books in order, every event of the ledger accounted for outside it, positive
holds. `Move` says once what an operation can do to the tables, in the pieces from which the operations are built;
`Move.sound` keeps the invariant across each piece.
-/

namespace Apartments.Loyalty

/-! ### The invariant -/

/-- The event has left its mark outside the ledger, so that it cannot happen again. -/
def Accounted (w : World) : Event → Prop
  | .settle pk n => ∃ b ∈ w.bookings, b.pk = pk ∧ ∃ s ∈ b.loyaltyState.settlement, n ≤ s.revision
  | .transfer sender request => ∃ m ∈ w.members, m.pk = sender ∧ (m.commandReceipts.lookup request).isSome
  | .redeem pk => ∃ b ∈ w.bookings, b.pk = pk ∧ b.loyaltyState.redemption.isSome
  | .restore pk n => ∃ b ∈ w.bookings, b.pk = pk ∧ ∃ r ∈ b.loyaltyState.redemption, amount n ≤ r.restored
  | .withdraw pk => ∃ m ∈ w.members, m.pk = pk ∧ m.status = .withdrawn

/-- No failure that is kept for review is one of a ledger constraint. -/
def LoyaltyState.Reviewed (s : LoyaltyState) : Prop := ∀ e, s.review = some (.processingError e) → e.Ordinary

structure Sound (digest : Payload → String) (w : World) : Prop where
  kept : WellKept w.ledger
  members : (w.members.map Member.pk).Nodup
  customers : (w.members.map Member.customer).Nodup
  bookings : (w.bookings.map Booking.pk).Nodup
  posted : ∀ r ∈ w.ledger, ∃ m ∈ w.members, m.pk = r.member ∧ m.customer = r.customer
  events : ∀ r ∈ w.ledger, Accounted w r.event
  holds : ∀ b ∈ w.bookings, ∀ h ∈ b.loyaltyState.hold, 0 < h.value
  settlements : ∀ b ∈ w.bookings, ∀ s ∈ b.loyaltyState.settlement,
    s.hash = digest (.facts s.facts) ∧ b.loyaltyState.referralChain.isSome
  reviews : ∀ b ∈ w.bookings, b.loyaltyState.Reviewed

/-- Nothing that accounts for an event is taken back. -/
structure LoyaltyState.Later (s s' : LoyaltyState) : Prop where
  settlement : ∀ x ∈ s.settlement, ∃ y ∈ s'.settlement, x.revision ≤ y.revision
  redemption : ∀ x ∈ s.redemption, ∃ y ∈ s'.redemption, x.restored ≤ y.restored

structure Member.Later (m m' : Member) : Prop where
  pk : m'.pk = m.pk
  customer : m'.customer = m.customer
  receipts : ∀ key, (m.commandReceipts.lookup key).isSome → (m'.commandReceipts.lookup key).isSome
  withdrawn : m.status = .withdrawn → m'.status = .withdrawn

structure World.Later (w w' : World) : Prop where
  members : ∀ m ∈ w.members, ∃ m' ∈ w'.members, m.Later m'
  bookings : ∀ b ∈ w.bookings, ∃ b' ∈ w'.bookings, b'.pk = b.pk ∧ b.loyaltyState.Later b'.loyaltyState

section
variable {digest : Payload → String} {site : Site} {w w' : World} {b : Booking} {m : Member} {pk : Uuid}

theorem LoyaltyState.Later.refl (s : LoyaltyState) : s.Later s :=
  ⟨fun x hx => ⟨x, hx, le_rfl⟩, fun x hx => ⟨x, hx, le_rfl⟩⟩

theorem LoyaltyState.Later.of_eq {s s' : LoyaltyState} (hs : s'.settlement = s.settlement)
    (hr : s'.redemption = s.redemption) : s.Later s' :=
  ⟨fun x hx => ⟨x, hs ▸ hx, le_rfl⟩, fun x hx => ⟨x, hr ▸ hx, le_rfl⟩⟩

theorem Member.Later.refl (m : Member) : m.Later m := ⟨rfl, rfl, fun _ h => h, fun h => h⟩

theorem Accounted.later (hw : w.Later w') {e : Event} (h : Accounted w e) : Accounted w' e := by
  cases e with
  | settle pk n =>
    obtain ⟨b, hb, rfl, s, hs, hn⟩ := h
    obtain ⟨b', hb', hpk, hlater⟩ := hw.bookings b hb
    obtain ⟨y, hy, hle⟩ := hlater.settlement s hs
    exact ⟨b', hb', hpk, y, hy, hn.trans hle⟩
  | transfer sender request =>
    obtain ⟨m, hm, rfl, hreceipt⟩ := h
    obtain ⟨m', hm', hlater⟩ := hw.members m hm
    exact ⟨m', hm', hlater.pk, hlater.receipts _ hreceipt⟩
  | redeem pk =>
    obtain ⟨b, hb, rfl, hr⟩ := h
    obtain ⟨r, hr⟩ := Option.isSome_iff_exists.1 hr
    obtain ⟨b', hb', hpk, hlater⟩ := hw.bookings b hb
    obtain ⟨y, hy, -⟩ := hlater.redemption r hr
    exact ⟨b', hb', hpk, Option.isSome_iff_exists.2 ⟨y, hy⟩⟩
  | restore pk n =>
    obtain ⟨b, hb, rfl, r, hr, hn⟩ := h
    obtain ⟨b', hb', hpk, hlater⟩ := hw.bookings b hb
    obtain ⟨y, hy, hle⟩ := hlater.redemption r hr
    exact ⟨b', hb', hpk, y, hy, hn.trans hle⟩
  | withdraw pk =>
    obtain ⟨m, hm, rfl, hstatus⟩ := h
    obtain ⟨m', hm', hlater⟩ := hw.members m hm
    exact ⟨m', hm', hlater.pk, hlater.withdrawn hstatus⟩

/-! ### Rewriting the tables -/

theorem Sound.booking_eq (hw : Sound digest w) (hb : b ∈ w.bookings) : w.booking b.pk = some b :=
  Table.get_eq_of_mem hw.bookings hb

theorem Sound.booking_inj (hw : Sound digest w) {b' : Booking} (hb : b ∈ w.bookings) (hb' : b' ∈ w.bookings)
    (h : b.pk = b'.pk) : b = b' := Table.eq_of_mem_of_key hw.bookings hb hb' h

theorem Sound.member_inj (hw : Sound digest w) {m' : Member} (hm : m ∈ w.members) (hm' : m' ∈ w.members)
    (h : m.pk = m'.pk) : m = m' := Table.eq_of_mem_of_key hw.members hm hm' h

theorem Sound.customer_inj (hw : Sound digest w) {m' : Member} (hm : m ∈ w.members) (hm' : m' ∈ w.members)
    (h : m.customer = m'.customer) : m = m' := Table.eq_of_mem_of_key hw.customers hm hm' h

theorem mem_bookings_putState {state : LoyaltyState} {b' : Booking} (h : b' ∈ (w.putState pk state).bookings) :
    (b' ∈ w.bookings ∧ b'.pk ≠ pk) ∨ ∃ b ∈ w.bookings, b.pk = pk ∧ b' = { b with loyaltyState := state } := by
  obtain ⟨b, hb, rfl⟩ := Table.mem_modify.1 h
  by_cases hpk : b.pk = pk
  · exact .inr ⟨b, hb, hpk, by simp [hpk]⟩
  · exact .inl ⟨by simpa [hpk] using hb, by simp [hpk]⟩

theorem putState_mem {state : LoyaltyState} (hb : b ∈ w.bookings) (hpk : b.pk = pk) :
    { b with loyaltyState := state } ∈ (w.putState pk state).bookings :=
  Table.mem_modify.2 ⟨b, hb, by simp [hpk]⟩

theorem putState_pks (state : LoyaltyState) :
    (w.putState pk state).bookings.map Booking.pk = w.bookings.map Booking.pk :=
  Table.map_key_modify fun _ h => h

/-- A state is later than that of the booking it is saved for. -/
theorem later_putState {state : LoyaltyState} (hw : Sound digest w) (hb : b ∈ w.bookings)
    (h : b.loyaltyState.Later state) : w.Later (w.putState b.pk state) where
  members m hm := ⟨m, hm, .refl m⟩
  bookings c hc := by
    by_cases hpk : c.pk = b.pk
    · obtain rfl := hw.booking_inj hc hb hpk
      exact ⟨_, putState_mem hc rfl, rfl, h⟩
    · exact ⟨c, Table.mem_modify_of_ne hc hpk, rfl, .refl _⟩

/-- Saving a state and posting the rows it accounts for keeps the tables sound. -/
theorem Sound.save (hw : Sound digest w) (hb : b ∈ w.bookings) {rows : List Row} {state : LoyaltyState}
    (hkept : WellKept (w.ledger ++ rows)) (hposted : ∀ r ∈ rows, ∃ m ∈ w.members, m.pk = r.member ∧ m.customer = r.customer)
    (hevents : ∀ r ∈ rows, Accounted (w.putState b.pk state) r.event) (hlater : b.loyaltyState.Later state)
    (hhold : ∀ h ∈ state.hold, 0 < h.value)
    (hsettled : ∀ s ∈ state.settlement, s.hash = digest (.facts s.facts) ∧ state.referralChain.isSome)
    (hreview : state.Reviewed) :
    Sound digest ({ w with ledger := w.ledger ++ rows }.putState b.pk state) where
  kept := hkept
  members := hw.members
  customers := hw.customers
  bookings := by
    show ((w.putState b.pk state).bookings.map Booking.pk).Nodup
    rw [putState_pks]
    exact hw.bookings
  posted r hr := by
    rcases List.mem_append.1 hr with hr | hr
    · exact hw.posted r hr
    · exact hposted r hr
  events r hr := by
    show Accounted (w.putState b.pk state) r.event
    rcases List.mem_append.1 hr with hr | hr
    · exact (hw.events r hr).later (later_putState hw hb hlater)
    · exact hevents r hr
  holds c hc h hh := by
    rcases mem_bookings_putState (w := w) hc with ⟨hc, -⟩ | ⟨d, -, -, rfl⟩
    · exact hw.holds c hc h hh
    · exact hhold h hh
  settlements c hc s hs := by
    rcases mem_bookings_putState (w := w) hc with ⟨hc, -⟩ | ⟨d, -, -, rfl⟩
    · exact hw.settlements c hc s hs
    · exact hsettled s hs
  reviews c hc := by
    rcases mem_bookings_putState (w := w) hc with ⟨hc, -⟩ | ⟨d, -, -, rfl⟩
    · exact hw.reviews c hc
    · exact hreview

theorem mem_members_modify {f : Member → Member} {n : ℕ} {m' : Member} (h : m' ∈ (w.modifyMember n f).members) :
    (m' ∈ w.members ∧ m'.pk ≠ n) ∨ ∃ m ∈ w.members, m.pk = n ∧ m' = f m := by
  obtain ⟨m, hm, rfl⟩ := Table.mem_modify.1 h
  by_cases hpk : m.pk = n
  · exact .inr ⟨m, hm, hpk, by simp [hpk]⟩
  · exact .inl ⟨by simpa [hpk] using hm, by simp [hpk]⟩

theorem later_modifyMember {f : Member → Member} {n : ℕ} (hf : ∀ m ∈ w.members, m.pk = n → m.Later (f m)) :
    w.Later (w.modifyMember n f) where
  members m hm := by
    by_cases hpk : m.pk = n
    · exact ⟨f m, Table.mem_modify.2 ⟨m, hm, by simp [hpk]⟩, hf m hm hpk⟩
    · exact ⟨m, Table.mem_modify_of_ne hm hpk, .refl m⟩
  bookings b hb := ⟨b, hb, rfl, .refl _⟩

/-- Rewriting a member and posting the rows it accounts for keeps the tables sound. -/
theorem Sound.modifyMember (hw : Sound digest w) {rows : List Row} {f : Member → Member} {n : ℕ}
    (hf : ∀ m : Member, m.Later (f m)) (hkept : WellKept (w.ledger ++ rows))
    (hposted : ∀ r ∈ rows, ∃ m ∈ w.members, m.pk = r.member ∧ m.customer = r.customer)
    (hevents : ∀ r ∈ rows, Accounted (w.modifyMember n f) r.event) :
    Sound digest ({ w with ledger := w.ledger ++ rows }.modifyMember n f) where
  kept := hkept
  members := by
    show ((Table.modify Member.pk w.members n f).map Member.pk).Nodup
    rw [Table.map_key_modify fun m hm => (hf m).pk.trans hm]
    exact hw.members
  customers := by
    have hmap : (Table.modify Member.pk w.members n f).map Member.customer = w.members.map Member.customer := by
      rw [Table.modify, List.map_map]
      refine List.map_congr_left fun m _ => ?_
      by_cases hm : m.pk = n <;> simp [hm, (hf m).customer]
    show ((Table.modify Member.pk w.members n f).map Member.customer).Nodup
    rw [hmap]
    exact hw.customers
  bookings := hw.bookings
  posted r hr := by
    have hlater := later_modifyMember (w := w) (n := n) fun m _ _ => hf m
    have hold : ∃ m ∈ w.members, m.pk = r.member ∧ m.customer = r.customer := by
      rcases List.mem_append.1 hr with hr | hr
      · exact hw.posted r hr
      · exact hposted r hr
    obtain ⟨m, hm, hpk, hcustomer⟩ := hold
    obtain ⟨m', hm', hl⟩ := hlater.members m hm
    exact ⟨m', hm', hl.pk.trans hpk, hl.customer.trans hcustomer⟩
  events r hr := by
    show Accounted (w.modifyMember n f) r.event
    rcases List.mem_append.1 hr with hr | hr
    · exact (hw.events r hr).later (later_modifyMember fun m _ _ => hf m)
    · exact hevents r hr
  holds := hw.holds
  settlements := hw.settlements
  reviews := hw.reviews

end

/-! ### Moves -/

/-- A booking object whose identity match may not be saved yet. -/
def Booking.identified (b : Booking) (user : Option User) : Booking :=
  { b with loyaltyState := { b.loyaltyState with identityMatch := user } }

/-- The state differs at most in what no balance depends on. -/
structure LoyaltyState.SameCore (s s' : LoyaltyState) : Prop where
  hold : s'.hold = s.hold
  redemption : s'.redemption = s.redemption
  settlement : s'.settlement = s.settlement
  referralChain : s'.referralChain = s.referralChain
  offer : s'.offer = s.offer

/-- A row that a settlement of the booking posts. -/
structure RewardRow (w : World) (b : Booking) (facts : Facts) (plan : List (Share Member)) (r : Row) : Prop where
  share : ∃ share ∈ plan, r.member = share.member.pk ∧ r.component = share.kind.component
  reservation : r.reservation = some b.pk
  eventType : r.eventType = .earn ∨ r.eventType = .adjust
  correction : 0 < r.debit → r.eventType = .adjust
  event : r.event = .settle b.pk (nextRevision b.loyaltyState)
  evidence : r.evidence = .facts facts
  booked : Booked w r

/-- A settlement of the booking object `b` by the facts read for it. -/
structure Settles (digest : Payload → String) (site : Site) (w : World) (b : Booking) (facts : Facts) (owner : Member)
    (chain : List Member) (plan : List (Share Member)) (rows : List Row) : Prop where
  read : bookingFacts site w b = .ok facts
  owned : (beneficiary b facts.offer).bind w.memberOf = some owner
  along : settledChain w b owner facts = .ok chain
  planned : rewardPlan facts.base owner chain = .ok plan
  changed : b.loyaltyState.settlement.map (·.hash) ≠ some (digest (.facts facts))
  kept : WellKept (w.ledger ++ rows)
  reward : ∀ r ∈ rows, RewardRow w b facts plan r
  nets : ∀ share ∈ plan, ∃ m, w.member share.member.pk = some m ∧
    rewarded { w with ledger := w.ledger ++ rows } b.pk m.pk share.kind.component = target m share.cents

/-- The two rows of a transfer. -/
structure Transfers (w : World) (sender recipient : Member) (reference : String) (value : Dec) (rows : List Row) :
    Prop where
  positive : 0 < value
  distinct : sender.pk ≠ recipient.pk
  funded : value ≤ available w sender
  sides : ∃ out_ in_, rows = [out_, in_] ∧
    out_.member = sender.pk ∧ out_.customer = sender.customer ∧ out_.credit = 0 ∧ out_.debit = value ∧
    out_.component = .transferOut ∧ in_.member = recipient.pk ∧ in_.customer = recipient.customer ∧
    in_.credit = value ∧ in_.debit = 0 ∧ in_.component = .transferIn ∧
    out_.counterpart = some recipient.pk ∧ in_.counterpart = some sender.pk
  events : ∀ r ∈ rows, r.event = .transfer sender.pk reference ∧ r.eventType = .transfer ∧ r.reservation = none
  grouped : ∀ r ∈ rows, r.operationGroup = group w
  booked : ∀ r ∈ rows, Booked w r
  kept : WellKept (w.ledger ++ rows)

def Member.answer (key : String) (r : Receipt) (m : Member) : Member :=
  { m with commandReceipts := (key, r) :: m.commandReceipts }

/-- The link of the member who joins is made for the inviter, if there is one, and its current link. -/
def Joins (w : World) (m : Member) (link : Referral) : Prop :=
  ∃ linked : Option (Member × Referral), (∀ p ∈ linked, p.1 ∈ w.members ∧ currentLink w p.1.pk = some p.2) ∧
    link = newReferral m.pk (nextBranch w (linked.map (·.1.pk))) linked

/-- The members of the branch that moves below its new inviter. -/
def branchOf (links : List Referral) (member : ℕ) : List ℕ := descendants links links.length [member]

/-- The revisions by which `link_members` moves a branch. -/
def Relinks (site : Site) (w : World) (q : LinkRequest) (revisions : List ReferralRevision) : Prop :=
  let links := w.referrals.map (current w)
  ∃ child parent, validatePair site w q.member q.inviter links = .ok (child, parent) ∧
    revisions = ((links.filter fun l => (branchOf links q.member).contains l.member).insertionSort fun a b =>
      a.depth ≤ b.depth).map (movedRevision q child parent (nextBranch w (some q.inviter)))

/-- What one part of a loyalty operation does to the tables; `P` holds of every booking that is settled by facts. -/
inductive Move (digest : Payload → String) (site : Site) (P : World → Booking → Facts → Prop) : World → World → Prop
  | joined {w : World} {m : Member} {link : Referral} (hpk : ∀ x ∈ w.members, x.pk ≠ m.pk)
      (hcustomer : ∀ x ∈ w.members, x.customer ≠ m.customer) (hnumber : m.number = "LSA-M" ++ Dec.padded 6 m.pk)
      (hlink : Joins w m link) :
      Move digest site P w { w with members := w.members ++ [m], referrals := w.referrals ++ [link] }
  | linked {w : World} {q : LinkRequest} {revisions : List ReferralRevision} (hlinks : Relinks site w q revisions) :
      Move digest site P w { w with revisions := w.revisions ++ revisions }
  | attached {w : World} {b : Booking} {user : User} (hb : b ∈ w.bookings) (hnone : b.customer = none) :
      Move digest site P w (w.setCustomer b.pk user)
  | noted {w : World} {b : Booking} {state : LoyaltyState} (hb : b ∈ w.bookings)
      (hcore : b.loyaltyState.SameCore state) (hreview : state.Reviewed) : Move digest site P w (w.putState b.pk state)
  | answered {w : World} {pk : ℕ} {key : String} {r : Receipt} :
      Move digest site P w (w.modifyMember pk (Member.answer key r))
  | settled {w : World} {b : Booking} {user : Option User} {facts : Facts} {owner : Member} {chain : List Member}
      {plan : List (Share Member)} {rows : List Row} (hb : b ∈ w.bookings)
      (h : Settles digest site w (b.identified user) facts owner chain plan rows) (hP : P w (b.identified user) facts) :
      Move digest site P w ({ w with ledger := w.ledger ++ rows }.putState b.pk
        (settledState digest facts chain (b.identified user).loyaltyState))
  | transferred {w : World} {sender recipient : Member} {reference : String} {value : Dec} {rows : List Row}
      {r : Receipt} (hs : sender ∈ w.members) (hr : recipient ∈ w.members)
      (h : Transfers w sender recipient reference value rows) :
      Move digest site P w ({ w with ledger := w.ledger ++ rows }.modifyMember sender.pk (Member.answer reference r))
  | held {w : World} {b : Booking} {m : Member} {value : Dec} {reference : String} (hb : b ∈ w.bookings)
      (hm : m ∈ w.members) (hcustomer : b.customer = some m.customer) (hnone : b.loyaltyState.hold = none)
      (hpos : 0 < value) (hfunded : value ≤ available w m) :
      Move digest site P w (w.putState b.pk { b.loyaltyState with hold := some ⟨value, m.pk, reference⟩ })
  | released {w : World} {b : Booking} (hb : b ∈ w.bookings) :
      Move digest site P w (w.putState b.pk { b.loyaltyState with hold := none, checkoutFrozen := false })
  | redeemed {w : World} {b : Booking} {m : Member} {h : Hold} {reference tree : String} (hb : b ∈ w.bookings)
      (hm : m ∈ w.members) (hcustomer : b.customer = some m.customer) (hhold : b.loyaltyState.hold = some h)
      (hmember : h.member = m.pk) (hnone : b.loyaltyState.redemption = none)
      (hkept : WellKept (w.ledger ++ [postedRow w m tree (redeemPosting w b.pk reference h.value)]))
      (hbooked : Booked w (postedRow w m tree (redeemPosting w b.pk reference h.value))) :
      Move digest site P w ({ w with
        ledger := w.ledger ++ [postedRow w m tree (redeemPosting w b.pk reference h.value)] }.putState b.pk
        { b.loyaltyState with hold := none, redemption := some ⟨h.value, nextSequence w, 0⟩ })
  | restored {w : World} {b : Booking} {m : Member} {r : Redemption} {cents : ℕ} {reference tree : String}
      (hb : b ∈ w.bookings) (hm : m ∈ w.members) (hcustomer : b.customer = some m.customer)
      (hr : b.loyaltyState.redemption = some r) (hmore : r.restored < amount cents) (hmax : amount cents ≤ r.value)
      (hkept : WellKept (w.ledger ++ [postedRow w m tree (restorePosting w b.pk r cents reference)]))
      (hbooked : Booked w (postedRow w m tree (restorePosting w b.pk r cents reference))) :
      Move digest site P w ({ w with
        ledger := w.ledger ++ [postedRow w m tree (restorePosting w b.pk r cents reference)] }.putState b.pk
        { b.loyaltyState with redemption := some { r with restored := amount cents } })
  | withdrawn {w : World} {m : Member} {rows : List Row} (hm : m ∈ w.members)
      (hfree : ∀ b ∈ w.bookings, b.customer = some m.customer → b.loyaltyState.hold = none)
      (hrows : (rows = [] ∧ Dec.quantizeEven 2 (balance w m.pk) ≤ 0) ∨ ∃ reference tree,
        rows = [postedRow w m tree (closingPosting w m.pk reference (Dec.quantizeEven 2 (balance w m.pk)))] ∧
        Dec.quantizeEven 2 (balance w m.pk) ≤ available w m)
      (hkept : WellKept (w.ledger ++ rows)) (hbooked : ∀ r ∈ rows, Booked w r) :
      Move digest site P w ({ w with ledger := w.ledger ++ rows }.modifyMember m.pk fun x =>
        { x with status := .withdrawn })

section
variable {digest : Payload → String} {site : Site} {P : World → Booking → Facts → Prop} {w w' : World}

theorem Member.later_answer (key : String) (r : Receipt) (m : Member) : m.Later (m.answer key r) := by
  refine ⟨rfl, rfl, fun k hk => ?_, fun h => h⟩
  show ((( key, r) :: m.commandReceipts).lookup k).isSome
  rw [List.lookup_cons]
  split
  · rfl
  · exact hk

theorem Sound.putState (hw : Sound digest w) {b : Booking} (hb : b ∈ w.bookings) {state : LoyaltyState}
    (hlater : b.loyaltyState.Later state) (hhold : ∀ h ∈ state.hold, 0 < h.value)
    (hsettled : ∀ s ∈ state.settlement, s.hash = digest (.facts s.facts) ∧ state.referralChain.isSome)
    (hreview : state.Reviewed) : Sound digest (w.putState b.pk state) := by
  have hnil : WellKept (w.ledger ++ []) := by simpa using hw.kept
  simpa using hw.save hb hnil (by simp) (by simp) hlater hhold hsettled hreview

/-- The state is later than one that has not been settled as often. -/
theorem later_settledState (facts : Facts) (chain : List Member) (s : LoyaltyState) :
    s.Later (settledState digest facts chain s) := by
  refine ⟨fun x hx => ⟨_, rfl, ?_⟩, fun x hx => ⟨x, hx, le_rfl⟩⟩
  have hx' : s.settlement = some x := hx
  show x.revision ≤ nextRevision s
  simp [nextRevision, hx']

theorem Sound.setCustomer (hw : Sound digest w) (pk : Uuid) (user : User) : Sound digest (w.setCustomer pk user) := by
  have hmem : ∀ b ∈ (w.setCustomer pk user).bookings, ∃ c ∈ w.bookings, b.pk = c.pk ∧ b.loyaltyState = c.loyaltyState := by
    intro b hb
    obtain ⟨c, hc, rfl⟩ := Table.mem_modify.1 hb
    exact ⟨c, hc, by split <;> rfl, by split <;> rfl⟩
  have hlater : w.Later (w.setCustomer pk user) := by
    refine ⟨fun m hm => ⟨m, hm, .refl m⟩, fun b hb => ⟨_, Table.mem_modify.2 ⟨b, hb, rfl⟩, ?_⟩⟩
    split <;> exact ⟨rfl, .refl _⟩
  refine { hw with
    bookings := ?_, events := fun r hr => (hw.events r hr).later hlater, holds := ?_, settlements := ?_, reviews := ?_ }
  · show ((w.setCustomer pk user).bookings.map Booking.pk).Nodup
    have hmap : (w.setCustomer pk user).bookings.map Booking.pk = w.bookings.map Booking.pk :=
      Table.map_key_modify fun _ h => h
    rw [hmap]
    exact hw.bookings
  · intro b hb h hh
    obtain ⟨c, hc, -, hstate⟩ := hmem b hb
    exact hw.holds c hc h (hstate ▸ hh)
  · intro b hb s hs
    obtain ⟨c, hc, -, hstate⟩ := hmem b hb
    rw [hstate] at hs ⊢
    exact hw.settlements c hc s hs
  · intro b hb
    obtain ⟨c, hc, -, hstate⟩ := hmem b hb
    rw [hstate]
    exact hw.reviews c hc

/-- A move keeps the tables sound. -/
theorem Move.sound (h : Move digest site P w w') (hw : Sound digest w) : Sound digest w' := by
  have hnil : WellKept (w.ledger ++ []) := by simpa using hw.kept
  cases h with
  | @joined m link hpk hcustomer =>
    have hlater : w.Later { w with members := w.members ++ [m], referrals := w.referrals ++ [link] } :=
      ⟨fun x hx => ⟨x, by simp [hx], .refl x⟩, fun b hb => ⟨b, hb, rfl, .refl _⟩⟩
    refine { hw with members := ?_, customers := ?_, posted := fun r hr => ?_, events := fun r hr => ?_ }
    · rw [List.map_append, List.nodup_append]
      exact ⟨hw.members, by simp, by simpa using hpk⟩
    · rw [List.map_append, List.nodup_append]
      exact ⟨hw.customers, by simp, by simpa using hcustomer⟩
    · obtain ⟨x, hx, h⟩ := hw.posted r hr
      exact ⟨x, by simp [hx], h⟩
    · exact (hw.events r hr).later hlater
  | linked =>
    have hlater : w.Later { w with revisions := _ } := ⟨fun m hm => ⟨m, hm, .refl m⟩, fun b hb => ⟨b, hb, rfl, .refl _⟩⟩
    exact { hw with events := fun r hr => (hw.events r hr).later hlater }
  | attached hb hnone => exact hw.setCustomer _ _
  | @noted b state hb hcore hreview =>
    refine hw.putState hb (.of_eq hcore.settlement hcore.redemption) ?_ ?_ hreview
    · rw [hcore.hold]
      exact hw.holds b hb
    · rw [hcore.settlement, hcore.referralChain]
      exact hw.settlements b hb
  | @answered pk key r =>
    simpa using hw.modifyMember (n := pk) (Member.later_answer key r) hnil (by simp) (by simp)
  | @settled b user facts owner chain plan rows hb h hP =>
    have hlater := @later_settledState digest facts chain (b.identified user).loyaltyState
    refine hw.save hb h.kept (fun r hr => (h.reward r hr).booked.posted) (fun r hr => ?_)
      ⟨hlater.settlement, hlater.redemption⟩ (hw.holds b hb) ?_ nofun
    · rw [(h.reward r hr).event]
      exact ⟨_, putState_mem hb rfl, rfl, _, rfl, le_rfl⟩
    · rintro s ⟨⟩
      exact ⟨rfl, rfl⟩
  | @transferred sender recipient reference value rows r hs hr h =>
    refine hw.modifyMember (Member.later_answer reference r) h.kept (fun x hx => ?_) (fun x hx => ?_)
    · obtain ⟨out_, in_, rfl, hout, hout', -, -, -, hin, hin', -⟩ := h.sides
      rcases List.mem_pair.1 hx with rfl | rfl
      · exact ⟨sender, hs, hout.symm, hout'.symm⟩
      · exact ⟨recipient, hr, hin.symm, hin'.symm⟩
    · rw [(h.events x hx).1]
      refine ⟨sender.answer reference r, Table.mem_modify.2 ⟨sender, hs, by simp⟩, rfl, ?_⟩
      simp [Member.answer]
  | @held b m value reference hb hm hcustomer hnone hpos hfunded =>
    refine hw.putState hb (.of_eq rfl rfl) ?_ (hw.settlements b hb) (hw.reviews b hb)
    rintro h ⟨⟩
    exact hpos
  | released hb =>
    refine hw.putState hb (.of_eq rfl rfl) ?_ (hw.settlements _ hb) (hw.reviews _ hb)
    rintro h ⟨⟩
  | @redeemed b m h reference tree hb hm hcustomer hhold hmember hnone hkept _ =>
    refine hw.save hb hkept ?_ ?_ ⟨fun x hx => ⟨x, hx, le_rfl⟩, ?_⟩ ?_ (hw.settlements b hb) (hw.reviews b hb)
    · rintro r hr
      rw [List.mem_singleton.1 hr]
      exact ⟨m, hm, rfl, rfl⟩
    · rintro r hr
      rw [List.mem_singleton.1 hr]
      exact ⟨_, putState_mem hb rfl, rfl, rfl⟩
    · rintro x hx
      rw [hnone] at hx
      cases hx
    · rintro x ⟨⟩
  | @restored b m r cents reference tree hb hm hcustomer hr hmore hmax hkept _ =>
    refine hw.save hb hkept ?_ ?_ ⟨fun x hx => ⟨x, hx, le_rfl⟩, ?_⟩ (hw.holds b hb) (hw.settlements b hb) (hw.reviews b hb)
    · rintro x hx
      rw [List.mem_singleton.1 hx]
      exact ⟨m, hm, rfl, rfl⟩
    · rintro x hx
      rw [List.mem_singleton.1 hx]
      exact ⟨_, putState_mem hb rfl, rfl, _, rfl, le_rfl⟩
    · rintro x hx
      rw [hr] at hx
      cases hx
      exact ⟨_, rfl, hmore.le⟩
  | @withdrawn m rows hm hfree hrows hkept _ =>
    refine hw.modifyMember (fun x => ⟨rfl, rfl, fun _ h => h, fun _ => rfl⟩) hkept ?_ ?_ <;>
      rintro x hx <;> rcases hrows with ⟨rfl, -⟩ | ⟨reference, tree, rfl, -⟩
    · simp at hx
    · rw [List.mem_singleton.1 hx]
      exact ⟨m, hm, rfl, rfl⟩
    · simp at hx
    · rw [List.mem_singleton.1 hx]
      exact ⟨_, Table.mem_modify.2 ⟨m, hm, rfl⟩, by simp, by simp⟩

/-- The tables that a sequence of moves leads to. -/
abbrev Leads (digest : Payload → String) (site : Site) (P : World → Booking → Facts → Prop) : World → World → Prop :=
  Relation.ReflTransGen (Move digest site P)

theorem Leads.sound (h : Leads digest site P w w') (hw : Sound digest w) : Sound digest w' := by
  induction h with
  | refl => exact hw
  | tail _ hmove ih => exact hmove.sound ih

/-- What every move between sound tables preserves holds after an operation. -/
theorem Leads.inv {I : World → Prop} (hI : ∀ v v', Sound digest v → Move digest site P v v' → I v → I v')
    (h : Leads digest site P w w') (hw : Sound digest w) (h0 : I w) : I w' := by
  induction h with
  | refl => exact h0
  | tail hleads hmove ih => exact hI _ _ (Leads.sound hleads hw) hmove ih

end

end Apartments.Loyalty
