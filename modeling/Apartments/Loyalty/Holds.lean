import Apartments.Loyalty.Chain

/-!
# Points that are held

What a member's bookings hold is on the member's account, unless a correction has taken points from it. Every move keeps
that: what it takes from the account was free, or was the hold itself.
-/

namespace Apartments.Loyalty

open Payments Hostaway

/-- A correction has taken points from the member. -/
def Corrected (w : World) (member : ℕ) : Prop := ∃ r ∈ w.ledger, r.member = member ∧ r.eventType = .adjust ∧ 0 < r.debit

instance (w : World) (member : ℕ) : Decidable (Corrected w member) := inferInstanceAs (Decidable (∃ r ∈ w.ledger, _))

/-- The action gives a booking that holds points another customer. -/
def World.movesHold (w : World) : Action → Bool
  | .record pk c => (w.booking pk).any fun b => b.loyaltyState.hold.isSome && decide (c.customer ≠ b.customer)
  | .operate .. | .book .. => false

/-- Every hold is one of the member whose booking it is, and is on the account of an uncorrected member. -/
structure Backed (w : World) : Prop where
  owned : ∀ b ∈ w.bookings, ∀ x ∈ b.loyaltyState.hold, ∃ m ∈ w.members, m.pk = x.member ∧ b.customer = some m.customer
  covered : ∀ m ∈ w.members, ¬ Corrected w m.pk → heldPoints w m.customer ≤ balance w m.pk

section
variable {digest : Payload → String} {site : Site} {P : World → Booking → Facts → Prop} {w w' : World} {b : Booking}
  {m : Member} {rows : List Row}

/-! ### Balances and holds after a change -/

theorem balance_append (w : World) (rows : List Row) (member : ℕ) :
    balance { w with ledger := w.ledger ++ rows } member = balance w member + Journal.own columns member rows :=
  Table.total_append

theorem own_singleton (r : Row) (member : ℕ) :
    Journal.own columns member [r] = if r.member = member then r.credit - r.debit else 0 := by
  rw [Journal.own, Table.total_cons, Table.total_nil, add_zero]
  by_cases h : r.member = member <;> simp [columns, h]

theorem own_eq_zero {member : ℕ} (h : ∀ r ∈ rows, r.member ≠ member) : Journal.own columns member rows = 0 :=
  Table.total_eq_zero fun r hr => decide_eq_false (h r hr)

theorem heldPoints_putState (hw : Sound digest w) (hb : b ∈ w.bookings) (state : LoyaltyState) (customer : User) :
    heldPoints (w.putState b.pk state) customer = heldPoints w customer -
      (if b.customer = some customer then b.heldValue else 0) +
      (if b.customer = some customer then { b with loyaltyState := state }.heldValue else 0) := by
  have htotal := Table.total_modify (p := fun b => b.customer == some customer) (v := Booking.heldValue)
    (f := fun b => { b with loyaltyState := state }) hw.bookings (hw.booking_eq hb)
  simp only [beq_iff_eq] at htotal
  exact htotal

/-- A state with the same hold. -/
theorem heldPoints_same (hw : Sound digest w) (hb : b ∈ w.bookings) (state : LoyaltyState)
    (hhold : state.hold = b.loyaltyState.hold) (customer : User) :
    heldPoints (w.putState b.pk state) customer = heldPoints w customer := by
  have hvalue : { b with loyaltyState := state }.heldValue = b.heldValue := by rw [Booking.heldValue, Booking.heldValue, hhold]
  rw [heldPoints_putState hw hb, hvalue, sub_add_cancel]

theorem Sound.heldValue_nonneg (hw : Sound digest w) (hb : b ∈ w.bookings) : 0 ≤ b.heldValue := by
  rw [Booking.heldValue]
  cases hh : b.loyaltyState.hold with
  | none => exact le_rfl
  | some x => exact (hw.holds b hb x hh).le

/-! ### Keeping the holds backed -/

/-- The accounts of the members after a change. -/
structure SamePeople (w w' : World) : Prop where
  before : ∀ m' ∈ w'.members, ∃ m ∈ w.members, m.pk = m'.pk ∧ m.customer = m'.customer
  after : ∀ m ∈ w.members, ∃ m' ∈ w'.members, m'.pk = m.pk ∧ m'.customer = m.customer

theorem SamePeople.of_eq (h : w'.members = w.members) : SamePeople w w' := by
  constructor <;> rw [h]
  · exact fun m hm => ⟨m, hm, rfl, rfl⟩
  · exact fun m hm => ⟨m, hm, rfl, rfl⟩

theorem SamePeople.modify {f : Member → Member} {n : ℕ} (h : w'.members = (w.modifyMember n f).members)
    (hf : ∀ m : Member, m.Later (f m)) : SamePeople w w' where
  before m' hm' := by
    rw [h] at hm'
    rcases mem_members_modify hm' with ⟨hm, -⟩ | ⟨m, hm, -, rfl⟩
    · exact ⟨m', hm, rfl, rfl⟩
    · exact ⟨m, hm, (hf m).pk.symm, (hf m).customer.symm⟩
  after m hm := by
    obtain ⟨m', hm', hlater⟩ := (later_modifyMember (n := n) fun m _ _ => hf m).members m hm
    rw [h]
    exact ⟨m', hm', hlater.pk, hlater.customer⟩

theorem Backed.change (h : Backed w) (hp : SamePeople w w') (hledger : w'.ledger = w.ledger ++ rows)
    (howned : ∀ b ∈ w'.bookings, ∀ x ∈ b.loyaltyState.hold, ∃ m ∈ w.members, m.pk = x.member ∧ b.customer = some m.customer)
    (hcovered : ∀ m ∈ w.members, ¬ Corrected w' m.pk → heldPoints w m.customer ≤ balance w m.pk →
      heldPoints w' m.customer ≤ balance w' m.pk) : Backed w' where
  owned b hb x hx := by
    obtain ⟨m, hm, hpk, hcustomer⟩ := howned b hb x hx
    obtain ⟨m', hm', hpk', hcustomer'⟩ := hp.after m hm
    exact ⟨m', hm', hpk'.trans hpk, hcustomer.trans (congrArg some hcustomer'.symm)⟩
  covered m' hm' hfree := by
    obtain ⟨m, hm, hpk, hcustomer⟩ := hp.before m' hm'
    rw [← hpk] at hfree
    rw [← hpk, ← hcustomer]
    refine hcovered m hm hfree (h.covered m hm ?_)
    rintro ⟨r, hr, hmember⟩
    exact hfree ⟨r, hledger ▸ List.mem_append_left _ hr, hmember⟩

theorem Backed.keep (h : Backed w) (hp : SamePeople w w') (hledger : w'.ledger = w.ledger)
    (howned : ∀ b ∈ w'.bookings, ∀ x ∈ b.loyaltyState.hold, ∃ m ∈ w.members, m.pk = x.member ∧ b.customer = some m.customer)
    (hcovered : ∀ m ∈ w.members, ¬ Corrected w' m.pk → heldPoints w m.customer ≤ balance w m.pk →
      heldPoints w' m.customer ≤ balance w' m.pk) : Backed w' :=
  h.change hp (hledger.trans (List.append_nil _).symm) howned hcovered

/-- What a saved state holds. -/
theorem Backed.owned_putState (h : Backed w) {state : LoyaltyState}
    (hstate : ∀ x ∈ state.hold, ∃ m ∈ w.members, m.pk = x.member ∧ b.customer = some m.customer) (hw : Sound digest w)
    (hb : b ∈ w.bookings) : ∀ b' ∈ (w.putState b.pk state).bookings, ∀ x ∈ b'.loyaltyState.hold,
      ∃ m ∈ w.members, m.pk = x.member ∧ b'.customer = some m.customer := by
  intro b' hb' x hx
  rcases mem_bookings_putState hb' with ⟨hold, -⟩ | ⟨c, hc, hpk, rfl⟩
  · exact h.owned b' hold x hx
  · obtain rfl := hw.booking_inj hc hb hpk
    exact hstate x hx

/-! ### Moves -/

theorem Backed.joined (h : Backed w) (hw : Sound digest w) {link : Referral} (hpk : ∀ x ∈ w.members, x.pk ≠ m.pk)
    (hcustomer : ∀ x ∈ w.members, x.customer ≠ m.customer) :
    Backed { w with members := w.members ++ [m], referrals := w.referrals ++ [link] } where
  owned b hb x hx := by
    obtain ⟨m', hm', hown⟩ := h.owned b hb x hx
    exact ⟨m', List.mem_append_left _ hm', hown⟩
  covered m' hm' hfree := by
    rcases List.mem_append.1 hm' with hm' | hm'
    · exact h.covered m' hm' hfree
    · -- the new member has neither rows nor holds
      obtain rfl := List.mem_singleton.1 hm'
      have hheld : heldPoints w m'.customer ≤ 0 := by
        refine (Table.total_eq_zero_of fun b hb hof => ?_).le
        rw [Booking.heldValue]
        cases hh : b.loyaltyState.hold with
        | none => rfl
        | some x =>
          obtain ⟨m₀, hm₀, -, hb₀⟩ := h.owned b hb x hh
          rw [beq_iff_eq, hb₀] at hof
          exact absurd (Option.some.inj hof) (hcustomer m₀ hm₀)
      have hbalance : balance w m'.pk = 0 := by
        refine own_eq_zero fun r hr hmember => ?_
        obtain ⟨m₀, hm₀, hpk₀, -⟩ := hw.posted r hr
        exact hpk m₀ hm₀ (hpk₀.trans hmember)
      exact hheld.trans hbalance.ge

theorem Backed.attached (h : Backed w) (hw : Sound digest w) (hb : b ∈ w.bookings) (hnone : b.customer = none)
    (user : User) : Backed (w.setCustomer b.pk user) := by
  -- a booking of nobody holds nothing
  have hhold : b.loyaltyState.hold = none := by
    by_contra hsome
    obtain ⟨x, hx⟩ := Option.ne_none_iff_exists'.1 hsome
    obtain ⟨_, -, -, hcustomer⟩ := h.owned b hb x hx
    rw [hnone] at hcustomer
    cases hcustomer
  have hheld : ∀ customer, heldPoints (w.setCustomer b.pk user) customer = heldPoints w customer := by
    intro customer
    have htotal := Table.total_modify (p := fun b => b.customer == some customer) (v := Booking.heldValue)
      (f := fun b => { b with customer := some user }) hw.bookings (hw.booking_eq hb)
    have hzero : b.heldValue = 0 := by rw [Booking.heldValue, hhold]; rfl
    have hzero' : { b with customer := some user }.heldValue = 0 := hzero
    rw [hzero, hzero', ite_self, ite_self, sub_zero, add_zero] at htotal
    exact htotal
  refine h.keep (.of_eq rfl) rfl ?_ ?_
  · intro b' hb' x hx
    obtain ⟨c, hc, rfl⟩ := Table.mem_modify.1 hb'
    by_cases hpk : c.pk = b.pk
    · obtain rfl := hw.booking_inj hc hb hpk
      rw [if_pos rfl] at hx
      rw [show ({ c with customer := some user } : Booking).loyaltyState.hold = none from hhold] at hx
      cases hx
    · rw [if_neg hpk] at hx ⊢
      exact h.owned c hc x hx
  · intro m _ _ hle
    rw [hheld]
    exact hle

/-- Rows that take nothing from an uncorrected member. -/
theorem own_nonneg {member : ℕ} (hsides : ∀ r ∈ rows, r.onePostingSide) (hdebit : ∀ r ∈ rows, r.member = member → ¬ 0 < r.debit) :
    0 ≤ Journal.own columns member rows := by
  refine Table.total_nonneg fun r hr hof => ?_
  have hmember : r.member = member := of_decide_eq_true hof
  show 0 ≤ r.credit - r.debit
  rcases hsides r hr with ⟨hc, hd⟩ | ⟨hd, -⟩
  · rw [hd, sub_zero]
    exact hc.le
  · exact absurd hd (hdebit r hr hmember)

theorem Backed.settled (h : Backed w) (hw : Sound digest w) (hb : b ∈ w.bookings) {user : Option User} {facts : Facts}
    {owner : Member} {chain : List Member} {plan : List (Share Member)}
    (hs : Settles digest site w (b.identified user) facts owner chain plan rows) :
    Backed ({ w with ledger := w.ledger ++ rows }.putState b.pk
      (settledState digest facts chain (b.identified user).loyaltyState)) := by
  refine h.change (.of_eq rfl) rfl (h.owned_putState (h.owned b hb) hw hb) ?_
  intro m hm hfree hle
  have hheld := heldPoints_same hw hb (settledState digest facts chain (b.identified user).loyaltyState) rfl m.customer
  have hgain : 0 ≤ Journal.own columns m.pk rows := by
    refine own_nonneg (fun r hr => hs.kept.sides r (List.mem_append_right _ hr)) fun r hr hmember hd => ?_
    exact hfree ⟨r, List.mem_append_right _ hr, hmember, (hs.reward r hr).correction hd, hd⟩
  have hbalance := balance_append w rows m.pk
  show heldPoints (w.putState b.pk _) m.customer ≤ balance { w with ledger := w.ledger ++ rows } m.pk
  rw [hheld, hbalance]
  linarith

theorem Backed.transferred (h : Backed w) {sender recipient : Member} {reference : String} {value : Dec} {answer : Receipt}
    (hw : Sound digest w) (hsender : sender ∈ w.members) (ht : Transfers w sender recipient reference value rows) :
    Backed ({ w with ledger := w.ledger ++ rows }.modifyMember sender.pk (Member.answer reference answer)) := by
  refine h.change (.modify rfl (Member.later_answer reference answer)) rfl h.owned ?_
  intro m hm _ hle
  obtain ⟨out_, in_, rfl, hout, -, hcredit, hdebit, -, hin, -, hcredit', hdebit', -⟩ := ht.sides
  have hrows : Journal.own columns m.pk [out_, in_] =
      (if sender.pk = m.pk then -value else 0) + if recipient.pk = m.pk then value else 0 := by
    have hsplit : Journal.own columns m.pk ([out_] ++ [in_]) =
        Journal.own columns m.pk [out_] + Journal.own columns m.pk [in_] := Table.total_append
    rw [show [out_, in_] = [out_] ++ [in_] from rfl, hsplit, own_singleton, own_singleton, hout, hin, hcredit, hdebit, hcredit', hdebit', zero_sub, sub_zero]
  have hpositive := ht.positive
  show heldPoints w m.customer ≤ balance { w with ledger := w.ledger ++ [out_, in_] } m.pk
  rw [balance_append, hrows]
  by_cases hs : sender.pk = m.pk
  · obtain rfl := hw.member_inj hsender hm hs
    have hfunded := le_balance_of_le_available hpositive ht.funded
    rw [if_pos rfl, if_neg ht.distinct.symm]
    linarith
  · rw [if_neg hs]
    split
    · linarith
    · linarith

theorem Backed.held (h : Backed w) (hw : Sound digest w) (hb : b ∈ w.bookings) (hm : m ∈ w.members)
    (hcustomer : b.customer = some m.customer) (hnone : b.loyaltyState.hold = none) {value : Dec} {reference : String}
    (hpos : 0 < value) (hfunded : value ≤ available w m) :
    Backed (w.putState b.pk { b.loyaltyState with hold := some ⟨value, m.pk, reference⟩ }) := by
  refine h.keep (.of_eq rfl) rfl (h.owned_putState ?_ hw hb) ?_
  · rintro x ⟨⟩
    exact ⟨m, hm, rfl, hcustomer⟩
  intro m' hm' _ hle
  show heldPoints (w.putState b.pk _) m'.customer ≤ balance w m'.pk
  rw [heldPoints_putState hw hb]
  have hbefore : b.heldValue = 0 := by rw [Booking.heldValue, hnone]; rfl
  rw [hbefore, ite_self, sub_zero]
  by_cases hsame : b.customer = some m'.customer
  · have hmm : m = m' := hw.customer_inj hm hm' (Option.some.inj (hcustomer.symm.trans hsame))
    subst hmm
    have := le_balance_of_le_available hpos hfunded
    rw [if_pos hsame]
    show heldPoints w m.customer + value ≤ balance w m.pk
    linarith
  · rw [if_neg hsame, add_zero]
    exact hle

/-- A hold that is given up. -/
theorem heldPoints_drop (hw : Sound digest w) (hb : b ∈ w.bookings) (state : LoyaltyState) (hnone : state.hold = none)
    (customer : User) : heldPoints (w.putState b.pk state) customer =
      heldPoints w customer - if b.customer = some customer then b.heldValue else 0 := by
  have hafter : { b with loyaltyState := state }.heldValue = 0 := by rw [Booking.heldValue, hnone]; rfl
  rw [heldPoints_putState hw hb, hafter, ite_self, add_zero]

theorem Backed.released (h : Backed w) (hw : Sound digest w) (hb : b ∈ w.bookings) :
    Backed (w.putState b.pk { b.loyaltyState with hold := none, checkoutFrozen := false }) := by
  refine h.keep (.of_eq rfl) rfl (h.owned_putState nofun hw hb) ?_
  intro m _ _ hle
  show heldPoints (w.putState b.pk _) m.customer ≤ balance w m.pk
  have := hw.heldValue_nonneg hb
  rw [heldPoints_drop hw hb _ rfl]
  split
  · linarith
  · linarith

theorem Backed.redeemed (h : Backed w) (hw : Sound digest w) (hb : b ∈ w.bookings) (hm : m ∈ w.members)
    (hcustomer : b.customer = some m.customer) {x : Hold} (hhold : b.loyaltyState.hold = some x) (tree reference : String)
    (redemption : Redemption) :
    Backed ({ w with ledger := w.ledger ++ [postedRow w m tree (redeemPosting w b.pk reference x.value)] }.putState b.pk
      { b.loyaltyState with hold := none, redemption := some redemption }) := by
  refine h.change (.of_eq rfl) rfl (h.owned_putState nofun hw hb) ?_
  intro m' hm' _ hle
  have hvalue : b.heldValue = x.value := by rw [Booking.heldValue, hhold]; rfl
  have hheld := heldPoints_drop hw hb { b.loyaltyState with hold := none, redemption := some redemption } rfl m'.customer
  show heldPoints (w.putState b.pk _) m'.customer ≤ balance { w with ledger := w.ledger ++ [_] } m'.pk
  rw [hheld, balance_append, own_singleton, hvalue]
  show _ ≤ balance w m'.pk + if m.pk = m'.pk then 0 - x.value else 0
  by_cases hpk : m.pk = m'.pk
  · -- the hold pays for itself
    obtain rfl := hw.member_inj hm hm' hpk
    rw [if_pos hcustomer, if_pos rfl]
    linarith
  · have hother : b.customer ≠ some m'.customer := by
      intro hsame
      exact hpk (congrArg Member.pk (hw.customer_inj hm hm' (Option.some.inj (hcustomer.symm.trans hsame))))
    rw [if_neg hother, if_neg hpk]
    linarith

theorem Backed.restored (h : Backed w) (hw : Sound digest w) (hb : b ∈ w.bookings) {r : Redemption} {cents : ℕ}
    (hmore : r.restored < amount cents) (tree reference : String) (redemption : Redemption) :
    Backed ({ w with ledger := w.ledger ++ [postedRow w m tree (restorePosting w b.pk r cents reference)] }.putState b.pk
      { b.loyaltyState with redemption := some redemption }) := by
  refine h.change (.of_eq rfl) rfl (h.owned_putState (h.owned b hb) hw hb) ?_
  intro m' _ _ hle
  have hheld := heldPoints_same hw hb { b.loyaltyState with redemption := some redemption } rfl m'.customer
  show heldPoints (w.putState b.pk _) m'.customer ≤ balance { w with ledger := w.ledger ++ [_] } m'.pk
  rw [hheld, balance_append, own_singleton]
  show _ ≤ balance w m'.pk + if m.pk = m'.pk then amount cents - r.restored - 0 else 0
  split
  · linarith
  · linarith

theorem Backed.withdrawn (h : Backed w) (hw : Sound digest w) (hm : m ∈ w.members)
    (hrows : (rows = [] ∧ Dec.quantizeEven 2 (balance w m.pk) ≤ 0) ∨ ∃ reference tree,
      rows = [postedRow w m tree (closingPosting w m.pk reference (Dec.quantizeEven 2 (balance w m.pk)))] ∧
        Dec.quantizeEven 2 (balance w m.pk) ≤ available w m) (hkept : WellKept (w.ledger ++ rows)) :
    Backed ({ w with ledger := w.ledger ++ rows }.modifyMember m.pk fun x => { x with status := .withdrawn }) := by
  refine h.change (.modify rfl fun x => ⟨rfl, rfl, fun _ h => h, fun _ => rfl⟩) rfl h.owned ?_
  intro m' hm' _ hle
  show heldPoints w m'.customer ≤ balance { w with ledger := w.ledger ++ rows } m'.pk
  rw [balance_append]
  rcases hrows with ⟨rfl, -⟩ | ⟨reference, tree, rfl, hfunded⟩
  · rw [show Journal.own columns m'.pk [] = 0 from rfl, add_zero]
    exact hle
  · rw [own_singleton]
    show _ ≤ balance w m'.pk + if m.pk = m'.pk then 0 - Dec.quantizeEven 2 (balance w m.pk) else 0
    by_cases hpk : m.pk = m'.pk
    · obtain rfl := hw.member_inj hm hm' hpk
      have hpos : 0 < Dec.quantizeEven 2 (balance w m.pk) := by
        rcases hkept.sides _ (List.mem_append_right _ (List.mem_singleton.2 rfl)) with ⟨hc, -⟩ | ⟨hd, -⟩
        · exact absurd hc (lt_irrefl 0)
        · exact hd
      have := le_balance_of_le_available hpos hfunded
      rw [if_pos rfl]
      linarith
    · rw [if_neg hpk, add_zero]
      exact hle

theorem Move.backed (h : Move digest site P w w') (hw : Sound digest w) (hb : Backed w) : Backed w' := by
  cases h with
  | joined hpk hcustomer _ => exact hb.joined hw hpk hcustomer
  | linked => exact hb.keep (.of_eq rfl) rfl hb.owned fun _ _ _ h => h
  | attached hmem hnone => exact hb.attached hw hmem hnone _
  | @noted b state hmem hcore =>
    refine hb.keep (.of_eq rfl) rfl (hb.owned_putState ?_ hw hmem) ?_
    · rw [hcore.hold]
      exact hb.owned b hmem
    · intro m _ _ hle
      show heldPoints (w.putState b.pk state) m.customer ≤ balance w m.pk
      rw [heldPoints_same hw hmem state hcore.hold]
      exact hle
  | @answered pk key r =>
    exact hb.keep (.modify rfl (Member.later_answer key r)) rfl hb.owned fun _ _ _ h => h
  | settled hmem h => exact hb.settled hw hmem h
  | transferred hs hr h => exact hb.transferred hw hs h
  | held hmem hm hcustomer hnone hpos hfunded => exact hb.held hw hmem hm hcustomer hnone hpos hfunded
  | released hmem => exact hb.released hw hmem
  | redeemed hmem hm hcustomer hhold hmember hnone hkept _ => exact hb.redeemed hw hmem hm hcustomer hhold _ _ _
  | restored hmem hm hcustomer hr hmore hmax hkept _ => exact hb.restored hw hmem hmore _ _ _
  | withdrawn hm hfree hrows hkept _ => exact hb.withdrawn hw hm hrows hkept

/-! ### Runs -/

theorem Backed.record (h : Backed w) (hw : Sound digest w) {pk : Uuid} {c : SiteColumns}
    (hok : w.movesHold (.record pk c) = false) :
    Backed { w with bookings := Table.modify Booking.pk w.bookings pk c.write } := by
  cases hb : w.booking pk with
  | none =>
    have hsame : Table.modify Booking.pk w.bookings pk c.write = w.bookings := Table.modify_of_get_none hb
    rw [hsame]
    exact h
  | some b =>
    have hmem : b ∈ w.bookings := Table.mem_of_get hb
    have hpk : b.pk = pk := Table.key_of_get hb
    -- a booking that holds keeps its customer
    have hcustomer : b.loyaltyState.hold.isSome = true → (c.write b).customer = b.customer := by
      intro hsome
      have hkept : c.customer = b.customer := by simpa [World.movesHold, hb, hsome] using hok
      exact hkept
    have hhold : ∀ x ∈ (c.write b).loyaltyState.hold, x ∈ b.loyaltyState.hold := by
      intro x hx
      dsimp only [SiteColumns.write] at hx
      split at hx
      · cases hx
      · exact hx
    refine h.keep (.of_eq rfl) rfl ?_ ?_
    · intro b' hb' x hx
      obtain ⟨b₀, hb₀, rfl⟩ := Table.mem_modify.1 hb'
      by_cases hsame : b₀.pk = pk
      · obtain rfl := hw.booking_inj hb₀ hmem (hsame.trans hpk.symm)
        rw [if_pos hsame] at hx ⊢
        have hold := hhold x hx
        rw [hcustomer (Option.isSome_iff_exists.2 ⟨x, hold⟩)]
        exact h.owned b₀ hb₀ x hold
      · rw [if_neg hsame] at hx ⊢
        exact h.owned b₀ hb₀ x hx
    · intro m _ _ hle
      have htotal := Table.total_modify (p := fun b => b.customer == some m.customer) (v := Booking.heldValue)
        (f := c.write) hw.bookings hb
      have hless : (if (c.write b).customer == some m.customer then (c.write b).heldValue else 0) ≤
          if b.customer == some m.customer then b.heldValue else 0 := by
        have hnonneg := hw.heldValue_nonneg hmem
        cases hx : (c.write b).loyaltyState.hold with
        | none =>
          have hzero : (c.write b).heldValue = 0 := by rw [Booking.heldValue, hx]; rfl
          rw [hzero, ite_self]
          split
          · exact hnonneg
          · exact le_rfl
        | some x =>
          have hold : b.loyaltyState.hold = some x := hhold x hx
          have hvalue : (c.write b).heldValue = b.heldValue := by rw [Booking.heldValue, Booking.heldValue, hx, hold]
          rw [hvalue, hcustomer (by rw [hold]; rfl)]
      have hheld : heldPoints { w with bookings := Table.modify Booking.pk w.bookings pk c.write } m.customer ≤
          heldPoints w m.customer := by
        unfold heldPoints
        rw [htotal]
        linarith
      exact hheld.trans hle

theorem Backed.book (h : Backed w) (pk : Uuid) (createdAt : Time) (c : SiteColumns) :
    Backed { w with bookings := w.bookings ++ [newBooking pk createdAt c] } := by
  refine h.keep (.of_eq rfl) rfl ?_ ?_
  · intro b hb x hx
    rcases List.mem_append.1 hb with hb | hb
    · exact h.owned b hb x hx
    · rw [List.mem_singleton.1 hb, newBooking_hold] at hx
      cases hx
  · intro m _ _ hle
    have hzero : (newBooking pk createdAt c).heldValue = 0 := by
      rw [Booking.heldValue, newBooking_hold]
      rfl
    have hheld : heldPoints { w with bookings := w.bookings ++ [newBooking pk createdAt c] } m.customer =
        heldPoints w m.customer := by
      rw [heldPoints, heldPoints, Table.total_append, Table.total_cons, Table.total_nil, hzero, ite_self, add_zero, add_zero]
    rw [hheld]
    exact hle

theorem Backed.step (h : Backed w) (hw : Sound digest w) {a : Action} (hok : w.movesHold a = false) :
    Backed (w.step digest a) := by
  cases a with
  | operate site op =>
    simp only [World.step]
    have hop : Changes digest site anySettlement w (op.perform digest site w) := perform_any hw
    split
    · rename_i v hv
      exact Leads.inv (fun _ _ hv hmove hb => hmove.backed hv hb) (hop.of_eq_ok hv) hw h
    · exact h
  | book pk createdAt columns =>
    simp only [World.step]
    split
    · exact h
    · exact h.book pk createdAt columns
  | record pk columns => exact h.record hw hok

theorem World.Opened.backed (h : w.Opened) : Backed w where
  owned b hb x hx := by simp [(h.untouched b hb).1] at hx
  covered m _ _ := by
    have hheld : heldPoints w m.customer = 0 := by
      refine Table.total_eq_zero_of fun b hb _ => ?_
      rw [Booking.heldValue, (h.untouched b hb).1]
      rfl
    have hbalance : balance w m.pk = 0 := by rw [balance, h.ledger]; rfl
    rw [hheld, hbalance]

end

open Machine in
/-- In every run in which no booking changes its customer while it holds points, what a member's bookings hold is on the
account of every member from whom no correction has taken points. Every row of every run is positive on balance, a credit,
a correction of an original, or a redemption, and no operation is refused by that constraint. -/
theorem holds_are_backed {w : World} (h : w.Opened) (digest : Payload → String) (as : List Action) :
    (Meets (World.step digest) (fun w a => w.movesHold a = false) w as →
      ∀ m ∈ (run (World.step digest) w as).members, ¬ Corrected (run (World.step digest) w as) m.pk →
        0 ≤ heldPoints (run (World.step digest) w as) m.customer ∧
          heldPoints (run (World.step digest) w as) m.customer ≤ balance (run (World.step digest) w as) m.pk) ∧
    (∀ r ∈ (run (World.step digest) w as).ledger, r.negativeCorrectionOnly) ∧
    ∀ site op, Op.perform digest site (run (World.step digest) w as) op ≠ .error (.integrity .negativeCorrectionOnly) := by
  have hw : Sound digest (run (World.step digest) w as) := h.run as
  refine ⟨fun hok m hm hfree => ⟨hw.heldPoints_nonneg m.customer, ?_⟩, hw.kept.signed, fun site op he => ?_⟩
  · have hinv := hok.inv (I := fun v => Sound digest v ∧ Backed v)
      (fun v a hv hok => ⟨hv.1.step a, hv.2.step hv.1 hok⟩) ⟨h.sound, h.backed⟩
    exact hinv.2.covered m hm hfree
  · have hop : Changes digest site anySettlement (run (World.step digest) w as)
        (op.perform digest site (run (World.step digest) w as)) := perform_any hw
    exact Bool.noConfusion (hop.of_eq_error he .negativeCorrectionOnly rfl)

/-! ### Points held for a second stay -/

def secondStayPk : Uuid := ⟨"7d2e7c1a-1f60-4f0e-9a51-0d5d7c2f1c02", rfl⟩

/-- A booking of the customer that is not paid for yet. -/
def awaitingBy (user : User) : SiteColumns := ⟨some user, .directWebsite, .awaitingPayment, [], false, false, none, none, false⟩

/-- Of the 30 points 20 are held, and then 15 are to be passed on. -/
def holdRun : List Action :=
  [.book stayPk 5 (confirmedBy 1), .operate paidSite (.enroll (consent 1)), .operate paidSite (.enroll (consent 2)),
   .book secondStayPk 6 (awaitingBy 1), .operate paidSite (.hold 1 "hold-1" secondStayPk 20),
   .operate paidSite (.transfer 1 "gift-1" "LSA-M000002" 15)]

def holder : Member :=
  ⟨1, 1, "LSA-M000001", .active, none, [("hold-1", ⟨plainDigest (.hold secondStayPk 20), .hold 20 secondStayPk⟩)]⟩

theorem holds_are_backed_held :
    balance (Machine.run (World.step plainDigest) emptyWorld holdRun) 1 = 30 ∧
      heldPoints (Machine.run (World.step plainDigest) emptyWorld holdRun) 1 = 20 ∧
      heldPoints (Machine.run (World.step plainDigest) emptyWorld holdRun) 1 ≤
        balance (Machine.run (World.step plainDigest) emptyWorld holdRun) 1 :=
  ⟨by decide +kernel, by decide +kernel,
    ((holds_are_backed emptyWorld_opened plainDigest holdRun).1 (by decide +kernel) holder (by decide +kernel)
      (by decide +kernel)).2⟩

end Apartments.Loyalty
