import Apartments.Loyalty.Lineage

/-!
# What the rows of the ledger refer to

`Audited` is what the tables say of each other in every run: a member has the number of its key, a row of the ledger names its
member with a link that the member has had, and the two rows of a transfer are the only ones of their group.
-/

namespace Apartments.Loyalty

def Member.Numbered (m : Member) : Prop := m.number = "LSA-M" ++ Dec.padded 6 m.pk

/-- The row names a member and a link from the history of the member. -/
structure Recorded (w : World) (r : Row) : Prop where
  owner : ∃ m ∈ w.members, m.pk = r.member ∧ m.customer = r.customer ∧ m.number = r.membershipNumber
  link : ∃ x ∈ w.history, x.member = r.member ∧ x.treeNumber = r.treeNumber
  entered : r.Entered

/-- The rows of a transfer group. -/
def transferRows (rows : List Row) (group : String) : List Row :=
  rows.filter fun r => r.operationGroup == group && r.eventType == .transfer

/-- Two rows that each name the member of the other, over one amount. -/
structure Counterparts (a b : Row) : Prop where
  there : a.counterpart = some b.member
  back : b.counterpart = some a.member
  paid : a.credit = b.debit
  received : a.debit = b.credit

structure Audited (w : World) : Prop where
  numbers : ∀ m ∈ w.members, m.Numbered
  rows : ∀ r ∈ w.ledger, Recorded w r
  transfers : ∀ r ∈ w.ledger, r.eventType = .transfer →
    ∃ a b, transferRows w.ledger r.operationGroup = [a, b] ∧ Counterparts a b

/-- The rows of a transfer that is posted. -/
def Exchanged (w : World) (rows : List Row) : Prop :=
  ∃ a b, rows = [a, b] ∧ Counterparts a b ∧ ∀ r ∈ rows, r.eventType = .transfer ∧ r.operationGroup = group w

section
variable {digest : Payload → String} {site : Site} {P : World → Booking → Facts → Prop} {w w' : World} {r : Row}
  {rows : List Row}

/-- What a move posts. -/
theorem Move.posts (h : Move digest site P w w') : ∃ rows, w'.ledger = w.ledger ++ rows ∧ (∀ r ∈ rows, Booked w r) ∧
    ((∀ r ∈ rows, r.eventType ≠ .transfer) ∨ Exchanged w rows) := by
  have hnone : ∀ {v : World}, v.ledger = w.ledger → ∃ rows, v.ledger = w.ledger ++ rows ∧ (∀ r ∈ rows, Booked w r) ∧
      ((∀ r ∈ rows, r.eventType ≠ .transfer) ∨ Exchanged w rows) := fun hv =>
    ⟨[], by rw [hv, List.append_nil], by simp, .inl (by simp)⟩
  cases h with
  | joined | linked | attached | noted | answered | held | released => exact hnone rfl
  | @settled b user facts owner chain plan rows hb h hP =>
    refine ⟨rows, rfl, fun r hr => (h.reward r hr).booked, .inl fun r hr => ?_⟩
    rcases (h.reward r hr).eventType with he | he <;> rw [he] <;> nofun
  | @transferred sender recipient reference value rows answer hs hr h =>
    refine ⟨rows, rfl, h.booked, .inr ?_⟩
    obtain ⟨out_, in_, rfl, hout, -, hcredit, hdebit, -, hin, -, hcredit', hdebit', -, hthere, hback⟩ := h.sides
    refine ⟨out_, in_, rfl, ⟨hin ▸ hthere, hout ▸ hback, hcredit.trans hdebit'.symm, hdebit.trans hcredit'.symm⟩, ?_⟩
    exact fun r hr => ⟨(h.events r hr).2.1, h.grouped r hr⟩
  | redeemed _ _ _ _ _ _ _ hbooked =>
    refine ⟨_, rfl, by simpa using hbooked, .inl ?_⟩
    simp [postedRow, redeemPosting]
  | restored _ _ _ _ _ _ _ hbooked =>
    refine ⟨_, rfl, by simpa using hbooked, .inl ?_⟩
    simp [postedRow, restorePosting]
  | @withdrawn m rows hm hfree hrows hkept hbooked =>
    refine ⟨rows, rfl, hbooked, .inl ?_⟩
    rcases hrows with ⟨rfl, -⟩ | ⟨reference, tree, rfl, -⟩
    · simp
    · simp [postedRow, closingPosting]

/-- A move leaves the members what they are, and a member who joins has the number of its key. -/
theorem Move.members (h : Move digest site P w w') :
    (∀ m ∈ w.members, ∃ m' ∈ w'.members, m'.pk = m.pk ∧ m'.customer = m.customer ∧ m'.number = m.number) ∧
    ((∀ m ∈ w.members, m.Numbered) → ∀ m ∈ w'.members, m.Numbered) := by
  have hsame : ∀ {v : World}, v.members = w.members →
      (∀ m ∈ w.members, ∃ m' ∈ v.members, m'.pk = m.pk ∧ m'.customer = m.customer ∧ m'.number = m.number) ∧
      ((∀ m ∈ w.members, m.Numbered) → ∀ m ∈ v.members, m.Numbered) := by
    intro v hv
    rw [hv]
    exact ⟨fun m hm => ⟨m, hm, rfl, rfl, rfl⟩, id⟩
  have hmodify : ∀ {n : ℕ} {f : Member → Member}, (∀ m, (f m).pk = m.pk ∧ (f m).customer = m.customer ∧
      (f m).number = m.number) →
      (∀ m ∈ w.members, ∃ m' ∈ Table.modify Member.pk w.members n f, m'.pk = m.pk ∧ m'.customer = m.customer ∧
        m'.number = m.number) ∧
      ((∀ m ∈ w.members, m.Numbered) → ∀ m ∈ Table.modify Member.pk w.members n f, m.Numbered) := by
    intro n f hf
    refine ⟨fun m hm => ⟨_, Table.mem_modify.2 ⟨m, hm, rfl⟩, ?_⟩, fun hall m hm => ?_⟩
    · split
      · exact hf m
      · exact ⟨rfl, rfl, rfl⟩
    · obtain ⟨x, hx, rfl⟩ := Table.mem_modify.1 hm
      split
      · rw [Member.Numbered, (hf x).1, (hf x).2.2]
        exact hall x hx
      · exact hall x hx
  cases h with
  | @joined m link _ _ hnumber =>
    refine ⟨fun x hx => ⟨x, List.mem_append_left _ hx, rfl, rfl, rfl⟩, fun hall x hx => ?_⟩
    rcases List.mem_append.1 hx with hx | hx
    · exact hall x hx
    · rw [List.mem_singleton.1 hx]
      exact hnumber
  | linked | attached | noted | settled | held | released | redeemed | restored => exact hsame rfl
  | answered | transferred | withdrawn => exact hmodify fun _ => ⟨rfl, rfl, rfl⟩

theorem Booked.recorded (h : Booked w r) : Recorded w r := by
  obtain ⟨x, hx, htree⟩ := h.link
  rw [← get_links] at hx
  exact ⟨h.owner, ⟨x, mem_history_of_links (Table.mem_of_get hx), Table.key_of_get hx, htree⟩, h.entered⟩

theorem Recorded.later (h : Recorded w r) (hhistory : ∀ x ∈ w.history, x ∈ w'.history)
    (hmembers : ∀ m ∈ w.members, ∃ m' ∈ w'.members, m'.pk = m.pk ∧ m'.customer = m.customer ∧ m'.number = m.number) :
    Recorded w' r := by
  obtain ⟨m, hm, hpk, hcustomer, hnumber⟩ := h.owner
  obtain ⟨m', hm', hpk', hcustomer', hnumber'⟩ := hmembers m hm
  obtain ⟨x, hx, hlink⟩ := h.link
  exact ⟨⟨m', hm', hpk'.trans hpk, hcustomer'.trans hcustomer, hnumber'.trans hnumber⟩, ⟨x, hhistory x hx, hlink⟩,
    h.entered⟩

/-- The next group is that of no row. -/
theorem Audited.group_free (h : Audited w) (hw : WellKept w.ledger) (hr : r ∈ w.ledger) : r.operationGroup ≠ group w := by
  obtain ⟨first, hgroup, -, hplace⟩ := hw.grouped r hr
  have hbranch := (h.rows r hr).entered.branch
  have hlast : r.sequence ≤ w.ledger.length := (hw.chained.number_le hr).2
  intro heq
  have hfirst := groupName_inj (hgroup.symm.trans heq)
  rw [Sound.nextSequence_eq hw] at hfirst
  omega

theorem transferRows_append (rows rows' : List Row) (group : String) :
    transferRows (rows ++ rows') group = transferRows rows group ++ transferRows rows' group := List.filter_append ..

theorem Audited.move (h : Audited w) (hs : Sound digest w) (hmove : Move digest site P w w') : Audited w' := by
  obtain ⟨rows, hledger, hbooked, hkind⟩ := hmove.posts
  obtain ⟨hmembers, hnumbers⟩ := hmove.members
  refine ⟨hnumbers h.numbers, fun r hr => ?_, fun r hr hevent => ?_⟩
  · rw [hledger] at hr
    rcases List.mem_append.1 hr with hr | hr
    · exact (h.rows r hr).later (fun x hx => hmove.history hx) hmembers
    · exact (hbooked r hr).recorded.later (fun x hx => hmove.history hx) hmembers
  · rw [hledger] at hr ⊢
    rw [transferRows_append]
    rcases List.mem_append.1 hr with hr | hr
    · -- the rows before keep their group to themselves
      obtain ⟨a, b, hab, hsides⟩ := h.transfers r hr hevent
      have hnone : transferRows rows r.operationGroup = [] := by
        refine List.filter_eq_nil_iff.2 fun x hx hin => ?_
        simp only [Bool.and_eq_true, beq_iff_eq] at hin
        rcases hkind with hkind | ⟨_, _, -, -, hkind⟩
        · exact hkind x hx hin.2
        · exact h.group_free hs.kept hr (hin.1.symm.trans (hkind x hx).2)
      exact ⟨a, b, by rw [hab, hnone, List.append_nil], hsides⟩
    · rcases hkind with hkind | ⟨a, b, rfl, hsides, hkind⟩
      · exact absurd hevent (hkind r hr)
      have hnone : transferRows w.ledger r.operationGroup = [] := by
        refine List.filter_eq_nil_iff.2 fun x hx hin => ?_
        simp only [Bool.and_eq_true, beq_iff_eq] at hin
        exact h.group_free hs.kept hx (hin.1.trans (hkind r hr).2)
      have hall : transferRows [a, b] r.operationGroup = [a, b] := by
        refine List.filter_eq_self.2 fun x hx => ?_
        simp [(hkind x hx).1, (hkind x hx).2, (hkind r hr).2]
      exact ⟨a, b, by rw [hnone, hall, List.nil_append], hsides⟩

/-- The bookings are not read. -/
theorem Audited.of_eq (h : Audited w) (hmembers : w'.members = w.members) (hhistory : w'.history = w.history)
    (hledger : w'.ledger = w.ledger) : Audited w' := by
  refine ⟨hmembers ▸ h.numbers, fun r hr => ?_, hledger ▸ h.transfers⟩
  refine (h.rows r (hledger ▸ hr)).later (fun x hx => hhistory ▸ hx) fun m hm => ?_
  exact ⟨m, hmembers ▸ hm, rfl, rfl, rfl⟩

theorem Audited.step (h : Audited w) (hs : Sound digest w) (a : Action) : Audited (w.step digest a) := by
  cases a with
  | operate site op =>
    simp only [World.step]
    have hop : Changes digest site anySettlement w (op.perform digest site w) := perform_any hs
    split
    · rename_i v hv
      exact Leads.inv (fun v v' hv hmove hI => Audited.move hI hv hmove) (hop.of_eq_ok hv) hs h
    · exact h
  | book pk createdAt columns =>
    simp only [World.step]
    split
    · exact h
    · exact h.of_eq rfl rfl rfl
  | record pk columns => exact h.of_eq rfl rfl rfl

theorem World.Founded.audited (h : w.Founded) : Audited w := by
  refine ⟨by simp [h.members], by simp [h.opened.ledger], by simp [h.opened.ledger]⟩

open Machine in
/-- The three invariants of a run. -/
theorem World.Founded.run (h : w.Founded) (digest : Payload → String) (as : List Action) :
    Sound digest (run (World.step digest) w as) ∧ Tree (run (World.step digest) w as) ∧
      Audited (run (World.step digest) w as) :=
  run_inv (I := fun v => Sound digest v ∧ Tree v ∧ Audited v)
    (fun _ a hv => ⟨hv.1.step a, (Tree.step hv.1 hv.2.1 a).1, hv.2.2.step hv.1 a⟩) ⟨h.opened.sound, h.tree, h.audited⟩ as

end

end Apartments.Loyalty
