import Apartments.Loyalty.Services

/-!
# Books in order

`WellKept` is what the ledger is after any number of postings: a running-balance journal whose rows have one side,
whose group and branch are tied to the sequence, and whose business keys differ. `post_spec` is the only statement
about `_post` that later modules use: on books in order, and for a business key that is not taken, a posting that
passes the checks of `_post` passes every constraint of the table and leaves books in order.
-/

namespace Apartments.Loyalty

/-! ### The texts of a row -/

/-- No two events are booked under one reference. -/
theorem Event.reference_injective : Function.Injective Event.reference := by
  intro e f h
  have h' := congrArg String.toList h
  cases e <;> cases f <;> simp only [Event.reference, String.toList_append] at h' <;> try simp at h'
  case settle.settle b m c n =>
    obtain ⟨hb, hn⟩ := Keys.before_inj b.notMem_colon c.notMem_colon h'
    rw [← Nat.toList_repr, ← Nat.toList_repr] at hn
    rw [Uuid.ext_str (String.toList_injective hb), Nat.repr_injective (String.toList_injective hn)]
  case transfer.transfer s p t q =>
    rw [← Nat.toList_repr, ← Nat.toList_repr] at h'
    obtain ⟨hs, hp⟩ := Keys.before_inj (Keys.notMem_repr rfl s) (Keys.notMem_repr rfl t) h'
    rw [Nat.repr_injective (String.toList_injective hs), String.toList_injective hp]
  case redeem.redeem b c => rw [Uuid.ext_str (String.toList_injective h')]
  case restore.restore b m c n =>
    obtain ⟨hb, hn⟩ := Keys.before_inj b.notMem_colon c.notMem_colon h'
    rw [Uuid.ext_str (String.toList_injective hb), Dec.centsStr_inj (String.toList_injective hn)]
  case withdraw.withdraw m n =>
    rw [← Nat.toList_repr, ← Nat.toList_repr] at h'
    rw [Nat.repr_injective (String.toList_injective h')]

theorem notMem_groupName (n : ℕ) : '-' ∉ (groupName n).toList := by
  rw [groupName, String.toList_append, List.mem_append, not_or]
  exact ⟨by decide, Dec.notMem_padded rfl 6 n⟩

theorem groupName_inj {m n : ℕ} (h : groupName m = groupName n) : m = n := by
  have h' := congrArg String.toList h
  simp only [groupName, String.toList_append, List.append_cancel_left_eq] at h'
  exact Dec.padded_inj (String.toList_injective h')

theorem operationNumber_inj {m n i j : ℕ}
    (h : groupName m ++ "-" ++ Dec.padded 2 i = groupName n ++ "-" ++ Dec.padded 2 j) : m = n ∧ i = j := by
  obtain ⟨hmn, hij⟩ := Keys.split_inj rfl (notMem_groupName m) (notMem_groupName n) h
  exact ⟨groupName_inj hmn, Dec.padded_inj hij⟩

/-! ### Books in order -/

/-- The columns of `loyalty_unique_business_event`. -/
def Row.businessKey (r : Row) : String × ℕ × Component := (r.eventReference, r.member, r.component)

/-- The row is the one of its branch in the group that started at some sequence. -/
def Row.Grouped (r : Row) : Prop :=
  ∃ first, r.operationGroup = groupName first ∧
    r.operationNumber = groupName first ++ "-" ++ Dec.padded 2 r.branch ∧ first + r.branch = r.sequence + 1

structure WellKept (rows : List Row) : Prop where
  chained : Journal.Chained columns rows
  sides : ∀ r ∈ rows, r.onePostingSide
  signed : ∀ r ∈ rows, r.negativeCorrectionOnly
  grouped : ∀ r ∈ rows, r.Grouped
  events : (rows.map Row.businessKey).Nodup

section
variable {rows : List Row} {r s : Row}

theorem wellKept_nil : WellKept [] :=
  ⟨Journal.chained_nil, by simp, by simp, by simp, by simp⟩

theorem WellKept.max_sequence (h : WellKept rows) : (rows.map Row.sequence).foldr max 0 = rows.length :=
  h.chained.max_number

/-- What is tied to the sequence of a row is its own. -/
theorem WellKept.nodup_map (h : WellKept rows) {κ : Type} {f : Row → κ}
    (hf : ∀ r ∈ rows, ∀ s ∈ rows, f r = f s → r.sequence = s.sequence) : (rows.map f).Nodup := by
  have hinj := List.inj_on_of_nodup_map h.chained.nodup
  exact List.Nodup.map_on (fun r hr s hs hrs => hinj hr hs (hf r hr s hs hrs)) (List.Nodup.of_map _ h.chained.nodup)

theorem Row.Grouped.sequence_eq (hr : r.Grouped) (hs : s.Grouped)
    (h : r.operationGroup = s.operationGroup ∧ r.branch = s.branch) : r.sequence = s.sequence := by
  obtain ⟨m, hm, -, hmr⟩ := hr
  obtain ⟨n, hn, -, hns⟩ := hs
  have hmn : m = n := groupName_inj (by rw [← hm, ← hn, h.1])
  have := h.2
  omega

theorem Row.Grouped.sequence_eq_of_number (hr : r.Grouped) (hs : s.Grouped)
    (h : r.operationNumber = s.operationNumber) : r.sequence = s.sequence := by
  obtain ⟨m, -, hm, hmr⟩ := hr
  obtain ⟨n, -, hn, hns⟩ := hs
  obtain ⟨hmn, hb⟩ := operationNumber_inj (hm.symm.trans (h.trans hn))
  omega

theorem WellKept.operationBranch (h : WellKept rows) : (rows.map fun r => (r.operationGroup, r.branch)).Nodup :=
  h.nodup_map fun r hr s hs hrs => (h.grouped r hr).sequence_eq (h.grouped s hs) (Prod.mk.inj hrs)

theorem WellKept.operationNumber (h : WellKept rows) : (rows.map Row.operationNumber).Nodup :=
  h.nodup_map fun r hr s hs hrs => (h.grouped r hr).sequence_eq_of_number (h.grouped s hs) hrs

theorem WellKept.concat (h : WellKept rows) (hnum : r.sequence = rows.length + 1)
    (htotal : r.programBalanceAfter = Journal.whole columns rows + (r.credit - r.debit))
    (hown : r.memberBalanceAfter = Journal.own columns r.member rows + (r.credit - r.debit))
    (hside : r.onePostingSide) (hsigned : r.negativeCorrectionOnly) (hgroup : r.Grouped)
    (hfresh : ∀ s ∈ rows, s.businessKey ≠ r.businessKey) : WellKept (rows ++ [r]) where
  chained := Journal.chained_concat.2 ⟨h.chained, hnum, htotal, hown⟩
  sides s hs := by
    rcases List.mem_append.1 hs with hs | hs
    · exact h.sides s hs
    · rwa [List.mem_singleton.1 hs]
  signed s hs := by
    rcases List.mem_append.1 hs with hs | hs
    · exact h.signed s hs
    · rwa [List.mem_singleton.1 hs]
  grouped s hs := by
    rcases List.mem_append.1 hs with hs | hs
    · exact h.grouped s hs
    · rwa [List.mem_singleton.1 hs]
  events := by
    rw [List.map_append, List.nodup_append]
    refine ⟨h.events, by simp, ?_⟩
    rintro k hk _ hr rfl
    obtain ⟨s, hs, rfl⟩ := List.mem_map.1 hk
    exact hfresh s hs (by simpa using hr)

end

/-! ### A posting -/

/-- A constraint of the ledger table. -/
def Constraint.ofLedger : Constraint → Bool
  | .sequence | .operationNumber | .operationBranch | .businessEvent | .onePostingSide
  | .negativeCorrectionOnly => true
  | _ => false

/-- The refusal is none of a ledger constraint. -/
def Refusal.Ordinary (e : Refusal) : Prop := ∀ c, e = .integrity c → c.ofLedger = false

/-- The checks of `_post` that a posting passed. -/
structure Admitted (w : World) (member : Member) (p : Posting) : Prop where
  credit : ∃ n, p.credit = amount n
  debit : ∃ n, p.debit = amount n
  sides : ¬ (0 < p.credit ↔ 0 < p.debit)
  funded : p.allowNegative = false → p.debit ≤ available w member
  corrects : p.allowNegative = true → p.eventType = .redeem ∨ p.eventType = .adjust ∧ correctsEarning w member p

/-- The place of the next row in its group. -/
structure NextBranch (rows : List Row) (first : ℕ) (p : Posting) : Prop where
  group : p.group = groupName first
  branch : first + p.branch = rows.length + 2
  counted : 0 < p.branch

/-- The amounts fit their columns, and a row that leaves less than nothing is of a kind that may. -/
structure Row.Entered (r : Row) : Prop where
  credit : ∃ n, r.credit = amount n ∧ r.credit < 100000000000000
  debit : ∃ n, r.debit = amount n ∧ r.debit < 100000000000000
  balances : fits r.memberBalanceAfter = true ∧ fits r.programBalanceAfter = true
  branch : 0 < r.branch
  signed : r.memberBalanceAfter < 0 → 0 < r.credit ∨
    (r.eventType = .adjust ∧ ∃ n, r.original = some n ∧ 0 < n) ∨ r.eventType = .redeem

/-- The row names its member and the current link of the member. -/
structure Booked (w : World) (r : Row) : Prop where
  owner : ∃ m ∈ w.members, m.pk = r.member ∧ m.customer = r.customer ∧ m.number = r.membershipNumber
  link : ∃ x, currentLink w r.member = some x ∧ x.treeNumber = r.treeNumber
  entered : r.Entered

section
variable {w : World} {member : Member} {tree : String} {p : Posting} {first : ℕ}

theorem Booked.posted {r : Row} (h : Booked w r) : ∃ m ∈ w.members, m.pk = r.member ∧ m.customer = r.customer := by
  obtain ⟨m, hm, hpk, hcustomer, -⟩ := h.owner
  exact ⟨m, hm, hpk, hcustomer⟩

/-- Only the members and the links are read. -/
theorem Booked.congr {w' : World} {r : Row} (h : Booked w r) (hmembers : w'.members = w.members)
    (hlink : currentLink w' r.member = currentLink w r.member) : Booked w' r :=
  ⟨hmembers ▸ h.owner, hlink ▸ h.link, h.entered⟩

theorem Admitted.onePostingSide (h : Admitted w member p) : (postedRow w member tree p).onePostingSide := by
  obtain ⟨m, hm⟩ := h.credit
  obtain ⟨n, hn⟩ := h.debit
  have hc : 0 ≤ p.credit := hm ▸ amount_nonneg m
  have hd : 0 ≤ p.debit := hn ▸ amount_nonneg n
  show (0 < p.credit ∧ p.debit = 0) ∨ (0 < p.debit ∧ p.credit = 0)
  rcases hc.eq_or_lt with hc | hc <;> rcases hd.eq_or_lt with hd | hd
  · exact absurd h.sides (by simp [← hc, ← hd])
  · exact .inr ⟨hd, hc.symm⟩
  · exact .inl ⟨hc, hd.symm⟩
  · exact absurd h.sides (by simp [hc, hd])

/-- Points that are available are on the account. -/
theorem le_balance_of_le_available {x : Dec} (hx : 0 < x)
    (h : x ≤ available w member) : x + heldPoints w member.customer ≤ balance w member.pk := by
  unfold available at h
  rcases le_max_iff.1 h with h | h <;> linarith

/-- What is admitted below zero is a credit, a redemption, or corrects a row of the ledger. -/
theorem Admitted.signed (h : Admitted w member p) (hw : WellKept w.ledger) (hheld : 0 ≤ heldPoints w member.customer)
    (hneg : (postedRow w member tree p).memberBalanceAfter < 0) :
    0 < p.credit ∨ (p.eventType = .adjust ∧ ∃ n, p.original = some n ∧ 0 < n) ∨ p.eventType = .redeem := by
  have hside : (postedRow w member tree p).onePostingSide := h.onePostingSide
  rcases hside with ⟨hc, -⟩ | ⟨hd, hc⟩
  · exact .inl hc
  · cases hn : p.allowNegative with
    | false =>
      have := le_balance_of_le_available hd (h.funded hn)
      have hneg' : balance w member.pk + p.credit - p.debit < 0 := hneg
      have hc' : p.credit = 0 := hc
      have hd' : p.debit + heldPoints w member.customer ≤ balance w member.pk := this
      linarith
    | true =>
      rcases h.corrects hn with hr | ⟨ha, original, horiginal, -⟩
      · exact .inr (.inr hr)
      · obtain ⟨n, hn, hrow⟩ := Option.bind_eq_some_iff.1 horiginal
        have hnumber := (hw.chained.number_le (Table.mem_of_get hrow)).1
        rw [show columns.number original = n from Table.key_of_get hrow] at hnumber
        exact .inr (.inl ⟨ha, n, hn, hnumber⟩)

theorem Admitted.negativeCorrectionOnly (h : Admitted w member p) (hw : WellKept w.ledger)
    (hheld : 0 ≤ heldPoints w member.customer) : (postedRow w member tree p).negativeCorrectionOnly := by
  by_cases hneg : (postedRow w member tree p).memberBalanceAfter < 0
  · rcases h.signed hw hheld hneg with hc | ⟨ha, n, hn, -⟩ | hr
    · exact .inr (.inl hc)
    · exact .inr (.inr (.inl ⟨ha, fun hnone => by cases hn.symm.trans hnone⟩))
    · exact .inr (.inr (.inr hr))
  · exact .inl (not_lt.1 hneg)

/-- The new row on books in order. -/
theorem WellKept.posted (hw : WellKept w.ledger) (hheld : 0 ≤ heldPoints w member.customer)
    (hnext : NextBranch w.ledger first p)
    (hfresh : ∀ r ∈ w.ledger, r.businessKey ≠ (p.event.reference, member.pk, p.component))
    (h : Admitted w member p) : WellKept (w.ledger ++ [postedRow w member tree p]) := by
  have hseq : nextSequence w = w.ledger.length + 1 := by rw [nextSequence, hw.max_sequence]
  refine hw.concat hseq ?_ ?_ h.onePostingSide (h.negativeCorrectionOnly hw hheld) ?_ hfresh
  · exact add_sub_assoc ..
  · exact add_sub_assoc ..
  · have := hnext.branch
    refine ⟨first, hnext.group, ?_, ?_⟩
    · show p.group ++ "-" ++ Dec.padded 2 p.branch = _
      rw [hnext.group]
      rfl
    · show first + p.branch = nextSequence w + 1
      omega

/-- The constraints of the ledger refuse no row that leaves books in order. -/
theorem createRow_spec {r : Row} (h : WellKept (w.ledger ++ [r])) :
    Outcome (createRow w r) (fun w' => w' = { w with ledger := w.ledger ++ [r] } ∧
      fits r.memberBalanceAfter = true ∧ fits r.programBalanceAfter = true) Refusal.Ordinary := by
  have hr : r ∈ w.ledger ++ [r] := by simp
  have hold : ∀ s ∈ w.ledger, s ∈ w.ledger ++ [r] := fun s hs => by simp [hs]
  have hnew : ∀ {κ : Type} {f : Row → κ}, ((w.ledger ++ [r]).map f).Nodup → ∀ s ∈ w.ledger, f s ≠ f r := by
    intro κ f hnd s hs hsr
    rw [List.map_append, List.nodup_append] at hnd
    exact hnd.2.2 _ (List.mem_map_of_mem hs) _ (by simp) hsr
  refine Outcome.guard (by rintro c ⟨⟩) fun hfits => ?_
  refine Outcome.pass (not_not.2 (h.sides r hr)) ?_
  refine Outcome.pass (not_not.2 (h.signed r hr)) ?_
  refine Outcome.pass ?_ ?_
  · rintro ⟨s, hs, hsr⟩
    exact hnew h.chained.nodup s hs hsr
  refine Outcome.pass ?_ ?_
  · rintro ⟨s, hs, hsr⟩
    exact hnew h.operationNumber s hs hsr
  refine Outcome.pass ?_ ?_
  · rintro ⟨s, hs, hg, hb⟩
    exact hnew h.operationBranch s hs (by simp [hg, hb])
  refine Outcome.pass ?_ ?_
  · rintro ⟨s, hs, he, hm, hc⟩
    exact hnew h.events s hs (by simp [Row.businessKey, he, hm, hc])
  rw [not_or, Bool.not_eq_false, Bool.not_eq_false] at hfits
  exact Outcome.of_pure ⟨rfl, hfits⟩

/-- What `_post` does on books in order. -/
theorem post_spec {site : Site} (hw : WellKept w.ledger) (hm : member ∈ w.members)
    (hheld : 0 ≤ heldPoints w member.customer) (hnext : NextBranch w.ledger first p)
    (hfresh : ∀ r ∈ w.ledger, r.businessKey ≠ (p.event.reference, member.pk, p.component)) :
    Outcome (post site w member p) (fun w' => Admitted w member p ∧ WellKept w'.ledger ∧
      ∃ tree, w' = { w with ledger := w.ledger ++ [postedRow w member tree p] } ∧
        Booked w (postedRow w member tree p)) Refusal.Ordinary := by
  unfold post
  refine Outcome.guard (by rintro c ⟨⟩) fun _ => ?_
  refine Outcome.bind (cents_fits fun _ => by rintro c ⟨⟩) fun credit hcredit' => ?_
  refine Outcome.bind (cents_fits fun _ => by rintro c ⟨⟩) fun debit hdebit' => ?_
  obtain ⟨hcredit, hcredit'⟩ := hcredit'
  obtain ⟨hdebit, hdebit'⟩ := hdebit'
  rw [hcredit, hdebit]
  refine Outcome.guard (by rintro c ⟨⟩) fun hkind => ?_
  refine Outcome.guard (by rintro c ⟨⟩) fun hcorrects => ?_
  refine Outcome.guard (by rintro c ⟨⟩) fun hsides => ?_
  refine Outcome.lookup (by rintro c ⟨⟩) fun link hlink => ?_
  have hadmitted : Admitted w member p := by
    refine ⟨⟨credit, hcredit.symm⟩, ⟨debit, hdebit.symm⟩, fun h => hsides (.inl h), fun hn => ?_, fun hn => ?_⟩
    · exact not_lt.1 fun h => hsides (.inr ⟨h, hn⟩)
    · by_cases hr : p.eventType = .redeem
      · exact .inl hr
      · have ha : p.eventType = .adjust := by
          by_contra ha
          exact hkind ⟨hn, ha, hr⟩
        exact .inr ⟨ha, by_contra fun hc => hcorrects ⟨hn, ha, hc⟩⟩
  have hkept := @WellKept.posted w member link.treeNumber p first hw hheld hnext hfresh hadmitted
  refine (createRow_spec hkept).mono fun w' hw' => ⟨hadmitted, hw'.1 ▸ hkept, _, hw'.1, ?_⟩
  exact ⟨⟨member, hm, rfl, rfl, rfl⟩, ⟨link, hlink, rfl⟩, ⟨credit, hcredit.symm, hcredit'⟩,
    ⟨debit, hdebit.symm, hdebit'⟩, hw'.2, hnext.counted, fun hneg => hadmitted.signed hw hheld hneg⟩

end

end Apartments.Loyalty
