import Apartments.Loyalty.Captured

/-!
# The checks of a captured core

Whatever a run of the core leaves behind, the checks of `validate` on the members, the links and the ledger accept its
snapshot. Every place that was ever stored is one that `Tree.valid` finds below an older one, the current links are walked up
to their roots, and the ledger is the journal that `Tree.post` expects.
-/

namespace Apartments.Backup

open Loyalty

section
variable {digest : Payload → String} {t : Tree} {w : World} {x y : Referral}

/-! ### The links -/

theorem Reads.currents (h : Reads t w) (ht : Loyalty.Tree w) {e : String × Link} (he : e ∈ t.currents) :
    ∃ x ∈ w.links, e = (x.member.repr, placeLink x) := by
  rw [Tree.mem_currents] at he
  obtain ⟨z, -, hz⟩ := (h.mem_keys ht).1 (Tree.current_isSome.1 (by rw [he]; rfl))
  rw [← hz, h.current ht] at he
  obtain ⟨x, hx, hlink⟩ := Option.map_eq_some_iff.1 he
  rw [← get_links] at hx
  have hmember : x.member = z.member := Table.key_of_get hx
  exact ⟨x, Table.mem_of_get hx, Prod.ext (by rw [hmember, hz]) hlink.symm⟩

theorem Reads.currents_nodup (h : Reads t w) (ht : Loyalty.Tree w) :
    (t.currents.map (·.2.treeNumber.key)).Nodup := by
  have hkeys : (t.currents.map (·.1)).Nodup := by
    rw [Tree.currents_keys]
    exact List.nodup_eraseDups _
  refine List.Nodup.map_on (fun e he e' he' hnumber => ?_) (List.Nodup.of_map _ hkeys)
  obtain ⟨x, hx, rfl⟩ := h.currents ht he
  obtain ⟨y, hy, rfl⟩ := h.currents ht he'
  have htree : x.treeNumber = y.treeNumber := Key.text.inj hnumber
  have hmember := member_of_treeNumber ht.grown ht.slots (mem_history_of_links hx) (mem_history_of_links hy) htree
  rw [Table.eq_of_mem_of_key ht.nodup hx hy hmember]

/-- There are as many members as current links. -/
theorem Reads.currents_length (h : Reads t w) (hs : Loyalty.Sound digest w) (ht : Loyalty.Tree w) :
    t.currents.length = t.members.length := by
  have hmembers : (w.members.map fun m => m.pk.repr).Nodup := by
    simpa [List.map_map, Function.comp_def] using hs.members.map repr_injective
  have hperm : t.keys.Perm (w.members.map fun m => m.pk.repr) := by
    refine (List.perm_ext_iff_of_nodup (List.nodup_eraseDups _) hmembers).2 fun k => ?_
    rw [← Tree.keys, h.mem_keys ht, List.mem_map]
    constructor
    · rintro ⟨x, hx, rfl⟩
      obtain ⟨m, hm, hpk⟩ := (ht.members x.member).2 ⟨x, hx, rfl⟩
      exact ⟨m, hm, by rw [hpk]⟩
    · rintro ⟨m, hm, rfl⟩
      obtain ⟨x, hx, hmember⟩ := (ht.members m.pk).1 ⟨m, hm, rfl⟩
      exact ⟨x, hx, by rw [hmember]⟩
  rw [← List.length_map (f := fun e : String × Link => e.1), Tree.currents_keys, hperm.length_eq, List.length_map,
    h.members.length_eq, List.length_map]

/-- The walk along the inviters follows the chain of the tables. -/
theorem walk_placeLink (h : Reads t w) (ht : Loyalty.Tree w) {rounds : ℕ} {seen : List String} {keys : List ℕ}
    (hx : x ∈ w.links) (hchain : Forest.Chain (up w.links) x.member keys) (hrounds : keys.length ≤ rounds)
    (hseen : ∀ k ∈ keys, k.repr ∉ seen) (hnodup : keys.Nodup) : t.walk rounds seen (placeLink x) = .ok () := by
  induction keys generalizing x rounds seen with
  | nil =>
    cases hchain with
    | root hroot =>
      rw [up_of_mem ht.nodup hx] at hroot
      have hparent : (placeLink x).parent = none := by
        rw [parent_placeLink, Option.some.inj hroot]
        rfl
      rw [Tree.walk.eq_def]
      dsimp only
      rw [hparent]
  | cons k keys ih =>
    cases hchain with
    | link hlink habove =>
      rw [up_of_mem ht.nodup hx] at hlink
      have hinviter : x.inviter = some k := Option.some.inj hlink
      obtain ⟨hk, hkeys⟩ := List.nodup_cons.1 hnodup
      cases ht.placed x hx with
      | root hnone => cases hinviter.symm.trans hnone
      | below y hy hne hinviter' hroot hdepth htree =>
        obtain rfl : k = y.member := Option.some.inj (hinviter.symm.trans hinviter')
        have hparent : (placeLink x).parent = some y.member.repr := by
          rw [parent_placeLink, hinviter]
          rfl
        have hcurrent : t.current y.member.repr = some (placeLink y) := by
          rw [h.current ht, ← get_links, Table.get_eq_of_mem ht.nodup hy]
          rfl
        have hfollows : follows (placeLink x) (placeLink y) = .ok true := by
          rw [follows_placeLink]
          simp [below, hroot, hdepth, htree]
        obtain ⟨rounds, rfl⟩ : ∃ n, rounds = n + 1 := Nat.exists_eq_succ_of_ne_zero (by
          rw [List.length_cons] at hrounds
          omega)
        rw [Tree.walk, hparent]
        dsimp only
        rw [raiseIf_of_not (hseen y.member List.mem_cons_self), hcurrent]
        show (do
          raiseIf ((← follows (placeLink x) (placeLink y)) = false) (.reject "invalid_membership_tree")
          t.walk rounds (y.member.repr :: seen) (placeLink y) : Except Failure Unit) = _
        rw [hfollows]
        show t.walk rounds (y.member.repr :: seen) (placeLink y) = _
        refine ih hy habove (Nat.le_of_succ_le_succ hrounds) (fun l hl hin => ?_) hkeys
        rcases List.mem_cons.1 hin with heq | hin
        · rw [repr_injective heq] at hl
          exact hk hl
        · exact hseen l (List.mem_cons_of_mem _ hl) hin

theorem Reads.checked (h : Reads t w) (hs : Loyalty.Sound digest w) (ht : Loyalty.Tree w) : t.Checked where
  valid k hk x hx := by
    obtain ⟨z, -, rfl⟩ := (h.mem_keys ht).1 hk
    rw [h.history ht] at hx
    obtain ⟨y, hy, rfl⟩ := List.mem_map.1 hx
    obtain ⟨hy, hmember⟩ := List.mem_filter.1 hy
    rw [← of_decide_eq_true hmember]
    exact valid_placeLink h ht hy
  hashable := by
    rw [Bool.not_eq_true, List.any_eq_false]
    intro v hv
    obtain ⟨e, he, rfl⟩ := List.mem_map.1 hv
    obtain ⟨x, -, rfl⟩ := h.currents ht he
    exact Bool.false_ne_true
  distinct := by rw [(h.currents_nodup ht).dedup, List.length_map, h.currents_length hs ht]
  walk e he := by
    obtain ⟨x, hx, rfl⟩ := h.currents ht he
    obtain ⟨keys, hkeys⟩ := Positioned.exists ht.nodup ht.placed hx
    obtain ⟨hself, hnodup⟩ := List.nodup_cons.1 (hkeys.nodup ht.nodup ht.placed)
    have hlength : keys.length < t.referrals.length := by
      have hlt := hkeys.length_lt ht.nodup ht.placed
      rwa [World.links, List.length_map, ← List.length_map (f := fun x => (x.member.repr, placeLink x)),
        ← h.referrals.length_eq] at hlt
    refine walk_placeLink h ht hx hkeys.chain (by omega) (fun k hk hin => ?_) hnodup
    rw [repr_injective (List.mem_singleton.1 hin)] at hk
    exact hself hk

end

/-! ### The ledger -/

/-- What the ledger checks read of a row. -/
def placeEntry (evidence : Row → Document) (r : Row) : Entry where
  sequence := .int r.sequence
  operationNumber := .text r.operationNumber
  eventReference := .text r.eventReference
  member := .int r.member
  component := .text (componentText r.component)
  operationGroup := .text r.operationGroup
  branch := .int r.branch
  customer := .int r.customer
  membershipNumber := .text r.membershipNumber
  treeNumber := .text r.treeNumber
  credit := .text (columnText r.credit)
  debit := .text (columnText r.debit)
  programBalanceAfter := .text (columnText r.programBalanceAfter)
  memberBalanceAfter := .text (columnText r.memberBalanceAfter)
  eventType := .text (eventText r.eventType)
  original := optional r.original
  counterpart := optional r.counterpart
  evidence := .document (evidence r)

section
variable {evidence : Row → Document} {s : Snapshot} {digest : Payload → String} {t : Tree} {tally : Tally} {w : World}
  {r : Row} {rows : List Row} {entries : List Entry}

theorem readEntry_ledgerFields (r : Row) : readEntry (ledgerFields evidence r) = .ok (placeEntry evidence r) := rfl

theorem componentText_injective : Function.Injective componentText := by
  intro a b h
  cases a <;> cases b <;> first | rfl | simp [componentText] at h

theorem eventText_eq_transfer {e : EventType} : eventText e = "transfer" ↔ e = .transfer := by
  cases e <;> simp [eventText]

theorem exact_amount (n : ℕ) : Dec.Exact 2 (amount n) := ⟨n, by unfold amount; push_cast; norm_num⟩

theorem exact_totals {α : Type*} {p : α → Bool} {v : α → Dec} {l : List α} (h : ∀ a ∈ l, Dec.Exact 2 (v a)) :
    Dec.Exact 2 (Table.total p v l) := by
  induction l with
  | nil => exact Dec.exact_zero
  | cons a l ih =>
    obtain ⟨ha, hl⟩ := List.forall_mem_cons.1 h
    rw [Table.total_cons]
    refine Dec.Exact.add ?_ (ih hl)
    split
    · exact ha
    · exact Dec.exact_zero

theorem fits_of_nonneg {x : Dec} (h : 0 ≤ x) (hlt : x < 100000000000000) : fits x = true := by
  rw [fits, Bool.and_eq_true, decide_eq_true_eq, decide_eq_true_eq]
  exact ⟨by linarith, hlt⟩

/-- An amount that was entered is read back. -/
theorem money_entered {x : Dec} (h : ∃ n, x = amount n ∧ x < 100000000000000) : money (.text (columnText x)) = .ok x := by
  obtain ⟨n, rfl, hlt⟩ := h
  have hnonneg : (0 : Dec) ≤ amount n := by
    unfold amount
    positivity
  exact money_columnText (exact_amount n) (fits_of_nonneg hnonneg hlt)

theorem exact_entered (h : r.Entered) : Dec.Exact 2 (r.credit - r.debit) := by
  obtain ⟨n, hn, -⟩ := h.credit
  obtain ⟨k, hk, -⟩ := h.debit
  rw [hn, hk]
  exact (exact_amount n).sub (exact_amount k)

theorem amount_placeEntry (h : r.Entered) : (placeEntry evidence r).amount = r.credit - r.debit := by
  have hcredit : amountOf (placeEntry evidence r).credit = r.credit := amountOf_of_ok (money_entered h.credit)
  have hdebit : amountOf (placeEntry evidence r).debit = r.debit := amountOf_of_ok (money_entered h.debit)
  rw [Entry.amount, hcredit, hdebit]

/-- What the loop keeps of the rows before is theirs. -/
theorem addAll_kept (es : List Entry) :
    (tally.addAll es).operationNumbers = (es.map (·.operationNumber.key)).reverse ++ tally.operationNumbers ∧
    (tally.addAll es).events =
      (es.map fun e => (e.eventReference.key, e.member.str, e.component.key)).reverse ++ tally.events ∧
    (tally.addAll es).branches = (es.map fun e => (e.operationGroup.key, e.branch.key)).reverse ++ tally.branches := by
  induction es generalizing tally with
  | nil => exact ⟨rfl, rfl, rfl⟩
  | cons e es ih =>
    rw [Tally.addAll, List.foldl_cons, ← Tally.addAll]
    obtain ⟨hnumbers, hevents, hbranches⟩ := @ih (tally.add e e.amount)
    refine ⟨hnumbers.trans ?_, hevents.trans ?_, hbranches.trans ?_⟩ <;>
      rw [List.map_cons, List.reverse_cons, List.append_assoc] <;> rfl

/-- What differs between the rows of a ledger is not among the rows before. -/
theorem notMem_before {κ : Type*} {f : Row → κ} {before after : List Row} (h : ((before ++ r :: after).map f).Nodup) :
    ∀ x ∈ before, f x ≠ f r := by
  intro x hx heq
  rw [List.map_append, List.map_cons, List.nodup_append] at h
  exact h.2.2 _ (List.mem_map_of_mem hx) _ List.mem_cons_self heq

theorem lookup_of_mem {α : Type*} {l : List (String × α)} {k : String} {v : α} (hnd : (l.map (·.1)).Nodup)
    (h : (k, v) ∈ l) : l.lookup k = some v := by
  induction l with
  | nil => cases h
  | cons a l ih =>
    obtain ⟨a, b⟩ := a
    rw [List.map_cons, List.nodup_cons] at hnd
    rw [List.lookup_cons]
    rcases List.mem_cons.1 h with heq | hin
    · obtain ⟨rfl, rfl⟩ := Prod.mk.inj heq
      rw [beq_self_eq_true]
    · have hne : (k == a) = false := by
        rw [beq_eq_false_iff_ne]
        rintro rfl
        exact hnd.1 (List.mem_map_of_mem (f := (·.1)) hin)
      rw [hne]
      exact ih hnd.2 hin

/-- The loop over the rows keeps the balances of the journal. -/
theorem addAll_placed (h : ∀ r ∈ rows, r.Entered) (k : ℕ) :
    (Tally.empty.addAll (rows.map (placeEntry evidence))).program = Journal.whole columns rows ∧
    (Tally.empty.addAll (rows.map (placeEntry evidence))).balances k.repr = Journal.own columns k rows := by
  have hamounts : ∀ l : List Row, (∀ r ∈ l, r.Entered) →
      (l.map (placeEntry evidence)).map Entry.amount = l.map fun r => r.credit - r.debit := by
    intro l hl
    rw [List.map_map]
    exact List.map_congr_left fun r hr => amount_placeEntry (hl r hr)
  constructor
  · rw [empty_addAll_program, hamounts rows h, Journal.whole, Table.total, List.filter_eq_self.2 fun _ _ => rfl]
    rfl
  · have hfilter : (rows.map (placeEntry evidence)).filter (·.member.str == k.repr) =
        (rows.filter fun r => decide (r.member = k)).map (placeEntry evidence) := by
      rw [List.filter_map]
      refine congrArg _ (List.filter_congr fun r _ => ?_)
      show (r.member.repr == k.repr) = _
      rw [beq_eq_decide]
      exact decide_eq_decide.2 repr_injective.eq_iff
    rw [empty_addAll_balances, balanceOf, hfilter, hamounts _ fun r hr => h r (List.mem_filter.1 hr).1]
    rfl

/-- A row passes the checks after the rows before it. -/
theorem postable_placeEntry (h : Reads t w) (hs : Loyalty.Sound digest w) (ht : Loyalty.Tree w) (ha : Audited w)
    {before after : List Row} (hsplit : w.ledger = before ++ r :: after) :
    t.Postable (Tally.empty.addAll (before.map (placeEntry evidence))) (1 + before.length) (placeEntry evidence r) := by
  have hr : r ∈ w.ledger := hsplit ▸ List.mem_append_right _ List.mem_cons_self
  have hbefore : ∀ x ∈ before, x ∈ w.ledger := fun x hx => hsplit ▸ List.mem_append_left _ hx
  have hrecorded := ha.rows r hr
  have hentered := hrecorded.entered
  obtain ⟨hsequence, htotal, hown⟩ := hs.kept.chained before r after hsplit
  have hall : ∀ x ∈ before ++ [r], x.Entered := by
    intro x hx
    rcases List.mem_append.1 hx with hx | hx
    · exact (ha.rows x (hbefore x hx)).entered
    · rw [List.mem_singleton.1 hx]
      exact hentered
  have hexact : ∀ x ∈ before ++ [r], Dec.Exact 2 (columns.amount x) := fun x hx => exact_entered (hall x hx)
  obtain ⟨hprogram, hbalance⟩ := @addAll_placed evidence before (fun x hx => hall x (List.mem_append_left _ hx)) r.member
  have hamount := @amount_placeEntry evidence r hentered
  have hprogram' : (Tally.empty.addAll (before.map (placeEntry evidence))).program + (placeEntry evidence r).amount =
      r.programBalanceAfter := by
    rw [hprogram, hamount]
    exact (htotal.trans Journal.whole_concat).symm
  have hbalance' : (Tally.empty.addAll (before.map (placeEntry evidence))).balances r.member.repr +
      (placeEntry evidence r).amount = r.memberBalanceAfter := by
    rw [hbalance, hamount]
    exact (hown.trans (Journal.own_concat.trans (by rw [if_pos rfl]; rfl))).symm
  have hcredit : amountOf (placeEntry evidence r).credit = r.credit := amountOf_of_ok (money_entered hentered.credit)
  have hdebit : amountOf (placeEntry evidence r).debit = r.debit := amountOf_of_ok (money_entered hentered.debit)
  obtain ⟨hnumbers, hevents, hbranches⟩ := @addAll_kept Tally.empty (before.map (placeEntry evidence))
  refine
    { member := ?_, sequence := ?_, hashable := ?_, operationNumber := ?_, event := ?_, branch := ?_, treeNumber := ?_
      credit := ?_, debit := ?_, sides := ?_, program := ?_, own := ?_, negative := ?_ }
  · obtain ⟨m, hm, hpk, hcustomer, hnumber⟩ := hrecorded.owner
    refine ⟨memberFields m, .int m.customer, .text m.number, ?_, rfl, rfl, ?_, ?_⟩
    · refine lookup_of_mem ?_ ?_
      · refine (h.members.map (·.1)).nodup_iff.2 ?_
        simpa [List.map_map, Function.comp_def] using hs.members.map repr_injective
      · rw [h.members.mem_iff, List.mem_map]
        exact ⟨m, hm, Prod.ext (congrArg Nat.repr hpk) rfl⟩
    · rw [hcustomer]
      rfl
    · rw [hnumber]
      rfl
  · have hcount : r.sequence = 1 + before.length := hsequence.trans (Nat.add_comm _ _)
    show (Value.int r.sequence).key = _
    rw [key_int, hcount]
  · exact Bool.false_ne_true
  · rw [hnumbers, List.mem_append, List.mem_reverse, List.map_map, List.mem_map]
    rintro (⟨x, hx, hkey⟩ | hin)
    · exact notMem_before (hsplit ▸ hs.kept.operationNumber) x hx (Key.text.inj hkey)
    · cases hin
  · rw [hevents, List.mem_append, List.mem_reverse, List.map_map, List.mem_map]
    rintro (⟨x, hx, hkey⟩ | hin)
    · obtain ⟨hreference, hkey⟩ := Prod.mk.inj hkey
      obtain ⟨hmember, hcomponent⟩ := Prod.mk.inj hkey
      refine notMem_before (hsplit ▸ hs.kept.events) x hx ?_
      exact Prod.ext (Key.text.inj hreference)
        (Prod.ext (repr_injective hmember) (componentText_injective (Key.text.inj hcomponent)))
    · cases hin
  · rw [hbranches, List.mem_append, List.mem_reverse, List.map_map, List.mem_map]
    rintro (⟨x, hx, hkey⟩ | hin)
    · obtain ⟨hgroup, hbranch⟩ := Prod.mk.inj hkey
      have hname : x.operationGroup = r.operationGroup := Key.text.inj hgroup
      have hnumber : Key.number ((x.branch : ℤ) : ℚ) = Key.number ((r.branch : ℤ) : ℚ) := hbranch
      have hplace : x.branch = r.branch := by exact_mod_cast Key.number.inj hnumber
      exact notMem_before (hsplit ▸ hs.kept.operationBranch) x hx (Prod.ext hname hplace)
    · cases hin
  · obtain ⟨x, hx, hmember, htree⟩ := hrecorded.link
    show Key.text r.treeNumber ∈ (t.history r.member.repr).map (·.treeNumber.key)
    rw [h.history ht, List.map_map, List.mem_map]
    exact ⟨x, List.mem_filter.2 ⟨hx, by simp [hmember]⟩, congrArg Key.text htree⟩
  · rw [hcredit]
    exact money_entered hentered.credit
  · rw [hdebit]
    exact money_entered hentered.debit
  · rw [hcredit, hdebit]
    rcases hs.kept.sides r hr with ⟨hpos, hzero⟩ | ⟨hpos, hzero⟩
    · rw [hzero]
      exact ⟨hpos.le, le_rfl, fun hboth => lt_irrefl _ (hboth.1 hpos)⟩
    · rw [hzero]
      exact ⟨le_rfl, hpos.le, fun hboth => lt_irrefl _ (hboth.2 hpos)⟩
  · rw [hprogram']
    refine money_columnText ?_ hentered.balances.2
    rw [show r.programBalanceAfter = _ from htotal]
    exact exact_totals hexact
  · show money (placeEntry evidence r).memberBalanceAfter = .ok ((Tally.empty.addAll _).balances r.member.repr + _)
    rw [hbalance']
    refine money_columnText ?_ hentered.balances.1
    rw [show r.memberBalanceAfter = _ from hown]
    exact exact_totals hexact
  · show (Tally.empty.addAll _).balances r.member.repr + _ < 0 → _
    rw [hbalance', hcredit]
    intro hnegative
    rcases hentered.signed hnegative with hpos | ⟨hadjust, n, hn, hpos⟩ | hredeem
    · exact .inl hpos
    · refine .inr (.inl ⟨congrArg (fun e => Key.text (eventText e)) hadjust, ?_⟩)
      show (optional r.original).truthy = true
      rw [hn, optional_some]
      simp [Value.truthy, Value.int, Scalar.truthy]
      omega
    · exact .inr (.inr (congrArg (fun e => Key.text (eventText e)) hredeem))

/-- The rows are read and sorted into the order of the ledger. -/
theorem ledger_captured (h : s.Captures evidence w) (hs : Loyalty.Sound digest w) :
    ∃ entries, s.ledger = .ok entries ∧ sortEntries entries = .ok (w.ledger.map (placeEntry evidence)) := by
  obtain ⟨entries, hentries, hperm⟩ := mapM_of_perm (f := fun row : String × Fields => readEntry row.2)
    (h := placeEntry evidence) (rows_ledger h) fun r _ => readEntry_ledgerFields r
  obtain ⟨numbered, hnumbered, hnumberedPerm⟩ := mapM_of_perm (f := fun e : Entry => do
    return (← found e.sequence.number Failure.typeError, e)) (h := fun r => ((r.sequence : ℚ), placeEntry evidence r))
    hperm fun r _ => by
      show (do return (← found (Value.int r.sequence).number Failure.typeError, placeEntry evidence r)) = _
      rw [Value.number_of_key (key_int r.sequence)]
      rfl
  have hsorted : numbered.insertionSort (fun a b => a.1 ≤ b.1) =
      w.ledger.map fun r => ((r.sequence : ℚ), placeEntry evidence r) := by
    refine List.insertionSort_of_perm (f := fun a : ℚ × Entry => a.1) hnumberedPerm ?_
    rw [List.pairwise_map]
    have hnumbers : (w.ledger.map columns.number).Pairwise (· < ·) := by
      rw [hs.kept.chained.numbers]
      exact List.pairwise_lt_range'
    exact (List.pairwise_map.1 hnumbers).imp fun hlt => Nat.cast_lt.2 hlt
  refine ⟨entries, hentries, ?_⟩
  simp only [sortEntries, bind_eq_ok, pure_eq_ok]
  refine ⟨numbered, hnumbered, ?_⟩
  rw [hsorted, List.map_map]
  rfl

/-- The two rows of a transfer are a pair for the check, too. -/
theorem pairs_placed (ha : Audited w) {e : Entry}
    (he : e ∈ (Tally.empty.addAll (w.ledger.map (placeEntry evidence))).transfers) :
    checkPair ((Tally.empty.addAll (w.ledger.map (placeEntry evidence))).group e.operationGroup.key) = .ok () := by
  have hkind : ∀ r : Row, ((placeEntry evidence r).eventType.key == .text "transfer") = (r.eventType == .transfer) := by
    intro r
    show (Key.text (eventText r.eventType) == Key.text "transfer") = _
    rw [beq_eq_decide, beq_eq_decide]
    exact decide_eq_decide.2 (Key.text.injEq _ _ ▸ eventText_eq_transfer)
  rw [addAll_transfers] at he
  obtain ⟨he, htransfer⟩ := List.mem_filter.1 ((List.nil_append _) ▸ he)
  obtain ⟨r, hr, rfl⟩ := List.mem_map.1 he
  rw [hkind] at htransfer
  obtain ⟨a, b, hrows, hpair⟩ := ha.transfers r hr (beq_iff_eq.1 htransfer)
  have hgroup : transferGroup (w.ledger.map (placeEntry evidence)) (placeEntry evidence r).operationGroup.key =
      (transferRows w.ledger r.operationGroup).map (placeEntry evidence) := by
    rw [transferGroup, transferRows, List.filter_map]
    refine congrArg _ (List.filter_congr fun x _ => ?_)
    show (Key.text x.operationGroup == Key.text r.operationGroup && _) = _
    simp only [hkind, beq_eq_decide, Key.text.injEq]
  have hentered : ∀ x ∈ transferRows w.ledger r.operationGroup, x.Entered := fun x hx =>
    (ha.rows x (List.mem_filter.1 hx).1).entered
  rw [hrows] at hgroup hentered
  have hea := hentered a List.mem_cons_self
  have heb := hentered b (List.mem_cons_of_mem _ (List.mem_singleton_self b))
  rw [empty_addAll_group, hgroup, checkPair_eq_ok]
  refine ⟨placeEntry evidence a, placeEntry evidence b, rfl, ?_, ?_, ⟨a.credit, money_entered hea.credit, ?_⟩,
    a.debit, money_entered hea.debit, ?_⟩
  · show (Value.int a.member).key = (optional b.counterpart).key
    rw [hpair.back, optional_some]
  · show (Value.int b.member).key = (optional a.counterpart).key
    rw [hpair.there, optional_some]
  · rw [hpair.paid]
    exact money_entered heb.debit
  · rw [hpair.received]
    exact money_entered heb.credit

/-- The ledger of the snapshot is accepted, but for what a check of the evidence says of its rows. -/
theorem checkLedger_captured (h : Reads t w) (hs : Loyalty.Sound digest w) (ht : Loyalty.Tree w) (ha : Audited w)
    (hsort : sortEntries entries = .ok (w.ledger.map (placeEntry evidence))) (check : Entry → Except Failure Unit) :
    (∃ answer, t.checkLedger check entries = .ok answer) ↔ ∀ r ∈ w.ledger, check (placeEntry evidence r) = .ok () := by
  constructor
  · rintro ⟨⟨ledger, tally⟩, hcheck⟩ r hr
    obtain ⟨hsorted, -, hrows, -⟩ := checkLedger_eq_ok.1 hcheck
    obtain rfl := Except.ok.inj (hsort.symm.trans hsorted)
    obtain ⟨before, after, hsplit⟩ := List.append_of_mem (List.mem_map_of_mem (f := placeEntry evidence) hr)
    exact (hrows before _ after hsplit).2
  · intro hevidence
    refine ⟨(w.ledger.map (placeEntry evidence), Tally.empty.addAll (w.ledger.map (placeEntry evidence))),
      checkLedger_eq_ok.2 ⟨hsort, rfl, fun before e after hsplit => ?_, fun e he => pairs_placed ha he⟩⟩
    obtain ⟨rows, rest, hledger, rfl, hrest⟩ := List.map_eq_append_iff.1 hsplit
    obtain ⟨r, after', rfl, rfl, -⟩ := List.map_eq_cons_iff.1 hrest
    rw [List.length_map]
    exact ⟨postable_placeEntry h hs ht ha hledger, hevidence r (hledger ▸ List.mem_append_right _ List.mem_cons_self)⟩

end

/-! ### Every run -/

section
variable {w : World}

open Machine in
/-- The checks of the members, the links and the ledger accept the snapshot of every state that a run of the core reaches;
what is left is what the evidence of the rows refers to. -/
theorem reachable_core_is_backupable (h : w.Founded) (digest : Payload → String) (as : List Action)
    (evidence : Row → Document) (env : Review) (schema sourceId capturedAt : String) {others : List Record}
    (hothers : ∀ r ∈ others, r.model ∉ coreModels) :
    let v := run (World.step digest) w as
    let s := capture evidence env schema sourceId capturedAt others v
    ∃ t entries, readTree s = .ok t ∧ t.check = .ok () ∧ s.ledger = .ok entries ∧ ∀ check : Entry → Except Failure Unit,
      (∃ answer, t.checkLedger check entries = .ok answer) ↔ ∀ r ∈ v.ledger, check (placeEntry evidence r) = .ok () := by
  intro v s
  obtain ⟨hs, ht, ha⟩ := h.run digest as
  have hcaptures : s.Captures evidence v := capture_captures hothers
  obtain ⟨t, hread, htree⟩ := readTree_captured hcaptures hs ht ha
  obtain ⟨entries, hentries, hsort⟩ := ledger_captured hcaptures hs
  exact ⟨t, entries, hread, Tree.check_eq_ok.2 (htree.checked hs ht), hentries,
    fun check => checkLedger_captured htree hs ht ha hsort check⟩

end

/-- A stay earns points; the guest joins, is linked above two others and passes points on to one of them. -/
def movedRun : List Action :=
  .book stayPk 5 (confirmedBy 1) :: linkRun ++ [.operate paidSite (.transfer 1 "gift-1" "LSA-M000002" 10)]

def movedWorld : World := Machine.run (World.step plainDigest) emptyWorld movedRun

def plainEvidence : Row → Document := fun _ => ⟨some ⟨[], [], .null⟩, "{}"⟩

theorem reachable_core_is_backupable_moved :
    (movedWorld.revisions.length, movedWorld.ledger.map (·.memberBalanceAfter)) = (3, [30, 20, 10]) ∧
    ∃ t entries answer, readTree (capture plainEvidence loyaltyReview "schema" "pilot" "2026-01-01" [] movedWorld) = .ok t ∧
      t.check = .ok () ∧ t.checkLedger (checkEvidence []) entries = .ok answer := by
  obtain ⟨t, entries, hread, hcheck, -, hledger⟩ := reachable_core_is_backupable emptyWorld_founded plainDigest movedRun
    plainEvidence loyaltyReview "schema" "pilot" "2026-01-01" (List.forall_mem_nil _)
  obtain ⟨answer, hanswer⟩ := (hledger (checkEvidence [])).2 fun r _ => by rfl
  exact ⟨by decide +kernel, t, entries, answer, hread, hcheck, hanswer⟩

end Apartments.Backup
