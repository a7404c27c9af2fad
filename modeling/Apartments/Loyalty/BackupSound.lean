import Apartments.Lib.Forest
import Apartments.Lib.Traverse
import Apartments.Loyalty.Backup
import Mathlib.Algebra.BigOperators.Group.List.Basic

/-!
# What an accepted snapshot says

The loops of `validate` are read as statements about the records: the walks along the current links are chains of a forest,
and the ledger is the rows of a book with its running balances. The records are arbitrary: nothing is asked of them but
that `validate` returns.
-/

namespace Apartments.Backup

/-! ### Records -/

theorem checkFormat_nodup {env : Review} {schema : String} {seen : List (String × String)} {rs : List Record}
    (h : checkFormat env schema seen rs = .ok ()) :
    (rs.map Record.key).Nodup ∧ ∀ r ∈ rs, r.key ∉ seen := by
  induction rs generalizing seen with
  | nil => exact ⟨List.nodup_nil, nofun⟩
  | cons r rs ih =>
    simp only [checkFormat, bind_eq_ok, found_eq_ok, raiseIf_eq_ok, exists_const] at h
    obtain ⟨_, -, -, hr, h⟩ := h
    obtain ⟨hnodup, hseen⟩ := ih h
    refine ⟨List.nodup_cons.2 ⟨fun hmem => ?_, hnodup⟩, List.forall_mem_cons.2 ⟨hr, fun x hx hin => ?_⟩⟩
    · obtain ⟨x, hx, hkey⟩ := List.mem_map.1 hmem
      exact hseen x hx (hkey ▸ List.mem_cons_self)
    · exact hseen x hx (List.mem_cons_of_mem _ hin)

theorem Snapshot.rows_nodup {s : Snapshot} (h : (s.records.map Record.key).Nodup) (model : String) :
    ((s.rows model).map (·.1)).Nodup := by
  have hfilter : ((s.records.filter (·.model == model)).map Record.key).Nodup :=
    h.sublist (List.filter_sublist.map _)
  rw [Snapshot.rows, List.map_map]
  refine List.Nodup.map_on (fun r hr r' hr' heq => ?_) (List.Nodup.of_map _ hfilter)
  have hmodel : r.model = model := by simpa using (List.mem_filter.1 hr).2
  have hmodel' : r'.model = model := by simpa using (List.mem_filter.1 hr').2
  refine List.inj_on_of_nodup_map hfilter hr hr' ?_
  exact Prod.ext (hmodel.trans hmodel'.symm) heq

/-! ### The referral tree -/

section
variable {t : Tree} {k : String} {x y : Link}

/-- The members and the links of a tree that is read. -/
structure Tree.Complete (t : Tree) : Prop where
  members : (t.members.map (·.1)).Nodup
  referrals : (t.referrals.map (·.1)).Nodup
  mem : ∀ k, k ∈ t.members.map (·.1) ↔ k ∈ t.referrals.map (·.1)

theorem readTree_complete {s : Snapshot} (hs : (s.records.map Record.key).Nodup) (h : readTree s = .ok t) :
    t.members = s.rows "loyalty.member" ∧ t.Complete := by
  simp only [readTree, bind_eq_ok, raiseIf_eq_ok, exists_const, pure_eq_ok] at h
  obtain ⟨referrals, -, hnodup, hmem, _, -, _, -, _, -, -, _, -, -, revisions, -, rfl⟩ := h
  obtain ⟨hsub, hsup⟩ := not_not.1 hmem
  exact ⟨rfl, Snapshot.rows_nodup hs _, not_not.1 hnodup, fun k => ⟨fun hk => hsub hk, fun hk => hsup hk⟩⟩

theorem Tree.mem_keys : k ∈ t.keys ↔ k ∈ t.referrals.map (·.1) ∨ k ∈ t.revisions.map (·.1) := by
  rw [Tree.keys, List.mem_eraseDups, List.mem_append]

theorem Tree.history_ne_nil : t.history k ≠ [] ↔ k ∈ t.keys := by
  rw [Tree.mem_keys, Tree.history]
  simp [List.filter_eq_nil_iff, List.append_eq_nil_iff]
  grind

theorem Tree.current_isSome : (t.current k).isSome = true ↔ k ∈ t.keys := by
  rw [← Tree.history_ne_nil, Tree.current, ne_eq, ← List.getLast?_eq_none_iff, Option.isSome_iff_ne_none]

theorem Tree.mem_history_of_current (h : t.current k = some x) : x ∈ t.history k := List.mem_of_getLast? h

/-- The current links with their members. -/
def Tree.currents (t : Tree) : List (String × Link) := t.keys.filterMap fun k => (t.current k).map (k, ·)

theorem Tree.mem_currents {e : String × Link} : e ∈ t.currents ↔ t.current e.1 = some e.2 := by
  obtain ⟨k, x⟩ := e
  simp only [Tree.currents, List.mem_filterMap, Option.map_eq_some_iff, Prod.mk.injEq]
  constructor
  · rintro ⟨_, -, _, h, rfl, rfl⟩
    exact h
  · intro h
    exact ⟨k, Tree.current_isSome.1 (by simp [h]), x, h, rfl, rfl⟩

/-- The loop that looks the current links up raises nothing. -/
theorem Tree.currents_eq (t : Tree) :
    (t.keys.mapM fun member => do
      let x ← found (t.current member) (.keyError member)
      return (member, x)) = (.ok t.currents : Except Failure _) := by
  have hkeys : ∀ ks : List String, (∀ k ∈ ks, (t.current k).isSome = true) →
      List.Forall₂ (fun k e => (do
        let x ← found (t.current k) (.keyError k)
        return (k, x) : Except Failure (String × Link)) = .ok e) ks
        (ks.filterMap fun k => (t.current k).map (k, ·)) := by
    intro ks hks
    induction ks with
    | nil => exact .nil
    | cons k ks ih =>
      obtain ⟨hk, hks⟩ := List.forall_mem_cons.1 hks
      obtain ⟨x, hx⟩ := Option.isSome_iff_exists.1 hk
      rw [List.filterMap_cons_some (b := (k, x)) (by rw [hx]; rfl)]
      refine .cons ?_ (ih hks)
      rw [hx]
      rfl
  exact mapM_eq_ok.2 (hkeys t.keys fun k hk => Tree.current_isSome.2 hk)

theorem Tree.currents_keys (t : Tree) : t.currents.map (·.1) = t.keys := by
  have hkeys : ∀ ks : List String, (∀ k ∈ ks, (t.current k).isSome = true) →
      (ks.filterMap fun k => (t.current k).map (k, ·)).map (·.1) = ks := by
    intro ks hks
    induction ks with
    | nil => rfl
    | cons k ks ih =>
      obtain ⟨hk, hks⟩ := List.forall_mem_cons.1 hks
      obtain ⟨x, hx⟩ := Option.isSome_iff_exists.1 hk
      rw [List.filterMap_cons_some (b := (k, x)) (by rw [hx]; rfl), List.map_cons, ih hks]
  exact hkeys t.keys fun k hk => Tree.current_isSome.2 hk

/-- What the check of the links asks. -/
structure Tree.Checked (t : Tree) : Prop where
  valid : ∀ k ∈ t.keys, ∀ x ∈ t.history k, t.valid k x = .ok true
  hashable : ¬ (t.currents.map (·.2.treeNumber)).any Value.isDocument = true
  distinct : (t.currents.map (·.2.treeNumber.key)).dedup.length = t.members.length
  walk : ∀ e ∈ t.currents, t.walk (t.referrals.length + t.revisions.length) [e.1] e.2 = .ok ()

theorem Tree.check_eq_ok : t.check = .ok () ↔ t.Checked := by
  simp only [Tree.check, Tree.currents_eq, bind_eq_ok, forM_eq_ok, hashable, raiseIf_eq_ok, exists_const,
    Except.ok.injEq, exists_eq_left']
  constructor
  · rintro ⟨hvalid, hhash, hdistinct, hwalk⟩
    refine ⟨fun k hk x hx => ?_, hhash, not_not.1 hdistinct, hwalk⟩
    obtain ⟨b, hb, htrue⟩ := hvalid k hk x hx
    rw [Bool.not_eq_false] at htrue
    rw [hb, htrue]
  · intro h
    exact ⟨fun k hk x hx => ⟨true, h.valid k hk x hx, by simp⟩, h.hashable, not_not.2 h.distinct, h.walk⟩

/-! ### The walks along the current links -/

/-- The member above a member by the current links. -/
def Tree.up (t : Tree) (member : String) : Option (Option String) := (t.current member).map Link.parent

theorem Value.number_of_key {v : Value} {n : ℚ} (h : v.key = .number n) : v.number = some n := by
  rcases v with s | d
  · cases s with
    | null => cases h
    | text s => cases h
    | bool b =>
      cases h
      rfl
    | int m =>
      cases h
      rfl
    | float q shown =>
      cases h
      rfl
  · cases h

/-- A link that follows another one is one deeper. -/
theorem follows_depth {n : ℕ} (h : follows x y = .ok true) (hy : y.depth.key = .number n) :
    x.depth.key = .number (n + 1 : ℕ) := by
  unfold follows at h
  split at h
  · cases h
  · rw [bind_eq_ok] at h
    obtain ⟨depth, hdepth, h⟩ := h
    rw [Value.succ, Value.number_of_key hy, found_eq_ok, Option.map_some, Option.some.injEq] at hdepth
    by_contra hne
    rw [if_pos (by rwa [← hdepth, ← Nat.cast_succ])] at h
    cases h

theorem Tree.Checked.root_depth (ht : t.Checked) (hx : t.current k = some x) (hroot : x.parent = none) :
    x.depth.key = .number 0 := by
  have hk : k ∈ t.keys := Tree.current_isSome.1 (by simp [hx])
  have hvalid := ht.valid k hk x (Tree.mem_history_of_current hx)
  rw [Tree.valid, hroot] at hvalid
  by_contra hdepth
  dsimp only at hvalid
  split at hvalid
  · cases hvalid
  · cases hvalid

/-- A walk that ends without an error went along the chain of a member, and met nobody twice. -/
theorem Tree.Checked.chain (ht : t.Checked) {rounds : ℕ} {seen : List String} (hx : t.current k = some x)
    (hwalk : t.walk rounds seen x = .ok ()) :
    ∃ ks, Forest.Chain t.up k ks ∧ ks.Nodup ∧ (∀ p ∈ ks, p ∉ seen) ∧ x.depth.key = .number ks.length := by
  induction rounds generalizing seen k x with
  | zero =>
    rw [Tree.walk] at hwalk
    split at hwalk
    · rename_i hparent
      exact ⟨[], .root (by rw [Tree.up, hx, Option.map_some, hparent]), List.nodup_nil, nofun, ht.root_depth hx hparent⟩
    · simp only [bind_eq_ok, reduceCtorEq, and_false, exists_false] at hwalk
  | succ rounds ih =>
    rw [Tree.walk] at hwalk
    split at hwalk
    · rename_i hparent
      exact ⟨[], .root (by rw [Tree.up, hx, Option.map_some, hparent]), List.nodup_nil, nofun, ht.root_depth hx hparent⟩
    · rename_i p hparent
      simp only [bind_eq_ok, found_eq_ok, raiseIf_eq_ok, exists_const, Bool.not_eq_false] at hwalk
      obtain ⟨hp, y, hy, _, hfollows, rfl, hwalk⟩ := hwalk
      obtain ⟨ks, hchain, hnodup, hseen, hdepth⟩ := ih hy hwalk
      refine ⟨p :: ks, .link (by rw [Tree.up, hx, Option.map_some, hparent]) hchain, ?_, ?_, ?_⟩
      · exact List.nodup_cons.2 ⟨fun hin => hseen p hin List.mem_cons_self, hnodup⟩
      · refine List.forall_mem_cons.2 ⟨hp, fun q hq hin => ?_⟩
        exact hseen q hq (List.mem_cons_of_mem _ hin)
      · exact follows_depth hfollows hdepth

theorem follows_ends (x y : Link) : Outcome (follows x y) (fun _ => True) (· ≠ .unfinished) := by
  unfold follows
  refine Outcome.ite (fun _ => trivial) fun _ => Outcome.lookup nofun fun _ _ => ?_
  exact Outcome.ite (fun _ => trivial) fun _ => Outcome.lookup nofun fun _ _ => trivial

/-- The walk ends: it meets nobody twice, and there are no more members than links. -/
theorem Tree.walk_ends {rounds : ℕ} {seen : List String} (hseen : seen.Nodup) (hkeys : ∀ k ∈ seen, k ∈ t.keys)
    (hrounds : t.referrals.length + t.revisions.length ≤ rounds + seen.length) :
    Outcome (t.walk rounds seen x) (fun _ => True) (· ≠ .unfinished) := by
  have hshort : ∀ l : List String, l.Nodup → (∀ k ∈ l, k ∈ t.keys) →
      l.length ≤ t.referrals.length + t.revisions.length := by
    intro l hl hin
    have hsub : l ⊆ t.referrals.map (·.1) ++ t.revisions.map (·.1) := fun k hk =>
      List.mem_append.2 (Tree.mem_keys.1 (hin k hk))
    have := (List.subperm_of_subset hl hsub).length_le
    simpa using this
  induction rounds generalizing seen x with
  | zero =>
    rw [Tree.walk]
    split
    · trivial
    · rename_i p _
      refine Outcome.guard nofun fun hp => Outcome.lookup nofun fun y hy => (follows_ends x y).bind fun _ _ => ?_
      refine Outcome.guard nofun fun _ => ?_
      have hlen := hshort (p :: seen) (List.nodup_cons.2 ⟨hp, hseen⟩)
        (List.forall_mem_cons.2 ⟨Tree.current_isSome.1 (by simp [hy]), hkeys⟩)
      simp only [List.length_cons] at hlen
      omega
  | succ rounds ih =>
    rw [Tree.walk]
    split
    · trivial
    · rename_i p _
      refine Outcome.guard nofun fun hp => Outcome.lookup nofun fun y hy => (follows_ends x y).bind fun _ _ => ?_
      refine Outcome.guard nofun fun _ => ih (List.nodup_cons.2 ⟨hp, hseen⟩) ?_ ?_
      · exact List.forall_mem_cons.2 ⟨Tree.current_isSome.1 (by simp [hy]), hkeys⟩
      · simp only [List.length_cons]
        omega

/-- The current links are a forest, in which the depth of a member is the number of those above. -/
def Tree.IsForest (t : Tree) : Prop :=
  ∀ k x, t.current k = some x → ∃ ks, Forest.Chain t.up k ks ∧ (k :: ks).Nodup ∧ x.depth.key = .number ks.length

/-- The current links have different tree numbers. -/
def Tree.Numbered (t : Tree) : Prop :=
  ∀ k l x y, t.current k = some x → t.current l = some y → x.treeNumber.key = y.treeNumber.key → k = l

theorem Tree.Checked.isForest (ht : t.Checked) : t.IsForest := by
  intro k x hx
  obtain ⟨ks, hchain, hnodup, hseen, hdepth⟩ := ht.chain hx (ht.walk (k, x) (Tree.mem_currents.2 hx))
  exact ⟨ks, hchain, List.nodup_cons.2 ⟨fun hk => hseen k hk (List.mem_singleton_self k), hnodup⟩, hdepth⟩

theorem Tree.Complete.current (hc : t.Complete) (hk : k ∈ t.members.map (·.1)) : ∃ x, t.current k = some x :=
  Option.isSome_iff_exists.1 (Tree.current_isSome.2 (Tree.mem_keys.2 (.inl ((hc.mem k).1 hk))))

/-- The number of different tree numbers is compared with the number of members: it is that of the current links when every
revision is of a member. -/
theorem Tree.Checked.numbered (ht : t.Checked) (hc : t.Complete)
    (hmembers : ∀ k ∈ t.revisions.map (·.1), k ∈ t.members.map (·.1)) : t.Numbered := by
  have hkeys : t.keys.Perm (t.members.map (·.1)) := by
    refine (List.perm_ext_iff_of_nodup (List.nodup_eraseDups _) hc.members).2 fun k => ?_
    rw [← Tree.keys, Tree.mem_keys, hc.mem]
    exact ⟨fun h => h.elim id fun hk => (hc.mem k).1 (hmembers k hk), .inl⟩
  have hlength : t.currents.length = t.members.length := by
    have := hkeys.length_eq
    rwa [← Tree.currents_keys, List.length_map, List.length_map] at this
  have hnodup : (t.currents.map (·.2.treeNumber.key)).Nodup := by
    refine List.nodup_of_length_dedup ?_
    rw [ht.distinct, List.length_map, hlength]
  intro k l x y hx hy hxy
  exact congrArg Prod.fst (List.inj_on_of_nodup_map hnodup (Tree.mem_currents (e := (k, x)).2 hx)
    (Tree.mem_currents (e := (l, y)).2 hy) hxy)

end

/-! ### The ledger -/

/-- The amount that a text states. -/
def amountOf (v : Value) : Dec := (money v).toOption.getD 0

/-- What a row adds to the balances. -/
def Entry.amount (e : Entry) : Dec := amountOf e.credit - amountOf e.debit

theorem amountOf_of_ok {v : Value} {x : Dec} (h : money v = .ok x) : amountOf v = x := by
  rw [amountOf, h]
  rfl

/-- The tally after some rows. -/
def Tally.addAll (t : Tally) (rows : List Entry) : Tally := rows.foldl (fun t e => t.add e e.amount) t

section
variable {tree : Tree} {t t' : Tally} {n : ℕ} {e : Entry} {evidence : Entry → Except Failure Unit} {rows : List Entry}

/-- What the check of a row asks, when it is the `n`-th one and the rows before it make the tally. -/
structure Tree.Postable (tree : Tree) (t : Tally) (n : ℕ) (e : Entry) : Prop where
  member : ∃ fields customer number, tree.members.lookup e.member.str = some fields ∧ read fields "customer" = .ok customer ∧
    read fields "number" = .ok number ∧ e.customer.key = customer.key ∧ e.membershipNumber.key = number.key
  sequence : e.sequence.key = .number n
  hashable : ¬ [e.operationNumber, e.eventReference, e.component, e.operationGroup, e.branch, e.treeNumber].any
    Value.isDocument = true
  operationNumber : e.operationNumber.key ∉ t.operationNumbers
  event : (e.eventReference.key, e.member.str, e.component.key) ∉ t.events
  branch : (e.operationGroup.key, e.branch.key) ∉ t.branches
  treeNumber : e.treeNumber.key ∈ (tree.history e.member.str).map (·.treeNumber.key)
  credit : money e.credit = .ok (amountOf e.credit)
  debit : money e.debit = .ok (amountOf e.debit)
  sides : 0 ≤ amountOf e.credit ∧ 0 ≤ amountOf e.debit ∧ ¬ (0 < amountOf e.credit ↔ 0 < amountOf e.debit)
  program : money e.programBalanceAfter = .ok (t.program + e.amount)
  own : money e.memberBalanceAfter = .ok (t.balances e.member.str + e.amount)
  negative : t.balances e.member.str + e.amount < 0 → 0 < amountOf e.credit ∨
    (e.eventType.key = .text "adjust" ∧ e.original.truthy = true) ∨ e.eventType.key = .text "redeem"

theorem Tally.add_own (t : Tally) (e : Entry) (x : Dec) :
    (t.add e x).balances e.member.str = t.balances e.member.str + x := if_pos rfl

theorem post_eq_ok : tree.post t n e = .ok t' ↔ tree.Postable t n e ∧ t' = t.add e e.amount := by
  simp only [Tree.post, hashable, bind_eq_ok, found_eq_ok, raiseIf_eq_ok, exists_const, pure_eq_ok, Tally.add_own]
  constructor
  · rintro ⟨fields, hfields, hsequence, hhash, hn, hhash', he, hhash'', hb, customer, hcustomer, number, hnumber, hid,
      htree, ht, credit, hcredit, debit, hdebit, hsides, program, hprogram, hp, own, hown, ho, hnegative, rfl⟩
    obtain rfl := amountOf_of_ok hcredit
    obtain rfl := amountOf_of_ok hdebit
    obtain rfl := not_not.1 hp
    obtain rfl := not_not.1 ho
    simp only [not_or, not_lt, not_not] at hid hsides
    refine ⟨⟨⟨fields, customer, number, hfields, hcustomer, hnumber, hid⟩, not_not.1 hsequence, ?_, hn, he, hb,
      not_not.1 ht, hcredit, hdebit, hsides, hprogram, hown, fun hneg => ?_⟩, rfl⟩
    · simp only [List.any_cons, List.any_nil, Bool.or_false, Bool.or_eq_true, not_or] at hhash hhash' hhash'' htree ⊢
      exact ⟨hhash, hhash'.1, hhash'.2, hhash''.1, hhash''.2, htree⟩
    · by_contra hno
      exact hnegative ⟨hneg, hno⟩
  · rintro ⟨h, rfl⟩
    obtain ⟨fields, customer, number, hfields, hcustomer, hnumber, hid⟩ := h.member
    have hhash := h.hashable
    simp only [List.any_cons, List.any_nil, Bool.or_false, Bool.or_eq_true, not_or] at hhash
    obtain ⟨ho, he, hc, hg, hb, ht⟩ := hhash
    refine ⟨fields, hfields, not_not.2 h.sequence, by simpa using ho, h.operationNumber, by simp [he, hc], h.event,
      by simp [hg, hb], h.branch, customer, hcustomer, number, hnumber, ?_, by simpa using ht,
      not_not.2 h.treeNumber, _, h.credit, _, h.debit, ?_, _, h.program, not_not.2 rfl, _, h.own, not_not.2 rfl, ?_, rfl⟩
    · rw [not_or, not_not, not_not]
      exact hid
    · rw [not_or, not_or, not_lt, not_lt]
      exact h.sides
    · rintro ⟨hneg, hno⟩
      exact hno (h.negative hneg)

/-- The rows are checked one after the other, each against the tally of those before it. -/
theorem postAll_eq_ok : tree.postAll evidence t n rows = .ok t' ↔ t' = t.addAll rows ∧
    ∀ before e after, rows = before ++ e :: after →
      tree.Postable (t.addAll before) (n + before.length) e ∧ evidence e = .ok () := by
  induction rows generalizing t n with
  | nil =>
    rw [Tree.postAll, Except.ok.injEq]
    refine ⟨fun h => ⟨h.symm, fun before e after h => ?_⟩, fun h => h.1.symm⟩
    simp at h
  | cons e rows ih =>
    simp only [Tree.postAll, bind_eq_ok, post_eq_ok, ih]
    constructor
    · rintro ⟨t₁, ⟨he, rfl⟩, _, hev, rfl, hrows⟩
      refine ⟨rfl, fun before e' after h => ?_⟩
      cases before with
      | nil =>
        obtain ⟨rfl, rfl⟩ := List.cons.inj h
        exact ⟨he, hev⟩
      | cons b before =>
        obtain ⟨rfl, rfl⟩ := List.cons.inj h
        have := hrows before e' after rfl
        rwa [Nat.add_right_comm, Nat.add_assoc] at this
    · rintro ⟨rfl, hrows⟩
      obtain ⟨he, hev⟩ := hrows [] e rows rfl
      refine ⟨_, ⟨he, rfl⟩, (), hev, rfl, fun before e' after h => ?_⟩
      have := hrows (e :: before) e' after (by rw [h]; rfl)
      rwa [List.length_cons, ← Nat.add_assoc, Nat.add_right_comm] at this

/-! ### The tally of the rows -/

theorem addAll_program : (t.addAll rows).program = t.program + (rows.map Entry.amount).sum := by
  induction rows generalizing t with
  | nil => exact (add_zero _).symm
  | cons e rows ih =>
    rw [Tally.addAll, List.foldl_cons, ← Tally.addAll, ih, List.map_cons, List.sum_cons, ← add_assoc]
    rfl

theorem addAll_balances (k : String) : (t.addAll rows).balances k =
    t.balances k + ((rows.filter (·.member.str == k)).map Entry.amount).sum := by
  induction rows generalizing t with
  | nil => exact (add_zero _).symm
  | cons e rows ih =>
    rw [Tally.addAll, List.foldl_cons, ← Tally.addAll, ih]
    by_cases hk : e.member.str = k
    · subst hk
      rw [Tally.add_own, List.filter_cons_of_pos (by simp), List.map_cons, List.sum_cons, add_assoc]
    · rw [List.filter_cons_of_neg (by simpa using hk)]
      congr 1
      exact if_neg fun h => hk h.symm

theorem addAll_transfers : (t.addAll rows).transfers =
    t.transfers ++ rows.filter fun e => e.eventType.key == .text "transfer" := by
  induction rows generalizing t with
  | nil => exact (List.append_nil _).symm
  | cons e rows ih =>
    rw [Tally.addAll, List.foldl_cons, ← Tally.addAll, ih]
    by_cases he : e.eventType.key = .text "transfer"
    · rw [List.filter_cons_of_pos (by simpa using he), Tally.add, if_pos he, List.append_assoc]
      rfl
    · rw [List.filter_cons_of_neg (by simpa using he), Tally.add, if_neg he]

/-- The balances of all members make up the program's. -/
theorem addAll_sum {keys : List String} (hkeys : keys.Nodup) (hrows : ∀ e ∈ rows, e.member.str ∈ keys)
    (ht : (keys.map t.balances).sum = t.program) : (keys.map (t.addAll rows).balances).sum = (t.addAll rows).program := by
  induction rows generalizing t with
  | nil => exact ht
  | cons e rows ih =>
    obtain ⟨he, hrows⟩ := List.forall_mem_cons.1 hrows
    refine ih hrows ?_
    show (keys.map fun k => if k = e.member.str then t.balances k + e.amount else t.balances k).sum = _
    rw [List.sum_map_ite_eq, List.count_eq_one_of_mem hkeys he, one_nsmul, ht, add_sub_cancel_left, add_comm]
    rfl

/-! ### Transfers -/

theorem checkPair_eq_ok : checkPair rows = .ok () ↔ ∃ a b, rows = [a, b] ∧ a.member.key = b.counterpart.key ∧
    b.member.key = a.counterpart.key ∧ (∃ x, money a.credit = .ok x ∧ money b.debit = .ok x) ∧
    ∃ x, money a.debit = .ok x ∧ money b.credit = .ok x := by
  unfold checkPair
  split
  · rename_i a b
    simp only [bind_eq_ok, raiseIf_eq_ok, exists_const, not_or, not_not, ne_eq]
    constructor
    · rintro ⟨⟨hab, hba⟩, x, hx, _, hx', rfl, y, hy, _, hy', rfl⟩
      exact ⟨a, b, rfl, hab, hba, ⟨x, hx, hx'⟩, y, hy, hy'⟩
    · rintro ⟨_, _, heq, hab, hba, ⟨x, hx, hx'⟩, y, hy, hy'⟩
      cases heq
      exact ⟨⟨hab, hba⟩, x, hx, x, hx', rfl, y, hy, y, hy', rfl⟩
  · rename_i hrows
    refine iff_of_false nofun ?_
    rintro ⟨a, b, rfl, -⟩
    exact hrows a b rfl

theorem checkPairs_eq_ok {u : Unit} : t.checkPairs = .ok u ↔
    ∀ e ∈ t.transfers, checkPair (t.group e.operationGroup.key) = .ok () := by
  rw [Tally.checkPairs, forM_eq_ok]
  simp only [List.mem_dedup, List.forall_mem_map]

theorem sortEntries_perm {entries ledger : List Entry} (h : sortEntries entries = .ok ledger) : ledger.Perm entries := by
  simp only [sortEntries, bind_eq_ok, pure_eq_ok, mapM_eq_ok, found_eq_ok] at h
  obtain ⟨numbered, hnumbered, rfl⟩ := h
  have hsnd : numbered.map (·.2) = entries := by
    induction hnumbered with
    | nil => rfl
    | cons h _ ih =>
      obtain ⟨_, -, rfl⟩ := h
      rw [List.map_cons, ih]
  rw [← hsnd]
  exact (List.perm_insertionSort _ _).map _

theorem checkLedger_eq_ok {entries ledger : List Entry} : tree.checkLedger evidence entries = .ok (ledger, t) ↔
    sortEntries entries = .ok ledger ∧ t = Tally.empty.addAll ledger ∧
    (∀ before e after, ledger = before ++ e :: after →
      tree.Postable (Tally.empty.addAll before) (1 + before.length) e ∧ evidence e = .ok ()) ∧
    ∀ e ∈ t.transfers, checkPair (t.group e.operationGroup.key) = .ok () := by
  simp only [Tree.checkLedger, bind_eq_ok, pure_eq_ok, postAll_eq_ok, checkPairs_eq_ok, Prod.mk.injEq, exists_const]
  constructor
  · rintro ⟨_, hsort, _, ⟨rfl, hrows⟩, hpairs, rfl, rfl⟩
    exact ⟨hsort, rfl, hrows, hpairs⟩
  · rintro ⟨hsort, rfl, hrows, hpairs⟩
    exact ⟨ledger, hsort, _, ⟨rfl, hrows⟩, hpairs, rfl, rfl⟩

end

/-! ### Accepted snapshots -/

/-- The balance of a member after some rows. -/
def balanceOf (rows : List Entry) (member : String) : Dec :=
  ((rows.filter (·.member.str == member)).map Entry.amount).sum

/-- The rows of a transfer group. -/
def transferGroup (rows : List Entry) (group : Key) : List Entry :=
  rows.filter fun e => e.operationGroup.key == group && e.eventType.key == .text "transfer"

/-- What the check of a snapshot says of its links, of its ledger and of what it returns. -/
structure Sound (tree : Tree) (ledger : List Entry) (report : Report) : Prop where
  members : ∀ k ∈ tree.members.map (·.1), ∃ x, tree.current k = some x
  forest : tree.IsForest
  numbered : (∀ k ∈ tree.revisions.map (·.1), k ∈ tree.members.map (·.1)) → tree.Numbered
  sequence : ledger.map (·.sequence.key) = (List.range' 1 ledger.length).map fun n => .number (n : ℚ)
  ledgerSequence : report.ledgerSequence = ledger.length
  balances : report.memberBalances = tree.members.map fun (k, _) => (k, balanceOf ledger k)
  memberTotal : report.programBalance = (report.memberBalances.map (·.2)).sum
  total : report.programBalance = (ledger.map Entry.amount).sum
  sides : ∀ e ∈ ledger, money e.credit = .ok (amountOf e.credit) ∧ money e.debit = .ok (amountOf e.debit)
  running : ∀ before e after, ledger = before ++ e :: after →
    money e.programBalanceAfter = .ok (((before ++ [e]).map Entry.amount).sum) ∧
    money e.memberBalanceAfter = .ok (balanceOf (before ++ [e]) e.member.str)
  negative : ∀ before e after, ledger = before ++ e :: after → balanceOf (before ++ [e]) e.member.str < 0 →
    0 < amountOf e.credit ∨ (e.eventType.key = .text "adjust" ∧ e.original.truthy = true) ∨
      e.eventType.key = .text "redeem"
  transfers : ∀ e ∈ ledger, e.eventType.key = .text "transfer" → ∃ a b, transferGroup ledger e.operationGroup.key = [a, b] ∧
    a.member.key = b.counterpart.key ∧ b.member.key = a.counterpart.key ∧ a.amount + b.amount = 0

theorem sequence_of_split {ledger : List Entry} {n : ℕ}
    (h : ∀ before e after, ledger = before ++ e :: after → e.sequence.key = .number ((n + before.length : ℕ) : ℚ)) :
    ledger.map (·.sequence.key) = (List.range' n ledger.length).map fun n => .number (n : ℚ) := by
  induction ledger generalizing n with
  | nil => rfl
  | cons e ledger ih =>
    rw [List.map_cons, List.length_cons, List.range'_succ, List.map_cons, h [] e ledger rfl, ih fun before e' after hsplit => ?_]
    · rfl
    · rw [h (e :: before) e' after (by rw [hsplit]; rfl), List.length_cons, Nat.add_right_comm, Nat.add_assoc]

theorem balanceOf_append (rows : List Entry) (e : Entry) :
    balanceOf (rows ++ [e]) e.member.str = balanceOf rows e.member.str + e.amount := by
  rw [balanceOf, List.filter_append, List.map_append, List.sum_append, List.filter_cons_of_pos (by simp)]
  simp [balanceOf]

theorem empty_addAll_balances (rows : List Entry) (k : String) :
    (Tally.empty.addAll rows).balances k = balanceOf rows k := by
  rw [addAll_balances]
  exact zero_add _

theorem empty_addAll_program (rows : List Entry) :
    (Tally.empty.addAll rows).program = (rows.map Entry.amount).sum := by
  rw [addAll_program]
  exact zero_add _

theorem empty_addAll_group (rows : List Entry) (group : Key) :
    (Tally.empty.addAll rows).group group = transferGroup rows group := by
  rw [Tally.group, addAll_transfers, transferGroup]
  exact List.filter_filter

/-- The ledger of an accepted snapshot. -/
theorem sound_of_checkLedger {tree : Tree} {evidence : Entry → Except Failure Unit} {entries ledger : List Entry} {t : Tally}
    {counts : List (String × ℕ)} (hc : tree.Complete) (hcheck : tree.Checked)
    (h : tree.checkLedger evidence entries = .ok (ledger, t)) :
    Sound tree ledger ⟨counts, t.program, tree.members.map fun (k, _) => (k, t.balances k), ledger.length⟩ := by
  obtain ⟨_, rfl, hrows, hpairs⟩ := checkLedger_eq_ok.1 h
  have hmem : ∀ e ∈ ledger, ∃ before, tree.Postable (Tally.empty.addAll before) (1 + before.length) e := by
    intro e he
    obtain ⟨before, after, hsplit⟩ := List.append_of_mem he
    exact ⟨before, (hrows before e after hsplit).1⟩
  constructor
  case members => exact fun k hk => hc.current hk
  case forest => exact hcheck.isForest
  case numbered => exact fun hmembers => hcheck.numbered hc hmembers
  case sequence =>
    exact sequence_of_split fun before e after hsplit => (hrows before e after hsplit).1.sequence
  case ledgerSequence => rfl
  case balances => simp only [empty_addAll_balances]
  case memberTotal =>
    have hmembers : ∀ e ∈ ledger, e.member.str ∈ tree.members.map (·.1) := by
      intro e he
      obtain ⟨before, hpost⟩ := hmem e he
      obtain ⟨fields, _, _, hfields, -⟩ := hpost.member
      obtain ⟨l₁, l₂, hl, -⟩ := List.lookup_eq_some_iff.1 hfields
      rw [hl]
      simp
    have := addAll_sum (t := Tally.empty) hc.members hmembers (by simp [Tally.empty, Function.comp_def])
    rw [List.map_map] at this ⊢
    exact this.symm
  case total => exact empty_addAll_program ledger
  case sides =>
    intro e he
    obtain ⟨before, hpost⟩ := hmem e he
    exact ⟨hpost.credit, hpost.debit⟩
  case running =>
    intro before e after hsplit
    have hpost := (hrows before e after hsplit).1
    have hprogram := hpost.program
    have hown := hpost.own
    rw [empty_addAll_program] at hprogram
    rw [empty_addAll_balances] at hown
    rw [balanceOf_append, List.map_append, List.sum_append]
    exact ⟨by simpa using hprogram, hown⟩
  case negative =>
    intro before e after hsplit hneg
    have hpost := (hrows before e after hsplit).1
    rw [balanceOf_append, ← empty_addAll_balances] at hneg
    exact hpost.negative hneg
  case transfers =>
    intro e he htransfer
    have hin : e ∈ (Tally.empty.addAll ledger).transfers := by
      rw [addAll_transfers]
      exact List.mem_append_right _ (List.mem_filter.2 ⟨he, by simpa using htransfer⟩)
    obtain ⟨a, b, hgroup, hab, hba, ⟨x, hx, hx'⟩, y, hy, hy'⟩ := checkPair_eq_ok.1 (hpairs e hin)
    refine ⟨a, b, by rw [← empty_addAll_group, hgroup], hab, hba, ?_⟩
    rw [Entry.amount, Entry.amount, amountOf_of_ok hx, amountOf_of_ok hx', amountOf_of_ok hy, amountOf_of_ok hy']
    ring

/-- The walks over the current links of any tree end, and what `validate` accepts is sound, whatever its records are. -/
theorem validate_sound :
    (∀ t : Tree, ∀ k x, t.current k = some x →
      t.walk (t.referrals.length + t.revisions.length) [k] x ≠ .error .unfinished) ∧
    ∀ env s report, validate env s = .ok report → ∃ tree entries ledger, readTree s = .ok tree ∧
      tree.members = s.rows "loyalty.member" ∧
      s.ledger = .ok entries ∧ ledger.Perm entries ∧ Sound tree ledger report := by
  refine ⟨fun t k x hx hend => ?_, fun env s report h => ?_⟩
  · have hk : k ∈ t.keys := Tree.current_isSome.1 (by simp [hx])
    exact (Tree.walk_ends (List.nodup_singleton k) (by simpa using hk) (by simp)).of_eq_error hend rfl
  · simp only [validate, bind_eq_ok, pure_eq_ok] at h
    obtain ⟨_, -, _, hformat, _, -, _, -, tree, htree, _, hcheck, entries, hentries, ⟨ledger, t⟩, hledger, rfl⟩ := h
    obtain ⟨hmembers, hc⟩ := readTree_complete (checkFormat_nodup hformat).1 htree
    exact ⟨tree, entries, ledger, htree, hmembers, hentries, sortEntries_perm (checkLedger_eq_ok.1 hledger).1,
      sound_of_checkLedger hc (Tree.check_eq_ok.1 hcheck) hledger⟩

/-! ### The fields of the loyalty models -/

def loyaltyFields : List (String × List String) :=
  [("auth.user", ["password", "last_login", "is_superuser", "username", "first_name", "last_name", "email", "is_staff",
      "is_active", "date_joined"]),
    ("loyalty.member", ["customer", "number", "status", "joined_at", "consent_at", "terms_version", "terms_reference",
      "language", "consent_history", "first_completed_reservation", "first_completed_at", "invitation_token",
      "invitation_issued_at", "deferred_corrections", "command_receipts", "withdrawn_at", "created_at", "updated_at"]),
    ("loyalty.referral", ["member", "inviter", "root", "tree_number", "depth", "branch_order", "fixed_at", "evidence"]),
    ("loyalty.referralrevision", ["member", "inviter", "root", "tree_number", "depth", "branch_order", "operation",
      "linked_member", "operator", "reason", "fixed_at"]),
    ("loyalty.ledger", ["sequence", "operation_number", "occurred_at", "customer", "member", "membership_number",
      "tree_number", "reservation", "property", "booking_total", "operation_type", "rate_percent", "credit", "debit",
      "program_balance_after", "member_balance_after", "account_name", "booking_customer", "booking_guest_name",
      "reservation_reference", "property_name", "hostaway_reservation_id", "check_in_at", "check_out_at",
      "actual_arrival_at", "arrival_reference", "booking_currency", "original_booking_amount", "eligible_lodging_sar",
      "verified_cash_sar", "refunded_cash_sar", "points_used", "settlement_revision", "beneficiary_distance",
      "older_inviter_count", "allocation_numerator", "allocation_denominator", "direct_inviter", "counterpart", "original",
      "event_reference", "component", "event_type", "operation_group", "branch", "request_reference", "rules_version",
      "executed_by", "reason", "evidence", "posted_at"])]

def loyaltyRelations : List (String × List (String × String)) :=
  [("loyalty.member", [("customer", "auth.user"), ("first_completed_reservation", "reservations.reservation")]),
    ("loyalty.referral", [("member", "loyalty.member"), ("inviter", "loyalty.member"), ("root", "loyalty.member")]),
    ("loyalty.referralrevision", [("member", "loyalty.member"), ("inviter", "loyalty.member"), ("root", "loyalty.member"),
      ("linked_member", "loyalty.member"), ("operator", "auth.user")]),
    ("loyalty.ledger", [("customer", "auth.user"), ("member", "loyalty.member"),
      ("reservation", "reservations.reservation"), ("property", "properties.property"), ("booking_customer", "auth.user"),
      ("direct_inviter", "loyalty.member"), ("counterpart", "loyalty.member"), ("original", "loyalty.ledger")])]

/-- The review of the loyalty models; the hash is a constant one. -/
def loyaltyReview : Review where
  hash := fun _ => "digest"
  schemas := ["schema"]
  size := fun s => s.records.length
  instant := fun _ => some 0
  fields := fun _ model => loyaltyFields.lookup model
  relations := fun _ model => (loyaltyRelations.lookup model).getD []
  datetimes := fun _ => []

/-- A record with the fields of its model; those that are not given are null. -/
def recordOf (model : String) (pk : ℤ) (given : Fields) : Record :=
  ⟨model, .int pk, ((loyaltyFields.lookup model).getD []).map fun name => (name, (given.lookup name).getD .null)⟩

def linkFields (member inviter root : Value) (treeNumber : String) (depth branch : ℤ) : Fields :=
  [("member", member), ("inviter", inviter), ("root", root), ("tree_number", .text treeNumber), ("depth", .int depth),
    ("branch_order", .int branch)]

def rowFields (n member : ℤ) (treeNumber eventType credit debit program own : String) (counterpart : Value) : Fields :=
  [("sequence", .int n), ("operation_number", .int n), ("customer", .int member), ("member", .int member),
    ("membership_number", .int member), ("tree_number", .text treeNumber), ("credit", .text credit), ("debit", .text debit),
    ("program_balance_after", .text program), ("member_balance_after", .text own), ("counterpart", counterpart),
    ("event_reference", .int n), ("component", .text "points"), ("event_type", .text eventType),
    ("operation_group", .text eventType), ("branch", .int n), ("evidence", .document ⟨some ⟨[], [], .null⟩, "{}"⟩)]

def sealed (records : List Record) : Snapshot := ⟨1, "schema", "pilot", "2026-01-01T00:00:00+00:00", records, "digest"⟩

def threeMembers : List Record :=
  [recordOf "auth.user" 1 [], recordOf "auth.user" 2 [], recordOf "auth.user" 3 [],
    recordOf "loyalty.member" 1 [("customer", .int 1), ("number", .int 1)],
    recordOf "loyalty.member" 2 [("customer", .int 2), ("number", .int 2)],
    recordOf "loyalty.member" 3 [("customer", .int 3), ("number", .int 3)],
    recordOf "loyalty.referral" 1 (linkFields (.int 1) .null (.int 1) "0001" 0 1),
    recordOf "loyalty.referral" 2 (linkFields (.int 2) (.int 1) (.int 1) "0001-0001" 1 1),
    recordOf "loyalty.referral" 3 (linkFields (.int 3) .null (.int 3) "0002" 0 2)]

/-- The third member moves below the first one, and the second one transfers points to the first. -/
def moved : Snapshot := sealed <| threeMembers ++
  [recordOf "loyalty.referralrevision" 1 (linkFields (.int 3) (.int 1) (.int 1) "0001-0002" 1 2),
    recordOf "loyalty.ledger" 1 (rowFields 1 2 "0001-0001" "earn" "5.00" "0.00" "5.00" "5.00" .null),
    recordOf "loyalty.ledger" 2 (rowFields 2 2 "0001-0001" "transfer" "0.00" "5.00" "0.00" "0.00" (.int 1)),
    recordOf "loyalty.ledger" 3 (rowFields 3 1 "0001" "transfer" "5.00" "0.00" "5.00" "5.00" (.int 2))]

theorem validate_sound_moved : ∃ report tree entries ledger, validate loyaltyReview moved = .ok report ∧
    readTree moved = .ok tree ∧ moved.ledger = .ok entries ∧ ledger.Perm entries ∧ Sound tree ledger report := by
  have hok : (validate loyaltyReview moved).toOption.isSome = true := by decide +kernel
  cases h : validate loyaltyReview moved with
  | error e => simp [h, Except.toOption] at hok
  | ok report =>
    obtain ⟨tree, entries, ledger, htree, _, hentries, hperm, hsound⟩ := validate_sound.2 _ _ _ h
    exact ⟨report, tree, entries, ledger, rfl, htree, hentries, hperm, hsound⟩

/-- The third member moves to the branch of the second, and a revision of nobody makes up for the number that is missing. The
second member transfers points to itself, which leaves the program below zero. -/
def tampered : Snapshot := sealed <| threeMembers ++
  [recordOf "loyalty.referralrevision" 1 (linkFields (.int 3) (.int 1) (.int 1) "0001-0001" 1 1),
    recordOf "loyalty.referralrevision" 2 (linkFields .null .null .null "0009" 0 9),
    recordOf "loyalty.ledger" 1 (rowFields 1 1 "0001" "redeem" "0.00" "10.00" "-10.00" "-10.00" .null),
    recordOf "loyalty.ledger" 2 (rowFields 2 2 "0001-0001" "earn" "5.00" "0.00" "-5.00" "5.00" .null),
    recordOf "loyalty.ledger" 3 (rowFields 3 2 "0001-0001" "transfer" "0.00" "5.00" "-10.00" "0.00" (.int 2)),
    recordOf "loyalty.ledger" 4 (rowFields 4 2 "0001-0001" "transfer" "5.00" "0.00" "-5.00" "5.00" (.int 2))]

theorem validate_tampered : (validate loyaltyReview tampered).toOption.isSome = true ∧
    ((readTree tampered).toOption.map fun tree => ["2", "3"].map fun member => (tree.current member).map (·.treeNumber)) =
      some [some (.text "0001-0001"), some (.text "0001-0001")] ∧
    (tampered.ledger.toOption.map fun rows => rows.map fun e => (e.eventType, e.amount, e.member, e.counterpart)) =
      some [(.text "redeem", -10, .int 1, .null), (.text "earn", 5, .int 2, .null),
        (.text "transfer", -5, .int 2, .int 2), (.text "transfer", 5, .int 2, .int 2)] := by
  decide +kernel

end Apartments.Backup
