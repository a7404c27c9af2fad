import Apartments.Loyalty.BackupSound
import Apartments.Loyalty.Recorded

/-!
# Snapshots of the loyalty core (`capture`)

The members, the links and the ledger are written as records and read again by the checks of `validate`. The records have
the fields that the checks read, in any order and among the records of other models.
-/

namespace Apartments.Backup

open Loyalty

/-! ### Serialized rows -/

/-- `str()` of a `DecimalField(max_digits=16, decimal_places=2)` that is read from its table. -/
def columnText (x : Dec) : String := Decimal.format ⟨decide (x < 0), (Dec.roundHalfUp (x * 10 ^ 2)).natAbs, -(2 : ℕ)⟩

def optional (n : Option ℕ) : Value := (n.map fun k => Value.int k).getD .null

def componentText : Component → String
  | .loyalty => "loyalty"
  | .directReferral => "direct_referral"
  | .indirectReferral => "indirect_referral"
  | .transferOut => "transfer-out"
  | .transferIn => "transfer-in"
  | .redemption => "redemption"
  | .restore => "restore"
  | .closing => "closing"

def eventText : EventType → String
  | .earn => "earn"
  | .adjust => "adjust"
  | .transfer => "transfer"
  | .redeem => "redeem"
  | .restore => "restore"
  | .withdraw => "withdraw"

def memberFields (m : Member) : Fields := [("customer", .int m.customer), ("number", .text m.number)]

def placeFields (x : Referral) : Fields :=
  [("member", .int x.member), ("inviter", optional x.inviter), ("root", .int x.root), ("tree_number", .text x.treeNumber),
    ("depth", .int x.depth), ("branch_order", .int x.branchOrder)]

section
variable (evidence : Row → Document)

def ledgerFields (r : Row) : Fields :=
  [("sequence", .int r.sequence), ("operation_number", .text r.operationNumber), ("customer", .int r.customer),
    ("member", .int r.member), ("membership_number", .text r.membershipNumber), ("tree_number", .text r.treeNumber),
    ("credit", .text (columnText r.credit)), ("debit", .text (columnText r.debit)),
    ("program_balance_after", .text (columnText r.programBalanceAfter)),
    ("member_balance_after", .text (columnText r.memberBalanceAfter)), ("counterpart", optional r.counterpart),
    ("original", optional r.original), ("event_reference", .text r.eventReference),
    ("component", .text (componentText r.component)), ("event_type", .text (eventText r.eventType)),
    ("operation_group", .text r.operationGroup), ("branch", .int r.branch), ("evidence", .document (evidence r))]

/-- The records of the loyalty core; a link has its place in its table as its key. -/
def coreRecords (w : World) : List Record :=
  w.members.map (fun m => ⟨"loyalty.member", .int m.pk, memberFields m⟩) ++
    (w.referrals.zipIdx 1).map (fun x => ⟨"loyalty.referral", .int x.2, placeFields x.1⟩) ++
    (w.revisions.zipIdx 1).map (fun r => ⟨"loyalty.referralrevision", .int r.2, placeFields r.1.link⟩) ++
    w.ledger.map fun r => ⟨"loyalty.ledger", .int r.sequence, ledgerFields evidence r⟩

def coreModels : List String := ["loyalty.member", "loyalty.referral", "loyalty.referralrevision", "loyalty.ledger"]

/-- `capture`: the records of the core and of what it refers to, sorted and sealed. -/
def capture (env : Review) (schema sourceId capturedAt : String) (others : List Record) (w : World) : Snapshot :=
  Snapshot.seal env ⟨1, schema, sourceId, capturedAt, (coreRecords evidence w ++ others).insertionSort
    fun a b => a.model < b.model ∨ (a.model = b.model ∧ a.pk.str ≤ b.pk.str), ""⟩

/-- The snapshot has the records of the core, and no others of its models. -/
def Snapshot.Captures (s : Snapshot) (w : World) : Prop :=
  ∀ model ∈ coreModels, (s.records.filter (·.model == model)).Perm ((coreRecords evidence w).filter (·.model == model))

end

section
variable {evidence : Row → Document} {env : Review} {s : Snapshot} {w : World}

theorem capture_captures {schema sourceId capturedAt : String} {others : List Record}
    (h : ∀ r ∈ others, r.model ∉ coreModels) :
    (capture evidence env schema sourceId capturedAt others w).Captures evidence w := by
  intro model hmodel
  have hsort := (coreRecords evidence w ++ others).perm_insertionSort
    fun a b => a.model < b.model ∨ (a.model = b.model ∧ a.pk.str ≤ b.pk.str)
  refine (hsort.filter _).trans ?_
  rw [List.filter_append, List.filter_eq_nil_iff.2 fun r hr hin => h r hr ?_, List.append_nil]
  rw [beq_iff_eq.1 hin]
  exact hmodel

/-! ### Values read back -/

theorem optional_some (n : ℕ) : optional (some n) = .int n := rfl

@[simp] theorem str_int (n : ℕ) : (Value.int n).str = n.repr := rfl

theorem key_int (n : ℕ) : (Value.int n).key = .number n := rfl

theorem str_pk (r : Record) (n : ℕ) (h : r.pk = .int n) : r.pk.str = n.repr := by rw [h, str_int]

theorem roundHalfEven_intCast (k : ℤ) : Dec.roundHalfEven k = k := by simp [Dec.roundHalfEven]

/-- An amount is read back from the text of its column. -/
theorem money_columnText {x : Dec} (hx : Dec.Exact 2 x) (hfits : fits x = true) :
    money (.text (columnText x)) = .ok x := by
  obtain ⟨k, rfl⟩ := hx
  have hscaled : ((k : Dec) / 10 ^ 2) * 10 ^ 2 = k := div_mul_cancel₀ _ (by norm_num)
  have hk : k.natAbs < 10 ^ 28 := by
    simp only [fits, Bool.and_eq_true, decide_eq_true_eq] at hfits
    have hlow : (-10000000000000000 : Dec) < k := by linarith [hfits.1]
    have hhigh : (k : Dec) < 10000000000000000 := by linarith [hfits.2]
    have hlow' : (-10000000000000000 : ℤ) < k := by exact_mod_cast hlow
    have hhigh' : k < (10000000000000000 : ℤ) := by exact_mod_cast hhigh
    omega
  have hquantized : Decimal.quantized 2 ((k : Dec) / 10 ^ 2) = .ok ⟨decide ((k : Dec) / 10 ^ 2 < 0), k.natAbs, -(2 : ℕ)⟩ := by
    unfold Decimal.quantized
    dsimp only
    rw [hscaled, Dec.roundHalfUp_intCast, if_pos hk]
  have hvalue := Decimal.value_quantized hquantized
  rw [Dec.Exact.quantize_eq ⟨k, rfl⟩, ← Decimal.value_plain] at hvalue
  have heven : Dec.quantizeEven 2 ((k : Dec) / 10 ^ 2) = k / 10 ^ 2 := by
    rw [Dec.quantizeEven, hscaled, roundHalfEven_intCast]
  have hstr : (Value.text (columnText ((k : Dec) / 10 ^ 2))).str =
      Decimal.format ⟨decide ((k : Dec) / 10 ^ 2 < 0), k.natAbs, -(2 : ℕ)⟩ := by
    show columnText _ = _
    rw [columnText, hscaled, Dec.roundHalfUp_intCast]
  rw [money, hstr, Decimal.parse_format]
  dsimp only
  rw [hvalue, hscaled, roundHalfEven_intCast, heven, if_neg (not_le.2 hk), if_neg (fun h => h rfl)]

theorem zeroFilled_repr (n : ℕ) : zeroFilled 4 n.repr = Dec.padded 4 n := by
  have hdigit : ∀ digits, n.repr.toList ≠ '-' :: digits := fun digits h => by
    have : ('-' : Char).isDigit = true := Decimal.isDigit_repr (n := n) (h ▸ List.mem_cons_self)
    exact absurd this (by decide)
  unfold zeroFilled
  split
  rename_i h
  split at h
  · rename_i digits hsign
    exact absurd hsign (hdigit digits)
  · cases h
    rw [String.ofList_append, String.ofList_toList, String.empty_append]
    rfl

theorem format04_int (n : ℕ) : (Value.int n).format04 = some (Dec.padded 4 n) := congrArg some (zeroFilled_repr n)

theorem repr_injective : Function.Injective Nat.repr := fun _ _ h => Nat.repr_injective h

theorem distinct_texts {values : List Value} {texts : List String} (h : values.Perm (texts.map Value.text))
    (hnodup : texts.Nodup) : distinct values = .ok true := by
  have hany : ¬ values.any Value.isDocument = true := by
    rw [Bool.not_eq_true, List.any_eq_false]
    intro v hv
    obtain ⟨text, -, rfl⟩ := List.mem_map.1 (h.mem_iff.1 hv)
    exact Bool.false_ne_true
  have hkeys : (values.map Value.key).Nodup := by
    refine (h.map Value.key).nodup_iff.2 ?_
    rw [List.map_map]
    exact hnodup.map fun a b hab => Key.text.inj hab
  rw [distinct, hashable, raiseIf_of_not hany]
  exact congrArg Except.ok (decide_eq_true hkeys)

/-! ### The tree that is read -/

def placeLink (x : Referral) : Link :=
  ⟨.int x.member, optional x.inviter, .int x.root, .text x.treeNumber, .int x.depth, .int x.branchOrder⟩

theorem readLink_placeFields (x : Referral) : readLink (placeFields x) = .ok (placeLink x) := rfl

/-- The tree of a snapshot of the tables. -/
structure Reads (t : Tree) (w : World) : Prop where
  members : t.members.Perm (w.members.map fun m => (m.pk.repr, memberFields m))
  referrals : t.referrals.Perm (w.referrals.map fun x => (x.member.repr, placeLink x))
  revisions : t.revisions = w.revisions.map fun r => (r.member.repr, placeLink r.link)

theorem rows_members (h : s.Captures evidence w) :
    (s.rows "loyalty.member").Perm (w.members.map fun m => (m.pk.repr, memberFields m)) := by
  have hrows := (h "loyalty.member" (by decide)).map fun r : Record => (r.pk.str, r.fields)
  refine hrows.trans (.of_eq ?_)
  simp [coreRecords, List.filter_append, List.filter_map, Function.comp_def]

theorem rows_referrals (h : s.Captures evidence w) : (s.rows "loyalty.referral").Perm
    ((w.referrals.zipIdx 1).map fun x => (x.2.repr, placeFields x.1)) := by
  have hrows := (h "loyalty.referral" (by decide)).map fun r : Record => (r.pk.str, r.fields)
  refine hrows.trans (.of_eq ?_)
  simp [coreRecords, List.filter_append, List.filter_map, Function.comp_def]

theorem rows_revisions (h : s.Captures evidence w) :
    (s.records.filter (·.model == "loyalty.referralrevision")).Perm ((w.revisions.zipIdx 1).map fun r =>
      ⟨"loyalty.referralrevision", .int r.2, placeFields r.1.link⟩) := by
  refine (h "loyalty.referralrevision" (by decide)).trans (.of_eq ?_)
  simp [coreRecords, List.filter_append, List.filter_map, Function.comp_def]

theorem rows_ledger (h : s.Captures evidence w) :
    (s.rows "loyalty.ledger").Perm (w.ledger.map fun r => (r.sequence.repr, ledgerFields evidence r)) := by
  have hrows := (h "loyalty.ledger" (by decide)).map fun r : Record => (r.pk.str, r.fields)
  refine hrows.trans (.of_eq ?_)
  simp [coreRecords, List.filter_append, List.filter_map, Function.comp_def]

/-- Every original link has its own tree number. -/
theorem treeNumbers_nodup (ht : Loyalty.Tree w) : (w.referrals.map (·.treeNumber)).Nodup := by
  refine List.Nodup.map_on (fun x hx y hy hnumber => ?_) (List.Nodup.of_map _ ht.linked)
  have hsame := member_of_treeNumber ht.grown ht.slots (List.mem_append_left _ hx) (List.mem_append_left _ hy) hnumber
  exact Table.eq_of_mem_of_key ht.linked hx hy hsame

theorem numbers_nodup (hpks : (w.members.map Member.pk).Nodup) (ha : Audited w) : (w.members.map Member.number).Nodup := by
  refine List.Nodup.map_on (fun m hm m' hm' hnumber => ?_) (List.Nodup.of_map _ hpks)
  rw [ha.numbers m hm, ha.numbers m' hm'] at hnumber
  have hpk : m.pk = m'.pk := Dec.padded_inj (String.toList_injective (by
    simpa [String.toList_append] using congrArg String.toList hnumber))
  exact Table.eq_of_mem_of_key hpks hm hm' hpk

/-- A row of the history of the links, as `readTree` reads it. -/
def readRevision (r : Record) : Except Failure (ℤ × String × Link) := do
  let pk ← match r.pk with
    | .scalar pk => found pk.toInt .typeError
    | .document _ => .error .typeError
  let x ← readLink r.fields
  return (pk, x.member.str, x)

theorem referrals_captured (h : s.Captures evidence w) : ∃ referrals,
    ((s.rows "loyalty.referral").mapM fun row => do
      let x ← readLink row.2
      return (x.member.str, x)) = .ok referrals ∧
      referrals.Perm (w.referrals.map fun x => (x.member.repr, placeLink x)) := by
  obtain ⟨referrals, hreferrals, hperm⟩ := mapM_of_perm (f := fun row => do
    let x ← readLink row.2
    return (x.member.str, x)) (h := fun x => (x.1.member.repr, placeLink x.1)) (rows_referrals h) fun _ _ => rfl
  refine ⟨referrals, hreferrals, hperm.trans (.of_eq ?_)⟩
  conv_rhs => rw [← List.zipIdx_map_fst 1 w.referrals, List.map_map]
  rfl

theorem revisions_captured (h : s.Captures evidence w) : ∃ revisions,
    (s.records.filter (·.model == "loyalty.referralrevision")).mapM readRevision = .ok revisions ∧
      (revisions.insertionSort fun a b => a.1 ≤ b.1) =
        (w.revisions.zipIdx 1).map fun r => ((r.2 : ℤ), r.1.member.repr, placeLink r.1.link) := by
  obtain ⟨revisions, hrevisions, hperm⟩ := mapM_of_perm (f := readRevision)
    (h := fun r => ((r.2 : ℤ), r.1.member.repr, placeLink r.1.link)) (rows_revisions h) fun _ _ => rfl
  refine ⟨revisions, hrevisions, List.insertionSort_of_perm (f := fun a : ℤ × String × Link => a.1) hperm ?_⟩
  rw [List.pairwise_map]
  have hidx : ((w.revisions.zipIdx 1).map Prod.snd).Pairwise (· < ·) := by
    rw [List.zipIdx_map_snd]
    exact List.pairwise_lt_range'
  exact (List.pairwise_map.1 hidx).imp fun hlt => Int.ofNat_lt.2 hlt

theorem numbers_captured {digest : Payload → String} (h : s.Captures evidence w) (hs : Loyalty.Sound digest w)
    (ha : Audited w) : ∃ numbers, ((s.rows "loyalty.member").mapM fun row => read row.2 "number") = .ok numbers ∧
      distinct numbers = .ok true := by
  obtain ⟨numbers, hnumbers, hperm⟩ := mapM_of_perm (f := fun row : String × Fields => read row.2 "number")
    (h := fun m => Value.text m.number) (rows_members h) fun _ _ => rfl
  exact ⟨numbers, hnumbers,
    distinct_texts (hperm.trans (.of_eq (by rw [List.map_map]; rfl))) (numbers_nodup hs.members ha)⟩

theorem customers_captured {digest : Payload → String} (h : s.Captures evidence w) (hs : Loyalty.Sound digest w) :
    ∃ customers, ((s.rows "loyalty.member").mapM fun row => read row.2 "customer") = .ok customers ∧
      (customers.map Value.str).Nodup := by
  obtain ⟨customers, hcustomers, hperm⟩ := mapM_of_perm (f := fun row : String × Fields => read row.2 "customer")
    (h := fun m => Value.int m.customer) (rows_members h) fun _ _ => rfl
  refine ⟨customers, hcustomers, (hperm.map Value.str).nodup_iff.2 ?_⟩
  simpa [List.map_map, Function.comp_def] using hs.customers.map repr_injective

theorem readTree_captured {digest : Payload → String} (h : s.Captures evidence w) (hs : Loyalty.Sound digest w)
    (ht : Loyalty.Tree w) (ha : Audited w) : ∃ t, readTree s = .ok t ∧ Reads t w := by
  have hmembers := rows_members h
  obtain ⟨referrals, hreferrals, hlinks⟩ := referrals_captured h
  obtain ⟨numbers, hnumbers, hdistinct⟩ := numbers_captured h hs ha
  obtain ⟨customers, hcustomers, hcustomersNodup⟩ := customers_captured h hs
  obtain ⟨revisions, hrevisions, hsorted⟩ := revisions_captured h
  have hkeys : (referrals.map (·.1)).Perm (w.referrals.map fun x => x.member.repr) := by
    simpa [Function.comp_def] using hlinks.map (·.1)
  have hpks : ((s.rows "loyalty.member").map (·.1)).Perm (w.members.map fun m => m.pk.repr) := by
    simpa [Function.comp_def] using hmembers.map (·.1)
  have hnodup : (referrals.map (·.1)).Nodup := by
    refine hkeys.nodup_iff.2 ?_
    simpa [List.map_map, Function.comp_def] using ht.linked.map repr_injective
  have hcomplete : ∀ k, k ∈ (s.rows "loyalty.member").map (·.1) ↔ k ∈ referrals.map (·.1) := by
    intro k
    rw [hpks.mem_iff, hkeys.mem_iff, List.mem_map, List.mem_map]
    constructor
    · rintro ⟨m, hm, rfl⟩
      obtain ⟨x, hx, hmember⟩ := (ht.members m.pk).1 ⟨m, hm, rfl⟩
      exact ⟨x, hx, by rw [hmember]⟩
    · rintro ⟨x, hx, rfl⟩
      obtain ⟨m, hm, hpk⟩ := (ht.members x.member).2 ⟨x, hx, rfl⟩
      exact ⟨m, hm, by rw [hpk]⟩
  have htrees : distinct (referrals.map (·.2.treeNumber)) = .ok true := by
    refine distinct_texts ((hlinks.map (·.2.treeNumber)).trans (.of_eq ?_)) (treeNumbers_nodup ht)
    rw [List.map_map, List.map_map]
    rfl
  refine ⟨⟨s.rows "loyalty.member", referrals, (revisions.insertionSort fun a b => a.1 ≤ b.1).map (·.2)⟩, ?_, ?_⟩
  · simp only [readTree, bind_eq_ok, raiseIf_eq_ok, exists_const, pure_eq_ok]
    refine ⟨referrals, hreferrals, not_not.2 hnodup, not_not.2 ⟨fun k hk => (hcomplete k).1 hk, fun k hk => (hcomplete k).2 hk⟩,
      numbers, hnumbers, customers, hcustomers, true, hdistinct, by simpa using hcustomersNodup, true, htrees, by simp,
      revisions, hrevisions, rfl⟩
  · refine ⟨hmembers, hlinks, ?_⟩
    dsimp only
    rw [hsorted, List.map_map]
    conv_rhs => rw [← List.zipIdx_map_fst 1 w.revisions, List.map_map]
    rfl

end

/-! ### The links of the tree -/

section
variable {digest : Payload → String} {t : Tree} {w : World} {x y : Referral} {n : ℕ}

theorem Reads.history (h : Reads t w) (ht : Loyalty.Tree w) (n : ℕ) :
    t.history n.repr = (w.history.filter fun x => x.member = n).map placeLink := by
  have hreferrals : (t.referrals.filter (·.1 == n.repr)).map (·.2) =
      (w.referrals.filter fun x => x.member = n).map placeLink := by
    have hperm := (h.referrals.filter (·.1 == n.repr)).map (·.2)
    have hcanon : ((w.referrals.map fun x => (x.member.repr, placeLink x)).filter (·.1 == n.repr)).map (·.2) =
        (w.referrals.filter fun x => x.member = n).map placeLink := by
      simp [List.filter_map, Function.comp_def, beq_eq_decide, repr_injective.eq_iff]
    rw [hcanon, Table.filter_eq_get ht.linked] at hperm
    rw [Table.filter_eq_get ht.linked]
    cases hget : Table.get Referral.member w.referrals n with
    | none =>
      rw [hget] at hperm
      exact List.perm_nil.1 hperm
    | some x =>
      rw [hget] at hperm
      exact List.perm_singleton.1 hperm
  have hrevisions : (t.revisions.filter (·.1 == n.repr)).map (·.2) =
      ((w.revisions.map ReferralRevision.link).filter fun x => x.member = n).map placeLink := by
    rw [h.revisions]
    simp [List.filter_map, Function.comp_def, beq_eq_decide, repr_injective.eq_iff, ReferralRevision.link]
    rfl
  rw [Tree.history, List.map_append, hreferrals, hrevisions, World.history, List.filter_append, List.map_append]

theorem Reads.current (h : Reads t w) (ht : Loyalty.Tree w) (n : ℕ) :
    t.current n.repr = (currentLink w n).map placeLink := by
  have hlast : ((w.revisions.map ReferralRevision.link).filter fun x => x.member = n).getLast? =
      (Table.get ReferralRevision.member w.revisions.reverse n).map ReferralRevision.link := by
    rw [List.filter_map, List.getLast?_map, List.getLast?_filter]
    rfl
  rw [Tree.current, h.history ht, List.getLast?_map, World.history, List.filter_append, List.getLast?_append, hlast,
    Table.filter_eq_get ht.linked, currentLink]
  cases hx : Table.get Referral.member w.referrals n with
  | none =>
    have hnone : Table.get ReferralRevision.member w.revisions.reverse n = none := by
      refine Table.get_eq_none.2 fun r hr hmember => ?_
      obtain ⟨x, hx', hlink⟩ := ht.revised r (List.mem_reverse.1 hr)
      exact Table.get_eq_none.1 hx x hx' (hlink.trans hmember)
    rw [hnone]
    rfl
  | some x =>
    have hmember : x.member = n := Table.key_of_get hx
    rw [Option.map_some, current_eq, hmember]
    cases hr : Table.get ReferralRevision.member w.revisions.reverse n with
    | none => rfl
    | some r =>
      have hkey : r.member = x.member := (Table.key_of_get hr).trans hmember.symm
      show some (placeLink r.link) = some (placeLink (revise x r))
      rw [ReferralRevision.link, revise, hkey]

theorem Reads.mem_keys (h : Reads t w) (ht : Loyalty.Tree w) {k : String} :
    k ∈ t.keys ↔ ∃ x ∈ w.referrals, x.member.repr = k := by
  have hreferrals := (h.referrals.map (·.1)).mem_iff (a := k)
  rw [Tree.mem_keys, hreferrals, h.revisions, List.map_map, List.map_map, List.mem_map, List.mem_map]
  refine ⟨?_, .inl⟩
  rintro (hk | ⟨r, hr, rfl⟩)
  · exact hk
  · obtain ⟨x, hx, hmember⟩ := ht.revised r hr
    exact ⟨x, hx, congrArg Nat.repr hmember⟩

theorem parent_placeLink (x : Referral) : (placeLink x).parent = x.inviter.map Nat.repr := by
  cases hi : x.inviter with
  | none => simp [Link.parent, placeLink, hi, optional, Value.isNull, Value.null]
  | some i =>
    simp [Link.parent, placeLink, hi, optional, Value.isNull, Value.null, Value.int, Value.str, Scalar.str]
    rfl

/-- The place of a link below another one, as the tables have it. -/
def below (x y : Referral) : Bool :=
  x.root = y.root && x.depth = y.depth + 1 && x.treeNumber = y.treeNumber ++ "-" ++ Dec.padded 4 x.branchOrder

theorem follows_placeLink (x y : Referral) : follows (placeLink x) (placeLink y) = .ok (below x y) := by
  have hroot : (placeLink x).root.key ≠ (placeLink y).root.key ↔ x.root ≠ y.root := by
    simp [placeLink, key_int]
  have hdepth : (placeLink x).depth.key ≠ .number ((y.depth : ℚ) + 1) ↔ x.depth ≠ y.depth + 1 := by
    simp only [placeLink, key_int, ne_eq, Key.number.injEq]
    norm_cast
  have hbranch : found (placeLink x).branchOrder.format04 .typeError =
      (.ok (Dec.padded 4 x.branchOrder) : Except Failure String) := by
    rw [placeLink, format04_int]
    rfl
  unfold follows
  by_cases hr : x.root = y.root
  · rw [if_neg (by rwa [hroot, not_not])]
    show (if (placeLink x).depth.key ≠ .number ((y.depth : ℚ) + 1) then pure false else do
      let branch ← found (placeLink x).branchOrder.format04 .typeError
      return (placeLink x).treeNumber.key == .text ((placeLink y).treeNumber.str ++ "-" ++ branch) : Except Failure Bool) = _
    by_cases hd : x.depth = y.depth + 1
    · rw [if_neg (by rwa [hdepth, not_not]), hbranch]
      show Except.ok (Key.text x.treeNumber == Key.text (y.treeNumber ++ "-" ++ Dec.padded 4 x.branchOrder)) = _
      simp [below, hr, hd, beq_eq_decide]
    · rw [if_pos (hdepth.2 hd)]
      simp [below, hd, pure, Except.pure]
  · rw [if_pos (hroot.2 hr)]
    simp [below, hr, pure, Except.pure]

theorem valid_placeLink (h : Reads t w) (ht : Loyalty.Tree w) (hx : x ∈ w.history) :
    t.valid x.member.repr (placeLink x) = .ok true := by
  unfold Tree.valid
  rw [parent_placeLink]
  cases ht.grown x hx with
  | root hinviter hroot hdepth htree =>
    rw [hinviter, Option.map_none]
    have hroot' : (placeLink x).root.str = x.member.repr := congrArg Nat.repr hroot
    have hdepth' : (placeLink x).depth.key = .number 0 := by
      rw [placeLink, key_int, hdepth, Nat.cast_zero]
    dsimp only
    rw [if_neg (not_not.2 hroot'), if_neg (not_not.2 hdepth'), placeLink, format04_int, htree]
    exact congrArg Except.ok (beq_self_eq_true (Key.text _))
  | below y hy hne hinviter hroot hdepth htree =>
    rw [hinviter, Option.map_some]
    dsimp only
    rw [if_neg (fun heq => hne (repr_injective heq)), h.history ht]
    have hfollows : ∀ z ∈ (w.history.filter fun z => z.member = y.member).map placeLink,
        follows (placeLink x) z = .ok (decide (follows (placeLink x) z = .ok true)) := by
      intro z hz
      obtain ⟨u, -, rfl⟩ := List.mem_map.1 hz
      rw [follows_placeLink]
      cases below x u <;> rfl
    rw [anyM_of_ok hfollows]
    refine congrArg Except.ok (List.any_eq_true.2 ⟨placeLink y, List.mem_map_of_mem ?_, ?_⟩)
    · exact List.mem_filter.2 ⟨hy, by simp⟩
    · rw [follows_placeLink]
      simp [below, hroot, hdepth, htree]

end

end Apartments.Backup
