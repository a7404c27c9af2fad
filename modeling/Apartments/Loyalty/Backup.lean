import Apartments.Decimals
import Apartments.Lib.Outcome
import Apartments.Models
import Mathlib.Data.List.Sort

/-!
# Backup snapshots (`loyalty/backup.py`)

A snapshot is a list of serialized records with a seal over it. `validate` reads the records again: their formats and
references, the guest events, the referral tree with its history, and the ledger row by row. A JSON object or list that is
the value of a field is kept as its text, with the references it has as an evidence. What the site fixes is `Review`: the
hash, the accepted schemas and what they prescribe, the fields and the foreign keys of the models.
-/

namespace Apartments.Backup

/-- A JSON value that is no object or list; its numbers are finite. -/
inductive Scalar
  | null
  | bool (b : Bool)
  | int (n : ℤ)
  | float (x : ℚ) (text : String)
  | text (s : String)
deriving DecidableEq

/-- The references of an evidence. -/
structure References where
  payments : List Scalar
  refunds : List Scalar
  modification : Scalar
deriving DecidableEq

/-- An object or a list, with its `str()`; it has no references where the loops over them raise. -/
structure Document where
  references : Option References
  text : String
deriving DecidableEq

inductive Value
  | scalar (s : Scalar)
  | document (d : Document)
deriving DecidableEq

/-- What two values are compared by; a truth value is a number. -/
inductive Key
  | null
  | number (x : ℚ)
  | text (s : String)
  | document (d : Document)
deriving DecidableEq

/-- How a check ends that does not pass: with the code of a `BackupError`, or with an exception of the language. -/
inductive Failure
  | reject (code : String)
  | keyError (key : String)
  | typeError
  | unfinished
deriving DecidableEq, Repr

/-! ### Values -/

def Scalar.str : Scalar → String
  | .null => "None"
  | .bool b => if b then "True" else "False"
  | .int n => toString n
  | .float _ shown => shown
  | .text s => s

def Scalar.number : Scalar → Option ℚ
  | .bool b => some (if b then 1 else 0)
  | .int n => some n
  | .float x _ => some x
  | .null => none
  | .text _ => none

/-- `bool(value)`. -/
def Scalar.truthy : Scalar → Bool
  | .null => false
  | .bool b => b
  | .int n => n != 0
  | .float x _ => x != 0
  | .text s => s != ""

/-- A number that is filled up with zeros after its sign. -/
def zeroFilled (width : ℕ) (text : String) : String :=
  let (sign, digits) := match text.toList with
    | '-' :: digits => ("-", digits)
    | digits => ("", digits)
  sign ++ String.ofList (List.replicate (width - text.length) '0' ++ digits)

/-- `f"{value:04}"`, which raises for `None`; a text is filled up on the right. -/
def Scalar.format04 : Scalar → Option String
  | .null => none
  | .bool b => some (if b then "0001" else "0000")
  | .int n => some (zeroFilled 4 (toString n))
  | .float _ shown => some (zeroFilled 4 shown)
  | .text s => some (s ++ String.ofList (List.replicate (4 - s.length) '0'))

/-- `int(value)`, with ASCII digits. -/
def Scalar.toInt : Scalar → Option ℤ
  | .null => none
  | .bool b => some (if b then 1 else 0)
  | .int n => some n
  | .float x _ => some (if 0 ≤ x then ⌊x⌋ else ⌈x⌉)
  | .text s =>
    let (negative, digits) := Decimal.readSign (Text.strip s).toList
    if (digits.splitOn '_').all fun group => !group.isEmpty && group.all Char.isDigit then
      let n := Decimal.readDigits (digits.filter (· != '_'))
      some (if negative then -(n : ℤ) else n)
    else none

namespace Value

def null : Value := .scalar .null

def int (n : ℤ) : Value := .scalar (.int n)

def text (s : String) : Value := .scalar (.text s)

def str : Value → String
  | .scalar s => s.str
  | .document d => d.text

def number : Value → Option ℚ
  | .scalar s => s.number
  | .document _ => none

def key : Value → Key
  | .scalar .null => .null
  | .scalar (.text s) => .text s
  | .scalar s => .number (s.number.getD 0)
  | .document d => .document d

def isNull (v : Value) : Bool := v == null

def isDocument : Value → Bool
  | .scalar _ => false
  | .document _ => true

def truthy : Value → Bool
  | .scalar s => s.truthy
  | .document d => d.text != "{}" && d.text != "[]"

def format04 : Value → Option String
  | .scalar s => s.format04
  | .document _ => none

/-- `value + 1`. -/
def succ (v : Value) : Option Key := v.number.map fun x => .number (x + 1)

end Value

/-! ### Records -/

/-- The fields of a record. -/
abbrev Fields := List (String × Value)

structure Record where
  model : String
  pk : Value
  fields : Fields
deriving DecidableEq

structure Snapshot where
  version : ℤ
  schema : String
  sourceId : String
  capturedAt : String
  records : List Record
  digest : String
deriving DecidableEq

/-- What the seal is over. -/
structure Body where
  version : ℤ
  schema : String
  sourceId : String
  capturedAt : String
  records : List Record
deriving DecidableEq

def Snapshot.body (s : Snapshot) : Body := ⟨s.version, s.schema, s.sourceId, s.capturedAt, s.records⟩

/-- What the program and its models fix. -/
structure Review where
  /-- `_hash` of a snapshot without its digest. -/
  hash : Body → String
  /-- The accepted results of `_schema_hash`. -/
  schemas : List String
  /-- The number of bytes of the JSON text. -/
  size : Snapshot → ℕ
  /-- `datetime.fromisoformat`; `none` if it raises or the datetime is naive. -/
  instant : String → Option Time
  /-- The fields that a record of a model has under a schema; `none` if the model is not reviewed. -/
  fields : String → String → Option (List String)
  /-- The foreign keys of a model under a schema, with the models they refer to. -/
  relations : String → String → List (String × String)
  /-- The datetime fields of a model. -/
  datetimes : String → List String

/-- `(row["model"], str(row["pk"]))`. -/
def Record.key (r : Record) : String × String := (r.model, r.pk.str)

/-- `fields[name]`. -/
def read (fields : Fields) (name : String) : Except Failure Value := found (fields.lookup name) (.keyError name)

/-- What is kept in a set has a hash; an object or a list has none. -/
def hashable (values : List Value) : Except Failure Unit := raiseIf (values.any Value.isDocument = true) .typeError

/-- The values are as many as the elements of their set. -/
def distinct (values : List Value) : Except Failure Bool := do
  hashable values
  return decide (values.map Value.key).Nodup

/-- The records of a model with the texts of their keys. -/
def Snapshot.rows (s : Snapshot) (model : String) : List (String × Fields) :=
  (s.records.filter (·.model == model)).map fun r => (r.pk.str, r.fields)

section
variable (env : Review)

/-- `seal`. -/
def Snapshot.seal (s : Snapshot) : Snapshot := { s with digest := env.hash s.body }

/-- The loop over the records that indexes them. -/
def checkFormat (schema : String) : List (String × String) → List Record → Except Failure Unit
  | _, [] => .ok ()
  | seen, r :: rs => do
    let expected ← found (env.fields schema r.model) (.reject "unreviewed_record_fields")
    raiseIf (¬ (r.fields.map (·.1) ⊆ expected ∧ expected ⊆ r.fields.map (·.1))) (.reject "unreviewed_record_fields")
    raiseIf (r.key ∈ seen) (.reject "duplicate_record")
    checkFormat schema (r.key :: seen) rs

/-- Every reference of a record is to a record. -/
def checkRelations (s : Snapshot) : Except Failure Unit :=
  s.records.forM fun r => (env.relations s.schema r.model).forM fun (field, target) => do
    let value ← read r.fields field
    raiseIf (value.isNull = false ∧ (target, value.str) ∉ s.records.map Record.key) (.reject "missing_related_record")

end

/-! ### Guest events -/

/-- `GuestEvent.Kind.values`. -/
def kinds : List String :=
  ["account_created", "joined", "invitation_ready", "closed", "identity_changed", "phone_verified", "email_verified",
    "referral_changed", "profile_changed"]

/-- The test of one guest event; the references before it are given. -/
def invalidEvent (s : Snapshot) (references : List Key) (event : Fields) : Except Failure Bool := do
  let member ← read event "member"
  let ledger ← read event "ledger"
  let reference ← read event "reference"
  let kind ← read event "kind"
  let source ← read event "source"
  let customer ← read event "customer"
  hashable [reference]
  if references.contains reference.key then return true
  if !(kinds.map Key.text).contains kind.key then return true
  hashable [source]
  if !(["guest", "admin", "system", "history"].map Key.text).contains source.key then return true
  if !member.isNull && member.str != "" then
    let owner ← found ((s.rows "loyalty.member").lookup member.str) (.keyError member.str)
    if (← read owner "customer").key ≠ customer.key then return true
  match (s.rows "loyalty.ledger").lookup ledger.str with
  | none => return false
  | some row =>
    let owner ← read row "member"
    return member.isNull || owner.str != member.str

def checkEvents (s : Snapshot) : List Key → List (String × Fields) → Except Failure Unit
  | _, [] => .ok ()
  | references, (_, event) :: events => do
    raiseIf ((← invalidEvent s references event) = true) (.reject "invalid_guest_event")
    let reference ← read event "reference"
    checkEvents s (reference.key :: references) events

/-! ### The referral tree -/

/-- What the tree checks read of a referral or of a revision. -/
structure Link where
  member : Value
  inviter : Value
  root : Value
  treeNumber : Value
  depth : Value
  branchOrder : Value
deriving DecidableEq

def readLink (fields : Fields) : Except Failure Link := do
  return ⟨← read fields "member", ← read fields "inviter", ← read fields "root", ← read fields "tree_number",
    ← read fields "depth", ← read fields "branch_order"⟩

/-- `str(row["inviter"])`; a link without an inviter has none. -/
def Link.parent (x : Link) : Option String := if x.inviter.isNull then none else some x.inviter.str

/-- The root, the depth and the number of a link are those of a place below the parent. -/
def follows (x parent : Link) : Except Failure Bool := do
  if x.root.key ≠ parent.root.key then return false
  let depth ← found parent.depth.succ .typeError
  if x.depth.key ≠ depth then return false
  let branch ← found x.branchOrder.format04 .typeError
  return x.treeNumber.key == .text (parent.treeNumber.str ++ "-" ++ branch)

/-- The members of a snapshot with the links of their histories, the original one first. -/
structure Tree where
  members : List (String × Fields)
  referrals : List (String × Link)
  revisions : List (String × Link)

/-- `histories[member_id]`. -/
def Tree.history (t : Tree) (member : String) : List Link :=
  ((t.referrals.filter (·.1 == member)) ++ t.revisions.filter (·.1 == member)).map (·.2)

/-- The keys of `histories`: a revision without a member has one, too. -/
def Tree.keys (t : Tree) : List String := (t.referrals.map (·.1) ++ t.revisions.map (·.1)).eraseDups

/-- `current_referrals`. -/
def Tree.current (t : Tree) (member : String) : Option Link := (t.history member).getLast?

/-- A link of a history is at a root, or at a place below one of the links that its inviter has ever had. -/
def Tree.valid (t : Tree) (member : String) (x : Link) : Except Failure Bool :=
  match x.parent with
  | none => do
    if x.root.str ≠ member then return false
    if x.depth.key ≠ .number 0 then return false
    let branch ← found x.branchOrder.format04 .typeError
    return x.treeNumber.key == .text branch
  | some inviter => if inviter = member then .ok false else (t.history inviter).anyM (follows x)

/-- The loop along the current links of a member. -/
def Tree.walk (t : Tree) : ℕ → List String → Link → Except Failure Unit
  | rounds, seen, x =>
    match x.parent with
    | none => .ok ()
    | some parent => do
      raiseIf (parent ∈ seen) (.reject "invalid_membership_tree")
      let above ← found (t.current parent) (.keyError parent)
      raiseIf ((← follows x above) = false) (.reject "invalid_membership_tree")
      match rounds with
      | 0 => .error .unfinished
      | rounds + 1 => t.walk rounds (parent :: seen) above

/-- The part of `validate` that reads the members and their links. -/
def readTree (s : Snapshot) : Except Failure Tree := do
  let members := s.rows "loyalty.member"
  let referrals ← (s.rows "loyalty.referral").mapM fun (_, fields) => do
    let x ← readLink fields
    return (x.member.str, x)
  raiseIf (¬ (referrals.map (·.1)).Nodup) (.reject "duplicate_member_relation")
  raiseIf (¬ (members.map (·.1) ⊆ referrals.map (·.1) ∧ referrals.map (·.1) ⊆ members.map (·.1)))
    (.reject "incomplete_membership_tree")
  let numbers ← members.mapM fun (_, fields) => read fields "number"
  let customers ← members.mapM fun (_, fields) => read fields "customer"
  raiseIf ((← distinct numbers) = false ∨ ¬ (customers.map Value.str).Nodup)
    (.reject "duplicate_membership_identity")
  raiseIf ((← distinct (referrals.map (·.2.treeNumber))) = false) (.reject "duplicate_tree_number")
  let revisions ← (s.records.filter (·.model == "loyalty.referralrevision")).mapM fun r => do
    let pk ← match r.pk with
      | .scalar pk => found pk.toInt .typeError
      | .document _ => .error .typeError
    let x ← readLink r.fields
    return (pk, x.member.str, x)
  return ⟨members, referrals, (revisions.insertionSort fun a b => a.1 ≤ b.1).map (·.2)⟩

/-- The part of `validate` that checks the links. -/
def Tree.check (t : Tree) : Except Failure Unit := do
  t.keys.forM fun member => (t.history member).forM fun x => do
    raiseIf ((← t.valid member x) = false) (.reject "invalid_membership_tree")
  let current ← t.keys.mapM fun member => do
    let x ← found (t.current member) (.keyError member)
    return (member, x)
  hashable (current.map (·.2.treeNumber))
  raiseIf ((current.map (·.2.treeNumber.key)).dedup.length ≠ t.members.length) (.reject "duplicate_tree_number")
  current.forM fun (member, x) => t.walk (t.referrals.length + t.revisions.length) [member] x

/-! ### The ledger -/

/-- What the ledger checks read of a row. -/
structure Entry where
  sequence : Value
  operationNumber : Value
  eventReference : Value
  member : Value
  component : Value
  operationGroup : Value
  branch : Value
  customer : Value
  membershipNumber : Value
  treeNumber : Value
  credit : Value
  debit : Value
  programBalanceAfter : Value
  memberBalanceAfter : Value
  eventType : Value
  original : Value
  counterpart : Value
  evidence : Value
deriving DecidableEq

def readEntry (fields : Fields) : Except Failure Entry := do
  return {
    sequence := ← read fields "sequence"
    operationNumber := ← read fields "operation_number"
    eventReference := ← read fields "event_reference"
    member := ← read fields "member"
    component := ← read fields "component"
    operationGroup := ← read fields "operation_group"
    branch := ← read fields "branch"
    customer := ← read fields "customer"
    membershipNumber := ← read fields "membership_number"
    treeNumber := ← read fields "tree_number"
    credit := ← read fields "credit"
    debit := ← read fields "debit"
    programBalanceAfter := ← read fields "program_balance_after"
    memberBalanceAfter := ← read fields "member_balance_after"
    eventType := ← read fields "event_type"
    original := ← read fields "original"
    counterpart := ← read fields "counterpart"
    evidence := ← read fields "evidence" }

def Snapshot.ledger (s : Snapshot) : Except Failure (List Entry) :=
  (s.rows "loyalty.ledger").mapM fun row => readEntry row.2

/-- `_money`: a finite amount with two decimals that fits the precision. -/
def money (v : Value) : Except Failure Dec :=
  match Decimal.parse v.str with
  | none => .error (.reject "invalid_points_value")
  | some .special => .error (.reject "invalid_points_precision")
  | some (.finite d) =>
    if 10 ^ 28 ≤ (Dec.roundHalfEven (d.value * 10 ^ 2)).natAbs then .error (.reject "invalid_points_value")
    else if d.value ≠ Dec.quantizeEven 2 d.value then .error (.reject "invalid_points_precision")
    else .ok d.value

/-- What the loop over the ledger keeps. -/
structure Tally where
  program : Dec
  balances : String → Dec
  operationNumbers : List Key
  events : List (Key × String × Key)
  branches : List (Key × Key)
  transfers : List Entry

def Tally.empty : Tally := ⟨0, fun _ => 0, [], [], [], []⟩

/-- The row and its amount are added; a sum that does not fit the precision is refused by the balance that it is compared
with. -/
def Tally.add (t : Tally) (e : Entry) (amount : Dec) : Tally where
  program := t.program + amount
  balances := fun member => if member = e.member.str then t.balances member + amount else t.balances member
  operationNumbers := e.operationNumber.key :: t.operationNumbers
  events := (e.eventReference.key, e.member.str, e.component.key) :: t.events
  branches := (e.operationGroup.key, e.branch.key) :: t.branches
  transfers := if e.eventType.key = .text "transfer" then t.transfers ++ [e] else t.transfers

/-- The checks of a ledger row, the `sequence`-th one, but for its evidence. -/
def Tree.post (tree : Tree) (t : Tally) (sequence : ℕ) (e : Entry) : Except Failure Tally := do
  let member ← found (tree.members.lookup e.member.str) (.keyError e.member.str)
  raiseIf (e.sequence.key ≠ .number sequence) (.reject "invalid_ledger_sequence")
  hashable [e.operationNumber]
  raiseIf (e.operationNumber.key ∈ t.operationNumbers) (.reject "duplicate_ledger_event")
  hashable [e.eventReference, e.component]
  raiseIf ((e.eventReference.key, e.member.str, e.component.key) ∈ t.events) (.reject "duplicate_ledger_event")
  hashable [e.operationGroup, e.branch]
  raiseIf ((e.operationGroup.key, e.branch.key) ∈ t.branches) (.reject "duplicate_ledger_event")
  let customer ← read member "customer"
  let number ← read member "number"
  raiseIf (e.customer.key ≠ customer.key ∨ e.membershipNumber.key ≠ number.key) (.reject "ledger_identity_mismatch")
  hashable [e.treeNumber]
  raiseIf (e.treeNumber.key ∉ (tree.history e.member.str).map (·.treeNumber.key)) (.reject "ledger_identity_mismatch")
  let credit ← money e.credit
  let debit ← money e.debit
  raiseIf (credit < 0 ∨ debit < 0 ∨ (0 < credit ↔ 0 < debit)) (.reject "invalid_ledger_sides")
  let t := t.add e (credit - debit)
  let program ← money e.programBalanceAfter
  raiseIf (program ≠ t.program) (.reject "ledger_balance_mismatch")
  let own ← money e.memberBalanceAfter
  raiseIf (own ≠ t.balances e.member.str) (.reject "ledger_balance_mismatch")
  raiseIf (t.balances e.member.str < 0 ∧ ¬ (0 < credit ∨ (e.eventType.key = .text "adjust" ∧ e.original.truthy = true) ∨
    e.eventType.key = .text "redeem")) (.reject "invalid_negative_posting")
  return t

/-- The references of the evidence are to records. -/
def checkEvidence (keys : List (String × String)) (e : Entry) : Except Failure Unit :=
  match e.evidence with
  | .scalar _ => .error .typeError
  | .document d => do
    let d ← found d.references .typeError
    raiseIf (∃ id ∈ d.payments, ("payments.paymentattempt", id.str) ∉ keys) (.reject "missing_payment_evidence")
    raiseIf (∃ refund ∈ d.refunds, ("reservations.refundobligation", refund.str) ∉ keys)
      (.reject "missing_refund_evidence")
    raiseIf (d.modification.truthy = true ∧ ("reservations.bookingmodificationrequest", d.modification.str) ∉ keys)
      (.reject "missing_modification_evidence")

/-- The loop over the ledger. -/
def Tree.postAll (tree : Tree) (evidence : Entry → Except Failure Unit) :
    Tally → ℕ → List Entry → Except Failure Tally
  | t, _, [] => .ok t
  | t, sequence, e :: es => do
    let t ← tree.post t sequence e
    evidence e
    tree.postAll evidence t (sequence + 1) es

/-- The two rows of a transfer. -/
def checkPair (rows : List Entry) : Except Failure Unit :=
  match rows with
  | [a, b] => do
    raiseIf (a.member.key ≠ b.counterpart.key ∨ b.member.key ≠ a.counterpart.key) (.reject "invalid_transfer_pair")
    raiseIf ((← money a.credit) ≠ (← money b.debit)) (.reject "invalid_transfer_pair")
    raiseIf ((← money a.debit) ≠ (← money b.credit)) (.reject "invalid_transfer_pair")
  | _ => .error (.reject "incomplete_transfer_pair")

/-- The rows of a transfer group. -/
def Tally.group (t : Tally) (group : Key) : List Entry := t.transfers.filter (·.operationGroup.key == group)

def Tally.checkPairs (t : Tally) : Except Failure Unit :=
  (t.transfers.map (·.operationGroup.key)).dedup.forM fun group => checkPair (t.group group)

/-- The rows by their sequence. -/
def sortEntries (entries : List Entry) : Except Failure (List Entry) := do
  let numbered ← entries.mapM fun e => do
    return (← found e.sequence.number .typeError, e)
  return (numbered.insertionSort fun a b => a.1 ≤ b.1).map (·.2)

/-- The part of `validate` that checks the ledger. -/
def Tree.checkLedger (tree : Tree) (evidence : Entry → Except Failure Unit) (entries : List Entry) :
    Except Failure (List Entry × Tally) := do
  let ledger ← sortEntries entries
  let t ← tree.postAll evidence .empty 1 ledger
  t.checkPairs
  return (ledger, t)

/-! ### The whole check -/

/-- What `validate` returns. -/
structure Report where
  counts : List (String × ℕ)
  programBalance : Dec
  memberBalances : List (String × Dec)
  ledgerSequence : ℕ
deriving DecidableEq

def counts (records : List Record) : List (String × ℕ) :=
  let models := records.map (·.model)
  (models.dedup.insertionSort fun a b => a ≤ b).map fun model => (model, models.count model)

def maxRows : ℕ := 100000

def maxBytes : ℕ := 64 * 1024 * 1024

/-- The checks of the snapshot as a whole. -/
def checkHeader (env : Review) (s : Snapshot) : Except Failure Unit := do
  raiseIf (s.version ≠ 1 ∨ s.schema ∉ env.schemas) (.reject "incompatible_snapshot_schema")
  raiseIf ((s.seal env).digest ≠ s.digest) (.reject "snapshot_integrity_failed")
  raiseIf (maxBytes < env.size s ∨ maxRows < s.records.length) (.reject "snapshot_size_limit")
  raiseIf (env.instant s.capturedAt = none) (.reject "invalid_snapshot_time")
  raiseIf (s.sourceId.length < 3 ∨ 100 < s.sourceId.length) (.reject "source_identity_required")

/-- `validate`. -/
def validate (env : Review) (s : Snapshot) : Except Failure Report := do
  checkHeader env s
  checkFormat env s.schema [] s.records
  checkRelations env s
  checkEvents s [] (s.rows "loyalty.guestevent")
  let tree ← readTree s
  tree.check
  let entries ← s.ledger
  let (ledger, t) ← tree.checkLedger (checkEvidence (s.records.map Record.key)) entries
  return {
    counts := counts s.records
    programBalance := t.program
    memberBalances := tree.members.map fun (pk, _) => (pk, t.balances pk)
    ledgerSequence := ledger.length }

end Apartments.Backup
