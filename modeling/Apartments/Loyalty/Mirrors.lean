import Apartments.Lib.Table
import Apartments.Loyalty.Backup
import Mathlib.Data.Prod.Lex
import Mathlib.Data.String.Basic

/-!
# The mirrors of the loyalty backup (`loyalty/backup.py`, `loyalty/cloud_backup.py`)

A snapshot is kept in a local SQLite file and in a remote Postgres schema, which is provisioned. The local mirror deletes its
tables and writes them again; the remote one inserts or updates record by record and deletes nothing. Both write in one
transaction, read back what they wrote and refuse a snapshot that forgets or rewrites the history they hold. What was written
as JSON is read as it was written. An exception that is no `BackupError` stands as the code of its class.
-/

namespace Apartments.Backup

/-! ### `compare` -/

/-- `CORE`. -/
def core : List String := ["loyalty.member", "loyalty.referral", "loyalty.ledger"]

/-- The other models whose records are never written again. -/
def settled : List String := ["payments.offlinepaymentreceipt", "loyalty.referralrevision", "loyalty.guestevent"]

def canonicalValue : Value → Value
  | .scalar (.text s) =>
    if ".000Z".toList <:+ s.toList then .text (String.ofList (s.toList.take (s.length - 5)) ++ "Z") else .text s
  | v => v

/-- The two objects are equal. -/
def Record.Same (r r' : Record) : Prop :=
  r.model = r'.model ∧ r.pk.key = r'.pk.key ∧ ∀ name ∈ r.fields.map (·.1) ++ r'.fields.map (·.1),
    (r.fields.lookup name).map Value.key = (r'.fields.lookup name).map Value.key

instance (r r' : Record) : Decidable (r.Same r') := by
  unfold Record.Same
  infer_instance

def Snapshot.find (s : Snapshot) (key : String × String) : Option Record := Table.get Record.key s.records key

section
variable (env : Review)

/-- `_canonical_record`. -/
def canonicalRecord (r : Record) : Record :=
  { r with fields := r.fields.map fun (name, v) => (name, if name ∈ env.datetimes r.model then canonicalValue v else v) }

/-- The round of the loop for a record that is held. -/
def compareRecord (incoming : Snapshot) (held : Record) : Except Failure Unit := do
  let new ← found (incoming.find held.key)
    (.reject (if held.model ∈ core then "financial_history_missing" else "related_history_missing"))
  let new := canonicalRecord env new
  let old := canonicalRecord env held
  raiseIf (held.model ∈ settled ∧ ¬ new.Same old)
    (.reject (if held.model = "payments.offlinepaymentreceipt" then "offline_receipt_history_changed"
      else "financial_history_changed"))
  raiseIf (held.model ∈ core ∧ held.model ≠ "loyalty.member" ∧ ¬ new.Same old) (.reject "financial_history_changed")
  if held.model = "loyalty.member" then
    ["customer", "number", "joined_at"].forM fun field => do
      raiseIf ((← read new.fields field).key ≠ (← read old.fields field).key) (.reject "membership_identity_changed")

/-- `compare`. Both snapshots are validated, so that their times are read. -/
def compare (previous : Option Snapshot) (incoming : Snapshot) : Except Failure Unit := do
  let _ ← validate env incoming
  match previous with
  | none => return ()
  | some previous =>
    let _ ← validate env previous
    raiseIf (previous.sourceId ≠ incoming.sourceId) (.reject "different_source")
    raiseIf ((env.instant incoming.capturedAt).getD 0 < (env.instant previous.capturedAt).getD 0) (.reject "stale_snapshot")
    previous.records.forM (compareRecord env incoming)

end

/-! ### The tables -/

/-- `TABLES` of the local mirror. -/
def tables : List (String × String) :=
  [("loyalty.member", "members"), ("loyalty.referral", "referrals"), ("loyalty.ledger", "ledger")]

def tableNames : List String := tables.map (·.2) ++ ["context"]

def tableOf (model : String) : String := (tables.lookup model).getD "context"

/-- A row of one of the tables. -/
structure TableRow where
  table : String
  key : String
  record : Record
deriving DecidableEq

/-- The primary key among the rows of all tables. -/
def TableRow.place (r : TableRow) : String × String := (r.table, r.key)

/-- `f"{model}:{pk}"`. -/
def Record.text (r : Record) : String := r.model ++ ":" ++ r.pk.str

def Record.row (r : Record) : TableRow := ⟨tableOf r.model, r.text, r⟩

/-- `SELECT .. ORDER BY key`. -/
def select (rows : List TableRow) (table : String) : List TableRow :=
  (rows.filter (·.table == table)).insertionSort fun a b => a.key ≤ b.key

/-- The order of the records of a snapshot. -/
def Record.order (r : Record) : String ×ₗ String := toLex r.key

def inOrder (records : List Record) : List Record := records.insertionSort fun a b => a.order ≤ b.order

/-- The rows of all tables. -/
def recordsOf (rows : List TableRow) : List Record := (tableNames.flatMap (select rows)).map TableRow.record

/-- A snapshot without its records. -/
structure Manifest where
  version : ℤ
  schema : String
  sourceId : String
  capturedAt : String
  digest : String
deriving DecidableEq

def Snapshot.manifest (s : Snapshot) : Manifest := ⟨s.version, s.schema, s.sourceId, s.capturedAt, s.digest⟩

def Manifest.snapshot (m : Manifest) (records : List Record) : Snapshot :=
  ⟨m.version, m.schema, m.sourceId, m.capturedAt, records, m.digest⟩

/-- The rows of a snapshot in the order of the tables. -/
def Snapshot.tableRows (s : Snapshot) : List TableRow :=
  tableNames.flatMap fun table => (s.records.map Record.row).filter (·.table == table)

/-- The code of a failure in the status of a mirror. -/
def Failure.code : Failure → String
  | .reject code => code
  | .keyError _ => "KeyError"
  | .typeError => "TypeError"
  | .unfinished => "RecursionError"

structure Status where
  status : String
  lastAttempt : Option Time
  lastSuccess : Option Time
  errorCode : String
deriving DecidableEq

/-- The status after an attempt that failed. -/
def Status.failed (status : Status) (now : Time) (code : String) : Status :=
  { status with status := "failed", lastAttempt := some now, errorCode := code }

/-- What a run of a mirror finds: the captured snapshot, the database it comes from and whether the remote one is reached. -/
structure Attempt where
  captured : Except Failure Snapshot
  now : Time
  sqlite : Bool
  reachable : Bool

/-! ### `LocalMirror` -/

structure LocalMirror where
  rows : List TableRow
  manifest : Option Manifest
  status : Option Status
deriving DecidableEq

/-- `settings.AUTH_USER_MODEL`. -/
def userModel : String := "auth.user"

/-- `_fictional_only`. -/
def fictionalOnly (s : Snapshot) : Except Failure Unit :=
  s.records.forM fun r => do
    if r.model = userModel then
      match ← read r.fields "email" with
      | .scalar (.text email) => raiseIf (¬ ".invalid".toList <:+ email.toList) (.reject "fictional_accounts_only")
      | _ => .error (.reject "AttributeError")
    if r.model = "reservations.reservation" then
      raiseIf ((← read r.fields "is_test").truthy = false) (.reject "fictional_bookings_only")

/-- `INSERT` of the rows one by one. -/
def insertAll : List TableRow → List TableRow → Except Failure (List TableRow)
  | rows, [] => .ok rows
  | rows, r :: rs => do
    raiseIf ((Table.get TableRow.place rows r.place).isSome = true) (.reject "IntegrityError")
    insertAll (rows ++ [r]) rs

section
variable (env : Review)

/-- The snapshot in the order of its records, with a seal of its own. -/
def Snapshot.ordered (s : Snapshot) : Snapshot := Snapshot.seal env { s with records := inOrder s.records }

namespace LocalMirror

/-- `_read`. -/
def load (m : LocalMirror) : Except Failure (Option Snapshot) :=
  match m.manifest with
  | none => do
    raiseIf (m.rows ≠ []) (.reject "missing_mirror_manifest")
    return none
  | some manifest => do
    let s := manifest.snapshot (inOrder (recordsOf m.rows))
    let _ ← validate env s
    return some s

/-- The transaction of `update`. -/
def write (m : LocalMirror) (now : Time) (s : Snapshot) : Except Failure (Report × LocalMirror) := do
  let _ ← validate env s
  fictionalOnly s
  let s := s.ordered env
  compare env (← m.load env) s
  let m : LocalMirror := { m with rows := ← insertAll [] (s.records.map Record.row), manifest := some s.manifest }
  let recovered ← found (← m.load env) (.reject "invalid_snapshot_format")
  let result ← validate env recovered
  return (result, { m with status := some ⟨"succeeded", some now, some now, ""⟩ })

def failed (m : LocalMirror) (now : Time) (code : String) : LocalMirror :=
  { m with status := some ((m.status.getD ⟨"", none, none, ""⟩).failed now code) }

/-- `run`: the mirror and what it answers. -/
def run (m : LocalMirror) (a : Attempt) : LocalMirror × Except Failure Report :=
  if a.sqlite = false then (m, .error (.reject "local_rehearsal_only"))
  else
    match a.captured >>= m.write env a.now with
    | .ok (result, m) => (m, .ok result)
    | .error e => (m.failed a.now e.code, .error e)

end LocalMirror

/-! ### `CloudMirror` -/

structure CloudStatus extends Status where
  capturedAt : Option String
  digest : Option String
  counts : List (String × ℕ)
  programBalance : Option Dec
deriving DecidableEq

structure CloudMirror where
  sourceId : String
  rows : List TableRow
  manifest : Option Manifest
  status : CloudStatus
deriving DecidableEq

/-- `INSERT .. ON CONFLICT (key) DO UPDATE`. -/
def upsert (rows : List TableRow) (r : TableRow) : List TableRow := Table.put TableRow.place rows r

/-- Inside of `_connect` every failure that is no `BackupError` becomes one. -/
def redacted : Failure → Failure
  | .reject code => .reject code
  | _ => .reject "cloud_io_failed"

namespace CloudMirror

/-- The tests of a row that is read. -/
def checkRow (r : TableRow) : Except Failure Unit := do
  raiseIf (r.key ≠ r.record.text) (.reject "invalid_cloud_record_key")
  raiseIf (tableOf r.record.model ≠ r.table) (.reject "invalid_cloud_record_partition")

/-- `_read`. -/
def load (m : CloudMirror) : Except Failure (Option Snapshot) := do
  (tableNames.flatMap (select m.rows)).forM checkRow
  raiseIf (maxRows < (recordsOf m.rows).length) (.reject "snapshot_row_limit")
  match m.manifest with
  | none => do
    raiseIf (recordsOf m.rows ≠ []) (.reject "missing_mirror_manifest")
    return none
  | some manifest => do
    let s := manifest.snapshot (inOrder (recordsOf m.rows))
    let _ ← validate env s
    raiseIf (s.sourceId ≠ m.sourceId) (.reject "different_source")
    return some s

/-- The transaction of `update`. -/
def transact (m : CloudMirror) (now : Time) (s : Snapshot) : Except Failure (Report × CloudMirror) := do
  compare env (← m.load env) s
  let m : CloudMirror := { m with rows := s.tableRows.foldl upsert m.rows, manifest := some s.manifest }
  let recovered ← found (← m.load env) (.reject "invalid_snapshot_format")
  let result ← validate env recovered
  raiseIf (recovered.digest ≠ s.digest) (.reject "cloud_readback_mismatch")
  return (result, { m with status := {
    status := "succeeded"
    lastAttempt := some now
    lastSuccess := some now
    errorCode := ""
    capturedAt := some s.capturedAt
    digest := some s.digest
    counts := result.counts
    programBalance := some result.programBalance } })

/-- `update`. -/
def update (m : CloudMirror) (now : Time) (reachable : Bool) (s : Snapshot) : Except Failure (Report × CloudMirror) := do
  let _ ← validate env s
  raiseIf (s.sourceId ≠ m.sourceId) (.reject "different_source")
  raiseIf (reachable = false) (.reject "cloud_io_failed")
  (m.transact env now s).mapError redacted

/-- `failed`. -/
def failed (m : CloudMirror) (now : Time) (reachable : Bool) (code : String) : CloudMirror :=
  if reachable = false then m else { m with status := { m.status with toStatus := m.status.failed now code } }

/-- The code of `run` for a failure. -/
def code : Failure → String
  | .reject code => code
  | _ => "source_capture_failed"

/-- `run`: the mirror and what it answers. -/
def run (m : CloudMirror) (a : Attempt) : CloudMirror × Except Failure Report :=
  if a.sqlite = true then (m, .error (.reject "cloud_requires_production_source"))
  else
    match a.captured >>= m.update env a.now a.reachable with
    | .ok (result, m) => (m, .ok result)
    | .error e => (m.failed a.now a.reachable (code e), .error (.reject (code e)))

end CloudMirror

end

end Apartments.Backup
