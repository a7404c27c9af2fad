import Apartments.Loyalty.Backupable
import Apartments.Loyalty.MirrorsAgree

/-!
# The captures of one program

The operations of the core only add to what a capture reads of it: rows, links and revisions stay where they are, and a
member keeps its customer and its number. So `compare` refuses no capture for the history of the captures before it.
-/

namespace Apartments.Loyalty

/-- `w'` has the history of `w`. -/
structure World.Extends (w w' : World) : Prop where
  ledger : w.ledger <+: w'.ledger
  referrals : w.referrals <+: w'.referrals
  revisions : w.revisions <+: w'.revisions
  members : ∀ m ∈ w.members, ∃ m' ∈ w'.members, m'.pk = m.pk ∧ m'.customer = m.customer ∧ m'.number = m.number

section
variable {digest : Payload → String} {site : Site} {P : World → Booking → Facts → Prop} {w w' w'' : World}

theorem World.Extends.of_eq (hledger : w'.ledger = w.ledger) (hreferrals : w'.referrals = w.referrals)
    (hrevisions : w'.revisions = w.revisions) (hmembers : w'.members = w.members) : w.Extends w' where
  ledger := hledger ▸ List.prefix_rfl
  referrals := hreferrals ▸ List.prefix_rfl
  revisions := hrevisions ▸ List.prefix_rfl
  members m hm := ⟨m, hmembers ▸ hm, rfl, rfl, rfl⟩

theorem World.Extends.refl (w : World) : w.Extends w := .of_eq rfl rfl rfl rfl

theorem World.Extends.trans (h : w.Extends w') (h' : w'.Extends w'') : w.Extends w'' where
  ledger := h.ledger.trans h'.ledger
  referrals := h.referrals.trans h'.referrals
  revisions := h.revisions.trans h'.revisions
  members := by
    intro m hm
    obtain ⟨m', hm', hpk, hcustomer, hnumber⟩ := h.members m hm
    obtain ⟨m'', hm'', hpk', hcustomer', hnumber'⟩ := h'.members m' hm'
    exact ⟨m'', hm'', hpk'.trans hpk, hcustomer'.trans hcustomer, hnumber'.trans hnumber⟩

theorem Move.extends (h : Move digest site P w w') : w.Extends w' := by
  obtain ⟨rows, hledger, -⟩ := h.posts
  have hlinks : w.referrals <+: w'.referrals ∧ w.revisions <+: w'.revisions := by
    rcases h.links with ⟨m, link, -, -, rfl⟩ | ⟨q, revisions, -, rfl⟩ | ⟨hreferrals, hrevisions, -⟩
    · exact ⟨List.prefix_append _ _, List.prefix_rfl⟩
    · exact ⟨List.prefix_rfl, List.prefix_append _ _⟩
    · rw [hreferrals, hrevisions]
      exact ⟨List.prefix_rfl, List.prefix_rfl⟩
  exact ⟨hledger ▸ List.prefix_append _ _, hlinks.1, hlinks.2, h.members.1⟩

theorem World.extends_step (hs : Sound digest w) (a : Action) : w.Extends (w.step digest a) := by
  cases a with
  | operate site op =>
    have hop : Changes digest site anySettlement w (op.perform digest site w) := perform_any hs
    simp only [World.step]
    split
    case h_1 v hv =>
      exact Leads.inv (I := w.Extends) (fun _ _ _ hmove hI => hI.trans hmove.extends) (hop.of_eq_ok hv) hs (.refl w)
    case h_2 => exact .refl w
  | book pk createdAt columns =>
    simp only [World.step]
    split
    · exact .refl w
    · exact .of_eq rfl rfl rfl rfl
  | record pk columns => exact .of_eq rfl rfl rfl rfl

open Machine in
theorem World.extends_run (hs : Sound digest w) (as : List Action) : w.Extends (run (World.step digest) w as) := by
  induction as generalizing w with
  | nil => exact .refl w
  | cons a as ih => exact (extends_step hs a).trans (ih (hs.step a))

end

end Apartments.Loyalty

namespace Apartments.Backup

open Loyalty

/-! ### Captures with all columns -/

/-- What a night's run of the remote mirror finds besides the columns that the core writes: the time of the capture, the
columns of a member that are written again, the records of the other models, and whether the mirror is reached. -/
structure Night where
  capturedAt : String
  current : Value → Fields
  others : List Record
  now : Time
  reachable : Bool

/-- The record with all its columns; `written` are those that are written with their row. -/
def Record.complete (written : String → Value → Fields) (current : Value → Fields) (r : Record) : Record :=
  { r with fields := r.fields ++ (written r.model r.pk ++ if r.model = "loyalty.member" then current r.pk else []) }

section
variable (evidence : Row → Document) (env : Review) (written : String → Value → Fields)

/-- `capture`. -/
def nightly (schema sourceId : String) (night : Night) (w : World) : Snapshot :=
  Snapshot.seal env ⟨1, schema, sourceId, night.capturedAt,
    inOrder ((coreRecords evidence w).map (Record.complete written night.current) ++ night.others), ""⟩

end

/-- The other records that a compared capture has are those of the next one, and the settled ones stay as they are. -/
def OthersKept (env : Review) (others others' : List Record) : Prop :=
  ∀ r ∈ others, r.model ∉ core ∧ ∃ r' ∈ others', r'.key = r.key ∧
    (r.model ∈ settled → (canonicalRecord env r').Same (canonicalRecord env r))

section
variable {evidence : Row → Document} {env : Review} {written : String → Value → Fields} {w w' : World}
  {current current' : Value → Fields} {r : Record} {s : Snapshot}

theorem isPrefix_zipIdx {α : Type*} {l l' : List α} (h : l <+: l') (n : ℕ) : l.zipIdx n <+: l'.zipIdx n := by
  obtain ⟨rest, rfl⟩ := h
  rw [List.zipIdx_append]
  exact List.prefix_append _ _

theorem coreRecords_subset (h : w.Extends w') : coreRecords evidence w ⊆ coreRecords evidence w' := by
  intro r hr
  simp only [coreRecords, List.mem_append] at hr ⊢
  rcases hr with ((hr | hr) | hr) | hr
  · obtain ⟨m, hm, rfl⟩ := List.mem_map.1 hr
    obtain ⟨m', hm', hpk, hcustomer, hnumber⟩ := h.members m hm
    refine .inl (.inl (.inl (List.mem_map.2 ⟨m', hm', ?_⟩)))
    rw [hpk, memberFields, hcustomer, hnumber, memberFields]
  · exact .inl (.inl (.inr (((isPrefix_zipIdx h.referrals 1).map _).subset hr)))
  · exact .inl (.inr (((isPrefix_zipIdx h.revisions 1).map _).subset hr))
  · exact .inr ((h.ledger.map _).subset hr)

theorem lookup_canonical (names : List String) (fields : Fields) (name : String) :
    (fields.map fun x => (x.1, if x.1 ∈ names then canonicalValue x.2 else x.2)).lookup name =
      (fields.lookup name).map fun v => if name ∈ names then canonicalValue v else v := by
  induction fields with
  | nil => rfl
  | cons x fields ih =>
    rw [List.map_cons, List.lookup_cons, List.lookup_cons]
    by_cases hx : name = x.1
    · simp [hx]
    · have hne : (name == x.1) = false := by simpa using hx
      simp [hne, ih]

/-- The round of the loop for a record that stays the same. -/
theorem compareRecord_of_same {r' : Record} (hfind : s.find r.key = some r') (hmember : r.model ≠ "loyalty.member")
    (hsame : r.model ∈ settled ∨ r.model ∈ core → (canonicalRecord env r').Same (canonicalRecord env r)) :
    compareRecord env s r = .ok () := by
  have hsettled : ¬ (r.model ∈ settled ∧ ¬ (canonicalRecord env r').Same (canonicalRecord env r)) := by tauto
  have hcore : ¬ (r.model ∈ core ∧ r.model ≠ "loyalty.member" ∧
      ¬ (canonicalRecord env r').Same (canonicalRecord env r)) := by tauto
  simp only [compareRecord, hfind, found, bind, Except.bind, raiseIf_of_not hsettled, raiseIf_of_not hcore, if_neg hmember]
  rfl

/-- The round of the loop for a member that keeps what identifies it. -/
theorem compareRecord_of_member {r' : Record} (hfind : s.find r.key = some r') (hmember : r.model = "loyalty.member")
    (hidentity : ∀ name ∈ ["customer", "number", "joined_at"], ∃ v, r.fields.lookup name = some v ∧
      r'.fields.lookup name = some v) : compareRecord env s r = .ok () := by
  have hmodel : r'.model = r.model := congrArg Prod.fst (Table.key_of_get hfind)
  have hsettled : ¬ (r.model ∈ settled ∧ ¬ (canonicalRecord env r').Same (canonicalRecord env r)) := by
    simp [hmember, settled]
  have hcore : ¬ (r.model ∈ core ∧ r.model ≠ "loyalty.member" ∧
      ¬ (canonicalRecord env r').Same (canonicalRecord env r)) := by simp [hmember]
  simp only [compareRecord, hfind, found, bind, Except.bind, raiseIf_of_not hsettled, raiseIf_of_not hcore, if_pos hmember]
  refine forM_eq_ok.2 fun name hname => ?_
  obtain ⟨v, hv, hv'⟩ := hidentity name hname
  simp only [canonicalRecord, read, lookup_canonical, hv, hv', hmodel, Option.map_some, found]
  exact raiseIf_of_not (not_not.2 rfl)

/-- What identifies a member does not depend on the columns that are written again. -/
theorem lookup_identity (hjoined : ∀ pk, ((written "loyalty.member" pk).lookup "joined_at").isSome = true) {m : Member}
    {name : String} (hname : name ∈ ["customer", "number", "joined_at"]) : ∃ v, ∀ current,
      (Record.complete written current ⟨"loyalty.member", .int m.pk, memberFields m⟩).fields.lookup name = some v := by
  obtain ⟨joinedAt, hjoinedAt⟩ := Option.isSome_iff_exists.1 (hjoined (.int m.pk))
  simp only [List.mem_cons, List.not_mem_nil, or_false] at hname
  simp only [Record.complete, List.lookup_append]
  rcases hname with rfl | rfl | rfl
  · exact ⟨.int m.customer, fun _ => rfl⟩
  · exact ⟨.text m.number, fun _ => rfl⟩
  · exact ⟨joinedAt, fun _ => by simp [memberFields, List.lookup_cons, hjoinedAt]⟩

/-- The round of the loop for a record of the core. -/
theorem compareRecord_complete {x : Record} (hx : x ∈ coreRecords evidence w)
    (hjoined : ∀ pk, ((written "loyalty.member" pk).lookup "joined_at").isSome = true)
    (hfind : s.find x.key = some (x.complete written current')) :
    compareRecord env s (x.complete written current) = .ok () := by
  by_cases hmember : x.model = "loyalty.member"
  · obtain ⟨m, -, rfl⟩ : ∃ m ∈ w.members, ⟨"loyalty.member", .int m.pk, memberFields m⟩ = x := by
      simp only [coreRecords, List.mem_append, List.mem_map] at hx
      rcases hx with ((hx | ⟨_, -, rfl⟩) | ⟨_, -, rfl⟩) | ⟨_, -, rfl⟩
      · exact hx
      all_goals simp at hmember
    refine compareRecord_of_member hfind hmember fun name hname => ?_
    obtain ⟨v, hv⟩ := lookup_identity hjoined hname (m := m)
    exact ⟨v, hv current, hv current'⟩
  · have hsame : x.complete written current = x.complete written current' := by
      simp only [Record.complete, if_neg hmember]
    rw [hsame]
    exact compareRecord_of_same hfind hmember fun _ => Record.same_iff.2 ⟨rfl, rfl, fun _ => rfl⟩

theorem find_of_mem {report : Report} (hvalid : validate env s = .ok report) {r' : Record} (hr' : r' ∈ s.records) :
    s.find r'.key = some r' := Table.get_eq_of_mem (validate_nodup hvalid) hr'

/-- Of two snapshots of one source in the order of their times, `compare` reads the records of the first one. -/
theorem compare_eq_ok {p : Snapshot} (hsource : p.sourceId = s.sourceId)
    (htime : (env.instant p.capturedAt).getD 0 ≤ (env.instant s.capturedAt).getD 0) :
    compare env (some p) s = .ok () ↔ (∃ report, validate env s = .ok report) ∧
      (∃ report, validate env p = .ok report) ∧ ∀ r ∈ p.records, compareRecord env s r = .ok () := by
  simp only [compare, bind_eq_ok, raiseIf_eq_ok, forM_eq_ok, exists_const, hsource, not_lt.2 htime, ne_eq, not_true_eq_false,
    not_false_eq_true, true_and]
  constructor
  · rintro ⟨report, hs, report', hp, h⟩
    exact ⟨⟨report, hs⟩, ⟨report', hp⟩, h⟩
  · rintro ⟨⟨report, hs⟩, ⟨report', hp⟩, h⟩
    exact ⟨report, hs, report', hp, h⟩

variable {schema sourceId : String} {night night' : Night}

/-- The captures of the second night follow those of the first. -/
structure Night.Before (env : Review) (night night' : Night) : Prop where
  time : (env.instant night.capturedAt).getD 0 ≤ (env.instant night'.capturedAt).getD 0
  others : OthersKept env night.others night'.others

/-- A capture is refused after an earlier one only if one of the two is refused by itself. -/
theorem compare_nightly (hw : w.Extends w')
    (hjoined : ∀ pk, ((written "loyalty.member" pk).lookup "joined_at").isSome = true)
    (hnight : night.Before env night')
    (hs : ∃ report, validate env (nightly evidence env written schema sourceId night w) = .ok report)
    (hs' : ∃ report, validate env (nightly evidence env written schema sourceId night' w') = .ok report) :
    compare env (some (nightly evidence env written schema sourceId night w))
      (nightly evidence env written schema sourceId night' w') = .ok () := by
  rw [compare_eq_ok (by rfl) hnight.time]
  refine ⟨hs', hs, fun r hr => ?_⟩
  obtain ⟨report, hvalid⟩ := hs'
  have hmem : ∀ r' ∈ (coreRecords evidence w').map (Record.complete written night'.current) ++ night'.others,
      r' ∈ (nightly evidence env written schema sourceId night' w').records :=
    fun r' hr' => (inOrder_perm _).symm.subset hr'
  rcases List.mem_append.1 ((inOrder_perm _).subset hr) with hr | hr
  · obtain ⟨x, hx, rfl⟩ := List.mem_map.1 hr
    have hx' := List.mem_map_of_mem (f := Record.complete written night'.current) (coreRecords_subset hw hx)
    exact compareRecord_complete hx hjoined (find_of_mem hvalid (hmem _ (List.mem_append_left _ hx')))
  · obtain ⟨hcore, r', hr', hkey, hsame⟩ := hnight.others r hr
    refine compareRecord_of_same (hkey ▸ find_of_mem hvalid (hmem r' (List.mem_append_right _ hr'))) ?_ fun h => ?_
    · exact fun hm => hcore (by simp [hm, core])
    · exact hsame (h.resolve_right hcore)

theorem compare_none : compare env none s = .ok () ↔ ∃ report, validate env s = .ok report := by
  simp only [compare, bind_eq_ok]
  constructor
  · rintro ⟨report, h, -⟩
    exact ⟨report, h⟩
  · rintro ⟨report, h⟩
    exact ⟨report, h, rfl⟩

theorem nightly_sorted (h : ∃ report, validate env (nightly evidence env written schema sourceId night w) = .ok report) :
    (nightly evidence env written schema sourceId night w).sorted =
      nightly evidence env written schema sourceId night w := by
  obtain ⟨report, hvalid⟩ := h
  have hrecords := inOrder_inOrder (((inOrder_perm _).map Record.key).nodup_iff.1 (validate_nodup hvalid))
  exact congrArg (fun records => { nightly evidence env written schema sourceId night w with records := records }) hrecords

/-! ### The nights of a run -/

section
variable (digest : Payload → String) (evidence : Row → Document) (env : Review) (written : String → Value → Fields)
  (schema sourceId : String)

/-- The attempts of some nights, with what the program did before each of them. -/
def attempts : World → List (List Action × Night) → List Attempt
  | _, [] => []
  | w, (as, night) :: nights =>
    let w' := Machine.run (World.step digest) w as
    let s := nightly evidence env written schema sourceId night w'
    ⟨.ok s, night.now, false, night.reachable⟩ :: attempts w' nights

end

/-- The snapshot of the last of some attempts that reached the mirror. -/
def lastUpload (archive : Option Snapshot) (as : List Attempt) : Option Snapshot :=
  as.foldl (fun archive a => if a.reachable then a.captured.toOption else archive) archive

theorem run_unreachable {m : CloudMirror} {a : Attempt} (hsqlite : a.sqlite = false) (hreachable : a.reachable = false)
    (hcaptured : a.captured = .ok s) (hvalid : ∃ report, validate env s = .ok report) (hsource : s.sourceId = m.sourceId) :
    (m.run env a).1 = m := by
  obtain ⟨report, hvalid⟩ := hvalid
  simp only [CloudMirror.run, hsqlite, hcaptured, CloudMirror.update, hvalid, hreachable, bind, Except.bind,
    raiseIf_of_not (not_not.2 hsource)]
  rfl

theorem run_reachable (hn : env.Named) {m : CloudMirror} {a : Attempt} {archive : Option Snapshot} (hm : m.Holds env archive)
    (hsqlite : a.sqlite = false) (hreachable : a.reachable = true) (hcaptured : a.captured = .ok s) (hsorted : s.sorted = s)
    (hsource : s.sourceId = m.sourceId) (hcompare : compare env archive s = .ok ()) :
    (m.run env a).1.Holds env (some s) ∧ (m.run env a).1.sourceId = m.sourceId := by
  obtain ⟨⟨report, hvalid⟩, -⟩ := compare_spec hcompare
  have hspec := (CloudMirror.transact_spec hn hm a.now hsource).of_eq_ok hcompare
  rw [hsorted] at hspec
  obtain ⟨m', htransact, hholds, hsame⟩ := hspec.of_eq_ok hvalid
  have hrun : (m.run env a).1 = m' := by
    simp only [CloudMirror.run, hsqlite, hcaptured, CloudMirror.update, hvalid, hreachable, bind, Except.bind,
      raiseIf_of_not (not_not.2 hsource), htransact]
    rfl
  rw [hrun]
  exact ⟨hholds, hsame⟩

open Machine in
/-- The nights follow those that an archive was captured in, and the captures are accepted by themselves. -/
theorem attempts_upload (hn : env.Named) (hjoined : ∀ pk, ((written "loyalty.member" pk).lookup "joined_at").isSome = true)
    {digest : Payload → String} {nights : List (List Action × Night)} {m : CloudMirror} {archive : Option Snapshot}
    (hs : Loyalty.Sound digest w) (hm : m.Holds env archive) (hsource : m.sourceId = sourceId)
    (harchive : ∀ p ∈ archive, ∃ w₀ night₀, p = nightly evidence env written schema sourceId night₀ w₀ ∧
      w₀.Extends w ∧ ∀ x ∈ nights, night₀.Before env x.2)
    (hnights : nights.Pairwise fun x y => x.2.Before env y.2)
    (hvalid : ∀ a ∈ attempts digest evidence env written schema sourceId w nights, ∀ s, a.captured = .ok s →
      ∃ report, validate env s = .ok report) :
    (run (CloudMirror.step env) m (attempts digest evidence env written schema sourceId w nights)).Holds env
      (lastUpload archive (attempts digest evidence env written schema sourceId w nights)) := by
  induction nights generalizing w m archive with
  | nil => exact hm
  | cons x nights ih =>
    obtain ⟨as, night⟩ := x
    obtain ⟨hfirst, hnights⟩ := List.pairwise_cons.1 hnights
    obtain ⟨hcaptured, hvalid⟩ := List.forall_mem_cons.1 hvalid
    have hextends : w.Extends (run (World.step digest) w as) := World.extends_run hs as
    have hs' : Loyalty.Sound digest (run (World.step digest) w as) := run_inv (fun _ a hv => hv.step a) hs as
    have hown := hcaptured _ rfl
    rw [attempts, run_cons, lastUpload, List.foldl_cons]
    cases hreachable : night.reachable with
    | false =>
      have hrun : CloudMirror.step env m ⟨.ok (nightly evidence env written schema sourceId night _), night.now, false,
          false⟩ = m := run_unreachable rfl rfl rfl hown hsource.symm
      rw [hrun]
      refine ih hs' hm hsource (fun p hp => ?_) hnights hvalid
      obtain ⟨w₀, night₀, hp, hw₀, hbefore⟩ := harchive p hp
      exact ⟨w₀, night₀, hp, hw₀.trans hextends, fun x hx => hbefore x (List.mem_cons_of_mem _ hx)⟩
    | true =>
      have hcompare : compare env archive (nightly evidence env written schema sourceId night
          (run (World.step digest) w as)) = .ok () := by
        cases archive with
        | none => exact compare_none.2 hown
        | some p =>
          obtain ⟨w₀, night₀, rfl, hw₀, hbefore⟩ := harchive p rfl
          exact compare_nightly (hw₀.trans hextends) hjoined (hbefore _ List.mem_cons_self) (hm.stored.valid _ rfl) hown
      obtain ⟨hholds, hsame⟩ := run_reachable hn hm (a := ⟨.ok _, night.now, false, true⟩) rfl rfl rfl
        (nightly_sorted hown) hsource.symm hcompare
      refine ih hs' hholds (hsame.trans hsource) ?_ hnights hvalid
      rintro p ⟨⟩
      exact ⟨_, night, rfl, .refl _, hfirst⟩

end

/-! ### Three nights -/

def coreColumns : List (String × List String) :=
  [("loyalty.member", ["customer", "number", "status"]),
    ("loyalty.referral", ["member", "inviter", "root", "tree_number", "depth", "branch_order"]),
    ("loyalty.referralrevision", ["member", "inviter", "root", "tree_number", "depth", "branch_order"]),
    ("loyalty.ledger", ["sequence", "operation_number", "customer", "member", "membership_number", "tree_number", "credit",
      "debit", "program_balance_after", "member_balance_after", "counterpart", "original", "event_reference", "component",
      "event_type", "operation_group", "branch", "evidence"])]

/-- The other columns, all of them null. -/
def nullColumns (model : String) (_ : Value) : Fields :=
  (((loyaltyFields.lookup model).getD []).filter (· ∉ (coreColumns.lookup model).getD [])).map fun name => (name, .null)

def users : List Record := [recordOf "auth.user" 1 [], recordOf "auth.user" 2 [], recordOf "auth.user" 3 []]

/-- The mirror is not reached in the second night. -/
def threeNights : List (List Action × Night) :=
  [(movedRun.take 3, ⟨"2026-01-01", fun _ => [("status", .text "active")], users, 1, true⟩),
    (movedRun.drop 3, ⟨"2026-01-02", fun _ => [("status", .null)], users, 2, false⟩),
    ([], ⟨"2026-01-03", fun _ => [("status", .null)], users, 3, true⟩)]

def threeAttempts : List Attempt :=
  attempts plainDigest plainEvidence loyaltyReview nullColumns "schema" "pilot" emptyWorld threeNights

theorem users_kept : OthersKept loyaltyReview users users := by
  have hcore : ∀ r ∈ users, r.model ∉ core := by decide +kernel
  exact fun r hr => ⟨hcore r hr, r, hr, rfl, fun _ => Record.same_iff.2 ⟨rfl, rfl, fun _ => rfl⟩⟩

end Apartments.Backup
