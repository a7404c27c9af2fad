import Apartments.Lib.Keys
import Apartments.Lib.Run
import Apartments.Loyalty.BackupSound
import Apartments.Loyalty.Mirrors

/-!
# The mirrors keep one archive

Both mirrors hold at most one snapshot, the archive; an attempt leaves it or replaces it by a snapshot that `compare`
accepts. What the archive has of the financial history is in every later one. The remote mirror deletes no row, and yet it
has none but those of its archive: `compare` refuses the snapshots that lack one.
-/

namespace Apartments.Backup

/-! ### Tables of rows -/

theorem tableNames_nodup : tableNames.Nodup := by decide

theorem tableOf_mem (model : String) : tableOf model ∈ tableNames := by
  simp only [tableOf, tables, List.lookup_cons, List.lookup_nil, tableNames]
  split <;> [skip; split <;> [skip; split]] <;> simp

theorem recordsOf_perm {rows : List TableRow} {records : List Record} (h : rows.Perm (records.map Record.row)) :
    (recordsOf rows).Perm records := by
  have htables : ∀ r ∈ rows, r.table ∈ tableNames := by
    intro r hr
    obtain ⟨x, -, rfl⟩ := List.mem_map.1 (h.subset hr)
    exact tableOf_mem x.model
  have hselect : (tableNames.flatMap (select rows)).Perm (tableNames.flatMap fun table => rows.filter (·.table == table)) :=
    List.Perm.flatMap_left _ fun table _ => List.perm_insertionSort _ _
  have hrows := (hselect.trans (List.perm_flatMap_filter tableNames_nodup htables)).trans h
  simpa [recordsOf, Record.row, Function.comp_def] using hrows.map TableRow.record

theorem tableRows_perm (s : Snapshot) : s.tableRows.Perm (s.records.map Record.row) := by
  refine List.perm_flatMap_filter tableNames_nodup fun r hr => ?_
  obtain ⟨x, -, rfl⟩ := List.mem_map.1 hr
  exact tableOf_mem x.model

theorem inOrder_perm (records : List Record) : (inOrder records).Perm records := List.perm_insertionSort _ _

/-- Records of different keys have one order. -/
theorem inOrder_of_perm {records records' : List Record} (hkeys : (records.map Record.key).Nodup)
    (h : records'.Perm records) : inOrder records' = inOrder records := by
  refine List.insertionSort_of_perm (h.trans (inOrder_perm records).symm) ?_
  have hsorted : (inOrder records).Pairwise fun a b => a.order ≤ b.order :=
    have : Std.Total fun a b : Record => a.order ≤ b.order := ⟨fun a b => le_total a.order b.order⟩
    have : IsTrans Record fun a b => a.order ≤ b.order := ⟨fun a b c => le_trans⟩
    List.pairwise_insertionSort _ records
  have hne : (inOrder records).Pairwise fun a b => a.key ≠ b.key :=
    List.pairwise_map.1 (((inOrder_perm records).map Record.key).nodup_iff.2 hkeys)
  exact (hsorted.and hne).imp fun hab => lt_of_le_of_ne hab.1 fun heq => hab.2 (toLex.injective heq)

theorem inOrder_inOrder {records : List Record} (hkeys : (records.map Record.key).Nodup) :
    inOrder (inOrder records) = inOrder records := inOrder_of_perm hkeys (inOrder_perm records)

/-! ### Primary keys -/

/-- The reviewed names of models have no colon. -/
def Review.Named (env : Review) : Prop := ∀ schema model, env.fields schema model ≠ none → ':' ∉ model.toList

theorem checkFormat_reviewed {env : Review} {schema : String} {seen : List (String × String)} {records : List Record}
    (h : checkFormat env schema seen records = .ok ()) : ∀ r ∈ records, env.fields schema r.model ≠ none := by
  induction records generalizing seen with
  | nil => simp
  | cons r records ih =>
    simp only [checkFormat, bind_eq_ok, found_eq_ok, raiseIf_eq_ok, exists_const] at h
    obtain ⟨fields, hfields, -, -, h⟩ := h
    refine List.forall_mem_cons.2 ⟨?_, ih h⟩
    rw [hfields]
    exact Option.some_ne_none fields

section
variable {env : Review} {s : Snapshot} {report : Report}

theorem validate_format (h : validate env s = .ok report) : checkFormat env s.schema [] s.records = .ok () := by
  simp only [validate, bind_eq_ok] at h
  obtain ⟨_, -, _, hformat, -⟩ := h
  exact hformat

theorem validate_nodup (h : validate env s = .ok report) : (s.records.map Record.key).Nodup :=
  (checkFormat_nodup (validate_format h)).1

theorem validate_header (h : validate env s = .ok report) : env.hash s.body = s.digest ∧ s.records.length ≤ maxRows := by
  simp only [validate, checkHeader, bind_eq_ok, raiseIf_eq_ok, exists_const] at h
  obtain ⟨⟨-, hdigest, hsize, -⟩, -⟩ := h
  exact ⟨not_not.1 hdigest, by omega⟩

/-- No two records of an accepted snapshot are written to one place. -/
theorem places_nodup (hn : env.Named) (h : validate env s = .ok report) :
    ((s.records.map Record.row).map TableRow.place).Nodup := by
  rw [List.map_map]
  have hreviewed := checkFormat_reviewed (validate_format h)
  refine List.Nodup.map_on (fun r hr r' hr' hplace => ?_) (validate_nodup h).of_map
  have htext : r.model ++ ":" ++ r.pk.str = r'.model ++ ":" ++ r'.pk.str := congrArg Prod.snd hplace
  obtain ⟨hmodel, hpk⟩ := Keys.split_inj rfl (hn _ _ (hreviewed r hr)) (hn _ _ (hreviewed r' hr')) htext
  exact List.inj_on_of_nodup_map (validate_nodup h) hr hr' (Prod.ext hmodel hpk)

end

/-! ### What is written -/

/-- The rows after some of different places are written one by one. -/
theorem upsertAll_spec {rows new : List TableRow} (hnd : (rows.map TableRow.place).Nodup) (hnew : (new.map TableRow.place).Nodup) :
    ((new.foldl upsert rows).map TableRow.place).Nodup ∧
      ∀ x, x ∈ new.foldl upsert rows ↔ x ∈ new ∨ (x ∈ rows ∧ x.place ∉ new.map TableRow.place) := by
  induction new generalizing rows with
  | nil => simpa using hnd
  | cons r new ih =>
    obtain ⟨hr, hnew⟩ := List.nodup_cons.1 hnew
    have hupsert : ((upsert rows r).map TableRow.place).Nodup := Table.nodup_put hnd
    obtain ⟨hplaces, hmem⟩ := ih hupsert hnew
    refine ⟨hplaces, fun x => ?_⟩
    rw [List.foldl_cons, hmem, upsert, Table.mem_put, List.map_cons, List.mem_cons, List.mem_cons, not_or]
    have hself : x = r → x.place ∉ new.map TableRow.place := fun h => h ▸ hr
    tauto

/-- No row is left over if each one has the place of a new one. -/
theorem upsertAll_perm {rows new : List TableRow} (hnd : (rows.map TableRow.place).Nodup) (hnew : (new.map TableRow.place).Nodup)
    (hsub : rows.map TableRow.place ⊆ new.map TableRow.place) : (new.foldl upsert rows).Perm new := by
  obtain ⟨hplaces, hmem⟩ := upsertAll_spec hnd hnew
  refine (List.perm_ext_iff_of_nodup hplaces.of_map hnew.of_map).2 fun x => ?_
  rw [hmem]
  refine ⟨fun h => h.resolve_right fun hx => hx.2 ?_, .inl⟩
  exact hsub (List.mem_map_of_mem hx.1)

theorem insertAll_eq {rows new : List TableRow} (h : ((rows ++ new).map TableRow.place).Nodup) :
    insertAll rows new = .ok (rows ++ new) := by
  induction new generalizing rows with
  | nil => simp [insertAll]
  | cons r new ih =>
    have hr : Table.get TableRow.place rows r.place = none := by
      simp only [List.map_append, List.map_cons, List.nodup_append] at h
      exact Table.get_eq_none.2 fun x hx hplace => h.2.2 _ (List.mem_map_of_mem hx) _ List.mem_cons_self hplace
    rw [List.append_cons] at h ⊢
    rw [insertAll, raiseIf_of_not (by simp [hr])]
    exact ih h

/-! ### What is kept -/

section
variable {env : Review}

theorem Record.same_iff {r r' : Record} : r.Same r' ↔ r.model = r'.model ∧ r.pk.key = r'.pk.key ∧
    ∀ name, (r.fields.lookup name).map Value.key = (r'.fields.lookup name).map Value.key := by
  unfold Record.Same
  refine and_congr_right fun _ => and_congr_right fun _ => ⟨fun h name => ?_, fun h name _ => h name⟩
  by_cases hname : name ∈ r.fields.map (·.1) ++ r'.fields.map (·.1)
  · exact h name hname
  · have hnone : ∀ fields : Fields, name ∉ fields.map (·.1) → fields.lookup name = none := by
      intro fields hfields
      refine List.lookup_eq_none_iff.2 fun x hx => ?_
      have : name ≠ x.1 := fun heq => hfields (heq ▸ List.mem_map_of_mem hx)
      simpa using this
    rw [List.mem_append, not_or] at hname
    rw [hnone _ hname.1, hnone _ hname.2]

/-- `r'` stands for `r` in a later archive. -/
structure Record.Continued (env : Review) (r r' : Record) : Prop where
  key : r'.key = r.key
  whole : r.model ∈ settled ∨ (r.model ∈ core ∧ r.model ≠ "loyalty.member") →
    (canonicalRecord env r').Same (canonicalRecord env r)
  identity : r.model = "loyalty.member" → ∀ name ∈ ["customer", "number", "joined_at"],
    ((canonicalRecord env r').fields.lookup name).map Value.key = ((canonicalRecord env r).fields.lookup name).map Value.key

theorem Record.Continued.refl (r : Record) : r.Continued env r :=
  ⟨rfl, fun _ => Record.same_iff.2 ⟨rfl, rfl, fun _ => rfl⟩, fun _ _ _ => rfl⟩

theorem Record.Continued.trans {r r' r'' : Record} (h : r.Continued env r') (h' : r'.Continued env r'') :
    r.Continued env r'' := by
  have hmodel : r'.model = r.model := congrArg Prod.fst h.key
  refine ⟨h'.key.trans h.key, fun hwhole => ?_, fun hm name hname => ?_⟩
  · obtain ⟨hm, hpk, hfields⟩ := Record.same_iff.1 (h.whole hwhole)
    obtain ⟨hm', hpk', hfields'⟩ := Record.same_iff.1 (h'.whole (hmodel ▸ hwhole))
    exact Record.same_iff.2 ⟨hm'.trans hm, hpk'.trans hpk, fun name => (hfields' name).trans (hfields name)⟩
  · exact (h'.identity (hmodel.trans hm) name hname).trans (h.identity hm name hname)

/-- What an archive has of an earlier one. -/
structure Kept (env : Review) (p q : Snapshot) : Prop where
  source : p.sourceId = q.sourceId
  time : (env.instant p.capturedAt).getD 0 ≤ (env.instant q.capturedAt).getD 0
  records : ∀ r ∈ p.records, ∃ r' ∈ q.records, r.Continued env r'

theorem Kept.refl (p : Snapshot) : Kept env p p := ⟨rfl, le_rfl, fun r hr => ⟨r, hr, Record.Continued.refl r⟩⟩

theorem Kept.trans {p q s : Snapshot} (h : Kept env p q) (h' : Kept env q s) : Kept env p s where
  source := h.source.trans h'.source
  time := h.time.trans h'.time
  records := by
    intro r hr
    obtain ⟨r', hr', hcont⟩ := h.records r hr
    obtain ⟨r'', hr'', hcont'⟩ := h'.records r' hr'
    exact ⟨r'', hr'', hcont.trans hcont'⟩

theorem read_eq_ok {fields : Fields} {name : String} {v : Value} :
    read fields name = .ok v ↔ fields.lookup name = some v := found_eq_ok

/-- The round of the loop for a record that passes. -/
theorem compareRecord_continued {s : Snapshot} {r : Record} (h : compareRecord env s r = .ok ()) :
    ∃ r' ∈ s.records, r.Continued env r' := by
  simp only [compareRecord, bind_eq_ok, found_eq_ok, raiseIf_eq_ok, exists_const, not_and, not_not] at h
  obtain ⟨r', hfind, hsettled, hcore, hidentity⟩ := h
  refine ⟨r', Table.mem_of_get hfind, Table.key_of_get hfind, fun hwhole => ?_, fun hm name hname => ?_⟩
  · exact hwhole.elim hsettled fun hc => hcore hc.1 hc.2
  · rw [if_pos hm, forM_eq_ok] at hidentity
    have := hidentity name hname
    simp only [bind_eq_ok, read_eq_ok, raiseIf_eq_ok, not_not] at this
    obtain ⟨v, hv, v', hv', hkey⟩ := this
    rw [hv, hv', Option.map_some, Option.map_some, hkey]

theorem compare_spec {previous : Option Snapshot} {s : Snapshot} {u : Unit} (h : compare env previous s = .ok u) :
    (∃ report, validate env s = .ok report) ∧ ∀ p ∈ previous, Kept env p s := by
  simp only [compare, bind_eq_ok] at h
  obtain ⟨report, hreport, h⟩ := h
  refine ⟨⟨report, hreport⟩, fun p hp => ?_⟩
  obtain rfl := Option.mem_def.1 hp
  simp only [bind_eq_ok, raiseIf_eq_ok, exists_const, not_not, not_lt, forM_eq_ok] at h
  obtain ⟨-, -, hsource, htime, hrecords⟩ := h
  exact ⟨hsource, htime, fun r hr => compareRecord_continued (hrecords r hr)⟩

/-! ### The archive -/

/-- A snapshot as it is read back. -/
def Snapshot.sorted (s : Snapshot) : Snapshot := { s with records := inOrder s.records }

/-- The rows and the manifest of a mirror are those of its archive. -/
structure Stored (env : Review) (rows : List TableRow) (manifest : Option Manifest) (archive : Option Snapshot) : Prop where
  rows : rows.Perm ((archive.elim [] Snapshot.records).map Record.row)
  manifest : manifest = archive.map Snapshot.manifest
  valid : ∀ s ∈ archive, ∃ report, validate env s = .ok report
  sorted : ∀ s ∈ archive, s.sorted = s

variable {rows : List TableRow} {manifest : Option Manifest} {archive : Option Snapshot} {s : Snapshot} {report : Report}

/-- What the rows of an accepted snapshot are read as. -/
theorem readback (hvalid : validate env s = .ok report) (h : rows.Perm (s.records.map Record.row)) :
    s.manifest.snapshot (inOrder (recordsOf rows)) = s.sorted := by
  rw [inOrder_of_perm (validate_nodup hvalid) (recordsOf_perm h)]
  rfl

theorem Stored.readback (h : Stored env rows manifest (some s)) : s.manifest.snapshot (inOrder (recordsOf rows)) = s := by
  obtain ⟨report, hvalid⟩ := h.valid s rfl
  exact (Backup.readback hvalid h.rows).trans (h.sorted s rfl)

theorem Stored.nil (h : Stored env rows manifest none) : rows = [] ∧ manifest = none := ⟨h.rows.eq_nil, h.manifest⟩

theorem Stored.some (h : Stored env rows manifest (some s)) : manifest = some s.manifest := h.manifest

theorem stored_empty : Stored env [] none none := ⟨.nil, rfl, by rintro s ⟨⟩, by rintro s ⟨⟩⟩

theorem sorted_sorted (hvalid : validate env s = .ok report) : s.sorted.sorted = s.sorted :=
  congrArg (fun records => { s with records := records }) (inOrder_inOrder (validate_nodup hvalid))

/-- A snapshot is stored if its rows are written and what is read back is accepted. -/
theorem stored_sorted (hvalid : validate env s = .ok report) (hsorted : ∃ report', validate env s.sorted = .ok report')
    (hrows : rows.Perm (s.records.map Record.row)) (hmanifest : manifest = some s.manifest) :
    Stored env rows manifest (some s.sorted) where
  rows := hrows.trans ((inOrder_perm s.records).symm.map _)
  manifest := hmanifest
  valid := by
    rintro s' ⟨⟩
    exact hsorted
  sorted := by
    rintro s' ⟨⟩
    exact sorted_sorted hvalid

theorem stored_rows (hvalid : validate env s = .ok report) (hsorted : s.sorted = s) :
    Stored env (s.records.map Record.row) (some s.manifest) (some s) := by
  have := stored_sorted hvalid ⟨report, by rwa [hsorted]⟩ (List.Perm.refl _) rfl
  rwa [hsorted] at this

/-- The order of the records is that of their keys, and the seal is the one over them. -/
theorem ordered_eq (hvalid : validate env s = .ok report) (hsorted : s.sorted = s) : s.ordered env = s := by
  have hdigest := (validate_header hvalid).1
  unfold Snapshot.ordered
  rw [show ({ s with records := inOrder s.records } : Snapshot) = s from hsorted, Snapshot.seal, hdigest]

theorem sorted_ordered (hvalid : validate env s = .ok report) : (s.ordered env).sorted = s.ordered env := by
  have hrecords : inOrder (s.ordered env).records = (s.ordered env).records := inOrder_inOrder (validate_nodup hvalid)
  rw [Snapshot.sorted, hrecords]

/-- The step of an archive. -/
def Advanced (env : Review) (archive archive' : Option Snapshot) : Prop :=
  archive' = archive ∨ ∃ s, compare env archive s = .ok () ∧ archive' = some s.sorted

theorem Kept.sorted {p q : Snapshot} (h : Kept env p q) : Kept env p q.sorted where
  source := h.source
  time := h.time
  records := by
    intro r hr
    obtain ⟨r', hr', hcont⟩ := h.records r hr
    exact ⟨r', (inOrder_perm q.records).symm.subset hr', hcont⟩

/-- Everything an archive has is in the later one. -/
def Lasting (env : Review) (archive archive' : Option Snapshot) : Prop := ∀ p ∈ archive, ∃ q ∈ archive', Kept env p q

theorem Lasting.refl (archive : Option Snapshot) : Lasting env archive archive := fun p hp => ⟨p, hp, Kept.refl p⟩

theorem Lasting.trans {a b c : Option Snapshot} (h : Lasting env a b) (h' : Lasting env b c) : Lasting env a c := by
  intro p hp
  obtain ⟨q, hq, hpq⟩ := h p hp
  obtain ⟨x, hx, hqx⟩ := h' q hq
  exact ⟨x, hx, hpq.trans hqx⟩

theorem Advanced.lasting {archive' : Option Snapshot} (h : Advanced env archive archive') :
    Lasting env archive archive' := by
  rcases h with rfl | ⟨s, hcompare, rfl⟩
  · exact Lasting.refl archive'
  · exact fun p hp => ⟨s.sorted, rfl, ((compare_spec hcompare).2 p hp).sorted⟩

/-! ### The local mirror -/

namespace LocalMirror

variable {l l' : LocalMirror} {a : Attempt} {now : Time}

theorem load_stored (h : Stored env l.rows l.manifest archive) : l.load env = .ok archive := by
  cases archive with
  | none =>
    obtain ⟨hrows, hmanifest⟩ := h.nil
    rw [load, hmanifest, hrows]
    rfl
  | some s =>
    obtain ⟨report, hvalid⟩ := h.valid s rfl
    simp only [load, h.some, h.readback, hvalid]
    rfl

/-- The local mirror stores what `compare` accepts. -/
theorem write_spec (hn : env.Named) (h : Stored env l.rows l.manifest archive) (now : Time)
    (hvalid : validate env s = .ok report) (hfictional : fictionalOnly s = .ok ()) :
    Outcome (compare env archive (s.ordered env))
      (fun _ => ∃ answer l', validate env (s.ordered env) = .ok answer ∧ l.write env now s = .ok (answer, l') ∧
        Stored env l'.rows l'.manifest (some (s.ordered env)))
      fun e => l.write env now s = .error e := by
  cases hcompare : compare env archive (s.ordered env) with
  | error e =>
    simp only [write, hvalid, hfictional, load_stored h, hcompare, bind, Except.bind, Outcome]
  | ok u =>
    obtain ⟨⟨answer, hanswer⟩, -⟩ := compare_spec hcompare
    have hinsert : insertAll [] ((s.ordered env).records.map Record.row) = .ok ((s.ordered env).records.map Record.row) :=
      insertAll_eq (places_nodup hn hanswer)
    have hstored := stored_rows hanswer (sorted_ordered hvalid)
    have hload := load_stored (l := ⟨_, _, l.status⟩) hstored
    refine ⟨answer, ⟨_, _, some ⟨"succeeded", some now, some now, ""⟩⟩, hanswer, ?_, hstored⟩
    simp only [write, hvalid, hfictional, load_stored h, hcompare, hinsert, hload, hanswer, found, bind, Except.bind]
    rfl

theorem write_eq_ok {x : Report × LocalMirror} (h : l.write env now s = .ok x) :
    (∃ report, validate env s = .ok report) ∧ fictionalOnly s = .ok () := by
  simp only [write, bind_eq_ok] at h
  obtain ⟨report, hvalid, _, hfictional, -⟩ := h
  exact ⟨⟨report, hvalid⟩, hfictional⟩

theorem run_stored (hn : env.Named) (h : Stored env l.rows l.manifest archive) (a : Attempt) :
    ∃ archive', Advanced env archive archive' ∧ Stored env (l.run env a).1.rows (l.run env a).1.manifest archive' := by
  by_cases hsqlite : a.sqlite = false
  · rw [run, if_pos hsqlite]
    exact ⟨archive, .inl rfl, h⟩
  · rw [run, if_neg hsqlite]
    split
    case h_2 => exact ⟨archive, .inl rfl, h⟩
    case h_1 answer l' hwrite =>
      obtain ⟨s, -, hwrite⟩ := bind_eq_ok.1 hwrite
      obtain ⟨⟨report, hvalid⟩, hfictional⟩ := write_eq_ok hwrite
      have hspec := write_spec hn h a.now hvalid hfictional
      cases hcompare : compare env archive (s.ordered env) with
      | error e =>
        rw [hspec.of_eq_error hcompare] at hwrite
        cases hwrite
      | ok u =>
        obtain ⟨answer', l'', -, hwrite', hstored⟩ := hspec.of_eq_ok hcompare
        obtain ⟨rfl, rfl⟩ := Prod.mk.inj (Except.ok.inj (hwrite'.symm.trans hwrite))
        exact ⟨some (s.ordered env), .inr ⟨s.ordered env, hcompare, by rw [sorted_ordered hvalid]⟩, hstored⟩

end LocalMirror

/-! ### The remote mirror -/

namespace CloudMirror

variable {m m' : CloudMirror} {a : Attempt} {now : Time}

/-- What the remote mirror has. -/
structure Holds (env : Review) (m : CloudMirror) (archive : Option Snapshot) : Prop where
  stored : Stored env m.rows m.manifest archive
  source : ∀ s ∈ archive, s.sourceId = m.sourceId
  status : m.status.digest = archive.map Snapshot.digest ∧ m.status.capturedAt = archive.map Snapshot.capturedAt

theorem checkRow_row (r : Record) : checkRow r.row = .ok () := by
  rw [checkRow, raiseIf_of_not (by simp [Record.row]), raiseIf_of_not (by simp [Record.row])]
  rfl

theorem checkRows {records : List Record} (h : m.rows.Perm (records.map Record.row)) :
    (tableNames.flatMap (select m.rows)).forM checkRow = .ok () := by
  refine forM_eq_ok.2 fun r hr => ?_
  obtain ⟨table, -, hr⟩ := List.mem_flatMap.1 hr
  have hmem : r ∈ m.rows := (List.mem_filter.1 ((List.perm_insertionSort _ _).subset hr)).1
  obtain ⟨x, -, rfl⟩ := List.mem_map.1 (h.subset hmem)
  exact checkRow_row x

/-- What the rows of an accepted snapshot are read as. -/
theorem load_rows (hvalid : validate env s = .ok report) (hrows : m.rows.Perm (s.records.map Record.row))
    (hmanifest : m.manifest = some s.manifest) : m.load env = do
      let _ ← validate env s.sorted
      raiseIf (s.sourceId ≠ m.sourceId) (.reject "different_source")
      return some s.sorted := by
  have hlength : ¬ maxRows < (recordsOf m.rows).length := by
    rw [(recordsOf_perm hrows).length_eq]
    have := (validate_header hvalid).2
    omega
  simp only [load, checkRows hrows, raiseIf_of_not hlength, hmanifest, readback hvalid hrows, bind, Except.bind]
  rfl

theorem load_holds (h : m.Holds env archive) : m.load env = .ok archive := by
  cases archive with
  | none =>
    obtain ⟨hrows, hmanifest⟩ := h.stored.nil
    rw [load, hmanifest, hrows]
    rfl
  | some s =>
    obtain ⟨report, hvalid⟩ := h.stored.valid s rfl
    have hsorted : s.sorted = s := h.stored.sorted s rfl
    rw [load_rows hvalid h.stored.rows h.stored.some, hsorted, hvalid, raiseIf_of_not (not_not.2 (h.source s rfl))]
    rfl

/-- `compare` leaves no row of the archive without a record that is written over it. -/
theorem rows_written (hn : env.Named) (h : m.Holds env archive) (hcompare : compare env archive s = .ok ()) :
    (s.tableRows.foldl upsert m.rows).Perm (s.records.map Record.row) := by
  obtain ⟨⟨report, hvalid⟩, hkept⟩ := compare_spec hcompare
  have hnew : (s.tableRows.map TableRow.place).Nodup := ((tableRows_perm s).map _).nodup_iff.2 (places_nodup hn hvalid)
  refine (upsertAll_perm ?_ hnew ?_).trans (tableRows_perm s)
  · cases archive with
    | none => simp [h.stored.nil.1]
    | some p =>
      obtain ⟨report', hvalid'⟩ := h.stored.valid p rfl
      exact (h.stored.rows.map _).nodup_iff.2 (places_nodup hn hvalid')
  · intro place hplace
    obtain ⟨row, hrow, rfl⟩ := List.mem_map.1 hplace
    obtain ⟨r, hr, rfl⟩ := List.mem_map.1 (h.stored.rows.subset hrow)
    cases archive with
    | none => cases hr
    | some p =>
      obtain ⟨r', hr', hcont⟩ := (hkept p rfl).records r hr
      have hmodel : r'.model = r.model := congrArg Prod.fst hcont.key
      have hpk : r'.pk.str = r.pk.str := congrArg Prod.snd hcont.key
      refine ((tableRows_perm s).map TableRow.place).symm.subset ?_
      rw [List.map_map]
      refine List.mem_map.2 ⟨r', hr', ?_⟩
      simp [TableRow.place, Record.row, Record.text, hmodel, hpk]

theorem transact_spec (hn : env.Named) (h : m.Holds env archive) (now : Time) (hsource : s.sourceId = m.sourceId) :
    Outcome (compare env archive s)
      (fun _ => Outcome (validate env s.sorted)
        (fun answer => ∃ m', m.transact env now s = .ok (answer, m') ∧ m'.Holds env (some s.sorted) ∧
          m'.sourceId = m.sourceId)
        fun e => m.transact env now s = .error e)
      fun e => m.transact env now s = .error e := by
  cases hcompare : compare env archive s with
  | error e => simp only [transact, load_holds h, hcompare, bind, Except.bind, Outcome]
  | ok u =>
    obtain ⟨⟨report, hvalid⟩, -⟩ := compare_spec hcompare
    have hrows := rows_written hn h hcompare
    have hload := load_rows (m := { m with rows := s.tableRows.foldl upsert m.rows, manifest := some s.manifest })
      hvalid hrows rfl
    cases hsorted : validate env s.sorted with
    | error e =>
      simp only [hsorted, bind, Except.bind] at hload
      simp only [transact, load_holds h, hcompare, hload, bind, Except.bind, Outcome]
    | ok answer =>
      rw [hsorted, raiseIf_of_not (not_not.2 hsource)] at hload
      have hsame : ¬ s.sorted.digest ≠ s.digest := not_not.2 rfl
      let status : CloudStatus := ⟨⟨"succeeded", some now, some now, ""⟩, some s.capturedAt, some s.digest,
        answer.counts, some answer.programBalance⟩
      have hstored := stored_sorted hvalid ⟨answer, hsorted⟩ hrows rfl
      refine ⟨⟨m.sourceId, _, _, status⟩, ?_, ⟨hstored, ?_, rfl, rfl⟩, rfl⟩
      · simp only [transact, load_holds h, hcompare, hload, hsorted, raiseIf_of_not hsame, found, pure, Except.pure, bind,
          Except.bind]
        rfl
      · rintro s' ⟨⟩
        exact hsource

theorem update_eq_ok {reachable : Bool} {x : Report × CloudMirror} (h : m.update env now reachable s = .ok x) :
    s.sourceId = m.sourceId ∧ m.transact env now s = .ok x := by
  simp only [update, bind_eq_ok, raiseIf_eq_ok, exists_const, not_not] at h
  obtain ⟨_, -, hsource, -, htransact⟩ := h
  cases hx : m.transact env now s with
  | error e =>
    rw [hx] at htransact
    cases htransact
  | ok y =>
    rw [hx] at htransact
    exact ⟨hsource, htransact⟩

theorem failed_holds (h : m.Holds env archive) (now : Time) (reachable : Bool) (code : String) :
    (m.failed now reachable code).Holds env archive ∧ (m.failed now reachable code).sourceId = m.sourceId := by
  unfold failed
  split
  · exact ⟨h, rfl⟩
  · exact ⟨⟨h.stored, h.source, h.status⟩, rfl⟩

theorem run_holds (hn : env.Named) (h : m.Holds env archive) (a : Attempt) :
    ∃ archive', Advanced env archive archive' ∧ (m.run env a).1.Holds env archive' ∧
      (m.run env a).1.sourceId = m.sourceId := by
  by_cases hsqlite : a.sqlite = true
  · rw [run, if_pos hsqlite]
    exact ⟨archive, .inl rfl, h, rfl⟩
  · rw [run, if_neg hsqlite]
    split
    case h_2 e _ => exact ⟨archive, .inl rfl, failed_holds h a.now a.reachable (code e)⟩
    case h_1 answer m' hupdate =>
      obtain ⟨s, -, hupdate⟩ := bind_eq_ok.1 hupdate
      obtain ⟨hsource, htransact⟩ := update_eq_ok hupdate
      have hspec := transact_spec hn h a.now hsource
      cases hcompare : compare env archive s with
      | error e =>
        rw [hspec.of_eq_error hcompare] at htransact
        cases htransact
      | ok u =>
        have hread := hspec.of_eq_ok hcompare
        cases hsorted : validate env s.sorted with
        | error e =>
          rw [hread.of_eq_error hsorted] at htransact
          cases htransact
        | ok answer' =>
          obtain ⟨m'', htransact', hholds, hsame⟩ := hread.of_eq_ok hsorted
          obtain ⟨rfl, rfl⟩ := Prod.mk.inj (Except.ok.inj (htransact'.symm.trans htransact))
          exact ⟨some s.sorted, .inr ⟨s, hcompare, rfl⟩, hholds, hsame⟩

end CloudMirror

/-! ### Every run -/

/-- A mirror before its first attempt. -/
def LocalMirror.empty : LocalMirror := ⟨[], none, none⟩

def CloudMirror.empty (sourceId : String) : CloudMirror :=
  ⟨sourceId, [], none, ⟨⟨"never_run", none, none, ""⟩, none, none, [], none⟩⟩

def LocalMirror.step (env : Review) (l : LocalMirror) (a : Attempt) : LocalMirror := (l.run env a).1

def CloudMirror.step (env : Review) (m : CloudMirror) (a : Attempt) : CloudMirror := (m.run env a).1

open Machine

theorem local_lasting (hn : env.Named) {l : LocalMirror} (h : Stored env l.rows l.manifest archive)
    (as : List Attempt) : ∃ archive', Lasting env archive archive' ∧
      Stored env (run (LocalMirror.step env) l as).rows (run (LocalMirror.step env) l as).manifest archive' := by
  induction as generalizing l archive with
  | nil => exact ⟨archive, Lasting.refl archive, h⟩
  | cons a as ih =>
    obtain ⟨next, hnext, hstored⟩ := l.run_stored hn h a
    obtain ⟨archive', hlast, hrest⟩ := ih hstored
    exact ⟨archive', hnext.lasting.trans hlast, hrest⟩

theorem cloud_lasting (hn : env.Named) {m : CloudMirror} (h : m.Holds env archive) (as : List Attempt) :
    ∃ archive', Lasting env archive archive' ∧ (run (CloudMirror.step env) m as).Holds env archive' := by
  induction as generalizing m archive with
  | nil => exact ⟨archive, Lasting.refl archive, h⟩
  | cons a as ih =>
    obtain ⟨next, hnext, hholds, -⟩ := m.run_holds hn h a
    obtain ⟨archive', hlast, hrest⟩ := ih hholds
    exact ⟨archive', hnext.lasting.trans hlast, hrest⟩

theorem CloudMirror.empty_holds (sourceId : String) : (CloudMirror.empty sourceId).Holds env none :=
  ⟨stored_empty, by rintro s ⟨⟩, rfl, rfl⟩

/-- Whatever snapshots are attempted in whatever order, and whichever attempts fail: a mirror can be read, and what it once
had of the financial history it has ever after. -/
theorem mirrors_forget_nothing (hn : env.Named) (sourceId : String) (as bs : List Attempt) :
    (∃ archive archive', (run (LocalMirror.step env) .empty as).load env = .ok archive ∧
      (run (LocalMirror.step env) .empty (as ++ bs)).load env = .ok archive' ∧ Lasting env archive archive') ∧
    ∃ archive archive', (run (CloudMirror.step env) (.empty sourceId) as).load env = .ok archive ∧
      (run (CloudMirror.step env) (.empty sourceId) (as ++ bs)).load env = .ok archive' ∧ Lasting env archive archive' ∧
      (run (CloudMirror.step env) (.empty sourceId) as).status.digest = archive.map Snapshot.digest ∧
      (run (CloudMirror.step env) (.empty sourceId) as).status.capturedAt = archive.map Snapshot.capturedAt := by
  rw [run_append, run_append]
  constructor
  · obtain ⟨archive, -, hstored⟩ := local_lasting hn (l := .empty) stored_empty as
    obtain ⟨archive', hlast, hstored'⟩ := local_lasting hn hstored bs
    exact ⟨archive, archive', LocalMirror.load_stored hstored, LocalMirror.load_stored hstored', hlast⟩
  · obtain ⟨archive, -, hholds⟩ := cloud_lasting hn (CloudMirror.empty_holds sourceId) as
    obtain ⟨archive', hlast, hholds'⟩ := cloud_lasting hn hholds bs
    exact ⟨archive, archive', CloudMirror.load_holds hholds, CloudMirror.load_holds hholds', hlast, hholds.status⟩

/-! ### The rehearsal -/

/-- What both mirrors keep of their attempts. -/
def keep (env : Review) (archive : Option Snapshot) (a : Attempt) : Option Snapshot :=
  match a.captured with
  | .error _ => archive
  | .ok s =>
    match compare env archive s with
    | .error _ => archive
    | .ok _ => some s

/-- The same attempt on the local mirror of a rehearsal and on the remote one. -/
def Attempt.rehearse (a : Attempt) : Attempt := { a with sqlite := true }

def Attempt.upload (a : Attempt) : Attempt := { a with sqlite := false, reachable := true }

/-- The captured snapshot is in its order, of fictional people and stays, and of the source of the remote mirror. -/
def Attempt.Fictional (sourceId : String) (a : Attempt) : Prop :=
  ∀ s, a.captured = .ok s → s.sorted = s ∧ fictionalOnly s = .ok () ∧ s.sourceId = sourceId

/-- Two answers are alike but for the exceptions that are no refusals. -/
inductive Alike : Except Failure Report → Except Failure Report → Prop
  | accepted (answer : Report) : Alike (.ok answer) (.ok answer)
  | refused (code : String) : Alike (.error (.reject code)) (.error (.reject code))
  | raised {e e' : Failure} (h : ∀ code, e ≠ .reject code) : Alike (.error e) (.error e')

theorem alike_code (e : Failure) : Alike (.error e) (.error (.reject (CloudMirror.code e))) := by
  cases e with
  | reject code => exact .refused code
  | keyError key => exact .raised (by simp)
  | typeError => exact .raised (by simp)
  | unfinished => exact .raised (by simp)

theorem alike_redacted (e : Failure) : Alike (.error e) (.error (.reject (CloudMirror.code (redacted e)))) := by
  cases e with
  | reject code => exact .refused code
  | keyError key => exact .raised (by simp)
  | typeError => exact .raised (by simp)
  | unfinished => exact .raised (by simp)

theorem local_run {l : LocalMirror} {a : Attempt} : l.run env a.rehearse =
    match a.captured >>= l.write env a.now with
    | .ok (answer, l') => (l', .ok answer)
    | .error e => (l.failed a.now e.code, .error e) := rfl

theorem cloud_run {m : CloudMirror} {a : Attempt} : m.run env a.upload =
    match a.captured >>= m.update env a.now true with
    | .ok (answer, m') => (m', .ok answer)
    | .error e => (m.failed a.now true (CloudMirror.code e), .error (.reject (CloudMirror.code e))) := rfl

/-- Where both mirrors have an archive and one of its attempts, they have the next archive and answer alike. -/
theorem keep_step (hn : env.Named) {l : LocalMirror} {m : CloudMirror} {a : Attempt}
    (hl : Stored env l.rows l.manifest archive) (hm : m.Holds env archive) (ha : a.Fictional m.sourceId) :
    (Stored env (l.run env a.rehearse).1.rows (l.run env a.rehearse).1.manifest (keep env archive a) ∧
      (m.run env a.upload).1.Holds env (keep env archive a) ∧ (m.run env a.upload).1.sourceId = m.sourceId) ∧
    Alike (l.run env a.rehearse).2 (m.run env a.upload).2 := by
  have hfailed := fun e => CloudMirror.failed_holds hm a.now true (CloudMirror.code e)
  rw [local_run, cloud_run, keep]
  cases hcaptured : a.captured with
  | error e => exact ⟨⟨hl, hfailed e⟩, alike_code e⟩
  | ok s =>
    obtain ⟨hsorted, hfictional, hsource⟩ := ha s hcaptured
    have hupdate : ∀ report, validate env s = .ok report →
        m.update env a.now true s = (m.transact env a.now s).mapError redacted := by
      intro report hvalid
      simp only [CloudMirror.update, hvalid, raiseIf_of_not (not_not.2 hsource)]
      rfl
    cases hvalid : validate env s with
    | error e =>
      have hwrite : l.write env a.now s = .error e := by simp only [LocalMirror.write, hvalid, bind, Except.bind]
      have hupdated : m.update env a.now true s = .error e := by simp only [CloudMirror.update, hvalid, bind, Except.bind]
      have hcompare : compare env archive s = .error e := by simp only [compare, hvalid, bind, Except.bind]
      simp only [bind, Except.bind, hwrite, hupdated, hcompare]
      exact ⟨⟨hl, hfailed e⟩, alike_code e⟩
    | ok report =>
      have hlocal := LocalMirror.write_spec hn hl a.now hvalid hfictional
      have hcloud := CloudMirror.transact_spec hn hm a.now hsource
      rw [ordered_eq hvalid hsorted] at hlocal
      rw [hsorted, hvalid] at hcloud
      simp only [bind, Except.bind, hupdate report hvalid]
      cases hcompare : compare env archive s with
      | error e =>
        rw [hlocal.of_eq_error hcompare, hcloud.of_eq_error hcompare]
        exact ⟨⟨hl, hfailed (redacted e)⟩, alike_redacted e⟩
      | ok u =>
        obtain ⟨answer, l', hanswer, hwrite, hstored⟩ := hlocal.of_eq_ok hcompare
        obtain ⟨m', htransact, hholds, hsame⟩ := hcloud.of_eq_ok hcompare
        obtain rfl : report = answer := Except.ok.inj (hvalid.symm.trans hanswer)
        rw [hwrite, htransact]
        exact ⟨⟨hstored, hholds, hsame⟩, .accepted report⟩

theorem keep_run (hn : env.Named) {l : LocalMirror} {m : CloudMirror} {as : List Attempt}
    (hl : Stored env l.rows l.manifest archive) (hm : m.Holds env archive) (h : ∀ a ∈ as, a.Fictional m.sourceId) :
    let l' := run (LocalMirror.step env) l (as.map Attempt.rehearse)
    let m' := run (CloudMirror.step env) m (as.map Attempt.upload)
    Stored env l'.rows l'.manifest (run (keep env) archive as) ∧ m'.Holds env (run (keep env) archive as) ∧
      m'.sourceId = m.sourceId := by
  induction as generalizing l m archive with
  | nil => exact ⟨hl, hm, rfl⟩
  | cons a as ih =>
    obtain ⟨ha, has⟩ := List.forall_mem_cons.1 h
    obtain ⟨⟨hl', hm', hsource⟩, -⟩ := keep_step hn hl hm ha
    obtain ⟨hstored, hholds, hsame⟩ := ih hl' hm' (hsource.symm ▸ has)
    exact ⟨hstored, hholds, hsame.trans hsource⟩

/-- On the same captured snapshots the local mirror and the remote one accept and refuse the same and keep the same archive,
with the same rows, though only the local one deletes rows. -/
theorem rehearsal_is_faithful (hn : env.Named) {sourceId : String} {as : List Attempt} {a : Attempt}
    (h : ∀ x ∈ as, x.Fictional sourceId) (ha : a.Fictional sourceId) :
    let l := run (LocalMirror.step env) .empty (as.map Attempt.rehearse)
    let m := run (CloudMirror.step env) (.empty sourceId) (as.map Attempt.upload)
    l.load env = .ok (run (keep env) none as) ∧ m.load env = .ok (run (keep env) none as) ∧ m.rows.Perm l.rows ∧
      Alike (l.run env a.rehearse).2 (m.run env a.upload).2 := by
  intro l m
  obtain ⟨hl, hm, hsource⟩ := keep_run hn (l := .empty) stored_empty (CloudMirror.empty_holds sourceId) h
  exact ⟨LocalMirror.load_stored hl, CloudMirror.load_holds hm, hm.stored.rows.trans hl.rows.symm,
    (keep_step hn hl hm (hsource.symm ▸ ha)).2⟩

end

/-! ### A pilot -/

def withAddress (r : Record) : Record :=
  if r.model = userModel then
    { r with fields := r.fields.map fun (name, v) => (name, if name = "email" then .text "guest@pilot.invalid" else v) }
  else r

def pilot (records : List Record) : Snapshot := (sealed (records.map withAddress)).sorted

def attempted (s : Snapshot) : Attempt := ⟨.ok s, 0, false, true⟩

theorem loyaltyReview_named : loyaltyReview.Named := by
  intro schema model hmodel
  obtain ⟨fields, hfields⟩ := Option.ne_none_iff_exists'.1 hmodel
  have hnames : ∀ x ∈ loyaltyFields, ':' ∉ x.1.toList := by decide +kernel
  obtain ⟨before, after, hfields, -⟩ := List.lookup_eq_some_iff.1 hfields
  exact hnames (model, fields) (by simp [hfields])

/-- The snapshots of two nights; the one of the first is attempted again after the second. -/
def firstNight : List Attempt := [attempted (pilot threeMembers)]

def laterNights : List Attempt := [attempted (pilot moved.records), attempted (pilot threeMembers)]

open Machine in
theorem mirrors_forget_nothing_pilot :
    let m := run (CloudMirror.step loyaltyReview) (.empty "pilot") firstNight
    let m' := run (CloudMirror.step loyaltyReview) (.empty "pilot") (firstNight ++ laterNights)
    (m.rows.length, m'.rows.length) = (9, 13) ∧ ∃ archive archive', m.load loyaltyReview = .ok archive ∧
      m'.load loyaltyReview = .ok archive' ∧ Lasting loyaltyReview archive archive' := by
  obtain ⟨archive, archive', hload, hload', hlasting, -⟩ :=
    (mirrors_forget_nothing loyaltyReview_named "pilot" firstNight laterNights).2
  exact ⟨by decide +kernel, archive, archive', hload, hload', hlasting⟩

theorem fictional_pilot : ∀ a ∈ firstNight ++ laterNights, a.Fictional "pilot" := by
  let nights := [threeMembers, moved.records, threeMembers]
  have hpilot : ∀ records ∈ nights, (pilot records).sorted = pilot records ∧
      fictionalOnly (pilot records) = .ok () ∧ (pilot records).sourceId = "pilot" := by
    decide +kernel
  intro a ha s hs
  obtain ⟨records, hrecords, rfl⟩ : ∃ records ∈ nights, attempted (pilot records) = a := by
    simpa [nights, firstNight, laterNights, eq_comm] using ha
  obtain rfl : pilot records = s := Except.ok.inj hs
  exact hpilot records hrecords

open Machine in
theorem rehearsal_is_faithful_pilot :
    let l := run (LocalMirror.step loyaltyReview) .empty ((firstNight ++ laterNights).map Attempt.rehearse)
    let m := run (CloudMirror.step loyaltyReview) (.empty "pilot") ((firstNight ++ laterNights).map Attempt.upload)
    m.rows.length = 13 ∧ m.rows.Perm l.rows ∧
      Alike (l.run loyaltyReview (attempted (pilot threeMembers)).rehearse).2
        (m.run loyaltyReview (attempted (pilot threeMembers)).upload).2 := by
  obtain ⟨-, -, hrows, halike⟩ := rehearsal_is_faithful loyaltyReview_named fictional_pilot
    (fictional_pilot (attempted (pilot threeMembers)) (by simp [firstNight]))
  exact ⟨by decide +kernel, hrows, halike⟩

end Apartments.Backup
