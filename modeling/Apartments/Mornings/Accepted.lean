import Apartments.Mornings.Circuit

/-!
# What is handed out is accepted

A row of the queue says of its stay what the payload of its revision says (`Row`), so a job that is handed out with the
payload of the reservation fits it (`Job.Fits`), and every row of the gateway is of a job that was handed out. What is
left to go wrong is on the website: the stay is over or not told any more although its revision is still the last.
-/

namespace Apartments.Morning

open Payments HyperPay Verification Machine

/-! ### Keys -/

/-- The key of a job for the work group: of its kinds, only their keys end so. -/
def keyGroup (key : String) : Bool := key.toList.getLast?.any fun c => c == 'p' || c == 'n'

/-- What stands before the first separator of a key without its prefix. -/
def keyRevision (key : String) : List Char := (keySuffix key).takeWhile (· != ':')

/-- The key of a job that is for one revision only. -/
def revisionMark (n : ℕ) : List Char := 'r' :: (Nat.repr n).toList

section Keys

variable {stay : Uuid} {suffix a b : String} {g : Snapshot} {p : Option Snapshot} {now : Time} {m : JobAsked}

theorem keyGroup_append (h : b.toList ≠ []) : keyGroup (a ++ b) = keyGroup b := by
  rw [keyGroup, keyGroup, String.toList_append, List.getLast?_append, List.getLast?_eq_some_getLast h, Option.some_or]

/-- A key that ends in a phone is of a job for the guest. -/
theorem keyGroup_digits (phone : String) (h : keyGroup a = false) : keyGroup (a ++ digits phone) = false := by
  by_cases hd : (digits phone).toList = []
  · rwa [keyGroup, String.toList_append, hd, List.append_nil]
  rw [keyGroup_append hd, keyGroup, List.getLast?_eq_some_getLast hd, Option.any_some]
  have hall : ∀ c ∈ (digits phone).toList, c.isDigit = true := by simp [digits]
  have hdigit := hall _ (List.getLast_mem hd)
  generalize (digits phone).toList.getLast hd = c at hdigit
  rw [Bool.or_eq_false_iff, beq_eq_false_iff_ne, beq_eq_false_iff_ne]
  constructor <;> rintro rfl <;> exact absurd hdigit (by decide)

theorem keyRevision_append {l : List Char} (h : suffix.toList = l ++ ':' :: b.toList) (hl : ':' ∉ l) :
    keyRevision (jobPrefix stay ++ suffix) = l := by
  rw [keyRevision, keySuffix_append, h, (split_key hl).2]

theorem notMem_revisionMark (n : ℕ) : ':' ∉ revisionMark n := by
  rw [revisionMark, List.mem_cons, not_or]
  exact ⟨by decide, Keys.notMem_repr (by decide) n⟩

theorem revisionMark_inj {n k : ℕ} (h : revisionMark n = revisionMark k) : n = k :=
  Nat.repr_inj.1 (String.toList_injective (List.cons.inj h).2)

/-- What a job that `render` built asks for, in the words of the payload it was built from. -/
structure JobAsked.Of (g : Snapshot) (m : JobAsked) : Prop where
  key : ∃ suffix, m.jobKey = jobPrefix g.stay ++ suffix
  group : keyGroup m.jobKey = (m.recipientKind == .group)
  forGroup : m.kind.forGroup = (m.recipientKind == .group)
  revision : ∀ n, keyRevision m.jobKey = revisionMark n → n = g.revision
  cancelled : g.status = .cancelled → m.kind.ofCancelled = true ∧ keyRevision m.jobKey = revisionMark g.revision
  paid : g.status = .paid → m.kind ≠ .statusCancelled ∧
    (keyRevision m.jobKey = revisionMark g.revision ∨ keyKind m.jobKey = some m.kind)
  tells : KeyTells m.jobKey g.stay m.kind

theorem keyRevision_status : keyRevision (jobPrefix stay ++ statusSuffix g) = revisionMark g.revision :=
  keyRevision_append (b := "status") (by simp [statusSuffix, revisionMark, String.toList_append]) (notMem_revisionMark _)

theorem keyRevision_group : keyRevision (jobPrefix stay ++ groupSuffix g) = revisionMark g.revision :=
  keyRevision_append (b := "group") (by simp [groupSuffix, revisionMark, String.toList_append]) (notMem_revisionMark _)

theorem keyRevision_rules : keyRevision (jobPrefix stay ++ rulesSuffix g) = "rules".toList :=
  keyRevision_append (b := digits g.phone) (by simp [rulesSuffix, String.toList_append]) (by decide)

theorem keyRevision_guide : keyRevision (jobPrefix stay ++ guideSuffix g) = "guide".toList :=
  keyRevision_append (b := Nat.repr g.listingMapId ++ ":" ++ millis g.startsAt ++ ":" ++ digits g.phone)
    (by simp [guideSuffix, String.toList_append]) (by decide)

theorem keyRevision_checkout : keyRevision (jobPrefix stay ++ checkoutSuffix g) = "checkout".toList :=
  keyRevision_append (b := Nat.repr g.listingMapId ++ ":" ++ millis g.endsAt ++ ":" ++ digits g.phone)
    (by simp [checkoutSuffix, String.toList_append]) (by decide)

theorem keyRevision_attention (n : ℕ) : keyRevision (Queue.attentionKey stay n) = (Nat.repr n).toList := by
  rw [Queue.attentionKey, String.append_assoc]
  exact keyRevision_append (b := "attention") (by simp [String.toList_append]) (Keys.notMem_repr (by decide) n)

/-- A word that is no number after its first letter marks no revision. -/
theorem ne_revisionMark {l : List Char} (n : ℕ) (h : l.head? ≠ some 'r' ∨ 'u' ∈ l) : l ≠ revisionMark n := by
  rintro rfl
  rcases h with h | h
  · exact h rfl
  · rcases List.mem_cons.1 h with h | h
    · cases h
    · exact Keys.notMem_repr (by decide) n h

theorem ofCancelled_statusKind (h : g.status = .cancelled) : (statusKind g p).ofCancelled = true := by
  rw [statusKind, if_pos h]
  rfl

theorem forGroup_statusKind : (statusKind g p).forGroup = false := by
  unfold statusKind
  split_ifs <;> rfl

theorem statusKind_paid (h : g.status = .paid) : statusKind g p ≠ .statusCancelled := by
  unfold statusKind
  split_ifs with hc <;> simp_all

/-- A long-lived job is for a guest, and no cancelled stay has one. -/
theorem JobAsked.Of.lasting {kind : Kind} {body suffix : String} {sequence : ℤ} {due : Time} {stop : Option Time}
    {l : List Char} (hpaid : g.status = .paid) (hgroup : keyGroup (jobPrefix g.stay ++ suffix) = false)
    (hkind : keyKind (jobPrefix g.stay ++ suffix) = some kind) (hfor : kind.forGroup = false)
    (hnew : kind ≠ .statusCancelled) (hkey : keyRevision (jobPrefix g.stay ++ suffix) = l)
    (hl : l.head? ≠ some 'r' ∨ 'u' ∈ l) :
    JobAsked.Of g ⟨kind, body, jobPrefix g.stay ++ suffix, sequence, .guest, due, stop⟩ := by
  refine ⟨⟨suffix, rfl⟩, hgroup, hfor, fun n hn => ?_, fun hc => ?_, fun _ => ⟨hnew, .inr hkind⟩, .of_some _ rfl hkind⟩
  · exact absurd (hkey.symm.trans hn) (ne_revisionMark n hl)
  · rw [hpaid] at hc
    cases hc

theorem Rendered.of (h : Rendered g p now m) : m.Of g := by
  have htells := h.keyTells
  cases h with
  | status h =>
    rw [addJob_some h] at htells ⊢
    refine ⟨⟨_, rfl⟩, ?_, forGroup_statusKind, fun n hn => ?_, fun hc => ⟨ofCancelled_statusKind hc, keyRevision_status⟩,
      fun hp => ⟨statusKind_paid hp, .inl keyRevision_status⟩, htells⟩
    · rw [statusSuffix, ← String.append_assoc, keyGroup_append (by decide)]
      exact (by decide : keyGroup ":status" = false)
    · exact revisionMark_inj (hn.symm.trans keyRevision_status)
  | group h =>
    rw [addJob_some h] at htells ⊢
    refine ⟨⟨_, rfl⟩, ?_, rfl, fun n hn => ?_, fun _ => ⟨rfl, keyRevision_group⟩,
      fun _ => ⟨by simp, .inl keyRevision_group⟩, htells⟩
    · rw [groupSuffix, ← String.append_assoc, keyGroup_append (by decide)]
      exact (by decide : keyGroup ":group" = true)
    · exact revisionMark_inj (hn.symm.trans keyRevision_group)
  | rules text hpaid hwants h =>
    rw [addJob_some h]
    refine .lasting hpaid ?_ keyKind_rules rfl (by simp) keyRevision_rules (by decide)
    rw [rulesSuffix, ← String.append_assoc]
    refine keyGroup_digits _ ?_
    rw [keyGroup_append (by decide)]
    decide
  | guide text hpaid hwants h =>
    rw [addJob_some h]
    refine .lasting hpaid ?_ keyKind_guide rfl (by simp) keyRevision_guide (by decide)
    rw [guideSuffix, ← String.append_assoc]
    refine keyGroup_digits _ ?_
    rw [← String.append_assoc, keyGroup_append (by decide)]
    decide
  | reminder hpaid hdue h =>
    rw [addJob_some h]
    refine .lasting hpaid ?_ keyKind_checkout rfl (by simp) keyRevision_checkout (by decide)
    rw [checkoutSuffix, ← String.append_assoc]
    refine keyGroup_digits _ ?_
    rw [← String.append_assoc, keyGroup_append (by decide)]
    decide

theorem keyGroup_attention (n : ℕ) : keyGroup (Queue.attentionKey stay n) = true := by
  rw [Queue.attentionKey, keyGroup_append (by decide)]
  decide

end Keys

/-! ### Rows -/

def recipientFor (workGroupId : String) (s : Snapshot) : RecipientKind → String
  | .group => workGroupId
  | .guest => digits s.phone

theorem recipientOf_eq (q : Queue) (r : Reservation) (k : RecipientKind) :
    q.recipientOf r k = recipientFor q.workGroupId r.payload k := by
  cases k <;> rfl

/-- The job is what the payload of its revision asks for. -/
structure Job.Fits (workGroupId : String) (s : Snapshot) (j : Job) : Prop where
  recipient : j.recipient = recipientFor workGroupId s j.recipientKind
  body : j.kind ≠ .attention → 1 ≤ j.body.length ∧ j.body.length ≤ 4096
  cancelled : s.status = .cancelled → j.kind.ofCancelled = true
  paid : s.status = .paid → j.kind ≠ .statusCancelled

/-- What a row says of itself. -/
structure Job.Named (md5 : String → String) (j : Job) : Prop where
  key : ∃ suffix, j.jobKey = jobPrefix j.stay ++ suffix
  tells : KeyTells j.jobKey j.stay j.kind
  reference : j.referenceId = "lsa07-" ++ md5 j.jobKey
  group : keyGroup j.jobKey = (j.recipientKind == .group)
  forGroup : j.kind.forGroup = (j.recipientKind == .group)
  revision : ∀ n, keyRevision j.jobKey = revisionMark n → j.revision = n

/-- A row with the reservation of its stay. -/
structure Row (md5 : String → String) (q : Queue) (j : Job) : Prop where
  named : j.Named md5
  fits : ∃ r, q.reservation j.stay = some r ∧ j.revision ≤ r.revision ∧
    (j.revision = r.revision → j.Fits q.workGroupId r.payload)

/-- All that a row tells apart from how far it is. -/
def Job.told (j : Job) : String × Uuid × ℕ × Kind × RecipientKind × String × String × String :=
  (j.jobKey, j.stay, j.revision, j.kind, j.recipientKind, j.recipient, j.body, j.referenceId)

section Rows

variable {md5 : String → String} {q q' : Queue} {x y j : Job} {r : Reservation} {m : JobAsked} {now : Time} {scope : Scope}
  {stay : Uuid} {jobs jobs' : List Job} {f : Job → Job}

theorem told_superseded : (x.superseded stay).told = x.told := by
  unfold Job.superseded
  split <;> rfl

theorem told_expire : (Queue.expire now scope x).told = x.told := by
  unfold Queue.expire
  split <;> rfl

theorem told_fail : (Queue.fail now scope x).told = x.told := by
  unfold Queue.fail
  split <;> rfl

theorem Job.Fits.of_told {workGroupId : String} {s : Snapshot} (h : x.Fits workGroupId s) (ht : y.told = x.told) :
    y.Fits workGroupId s := by
  simp only [Job.told, Prod.mk.injEq] at ht
  obtain ⟨-, -, -, hkind, hrk, hrec, hbody, -⟩ := ht
  exact ⟨by rw [hrec, hrk]; exact h.recipient, by rw [hkind, hbody]; exact h.body, by rw [hkind]; exact h.cancelled,
    by rw [hkind]; exact h.paid⟩

theorem Job.Named.of_told (h : x.Named md5) (ht : y.told = x.told) : y.Named md5 := by
  simp only [Job.told, Prod.mk.injEq] at ht
  obtain ⟨hkey, hstay, hrev, hkind, hrk, -, -, href⟩ := ht
  exact ⟨by rw [hkey, hstay]; exact h.key, by rw [hkey, hstay, hkind]; exact h.tells,
    by rw [href, hkey]; exact h.reference, by rw [hkey, hrk]; exact h.group, by rw [hkind, hrk]; exact h.forGroup,
    by rw [hkey, hrev]; exact h.revision⟩

theorem Row.of_told (h : Row md5 q x) (ht : y.told = x.told) : Row md5 q y := by
  have hstay : y.stay = x.stay := congrArg (fun t => t.2.1) ht
  have hrev : y.revision = x.revision := congrArg (fun t => t.2.2.1) ht
  obtain ⟨r, hr, hle, hfits⟩ := h.fits
  exact ⟨h.named.of_told ht, r, hstay ▸ hr, hrev ▸ hle, fun he => (hfits (hrev ▸ he)).of_told ht⟩

/-- A row follows a reservation that keeps its revision and payload. -/
theorem Row.congr (h : Row md5 q x) (hg : q'.workGroupId = q.workGroupId)
    (hr : ∀ r, q.reservation x.stay = some r →
      ∃ r', q'.reservation x.stay = some r' ∧ r'.revision = r.revision ∧ r'.payload = r.payload) : Row md5 q' x := by
  obtain ⟨r, hget, hle, hfits⟩ := h.fits
  obtain ⟨r', hget', hrev, hpay⟩ := hr r hget
  exact ⟨h.named, r', hget', hrev ▸ hle, fun he => by rw [hg, hpay]; exact hfits (he.trans hrev)⟩

theorem refuses_body (h : ¬q.refuses r m = true) : 1 ≤ m.body.length ∧ m.body.length ≤ 4096 := by
  simp only [Queue.refuses, Bool.not_eq_true, Bool.or_eq_false_iff, Bool.not_eq_false', Bool.and_eq_true,
    decide_eq_true_eq] at h
  exact h.1.1.1.2

theorem group_inj {a b : RecipientKind} (h : (a == .group) = (b == .group)) : a = b := by
  cases a <;> cases b <;> first | rfl | cases h

theorem not_untilEnd {k : Kind} (h : k.ofCancelled = true) : k.untilEnd = false := by
  cases k <;> first | rfl | cases h

/-- The row of a key that is prepared again is for the revision of the reservation. -/
theorem Row.revived (h : Row md5 q x) (hr : q.reservation r.stay = some r) (hrev : r.payload.revision = r.revision)
    (hm : m.Of r.payload) (hbody : ¬q.refuses r m = true) (hk : x.jobKey = m.jobKey) (hx : x.stay = r.stay) :
    Row md5 q (q.revived r m x) := by
  unfold Queue.revived
  split
  · exact h
  obtain ⟨hkey, htells, href, hgroup, hfor, hrevision⟩ := h.named
  have hrk : x.recipientKind = m.recipientKind := group_inj (by rw [← hgroup, ← hm.group, hk])
  -- a key that is for one revision only had its row for this payload before
  have hbefore : keyRevision m.jobKey = revisionMark r.payload.revision → x.Fits q.workGroupId r.payload := by
    intro hmark
    obtain ⟨r', hr', hle, hfits⟩ := h.fits
    obtain rfl : r = r' := Option.some.inj (hr.symm.trans (hx ▸ hr'))
    exact hfits ((hrevision _ (hk ▸ hmark)).trans hrev)
  refine ⟨⟨hkey, htells, href, hgroup, hfor, fun n hn => (hm.revision n (hk ▸ hn) ▸ hrev).symm⟩, r, hx ▸ hr, le_rfl,
    fun _ => ⟨?_, fun _ => refuses_body hbody, fun hc => (hbefore (hm.cancelled hc).2).cancelled hc, fun hp => ?_⟩⟩
  · dsimp only
    rw [recipientOf_eq, hrk]
  · obtain ⟨hnew, hmark | hkind⟩ := hm.paid hp
    · exact (hbefore hmark).paid hp
    · exact (htells.kind _ (hk ▸ hkind)).symm ▸ hnew

theorem Row.newJob (hr : q.reservation r.stay = some r) (hstay : r.payload.stay = r.stay)
    (hrev : r.payload.revision = r.revision) (hm : m.Of r.payload) (hbody : ¬q.refuses r m = true) :
    Row md5 q (q.newJob md5 r m) := by
  have hkey : ∃ suffix, m.jobKey = jobPrefix r.stay ++ suffix := hstay ▸ hm.key
  have htells : KeyTells m.jobKey r.stay m.kind := hstay ▸ hm.tells
  exact ⟨⟨hkey, htells, rfl, hm.group, hm.forGroup, fun n hn => (hm.revision n hn ▸ hrev).symm⟩, r, hr, le_rfl,
    fun _ => ⟨recipientOf_eq .., fun _ => refuses_body hbody, fun hc => (hm.cancelled hc).1, fun hp => (hm.paid hp).1⟩⟩

theorem Row.attention (hr : q.reservation r.stay = some r) : Row md5 q (q.attentionJob md5 r) := by
  refine ⟨⟨⟨Nat.repr r.revision ++ ":attention", ?_⟩, attention_keyTells _, rfl, keyGroup_attention _, rfl,
    fun n hn => ?_⟩, r, hr, le_rfl, fun _ => ⟨rfl, fun h => absurd rfl h, fun _ => rfl, fun _ h => by cases h⟩⟩
  · rw [← String.append_assoc]
    rfl
  · have hn : (Nat.repr r.revision).toList = revisionMark n := (keyRevision_attention _).symm.trans hn
    have hmem : 'r' ∈ (Nat.repr r.revision).toList := by simp [hn, revisionMark]
    exact absurd hmem (Keys.notMem_repr (by decide) _)

/-- The rows and their references, no two of which are the same. -/
structure RowsOk (md5 : String → String) (q : Queue) (jobs : List Job) : Prop where
  rows : ∀ j ∈ jobs, Row md5 q j
  references : (jobs.map (·.referenceId)).Nodup

theorem RowsOk.map (h : RowsOk md5 q jobs) (hf : ∀ x : Job, (f x).told = x.told) : RowsOk md5 q (jobs.map f) := by
  constructor
  · intro y hy
    obtain ⟨x, hx, rfl⟩ := List.mem_map.1 hy
    exact (h.rows x hx).of_told (hf x)
  · have hrefs : (jobs.map f).map (·.referenceId) = jobs.map (·.referenceId) := by
      rw [List.map_map]
      exact List.map_congr_left fun x _ => congrArg (fun t => t.2.2.2.2.2.2.2) (hf x)
    exact hrefs.symm ▸ h.references

theorem RowsOk.modify (h : RowsOk md5 q jobs) {key : String} (hf : ∀ x : Job, (f x).told = x.told) :
    RowsOk md5 q (Table.modify Job.jobKey jobs key f) :=
  h.map fun x => by
    split
    · exact hf x
    · rfl

theorem RowsOk.insert (h : RowsOk md5 q jobs) (hins : Queue.insertJob jobs j f = some jobs')
    (hf : ∀ x ∈ jobs, x.jobKey = j.jobKey → Row md5 q (f x)) (href : ∀ x : Job, (f x).referenceId = x.referenceId)
    (hj : Row md5 q j) : RowsOk md5 q jobs' := by
  unfold Queue.insertJob at hins
  split_ifs at hins with hget hany
  · cases hins
    refine ⟨fun y hy => ?_, ?_⟩
    · obtain ⟨x, hx, rfl⟩ := Table.mem_modify.1 hy
      split
      · exact hf x hx (by assumption)
      · exact h.rows x hx
    · have hrefs : (Table.modify Job.jobKey jobs j.jobKey f).map (·.referenceId) = jobs.map (·.referenceId) := by
        rw [Table.modify, List.map_map]
        refine List.map_congr_left fun x _ => ?_
        simp only [Function.comp_apply]
        split
        · exact href x
        · rfl
      exact hrefs.symm ▸ h.references
  · cases hins
    refine ⟨fun y hy => ?_, ?_⟩
    · rcases List.mem_append.1 hy with hy | hy
      · exact h.rows y hy
      · rw [List.mem_singleton.1 hy]
        exact hj
    · rw [List.map_append]
      refine List.nodup_append'.2 ⟨h.references, by simp, ?_⟩
      simpa using hany

/-- A key names one stay. -/
theorem stay_eq_of_jobPrefix_append {a b : Uuid} {s t : String} (h : jobPrefix a ++ s = jobPrefix b ++ t) : a = b := by
  have hk := congrArg keyStay h
  rw [keyStay_append, keyStay_append] at hk
  exact Uuid.ext_str (String.toList_injective hk)

theorem RowsOk.prepared (h : RowsOk md5 q jobs) (hr : q.reservation r.stay = some r) (hstay : r.payload.stay = r.stay)
    (hrev : r.payload.revision = r.revision) {batch : List JobAsked} (hbatch : ∀ m ∈ batch, m.Of r.payload)
    (hp : batch.foldlM (q.prepareJob md5 r) jobs = some jobs') : RowsOk md5 q jobs' := by
  refine foldlM_inv (P := RowsOk md5 q) (fun m hm b b' hb hj => ?_) hp h
  unfold Queue.prepareJob at hj
  split_ifs at hj with hbody
  refine hb.insert hj (fun x hx hk => ?_) (fun x => ?_) (.newJob hr hstay hrev (hbatch m hm) hbody)
  · obtain ⟨s, hs⟩ := (hb.rows x hx).named.key
    obtain ⟨t, ht⟩ := (hbatch m hm).key
    have hk : x.jobKey = m.jobKey := hk
    refine (hb.rows x hx).revived hr hrev (hbatch m hm) hbody hk ?_
    exact (stay_eq_of_jobPrefix_append ((hs.symm.trans hk).trans ht)).trans hstay
  · unfold Queue.revived
    split <;> rfl

theorem RowsOk.swept (h : RowsOk md5 q q.jobs) (hs : q.swept md5 scope = some jobs') : RowsOk md5 q jobs' := by
  refine foldlM_inv (P := RowsOk md5 q) (fun j _ b b' hb hj => ?_) hs
    ((h.map fun _ => told_expire).map fun _ => told_fail)
  unfold Queue.attend at hj
  split_ifs at hj
  · split at hj
    · cases hj
      exact hb
    · rename_i r hcurrent
      have hget : q.reservation j.stay = some r := by
        rw [Queue.current, Option.filter_eq_some_iff] at hcurrent
        exact hcurrent.1
      have hr : q.reservation r.stay = some r := by
        rw [show r.stay = j.stay from Table.key_of_get hget]
        exact hget
      exact hb.insert hj (fun x hx _ => hb.rows x hx) (fun _ => rfl) (.attention hr)
  · cases hj
    exact hb

/-- The rows go on with reservations that keep their revisions and payloads. -/
theorem RowsOk.congr (h : RowsOk md5 q jobs) (hg : q'.workGroupId = q.workGroupId)
    (hr : ∀ stay r, q.reservation stay = some r →
      ∃ r', q'.reservation stay = some r' ∧ r'.revision = r.revision ∧ r'.payload = r.payload) :
    RowsOk md5 q' jobs := ⟨fun j hj => (h.rows j hj).congr hg (hr j.stay), h.references⟩

theorem reservation_kept {f : Reservation → Reservation}
    (hf : ∀ r, (f r).stay = r.stay ∧ (f r).revision = r.revision ∧ (f r).payload = r.payload) (x : Uuid) (r : Reservation)
    (h : q.reservation x = some r) :
    ∃ r', (q.modifyReservation stay f).reservation x = some r' ∧ r'.revision = r.revision ∧ r'.payload = r.payload := by
  rw [reservation_modify fun r => (hf r).1]
  split
  · exact ⟨f r, by rw [h]; rfl, (hf r).2⟩
  · exact ⟨r, h, rfl, rfl⟩

/-- A newer revision leaves the rows of its stay behind. -/
theorem RowsOk.revised {s : Snapshot} (h : RowsOk md5 q jobs) (hr : q.reservation s.stay = some r)
    (hlt : r.revision < s.revision) :
    RowsOk md5 ({ q with jobs := jobs'}.modifyReservation s.stay (Reservation.revised s now))
      (jobs.map (Job.superseded s.stay)) := by
  refine ⟨fun y hy => ?_, (h.map fun _ => told_superseded).references⟩
  obtain ⟨x, hx, rfl⟩ := List.mem_map.1 hy
  refine Row.of_told (x := x) ?_ told_superseded
  obtain ⟨hnamed, r', hget, hle, hfits⟩ := h.rows x hx
  have hmod : ({ q with jobs := jobs' }.modifyReservation s.stay (Reservation.revised s now)).reservation x.stay =
      if x.stay = s.stay then (q.reservation x.stay).map (Reservation.revised s now) else q.reservation x.stay :=
    reservation_modify (q := { q with jobs := jobs' }) (f := Reservation.revised s now) (fun _ => rfl) x.stay
  by_cases hk : x.stay = s.stay
  · rw [if_pos hk] at hmod
    obtain rfl : r = r' := Option.some.inj (hr.symm.trans (hk ▸ hget))
    refine ⟨hnamed, r.revised s now, ?_, (hle.trans hlt.le : _), fun he => ?_⟩
    · rw [hmod]
      exact congrArg (Option.map _) hget
    · have he : x.revision = s.revision := he
      omega
  · rw [if_neg hk] at hmod
    exact ⟨hnamed, r', hmod.trans hget, hle, hfits⟩

end Rows

namespace Circuit

variable {F H : Type} {site : Site F} {fmt : Format F} {fill : Templates} {gate : GatewaySite H} {c : Circuit F H}
  {e : Job × Snapshot}

/-! ### What was handed out -/

/-- A job that was handed out with a payload of its revision. -/
structure Sent (fmt : Format F) (gate : GatewaySite H) (w : World F) (e : Job × Snapshot) : Prop where
  payload : e.2.stay = e.1.stay ∧ e.2.revision = e.1.revision
  own : e.1.stay = w.stay.pk → ∃ a ∈ w.answers, snapshotOf fmt a = some e.2
  named : e.1.Named gate.md5
  fits : e.1.Fits gate.workGroupId e.2

/-- A row of the gateway is of a job that was handed out. -/
def Posted (gate : GatewaySite H) (w : World F) (sends : List (Job × Snapshot)) (row : DeliveryAttempt H) : Prop :=
  ∃ e ∈ sends, row.referenceId = e.1.referenceId ∧ row.payloadHash = gate.payloadHash (messageOf e.1) ∧
    (e.1.stay = w.stay.pk → row.stay = w.stay.pk)

/-- An execution prepares the payload it has claimed. -/
def Prepares (q : Queue) (p : Preparer) : Prop :=
  ∃ r ∈ q.reservations, r.stay = p.booking.stay ∧ p.booking.revision ≤ r.revision ∧
    (p.booking.revision = r.revision → p.booking = r.payload)

/-- The reservations of the queue, the own ones as the website has answered them. -/
structure Reserved (fmt : Format F) (w : World F) (q : Queue) : Prop where
  payload : ∀ r ∈ q.reservations, r.payload.stay = r.stay ∧ r.payload.revision = r.revision
  own : ∀ r ∈ q.reservations, r.stay = w.stay.pk → ∃ a ∈ w.answers, snapshotOf fmt a = some r.payload

structure Ok (site : Site F) (fmt : Format F) (gate : GatewaySite H) (c : Circuit F H) : Prop where
  website : Sound site c.website
  answering : Answering (gate.enabled = true) c.website
  works : Works.Ok gate c.works
  workGroup : c.works.queue.workGroupId = gate.workGroupId
  reserved : Reserved fmt c.website c.works.queue
  prepares : ∀ p ∈ c.preparers, Prepares c.works.queue p
  rows : RowsOk gate.md5 c.works.queue c.works.queue.jobs
  sends : ∀ e ∈ c.sends, Sent fmt gate c.website e
  log : c.sends.map (·.1.jobKey) = (c.works.leases.filter (·.sent)).map (·.jobKey)
  posted : ∀ row ∈ c.works.gateway.rows, Posted gate c.website c.sends row

theorem Fresh.ok (h : Fresh site gate c) : Ok site fmt gate c := by
  obtain ⟨ha, hco, hch⟩ := h.payment
  obtain ⟨hev, hre, han⟩ := h.outbox
  obtain ⟨hr, hj⟩ := h.works.queue
  obtain ⟨hp, hs⟩ := h.preparing
  have hsound : Sound site c.website :=
    ⟨⟨h.production, h.phone, by simp [hev], by simp [hev, h.revision], by simp [hev], by simp [hev],
      by simp [h.revision], by simp [hre], by simp [han]⟩, fun _ _ => by simp [Agrees, hev],
      ⟨by simp [ha], by simp [hco], by simp [hco], by simp [hch]⟩⟩
  refine ⟨hsound, ⟨h.window, by simp [hre], by simp [han], by simp [h.revision], by simp [hev]⟩, h.works.ok, h.workGroup,
    ⟨by simp [hr], by simp [hr]⟩, by simp [hp], ⟨by simp [hj], by simp [hj]⟩, by simp [hs], ?_, by simp [h.rows]⟩
  rw [hs, h.works.logs.2]
  rfl

/-- The reservations of two queues tell the same. -/
structure Alike (q q' : Queue) : Prop where
  workGroup : q'.workGroupId = q.workGroupId
  back : ∀ r' ∈ q'.reservations, ∃ r ∈ q.reservations, r'.stay = r.stay ∧ r'.revision = r.revision ∧ r'.payload = r.payload
  on : ∀ r ∈ q.reservations, ∃ r' ∈ q'.reservations, r'.stay = r.stay ∧ r'.revision = r.revision ∧ r'.payload = r.payload
  get : ∀ stay r, q.reservation stay = some r →
    ∃ r', q'.reservation stay = some r' ∧ r'.revision = r.revision ∧ r'.payload = r.payload

theorem Alike.of_eq {q q' : Queue} (hg : q'.workGroupId = q.workGroupId) (hr : q'.reservations = q.reservations) :
    Alike q q' := by
  refine ⟨hg, fun r h => ⟨r, hr ▸ h, rfl, rfl, rfl⟩, fun r h => ⟨r, hr ▸ h, rfl, rfl, rfl⟩, fun stay r h => ⟨r, ?_, rfl, rfl⟩⟩
  rw [Queue.reservation, hr]
  exact h

theorem Alike.modify {q q' : Queue} {stay : Uuid} {f : Reservation → Reservation}
    (hf : ∀ r, (f r).stay = r.stay ∧ (f r).revision = r.revision ∧ (f r).payload = r.payload)
    (hg : q'.workGroupId = q.workGroupId) (hr : q'.reservations = q.reservations) :
    Alike q (q'.modifyReservation stay f) := by
  refine ⟨hg, fun r h => ?_, fun r h => ?_, fun x r h => reservation_kept hf x r ?_⟩
  · obtain ⟨r₀, hr₀, rfl⟩ := Table.mem_modify.1 h
    refine ⟨r₀, hr ▸ hr₀, ?_⟩
    split
    · exact hf r₀
    · exact ⟨rfl, rfl, rfl⟩
  · refine ⟨_, Table.mem_modify.2 ⟨r, hr ▸ h, rfl⟩, ?_⟩
    split
    · exact hf r
    · exact ⟨rfl, rfl, rfl⟩
  · rw [Queue.reservation, hr]
    exact h

theorem Prepares.alike {q q' : Queue} {p : Preparer} (h : Prepares q p) (hq : Alike q q') : Prepares q' p := by
  obtain ⟨r, hr, hs, hle, heq⟩ := h
  obtain ⟨r', hr', hs', hrev, hpay⟩ := hq.on r hr
  exact ⟨r', hr', hs'.trans hs, hrev ▸ hle, fun he => by rw [hpay]; exact heq (he.trans hrev)⟩

theorem Reserved.alike {q q' : Queue} {w : World F} (h : Reserved fmt w q) (hq : Alike q q') : Reserved fmt w q' := by
  constructor
  · intro r' hr'
    obtain ⟨r, hr, hs, hrev, hpay⟩ := hq.back r' hr'
    rw [hs, hrev, hpay]
    exact h.payload r hr
  · intro r' hr'
    obtain ⟨r, hr, hs, hrev, hpay⟩ := hq.back r' hr'
    rw [hs, hpay]
    exact h.own r hr

/-- The queue goes on with reservations that tell the same. -/
theorem Ok.alike (h : Ok site fmt gate c) {w : Works H} {preparers : List Preparer} {sends : List (Job × Snapshot)}
    (hw : Works.Ok gate w) (hq : Alike c.works.queue w.queue) (hrows : RowsOk gate.md5 c.works.queue w.queue.jobs)
    (hp : ∀ p ∈ preparers, Prepares c.works.queue p) (hs : ∀ e ∈ sends, Sent fmt gate c.website e)
    (hlog : sends.map (·.1.jobKey) = (w.leases.filter (·.sent)).map (·.jobKey))
    (hposted : ∀ row ∈ w.gateway.rows, Posted gate c.website sends row) :
    Ok site fmt gate { c with works := w, preparers := preparers, sends := sends } :=
  ⟨h.website, h.answering, hw, hq.workGroup.trans h.workGroup, h.reserved.alike hq, fun p hm => (hp p hm).alike hq,
    hrows.congr hq.workGroup hq.get, hs, hlog, hposted⟩

theorem Posted.mono {w : World F} {sends sends' : List (Job × Snapshot)} {row : DeliveryAttempt H}
    (h : Posted gate w sends row) (hsub : ∀ e ∈ sends, e ∈ sends') : Posted gate w sends' row := by
  obtain ⟨e, he, hrest⟩ := h
  exact ⟨e, hsub e he, hrest⟩

/-! ### Steps -/

theorem Ok.websiteStep [DecidableEq F] (h : Ok site fmt gate c) (a : Action) :
    Ok site fmt gate { c with website := c.website.step site (a.served gate.enabled) } := by
  have hread : ∀ event, a.served gate.enabled = .read event true → gate.enabled = true := by
    intro event heq
    cases a with
    | read event' authorised =>
      simp only [Action.served, Action.read.injEq, Bool.and_eq_true] at heq
      exact heq.2.2
    | _ => cases heq
  obtain ⟨hanswering, hpk, hanswers⟩ := h.answering.step h.website.base (a.served gate.enabled) hread
  refine ⟨h.website.step _, hanswering, h.works, h.workGroup, ⟨h.reserved.payload, fun r hr hs => ?_⟩, h.prepares, h.rows,
    fun e he => ?_, h.log, fun row hrow => ?_⟩
  · obtain ⟨x, hx, heq⟩ := h.reserved.own r hr (hs.trans hpk)
    exact ⟨x, hanswers x hx, heq⟩
  · obtain ⟨hpay, hown, hnamed, hfits⟩ := h.sends e he
    refine ⟨hpay, fun hs => ?_, hnamed, hfits⟩
    obtain ⟨x, hx, heq⟩ := hown (hs.trans hpk)
    exact ⟨x, hanswers x hx, heq⟩
  · obtain ⟨e, he, href, hhash, hstay⟩ := h.posted row hrow
    exact ⟨e, he, href, hhash, fun hs => (hstay (hs.trans hpk)).trans hpk.symm⟩

/-- The queue is handed a payload, which the website has answered if it is of the own stay. -/
theorem Ok.ingest (h : Ok site fmt gate c) (s : Snapshot)
    (hs : s.stay = c.website.stay.pk → ∃ a ∈ c.website.answers, snapshotOf fmt a = some s) :
    Ok site fmt gate (c.withWorks { c.works with queue := (c.works.queue.ingest s).1 }) := by
  have hworks : Works.Ok gate { c.works with queue := (c.works.queue.ingest s).1 } := h.works.ingest s
  rcases ingest_cases c.works.queue s with heq | ⟨hnone, heq⟩ | ⟨r, -, hr, hlt, heq⟩
  · rw [heq]
    exact h
  · rw [heq] at hworks ⊢
    refine ⟨h.website, h.answering, hworks, h.workGroup, ⟨fun r hr => ?_, fun r hr => ?_⟩, fun p hp => ?_,
      h.rows.congr rfl fun stay r hr => ⟨r, ?_, rfl, rfl⟩, h.sends, h.log, h.posted⟩
    · rcases List.mem_append.1 hr with hr | hr
      · exact h.reserved.payload r hr
      · rw [List.mem_singleton.1 hr]
        exact ⟨rfl, rfl⟩
    · rcases List.mem_append.1 hr with hr | hr
      · exact h.reserved.own r hr
      · rw [List.mem_singleton.1 hr]
        exact hs
    · obtain ⟨r, hr, hrest⟩ := h.prepares p hp
      exact ⟨r, List.mem_append_left _ hr, hrest⟩
    · have hget : Table.get Reservation.stay c.works.queue.reservations stay = some r := hr
      refine Table.get_append.trans ?_
      rw [hget]
      rfl
  · rw [heq] at hworks ⊢
    have hrmem := Table.mem_of_get hr
    have hrstay : r.stay = s.stay := Table.key_of_get hr
    have hmem : ∀ r' ∈ Table.modify Reservation.stay c.works.queue.reservations s.stay
        (Reservation.revised s c.works.queue.now),
        r' = r.revised s c.works.queue.now ∨ r' ∈ c.works.queue.reservations := by
      intro r' hr'
      obtain ⟨r₀, hr₀, rfl⟩ := Table.mem_modify.1 hr'
      split
      · rename_i hk
        rw [Table.eq_of_mem_of_key h.works.stays hr₀ hrmem (hk.trans hrstay.symm)]
        exact .inl rfl
      · exact .inr hr₀
    refine ⟨h.website, h.answering, hworks, h.workGroup, ⟨fun r' hr' => ?_, fun r' hr' => ?_⟩, fun p hp => ?_,
      h.rows.revised hr hlt, h.sends, h.log, h.posted⟩
    · rcases hmem r' hr' with rfl | hr'
      · exact ⟨hrstay.symm, rfl⟩
      · exact h.reserved.payload r' hr'
    · rcases hmem r' hr' with rfl | hr'
      · exact fun hp => hs (hrstay.symm.trans hp)
      · exact h.reserved.own r' hr'
    · obtain ⟨r₀, hr₀, hs₀, hle, hsame⟩ := h.prepares p hp
      by_cases hk : r₀.stay = s.stay
      · obtain rfl := Table.eq_of_mem_of_key h.works.stays hr₀ hrmem (hk.trans hrstay.symm)
        refine ⟨_, Table.mem_modify.2 ⟨r₀, hr₀, if_pos hk⟩, hs₀, (hle.trans hlt.le : _), fun hv => ?_⟩
        have hv : p.booking.revision = s.revision := hv
        omega
      · exact ⟨r₀, Table.mem_modify_of_ne hr₀ hk, hs₀, hle, hsame⟩

theorem Ok.claimed (h : Ok site fmt gate c) (scope : Scope) (worker : String) (apartment : ℕ → Bool)
    (skipped : List Uuid) : Ok site fmt gate (c.claimed worker (c.works.queue.claimWith scope worker apartment skipped)) := by
  have hworks : Works.Ok gate (c.works.claimed worker (c.works.queue.claimWith scope worker apartment skipped)) :=
    h.works.claimed scope apartment skipped
  unfold Circuit.claimed
  rcases claimWith_cases c.works.queue scope worker apartment skipped with heq | ⟨r, hr, heq⟩
  · rw [heq] at hworks ⊢
    exact h.alike hworks (.of_eq rfl rfl) h.rows (by simpa using h.prepares) h.sends h.log h.posted
  · rw [heq] at hworks ⊢
    refine h.alike hworks (.modify (fun _ => ⟨rfl, rfl, rfl⟩) rfl rfl) h.rows (fun p hp => ?_) h.sends h.log h.posted
    rcases List.mem_append.1 hp with hp | hp
    · exact h.prepares p hp
    · obtain rfl : p = ⟨worker, r.payload, r.previousPayload, c.works.queue.now⟩ := by simpa using hp
      obtain ⟨hs, hv⟩ := h.reserved.payload r hr
      exact ⟨r, hr, hs.symm, hv.le, fun _ => rfl⟩

theorem Ok.prepare [DecidableEq H] (h : Ok site fmt gate c) (i : ℕ) : Ok site fmt gate (c.prepare fill gate i) := by
  unfold Circuit.prepare
  split
  · exact h
  rename_i p hi
  split
  · exact h
  rename_i batch hrender
  have hworks : Works.Ok gate { c.works with
      queue := (c.works.queue.prepare gate.md5 p.booking.stay p.booking.revision p.worker batch).1 } :=
    h.works.prepare ..
  dsimp only [Works.step]
  rcases prepare_cases c.works.queue gate.md5 p.booking.stay p.booking.revision p.worker batch with
    heq | ⟨r, jobs, hr, hprepares, hjobs, heq⟩
  · rw [heq]
    exact h
  rw [heq] at hworks ⊢
  have hrmem := Table.mem_of_get hr
  have hrstay : r.stay = p.booking.stay := Table.key_of_get hr
  have hrev : r.revision = p.booking.revision := by
    simp only [Queue.prepares, Bool.and_eq_true, beq_iff_eq] at hprepares
    exact hprepares.1.1
  -- the claim is of the payload that the reservation still has
  obtain ⟨r₀, hr₀, hs₀, -, hsame⟩ := h.prepares p (List.mem_of_getElem? hi)
  obtain rfl := Table.eq_of_mem_of_key h.works.stays hr₀ hrmem (hs₀.trans hrstay.symm)
  have hbatch : ∀ m ∈ batch, m.Of r₀.payload := fun m hm => hsame hrev.symm ▸ (render_mem hrender hm).of
  obtain ⟨hs, hv⟩ := h.reserved.payload r₀ hrmem
  have hrows : RowsOk gate.md5 c.works.queue jobs := h.rows.prepared (hrstay ▸ hr) hs hv hbatch hjobs
  exact h.alike hworks (.modify (fun _ => ⟨rfl, rfl, rfl⟩) rfl rfl) hrows h.prepares h.sends h.log h.posted

/-- What is handed out to be sent is current, and fits the payload it is handed out with. -/
theorem Ok.sent (h : Ok site fmt gate c) {jobs : List Job} {j : Job} {r : Reservation}
    (hrows : RowsOk gate.md5 c.works.queue jobs) (hj : j ∈ jobs) (hcurrent : (c.works.queue.current j).isSome = true)
    (hr : c.works.queue.reservation j.stay = some r) : Sent fmt gate c.website (j, r.payload) := by
  obtain ⟨r', hr', hrev⟩ := current_isSome.1 hcurrent
  obtain rfl : r = r' := Option.some.inj (hr.symm.trans hr')
  have hrmem := Table.mem_of_get hr
  have hrstay : r.stay = j.stay := Table.key_of_get hr
  obtain ⟨hs, hv⟩ := h.reserved.payload r hrmem
  obtain ⟨hnamed, r', hget, -, hfits⟩ := hrows.rows j hj
  obtain rfl : r = r' := Option.some.inj (hr.symm.trans hget)
  exact ⟨⟨hs.trans hrstay, hv.trans hrev⟩, fun hp => h.reserved.own r hrmem (hrstay.trans hp), hnamed,
    h.workGroup ▸ hfits hrev.symm⟩

theorem Ok.handed (h : Ok site fmt gate c) (scope : Scope) (worker : String) (skipped : List String) :
    Ok site fmt gate (c.handed worker (c.works.queue.nextWith gate.md5 scope worker skipped)) := by
  have hworks : Works.Ok gate (c.works.handed worker (c.works.queue.nextWith gate.md5 scope worker skipped)) :=
    h.works.handed scope skipped
  unfold Circuit.handed
  rcases nextWith_cases c.works.queue gate.md5 scope worker skipped with
    heq | ⟨jobs, hswept, heq | ⟨j, r, hj, hready, hr, heq⟩⟩
  · rw [heq] at hworks ⊢
    exact h.alike hworks (.of_eq rfl rfl) h.rows h.prepares (by simpa using h.sends)
      (by simpa [Works.handed] using h.log) (by simpa [Works.handed] using h.posted)
  · rw [heq] at hworks ⊢
    exact h.alike hworks (.of_eq rfl rfl) (h.rows.swept hswept) h.prepares (by simpa using h.sends)
      (by simpa [Works.handed] using h.log) (by simpa [Works.handed] using h.posted)
  · rw [heq] at hworks ⊢
    have hrows := h.rows.swept hswept
    have hsent := h.sent hrows hj (ready_spec hready).1 hr
    have hleased : RowsOk gate.md5 c.works.queue (Table.modify Job.jobKey jobs j.jobKey
        (Queue.leased c.works.queue.now worker)) := hrows.modify fun _ => rfl
    by_cases hp : j.state = .pending
    · simp only [hp, if_true] at hworks ⊢
      refine h.alike hworks (.of_eq rfl rfl) hleased h.prepares (fun e he => ?_) ?_ fun row hrow => ?_
      · rcases List.mem_append.1 he with he | he
        · exact h.sends e he
        · rw [List.mem_singleton.1 he]
          exact hsent
      · simp [Works.handed, h.log]
      · exact (h.posted row hrow).mono fun e he => List.mem_append_left _ he
    · simp only [hp, if_false] at hworks ⊢
      exact h.alike hworks (.of_eq rfl rfl) hleased h.prepares (by simpa using h.sends)
        (by simpa [Works.handed] using h.log) (by simpa [Works.handed] using h.posted)

/-- The gateway goes on; its rows are of jobs that were handed out. -/
theorem Ok.gateway (h : Ok site fmt gate c) {gw : Gateway H} (hsingle : Gateway.Single gate gw)
    (hposted : ∀ row ∈ gw.rows, Posted gate c.website c.sends row) :
    Ok site fmt gate (c.withWorks { c.works with gateway := gw }) :=
  h.alike ⟨h.works.jobs, h.works.stays, h.works.claims, h.works.once, hsingle⟩ (.of_eq rfl rfl) h.rows h.prepares h.sends
    h.log hposted

/-- A request for a job that was handed out adds its row at most. -/
theorem Ok.sendMessage [DecidableEq H] (h : Ok site fmt gate c) (he : e ∈ c.sends) {s : Stay F}
    {attempts : List MorningPaymentAttempt} {token : Option DeliveryToken}
    (hs : e.1.stay = c.website.stay.pk → s.pk = c.website.stay.pk) :
    Ok site fmt gate (c.withWorks { c.works with gateway := (c.works.gateway.sendMessage gate s attempts c.website.now token
      (some (messageOf e.1))).1 }) := by
  refine h.gateway h.works.gateway.sendMessage fun row hrow => ?_
  by_cases hp : (c.works.gateway.sendMessage gate s attempts c.website.now token (some (messageOf e.1))).2 = .posting
  · obtain ⟨revision, m, -, hm, -, -, heq⟩ := Gateway.sendMessage_posting.1 hp
    cases hm
    rw [heq] at hrow
    rcases List.mem_append.1 hrow with hrow | hrow
    · exact h.posted row hrow
    · rw [List.mem_singleton.1 hrow]
      exact ⟨e, he, rfl, rfl, hs⟩
  · rw [Gateway.sendMessage_state hp] at hrow
    exact h.posted row hrow

theorem Ok.post [DecidableEq H] (h : Ok site fmt gate c) (i : ℕ) : Ok site fmt gate (c.post gate i) := by
  unfold Circuit.post
  split
  · exact h
  rename_i e hi
  split
  · exact h.sendMessage (List.mem_of_getElem? hi) fun _ => rfl
  · exact h

theorem Ok.postOther [DecidableEq H] (h : Ok site fmt gate c) (i : ℕ) (s : Stay F)
    (attempts : List MorningPaymentAttempt) : Ok site fmt gate (c.postOther gate i s attempts) := by
  unfold Circuit.postOther
  split
  · exact h
  rename_i e hi
  split
  · exact h
  · rename_i hne
    exact h.sendMessage (List.mem_of_getElem? hi) fun hs => absurd hs hne

theorem Ok.call (h : Ok site fmt gate c) (i : ℕ) (send : UltraMsg.Send) :
    Ok site fmt gate (c.withWorks { c.works with gateway := c.works.gateway.call i send }) := by
  refine h.gateway h.works.gateway.call fun row hrow => h.posted row ?_
  unfold Gateway.call at hrow
  split at hrow <;> exact hrow

theorem Ok.record (h : Ok site fmt gate c) (i : ℕ) :
    Ok site fmt gate (c.withWorks { c.works with gateway := c.works.gateway.record i }) := by
  refine h.gateway h.works.gateway.record fun row hrow => ?_
  unfold Gateway.record at hrow
  split at hrow
  · obtain ⟨row₀, hrow₀, rfl⟩ := Table.mem_modify.1 hrow
    obtain ⟨e, he, href, hhash, hstay⟩ := h.posted row₀ hrow₀
    refine ⟨e, he, ?_⟩
    split <;> exact ⟨href, hhash, hstay⟩
  · exact h.posted row hrow

theorem Ok.result (h : Ok site fmt gate c) (key worker : String) (result : Queue.JobResult) :
    Ok site fmt gate (c.withWorks { c.works with queue := (c.works.queue.result key worker result).1 }) := by
  have hworks : Works.Ok gate { c.works with queue := (c.works.queue.result key worker result).1 } := h.works.result ..
  rcases result_cases c.works.queue key worker result with heq | ⟨j, -, -, -, heq⟩
  · rw [heq]
    exact h
  · rw [heq] at hworks ⊢
    exact h.alike hworks (.of_eq rfl rfl) (h.rows.modify fun _ => rfl) h.prepares h.sends h.log h.posted

theorem Ok.clock (h : Ok site fmt gate c) (now : Time) (enabled : Bool) :
    Ok site fmt gate (c.withWorks { c.works with queue := { c.works.queue with now := now, enabled := enabled } }) :=
  h.alike ⟨h.works.jobs.congr fun _ _ _ _ hc => hc, h.works.stays, h.works.claims, h.works.once, h.works.gateway⟩
    (.of_eq rfl rfl) h.rows h.prepares h.sends h.log h.posted

/-- A payload the website has answered is of its stay. -/
theorem snapshotOf_stay {a : EventAnswer F} {s : Snapshot} (h : snapshotOf fmt a = some s) :
    s.stay = a.event.values.stay ∧ s.revision = a.event.revision ∧ s.phone = a.event.values.facts.phone ∧
      s.endsAt = a.event.values.facts.endsAt ∧ s.deliveryToken = deliveryToken a.stay a.signedAt ∧
      bookingStatus a.event.values.facts.status = some s.status := by
  unfold snapshotOf at h
  split at h
  · rename_i hstatus _
    cases h
    exact ⟨rfl, rfl, rfl, rfl, rfl, hstatus⟩
  · cases h

variable [DecidableEq F] [DecidableEq H]

theorem Ok.step (h : Ok site fmt gate c) (a : CircuitAct F) : Ok site fmt gate (c.step site fmt fill gate a) := by
  cases a with
  | website a => exact h.websiteStep a
  | tick seconds => exact h.clock ..
  | enable enabled => exact h.clock ..
  | ingest i =>
    unfold Circuit.step
    dsimp only
    split
    · exact h
    · rename_i s hs
      obtain ⟨x, hx, heq⟩ := Option.bind_eq_some_iff.1 hs
      exact h.ingest s fun _ => ⟨x, List.mem_of_getElem? hx, heq⟩
  | ingestOther s =>
    unfold Circuit.step
    dsimp only
    split
    · exact h
    · rename_i hne
      exact h.ingest s fun hs => absurd hs hne
  | claimBooking worker apartments skipped => exact h.claimed ..
  | eventClaimBooking worker stay revision apartments skipped => exact h.claimed ..
  | prepare i => exact h.prepare i
  | next worker skipped => exact h.handed ..
  | eventNext worker stay revision skipped => exact h.handed ..
  | result key worker result => exact h.result ..
  | post i => exact h.post i
  | postOther i s attempts => exact h.postOther ..
  | call i send => exact h.call ..
  | record i => exact h.record i

/-! ### The answer of the gateway -/

omit [DecidableEq F] in
/-- A request is accepted if it is authorised, its job is valid and no other request has its reference. -/
theorem accepted_iff {gw : Gateway H} {s : Stay F} {attempts : List MorningPaymentAttempt} {now : Time}
    {token : DeliveryToken} {m : Message} (hrow : ∀ row ∈ gw.rows, row.referenceId = m.referenceId →
      row.stay = s.pk ∧ row.payloadHash = gate.payloadHash m) :
    (gw.sendMessage gate s attempts now (some token) (some m)).2.accepted = true ↔
      (authorize gate s attempts now true (some token)).isSome = true ∧ invalidJob gate s now m = false := by
  unfold Gateway.sendMessage
  cases authorize gate s attempts now true (some token) with
  | none => simp [Opening.accepted]
  | some revision =>
    cases hi : invalidJob gate s now m with
    | true => simp [Opening.accepted, hi]
    | false =>
      cases hget : Table.get DeliveryAttempt.referenceId gw.rows m.referenceId with
      | none => simp [Opening.accepted, hi, hget]
      | some row =>
        obtain ⟨hs, hh⟩ := hrow row (Table.mem_of_get hget) (Table.key_of_get hget)
        simp [Opening.accepted, hi, hget, hs, hh]

omit [DecidableEq F] [DecidableEq H] in
/-- Two jobs that were handed out with one reference are one. -/
theorem Ok.unique (h : Ok site fmt gate c) {e e' : Job × Snapshot} (he : e ∈ c.sends) (he' : e' ∈ c.sends)
    (href : e.1.referenceId = e'.1.referenceId) : e = e' := by
  have hrow : ∀ e ∈ c.sends, ∃ j ∈ c.works.queue.jobs, j.jobKey = e.1.jobKey ∧ j.referenceId = e.1.referenceId := by
    intro e he
    have hkey : e.1.jobKey ∈ c.sends.map (·.1.jobKey) := List.mem_map_of_mem (f := (·.1.jobKey)) he
    rw [h.log] at hkey
    obtain ⟨l, hl, hlk⟩ := List.mem_map.1 hkey
    obtain ⟨hl, hs⟩ := List.mem_filter.1 hl
    obtain ⟨j, hj, hjk, -⟩ := h.works.jobs.sent l hl hs
    have hk : j.jobKey = e.1.jobKey := hjk.trans hlk
    exact ⟨j, hj, hk, by rw [(h.rows.rows j hj).named.reference, (h.sends e he).named.reference, hk]⟩
  obtain ⟨j, hj, hk, hr⟩ := hrow e he
  obtain ⟨j', hj', hk', hr'⟩ := hrow e' he'
  have hjj : j = j' := Table.eq_of_mem_of_key h.rows.references hj hj' (hr.trans (href.trans hr'.symm))
  have hnd : (c.sends.map (·.1.jobKey)).Nodup := h.log ▸ h.works.once
  exact Table.eq_of_mem_of_key hnd he he' (hk.symm.trans ((congrArg Job.jobKey hjj).trans hk'))

/-- A job that `render` built was handed out for the revision the website still has, its payment is verified, its
eligibility has not ended and the stay as it was told is not over. -/
structure Due (c : Circuit F H) (e : Job × Snapshot) : Prop where
  sent : e ∈ c.sends
  stay : e.1.stay = c.website.stay.pk
  rendered : e.1.kind ≠ .attention
  revision : e.1.revision = c.website.stay.communicationRevision
  payment : verifiedPayment c.website.stay c.website.attempts = true
  eligible : e.1.eligible c.website.now
  inTime : c.website.now ≤ e.2.endsAt

omit [DecidableEq F] [DecidableEq H] in
/-- Where the token is not what matters, the job is authorised while its stay is told. -/
theorem Ok.authorised (h : Ok site fmt gate c) (hd : Due c e) :
    (authorize gate c.website.stay c.website.attempts c.website.now true (some e.2.deliveryToken)).isSome = true ↔
      told c.website.stay = true := by
  obtain ⟨a, ha, heq⟩ := (h.sends e hd.sent).own hd.stay
  obtain ⟨-, hrev, -, hend, htoken, -⟩ := snapshotOf_stay heq
  obtain ⟨hon, hpk, hin, -⟩ := h.answering.answers a ha
  have hcurrent : a.stay.communicationRevision = c.website.stay.communicationRevision := by
    rw [← (h.website.base.answers a ha).1, ← hrev, (h.sends e hd.sent).payload.2, hd.revision]
  have hage : ¬a.signedAt + tokenAge < c.website.now := by
    refine not_lt.2 ((hend ▸ hd.inTime).trans (le_trans hin (Nat.add_le_add_left ?_ _)))
    decide
  rw [htoken]
  simp only [authorize, deliveryToken, hon, hage, hpk, h.website.base.production, hd.payment, hcurrent]
  cases told c.website.stay <;> simp

omit [DecidableEq F] [DecidableEq H] in
/-- The checks of the job that do not look at the stay all pass. -/
theorem Ok.valid_iff (h : Ok site fmt gate c) (hd : Due c e) :
    invalidJob gate c.website.stay c.website.now (messageOf e.1) = false ↔
      e.1.recipient = expectedRecipient gate c.website.stay e.1.recipientKind ∧
        (e.1.kind.untilEnd = true → c.website.now < c.website.stay.endsAt) ∧
          (c.website.stay.status = .cancelled → e.1.kind.ofCancelled = true) := by
  obtain ⟨-, -, hnamed, hfits⟩ := h.sends e hd.sent
  obtain ⟨hlo, hhi⟩ := hfits.body hd.rendered
  obtain ⟨suffix, hkey⟩ := hnamed.key
  have hprefix : (jobPrefix c.website.stay.pk).toList.isPrefixOf e.1.jobKey.toList = true := by
    rw [hkey, hd.stay, String.toList_append, List.isPrefixOf_iff_prefix]
    exact List.prefix_append ..
  have href : e.1.referenceId = gate.reference e.1.jobKey := hnamed.reference
  simp only [invalidJob, messageOf, hlo, hhi, href, hprefix, hnamed.forGroup, decide_true, Bool.and_self, Bool.not_true,
    Bool.false_or, bne_self_eq_false, Bool.or_false, Bool.or_eq_false_iff, Bool.and_eq_false_iff, bne_eq_false_iff_eq,
    decide_eq_false_iff_not, not_le, beq_eq_false_iff_ne, Bool.not_eq_false']
  constructor
  · rintro ⟨⟨hrec, huntil⟩, hcancel⟩
    exact ⟨hrec, fun hu => huntil.resolve_left (by simp [hu]), fun hc => hcancel.resolve_left (not_not.2 hc)⟩
  · rintro ⟨hrec, huntil, hcancel⟩
    refine ⟨⟨hrec, ?_⟩, ?_⟩
    · cases hu : e.1.kind.untilEnd with
      | true => exact .inr (huntil hu)
      | false => exact .inl rfl
    · by_cases hc : c.website.stay.status = .cancelled
      · exact .inr (hcancel hc)
      · exact .inl hc

omit [DecidableEq F] in
/-- The gateway refuses what it was told to expect only if the stay is not told any more, or is over. -/
theorem Ok.accepted (h : Ok site fmt gate c) (hd : Due c e) :
    (c.posted gate e).2.accepted = true ↔ told c.website.stay = true ∧
      (ended c.website.stay c.website.now = false ∨ e.1.kind = .groupNotice) := by
  obtain ⟨hpayload, hown, hnamed, hfits⟩ := h.sends e hd.sent
  obtain ⟨a, ha, heq⟩ := hown hd.stay
  obtain ⟨-, hrev, hphone, -, -, hstatus⟩ := snapshotOf_stay heq
  have hcurrent : a.event.revision = c.website.stay.communicationRevision := by
    rw [← hrev, hpayload.2, hd.revision]
  have hrow : ∀ row ∈ c.works.gateway.rows, row.referenceId = (messageOf e.1).referenceId →
      row.stay = c.website.stay.pk ∧ row.payloadHash = gate.payloadHash (messageOf e.1) := by
    intro row hrow href
    obtain ⟨e', he', href', hhash, hstay⟩ := h.posted row hrow
    obtain rfl : e' = e := h.unique he' hd.sent (href'.symm.trans href)
    exact ⟨hstay hd.stay, hhash⟩
  rw [Circuit.posted, accepted_iff hrow, h.authorised hd, h.valid_iff hd]
  refine and_congr_right fun ht => ?_
  constructor
  · -- an ended stay is paid, and a cancellation was not the last it was told of
    rintro ⟨-, huntil, -⟩
    by_contra hno
    obtain ⟨hended, hgroup⟩ := not_or.1 hno
    simp only [ended, Bool.and_eq_false_iff, beq_eq_false_iff_ne, decide_eq_false_iff_not, not_or, not_not] at hended
    obtain ⟨hpaid, hover⟩ := hended
    have huntilEnd : e.1.kind.untilEnd = false := by
      cases hu : e.1.kind.untilEnd with
      | true => exact absurd hover (not_le.2 (huntil hu))
      | false => rfl
    have hkind : e.1.kind = .statusCancelled := by
      have hattention := hd.rendered
      revert huntilEnd hgroup hattention
      cases e.1.kind <;> simp [Kind.untilEnd]
    have hcancelled : e.2.status = .cancelled := by
      cases hs : e.2.status with
      | paid => exact absurd hkind (hfits.paid hs)
      | cancelled => rfl
    refine h.answering.not_cancelled ha hcurrent hpaid ?_
    rw [hcancelled] at hstatus
    revert hstatus
    cases a.event.values.facts.status <;> simp [bookingStatus]
  · rintro (hgoing | hgroup)
    · -- the payload tells the stay as it is
      have hfacts := h.answering.current h.website ha hcurrent ht hgoing
      have hsame : bookingStatus c.website.stay.status = some e.2.status := by
        rw [hfacts] at hstatus
        exact hstatus
      have hcancel : c.website.stay.status = .cancelled → e.1.kind.ofCancelled = true := by
        intro hc
        rw [hc] at hsame
        exact hfits.cancelled (Option.some.inj hsame).symm
      refine ⟨?_, fun hu => ?_, hcancel⟩
      · rw [hfits.recipient]
        cases e.1.recipientKind with
        | group => rfl
        | guest =>
          rw [recipientFor, expectedRecipient, hphone, hfacts]
          rfl
      · by_contra hover
        simp only [told, Bool.or_eq_true, beq_iff_eq] at ht
        rcases ht with hp | hc
        · simp [ended, hp, not_lt.1 hover] at hgoing
        · rw [not_untilEnd (hcancel hc)] at hu
          cases hu
    · have hrk : e.1.recipientKind = .group := by
        have hfor := hnamed.forGroup
        rw [hgroup] at hfor
        revert hfor
        cases e.1.recipientKind <;> simp [Kind.forGroup]
      refine ⟨by rw [hfits.recipient, hrk]; rfl, fun hu => ?_, fun _ => by rw [hgroup]; rfl⟩
      rw [hgroup] at hu
      cases hu

/-- In every run, the gateway accepts what was handed out for the revision the website still has, exactly if the stay is
still told and not over, or the job is the notice of the work group. -/
theorem handed_out_accepted_iff (h : Fresh site gate c) (as : List (CircuitAct F)) {e : Job × Snapshot}
    (hd : Due (run (step site fmt fill gate) c as) e) :
    ((run (step site fmt fill gate) c as).posted gate e).2.accepted = true ↔
      told (run (step site fmt fill gate) c as).website.stay = true ∧
        (ended (run (step site fmt fill gate) c as).website.stay (run (step site fmt fill gate) c as).website.now = false ∨
          e.1.kind = .groupNotice) :=
  (run_inv (I := Ok site fmt gate) (fun _ a hc => hc.step a) h.ok as).accepted hd

/-! ### A result page that is opened again -/

def secondAttempt : Uuid := ⟨"07000000-0000-4000-8000-000000000015", rfl⟩

def shortStay : Stay Values := { Bridge.openStay with guestName := "G" }

def openCircuit : Circuit Values Message where
  website := ⟨1000, fun _ => ⟨some 7, "L"⟩, shortStay, [], [], [], [], [], [], []⟩
  works := ⟨⟨true, "120363408128237629@g.us", 1000, [], []⟩, ⟨[], [], []⟩, [], []⟩
  preparers := []
  sends := []

def plainFormat : Format Values where
  hexdigest _ := String.ofList (List.replicate 64 'a')
  date _ _ := "2032-01-01"
  minutes _ t := t / 100
  managementUrl _ := "/"

def failedAnswer : Answer := ⟨{ answerDocument "800.100.151" with merchantTransactionId := .text "AM-1" }, false, false⟩

def secondAnswer : Answer := ⟨{ answerDocument "000.000.000" with merchantTransactionId := .text "AM-2" }, false, false⟩

/-- The first attempt fails, the second is paid, and the notice of the work group is handed out. -/
def paidSecond : List (CircuitAct Values) :=
  ([.claimCheckout Bridge.attemptPk "AM-1" true Bridge.firstEvent, .checkoutReply 0 (.valid "checkout-1"),
    .verify liveSettings Bridge.attemptPk, .verified 0 failedAnswer [] [] Bridge.firstEvent,
    .claimCheckout secondAttempt "AM-2" true Bridge.firstEvent, .checkoutReply 0 (.valid "checkout-2"),
    .verify liveSettings secondAttempt, .verified 0 secondAnswer [] [] Bridge.firstEvent,
    .read Bridge.firstEvent true, .checkAdmission 0, .payload 0] : List Action).map .website ++
  [.ingest 0, .eventClaimBooking "exec-1" Bridge.stayPk 1 [7] [], .prepare 0, .eventNext "exec-1" Bridge.stayPk 1 []]

/-- The result page of the first attempt is opened again. -/
def reopened : List (CircuitAct Values) :=
  paidSecond ++
    ([.verify liveSettings Bridge.attemptPk, .verified 0 failedAnswer [] [] Bridge.secondEvent] : List Action).map .website

def due (c : Circuit Values Message) (e : Job × Snapshot) : Bool :=
  e.1.stay == c.website.stay.pk && e.1.kind != .attention && e.1.revision == c.website.stay.communicationRevision &&
    verifiedPayment c.website.stay c.website.attempts && e.1.eligibleUntil.all (fun t => decide (c.website.now < t)) &&
    decide (c.website.now ≤ e.2.endsAt)

theorem due_spec {c : Circuit Values Message} (he : e ∈ c.sends) (h : due c e = true) : Due c e := by
  simp only [due, Bool.and_eq_true, beq_iff_eq, bne_iff_ne, decide_eq_true_eq, Option.all_eq_true] at h
  exact ⟨he, h.1.1.1.1.1, h.1.1.1.1.2, h.1.1.1.2, h.1.1.2, h.1.2, h.2⟩

theorem openCircuit_fresh : Fresh Bridge.plainSite Bridge.plainGate openCircuit := by
  have hwindow : (40000 : ℕ) ≤ 1000 + (14 * 86400 + 13 * 3600) := by decide
  exact ⟨rfl, by decide, hwindow, rfl, ⟨rfl, rfl, rfl⟩, ⟨rfl, rfl, rfl⟩, ⟨⟨rfl, rfl⟩, ⟨rfl, rfl⟩, ⟨rfl, rfl⟩⟩, rfl,
    ⟨rfl, rfl⟩, rfl⟩

/-- The circuit after a batch with the plain templates. -/
def put (c : Circuit Values Message) (p : Preparer) : Circuit Values Message :=
  c.withWorks
    { c.works with
      queue := (c.works.queue.put Bridge.plainGate.md5 p.booking.stay p.booking.revision p.worker
        (Desk.plainBatch p.booking p.previous p.claimedAt)).1 }

theorem prepare_put {c : Circuit Values Message} {i : ℕ} {p : Preparer} (hp : c.preparers[i]? = some p)
    (hready : (phoneValid p.booking.phone && decide (p.claimedAt < p.booking.endsAt) &&
      Desk.plainShort p.booking p.previous) = true) :
    c.prepare Desk.plainTemplates Bridge.plainGate i = c.put p := by
  simp only [Bool.and_eq_true, decide_eq_true_eq] at hready
  obtain ⟨hrender, hshort⟩ := Desk.render_plain hready.1.1 hready.1.2 hready.2
  simp only [Circuit.prepare, put, hp, hrender, Works.step, Queue.prepare_short hshort]

/-- The circuit when the paid stay has been claimed, and the execution that has claimed it. -/
def claimedCircuit : Circuit Values Message :=
  run (step Bridge.plainSite plainFormat Desk.plainTemplates Bridge.plainGate) openCircuit (paidSecond.take 13)

def paidPreparer : Preparer := claimedCircuit.preparers.head?.getD ⟨"", paidSnapshot, none, 0⟩

theorem prepare_paid :
    claimedCircuit.prepare Desk.plainTemplates Bridge.plainGate 0 = claimedCircuit.put paidPreparer :=
  prepare_put (by decide +kernel) (by decide +kernel)

/-- What follows the preparation. -/
theorem run_paidSecond (as : List (CircuitAct Values)) :
    run (step Bridge.plainSite plainFormat Desk.plainTemplates Bridge.plainGate) openCircuit (paidSecond ++ as) =
      run (step Bridge.plainSite plainFormat Desk.plainTemplates Bridge.plainGate) (claimedCircuit.put paidPreparer)
        (.eventNext "exec-1" Bridge.stayPk 1 [] :: as) := by
  have hacts : paidSecond ++ as =
      paidSecond.take 13 ++ (.prepare 0 :: (.eventNext "exec-1" Bridge.stayPk 1 [] :: as)) := rfl
  rw [hacts, run_append, run_cons, ← prepare_paid]
  rfl

/-- The notice is still due when the first attempt has been verified again, which has put the stay back to open. -/
theorem reopened_sends :
    (∃ e ∈ (run (step Bridge.plainSite plainFormat Desk.plainTemplates Bridge.plainGate) openCircuit paidSecond).sends,
      due (run (step Bridge.plainSite plainFormat Desk.plainTemplates Bridge.plainGate) openCircuit paidSecond) e = true ∧
        told (run (step Bridge.plainSite plainFormat Desk.plainTemplates Bridge.plainGate) openCircuit
          paidSecond).website.stay = true ∧ e.1.kind = .groupNotice) ∧
    ∃ e ∈ (run (step Bridge.plainSite plainFormat Desk.plainTemplates Bridge.plainGate) openCircuit reopened).sends,
      due (run (step Bridge.plainSite plainFormat Desk.plainTemplates Bridge.plainGate) openCircuit reopened) e = true ∧
        ((run (step Bridge.plainSite plainFormat Desk.plainTemplates Bridge.plainGate) openCircuit reopened).posted
          Bridge.plainGate e).2.accepted = false := by
  have hpaid := run_paidSecond []
  rw [List.append_nil] at hpaid
  rw [hpaid, reopened, run_paidSecond]
  decide +kernel

/-- What was handed out for a verified payment and the last revision is refused. -/
theorem reopened_refused :
    ¬∀ e, Due (run (step Bridge.plainSite plainFormat Desk.plainTemplates Bridge.plainGate) openCircuit reopened) e →
      ((run (step Bridge.plainSite plainFormat Desk.plainTemplates Bridge.plainGate) openCircuit reopened).posted
        Bridge.plainGate e).2.accepted = true := by
  intro hall
  obtain ⟨e, he, hdue, hrefused⟩ := reopened_sends.2
  rw [hall e (due_spec he hdue)] at hrefused
  cases hrefused

/-- Before that it is accepted. -/
theorem handed_out_accepted_paid :
    ∃ e, Due (run (step Bridge.plainSite plainFormat Desk.plainTemplates Bridge.plainGate) openCircuit paidSecond) e ∧
      ((run (step Bridge.plainSite plainFormat Desk.plainTemplates Bridge.plainGate) openCircuit paidSecond).posted
        Bridge.plainGate e).2.accepted = true := by
  obtain ⟨e, he, hdue, htold, hgroup⟩ := reopened_sends.1
  have hd := due_spec he hdue
  exact ⟨e, hd, (handed_out_accepted_iff openCircuit_fresh paidSecond hd).2 ⟨htold, .inr hgroup⟩⟩

end Circuit

end Apartments.Morning
