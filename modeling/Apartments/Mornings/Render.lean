import Apartments.Lib.Keys
import Apartments.Mornings.Queue

/-!
# Rendering the jobs of a booking (`render.cjs`)

`render` builds the batch that `lsa07_prepare` is given from the payload of a revision, the payload of the revision
before and the time of the claim; `none` is an exception. The rules and the guide are long-lived jobs: their keys name
what they tell and not the revision, and they are built only if that differs from the payload before.
-/

namespace Apartments.Morning

/-- The templates of `fill` with their fields filled in and the mark-up taken out; a template or field that is missing
raises. -/
abbrev Templates := Kind → Snapshot → Option String

/-! ### Texts -/

structure Labels where
  new : String
  modified : String
  cancelled : String
  checkout : String
  ref : String
  stop : String

def labels (language : String) : Labels :=
  if language = "en" then
    ⟨"Morning stay confirmed", "Morning stay updated", "Morning stay cancelled", "Morning stay check-out reminder",
      "Reference", "Check-out"⟩
  else if language = "fr" then
    ⟨"Séjour matinal confirmé", "Séjour matinal modifié", "Séjour matinal annulé", "Rappel du départ", "Référence",
      "Départ"⟩
  else
    ⟨"تأكيد الحجز الصباحي", "تعديل الحجز الصباحي", "إلغاء الحجز الصباحي", "تذكير بموعد الخروج", "المرجع", "موعد الخروج"⟩

/-- Minutes after midnight as `%H:%M`. -/
def clock (minutes : ℕ) : String :=
  let pad (n : ℕ) : String := if n < 10 then "0" ++ Nat.repr n else Nat.repr n
  pad (minutes / 60) ++ ":" ++ pad (minutes % 60)

def header (g : Snapshot) : String :=
  "\n".intercalate
    [g.guestName, g.listingName, g.arrivalDate, clock g.checkInTime ++ " → " ++ clock g.checkOutTime, g.timeZone]

/-- `short`. -/
def shortReference (g : Snapshot) : String := "AM-" ++ String.ofList (g.stay.str.toList.take 8)

def statusKind (g : Snapshot) (p : Option Snapshot) : Kind :=
  if g.status = .cancelled then .statusCancelled else if p.isSome then .statusModified else .statusNew

def statusLabel (g : Snapshot) (p : Option Snapshot) : String :=
  if g.status = .cancelled then (labels g.guestLanguage).cancelled
  else if p.isSome then (labels g.guestLanguage).modified
  else (labels g.guestLanguage).new

def statusBody (g : Snapshot) (p : Option Snapshot) : String :=
  "\n\n".intercalate
    [statusLabel g p, header g, (labels g.guestLanguage).ref ++ ": " ++ shortReference g,
      (labels g.guestLanguage).stop ++ ": " ++ clock g.checkOutTime]

def operational (g : Snapshot) (p : Option Snapshot) : String :=
  "\n".intercalate
    ["☀️ " ++ statusLabel g p, g.listingName, "الضيف: " ++ g.guestName, "الجوال: +" ++ digits g.phone,
      "الفترة: " ++ g.arrivalDate ++ " | " ++ clock g.checkInTime ++ " → " ++ clock g.checkOutTime ++ " | " ++ g.timeZone,
      "المرجع: " ++ shortReference g, "إدارة الحجز: " ++ g.managementUrl]

def reminderBody (g : Snapshot) : String :=
  (labels g.guestLanguage).checkout ++ "\n\n" ++ header g ++ "\n\n" ++ (labels g.guestLanguage).stop ++ ": " ++
    clock g.checkOutTime

/-! ### Keys -/

/-- The time as JavaScript has it, in milliseconds. -/
def millis (t : Time) : String := Nat.repr (1000 * t)

def statusSuffix (g : Snapshot) : String := "r" ++ Nat.repr g.revision ++ ":status"

def groupSuffix (g : Snapshot) : String := "r" ++ Nat.repr g.revision ++ ":group"

def rulesSuffix (g : Snapshot) : String := "rules:" ++ digits g.phone

def guideSuffix (g : Snapshot) : String :=
  "guide:" ++ Nat.repr g.listingMapId ++ ":" ++ millis g.startsAt ++ ":" ++ digits g.phone

def checkoutSuffix (g : Snapshot) : String :=
  "checkout:" ++ Nat.repr g.listingMapId ++ ":" ++ millis g.endsAt ++ ":" ++ digits g.phone

/-! ### The batch -/

/-- `add`. -/
def addJob (g : Snapshot) (kind : Kind) (body : String) (suffix : String) (sequence : ℤ) (recipient : RecipientKind)
    (due : Time) (stop : Option Time) : Option JobAsked :=
  if body = "" ∨ 4096 < UltraMsg.utf16Length body then none
  else some ⟨kind, body, jobPrefix g.stay ++ suffix, sequence, recipient, due, stop⟩

def newBooking (p : Option Snapshot) : Bool := p.isNone

def phoneChanged (g : Snapshot) (p : Option Snapshot) : Bool := (p.elim "" fun p => digits p.phone) != digits g.phone

/-- The house rules are to be told. -/
def wantsRules (g : Snapshot) (p : Option Snapshot) : Bool := newBooking p || phoneChanged g p

/-- The guide is to be told. -/
def wantsGuide (g : Snapshot) (p : Option Snapshot) : Bool :=
  newBooking p || phoneChanged g p || p.any fun p => p.listingMapId != g.listingMapId || p.startsAt != g.startsAt

/-- A job that is built only under a condition. -/
def optionally (c : Bool) (job : Option JobAsked) : Option (List JobAsked) := if c then job.map ([·]) else some []

def paidFor (g : Snapshot) : Bool := g.status == .paid

/-- `until`. -/
def eligibility (g : Snapshot) : Option Time := if g.status = .cancelled then none else some g.endsAt

def renderStatus (g : Snapshot) (p : Option Snapshot) (now : Time) : Option JobAsked :=
  addJob g (statusKind g p) (statusBody g p) (statusSuffix g) 1 .guest now (eligibility g)

def renderGroup (g : Snapshot) (p : Option Snapshot) (now : Time) : Option JobAsked :=
  addJob g .groupNotice (operational g p) (groupSuffix g) 0 .group now (eligibility g)

def renderRules (fill : Templates) (g : Snapshot) (p : Option Snapshot) (now : Time) : Option (List JobAsked) :=
  optionally (paidFor g && decide (now < g.endsAt) && wantsRules g p)
    ((fill .houseRules g).bind fun text => addJob g .houseRules text (rulesSuffix g) 2 .guest now (some g.endsAt))

def renderGuide (fill : Templates) (g : Snapshot) (p : Option Snapshot) (now : Time) : Option (List JobAsked) :=
  optionally (paidFor g && decide (now < g.endsAt) && wantsGuide g p)
    ((fill .checkinGuide g).bind fun text => addJob g .checkinGuide text (guideSuffix g) 3 .guest now (some g.endsAt))

def renderReminder (g : Snapshot) (now : Time) : Option (List JobAsked) :=
  optionally (paidFor g && decide (now + 3600 < g.endsAt))
    (addJob g .reminderCheckout (reminderBody g) (checkoutSuffix g) 4 .guest (g.endsAt - 3600) (some g.endsAt))

def render (fill : Templates) (g : Snapshot) (p : Option Snapshot) (now : Time) : Option (List JobAsked) :=
  if !phoneValid g.phone then none
  else if g.status = .paid ∧ g.endsAt ≤ now then some []
  else do
    let status ← renderStatus g p now
    let group ← renderGroup g p now
    let rules ← renderRules fill g p now
    let guide ← renderGuide fill g p now
    let reminder ← renderReminder g now
    some ([status, group] ++ rules ++ guide ++ reminder)

/-! ### What is in a batch -/

variable {fill : Templates} {g : Snapshot} {p : Option Snapshot} {now : Time} {jobs : List JobAsked} {m : JobAsked}

/-- The jobs of a batch one by one. -/
inductive Rendered (g : Snapshot) (p : Option Snapshot) (now : Time) (m : JobAsked) : Prop
  | status (h : renderStatus g p now = some m)
  | group (h : renderGroup g p now = some m)
  | rules (text : String) (hpaid : g.status = .paid) (hwants : wantsRules g p = true)
      (h : addJob g .houseRules text (rulesSuffix g) 2 .guest now (some g.endsAt) = some m)
  | guide (text : String) (hpaid : g.status = .paid) (hwants : wantsGuide g p = true)
      (h : addJob g .checkinGuide text (guideSuffix g) 3 .guest now (some g.endsAt) = some m)
  | reminder (hpaid : g.status = .paid) (hdue : now + 3600 < g.endsAt)
      (h : addJob g .reminderCheckout (reminderBody g) (checkoutSuffix g) 4 .guest (g.endsAt - 3600) (some g.endsAt) =
        some m)

theorem optionally_some {c : Bool} {job : Option JobAsked} (h : optionally c job = some jobs) (hm : m ∈ jobs) :
    c = true ∧ job = some m := by
  unfold optionally at h
  split_ifs at h with hc
  · obtain ⟨x, hx, rfl⟩ := Option.map_eq_some_iff.1 h
    rw [List.mem_singleton.1 hm]
    exact ⟨hc, hx⟩
  · cases h
    cases hm

theorem optionally_true {c : Bool} {job : Option JobAsked} (h : optionally c job = some jobs) (hc : c = true) :
    ∃ m, job = some m ∧ jobs = [m] := by
  rw [optionally, if_pos hc] at h
  obtain ⟨x, hx, rfl⟩ := Option.map_eq_some_iff.1 h
  exact ⟨x, hx, rfl⟩

theorem addJob_some {kind : Kind} {body suffix : String} {sequence : ℤ} {recipient : RecipientKind} {due : Time}
    {stop : Option Time} (h : addJob g kind body suffix sequence recipient due stop = some m) :
    m = ⟨kind, body, jobPrefix g.stay ++ suffix, sequence, recipient, due, stop⟩ := by
  unfold addJob at h
  split_ifs at h
  cases h
  rfl

/-- A batch that is not empty is the concatenation of its parts. -/
theorem render_parts (h : render fill g p now = some jobs) :
    (g.status = .paid ∧ g.endsAt ≤ now ∧ jobs = []) ∨
      ¬(g.status = .paid ∧ g.endsAt ≤ now) ∧ ∃ status group rules guide reminder, renderStatus g p now = some status ∧
        renderGroup g p now = some group ∧ renderRules fill g p now = some rules ∧
        renderGuide fill g p now = some guide ∧ renderReminder g now = some reminder ∧
        jobs = [status, group] ++ rules ++ guide ++ reminder := by
  unfold render at h
  split_ifs at h with _ hend
  · cases h
    exact .inl ⟨hend.1, hend.2, rfl⟩
  refine .inr ⟨hend, ?_⟩
  obtain ⟨status, hs, h⟩ := Option.bind_eq_some_iff.1 h
  obtain ⟨group, hg, h⟩ := Option.bind_eq_some_iff.1 h
  obtain ⟨rules, hr, h⟩ := Option.bind_eq_some_iff.1 h
  obtain ⟨guide, hu, h⟩ := Option.bind_eq_some_iff.1 h
  obtain ⟨reminder, hm, h⟩ := Option.bind_eq_some_iff.1 h
  cases h
  exact ⟨status, group, rules, guide, reminder, hs, hg, hr, hu, hm, rfl⟩

theorem render_mem (h : render fill g p now = some jobs) (hm : m ∈ jobs) : Rendered g p now m := by
  rcases render_parts h with ⟨-, -, rfl⟩ | ⟨-, status, group, rules, guide, reminder, hs, hg, hr, hu, hd, rfl⟩
  · cases hm
  simp only [List.mem_append, List.mem_cons, List.not_mem_nil, or_false] at hm
  rcases hm with (((rfl | rfl) | hm) | hm) | hm
  · exact .status hs
  · exact .group hg
  · obtain ⟨hc, hj⟩ := optionally_some hr hm
    obtain ⟨text, -, hj⟩ := Option.bind_eq_some_iff.1 hj
    simp only [paidFor, Bool.and_eq_true, beq_iff_eq] at hc
    exact .rules text hc.1.1 hc.2 hj
  · obtain ⟨hc, hj⟩ := optionally_some hu hm
    obtain ⟨text, -, hj⟩ := Option.bind_eq_some_iff.1 hj
    simp only [paidFor, Bool.and_eq_true, beq_iff_eq] at hc
    exact .guide text hc.1.1 hc.2 hj
  · obtain ⟨hc, hj⟩ := optionally_some hd hm
    simp only [paidFor, Bool.and_eq_true, beq_iff_eq, decide_eq_true_eq] at hc
    exact .reminder hc.1 hc.2 hj

/-- A paid booking that is not over is told its rules if they are wanted. -/
theorem render_rules (h : render fill g p now = some jobs) (hpaid : g.status = .paid) (hnow : now < g.endsAt)
    (hwants : wantsRules g p = true) :
    ∃ m ∈ jobs, m.jobKey = jobPrefix g.stay ++ rulesSuffix g ∧ m.kind = .houseRules := by
  rcases render_parts h with ⟨-, hend, -⟩ | ⟨-, status, group, rules, guide, reminder, -, -, hr, -, -, rfl⟩
  · exact absurd hend (not_le.2 hnow)
  obtain ⟨m, hj, rfl⟩ := optionally_true hr (by simp [paidFor, hpaid, hnow, hwants])
  obtain ⟨text, -, hj⟩ := Option.bind_eq_some_iff.1 hj
  refine ⟨m, by simp, ?_, ?_⟩ <;> rw [addJob_some hj]

theorem render_guide (h : render fill g p now = some jobs) (hpaid : g.status = .paid) (hnow : now < g.endsAt)
    (hwants : wantsGuide g p = true) :
    ∃ m ∈ jobs, m.jobKey = jobPrefix g.stay ++ guideSuffix g ∧ m.kind = .checkinGuide := by
  rcases render_parts h with ⟨-, hend, -⟩ | ⟨-, status, group, rules, guide, reminder, -, -, -, hu, -, rfl⟩
  · exact absurd hend (not_le.2 hnow)
  obtain ⟨m, hj, rfl⟩ := optionally_true hu (by simp [paidFor, hpaid, hnow, hwants])
  obtain ⟨text, -, hj⟩ := Option.bind_eq_some_iff.1 hj
  refine ⟨m, by simp, ?_, ?_⟩ <;> rw [addJob_some hj]

/-! ### What a key tells -/

/-- A key without its prefix. -/
def keySuffix (key : String) : List Char :=
  ((key.toList.dropWhile (· != ':')).tail.dropWhile (· != ':')).tail

/-- The stay of a key. -/
def keyStay (key : String) : List Char := (key.toList.dropWhile (· != ':')).tail.takeWhile (· != ':')

/-- The kind of a key that is not for one revision only. -/
def keyKind (key : String) : Option Kind :=
  match keySuffix key with
  | 'r' :: 'u' :: _ => some .houseRules
  | 'g' :: _ => some .checkinGuide
  | 'c' :: _ => some .reminderCheckout
  | _ => none

theorem split_key {a b : List Char} (ha : ':' ∉ a) :
    (a ++ ':' :: b).dropWhile (· != ':') = ':' :: b ∧ (a ++ ':' :: b).takeWhile (· != ':') = a := by
  have hall : ∀ c ∈ a, (c != ':') = true := fun c hc => by
    rw [bne_iff_ne]
    rintro rfl
    exact ha hc
  constructor
  · rw [List.dropWhile_append_of_pos hall]
    simp
  · rw [List.takeWhile_append_of_pos hall]
    simp

variable {stay : Uuid} {suffix : String}

theorem jobPrefix_toList : (jobPrefix stay ++ suffix).toList = "lsa07".toList ++ ':' :: (stay.str.toList ++ ':' :: suffix.toList) := by
  have hlsa : "lsa07:".toList = "lsa07".toList ++ [':'] := by decide
  have hcolon : ":".toList = [':'] := by decide
  simp [jobPrefix, String.toList_append, hlsa, hcolon]

theorem keySuffix_append : keySuffix (jobPrefix stay ++ suffix) = suffix.toList := by
  rw [keySuffix, jobPrefix_toList, (split_key (by decide)).1, List.tail_cons, (split_key stay.notMem_colon).1,
    List.tail_cons]

theorem keyStay_append : keyStay (jobPrefix stay ++ suffix) = stay.str.toList := by
  rw [keyStay, jobPrefix_toList, (split_key (by decide)).1, List.tail_cons, (split_key stay.notMem_colon).2]

/-- What follows a number is none of the letters that a long-lived key may begin with. -/
theorem repr_append (n : ℕ) (l : List Char) (hl : ':' ∈ l.head?) :
    ∃ c l', (Nat.repr n).toList ++ l = c :: l' ∧ c ∉ ['r', 'u', 'g', 'c'] := by
  cases h : (Nat.repr n).toList with
  | nil =>
    cases l with
    | nil => cases hl
    | cons c l =>
      obtain rfl : c = ':' := by simpa using hl
      exact ⟨':', l, rfl, by decide⟩
  | cons c l' =>
    refine ⟨c, l' ++ l, rfl, fun hc => ?_⟩
    have hmem : c ∈ (Nat.repr n).toList := by simp [h]
    simp only [List.mem_cons, List.not_mem_nil, or_false] at hc
    rcases hc with rfl | rfl | rfl | rfl <;> exact absurd hmem (Keys.notMem_repr (by decide) n)

theorem keyKind_revision (n : ℕ) {tail : String} (ht : ':' ∈ tail.toList.head?) :
    keyKind (jobPrefix stay ++ ("r" ++ Nat.repr n ++ tail)) = none := by
  obtain ⟨c, l, hl, hc⟩ := repr_append n tail.toList ht
  have hr : "r".toList = ['r'] := by decide
  rw [keyKind, keySuffix_append, String.toList_append, String.toList_append, hr, List.append_assoc, hl]
  simp only [List.mem_cons, List.not_mem_nil, or_false, not_or] at hc
  simp [hc.2.1]

theorem keyKind_attention (n : ℕ) : keyKind (Queue.attentionKey stay n) = none := by
  obtain ⟨c, l, hl, hc⟩ := repr_append n ":attention".toList (by decide)
  rw [Queue.attentionKey, String.append_assoc, keyKind, keySuffix_append, String.toList_append, hl]
  simp only [List.mem_cons, List.not_mem_nil, or_false, not_or] at hc
  simp [hc.1, hc.2.2.1, hc.2.2.2]

theorem keyKind_rules : keyKind (jobPrefix stay ++ rulesSuffix g) = some .houseRules := by
  have h : "rules:".toList = 'r' :: 'u' :: ['l', 'e', 's', ':'] := by decide
  rw [keyKind, keySuffix_append, rulesSuffix, String.toList_append, h]
  rfl

theorem keyKind_guide : keyKind (jobPrefix stay ++ guideSuffix g) = some .checkinGuide := by
  have h : "guide:".toList = 'g' :: ['u', 'i', 'd', 'e', ':'] := by decide
  simp only [keyKind, keySuffix_append, guideSuffix, String.toList_append, h, List.cons_append]

theorem keyKind_checkout : keyKind (jobPrefix stay ++ checkoutSuffix g) = some .reminderCheckout := by
  have h : "checkout:".toList = 'c' :: ['h', 'e', 'c', 'k', 'o', 'u', 't', ':'] := by decide
  simp only [keyKind, keySuffix_append, checkoutSuffix, String.toList_append, h, List.cons_append]

/-- The key of a job tells its stay, and its kind if it tells one. -/
structure KeyTells (key : String) (stay : Uuid) (kind : Kind) : Prop where
  stay : keyStay key = stay.str.toList
  kind : ∀ k, keyKind key = some k → kind = k

theorem KeyTells.of_none {kind : Kind} {key : String} (suffix : String) (hk : key = jobPrefix stay ++ suffix) (h : keyKind key = none) :
    KeyTells key stay kind :=
  ⟨hk ▸ keyStay_append, fun _ hk' => by rw [h] at hk'; cases hk'⟩

theorem KeyTells.of_some {kind : Kind} {key : String} (suffix : String) (hk : key = jobPrefix stay ++ suffix)
    (h : keyKind key = some kind) :
    KeyTells key stay kind :=
  ⟨hk ▸ keyStay_append, fun _ hk' => Option.some.inj (h.symm.trans hk')⟩

theorem Rendered.keyTells (h : Rendered g p now m) : KeyTells m.jobKey g.stay m.kind := by
  cases h with
  | status h =>
    rw [addJob_some h]
    exact .of_none _ rfl (keyKind_revision _ (by decide))
  | group h =>
    rw [addJob_some h]
    exact .of_none _ rfl (keyKind_revision _ (by decide))
  | rules text hpaid hwants h =>
    rw [addJob_some h]
    exact .of_some _ rfl keyKind_rules
  | guide text hpaid hwants h =>
    rw [addJob_some h]
    exact .of_some _ rfl keyKind_guide
  | reminder hpaid hdue h =>
    rw [addJob_some h]
    exact .of_some _ rfl keyKind_checkout

theorem attention_keyTells (n : ℕ) : KeyTells (Queue.attentionKey stay n) stay .attention := by
  refine .of_none (Nat.repr n ++ ":attention") ?_ (keyKind_attention n)
  rw [Queue.attentionKey, String.append_assoc]

/-! ### Batches of short bodies -/

/-- A text is no longer than its bytes. -/
theorem length_le_utf8ByteSize (s : String) : s.length ≤ s.utf8ByteSize ∧ UltraMsg.utf16Length s ≤ s.utf8ByteSize := by
  induction s using String.push_induction with
  | empty => decide
  | push s c ih =>
    have hc : 1 ≤ c.utf8Size ∧ (if c.toNat < 0x10000 then 1 else 2) ≤ c.utf8Size := by
      refine ⟨c.utf8Size_pos, ?_⟩
      have hval : c.val.toNat = c.toNat := rfl
      simp only [Char.utf8Size, UInt32.le_iff_toNat_le, hval, UInt32.toNat_ofNatLT]
      split_ifs <;> omega
    rw [String.length_push, String.utf8ByteSize_push, UltraMsg.utf16Length, String.toList_push, List.map_append,
      List.sum_append]
    simp only [UltraMsg.utf16Length] at ih
    simp only [List.map_cons, List.map_nil, List.sum_singleton]
    omega

/-- A text that every check of a body lets pass; it is decided without counting characters. -/
def short (body : String) : Bool := body != "" && decide (body.utf8ByteSize ≤ 4096)

section Short

variable {g : Snapshot} {p : Option Snapshot} {now : Time} {q : Queue} {md5 : String → String} {r : Reservation}
  {m : JobAsked} {batch : List JobAsked} {jobs : List Job} {c : Bool} {job : Option JobAsked}

theorem addJob_short {kind : Kind} {body suffix : String} {sequence : ℤ} {recipient : RecipientKind} {due : Time}
    {stop : Option Time} (h : short body = true) :
    addJob g kind body suffix sequence recipient due stop =
      some ⟨kind, body, jobPrefix g.stay ++ suffix, sequence, recipient, due, stop⟩ := by
  simp only [short, Bool.and_eq_true, bne_iff_ne, ne_eq, decide_eq_true_eq] at h
  have hle := (length_le_utf8ByteSize body).2
  exact if_neg (not_or.2 ⟨h.1, by omega⟩)

theorem refuses_short (h : short m.body = true) : q.refuses r m = q.refuses r { m with body := "-" } := by
  simp only [short, Bool.and_eq_true, bne_iff_ne, ne_eq, decide_eq_true_eq] at h
  have hle := (length_le_utf8ByteSize m.body).1
  have hne : m.body.length ≠ 0 := fun h0 => h.1 (String.length_eq_zero_iff.1 h0)
  have hbody : (decide (1 ≤ m.body.length) && decide (m.body.length ≤ 4096)) = true := by
    simp only [Bool.and_eq_true, decide_eq_true_eq]
    omega
  have hdash : (decide (1 ≤ "-".length) && decide ("-".length ≤ 4096)) = true := by decide
  simp only [Queue.refuses, hbody, hdash]

/-- `prepareJob` of a short body. -/
def Queue.putJob (q : Queue) (md5 : String → String) (r : Reservation) (jobs : List Job) (m : JobAsked) :
    Option (List Job) :=
  if q.refuses r { m with body := "-" } then none else Queue.insertJob jobs (q.newJob md5 r m) (q.revived r m)

/-- `prepare` of a batch of short bodies. -/
def Queue.put (q : Queue) (md5 : String → String) (stay : Uuid) (revision : ℕ) (worker : String)
    (batch : List JobAsked) : Queue × Bool :=
  match q.reservation stay with
  | none => (q, false)
  | some r =>
    if !q.prepares revision worker r ∨ 6 < batch.length then (q, false)
    else
      match batch.foldlM (q.putJob md5 r) q.jobs with
      | none => (q, false)
      | some jobs =>
        ({ q with jobs := jobs }.modifyReservation stay fun r =>
            { r with preparedRevision := revision, prepareOwner := none, prepareUntil := none }, true)

theorem Queue.prepare_short {stay : Uuid} {revision : ℕ} {worker : String} (h : ∀ m ∈ batch, short m.body = true) :
    q.prepare md5 stay revision worker batch = q.put md5 stay revision worker batch := by
  have hfold : ∀ r jobs, batch.foldlM (q.prepareJob md5 r) jobs = batch.foldlM (q.putJob md5 r) jobs := by
    intro r
    induction batch with
    | nil => exact fun jobs => rfl
    | cons m batch ih =>
      intro jobs
      have hone : q.prepareJob md5 r jobs m = q.putJob md5 r jobs m := by
        rw [prepareJob, putJob, refuses_short (h m (by simp))]
      rw [List.foldlM_cons, List.foldlM_cons, hone]
      exact bind_congr fun next => ih (fun m hm => h m (by simp [hm])) next
  unfold prepare put
  cases q.reservation stay with
  | none => rfl
  | some r =>
    dsimp only
    by_cases hc : (!q.prepares revision worker r) = true ∨ 6 < batch.length
    · rw [if_pos hc, if_pos hc]
    · rw [if_neg hc, if_neg hc]
      cases hput : batch.foldlM (q.putJob md5 r) q.jobs with
      | none => simp only [hfold, hput]
      | some jobs => simp only [hfold, hput]

theorem optionally_short (hc : c = true) (h : job = some m) : optionally c job = some [m] := by
  rw [optionally, if_pos hc, h]
  rfl

theorem optionally_eq_ite (h : job = some m) : optionally c job = some (if c then [m] else []) := by
  cases c with
  | true => exact optionally_short rfl h
  | false => rfl

theorem render_parts_of {fill : Templates} {status group : JobAsked} {rules guide reminder batch : List JobAsked}
    (hphone : phoneValid g.phone = true) (hend : now < g.endsAt) (hs : renderStatus g p now = some status)
    (hg : renderGroup g p now = some group) (hr : renderRules fill g p now = some rules)
    (hu : renderGuide fill g p now = some guide) (hc : renderReminder g now = some reminder)
    (hbatch : [status, group] ++ rules ++ guide ++ reminder = batch) : render fill g p now = some batch := by
  have hnot : ¬(g.status = .paid ∧ g.endsAt ≤ now) := fun h => absurd hend (not_lt.2 h.2)
  simp only [render, hphone, Bool.not_true, Bool.false_eq_true, if_false, if_neg hnot, hs, hg, hr, hu, hc, ← hbatch]
  rfl

end Short

end Apartments.Morning
