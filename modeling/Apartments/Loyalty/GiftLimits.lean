import Apartments.Loyalty.GiftsOnce
import Mathlib.Data.List.Count
import Mathlib.Data.List.Perm.Subperm

/-!
# How many invitations are sent, and where their links lead

The counters of a day are the requests of that day, and the code of a link belongs to one member for good.
-/

namespace Apartments.Gifts

open Loyalty (User Reply)

/-! ### Requests of a day -/

/-- The invitation of a receipt. -/
def Receipt.invitation (r : Receipt) : Option Invitation :=
  match r.entry with
  | .receipt _ (.invitation i) => some i
  | _ => none

/-- How many requests there are of which `q` holds. -/
def World.requests (w : World) (q : Pointer → Invitation → Bool) : ℕ :=
  w.receipts.countP fun r => r.invitation.any (q r.pointer)

/-- A request of the day by a member who is not exempt. -/
def isCounted (bucket : ℕ) (i : Invitation) : Bool := !i.unlimited && i.requestedAt / day == bucket

def ofDay (bucket : ℕ) (_ : Pointer) (i : Invitation) : Bool := isCounted bucket i

def bySender (pk bucket : ℕ) (p : Pointer) (i : Invitation) : Bool := isCounted bucket i && p.member == pk

def toPhone (phone : String) (bucket : ℕ) (_ : Pointer) (i : Invitation) : Bool := isCounted bucket i && i.phone == phone

/-- What the counter of a window stands at. -/
def used (limits : List Limit) (window : Window) : ℕ := ((Table.get Limit.window limits window).map (·.count)).getD 0

def senderWindow (pk bucket : ℕ) : Window := ⟨"gift-invite-sender", pk.repr, bucket⟩

def targetWindow (phone : String) (bucket : ℕ) : Window := ⟨"gift-invite-target", phone, bucket⟩

def siteWindow (bucket : ℕ) : Window := ⟨"gift-invite-global", "site", bucket⟩

/-- Every counter is the number of requests in its window, and none is passed. -/
structure Counted (w : World) : Prop where
  sender : ∀ pk bucket, used w.limits (senderWindow pk bucket) = w.requests (bySender pk bucket)
  target : ∀ phone bucket, used w.limits (targetWindow phone bucket) = w.requests (toPhone phone bucket)
  site : ∀ bucket, used w.limits (siteWindow bucket) = w.requests (ofDay bucket)
  senderFree : ∀ pk bucket, used w.limits (senderWindow pk bucket) ≤ 5
  targetFree : ∀ phone bucket, used w.limits (targetWindow phone bucket) ≤ 1
  siteFree : ∀ bucket, used w.limits (siteWindow bucket) ≤ 50

section
variable {phoneHash : String → String} {digest : Payload → String} {site : Site} {w w' : World} {a : Action} {p : Pointer}

@[simp] theorem senderWindow_eq {pk pk' bucket bucket' : ℕ} :
    senderWindow pk bucket = senderWindow pk' bucket' ↔ pk = pk' ∧ bucket = bucket' := by
  constructor
  · intro h
    obtain ⟨-, hpk, hbucket⟩ := Window.mk.inj h
    exact ⟨Nat.repr_injective hpk, hbucket⟩
  · rintro ⟨rfl, rfl⟩
    rfl

@[simp] theorem targetWindow_eq {phone phone' : String} {bucket bucket' : ℕ} :
    targetWindow phone bucket = targetWindow phone' bucket' ↔ phone = phone' ∧ bucket = bucket' := by
  simp [targetWindow]

@[simp] theorem siteWindow_eq {bucket bucket' : ℕ} : siteWindow bucket = siteWindow bucket' ↔ bucket = bucket' := by
  simp [siteWindow]

@[simp] theorem senderWindow_ne_target (pk : ℕ) (phone : String) (bucket bucket' : ℕ) :
    senderWindow pk bucket ≠ targetWindow phone bucket' := by
  simp [senderWindow, targetWindow]

@[simp] theorem senderWindow_ne_site (pk bucket bucket' : ℕ) : senderWindow pk bucket ≠ siteWindow bucket' := by
  simp [senderWindow, siteWindow]

@[simp] theorem targetWindow_ne_site (phone : String) (bucket bucket' : ℕ) : targetWindow phone bucket ≠ siteWindow bucket' := by
  simp [targetWindow, siteWindow]

theorem isCounted_same {i j : Invitation} (h : i.Same j) (bucket : ℕ) : isCounted bucket j = isCounted bucket i := by
  rw [isCounted, isCounted, h.unlimited, h.requestedAt]

theorem used_put (limits : List Limit) (window other : Window) (count : ℕ) :
    used (Table.put Limit.window limits ⟨window, count⟩) other = if other = window then count else used limits other := by
  by_cases h : other = window
  · have hget : Table.get Limit.window (Table.put Limit.window limits ⟨window, count⟩) window = some ⟨window, count⟩ :=
      Table.get_put_self
    rw [if_pos h, h, used, hget]
    rfl
  · have hget : Table.get Limit.window (Table.put Limit.window limits ⟨window, count⟩) other =
        Table.get Limit.window limits other := Table.get_put_ne h
    rw [if_neg h, used, hget, used]

/-- A use is counted, and is allowed while the window is not full. -/
theorem limit_spec {scope value : String} {maximum seconds : ℕ} {limits limits' : List Limit} {free : Bool}
    (h : limit site scope value maximum seconds limits = (limits', free)) :
    (∀ other, used limits' other = used limits other + if other = ⟨scope, value, site.now / seconds⟩ then 1 else 0) ∧
      (free = true ↔ used limits ⟨scope, value, site.now / seconds⟩ + 1 ≤ maximum) := by
  obtain ⟨rfl, rfl⟩ := Prod.mk.inj h
  refine ⟨fun other => (used_put limits ⟨scope, value, site.now / seconds⟩ other _).trans ?_, decide_eq_true_iff⟩
  split
  · rename_i hother
    rw [hother, used]
  · rw [add_zero]

/-- A request that is allowed is counted in its three windows, of which none was full. -/
theorem countRequest_spec (sender : Member) (phone : String) (limits : List Limit) :
    Outcome (countRequest site sender phone limits) (fun limits' =>
      (∀ window, used limits' window = used limits window +
        if window = senderWindow sender.pk (site.now / day) ∨ window = targetWindow phone (site.now / day) ∨
          window = siteWindow (site.now / day) then 1 else 0) ∧
      used limits (senderWindow sender.pk (site.now / day)) + 1 ≤ 5 ∧
      used limits (targetWindow phone (site.now / day)) + 1 ≤ 1 ∧
      used limits (siteWindow (site.now / day)) + 1 ≤ 50) fun _ => True := by
  unfold countRequest
  generalize hone : limit site "gift-invite-sender" sender.pk.repr 5 day limits = one
  obtain ⟨limits₁, free₁⟩ := one
  obtain ⟨hsender', hsender⟩ := limit_spec hone
  refine Outcome.guard trivial fun hfree₁ => ?_
  generalize htwo : limit site "gift-invite-target" phone 1 day limits₁ = two
  obtain ⟨limits₂, free₂⟩ := two
  obtain ⟨htarget', htarget⟩ := limit_spec htwo
  refine Outcome.guard trivial fun hfree₂ => ?_
  generalize hthree : limit site "gift-invite-global" "site" 50 day limits₂ = three
  obtain ⟨limits₃, free₃⟩ := three
  obtain ⟨hsite', hsite⟩ := limit_spec hthree
  refine Outcome.guard trivial fun hfree₃ => Outcome.of_pure ?_
  simp only [Bool.not_eq_false] at hfree₁ hfree₂ hfree₃
  have h₁ := hsender.1 hfree₁
  have h₂ := htarget.1 hfree₂
  have h₃ := hsite.1 hfree₃
  refine ⟨fun window => ?_, h₁, ?_, ?_⟩
  · rw [hsite', htarget', hsender']
    show used limits window + (if window = senderWindow sender.pk (site.now / day) then 1 else 0) +
      (if window = targetWindow phone (site.now / day) then 1 else 0) +
      (if window = siteWindow (site.now / day) then 1 else 0) = _
    -- the three windows have three scopes, so that no counter is raised twice
    by_cases hw₁ : window = senderWindow sender.pk (site.now / day)
    · subst hw₁
      simp
    · by_cases hw₂ : window = targetWindow phone (site.now / day)
      · subst hw₂
        simp [hw₁]
      · simp [hw₁, hw₂]
  · rw [hsender'] at h₂
    exact le_trans (Nat.add_le_add_right (Nat.le_add_right _ _) 1) h₂
  · rw [htarget', hsender'] at h₃
    exact le_trans (Nat.add_le_add_right (le_trans (Nat.le_add_right _ _) (Nat.le_add_right _ _)) 1) h₃

/-! ### Counting requests -/

/-- A request that changes is counted as before. -/
theorem requests_saveInvitation (hw : Sound w) {i i' : Invitation} (hi : w.invitation p = some i) {q : Pointer → Invitation → Bool}
    (hq : q p i' = q p i) : (w.saveInvitation p i').requests q = w.requests q := by
  obtain ⟨hash, hentry⟩ := invitation_eq_some.1 hi
  obtain ⟨r, hr, hentry⟩ := Option.map_eq_some_iff.1 hentry
  have hpointer : r.pointer = p := Table.key_of_get hr
  refine Table.countP_modify hw.receipts hr ?_
  simp only [hentry, Receipt.invitation, Option.any_some, hpointer]
  exact hq

/-- What takes the place of no request, and is none, changes no count. -/
theorem requests_putEntry (hw : Sound w) {e : Entry} (hp : w.invitation p = none)
    (he : (⟨p, e⟩ : Receipt).invitation = none) (q : Pointer → Invitation → Bool) : (w.putEntry p e).requests q = w.requests q := by
  cases hget : Table.get Receipt.pointer w.receipts p with
  | none =>
    have hput : (w.putEntry p e).receipts = w.receipts ++ [⟨p, e⟩] := Table.put_of_get_none hget
    rw [World.requests, World.requests, hput, List.countP_append, List.countP_singleton, he]
    rfl
  | some r =>
    have hput : (w.putEntry p e).receipts = Table.modify Receipt.pointer w.receipts p fun _ => ⟨p, e⟩ := by
      show Table.put Receipt.pointer w.receipts ⟨p, e⟩ = _
      rw [Table.put, hget]
    have hr : r.invitation = none := by
      cases hri : r.invitation with
      | none => rfl
      | some i =>
        have hi : w.invitation p = some i := by
          unfold Receipt.invitation at hri
          split at hri
          · rename_i hash j hentry
            cases hri
            exact invitation_eq_some.2 ⟨hash, by rw [World.entry, hget, Option.map_some, hentry]⟩
          · cases hri
        rw [hp] at hi
        cases hi
    rw [World.requests, hput]
    exact Table.countP_modify hw.receipts hget (by rw [he, hr, Option.any_none, Option.any_none])

/-- A new request is one more of its kind. -/
theorem requests_putEntry_new {hash : String} {i : Invitation} (hnew : w.entry p = none) (q : Pointer → Invitation → Bool) :
    (w.putEntry p (.receipt hash (.invitation i))).requests q = w.requests q + if q p i then 1 else 0 := by
  have hget : Table.get Receipt.pointer w.receipts p = none := Option.map_eq_none_iff.1 hnew
  have hput : (w.putEntry p (.receipt hash (.invitation i))).receipts =
      w.receipts ++ [⟨p, .receipt hash (.invitation i)⟩] := Table.put_of_get_none hget
  rw [World.requests, World.requests, hput, List.countP_append, List.countP_singleton]
  rfl

/-- What no step changes of a request decides how it is counted. -/
def Respects (q : Pointer → Invitation → Bool) : Prop := ∀ p i j, i.Same j → q p j = q p i

/-- No step but a request changes a count. -/
theorem Move.requests (h : Move phoneHash w a w') (hw : Sound w) :
    (w'.limits = w.limits ∧ ∀ q, Respects q → w'.requests q = w.requests q) ∨
      ∃ site sender p phone language, ∃ limits, p.member = sender.pk ∧ w'.limits = limits ∧
        (sender.exempt = true ∧ limits = w.limits ∨
          sender.exempt = false ∧ countRequest site sender phone w.limits = .ok limits) ∧
        ∀ q, w'.requests q = w.requests q + if q p (newInvitation site sender phone language) then 1 else 0 := by
  cases h with
  | @requested site q sender p phone language hash limits hsender hp hgift hnew hlimits =>
    exact .inr ⟨site, sender, p, phone, language, limits, hp, rfl, hlimits, fun q => requests_putEntry_new hnew q⟩
  | dropped failures hi hqueued hsame =>
    exact .inl ⟨rfl, fun q hq => requests_saveInvitation hw hi (hq _ _ _ hsame)⟩
  | claimed hsender hi hcleared hmessage hsame =>
    exact .inl ⟨rfl, fun q hq => requests_saveInvitation hw hi (hq _ _ _ hsame)⟩
  | recorded hc hstage hi hsending hsame =>
    exact .inl ⟨rfl, fun q hq => requests_saveInvitation hw hi (hq _ _ _ hsame)⟩
  | @commanded _ p hash reply f hnew hf =>
    refine .inl ⟨rfl, fun q _ => ?_⟩
    have hput : (w.putEntry p (.receipt hash (.answer reply))).requests q = w.requests q :=
      requests_putEntry hw (invitation_none hnew) rfl q
    exact hput
  | @issued _ m token receipts hm hnone hlength hnew hreceipts =>
    refine .inl ⟨rfl, fun q _ => ?_⟩
    rcases hreceipts with rfl | rfl
    · rfl
    · have hpilot : w.invitation ⟨m.pk, pilotKey⟩ = none := by
        cases hi : w.invitation ⟨m.pk, pilotKey⟩ with
        | none => rfl
        | some i => exact absurd (hw.gifts _ i hi) (not_gift_pilot m.pk)
      have hput : (w.putEntry ⟨m.pk, pilotKey⟩ .pilot).requests q = w.requests q := requests_putEntry hw hpilot rfl q
      exact hput
  | passed => exact .inl ⟨rfl, fun _ _ => rfl⟩
  | called => exact .inl ⟨rfl, fun _ _ => rfl⟩
  | unrecorded => exact .inl ⟨rfl, fun _ _ => rfl⟩
  | joined => exact .inl ⟨rfl, fun _ _ => rfl⟩
  | bound => exact .inl ⟨rfl, fun _ _ => rfl⟩

theorem respects_ofDay (bucket : ℕ) : Respects (ofDay bucket) := fun _ _ _ h => isCounted_same h bucket

theorem respects_bySender (pk bucket : ℕ) : Respects (bySender pk bucket) := fun p _ _ h => by
  rw [bySender, bySender, isCounted_same h]

theorem respects_toPhone (phone : String) (bucket : ℕ) : Respects (toPhone phone bucket) := fun _ _ _ h => by
  rw [toPhone, toPhone, isCounted_same h, h.phone]

theorem isCounted_new (sender : Member) (phone language : String) (bucket : ℕ) :
    isCounted bucket (newInvitation site sender phone language) = true ↔ sender.exempt = false ∧ site.now / day = bucket := by
  simp [isCounted, newInvitation]

/-- The counters and the requests go up together. -/
theorem Move.counted (h : Move phoneHash w a w') (hw : Sound w) (hc : Counted w) : Counted w' := by
  rcases h.requests hw with ⟨hlimits, hrequests⟩ | ⟨site, sender, p, phone, language, limits, hp, rfl, hcase, hrequests⟩
  · constructor <;> intros <;> rw [hlimits]
    · rw [hrequests _ (respects_bySender _ _)]
      exact hc.sender _ _
    · rw [hrequests _ (respects_toPhone _ _)]
      exact hc.target _ _
    · rw [hrequests _ (respects_ofDay _)]
      exact hc.site _
    · exact hc.senderFree _ _
    · exact hc.targetFree _ _
    · exact hc.siteFree _
  rcases hcase with ⟨hexempt, hlimits⟩ | ⟨hexempt, hcount⟩
  · -- the requests of the exempt member are not counted
    have hnone : ∀ bucket, isCounted bucket (newInvitation site sender phone language) = false := by
      intro bucket
      rw [Bool.eq_false_iff, Ne, isCounted_new, hexempt]
      simp
    constructor <;> intros <;> rw [hlimits]
    · rw [hrequests, bySender, hnone]
      exact hc.sender _ _
    · rw [hrequests, toPhone, hnone]
      exact hc.target _ _
    · rw [hrequests, ofDay, hnone]
      exact hc.site _
    · exact hc.senderFree _ _
    · exact hc.targetFree _ _
    · exact hc.siteFree _
  · obtain ⟨hused, hsender, htarget, hsite⟩ := (countRequest_spec sender phone w.limits).of_eq_ok hcount
    constructor
    · intro pk bucket
      rw [hused, hrequests, hc.sender]
      refine congrArg (w.requests (bySender pk bucket) + ·) (if_congr ?_ rfl rfl)
      rw [bySender, Bool.and_eq_true, isCounted_new, beq_iff_eq, hp]
      simp only [senderWindow_eq, senderWindow_ne_target, senderWindow_ne_site, or_false]
      exact ⟨fun h => ⟨⟨hexempt, h.2.symm⟩, h.1.symm⟩, fun h => ⟨h.2.symm, h.1.2.symm⟩⟩
    · intro phone' bucket
      rw [hused, hrequests, hc.target]
      refine congrArg (w.requests (toPhone phone' bucket) + ·) (if_congr ?_ rfl rfl)
      rw [toPhone, Bool.and_eq_true, isCounted_new, beq_iff_eq]
      simp only [(senderWindow_ne_target _ _ _ _).symm, targetWindow_eq, targetWindow_ne_site, or_false, false_or]
      exact ⟨fun h => ⟨⟨hexempt, h.2.symm⟩, h.1.symm⟩, fun h => ⟨h.2.symm, h.1.2.symm⟩⟩
    · intro bucket
      rw [hused, hrequests, hc.site]
      refine congrArg (w.requests (ofDay bucket) + ·) (if_congr ?_ rfl rfl)
      rw [ofDay, isCounted_new]
      simp only [(senderWindow_ne_site _ _ _).symm, (targetWindow_ne_site _ _ _).symm, siteWindow_eq, false_or]
      exact ⟨fun h => ⟨hexempt, h.symm⟩, fun h => h.2.symm⟩
    · intro pk bucket
      rw [hused]
      split
      · rename_i hwindow
        simp only [senderWindow_eq, senderWindow_ne_target, senderWindow_ne_site, or_false] at hwindow
        rw [hwindow.1, hwindow.2]
        exact hsender
      · exact hc.senderFree pk bucket
    · intro phone' bucket
      rw [hused]
      split
      · rename_i hwindow
        simp only [(senderWindow_ne_target _ _ _ _).symm, targetWindow_eq, targetWindow_ne_site, or_false, false_or] at hwindow
        rw [hwindow.1, hwindow.2]
        exact htarget
      · exact hc.targetFree phone' bucket
    · intro bucket
      rw [hused]
      split
      · rename_i hwindow
        simp only [(senderWindow_ne_site _ _ _).symm, (targetWindow_ne_site _ _ _).symm, siteWindow_eq, false_or] at hwindow
        rw [hwindow]
        exact hsite
      · exact hc.siteFree bucket

theorem World.Opened.counted (h : w.Opened) : Counted w := by
  have hused : ∀ window, used w.limits window = 0 := fun window => by rw [used, h.limits]; rfl
  have hrequests : ∀ q, w.requests q = 0 := fun q => by rw [World.requests, h.receipts]; rfl
  constructor <;> intros <;> simp [hused, hrequests]

end

/-- The messages of counted requests of the day to the phone. -/
def World.messagesTo (w : World) (phone : String) (bucket : ℕ) : ℕ :=
  w.posts.countP fun x => x.message.recipient == phone && (w.invitation x.pointer).any (isCounted bucket)

theorem Receipt.invitation_of_get {w : World} {p : Pointer} {i : Invitation} (h : w.invitation p = some i) :
    ∃ r ∈ w.receipts, r.pointer = p ∧ r.invitation = some i := by
  obtain ⟨hash, hentry⟩ := invitation_eq_some.1 h
  obtain ⟨r, hr, hentry⟩ := Option.map_eq_some_iff.1 hentry
  refine ⟨r, Table.mem_of_get hr, Table.key_of_get hr, ?_⟩
  rw [Receipt.invitation, hentry]

/-- The messages of a day are no more than its requests. -/
theorem messagesTo_le {w : World} (hw : Sound w) (hp : Posted w) (phone : String) (bucket : ℕ) :
    w.messagesTo phone bucket ≤ w.requests (toPhone phone bucket) := by
  rw [World.messagesTo, World.requests, List.countP_eq_length_filter, List.countP_eq_length_filter]
  set sent := w.posts.filter fun x => x.message.recipient == phone && (w.invitation x.pointer).any (isCounted bucket) with hsent
  set asked := w.receipts.filter fun r => r.invitation.any (toPhone phone bucket r.pointer) with hasked
  have hnodup : (sent.map Post.pointer).Nodup := hp.posts.sublist (List.filter_sublist.map _)
  have hsub : sent.map Post.pointer ⊆ asked.map Receipt.pointer := by
    intro p hpm
    obtain ⟨x, hx, rfl⟩ := List.mem_map.1 hpm
    rw [hsent, List.mem_filter, Bool.and_eq_true, beq_iff_eq] at hx
    obtain ⟨hx, hphone, hcounted⟩ := hx
    obtain ⟨c, hc, hpointer, hmessage, -⟩ := hp.called x hx
    obtain ⟨i, hi, hrecipient⟩ := hw.flown c hc
    rw [hpointer] at hi
    rw [hi, Option.any_some] at hcounted
    obtain ⟨r, hr, hrp, hri⟩ := Receipt.invitation_of_get hi
    refine List.mem_map.2 ⟨r, ?_, hrp⟩
    rw [hasked, List.mem_filter, hri, Option.any_some, toPhone, hcounted, Bool.true_and, beq_iff_eq]
    exact ⟨hr, by rw [← hrecipient, hmessage, hphone]⟩
  have hle := (List.subperm_of_subset hnodup hsub).length_le
  rwa [List.length_map, List.length_map] at hle

/-- Tokens are long, and no two members have the same. -/
structure Linked (w : World) : Prop where
  tokens : ∀ m ∈ w.members, ∀ t ∈ m.invitationToken, t.length = 43
  distinct : ∀ m ∈ w.members, ∀ o ∈ w.members, ∀ t, m.invitationToken = some t → o.invitationToken = some t → m.pk = o.pk

/-- The code is the token of the member, or its short form. -/
def Reserved (pk : ℕ) (code : String) (w : World) : Prop :=
  ∃ m ∈ w.members, m.pk = pk ∧ ∃ t, m.invitationToken = some t ∧
    (code = String.ofList (t.toList.take shortLength) ∨ code = t)

section
variable {phoneHash : String → String} {digest : Payload → String} {site : Site} {w w' : World} {a : Action} {pk : ℕ}
  {code t : String} {m : Member}

/-- A rewriting of members that keeps their tokens. -/
theorem Linked.modify {f : Member → Member} (hl : Linked w) (hf : ∀ m, (f m).pk = m.pk ∧ (f m).invitationToken = m.invitationToken) :
    Linked { w with members := Table.modify Member.pk w.members pk f } := by
  have hold : ∀ m' ∈ Table.modify Member.pk w.members pk f, ∃ m ∈ w.members, m'.pk = m.pk ∧
      m'.invitationToken = m.invitationToken := by
    intro m' hm'
    obtain ⟨m, hm, rfl⟩ := Table.mem_modify.1 hm'
    refine ⟨m, hm, ?_⟩
    split
    · exact hf m
    · exact ⟨rfl, rfl⟩
  refine ⟨fun m' hm' t ht => ?_, fun m' hm' o' ho' t ht ht' => ?_⟩
  · obtain ⟨m, hm, -, htoken⟩ := hold m' hm'
    exact hl.tokens m hm t (htoken ▸ ht)
  · obtain ⟨m, hm, hpk, htoken⟩ := hold m' hm'
    obtain ⟨o, ho, hpk', htoken'⟩ := hold o' ho'
    rw [hpk, hpk']
    exact hl.distinct m hm o ho t (htoken ▸ ht) (htoken' ▸ ht')

theorem Reserved.modify {f : Member → Member} (hr : Reserved pk code w) {n : ℕ}
    (hf : ∀ m ∈ w.members, m.pk = n → (f m).pk = m.pk ∧ ∀ t, m.invitationToken = some t → (f m).invitationToken = some t) :
    Reserved pk code { w with members := Table.modify Member.pk w.members n f } := by
  obtain ⟨m, hm, hpk, t, ht, hcode⟩ := hr
  by_cases hn : m.pk = n
  · refine ⟨f m, Table.mem_modify.2 ⟨m, hm, if_pos hn⟩, ((hf m hm hn).1).trans hpk, t, (hf m hm hn).2 t ht, hcode⟩
  · exact ⟨m, Table.mem_modify_of_ne hm hn, hpk, t, ht, hcode⟩

theorem hasToken_of_length (ht : m.invitationToken = some t) (hlength : t.length = 43) : m.hasToken = true := by
  have hne : t ≠ "" := by
    rintro rfl
    cases hlength
  simp [Member.hasToken, ht, hne]

theorem Move.linked (h : Move phoneHash w a w') (hl : Linked w) : Linked w' := by
  cases h with
  | passed => exact ⟨hl.tokens, hl.distinct⟩
  | requested => exact ⟨hl.tokens, hl.distinct⟩
  | dropped => exact ⟨hl.tokens, hl.distinct⟩
  | claimed => exact ⟨hl.tokens, hl.distinct⟩
  | called => exact ⟨hl.tokens, hl.distinct⟩
  | unrecorded => exact ⟨hl.tokens, hl.distinct⟩
  | recorded => exact ⟨hl.tokens, hl.distinct⟩
  | bound => exact ⟨hl.tokens, hl.distinct⟩
  | @commanded _ p hash reply f hnew hf =>
    have hmodified : Linked { w with members := Table.modify Member.pk w.members p.member f } := hl.modify hf
    exact ⟨hmodified.tokens, hmodified.distinct⟩
  | @issued _ m token receipts hm hnone hlength hnew hreceipts =>
    have hcases : ∀ m' ∈ Table.modify Member.pk w.members m.pk (fun x => { x with invitationToken := some token }),
        (m' ∈ w.members) ∨ (m'.pk = m.pk ∧ m'.invitationToken = some token) := by
      intro m' hm'
      obtain ⟨o, ho, rfl⟩ := Table.mem_modify.1 hm'
      split
      · rename_i hpk
        exact .inr ⟨hpk, rfl⟩
      · exact .inl ho
    refine ⟨fun m' hm' t ht => ?_, fun m' hm' o' ho' t ht ht' => ?_⟩
    · rcases hcases m' hm' with hold | ⟨-, htoken⟩
      · exact hl.tokens m' hold t ht
      · rw [htoken] at ht
        cases ht
        exact hlength
    · rcases hcases m' hm' with hold | ⟨hpk, htoken⟩ <;> rcases hcases o' ho' with hold' | ⟨hpk', htoken'⟩
      · exact hl.distinct m' hold o' hold' t ht ht'
      · rw [htoken'] at ht'
        cases ht'
        exact absurd ht (hnew m' hold)
      · rw [htoken] at ht
        cases ht
        exact absurd ht' (hnew o' hold')
      · rw [hpk, hpk']
  | @joined _ m hpk hnone =>
    refine ⟨fun m' hm' t ht => ?_, fun m' hm' o' ho' t ht ht' => ?_⟩
    · rcases List.mem_append.1 hm' with hm' | hm'
      · exact hl.tokens m' hm' t ht
      · rw [List.mem_singleton.1 hm', hnone] at ht
        cases ht
    · rcases List.mem_append.1 hm' with hm' | hm' <;> rcases List.mem_append.1 ho' with ho' | ho'
      · exact hl.distinct m' hm' o' ho' t ht ht'
      · rw [List.mem_singleton.1 ho', hnone] at ht'
        cases ht'
      · rw [List.mem_singleton.1 hm', hnone] at ht
        cases ht
      · rw [List.mem_singleton.1 hm', List.mem_singleton.1 ho']

/-- A member keeps the token that it has. -/
theorem Move.reserved (h : Move phoneHash w a w') (hw : Sound w) (hl : Linked w) (hr : Reserved pk code w) :
    Reserved pk code w' := by
  cases h with
  | passed => exact hr
  | requested => exact hr
  | dropped => exact hr
  | claimed => exact hr
  | called => exact hr
  | unrecorded => exact hr
  | recorded => exact hr
  | bound => exact hr
  | commanded hnew hf => exact hr.modify fun m _ _ => ⟨(hf m).1, fun t ht => (hf m).2.trans ht⟩
  | @issued _ m token receipts hm hnone hlength hnew hreceipts =>
    refine hr.modify fun o ho hpk => ⟨rfl, fun t ht => ?_⟩
    obtain rfl : o = m := Table.eq_of_mem_of_key hw.members ho (Table.mem_of_get hm) hpk
    rw [hasToken_of_length ht (hl.tokens o ho t ht)] at hnone
    cases hnone
  | joined =>
    obtain ⟨m, hm, hpk, t, ht, hcode⟩ := hr
    exact ⟨m, List.mem_append_left _ hm, hpk, t, ht, hcode⟩

theorem length_short (hlength : t.length = 43) : (String.ofList (t.toList.take shortLength)).length = shortLength := by
  rw [String.length_ofList, List.length_take, String.length_toList, hlength]
  rfl

theorem opens_of_reserved (ht : m.invitationToken = some t) (hlength : t.length = 43)
    (hcode : code = String.ofList (t.toList.take shortLength) ∨ code = t) : m.opens code = true := by
  rcases hcode with rfl | rfl
  · rw [Member.opens, if_pos (length_short hlength), Member.aliased, ht, Option.any_some, String.toList_ofList, beq_iff_eq,
      List.length_take, String.length_toList, hlength]
    rfl
  · rw [Member.opens, if_neg (by rw [hlength]; decide), ht, beq_self_eq_true]

/-- A code that belongs to a member opens the invitation of nobody else. -/
theorem shortlink_reserved (hl : Linked w) (hr : Reserved pk code w) (hm : shortlink site w code = some m) : m.pk = pk := by
  obtain ⟨o, ho, hpk, t, ht, hcode⟩ := hr
  have hopen : o ∈ w.members.filter (Member.opens code) :=
    List.mem_filter.2 ⟨ho, opens_of_reserved ht (hl.tokens o ho t ht) hcode⟩
  unfold shortlink at hm
  split at hm
  · cases hm
  · split at hm
    · rename_i x hmatching
      rw [hmatching] at hopen
      split at hm
      · cases hm
      · cases hm
        rw [← hpk, List.mem_singleton.1 hopen]
    · cases hm

theorem invitationCode_cases (w : World) (m : Member) (t : String) :
    invitationCode w m t = String.ofList (t.toList.take shortLength) ∨ invitationCode w m t = t := by
  unfold invitationCode
  dsimp only
  split
  · exact .inr rfl
  · exact .inl rfl

/-- The code of a link stands for its sender alone. -/
theorem filter_opens_invitationCode (hw : Sound w) (hl : Linked w) (hm : m ∈ w.members) (ht : m.invitationToken = some t) :
    w.members.filter (Member.opens (invitationCode w m t)) = [m] := by
  have hlength : t.length = 43 := hl.tokens m hm t ht
  have honly : ∀ o ∈ w.members, o.opens (invitationCode w m t) = decide (o.pk = m.pk) := by
    intro o ho
    rw [Bool.eq_iff_iff, decide_eq_true_iff]
    constructor
    · intro hopen
      unfold invitationCode at hopen
      dsimp only at hopen
      split at hopen
      · rw [Member.opens, if_neg (by rw [hlength]; decide), beq_iff_eq] at hopen
        exact hl.distinct o ho m hm t hopen ht
      · rename_i hfree
        rw [Member.opens, if_pos (length_short hlength)] at hopen
        by_contra hpk
        exact hfree (List.any_eq_true.2 ⟨o, ho, by simp [hpk, hopen]⟩)
    · intro hpk
      obtain rfl : o = m := Table.eq_of_mem_of_key hw.members ho hm hpk
      exact opens_of_reserved ht hlength (invitationCode_cases w o t)
  rw [List.filter_congr honly, Table.filter_eq_get hw.members m.pk, Table.get_eq_of_mem hw.members hm]
  rfl

theorem length_invitationCode (hlength : t.length = 43) :
    ¬ (invitationCode w m t).length < 16 ∧ ¬ 100 < (invitationCode w m t).length := by
  rcases invitationCode_cases w m t with hcode | hcode <;> rw [hcode]
  · rw [length_short hlength]
    decide
  · rw [hlength]
    decide

/-- While its sender is cleared to invite, the link of an invitation opens it. -/
theorem shortlink_invitationCode (hw : Sound w) (hl : Linked w) (hm : m ∈ w.members) (ht : m.invitationToken = some t)
    (henabled : isEnabled site m.customer = true) (hactive : m.active = true)
    (heligible : site.invitationEligible m = true) : shortlink site w (invitationCode w m t) = some m := by
  simp only [isEnabled, Bool.and_eq_true] at henabled
  obtain ⟨⟨⟨⟨⟨hon, hui⟩, -⟩, hguest⟩, hallowed⟩, -⟩ := henabled
  have hlength := length_invitationCode (w := w) (m := m) (hl.tokens m hm t ht)
  have hfilter := filter_opens_invitationCode hw hl hm ht
  unfold shortlink
  rw [if_neg (by simp [hon, hui, hlength.1, hlength.2])]
  rw [hfilter]
  exact if_neg (by simp [hactive, hguest, hallowed, heligible])

end

theorem World.Opened.linked {w : World} (h : w.Opened) : Linked w := ⟨h.tokens, h.distinct⟩

theorem url_of_composed {phoneHash : String → String} {site : Site} {w : World} {sender : Member} {p : Pointer}
    {i : Invitation} {language : String} {message : Message} {media : Option String}
    (h : composed site w phoneHash sender p i language = some (message, media)) :
    ∃ base, message.url = base ++ "/i/" ++ invitationCode w sender (sender.invitationToken.getD "") ++ "/" := by
  unfold composed at h
  split at h
  · cases h
  · rename_i base hbase
    refine ⟨base, ?_⟩
    dsimp only at h
    split at h
    · obtain ⟨image, -, himage⟩ := Option.map_eq_some_iff.1 h
      rw [← (Prod.mk.inj himage).1]
    · split at h
      · rw [← (Prod.mk.inj (Option.some.inj h)).1]
      · cases h

theorem reserved_invitationCode {w v : World} {m : Member} {t : String} (hm : m ∈ w.members) (ht : m.invitationToken = some t) :
    Reserved m.pk (invitationCode v m t) w := ⟨m, hm, rfl, t, ht, invitationCode_cases v m t⟩

/-- The message of a new worker has a link that opens the invitation of its sender, and is reserved for it. -/
theorem Move.link {phoneHash : String → String} {w w' : World} {a : Action} {c : Courier} (h : Move phoneHash w a w')
    (hw : Sound w') (hl : Linked w') (hc : c ∈ w'.couriers) (hnew : w.courier c.pointer = none) :
    ∃ n site base code sender, a = .claim n site ∧ c.message.url = base ++ "/i/" ++ code ++ "/" ∧
      sender.pk = c.pointer.member ∧ shortlink site w' code = some sender ∧ Reserved c.pointer.member code w' := by
  obtain ⟨n, site, sender, i, language, media, ha, hsender, hi, hcleared, hmessage, hmembers⟩ := h.claimed_of_new hc hnew
  obtain ⟨t, ht⟩ : ∃ t, sender.invitationToken = some t := by
    cases htoken : sender.invitationToken with
    | none =>
      have hnone := hcleared.token
      rw [Member.hasToken, htoken] at hnone
      cases hnone
    | some t => exact ⟨t, rfl⟩
  obtain ⟨base, hurl⟩ := url_of_composed hmessage
  rw [ht, Option.getD_some] at hurl
  have hmem : sender ∈ w'.members := hmembers ▸ Table.mem_of_get hsender
  have hpk : sender.pk = c.pointer.member := Table.key_of_get hsender
  have hcode : invitationCode w' sender t = invitationCode w sender t := by
    rw [invitationCode, invitationCode, hmembers]
  refine ⟨n, site, base, invitationCode w sender t, sender, ha, hurl, hpk, ?_, ?_⟩
  · rw [← hcode]
    exact shortlink_invitationCode hw hl hmem ht hcleared.enabled hcleared.active hcleared.eligible
  · rw [← hpk]
    exact reserved_invitationCode hmem ht

open Machine in
theorem run_linked {w : World} {phoneHash : String → String} {digest : Payload → String} (hw : Sound w) (hl : Linked w)
    (as : List Action) : Sound (run (step phoneHash digest) w as) ∧ Linked (run (step phoneHash digest) w as) :=
  run_inv (I := fun v => Sound v ∧ Linked v)
    (fun v a hv => ⟨(step_move v a).sound hv.1, (step_move v a).linked hv.2⟩) ⟨hw, hl⟩ as

open Machine in
/-- A code stays with its member. -/
theorem run_reserved {w : World} {phoneHash : String → String} {digest : Payload → String} {pk : ℕ} {code : String}
    (hw : Sound w) (hl : Linked w) (hr : Reserved pk code w) (as : List Action) :
    Reserved pk code (run (step phoneHash digest) w as) := by
  induction as generalizing w with
  | nil => exact hr
  | cons a as ih =>
    have hmove : Move phoneHash w a (step phoneHash digest w a) := step_move w a
    exact ih (hmove.sound hw) (hmove.linked hl) (hmove.reserved hw hl hr)

open Machine in
/-- The link in a message opens the invitation of its sender when a worker takes the request, and at any later time it opens
that of its sender or none. -/
theorem links_lead_to_sender {w : World} (h : w.Opened) (phoneHash : String → String) (digest : Payload → String)
    (as : List Action) (a : Action) (c : Courier) (hc : c ∈ (run (step phoneHash digest) w (as ++ [a])).couriers)
    (hnew : (run (step phoneHash digest) w as).courier c.pointer = none) :
    ∃ n site base code sender, a = .claim n site ∧ c.message.url = base ++ "/i/" ++ code ++ "/" ∧
      sender.pk = c.pointer.member ∧ shortlink site (run (step phoneHash digest) w (as ++ [a])) code = some sender ∧
      ∀ bs site' m, shortlink site' (run (step phoneHash digest) w (as ++ [a] ++ bs)) code = some m →
        m.pk = c.pointer.member := by
  have hrun : run (step phoneHash digest) w (as ++ [a]) = step phoneHash digest (run (step phoneHash digest) w as) a :=
    run_append
  have hmove : Move phoneHash (run (step phoneHash digest) w as) a (run (step phoneHash digest) w (as ++ [a])) :=
    hrun ▸ step_move _ a
  obtain ⟨hsound, hlinked⟩ := run_linked h.sound h.linked (as ++ [a])
  obtain ⟨n, site, base, code, sender, ha, hurl, hpk, hopens, hreserved⟩ := hmove.link hsound hlinked hc hnew
  refine ⟨n, site, base, code, sender, ha, hurl, hpk, hopens, fun bs site' m hm => ?_⟩
  rw [run_append] at hm
  have hlater : Linked (run (step phoneHash digest) (run (step phoneHash digest) w (as ++ [a])) bs) :=
    (run_linked hsound hlinked bs).2
  exact shortlink_reserved hlater (run_reserved hsound hlinked hreserved bs) hm

def giftCourier : Courier where
  pointer := giftPointer
  message := {
    recipient := "+12025550124"
    reference := "lsa-gift-2gift-invite:first"
    name := "Guest"
    language := "en"
    url := "https://luxurysmartapartments.com/i/abcdefghijklmnop/"
    image := some "digest-en" }
  stage := .claimed

theorem links_lead_to_sender_gift :
    ∃ code sender, shortlink giftSite (Machine.run (step id giftDigest) giftWorld (giftRun.take 3 ++ [.claim 0 giftSite]))
      code = some sender ∧ sender.pk = 2 := by
  have hc : giftCourier ∈
      (Machine.run (step id giftDigest) giftWorld (giftRun.take 3 ++ [.claim 0 giftSite])).couriers := by decide +kernel
  obtain ⟨n, site, base, code, sender, ha, -, hpk, hopens, -⟩ :=
    links_lead_to_sender giftWorld_opened id giftDigest (giftRun.take 3) (.claim 0 giftSite) giftCourier hc (by decide +kernel)
  cases ha
  exact ⟨code, sender, hopens, hpk⟩

end Apartments.Gifts
