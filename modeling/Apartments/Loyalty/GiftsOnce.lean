import Apartments.Loyalty.Gifts

/-!
# An invitation is sent at most once

`Move` says once what a step can do to the tables, and each invariant is a case analysis of it: a request has at most one
worker, a worker sends at most one message, and the status of a request agrees with how far its worker is.
-/

namespace Apartments.Gifts

open Loyalty (User Reply)

/-! ### Receipts -/

section
variable {w w' : World} {p p' : Pointer} {e : Entry} {i i' : Invitation} {hash : String}

theorem entry_congr (h : w'.receipts = w.receipts) (p : Pointer) : w'.entry p = w.entry p := by
  rw [World.entry, World.entry, h]

theorem invitation_congr (h : w'.receipts = w.receipts) (p : Pointer) : w'.invitation p = w.invitation p := by
  rw [World.invitation, World.invitation, entry_congr h]

theorem invitation_eq_some : w.invitation p = some i ↔ ∃ hash, w.entry p = some (.receipt hash (.invitation i)) := by
  unfold World.invitation
  constructor
  · intro h
    split at h
    · rename_i hash j hentry
      cases h
      exact ⟨hash, hentry⟩
    · cases h
  · rintro ⟨hash, h⟩
    rw [h]

theorem entry_putEntry_self : (w.putEntry p e).entry p = some e := by
  have hget : Table.get Receipt.pointer (w.putEntry p e).receipts p = some ⟨p, e⟩ := Table.get_put_self
  rw [World.entry, hget, Option.map_some]

theorem entry_putEntry_ne (h : p' ≠ p) : (w.putEntry p e).entry p' = w.entry p' := by
  have hget : Table.get Receipt.pointer (w.putEntry p e).receipts p' = Table.get Receipt.pointer w.receipts p' :=
    Table.get_put_ne h
  rw [World.entry, World.entry, hget]

theorem invitation_putEntry_ne (h : p' ≠ p) : (w.putEntry p e).invitation p' = w.invitation p' := by
  rw [World.invitation, World.invitation, entry_putEntry_ne h]

theorem entry_saveInvitation_self (h : w.entry p = some (.receipt hash (.invitation i))) :
    (w.saveInvitation p i').entry p = some (.receipt hash (.invitation i')) := by
  obtain ⟨r, hr, hentry⟩ := Option.map_eq_some_iff.1 h
  have hget : Table.get Receipt.pointer (w.saveInvitation p i').receipts p =
      (Table.get Receipt.pointer w.receipts p).map _ := Table.get_modify_self fun r hr => by
    split
    · exact hr
    · exact hr
  rw [World.entry, hget, hr, Option.map_some, Option.map_some, hentry]

theorem entry_saveInvitation_ne (h : p' ≠ p) : (w.saveInvitation p i').entry p' = w.entry p' := by
  have hget : Table.get Receipt.pointer (w.saveInvitation p i').receipts p' = Table.get Receipt.pointer w.receipts p' :=
    Table.get_modify_ne (fun r hr => by
      split
      · exact hr
      · exact hr) h
  rw [World.entry, World.entry, hget]

theorem invitation_saveInvitation_self (h : w.invitation p = some i) : (w.saveInvitation p i').invitation p = some i' := by
  obtain ⟨hash, h⟩ := invitation_eq_some.1 h
  exact invitation_eq_some.2 ⟨hash, entry_saveInvitation_self h⟩

theorem invitation_saveInvitation_ne (h : p' ≠ p) : (w.saveInvitation p i').invitation p' = w.invitation p' := by
  rw [World.invitation, World.invitation, entry_saveInvitation_ne h]

theorem pointers_saveInvitation (w : World) (p : Pointer) (i : Invitation) :
    (w.saveInvitation p i).receipts.map Receipt.pointer = w.receipts.map Receipt.pointer :=
  Table.map_key_modify fun r hr => by
    split
    · exact hr
    · exact hr

end

/-! ### What a step can do -/

/-- What a request is told of itself, whatever becomes of it. -/
structure Invitation.Same (i i' : Invitation) : Prop where
  phone : i'.phone = i.phone
  language : i'.language = i.language
  requestedAt : i'.requestedAt = i.requestedAt
  unlimited : i'.unlimited = i.unlimited

theorem Invitation.Same.refl (i : Invitation) : i.Same i := ⟨rfl, rfl, rfl, rfl⟩

theorem Invitation.Same.trans {i j k : Invitation} (h : i.Same j) (h' : j.Same k) : i.Same k :=
  ⟨h'.phone.trans h.phone, h'.language.trans h.language, h'.requestedAt.trans h.requestedAt, h'.unlimited.trans h.unlimited⟩

/-- No worker has taken the request, and none will. -/
def Status.Dropped (s : Status) : Prop := s = .queueFailed ∨ s = .disabled ∨ s = .recipientReady

/-- The request has been taken by a worker. -/
def Status.Taken (s : Status) : Prop := s = .sending ∨ s = .uncertain ∨ s = .accepted

/-- The request may be sent: its sender is a member in good standing who may invite, delivery is on, it is not late, and
no member holds the phone. -/
structure Cleared (site : Site) (w : World) (sender : Member) (i : Invitation) : Prop where
  queued : i.status = .queued
  enabled : isEnabled site sender.customer = true
  active : sender.active = true
  token : sender.hasToken = true
  eligible : site.invitationEligible sender = true
  ready : site.deliveryReady = true
  inTime : site.now ≤ i.requestedAt + lifetime
  unheld : recipientForPhone site w i.phone = none

/-- What a worker records of its delivery. -/
def Records (d : Delivery) (i' : Invitation) : Prop :=
  match d with
  | .answered _ => i'.status = .accepted
  | .lost _ => i'.status = .uncertain

/-- The keys of requests start with the marker. -/
def Pointer.isGift (p : Pointer) : Prop := p.key.toList.take marker.toList.length = marker.toList

inductive Move (phoneHash : String → String) (w : World) : Action → World → Prop
  | passed {a : Action} (commits tasks failures : List Pointer) :
      Move phoneHash w a { w with commits := commits, tasks := tasks, failures := failures }
  | requested {site : Site} {q : Request} {sender : Member} {p : Pointer} {phone language hash : String} {limits : List Limit}
      (hsender : sender ∈ w.members) (hp : p.member = sender.pk) (hgift : p.isGift) (hnew : w.entry p = none)
      (hlimits : sender.exempt = true ∧ limits = w.limits ∨
        sender.exempt = false ∧ countRequest site sender phone w.limits = .ok limits) :
      Move phoneHash w (.request site q)
        ({ w with limits := limits, commits := w.commits ++ [p] }.putEntry p
          (.receipt hash (.invitation (newInvitation site sender phone language))))
  | dropped {a : Action} {p : Pointer} {i i' : Invitation} (failures : List Pointer) (hi : w.invitation p = some i)
      (hqueued : i.status = .queued) (hsame : i.Same i') (hdropped : i'.status.Dropped) :
      Move phoneHash w a { w.saveInvitation p i' with failures := failures }
  | claimed {n : ℕ} {site : Site} {sender : Member} {p : Pointer} {i i' : Invitation} {language : String} {message : Message}
      {media : Option String} (hsender : w.member p.member = some sender) (hi : w.invitation p = some i)
      (hcleared : Cleared site w sender i)
      (hmessage : composed site w phoneHash sender p i language = some (message, media)) (hsame : i.Same i')
      (hsending : i'.status = .sending) :
      Move phoneHash w (.claim n site)
        { w.saveInvitation p i' with couriers := w.couriers ++ [⟨p, message, .claimed⟩] }
  | called {n : ℕ} {c : Courier} {d : Delivery} (hc : w.couriers[n]? = some c) (hstage : c.stage = .claimed) :
      Move phoneHash w (.call n d) { w with
        couriers := w.couriers.set n { c with stage := .called d }
        posts := if d.posted then w.posts ++ [⟨c.pointer, c.message⟩] else w.posts }
  | unrecorded {n : ℕ} {site : Site} {c : Courier} {d : Delivery} (hc : w.couriers[n]? = some c) (hstage : c.stage = .called d) :
      Move phoneHash w (.finish n site) { w with couriers := w.couriers.set n { c with stage := .finished d } }
  | recorded {n : ℕ} {site : Site} {c : Courier} {d : Delivery} {i i' : Invitation} (hc : w.couriers[n]? = some c)
      (hstage : c.stage = .called d) (hi : w.invitation c.pointer = some i) (hsending : i.status = .sending)
      (hsame : i.Same i') (hrecords : Records d i') :
      Move phoneHash w (.finish n site)
        { w.saveInvitation c.pointer i' with couriers := w.couriers.set n { c with stage := .finished d } }
  | commanded {a : Action} {p : Pointer} {hash : String} {reply : Reply} {f : Member → Member} (hnew : w.entry p = none)
      (hf : ∀ m, (f m).pk = m.pk ∧ (f m).invitationToken = m.invitationToken) :
      Move phoneHash w a
        ({ w with members := Table.modify Member.pk w.members p.member f }.putEntry p (.receipt hash (.answer reply)))
  | issued {a : Action} {m : Member} {token : String} {receipts : List Receipt} (hm : w.member m.pk = some m)
      (hnone : m.hasToken = false) (hlength : token.length = 43) (hnew : ∀ o ∈ w.members, o.invitationToken ≠ some token)
      (hreceipts : receipts = w.receipts ∨
        receipts = Table.put Receipt.pointer w.receipts ⟨⟨m.pk, pilotKey⟩, .pilot⟩) :
      Move phoneHash w a { w with
        receipts := receipts
        members := Table.modify Member.pk w.members m.pk fun x => { x with invitationToken := some token } }
  | joined {a : Action} {m : Member} (hpk : ∀ o ∈ w.members, o.pk ≠ m.pk) (hnone : m.invitationToken = none) :
      Move phoneHash w a { w with members := w.members ++ [m] }
  | bound {a : Action} (bindings : List Binding) : Move phoneHash w a { w with bindings := bindings }

section
variable {phoneHash : String → String} {digest : Payload → String} {site : Site} {w w' : World} {p : Pointer}

theorem Move.stays (w : World) (a : Action) : Move phoneHash w a w := .passed w.commits w.tasks w.failures

theorem queueInvitation_spec (q : Request) : Outcome (queueInvitation site w phoneHash digest q)
    (fun r => Move phoneHash w (.request site q) r.1) fun _ => True := by
  unfold queueInvitation
  refine Outcome.guard trivial fun _ => Outcome.lookup trivial fun phone _ => ?_
  generalize orElse (recipientLanguage site w phone) (supportedLanguage q.language) = language
  refine Outcome.guard trivial fun hkey => Outcome.bind (.any _) fun _ _ => ?_
  rw [not_or, not_or] at hkey
  have hread : Outcome (memberFor site w q.user) (fun m => m ∈ w.members) fun _ => True := by
    unfold memberFor
    refine Outcome.guard trivial fun _ => Outcome.guard trivial fun _ => ?_
    cases hm : w.members.find? fun m => m.customer == q.user && m.active with
    | none => trivial
    | some m => exact List.mem_of_find?_eq_some hm
  refine Outcome.bind hread fun sender hsender => Outcome.guard trivial fun _ => Outcome.guard trivial fun _ => ?_
  have hreceipt : Outcome (receipt w ⟨sender.pk, q.key⟩ (digest (.invitation (phoneHash phone) language)) fun w =>
      requestWork site w sender ⟨sender.pk, q.key⟩ phone language)
      (fun r => Move phoneHash w (.request site q) r.1) fun _ => True := by
    unfold receipt
    refine Outcome.guard trivial fun _ => ?_
    cases hentry : w.entry ⟨sender.pk, q.key⟩ with
    | some e =>
      cases e with
      | pilot => trivial
      | receipt old result => exact Outcome.guard trivial fun _ => Outcome.of_pure (.stays w _)
    | none =>
      have hgift : Pointer.isGift ⟨sender.pk, q.key⟩ := not_not.1 hkey.2.1
      have hwork : Outcome (requestWork site w sender ⟨sender.pk, q.key⟩ phone language) (fun r => ∃ limits,
          (sender.exempt = true ∧ limits = w.limits ∨
            sender.exempt = false ∧ countRequest site sender phone w.limits = .ok limits) ∧
          r = ({ w with limits := limits, commits := w.commits ++ [⟨sender.pk, q.key⟩] },
            .invitation (newInvitation site sender phone language))) fun _ => True := by
        unfold requestWork
        by_cases hexempt : sender.exempt = true
        · rw [if_pos hexempt]
          exact ⟨w.limits, .inl ⟨hexempt, rfl⟩, rfl⟩
        · rw [if_neg hexempt]
          cases hcount : countRequest site sender phone w.limits with
          | error e => trivial
          | ok limits => exact ⟨limits, .inr ⟨by simpa using hexempt, rfl⟩, rfl⟩
      refine Outcome.bind hwork fun r hr => ?_
      obtain ⟨limits, hlimits, rfl⟩ := hr
      exact Outcome.of_pure (.requested hsender rfl hgift hentry hlimits)
  exact Outcome.bind hreceipt fun r hr => Outcome.of_pure hr

/-- What a claim is cleared by, read off its checks. -/
theorem cleared_of {sender : Member} {i : Invitation} (hqueued : i.status = .queued) (hopen : ¬ isClosed site sender i = true)
    (hunheld : ¬ (recipientForPhone site w i.phone).isSome = true) : Cleared site w sender i := by
  simp only [isClosed, Bool.or_eq_true, Bool.not_eq_true', not_or, Bool.not_eq_false, isLate, decide_eq_true_eq,
    not_lt] at hopen
  obtain ⟨⟨⟨⟨⟨henabled, hactive⟩, htoken⟩, heligible⟩, hready⟩, hlate⟩ := hopen
  exact ⟨hqueued, henabled, hactive, htoken, heligible, hready, hlate, Option.not_isSome_iff_eq_none.1 hunheld⟩

theorem claim_spec (n : ℕ) : Outcome (claim site w phoneHash p) (Move phoneHash w (.claim n site)) fun _ => True := by
  unfold claim
  refine Outcome.bind (.any _) fun _ _ => Outcome.lookup trivial fun sender hsender => ?_
  cases hi : w.invitation p with
  | none => exact Outcome.of_pure (.stays w _)
  | some i =>
    refine Outcome.ite (fun _ => Outcome.of_pure (.stays w _)) fun hqueued => ?_
    rw [not_not] at hqueued
    refine Outcome.ite (fun _ => Outcome.of_pure ?_) fun hopen => Outcome.ite (fun _ => Outcome.of_pure ?_) fun hunheld => ?_
    · exact .dropped w.failures hi hqueued ⟨rfl, rfl, rfl, rfl⟩ (.inr (.inl rfl))
    · exact .dropped w.failures hi hqueued ⟨rfl, rfl, rfl, rfl⟩ (.inr (.inr rfl))
    · dsimp only
      generalize orElse (recipientLanguage site w i.phone) i.language = language
      cases hmessage : composed site w phoneHash sender p i language with
      | none => exact Outcome.of_pure (.dropped w.failures hi hqueued ⟨rfl, rfl, rfl, rfl⟩ (.inr (.inl rfl)))
      | some r =>
        exact Outcome.of_pure (.claimed hsender hi (cleared_of hqueued hopen hunheld) hmessage ⟨rfl, rfl, rfl, rfl⟩ rfl)

/-- What `_finish` leaves: the tables as they were, or the invitation with the new status. -/
theorem finish_spec (status expected : Status) (reference : String) :
    Outcome (finish site w p status expected reference) (fun w' => w' = w ∨ ∃ i i', w.invitation p = some i ∧
      i.status = expected ∧ i.Same i' ∧ i'.status = status ∧ w' = w.saveInvitation p i') fun _ => True := by
  unfold finish
  refine Outcome.bind (.any _) fun _ _ => Outcome.lookup trivial fun member _ => ?_
  cases hi : w.invitation p with
  | none => exact Outcome.of_pure (.inl rfl)
  | some i =>
    refine Outcome.ite (fun hexpected => Outcome.of_pure (.inr ?_)) fun _ => Outcome.of_pure (.inl rfl)
    refine ⟨i, { i with
      status := status
      updatedAt := some site.now
      providerReference := orElse reference i.providerReference }, rfl, hexpected, ?_, rfl, rfl⟩
    exact ⟨rfl, rfl, rfl, rfl⟩

theorem command_spec (payload : Loyalty.Payload) (reply : Reply) (closes : Bool) (a : Action) :
    Outcome (command digest w p payload reply closes) (Move phoneHash w a) fun _ => True := by
  unfold command
  refine Outcome.lookup trivial fun member _ => ?_
  have hreceipt : Outcome (receipt w p (digest (.command payload)) fun w => .ok ({ w with
      members := Table.modify Member.pk w.members p.member fun m => if closes then { m with active := false } else m },
      .answer reply)) (fun r => Move phoneHash w a r.1) fun _ => True := by
    unfold receipt
    refine Outcome.guard trivial fun _ => ?_
    cases hentry : w.entry p with
    | some e =>
      cases e with
      | pilot => trivial
      | receipt old result => exact Outcome.guard trivial fun _ => Outcome.of_pure (.stays w a)
    | none =>
      refine Outcome.of_pure (.commanded hentry fun m => ?_)
      split
      · exact ⟨rfl, rfl⟩
      · exact ⟨rfl, rfl⟩
  exact Outcome.bind hreceipt fun r hr => Outcome.of_pure hr

theorem issue_move (pk : ℕ) (token : String) (exception : Bool) (a : Action) :
    Move phoneHash w a (w.issue pk token exception) := by
  unfold World.issue
  cases hm : w.member pk with
  | none => exact .stays w a
  | some m =>
    dsimp only
    split
    · exact .stays w a
    · rename_i hfree
      rw [not_or, not_or, not_or] at hfree
      obtain ⟨-, hnone, hlength, hnew⟩ := hfree
      obtain rfl : m.pk = pk := Table.key_of_get hm
      have hdistinct : ∀ o ∈ w.members, o.invitationToken ≠ some token := by
        intro o ho htoken
        exact hnew (List.any_eq_true.2 ⟨o, ho, by simp [htoken]⟩)
      have hissued : ∀ receipts, receipts = w.receipts ∨
          receipts = Table.put Receipt.pointer w.receipts ⟨⟨m.pk, pilotKey⟩, .pilot⟩ → Move phoneHash w a { w with
            receipts := receipts
            members := Table.modify Member.pk w.members m.pk fun x => { x with invitationToken := some token } } :=
        fun receipts hreceipts => .issued hm (by simpa using hnone) (not_not.1 hlength) hdistinct hreceipts
      cases exception with
      | false => exact hissued _ (.inl rfl)
      | true => exact hissued _ (.inr rfl)

/-- A step is a move. -/
theorem step_move (w : World) (a : Action) : Move phoneHash w a (step phoneHash digest w a) := by
  cases a with
  | request site q =>
    have hop : Outcome (queueInvitation site w phoneHash digest q) (fun r => Move phoneHash w (.request site q) r.1)
        fun _ => True := queueInvitation_spec q
    simp only [step, World.commit]
    cases hq : queueInvitation site w phoneHash digest q with
    | ok r => exact hop.of_eq_ok hq
    | error e => exact .stays w _
  | dispatch i taken raised =>
    simp only [step]
    split
    · exact .stays w _
    · exact .passed _ _ _
  | fail i site =>
    simp only [step, World.commit]
    split
    · exact .stays w _
    · rename_i p hp
      have hop : Outcome (finish site w p .queueFailed .queued "") _ fun _ => True := finish_spec _ _ _
      cases hfinish : finish site w p .queueFailed .queued "" with
      | error e => exact .passed w.commits w.tasks _
      | ok w' =>
        rcases hop.of_eq_ok hfinish with rfl | ⟨i, i', hi, hqueued, hsame, hstatus, rfl⟩
        · exact .passed w'.commits w'.tasks _
        · exact .dropped _ hi hqueued hsame (.inl hstatus)
  | claim i site =>
    simp only [step, World.commit]
    split
    · exact .stays w _
    · rename_i p hp
      have hop : Outcome (claim site w phoneHash p) (Move phoneHash w (.claim i site)) fun _ => True := claim_spec i
      cases hclaim : claim site w phoneHash p with
      | ok w' => exact hop.of_eq_ok hclaim
      | error e => exact .stays w _
  | call i d =>
    simp only [step]
    split
    · exact .stays w _
    · rename_i c hc
      split
      · rename_i hstage
        exact .called hc hstage
      · exact .stays w _
  | finish i site =>
    simp only [step, World.commit]
    split
    · exact .stays w _
    · rename_i c hc
      split
      · rename_i d hstage
        have hrecord : Outcome (d.record site w c.pointer) (fun w' => w' = w ∨ ∃ i i', w.invitation c.pointer = some i ∧
            i.status = .sending ∧ i.Same i' ∧ Records d i' ∧ w' = w.saveInvitation c.pointer i') fun _ => True := by
          cases d with
          | answered reference => exact finish_spec _ _ _
          | lost posted => exact finish_spec _ _ _
        cases hfinish : d.record site w c.pointer with
        | error e => exact .unrecorded hc hstage
        | ok w' =>
          rcases hrecord.of_eq_ok hfinish with rfl | ⟨i, i', hi, hsending, hsame, hrecords, rfl⟩
          · exact .unrecorded hc hstage
          · exact .recorded hc hstage hi hsending hsame hrecords
      · exact .stays w _
  | command p payload reply closes =>
    have hop : Outcome (command digest w p payload reply closes) (Move phoneHash w (.command p payload reply closes))
        fun _ => True := command_spec payload reply closes _
    simp only [step, World.commit]
    cases hcommand : command digest w p payload reply closes with
    | ok w' => exact hop.of_eq_ok hcommand
    | error e => exact .stays w _
  | issue pk token exception => exact issue_move pk token exception _
  | join m =>
    simp only [step]
    split
    · exact .stays w _
    · rename_i hfree
      refine .joined (fun o ho hpk => hfree (List.any_eq_true.2 ⟨o, ho, ?_⟩)) rfl
      have hpk : o.pk = m.pk := hpk
      simp [hpk]
  | bind bindings => exact .bound bindings

end

/-! ### One worker for a request -/

/-- The worker of the request. -/
def World.courier (w : World) (p : Pointer) : Option Courier := Table.get Courier.pointer w.couriers p

/-- The status of a request and the worker that it has. -/
def Agrees (s : Status) (c : Option Courier) : Prop :=
  match s with
  | .queued | .queueFailed | .disabled | .recipientReady => c = none
  | .sending => c.isSome = true
  | .uncertain => ∃ x ∈ c, ∃ posted, x.stage = .finished (.lost posted)
  | .accepted => ∃ x ∈ c, ∃ reference, x.stage = .finished (.answered reference)

structure Sound (w : World) : Prop where
  receipts : (w.receipts.map Receipt.pointer).Nodup
  members : (w.members.map Member.pk).Nodup
  gifts : ∀ p i, w.invitation p = some i → p.isGift
  couriers : (w.couriers.map Courier.pointer).Nodup
  agrees : ∀ p i, w.invitation p = some i → Agrees i.status (w.courier p)
  flown : ∀ c ∈ w.couriers, ∃ i, w.invitation c.pointer = some i ∧ c.message.recipient = i.phone

section
variable {phoneHash : String → String} {digest : Payload → String} {w w' : World} {a : Action} {p : Pointer} {c : Courier}

theorem Agrees.of_dropped {s : Status} (hs : s.Dropped) : Agrees s none := by
  rcases hs with rfl | rfl | rfl <;> rfl

theorem Agrees.none_of {s : Status} {x : Option Courier} (h : Agrees s x) (hs : s.Dropped ∨ s = .queued) : x = none := by
  rcases hs with (rfl | rfl | rfl) | rfl <;> exact h

theorem Agrees.taken {s : Status} {x : Courier} (h : Agrees s (some x)) : s.Taken := by
  cases s with
  | queued => cases h
  | sending => exact .inl rfl
  | accepted => exact .inr (.inr rfl)
  | uncertain => exact .inr (.inl rfl)
  | queueFailed => cases h
  | disabled => cases h
  | recipientReady => cases h

/-- A worker that is not done has its request in the state of being sent. -/
theorem Agrees.sending {s : Status} {x : Courier} (h : Agrees s (some x)) (hx : ∀ d, x.stage ≠ .finished d) : s = .sending := by
  cases s with
  | sending => rfl
  | uncertain =>
    obtain ⟨y, hy, posted, hstage⟩ := h
    obtain rfl := Option.some.inj hy
    exact absurd hstage (hx _)
  | accepted =>
    obtain ⟨y, hy, reference, hstage⟩ := h
    obtain rfl := Option.some.inj hy
    exact absurd hstage (hx _)
  | queued => cases h
  | queueFailed => cases h
  | disabled => cases h
  | recipientReady => cases h

theorem Sound.courier_eq (hw : Sound w) {n : ℕ} (hc : w.couriers[n]? = some c) : w.courier c.pointer = some c :=
  Table.get_eq_of_mem hw.couriers (List.mem_of_getElem? hc)

/-- The workers after one of them has gone a stage further. -/
theorem Sound.courier_set (hw : Sound w) {n : ℕ} (hc : w.couriers[n]? = some c) (stage : Stage) (p : Pointer) :
    Table.get Courier.pointer (w.couriers.set n { c with stage := stage }) p =
      if p = c.pointer then some { c with stage := stage } else w.courier p := by
  rw [Table.set_eq_modify hw.couriers hc]
  by_cases hp : p = c.pointer
  · have hself : Table.get Courier.pointer (Table.modify Courier.pointer w.couriers c.pointer fun _ => { c with stage := stage })
        c.pointer = (w.courier c.pointer).map fun _ => { c with stage := stage } := Table.get_modify_self fun _ _ => rfl
    rw [if_pos hp, hp, hself, hw.courier_eq hc, Option.map_some]
  · have hother : Table.get Courier.pointer (Table.modify Courier.pointer w.couriers c.pointer fun _ => { c with stage := stage })
        p = w.courier p := Table.get_modify_ne (fun _ _ => rfl) hp
    rw [if_neg hp, hother]

/-- Tables with the same receipts and the same workers. -/
theorem Sound.congr (hw : Sound w) (hreceipts : w'.receipts = w.receipts) (hcouriers : w'.couriers = w.couriers)
    (hmembers : (w'.members.map Member.pk).Nodup) : Sound w' where
  receipts := by
    rw [hreceipts]
    exact hw.receipts
  members := hmembers
  gifts p i hi := hw.gifts p i ((invitation_congr hreceipts p).symm.trans hi)
  couriers := by
    rw [hcouriers]
    exact hw.couriers
  agrees p i hi := by
    rw [World.courier, hcouriers]
    exact hw.agrees p i ((invitation_congr hreceipts p).symm.trans hi)
  flown c hc := by
    rw [invitation_congr hreceipts]
    rw [hcouriers] at hc
    exact hw.flown c hc

/-- A worker stands for a request; a receipt that is no request has none. -/
theorem Sound.courier_none (hw : Sound w) (hp : w.invitation p = none) : w.courier p = none := by
  refine Table.get_eq_none.2 fun c hc hpointer => ?_
  obtain ⟨i, hi, -⟩ := hw.flown c hc
  rw [hpointer, hp] at hi
  cases hi

theorem invitation_none (h : w.entry p = none) : w.invitation p = none := by
  rw [World.invitation, h]

/-- An entry that takes the place of no request, and is none or is a new one. -/
theorem Sound.putEntry (hw : Sound w) {e : Entry} (hp : w.invitation p = none)
    (he : ∀ i, (w.putEntry p e).invitation p = some i → p.isGift ∧ i.status = .queued) : Sound (w.putEntry p e) where
  receipts := Table.nodup_put hw.receipts
  members := hw.members
  gifts p' i hi := by
    by_cases hpp : p' = p
    · subst hpp
      exact (he i hi).1
    · rw [invitation_putEntry_ne hpp] at hi
      exact hw.gifts p' i hi
  couriers := hw.couriers
  agrees p' i hi := by
    show Agrees i.status (w.courier p')
    by_cases hpp : p' = p
    · subst hpp
      rw [(he i hi).2, hw.courier_none hp]
      rfl
    · rw [invitation_putEntry_ne hpp] at hi
      exact hw.agrees p' i hi
  flown c hc := by
    obtain ⟨i, hi, hrecipient⟩ := hw.flown c hc
    have hne : c.pointer ≠ p := by
      rintro rfl
      rw [hp] at hi
      cases hi
    exact ⟨i, (invitation_putEntry_ne hne).trans hi, hrecipient⟩

/-- A request whose state and whose worker change together. -/
theorem Sound.save (hw : Sound w) {i i' : Invitation} {couriers : List Courier} {x : Option Courier}
    (hi : w.invitation p = some i) (hsame : i.Same i') (hagrees : Agrees i'.status x)
    (hnodup : (couriers.map Courier.pointer).Nodup)
    (hget : ∀ p', Table.get Courier.pointer couriers p' = if p' = p then x else w.courier p')
    (hmem : ∀ c ∈ couriers, (∃ c₀ ∈ w.couriers, c.pointer = c₀.pointer ∧ c.message = c₀.message) ∨
      c.pointer = p ∧ c.message.recipient = i.phone) :
    Sound { w.saveInvitation p i' with couriers := couriers } where
  receipts := by
    show ((w.saveInvitation p i').receipts.map Receipt.pointer).Nodup
    rw [pointers_saveInvitation]
    exact hw.receipts
  members := hw.members
  gifts p' j hj := by
    have hj : (w.saveInvitation p i').invitation p' = some j := hj
    by_cases hpp : p' = p
    · subst hpp
      exact hw.gifts p' i hi
    · rw [invitation_saveInvitation_ne hpp] at hj
      exact hw.gifts p' j hj
  couriers := hnodup
  agrees p' j hj := by
    have hj : (w.saveInvitation p i').invitation p' = some j := hj
    show Agrees j.status (Table.get Courier.pointer couriers p')
    rw [hget]
    by_cases hpp : p' = p
    · subst hpp
      rw [invitation_saveInvitation_self hi] at hj
      cases hj
      rw [if_pos rfl]
      exact hagrees
    · rw [invitation_saveInvitation_ne hpp] at hj
      rw [if_neg hpp]
      exact hw.agrees p' j hj
  flown c hc := by
    show ∃ j, (w.saveInvitation p i').invitation c.pointer = some j ∧ c.message.recipient = j.phone
    by_cases hpp : c.pointer = p
    · refine ⟨i', hpp ▸ invitation_saveInvitation_self (hpp ▸ hi), ?_⟩
      rw [hsame.phone]
      rcases hmem c hc with ⟨c₀, hc₀, hpointer, hmessage⟩ | ⟨-, hrecipient⟩
      · obtain ⟨j, hj, hrecipient⟩ := hw.flown c₀ hc₀
        rw [← hpointer, hpp, hi] at hj
        cases hj
        rw [hmessage, hrecipient]
      · exact hrecipient
    · rw [invitation_saveInvitation_ne hpp]
      rcases hmem c hc with ⟨c₀, hc₀, hpointer, hmessage⟩ | ⟨hp, -⟩
      · rw [hpointer, hmessage]
        exact hw.flown c₀ hc₀
      · exact absurd hp hpp

/-- The pointers and the messages of the workers stay when one of them goes on. -/
theorem couriers_set (hw : Sound w) {n : ℕ} (hc : w.couriers[n]? = some c) (stage : Stage) :
    ((w.couriers.set n { c with stage := stage }).map Courier.pointer).Nodup ∧
      ∀ x ∈ w.couriers.set n { c with stage := stage }, ∃ c₀ ∈ w.couriers, x.pointer = c₀.pointer ∧ x.message = c₀.message := by
  constructor
  · have hkeys : (w.couriers.set n { c with stage := stage }).map Courier.pointer = w.couriers.map Courier.pointer :=
      Table.map_key_set hc rfl
    rw [hkeys]
    exact hw.couriers
  · intro x hx
    rcases List.mem_or_eq_of_mem_set hx with hx | rfl
    · exact ⟨x, hx, rfl, rfl⟩
    · exact ⟨c, List.mem_of_getElem? hc, rfl, rfl⟩

theorem recipient_of_composed {site : Site} {sender : Member} {i : Invitation} {language : String} {message : Message}
    {media : Option String} (h : composed site w phoneHash sender p i language = some (message, media)) :
    message.recipient = i.phone := by
  unfold composed at h
  split at h
  · cases h
  · dsimp only at h
    split at h
    · obtain ⟨image, -, himage⟩ := Option.map_eq_some_iff.1 h
      rw [← (Prod.mk.inj himage).1]
    · split at h
      · rw [← (Prod.mk.inj (Option.some.inj h)).1]
      · cases h

theorem not_gift_pilot (pk : ℕ) : ¬ Pointer.isGift ⟨pk, pilotKey⟩ := by
  show pilotKey.toList.take marker.toList.length ≠ marker.toList
  decide

theorem pks_modify {f : Member → Member} {pk : ℕ} (hf : ∀ m, (f m).pk = m.pk) (hnd : (w.members.map Member.pk).Nodup) :
    ((Table.modify Member.pk w.members pk f).map Member.pk).Nodup := by
  rw [Table.map_key_modify fun m hm => (hf m).trans hm]
  exact hnd

/-- Every step keeps the tables sound. -/
theorem Move.sound (h : Move phoneHash w a w') (hw : Sound w) : Sound w' := by
  cases h with
  | passed commits tasks failures => exact hw.congr rfl rfl hw.members
  | @requested site q sender p phone language hash limits hsender hp hgift hnew hlimits =>
    have hbase : Sound { w with limits := limits, commits := w.commits ++ [p] } := hw.congr rfl rfl hw.members
    have hnone : ({ w with limits := limits, commits := w.commits ++ [p] } : World).invitation p = none :=
      invitation_none hnew
    refine hbase.putEntry hnone fun i hi => ⟨hgift, ?_⟩
    obtain ⟨hash', hentry⟩ := invitation_eq_some.1 hi
    rw [entry_putEntry_self] at hentry
    cases hentry
    rfl
  | @dropped _ p i i' failures hi hqueued hsame hdropped =>
    have hnone : w.courier p = none := (hw.agrees p i hi).none_of (.inr hqueued)
    have hsaved : Sound { w.saveInvitation p i' with couriers := w.couriers } := by
      refine hw.save hi hsame (Agrees.of_dropped hdropped) hw.couriers (fun p' => ?_) fun c hc => .inl ⟨c, hc, rfl, rfl⟩
      split
      · rename_i hp
        rw [hp]
        exact hnone
      · rfl
    exact hsaved.congr rfl rfl hsaved.members
  | @claimed n site sender p i i' language message media hsender hi hcleared hmessage hsame hsending =>
    have hnone : w.courier p = none := (hw.agrees p i hi).none_of (.inr hcleared.queued)
    refine hw.save hi hsame (x := some ⟨p, message, .claimed⟩) ?_ ?_ (fun p' => ?_) fun c hc => ?_
    · rw [hsending]
      rfl
    · rw [List.map_append, List.nodup_append]
      refine ⟨hw.couriers, List.nodup_singleton _, ?_⟩
      rintro k hk k' hk' rfl
      obtain ⟨c, hc, rfl⟩ := List.mem_map.1 hk
      exact Table.get_eq_none.1 hnone c hc (List.mem_singleton.1 hk')
    · rw [Table.get_append]
      by_cases hp : p' = p
      · have hget : Table.get Courier.pointer w.couriers p = none := hnone
        rw [if_pos hp, hp, hget, Option.none_or]
        simp [Table.get]
      · have hget : Table.get Courier.pointer [(⟨p, message, .claimed⟩ : Courier)] p' = none :=
          Table.get_eq_none.2 fun c hc hpointer => hp (by rw [← hpointer, List.mem_singleton.1 hc])
        rw [if_neg hp, hget, Option.or_none, World.courier]
    · rcases List.mem_append.1 hc with hc | hc
      · exact .inl ⟨c, hc, rfl, rfl⟩
      · rw [List.mem_singleton.1 hc]
        exact .inr ⟨rfl, recipient_of_composed hmessage⟩
  | @called n c d hc hstage =>
    obtain ⟨hnodup, hmem⟩ := couriers_set hw hc (.called d)
    refine ⟨hw.receipts, hw.members, hw.gifts, hnodup, fun p i hi => ?_, fun x hx => ?_⟩
    · show Agrees i.status (Table.get Courier.pointer (w.couriers.set n { c with stage := .called d }) p)
      have hi : w.invitation p = some i := hi
      have hold := hw.agrees p i hi
      rw [hw.courier_set hc]
      split
      · rename_i hp
        rw [hp, hw.courier_eq hc] at hold
        rw [hold.sending (by simp [hstage])]
        rfl
      · exact hold
    · obtain ⟨c₀, hc₀, hpointer, hmessage⟩ := hmem x hx
      rw [hpointer, hmessage]
      exact hw.flown c₀ hc₀
  | @unrecorded n site c d hc hstage =>
    obtain ⟨hnodup, hmem⟩ := couriers_set hw hc (.finished d)
    refine ⟨hw.receipts, hw.members, hw.gifts, hnodup, fun p i hi => ?_, fun x hx => ?_⟩
    · show Agrees i.status (Table.get Courier.pointer (w.couriers.set n { c with stage := .finished d }) p)
      have hi : w.invitation p = some i := hi
      have hold := hw.agrees p i hi
      rw [hw.courier_set hc]
      split
      · rename_i hp
        rw [hp, hw.courier_eq hc] at hold
        rw [hold.sending (by simp [hstage])]
        rfl
      · exact hold
    · obtain ⟨c₀, hc₀, hpointer, hmessage⟩ := hmem x hx
      rw [hpointer, hmessage]
      exact hw.flown c₀ hc₀
  | @recorded n site c d i i' hc hstage hi hsending hsame hrecords =>
    obtain ⟨hnodup, hmem⟩ := couriers_set hw hc (.finished d)
    refine hw.save hi hsame ?_ hnodup (hw.courier_set hc (.finished d)) fun x hx => .inl (hmem x hx)
    cases d with
    | answered reference =>
      have hstatus : i'.status = .accepted := hrecords
      rw [hstatus]
      exact ⟨_, rfl, reference, rfl⟩
    | lost posted =>
      have hstatus : i'.status = .uncertain := hrecords
      rw [hstatus]
      exact ⟨_, rfl, posted, rfl⟩
  | @commanded _ p hash reply f hnew hf =>
    have hbase : Sound { w with members := Table.modify Member.pk w.members p.member f } :=
      hw.congr rfl rfl (pks_modify (fun m => (hf m).1) hw.members)
    have hnone : ({ w with members := Table.modify Member.pk w.members p.member f } : World).invitation p = none :=
      invitation_none hnew
    refine hbase.putEntry hnone fun i hi => ?_
    obtain ⟨hash', hentry⟩ := invitation_eq_some.1 hi
    rw [entry_putEntry_self] at hentry
    cases hentry
  | @issued _ m token receipts hm hnone hlength hnew hreceipts =>
    have hpks : ((Table.modify Member.pk w.members m.pk fun x => { x with invitationToken := some token }).map
        Member.pk).Nodup := pks_modify (fun _ => rfl) hw.members
    rcases hreceipts with rfl | rfl
    · exact hw.congr rfl rfl hpks
    · have hpilot : w.invitation ⟨m.pk, pilotKey⟩ = none := by
        cases hi : w.invitation ⟨m.pk, pilotKey⟩ with
        | none => rfl
        | some i => exact absurd (hw.gifts _ i hi) (not_gift_pilot m.pk)
      have hput : Sound (w.putEntry ⟨m.pk, pilotKey⟩ .pilot) := hw.putEntry hpilot fun i hi => by
        obtain ⟨hash', hentry⟩ := invitation_eq_some.1 hi
        rw [entry_putEntry_self] at hentry
        cases hentry
      exact hput.congr rfl rfl hpks
  | @joined _ m hpk hnone =>
    refine hw.congr rfl rfl ?_
    rw [List.map_append, List.nodup_append]
    exact ⟨hw.members, List.nodup_singleton _, by simpa using hpk⟩
  | bound bindings => exact hw.congr rfl rfl hw.members

/-! ### One message for a worker -/

/-- The messages that have left are those of the workers that have called. -/
structure Posted (w : World) : Prop where
  posts : (w.posts.map Post.pointer).Nodup
  called : ∀ x ∈ w.posts, ∃ c ∈ w.couriers, c.pointer = x.pointer ∧ c.message = x.message ∧ c.stage ≠ .claimed
  left : ∀ c ∈ w.couriers, ∀ d, c.stage = .called d ∨ c.stage = .finished d → d.posted = true →
    (⟨c.pointer, c.message⟩ : Post) ∈ w.posts

/-- A worker that is put in the place of itself, at a later stage. -/
theorem mem_set_courier (hw : Sound w) {n : ℕ} (hc : w.couriers[n]? = some c) (stage : Stage) {x : Courier}
    (hx : x ∈ w.couriers) : x = c ∨ x ∈ w.couriers.set n { c with stage := stage } := by
  rw [Table.set_eq_modify hw.couriers hc]
  by_cases hp : x.pointer = c.pointer
  · exact .inl (Table.eq_of_mem_of_key hw.couriers hx (List.mem_of_getElem? hc) hp)
  · exact .inr (Table.mem_modify_of_ne hx hp)

theorem mem_set_self {n : ℕ} (hc : w.couriers[n]? = some c) (stage : Stage) :
    ({ c with stage := stage } : Courier) ∈ w.couriers.set n { c with stage := stage } := by
  obtain ⟨hn, -⟩ := List.getElem?_eq_some_iff.1 hc
  exact List.mem_set hn _

/-- A worker that is done records nothing that has left. -/
theorem Posted.finish (hp : Posted w) (hw : Sound w) {n : ℕ} {d : Delivery} (hc : w.couriers[n]? = some c)
    (hstage : c.stage = .called d) (receipts : List Receipt) :
    Posted { w with receipts := receipts, couriers := w.couriers.set n { c with stage := .finished d } } where
  posts := hp.posts
  called x hx := by
    obtain ⟨c₀, hc₀, hpointer, hmessage, hcalled⟩ := hp.called x hx
    rcases mem_set_courier hw hc (.finished d) hc₀ with rfl | hmem
    · exact ⟨_, mem_set_self hc (.finished d), hpointer, hmessage, nofun⟩
    · exact ⟨c₀, hmem, hpointer, hmessage, hcalled⟩
  left x hx d' hd' hposted := by
    rcases List.mem_or_eq_of_mem_set hx with hx | rfl
    · exact hp.left x hx d' hd' hposted
    · rcases hd' with hd' | hd'
      · cases hd'
      · cases hd'
        exact hp.left c (List.mem_of_getElem? hc) d (.inl hstage) hposted

theorem Move.posted (h : Move phoneHash w a w') (hw : Sound w) (hp : Posted w) : Posted w' := by
  cases h with
  | passed => exact ⟨hp.posts, hp.called, hp.left⟩
  | requested => exact ⟨hp.posts, hp.called, hp.left⟩
  | dropped => exact ⟨hp.posts, hp.called, hp.left⟩
  | @claimed n site sender p i i' language message media hsender hi hcleared hmessage hsame hsending =>
    refine ⟨hp.posts, fun x hx => ?_, fun x hx d hd hposted => ?_⟩
    · obtain ⟨c, hc, hcalled⟩ := hp.called x hx
      exact ⟨c, List.mem_append_left _ hc, hcalled⟩
    · rcases List.mem_append.1 hx with hx | hx
      · exact hp.left x hx d hd hposted
      · rw [List.mem_singleton.1 hx] at hd
        rcases hd with hd | hd <;> cases hd
  | @called n c d hc hstage =>
    have hcmem : c ∈ w.couriers := List.mem_of_getElem? hc
    have hold : ∀ x ∈ w.posts, x.pointer ≠ c.pointer := by
      intro x hx hpointer
      obtain ⟨c₀, hc₀, hpointer₀, -, hcalled⟩ := hp.called x hx
      obtain rfl := Table.eq_of_mem_of_key hw.couriers hc₀ hcmem (hpointer₀.trans hpointer)
      exact hcalled hstage
    have hlater : ∀ x ∈ w.posts, ∃ c₀ ∈ w.couriers.set n { c with stage := .called d }, c₀.pointer = x.pointer ∧
        c₀.message = x.message ∧ c₀.stage ≠ .claimed := by
      intro x hx
      obtain ⟨c₀, hc₀, hpointer, hmessage, hcalled⟩ := hp.called x hx
      rcases mem_set_courier hw hc (.called d) hc₀ with rfl | hmem
      · exact absurd hpointer.symm (hold x hx)
      · exact ⟨c₀, hmem, hpointer, hmessage, hcalled⟩
    have hleft : ∀ x ∈ w.couriers.set n { c with stage := .called d }, ∀ d', x.stage = .called d' ∨ x.stage = .finished d' →
        d'.posted = true → (⟨x.pointer, x.message⟩ : Post) ∈ w.posts ∨ (x.pointer, x.message, d') = (c.pointer, c.message, d) := by
      intro x hx d' hd' hposted
      rcases List.mem_or_eq_of_mem_set hx with hx | rfl
      · exact .inl (hp.left x hx d' hd' hposted)
      · rcases hd' with hd' | hd'
        · cases hd'
          exact .inr rfl
        · cases hd'
    cases hd : d.posted with
    | false =>
      refine ⟨hp.posts, hlater, fun x hx d' hd' hposted => ?_⟩
      rcases hleft x hx d' hd' hposted with hin | heq
      · exact hin
      · rw [(Prod.mk.inj (Prod.mk.inj heq).2).2, hd] at hposted
        cases hposted
    | true =>
      refine ⟨?_, fun x hx => ?_, fun x hx d' hd' hposted => ?_⟩
      · show ((w.posts ++ [(⟨c.pointer, c.message⟩ : Post)]).map Post.pointer).Nodup
        rw [List.map_append, List.nodup_append]
        refine ⟨hp.posts, List.nodup_singleton _, ?_⟩
        rintro k hk k' hk' rfl
        obtain ⟨x, hx, rfl⟩ := List.mem_map.1 hk
        exact hold x hx (List.mem_singleton.1 hk')
      · rcases List.mem_append.1 hx with hx | hx
        · exact hlater x hx
        · rw [List.mem_singleton.1 hx]
          exact ⟨_, mem_set_self hc (.called d), rfl, rfl, nofun⟩
      · refine List.mem_append.2 ?_
        rcases hleft x hx d' hd' hposted with hin | heq
        · exact .inl hin
        · refine .inr (List.mem_singleton.2 ?_)
          rw [(Prod.mk.inj heq).1, (Prod.mk.inj (Prod.mk.inj heq).2).1]
  | unrecorded hc hstage => exact hp.finish hw hc hstage w.receipts
  | recorded hc hstage => exact hp.finish hw hc hstage _
  | commanded => exact ⟨hp.posts, hp.called, hp.left⟩
  | issued => exact ⟨hp.posts, hp.called, hp.left⟩
  | joined => exact ⟨hp.posts, hp.called, hp.left⟩
  | bound => exact ⟨hp.posts, hp.called, hp.left⟩

/-- A new worker was cleared to send. -/
theorem Move.claimed_of_new (h : Move phoneHash w a w') (hc : c ∈ w'.couriers) (hnew : w.courier c.pointer = none) :
    ∃ n site sender i language media, a = .claim n site ∧ w.member c.pointer.member = some sender ∧
      w.invitation c.pointer = some i ∧ Cleared site w sender i ∧
      composed site w phoneHash sender c.pointer i language = some (c.message, media) ∧ w'.members = w.members := by
  have hold : ∀ {x : Courier}, x ∈ w.couriers → x.pointer ≠ c.pointer := fun hx => Table.get_eq_none.1 hnew _ hx
  have hset : ∀ {n : ℕ} {x : Courier} {stage : Stage}, w.couriers[n]? = some x →
      c ∉ w.couriers.set n { x with stage := stage } := by
    intro n x stage hx hmem
    rcases List.mem_or_eq_of_mem_set hmem with hmem | rfl
    · exact hold hmem rfl
    · exact hold (List.mem_of_getElem? hx) rfl
  cases h with
  | claimed hsender hi hcleared hmessage hsame hsending =>
    rcases List.mem_append.1 hc with hc | hc
    · exact absurd rfl (hold hc)
    · rw [List.mem_singleton.1 hc]
      exact ⟨_, _, _, _, _, _, rfl, hsender, hi, hcleared, hmessage, rfl⟩
  | called hx => exact absurd hc (hset hx)
  | unrecorded hx => exact absurd hc (hset hx)
  | recorded hx => exact absurd hc (hset hx)
  | passed => exact absurd rfl (hold hc)
  | requested => exact absurd rfl (hold hc)
  | dropped => exact absurd rfl (hold hc)
  | commanded => exact absurd rfl (hold hc)
  | issued => exact absurd rfl (hold hc)
  | joined => exact absurd rfl (hold hc)
  | bound => exact absurd rfl (hold hc)

/-- A request stays what it was, and one that was dropped stays dropped. -/
theorem Move.invitation (h : Move phoneHash w a w') (hw : Sound w) {i : Invitation} (hi : w.invitation p = some i) :
    ∃ i', w'.invitation p = some i' ∧ i.Same i' ∧ (i.status.Dropped → i' = i) := by
  have hsaved : ∀ {q : Pointer} {j j' : Invitation}, w.invitation q = some j → j.Same j' → ¬ j.status.Dropped →
      ∃ i', (w.saveInvitation q j').invitation p = some i' ∧ i.Same i' ∧ (i.status.Dropped → i' = i) := by
    intro q j j' hj hsame hkept
    by_cases hp : p = q
    · subst hp
      rw [hi] at hj
      cases hj
      exact ⟨j', invitation_saveInvitation_self hi, hsame, fun hdropped => absurd hdropped hkept⟩
    · exact ⟨i, (invitation_saveInvitation_ne hp).trans hi, .refl i, fun _ => rfl⟩
  have hput : ∀ {v : World} {q : Pointer} {e : Entry}, v.invitation p = some i → v.invitation q = none →
      ∃ i', (v.putEntry q e).invitation p = some i' ∧ i.Same i' ∧ (i.status.Dropped → i' = i) := by
    intro v q e hv hq
    have hp : p ≠ q := by
      rintro rfl
      rw [hv] at hq
      cases hq
    exact ⟨i, (invitation_putEntry_ne hp).trans hv, .refl i, fun _ => rfl⟩
  have hqueued : ∀ {s : Status}, s = .queued → ¬ s.Dropped := by
    rintro s rfl
    simp [Status.Dropped]
  have hsending : ∀ {s : Status}, s = .sending → ¬ s.Dropped := by
    rintro s rfl
    simp [Status.Dropped]
  cases h with
  | requested hsender hp hgift hnew => exact hput hi (invitation_none hnew)
  | dropped failures hj hstatus hsame => exact hsaved hj hsame (hqueued hstatus)
  | claimed hsender hj hcleared hmessage hsame => exact hsaved hj hsame (hqueued hcleared.queued)
  | recorded hc hstage hj hstatus hsame => exact hsaved hj hsame (hsending hstatus)
  | commanded hnew hf => exact hput hi (invitation_none hnew)
  | @issued _ m token receipts hm hnone hlength hnew hreceipts =>
    rcases hreceipts with rfl | rfl
    · exact ⟨i, hi, .refl i, fun _ => rfl⟩
    · have hp : p ≠ ⟨m.pk, pilotKey⟩ := by
        rintro rfl
        exact not_gift_pilot m.pk (hw.gifts _ i hi)
      have hkept : (w.putEntry ⟨m.pk, pilotKey⟩ .pilot).invitation p = some i := (invitation_putEntry_ne hp).trans hi
      exact ⟨i, hkept, .refl i, fun _ => rfl⟩
  | passed => exact ⟨i, hi, .refl i, fun _ => rfl⟩
  | called => exact ⟨i, hi, .refl i, fun _ => rfl⟩
  | unrecorded => exact ⟨i, hi, .refl i, fun _ => rfl⟩
  | joined => exact ⟨i, hi, .refl i, fun _ => rfl⟩
  | bound => exact ⟨i, hi, .refl i, fun _ => rfl⟩

/-! ### Runs -/

/-- Members with tokens of their own; nothing has been requested. -/
structure World.Opened (w : World) : Prop where
  members : (w.members.map Member.pk).Nodup
  tokens : ∀ m ∈ w.members, ∀ t ∈ m.invitationToken, t.length = 43
  distinct : ∀ m ∈ w.members, ∀ o ∈ w.members, ∀ t, m.invitationToken = some t → o.invitationToken = some t → m.pk = o.pk
  receipts : w.receipts = []
  limits : w.limits = []
  couriers : w.couriers = []
  posts : w.posts = []

theorem World.Opened.no_invitation (h : w.Opened) (p : Pointer) : w.invitation p = none := by
  have hentry : w.entry p = none := by
    rw [World.entry, h.receipts]
    rfl
  exact invitation_none hentry

theorem World.Opened.sound (h : w.Opened) : Sound w where
  receipts := by simp [h.receipts]
  members := h.members
  gifts p i hi := by simp [h.no_invitation p] at hi
  couriers := by simp [h.couriers]
  agrees p i hi := by simp [h.no_invitation p] at hi
  flown c hc := by simp [h.couriers] at hc

theorem World.Opened.posted (h : w.Opened) : Posted w where
  posts := by simp [h.posts]
  called x hx := by simp [h.posts] at hx
  left c hc := by simp [h.couriers] at hc

open Machine in
theorem World.Opened.run (h : w.Opened) (phoneHash : String → String) (digest : Payload → String) (as : List Action) :
    Sound (run (step phoneHash digest) w as) ∧ Posted (run (step phoneHash digest) w as) :=
  run_inv (I := fun v => Sound v ∧ Posted v)
    (fun _ a hv => ⟨(step_move _ a).sound hv.1, (step_move _ a).posted hv.1 hv.2⟩) ⟨h.sound, h.posted⟩ as

open Machine in
/-- A request that was dropped is dropped for good. -/
theorem Sound.run_dropped (hw : Sound w) {i : Invitation} (hi : w.invitation p = some i) (hdropped : i.status.Dropped)
    (as : List Action) : Sound (run (step phoneHash digest) w as) ∧
      (run (step phoneHash digest) w as).invitation p = some i := by
  have hstart : Sound w ∧ w.invitation p = some i := ⟨hw, hi⟩
  refine run_inv (I := fun v => Sound v ∧ v.invitation p = some i) (fun v a hv => ?_) hstart as
  have hmove : Move phoneHash v a (step phoneHash digest v a) := step_move v a
  obtain ⟨i', hi', -, hsame⟩ := hmove.invitation hv.1 hv.2
  exact ⟨hmove.sound hv.1, hsame hdropped ▸ hi'⟩

/-- A request that no worker has taken has no message. -/
theorem Posted.none_of (hp : Posted w) (hw : Sound w) {i : Invitation} (hi : w.invitation p = some i)
    (hs : i.status.Dropped ∨ i.status = .queued) : ∀ x ∈ w.posts, x.pointer ≠ p := by
  rintro x hx rfl
  obtain ⟨c, hc, hpointer, -⟩ := hp.called x hx
  exact Table.get_eq_none.1 ((hw.agrees _ i hi).none_of hs) c hc hpointer

end

open Machine in
/-- In every run, whatever the broker does and wherever workers stop: no two messages leave for one request, a message goes
to the phone of its request, and a worker takes a request only when it is cleared to be sent. -/
theorem invitations_sent_once {w : World} (h : w.Opened) (phoneHash : String → String) (digest : Payload → String)
    (as : List Action) :
    ((run (step phoneHash digest) w as).posts.map Post.pointer).Nodup ∧
      (∀ x ∈ (run (step phoneHash digest) w as).posts, ∃ i,
        (run (step phoneHash digest) w as).invitation x.pointer = some i ∧ x.message.recipient = i.phone ∧ i.status.Taken) ∧
      ∀ a, ∀ c ∈ (step phoneHash digest (run (step phoneHash digest) w as) a).couriers,
        (run (step phoneHash digest) w as).courier c.pointer = none → ∃ n site sender i, a = .claim n site ∧
          (run (step phoneHash digest) w as).member c.pointer.member = some sender ∧
          (run (step phoneHash digest) w as).invitation c.pointer = some i ∧
          Cleared site (run (step phoneHash digest) w as) sender i := by
  obtain ⟨hsound, hposted⟩ := h.run phoneHash digest as
  generalize run (step phoneHash digest) w as = v at hsound hposted ⊢
  refine ⟨hposted.posts, fun x hx => ?_, fun a c hc hnew => ?_⟩
  · obtain ⟨c, hc, hpointer, hmessage, -⟩ := hposted.called x hx
    obtain ⟨i, hi, hrecipient⟩ := hsound.flown c hc
    have hagrees := hsound.agrees c.pointer i hi
    have hcourier : v.courier c.pointer = some c := Table.get_eq_of_mem hsound.couriers hc
    rw [hcourier] at hagrees
    exact ⟨i, hpointer ▸ hi, hmessage ▸ hrecipient, hagrees.taken⟩
  · have hmove : Move phoneHash v a (step phoneHash digest v a) := step_move v a
    obtain ⟨n, site, sender, i, language, media, ha, hsender, hi, hcleared, -⟩ := hmove.claimed_of_new hc hnew
    exact ⟨n, site, sender, i, ha, hsender, hi, hcleared⟩

open Machine in
/-- What a guest is told is true: an accepted invitation was sent and answered, a queued one was not sent, and one that is
said to be dropped is never sent. Nobody is told of the requests of others. -/
theorem status_is_true {w : World} (h : w.Opened) (phoneHash : String → String) (digest : Payload → String)
    (as : List Action) (site : Site) (user : User) (p : Pointer) (ending : String) (status : Status)
    (hstatus : invitationStatus site (run (step phoneHash digest) w as) user p = some (ending, status)) :
    (∃ m ∈ (run (step phoneHash digest) w as).members, m.customer = user ∧ m.pk = p.member) ∧
      (status = .accepted → ∃ c ∈ (run (step phoneHash digest) w as).couriers, c.pointer = p ∧
        (∃ reference, c.stage = .finished (.answered reference)) ∧
        ⟨p, c.message⟩ ∈ (run (step phoneHash digest) w as).posts) ∧
      (status = .queued → ∀ x ∈ (run (step phoneHash digest) w as).posts, x.pointer ≠ p) ∧
      (status.Dropped → ∀ bs, ∀ x ∈ (run (step phoneHash digest) w (as ++ bs)).posts, x.pointer ≠ p) := by
  obtain ⟨hsound, hposted⟩ := h.run phoneHash digest as
  have hlater := fun bs => h.run phoneHash digest (as ++ bs)
  have hrun : ∀ bs, run (step phoneHash digest) w (as ++ bs) =
      run (step phoneHash digest) (run (step phoneHash digest) w as) bs := fun bs => run_append
  simp only [hrun] at hlater ⊢
  generalize run (step phoneHash digest) w as = v at hsound hposted hlater hstatus ⊢
  unfold invitationStatus at hstatus
  split at hstatus
  · cases hstatus
  rename_i m hm
  have hcustomer : m.customer = user := by simpa using List.find?_some hm
  split at hstatus
  · cases hstatus
  rename_i hpk
  obtain ⟨i, hi, htold⟩ := Option.map_eq_some_iff.1 hstatus
  obtain ⟨-, htold⟩ := Prod.mk.inj htold
  -- a request that is told of as late has been queued or is being sent
  have hself : status ≠ .uncertain → i.status = status := by
    intro hne
    by_cases hlate : (i.status = .queued ∨ i.status = .sending) ∧ isLate site i = true
    · rw [if_pos hlate] at htold
      exact absurd htold.symm hne
    · rwa [if_neg hlate] at htold
  have hagrees := hsound.agrees p i hi
  refine ⟨⟨m, List.mem_of_find?_eq_some hm, hcustomer, not_not.1 hpk⟩, ?_, ?_, fun hdropped bs => ?_⟩
  · rintro rfl
    rw [hself (by decide)] at hagrees
    obtain ⟨c, hc, reference, hstage⟩ := hagrees
    have hmem : c ∈ v.couriers := Table.mem_of_get hc
    obtain rfl : c.pointer = p := Table.key_of_get hc
    exact ⟨c, hmem, rfl, ⟨reference, hstage⟩, hposted.left c hmem _ (.inr hstage) rfl⟩
  · rintro rfl
    exact hposted.none_of hsound hi (.inr (hself (by decide)))
  · have hkept : i.status = status := hself (by
      rcases hdropped with rfl | rfl | rfl <;> decide)
    rw [← hkept] at hdropped
    have hi' : (run (step phoneHash digest) v bs).invitation p = some i := (hsound.run_dropped hi hdropped bs).2
    exact (hlater bs).2.none_of (hlater bs).1 hi' (.inl hdropped)

/-! ### A request that is handed out twice -/

def giftSite : Site where
  now := 100
  enabled := true
  uiEnabled := true
  launched := true
  approvedTerms := true
  isAuthenticated := fun _ => true
  isActive := fun _ => true
  participantAllowed := fun _ => true
  accountVerified := fun _ => true
  deliveryReady := true
  invitationEligible := fun _ => true
  preferredLanguage := fun _ => ""
  normalizePhone := some
  base := some "https://luxurysmartapartments.com"
  artwork := fun language => some ("digest-" ++ language)
  senderName := fun _ _ => "Guest"

def giftDigest : Payload → String
  | .invitation phoneHash language => phoneHash ++ ":" ++ language
  | .command _ => "command"

def giftToken : String := "abcdefghijklmnopqrstuvwxyzABCDEFGHIJKLMNOPQ"

def giftWorld : World := ⟨[⟨2, 7, "LSA-M000002", true, some giftToken⟩], [], [], [], [], [], [], [], []⟩

theorem giftWorld_opened : giftWorld.Opened where
  members := by decide
  tokens := by decide
  distinct := by simp [giftWorld]
  receipts := rfl
  limits := rfl
  couriers := rfl
  posts := rfl

def giftPointer : Pointer := ⟨2, "gift-invite:first"⟩

def giftRequest : Action := .request giftSite ⟨7, "+12025550124", "en", "gift-invite:first", true⟩

/-- The guest asks twice; the broker takes the task, reports a failure all the same, and hands it out three times. -/
def giftRun : List Action :=
  [giftRequest, giftRequest, .dispatch 0 true true, .claim 0 giftSite, .claim 0 giftSite, .fail 0 giftSite,
   .call 0 (.answered "id-1"), .finish 0 giftSite, .claim 0 giftSite]

theorem invitations_sent_once_twice :
    (Machine.run (step id giftDigest) giftWorld giftRun).posts.map (fun x => (x.pointer, x.message.url)) =
        [(giftPointer, "https://luxurysmartapartments.com/i/abcdefghijklmnop/")] ∧
      ((Machine.run (step id giftDigest) giftWorld giftRun).posts.map Post.pointer).Nodup :=
  ⟨by decide +kernel, (invitations_sent_once giftWorld_opened id giftDigest giftRun).1⟩

theorem status_is_true_accepted :
    ∃ c ∈ (Machine.run (step id giftDigest) giftWorld giftRun).couriers, c.pointer = giftPointer ∧
      (∃ reference, c.stage = .finished (.answered reference)) ∧
      ⟨giftPointer, c.message⟩ ∈ (Machine.run (step id giftDigest) giftWorld giftRun).posts := by
  have hstatus : invitationStatus giftSite (Machine.run (step id giftDigest) giftWorld giftRun) 7 giftPointer =
      some ("••••0124", .accepted) := by decide +kernel
  exact (status_is_true giftWorld_opened id giftDigest giftRun giftSite 7 giftPointer _ _ hstatus).2.1 rfl

end Apartments.Gifts
