import Apartments.Loyalty.Chain

/-!
# Commands that are tried again (`receipt` and the points commands)

A command that was answered keeps its answer in `command_receipts` of the member, and no later operation takes an answer
away. So a command that is tried again, at any later time, is answered as the first time and changes nothing.
-/

namespace Apartments.Loyalty

open Payments Hostaway

/-! ### The commands -/

/-- A points command with its arguments. -/
inductive Command
  | transfer (user : User) (reference recipientNumber : String) (value : Dec)
  | hold (user : User) (reference : String) (reservation : Uuid) (value : Dec)
  | release (user : User) (reference : String) (reservation : Uuid)
  | redeem (user : User) (reference : String) (reservation : Uuid)
  | withdraw (user : User) (reference : String)
deriving DecidableEq

namespace Command

def user : Command → User
  | .transfer user .. | .hold user .. | .release user .. | .redeem user .. | .withdraw user _ => user

/-- The key of the receipt. -/
def reference : Command → String
  | .transfer _ reference .. | .hold _ reference .. | .release _ reference _ | .redeem _ reference _
  | .withdraw _ reference => reference

def payload : Command → Payload
  | .transfer _ _ recipientNumber value => .transfer recipientNumber value
  | .hold _ _ reservation value => .hold reservation value
  | .release _ _ reservation => .release reservation
  | .redeem _ _ reservation => .redeem reservation
  | .withdraw .. => .withdraw

/-- Only `withdraw` also reads a membership that is closed. -/
def needsActive : Command → Bool
  | .withdraw .. => false
  | _ => true

def op : Command → Op
  | .transfer user reference recipientNumber value => .transfer user reference recipientNumber value
  | .hold user reference reservation value => .hold user reference reservation value
  | .release user reference reservation => .release user reference reservation
  | .redeem user reference reservation => .redeem user reference reservation
  | .withdraw user reference => .withdraw user reference

def work (digest : Payload → String) (site : Site) (member : Member) :
    Command → World → Except Refusal (World × Reply)
  | .transfer _ reference recipientNumber value => transferWork digest site member reference recipientNumber value
  | .hold user reference reservation value => holdWork site user member reference reservation value
  | .release user _ reservation => releaseWork site user reservation
  | .redeem user reference reservation => redeemWork site user member reference reservation
  | .withdraw user reference => withdrawWork site user member reference

def perform (digest : Payload → String) (site : Site) (w : World) : Command → Except Refusal (World × Reply)
  | .transfer user reference recipientNumber value =>
    Loyalty.transfer digest site user reference recipientNumber value w
  | .hold user reference reservation value => Loyalty.hold digest site user reference reservation value w
  | .release user reference reservation => Loyalty.release digest site user reference reservation w
  | .redeem user reference reservation => Loyalty.redeem digest site user reference reservation w
  | .withdraw user reference => Loyalty.withdraw digest site user reference w

variable (digest : Payload → String) (site : Site) (w : World) (c : Command)

/-- Every command is its work under the receipt of its member. -/
theorem perform_eq : c.perform digest site w =
    postingTransaction site >>= fun _ => memberFor site w c.user c.needsActive >>= fun member =>
      receipt digest w member c.reference c.payload (c.work digest site member) := by
  cases c with
  | transfer => rfl
  | hold => rfl
  | release => rfl
  | redeem => rfl
  | withdraw => rfl

theorem perform_op : c.op.perform digest site w = (c.perform digest site w).map (·.1) := by
  cases c with
  | transfer => rfl
  | hold => rfl
  | release => rfl
  | redeem => rfl
  | withdraw => rfl

/-- What the command is answered when its key was answered before, with that receipt. -/
def replay (old : Receipt) : Except Refusal (World × Reply) := do
  postingTransaction site
  let _ ← memberFor site w c.user c.needsActive
  raiseIf (old.hash ≠ digest c.payload) (.validation "استعمل مرجع الطلب ببياناته الأصلية فقط.")
  return (w, old.result)

end Command

/-! ### Answers are kept -/

/-- The member has every answer that it had. -/
structure Member.Keeps (m m' : Member) : Prop where
  pk : m'.pk = m.pk
  customer : m'.customer = m.customer
  answers : ∀ key r, m.commandReceipts.lookup key = some r → m'.commandReceipts.lookup key = some r

/-- The members are who they were, with every answer that they had. -/
def World.Keeps (w w' : World) : Prop :=
  (w.members.map Member.pk).Nodup →
    (w'.members.map Member.pk).Nodup ∧ ∀ m ∈ w.members, ∃ m' ∈ w'.members, m.Keeps m'

section
variable {digest : Payload → String} {site : Site} {w v w' : World} {b : Booking} {m : Member} {user : User} {pk : Uuid}

theorem Member.Keeps.refl (m : Member) : m.Keeps m := ⟨rfl, rfl, fun _ _ h => h⟩

theorem Member.Keeps.trans {m₁ m₂ m₃ : Member} (h : m₁.Keeps m₂) (h' : m₂.Keeps m₃) : m₁.Keeps m₃ :=
  ⟨h'.pk.trans h.pk, h'.customer.trans h.customer, fun key r hr => h'.answers key r (h.answers key r hr)⟩

theorem Member.keeps_answer {key : String} (r : Receipt) (hnew : m.commandReceipts.lookup key = none) :
    m.Keeps (m.answer key r) := by
  refine ⟨rfl, rfl, fun k old hold => ?_⟩
  show ((key, r) :: m.commandReceipts).lookup k = some old
  rw [List.lookup_cons]
  split
  · rename_i hk
    rw [eq_of_beq hk, hnew] at hold
    cases hold
  · exact hold

namespace World.Keeps

theorem of_members (h : w'.members = w.members) : w.Keeps w' := by
  intro hpks
  rw [h]
  exact ⟨hpks, fun m hm => ⟨m, hm, .refl m⟩⟩

theorem refl (w : World) : w.Keeps w := of_members rfl

theorem trans (h : w.Keeps v) (h' : v.Keeps w') : w.Keeps w' := by
  intro hpks
  obtain ⟨hpks', hkeeps⟩ := h hpks
  obtain ⟨hpks'', hkeeps'⟩ := h' hpks'
  refine ⟨hpks'', fun m hm => ?_⟩
  obtain ⟨m', hm', hkept⟩ := hkeeps m hm
  obtain ⟨m'', hm'', hkept'⟩ := hkeeps' m' hm'
  exact ⟨m'', hm'', hkept.trans hkept'⟩

/-- A member is rewritten into one that keeps its answers. -/
theorem modifyMember {f : Member → Member} (n : ℕ) (hpk : ∀ m : Member, (f m).pk = m.pk)
    (hf : (w.members.map Member.pk).Nodup → ∀ m ∈ w.members, m.pk = n → m.Keeps (f m)) : w.Keeps (w.modifyMember n f) := by
  intro hpks
  refine ⟨?_, fun m hm => ?_⟩
  · show ((Table.modify Member.pk w.members n f).map Member.pk).Nodup
    rw [Table.map_key_modify fun m hm => (hpk m).trans hm]
    exact hpks
  · by_cases hn : m.pk = n
    · exact ⟨f m, Table.mem_modify.2 ⟨m, hm, by simp [hn]⟩, hf hpks m hm hn⟩
    · exact ⟨m, Table.mem_modify_of_ne hm hn, .refl m⟩

end World.Keeps

/-- The operation leaves the members as they are. -/
abbrev Spares (w : World) (op : Except Refusal World) : Prop :=
  Outcome op (fun w' => w'.members = w.members) fun _ => True

/-- The operation leaves the members as they are; there is an answer too. -/
abbrev SparesWith (w : World) {α : Type} (op : Except Refusal (World × α)) : Prop :=
  Outcome op (fun r => r.1.members = w.members) fun _ => True

/-- The operation keeps the answers. -/
abbrev KeepsAnswers (w : World) (op : Except Refusal World) : Prop := Outcome op (fun w' => w.Keeps w') fun _ => True

/-! ### The work of the commands -/

theorem post_spares (m : Member) (p : Posting) : Spares w (post site w m p) := by
  unfold post
  refine Outcome.guard trivial fun _ => Outcome.bind (.any _) fun credit _ => Outcome.bind (.any _) fun debit _ => ?_
  refine Outcome.guard trivial fun _ => Outcome.guard trivial fun _ => Outcome.guard trivial fun _ => ?_
  refine Outcome.lookup trivial fun link _ => ?_
  unfold createRow
  refine Outcome.guard trivial fun _ => Outcome.guard trivial fun _ => Outcome.guard trivial fun _ => ?_
  refine Outcome.guard trivial fun _ => Outcome.guard trivial fun _ => Outcome.guard trivial fun _ => ?_
  exact Outcome.guard trivial fun _ => Outcome.of_pure rfl

theorem transferWork_spares (sender : Member) (reference recipientNumber : String) (value : Dec) :
    SparesWith w (transferWork digest site sender reference recipientNumber value w) := by
  unfold transferWork
  refine Outcome.lookup trivial fun recipient _ => Outcome.guard trivial fun _ => Outcome.guard trivial fun _ => ?_
  refine Outcome.bind (.any _) fun n _ => Outcome.guard trivial fun _ => ?_
  refine Outcome.bind (post_spares sender _) fun sent hsent => ?_
  exact Outcome.bind (post_spares recipient _) fun received hreceived => Outcome.of_pure (hreceived.trans hsent)

theorem holdWork_spares (member : Member) (reference : String) (value : Dec) :
    SparesWith w (holdWork site user member reference pk value w) := by
  unfold holdWork
  refine Outcome.bind (.any _) fun booking _ => Outcome.guard trivial fun _ => Outcome.guard trivial fun _ => ?_
  refine Outcome.bind (.any _) fun n _ => Outcome.bind (.any _) fun total _ => ?_
  exact Outcome.guard trivial fun _ => Outcome.of_pure rfl

theorem releaseWork_spares : SparesWith w (releaseWork site user pk w) := by
  unfold releaseWork
  exact Outcome.bind (.any _) fun booking _ => Outcome.bind (.any _) fun _ _ => Outcome.of_pure rfl

theorem redeemWork_spares (member : Member) (reference : String) :
    SparesWith w (redeemWork site user member reference pk w) := by
  unfold redeemWork
  refine Outcome.bind (.any _) fun booking _ => ?_
  cases booking.loyaltyState.redemption with
  | some redemption => exact Outcome.of_pure rfl
  | none =>
    refine Outcome.lookup trivial fun held _ => ?_
    exact Outcome.bind (post_spares member _) fun posted hposted => Outcome.of_pure hposted

/-- Only the membership that is closed changes. -/
theorem withdrawWork_closes (member : Member) (reference : String) :
    Outcome (withdrawWork site user member reference w) (fun r => r.1.members = w.members ∨
      r.1.members = (w.modifyMember member.pk fun m => { m with status := .withdrawn }).members) fun _ => True := by
  unfold withdrawWork
  refine Outcome.ite (fun _ => Outcome.of_pure (.inl rfl)) fun _ => Outcome.bind (.any _) fun _ _ => ?_
  have hclose : ∀ {v : World}, v.members = w.members →
      (v.modifyMember member.pk fun m => { m with status := .withdrawn }).members =
        (w.modifyMember member.pk fun m => { m with status := .withdrawn }).members := by
    intro v hv
    show Table.modify Member.pk v.members member.pk _ = Table.modify Member.pk w.members member.pk _
    rw [hv]
  refine Outcome.ite (fun _ => ?_) fun _ => ?_
  · exact Outcome.bind (post_spares member _) fun closed hclosed => Outcome.of_pure (.inr (hclose hclosed))
  · exact Outcome.of_pure (.inr rfl)

/-- A membership that is closed keeps its answers. -/
theorem keeps_closing (n : ℕ) : w.Keeps (w.modifyMember n fun m => { m with status := .withdrawn }) :=
  .modifyMember n (fun _ => rfl) fun _ _ _ _ => ⟨rfl, rfl, fun _ _ h => h⟩

/-- The work of a command writes no receipt. -/
def WritesNone (w : World) (r : World × Reply) : Prop :=
  w.Keeps r.1 ∧ ∀ m' ∈ r.1.members, ∃ m ∈ w.members, m'.pk = m.pk ∧ m'.commandReceipts = m.commandReceipts

theorem withdrawWork_writesNone (member : Member) (reference : String) :
    Outcome (withdrawWork site user member reference w) (WritesNone w) fun _ => True := by
  refine (withdrawWork_closes member reference).mono fun r hr => ?_
  rcases hr with hr | hr
  · refine ⟨.of_members hr, fun m' hm' => ⟨m', hr ▸ hm', rfl, rfl⟩⟩
  · have hkeeps := keeps_closing (w := w) member.pk
    refine ⟨fun hpks => ?_, fun m' hm' => ?_⟩
    · rw [hr]
      exact hkeeps hpks
    · rw [hr] at hm'
      rcases mem_members_modify hm' with ⟨hm', -⟩ | ⟨m, hm, -, rfl⟩
      · exact ⟨m', hm', rfl, rfl⟩
      · exact ⟨m, hm, rfl, rfl⟩

/-! ### The receipt -/

theorem work_spec (digest : Payload → String) (site : Site) (w : World) (m : Member) (c : Command) :
    Outcome (c.work digest site m w) (WritesNone w) fun _ => True := by
  have hsame : ∀ r : World × Reply, r.1.members = w.members → WritesNone w r :=
    fun r hr => ⟨.of_members hr, fun m' hm' => ⟨m', hr ▸ hm', rfl, rfl⟩⟩
  cases c with
  | transfer => exact (transferWork_spares m _ _ _).mono hsame
  | hold => exact (holdWork_spares m _ _).mono hsame
  | release => exact releaseWork_spares.mono hsame
  | redeem => exact (redeemWork_spares m _).mono hsame
  | withdraw => exact withdrawWork_writesNone m _

/-- The member that the command was run for has the answer under the key of the command. -/
def Answered (digest : Payload → String) (c : Command) (reply : Reply) (w : World) : Prop :=
  ∃ m ∈ w.members, m.customer = c.user ∧ m.commandReceipts.lookup c.reference = some ⟨digest c.payload, reply⟩

theorem Answered.keeps {c : Command} {reply : Reply} (h : Answered digest c reply w)
    (hpks : (w.members.map Member.pk).Nodup) (hw : w.Keeps w') : Answered digest c reply w' := by
  obtain ⟨m, hm, huser, hanswer⟩ := h
  obtain ⟨m', hm', hkeeps⟩ := (hw hpks).2 m hm
  exact ⟨m', hm', hkeeps.customer.trans huser, hkeeps.answers _ _ hanswer⟩

/-- What a receipt leaves keeps every answer, and has the one that is returned. -/
theorem receipt_answers (hpks : (w.members.map Member.pk).Nodup) (hm : m ∈ w.members) {c : Command}
    (huser : m.customer = c.user) :
    Outcome (receipt digest w m c.reference c.payload (c.work digest site m))
      (fun r => w.Keeps r.1 ∧ Answered digest c r.2 r.1 ∧ ¬ (c.reference.length < 3 ∨ 200 < c.reference.length))
      fun _ => True := by
  unfold receipt
  refine Outcome.guard trivial fun hkey => ?_
  cases hold : m.commandReceipts.lookup c.reference with
  | some old =>
    refine Outcome.guard trivial fun hhash => Outcome.of_pure ⟨.refl w, ⟨m, hm, huser, ?_⟩, hkey⟩
    rw [hold, ← not_not.1 hhash]
  | none =>
    refine Outcome.bind (work_spec digest site w m c) fun r hr => Outcome.of_pure ?_
    obtain ⟨hworked, hwrites⟩ := hr
    have hanswer : r.1.Keeps (r.1.modifyMember m.pk (Member.answer c.reference ⟨digest c.payload, r.2⟩)) := by
      refine .modifyMember m.pk (fun _ => rfl) fun _ m' hm' hpk => Member.keeps_answer _ ?_
      -- the work wrote no receipt, so the member has none under this key yet
      obtain ⟨m₀, hm₀, hpk₀, hreceipts⟩ := hwrites m' hm'
      obtain rfl : m₀ = m := Table.eq_of_mem_of_key hpks hm₀ hm (hpk₀.symm.trans hpk)
      rw [hreceipts]
      exact hold
    refine ⟨hworked.trans hanswer, ?_, hkey⟩
    obtain ⟨m', hm', hkept⟩ := (hworked hpks).2 m hm
    refine ⟨m'.answer c.reference ⟨digest c.payload, r.2⟩, Table.mem_modify.2 ⟨m', hm', ?_⟩,
      hkept.customer.trans huser, ?_⟩
    · rw [if_pos hkept.pk]
      rfl
    · show ((c.reference, _) :: m'.commandReceipts).lookup c.reference = _
      rw [List.lookup_cons, beq_self_eq_true]

theorem memberFor_any (active : Bool) : Outcome (memberFor site w user active)
    (fun m => m ∈ w.members ∧ m.customer = user) fun _ => True :=
  ((memberFor_spec active).mono fun _ h => ⟨h.1, h.2.1⟩).weaken fun _ _ => trivial

theorem perform_answers (hpks : (w.members.map Member.pk).Nodup) (c : Command) :
    Outcome (c.perform digest site w)
      (fun r => w.Keeps r.1 ∧ Answered digest c r.2 r.1 ∧ ¬ (c.reference.length < 3 ∨ 200 < c.reference.length))
      fun _ => True := by
  rw [Command.perform_eq]
  refine Outcome.bind (.any _) fun _ _ => Outcome.bind (memberFor_any _) fun m hm => ?_
  exact receipt_answers hpks hm.1 hm.2

theorem perform_keeps (c : Command) : KeepsAnswers w (c.op.perform digest site w) := by
  rw [Command.perform_op]
  by_cases hpks : (w.members.map Member.pk).Nodup
  · cases h : c.perform digest site w with
    | ok r => exact ((perform_answers hpks c).of_eq_ok h).1
    | error e => trivial
  · cases c.perform digest site w with
    | ok r => exact fun h => absurd h hpks
    | error e => trivial

/-! ### The other operations -/

theorem restorePoints_spares (value : Dec) (reference : String) :
    SparesWith w (restorePoints site pk value reference w) := by
  unfold restorePoints
  refine Outcome.bind (.any _) fun _ _ => Outcome.lookup trivial fun booking _ => Outcome.guard trivial fun _ => ?_
  refine Outcome.lookup trivial fun customer _ => Outcome.bind (.any _) fun member _ => ?_
  refine Outcome.lookup trivial fun r _ => Outcome.bind (.any _) fun target _ => Outcome.guard trivial fun _ => ?_
  refine Outcome.ite (fun _ => Outcome.of_pure rfl) fun _ => ?_
  exact Outcome.bind (post_spares member _) fun posted hposted => Outcome.of_pure hposted

theorem settleShares_spares (s : Settling) (branch : ℕ) (plan : List (Share Member)) :
    SparesWith w (settleShares site s w branch plan) := by
  induction plan generalizing w branch with
  | nil => exact Outcome.of_ok rfl
  | cons share plan ih =>
    have hshare : SparesWith w (settleShare site s w branch share) := by
      unfold settleShare
      refine Outcome.lookup trivial fun member _ => Outcome.ite (fun _ => ?_) fun _ => Outcome.ite (fun _ => ?_) fun _ => ?_
      · exact Outcome.bind (post_spares member _) fun v hv => Outcome.of_pure hv
      · refine Outcome.lookup trivial fun original _ => ?_
        exact Outcome.bind (post_spares member _) fun v hv => Outcome.of_pure hv
      · exact Outcome.of_pure rfl
    unfold settleShares
    exact Outcome.bind hshare fun r hr => (ih r.2).mono fun _ hrest => hrest.trans hr

theorem settle_spares (facts : Facts) : SparesWith w (settle digest site w b facts) := by
  unfold settle
  refine Outcome.lookup trivial fun owner _ => Outcome.bind (.any _) fun chain _ => ?_
  refine Outcome.ite (fun _ => Outcome.of_pure rfl) fun _ => Outcome.bind (.any _) fun plan _ => ?_
  exact Outcome.bind (settleShares_spares _ _ plan) fun r hr => Outcome.of_pure hr

theorem attachPaidPhoneAccount_spares (b : Booking) : (attachPaidPhoneAccount site w b).1.members = w.members := by
  unfold attachPaidPhoneAccount
  split <;> rfl

theorem reconcile_spares : SparesWith w (reconcile digest site pk w) := by
  unfold reconcile
  refine Outcome.ite (fun _ => Outcome.of_ok rfl) fun _ => Outcome.bind (.any _) fun _ _ => ?_
  refine Outcome.lookup trivial fun loaded _ => ?_
  have hattached : (attachPaidPhoneAccount site w loaded).1.members = w.members := attachPaidPhoneAccount_spares loaded
  generalize attachPaidPhoneAccount site w loaded = attached at hattached ⊢
  obtain ⟨v, booking⟩ := attached
  refine Outcome.ite (fun _ => Outcome.of_pure hattached) fun _ => ?_
  cases bookingFacts site v booking with
  | error blocker => exact Outcome.of_pure hattached
  | ok facts => exact (settle_spares facts).mono fun r hr => hr.trans hattached

theorem settleBookingPoints_keeps : KeepsAnswers w (settleBookingPoints digest site pk w) := by
  unfold settleBookingPoints
  refine Outcome.lookup trivial fun booking _ => Outcome.ite (fun _ => ?_) fun _ => Outcome.of_pure (.refl w)
  refine Outcome.lookup trivial fun customer _ => ?_
  have hredeem : KeepsAnswers w ((redeem digest site customer ("confirm:" ++ pk.str) pk w).map (·.1)) :=
    perform_keeps (.redeem customer ("confirm:" ++ pk.str) pk)
  cases h : redeem digest site customer ("confirm:" ++ pk.str) pk w with
  | ok r =>
    rw [h] at hredeem
    exact hredeem
  | error e => trivial

theorem restoreCancelledPoints_spares : Spares w (restoreCancelledPoints site pk w) := by
  unfold restoreCancelledPoints
  refine Outcome.lookup trivial fun booking _ => ?_
  cases booking.loyaltyState.redemption with
  | none => exact Outcome.of_pure rfl
  | some redeemed =>
    refine Outcome.ite (fun _ => Outcome.of_pure rfl) fun _ => Outcome.ite (fun _ => ?_) fun _ => ?_
    · cases booking.loyaltyState.departureSettlement with
      | none => exact Outcome.of_pure rfl
      | some departure => exact Outcome.bind (restorePoints_spares _ _) fun r hr => Outcome.of_pure hr
    · exact Outcome.bind (restorePoints_spares _ _) fun r hr => Outcome.of_pure hr

theorem recordFailure_spares (e : Refusal) : Spares w (recordFailure pk e w) := by
  unfold recordFailure
  exact Outcome.lookup trivial fun booking _ => Outcome.of_pure rfl

/-- A part that fails is rolled back, and the tables before it are kept. -/
theorem safeReconcile_keeps : KeepsAnswers w (safeReconcile digest site pk w) := by
  unfold safeReconcile
  refine Outcome.ite (fun _ => Outcome.of_ok (.refl w)) fun _ => Outcome.ite (fun _ => Outcome.of_ok (.refl w)) fun _ => ?_
  have hredeem : KeepsAnswers w (settleBookingPoints digest site pk w) := settleBookingPoints_keeps
  split
  · exact (recordFailure_spares _).mono fun _ h => .of_members h
  · rename_i redeemed hredeemed
    have hone : w.Keeps redeemed := hredeem.of_eq_ok hredeemed
    have hrestore : Spares redeemed (restoreCancelledPoints site pk redeemed) := restoreCancelledPoints_spares
    split
    · exact (recordFailure_spares _).mono fun _ h => hone.trans (.of_members h)
    · rename_i restored hrestored
      have htwo : w.Keeps restored := hone.trans (.of_members (hrestore.of_eq_ok hrestored))
      have hreconcile : SparesWith restored (reconcile digest site pk restored) := reconcile_spares
      split
      · exact (recordFailure_spares _).mono fun _ h => htwo.trans (.of_members h)
      · rename_i settled answer hsettled
        exact Outcome.of_ok (htwo.trans (.of_members (hreconcile.of_eq_ok hsettled)))

theorem reconcileAll_spares (pks : List Uuid) : Spares w (reconcileAll digest site pks w) := by
  induction pks generalizing w with
  | nil => exact Outcome.of_ok rfl
  | cons pk pks ih =>
    unfold reconcileAll
    exact Outcome.bind reconcile_spares fun r hr => ih.mono fun _ hrest => hrest.trans hr

theorem applyOffers_keeps (pks : List Uuid) : KeepsAnswers w (applyOffers digest site user pks w) := by
  induction pks generalizing w with
  | nil => exact Outcome.of_ok (.refl w)
  | cons pk pks ih =>
    unfold applyOffers
    refine Outcome.bind (.any _) fun _ _ => Outcome.lookup trivial fun booking _ => Outcome.ite (fun _ => ?_) fun _ => ih
    exact Outcome.bind safeReconcile_keeps fun v hv => ih.mono fun _ hrest => hv.trans hrest

theorem applyForUser_keeps : KeepsAnswers w (applyForUser digest site user w) := by
  unfold applyForUser
  exact Outcome.ite (fun _ => Outcome.of_ok (.refl w)) fun _ => applyOffers_keeps _

/-- The new member has a key of its own. -/
theorem join_keeps (a : Enrolment) : KeepsAnswers w (join site w a) := by
  unfold join
  refine Outcome.bind (.any _) fun parent _ => Outcome.guard trivial fun _ => Outcome.bind (.any _) fun linked _ => ?_
  refine ((createReferral_spec _).weaken fun _ _ => trivial).mono fun w' hw' hpks => ?_
  rw [hw']
  refine ⟨?_, fun m hm => ⟨m, List.mem_append_left _ hm, .refl m⟩⟩
  show ((w.members ++ [newMember (nextMember site w) a.user]).map Member.pk).Nodup
  rw [List.map_append, List.nodup_append]
  refine ⟨hpks, List.nodup_singleton _, ?_⟩
  rintro k hk k' hk' rfl
  obtain ⟨m, hm, rfl⟩ := List.mem_map.1 hk
  have hnew : m.pk < nextMember site w := lt_nextMember hm
  have hsame : m.pk = nextMember site w := List.mem_singleton.1 hk'
  omega

theorem enroll_keeps (a : Enrolment) : KeepsAnswers w (enroll digest site a w) := by
  unfold enroll
  refine Outcome.bind (.any _) fun _ _ => Outcome.guard trivial fun _ => Outcome.guard trivial fun _ => ?_
  refine Outcome.guard trivial fun _ => Outcome.guard trivial fun _ => ?_
  cases w.memberOf a.user with
  | some existing => exact Outcome.guard trivial fun _ => Outcome.of_pure (.refl w)
  | none =>
    refine Outcome.bind (join_keeps a) fun joined hjoined => ?_
    refine Outcome.bind (reconcileAll_spares _) fun settled hsettled => ?_
    exact applyForUser_keeps.mono fun _ h => (hjoined.trans (.of_members hsettled)).trans h

theorem linkMembers_spares (q : LinkRequest) : Spares w (linkMembers site w q) := by
  unfold linkMembers
  generalize (Text.strip q.reason).length = length
  refine Outcome.guard trivial fun _ => Outcome.guard trivial fun _ => Outcome.bind (.any _) fun _ _ => ?_
  split
  · exact Outcome.guard trivial fun _ => Outcome.of_pure rfl
  · refine Outcome.bind (.any _) fun links _ => Outcome.bind (.any _) fun pair _ => ?_
    refine Outcome.bind (.any _) fun bookings _ => ?_
    exact Outcome.guard trivial fun _ => Outcome.guard trivial fun _ => Outcome.of_pure rfl

theorem keeps_of_map {α : Type} {op : Except Refusal (World × α)} (h : SparesWith w op) : KeepsAnswers w (op.map (·.1)) := by
  cases op with
  | ok r => exact .of_members h
  | error e => trivial

/-- Every operation keeps every answer. -/
theorem op_keeps (op : Op) : KeepsAnswers w (op.perform digest site w) := by
  cases op with
  | enroll a => exact enroll_keeps a
  | reconcile pk => exact keeps_of_map reconcile_spares
  | safeReconcile pk => exact safeReconcile_keeps
  | transfer user reference recipientNumber value => exact perform_keeps (.transfer user reference recipientNumber value)
  | hold user reference reservation value => exact perform_keeps (.hold user reference reservation value)
  | release user reference reservation => exact perform_keeps (.release user reference reservation)
  | redeem user reference reservation => exact perform_keeps (.redeem user reference reservation)
  | restorePoints reservation value reference => exact keeps_of_map (restorePoints_spares value reference)
  | withdraw user reference => exact perform_keeps (.withdraw user reference)
  | linkMembers q => exact (linkMembers_spares q).mono fun _ h => .of_members h

/-! ### Runs -/

theorem keeps_step (w : World) (a : Action) : w.Keeps (w.step digest a) := by
  cases a with
  | operate site op =>
    have hop : KeepsAnswers w (op.perform digest site w) := op_keeps op
    simp only [World.step]
    split
    · rename_i w' hw'
      exact hop.of_eq_ok hw'
    · exact .refl w
  | book pk createdAt columns =>
    simp only [World.step]
    split
    · exact .refl w
    · exact .of_members rfl
  | record pk columns => exact .of_members rfl

open Machine in
theorem keeps_run (w : World) (as : List Action) : w.Keeps (run (World.step digest) w as) := by
  induction as generalizing w with
  | nil => exact .refl w
  | cons a as ih => exact (keeps_step w a).trans (ih (w.step digest a))

/-- A command that was answered is replayed, by itself or by any other command under its key. -/
theorem Answered.perform {c c' : Command} {reply : Reply} (h : Answered digest c reply w) (hw : Sound digest w)
    (hkey : ¬ (c.reference.length < 3 ∨ 200 < c.reference.length)) (huser : c'.user = c.user)
    (hreference : c'.reference = c.reference) (site : Site) :
    c'.perform digest site w = c'.replay digest site w ⟨digest c.payload, reply⟩ := by
  rw [Command.perform_eq, Command.replay]
  refine congrArg (postingTransaction site >>= ·) (funext fun _ => ?_)
  have hread : Outcome (memberFor site w c'.user c'.needsActive) (fun m => m ∈ w.members ∧ m.customer = c'.user)
      fun _ => True := memberFor_any _
  cases hm : memberFor site w c'.user c'.needsActive with
  | error e => rfl
  | ok m =>
    obtain ⟨hmem, hcustomer⟩ := hread.of_eq_ok hm
    obtain ⟨m', hm', hcustomer', hanswer⟩ := h
    obtain rfl : m = m' := hw.customer_inj hmem hm' (hcustomer.trans (huser.trans hcustomer'.symm))
    show receipt digest w m c'.reference c'.payload (c'.work digest site m) = _
    rw [receipt, hreference, raiseIf_of_not hkey, hanswer]
    rfl

end

open Machine in
/-- A command that was answered, with or without other operations since, is answered as the first time when it is tried
again; any other command of the same user under its key is refused. Neither changes anything, whatever the site reads. -/
theorem retried_command {w v : World} (h : w.Opened) {digest : Payload → String} {site : Site} {c : Command}
    {reply : Reply} (before after : List Action)
    (hfirst : c.perform digest site (run (World.step digest) w before) = .ok (v, reply)) (c' : Command)
    (huser : c'.user = c.user) (hreference : c'.reference = c.reference) (site' : Site) :
    c'.perform digest site' (run (World.step digest) w (before ++ .operate site c.op :: after)) =
      c'.replay digest site' (run (World.step digest) w (before ++ .operate site c.op :: after)) ⟨digest c.payload, reply⟩ := by
  have hsound : Sound digest (run (World.step digest) w before) := h.run before
  obtain ⟨-, hanswered, hkey⟩ := (perform_answers hsound.members c).of_eq_ok hfirst
  have hstep : (run (World.step digest) w before).step digest (.operate site c.op) = v := by
    simp only [World.step, Command.perform_op, hfirst, Except.map]
  have hrun : run (World.step digest) w (before ++ .operate site c.op :: after) = run (World.step digest) v after := by
    rw [run_append, run_cons, hstep]
  have hv : Sound digest v := hstep ▸ hsound.step _
  have hlast : Sound digest (run (World.step digest) w (before ++ .operate site c.op :: after)) := h.run _
  rw [hrun] at hlast ⊢
  exact (hanswered.keeps hv.members (keeps_run v after)).perform hlast hkey huser hreference site'

/-! ### A gift that is sent twice -/

/-- A guest with a paid stay and another one have joined. -/
def joinedRun : List Action :=
  [.book stayPk 5 (confirmedBy 1), .operate paidSite (.enroll (consent 1)), .operate paidSite (.enroll (consent 2))]

def gift (value : Dec) : Command := .transfer 1 "gift-1" "LSA-M000002" value

/-- The gift is sent, passed back in part, and the points are used for another transfer. -/
def giftRun : List Action :=
  joinedRun ++ .operate paidSite (gift 10).op ::
    [.operate paidSite (.transfer 2 "back-1" "LSA-M000001" 4), .operate paidSite (.transfer 1 "gift-2" "LSA-M000002" 5)]

theorem retried_command_gift :
    (gift 10).perform plainDigest paidSite (Machine.run (World.step plainDigest) emptyWorld giftRun) =
        .ok (Machine.run (World.step plainDigest) emptyWorld giftRun, .transfer "LSA000002" 10) ∧
      (gift 11).perform plainDigest paidSite (Machine.run (World.step plainDigest) emptyWorld giftRun) =
        .error (.validation "استعمل مرجع الطلب ببياناته الأصلية فقط.") := by
  have hfirst : (gift 10).perform plainDigest paidSite (Machine.run (World.step plainDigest) emptyWorld joinedRun) =
      .ok (Machine.run (World.step plainDigest) emptyWorld (joinedRun ++ [.operate paidSite (gift 10).op]),
        .transfer "LSA000002" 10) := by decide +kernel
  have hretry : ∀ value, (gift value).perform plainDigest paidSite (Machine.run (World.step plainDigest) emptyWorld giftRun) =
      (gift value).replay plainDigest paidSite (Machine.run (World.step plainDigest) emptyWorld giftRun)
        ⟨plainDigest (gift 10).payload, .transfer "LSA000002" 10⟩ :=
    fun value => retried_command emptyWorld_opened joinedRun _ hfirst (gift value) rfl rfl paidSite
  constructor
  · rw [hretry]
    decide +kernel
  · rw [hretry]
    decide +kernel

end Apartments.Loyalty
