import Apartments.Loyalty.Site
import Mathlib.Data.List.Sort

/-!
# The referral tree (`loyalty/referrals.py`, `ancestors`)
-/

namespace Apartments.Loyalty

def maxTree : ℕ := 10000

/-- The link of a member as its latest revision states it. -/
def revise (link : Referral) (r : ReferralRevision) : Referral where
  member := link.member
  inviter := some r.inviter
  root := r.root
  treeNumber := r.treeNumber
  depth := r.depth
  branchOrder := r.branchOrder

section
variable (w : World)

/-- The row of `current_query` for an original link. -/
def current (link : Referral) : Referral :=
  match w.revisions.reverse.find? fun r => r.member == link.member with
  | some r => revise link r
  | none => link

/-- `current_link`. -/
def currentLink (member : ℕ) : Option Referral := (Table.get Referral.member w.referrals member).map (current w)

/-- `graph`. -/
def graph : Except Refusal (List Referral) := do
  raiseIf (maxTree < w.referrals.length) (.validation "يلزم توسيع أداة الشجرة قبل متابعة الربط.")
  return w.referrals.map (current w)

/-- The loop of `ancestors`; every round sees one more of the linked members. -/
def ancestorsFrom : ℕ → List ℕ → Option ℕ → Except Refusal (List Member)
  | _, _, none => .ok []
  | 0, _, some _ => .error (.validation "علاقة الدعوة تحتوي دورة غير صحيحة.")
  | rounds + 1, seen, some inviter => do
    raiseIf (inviter ∈ seen) (.validation "علاقة الدعوة تحتوي دورة غير صحيحة.")
    let link ← found (currentLink w inviter) .doesNotExist
    let member ← found (w.member inviter) .doesNotExist
    let rest ← ancestorsFrom rounds (inviter :: seen) link.inviter
    return member :: rest

/-- `ancestors`. -/
def ancestors (member : Member) : Except Refusal (List Member) := do
  let link ← found (currentLink w member.pk) .doesNotExist
  ancestorsFrom w w.referrals.length [member.pk] link.inviter

end

/-- The loop of `chain_ids`. -/
def chainFrom (links : List Referral) : ℕ → List ℕ → ℕ → Except Refusal (List ℕ)
  | 0, _, _ => .error (.validation "لا يمكن تكوين دائرة في علاقات الدعوة.")
  | rounds + 1, seen, member => do
    let link ← found (Table.get Referral.member links member) (.validation "بيانات علاقة العضوية غير مكتملة.")
    match link.inviter with
    | none => return []
    | some parent =>
      raiseIf (parent ∈ seen) (.validation "لا يمكن تكوين دائرة في علاقات الدعوة.")
      let rest ← chainFrom links rounds (parent :: seen) parent
      return parent :: rest

/-- `chain_ids`. -/
def chainIds (member : ℕ) (links : List Referral) : Except Refusal (List ℕ) :=
  chainFrom links (links.length + 1) [member] member

/-- `next_branch`. -/
def nextBranch (w : World) (inviter : Option ℕ) : ℕ :=
  max (((w.referrals.filter fun r => r.inviter == inviter).map (·.branchOrder)).foldr max 0)
    (((w.revisions.filter fun r => some r.inviter == inviter).map (·.branchOrder)).foldr max 0) + 1

/-- `Referral.objects.create` under the constraints of its table. -/
def createReferral (w : World) (link : Referral) : Except Refusal World :=
  if w.referrals.any fun r => r.treeNumber == link.treeNumber then .error (.integrity .treeNumber)
  else if link.inviter = some link.member then .error (.integrity .selfReferral)
  else if w.referrals.any fun r => r.inviter == link.inviter && r.branchOrder == link.branchOrder then
    .error (.integrity (if link.inviter.isSome then .childBranch else .rootBranch))
  else .ok { w with referrals := w.referrals ++ [link] }

/-! ### Linking two members -/

section
variable (site : Site) (w : World)

def linkable (m : Member) : Bool :=
  m.status == .active && site.isActive m.customer && site.participantAllowed m.customer

/-- `validate_pair`. -/
def validatePair (member inviter : ℕ) (links : List Referral) : Except Refusal (Referral × Referral) := do
  raiseIf (member = inviter) (.validation "لا يمكن للعضو دعوة نفسه.")
  let child ← found (Table.get Referral.member links member)
    (.validation "يلزم انضمام الطرفين إلى برنامج الولاء أولًا.")
  let parent ← found (Table.get Referral.member links inviter)
    (.validation "يلزم انضمام الطرفين إلى برنامج الولاء أولًا.")
  let childMember ← found (w.member member) .doesNotExist
  let parentMember ← found (w.member inviter) .doesNotExist
  raiseIf (linkable site childMember = false ∨ linkable site parentMember = false)
    (.validation "إحدى العضويتين غير نشطة أو خارج نطاق البرنامج الحالي.")
  raiseIf (child.inviter = some inviter) (.validation "العضو مرتبط بهذا الداعي بالفعل؛ لا حاجة لإعادة الربط.")
  raiseIf (child.inviter ≠ none)
    (.validation "للعضو داعٍ مباشر مسجل بالفعل؛ لا يمكن إضافة داعٍ ثانٍ أو استبداله هنا.")
  let chain ← chainIds inviter links
  raiseIf (member ∈ chain) (.validation "هذا الربط يكوّن دائرة دعوات؛ اختر داعيًا من خارج فرع العضو.")
  raiseIf (site.invitationEligible w parentMember = false)
    (.validation "الداعي لم يستوفِ شرط أهلية الدعوة بعد أول إقامة مكتملة.")
  return (child, parent)

/-- The members that `affected` is extended by until no invitee is left out. -/
def descendants (links : List Referral) : ℕ → List ℕ → List ℕ
  | 0, affected => affected
  | rounds + 1, affected =>
    match (links.filter fun l => l.inviter.any affected.contains && !affected.contains l.member).map (·.member) with
    | [] => affected
    | added => descendants links rounds (affected ++ added)

/-- The booking belongs to one of the members. -/
def ownedBy (members : List ℕ) (b : Booking) : Option ℕ :=
  members.find? fun key => (w.member key).any fun m => b.customer == some m.customer

/-- A booking that was settled before chains were stored keeps the chain it was settled with. -/
def freezeChain (links : List Referral) (affected : List ℕ) (b : Booking) : Except Refusal Booking :=
  match ownedBy w affected b with
  | none => .ok b
  | some member =>
    if b.loyaltyState.settlement ≠ none ∧ b.loyaltyState.referralChain = none then do
      let chain ← chainIds member links
      return { b with loyaltyState := { b.loyaltyState with referralChain := some chain } }
    else .ok b

/-- The request of the operations owner. -/
structure LinkRequest where
  operator : User
  member : ℕ
  inviter : ℕ
  reason : String
  operation : Uuid
deriving DecidableEq

/-- The revision of a moved member. -/
def movedRevision (q : LinkRequest) (child parent : Referral) (branch : ℕ) (before : Referral) :
    ReferralRevision where
  member := before.member
  inviter := if before.member = q.member then q.inviter else before.inviter.getD q.inviter
  root := parent.root
  treeNumber := parent.treeNumber ++ "-" ++ Dec.padded 4 branch ++
    String.ofList (before.treeNumber.toList.drop child.treeNumber.length)
  depth := before.depth + (parent.depth + 1) - child.depth
  branchOrder := if before.member = q.member then branch else before.branchOrder
  operation := q.operation
  linkedMember := q.member
  operator := q.operator
  reason := Text.strip q.reason

/-- `link_members`. -/
def linkMembers (q : LinkRequest) : Except Refusal World := do
  raiseIf (site.operationsOwner q.operator = false) (.permission "")
  raiseIf ((Text.strip q.reason).length < 5 ∨ 500 < (Text.strip q.reason).length)
    (.validation "اكتب سبب الربط والتحقق من الطرفين بوضوح.")
  postingTransaction site
  match w.revisions.find? fun r => r.operation == q.operation && r.member == q.member with
  | some old =>
    raiseIf (old.inviter ≠ q.inviter ∨ old.reason ≠ Text.strip q.reason ∨ old.operator ≠ q.operator)
      (.validation "لا يمكن استخدام مرجع الربط لعملية مختلفة.")
    return w
  | none =>
    let links ← graph w
    let (child, parent) ← validatePair site w q.member q.inviter links
    let affected := descendants links links.length [q.member]
    let bookings ← w.bookings.mapM (freezeChain w links affected)
    let moved := (links.filter fun l => affected.contains l.member).insertionSort fun a b => a.depth ≤ b.depth
    let revisions := moved.map (movedRevision q child parent (nextBranch w (some q.inviter)))
    raiseIf (revisions.any fun r => w.revisions.any fun old => old.operation == r.operation && old.member == r.member)
      (.integrity .linkOnce)
    raiseIf (revisions.any fun r => r.inviter == r.member) (.integrity .selfReferral)
    return { w with bookings := bookings, revisions := w.revisions ++ revisions }

end

end Apartments.Loyalty
