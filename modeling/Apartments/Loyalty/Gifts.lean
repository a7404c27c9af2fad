import Apartments.Lib.Outcome
import Apartments.Lib.Run
import Apartments.Lib.Table
import Apartments.Loyalty.Models
import Apartments.Text

/-!
# Invitations that a member sends to a phone (`loyalty/phone_gifts.py`, `loyalty/invitation_links.py`)

A request is a receipt of the member whose result is the state of the invitation. A worker claims it in one transaction,
calls the provider outside of any, and records what came back in a second one. The broker may hand a task out any number
of times, and a worker may stop anywhere.
-/

namespace Apartments.Gifts

open Loyalty (User Reply)

inductive Refusal
  | permission
  | validation (text : String)
  | invalidPhone
  | doesNotExist
  | key
deriving DecidableEq, Repr

/-! ### The tables -/

inductive Status
  | queued | sending | accepted | uncertain | queueFailed | disabled | recipientReady
deriving DecidableEq, Repr

/-- The result of a request; `unlimited` is its `limit_policy`. -/
structure Invitation where
  phone : String
  language : String
  status : Status
  requestedAt : Time
  templateVersion : String
  unlimited : Bool
  mediaSha256 : Option String
  deliveryLanguage : Option String
  providerReference : String
  updatedAt : Option Time
deriving DecidableEq

/-- What a receipt answers: an invitation, or what a points command returned. -/
inductive Result
  | invitation (i : Invitation)
  | answer (reply : Reply)
deriving DecidableEq

/-- A value of `command_receipts`; the second is the one under `__pilot_invitation__`. -/
inductive Entry
  | receipt (hash : String) (result : Result)
  | pilot
deriving DecidableEq

/-- The member and the key of a receipt: what the session holds, and the arguments of the task. -/
structure Pointer where
  member : ℕ
  key : String
deriving DecidableEq, Repr

/-- An item of the `command_receipts` of a member. -/
structure Receipt where
  pointer : Pointer
  entry : Entry
deriving DecidableEq

structure Member where
  pk : ℕ
  customer : User
  number : String
  active : Bool
  invitationToken : Option String
deriving DecidableEq

/-- A row of `VerifiedPhone`. -/
structure Binding where
  phone : String
  user : User
deriving DecidableEq

/-- What the key of a `PhoneAuthLimit` is the hash of. -/
structure Window where
  scope : String
  value : String
  bucket : ℕ
deriving DecidableEq, Repr

structure Limit where
  window : Window
  count : ℕ
deriving DecidableEq

/-- The message that the provider is asked to send. -/
structure Message where
  recipient : String
  reference : String
  name : String
  language : String
  url : String
  image : Option String
deriving DecidableEq

/-- What the call of the provider came to: an answer with the reference in it, or an exception, with or without the
message having left. -/
inductive Delivery
  | answered (reference : String)
  | lost (posted : Bool)
deriving DecidableEq

/-- The message has left. -/
def Delivery.posted : Delivery → Bool
  | .answered _ => true
  | .lost posted => posted

inductive Stage
  | claimed
  | called (d : Delivery)
  | finished (d : Delivery)
deriving DecidableEq

/-- A worker that has claimed a request. -/
structure Courier where
  pointer : Pointer
  message : Message
  stage : Stage
deriving DecidableEq

/-- A message that has left. -/
structure Post where
  pointer : Pointer
  message : Message
deriving DecidableEq

structure World where
  members : List Member
  bindings : List Binding
  receipts : List Receipt
  limits : List Limit
  /-- The requests whose `on_commit` has not run. -/
  commits : List Pointer
  /-- The requests whose dispatch raised. -/
  failures : List Pointer
  /-- The tasks that the broker has. -/
  tasks : List Pointer
  couriers : List Courier
  posts : List Post
deriving DecidableEq

/-- The settings, the clock and the reads outside these tables. -/
structure Site where
  now : Time
  enabled : Bool
  uiEnabled : Bool
  launched : Bool
  approvedTerms : Bool
  isAuthenticated : User → Bool
  isActive : User → Bool
  participantAllowed : User → Bool
  accountVerified : User → Bool
  deliveryReady : Bool
  invitationEligible : Member → Bool
  preferredLanguage : User → String
  normalizePhone : String → Option String
  /-- `SITE_BASE_URL`, when its scheme is https and it has a host. -/
  base : Option String
  /-- The digest of the packaged artwork of a language, if it can be read. -/
  artwork : String → Option String
  senderName : Member → String → String

/-- The payloads that are hashed: of a request, or of a points command. -/
inductive Payload
  | invitation (phoneHash language : String)
  | command (payload : Loyalty.Payload)
deriving DecidableEq

/-! ### Reading -/

/-- `PREFIX`. -/
def marker : String := "gift-invite:"

def pilotKey : String := "__pilot_invitation__"

def templateVersion : String := "gift-whatsapp-20261016-v2"

def legacyVersion : String := "gift-whatsapp-20261016-v1"

/-- `SHORT_LENGTH`. -/
def shortLength : ℕ := 16

/-- `invitation_limits_exempt`. -/
def Member.exempt (m : Member) : Bool := m.number == "LSA-M000001"

/-- An absent token is as good as an empty one. -/
def Member.hasToken (m : Member) : Bool := m.invitationToken.any fun token => token != ""

/-- `supported_language`; no letter outside ASCII becomes a letter of one of these codes. -/
def supportedLanguage (value : String) : String :=
  let lowered := (Text.strip value).toList.map Char.toLower
  let code := String.ofList ((lowered.map fun c => if c = '_' then '-' else c).takeWhile (· ≠ '-'))
  if code ∈ ["ar", "en", "fr"] then code else ""

/-- `a or b` of two texts. -/
def orElse (a b : String) : String := if a = "" then b else a

namespace World

variable (w : World)

def member (pk : ℕ) : Option Member := Table.get Member.pk w.members pk

def entry (p : Pointer) : Option Entry := (Table.get Receipt.pointer w.receipts p).map (·.entry)

def putEntry (p : Pointer) (e : Entry) : World := { w with receipts := Table.put Receipt.pointer w.receipts ⟨p, e⟩ }

/-- The invitation under the pointer; the results of the points commands have no status of one. -/
def invitation (p : Pointer) : Option Invitation :=
  match w.entry p with
  | some (.receipt _ (.invitation i)) => some i
  | _ => none

/-- The row that a changed invitation is saved in; its hash stays. -/
def saveInvitation (p : Pointer) (i : Invitation) : World :=
  { w with receipts := Table.modify Receipt.pointer w.receipts p fun r =>
      match r.entry with
      | .receipt hash _ => { r with entry := .receipt hash (.invitation i) }
      | .pilot => r }

def holder (phone : String) : Option Binding := w.bindings.find? fun b => b.phone == phone

end World

section
variable (site : Site) (w : World)

/-- `posting_transaction`. -/
def postingTransaction : Except Refusal Unit := do
  raiseIf (site.enabled = false) (.validation "برنامج الولاء غير مفعّل.")
  raiseIf (site.launched = false) (.validation "تاريخ إطلاق البرنامج غير مثبت.")

/-- `member_for`. -/
def memberFor (user : User) : Except Refusal Member := do
  raiseIf (site.participantAllowed user = false) .permission
  raiseIf (site.isAuthenticated user = false ∨ site.isActive user = false) .permission
  found (w.members.find? fun m => m.customer == user && m.active) (.validation "عضوية غير متاحة.")

/-- `recipient_for_phone`: the member who holds the phone. -/
def recipientForPhone (phone : String) : Option Member :=
  match w.holder phone with
  | none => none
  | some b =>
    if site.isActive b.user = false ∨ site.participantAllowed b.user = false then none
    else w.members.find? fun m => m.customer == b.user && m.active

/-- `recipient_language`. -/
def recipientLanguage (phone : String) : String :=
  match w.holder phone with
  | none => ""
  | some b => if site.participantAllowed b.user = false then "" else supportedLanguage (site.preferredLanguage b.user)

/-- `_enabled`. -/
def isEnabled (user : User) : Bool :=
  site.enabled && site.uiEnabled && site.approvedTerms && site.isActive user && site.participantAllowed user &&
    site.accountVerified user

/-! ### Links -/

/-- The token starts with the code. -/
def Member.aliased (code : String) (m : Member) : Bool :=
  m.invitationToken.any fun token => token.toList.take code.toList.length == code.toList

/-- `invitation_path`: the code in it. -/
def invitationCode (m : Member) (token : String) : String :=
  let code := String.ofList (token.toList.take shortLength)
  if w.members.any fun other => other.pk != m.pk && other.aliased code then token else code

/-- The query of `invitation_shortlink`. -/
def Member.opens (code : String) (m : Member) : Bool :=
  if code.length = shortLength then m.aliased code else m.invitationToken == some code

/-- `invitation_shortlink`: the member whose invitation the link opens. -/
def shortlink (code : String) : Option Member :=
  if site.enabled = false ∨ site.uiEnabled = false ∨ code.length < 16 ∨ 100 < code.length then none
  else
    match w.members.filter (Member.opens code) with
    | [m] =>
      if m.active = false ∨ site.isActive m.customer = false ∨ site.participantAllowed m.customer = false ∨
          site.invitationEligible m = false then none
      else some m
    | _ => none

/-! ### Requests -/

/-- `_limit`: the counters after one more use, and whether it is allowed. -/
def limit (scope value : String) (maximum seconds : ℕ) (limits : List Limit) : List Limit × Bool :=
  let window : Window := ⟨scope, value, site.now / seconds⟩
  let count := ((Table.get Limit.window limits window).map (·.count)).getD 0 + 1
  (Table.put Limit.window limits ⟨window, count⟩, decide (count ≤ maximum))

/-- The seconds of a day. -/
def day : ℕ := 86400

/-- The three limits of a request; the first that is passed rolls all of it back. -/
def countRequest (sender : Member) (phone : String) (limits : List Limit) : Except Refusal (List Limit) := do
  let (limits, free) := limit site "gift-invite-sender" sender.pk.repr 5 day limits
  raiseIf (free = false) (.validation "Invitation request limit.")
  let (limits, free) := limit site "gift-invite-target" phone 1 day limits
  raiseIf (free = false) (.validation "Invitation request limit.")
  let (limits, free) := limit site "gift-invite-global" "site" 50 day limits
  raiseIf (free = false) (.validation "Invitation request limit.")
  return limits

/-- `receipt` for the values that share `command_receipts`. -/
def receipt (p : Pointer) (hash : String) (work : World → Except Refusal (World × Result)) :
    Except Refusal (World × Result) := do
  raiseIf (p.key.length < 3 ∨ 200 < p.key.length) (.validation "مرجع طلب ثابت مطلوب.")
  match w.entry p with
  | some .pilot => .error .key
  | some (.receipt old result) =>
    raiseIf (old ≠ hash) (.validation "استعمل مرجع الطلب ببياناته الأصلية فقط.")
    return (w, result)
  | none =>
    let (w, result) ← work w
    return (w.putEntry p (.receipt hash result), result)

def newInvitation (sender : Member) (phone language : String) : Invitation where
  phone := phone
  language := language
  status := .queued
  requestedAt := site.now
  templateVersion := templateVersion
  unlimited := sender.exempt
  mediaSha256 := none
  deliveryLanguage := none
  providerReference := ""
  updatedAt := none

/-- The work of a request. -/
def requestWork (sender : Member) (p : Pointer) (phone language : String) : Except Refusal (World × Result) := do
  let limits ← if sender.exempt = true then .ok w.limits else countRequest site sender phone w.limits
  return ({ w with limits := limits, commits := w.commits ++ [p] }, .invitation (newInvitation site sender phone language))

/-- The arguments of `queue_invitation`. -/
structure Request where
  user : User
  phone : String
  language : String
  key : String
  consent : Bool
deriving DecidableEq

variable (phoneHash : String → String) (digest : Payload → String)

/-- `queue_invitation`: the tables and the pointer. -/
def queueInvitation (q : Request) : Except Refusal (World × Pointer) := do
  raiseIf (isEnabled site q.user = false ∨ q.consent = false) .permission
  let phone ← found (site.normalizePhone q.phone) .invalidPhone
  let language := orElse (recipientLanguage site w phone) (supportedLanguage q.language)
  raiseIf (language = "" ∨ q.key.toList.take marker.toList.length ≠ marker.toList ∨ 100 < q.key.length ∨
    site.deliveryReady = false) (.validation "Invitation unavailable.")
  postingTransaction site
  let sender ← memberFor site w q.user
  raiseIf (sender.hasToken = false ∨ site.invitationEligible sender = false) (.validation "Invitation not eligible.")
  raiseIf ((recipientForPhone site w phone).isSome = true) (.validation "Review the recipient again.")
  let (w, _) ← receipt w ⟨sender.pk, q.key⟩ (digest (.invitation (phoneHash phone) language)) fun w =>
    requestWork site w sender ⟨sender.pk, q.key⟩ phone language
  return (w, ⟨sender.pk, q.key⟩)

/-! ### Delivery -/

/-- Fifteen minutes. -/
def lifetime : ℕ := 900

def isLate (i : Invitation) : Bool := decide (i.requestedAt + lifetime < site.now)

/-- The message for an invitation and the digest of its artwork; `none` when the design is not available. -/
def composed (sender : Member) (p : Pointer) (i : Invitation) (language : String) : Option (Message × Option String) :=
  match site.base with
  | none => none
  | some base =>
    let token := sender.invitationToken.getD ""
    let message : Option String → Message := fun image =>
      { recipient := i.phone
        reference := "lsa-gift-" ++ String.ofList ((phoneHash (p.member.repr ++ p.key)).toList.take 32)
        name := site.senderName sender language
        language := language
        url := base ++ "/i/" ++ invitationCode w sender token ++ "/"
        image := image }
    if i.templateVersion = templateVersion then (site.artwork language).map fun media => (message (some media), some media)
    else if i.templateVersion = legacyVersion then some (message none, i.mediaSha256)
    else none

/-- The request is not to be sent any more. -/
def isClosed (sender : Member) (i : Invitation) : Bool :=
  !isEnabled site sender.customer || !sender.active || !sender.hasToken || !site.invitationEligible sender ||
    !site.deliveryReady || isLate site i

/-- The transaction in which `deliver_invitation` claims a request. -/
def claim (p : Pointer) : Except Refusal World := do
  postingTransaction site
  let sender ← found (w.member p.member) .doesNotExist
  match w.invitation p with
  | none => return w
  | some i =>
    if i.status ≠ .queued then return w
    else if isClosed site sender i = true then return w.saveInvitation p { i with status := .disabled }
    else if (recipientForPhone site w i.phone).isSome = true then
      return w.saveInvitation p { i with status := .recipientReady }
    else
      let language := orElse (recipientLanguage site w i.phone) i.language
      match composed site w phoneHash sender p i language with
      | none => return w.saveInvitation p { i with status := .disabled }
      | some (message, media) =>
        let sent := { i with status := .sending, deliveryLanguage := some language, mediaSha256 := media }
        return { w.saveInvitation p sent with couriers := w.couriers ++ [⟨p, message, .claimed⟩] }

/-- `_finish`. -/
def finish (p : Pointer) (status expected : Status) (providerReference : String) : Except Refusal World := do
  postingTransaction site
  let _ ← found (w.member p.member) .doesNotExist
  match w.invitation p with
  | none => return w
  | some i =>
    if i.status = expected then
      return w.saveInvitation p { i with
        status := status
        updatedAt := some site.now
        providerReference := orElse providerReference i.providerReference }
    else return w

/-- What a worker records of its call. -/
def Delivery.record (d : Delivery) (p : Pointer) : Except Refusal World :=
  match d with
  | .answered reference => finish site w p .accepted .sending reference
  | .lost _ => finish site w p .uncertain .sending ""

/-! ### What the guest is told -/

/-- `invitation_status`: the end of the phone and the status. -/
def invitationStatus (user : User) (p : Pointer) : Option (String × Status) :=
  match w.members.find? fun m => m.customer == user with
  | none => none
  | some m =>
    if m.pk ≠ p.member then none
    else
      (w.invitation p).map fun i =>
        ("••••" ++ String.ofList (i.phone.toList.drop (i.phone.toList.length - 4)),
          if (i.status = .queued ∨ i.status = .sending) ∧ isLate site i = true then .uncertain else i.status)

end

/-! ### Runs -/

inductive Action
  | request (site : Site) (q : Request)
  /-- `on_commit`: the broker may take the task and the call raise all the same. -/
  | dispatch (i : ℕ) (taken raised : Bool)
  | fail (i : ℕ) (site : Site)
  | claim (i : ℕ) (site : Site)
  | call (i : ℕ) (d : Delivery)
  | finish (i : ℕ) (site : Site)
  /-- A points command of the member; `withdraw` closes the membership. -/
  | command (p : Pointer) (payload : Loyalty.Payload) (reply : Reply) (closes : Bool)
  /-- `issue_invite`, once the stay is shown to qualify; a stay that is an exception leaves the mark. -/
  | issue (pk : ℕ) (token : String) (exception : Bool)
  | join (m : Member)
  | bind (bindings : List Binding)

section
variable (phoneHash : String → String) (digest : Payload → String)

/-- What an operation leaves; one that raises is rolled back. -/
def World.commit (w : World) (op : Except Refusal World) : World :=
  match op with
  | .ok w' => w'
  | .error _ => w

/-- A points command under its receipt. -/
def command (w : World) (p : Pointer) (payload : Loyalty.Payload) (reply : Reply) (closes : Bool) :
    Except Refusal World := do
  let _ ← found (w.member p.member) .doesNotExist
  let (w, _) ← receipt w p (digest (.command payload)) fun w => .ok ({ w with
    members := Table.modify Member.pk w.members p.member fun m => if closes then { m with active := false } else m },
    .answer reply)
  return w

/-- A new token has 43 characters, and no other member has it. -/
def World.issue (w : World) (pk : ℕ) (token : String) (exception : Bool) : World :=
  match w.member pk with
  | none => w
  | some m =>
    if m.active = false ∨ m.hasToken = true ∨ token.length ≠ 43 ∨
        (w.members.any fun o => o.invitationToken == some token) = true then w
    else
      let w := if exception then w.putEntry ⟨pk, pilotKey⟩ .pilot else w
      { w with members := Table.modify Member.pk w.members pk fun m => { m with invitationToken := some token } }

def step (w : World) : Action → World
  | .request site q => w.commit ((queueInvitation site w phoneHash digest q).map (·.1))
  | .dispatch i taken raised =>
    match w.commits[i]? with
    | none => w
    | some p => { w with
        commits := w.commits.eraseIdx i
        tasks := if taken then w.tasks ++ [p] else w.tasks
        failures := if raised then w.failures ++ [p] else w.failures }
  | .fail i site =>
    match w.failures[i]? with
    | none => w
    | some p => { w.commit (finish site w p .queueFailed .queued "") with failures := w.failures.eraseIdx i }
  | .claim i site =>
    match w.tasks[i]? with
    | none => w
    | some p => w.commit (claim site w phoneHash p)
  | .call i d =>
    match w.couriers[i]? with
    | none => w
    | some c =>
      if c.stage = .claimed then { w with
        couriers := w.couriers.set i { c with stage := .called d }
        posts := if d.posted then w.posts ++ [⟨c.pointer, c.message⟩] else w.posts }
      else w
  | .finish i site =>
    match w.couriers[i]? with
    | none => w
    | some c =>
      match c.stage with
      | .called d =>
        { w.commit (d.record site w c.pointer) with couriers := w.couriers.set i { c with stage := .finished d } }
      | _ => w
  | .command p payload reply closes => w.commit (command digest w p payload reply closes)
  | .issue pk token exception => w.issue pk token exception
  | .join m => if w.members.any fun o => o.pk == m.pk || o.customer == m.customer then w
      else { w with members := w.members ++ [{ m with active := true, invitationToken := none }] }
  | .bind bindings => { w with bindings := bindings }

end

end Apartments.Gifts
