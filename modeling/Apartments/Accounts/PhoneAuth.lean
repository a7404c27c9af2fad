import Apartments.Models
import Apartments.Lib.Run

/-!
# Signing in by phone (`accounts/phone_auth.py`, `accounts/identity.py`)

`begin` reads the bindings of a number without a lock, each in a query of its own, and stores a challenge later;
`deliver_phone_code` claims the challenge, asks the provider and writes the outcome; `consume` and `update_identity` are
each one transaction under the lock of identities. A number that `begin` is given is already normalized; `uuid4` is a
count of the versions so far.
-/

namespace Apartments.PhoneAuth

/-- A row of `VerifiedPhone`, or of `ApprovedPhoneChange`. -/
structure Binding where
  user : ℕ
  phone : String
  version : ℕ
deriving DecidableEq

inductive Purpose
  | bind | login
deriving DecidableEq, Repr

inductive ChallengeStatus
  | pending | sending | sent | failed | superseded | locked | consumed
deriving DecidableEq, Repr

/-- A row of `PhoneChallenge`; its key is its place in the table. -/
structure PhoneChallenge where
  user : Option ℕ
  phone : String
  purpose : Purpose
  bindingVersion : Option ℕ
  session : ℕ
  codeDigest : String
  status : ChallengeStatus
  attempts : ℕ
  createdAt : Time
  expiresAt : Time

/-- What the checks read of a user; `eligible` is all of `allowed` but the proofs of an address or a number. -/
structure Account where
  eligible : Bool
  emailVerified : Bool
  member : Bool
  contact : String

/-- A request with the hash of its session's key, the user it is signed in as, and `recent_primary`. -/
structure Request where
  session : ℕ
  user : Option ℕ
  recentPrimary : Bool

/-- A call of `begin` after its first query, and after its checks. -/
inductive BeginStage
  | found (binding : Option Binding)
  | checked (user version : Option ℕ)

structure Begin where
  request : Request
  phone : String
  purpose : Purpose
  stage : BeginStage

/-- A task that claimed a challenge: before the call of the provider, and after it. -/
inductive Courier
  | claimed | submitted
deriving DecidableEq

/-- A challenge that `consume` has consumed, and when. -/
structure Consumption where
  key : ℕ
  session : ℕ
  at' : Time
  attempts : ℕ
  user : ℕ
  phone : String
  purpose : Purpose
  version : Option ℕ
deriving DecidableEq

structure World where
  now : Time
  ready : Bool
  accounts : ℕ → Account
  verified : List Binding
  approved : List Binding
  versions : ℕ
  challenges : List PhoneChallenge
  pending : ℕ → Option ℕ
  calls : ℕ → Option Begin
  couriers : ℕ → Option Courier
  consumptions : List Consumption

/-- A call of `update_identity`; `permitted` is what it checks of the owner, of the account and of the e-mail address. -/
structure IdentityChange where
  user : ℕ
  phone : String
  emailChanged : Bool
  permitted : Bool
  expectedPhone : String
  expectedBinding : Option ℕ
  expectedPending : Option ℕ

inductive Action
  | wait (seconds : ℕ)
  | configure (ready : Bool)
  /-- Other code writes the account. -/
  | account (user : ℕ) (account : Account)
  /-- The session gets another key and keeps its data. -/
  | rotate (session session' : ℕ)
  | begin (i : ℕ) (request : Request) (phone : String) (purpose : Purpose)
  /-- The second query of `begin` and its checks; `limited` says that one of the limits is reached. -/
  | check (i : ℕ) (limited : Bool)
  | store (i : ℕ)
  | dispatchFails (key : ℕ)
  | deliver (key : ℕ) (code : String)
  /-- The second check of the task, and the call of the provider. -/
  | submit (key : ℕ)
  | accepted (key : ℕ)
  | raise (key : ℕ)
  | crash (key : ℕ)
  | consume (request : Request) (submitted : String) (limited : Bool)
  | update (change : IdentityChange)

variable (normalize : String → Option String) (digest : ℕ → String → String)

/-- Still on its way to be consumed. -/
def ChallengeStatus.isOpen (s : ChallengeStatus) : Bool := s == .pending || s == .sending || s == .sent

/-- Six ASCII digits. -/
def sixDigits (submitted : String) : Bool := submitted.length == 6 && submitted.toList.all Char.isDigit

namespace PhoneChallenge

def supersede (c : PhoneChallenge) : PhoneChallenge := { c with status := .superseded, codeDigest := "" }

def claim (c : PhoneChallenge) (codeDigest : String) : PhoneChallenge :=
  { c with codeDigest := codeDigest, status := .sending }

def fail (c : PhoneChallenge) : PhoneChallenge := { c with status := .failed, codeDigest := "" }

/-- A submitted code was wrong; the fifth one locks. -/
def miss (c : PhoneChallenge) : PhoneChallenge :=
  if 5 ≤ c.attempts + 1 then { c with attempts := c.attempts + 1, status := .locked, codeDigest := "" }
  else { c with attempts := c.attempts + 1 }

def use (c : PhoneChallenge) : PhoneChallenge :=
  { c with attempts := c.attempts + 1, status := .consumed, codeDigest := "" }

end PhoneChallenge

namespace World

variable (w : World)

def verifiedOf (user : ℕ) : Option Binding := w.verified.find? fun b => b.user == user

def approvedOf (user : ℕ) : Option Binding := w.approved.find? fun b => b.user == user

/-- `allowed`. -/
def allowed (user : Option ℕ) : Bool :=
  user.any fun u =>
    (w.accounts u).eligible &&
      ((w.accounts u).emailVerified || (w.verifiedOf u).isSome || (w.approvedOf u).isSome)

/-- `identity_locked`. -/
def identityLocked (user : ℕ) : Bool :=
  (w.accounts user).member || (w.verifiedOf user).isSome || (w.approvedOf user).isSome

/-- `can_bind_phone`. -/
def canBindPhone (user : ℕ) (phone : String) : Bool :=
  if w.approved.any fun b => b.user == user || b.phone == phone then false
  else
    !w.identityLocked user || (w.accounts user).contact == "" || normalize (w.accounts user).contact == some phone

/-- The row that a challenge was sent for. -/
def isBindingOf (c : PhoneChallenge) (b : Binding) : Bool :=
  c.user == some b.user && b.phone == c.phone && c.bindingVersion == some b.version

/-- `_current_binding`. -/
def currentBinding (c : PhoneChallenge) : Bool :=
  w.verified.any (isBindingOf c) || w.approved.any (isBindingOf c)

def setCall (i : ℕ) (call : Option Begin) : World :=
  { w with calls := fun j => if j = i then call else w.calls j }

def setCourier (key : ℕ) (courier : Option Courier) : World :=
  { w with couriers := fun k => if k = key then courier else w.couriers k }

def setPending (session : ℕ) (key : Option ℕ) : World :=
  { w with pending := fun s => if s = session then key else w.pending s }

def write (key : ℕ) (c : PhoneChallenge) : World := { w with challenges := w.challenges.set key c }

/-- `PhoneChallenge.objects.filter(pk=key, status=status).update(...)`. -/
def updateIf (key : ℕ) (status : ChallengeStatus) (f : PhoneChallenge → PhoneChallenge) : World :=
  match w.challenges[key]? with
  | some c => if c.status = status then w.write key (f c) else w
  | none => w

/-- The second query of `begin` with all its checks: whom the number belongs to, and the version of that binding. -/
def beginUser (call : Begin) (binding : Option Binding) : Option (Option ℕ × Option ℕ) :=
  let pending := w.approved.find? fun b => b.phone == call.phone
  let version := (binding <|> pending).map Binding.version
  match call.purpose, call.request.user with
  | .bind, some user =>
    if w.allowed (some user) && (w.accounts user).emailVerified && call.request.recentPrimary &&
        (w.verifiedOf user).isNone && binding.isNone && pending.isNone && w.canBindPhone normalize user call.phone then
      some (some user, version)
    else none
  | .bind, none => none
  | .login, none => some ((binding <|> pending).map Binding.user, version)
  | .login, some _ => none

/-- The earlier challenge of the same session gives way. -/
def supersedePrevious (session : ℕ) : World :=
  match w.pending session with
  | none => w
  | some key =>
    match w.challenges[key]? with
    | none => w
    | some c => if c.session = session ∧ c.status.isOpen then w.write key c.supersede else w

/-- The challenge that `begin` creates; a user whom the code may not sign in is left out. -/
def newChallenge (call : Begin) (user version : Option ℕ) : PhoneChallenge where
  user := if w.allowed user then user else none
  phone := call.phone
  purpose := call.purpose
  bindingVersion := version
  session := call.request.session
  codeDigest := ""
  status := .pending
  attempts := 0
  createdAt := w.now
  expiresAt := w.now + 300

def add (c : PhoneChallenge) : World := { w with challenges := w.challenges ++ [c] }

/-- The transaction of `begin`. -/
def create (call : Begin) (user version : Option ℕ) : World :=
  ((w.supersedePrevious call.request.session).add (w.newChallenge call user version)).setPending call.request.session
    (some w.challenges.length)

/-- Whether `deliver_phone_code` claims the challenge. -/
def deliverable (c : PhoneChallenge) : Bool :=
  w.ready && c.status == .pending && decide (w.now < c.expiresAt) && w.allowed c.user &&
    match c.purpose with
    | .login => w.currentBinding c
    | .bind => c.user.any fun u => w.canBindPhone normalize u c.phone

/-- `VerifiedPhone.objects.create`; the user and the number are unique. -/
def verify (user : ℕ) (phone : String) : Option World :=
  if w.verified.any fun b => b.user == user || b.phone == phone then none
  else some { w with verified := w.verified ++ [⟨user, phone, w.versions⟩], versions := w.versions + 1 }

/-- What `consume` writes beside the challenge once the code is right; `none` if it refuses. -/
def accept (request : Request) (c : PhoneChallenge) (user : ℕ) : Option World :=
  match c.purpose with
  | .bind =>
    if request.user = some user ∧ request.recentPrimary ∧ w.canBindPhone normalize user c.phone then
      (w.verify user c.phone).map fun w =>
        { w with
          accounts := fun u => if u = user then { w.accounts u with contact := c.phone } else w.accounts u }
    else none
  | .login =>
    if request.user.isSome ∨ ¬ w.currentBinding c then none
    else
      match w.approved.find? (isBindingOf c) with
      | none => some w
      | some p => (w.verify user c.phone).map fun w => { w with approved := w.approved.filter (· ≠ p) }

def log (e : Consumption) : World := { w with consumptions := w.consumptions ++ [e] }

/-- The challenge is consumed, and the session forgets it. -/
def consumed (request : Request) (key : ℕ) (c : PhoneChallenge) (user : ℕ) : World :=
  ((w.write key c.use).log
    ⟨key, request.session, w.now, c.attempts + 1, user, c.phone, c.purpose, c.bindingVersion⟩).setPending
    request.session none

/-- `consume`. -/
def consume (request : Request) (submitted : String) (limited : Bool) : World :=
  match w.pending request.session with
  | none => w
  | some key =>
    match w.challenges[key]? with
    | none => w
    | some c =>
      match c.user with
      | none => w
      | some user =>
        if !w.ready || limited || c.status != .sent || decide (c.expiresAt ≤ w.now) || decide (5 ≤ c.attempts) ||
            c.session != request.session || !w.allowed (some user) then w
        else if !(sixDigits submitted && c.codeDigest == digest key submitted) then w.write key c.miss
        else
          match w.accept normalize request c user with
          | none => w
          | some w => w.consumed request key c user

/-- `current_phone`. -/
def currentPhone (user : ℕ) : String :=
  match w.approvedOf user, w.verifiedOf user with
  | some b, _ => b.phone
  | none, some b => b.phone
  | none, none => (w.accounts user).contact

/-- What `update_identity` checks before it writes. -/
def admits (x : IdentityChange) : Bool :=
  x.permitted && x.expectedPhone == w.currentPhone x.user &&
    x.expectedBinding == (w.verifiedOf x.user).map Binding.version &&
    x.expectedPending == (w.approvedOf x.user).map Binding.version &&
    !((w.verified ++ w.approved).any fun b => b.user != x.user && b.phone == x.phone) &&
    !(w.currentPhone x.user != "" && x.phone == "") &&
    (x.emailChanged || w.currentPhone x.user != x.phone)

/-- The number is replaced: the credential goes, and the new number waits for its proof. -/
def replacePhone (x : IdentityChange) : World :=
  { w with
    verified := w.verified.filter (·.user != x.user)
    approved := w.approved.filter (·.user != x.user) ++ [⟨x.user, x.phone, w.versions⟩]
    versions := w.versions + 1
    accounts := fun u => if u = x.user then { w.accounts u with contact := x.phone } else w.accounts u }

/-- The proof of a replaced address lapses, and the codes of the user that are still open give way. -/
def closeCodes (x : IdentityChange) : World :=
  { w with
    accounts := fun u =>
      if u = x.user ∧ x.emailChanged then { w.accounts u with emailVerified := false } else w.accounts u
    challenges := w.challenges.map fun c => if c.user = some x.user ∧ c.status.isOpen then c.supersede else c }

/-- `update_identity`. -/
def updateIdentity (x : IdentityChange) : World :=
  if w.admits x then
    if w.currentPhone x.user ≠ x.phone then (w.replacePhone x).closeCodes x else w.closeCodes x
  else w

end World

open World

def step (w : World) : Action → World
  | .wait seconds => { w with now := w.now + seconds }
  | .configure ready => { w with ready := ready }
  | .account user account => { w with accounts := fun u => if u = user then account else w.accounts u }
  | .rotate session session' => (w.setPending session' (w.pending session)).setPending session none
  | .begin i request phone purpose =>
    if w.ready ∧ (w.calls i).isNone then
      w.setCall i (some ⟨request, phone, purpose, .found (w.verified.find? fun b => b.phone == phone)⟩)
    else w
  | .check i limited =>
    match w.calls i with
    | some call =>
      match call.stage with
      | .found binding =>
        match w.beginUser normalize call binding with
        | some (user, version) =>
          w.setCall i (if limited then none else some { call with stage := .checked user version })
        | none => w.setCall i none
      | .checked .. => w
    | none => w
  | .store i =>
    match w.calls i with
    | some call =>
      match call.stage with
      | .checked user version => (w.create call user version).setCall i none
      | .found _ => w
    | none => w
  | .dispatchFails key => w.updateIf key .pending fun c => { c with status := .failed }
  | .deliver key code =>
    match w.challenges[key]? with
    | some c =>
      if w.deliverable normalize c then
        (w.write key (c.claim (digest key code))).setCourier key (some .claimed)
      else w
    | none => w
  | .submit key =>
    if w.couriers key = some .claimed then
      if w.challenges[key]?.any fun c => c.status == .sending && decide (w.now < c.expiresAt) then
        w.setCourier key (some .submitted)
      else w.setCourier key none
    else w
  | .accepted key =>
    if w.couriers key = some .submitted then
      (w.updateIf key .sending fun c => { c with status := .sent }).setCourier key none
    else w
  | .raise key =>
    if (w.couriers key).isSome then (w.updateIf key .sending PhoneChallenge.fail).setCourier key none else w
  | .crash key => w.setCourier key none
  | .consume request submitted limited => w.consume normalize digest request submitted limited
  | .update change => w.updateIdentity change

/-- No number is verified, and no code is asked for. -/
def initial : World where
  now := 0
  ready := true
  accounts := fun _ => ⟨true, true, false, ""⟩
  verified := []
  approved := []
  versions := 0
  challenges := []
  pending := fun _ => none
  calls := fun _ => none
  couriers := fun _ => none
  consumptions := []

/-- The world after the steps `as`. -/
abbrev after (as : List Action) : World := Machine.run (step normalize digest) initial as

end Apartments.PhoneAuth
