import Apartments.Loyalty.Invitations

/-!
# The invitation controller (`integrations/n8n/loyalty/controller.cjs`, `policy.cjs`)

A run of the controller asks the website for a claim and for a permit, hands one message to the provider and waits for its
receipt. It is a function of its state and of the answer to its last request. Any number of runs work beside the other
callers of the registry; the website may work a request off again, and any answer may be lost.
-/

namespace Apartments.Controller

/-! ### Values -/

/-- A value of JSON; an object or a list is its `String()`, and numbers are whole. -/
inductive Json
  | undefined
  | null
  | bool (b : Bool)
  | number (n : ℤ)
  | text (s : String)
  | other (shown : String)
deriving DecidableEq

namespace Json

def truthy : Json → Bool
  | undefined | null => false
  | bool b => b
  | number n => n != 0
  | text s => s != ""
  | other _ => true

/-- `String(value)`. -/
def str : Json → String
  | undefined => "undefined"
  | null => "null"
  | bool b => if b then "true" else "false"
  | number n => toString n
  | text s => s
  | other shown => shown

/-- `===`; two objects that were read are never the same. -/
def same (v w : Json) : Bool :=
  match v with
  | other _ => false
  | _ => v == w

/-- `String(value || '')`. -/
def shown (v : Json) : String := if v.truthy then v.str else ""

end Json

abbrev Fields := List (String × Json)

def get (fields : Fields) (name : String) : Json := (fields.lookup name).getD .undefined

/-- A body; `messages` are its elements, or those of the list that it has under this name. -/
structure Body where
  fields : Fields
  messages : List Fields
deriving DecidableEq

/-- An answer, or the error in its place; the body is `response?.body ?? response`. -/
structure Response where
  error : Bool
  statusCode : Option ℕ
  body : Option Body
deriving DecidableEq

namespace Response

variable (r : Response)

/-- `Number(response?.statusCode || fallback)`. -/
def status (fallback : ℕ) : ℕ :=
  match r.statusCode with
  | none | some 0 => fallback
  | some n => n

/-- A field of the body. -/
def field (name : String) : Json := (r.body.map fun b => get b.fields name).getD .undefined

def messages : List Fields := (r.body.map Body.messages).getD []

/-- An answer of the website, with the code that all is well. -/
def fine : Bool := !r.error && r.status 200 == 200 && r.field "code" == .text "ok"

end Response

/-! ### `policy.cjs` -/

/-- `\p{Cf}`. -/
def isFormat (c : Char) : Bool :=
  let n := c.toNat
  n == 0xAD || (0x600 ≤ n && n ≤ 0x605) || n == 0x61C || n == 0x6DD || n == 0x70F || (0x890 ≤ n && n ≤ 0x891) ||
    n == 0x8E2 || n == 0x180E || (0x200B ≤ n && n ≤ 0x200F) || (0x202A ≤ n && n ≤ 0x202E) || (0x2060 ≤ n && n ≤ 0x2064) ||
    (0x2066 ≤ n && n ≤ 0x206F) || n == 0xFEFF || (0xFFF9 ≤ n && n ≤ 0xFFFB) || n == 0x110BD || n == 0x110CD ||
    (0x13430 ≤ n && n ≤ 0x1343F) || (0x1BCA0 ≤ n && n ≤ 0x1BCA3) || (0x1D173 ≤ n && n ≤ 0x1D17A) ||
    n == 0xE0001 || (0xE0020 ≤ n && n ≤ 0xE007F)

/-- `\s`. -/
def isSpace (c : Char) : Bool :=
  let n := c.toNat
  (0x9 ≤ n && n ≤ 0xD) || n == 0x20 || n == 0xA0 || n == 0x1680 || (0x2000 ≤ n && n ≤ 0x200A) || n == 0x2028 ||
    n == 0x2029 || n == 0x202F || n == 0x205F || n == 0x3000 || n == 0xFEFF

/-- An Arabic or a Persian digit as a digit. -/
def asciiDigit (c : Char) : Char :=
  let n := c.toNat
  if 0x660 ≤ n ∧ n ≤ 0x669 then Char.ofNat (n - 0x660 + 48)
  else if 0x6F0 ≤ n ∧ n ≤ 0x6F9 then Char.ofNat (n - 0x6F0 + 48)
  else c

/-- `normalizePhone`; the trimmed spaces are among those that are taken out. -/
def normalizePhone (value : Json) : Option String :=
  let raw := (value.shown.toList.filter (!isFormat ·)).map asciiDigit
  let phone := raw.filter fun c => !isSpace c && !(c == '(' || c == ')' || c == '.' || c == '-')
  let international := ['+'].isPrefixOf phone || ['0', '0'].isPrefixOf phone
  let phone := if ['+'].isPrefixOf phone then phone.drop 1 else phone
  let phone := if ['0', '0'].isPrefixOf phone then phone.drop 2 else phone
  let phone :=
    if !international && ['0', '5'].isPrefixOf phone && phone.length == 10 && phone.all Char.isDigit then
      ['9', '6', '6'] ++ phone.drop 1
    else if !international && ['5'].isPrefixOf phone && phone.length == 9 && phone.all Char.isDigit then
      ['9', '6', '6'] ++ phone
    else phone
  if phone.head? ≠ some '0' ∧ phone.all Char.isDigit = true ∧ 8 ≤ phone.length ∧ phone.length ≤ 15 then
    some (String.ofList phone)
  else none

/-- `internationalPhone`; `none` where it raises. -/
def internationalPhone (value : Json) : Option String := (normalizePhone value).map ("+" ++ ·)

/-- What `candidate` finds for a booking that is eligible. -/
structure Candidate where
  reservationKey : String
  phone : String
  guestEmail : String
  language : String
  guestName : String
  sourcePlatform : String
  eventId : String
deriving DecidableEq

/-- The claim of a run. -/
structure Claim where
  invitationId : Json
  ticket : Json
  referenceId : Json
deriving DecidableEq

inductive Decision
  | skip (reason : String)
  | attention (reason : String)
  | go (claim : Claim)
deriving DecidableEq

/-- `claimDecision`. -/
def claimDecision (candidate : Candidate) (r : Response) : Decision :=
  if r.fine = false then .attention "membership_lookup_unavailable"
  else if r.field "decision" ∈ ["member", "duplicate", "blocked", "phone_missing"].map Json.text then
    .skip (r.field "decision").str
  else if r.field "decision" ≠ .text "eligible" ∨ r.field "send_allowed" ≠ .bool false ∨
      (r.field "invitation_id").truthy = false ∨ (r.field "ticket").truthy = false ∨
      (r.field "provider_reference").truthy = false ∨
      normalizePhone (r.field "recipient_phone") ≠ some candidate.phone then .attention "membership_claim_unverified"
  else .go ⟨r.field "invitation_id", r.field "ticket", r.field "provider_reference"⟩

section
variable (parseDate : Json → Option ℕ)

/-- `preflight`; `parseDate` is `Date.parse`, without a result where it is no number. -/
def preflight (candidate : Candidate) (claim : Claim) (r : Response) (now : ℕ) : Decision :=
  if r.fine = false then .attention "preflight_unavailable"
  else if r.field "send_allowed" ≠ .bool true ∨ r.field "decision" ≠ .text "eligible" then
    .skip (if r.field "decision" = .text "member" then "member" else "preflight_denied")
  else if (r.field "invitation_id").same claim.invitationId = false ∨
      (r.field "provider_reference").same claim.referenceId = false ∨
      normalizePhone (r.field "recipient_phone") ≠ some candidate.phone ∨
      (parseDate (r.field "send_expires_at")).all (· ≤ now) = true then .attention "preflight_identity_mismatch"
  else .go claim

end

inductive EvidenceState
  | accepted | failed | unknown | delivered | read
deriving DecidableEq

def EvidenceState.text : EvidenceState → String
  | accepted => "accepted"
  | failed => "failed"
  | unknown => "unknown"
  | delivered => "delivered"
  | read => "read"

structure Evidence where
  state : EvidenceState
  providerId : String
  delivered : Bool
deriving DecidableEq

/-- `sendEvidence`; an identifier that is missing is the empty one. -/
def sendEvidence (r : Response) : Evidence :=
  let id := if r.field "id" = .null ∨ r.field "id" = .undefined then "" else (r.field "id").str
  let error := r.error || (r.field "error").truthy
  let yes := r.field "sent" = .bool true ∨ r.field "sent" = .text "true"
  if error = false ∧ r.status 0 < 400 ∧ id ≠ "" ∧ yes then ⟨.accepted, id, false⟩
  else if id = "" ∧ 400 ≤ r.status 0 ∧ r.status 0 < 500 ∧ r.status 0 ≠ 408 then ⟨.failed, "", false⟩
  else ⟨.unknown, id, false⟩

def lower (s : String) : String := s.map Char.toLower

/-- `String(r.to || '').replace(/@c\.us$/, '')`. -/
def recipient (row : Fields) : String :=
  let shown := (get row "to").shown
  if "@c.us".toList <:+ shown.toList then String.ofList (shown.toList.take (shown.length - 5)) else shown

/-- A row of the provider that is about the message of this reference, for this phone. -/
def names (referenceId : Json) (phone : String) (row : Fields) : Bool :=
  normalizePhone (.text (recipient row)) == some phone && .text (get row "referenceId").shown == referenceId

def ack (row : Fields) : String := lower (get row "ack").shown

/-- `receiptEvidence`. -/
def receiptEvidence (r : Response) (providerId : String) (referenceId : Json) (phone : String) : Evidence :=
  if r.error = true ∨ 400 ≤ r.status 200 then ⟨.unknown, "", false⟩
  else
    match r.messages.filter fun row =>
      (providerId == "" || (get row "id").str == providerId) && names referenceId phone row with
    | [row] =>
      if lower (get row "status").shown ∈ ["invalid", "unsent", "expired"] then ⟨.failed, "", false⟩
      else if ack row ∈ ["read", "played"] then ⟨.read, (get row "id").str, true⟩
      else if ack row = "device" then ⟨.delivered, (get row "id").str, true⟩
      else ⟨.accepted, (get row "id").str, false⟩
    | _ => ⟨.unknown, "", false⟩

/-! ### `controller.cjs` -/

/-- What `render` makes for a candidate. -/
structure Packet where
  language : String
  caption : String
  imageBase64 : String
deriving DecidableEq

structure ClaimRequest where
  reservationKey : String
  phone : String
  email : String
  language : String
  guestName : String
  sourcePlatform : String
  eventId : String
deriving DecidableEq

/-- The message that is handed to the provider. -/
structure Post where
  recipient : String
  image : String
  caption : String
  referenceId : Json
deriving DecidableEq

/-- The action of a run, with its request. -/
inductive Act
  | done
  | attention
  | claim (request : ClaimRequest)
  | preflight (invitationId ticket : Json) (phone : String)
  | send (post : Post)
  | record (invitationId providerReference : Json) (providerId status : String)
  | wait
  | receipt (id : String) (referenceId : Json)
  | status (invitationId : Json)
deriving DecidableEq

/-- The state of a run; an empty `providerId` is none, and `claim` is read where there is one. -/
structure Run where
  candidate : Candidate
  packet : Packet
  posts : ℕ
  claim : Claim
  reason : Option String
  sendExpiresAt : Json
  deadline : Option ℕ
  providerId : String
  evidence : Option Evidence
  finished : Bool
  act : Act
deriving DecidableEq

/-- `start`, for a candidate that is eligible; `none` where it raises. -/
def start (candidate : Candidate) (packet : Packet) : Option Run :=
  if candidate.language ≠ packet.language then none
  else
    (internationalPhone (.text candidate.phone)).map fun phone => {
      candidate := candidate
      packet := packet
      posts := 0
      claim := ⟨.undefined, .undefined, .undefined⟩
      reason := none
      sendExpiresAt := .undefined
      deadline := none
      providerId := ""
      evidence := none
      finished := false
      act := .claim {
        reservationKey := candidate.reservationKey
        phone := phone
        email := candidate.guestEmail
        language := candidate.language
        guestName := candidate.guestName
        sourcePlatform := candidate.sourcePlatform
        eventId := candidate.eventId } }

namespace Run

variable (s : Run)

def next (act : Act) : Run := { s with act := act }

def attention (reason : String) : Run := { s with reason := some reason, act := .attention }

def done (reason : String) : Run := { s with reason := some reason, act := .done }

def askStatus : Run := s.next (.status s.claim.invitationId)

/-- The shortcut for an invitation that was handed out before. -/
def repeated (r : Response) : Bool :=
  r.fine && r.field "decision" == .text "duplicate" &&
    (r.field "status" == .text "accepted" || r.field "status" == .text "unknown") &&
    (r.field "invitation_id").truthy && (r.field "provider_reference").truthy

/-- `receive`, for the answer to a claim. -/
def receiveClaim (r : Response) : Run :=
  if repeated r = true then
    askStatus { s with
      claim := ⟨r.field "invitation_id", .undefined, r.field "provider_reference"⟩
      reason := some "previous_invitation_requires_reconciliation" }
  else
    match claimDecision s.candidate r with
    | .skip reason => s.done reason
    | .attention reason => s.attention reason
    | .go claim =>
      next { s with claim := claim }
        (.preflight claim.invitationId claim.ticket ((internationalPhone (.text s.candidate.phone)).getD ""))

/-- The message of a run. -/
def post : Post := ⟨s.candidate.phone, s.packet.imageBase64, s.packet.caption, s.claim.referenceId⟩

/-- `receive`, for the answer to a preflight. -/
def receivePreflight (parseDate : Json → Option ℕ) (r : Response) (now : ℕ) : Run :=
  match Controller.preflight parseDate s.candidate s.claim r now with
  | .skip reason => s.done reason
  | .attention reason => askStatus { s with reason := some reason }
  | .go _ =>
    if s.posts ≠ 0 then s.attention "duplicate_post_prevented"
    else
      next { s with
        posts := 1
        sendExpiresAt := r.field "send_expires_at"
        deadline := some (now + 300000) } (.send s.post)

def timedOut (now : ℕ) : Bool := s.deadline.any (· ≤ now)

/-- `receive`, for what the provider says of the message. -/
def receiveEvidence (evidence : Evidence) (now : ℕ) : Run :=
  let providerId := if evidence.providerId = "" then s.providerId else evidence.providerId
  { s with
    providerId := providerId
    evidence := some evidence
    finished := evidence.delivered || evidence.state == .failed || s.timedOut now
    reason := if s.timedOut now = true ∧ evidence.delivered = false then some "delivery_unconfirmed_after_5_minutes"
      else s.reason
    act := .record s.claim.invitationId s.claim.referenceId providerId evidence.state.text }

/-- `receive`, for the answer to a report. -/
def receiveRecord (r : Response) : Run :=
  if r.error = true ∨ 400 ≤ r.status 200 ∨ r.field "code" ≠ .text "ok" ∨
      (r.field "invitation_id").same s.claim.invitationId = false ∨
      (r.field "provider_reference").same s.claim.referenceId = false then
    askStatus { s with reason := some "result_recording_unconfirmed_do_not_repeat_post" }
  else if s.finished = true then
    if s.evidence.any Evidence.delivered = true then s.next .done else s.attention (s.reason.getD "invitation_failed")
  else s.next .wait

/-- The website says that the message of the run is delivered. -/
def confirmed (r : Response) : Bool :=
  r.fine && (r.field "invitation_id").same s.claim.invitationId &&
    (r.field "provider_reference").same s.claim.referenceId &&
    (r.field "status" == .text "delivered" || r.field "status" == .text "read") && (r.field "provider_id").truthy

/-- `receive`, for the answer to a question for the status. -/
def receiveStatus (r : Response) : Run :=
  if s.confirmed r = true then
    { s with
      evidence := some ⟨if r.field "status" = .text "read" then .read else .delivered, (r.field "provider_id").str, true⟩
      act := .done }
  else s.attention (s.reason.getD "shared_invitation_status_unresolved_do_not_send")

/-- `receive`. -/
def receive (parseDate : Json → Option ℕ) (r : Response) (now : ℕ) : Run :=
  match s.act with
  | .claim _ => s.receiveClaim r
  | .preflight .. => s.receivePreflight parseDate r now
  | .send _ => s.receiveEvidence (sendEvidence r) now
  | .receipt .. => s.receiveEvidence (receiptEvidence r s.providerId s.claim.referenceId s.candidate.phone) now
  | .record .. => s.receiveRecord r
  | .wait => s.next (.receipt s.providerId s.claim.referenceId)
  | .status _ => s.receiveStatus r
  | .done | .attention => s.attention "unexpected_invitation_response"

end Run

/-! ### The runs and the website -/

/-- What the website and the language fix. -/
structure Site where
  hashes : Invitations.Hashes
  /-- `Date.parse`. -/
  parseDate : Json → Option ℕ
  /-- `UUID(value)`. -/
  uuid : Json → Option Uuid
  /-- `signing.loads`. -/
  loads : Json → Invitations.Ticket
  /-- `normalize_phone`. -/
  normalize : String → String
  /-- `isoformat` of the time at which a permit runs out. -/
  isoformat : Time → String

def decisionText : Invitations.Decision → String
  | .eligible => "eligible"
  | .member => "member"
  | .phoneMissing => "phone_missing"
  | .duplicate => "duplicate"
  | .blocked => "blocked"

def stateText : Invitations.State → String
  | .claimed => "claimed"
  | .blocked => "blocked"
  | .queueFailed => "queue_failed"
  | .unknown => "unknown"
  | .failed => "failed"
  | .accepted => "accepted"
  | .delivered => "delivered"
  | .read => "read"

/-- `provider_reference`. -/
def providerReference (pk : Uuid) : String := "lsa-loyalty-invite:" ++ String.ofList (pk.str.toList.filter (· ≠ '-'))

/-- `snapshot`, as far as the controller reads it. -/
def snapshot (r : Invitations.JoinInvitation) (decision : Invitations.Decision) (allow : Bool) : Fields :=
  [("code", .text "ok"), ("decision", .text (decisionText decision)), ("send_allowed", .bool allow),
    ("invitation_id", .text r.pk.str), ("provider_reference", .text (providerReference r.pk)),
    ("status", .text (stateText r.state)), ("provider_id", .text r.providerId)]

section
variable (site : Site)

/-- The decision of the website's `preflight`, and the registry. -/
def consumed (w : Invitations.Registry) (isMember : Bool) (pk : Uuid) (ticket phone : Json) :
    Except Invitations.Failure (Invitations.Decision × Invitations.Registry) := do
  let _ ← Invitations.apiRow w pk
  Invitations.consume site.hashes w isMember ⟨pk, site.normalize phone.str, some (site.loads ticket), none, none⟩

/-- What the website's `preflight` answers; `r` is the row that it leaves. -/
def permitAnswer (now : Time) (r : Invitations.JoinInvitation) (decision : Invitations.Decision) : Response where
  error := false
  statusCode := some 200
  body := some {
    fields := snapshot r decision (decision == .eligible) ++
      if decision = .eligible then
        [("recipient_phone", .text r.phone), ("send_expires_at", .text (site.isoformat (now + 60)))]
      else []
    messages := [] }

/-- A run, the answers to its preflight that are under way, and all that it has heard. -/
structure Process where
  run : Run
  replies : List Response
  heard : List Response
deriving DecidableEq

/-- The registry and the runs. `permits` are the permits that the website has handed to runs, `posts` the messages that runs
have handed to the provider. -/
structure System where
  registry : Invitations.Registry
  processes : List Process
  permits : List (ℕ × Uuid)
  posts : List (ℕ × Post)
deriving DecidableEq

inductive Event
  /-- Anything that any caller does with the registry. -/
  | site (a : Invitations.Action)
  | start (candidate : Candidate) (packet : Packet)
  /-- The website works the preflight of a run off. -/
  | serve (i : ℕ) (isMember : Bool)
  /-- A run hears one of the answers to its preflight. -/
  | deliver (i n : ℕ) (now : ℕ)
  /-- A run hears that there is no answer, or anything in answer to a request that is no preflight. -/
  | answer (i : ℕ) (r : Response) (now : ℕ)
deriving DecidableEq

/-- The run has heard `r`. -/
def Process.hear (p : Process) (r : Response) (now : ℕ) : Process :=
  ⟨p.run.receive site.parseDate r now, [], p.heard ++ [r]⟩

/-- The message that a run hands over when it hears `r`. -/
def handed (run : Run) : Option Post :=
  match run.act with
  | .send post => some post
  | _ => none

/-- What is heard in answer to a preflight, if no answer of the website is. -/
def admitted (run : Run) (r : Response) : Bool :=
  match run.act with
  | .preflight .. => !r.fine
  | .done | .attention => false
  | _ => true

namespace System

variable (sys : System)

/-- A run hears `r`. -/
def hear (i : ℕ) (p : Process) (r : Response) (now : ℕ) : System :=
  let p := p.hear site r now
  { sys with
    processes := sys.processes.set i p
    posts := sys.posts ++ ((handed p.run).map fun post => (i, post)).toList }

/-- The website works a preflight off. -/
def serve (i : ℕ) (p : Process) (pk : Uuid) (ticket phone : Json) (isMember : Bool) : System :=
  match consumed site sys.registry isMember pk ticket phone with
  | .error _ => sys
  | .ok (decision, w) =>
    { sys with
      registry := w
      processes := sys.processes.set i { p with
        replies := p.replies ++ ((w.row pk).map fun r => permitAnswer site w.now r decision).toList }
      permits := if decision = .eligible then sys.permits ++ [(i, pk)] else sys.permits }

def step : Event → System
  | .site a => { sys with registry := Invitations.step site.hashes sys.registry a }
  | .start candidate packet =>
    match Controller.start candidate packet with
    | some run => { sys with processes := sys.processes ++ [⟨run, [], []⟩] }
    | none => sys
  | .serve i isMember =>
    match sys.processes[i]? with
    | none => sys
    | some p =>
      match p.run.act with
      | .preflight invitationId ticket phone =>
        match site.uuid invitationId with
        | some pk => sys.serve site i p pk ticket (.text phone) isMember
        | none => sys
      | _ => sys
  | .deliver i n now =>
    match sys.processes[i]? with
    | none => sys
    | some p =>
      match p.replies[n]? with
      | some r => sys.hear site i p r now
      | none => sys
  | .answer i r now =>
    match sys.processes[i]? with
    | none => sys
    | some p => if admitted p.run r = true then sys.hear site i p r now else sys

/-- The website before its first run. -/
def initial (w : Invitations.Registry) : System := ⟨w, [], [], []⟩

end System

end

end Apartments.Controller
