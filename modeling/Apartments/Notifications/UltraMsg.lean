import Apartments.Text
import Mathlib.Algebra.Ring.Nat
import Mathlib.Tactic.Common

/-!
# Messages through UltraMsg (`notifications/services/ultramsg.py`)

The client turns an answer of the provider into a document or an exception, and each sender turns that into the state
of its delivery. `classify` is what the three send methods share: they differ in the checks of what they send and in
the exception for a body that is no object.
-/

namespace Apartments.UltraMsg

/-- The keys of an answer that are read, as text: a missing `sent` and a missing or empty `id` are empty. -/
structure Document where
  sent : String
  id : String
deriving DecidableEq, Repr

/-- The body of a response: no JSON, JSON that is no object, or an object. -/
inductive Body
  | unreadable
  | other
  | object (d : Document)
deriving DecidableEq, Repr

/-- What `http.post` ends with. -/
inductive Answer
  | transport
  | reply (status : ℕ) (body : Body)
deriving DecidableEq, Repr

/-- The exceptions that a sender tells apart. -/
inductive Failure
  | configuration | connection | response | other
deriving DecidableEq, Repr

/-! ### The client -/

def Document.sentFalse (d : Document) : Bool := ["false", "0", "no"].contains (Text.casefold d.sent)

def Document.sentTrue (d : Document) : Bool := ["true", "1", "yes"].contains (Text.casefold d.sent)

/-- The answer as a send method reads it that raises `garbled` for a body that is no object. -/
def classify (garbled : Failure) : Answer → Except Failure Document
  | .transport => .error .connection
  | .reply status body =>
    if 500 ≤ status then .error .connection
    else if 400 ≤ status then .error .response
    else
      match body with
      | .unreadable | .other => .error garbled
      | .object d =>
        if d.sentFalse then .error .response
        else if !d.sentTrue then .error .connection
        else .ok d

/-- How a send ended, and whether it posted a request. -/
structure Send where
  posted : Bool
  result : Except Failure Document

/-- `len(base64.b64encode(content))`. -/
def encodedLength (content : List UInt8) : ℕ := 4 * ((content.length + 2) / 3)

/-- `len(s.encode("utf-16-le")) // 2`. -/
def utf16Length (s : String) : ℕ := (s.toList.map fun c => if c.toNat < 0x10000 then 1 else 2).sum

structure Image where
  content : List UInt8
  caption : String
deriving DecidableEq

/-- The checks of `send_image`. -/
def Image.allowed (i : Image) : Bool :=
  [0x89, 0x50, 0x4e, 0x47, 0x0d, 0x0a, 0x1a, 0x0a].isPrefixOf i.content && encodedLength i.content ≤ 10000000 &&
    utf16Length i.caption ≤ 1024 && Text.strip i.caption != ""

/-- The checks of `send_document` on its content. -/
def documentAllowed (content : List UInt8) : Bool :=
  [0x25, 0x50, 0x44, 0x46, 0x2d].isPrefixOf content && encodedLength content ≤ 10000000

/-- `send_text`. -/
def sendText (a : Answer) : Send := ⟨true, classify .response a⟩

/-- `send_image`. -/
def sendImage (i : Image) (a : Answer) : Send :=
  if i.allowed then ⟨true, classify .response a⟩ else ⟨false, .error .response⟩

/-- `send_document`. -/
def sendDocument (content : List UInt8) (a : Answer) : Send :=
  if documentAllowed content then ⟨true, classify .connection a⟩ else ⟨false, .error .response⟩

/-- What is sent by the client of a `with` block; an image may fail to build. -/
inductive Message
  | text
  | image (i : Option Image)
deriving DecidableEq

def Message.send (a : Answer) : Message → Send
  | .text => sendText a
  | .image (some i) => sendImage i a
  | .image none => ⟨false, .error .other⟩

/-- `with UltraMsgClient() as client`. -/
def withClient (configured : Bool) (s : Send) : Send := if configured then s else ⟨false, .error .configuration⟩

/-! ### The senders -/

inductive State
  | queued | skipped | posting | accepted | sent | disabled | failed | rejected | uncertain | review | unknown
deriving DecidableEq, Repr

/-- The state a delivery is left in, and whether a request was posted for it. -/
structure Outcome where
  posted : Bool
  state : State
deriving DecidableEq

/-- The state that a sender takes from the result of its send. -/
def Send.into (s : Send) (state : Except Failure Document → State) : Outcome := ⟨s.posted, state s.result⟩

/-- `send_link` of a morning stay, from its claim on. -/
def sendLink (configured : Bool) (image : Option Image) (a : Answer) : Outcome :=
  (withClient configured (Message.send a (.image image))).into fun
    | .ok _ => .accepted
    | .error .configuration | .error .response => .failed
    | .error .connection | .error .other => .uncertain

/-- `deliver_payment_request_task`, from its claim on. -/
def deliverPaymentRequest (configured : Bool) (image : Option Image) (a : Answer) : Outcome :=
  (withClient configured (Message.send a (.image image))).into fun
    | .ok d => if d.id = "" then .unknown else .sent
    | .error _ => .unknown

inductive Channel
  | email | whatsapp | other
deriving DecidableEq, Repr

/-- What `deliver_invoice` finds: `issued` is that the invoice was issued with a file, `content` the file it sends
unless that cannot be built, `mailed` the count of `message.send` unless that raises. -/
structure Invoice where
  issued : Bool
  content : Option (List UInt8)
  channel : Channel
  configured : Bool
  emailEnabled : Bool
  mailed : Option ℕ
deriving DecidableEq

/-- `deliver_invoice`, from its claim on. -/
def deliverInvoice (q : Invoice) (a : Answer) : Outcome :=
  if !q.issued then ⟨false, .failed⟩
  else
    match q.content, q.channel with
    | none, _ => ⟨false, .review⟩
    | some _, .email =>
      if !q.emailEnabled then ⟨false, .failed⟩
      else if q.mailed = some 1 then ⟨false, .accepted⟩
      else ⟨false, .review⟩
    | some content, .whatsapp =>
      (withClient q.configured (sendDocument content a)).into fun
        | .ok _ => .accepted
        | .error .configuration | .error .response => .failed
        | .error .connection | .error .other => .review
    | some _, .other => ⟨false, .failed⟩

/-- `send_message` of the morning gateway, from its claim on. An exception it does not name leaves the attempt as it is
created. -/
def sendMessage (configured : Bool) (message : Message) (a : Answer) : Outcome :=
  (withClient configured (message.send a)).into fun
    | .ok _ => .accepted
    | .error .configuration | .error .response => .rejected
    | .error .connection => .uncertain
    | .error .other => .posting

/-- `_dispatch` of a notice of points, from its claim on: `ready` is that the provider answers that it is there, `owned`
that the phone is still the member's. -/
def dispatchNotice (configured ready owned : Bool) (image : Image) (a : Answer) : Outcome :=
  if configured = false ∨ ready = false then ⟨false, .queued⟩
  else if owned = false then ⟨false, .skipped⟩
  else
    (sendImage image a).into fun
      | .ok _ => .accepted
      | .error _ => .uncertain

/-- `_deliver` of a booking invitation on WhatsApp, from its claim on. -/
def deliverBookingInvitation (configured : Bool) (image : Image) (a : Answer) : Outcome :=
  (withClient configured (sendImage image a)).into fun
    | .ok d => if d.id = "" then .uncertain else .accepted
    | .error _ => .uncertain

/-- `deliver_invitation` of a member, from its claim on; the old design is a text. -/
def deliverInvitation (configured : Bool) (image : Option Image) (a : Answer) : Outcome :=
  (withClient configured (Message.send a (image.elim .text fun i => .image (some i)))).into fun
    | .ok _ => .accepted
    | .error _ => .uncertain

/-- The invitation that follows a morning stay, from its claim on. -/
def inviteMorning (configured : Bool) (image : Image) (a : Answer) : Outcome :=
  (withClient configured (sendImage image a)).into fun
    | .ok _ => .accepted
    | .error .configuration | .error .response => .failed
    | .error .connection | .error .other => .unknown

/-- `_send_delivery` of an alert to the accountant; `recipient` is that their number has a digit. -/
def sendDelivery (configured recipient : Bool) (a : Answer) : Outcome :=
  (withClient (configured && recipient) (sendText a)).into fun
    | .ok _ => .sent
    | .error .configuration => .disabled
    | .error .connection | .error .response | .error .other => .failed

/-- A claimed delivery of one of the senders. -/
inductive Job
  | paymentLink (configured : Bool) (image : Option Image)
  | paymentRequest (configured : Bool) (image : Option Image)
  | invoice (q : Invoice)
  | morningStay (configured : Bool) (message : Message)
  | notice (configured ready owned : Bool) (image : Image)
  | bookingInvitation (configured : Bool) (image : Image)
  | invitation (configured : Bool) (image : Option Image)
  | morningInvitation (configured : Bool) (image : Image)
  | accountant (configured recipient : Bool)
deriving DecidableEq

def Job.deliver (a : Answer) : Job → Outcome
  | .paymentLink configured image => sendLink configured image a
  | .paymentRequest configured image => deliverPaymentRequest configured image a
  | .invoice q => deliverInvoice q a
  | .morningStay configured message => sendMessage configured message a
  | .notice configured ready owned image => dispatchNotice configured ready owned image a
  | .bookingInvitation configured image => deliverBookingInvitation configured image a
  | .invitation configured image => deliverInvitation configured image a
  | .morningInvitation configured image => inviteMorning configured image a
  | .accountant configured recipient => sendDelivery configured recipient a

/-! ### What the provider has said -/

/-- The provider refused the message: 4xx, or an object whose `sent` is false. -/
def Answer.refused : Answer → Bool
  | .transport => false
  | .reply status body =>
    decide (400 ≤ status ∧ status < 500) || match body with
      | .object d => d.sentFalse
      | _ => false

/-- The provider accepted the message: an object whose `sent` is true, below 400. -/
def Answer.accepted : Answer → Bool
  | .reply status (.object d) => decide (status < 400) && d.sentTrue
  | _ => false

/-- No error status, and a body that is no object. -/
def Answer.garbled : Answer → Bool
  | .reply status .unreadable | .reply status .other => decide (status < 400)
  | _ => false

/-- A delivery is called failed or rejected only if nothing was posted or the provider refused it, and any answer that
neither refuses nor accepts it leaves it undecided. -/
structure Outcome.Truthful (o : Outcome) (a : Answer) : Prop where
  failed : o.state = .failed ∨ o.state = .rejected → o.posted = false ∨ a.refused = true
  undecided : o.posted = true → a.refused = false → a.accepted = false →
    o.state = .uncertain ∨ o.state = .review ∨ o.state = .unknown

/-- The exception of a send. -/
def Send.failure (s : Send) : Option Failure :=
  match s.result with
  | .ok _ => none
  | .error e => some e

/-- The three methods take the answer to something they may send for the same. -/
def Alike (a : Answer) : Prop :=
  ∀ image content, image.allowed = true → documentAllowed content = true →
    (sendImage image a).failure = (sendText a).failure ∧ (sendDocument content a).failure = (sendText a).failure

/-- A request is posted for the delivery. -/
def Job.posts : Job → Bool
  | .paymentLink configured image | .paymentRequest configured image => configured && image.any (·.allowed)
  | .invoice q => q.issued && q.content.any documentAllowed && q.channel == .whatsapp && q.configured
  | .morningStay configured .text => configured
  | .morningStay configured (.image image) => configured && image.any (·.allowed)
  | .notice configured ready owned image => configured && ready && owned && image.allowed
  | .bookingInvitation configured image | .morningInvitation configured image => configured && image.allowed
  | .invitation configured image => configured && image.all (·.allowed)
  | .accountant configured recipient => configured && recipient

/-- The sender takes a garbled answer to an image or a text for a refusal, or calls every exception failed. -/
def Job.misreads (a : Answer) : Job → Bool
  | .paymentLink configured image => Job.posts (.paymentLink configured image) && a.garbled
  | .morningStay configured message => Job.posts (.morningStay configured message) && a.garbled
  | .morningInvitation configured image => Job.posts (.morningInvitation configured image) && a.garbled
  | .accountant configured recipient =>
    Job.posts (.accountant configured recipient) && !a.refused && !a.accepted
  | _ => false

/-! ### How an answer is read -/

variable {a : Answer} {garbled : Failure} {d : Document} {image : Image} {content : List UInt8} {s : Send}

theorem Document.not_sentTrue (h : d.sentFalse = true) : d.sentTrue = false := by
  simp only [Document.sentFalse, Document.sentTrue, List.contains_iff_mem, List.mem_cons, List.not_mem_nil,
    or_false] at h ⊢
  rcases h with h | h | h <;> simp [h]

/-- The four ways to read an answer. -/
inductive Reading (garbled : Failure) (a : Answer) : Prop
  | accepted (d : Document) (h : classify garbled a = .ok d) (hgarbled : a.garbled = false)
      (hrefused : a.refused = false) (haccepted : a.accepted = true)
  | refused (h : classify garbled a = .error .response) (hgarbled : a.garbled = false) (hrefused : a.refused = true)
      (haccepted : a.accepted = false)
  | unclear (h : classify garbled a = .error .connection) (hgarbled : a.garbled = false)
      (haccepted : a.accepted = false)
  | garbled (h : classify garbled a = .error garbled) (hgarbled : a.garbled = true) (hrefused : a.refused = false)
      (haccepted : a.accepted = false)

theorem reading (garbled : Failure) (a : Answer) : Reading garbled a := by
  cases a with
  | transport => exact .unclear rfl rfl rfl
  | reply status body =>
    by_cases h5 : 500 ≤ status
    · have hlow : ¬status < 400 := by omega
      refine .unclear (if_pos h5) ?_ ?_ <;> cases body <;> simp [Answer.garbled, Answer.accepted, hlow]
    by_cases h4 : 400 ≤ status
    · have hlow : ¬status < 400 := by omega
      have hclassify : classify garbled (.reply status body) = .error .response := by
        simp only [classify, if_neg h5, if_pos h4]
      refine .refused hclassify ?_ ?_ ?_ <;> cases body <;>
        simp [Answer.garbled, Answer.refused, Answer.accepted, hlow, h4] <;> omega
    have hlow : status < 400 := by omega
    cases body with
    | unreadable | other =>
      exact .garbled (by simp [classify, h5, h4]) (by simp [Answer.garbled, hlow]) (by simp [Answer.refused, h4]) rfl
    | object d =>
      by_cases hfalse : d.sentFalse = true
      · have htrue := Document.not_sentTrue hfalse
        exact .refused (by simp [classify, h5, h4, hfalse]) rfl (by simp [Answer.refused, hfalse])
          (by simp [Answer.accepted, htrue])
      by_cases htrue : d.sentTrue = true
      · exact .accepted d (by simp [classify, h5, h4, hfalse, htrue]) rfl (by simp [Answer.refused, h4, hfalse])
          (by simp [Answer.accepted, hlow, htrue])
      · exact .unclear (by simp [classify, h5, h4, hfalse, htrue]) rfl (by simp [Answer.accepted, htrue])

/-! ### The senders -/

/-- A delivery that posts nothing is truthful. -/
theorem Outcome.truthful_unposted {o : Outcome} (h : o.posted = false) : o.Truthful a :=
  ⟨fun _ => .inl h, fun hp => by simp [h] at hp⟩

/-- A sender that calls only a response exception failed is truthful unless a garbled answer raises that. -/
theorem truthful_classified {state : Except Failure Document → State}
    (hok : ∀ d, state (.ok d) ≠ .failed ∧ state (.ok d) ≠ .rejected)
    (hconnection : state (.error .connection) = .uncertain ∨ state (.error .connection) = .review ∨
      state (.error .connection) = .unknown)
    (hgarbled : garbled = .connection ∨ a.garbled = false) :
    (Send.into ⟨true, classify garbled a⟩ state).Truthful a := by
  have hstays : state (.error .connection) ≠ .failed ∧ state (.error .connection) ≠ .rejected := by
    rcases hconnection with h | h | h <;> simp [h]
  have hunclear (h : classify garbled a = .error .connection) :
      (Send.into ⟨true, classify garbled a⟩ state).Truthful a := by
    rw [h]
    exact ⟨fun hf => absurd hf (not_or.2 hstays), fun _ _ _ => hconnection⟩
  rcases reading garbled a with ⟨d, h, -, -, haccepted⟩ | ⟨h, -, hrefused, -⟩ | ⟨h, -, -⟩ | ⟨h, hg, -, -⟩
  · rw [h]
    refine ⟨fun hf => absurd hf (not_or.2 (hok d)), fun _ _ ha => ?_⟩
    rw [haccepted] at ha
    cases ha
  · refine ⟨fun _ => .inr hrefused, fun _ hr => ?_⟩
    rw [hrefused] at hr
    cases hr
  · exact hunclear h
  · rcases hgarbled with rfl | hg'
    · exact hunclear h
    · rw [hg] at hg'
      cases hg'

/-- A sender that calls no exception failed is truthful. -/
theorem truthful_cautious {state : Except Failure Document → State}
    (hok : ∀ d, state (.ok d) ≠ .failed ∧ state (.ok d) ≠ .rejected)
    (herror : ∀ e, state (.error e) = .uncertain ∨ state (.error e) = .review ∨ state (.error e) = .unknown) :
    (Send.into ⟨true, classify garbled a⟩ state).Truthful a := by
  have hraised {e : Failure} (h : classify garbled a = .error e) :
      (Send.into ⟨true, classify garbled a⟩ state).Truthful a := by
    rw [h]
    refine ⟨fun hf => ?_, fun _ _ _ => herror e⟩
    rcases herror e with he | he | he <;> simp [Send.into, he] at hf
  rcases reading garbled a with ⟨d, h, -, -, haccepted⟩ | ⟨h, -, -, -⟩ | ⟨h, -, -⟩ | ⟨h, -, -, -⟩
  · rw [h]
    refine ⟨fun hf => absurd hf (not_or.2 (hok d)), fun _ _ ha => ?_⟩
    rw [haccepted] at ha
    cases ha
  · exact hraised h
  · exact hraised h
  · exact hraised h

/-- A sender that calls a response exception failed misreads a garbled answer to an image or a text. -/
theorem garbled_not_truthful {state : Except Failure Document → State}
    (hstate : state (.error .response) = .failed ∨ state (.error .response) = .rejected) (ha : a.garbled = true) :
    ¬(Send.into ⟨true, classify .response a⟩ state).Truthful a := by
  intro ht
  rcases reading .response a with ⟨-, -, hg, -, -⟩ | ⟨-, hg, -, -⟩ | ⟨-, hg, -⟩ | ⟨h, -, hrefused, -⟩
  · simp [ha] at hg
  · simp [ha] at hg
  · simp [ha] at hg
  · rw [h] at ht
    rcases ht.failed hstate with hp | hr
    · cases hp
    · rw [hrefused] at hr
      cases hr

/-- A message that is posted is read by `classify`. -/
theorem Message.send_posted (configured : Bool) (message : Message) (a : Answer) :
    (Job.posts (.morningStay configured message) = true ∧
      withClient configured (message.send a) = ⟨true, classify .response a⟩) ∨
    (Job.posts (.morningStay configured message) = false ∧ (withClient configured (message.send a)).posted = false) := by
  cases configured with
  | false => exact .inr ⟨by cases message <;> rfl, rfl⟩
  | true =>
    match message with
    | .text => exact .inl ⟨rfl, rfl⟩
    | .image none => exact .inr ⟨rfl, rfl⟩
    | .image (some i) =>
      by_cases hi : i.allowed = true
      · exact .inl ⟨by simp [Job.posts, hi], by simp [withClient, Message.send, sendImage, hi]⟩
      · exact .inr ⟨by simp [Job.posts, hi], by simp [withClient, Message.send, sendImage, hi]⟩

/-- A sender of a message that calls a response exception failed is truthful unless it misreads. -/
theorem Message.truthful_iff (configured : Bool) (message : Message) {state : Except Failure Document → State}
    (hok : ∀ d, state (.ok d) ≠ .failed ∧ state (.ok d) ≠ .rejected)
    (hresponse : state (.error .response) = .failed ∨ state (.error .response) = .rejected)
    (hconnection : state (.error .connection) = .uncertain ∨ state (.error .connection) = .review ∨
      state (.error .connection) = .unknown) :
    ((withClient configured (message.send a)).into state).Truthful a ↔
      (Job.posts (.morningStay configured message) && a.garbled) = false := by
  rcases Message.send_posted configured message a with ⟨hposts, hsend⟩ | ⟨hposts, hsend⟩
  · rw [hsend, hposts, Bool.true_and]
    refine ⟨fun ht => ?_, fun hg => truthful_classified hok hconnection (.inr hg)⟩
    by_contra hg
    exact garbled_not_truthful hresponse (eq_true_of_ne_false hg) ht
  · rw [hposts, Bool.false_and]
    exact iff_of_true (Outcome.truthful_unposted hsend) rfl

/-- A sender of a message that calls no exception failed is truthful. -/
theorem Message.truthful_cautious (configured : Bool) (message : Message) {state : Except Failure Document → State}
    (hok : ∀ d, state (.ok d) ≠ .failed ∧ state (.ok d) ≠ .rejected)
    (herror : ∀ e, state (.error e) = .uncertain ∨ state (.error e) = .review ∨ state (.error e) = .unknown) :
    ((withClient configured (message.send a)).into state).Truthful a := by
  rcases Message.send_posted configured message a with ⟨-, hsend⟩ | ⟨-, hsend⟩
  · rw [hsend]
    exact UltraMsg.truthful_cautious hok herror
  · exact Outcome.truthful_unposted hsend

theorem deliverInvoice_truthful (q : Invoice) (a : Answer) : (deliverInvoice q a).Truthful a := by
  unfold deliverInvoice
  by_cases hissued : (!q.issued) = true
  · rw [if_pos hissued]
    exact Outcome.truthful_unposted rfl
  rw [if_neg hissued]
  match q.content, q.channel with
  | none, _ => exact Outcome.truthful_unposted rfl
  | some _, .other => exact Outcome.truthful_unposted rfl
  | some _, .email =>
    dsimp only
    split_ifs <;> exact Outcome.truthful_unposted rfl
  | some content, .whatsapp =>
    cases q.configured with
    | false => exact Outcome.truthful_unposted rfl
    | true =>
    by_cases hcontent : documentAllowed content = true
    · simp only [withClient, if_true, sendDocument, if_pos hcontent]
      exact truthful_classified (fun _ => ⟨nofun, nofun⟩) (.inr (.inl rfl)) (.inl rfl)
    · simp only [withClient, if_true, sendDocument, if_neg hcontent]
      exact Outcome.truthful_unposted rfl

theorem dispatchNotice_truthful (configured ready owned : Bool) (image : Image) (a : Answer) :
    (dispatchNotice configured ready owned image a).Truthful a := by
  unfold dispatchNotice
  split_ifs
  · exact Outcome.truthful_unposted rfl
  · exact Outcome.truthful_unposted rfl
  · exact Message.truthful_cautious true (.image (some image)) (fun _ => ⟨nofun, nofun⟩) fun _ => .inl rfl

/-- The alert to the accountant is called failed by every exception. -/
theorem sendDelivery_truthful_iff (configured recipient : Bool) (a : Answer) :
    (sendDelivery configured recipient a).Truthful a ↔
      (Job.posts (.accountant configured recipient) && !a.refused && !a.accepted) = false := by
  unfold sendDelivery
  simp only [Job.posts]
  cases configured && recipient with
  | false => exact iff_of_true (Outcome.truthful_unposted rfl) rfl
  | true =>
    have hfailed {e : Failure} (h : classify .response a = .error e) (he : e ≠ .configuration) (hr : a.refused = false) :
        ¬(sendDelivery true true a).Truthful a := by
      intro ht
      have hf : (sendDelivery true true a).state = .failed := by
        simp only [sendDelivery, withClient, Bool.and_self, if_true, sendText, Send.into, h]
        cases e <;> simp_all
      rcases ht.failed (.inl hf) with hp | hr'
      · cases hp
      · rw [hr] at hr'
        cases hr'
    rcases reading .response a with ⟨d, h, -, hr, ha⟩ | ⟨h, -, hr, ha⟩ | ⟨h, -, ha⟩ | ⟨h, -, hr, ha⟩
    · refine iff_of_true ?_ (by simp [ha])
      rw [withClient, if_pos rfl, sendText, h]
      exact ⟨nofun, fun _ _ hna => by simp [ha] at hna⟩
    · refine iff_of_true ?_ (by simp [hr])
      exact ⟨fun _ => .inr hr, fun _ hnr => by simp [hr] at hnr⟩
    · cases hr : a.refused with
      | true => exact iff_of_true ⟨fun _ => .inr hr, fun _ hnr => by simp [hr] at hnr⟩ rfl
      | false => exact iff_of_false (hfailed h nofun hr) (by simp [ha])
    · exact iff_of_false (hfailed h nofun hr) (by simp [hr, ha])

/-! ### Agreement -/

/-- The notice of the examples. -/
def shortNotice : Image := ⟨[0x89, 0x50, 0x4e, 0x47, 0x0d, 0x0a, 0x1a, 0x0a], "LSA"⟩

theorem alike_iff (a : Answer) : Alike a ↔ a.garbled = false := by
  constructor
  · intro h
    by_contra hg
    obtain ⟨-, hdocument⟩ := h shortNotice [0x25, 0x50, 0x44, 0x46, 0x2d] (by decide) (by decide)
    have hg : a.garbled = true := eq_true_of_ne_false hg
    rcases reading .connection a with ⟨-, -, hn, -, -⟩ | ⟨-, hn, -, -⟩ | ⟨-, hn, -⟩ | ⟨hc, -, -, -⟩
    · simp [hg] at hn
    · simp [hg] at hn
    · simp [hg] at hn
    rcases reading .response a with ⟨-, -, hn, -, -⟩ | ⟨-, hn, -, -⟩ | ⟨-, hn, -⟩ | ⟨hr, -, -, -⟩
    · simp [hg] at hn
    · simp [hg] at hn
    · simp [hg] at hn
    have hallowed : documentAllowed [0x25, 0x50, 0x44, 0x46, 0x2d] = true := by decide
    simp [sendDocument, hallowed, sendText, Send.failure, hc, hr] at hdocument
  · intro hg image content hi hc
    have hsame : classify .connection a = classify .response a := by
      cases a with
      | transport => rfl
      | reply status body =>
        cases body with
        | object d => rfl
        | unreadable | other =>
          have hhigh : 400 ≤ status := by simpa [Answer.garbled] using hg
          simp only [classify, if_pos hhigh]
    simp [sendImage, hi, sendDocument, hc, sendText, hsame]

/-- Every sender tells a refusal from an answer that decides nothing unless it misreads it, and the three methods read
an answer alike unless it is garbled. -/
theorem ambiguous_not_rejected (job : Job) (a : Answer) :
    ((job.deliver a).Truthful a ↔ job.misreads a = false) ∧ (Alike a ↔ a.garbled = false) := by
  refine ⟨?_, alike_iff a⟩
  cases job with
  | paymentLink configured image =>
    unfold Job.deliver sendLink
    exact Message.truthful_iff configured (.image image) (fun _ => ⟨nofun, nofun⟩) (.inl rfl) (.inl rfl)
  | paymentRequest configured image =>
    unfold Job.deliver deliverPaymentRequest
    refine iff_of_true (Message.truthful_cautious configured (.image image) (fun d => ?_) fun _ => .inr (.inr rfl)) rfl
    by_cases hid : d.id = "" <;> simp [hid]
  | invoice q => exact iff_of_true (deliverInvoice_truthful q a) rfl
  | morningStay configured message =>
    unfold Job.deliver sendMessage
    exact Message.truthful_iff configured message (fun _ => ⟨nofun, nofun⟩) (.inr rfl) (.inl rfl)
  | notice configured ready owned image => exact iff_of_true (dispatchNotice_truthful configured ready owned image a) rfl
  | bookingInvitation configured image =>
    unfold Job.deliver deliverBookingInvitation
    refine iff_of_true (Message.truthful_cautious configured (.image (some image)) (fun d => ?_) fun _ => .inl rfl) rfl
    by_cases hid : d.id = "" <;> simp [hid]
  | invitation configured image =>
    unfold Job.deliver deliverInvitation
    exact iff_of_true (Message.truthful_cautious configured _ (fun _ => ⟨nofun, nofun⟩) fun _ => .inl rfl) rfl
  | morningInvitation configured image =>
    unfold Job.deliver inviteMorning
    exact Message.truthful_iff configured (.image (some image)) (fun _ => ⟨nofun, nofun⟩) (.inl rfl) (.inr (.inr rfl))
  | accountant configured recipient => exact sendDelivery_truthful_iff configured recipient a

/-- The provider has taken the message and a proxy garbles its answer: the link is called failed, and is sent again. -/
theorem garbled_link_failed :
    sendLink true (some shortNotice) (.reply 200 .unreadable) = ⟨true, .failed⟩ ∧
      ¬(Job.deliver (.reply 200 .unreadable) (.paymentLink true (some shortNotice))).Truthful (.reply 200 .unreadable) ∧
      ¬Alike (.reply 200 .unreadable) := by
  refine ⟨by decide, fun ht => ?_, fun h => ?_⟩
  · rcases ht.failed (.inl (by decide)) with h | h <;> revert h <;> decide
  · have := (alike_iff _).1 h
    revert this
    decide

end Apartments.UltraMsg
