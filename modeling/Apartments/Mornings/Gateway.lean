import Apartments.Mornings.Stays
import Apartments.Notifications.UltraMsg

/-!
# The gateway of the morning messages (`morning07_gateway.py`)

`send_message` checks the token and the job on the stay, takes the row of the job's reference in a transaction and only
then calls the provider; the answer is written last. A message here is a document whose members have the types and the
kinds that the code asks for; what is left of the document only enters its hash.
-/

namespace Apartments.Morning

open Payments Verification

variable {F H : Type} [DecidableEq H]

inductive Kind
  | statusNew | statusModified | statusCancelled | houseRules | checkinGuide | reminderCheckout | groupNotice | attention
deriving DecidableEq, Repr

inductive RecipientKind
  | guest | group
deriving DecidableEq, Repr

/-- The kinds for the work group. -/
def Kind.forGroup (k : Kind) : Bool := k == .groupNotice || k == .attention

/-- The kinds that are pointless once the stay is over. -/
def Kind.untilEnd (k : Kind) : Bool :=
  [.statusNew, .statusModified, .houseRules, .checkinGuide, .reminderCheckout].contains k

/-- The kinds a cancelled stay still sends. -/
def Kind.ofCancelled (k : Kind) : Bool := [.statusCancelled, .groupNotice, .attention].contains k

structure Message where
  referenceId : String
  jobKey : String
  messageType : Kind
  messageBody : String
  recipientKind : RecipientKind
  recipientPhone : String
  rest : String
deriving DecidableEq

/-- A delivery token that carries a valid signature. -/
structure DeliveryToken where
  stay : Uuid
  revision : ℕ
  signedAt : Time
deriving DecidableEq

/-- The settings, MD5 in hexadecimal digits and the hash of a whole message. -/
structure GatewaySite (H : Type) where
  enabled : Bool
  workGroupId : String
  md5 : String → String
  payloadHash : Message → H

/-- `delivery_token`. -/
def deliveryToken (s : Stay F) (now : Time) : DeliveryToken := ⟨s.pk, s.communicationRevision, now⟩

/-- `max_age` of a token: fifteen days. -/
def tokenAge : ℕ := 15 * 86400

/-- `re.sub(r"\D", "", phone)`. -/
def digits (phone : String) : String := String.ofList (phone.toList.filter Char.isDigit)

def GatewaySite.reference (g : GatewaySite H) (jobKey : String) : String := "lsa07-" ++ g.md5 jobKey

/-- What every job key of a stay starts with. -/
def jobPrefix (stay : Uuid) : String := "lsa07:" ++ stay.str ++ ":"

/-- `authorize`, on the stay the token names; `none` is `Http404`. -/
def authorize (g : GatewaySite H) (s : Stay F) (attempts : List MorningPaymentAttempt) (now : Time) (latest : Bool) :
    Option DeliveryToken → Option ℕ
  | none => none
  | some t =>
    if !g.enabled ∨ t.signedAt + tokenAge < now ∨ t.stay ≠ s.pk then none
    else if s.environment ≠ "production" ∨ told s = false ∨ verifiedPayment s attempts = false then none
    else if latest ∧ t.revision ≠ s.communicationRevision then none
    else some t.revision

def expectedRecipient (g : GatewaySite H) (s : Stay F) : RecipientKind → String
  | .group => g.workGroupId
  | .guest => digits s.guestPhone

/-- The job is refused as invalid. -/
def invalidJob (g : GatewaySite H) (s : Stay F) (now : Time) (m : Message) : Bool :=
  !(1 ≤ m.messageBody.length && m.messageBody.length ≤ 4096) ||
    m.referenceId != g.reference m.jobKey ||
    !(jobPrefix s.pk).toList.isPrefixOf m.jobKey.toList ||
    m.recipientPhone != expectedRecipient g s m.recipientKind ||
    (m.messageType.forGroup != (m.recipientKind == .group)) ||
    (m.messageType.untilEnd && decide (s.endsAt ≤ now)) ||
    (s.status == .cancelled && !m.messageType.ofCancelled)

inductive DeliveryState
  | posting | accepted | rejected | uncertain
deriving DecidableEq, Repr

/-- The document `send_message` answers with once it has called the provider. -/
inductive Sent
  | accepted (id : String)
  | refused (error : String)
  | unknown
deriving DecidableEq

/-- A row of `Morning07DeliveryAttempt`. -/
structure DeliveryAttempt (H : Type) where
  referenceId : String
  stay : Uuid
  revision : ℕ
  payloadHash : H
  state : DeliveryState
  providerId : String
  response : Option Sent
deriving DecidableEq

/-- A request that has committed its row: before its call, and with the call's answer. -/
inductive SenderStage
  | waiting
  | answered (result : Sent) (state : DeliveryState)
deriving DecidableEq

structure Sender where
  message : Message
  stage : SenderStage
deriving DecidableEq

/-- The rows, the requests under way and every message the provider has been called with. -/
structure Gateway (H : Type) where
  rows : List (DeliveryAttempt H)
  senders : List Sender
  called : List Message

/-- How a request ends before it has called the provider; `posting` goes on to its call. -/
inductive Opening
  | notFound
  | invalid
  | conflict
  | known (response : Option Sent) (providerId : String)
  | posting
deriving DecidableEq

namespace Gateway

def newRow (g : GatewaySite H) (s : Stay F) (revision : ℕ) (m : Message) : DeliveryAttempt H where
  referenceId := m.referenceId
  stay := s.pk
  revision := revision
  payloadHash := g.payloadHash m
  state := .posting
  providerId := ""
  response := none

/-- `send_message` up to the end of its transaction; a request that is no message is `none`. -/
def sendMessage (g : GatewaySite H) (s : Stay F) (attempts : List MorningPaymentAttempt) (now : Time)
    (token : Option DeliveryToken) (request : Option Message) (gw : Gateway H) : Gateway H × Opening :=
  match authorize g s attempts now true token with
  | none => (gw, .notFound)
  | some revision =>
    match request with
    | none => (gw, .invalid)
    | some m =>
      if invalidJob g s now m then (gw, .invalid)
      else
        match Table.get DeliveryAttempt.referenceId gw.rows m.referenceId with
        | some row =>
          if row.stay ≠ s.pk ∨ row.payloadHash ≠ g.payloadHash m then (gw, .conflict)
          else (gw, .known row.response row.providerId)
        | none =>
          ({ gw with
              rows := gw.rows ++ [newRow g s revision m]
              senders := gw.senders ++ [⟨m, .waiting⟩] }, .posting)

/-- What a send through the client leaves of an exception it knows; any other leaves the row as it is. -/
def outcome : Except UltraMsg.Failure UltraMsg.Document → Option (Sent × DeliveryState)
  | .ok d => some (.accepted d.id, .accepted)
  | .error .configuration => some (.refused "provider_disabled", .rejected)
  | .error .response => some (.refused "provider_rejected", .rejected)
  | .error .connection => some (.unknown, .uncertain)
  | .error .other => none

/-- The call to the provider. -/
def call (gw : Gateway H) (i : ℕ) (send : UltraMsg.Send) : Gateway H :=
  match gw.senders[i]? with
  | some ⟨m, .waiting⟩ =>
    { gw with
      senders :=
        match outcome send.result with
        | some (result, state) => gw.senders.set i ⟨m, .answered result state⟩
        | none => gw.senders.eraseIdx i
      called := if send.posted then gw.called ++ [m] else gw.called }
  | _ => gw

def Sent.id : Sent → String
  | .accepted id => id
  | _ => ""

/-- The last write of `send_message`. -/
def record (gw : Gateway H) (i : ℕ) : Gateway H :=
  match gw.senders[i]? with
  | some ⟨m, .answered result state⟩ =>
    { gw with
      rows := Table.modify DeliveryAttempt.referenceId gw.rows m.referenceId fun row =>
        { row with response := some result, state := state, providerId := Sent.id result }
      senders := gw.senders.eraseIdx i }
  | _ => gw

variable {g : GatewaySite H} {s : Stay F} {attempts : List MorningPaymentAttempt} {now : Time}
  {token : Option DeliveryToken} {request : Option Message} {gw : Gateway H}

/-- A request that is not posted leaves the gateway as it is. -/
theorem sendMessage_state (h : (gw.sendMessage g s attempts now token request).2 ≠ .posting) :
    (gw.sendMessage g s attempts now token request).1 = gw := by
  unfold sendMessage at h ⊢
  split <;> try rfl
  split <;> try rfl
  split <;> try rfl
  split
  · split <;> rfl
  · simp_all

/-- A request is posted exactly if it is authorised, its job is valid and its reference has no row. -/
theorem sendMessage_posting :
    (gw.sendMessage g s attempts now token request).2 = .posting ↔
      ∃ revision m, authorize g s attempts now true token = some revision ∧ request = some m ∧
        invalidJob g s now m = false ∧ Table.get DeliveryAttempt.referenceId gw.rows m.referenceId = none ∧
        (gw.sendMessage g s attempts now token request).1 =
          { gw with
            rows := gw.rows ++ [newRow g s revision m]
            senders := gw.senders ++ [⟨m, .waiting⟩] } := by
  constructor
  · intro h
    unfold sendMessage at h ⊢
    split at h
    · cases h
    rename_i revision ha
    split at h
    · cases h
    rename_i m
    split at h
    · cases h
    rename_i hv
    split at h
    · split at h <;> cases h
    rename_i hget
    exact ⟨revision, m, ha, rfl, by simpa using hv, hget, by rw [if_neg hv]⟩
  · rintro ⟨revision, m, ha, rfl, hv, hget, -⟩
    simp [sendMessage, ha, hv, hget]

/-! ### One call for each reference -/

def Sender.pending (s : Sender) : Option Message :=
  match s.stage with
  | .waiting => some s.message
  | .answered .. => none

/-- The messages of the requests that have not called the provider yet. -/
def waiting (gw : Gateway H) : List Message := gw.senders.filterMap Sender.pending

/-- A reference has one row, and with it one call, made or still to come. -/
structure Single (g : GatewaySite H) (gw : Gateway H) : Prop where
  once : ((gw.called ++ gw.waiting).map (·.referenceId)).Nodup
  taken : ∀ m ∈ gw.called ++ gw.waiting, m.referenceId ∈ gw.rows.map (·.referenceId)
  keyed : ∀ m ∈ gw.called ++ gw.waiting, m.referenceId = g.reference m.jobKey

variable {gw' : Gateway H} {stay : Stay F} {i : ℕ} {s : Sender}

omit [DecidableEq H]

/-- A reference has one call at most. -/
theorem Single.references (h : Single g gw) : (gw.called.map (·.referenceId)).Nodup := by
  have hnd := h.once
  rw [List.map_append] at hnd
  exact hnd.sublist (List.sublist_append_left ..)

/-- A job key has one call at most. -/
theorem Single.keys (h : Single g gw) : (gw.called.map (·.jobKey)).Nodup := by
  have hmap : gw.called.map (·.referenceId) = (gw.called.map (·.jobKey)).map g.reference := by
    rw [List.map_map]
    exact List.map_congr_left fun m hm => h.keyed m (List.mem_append_left _ hm)
  have hnd := h.references
  rw [hmap] at hnd
  exact hnd.of_map

theorem waiting_perm (h : gw.senders[i]? = some s) :
    gw.waiting.Perm ((Sender.pending s).toList ++ (gw.senders.eraseIdx i).filterMap Sender.pending) := by
  have hperm := (Table.perm_of_getElem? h).filterMap Sender.pending
  rw [List.filterMap_cons] at hperm
  cases hs : Sender.pending s with
  | none => simpa [waiting, hs] using hperm
  | some r => simpa [waiting, hs] using hperm

/-- Messages that were passed or waiting stay one of both, or are dropped. -/
theorem Single.of_subperm (h : Single g gw) {l : List Message} (hl : l.Subperm (gw.called ++ gw.waiting))
    (hrows : gw'.rows.map (·.referenceId) = gw.rows.map (·.referenceId)) (hl' : (gw'.called ++ gw'.waiting).Perm l) :
    Single g gw' := by
  have hmem : ∀ m ∈ gw'.called ++ gw'.waiting, m ∈ gw.called ++ gw.waiting := fun m hm => hl.subset (hl'.subset hm)
  refine ⟨(hl'.map _).nodup_iff.2 ?_, fun m hm => ?_, fun m hm => h.keyed m (hmem m hm)⟩
  · obtain ⟨l', hperm, hsub⟩ := hl
    exact (hperm.map _).nodup_iff.1 (h.once.sublist (hsub.map _))
  · rw [hrows]
    exact h.taken m (hmem m hm)

theorem Single.enter {m : Message} {row : DeliveryAttempt H} (h : Single g gw) (hrow : row.referenceId = m.referenceId)
    (hkey : m.referenceId = g.reference m.jobKey)
    (hnew : Table.get DeliveryAttempt.referenceId gw.rows m.referenceId = none) :
    Single g { gw with rows := gw.rows ++ [row], senders := gw.senders ++ [⟨m, .waiting⟩] } := by
  have hfree : ∀ m' ∈ gw.called ++ gw.waiting, m'.referenceId ≠ m.referenceId := by
    intro m' hm' heq
    obtain ⟨row', hrow', hr⟩ := List.mem_map.1 (h.taken m' hm')
    exact Table.get_eq_none.1 hnew row' hrow' (hr.trans heq)
  have hlog : gw.called ++ waiting { gw with rows := gw.rows ++ [row], senders := gw.senders ++ [⟨m, .waiting⟩] } =
      (gw.called ++ gw.waiting) ++ [m] := by
    simp [waiting, Sender.pending]
  refine ⟨?_, fun m' hm' => ?_, fun m' hm' => ?_⟩
  · rw [hlog, List.map_append]
    refine List.nodup_append'.2 ⟨h.once, by simp, ?_⟩
    simpa [or_imp, forall_and] using hfree
  · rw [hlog] at hm'
    rw [List.map_append, List.mem_append]
    rcases List.mem_append.1 hm' with hm' | hm'
    · exact .inl (h.taken m' hm')
    · exact .inr (by simp_all)
  · rw [hlog] at hm'
    rcases List.mem_append.1 hm' with hm' | hm'
    · exact h.keyed m' hm'
    · rw [List.mem_singleton.1 hm']
      exact hkey

theorem reference_of_valid {m : Message} (h : invalidJob g stay now m = false) : m.referenceId = g.reference m.jobKey := by
  simp only [invalidJob, Bool.or_eq_false_iff, bne_eq_false_iff_eq] at h
  exact h.1.1.1.1.1.2

theorem Single.sendMessage [DecidableEq H] (h : Single g gw) :
    Single g (gw.sendMessage g stay attempts now token request).1 := by
  by_cases hp : (gw.sendMessage g stay attempts now token request).2 = .posting
  · obtain ⟨revision, m, -, -, hvalid, hget, heq⟩ := sendMessage_posting.1 hp
    rw [heq]
    exact h.enter rfl (reference_of_valid hvalid) hget
  · rw [sendMessage_state hp]
    exact h

theorem Single.call {send : UltraMsg.Send} (h : Single g gw) : Single g (gw.call i send) := by
  unfold Gateway.call
  split
  swap
  · exact h
  rename_i m hs
  have hi := (List.getElem?_eq_some_iff.1 hs).1
  have hw : gw.waiting.Perm ([m] ++ (gw.senders.eraseIdx i).filterMap Sender.pending) := waiting_perm hs
  have hleft : ∀ senders, senders = (match outcome send.result with
      | some (result, state) => gw.senders.set i ⟨m, .answered result state⟩
      | none => gw.senders.eraseIdx i) →
      (senders.filterMap Sender.pending).Perm ((gw.senders.eraseIdx i).filterMap Sender.pending) := by
    rintro senders rfl
    split
    · rename_i result state _
      have hset := List.set_perm_cons_eraseIdx hi (⟨m, .answered result state⟩ : Sender)
      exact hset.filterMap Sender.pending
    · exact .refl _
  by_cases hp : send.posted
  · refine h.of_subperm (l := gw.called ++ gw.waiting) (List.Subperm.refl _) rfl ?_
    simp only [hp, if_true, List.append_assoc]
    exact ((hleft _ rfl).append_left [m] |>.trans hw.symm).append_left gw.called
  · refine h.of_subperm (l := gw.called ++ (gw.senders.eraseIdx i).filterMap Sender.pending) ?_ rfl ?_
    · refine (List.subperm_append_left gw.called).2 ?_
      exact (List.sublist_append_right _ _).subperm.trans hw.symm.subperm
    · simp only [hp, Bool.false_eq_true, if_false]
      exact (hleft _ rfl).append_left gw.called

theorem Single.record (h : Single g gw) : Single g (gw.record i) := by
  unfold Gateway.record
  split
  swap
  · exact h
  rename_i m result state hs
  have hw : gw.waiting.Perm ((gw.senders.eraseIdx i).filterMap Sender.pending) := waiting_perm hs
  refine h.of_subperm (l := gw.called ++ gw.waiting) (List.Subperm.refl _) ?_ (hw.symm.append_left gw.called)
  exact Table.map_key_modify fun _ hrow => hrow

end Gateway

end Apartments.Morning
