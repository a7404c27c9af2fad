import Apartments.Lib.Run
import Apartments.Notifications.Recipients

/-!
# E-mails are sent once (`notifications/services/email.py`)

The outbox of e-mails with the calls of `send_queued_email` on it. A call claims its delivery in one transaction, looks
the recipient up, asks the provider and writes the outcome; a worker that dies takes no further action. The tasks and
their retries call it at any time and in any number. While a call is under way its delivery is SENDING, or DISABLED by
another call, and neither is claimed again (`Sound`).
-/

namespace Apartments.Emails

open Machine

/-- What `queue_email` is given, and the key of its row. -/
structure Mail where
  pk : Uuid
  messageType : String
  recipient : String
  recipientSource : RecipientSource
  recipientReference : String
  idempotencyKey : String
deriving DecidableEq

/-- What the provider's `send` ends with. -/
inductive Outcome
  | accepted
  | failed (code : String) (permanent : Bool)
  | raised
deriving DecidableEq, Repr

/-- A call past its claim: before the lookup, before the provider, and before its last write. -/
inductive Stage
  | claimed
  | addressed (recipient : String)
  | failed (code : String) (permanent : Bool)
  | accepted
deriving DecidableEq, Repr

/-- A call of `send_queued_email`, with the delivery as it was claimed. -/
structure Call where
  delivery : EmailDelivery
  stage : Stage
deriving DecidableEq

/-- A call of the provider. -/
structure Submission where
  delivery : Uuid
  recipient : String
  accepted : Bool
deriving DecidableEq

def Call.submission (x : Call) (recipient : String) (outcome : Outcome) : Submission :=
  ⟨x.delivery.pk, recipient, outcome == .accepted⟩

structure World where
  deliveries : List EmailDelivery
  directory : Directory
  calls : List Call
  submissions : List Submission
deriving DecidableEq

inductive Action
  | queue (enabled : Bool) (mail : Mail)
  | directory (dir : Directory)
  | send (enabled : Bool) (delivery : Uuid)
  | resolve (i : ℕ)
  | submit (i : ℕ) (outcome : Outcome)
  | write (i : ℕ)
  | interrupt (i : ℕ)
deriving DecidableEq

/-- What the deployment fixes: the message types that have texts, `EMAIL_MAX_RETRIES` and `recipient_hmac`. -/
structure Deployment where
  messages : List String
  maxRetries : ℕ
  recipientHmac : String → String

variable (c : Deployment)

/-- The row that `queue_email` creates. -/
def Mail.delivery (m : Mail) (enabled : Bool) : EmailDelivery where
  pk := m.pk
  messageType := m.messageType
  recipientHash := c.recipientHmac m.recipient
  recipientSource := m.recipientSource
  recipientReference := m.recipientReference
  idempotencyKey := m.idempotencyKey
  status := if enabled then .queued else .disabled
  attemptCount := 0
  lastErrorCode := if enabled then "" else "email_delivery_disabled"

/-- The claim of `send_queued_email` goes on to send. -/
def EmailDelivery.sendable (d : EmailDelivery) : Bool :=
  (d.status == .queued || d.status == .failed) && decide (d.attemptCount < c.maxRetries)

def EmailDelivery.claim (d : EmailDelivery) : EmailDelivery :=
  { d with status := .sending, attemptCount := d.attemptCount + 1 }

/-- The update of a call that finds delivery disabled. -/
def EmailDelivery.disable (d : EmailDelivery) : EmailDelivery :=
  if d.status = .sent then d else { d with status := .disabled, lastErrorCode := "email_delivery_disabled" }

/-- The lookup of the recipient with the checks before the provider is asked. -/
def address (dir : Directory) (d : EmailDelivery) : Except Raised String :=
  match resolveRecipient c.recipientHmac dir d with
  | .error e => .error e
  | .ok recipient =>
    if c.recipientHmac recipient ≠ d.recipientHash then permanentError "recipient_integrity_failed"
    else if d.messageType ∉ c.messages then .error .other
    else .ok recipient

namespace World

variable (w : World)

def delivery (pk : Uuid) : Option EmailDelivery := Table.get EmailDelivery.pk w.deliveries pk

def modify (pk : Uuid) (f : EmailDelivery → EmailDelivery) : World :=
  { w with deliveries := Table.modify EmailDelivery.pk w.deliveries pk f }

/-- A call is under way. -/
def enter (x : Call) : World := { w with calls := w.calls ++ [x] }

/-- `queue_email`. -/
def queue (enabled : Bool) (m : Mail) : World :=
  if m.messageType ∉ c.messages ∨ w.deliveries.any (fun d => d.idempotencyKey == m.idempotencyKey || d.pk == m.pk) then w
  else { w with deliveries := w.deliveries ++ [m.delivery c enabled] }

/-- `send_queued_email` up to its claim. -/
def send (enabled : Bool) (pk : Uuid) : World :=
  if !enabled then w.modify pk EmailDelivery.disable
  else
    match w.delivery pk with
    | none => w
    | some d =>
      if !d.sendable c then w else (w.modify pk EmailDelivery.claim).enter ⟨d.claim, .claimed⟩

def setStage (i : ℕ) (x : Call) (stage : Stage) : World := { w with calls := w.calls.set i ⟨x.delivery, stage⟩ }

/-- The call is over. -/
def leave (i : ℕ) : World := { w with calls := w.calls.eraseIdx i }

/-- The lookup of call `i`. -/
def resolve (i : ℕ) (x : Call) : World :=
  match address c w.directory x.delivery with
  | .ok recipient => w.setStage i x (.addressed recipient)
  | .error (.provider code permanent) => w.setStage i x (.failed code permanent)
  | .error .other => w.leave i

/-- The call of the provider by call `i`. -/
def submit (i : ℕ) (x : Call) (recipient : String) (outcome : Outcome) : World :=
  let w : World := { w with submissions := w.submissions ++ [x.submission recipient outcome] }
  match outcome with
  | .accepted => w.setStage i x .accepted
  | .failed code permanent => w.setStage i x (.failed code permanent)
  | .raised => w.leave i

/-- The last write of call `i`. -/
def write (i : ℕ) (x : Call) : World :=
  match x.stage with
  | .accepted => (w.modify x.delivery.pk fun d => { d with status := .sent, lastErrorCode := "" }).leave i
  | .failed code permanent =>
    (w.modify x.delivery.pk fun d =>
      { d with status := .failed, lastErrorCode := (if permanent then "permanent_" else "transient_") ++ code }).leave i
  | _ => w

def step : Action → World
  | .queue enabled m => w.queue c enabled m
  | .directory dir => { w with directory := dir }
  | .send enabled pk => w.send c enabled pk
  | .resolve i =>
    match w.calls[i]? with
    | some ⟨d, .claimed⟩ => w.resolve c i ⟨d, .claimed⟩
    | _ => w
  | .submit i outcome =>
    match w.calls[i]? with
    | some ⟨d, .addressed recipient⟩ => w.submit i ⟨d, .addressed recipient⟩ recipient outcome
    | _ => w
  | .write i =>
    match w.calls[i]? with
    | some x => w.write i x
    | none => w
  | .interrupt i => w.leave i

/-- A call ends before the provider has accepted by something else than `EmailProviderError`: what the delivery refers to
is not there, the provider raises it, or the call is interrupted. -/
def strands : Action → Bool
  | .resolve i =>
    match w.calls[i]? with
    | some ⟨d, .claimed⟩ => !w.directory.knows d
    | _ => false
  | .submit i outcome =>
    match w.calls[i]? with
    | some ⟨_, .addressed _⟩ => outcome == .raised
    | _ => false
  | .interrupt i => (w.calls[i]?).any (·.stage != .accepted)
  | _ => false

/-- No e-mail was queued yet. -/
structure Fresh : Prop where
  deliveries : w.deliveries = []
  calls : w.calls = []
  submissions : w.submissions = []

/-- The provider is called at most `EMAIL_MAX_RETRIES` times for a delivery, for the address that was queued, and not
again once it has accepted. -/
structure SentOnce : Prop where
  accepted : w.submissions.Pairwise fun x y => x.delivery = y.delivery → x.accepted = false
  addressed : ∀ x ∈ w.submissions, ∃ d ∈ w.deliveries, d.pk = x.delivery ∧ c.recipientHmac x.recipient = d.recipientHash
  retries : ∀ pk, (w.submissions.filter (·.delivery = pk)).length ≤ c.maxRetries

/-- A delivery is SENDING only while its call is under way, or after the provider has accepted. -/
def NotStuck : Prop :=
  ∀ d ∈ w.deliveries, d.status = .sending →
    (∃ x ∈ w.calls, x.delivery.pk = d.pk) ∨ ∃ x ∈ w.submissions, x.delivery = d.pk ∧ x.accepted = true

end World

/-! ### The invariant -/

/-- The provider has not been called for this claim yet. -/
def Stage.early : Stage → Bool
  | .claimed | .addressed _ => true
  | .failed .. | .accepted => false

/-- The calls of the provider for a delivery. -/
def World.submitted (w : World) (pk : Uuid) : ℕ := (w.submissions.filter (·.delivery = pk)).length

/-- A call is the only one of its delivery, which is SENDING or DISABLED; once the provider has accepted, the delivery
is not queued or failed any more. -/
structure Sound (w : World) : Prop where
  keyed : (w.deliveries.map (·.pk)).Nodup
  known : ∀ d ∈ w.deliveries, d.messageType ∈ c.messages
  attempts : ∀ d ∈ w.deliveries, w.submitted d.pk ≤ d.attemptCount ∧ d.attemptCount ≤ c.maxRetries
  alone : (w.calls.map (·.delivery.pk)).Nodup
  calls : ∀ x ∈ w.calls, ∃ d ∈ w.deliveries, d.pk = x.delivery.pk ∧ d.recipientHash = x.delivery.recipientHash ∧
    d.messageType = x.delivery.messageType ∧ (d.status = .sending ∨ d.status = .disabled) ∧
    (x.stage.early = true → w.submitted d.pk < d.attemptCount)
  addressed : ∀ x ∈ w.calls, ∀ recipient, x.stage = .addressed recipient →
    c.recipientHmac recipient = x.delivery.recipientHash
  unaccepted : ∀ x ∈ w.calls, x.stage ≠ .accepted → ∀ s ∈ w.submissions, s.delivery = x.delivery.pk → s.accepted = false
  submissions : ∀ s ∈ w.submissions, ∃ d ∈ w.deliveries, d.pk = s.delivery ∧
    c.recipientHmac s.recipient = d.recipientHash ∧ (s.accepted = true → d.status ≠ .queued ∧ d.status ≠ .failed)
  once : w.submissions.Pairwise fun x y => x.delivery = y.delivery → x.accepted = false

variable {c} {w : World} {a : Action} {d : EmailDelivery} {x : Call} {i : ℕ} {pk : Uuid}

theorem World.Fresh.sound (h : w.Fresh) : Sound c w := by
  obtain ⟨hd, hc, hs⟩ := h
  constructor <;> simp [hd, hc, hs]

theorem Sound.sentOnce (h : Sound c w) : w.SentOnce c where
  accepted := h.once
  addressed s hs := by
    obtain ⟨d, hd, hpk, hh, -⟩ := h.submissions s hs
    exact ⟨d, hd, hpk, hh⟩
  retries pk := by
    by_cases hpk : ∃ d ∈ w.deliveries, d.pk = pk
    · obtain ⟨d, hd, rfl⟩ := hpk
      exact (h.attempts d hd).1.trans (h.attempts d hd).2
    · have hnone : w.submissions.filter (·.delivery = pk) = [] := by
        refine List.filter_eq_nil_iff.2 fun s hs heq => ?_
        obtain ⟨d, hd, hdpk, -⟩ := h.submissions s hs
        exact hpk ⟨d, hd, hdpk.trans (of_decide_eq_true heq)⟩
      simp [hnone]

theorem Sound.eq_of_pk (h : Sound c w) {d' : EmailDelivery} (hd : d ∈ w.deliveries) (hd' : d' ∈ w.deliveries)
    (hpk : d.pk = d'.pk) : d = d' :=
  Table.eq_of_mem_of_key h.keyed hd hd' hpk

/-! ### Calls -/

/-- A call leaves. -/
theorem Sound.leave (h : Sound c w) (i : ℕ) : Sound c (w.leave i) where
  keyed := h.keyed
  known := h.known
  attempts := h.attempts
  alone := Table.nodup_eraseIdx h.alone
  calls y hy := h.calls y (List.mem_of_mem_eraseIdx hy)
  addressed y hy := h.addressed y (List.mem_of_mem_eraseIdx hy)
  unaccepted y hy := h.unaccepted y (List.mem_of_mem_eraseIdx hy)
  submissions := h.submissions
  once := h.once

/-- A call goes on without a call of the provider. -/
theorem Sound.setStage (h : Sound c w) (hx : w.calls[i]? = some x) {stage : Stage}
    (hearly : stage.early = true → x.stage.early = true)
    (haccepted : x.stage ≠ .accepted ∧ stage ≠ .accepted)
    (haddressed : ∀ recipient, stage = .addressed recipient → c.recipientHmac recipient = x.delivery.recipientHash) :
    Sound c (w.setStage i x stage) where
  keyed := h.keyed
  known := h.known
  attempts := h.attempts
  alone := by
    have hkeys : (w.calls.set i ⟨x.delivery, stage⟩).map (·.delivery.pk) = w.calls.map (·.delivery.pk) :=
      Table.map_key_set hx rfl
    exact hkeys ▸ h.alone
  calls y hy := by
    rcases List.mem_or_eq_of_mem_set hy with hy | rfl
    · exact h.calls y hy
    · obtain ⟨d, hd, h1, h2, h3, h4, h5⟩ := h.calls x (List.mem_of_getElem? hx)
      exact ⟨d, hd, h1, h2, h3, h4, fun he => h5 (hearly he)⟩
  addressed y hy := by
    rcases List.mem_or_eq_of_mem_set hy with hy | rfl
    · exact h.addressed y hy
    · exact haddressed
  unaccepted y hy hstage := by
    rcases List.mem_or_eq_of_mem_set hy with hy | rfl
    · exact h.unaccepted y hy hstage
    · exact h.unaccepted x (List.mem_of_getElem? hx) haccepted.1
  submissions := h.submissions
  once := h.once

/-! ### Rows -/

theorem World.mem_modify {f : EmailDelivery → EmailDelivery} {d' : EmailDelivery} :
    d' ∈ (w.modify pk f).deliveries ↔ ∃ d ∈ w.deliveries, (if d.pk = pk then f d else d) = d' := Table.mem_modify

/-- A row is rewritten; a call finds it SENDING or DISABLED, and it is not queued or failed after an acceptance. -/
theorem Sound.modify (h : Sound c w) {f : EmailDelivery → EmailDelivery}
    (hf : ∀ d, (f d).pk = d.pk ∧ (f d).recipientHash = d.recipientHash ∧ (f d).messageType = d.messageType ∧
      (f d).attemptCount = d.attemptCount)
    (hcalls : ∀ d ∈ w.deliveries, d.pk = pk → (d.status = .sending ∨ d.status = .disabled) →
      (∃ x ∈ w.calls, x.delivery.pk = pk) → (f d).status = .sending ∨ (f d).status = .disabled)
    (haccepted : ∀ d ∈ w.deliveries, d.pk = pk → d.status ≠ .queued ∧ d.status ≠ .failed →
      (∃ s ∈ w.submissions, s.delivery = pk ∧ s.accepted = true) → (f d).status ≠ .queued ∧ (f d).status ≠ .failed) :
    Sound c (w.modify pk f) where
  keyed := by
    have hkeys : (w.modify pk f).deliveries.map EmailDelivery.pk = w.deliveries.map EmailDelivery.pk :=
      Table.map_key_modify fun d hd => (hf d).1.trans hd
    exact hkeys ▸ h.keyed
  known d' hd' := by
    obtain ⟨d, hd, rfl⟩ := World.mem_modify.1 hd'
    split_ifs
    · exact (hf d).2.2.1 ▸ h.known d hd
    · exact h.known d hd
  attempts d' hd' := by
    obtain ⟨d, hd, rfl⟩ := World.mem_modify.1 hd'
    split_ifs
    · rw [(hf d).1, (hf d).2.2.2]
      exact h.attempts d hd
    · exact h.attempts d hd
  alone := h.alone
  calls x hx := by
    obtain ⟨d, hd, h1, h2, h3, h4, h5⟩ := h.calls x hx
    refine ⟨_, World.mem_modify.2 ⟨d, hd, rfl⟩, ?_⟩
    by_cases hpk : d.pk = pk
    · obtain ⟨f1, f2, f3, f4⟩ := hf d
      rw [if_pos hpk, f1, f2, f3, f4]
      exact ⟨h1, h2, h3, hcalls d hd hpk h4 ⟨x, hx, h1 ▸ hpk⟩, h5⟩
    · rw [if_neg hpk]
      exact ⟨h1, h2, h3, h4, h5⟩
  addressed := h.addressed
  unaccepted := h.unaccepted
  submissions s hs := by
    obtain ⟨d, hd, h1, h2, h3⟩ := h.submissions s hs
    refine ⟨_, World.mem_modify.2 ⟨d, hd, rfl⟩, ?_⟩
    by_cases hpk : d.pk = pk
    · obtain ⟨f1, f2, -, -⟩ := hf d
      rw [if_pos hpk, f1, f2]
      exact ⟨h1, h2, fun ha => haccepted d hd hpk (h3 ha) ⟨s, hs, h1 ▸ hpk, ha⟩⟩
    · rw [if_neg hpk]
      exact ⟨h1, h2, h3⟩
  once := h.once

/-! ### Steps -/

theorem Sound.queue (h : Sound c w) (enabled : Bool) (m : Mail) : Sound c (w.queue c enabled m) := by
  unfold World.queue
  split_ifs with hm
  · exact h
  simp only [not_or, not_not, List.any_eq_true, not_exists, not_and, Bool.or_eq_true, beq_iff_eq] at hm
  obtain ⟨hknown, hfresh⟩ := hm
  have hpk (d) (hd : d ∈ w.deliveries) : d.pk ≠ m.pk := (hfresh d hd).2
  have hnone : w.submitted m.pk = 0 := by
    refine List.length_eq_zero_iff.2 (List.filter_eq_nil_iff.2 fun s hs heq => ?_)
    obtain ⟨d, hd, hdpk, -⟩ := h.submissions s hs
    exact hpk d hd (hdpk.trans (of_decide_eq_true heq))
  refine ⟨?_, fun d hd => ?_, fun d hd => ?_, h.alone, fun x hx => ?_, h.addressed, h.unaccepted, fun s hs => ?_, h.once⟩
  · rw [List.map_append, List.nodup_append]
    refine ⟨h.keyed, List.nodup_singleton _, fun x hx y hy => ?_⟩
    obtain ⟨d, hd, rfl⟩ := List.mem_map.1 hx
    obtain rfl : y = m.pk := List.mem_singleton.1 hy
    exact hpk d hd
  · rcases List.mem_append.1 hd with hd | hd
    · exact h.known d hd
    · rw [List.mem_singleton.1 hd]
      exact hknown
  · rcases List.mem_append.1 hd with hd | hd
    · exact h.attempts d hd
    · rw [List.mem_singleton.1 hd]
      exact ⟨hnone.le, Nat.zero_le _⟩
  · obtain ⟨d, hd, hx⟩ := h.calls x hx
    exact ⟨d, List.mem_append_left _ hd, hx⟩
  · obtain ⟨d, hd, hs⟩ := h.submissions s hs
    exact ⟨d, List.mem_append_left _ hd, hs⟩

theorem Sound.disable (h : Sound c w) (pk : Uuid) : Sound c (w.modify pk EmailDelivery.disable) := by
  refine h.modify (fun d => ?_) (fun d _ _ hs _ => ?_) fun d _ _ hs _ => ?_
  · unfold EmailDelivery.disable
    split_ifs <;> exact ⟨rfl, rfl, rfl, rfl⟩
  · unfold EmailDelivery.disable
    split_ifs with hsent
    · exact hs
    · exact .inr rfl
  · unfold EmailDelivery.disable
    split_ifs with hsent
    · exact hs
    · exact ⟨nofun, nofun⟩

/-- A delivery that can be claimed has no call, and the provider has not accepted it. -/
theorem Sound.idle (h : Sound c w) (hd : d ∈ w.deliveries) (hsend : d.sendable c = true) :
    (∀ x ∈ w.calls, x.delivery.pk ≠ d.pk) ∧ ∀ s ∈ w.submissions, s.delivery = d.pk → s.accepted = false := by
  simp only [EmailDelivery.sendable, Bool.and_eq_true, Bool.or_eq_true, beq_iff_eq] at hsend
  refine ⟨fun x hx hpk => ?_, fun s hs hpk => ?_⟩
  · obtain ⟨d', hd', hpk', -, -, hstatus, -⟩ := h.calls x hx
    obtain rfl := h.eq_of_pk hd' hd (hpk'.trans hpk)
    rcases hstatus with hs | hs <;> simp [hs] at hsend
  · by_contra ha
    obtain ⟨d', hd', hpk', -, hstatus⟩ := h.submissions s hs
    obtain rfl := h.eq_of_pk hd' hd (hpk'.trans hpk)
    obtain ⟨hq, hf⟩ := hstatus (eq_true_of_ne_false ha)
    rcases hsend.1 with hs | hs
    · exact hq hs
    · exact hf hs

theorem Sound.claim (h : Sound c w) (hd : d ∈ w.deliveries) (hsend : d.sendable c = true) :
    Sound c ((w.modify d.pk EmailDelivery.claim).enter ⟨d.claim, .claimed⟩) := by
  obtain ⟨hcalls, haccepted⟩ := h.idle hd hsend
  have hmax : d.attemptCount < c.maxRetries := by
    simp only [EmailDelivery.sendable, Bool.and_eq_true, decide_eq_true_eq] at hsend
    exact hsend.2
  -- the rows of the others stay, and that of the delivery is claimed
  have hrows (d') (hd' : d' ∈ (w.modify d.pk EmailDelivery.claim).deliveries) :
      d' = d.claim ∨ d' ∈ w.deliveries ∧ d'.pk ≠ d.pk := by
    obtain ⟨e, he, rfl⟩ := World.mem_modify.1 hd'
    by_cases hpk : e.pk = d.pk
    · rw [if_pos hpk, h.eq_of_pk he hd hpk]
      exact .inl rfl
    · rw [if_neg hpk]
      exact .inr ⟨he, hpk⟩
  have hclaim : d.claim ∈ (w.modify d.pk EmailDelivery.claim).deliveries :=
    World.mem_modify.2 ⟨d, hd, if_pos rfl⟩
  have hother (e) (he : e ∈ w.deliveries) (hpk : e.pk ≠ d.pk) : e ∈ (w.modify d.pk EmailDelivery.claim).deliveries :=
    World.mem_modify.2 ⟨e, he, if_neg hpk⟩
  refine ⟨?_, fun d' hd' => ?_, fun d' hd' => ?_, ?_, fun x hx => ?_, fun x hx => ?_, fun x hx hstage => ?_,
    fun s hs => ?_, h.once⟩
  · have hkeys : (w.modify d.pk EmailDelivery.claim).deliveries.map EmailDelivery.pk = w.deliveries.map EmailDelivery.pk :=
      Table.map_key_modify fun _ hk => hk
    exact hkeys ▸ h.keyed
  · rcases hrows d' hd' with rfl | ⟨hd', -⟩
    · exact h.known d hd
    · exact h.known d' hd'
  · rcases hrows d' hd' with rfl | ⟨hd', -⟩
    · exact ⟨(h.attempts d hd).1.trans (Nat.le_succ _), hmax⟩
    · exact h.attempts d' hd'
  · refine (List.map_append ..).symm ▸ List.nodup_append.2 ?_
    refine ⟨h.alone, List.nodup_singleton _, fun k hk y hy => ?_⟩
    obtain ⟨x, hx, rfl⟩ := List.mem_map.1 hk
    obtain rfl : y = d.pk := List.mem_singleton.1 hy
    exact hcalls x hx
  · rcases List.mem_append.1 hx with hx | hx
    · obtain ⟨e, he, h1, hrest⟩ := h.calls x hx
      exact ⟨e, hother e he fun hpk => hcalls x hx (h1.symm.trans hpk), h1, hrest⟩
    · obtain rfl := List.mem_singleton.1 hx
      exact ⟨d.claim, hclaim, rfl, rfl, rfl, .inl rfl, fun _ => Nat.lt_succ_of_le (h.attempts d hd).1⟩
  · rcases List.mem_append.1 hx with hx | hx
    · exact h.addressed x hx
    · obtain rfl := List.mem_singleton.1 hx
      exact nofun
  · rcases List.mem_append.1 hx with hx | hx
    · exact h.unaccepted x hx hstage
    · obtain rfl := List.mem_singleton.1 hx
      exact haccepted
  · obtain ⟨e, he, h1, h2, h3⟩ := h.submissions s hs
    by_cases hpk : e.pk = d.pk
    · obtain rfl := h.eq_of_pk he hd hpk
      exact ⟨e.claim, hclaim, h1, h2, fun _ => ⟨nofun, nofun⟩⟩
    · exact ⟨e, hother e he hpk, h1, h2, h3⟩

theorem Sound.send (h : Sound c w) (enabled : Bool) (pk : Uuid) : Sound c (w.send c enabled pk) := by
  unfold World.send
  split_ifs with henabled
  · exact h.disable pk
  split
  · exact h
  rename_i d hget
  split_ifs with hsend
  · exact h
  · obtain rfl := Table.key_of_get hget
    exact h.claim (Table.mem_of_get hget) (by simpa using hsend)

/-- What a lookup ends with. -/
theorem address_ok {dir : Directory} {recipient : String} (h : address c dir d = .ok recipient) :
    c.recipientHmac recipient = d.recipientHash := by
  unfold address at h
  split at h
  · cases h
  split_ifs at h with hhash htype
  · cases h
  · cases h
    exact not_not.1 hhash

theorem address_other {dir : Directory} (hknown : d.messageType ∈ c.messages) (h : address c dir d = .error .other) :
    dir.knows d = false := by
  unfold address at h
  split at h
  · rename_i e he
    obtain rfl : e = .other := by simpa using h
    exact resolveRecipient_other.1 he
  · split_ifs at h
    cases h

theorem Sound.resolve (h : Sound c w) (hx : w.calls[i]? = some x) (hstage : x.stage = .claimed) :
    Sound c (w.resolve c i x) := by
  unfold World.resolve
  split
  · rename_i recipient haddress
    refine h.setStage hx (fun _ => by rw [hstage]; rfl) ⟨by simp [hstage], nofun⟩ fun r hr => ?_
    cases hr
    exact address_ok haddress
  · exact h.setStage hx nofun ⟨by simp [hstage], nofun⟩ nofun
  · exact h.leave i

/-- The provider is called. -/
theorem Sound.submit (h : Sound c w) {recipient : String} {outcome : Outcome} (hx : w.calls[i]? = some x)
    (hstage : x.stage = .addressed recipient) : Sound c (w.submit i x recipient outcome) := by
  have hmem := List.mem_of_getElem? hx
  have hunaccepted := h.unaccepted x hmem (by simp [hstage])
  have hhash := h.addressed x hmem recipient hstage
  obtain ⟨d, hd, hpk, hdhash, hdtype, hdstatus, hearly⟩ := h.calls x hmem
  have hroom := hearly (by rw [hstage]; rfl)
  -- the submissions of the delivery are one more, those of the others as many
  have hcount (pk) : ((w.submissions ++ [x.submission recipient outcome]).filter
      (fun s => decide (s.delivery = pk))).length = w.submitted pk + if x.delivery.pk = pk then 1 else 0 := by
    rw [List.filter_append, List.length_append]
    by_cases heq : x.delivery.pk = pk <;> simp [heq, World.submitted, Call.submission]
  have hattempts : ∀ e ∈ w.deliveries,
      w.submitted e.pk + (if x.delivery.pk = e.pk then 1 else 0) ≤ e.attemptCount ∧ e.attemptCount ≤ c.maxRetries := by
    intro e he
    refine ⟨?_, (h.attempts e he).2⟩
    split_ifs with heq
    · obtain rfl := h.eq_of_pk he hd (heq.symm.trans hpk.symm)
      exact hroom
    · exact (h.attempts e he).1
  have hsubmissions : ∀ s ∈ w.submissions ++ [x.submission recipient outcome], ∃ d ∈ w.deliveries,
      d.pk = s.delivery ∧ c.recipientHmac s.recipient = d.recipientHash ∧
        (s.accepted = true → d.status ≠ .queued ∧ d.status ≠ .failed) := by
    intro s hs
    rcases List.mem_append.1 hs with hs | hs
    · exact h.submissions s hs
    · obtain rfl := List.mem_singleton.1 hs
      refine ⟨d, hd, hpk, hhash.trans hdhash.symm, fun _ => ?_⟩
      rcases hdstatus with hstatus | hstatus <;> simp [hstatus]
  have honce : (w.submissions ++ [x.submission recipient outcome]).Pairwise fun x y =>
      x.delivery = y.delivery → x.accepted = false := by
    refine List.pairwise_append.2 ⟨h.once, List.pairwise_singleton _ _, fun s hs y hy heq => ?_⟩
    obtain rfl := List.mem_singleton.1 hy
    exact hunaccepted s hs heq
  -- whatever the calls become, only `x` changes
  have hrest (calls : List Call) (hsub : ∀ y ∈ calls, y ∈ w.calls ∧ y.delivery.pk ≠ x.delivery.pk ∨
      y.delivery = x.delivery ∧ y.stage.early = false ∧ (y.stage = .accepted ∨ outcome ≠ .accepted))
      (hnd : (calls.map (·.delivery.pk)).Nodup) :
      Sound c { w with
        calls := calls, submissions := w.submissions ++ [x.submission recipient outcome] } := by
    refine ⟨h.keyed, h.known, fun e he => ?_, hnd, fun y hy => ?_, fun y hy r hr => ?_, fun y hy hya s hs heq => ?_,
      hsubmissions, honce⟩
    · simpa only [World.submitted, hcount] using hattempts e he
    · rcases hsub y hy with ⟨hy, hne⟩ | ⟨hy, hlate, -⟩
      · obtain ⟨e, he, h1, h2, h3, h4, h5⟩ := h.calls y hy
        refine ⟨e, he, h1, h2, h3, h4, fun hye => ?_⟩
        have hne' : x.delivery.pk ≠ e.pk := fun heq => hne (h1.symm.trans heq.symm)
        simpa only [World.submitted, hcount, if_neg hne', add_zero] using h5 hye
      · exact ⟨d, hd, hy ▸ hpk, hy ▸ hdhash, hy ▸ hdtype, hdstatus, by simp [hlate]⟩
    · rcases hsub y hy with ⟨hy, -⟩ | ⟨-, hlate, -⟩
      · exact h.addressed y hy r hr
      · rw [hr] at hlate
        cases hlate
    · rcases hsub y hy with ⟨hy, hne⟩ | ⟨hyd, -, hout⟩
      · rcases List.mem_append.1 hs with hs | hs
        · exact h.unaccepted y hy hya s hs heq
        · obtain rfl := List.mem_singleton.1 hs
          exact absurd heq.symm hne
      · have hnot := hout.resolve_left hya
        rcases List.mem_append.1 hs with hs | hs
        · exact hunaccepted s hs (hyd ▸ heq)
        · obtain rfl := List.mem_singleton.1 hs
          simpa [Call.submission] using hnot
  have hset (stage : Stage) (hlate : stage.early = false) (hout : stage = .accepted ∨ outcome ≠ .accepted) :
      ∀ y ∈ w.calls.set i ⟨x.delivery, stage⟩, y ∈ w.calls ∧ y.delivery.pk ≠ x.delivery.pk ∨
        y.delivery = x.delivery ∧ y.stage.early = false ∧ (y.stage = .accepted ∨ outcome ≠ .accepted) := by
    intro y hy
    rcases Table.mem_set_cases h.alone hx hy with rfl | hy
    · exact .inr ⟨rfl, hlate, hout⟩
    · exact .inl hy
  have hnd (stage : Stage) : ((w.calls.set i ⟨x.delivery, stage⟩).map (·.delivery.pk)).Nodup := by
    have hkeys : (w.calls.set i ⟨x.delivery, stage⟩).map (·.delivery.pk) = w.calls.map (·.delivery.pk) :=
      Table.map_key_set hx rfl
    exact hkeys ▸ h.alone
  cases outcome with
  | accepted => exact hrest _ (hset .accepted rfl (.inl rfl)) (hnd _)
  | failed code permanent => exact hrest _ (hset (.failed code permanent) rfl (.inr nofun)) (hnd _)
  | raised =>
    exact hrest _ (fun y hy => .inl (Table.mem_eraseIdx_cases h.alone hx hy)) (Table.nodup_eraseIdx h.alone)

/-- The outcome is written and the call is over. -/
theorem Sound.write (h : Sound c w) (hx : w.calls[i]? = some x) : Sound c (w.write i x) := by
  have hgone : ∀ y ∈ (w.leave i).calls, y.delivery.pk ≠ x.delivery.pk :=
    fun y hy => (Table.mem_eraseIdx_cases h.alone hx hy).2
  unfold World.write
  split
  · refine (h.leave i).modify (fun _ => ⟨rfl, rfl, rfl, rfl⟩) (fun d _ _ _ hcall => ?_) fun _ _ _ _ _ => ⟨nofun, nofun⟩
    obtain ⟨y, hy, hpk⟩ := hcall
    exact absurd hpk (hgone y hy)
  · rename_i code permanent hstage
    refine (h.leave i).modify (fun _ => ⟨rfl, rfl, rfl, rfl⟩) (fun d _ _ _ hcall => ?_) fun d _ _ _ hs => ?_
    · obtain ⟨y, hy, hpk⟩ := hcall
      exact absurd hpk (hgone y hy)
    · obtain ⟨s, hs, hpk, ha⟩ := hs
      have := h.unaccepted x (List.mem_of_getElem? hx) (by simp [hstage]) s hs hpk
      rw [this] at ha
      cases ha
  · exact h

theorem Sound.step (h : Sound c w) (a : Action) : Sound c (w.step c a) := by
  cases a with
  | queue enabled m => exact h.queue enabled m
  | directory dir => exact ⟨h.1, h.2, h.3, h.4, h.5, h.6, h.7, h.8, h.9⟩
  | send enabled pk => exact h.send enabled pk
  | resolve i =>
    simp only [World.step]
    split
    · exact h.resolve (by assumption) rfl
    · exact h
  | submit i outcome =>
    simp only [World.step]
    split
    · exact h.submit (by assumption) rfl
    · exact h
  | write i =>
    simp only [World.step]
    split
    · exact h.write (by assumption)
    · exact h
  | interrupt i => exact h.leave i

/-! ### Deliveries that are sent, and deliveries that are stuck -/

/-- What is SENT stays SENT. -/
theorem Sound.keeps_sent (h : Sound c w) (a : Action) (hd : d ∈ w.deliveries) (hsent : d.status = .sent) :
    ∃ d' ∈ (w.step c a).deliveries, d'.pk = d.pk ∧ d'.status = .sent := by
  have hsame (w' : World) (hw : w'.deliveries = w.deliveries) :
      ∃ d' ∈ w'.deliveries, d'.pk = d.pk ∧ d'.status = .sent := ⟨d, hw ▸ hd, rfl, hsent⟩
  have hmodify (pk) (f : EmailDelivery → EmailDelivery) (hf : d.pk = pk → (f d).pk = d.pk ∧ (f d).status = .sent) :
      ∃ d' ∈ (w.modify pk f).deliveries, d'.pk = d.pk ∧ d'.status = .sent := by
    refine ⟨_, World.mem_modify.2 ⟨d, hd, rfl⟩, ?_⟩
    split_ifs with hpk
    · exact hf hpk
    · exact ⟨rfl, hsent⟩
  cases a with
  | queue enabled m =>
    simp only [World.step, World.queue]
    split_ifs
    · exact ⟨d, hd, rfl, hsent⟩
    · exact ⟨d, List.mem_append_left _ hd, rfl, hsent⟩
  | directory dir => exact hsame _ rfl
  | send enabled pk =>
    simp only [World.step, World.send]
    split_ifs
    · exact hmodify pk _ fun _ => by simp [EmailDelivery.disable, hsent]
    split
    · exact hsame _ rfl
    rename_i e hget
    split_ifs with hsend
    · exact hsame _ rfl
    · refine hmodify pk _ fun hpk => ?_
      obtain rfl := h.eq_of_pk hd (Table.mem_of_get hget) (hpk.trans (Table.key_of_get hget).symm)
      simp [EmailDelivery.sendable, hsent] at hsend
  | resolve i =>
    simp only [World.step, World.resolve]
    repeat' split
    all_goals exact hsame _ rfl
  | submit i outcome =>
    simp only [World.step, World.submit]
    repeat' split
    all_goals exact hsame _ rfl
  | write i =>
    simp only [World.step]
    split
    · rename_i x hx
      obtain ⟨e, he, hepk, -, -, hstatus, -⟩ := h.calls x (List.mem_of_getElem? hx)
      -- a delivery with a call is not SENT
      have hne : d.pk ≠ x.delivery.pk := by
        intro hpk
        obtain rfl := h.eq_of_pk he hd (hepk.trans hpk.symm)
        rcases hstatus with hs | hs <;> simp [hs] at hsent
      unfold World.write
      split
      · exact hmodify _ _ fun hpk => absurd hpk hne
      · exact hmodify _ _ fun hpk => absurd hpk hne
      · exact hsame _ rfl
    · exact hsame _ rfl
  | interrupt i => exact hsame _ rfl

/-- Nothing is stuck, and a call past the provider's acceptance has its submission. -/
structure Unstuck (w : World) : Prop where
  notStuck : w.NotStuck
  answered : ∀ x ∈ w.calls, x.stage = .accepted → ∃ s ∈ w.submissions, s.delivery = x.delivery.pk ∧ s.accepted = true

/-- No delivery becomes SENDING, no call leaves and no submission is lost. -/
theorem Unstuck.congr (h : Unstuck w) {w' : World}
    (hrows : ∀ d' ∈ w'.deliveries, d'.status = .sending → ∃ d ∈ w.deliveries, d.pk = d'.pk ∧ d.status = .sending)
    (hcalls : w'.calls = w.calls) (hsubmissions : w'.submissions = w.submissions) : Unstuck w' where
  notStuck d' hd' hs := by
    obtain ⟨d, hd, hpk, hsd⟩ := hrows d' hd' hs
    rw [hcalls, hsubmissions, ← hpk]
    exact h.notStuck d hd hsd
  answered := by
    rw [hcalls, hsubmissions]
    exact h.answered

/-- The call at `i` leaves while its delivery is not SENDING, or after the provider has accepted. -/
theorem Unstuck.leave (h : Unstuck w) (hx : w.calls[i]? = some x)
    (hdone : ∀ d ∈ w.deliveries, d.pk = x.delivery.pk → d.status = .sending →
      ∃ s ∈ w.submissions, s.delivery = d.pk ∧ s.accepted = true) : Unstuck (w.leave i) where
  notStuck d hd hsending := by
    by_cases hpk : d.pk = x.delivery.pk
    · exact .inr (hdone d hd hpk hsending)
    rcases h.notStuck d hd hsending with ⟨y, hy, hypk⟩ | hacc
    · rcases List.mem_cons.1 ((Table.perm_of_getElem? hx).mem_iff.1 hy) with rfl | hy'
      · exact absurd hypk.symm hpk
      · exact .inl ⟨y, hy', hypk⟩
    · exact .inr hacc
  answered y hy := h.answered y (List.mem_of_mem_eraseIdx hy)

/-- The call at `i` goes on, with its submission if it is past the acceptance. -/
theorem Unstuck.setStage (h : Unstuck w) (hx : w.calls[i]? = some x) {stage : Stage} (new : List Submission)
    (hstage : stage = .accepted → ∃ s ∈ new, s.delivery = x.delivery.pk ∧ s.accepted = true) :
    Unstuck { w with calls := w.calls.set i ⟨x.delivery, stage⟩, submissions := w.submissions ++ new } where
  notStuck d hd hsending := by
    rcases h.notStuck d hd hsending with ⟨y, hy, hypk⟩ | ⟨s, hs, hsacc⟩
    · have hkeys : (w.calls.set i ⟨x.delivery, stage⟩).map (·.delivery.pk) = w.calls.map (·.delivery.pk) :=
        Table.map_key_set hx rfl
      have hmem : d.pk ∈ (w.calls.set i ⟨x.delivery, stage⟩).map (·.delivery.pk) := by
        rw [hkeys, ← hypk]
        exact List.mem_map_of_mem hy
      obtain ⟨z, hz, hzpk⟩ := List.mem_map.1 hmem
      exact .inl ⟨z, hz, hzpk⟩
    · exact .inr ⟨s, List.mem_append_left _ hs, hsacc⟩
  answered y hy hya := by
    rcases List.mem_or_eq_of_mem_set hy with hy | rfl
    · obtain ⟨s, hs, hsacc⟩ := h.answered y hy hya
      exact ⟨s, List.mem_append_left _ hs, hsacc⟩
    · obtain ⟨s, hs, hsacc⟩ := hstage hya
      exact ⟨s, List.mem_append_right _ hs, hsacc⟩

theorem Unstuck.send (h : Unstuck w) (enabled : Bool) (pk : Uuid) : Unstuck (w.send c enabled pk) := by
  unfold World.send
  split_ifs with henabled
  · refine h.congr (fun d' hd' hsending => ?_) rfl rfl
    obtain ⟨d, hd, rfl⟩ := World.mem_modify.1 hd'
    revert hsending
    unfold EmailDelivery.disable
    split_ifs with hpk hsent
    · exact fun hsending => ⟨d, hd, rfl, hsending⟩
    · exact nofun
    · exact fun hsending => ⟨d, hd, rfl, hsending⟩
  split
  · exact h
  rename_i d hget
  split_ifs with hsend
  · exact h
  refine ⟨fun d' hd' hsending => ?_, fun x hx hstage => ?_⟩
  · obtain ⟨e, he, rfl⟩ := World.mem_modify.1 hd'
    by_cases hpk : e.pk = pk
    · rw [if_pos hpk]
      refine .inl ⟨⟨d.claim, .claimed⟩, List.mem_append_right _ (List.mem_singleton_self _), ?_⟩
      exact (Table.key_of_get hget).trans hpk.symm
    · rw [if_neg hpk] at hsending ⊢
      rcases h.notStuck e he hsending with ⟨x, hx, hxpk⟩ | hacc
      · exact .inl ⟨x, List.mem_append_left _ hx, hxpk⟩
      · exact .inr hacc
  · rcases List.mem_append.1 hx with hx | hx
    · exact h.answered x hx hstage
    · rw [List.mem_singleton.1 hx] at hstage
      cases hstage

theorem Unstuck.resolve (h : Unstuck w) (hs : Sound c w) (hx : w.calls[i]? = some x)
    (hknows : w.directory.knows x.delivery = true) : Unstuck (w.resolve c i x) := by
  have hset {stage : Stage} (hstage : stage ≠ .accepted) : Unstuck (w.setStage i x stage) := by
    have hgoes := h.setStage hx [] fun heq => absurd heq hstage
    rwa [List.append_nil] at hgoes
  unfold World.resolve
  split
  · exact hset nofun
  · exact hset nofun
  · rename_i hother
    obtain ⟨d, hd, -, -, htype, -⟩ := hs.calls x (List.mem_of_getElem? hx)
    have := address_other (htype ▸ hs.known d hd) hother
    rw [hknows] at this
    cases this

theorem Unstuck.write (h : Unstuck w) (hx : w.calls[i]? = some x) : Unstuck (w.write i x) := by
  have hwrite (f : EmailDelivery → EmailDelivery) (hf : ∀ d, (f d).status ≠ .sending) :
      Unstuck ((w.modify x.delivery.pk f).leave i) := by
    have hrows : Unstuck (w.modify x.delivery.pk f) := by
      refine h.congr (fun d' hd' hsending => ?_) rfl rfl
      obtain ⟨d, hd, rfl⟩ := World.mem_modify.1 hd'
      by_cases hpk : d.pk = x.delivery.pk
      · rw [if_pos hpk] at hsending
        exact absurd hsending (hf d)
      · rw [if_neg hpk] at hsending ⊢
        exact ⟨d, hd, rfl, hsending⟩
    refine hrows.leave hx fun d' hd' hpk hsending => ?_
    obtain ⟨d, hd, rfl⟩ := World.mem_modify.1 hd'
    by_cases hd : d.pk = x.delivery.pk
    · rw [if_pos hd] at hsending
      exact absurd hsending (hf d)
    · rw [if_neg hd] at hpk
      exact absurd hpk hd
  unfold World.write
  split
  · exact hwrite _ nofun
  · exact hwrite _ nofun
  · exact h

theorem Unstuck.step (h : Unstuck w) (hs : Sound c w) (hok : w.strands a = false) : Unstuck (w.step c a) := by
  cases a with
  | queue enabled m =>
    simp only [World.step, World.queue]
    split_ifs
    · exact h
    · refine h.congr (fun d hd hsending => ?_) rfl rfl
      rcases List.mem_append.1 hd with hd | hd
      · exact ⟨d, hd, rfl, hsending⟩
      · rw [List.mem_singleton.1 hd] at hsending
        cases enabled <;> cases hsending
  | directory dir => exact h.congr (fun d hd hsending => ⟨d, hd, rfl, hsending⟩) rfl rfl
  | send enabled pk => exact h.send enabled pk
  | resolve i =>
    simp only [World.step]
    split
    · rename_i d hx
      simp only [World.strands, hx, Bool.not_eq_false'] at hok
      exact h.resolve hs hx hok
    · exact h
  | submit i outcome =>
    simp only [World.step]
    split
    · rename_i d recipient hx
      simp only [World.strands, hx, beq_eq_false_iff_ne] at hok
      unfold World.submit
      split
      · refine h.setStage hx _ fun _ => ⟨_, List.mem_singleton_self _, rfl, rfl⟩
      · exact h.setStage hx _ nofun
      · exact absurd rfl hok
    · exact h
  | write i =>
    simp only [World.step]
    split
    · exact h.write (by assumption)
    · exact h
  | interrupt i =>
    cases hx : w.calls[i]? with
    | none =>
      have hgone : w.calls.eraseIdx i = w.calls := List.eraseIdx_of_length_le (List.getElem?_eq_none_iff.1 hx)
      exact h.congr (fun d hd hsending => ⟨d, hd, rfl, hsending⟩) hgone rfl
    | some x =>
      simp only [World.strands, hx, Option.any_some, bne_eq_false_iff_eq] at hok
      refine h.leave hx fun d _ hpk _ => ?_
      obtain ⟨s, hs, hspk, ha⟩ := h.answered x (List.mem_of_getElem? hx) hok
      exact ⟨s, hs, hspk.trans hpk.symm, ha⟩

/-! ### Runs -/

/-- In every run e-mails are sent at most once and to whom they were queued for, and what is SENT stays SENT; no
delivery is stuck in a run in which every call before the acceptance ends by `EmailProviderError` or a return. -/
theorem emails_sent_once (h : w.Fresh) (as : List Action) :
    (run (World.step c) w as).SentOnce c ∧
      (∀ bs, ∀ d ∈ (run (World.step c) w as).deliveries, d.status = .sent →
        ∃ d' ∈ (run (World.step c) w (as ++ bs)).deliveries, d'.pk = d.pk ∧ d'.status = .sent) ∧
      (Meets (World.step c) (fun w a => w.strands a = false) w as → (run (World.step c) w as).NotStuck) := by
  have hsound : ∀ bs, Sound c (run (World.step c) w bs) :=
    run_inv (I := Sound c) (fun w a hw => hw.step a) h.sound
  refine ⟨(hsound as).sentOnce, fun bs d hd hsent => ?_, fun hok => ?_⟩
  · -- by induction on what follows: each step keeps the row
    have hkept : ∀ bs v, Sound c v → (∃ d' ∈ v.deliveries, d'.pk = d.pk ∧ d'.status = .sent) →
        ∃ d' ∈ (run (World.step c) v bs).deliveries, d'.pk = d.pk ∧ d'.status = .sent := by
      intro bs
      induction bs with
      | nil => exact fun _ _ hv => hv
      | cons b bs ih =>
        intro v hv hrow
        obtain ⟨e, he, hepk, hes⟩ := hrow
        obtain ⟨e', he', hpk', hs'⟩ := hv.keeps_sent b he hes
        exact ih _ (hv.step b) ⟨e', he', hpk'.trans hepk, hs'⟩
    rw [run_append]
    exact hkept bs _ (hsound as) ⟨d, hd, rfl, hsent⟩
  · have hinit : Sound c w ∧ Unstuck w := by
      refine ⟨h.sound, fun d hd => ?_, fun x hx => ?_⟩
      · simp [h.deliveries] at hd
      · simp [h.calls] at hx
    have hend := hok.inv (I := fun v => Sound c v ∧ Unstuck v)
      (fun v a hv ha => ⟨hv.1.step a, hv.2.step hv.1 ha⟩) hinit
    exact hend.2.notStuck

/-! ### A contact message that is gone -/

/-- The hash of an address is the address here. -/
def office : Deployment := ⟨["contact_confirmation"], 3, id⟩

def confirmation : Mail where
  pk := ⟨"5b0e7c1a-1f60-4f0e-9a51-0d5d7c2f1c01", rfl⟩
  messageType := "contact_confirmation"
  recipient := "guest@example.com"
  recipientSource := .contact
  recipientReference := "4"
  idempotencyKey := "contact-4"

def emptyOutbox : World where
  deliveries := []
  directory := ⟨[], [], [⟨4, "guest@example.com"⟩], [], [], [], [], "", "", false, false, [], [], [], []⟩
  calls := []
  submissions := []

/-- The confirmation is sent, and once. -/
theorem emails_sent_once_confirmation :
    (run (World.step office) emptyOutbox [.queue true confirmation, .send true confirmation.pk, .resolve 0,
      .submit 0 .accepted, .write 0, .send true confirmation.pk]).SentOnce office :=
  (emails_sent_once (w := emptyOutbox) ⟨rfl, rfl, rfl⟩ _).1

def withoutMessages : Directory := { emptyOutbox.directory with messages := [] }

/-- The contact message is deleted before its confirmation is sent: the lookup raises `DoesNotExist`, and the delivery
stays SENDING. -/
theorem missing_message_stuck :
    ¬(run (World.step office) emptyOutbox [.queue true confirmation, .directory withoutMessages,
      .send true confirmation.pk, .resolve 0]).NotStuck := by
  have hend : (run (World.step office) emptyOutbox [.queue true confirmation, .directory withoutMessages,
      .send true confirmation.pk, .resolve 0]) =
        ⟨[(confirmation.delivery office true).claim], withoutMessages, [], []⟩ := by decide +kernel
  rw [hend]
  intro h
  rcases h _ (List.mem_singleton_self _) rfl with ⟨x, hx, -⟩ | ⟨s, hs, -⟩
  · cases hx
  · cases hs

end Apartments.Emails
