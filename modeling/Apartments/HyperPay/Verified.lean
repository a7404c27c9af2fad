import Apartments.HyperPay.Mornings
import Apartments.HyperPay.Gateway

/-!
# What a success rests on

The attempts of bookings and of morning stays with the verifications under way. `verify` and `verify_payment` read the
attempt, ask the provider and write what the document says in one transaction; both halves are actions, so verifications
of any number of attempts interleave. `commits` logs every document that was written over an attempt, with the status it
left.

A verification never touches what identifies the payment (`identity`): merchant transaction id, amount and currency. So
what a document was compared with is what the attempt still says at the end of the run, and a document names one attempt
at most as long as merchant ids are unique (`Distinct`).
-/

namespace Apartments.Verification

open Payments HyperPay

/-- An attempt of either table. -/
inductive Ref
  | payment (pk : Uuid)
  | morning (pk : Uuid)
deriving DecidableEq

/-- A document written over an attempt. -/
structure Commit where
  ref : Ref
  settings : Settings
  document : Document
  left : PaymentStatus
deriving DecidableEq

/-- A call of `verify_payment` that has asked the provider, with the attempt it has read. -/
structure MorningCheck where
  settings : Settings
  attempt : MorningPaymentAttempt
  answered : Bool
deriving DecidableEq

structure Ledger where
  desk : Desk
  checks : List Check
  mornings : List MorningPaymentAttempt
  stays : List MorningStay
  morningChecks : List MorningCheck
  commits : List Commit
deriving DecidableEq

inductive Action
  | opened (attempt : PaymentAttempt)
  | morningOpened (attempt : MorningPaymentAttempt)
  | verify (settings : Settings) (attempt : Uuid)
  | verified (j : ℕ) (answer : Answer) (now : Time)
  | verifyMorning (settings : Settings) (attempt : Uuid)
  | morningVerified (j : ℕ) (answer : Answer) (now : Time)
deriving DecidableEq

/-- What a document is compared with. -/
structure Identity where
  provider : String
  currency : String
  merchantTransactionId : Option String
  amount : Dec
deriving DecidableEq

def identityOf (p : PaymentAttempt) : Identity := ⟨p.provider, p.currency, p.merchantTransactionId, p.amount⟩

namespace Ledger

def morning (w : Ledger) (pk : Uuid) : Option MorningPaymentAttempt := Table.get MorningPaymentAttempt.pk w.mornings pk

/-- The attempt as `_verification_mismatch` sees it. -/
def attempt (w : Ledger) : Ref → Option PaymentAttempt
  | .payment pk => w.desk.payment pk
  | .morning pk => (w.morning pk).map (·.asAttempt)

def identity (w : Ledger) (r : Ref) : Option Identity := (w.attempt r).map identityOf

/-- The merchant ids in use. -/
def merchantIds (w : Ledger) : List String :=
  w.desk.payments.filterMap (·.merchantTransactionId) ++ w.mornings.map (·.merchantTransactionId)

/-- A payment id that an attempt other than this morning's has. -/
def recorded (w : Ledger) (pk : Uuid) (id : String) : Bool :=
  w.mornings.any (fun b => b.pk != pk && b.providerPaymentId == some id) ||
    w.desk.payments.any fun p => p.providerPaymentId == some id

/-- A new attempt has a key and a merchant id of its own, and no status yet. -/
def MayOpen (w : Ledger) (p : PaymentAttempt) : Prop :=
  p.pk ∉ w.desk.payments.map (·.pk) ∧ p.status = .created ∧
    ∃ id ∈ p.merchantTransactionId, id ∉ w.merchantIds

instance (w : Ledger) (p : PaymentAttempt) : Decidable (w.MayOpen p) :=
  decidable_of_iff (p.pk ∉ w.desk.payments.map (·.pk) ∧ p.status = .created ∧
      (p.merchantTransactionId.any fun id => !w.merchantIds.contains id) = true) (by
    unfold MayOpen
    simp [Option.any_eq_true])

/-- The transaction of `_process_verification` on the attempt of a check. -/
def process (w : Ledger) (settings : Settings) (p : PaymentAttempt) (answer : Answer) (now : Time) : Ledger :=
  if !verifiedSuccess p && answer.raises settings p then w
  else
    match processVerification settings p answer.document now w.desk with
    | .error _ => w
    | .ok (d, _) =>
      { w with
        desk := d
        commits :=
          if verifiedSuccess p then w.commits
          else w.commits ++ [⟨.payment p.pk, settings, answer.document, (rewritten settings answer.document now p).status⟩] }

/-- The transaction of `verify_payment`. -/
def processMorning (w : Ledger) (c : MorningCheck) (answer : Answer) (now : Time) : Ledger :=
  match w.morning c.attempt.pk with
  | none => w
  | some a =>
    if a.status = .succeeded then w
    else
      match morningSaved w.mornings (morningWritten c.settings c.attempt answer (w.recorded a.pk) now a) with
      | none => w
      | some saved =>
        { w with
          mornings := Table.modify MorningPaymentAttempt.pk w.mornings a.pk fun _ => saved
          stays := Table.modify MorningStay.pk w.stays a.stay (morningStayAfter saved now)
          commits := w.commits ++ [⟨.morning a.pk, c.settings, answer.document, saved.status⟩] }

def step (w : Ledger) : Action → Ledger
  | .opened p => if w.MayOpen p then { w with desk.payments := w.desk.payments ++ [p] } else w
  | .morningOpened a =>
    if a.pk ∉ w.mornings.map (·.pk) ∧ a.status = .created ∧ a.merchantTransactionId ∉ w.merchantIds then
      { w with mornings := w.mornings ++ [a] }
    else w
  | .verify settings pk =>
    match w.desk.payment pk with
    | none => w
    | some p =>
      if opening p = .ask then { w with checks := w.checks ++ [⟨settings, pk, p.paymentRequest, false⟩] } else w
  | .verified j answer now =>
    match w.checks[j]? with
    | some ⟨settings, pk, paymentRequest, false⟩ =>
      let w' := { w with checks := w.checks.set j ⟨settings, pk, paymentRequest, true⟩ }
      if stillPending paymentRequest answer.document then w'
      else
        match w.desk.payment pk with
        | none => w'
        | some p => w'.process settings p answer now
    | _ => w
  | .verifyMorning settings pk =>
    match w.morning pk with
    | none => w
    | some a =>
      match Table.get MorningStay.pk w.stays a.stay with
      | none => w
      | some stay =>
        if morningOpening settings stay a = .ask then
          { w with morningChecks := w.morningChecks ++ [⟨settings, a, false⟩] }
        else w
  | .morningVerified j answer now =>
    match w.morningChecks[j]? with
    | some ⟨settings, a, false⟩ =>
      let w' := { w with morningChecks := w.morningChecks.set j ⟨settings, a, true⟩ }
      if morningRaises settings a answer then w' else w'.processMorning ⟨settings, a, true⟩ answer now
    | _ => w

end Ledger

/-- Call `j` waits for the document of the attempt. -/
def Ledger.Waits (w : Ledger) (j : ℕ) (settings : Settings) : Ref → Prop
  | .payment pk => ∃ paymentRequest, w.checks[j]? = some ⟨settings, pk, paymentRequest, false⟩
  | .morning pk => ∃ read, w.morningChecks[j]? = some ⟨settings, read, false⟩ ∧ read.pk = pk

/-- The document of call `j` arrives. -/
def arrival (j : ℕ) (answer : Answer) (now : Time) : Ref → Action
  | .payment _ => .verified j answer now
  | .morning _ => .morningVerified j answer now

/-- The attempt is not recorded as a success, the amount can be compared and the attempt can be saved for review: no other
attempt has the payment id of the document, or the stay has no other attempt that counts. -/
def Ledger.Writable (w : Ledger) (answer : Answer) : Ref → Prop
  | .payment pk => answer.signaling = false ∧ (∃ p, w.desk.payment pk = some p ∧ verifiedSuccess p = false) ∧
      ∀ q ∈ w.desk.payments, q.pk ≠ pk → ∀ id ∈ answer.document.id.safeOptionalText 255, q.providerPaymentId ≠ some id
  | .morning pk => answer.signaling = false ∧ ∃ a, w.morning pk = some a ∧ a.status ≠ .succeeded ∧
      ∀ b ∈ w.mornings, b.pk ≠ pk → b.stay = a.stay → unresolved b.status = false

/-! ### Documents -/

/-- The brands that are accepted. -/
def acceptedBrand (settings : Settings) (brand : String) : Bool :=
  settings.allowedBrands.contains brand &&
    !(brand == "APPLEPAY" && settings.environment == "production" && !settings.applePayProductionEnabled)

/-- The document is about this payment: currency, payment type, merchant transaction id, amount, brand and, if present,
entity are those of the attempt. -/
def Agrees (settings : Settings) (i : Identity) (document : Document) : Prop :=
  document.currency = .text i.currency ∧ document.paymentType = .text settings.paymentType ∧
    document.merchantTransactionId = i.merchantTransactionId.elim .null .text ∧ document.amount = .finite i.amount ∧
    (document.entityId = .null ∨ document.entityId = .text settings.entityId) ∧
    ∃ brand, document.paymentBrand = .text brand ∧ acceptedBrand settings brand = true

/-- The code belongs to one of the four classes that are spelled out. -/
def classified (code : String) : Bool :=
  cancelledCodes.contains code || reviewCode code || successCode code || pendingCode code

theorem isText_iff {value : Json} {expected : String} : value.isText expected = true ↔ value = .text expected := by
  simp [Json.isText]

/-- A payment without a payment request has no mismatch exactly when the document agrees. -/
theorem agrees_of_mismatch {settings : Settings} {p : PaymentAttempt} {document : Document}
    (h : verificationMismatch settings p document = "") : Agrees settings (identityOf p) document := by
  unfold verificationMismatch at h
  split_ifs at h with h0 h1 h2 h3 h4 h5 h6 h7 h8
  any_goals exfalso; revert h; decide
  · simp only [Bool.not_eq_true', Bool.not_eq_false] at h1 h2 h7
    refine ⟨isText_iff.1 h1, isText_iff.1 h2, not_not.1 h3, not_not.1 h5, ?_, ?_⟩
    · by_contra hno
      exact h6 (not_or.1 hno)
    · obtain ⟨brand, hb, htext⟩ := List.any_eq_true.1 h7
      have htext := isText_iff.1 htext
      refine ⟨brand, htext, ?_⟩
      simp only [acceptedBrand, Bool.and_eq_true, List.contains_iff_mem, Bool.not_eq_true']
      refine ⟨hb, ?_⟩
      rw [htext] at h8
      simpa [Json.isText] using h8

/-- A document that agrees with a successful code has no mismatch but a missing payment id. -/
theorem mismatch_of_agrees {settings : Settings} {p : PaymentAttempt} {document : Document}
    (h : Agrees settings (identityOf p) document) :
    verificationMismatch settings p document = "" ∨ verificationMismatch settings p document = "payment_id_missing" := by
  obtain ⟨h1, h2, h3, h4, h5, brand, hb, hacc⟩ := h
  simp only [acceptedBrand, Bool.and_eq_true, List.contains_iff_mem, Bool.not_eq_true'] at hacc
  unfold verificationMismatch
  split_ifs with h0 g1 g2 g3 g4 g5 g6 g7 g8
  · exact .inr rfl
  · simp [h1, Json.isText, identityOf] at g1
  · simp [h2, Json.isText] at g2
  · exact absurd h3 g3
  · rw [h4] at g4
    cases g4
  · exact absurd h4 g5
  · rcases h5 with h5 | h5
    · exact absurd h5 g6.1
    · exact absurd h5 g6.2
  · simp only [Bool.not_eq_true', List.any_eq_false, Bool.not_eq_true] at g7
    have := g7 brand hacc.1
    simp [hb, Json.isText] at this
  · simp only [hb, Json.isText, Bool.and_eq_true, beq_iff_eq, Json.text.injEq] at g8
    simp [g8] at hacc
  · exact .inl rfl

theorem mapResultCode_malformed {code : String} (h : validCode code = false) : mapResultCode (.text code) = .unknown := by
  simp [mapResultCode, h]

theorem mapResultCode_unclassified {code : String} (hv : validCode code = true) (h : classified code = false) :
    mapResultCode (.text code) = .failed := by
  simp only [classified, Bool.or_eq_false_iff] at h
  obtain ⟨⟨⟨h1, h2⟩, h3⟩, h4⟩ := h
  have h1 : code ∉ cancelledCodes := by simpa using h1
  simp [mapResultCode, hv, h1, h2, h3, h4]

/-- What a document may do to the attempt it is written over. -/
structure Told (settings : Settings) (i : Identity) (document : Document) (left : PaymentStatus) : Prop where
  success : left = .succeeded → mapResultCode document.code = .success ∧ Agrees settings i document
  review : mapResultCode document.code = .success → ¬ Agrees settings i document → left = .review
  malformed : mapResultCode document.code = .unknown → left = .unknown ∨ left = .review

theorem told_rewritten (settings : Settings) (p : PaymentAttempt) (document : Document) (now : Time) :
    Told settings (identityOf p) document (rewritten settings document now p).status := by
  have hleft : (rewritten settings document now p).status = statusOf (verifiedClass settings p document) := rfl
  rw [hleft]
  unfold verifiedClass
  split_ifs with hm
  · refine ⟨fun h => ⟨?_, agrees_of_mismatch hm⟩, fun _ hno => absurd (agrees_of_mismatch hm) hno, fun h => ?_⟩
    · cases hc : mapResultCode document.code with
      | success => rfl
      | _ => rw [hc] at h; cases h
    · rw [h]
      exact .inl rfl
  · exact ⟨nofun, fun _ _ => rfl, fun _ => .inr rfl⟩

section
variable {settings : Settings} {read a saved : MorningPaymentAttempt} {answer : Answer} {recorded : String → Bool}
  {now : Time} {mornings : List MorningPaymentAttempt}

/-- The attempt that is saved is the one written or one put in review. -/
theorem morningSaved_cases (h : morningSaved mornings a = some saved) : saved = a ∨ saved.status = .review := by
  unfold morningSaved at h
  dsimp only at h
  split at h
  · split at h <;> cases h
    exact .inr rfl
  · cases h
    exact .inl rfl

theorem morningWritten_kept (settings : Settings) (read : MorningPaymentAttempt) (answer : Answer)
    (recorded : String → Bool) (now : Time) (a : MorningPaymentAttempt) :
    (morningWritten settings read answer recorded now a).pk = a.pk ∧
    (morningWritten settings read answer recorded now a).stay = a.stay ∧
    identityOf (morningWritten settings read answer recorded now a).asAttempt = identityOf a.asAttempt := by
  unfold morningWritten
  dsimp only
  split
  · split
    · exact ⟨rfl, rfl, rfl⟩
    · split <;> exact ⟨rfl, rfl, rfl⟩
  · exact ⟨rfl, rfl, rfl⟩

theorem morningSaved_identity (h : morningSaved mornings (morningWritten settings read answer recorded now a) = some saved) :
    saved.pk = a.pk ∧ identityOf saved.asAttempt = identityOf a.asAttempt := by
  obtain ⟨hpk, -, hident⟩ := morningWritten_kept settings read answer recorded now a
  unfold morningSaved at h
  dsimp only at h
  split at h
  · split at h <;> cases h
    exact ⟨hpk, hident⟩
  · cases h
    exact ⟨hpk, hident⟩

/-- If no other attempt of the stay counts, the second save cannot fail. -/
theorem morningSaved_isSome (h : ∀ b ∈ mornings, b.pk ≠ a.pk → b.stay = a.stay → unresolved b.status = false) :
    ∃ saved, morningSaved mornings a = some saved := by
  unfold morningSaved
  dsimp only
  split
  · rw [if_neg]
    · exact ⟨_, rfl⟩
    · simp only [morningConflict, Bool.not_eq_true, List.any_eq_false]
      intro b hb
      by_cases hpk : b.pk = a.pk
      · simp [hpk]
      by_cases hstay : b.stay = a.stay
      · simp [h b hb hpk hstay]
      · simp [hstay]
  · exact ⟨_, rfl⟩

theorem morningWritten_status : (morningWritten settings read answer recorded now a).status = .review ∨
    (morningWritten settings read answer recorded now a).status = statusOf (morningClass settings read answer) := by
  unfold morningWritten
  dsimp only
  split
  · split
    · exact .inl rfl
    · split
      · exact .inl rfl
      · exact .inr rfl
  · exact .inr rfl

theorem told_morning (h : morningSaved mornings (morningWritten settings read answer recorded now a) = some saved) :
    Told settings (identityOf read.asAttempt) answer.document saved.status := by
  have hstatus : saved.status = .review ∨ saved.status = statusOf (morningClass settings read answer) := by
    rcases morningSaved_cases h with rfl | hr
    · exact morningWritten_status
    · exact .inl hr
  have hagrees : mapResultCode answer.document.code = .success → morningMismatch settings read answer = "" →
      Agrees settings (identityOf read.asAttempt) answer.document := by
    intro hc hm
    unfold morningMismatch at hm
    dsimp only at hm
    rw [hc, if_neg (by decide)] at hm
    split at hm
    · exact absurd hm (by decide)
    · exact agrees_of_mismatch hm
  refine ⟨fun hs => ?_, fun hc hno => ?_, fun hc => ?_⟩
  · rcases hstatus with hr | hst
    · rw [hr] at hs
      cases hs
    · rw [hst] at hs
      unfold morningClass at hs
      split_ifs at hs with hm
      · cases hc : mapResultCode answer.document.code with
        | success => exact ⟨rfl, hagrees hc hm⟩
        | _ => rw [hc] at hs; cases hs
      · cases hs
  · rcases hstatus with hr | hst
    · exact hr
    · rw [hst, morningClass, if_neg fun hm => hno (hagrees hc hm)]
      rfl
  · rcases hstatus with hr | hst
    · exact .inr hr
    · rw [hst]
      unfold morningClass
      split_ifs
      · rw [hc]
        exact .inl rfl
      · exact .inr rfl

end

namespace Ledger

variable {w w' w0 : Ledger} {r : Ref} {i : Identity} {p : PaymentAttempt} {a : MorningPaymentAttempt}

/-! ### Attempts -/

theorem identity_of_attempt (h : w.attempt r = some p) : w.identity r = some (identityOf p) := by
  simp [identity, h]

theorem payment_pk {pk : Uuid} (h : w.desk.payment pk = some p) : p.pk = pk := Table.key_of_get h

theorem morning_pk {pk : Uuid} (h : w.morning pk = some a) : a.pk = pk := Table.key_of_get h

/-- An attempt is rewritten: it is found again as `p'`, the others as before. -/
theorem attempt_modifyPayment {f : PaymentAttempt → PaymentAttempt} (hf : ∀ q, (f q).pk = q.pk) (hp : w.desk.payment p.pk = some p)
    (hw : w'.desk.payments = Table.modify PaymentAttempt.pk w.desk.payments p.pk f) (hm : w'.mornings = w.mornings) :
    w'.attempt r = if r = .payment p.pk then some (f p) else w.attempt r := by
  cases r with
  | payment pk =>
    simp only [attempt, Desk.payment, hw, Ref.payment.injEq]
    split_ifs with hpk
    · rw [hpk, Table.get_modify_self fun q hq => (hf q).trans hq]
      show (w.desk.payment p.pk).map f = some (f p)
      rw [hp]
      rfl
    · exact Table.get_modify_ne (fun q hq => (hf q).trans hq) hpk
  | morning pk => simp [attempt, morning, hm]

theorem attempt_modifyMorning {saved : MorningPaymentAttempt} (hpk : saved.pk = a.pk) (ha : w.morning a.pk = some a)
    (hw : w'.mornings = Table.modify MorningPaymentAttempt.pk w.mornings a.pk fun _ => saved)
    (hd : w'.desk.payments = w.desk.payments) :
    w'.attempt r = if r = .morning a.pk then some saved.asAttempt else w.attempt r := by
  cases r with
  | payment pk => simp [attempt, Desk.payment, hd]
  | morning pk =>
    simp only [attempt, morning, hw, Ref.morning.injEq]
    split_ifs with h
    · rw [h, Table.get_modify_self fun _ _ => hpk]
      have ha : Table.get MorningPaymentAttempt.pk w.mornings a.pk = some a := ha
      rw [ha]
      rfl
    · rw [Table.get_modify_ne (fun _ _ => hpk) h]

/-- The merchant id of an attempt is in use. -/
theorem mem_merchantIds {id : String} (h : w.identity r = some i) (hid : i.merchantTransactionId = some id) :
    id ∈ w.merchantIds := by
  obtain ⟨p, hp, rfl⟩ := Option.map_eq_some_iff.1 h
  cases r with
  | payment pk =>
    exact List.mem_append_left _ (List.mem_filterMap.2 ⟨p, Table.mem_of_get hp, hid⟩)
  | morning pk =>
    obtain ⟨a, ha, rfl⟩ := Option.map_eq_some_iff.1 hp
    obtain rfl := Option.some.inj hid
    exact List.mem_append_right _ (List.mem_map_of_mem (Table.mem_of_get ha))

/-! ### Runs -/

/-- Merchant ids name one attempt, and every attempt of HyperPay has one: they are drawn at random, and each table keeps
its own unique. -/
structure Distinct (w : Ledger) : Prop where
  named : ∀ r i, w.identity r = some i → i.provider = hyperpayProvider → i.merchantTransactionId.isSome
  unique : ∀ r r' i i' id, w.identity r = some i → w.identity r' = some i' → i.merchantTransactionId = some id →
    i'.merchantTransactionId = some id → r = r'

/-- What every run keeps, from a ledger `w0` on. -/
structure Honest (w0 w : Ledger) : Prop where
  distinct : Distinct w
  checks : ∀ c ∈ w.checks, ∃ i, w.identity (.payment c.attempt) = some i ∧ i.merchantTransactionId.isSome
  mornings : ∀ c ∈ w.morningChecks, w.identity (.morning c.attempt.pk) = some (identityOf c.attempt.asAttempt)
  commits : ∀ c ∈ w.commits, ∃ i, w.identity c.ref = some i ∧ i.merchantTransactionId.isSome ∧
    Told c.settings i c.document c.left
  traced : ∀ r p, w.attempt r = some p → p.status = .succeeded →
    (∃ p0, w0.attempt r = some p0 ∧ p0.status = .succeeded) ∨ ∃ c ∈ w.commits, c.ref = r ∧ c.left = .succeeded

/-- The identities stay what they are. -/
theorem Distinct.congr (h : Distinct w) (hid : ∀ r, w'.identity r = w.identity r) : Distinct w' := by
  refine ⟨fun r i hi => h.named r i ?_, fun r r' i i' id hi hi' => h.unique r r' i i' id ?_ ?_⟩
  · rw [← hid r, hi]
  · rw [← hid r, hi]
  · rw [← hid r', hi']

/-- Only the calls under way change, or calls are added that fit. -/
theorem Honest.calls (h : Honest w0 w) {checks : List Check} {morningChecks : List MorningCheck}
    (hc : ∀ c ∈ checks, ∃ i, w.identity (.payment c.attempt) = some i ∧ i.merchantTransactionId.isSome)
    (hm : ∀ c ∈ morningChecks, w.identity (.morning c.attempt.pk) = some (identityOf c.attempt.asAttempt)) :
    Honest w0 { w with checks, morningChecks } :=
  ⟨h.distinct.congr fun _ => rfl, hc, hm, h.commits, h.traced⟩

/-- One attempt is rewritten from a document and keeps its identity. -/
theorem Honest.write (h : Honest w0 w) {q : PaymentAttempt} (settings : Settings) (document : Document)
    (hp : w.attempt r = some p) (hw : ∀ r', w'.attempt r' = if r' = r then some q else w.attempt r')
    (hq : identityOf q = identityOf p) (hsome : p.merchantTransactionId.isSome)
    (htold : Told settings (identityOf p) document q.status) (hchecks : w'.checks = w.checks)
    (hmornings : w'.morningChecks = w.morningChecks)
    (hcommits : w'.commits = w.commits ++ [⟨r, settings, document, q.status⟩]) : Honest w0 w' := by
  have hid : ∀ r', w'.identity r' = w.identity r' := by
    intro r'
    unfold identity
    rw [hw]
    split_ifs with hr
    · rw [hr, hp]
      exact congrArg some hq
    · rfl
  refine ⟨h.distinct.congr hid, ?_, ?_, ?_, fun r' p' hp' hs => ?_⟩
  · simpa only [hchecks, hid] using h.checks
  · simpa only [hmornings, hid] using h.mornings
  · intro c hc
    rw [hcommits] at hc
    rcases List.mem_append.1 hc with hc | hc
    · simpa only [hid] using h.commits c hc
    · obtain rfl := List.mem_singleton.1 hc
      exact ⟨identityOf p, by rw [hid, identity_of_attempt hp], hsome, htold⟩
  · rw [hw] at hp'
    rw [hcommits]
    split_ifs at hp' with hr
    · obtain rfl := Option.some.inj hp'
      exact .inr ⟨⟨r, settings, document, q.status⟩, by simp, hr.symm, hs⟩
    · rcases h.traced r' p' hp' hs with h0 | ⟨c, hc, h1, h2⟩
      · exact .inl h0
      · exact .inr ⟨c, List.mem_append_left _ hc, h1, h2⟩

/-- A new attempt with a merchant id of its own. -/
theorem Honest.add (h : Honest w0 w) {q : PaymentAttempt} (id : String)
    (hw : ∀ r', w'.attempt r' = (w.attempt r').or (if r' = r then some q else none))
    (hid : q.merchantTransactionId = some id) (hfree : id ∉ w.merchantIds) (hstatus : q.status = .created)
    (hchecks : w'.checks = w.checks) (hmornings : w'.morningChecks = w.morningChecks)
    (hcommits : w'.commits = w.commits) : Honest w0 w' := by
  have hold : ∀ {r' i}, w.identity r' = some i → w'.identity r' = some i := by
    intro r' i hi
    obtain ⟨p, hp, rfl⟩ := Option.map_eq_some_iff.1 hi
    exact identity_of_attempt (by rw [hw, hp, Option.some_or])
  have hnew : ∀ {r' p}, w'.attempt r' = some p → w.attempt r' = some p ∨ r' = r ∧ p = q := by
    intro r' p hp
    rw [hw] at hp
    rcases Option.or_eq_some_iff.1 hp with hp | ⟨-, hp⟩
    · exact .inl hp
    · split_ifs at hp with hr
      exact .inr ⟨hr, (Option.some.inj hp).symm⟩
  have hident : ∀ {r' i}, w'.identity r' = some i → w.identity r' = some i ∨ r' = r ∧ i = identityOf q := by
    intro r' i hi
    obtain ⟨p, hp, rfl⟩ := Option.map_eq_some_iff.1 hi
    rcases hnew hp with hp | ⟨hr, rfl⟩
    · exact .inl (identity_of_attempt hp)
    · exact .inr ⟨hr, rfl⟩
  have hmine : (identityOf q).merchantTransactionId = some id := hid
  refine ⟨⟨fun r' i hi hprov => ?_, fun r' r'' i i' m hi hi' hm hm' => ?_⟩, fun c hc => ?_, fun c hc => ?_, fun c hc => ?_,
    fun r' p hp hs => ?_⟩
  · rcases hident hi with hi | ⟨-, rfl⟩
    · exact h.distinct.named r' i hi hprov
    · simp [hmine]
  · rcases hident hi with hi | ⟨hr, rfl⟩ <;> rcases hident hi' with hi' | ⟨hr', rfl⟩
    · exact h.distinct.unique r' r'' i i' m hi hi' hm hm'
    · obtain rfl := Option.some.inj (hmine.symm.trans hm')
      exact absurd (mem_merchantIds hi hm) hfree
    · obtain rfl := Option.some.inj (hmine.symm.trans hm)
      exact absurd (mem_merchantIds hi' hm') hfree
    · rw [hr, hr']
  · rw [hchecks] at hc
    obtain ⟨i, hi, hsome⟩ := h.checks c hc
    exact ⟨i, hold hi, hsome⟩
  · rw [hmornings] at hc
    exact hold (h.mornings c hc)
  · rw [hcommits] at hc
    obtain ⟨i, hi, hrest⟩ := h.commits c hc
    exact ⟨i, hold hi, hrest⟩
  · rw [hcommits]
    rcases hnew hp with hp | ⟨-, rfl⟩
    · exact h.traced r' p hp hs
    · rw [hstatus] at hs
      cases hs

theorem Honest.process (h : Honest w0 w) {settings : Settings} {answer : Answer} {now : Time}
    (hp : w.desk.payment p.pk = some p) (hsome : p.merchantTransactionId.isSome) :
    Honest w0 (w.process settings p answer now) := by
  unfold Ledger.process
  split
  · exact h
  split
  · exact h
  rename_i d done hd
  rcases processVerification_ok hd with ⟨hv, rfl⟩ | ⟨hv, -, rfl⟩
  · simp only [hv, if_true]
    exact h
  · have hattempt : w.attempt (.payment p.pk) = some p := hp
    exact h.write (q := rewritten settings answer.document now p) settings answer.document hattempt
      (fun r' => attempt_modifyPayment (f := rewritten settings answer.document now) (fun _ => rfl) hp rfl rfl) rfl hsome
      (told_rewritten settings p answer.document now) rfl rfl (by simp [hv])

theorem Honest.processMorning (h : Honest w0 w) {c : MorningCheck} {answer : Answer} {now : Time}
    (hc : w.identity (.morning c.attempt.pk) = some (identityOf c.attempt.asAttempt)) :
    Honest w0 (w.processMorning c answer now) := by
  unfold Ledger.processMorning
  split
  · exact h
  rename_i a ha
  split
  · exact h
  split
  · exact h
  rename_i saved hsaved
  obtain ⟨hpk, hident⟩ := morningSaved_identity hsaved
  have hkey : a.pk = c.attempt.pk := morning_pk ha
  have hattempt : w.attempt (.morning a.pk) = some a.asAttempt := by
    simp only [attempt, hkey, ha, Option.map_some]
  have hsame : identityOf c.attempt.asAttempt = identityOf a.asAttempt := by
    rw [← hkey, identity_of_attempt hattempt] at hc
    exact (Option.some.inj hc).symm
  refine h.write (q := saved.asAttempt) c.settings answer.document hattempt
    (fun r' => attempt_modifyMorning hpk (by rwa [hkey]) rfl rfl) hident rfl ?_ rfl rfl rfl
  rw [← hsame]
  exact told_morning hsaved

theorem Honest.step (h : Honest w0 w) (act : Action) : Honest w0 (w.step act) := by
  cases act with
  | opened q =>
    simp only [Ledger.step]
    split
    · rename_i hmay
      obtain ⟨hpk, hstatus, id, hid, hfree⟩ := hmay
      refine h.add (r := .payment q.pk) (q := q) id (fun r' => ?_) hid hfree hstatus rfl rfl rfl
      cases r' with
      | payment pk =>
        simp only [attempt, Desk.payment, Table.get_append, Ref.payment.injEq]
        congr 1
        by_cases hk : pk = q.pk
        · simp [Table.get, hk]
        · simp [Table.get, hk, Ne.symm hk]
      | morning pk => simp [attempt, morning]
    · exact h
  | morningOpened b =>
    simp only [Ledger.step]
    split
    · rename_i hmay
      obtain ⟨hpk, hstatus, hfree⟩ := hmay
      refine h.add (r := .morning b.pk) (q := b.asAttempt) b.merchantTransactionId (fun r' => ?_) rfl hfree hstatus
        rfl rfl rfl
      cases r' with
      | payment pk => simp [attempt]
      | morning pk =>
        simp only [attempt, morning, Table.get_append, Ref.morning.injEq]
        by_cases hk : pk = b.pk
        · cases Table.get MorningPaymentAttempt.pk w.mornings pk <;> simp [Table.get, hk]
        · cases Table.get MorningPaymentAttempt.pk w.mornings pk <;> simp [Table.get, hk, Ne.symm hk]
    · exact h
  | verify settings pk =>
    simp only [Ledger.step]
    split
    · exact h
    rename_i q hq
    split
    · rename_i hask
      refine h.calls (fun c hc => ?_) h.mornings
      rcases List.mem_append.1 hc with hc | hc
      · exact h.checks c hc
      · obtain rfl := List.mem_singleton.1 hc
        have hident : w.identity (.payment pk) = some (identityOf q) := identity_of_attempt hq
        have hprov : q.provider = hyperpayProvider := by
          by_contra hne
          simp [opening, hne] at hask
        exact ⟨_, hident, h.distinct.named _ _ hident hprov⟩
    · exact h
  | verified j answer now =>
    simp only [Ledger.step]
    split
    · rename_i settings pk paymentRequest hj
      have hcheck := h.checks _ (List.mem_of_getElem? hj)
      have hset : Honest w0 { w with checks := w.checks.set j ⟨settings, pk, paymentRequest, true⟩ } := by
        refine h.calls (fun c hc => ?_) h.mornings
        rcases List.mem_or_eq_of_mem_set hc with hc | rfl
        · exact h.checks c hc
        · exact hcheck
      split
      · exact hset
      split
      · exact hset
      rename_i q hq
      obtain ⟨i, hi, hsome⟩ := hcheck
      have hident : w.identity (.payment pk) = some (identityOf q) := identity_of_attempt hq
      obtain rfl := Option.some.inj (hident.symm.trans hi)
      obtain rfl := payment_pk hq
      exact hset.process hq hsome
    · exact h
  | verifyMorning settings pk =>
    simp only [Ledger.step]
    split
    · exact h
    rename_i b hb
    split
    · exact h
    split
    · refine h.calls h.checks fun c hc => ?_
      rcases List.mem_append.1 hc with hc | hc
      · exact h.mornings c hc
      · obtain rfl := List.mem_singleton.1 hc
        refine identity_of_attempt ?_
        simp only [attempt, morning_pk hb, hb, Option.map_some]
    · exact h
  | morningVerified j answer now =>
    simp only [Ledger.step]
    split
    · rename_i settings b hj
      have hcheck := h.mornings _ (List.mem_of_getElem? hj)
      have hset : Honest w0 { w with morningChecks := w.morningChecks.set j ⟨settings, b, true⟩ } := by
        refine h.calls h.checks fun c hc => ?_
        rcases List.mem_or_eq_of_mem_set hc with hc | rfl
        · exact h.mornings c hc
        · exact hcheck
      split
      · exact hset
      · exact hset.processMorning hcheck
    · exact h

/-- Nothing keeps the transaction from writing the document over the attempt. -/
theorem attempt_process {settings : Settings} {answer : Answer} {now : Time} (hp : w.desk.payment p.pk = some p)
    (hv : verifiedSuccess p = false) (hsig : answer.signaling = false)
    (htaken : idTaken w.desk (rewritten settings answer.document now p) = false) :
    (w.process settings p answer now).attempt (.payment p.pk) = some (rewritten settings answer.document now p) := by
  have hprocess : processVerification settings p answer.document now w.desk =
      .ok (w.desk.modifyPayment p.pk (rewritten settings answer.document now),
        if verifiedClass settings p answer.document = .success then
          some (completion (rewritten settings answer.document now p)) else none) := by
    unfold processVerification
    rw [if_neg (by simp [hv])]
    dsimp only
    rw [if_neg (by simp [htaken])]
    split <;> rfl
  unfold Ledger.process
  rw [if_neg (by simp [Answer.raises, hsig]), hprocess]
  dsimp only
  refine (attempt_modifyPayment (w := w) (f := rewritten settings answer.document now) (fun _ => rfl) hp ?_ ?_).trans
    (if_pos rfl)
  · rfl
  · rfl

theorem attempt_processMorning {c : MorningCheck} {answer : Answer} {now : Time} {saved : MorningPaymentAttempt}
    (ha : w.morning c.attempt.pk = some a) (hs : a.status ≠ .succeeded)
    (hsaved : morningSaved w.mornings (morningWritten c.settings c.attempt answer (w.recorded a.pk) now a) = some saved) :
    (w.processMorning c answer now).attempt (.morning a.pk) = some saved.asAttempt := by
  have hkey : a.pk = c.attempt.pk := morning_pk ha
  unfold Ledger.processMorning
  rw [ha]
  dsimp only
  rw [if_neg hs, hsaved]
  dsimp only
  refine (attempt_modifyMorning (w := w) (morningSaved_identity hsaved).1 (by rwa [hkey]) ?_ ?_).trans (if_pos rfl)
  · rfl
  · rfl

/-- A successful document that disagrees puts an attempt it can be written over in review. -/
theorem Honest.reviewed (h : Honest w0 w) {j : ℕ} {settings : Settings} {answer : Answer} (now : Time)
    (hwait : w.Waits j settings r) (hwrite : w.Writable answer r) (hi : w.identity r = some i)
    (hcode : mapResultCode answer.document.code = .success) (hno : ¬ Agrees settings i answer.document) :
    ∃ p, (w.step (arrival j answer now r)).attempt r = some p ∧ p.status = .review := by
  cases r with
  | payment pk =>
    obtain ⟨paymentRequest, hj⟩ := hwait
    obtain ⟨hsig, ⟨p, hp, hv⟩, hfree⟩ := hwrite
    obtain rfl := payment_pk hp
    have hattempt : w.attempt (.payment p.pk) = some p := hp
    obtain rfl := Option.some.inj ((identity_of_attempt hattempt).symm.trans hi)
    have hpending : stillPending paymentRequest answer.document = false := by
      cases hr : answer.document.result with
      | none => simp [stillPending, hr]
      | some result =>
        have : mapResultCode result.code = .success := by simpa [Document.code, hr] using hcode
        simp [stillPending, hr, this]
    have htaken : idTaken w.desk (rewritten settings answer.document now p) = false := by
      simp only [idTaken, Bool.and_eq_false_iff, List.any_eq_false]
      cases hid : answer.document.id.safeOptionalText 255 with
      | none => exact .inl (by simp [rewritten, hid])
      | some id =>
        refine .inr fun q hq hboth => ?_
        simp only [rewritten, hid, Bool.and_eq_true, bne_iff_ne, ne_eq, beq_iff_eq] at hboth
        exact hfree q hq hboth.1 id hid hboth.2
    have hstep : (w.step (.verified j answer now)).attempt (.payment p.pk) =
        some (rewritten settings answer.document now p) := by
      simp only [Ledger.step, hj, hpending, Bool.false_eq_true, if_false, hp]
      exact attempt_process (w := { w with checks := w.checks.set j ⟨settings, p.pk, paymentRequest, true⟩ }) hp hv hsig htaken
    exact ⟨_, hstep, (told_rewritten settings p answer.document now).review hcode hno⟩
  | morning pk =>
    obtain ⟨read, hj, rfl⟩ := hwait
    obtain ⟨hsig, a, ha, hs, hfree⟩ := hwrite
    obtain rfl := Option.some.inj ((h.mornings _ (List.mem_of_getElem? hj)).symm.trans hi)
    have hkey : a.pk = read.pk := morning_pk ha
    obtain ⟨hpk, hstay, -⟩ := morningWritten_kept settings read answer (w.recorded a.pk) now a
    obtain ⟨saved, hsaved⟩ : ∃ saved,
        morningSaved w.mornings (morningWritten settings read answer (w.recorded a.pk) now a) = some saved := by
      refine morningSaved_isSome fun b hb hne hst => ?_
      rw [hpk, hkey] at hne
      exact hfree b hb hne (hst.trans hstay)
    have hraises : morningRaises settings read answer = false := by simp [morningRaises, Answer.raises, hsig]
    have hstep : (w.step (.morningVerified j answer now)).attempt (.morning read.pk) = some saved.asAttempt := by
      simp only [Ledger.step, hj, hraises, Bool.false_eq_true, if_false]
      rw [← hkey]
      exact attempt_processMorning (w := { w with morningChecks := w.morningChecks.set j ⟨settings, read, true⟩ })
        (c := ⟨settings, read, true⟩) ha hs hsaved
    exact ⟨_, hstep, (told_morning hsaved).review hcode hno⟩

/-- No verification has begun. -/
structure Idle (w : Ledger) : Prop where
  distinct : Distinct w
  checks : w.checks = []
  morningChecks : w.morningChecks = []
  commits : w.commits = []

theorem Idle.honest (h : Idle w) : Honest w w := by
  obtain ⟨hd, h1, h2, h3⟩ := h
  refine ⟨hd, by simp [h1], by simp [h2], by simp [h3], fun r p hp hs => .inl ⟨p, hp, hs⟩⟩

end Ledger

def waitingCard : PaymentAttempt := { cardPayment with status := .pending, providerPaymentId := none, verifiedAt := none }

def waitingLedger : Ledger := ⟨⟨some bookingPk, none, [waitingCard], []⟩, [], [], [], [], []⟩

theorem waitingLedger_idle : waitingLedger.Idle := by
  have hcard : ∀ r i, waitingLedger.identity r = some i → r = .payment paymentPk ∧ i = identityOf waitingCard := by
    intro r i hi
    obtain ⟨p, hp, rfl⟩ := Option.map_eq_some_iff.1 hi
    cases r with
    | payment pk =>
      obtain rfl := List.mem_singleton.1 (Table.mem_of_get hp)
      exact ⟨congrArg Ref.payment (Ledger.payment_pk hp).symm, rfl⟩
    | morning pk => cases hp
  refine ⟨⟨fun r i hi _ => ?_, fun r r' i i' _ hi hi' _ _ => ?_⟩, rfl, rfl, rfl⟩
  · rw [(hcard r i hi).2]
    rfl
  · rw [(hcard r i hi).1, (hcard r' i' hi').1]

/-- The document is asked for, and it arrives. -/
def told (document : Document) : List Action := [.verify liveSettings paymentPk, .verified 0 ⟨document, false, false⟩ 2]

/-- Two verifications wait for the same payment; the second document has another amount. -/
def toldTwice : List Action :=
  [.verify liveSettings paymentPk, .verify liveSettings paymentPk,
   .verified 0 ⟨answerDocument "000.000.000", false, false⟩ 2,
   .verified 1 ⟨{ answerDocument "000.000.000" with amount := .finite 90 }, false, false⟩ 3]

end Apartments.Verification
