import Apartments.HyperPay.Service
import Apartments.Lib.Run

/-!
# The gateway of one reservation as a machine

`Gateway` is the desk of a reservation with the calls that are under way: refunds that `submit` has
recorded, verifications that wait for a document, and the list of completions that verified payments went
on to. Each action is one transaction or one network event of a call, so a list of actions is an
interleaving of any number of calls; a call that crashes takes no further action.

`Move` says once what an action can do. `InFlight` is what every run keeps: a refund whose request may
still be answered is `PROCESSING`, carries the provider id it was submitted against, and no other open call
is about it.
-/

namespace Apartments.HyperPay

open Payments

/-- How far a refund call is. -/
inductive Phase
  | prepared
  | sent
  | answered (reply : Reply)
  | notSent
deriving DecidableEq

structure Call where
  submission : Submission
  phase : Phase
deriving DecidableEq

namespace Call

/-- The call may still write its outcome. -/
def isOpen (c : Call) : Prop := c.phase = .prepared ∨ c.phase = .sent

instance (c : Call) : Decidable c.isOpen := inferInstanceAs (Decidable (_ ∨ _))

def refundId (c : Call) : Uuid := c.submission.refund.pk

end Call

/-- A call of `verify` that has asked the provider. -/
structure Check where
  settings : Settings
  attempt : Uuid
  paymentRequest : Option Uuid
  answered : Bool
deriving DecidableEq

structure Gateway where
  desk : Desk
  calls : List Call
  checks : List Check
  completions : List Completion
deriving DecidableEq

inductive Action
  | submit (settings : Settings) (refundId : Uuid) (now : Time)
  | send (i : ℕ) (now : Time)
  | answer (i : ℕ) (reply : Reply) (operator : Option ℕ) (now : Time)
  | record (obligation : RefundObligation)
  | verify (settings : Settings) (attemptId : Uuid)
  | verified (j : ℕ) (document : Document) (now : Time)
deriving DecidableEq

/-- A new refund obligation of the reservation. -/
def Recordable (d : Desk) (o : RefundObligation) : Prop :=
  o.pk ∉ d.obligations.map (·.pk) ∧ o.status = .due ∧ o.calculation.hyperpayRefund = none

instance (d : Desk) (o : RefundObligation) : Decidable (Recordable d o) := inferInstanceAs (Decidable (_ ∧ _))

namespace Gateway

/-- One transaction or network event. -/
def step (g : Gateway) : Action → Gateway
  | .submit settings refundId now =>
    match HyperPay.submit settings refundId now g.desk with
    | .error _ => g
    | .ok (d, s) => { g with desk := d, calls := g.calls ++ [⟨s, .prepared⟩] }
  | .send i now =>
    match g.calls[i]? with
    | some ⟨s, .prepared⟩ =>
      if clientConfigured s.settings then { g with calls := g.calls.set i ⟨s, .sent⟩ }
      else
        { g with
          desk := restoreDue s.refund.pk configurationError.code now g.desk
          calls := g.calls.set i ⟨s, .notSent⟩ }
    | _ => g
  | .answer i reply operator now =>
    match g.calls[i]? with
    | some ⟨s, .sent⟩ =>
      { g with desk := (settle s reply operator now g.desk).1, calls := g.calls.set i ⟨s, .answered reply⟩ }
    | _ => g
  | .record o => if Recordable g.desk o then { g with desk.obligations := g.desk.obligations ++ [o] } else g
  | .verify settings attemptId =>
    match g.desk.payment attemptId with
    | none => g
    | some attempt =>
      match opening attempt with
      | .complete c => { g with completions := g.completions ++ [c] }
      | .ask => { g with checks := g.checks ++ [⟨settings, attemptId, attempt.paymentRequest, false⟩] }
      | .refused _ | .review => g
  | .verified j document now =>
    match g.checks[j]? with
    | some ⟨settings, attemptId, paymentRequest, false⟩ =>
      let g' := { g with checks := g.checks.set j ⟨settings, attemptId, paymentRequest, true⟩ }
      if stillPending paymentRequest document then g'
      else
        match g.desk.payment attemptId with
        | none => g'
        | some attempt =>
          match processVerification settings attempt document now g.desk with
          | .error _ => g'
          | .ok (d, done) => { g' with desk := d, completions := g.completions ++ done.toList }
    | _ => g

/-- What an action can do to a gateway. -/
inductive Move (g : Gateway) : Action → Gateway → Prop
  | stay {a} : Move g a g
  | submitted {settings refundId now o p amount} :
      prepare g.desk refundId = .ok (o, p) → formatHyperpayAmount settings o.amount = some amount →
      Move g (.submit settings refundId now)
        { g with
          desk := recordSubmission now o p g.desk
          calls := g.calls ++ [⟨⟨settings, o, p, amount⟩, .prepared⟩] }
  | sent {i now s} : g.calls[i]? = some ⟨s, .prepared⟩ →
      Move g (.send i now) { g with calls := g.calls.set i ⟨s, .sent⟩ }
  | unsent {i now s} : g.calls[i]? = some ⟨s, .prepared⟩ →
      Move g (.send i now)
        { g with
          desk := restoreDue s.refund.pk configurationError.code now g.desk
          calls := g.calls.set i ⟨s, .notSent⟩ }
  | answered {i reply operator now s} : g.calls[i]? = some ⟨s, .sent⟩ →
      Move g (.answer i reply operator now)
        { g with desk := (settle s reply operator now g.desk).1, calls := g.calls.set i ⟨s, .answered reply⟩ }
  | recorded {o} : Recordable g.desk o →
      Move g (.record o) { g with desk.obligations := g.desk.obligations ++ [o] }
  | completed {settings attemptId p} : g.desk.payment attemptId = some p → opening p = .complete (completion p) →
      Move g (.verify settings attemptId) { g with completions := g.completions ++ [completion p] }
  | asked {settings attemptId p} : g.desk.payment attemptId = some p → opening p = .ask →
      Move g (.verify settings attemptId)
        { g with checks := g.checks ++ [⟨settings, attemptId, p.paymentRequest, false⟩] }
  | dropped {j document now check} :
      Move g (.verified j document now) { g with checks := g.checks.set j check }
  | processed {j document now settings attemptId paymentRequest p d done} :
      g.checks[j]? = some ⟨settings, attemptId, paymentRequest, false⟩ → stillPending paymentRequest document = false →
      g.desk.payment attemptId = some p → processVerification settings p document now g.desk = .ok (d, done) →
      Move g (.verified j document now)
        { g with
          desk := d
          checks := g.checks.set j ⟨settings, attemptId, paymentRequest, true⟩
          completions := g.completions ++ done.toList }

end Gateway

theorem submit_eq_ok {settings : Settings} {refundId : Uuid} {now : Time} {d d' : Desk} {s : Submission}
    (h : submit settings refundId now d = .ok (d', s)) :
    ∃ o p amount, prepare d refundId = .ok (o, p) ∧ formatHyperpayAmount settings o.amount = some amount ∧
      d' = recordSubmission now o p d ∧ s = ⟨settings, o, p, amount⟩ := by
  unfold submit at h
  split at h
  · cases h
  split at h
  · cases h
  rename_i o p hp
  split at h
  · cases h
  rename_i amount ha
  cases h
  exact ⟨o, p, amount, hp, ha, rfl, rfl⟩

theorem opening_complete {p : PaymentAttempt} {c : Completion} (h : opening p = .complete c) :
    c = completion p ∧ verifiedSuccess p = true := by
  unfold opening at h
  split at h
  · cases h
  split at h
  · cases h; exact ⟨rfl, by assumption⟩
  split at h <;> cases h

namespace Gateway

theorem step_move (g : Gateway) (a : Action) : Move g a (step g a) := by
  cases a with
  | submit settings refundId now =>
    simp only [step]
    split
    · exact .stay
    · rename_i d s h
      obtain ⟨o, p, amount, hp, ha, rfl, rfl⟩ := submit_eq_ok h
      exact .submitted hp ha
  | send i now =>
    simp only [step]
    split
    · split
      · exact .sent (by assumption)
      · exact .unsent (by assumption)
    · exact .stay
  | answer i reply operator now =>
    simp only [step]
    split
    · exact .answered (by assumption)
    · exact .stay
  | record o =>
    simp only [step]
    split
    · exact .recorded (by assumption)
    · exact .stay
  | verify settings attemptId =>
    simp only [step]
    split
    · exact .stay
    · rename_i p hp
      split
      · rename_i c hc
        obtain rfl := (opening_complete hc).1
        exact .completed hp hc
      · exact .asked hp (by assumption)
      all_goals exact .stay
  | verified j document now =>
    simp only [step]
    split
    · rename_i hj
      split
      · exact .dropped
      · rename_i hpend
        split
        · exact .dropped
        · rename_i p hp
          split
          · exact .dropped
          · rename_i d done hd
            exact .processed hj (by simpa using hpend) hp hd
    · exact .stay

end Gateway

/-! ### A paid booking

A reservation whose booking of 100 SAR was paid by card, with one refund of 100 due, under live settings. -/

def liveSettings : Settings where
  enabled := true
  refundsEnabled := true
  refundsProductionEnabled := true
  applePayProductionEnabled := false
  environment := "production"
  entityId := "8ac7a4c9"
  accessToken := "token"
  paymentType := "DB"
  allowedBrands := ["MADA", "VISA", "MASTER"]

def bookingPk : Uuid := ⟨"5b0e7c1a-1f60-4f0e-9a51-0d5d7c2f1a01", rfl⟩

def paymentPk : Uuid := ⟨"5b0e7c1a-1f60-4f0e-9a51-0d5d7c2f1a02", rfl⟩

def refundPk : Uuid := ⟨"5b0e7c1a-1f60-4f0e-9a51-0d5d7c2f1a03", rfl⟩

def cardPayment : PaymentAttempt where
  pk := paymentPk
  bookingIntent := bookingPk
  paymentRequest := none
  modificationRequest := none
  provider := "hyperpay"
  providerCheckoutId := some "checkout-1"
  providerPaymentId := some "8ac7a4a1"
  merchantTransactionId := some "LSA-1"
  providerResultCode := "000.000.000"
  providerResultDescription := "Transaction succeeded"
  amount := 100
  currency := "SAR"
  status := .succeeded
  failureCode := ""
  paymentBrand := "VISA"
  verifiedAt := some 1
  createdAt := 0

def dueRefund : RefundObligation where
  pk := refundPk
  modificationRequest := none
  reason := .cancellation
  status := .due
  amount := 100
  currency := "SAR"
  calculation := .empty
  transferReference := ""
  transferredAt := none
  transferredBy := none

def paidBooking : Gateway := ⟨⟨some bookingPk, none, [cardPayment], [dueRefund]⟩, [], [], []⟩

/-- A document of the card payment with the given result code. -/
def answerDocument (code : String) : Document where
  result := some ⟨.text code, .text "Result"⟩
  id := .text "8ac7a4a1"
  currency := .text "SAR"
  paymentType := .text "DB"
  merchantTransactionId := .text "LSA-1"
  amount := .finite 100
  entityId := .null
  paymentBrand := .text "VISA"

end Apartments.HyperPay
