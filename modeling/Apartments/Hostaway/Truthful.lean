import Apartments.Hostaway.Client

/-!
# What is recorded of a provider write

A call that has claimed its operation sends the write, reads the stay back if it changes one, and records the end.
The record is truthful when `FAILED` stands only for a write that was never sent or was answered with a status
outside 2xx, and nothing stays `IN_PROGRESS`. `Exchange.settles` names the answers to a write after which it is;
a change must moreover be `confirmed`: once it was accepted, only a stay, a network failure or a server error of
the read is recorded as it should.
-/

namespace Apartments.Hostaway.Client

/-- The answer says that the write was not carried out. -/
def declined : Reply → Bool
  | .response statusCode _ => !(decide (200 ≤ statusCode) && decide (statusCode < 300))
  | _ => false

/-- The status of an operation against the answers to the write. -/
structure Truthful (status : OperationStatus) (answers : List Reply) : Prop where
  failed : status = .failed → ∀ r ∈ answers, declined r = true
  unconfirmed : (∃ r ∈ answers, declined r = false) → status = .unknown ∨ status = .succeeded
  ended : status ≠ .inProgress

/-- The rows after a create call that has claimed the operation: what its answers come to is written. -/
def recordedCreate (rows : Rows) (c : Call) (request : CreateRequest) (now : Time) (r : Except Raised Snapshot) :
    Rows :=
  match createReply r with
  | none => rows
  | some reply =>
    ((transact rows { c with stage := replied c request reply } now false).map (·.1)).getD rows

/-- The board after a change call that has claimed the operation of its request. -/
def recordedChange (b : Board) (c : Changes.Call) (now : Time) (r : Except Raised Snapshot) : Board :=
  match updateReply r with
  | none => b
  | some reply => ((Changes.conclude b { c with stage := Changes.replied c.request reply } now).map (·.1)).getD b

/-- The answers to the create request that is sent. -/
def createAnswers (live built provider : Bool) (write : Exchange) : List Reply :=
  if live && built && provider then write.answers else []

/-- The answers to the update that is sent. -/
def putAnswers (live : Bool) (id : ℕ) (built : Bool) (write : Exchange) : List Reply :=
  if live && decide (id ≠ 0) && built then write.answers else []

/-- A 2xx status. -/
def accepted (statusCode : ℕ) : Bool := decide (200 ≤ statusCode) && decide (statusCode < 300)

/-- The answers to a write after which its record is truthful; `settled` judges the ones that are no errors. -/
def Reply.settles (settled : ℕ → Body → Bool) : Reply → Bool
  | .timeout | .networkError => true
  | .otherError => false
  | .response statusCode body => if 400 ≤ statusCode then statusCode != 404 else settled statusCode body

/-- No token, or an answer that counts and settles the write. -/
def Exchange.settles (settled : ℕ → Body → Bool) (x : Exchange) : Bool :=
  match x.token with
  | some failure => failure != .other
  | none =>
    match x.first with
    | .response 403 _ =>
      match x.refreshed with
      | some failure => failure != .other
      | none => x.second.settles settled
    | reply => reply.settles settled

/-- A create answer of this status and body is read, or was not 2xx and is rejected. -/
def createSettled (statusCode : ℕ) : Body → Bool
  | .reservation _ => true
  | .unreadable | .malformed => !accepted statusCode
  | .invalid | .unparsable => false

/-- The create is recorded as it ended. -/
def createConfirmable (live built provider : Bool) (write : Exchange) : Bool :=
  !live || (built && (!provider || write.settles createSettled))

/-- The read after an update: it gives a stay, or fails in a way that counts as uncertain. -/
def confirmed : Except Raised Snapshot → Bool
  | .ok _ | .error .network | .error .timeout | .error .server => true
  | _ => false

/-- The read after an update raises what no handler names. -/
def escapes : Except Raised Snapshot → Bool
  | .error .notFound | .error .other => true
  | _ => false

/-- An update of this status is read back, or was not 2xx and is rejected. -/
def putSettled (reads : List Exchange) (statusCode : ℕ) (body : Body) : Bool :=
  if body = .unreadable then !accepted statusCode
  else confirmed (getReservation reads) || (!accepted statusCode && !escapes (getReservation reads))

def putConfirmable (live : Bool) (id : ℕ) (built : Bool) (write : Exchange) (reads : List Exchange) : Bool :=
  !live || decide (id = 0) || !built || write.settles (putSettled reads)

/-! ### The answers to a write -/

/-- An exchange ends without a token, every request so far having been declined, or with an answer that counts. -/
theorem Exchange.ends (x : Exchange) :
    (∃ failure : TokenFailure, (x.last = .error failure.raised ∨ x.last = .error failure.refreshRaised) ∧
        (∀ r ∈ x.answers, declined r = true) ∧ ∀ settled, x.settles settled = (failure != .other)) ∨
      ∃ reply, x.last = .ok reply ∧ ((∀ r ∈ x.answers, declined r = true) ↔ declined reply = true) ∧
        ∀ settled, x.settles settled = reply.settles settled := by
  obtain ⟨token, first, refreshed, second⟩ := x
  cases token with
  | some failure => exact .inl ⟨failure, .inl rfl, nofun, fun _ => rfl⟩
  | none =>
    by_cases hf : ∃ body, first = .response 403 body
    · obtain ⟨body, rfl⟩ := hf
      cases refreshed with
      | some failure =>
        refine .inl ⟨failure, .inr rfl, ?_, fun _ => rfl⟩
        intro r hr
        obtain rfl : r = .response 403 body := by simpa [Exchange.answers] using hr
        rfl
      | none => exact .inr ⟨second, rfl, by simp [Exchange.answers, declined], fun _ => rfl⟩
    · have hlast : (⟨none, first, refreshed, second⟩ : Exchange).last = .ok first := by
        unfold Exchange.last
        split
        · cases ‹_›
        · split
          · exact absurd ⟨_, ‹_›⟩ hf
          · rfl
      have hanswers : (⟨none, first, refreshed, second⟩ : Exchange).answers = [first] := by
        unfold Exchange.answers
        split
        · cases ‹_›
        · split
          · exact absurd ⟨_, ‹_›⟩ hf
          · rfl
      refine .inr ⟨first, hlast, by simp [hanswers], fun settled => ?_⟩
      unfold Exchange.settles
      split
      · cases ‹_›
      · split
        · exact absurd ⟨_, ‹_›⟩ hf
        · rfl

theorem raiseForResponse_eq_none {statusCode : ℕ} : raiseForResponse statusCode = none ↔ statusCode < 400 := by
  unfold raiseForResponse
  split_ifs <;> simp <;> omega

/-- The errors of an answer are declined by the provider, but a server error may come after the write. -/
theorem raiseForResponse_eq_some {statusCode : ℕ} {raised : Raised} (h : raiseForResponse statusCode = some raised) :
    400 ≤ statusCode ∧ (raised = .notFound ↔ statusCode = 404) ∧ raised ≠ .value ∧ raised ≠ .other := by
  unfold raiseForResponse at h
  split_ifs at h <;> cases h <;> simp <;> omega

theorem declined_error {statusCode : ℕ} {body : Body} (h : 400 ≤ statusCode) : declined (.response statusCode body) = true := by
  simp only [declined, Bool.not_eq_true', Bool.and_eq_false_iff, decide_eq_false_iff_not]
  omega

theorem declined_response (statusCode : ℕ) (body : Body) : declined (.response statusCode body) = !accepted statusCode := rfl

/-! ### What is recorded -/

/-- The three ends of a write: an exception without a handler, a rejection, and everything that leaves the operation
`UNKNOWN` or `SUCCEEDED`. -/
inductive Ending
  | unhandled | rejected | known
deriving DecidableEq

def createEnding (r : Except Raised Snapshot) : Ending :=
  match createReply r with
  | none => .unhandled
  | some .rejected => .rejected
  | some _ => .known

def updateEnding (r : Except Raised Snapshot) : Ending :=
  match updateReply r with
  | none => .unhandled
  | some .rejected => .rejected
  | some _ => .known

/-- The status that stands after an end, of an operation that was claimed. -/
def Ending.leaves : Ending → OperationStatus → Prop
  | .unhandled, status => status = .inProgress
  | .rejected, status => status = .failed
  | .known, status => status = .unknown ∨ status = .succeeded

theorem Ending.truthful_iff {ending : Ending} {status : OperationStatus} {answers : List Reply}
    (h : ending.leaves status) :
    Truthful status answers ↔ ending = .known ∨ ending = .rejected ∧ ∀ r ∈ answers, declined r = true := by
  cases ending with
  | unhandled =>
    obtain rfl : status = .inProgress := h
    exact ⟨fun ht => absurd rfl ht.ended, by rintro (h | h) <;> simp at h⟩
  | rejected =>
    obtain rfl : status = .failed := h
    constructor
    · exact fun ht => .inr ⟨rfl, ht.failed rfl⟩
    · rintro (h | ⟨-, h⟩)
      · cases h
      · refine ⟨fun _ => h, ?_, nofun⟩
        rintro ⟨r, hr, hd⟩
        rw [h r hr] at hd
        cases hd
  | known =>
    refine ⟨fun _ => .inl rfl, fun _ => ?_⟩
    rcases h with rfl | rfl
    · exact ⟨nofun, fun _ => .inl rfl, nofun⟩
    · exact ⟨nofun, fun _ => .inr rfl, nofun⟩

theorem recordedCreate_leaves {rows : Rows} {o : Operation} (ho : rows.operation = some o) (hs : o.status = .inProgress)
    (c : Call) (request : CreateRequest) (now : Time) (r : Except Raised Snapshot) :
    ∃ o', (recordedCreate rows c request now r).operation = some o' ∧ (createEnding r).leaves o'.status := by
  -- the last transaction of the call writes the operation
  have hwrite : ∀ (reply : CreateReply) (f : Operation → Operation),
      (transact rows { c with stage := replied c request reply } now false).map (·.1.operation) = some (some (f o)) →
      (((transact rows { c with stage := replied c request reply } now false).map (·.1)).getD rows).operation =
        some (f o) := by
    intro reply f h
    cases ht : transact rows { c with stage := replied c request reply } now false with
    | none => rw [ht] at h; cases h
    | some p => rw [ht] at h; exact Option.some.inj h
  unfold recordedCreate createEnding
  cases h : createReply r with
  | none => exact ⟨o, ho, hs⟩
  | some reply =>
    cases reply with
    | uncertain =>
      refine ⟨_, hwrite .uncertain (finishedOperation "hostaway_create_uncertain" .unknown none now) ?_, .inl rfl⟩
      simp [transact, replied, ho]
    | rejected =>
      refine ⟨_, hwrite .rejected (finishedOperation "hostaway_create_rejected" .failed none now) ?_, rfl⟩
      simp [transact, replied, ho]
    | created snapshot =>
      by_cases hm : responseMismatch c.snapshot request snapshot
      · refine ⟨_, hwrite (.created snapshot) (finishedOperation "hostaway_create_response_mismatch" .unknown
          (some snapshot.reservationId) now) ?_, .inl rfl⟩
        simp [transact, replied, ho, hm]
      · refine ⟨_, hwrite (.created snapshot) (succeededRow snapshot now) ?_, .inr rfl⟩
        simp [transact, replied, ho, hm]

theorem recordedChange_leaves {b : Board} {c : Changes.Call} {m : ModificationRequest} {o : Operation}
    (hm : b.request c.request.pk = some m) (ho : m.operation = some o) (hs : o.status = .inProgress) (now : Time)
    (r : Except Raised Snapshot) :
    ∃ m' o', (recordedChange b c now r).request c.request.pk = some m' ∧ m'.operation = some o' ∧
      (updateEnding r).leaves o'.status := by
  -- the last transaction of the call writes the row by `f`, and `f` the operation by `g`
  have hwrite : ∀ (reply : Changes.UpdateReply) (f : ModificationRequest → ModificationRequest) (g : Operation → Operation)
      (rest : Changes.Call) (r' : Reservation),
      Changes.conclude b { c with stage := Changes.replied c.request reply } now =
        some ({ b.modify c.request.pk f with reservation := r' }, rest) →
      (∀ m, (f m).pk = m.pk ∧ (f m).operation = m.operation.map g) →
      ∃ m' o', (((Changes.conclude b { c with stage := Changes.replied c.request reply } now).map (·.1)).getD b).request
        c.request.pk = some m' ∧ m'.operation = some o' ∧ o' = g o := by
    intro reply f g rest r' h hf
    refine ⟨f m, g o, ?_, by rw [(hf m).2, ho]; rfl, rfl⟩
    rw [h]
    refine (Table.get_modify_self fun a ha => (hf a).1.trans ha).trans ?_
    rw [show Table.get _ _ _ = some m from hm]
    rfl
  have hfinish : ∀ (reply : Changes.UpdateReply) (request : RequestStatus) (operation : OperationStatus) (code : String),
      Changes.replied c.request reply = .finishing request operation code →
      ∃ m' o', (((Changes.conclude b { c with stage := Changes.replied c.request reply } now).map (·.1)).getD b).request
        c.request.pk = some m' ∧ m'.operation = some o' ∧ o'.status = operation := by
    intro reply request operation code hr
    obtain ⟨m', o', hm', ho', rfl⟩ := hwrite reply (finishedRequest request operation code now)
      (fun o => { o with status := operation, errorCode := code, completedAt := some now }) _ b.reservation
      (by rw [hr]; simp only [Changes.conclude, hm]; rfl) fun _ => ⟨rfl, rfl⟩
    exact ⟨m', _, hm', ho', rfl⟩
  unfold recordedChange updateEnding
  cases h : updateReply r with
  | none => exact ⟨m, o, hm, ho, hs⟩
  | some reply =>
    cases reply with
    | uncertain =>
      obtain ⟨m', o', hm', ho', hs'⟩ := hfinish .uncertain .unknown .unknown _ rfl
      exact ⟨m', o', hm', ho', .inl hs'⟩
    | rejected => exact hfinish .rejected .failed .failed _ rfl
    | updated snapshot =>
      by_cases hmatch : snapshotMatches c.request snapshot
      · have hr : Changes.replied c.request (.updated snapshot) = .completing snapshot := by simp [Changes.replied, hmatch]
        obtain ⟨m', o', hm', ho', rfl⟩ := hwrite (.updated snapshot) (completedRequest now)
          (fun o => { o with status := .succeeded, completedAt := some now, errorCode := "" }) _
          (changedReservation snapshot now b.reservation)
          (by rw [hr]; simp only [Changes.conclude, hm]; rfl) fun _ => ⟨rfl, rfl⟩
        exact ⟨m', _, hm', ho', .inr rfl⟩
      · have hr : Changes.replied c.request (.updated snapshot) =
            .finishing .unknown .unknown "hostaway_reconciliation_mismatch" := by simp [Changes.replied, hmatch]
        obtain ⟨m', o', hm', ho', hs'⟩ := hfinish (.updated snapshot) .unknown .unknown _ hr
        exact ⟨m', o', hm', ho', .inl hs'⟩

/-! ### When the record is truthful -/

theorem TokenFailure.createEnding_raised (f : TokenFailure) {r : Except Raised Snapshot}
    (h : r = .error f.raised ∨ r = .error f.refreshRaised) :
    createEnding r = .unhandled ↔ f = .other := by
  rcases h with rfl | rfl <;> cases f <;> decide

theorem TokenFailure.updateEnding_raised (f : TokenFailure) {r : Except Raised Snapshot}
    (h : r = .error f.raised ∨ r = .error f.refreshRaised) :
    updateEnding r = .unhandled ↔ f = .other := by
  rcases h with rfl | rfl <;> cases f <;> decide

/-- With every answer declined, only an exception without a handler is recorded wrongly. -/
theorem Ending.sound_iff {ending : Ending} {answers : List Reply} (h : ∀ r ∈ answers, declined r = true) :
    (ending = .known ∨ ending = .rejected ∧ ∀ r ∈ answers, declined r = true) ↔ ending ≠ .unhandled := by
  cases ending <;> simp
  exact h

/-- The end of a write whose counting answer has an error status. -/
theorem ending_of_raiseForResponse {statusCode : ℕ} {raised : Raised} (h : raiseForResponse statusCode = some raised) :
    (createEnding (.error raised) = .unhandled ↔ statusCode = 404) ∧
      (updateEnding (.error raised) = .unhandled ↔ statusCode = 404) := by
  obtain ⟨-, h404, hvalue, hother⟩ := raiseForResponse_eq_some h
  rw [← h404]
  cases raised <;> first | exact absurd rfl hvalue | exact absurd rfl hother | decide

/-- `writeJson` on the answer that counts. -/
theorem writeJson_of_last {x : Exchange} {reply : Reply} (h : x.last = .ok reply) :
    writeJson x = (received reply).bind fun (statusCode, body) =>
      match raiseForResponse statusCode with
      | some raised => .error raised
      | none => json body := by
  rw [writeJson, authenticated, h]
  rfl

theorem writeJson_of_failure {x : Exchange} {raised : Raised} (rest : Body → Except Raised Snapshot)
    (h : x.last = .error raised) : (writeJson x).bind rest = .error raised := by
  rw [writeJson, authenticated, h]
  rfl

theorem createEnding_iff (live built provider : Bool) (write : Exchange) :
    (createEnding (createReservation live built provider write) = .known ∨
        createEnding (createReservation live built provider write) = .rejected ∧
          ∀ r ∈ createAnswers live built provider write, declined r = true) ↔
      createConfirmable live built provider write = true := by
  cases live with
  | false => simp [createReservation, createAnswers, createConfirmable, createEnding, createReply]
  | true =>
  cases built with
  | false => simp [createReservation, createConfirmable, createEnding, createReply]
  | true =>
  cases provider with
  | false => simp [createReservation, createAnswers, createConfirmable, createEnding, createReply]
  | true =>
  show (createEnding ((writeJson write).bind validate) = .known ∨
    createEnding ((writeJson write).bind validate) = .rejected ∧ ∀ r ∈ write.answers, declined r = true) ↔
      write.settles createSettled = true
  rcases write.ends with ⟨failure, hlast, hdeclined, hsettles⟩ | ⟨reply, hlast, hdeclined, hsettles⟩
  · have hraised := hlast.imp (writeJson_of_failure validate) (writeJson_of_failure validate)
    rw [Ending.sound_iff hdeclined, hsettles, ne_eq, failure.createEnding_raised hraised]
    simp
  · rw [hdeclined, hsettles, writeJson_of_last hlast]
    cases reply with
    | timeout | networkError | otherError => simp [received, Except.bind, createEnding, createReply, Reply.settles]
    | response statusCode body =>
      simp only [received, Except.bind, Reply.settles]
      cases hraise : raiseForResponse statusCode with
      | some raised =>
        have h400 := (raiseForResponse_eq_some hraise).1
        have hending := (ending_of_raiseForResponse hraise).1
        simp only [declined_error h400, h400, if_true, and_true]
        cases hend : createEnding (.error raised) <;> simp [hend] at hending ⊢ <;> exact hending
      | none =>
        have h400 := raiseForResponse_eq_none.1 hraise
        rw [if_neg (by omega), declined_response]
        cases body <;> simp [json, validate, createEnding, createReply, createSettled]

theorem updateEnding_iff (live : Bool) (id : ℕ) (built : Bool) (write : Exchange) (reads : List Exchange) :
    (updateEnding (putReservation live id built write reads) = .known ∨
        updateEnding (putReservation live id built write reads) = .rejected ∧
          ∀ r ∈ putAnswers live id built write, declined r = true) ↔
      putConfirmable live id built write reads = true := by
  cases live with
  | false => simp [putReservation, putAnswers, putConfirmable, updateEnding, updateReply]
  | true =>
  by_cases hid : id = 0
  · simp [putReservation, putAnswers, putConfirmable, updateEnding, updateReply, hid]
  cases built with
  | false => simp [putReservation, putAnswers, putConfirmable, updateEnding, updateReply]
  | true =>
  have hput : putReservation true id true write reads = (writeJson write).bind fun _ => getReservation reads := by
    simp [putReservation, hid]
  have hanswers : putAnswers true id true write = write.answers := by simp [putAnswers, hid]
  have hconfirmable : putConfirmable true id true write reads = write.settles (putSettled reads) := by
    simp [putConfirmable, hid]
  rw [hput, hanswers, hconfirmable]
  rcases write.ends with ⟨failure, hlast, hdeclined, hsettles⟩ | ⟨reply, hlast, hdeclined, hsettles⟩
  · have hraised := hlast.imp (writeJson_of_failure fun _ => getReservation reads)
      (writeJson_of_failure fun _ => getReservation reads)
    rw [Ending.sound_iff hdeclined, hsettles, ne_eq, failure.updateEnding_raised hraised]
    simp
  · rw [hdeclined, hsettles, writeJson_of_last hlast]
    cases reply with
    | timeout | networkError | otherError => simp [received, Except.bind, updateEnding, updateReply, Reply.settles]
    | response statusCode body =>
      simp only [received, Except.bind, Reply.settles]
      cases hraise : raiseForResponse statusCode with
      | some raised =>
        have h400 := (raiseForResponse_eq_some hraise).1
        have hending := (ending_of_raiseForResponse hraise).2
        simp only [declined_error h400, h400, if_true, and_true]
        cases hend : updateEnding (.error raised) <;> simp [hend] at hending ⊢ <;> exact hending
      | none =>
        have h400 := raiseForResponse_eq_none.1 hraise
        rw [if_neg (by omega), declined_response]
        by_cases hbody : body = .unreadable
        · simp [hbody, json, updateEnding, updateReply, putSettled]
        · have hjson : json body = .ok body := by cases body <;> first | exact absurd rfl hbody | rfl
          simp only [hjson, putSettled, hbody, if_false]
          -- the write was accepted, and the read decides
          cases getReservation reads with
          | ok snapshot => simp [updateEnding, updateReply, confirmed]
          | error raised => cases raised <;> simp [updateEnding, updateReply, confirmed, escapes]

/-- The live flags that `executeWrite` asks for. -/
def allowed (e : Checks) (m : ModificationRequest) : Bool :=
  if isCancellation m then e.liveCancellation && e.automaticCancellation
  else e.liveModification && (m.requestType != .extendStay || e.liveExtension)

theorem executeWrite_eq (e : Checks) (m : ModificationRequest) (id : ℕ) (built : Bool) (write : Exchange)
    (reads : List Exchange) :
    executeWrite e m id built write reads = putReservation (allowed e m) id (isCancellation m || built) write reads := by
  unfold executeWrite allowed
  cases isCancellation m <;> rfl

def claimedRequest : ModificationRequest :=
  { quotedRequest Changes.stay (Changes.shorter Changes.firstRequest 3 10) with
    status := .processing
    operation := some (claimedRow 12 (newModification Changes.stay)) }

def claimedBoard : Board := ⟨Changes.stay, [claimedRequest]⟩

def claimedCall : Changes.Call := ⟨claimedRequest, Changes.stay, .sent⟩

def answered (statusCode : ℕ) (body : Body) : Exchange := ⟨none, .response statusCode body, none, .timeout⟩

/-- The stay as the provider has changed it. -/
def shortened : Snapshot := ⟨77001, 40161, some 2000, "modified", 100, 103, 2, "SAR", 900, "paid", none⟩

def createdCall : Call := ⟨.paid, paidReservation, .sent ⟨40161, 2000⟩⟩

end Apartments.Hostaway.Client
