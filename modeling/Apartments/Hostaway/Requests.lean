import Apartments.Hostaway.ChangeRequests

/-!
# What becomes of each request

`World.step` reads and writes single rows through the lookups of its transactions. Here the same step is one map over
the table: `rewritten` is what an action makes of a request, `added` the requests that it makes. What an action can do
to a status is then read off `rewritten`, and a table keeps its keys.
-/

namespace Apartments.Hostaway.Changes

open Payments

/-- The keys of the requests are primary keys. -/
def Keyed (b : Board) : Prop := (b.requests.map (·.pk)).Nodup

/-- What closing the orphan makes of the request. -/
def closed (now : Time) (m : ModificationRequest) : ModificationRequest :=
  { m with status := .completed, completedAt := some now }

/-- What an event of a call makes of the request of the call. -/
def Call.rewritten (b : Board) (c : Call) (event : Event) (m : ModificationRequest) : ModificationRequest :=
  match event, c.stage with
  | .check e, .loaded ownerOverride =>
    if disabled e ownerOverride c.request then
      if paidMeanwhile e c.request then { m with status := .pendingAdminApproval } else m
    else if (approvalRefusal e b ownerOverride m).isSome then m
    else approvedRow e.now m
  | .check e, .claiming => (prepareModification e b m).1
  | .check e, .orphaned =>
    if m.status = .completed ∨ !orphanedCancellation b.reservation m then m
    else
      match e.orphanedRefund with
      | .settled _ => closed e.now m
      | .refused _ | .accepted => m
  | .write now, .finishing request operation code => finishedRequest request operation code now m
  | .write now, .completing _ => completedRequest now m
  | .write now, .orphanRefunded => if m.status = .completed then m else closed now m
  | _, _ => m

namespace World

/-- What an action makes of a request. -/
def rewritten (w : World) (a : Action) (m : ModificationRequest) : ModificationRequest :=
  match a with
  | .quote given q => if (persistPricedRequest w.board given q).isOk then supersede m else m
  | .ownerTotal pk o => if m.pk = pk ∧ ownerTotalRefusal w.board o m = none then ownerPriced o m else m
  | .event i event =>
    match w.calls[i]? with
    | none => m
    | some c => if m.pk = c.request.pk then c.rewritten w.board event m else m
  | .cancellation _ | .execute _ | .automatic .. => m

/-- The requests that an action makes. -/
def added (w : World) : Action → List ModificationRequest
  | .quote given q => if (persistPricedRequest w.board given q).isOk then [quotedRequest given q] else []
  | .cancellation q => if (createCancellationRequest w.board q).isOk then [cancellationRequest w.board.reservation q] else []
  | .ownerTotal .. | .execute _ | .automatic .. | .event .. => []

end World

variable {b b' : Board} {c c' : Call} {event : Event} {w : World} {a : Action} {m : ModificationRequest} {pk : Uuid}

theorem approvedRow_pk (now : Time) (m : ModificationRequest) : (approvedRow now m).pk = m.pk := by
  unfold approvedRow
  split <;> rfl

theorem prepareModification_pk (e : Checks) (b : Board) (m : ModificationRequest) :
    (prepareModification e b m).1.pk = m.pk := by
  unfold prepareModification
  dsimp only
  split_ifs <;> rfl

theorem Call.rewritten_pk (b : Board) (c : Call) (event : Event) (m : ModificationRequest) :
    (c.rewritten b event m).pk = m.pk := by
  unfold Call.rewritten
  split
  · split_ifs
    · rfl
    · rfl
    · rfl
    · exact approvedRow_pk _ _
  · exact prepareModification_pk _ _ _
  · split_ifs
    · rfl
    · split <;> rfl
  · rfl
  · rfl
  · split_ifs <;> rfl
  · rfl

theorem World.rewritten_pk (w : World) (a : Action) (m : ModificationRequest) : (w.rewritten a m).pk = m.pk := by
  cases a with
  | quote given q =>
    dsimp only [World.rewritten]
    split_ifs
    · exact supersede_pk m
    · rfl
  | ownerTotal pk o =>
    dsimp only [World.rewritten]
    split_ifs <;> rfl
  | cancellation | execute | automatic => rfl
  | event i event =>
    dsimp only [World.rewritten]
    split
    · rfl
    · split_ifs
      · exact Call.rewritten_pk ..
      · rfl

/-- A transaction that writes `f m` over the row it has locked is the rewriting `g`, if `g` says the same of that row. -/
theorem modify_congr (h : Keyed b) {f g : ModificationRequest → ModificationRequest} (hm : b.request pk = some m)
    (hg : f m = g m) : Table.modify ModificationRequest.pk b.requests pk f = Table.modify ModificationRequest.pk b.requests pk g := by
  rw [Table.modify_eq_of_get h hm, Table.modify_eq_of_get (f := g) h hm, hg]

/-- A row that is left as it was is rewritten by nothing. -/
theorem modify_same (h : Keyed b) {g : ModificationRequest → ModificationRequest} (hm : b.request pk = some m)
    (hg : g m = m) : b.requests = Table.modify ModificationRequest.pk b.requests pk g := by
  rw [modify_congr h (g := id) hm hg]
  refine ((List.map_congr_left fun n _ => ?_).trans (List.map_id _)).symm
  split <;> rfl

/-- A row that is missing is rewritten by nothing. -/
theorem modify_missing {g : ModificationRequest → ModificationRequest} (hm : b.request pk = none) :
    b.requests = Table.modify ModificationRequest.pk b.requests pk g :=
  (Table.modify_of_get_none hm).symm

/-- An event of a call rewrites the request of the call and no other. -/
theorem advance_requests (h : Keyed b) (ha : advance b c event = some (b', c')) :
    b'.requests = Table.modify ModificationRequest.pk b.requests c.request.pk (c.rewritten b event) := by
  obtain ⟨request, reservation, stage⟩ := c
  have hquiet : ∀ {g : ModificationRequest → ModificationRequest}, (∀ m, g m = m) →
      b.requests = Table.modify ModificationRequest.pk b.requests request.pk g := by
    intro g hg
    cases hm : b.request request.pk with
    | none => exact modify_missing hm
    | some m => exact modify_same h hm (hg m)
  cases event with
  | send =>
    simp only [advance] at ha
    split at ha <;> cases ha
    exact hquiet fun m => by cases stage <;> rfl
  | reply r =>
    simp only [advance] at ha
    split at ha <;> cases ha <;> exact hquiet fun _ => rfl
  | check e =>
    cases stage with
    | loaded ownerOverride =>
      simp only [advance, approve] at ha
      by_cases hd : disabled e ownerOverride request
      · rw [if_pos hd] at ha
        cases ha
        by_cases hp : paidMeanwhile e request
        · rw [if_pos hp]
          exact List.map_congr_left fun m _ => by simp [Call.rewritten, hd, hp]
        · simp only [hp, Bool.false_eq_true, if_false]
          exact hquiet fun m => by simp [Call.rewritten, hd, hp]
      · rw [if_neg hd] at ha
        cases hm : b.request request.pk with
        | none => rw [hm] at ha; cases ha
        | some m =>
          simp only [hm] at ha
          cases hr : approvalRefusal e b ownerOverride m with
          | some code =>
            rw [hr] at ha
            cases ha
            exact modify_same h hm (by simp [Call.rewritten, hd, hr])
          | none =>
            rw [hr] at ha
            cases ha
            exact modify_congr h hm (by simp [Call.rewritten, hd, hr])
    | executing =>
      simp only [advance, examine] at ha
      split at ha
      · cases ha
      · split at ha <;> cases ha <;> exact hquiet fun _ => rfl
    | claiming =>
      simp only [advance, prepare] at ha
      cases hm : b.request request.pk with
      | none => rw [hm] at ha; cases ha
      | some m =>
        rw [hm] at ha
        cases ha
        exact modify_congr h hm rfl
    | orphaned =>
      simp only [advance, refundOrphan] at ha
      cases hm : b.request request.pk with
      | none => rw [hm] at ha; cases ha
      | some m =>
        simp only [hm] at ha
        by_cases hs : m.status = .completed
        · rw [if_pos hs] at ha
          cases ha
          exact modify_same h hm (by simp [Call.rewritten, hs])
        · rw [if_neg hs] at ha
          cases ho : orphanedCancellation b.reservation m with
          | false =>
            simp only [ho] at ha
            cases ha
            exact modify_same h hm (by simp [Call.rewritten, ho])
          | true =>
            simp only [ho] at ha
            cases hr : e.orphanedRefund <;> simp only [hr] at ha <;> cases ha
            · exact modify_same h hm (by simp [Call.rewritten, hr])
            · exact modify_congr h hm (by simp [Call.rewritten, hr, hs, ho, closed])
            · exact modify_same h hm (by simp [Call.rewritten, hr])
    | sending | sent | finishing | completing | orphanRefunded | done => cases ha
  | write now =>
    cases hm : b.request request.pk with
    | none => simp only [advance, conclude, hm] at ha; cases ha
    | some m =>
      cases stage with
      | finishing | completing =>
        simp only [advance, conclude, hm] at ha
        cases ha
        rfl
      | orphanRefunded =>
        simp only [advance, conclude, hm] at ha
        cases ha
        by_cases hs : m.status = .completed
        · rw [if_pos hs]
          exact modify_same h hm (by simp [Call.rewritten, hs])
        · rw [if_neg hs]
          exact modify_congr h hm (by simp [Call.rewritten, hs, closed])
      | loaded | executing | claiming | sending | sent | orphaned | done =>
        simp only [advance, conclude, hm] at ha
        cases ha

/-- An event that the call is not at rewrites nothing. -/
theorem advance_none (hm : b.request c.request.pk = some m) (ha : advance b c event = none) :
    c.rewritten b event m = m := by
  obtain ⟨request, reservation, stage⟩ := c
  cases event with
  | send | reply => cases stage <;> rfl
  | check e =>
    cases stage with
    | loaded ownerOverride =>
      simp only [advance, approve] at ha
      split at ha
      · cases ha
      · rw [hm] at ha
        dsimp only at ha
        split at ha <;> cases ha
    | claiming =>
      simp only [advance, prepare, hm] at ha
      cases ha
    | orphaned =>
      simp only [advance, refundOrphan, hm] at ha
      split_ifs at ha
      split at ha <;> cases ha
    | executing | sending | sent | finishing | completing | orphanRefunded | done => rfl
  | write now =>
    cases stage with
    | finishing | completing | orphanRefunded =>
      simp only [advance, conclude, hm] at ha
      cases ha
    | loaded | executing | claiming | sending | sent | orphaned | done => rfl

/-- A step is one map over the table, and new rows behind it. -/
theorem World.step_requests (h : Keyed w.board) (a : Action) :
    (w.step a).board.requests = w.board.requests.map (w.rewritten a) ++ w.added a := by
  have hsame : ∀ {a}, w.added a = [] → (∀ m ∈ w.board.requests, w.rewritten a m = m) →
      w.board.requests = w.board.requests.map (w.rewritten a) ++ w.added a := by
    intro a hadd hrow
    rw [hadd, List.append_nil]
    exact ((List.map_congr_left hrow).trans (List.map_id _)).symm
  cases a with
  | quote given q =>
    simp only [World.step]
    cases hq : persistPricedRequest w.board given q with
    | error =>
      have herr : ¬ (persistPricedRequest w.board given q).isOk = true := by rw [hq]; exact Bool.false_ne_true
      exact hsame (if_neg herr) fun _ _ => if_neg herr
    | ok b' =>
      obtain ⟨rfl, -⟩ := persistPricedRequest_ok hq
      have hok : (persistPricedRequest w.board given q).isOk = true := by rw [hq]; rfl
      simp only [World.onBoard, World.added, hok, if_true]
      exact congrArg (· ++ _) (List.map_congr_left fun m _ => (if_pos hok).symm)
  | ownerTotal pk o =>
    simp only [World.step]
    cases ho : setOwnerFinalTotal w.board pk o with
    | error code =>
      refine hsame rfl fun m hm => ?_
      simp only [World.rewritten]
      split_ifs with hk
      · have hget := Table.get_eq_of_mem h hm
        rw [hk.1] at hget
        simp only [setOwnerFinalTotal, Board.request, hget, hk.2] at ho
        cases ho
      · rfl
    | ok b' =>
      obtain ⟨m, hm, hr, rfl⟩ := setOwnerFinalTotal_ok ho
      simp only [World.onBoard, World.added, List.append_nil]
      refine (modify_congr h (g := fun m => if ownerTotalRefusal w.board o m = none then ownerPriced o m else m) hm
        (by simp [hr])).trans (List.map_congr_left fun n _ => ?_)
      by_cases hk : n.pk = pk <;> simp [World.rewritten, hk]
  | cancellation q =>
    simp only [World.step]
    cases hq : createCancellationRequest w.board q with
    | error => exact hsame (by simp [World.added, hq, Except.isOk, Except.toBool]) fun _ _ => rfl
    | ok b' =>
      obtain ⟨rfl, -⟩ := createCancellationRequest_ok hq
      have hok : (createCancellationRequest w.board q).isOk = true := by rw [hq]; rfl
      simp only [World.onBoard, World.added, hok, if_true]
      exact congrArg (· ++ _) (List.map_id _).symm
  | execute pk | automatic pk ownerOverride =>
    simp only [World.step, World.load]
    split <;> exact hsame rfl fun _ _ => rfl
  | event i event =>
    simp only [World.step]
    cases hc : w.calls[i]? with
    | none => exact hsame rfl fun m _ => by simp [World.rewritten, hc]
    | some c =>
      simp only
      cases ha : advance w.board c event with
      | none =>
        refine hsame rfl fun m hm => ?_
        simp only [World.rewritten, hc]
        split_ifs with hk
        · exact advance_none (hk ▸ Table.get_eq_of_mem h hm) ha
        · rfl
      | some r =>
        obtain ⟨b', c'⟩ := r
        rw [World.added, List.append_nil]
        exact (advance_requests h ha).trans (List.map_congr_left fun m _ => by simp [World.rewritten, hc])

theorem World.pk_of_added (h : m ∈ w.added a) : ∀ n ∈ w.board.requests, n.pk ≠ m.pk := by
  cases a with
  | quote given q =>
    simp only [World.added] at h
    cases hq : persistPricedRequest w.board given q with
    | error => simp [hq, Except.isOk, Except.toBool] at h
    | ok b' =>
      obtain rfl : m = quotedRequest given q := by simpa [hq, Except.isOk, Except.toBool] using h
      exact (persistPricedRequest_ok hq).2.1
  | cancellation q =>
    simp only [World.added] at h
    cases hq : createCancellationRequest w.board q with
    | error => simp [hq, Except.isOk, Except.toBool] at h
    | ok b' =>
      obtain rfl : m = cancellationRequest w.board.reservation q := by
        simpa [hq, Except.isOk, Except.toBool] using h
      exact (createCancellationRequest_ok hq).2
  | ownerTotal | execute | automatic | event => cases h

theorem World.step_keyed (h : Keyed w.board) (a : Action) : Keyed (w.step a).board := by
  have hpks : (w.board.requests.map (w.rewritten a)).map (·.pk) = w.board.requests.map (·.pk) := by
    simp [Function.comp_def, World.rewritten_pk]
  have hadded : ((w.added a).map (·.pk)).Nodup := by
    cases a with
    | quote | cancellation => simp only [World.added]; split_ifs <;> simp
    | ownerTotal | execute | automatic | event => exact List.nodup_nil
  rw [Keyed, World.step_requests h, List.map_append, hpks]
  refine List.nodup_append.2 ⟨h, hadded, ?_⟩
  rintro k hk k' hk' rfl
  obtain ⟨n, hn, rfl⟩ := List.mem_map.1 hk
  obtain ⟨m, hm, hmn⟩ := List.mem_map.1 hk'
  exact World.pk_of_added hm n hn hmn.symm

/-! ### The reservation and the calls -/

/-- What an event of a call makes of the reservation. -/
def Call.rebooked (b : Board) (c : Call) (event : Event) : Reservation :=
  match event, c.stage, b.request c.request.pk with
  | .check e, .orphaned, some m =>
    if m.status = .completed ∨ !orphanedCancellation b.reservation m then b.reservation
    else
      match e.orphanedRefund with
      | .settled _ => orphanClosed e.now b.reservation
      | .refused _ | .accepted => b.reservation
  | .write now, .completing s, some _ => changedReservation s now b.reservation
  | .write now, .orphanRefunded, some m => if m.status = .completed then b.reservation else orphanClosed now b.reservation
  | _, _, _ => b.reservation

theorem advance_reservation (ha : advance b c event = some (b', c')) : b'.reservation = c.rebooked b event := by
  obtain ⟨request, reservation, stage⟩ := c
  cases event with
  | send | reply =>
    simp only [advance] at ha
    split at ha <;> cases ha <;> rfl
  | check e =>
    cases stage with
    | loaded ownerOverride =>
      simp only [advance, approve] at ha
      split at ha
      · cases ha
        split <;> rfl
      · split at ha
        · cases ha
        · split at ha <;> cases ha <;> rfl
    | executing =>
      simp only [advance, examine] at ha
      split at ha
      · cases ha
      · split at ha <;> cases ha <;> rfl
    | claiming =>
      simp only [advance, prepare] at ha
      split at ha <;> cases ha
      rfl
    | orphaned =>
      simp only [advance, refundOrphan] at ha
      cases hm : b.request request.pk with
      | none => rw [hm] at ha; cases ha
      | some m =>
        simp only [hm] at ha
        simp only [Call.rebooked, hm]
        by_cases hs : m.status = .completed
        · rw [if_pos hs] at ha
          cases ha
          simp [hs]
        · rw [if_neg hs] at ha
          cases ho : orphanedCancellation b.reservation m with
          | false =>
            simp only [ho] at ha
            cases ha
            simp
          | true =>
            simp only [ho] at ha
            cases hr : e.orphanedRefund <;> simp only [hr] at ha <;> cases ha <;> simp [hs, closeOrphan]
    | sending | sent | finishing | completing | orphanRefunded | done => cases ha
  | write now =>
    cases hm : b.request request.pk with
    | none => simp only [advance, conclude, hm] at ha; cases ha
    | some m =>
      cases stage with
      | finishing | completing =>
        simp only [advance, conclude, hm] at ha
        cases ha
        simp [Call.rebooked, hm, Board.modify]
      | orphanRefunded =>
        simp only [advance, conclude, hm] at ha
        cases ha
        by_cases hs : m.status = .completed <;> simp [Call.rebooked, hm, hs, closeOrphan]
      | loaded | executing | claiming | sending | sent | orphaned | done =>
        simp only [advance, conclude, hm] at ha
        cases ha

theorem advance_none_reservation (ha : advance b c event = none) : c.rebooked b event = b.reservation := by
  obtain ⟨request, reservation, stage⟩ := c
  cases event with
  | send | reply => rfl
  | check e =>
    cases stage with
    | orphaned =>
      cases hm : b.request request.pk with
      | none => simp [Call.rebooked, hm]
      | some m =>
        simp only [advance, refundOrphan, hm] at ha
        split_ifs at ha
        split at ha <;> cases ha
    | loaded | executing | claiming | sending | sent | finishing | completing | orphanRefunded | done => rfl
  | write now =>
    cases hm : b.request request.pk with
    | none => cases stage <;> simp [Call.rebooked, hm]
    | some m =>
      cases stage with
      | finishing | completing | orphanRefunded => simp only [advance, conclude, hm] at ha; cases ha
      | loaded | executing | claiming | sending | sent | orphaned | done => rfl

/-- The stay that a request was made on, which no transaction rewrites. -/
def terms (m : ModificationRequest) : RequestType × ℕ × ℕ × ℕ × Dec × String :=
  (m.requestType, m.oldCheckIn, m.oldCheckOut, m.oldGuests, m.oldTotal, m.currency)

theorem approvedRow_terms (now : Time) (m : ModificationRequest) : terms (approvedRow now m) = terms m := by
  unfold approvedRow
  split <;> rfl

theorem Call.rewritten_terms (b : Board) (c : Call) (event : Event) (m : ModificationRequest) :
    terms (c.rewritten b event m) = terms m := by
  unfold Call.rewritten
  split
  · split_ifs
    · rfl
    · rfl
    · rfl
    · exact approvedRow_terms _ _
  · unfold prepareModification
    dsimp only
    split_ifs <;> rfl
  · split_ifs
    · rfl
    · split <;> rfl
  · rfl
  · rfl
  · split_ifs <;> rfl
  · rfl

theorem World.rewritten_terms (w : World) (a : Action) (m : ModificationRequest) : terms (w.rewritten a m) = terms m := by
  cases a with
  | quote given q =>
    simp only [World.rewritten, supersede]
    split_ifs <;> rfl
  | ownerTotal pk o =>
    simp only [World.rewritten]
    split_ifs <;> rfl
  | cancellation | execute | automatic => rfl
  | event i event =>
    simp only [World.rewritten]
    split
    · rfl
    · split_ifs
      · exact Call.rewritten_terms ..
      · rfl

theorem replied_ne_sending (m : ModificationRequest) (r : UpdateReply) : replied m r ≠ .sending := by
  cases r with
  | uncertain | rejected => rintro ⟨⟩
  | updated s =>
    simp only [replied]
    split <;> rintro ⟨⟩

/-- A call keeps to its request, and may send an update only after a claim of it was granted. -/
theorem advance_call (ha : advance b c event = some (b', c'))
    (hterms : ∀ m, b.request c.request.pk = some m → terms m = terms c.request) :
    c'.request.pk = c.request.pk ∧ terms c'.request = terms c.request ∧
      (c'.stage = .sending → c'.request = c.request ∧ ∃ e m, event = .check e ∧ c.stage = .claiming ∧
        b.request c.request.pk = some m ∧ (prepareModification e b m).2 = .claimed) := by
  obtain ⟨request, reservation, stage⟩ := c
  cases event with
  | send =>
    simp only [advance] at ha
    split at ha <;> cases ha
    exact ⟨rfl, rfl, by rintro ⟨⟩⟩
  | reply r =>
    simp only [advance] at ha
    split at ha <;> cases ha
    · exact ⟨rfl, rfl, fun h => (replied_ne_sending request r h).elim⟩
    · exact ⟨rfl, rfl, fun h => (replied_ne_sending request .rejected h).elim⟩
    · exact ⟨rfl, rfl, fun h => (replied_ne_sending request .uncertain h).elim⟩
  | check e =>
    cases stage with
    | loaded ownerOverride =>
      simp only [advance, approve] at ha
      split at ha
      · cases ha
        exact ⟨rfl, rfl, by rintro ⟨⟩⟩
      · cases hm : b.request request.pk with
        | none => rw [hm] at ha; cases ha
        | some m =>
          simp only [hm] at ha
          split at ha <;> cases ha
          · exact ⟨rfl, rfl, by rintro ⟨⟩⟩
          · refine ⟨(approvedRow_pk _ _).trans (Table.key_of_get hm), (approvedRow_terms _ _).trans (hterms m hm), ?_⟩
            dsimp only
            split <;> rintro ⟨⟩
    | executing =>
      simp only [advance, examine] at ha
      split at ha
      · cases ha
      · rename_i m hm
        have hrow : m.pk = request.pk ∧ terms m = terms request := by
          split at hm
          · exact ⟨Table.key_of_get hm, hterms m hm⟩
          · cases hm
            exact ⟨rfl, rfl⟩
        split at ha <;> cases ha <;> exact ⟨hrow.1, hrow.2, by rintro ⟨⟩⟩
    | claiming =>
      simp only [advance, prepare] at ha
      cases hm : b.request request.pk with
      | none => rw [hm] at ha; cases ha
      | some m =>
        simp only [hm] at ha
        cases ha
        by_cases hc : (prepareModification e b m).2 = .claimed
        · rw [if_pos hc]
          exact ⟨rfl, rfl, fun _ => ⟨rfl, e, m, rfl, rfl, rfl, hc⟩⟩
        · rw [if_neg hc]
          exact ⟨rfl, rfl, by rintro ⟨⟩⟩
    | orphaned =>
      simp only [advance, refundOrphan] at ha
      cases hm : b.request request.pk with
      | none => rw [hm] at ha; cases ha
      | some m =>
        simp only [hm] at ha
        split_ifs at ha
        · cases ha
          exact ⟨rfl, rfl, by rintro ⟨⟩⟩
        · cases ha
          exact ⟨rfl, rfl, by rintro ⟨⟩⟩
        · split at ha <;> cases ha <;> exact ⟨rfl, rfl, by rintro ⟨⟩⟩
    | sending | sent | finishing | completing | orphanRefunded | done => cases ha
  | write now =>
    cases hm : b.request request.pk with
    | none => simp only [advance, conclude, hm] at ha; cases ha
    | some m =>
      cases stage with
      | finishing | completing | orphanRefunded =>
        simp only [advance, conclude, hm] at ha
        cases ha
        exact ⟨rfl, rfl, by rintro ⟨⟩⟩
      | loaded | executing | claiming | sending | sent | orphaned | done =>
        simp only [advance, conclude, hm] at ha
        cases ha

/-- The calls after a step: the old ones, one that has just read its request, or the one whose event it was. -/
theorem World.calls_step (hc : c' ∈ (w.step a).calls) :
    c' ∈ w.calls ∨
      (w.board.request c'.request.pk = some c'.request ∧ (c'.stage = .executing ∨ ∃ o, c'.stage = .loaded o)) ∨
      ∃ i event c b', a = .event i event ∧ w.calls[i]? = some c ∧ advance w.board c event = some (b', c') := by
  have hload : ∀ {pk stage}, c' ∈ (w.load pk stage).calls →
      c' ∈ w.calls ∨ w.board.request c'.request.pk = some c'.request ∧ c'.stage = stage := by
    intro pk stage hc
    unfold World.load at hc
    split at hc
    · exact .inl hc
    · rename_i m hm
      rcases List.mem_append.1 hc with hc | hc
      · exact .inl hc
      · rw [List.mem_singleton.1 hc]
        exact .inr ⟨by rw [show m.pk = pk from Table.key_of_get hm]; exact hm, rfl⟩
  cases a with
  | quote given q =>
    simp only [World.step, World.onBoard] at hc
    split at hc <;> exact .inl hc
  | ownerTotal pk o =>
    simp only [World.step, World.onBoard] at hc
    split at hc <;> exact .inl hc
  | cancellation q =>
    simp only [World.step, World.onBoard] at hc
    split at hc <;> exact .inl hc
  | execute pk => exact (hload hc).imp_right fun h => .inl ⟨h.1, .inl h.2⟩
  | automatic pk ownerOverride => exact (hload hc).imp_right fun h => .inl ⟨h.1, .inr ⟨_, h.2⟩⟩
  | event i event =>
    simp only [World.step] at hc
    cases hi : w.calls[i]? with
    | none => rw [hi] at hc; exact .inl hc
    | some c =>
      simp only [hi] at hc
      cases ha : advance w.board c event with
      | none => rw [ha] at hc; exact .inl hc
      | some r =>
        rw [ha] at hc
        rcases List.mem_or_eq_of_mem_set hc with hc | rfl
        · exact .inl hc
        · exact .inr (.inr ⟨i, event, c, r.1, rfl, hi, ha⟩)

/-- A call stays where it is in the list, and moves only by an event of its own. -/
theorem World.call_step {j : ℕ} (hj : w.calls[j]? = some c) (a : Action) :
    (w.step a).calls[j]? = some c ∨ ∃ event b' c', a = .event j event ∧ advance w.board c event = some (b', c') ∧
      (w.step a).calls[j]? = some c' := by
  have hlen : j < w.calls.length := (List.getElem?_eq_some_iff.1 hj).1
  have hload : ∀ pk stage, (w.load pk stage).calls[j]? = some c := by
    intro pk stage
    unfold World.load
    split
    · exact hj
    · exact (List.getElem?_append_left hlen).trans hj
  cases a with
  | quote given q =>
    left
    simp only [World.step, World.onBoard]
    split <;> exact hj
  | ownerTotal pk o =>
    left
    simp only [World.step, World.onBoard]
    split <;> exact hj
  | cancellation q =>
    left
    simp only [World.step, World.onBoard]
    split <;> exact hj
  | execute pk => exact .inl (hload pk _)
  | automatic pk ownerOverride => exact .inl (hload pk _)
  | event i event =>
    simp only [World.step]
    by_cases hij : i = j
    · subst hij
      simp only [hj]
      cases ha : advance w.board c event with
      | none => exact .inl hj
      | some r => exact .inr ⟨event, r.1, r.2, rfl, ha, List.getElem?_set_self hlen⟩
    · left
      cases hi : w.calls[i]? with
      | none => exact hj
      | some d =>
        simp only
        cases advance w.board d event with
        | none => exact hj
        | some r => exact (List.getElem?_set_ne hij).trans hj

/-- The action starts a call. -/
def Action.starts : Action → Bool
  | .execute _ | .automatic .. => true
  | .quote .. | .ownerTotal .. | .cancellation _ | .event .. => false

theorem World.length_step (h : a.starts = false) : (w.step a).calls.length = w.calls.length := by
  cases a with
  | execute | automatic => cases h
  | quote | ownerTotal | cancellation =>
    simp only [World.step, World.onBoard]
    split <;> rfl
  | event i event =>
    simp only [World.step]
    split
    · rfl
    · split
      · rfl
      · exact List.length_set

end Apartments.Hostaway.Changes
