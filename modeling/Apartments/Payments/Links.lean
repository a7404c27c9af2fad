import Apartments.Payments.Requests
import Apartments.Lib.Run

/-!
# Where a payment link leads

`Dossier` is a folio with the calls of `approve_preview` under way on it, the links that were sent and the revisions
in the order of their approval; `World` is one for each reservation. `resolveToken` walks from the request a token
names along `superseded_by`. Every approval points all requests that are no draft at the new revision, so one hop is
enough: `Sound` says that whatever a token can name either is the latest approved revision or points at it.
-/

namespace Apartments.Links

open Payments HyperPay Hostaway

/-- `signing.Signer` with the salt of the links; `unsign` is `none` for what was not signed by it. -/
structure Signer where
  sign : Uuid → String
  unsign : String → Option Uuid
  unsign_sign : ∀ pk, unsign (sign pk) = some pk

/-- `link_token`. -/
def linkToken (signer : Signer) (r : PaymentRequest) : String := signer.sign (r.linkAnchor.getD r.pk)

inductive ApprovalStage
  | executing | confirmed | done
deriving DecidableEq

/-- A call of `approve_preview` past its first transaction. -/
structure Approval where
  draft : Uuid
  stage : ApprovalStage
deriving DecidableEq

/-- A link that was sent, and the request it was sent for. -/
structure SentLink where
  token : String
  request : Uuid
deriving DecidableEq

structure Dossier where
  folio : Folio
  approvals : List Approval
  sent : List SentLink
  approved : List Uuid
deriving DecidableEq

abbrev World := List Dossier

inductive Event
  | issue (s : LinkSettings) (pk : Uuid) (now : Time)
  | prepare (s : LinkSettings) (e : Review) (modification pk : Uuid) (now : Time)
  | review (s : LinkSettings) (e : Review) (draft : Uuid) (now : Time)
  | executed (i : ℕ)
  | switch (i : ℕ) (s : LinkSettings) (e : Review) (remote : Bool) (now : Time)
  | send (s : LinkSettings) (request : Uuid)
  | pay (s : LinkSettings) (attempt : PaymentAttempt) (now : Time)
  | offlineReceipt
  | revokeLink
  | collect (desk : Desk)
  | change (board : Board)
deriving DecidableEq

/-- The row that an event may create. -/
def Event.creates : Event → Option Uuid
  | .issue _ pk _ | .prepare _ _ _ pk _ => some pk
  | _ => none

/-- The change that a review is about is completed. -/
def changeCompleted (f : Folio) (draft : Uuid) : Bool :=
  (f.request draft).any fun r => (r.modificationRequest.bind f.board.request).any (·.status == .completed)

/-- Other services rewrite the reservation and its change requests; a completed change stays completed. -/
def keepsCompleted (b b' : Board) : Bool :=
  b'.reservation.pk == b.reservation.pk && b'.reservation.isTest == b.reservation.isTest &&
    b.requests.all fun m => m.status != .completed || b'.requests.any fun n => n.pk == m.pk && n.status == .completed

namespace Dossier

def key (d : Dossier) : Uuid := d.folio.reservation.pk

def requests (d : Dossier) : List PaymentRequest := d.folio.requests

/-- The revision that was approved last. -/
def latest (d : Dossier) : Option Uuid := d.approved.getLast?

variable (signer : Signer)

def step (d : Dossier) : Event → Dossier
  | .issue s pk now =>
    match issueRequest s d.folio pk now with
    | .error _ => d
    | .ok (f, _) => { d with folio := f }
  | .prepare s e modification pk now =>
    match preparePreview s e d.folio modification pk now with
    | .error _ => d
    | .ok f => { d with folio := f }
  | .review s e draft now =>
    match d.folio.request draft with
    | none => d
    | some r =>
      match reviewDraft s e d.folio r now with
      | .ok false =>
        { d with approvals := d.approvals ++ [⟨draft, if changeCompleted d.folio draft then .confirmed else .executing⟩] }
      | _ => d
  -- the call goes on if `execute_automatic_modification` has completed the change or found it completed
  | .executed i =>
    match d.approvals[i]? with
    | some ⟨draft, .executing⟩ =>
      { d with approvals := d.approvals.set i ⟨draft, if changeCompleted d.folio draft then .confirmed else .done⟩ }
    | _ => d
  | .switch i s e remote now =>
    match d.approvals[i]? with
    | some ⟨draft, .confirmed⟩ =>
      let d' := { d with approvals := d.approvals.set i ⟨draft, .done⟩ }
      match d.folio.request draft with
      | none => d'
      | some r =>
        if !remote then d'
        else
          match switchTargets s e d.folio r now with
          | .error _ => d'
          | .ok f => { d' with folio := f, approved := if r.approvedAt.isSome then d.approved else d.approved ++ [draft] }
    | _ => d
  | .send s request =>
    match d.folio.request request with
    | none => d
    | some r =>
      if (notOpen s d.folio r).isSome then d else { d with sent := d.sent ++ [⟨linkToken signer r, request⟩] }
  | .pay s attempt now => { d with folio := completeRequestPayment s d.folio attempt now }
  | .offlineReceipt => { d with folio := revokeOpen d.folio }
  | .revokeLink =>
    match Links.revokeLink d.folio with
    | .error _ => d
    | .ok f => { d with folio := f }
  | .collect desk => { d with folio.desk := desk }
  | .change board => if keepsCompleted d.folio.board board then { d with folio.board := board } else d

end Dossier

namespace World

def allRequests (w : World) : List PaymentRequest := w.flatMap Dossier.requests

def request (w : World) (pk : Uuid) : Option PaymentRequest := Table.get PaymentRequest.pk w.allRequests pk

/-- An event on the reservation of this key; a primary key that is taken is refused. -/
def step (signer : Signer) (w : World) (a : Uuid × Event) : World :=
  if a.2.creates.any fun pk => w.allRequests.any (·.pk == pk) then w
  else Table.modify Dossier.key w a.1 fun d => d.step signer a.2

/-- The walk of `resolve_token` from a request; `hops` are left of its twenty. -/
def follow (w : World) : ℕ → List Uuid → PaymentRequest → Option PaymentRequest
  | hops, visited, r =>
    match r.supersededBy, hops with
    | none, _ => some r
    | some _, 0 => none
    | some next, hops + 1 =>
      if r.pk ∈ visited then none
      else
        match w.request next with
        | none => none
        | some n =>
          if n.reservation ≠ r.reservation ∨ n.environment ≠ r.environment ∨ n.approvedAt = none then none
          else follow w hops (r.pk :: visited) n

/-- `resolve_token`. -/
def resolveToken (signer : Signer) (w : World) (token : String) : Option PaymentRequest :=
  ((signer.unsign token).bind w.request).bind (w.follow 20 [])

/-- No payment was asked for yet. -/
structure Fresh (w : World) : Prop where
  keyed : (w.map Dossier.key).Nodup
  empty : ∀ d ∈ w, d.requests = [] ∧ d.approvals = [] ∧ d.sent = [] ∧ d.approved = []

end World

/-! ### What holds of the requests of one reservation -/

namespace Dossier

structure Sound (signer : Signer) (d : Dossier) : Prop where
  keyed : (d.requests.map (·.pk)).Nodup
  belongs : ∀ r ∈ d.requests, r.reservation = d.key ∧ r.environment = environmentOf d.folio.reservation.isTest
  oneDraft : ∀ r ∈ d.requests, ∀ q ∈ d.requests, r.status = .draft → q.status = .draft → r.pk = q.pk
  oneOpen : ∀ r ∈ d.requests, ∀ q ∈ d.requests, r.status = .open → q.status = .open → r.pk = q.pk
  latest : ∀ pk, d.latest = some pk →
    ∃ r ∈ d.requests, r.pk = pk ∧ r.approvedAt.isSome ∧ r.status ≠ .draft ∧ r.supersededBy = none
  draft : ∀ r ∈ d.requests, r.status = .draft → r.supersededBy = none
  hops : ∀ r ∈ d.requests, r.supersededBy = none ∨ r.supersededBy = d.latest
  -- what a token can name has no anchor
  follows : ∀ r ∈ d.requests, r.linkAnchor = none → d.latest ≠ none →
    r.status ≠ .draft ∧ (d.latest = some r.pk ∨ r.supersededBy = d.latest)
  anchored : ∀ r ∈ d.requests, ∀ pk, r.linkAnchor = some pk →
    ∃ q ∈ d.requests, q.pk = pk ∧ q.linkAnchor = none ∧ q.status ≠ .draft
  opened : ∀ r ∈ d.requests, r.status = .open → r.linkAnchor = none ∨ d.latest ≠ none
  completed : d.latest ≠ none → ∃ m ∈ d.folio.board.requests, m.status = .completed
  confirmed : ∀ c ∈ d.approvals, c.stage = .confirmed → ∃ r ∈ d.requests, r.pk = c.draft ∧
    ∃ m ∈ d.folio.board.requests, r.modificationRequest = some m.pk ∧ m.status = .completed
  sent : ∀ l ∈ d.sent, ∃ r ∈ d.requests, r.pk = l.request ∧ l.token = linkToken signer r ∧ r.status ≠ .draft ∧
    (r.linkAnchor = none ∨ d.latest ≠ none)

end Dossier

/-- A rewriting of requests that neither moves a link nor brings a request back to be a draft or open. -/
structure Steady (g : PaymentRequest → PaymentRequest) : Prop where
  pk : ∀ r, (g r).pk = r.pk
  reservation : ∀ r, (g r).reservation = r.reservation
  environment : ∀ r, (g r).environment = r.environment
  modificationRequest : ∀ r, (g r).modificationRequest = r.modificationRequest
  linkAnchor : ∀ r, (g r).linkAnchor = r.linkAnchor
  supersededBy : ∀ r, (g r).supersededBy = r.supersededBy
  approvedAt : ∀ r, (g r).approvedAt = r.approvedAt
  status : ∀ r, (g r).status = r.status ∨ ((g r).status ≠ .draft ∧ (g r).status ≠ .open)

/-- The board still belongs to the reservation, and its completed changes are still completed. -/
structure Kept (b b' : Board) : Prop where
  pk : b'.reservation.pk = b.reservation.pk
  isTest : b'.reservation.isTest = b.reservation.isTest
  completed : ∀ m ∈ b.requests, m.status = .completed → ∃ n ∈ b'.requests, n.pk = m.pk ∧ n.status = .completed

variable {signer : Signer} {d : Dossier} {f f' : Folio} {g : PaymentRequest → PaymentRequest} {b b' : Board}
  {r : PaymentRequest}

theorem Kept.refl (b : Board) : Kept b b := ⟨rfl, rfl, fun m hm hs => ⟨m, hm, rfl, hs⟩⟩

theorem kept_of_keepsCompleted (h : keepsCompleted b b' = true) : Kept b b' := by
  simp only [keepsCompleted, Bool.and_eq_true, beq_iff_eq, List.all_eq_true, Bool.or_eq_true, bne_iff_ne, ne_eq,
    List.any_eq_true] at h
  obtain ⟨⟨hpk, htest⟩, hall⟩ := h
  exact ⟨hpk, htest, fun m hm hs => (hall m hm).resolve_left fun hn => hn hs⟩

theorem length_filter_le_one {p : PaymentRequest → Bool} {l : List PaymentRequest} (hnd : (l.map (·.pk)).Nodup)
    (h : ∀ r ∈ l, ∀ q ∈ l, p r = true → p q = true → r.pk = q.pk) : (l.filter p).length ≤ 1 := by
  match hf : l.filter p with
  | [] | [_] => simp
  | r :: q :: rest =>
    exfalso
    have hsub : ((l.filter p).map (·.pk)).Nodup := hnd.sublist (List.filter_sublist.map _)
    have hr := List.mem_filter.1 (hf ▸ List.mem_cons_self : r ∈ l.filter p)
    have hq := List.mem_filter.1 (hf ▸ List.mem_cons_of_mem _ List.mem_cons_self : q ∈ l.filter p)
    rw [hf, List.map_cons, List.map_cons, List.nodup_cons] at hsub
    exact hsub.1 (by rw [h r hr.1 q hq.1 hr.2 hq.2]; exact List.mem_cons_self)

theorem map_pk {l : List PaymentRequest} (hg : ∀ r, (g r).pk = r.pk) : (l.map g).map (·.pk) = l.map (·.pk) := by
  rw [List.map_map]
  exact List.map_congr_left fun r _ => hg r

theorem Steady.status_draft (hg : Steady g) (h : (g r).status = .draft) : r.status = .draft := by
  rcases hg.status r with hs | ⟨hs, -⟩
  · exact hs.symm.trans h
  · exact absurd h hs

theorem Steady.status_open (hg : Steady g) (h : (g r).status = .open) : r.status = .open := by
  rcases hg.status r with hs | ⟨-, hs⟩
  · exact hs.symm.trans h
  · exact absurd h hs

theorem Steady.not_draft (hg : Steady g) (h : r.status ≠ .draft) : (g r).status ≠ .draft :=
  fun hd => h (hg.status_draft hd)

theorem Steady.linkToken (hg : Steady g) (r : PaymentRequest) : linkToken signer (g r) = linkToken signer r := by
  rw [Links.linkToken, hg.linkAnchor, hg.pk]
  rfl

theorem Steady.at (hg : Steady g) (pk : Uuid) : Steady fun r => if r.pk = pk then g r else r := by
  constructor <;> intro r <;> split
  · exact hg.pk r
  · rfl
  · exact hg.reservation r
  · rfl
  · exact hg.environment r
  · rfl
  · exact hg.modificationRequest r
  · rfl
  · exact hg.linkAnchor r
  · rfl
  · exact hg.supersededBy r
  · rfl
  · exact hg.approvedAt r
  · rfl
  · exact hg.status r
  · exact .inl rfl

theorem revoke_steady : Steady revoke := by
  constructor <;> intro r <;> first | rfl | exact .inr ⟨nofun, nofun⟩

theorem needsReview_steady : Steady needsReview := by
  constructor <;> intro r <;> first | rfl | exact .inr ⟨nofun, nofun⟩

theorem paidBy_steady (now : Time) : Steady (paidBy now) := by
  constructor <;> intro r <;> first | rfl | exact .inr ⟨nofun, nofun⟩

theorem dropDraft_steady : Steady dropDraft := by
  constructor <;> intro r <;> unfold dropDraft <;> split <;> first | rfl | exact .inl rfl | exact .inr ⟨nofun, nofun⟩

theorem revokeOpen_steady : Steady fun r => if r.status = .open then revoke r else r := by
  constructor <;> intro r <;> split <;> first | rfl | exact .inl rfl | exact .inr ⟨nofun, nofun⟩

namespace Dossier

/-- Rewriting the requests steadily, with the board kept, changes nothing of `Sound`. -/
theorem Sound.rewrite (h : d.Sound signer) (hg : Steady g) (hr : f.requests = d.requests.map g)
    (hb : Kept d.folio.board f.board) : ({ d with folio := f } : Dossier).Sound signer := by
  have hmem : ∀ {q}, q ∈ f.requests → ∃ r ∈ d.requests, g r = q := fun hq => List.mem_map.1 (hr ▸ hq)
  have hin : ∀ {r}, r ∈ d.requests → g r ∈ f.requests := fun hq => hr ▸ List.mem_map_of_mem hq
  constructor
  · show (f.requests.map (·.pk)).Nodup
    rw [hr, map_pk hg.pk]
    exact h.keyed
  · intro q hq
    obtain ⟨r, hr, rfl⟩ := hmem hq
    rw [hg.reservation, hg.environment]
    exact ⟨(h.belongs r hr).1.trans hb.pk.symm, (h.belongs r hr).2.trans (congrArg _ hb.isTest.symm)⟩
  · intro q hq q' hq' hs hs'
    obtain ⟨r, hr, rfl⟩ := hmem hq
    obtain ⟨r', hr', rfl⟩ := hmem hq'
    rw [hg.pk, hg.pk]
    exact h.oneDraft r hr r' hr' (hg.status_draft hs) (hg.status_draft hs')
  · intro q hq q' hq' hs hs'
    obtain ⟨r, hr, rfl⟩ := hmem hq
    obtain ⟨r', hr', rfl⟩ := hmem hq'
    rw [hg.pk, hg.pk]
    exact h.oneOpen r hr r' hr' (hg.status_open hs) (hg.status_open hs')
  · intro pk hpk
    obtain ⟨r, hr, rfl, ha, hs, hn⟩ := h.latest pk hpk
    exact ⟨g r, hin hr, hg.pk r, by rwa [hg.approvedAt], hg.not_draft hs, by rwa [hg.supersededBy]⟩
  · intro q hq hs
    obtain ⟨r, hr, rfl⟩ := hmem hq
    rw [hg.supersededBy]
    exact h.draft r hr (hg.status_draft hs)
  · intro q hq
    obtain ⟨r, hr, rfl⟩ := hmem hq
    rw [hg.supersededBy]
    exact h.hops r hr
  · intro q hq ha hl
    obtain ⟨r, hr, rfl⟩ := hmem hq
    rw [hg.linkAnchor] at ha
    rw [hg.pk, hg.supersededBy]
    exact ⟨hg.not_draft (h.follows r hr ha hl).1, (h.follows r hr ha hl).2⟩
  · intro q hq pk ha
    obtain ⟨r, hr, rfl⟩ := hmem hq
    rw [hg.linkAnchor] at ha
    obtain ⟨q, hq, rfl, hqa, hs⟩ := h.anchored r hr pk ha
    exact ⟨g q, hin hq, hg.pk q, by rwa [hg.linkAnchor], hg.not_draft hs⟩
  · intro q hq hs
    obtain ⟨r, hr, rfl⟩ := hmem hq
    rw [hg.linkAnchor]
    exact h.opened r hr (hg.status_open hs)
  · intro hl
    obtain ⟨m, hm, hs⟩ := h.completed hl
    obtain ⟨n, hn, -, hns⟩ := hb.completed m hm hs
    exact ⟨n, hn, hns⟩
  · intro c hc hs
    obtain ⟨r, hr, hpk, m, hm, hrm, hms⟩ := h.confirmed c hc hs
    obtain ⟨n, hn, hnm, hns⟩ := hb.completed m hm hms
    exact ⟨g r, hin hr, (hg.pk r).trans hpk, n, hn, by rw [hg.modificationRequest, hrm, hnm], hns⟩
  · intro l hl
    obtain ⟨r, hr, hpk, ht, hs, ha⟩ := h.sent l hl
    exact ⟨g r, hin hr, (hg.pk r).trans hpk, by rw [hg.linkToken, ht], hg.not_draft hs, by rwa [hg.linkAnchor]⟩

/-- A new request: a draft beside no other draft, or an open one beside no other open one. -/
theorem Sound.append (h : d.Sound signer) (hr : f.requests = d.requests ++ [r]) (hb : f.board = d.folio.board)
    (hpk : r.pk ∉ d.requests.map (·.pk)) (hres : r.reservation = d.key)
    (henv : r.environment = environmentOf d.folio.reservation.isTest) (hs : r.supersededBy = none)
    (hdraft : r.status = .draft → ∀ q ∈ d.requests, q.status ≠ .draft)
    (hopen : r.status = .open → r.linkAnchor = none ∧ ∀ q ∈ d.requests, q.status ≠ .open)
    (hnone : r.linkAnchor = none → d.latest = none)
    (hsome : ∀ pk, r.linkAnchor = some pk → ∃ q ∈ d.requests, q.pk = pk ∧ q.linkAnchor = none ∧ q.status ≠ .draft) :
    ({ d with folio := f } : Dossier).Sound signer := by
  have hmem : ∀ {q}, q ∈ f.requests → q ∈ d.requests ∨ q = r := fun hq => by simpa [hr] using hq
  have hin : ∀ {q}, q ∈ d.requests → q ∈ f.requests := fun hq => by simp [hr, hq]
  constructor
  · show (f.requests.map (·.pk)).Nodup
    rw [hr, List.map_append, List.nodup_append]
    exact ⟨h.keyed, by simp, fun x hx y hy => by simp at hy; exact fun he => hpk (hy ▸ he ▸ hx)⟩
  · intro q hq
    show q.reservation = f.board.reservation.pk ∧ q.environment = environmentOf f.board.reservation.isTest
    rw [hb]
    rcases hmem hq with hq | rfl
    · exact h.belongs q hq
    · exact ⟨hres, henv⟩
  · intro q hq q' hq' hqs hqs'
    rcases hmem hq with hq | rfl <;> rcases hmem hq' with hq' | rfl
    · exact h.oneDraft q hq q' hq' hqs hqs'
    · exact absurd hqs (hdraft hqs' q hq)
    · exact absurd hqs' (hdraft hqs q' hq')
    · rfl
  · intro q hq q' hq' hqs hqs'
    rcases hmem hq with hq | rfl <;> rcases hmem hq' with hq' | rfl
    · exact h.oneOpen q hq q' hq' hqs hqs'
    · exact absurd hqs ((hopen hqs').2 q hq)
    · exact absurd hqs' ((hopen hqs).2 q' hq')
    · rfl
  · intro pk hl
    obtain ⟨q, hq, h'⟩ := h.latest pk hl
    exact ⟨q, hin hq, h'⟩
  · intro q hq hqs
    rcases hmem hq with hq | rfl
    · exact h.draft q hq hqs
    · exact hs
  · intro q hq
    rcases hmem hq with hq | rfl
    · exact h.hops q hq
    · exact .inl hs
  · intro q hq ha hl
    rcases hmem hq with hq | rfl
    · exact h.follows q hq ha hl
    · exact absurd (hnone ha) hl
  · intro q hq pk ha
    rcases hmem hq with hq | rfl
    · obtain ⟨q', hq', h'⟩ := h.anchored q hq pk ha
      exact ⟨q', hin hq', h'⟩
    · obtain ⟨q', hq', h'⟩ := hsome pk ha
      exact ⟨q', hin hq', h'⟩
  · intro q hq hqs
    rcases hmem hq with hq | rfl
    · exact h.opened q hq hqs
    · exact .inl (hopen hqs).1
  · intro hl
    show ∃ m ∈ f.board.requests, m.status = .completed
    rw [hb]
    exact h.completed hl
  · intro c hc hcs
    obtain ⟨q, hq, hqc, hm⟩ := h.confirmed c hc hcs
    refine ⟨q, hin hq, hqc, ?_⟩
    show ∃ m ∈ f.board.requests, _
    rw [hb]
    exact hm
  · intro l hl
    obtain ⟨q, hq, h'⟩ := h.sent l hl
    exact ⟨q, hin hq, h'⟩

theorem changeCompleted_spec {draft : Uuid} (h : changeCompleted f draft = true) : ∃ r ∈ f.requests, r.pk = draft ∧
    ∃ m ∈ f.board.requests, r.modificationRequest = some m.pk ∧ m.status = .completed := by
  obtain ⟨r, hr, h⟩ := (Option.any_eq_true _ _).1 h
  obtain ⟨m, hm, hs⟩ := (Option.any_eq_true _ _).1 h
  obtain ⟨pk, hpk, hm⟩ := Option.bind_eq_some_iff.1 hm
  exact ⟨r, Table.mem_of_get hr, Table.key_of_get hr, m, Table.mem_of_get hm, by rw [hpk, Table.key_of_get hm],
    by simpa using hs⟩

/-- Only the calls under way change. -/
theorem Sound.approvals {cs : List Approval} (h : d.Sound signer)
    (hc : ∀ c ∈ cs, c.stage = .confirmed → c ∈ d.approvals ∨ changeCompleted d.folio c.draft = true) :
    ({ d with approvals := cs } : Dossier).Sound signer := by
  refine { h with confirmed := fun c hcs hs => ?_ }
  rcases hc c hcs hs with hold | hnew
  · exact h.confirmed c hold hs
  · exact changeCompleted_spec hnew

theorem Sound.latest_eq_none (h : d.Sound signer) (hm : ∀ m ∈ d.folio.board.requests, m.status ≠ .completed) :
    d.latest = none := by
  by_contra hl
  obtain ⟨m, hmem, hs⟩ := h.completed hl
  exact hm m hmem hs

end Dossier

/-! ### Issuing -/

/-- A stay that a request can be issued for has no completed change. -/
theorem eligible_ok {s : LinkSettings} {i : BookingIntent} (h : eligible s f = .ok i) :
    s.environment = environmentOf f.reservation.isTest ∧ ∀ m ∈ f.board.requests, m.status ≠ .completed := by
  unfold eligible at h
  split at h
  · cases h
  split at h
  · cases h
  rename_i hi
  simp only [ineligible] at hi
  split_ifs at hi with h1 h2 h3 h4 h5 h6 h7 h8
  simp only [Bool.or_eq_true, not_or, List.any_eq_true, not_exists, not_and] at h8
  refine ⟨by simpa using h2, fun m hm hs => h8.2 m hm ?_⟩
  rw [hs]
  rfl

theorem issueNew_ok {s : LinkSettings} {i : BookingIntent} {pk : Uuid} {now : Time} (h : issueNew s f i pk now = .ok (f', r)) :
    ∃ amount, f' = { f with requests := f.requests ++ [issued s f i amount pk now] } ∧ pk ∉ f.requests.map (·.pk) := by
  unfold issueNew at h
  split at h
  · cases h
  split at h
  · cases h
  split at h
  · cases h
  rename_i amount _ hrefused
  cases h
  refine ⟨amount, rfl, fun hin => hrefused (.inr (.inr ?_))⟩
  simpa using hin

theorem openRequest_some {current : PaymentRequest} (h : openRequest f = some current) :
    current ∈ f.requests ∧ current.status = .open := by
  have := List.mem_filter.1 (Table.mem_of_first h)
  exact ⟨this.1, by simpa using this.2⟩

theorem openRequest_none (h : openRequest f = none) : ∀ r ∈ f.requests, r.status ≠ .open := by
  have := Table.first_eq_none.1 h
  simpa [List.filter_eq_nil_iff] using this

/-- What `issue_request` leaves: the folio as it was, or a new request where no other is open. -/
theorem issueRequest_ok {s : LinkSettings} {pk : Uuid} {now : Time} (h : issueRequest s f pk now = .ok (f', r)) :
    f' = f ∨ ∃ i, eligible s f = .ok i ∧
      (openRequest f = none ∧ issueNew s f i pk now = .ok (f', r) ∨
        ∃ current, openRequest f = some current ∧ issueNew s (f.modify current.pk revoke) i pk now = .ok (f', r)) := by
  unfold issueRequest at h
  split at h
  · cases h
  split at h
  · split at h <;> cases h
    exact .inl rfl
  split at h
  · cases h
  rename_i i hi
  split at h
  · rename_i ho
    exact .inr ⟨i, hi, .inl ⟨ho, h⟩⟩
  rename_i current ho
  split at h
  · cases h
    exact .inl rfl
  split at h
  · cases h
  exact .inr ⟨i, hi, .inr ⟨current, ho, h⟩⟩

/-! ### Reviewing and approving -/

theorem unreviewable_none {s : LinkSettings} {e : Review} {m : ModificationRequest} (h : unreviewable s e f m = none) :
    s.environment = environmentOf f.reservation.isTest := by
  unfold unreviewable at h
  dsimp only at h
  split_ifs at h with h1 h2 h3 h4
  by_contra hne
  exact h4 (.inr (.inr (.inr hne)))

theorem preparePreview_ok {s : LinkSettings} {e : Review} {modification pk : Uuid} {now : Time}
    (h : preparePreview s e f modification pk now = .ok f') :
    ∃ i m, f' = { f with requests := f.requests.map dropDraft ++ [draftOf s e f i m pk now] } ∧
      pk ∉ f.requests.map (·.pk) ∧ s.environment = environmentOf f.reservation.isTest := by
  unfold preparePreview at h
  split at h
  · rename_i m i _ _
    split at h
    · cases h
    rename_i hreview
    split_ifs at h with _ hrefused
    cases h
    refine ⟨i, m, rfl, fun hin => hrefused (.inr ?_), unreviewable_none hreview⟩
    simpa using hin
  · cases h

/-- A review takes over the link of a request that is no draft and has no anchor of its own. -/
theorem anchor_some {signer : Signer} {d : Dossier} {pk : Uuid} (h : d.Sound signer) (ha : anchor d.folio = some pk) :
    ∃ q ∈ d.requests, q.pk = pk ∧ q.linkAnchor = none ∧ q.status ≠ .draft := by
  obtain ⟨r, hr, rfl⟩ := Option.map_eq_some_iff.1 ha
  obtain ⟨hmem, hs⟩ := List.mem_filter.1 (Table.mem_of_first hr)
  cases hl : r.linkAnchor with
  | none => exact ⟨r, hmem, rfl, hl, by simpa using hs⟩
  | some pk => exact h.anchored r hmem pk hl

theorem anchor_none {signer : Signer} {d : Dossier} (h : d.Sound signer) (ha : anchor d.folio = none) : d.latest = none := by
  have hnil := Table.first_eq_none.1 (Option.map_eq_none_iff.1 ha)
  by_contra hl
  obtain ⟨pk, hl⟩ := Option.ne_none_iff_exists'.1 hl
  obtain ⟨r, hr, -, -, hs, -⟩ := h.latest pk hl
  exact List.filter_eq_nil_iff.1 hnil r hr (by simpa using hs)

section Switched

variable {res : Reservation} {i : BookingIntent} {now : Time} {draft : Uuid}

theorem switched_pk (q : PaymentRequest) : (switched res i now draft q).pk = q.pk := by
  unfold switched redirected
  split_ifs <;> rfl

theorem switched_linkAnchor (q : PaymentRequest) : (switched res i now draft q).linkAnchor = q.linkAnchor := by
  unfold switched redirected
  split_ifs <;> rfl

theorem switched_modificationRequest (q : PaymentRequest) :
    (switched res i now draft q).modificationRequest = q.modificationRequest := by
  unfold switched redirected
  split_ifs <;> rfl

theorem switched_belongs (q : PaymentRequest) : (switched res i now draft q).reservation = q.reservation ∧
    (switched res i now draft q).environment = q.environment := by
  unfold switched redirected
  split_ifs <;> exact ⟨rfl, rfl⟩

theorem switched_self (q : PaymentRequest) (h : q.pk = draft) : switched res i now draft q = approved res i now q := if_pos h

theorem switched_supersededBy {q : PaymentRequest} (h : q.pk ≠ draft) (hs : q.status ≠ .draft) :
    (switched res i now draft q).supersededBy = some draft := by
  simp only [switched, if_neg h, redirected, if_neg hs]

/-- Only the approved draft is open afterwards. -/
theorem switched_status {q : PaymentRequest} (h : q.pk = draft ∨ q.status ≠ .draft) :
    (switched res i now draft q).status ≠ .draft ∧ ((switched res i now draft q).status = .open → q.pk = draft) := by
  by_cases hpk : q.pk = draft
  · rw [switched_self q hpk]
    exact ⟨nofun, fun _ => hpk⟩
  · have hs := h.resolve_left hpk
    simp only [switched, if_neg hpk, redirected, if_neg hs]
    split
    · exact ⟨nofun, nofun⟩
    · rename_i ho
      exact ⟨hs, fun hopen => absurd hopen ho⟩

end Switched

theorem reviewDraft_ok {s : LinkSettings} {e : Review} {draft : PaymentRequest} {now : Time} {b : Bool}
    (h : reviewDraft s e f draft now = .ok b) : b = draft.approvedAt.isSome ∧ (b = false → draft.status = .draft) := by
  unfold reviewDraft at h
  split at h
  · cases h
  split at h
  · rename_i ha
    split at h <;> cases h
    exact ⟨ha.symm, nofun⟩
  · rename_i ha
    split at h <;> cases h
    rename_i hc
    refine ⟨by simpa using ha, fun _ => ?_⟩
    unfold checkPreview at hc
    split at hc
    · cases hc
    · split at hc
      · cases hc
      · rename_i hp
        simp only [previewChanged, Bool.or_eq_true, not_or, bne_iff_ne, ne_eq, not_not] at hp
        tauto
    · cases hc

/-- The end of an approval: nothing more to do, or every request that is no draft points to the approved draft. -/
theorem switchTargets_ok {s : LinkSettings} {e : Review} {draft : PaymentRequest} {now : Time}
    (h : switchTargets s e f draft now = .ok f') :
    draft.approvedAt.isSome ∧ f' = f ∨ draft.approvedAt = none ∧ draft.status = .draft ∧ ∃ i,
      f' = { f with
        requests := f.requests.map (switched f.reservation i now draft.pk)
        board.reservation.paymentStatus := approvedStatus draft } := by
  unfold switchTargets at h
  split at h
  · cases h
  · rename_i hr
    cases h
    exact .inl ⟨(reviewDraft_ok hr).1.symm, rfl⟩
  · cases h
  · rename_i i hr _
    cases h
    obtain ⟨ha, hs⟩ := reviewDraft_ok hr
    exact .inr ⟨by simpa using ha.symm, hs rfl, i, rfl⟩

namespace Dossier

/-- The approval of a draft whose change is completed. -/
theorem Sound.switch {i : BookingIntent} {now : Time} {status : String} {draft : PaymentRequest} (h : d.Sound signer)
    (hmem : draft ∈ d.requests) (hs : draft.status = .draft)
    (hcomp : ∃ m ∈ d.folio.board.requests, draft.modificationRequest = some m.pk ∧ m.status = .completed) :
    ({ d with
      folio := { d.folio with
        requests := d.requests.map (switched d.folio.reservation i now draft.pk)
        board.reservation.paymentStatus := status }
      approved := d.approved ++ [draft.pk] } : Dossier).Sound signer := by
  -- there is no other draft, so every row of the new table is the approved one or points to it
  have hrow : ∀ q ∈ d.requests, q.pk = draft.pk ∨ q.status ≠ .draft := fun q hq =>
    or_iff_not_imp_left.2 fun hpk hqs => hpk (h.oneDraft q hq draft hmem hqs hs)
  have hsame : ∀ q ∈ d.requests, q.pk = draft.pk → q = draft := fun q hq => Table.eq_of_mem_of_key h.keyed hq hmem
  have hself := @switched_self d.folio.reservation i now draft.pk draft rfl
  set g := switched d.folio.reservation i now draft.pk
  have hstatus : ∀ q ∈ d.requests, (g q).status ≠ .draft ∧ ((g q).status = .open → q.pk = draft.pk) := fun q hq =>
    switched_status (hrow q hq)
  have hin : ∀ {q}, q ∈ d.requests → g q ∈ d.requests.map g := fun hq => List.mem_map_of_mem hq
  have hlatest : (d.approved ++ [draft.pk]).getLast? = some draft.pk := by simp
  constructor
  · show ((d.requests.map g).map (·.pk)).Nodup
    rw [map_pk fun q => switched_pk q]
    exact h.keyed
  · intro x hx
    obtain ⟨q, hq, rfl⟩ := List.mem_map.1 hx
    have hb := h.belongs q hq
    have hg := @switched_belongs d.folio.reservation i now draft.pk q
    exact ⟨hg.1.trans hb.1, hg.2.trans hb.2⟩
  · intro x hx _ _ hqs
    obtain ⟨q, hq, rfl⟩ := List.mem_map.1 hx
    exact absurd hqs (hstatus q hq).1
  · intro x hx y hy hxs hys
    obtain ⟨q, hq, rfl⟩ := List.mem_map.1 hx
    obtain ⟨q', hq', rfl⟩ := List.mem_map.1 hy
    rw [hsame q hq ((hstatus q hq).2 hxs), hsame q' hq' ((hstatus q' hq').2 hys)]
  · intro pk hl
    obtain rfl : draft.pk = pk := Option.some.inj (hlatest.symm.trans hl)
    refine ⟨g draft, hin hmem, switched_pk draft, ?_, (hstatus draft hmem).1, ?_⟩
    · rw [hself]
      rfl
    · rw [hself]
      exact h.draft draft hmem hs
  · intro x hx hqs
    obtain ⟨q, hq, rfl⟩ := List.mem_map.1 hx
    exact absurd hqs (hstatus q hq).1
  · intro x hx
    obtain ⟨q, hq, rfl⟩ := List.mem_map.1 hx
    by_cases hpk : q.pk = draft.pk
    · rw [hsame q hq hpk, hself]
      exact .inl (h.draft draft hmem hs)
    · exact .inr ((switched_supersededBy hpk ((hrow q hq).resolve_left hpk)).trans hlatest.symm)
  · intro x hx _ _
    obtain ⟨q, hq, rfl⟩ := List.mem_map.1 hx
    refine ⟨(hstatus q hq).1, ?_⟩
    by_cases hpk : q.pk = draft.pk
    · exact .inl (hlatest.trans (by rw [switched_pk, hpk]))
    · exact .inr ((switched_supersededBy hpk ((hrow q hq).resolve_left hpk)).trans hlatest.symm)
  · intro x hx pk ha
    obtain ⟨q, hq, rfl⟩ := List.mem_map.1 hx
    obtain ⟨q', hq', rfl, ha', -⟩ := h.anchored q hq pk ((switched_linkAnchor q).symm.trans ha)
    exact ⟨g q', hin hq', switched_pk q', (switched_linkAnchor q').trans ha', (hstatus q' hq').1⟩
  · exact fun _ _ _ => .inr fun hn => nomatch hlatest.symm.trans hn
  · intro _
    obtain ⟨m, hm, -, hms⟩ := hcomp
    exact ⟨m, hm, hms⟩
  · intro c hc hcs
    obtain ⟨q, hq, hqc, m, hm, hqm, hms⟩ := h.confirmed c hc hcs
    exact ⟨g q, hin hq, (switched_pk q).trans hqc, m, hm, (switched_modificationRequest q).trans hqm, hms⟩
  · intro l hl
    obtain ⟨q, hq, hql, ht, -, -⟩ := h.sent l hl
    refine ⟨g q, hin hq, (switched_pk q).trans hql, ?_, (hstatus q hq).1, .inr fun hn => nomatch hlatest.symm.trans hn⟩
    rw [ht, linkToken, linkToken, switched_linkAnchor, switched_pk]

theorem completeRequestPayment_spec (s : LinkSettings) (f : Folio) (attempt : PaymentAttempt) (now : Time) :
    ∃ g, Steady g ∧ (completeRequestPayment s f attempt now).requests = f.requests.map g ∧
      Kept f.board (completeRequestPayment s f attempt now).board := by
  have hid : Steady id := by constructor <;> intro r <;> first | rfl | exact .inl rfl
  unfold completeRequestPayment
  split
  · exact ⟨id, hid, (List.map_id _).symm, Kept.refl _⟩
  · rename_i request _
    split
    · exact ⟨id, hid, (List.map_id _).symm, Kept.refl _⟩
    · split
      · exact ⟨_, (paidBy_steady now).at request.pk, rfl, ⟨rfl, rfl, fun m hm hs => ⟨m, hm, rfl, hs⟩⟩⟩
      · exact ⟨_, needsReview_steady.at request.pk, rfl, Kept.refl _⟩

theorem notOpen_none {s : LinkSettings} (h : (notOpen s f r).isSome = false) : r.status = .open := by
  unfold notOpen at h
  by_contra hs
  rw [if_pos (.inl hs)] at h
  cases h

/-! ### What a step can do -/

/-- A request that is added: one issued for a booking without completed changes, where no other is open, or a review
under the link of the requests before it, where no other is a draft. -/
inductive New (d : Dossier) (g : PaymentRequest → PaymentRequest) (r : PaymentRequest) : Prop
  | issued : r.status = .open → r.linkAnchor = none → (∀ m ∈ d.folio.board.requests, m.status ≠ .completed) →
      (∀ q ∈ d.requests, (g q).status ≠ .open) → New d g r
  | drafted : r.status = .draft → r.linkAnchor = anchor d.folio → (∀ q ∈ d.requests, (g q).status ≠ .draft) → New d g r

inductive Move (signer : Signer) (d : Dossier) : Event → Dossier → Prop
  | rewritten {ev g f} : Steady g → f.requests = d.requests.map g → Kept d.folio.board f.board →
      Move signer d ev { d with folio := f }
  | added {ev g f r} : Steady g → f.requests = d.requests.map g ++ [r] → f.board = d.folio.board → ev.creates = some r.pk →
      r.pk ∉ d.requests.map (·.pk) → r.reservation = d.key →
      r.environment = environmentOf d.folio.reservation.isTest → r.supersededBy = none → New d g r →
      Move signer d ev { d with folio := f }
  | going {ev cs} : (∀ c ∈ cs, c.stage = .confirmed → c ∈ d.approvals ∨ changeCompleted d.folio c.draft = true) →
      Move signer d ev { d with approvals := cs }
  | switched {ev cs i now status draft} : (∀ c ∈ cs, c.stage = .confirmed → c ∈ d.approvals) → draft ∈ d.requests →
      draft.status = .draft →
      (∃ m ∈ d.folio.board.requests, draft.modificationRequest = some m.pk ∧ m.status = .completed) →
      Move signer d ev { d with
        folio := { d.folio with
          requests := d.requests.map (switched d.folio.reservation i now draft.pk)
          board.reservation.paymentStatus := status }
        approvals := cs
        approved := d.approved ++ [draft.pk] }
  | sent {ev r} : r ∈ d.requests → r.status = .open →
      Move signer d ev { d with sent := d.sent ++ [⟨linkToken signer r, r.pk⟩] }
  | collected {ev desk} : Move signer d ev { d with folio.desk := desk }

theorem id_steady : Steady id := by
  constructor <;> intro r <;> first | rfl | exact .inl rfl

theorem Move.stay {ev : Event} : Move signer d ev d :=
  .rewritten (f := d.folio) id_steady (List.map_id _).symm (Kept.refl _)

theorem Sound.moved {ev : Event} {d' : Dossier} (h : d.Sound signer) (hm : Move signer d ev d') : d'.Sound signer := by
  cases hm with
  | rewritten hg hr hb => exact h.rewrite hg hr hb
  | @added g f r hg hr hb _ hpk hres henv hs hnew =>
    have h1 := h.rewrite (f := { f with requests := d.requests.map g }) hg rfl (hb ▸ Kept.refl _)
    have hmapped : ∀ {p : PaymentRequest → Prop}, (∀ q ∈ d.requests, p (g q)) → ∀ q ∈ d.requests.map g, p q := by
      intro p hp x hx
      obtain ⟨q, hq, rfl⟩ := List.mem_map.1 hx
      exact hp q hq
    have hpk' : r.pk ∉ (d.requests.map g).map (·.pk) := by rwa [map_pk hg.pk]
    have hkey : r.reservation = f.board.reservation.pk := by
      rw [hb]
      exact hres
    have henv' : r.environment = environmentOf f.board.reservation.isTest := by
      rw [hb]
      exact henv
    cases hnew with
    | issued ho ha hcomp hopen =>
      exact h1.append hr rfl hpk' hkey henv' hs (fun hd => nomatch ho.symm.trans hd) (fun _ => ⟨ha, hmapped hopen⟩)
        (fun _ => h.latest_eq_none hcomp) (fun pk hp => nomatch ha.symm.trans hp)
    | drafted hd ha hdraft =>
      have hnone : r.linkAnchor = none → d.latest = none := fun hn => anchor_none h (ha.symm.trans hn)
      refine h1.append hr rfl hpk' hkey henv' hs (fun _ => hmapped hdraft) (fun ho => nomatch hd.symm.trans ho) hnone ?_
      intro pk hp
      obtain ⟨q, hq, hqp, hqa, hqs⟩ := anchor_some h (ha.symm.trans hp)
      exact ⟨g q, List.mem_map_of_mem hq, (hg.pk q).trans hqp, (hg.linkAnchor q).trans hqa, hg.not_draft hqs⟩
  | going hc => exact h.approvals hc
  | switched hc hmem hs hcomp => exact (h.approvals fun c hcs hst => .inl (hc c hcs hst)).switch hmem hs hcomp
  | sent hmem hs =>
    refine { h with sent := fun l hl => ?_ }
    rcases List.mem_append.1 hl with hl | hl
    · exact h.sent l hl
    · obtain rfl := List.mem_singleton.1 hl
      exact ⟨_, hmem, rfl, rfl, by rw [hs]; nofun, h.opened _ hmem hs⟩
  | collected => exact { h with }

theorem issue_move {s : LinkSettings} {pk : Uuid} {now : Time} (h : d.Sound signer)
    (hok : issueRequest s d.folio pk now = .ok (f, r)) : Move signer d (.issue s pk now) { d with folio := f } := by
  rcases issueRequest_ok hok with rfl | ⟨i, hi, hnew⟩
  · exact .stay
  obtain ⟨henv, hcompleted⟩ := eligible_ok hi
  rcases hnew with ⟨ho, hnew⟩ | ⟨current, ho, hnew⟩
  · obtain ⟨amount, rfl, hpk⟩ := issueNew_ok hnew
    exact .added id_steady (by rw [List.map_id]; rfl) rfl rfl hpk rfl henv rfl (.issued rfl rfl hcompleted (openRequest_none ho))
  · obtain ⟨hcur, hcs⟩ := openRequest_some ho
    obtain ⟨amount, rfl, hpk⟩ := issueNew_ok hnew
    have hg := revoke_steady.at current.pk
    refine .added hg rfl rfl rfl ?_ rfl henv rfl (.issued rfl rfl hcompleted fun q hq => ?_)
    · rwa [← map_pk hg.pk]
    · split
      · nofun
      · rename_i hne
        exact fun hs => hne (h.oneOpen q hq current hcur hs hcs)

theorem prepare_move {s : LinkSettings} {e : Review} {modification pk : Uuid} {now : Time}
    (hok : preparePreview s e d.folio modification pk now = .ok f) :
    Move signer d (.prepare s e modification pk now) { d with folio := f } := by
  obtain ⟨i, m, rfl, hpk, henv⟩ := preparePreview_ok hok
  refine .added dropDraft_steady rfl rfl rfl hpk rfl henv rfl (.drafted rfl rfl fun q _ => ?_)
  unfold dropDraft
  split
  · nofun
  · assumption

theorem switch_move {s : LinkSettings} {e : Review} {i : ℕ} {draft : Uuid} {remote : Bool} {now : Time} (h : d.Sound signer)
    (hi : d.approvals[i]? = some ⟨draft, .confirmed⟩) :
    Move signer d (.switch i s e remote now) (d.step signer (.switch i s e remote now)) := by
  have hset : ∀ c ∈ d.approvals.set i ⟨draft, .done⟩, c.stage = .confirmed → c ∈ d.approvals := by
    intro c hc hs
    rcases List.mem_or_eq_of_mem_set hc with hc | rfl
    · exact hc
    · cases hs
  have hdone : Move signer d (.switch i s e remote now) { d with approvals := d.approvals.set i ⟨draft, .done⟩ } :=
    .going fun c hc hs => .inl (hset c hc hs)
  simp only [Dossier.step, hi]
  split
  · exact hdone
  rename_i r hr
  split
  · exact hdone
  split
  · exact hdone
  rename_i f hf
  rcases switchTargets_ok hf with ⟨ha, rfl⟩ | ⟨ha, hs, intent, rfl⟩
  · rw [if_pos ha]
    exact hdone
  · obtain rfl : r.pk = draft := Table.key_of_get hr
    rw [if_neg (by simp [ha])]
    have hmem : r ∈ d.requests := Table.mem_of_get hr
    obtain ⟨q, hq, hqr, hm⟩ := h.confirmed _ (List.mem_of_getElem? hi) rfl
    obtain rfl : q = r := Table.eq_of_mem_of_key h.keyed hq hmem hqr
    exact .switched hset hmem hs hm

theorem step_move (h : d.Sound signer) (ev : Event) : Move signer d ev (d.step signer ev) := by
  cases ev with
  | issue s pk now =>
    simp only [Dossier.step]
    split
    · exact .stay
    · exact issue_move h (by assumption)
  | prepare s e modification pk now =>
    simp only [Dossier.step]
    split
    · exact .stay
    · exact prepare_move (by assumption)
  | review s e draft now =>
    simp only [Dossier.step]
    split
    · exact .stay
    split
    · refine .going fun c hc hs => ?_
      rcases List.mem_append.1 hc with hc | hc
      · exact .inl hc
      · obtain rfl := List.mem_singleton.1 hc
        exact .inr (by_contra fun hn => by simp [hn] at hs)
    · exact .stay
  | executed i =>
    simp only [Dossier.step]
    split
    · refine .going fun c hc hs => ?_
      rcases List.mem_or_eq_of_mem_set hc with hc | rfl
      · exact .inl hc
      · exact .inr (by_contra fun hn => by simp [hn] at hs)
    · exact .stay
  | switch i s e remote now =>
    cases hi : d.approvals[i]? with
    | none =>
      simp only [Dossier.step, hi]
      exact .stay
    | some c =>
      obtain ⟨draft, stage⟩ := c
      cases stage with
      | confirmed => exact switch_move h hi
      | executing | done =>
        simp only [Dossier.step, hi]
        exact .stay
  | send s request =>
    simp only [Dossier.step]
    split
    · exact .stay
    rename_i r hr
    split
    · exact .stay
    rename_i ho
    obtain rfl : r.pk = request := Table.key_of_get hr
    exact .sent (Table.mem_of_get hr) (notOpen_none (by simpa using ho))
  | pay s attempt now =>
    obtain ⟨g, hg, hr, hb⟩ := completeRequestPayment_spec s d.folio attempt now
    exact .rewritten hg hr hb
  | offlineReceipt => exact .rewritten revokeOpen_steady rfl (Kept.refl _)
  | revokeLink =>
    simp only [Dossier.step, Links.revokeLink]
    split
    · exact .stay
    · rename_i f hf
      split at hf
      · cases hf
        exact .stay
      split at hf
      · cases hf
      · cases hf
        exact .rewritten (revoke_steady.at _) rfl (Kept.refl _)
  | collect desk => exact .collected
  | change board =>
    simp only [Dossier.step]
    split
    · rename_i hk
      exact .rewritten id_steady (List.map_id _).symm (kept_of_keepsCompleted hk)
    · exact .stay

/-- A step keeps the reservation, and the keys of its requests but for the one it creates. -/
theorem Move.rows {ev : Event} {d' : Dossier} (h : Move signer d ev d') :
    d'.key = d.key ∧ ∀ r ∈ d'.requests, r.pk ∈ d.requests.map (·.pk) ∨ ev.creates = some r.pk := by
  have hold : ∀ {g : PaymentRequest → PaymentRequest}, (∀ r, (g r).pk = r.pk) → ∀ q ∈ d.requests.map g,
      q.pk ∈ d.requests.map (·.pk) := by
    intro g hg x hx
    obtain ⟨q, hq, rfl⟩ := List.mem_map.1 hx
    rw [hg]
    exact List.mem_map_of_mem hq
  have hsame : ∀ q ∈ d.requests, q.pk ∈ d.requests.map (·.pk) := fun q hq => List.mem_map_of_mem hq
  cases h with
  | rewritten hg hr hb => exact ⟨hb.pk, fun r hm => .inl (hold hg.pk r (hr ▸ hm))⟩
  | added hg hr hb hc =>
    refine ⟨congrArg (·.reservation.pk) hb, fun q hm => ?_⟩
    change q ∈ Folio.requests _ at hm
    rw [hr] at hm
    rcases List.mem_append.1 hm with hm | hm
    · exact .inl (hold hg.pk q hm)
    · rw [List.mem_singleton.1 hm]
      exact .inr hc
  | going | sent | collected => exact ⟨rfl, fun r hm => .inl (hsame r hm)⟩
  | switched => exact ⟨rfl, fun r hm => .inl (hold (fun q => switched_pk q) r hm)⟩

end Dossier

/-! ### Runs -/

namespace World

structure Sound (signer : Signer) (w : World) : Prop where
  keyed : (w.map Dossier.key).Nodup
  sound : ∀ d ∈ w, d.Sound signer
  apart : ∀ d ∈ w, ∀ d' ∈ w, ∀ r ∈ d.requests, ∀ r' ∈ d'.requests, r.pk = r'.pk → d.key = d'.key

variable {w : World} {d : Dossier}

theorem mem_allRequests : r ∈ w.allRequests ↔ ∃ d ∈ w, r ∈ d.requests := List.mem_flatMap

theorem Sound.step (h : w.Sound signer) (a : Uuid × Event) : (w.step signer a).Sound signer := by
  obtain ⟨k, ev⟩ := a
  unfold World.step
  split
  · exact h
  rename_i hfresh
  have hkey : ∀ d ∈ w, (d.step signer ev).key = d.key := fun d hd => (Dossier.step_move (h.sound d hd) ev).rows.1
  -- a row that is created has a key that no other row has
  have hnew : ∀ pk, ev.creates = some pk → ∀ d ∈ w, ∀ r ∈ d.requests, r.pk ≠ pk := by
    intro pk hpk d hd r hr he
    refine hfresh ?_
    rw [hpk]
    exact List.any_eq_true.2 ⟨r, mem_allRequests.2 ⟨d, hd, hr⟩, by simpa using he⟩
  have hrow : ∀ d' ∈ Table.modify Dossier.key w k fun d => d.step signer ev, ∃ d ∈ w, d.key = d'.key ∧ ∀ r' ∈ d'.requests,
      (∃ r ∈ d.requests, r.pk = r'.pk) ∨ d'.key = k ∧ ev.creates = some r'.pk := by
    intro d' hd'
    obtain ⟨d, hd, rfl⟩ := Table.mem_modify.1 hd'
    refine ⟨d, hd, ?_⟩
    split
    · rename_i hk
      refine ⟨(hkey d hd).symm, fun r' hr' => ?_⟩
      rcases (Dossier.step_move (h.sound d hd) ev).rows.2 r' hr' with hold | hc
      · obtain ⟨r, hr, he⟩ := List.mem_map.1 hold
        exact .inl ⟨r, hr, he⟩
      · exact .inr ⟨(hkey d hd).trans hk, hc⟩
    · exact ⟨rfl, fun r' hr' => .inl ⟨r', hr', rfl⟩⟩
  constructor
  · have hmap : (Table.modify Dossier.key w k fun d => d.step signer ev).map Dossier.key = w.map Dossier.key := by
      rw [Table.modify, List.map_map]
      refine List.map_congr_left fun d hd => ?_
      dsimp only [Function.comp_apply]
      split
      · exact hkey d hd
      · rfl
    rw [hmap]
    exact h.keyed
  · intro d' hd'
    obtain ⟨d, hd, rfl⟩ := Table.mem_modify.1 hd'
    split
    · exact (h.sound d hd).moved (Dossier.step_move (h.sound d hd) ev)
    · exact h.sound d hd
  · intro d1 hd1 d2 hd2 r1 hr1 r2 hr2 he
    obtain ⟨e1, he1, hk1, hrow1⟩ := hrow d1 hd1
    obtain ⟨e2, he2, hk2, hrow2⟩ := hrow d2 hd2
    rcases hrow1 r1 hr1 with ⟨q1, hq1, hp1⟩ | ⟨hk, hc⟩ <;> rcases hrow2 r2 hr2 with ⟨q2, hq2, hp2⟩ | ⟨hk', hc'⟩
    · rw [← hk1, ← hk2]
      exact h.apart e1 he1 e2 he2 q1 hq1 q2 hq2 (hp1.trans (he.trans hp2.symm))
    · exact absurd (hp1.trans he) (hnew _ hc' e1 he1 q1 hq1)
    · exact absurd (hp2.trans he.symm) (hnew _ hc e2 he2 q2 hq2)
    · rw [hk, hk']

/-- A request is read by its key. -/
theorem Sound.request (h : w.Sound signer) (hd : d ∈ w) (hr : r ∈ d.requests) : w.request r.pk = some r := by
  cases hg : w.request r.pk with
  | none => exact absurd rfl (Table.get_eq_none.1 hg r (mem_allRequests.2 ⟨d, hd, hr⟩))
  | some q =>
    obtain ⟨d', hd', hq⟩ := mem_allRequests.1 (Table.mem_of_get hg)
    have hpk : q.pk = r.pk := Table.key_of_get hg
    obtain rfl : d' = d := Table.eq_of_mem_of_key h.keyed hd' hd (h.apart d' hd' d hd q hq r hr hpk)
    rw [Table.eq_of_mem_of_key (h.sound d' hd').keyed hq hr hpk]

/-- A request that points nowhere is where the walk ends. -/
theorem follow_none {hops : ℕ} {visited : List Uuid} (h : r.supersededBy = none) : w.follow hops visited r = some r := by
  unfold follow
  rw [h]

/-- From a request without an anchor that is no draft the walk ends at the latest approval, or stays without one. -/
theorem Sound.follow (h : w.Sound signer) (hd : d ∈ w) (hr : r ∈ d.requests) (ha : r.linkAnchor = none)
    (hs : r.status ≠ .draft) : ∃ q ∈ d.requests, w.follow 20 [] r = some q ∧ q.status ≠ .draft ∧ q.pk = d.latest.getD r.pk := by
  have hsound := h.sound d hd
  cases hl : d.latest with
  | none =>
    have hn : r.supersededBy = none := by
      rcases hsound.hops r hr with hn | hn
      · exact hn
      · rw [hn, hl]
    exact ⟨r, hr, follow_none hn, hs, rfl⟩
  | some pk =>
    obtain ⟨q, hq, rfl, happ, hqs, hqn⟩ := hsound.latest pk hl
    refine ⟨q, hq, ?_, hqs, rfl⟩
    rcases (hsound.follows r hr ha (by rw [hl]; nofun)).2 with hself | hnext
    · rw [hl] at hself
      obtain rfl : q = r := Table.eq_of_mem_of_key hsound.keyed hq hr (Option.some.inj hself)
      exact follow_none hqn
    · rw [hl] at hnext
      have hbr := hsound.belongs r hr
      have hbq := hsound.belongs q hq
      have hnot : ¬ (q.reservation ≠ r.reservation ∨ q.environment ≠ r.environment ∨ q.approvedAt = none) := by
        rintro (hne | hne | hne)
        · exact hne (hbq.1.trans hbr.1.symm)
        · exact hne (hbq.2.trans hbr.2.symm)
        · rw [hne] at happ
          cases happ
      unfold World.follow
      simp only [hnext, List.not_mem_nil, if_false, h.request hd hq, if_neg hnot]
      exact follow_none hqn

theorem Fresh.sound (h : w.Fresh) : w.Sound signer := by
  refine ⟨h.keyed, fun d hd => ?_, fun d hd d' _ r hr => ?_⟩
  · obtain ⟨hr, ha, hs, hp⟩ := h.empty d hd
    have hl : d.latest = none := by rw [Dossier.latest, hp]; rfl
    constructor <;> simp [hr, ha, hs, hl]
  · rw [(h.empty d hd).1] at hr
    cases hr

end World

/-- In every run at most one request of a reservation is open, and every link that was sent leads to the revision of its
reservation that was approved last, or to the request it was sent for while none was approved. -/
theorem links_follow_the_balance {w : World} (h : w.Fresh) (as : List (Uuid × Event)) :
    ∀ d ∈ Machine.run (World.step signer) w as,
      (d.requests.filter (·.status == .open)).length ≤ 1 ∧
      ∀ l ∈ d.sent, ∃ r, (Machine.run (World.step signer) w as).resolveToken signer l.token = some r ∧
        r.pk = d.latest.getD l.request ∧ r.status ≠ .draft ∧ r.reservation = d.key ∧
        r.environment = environmentOf d.folio.reservation.isTest := by
  intro d hd
  have hw : World.Sound signer (Machine.run (World.step signer) w as) :=
    Machine.run_inv (I := World.Sound signer) (fun _ a h => h.step a) h.sound as
  have hsound := hw.sound d hd
  constructor
  · exact length_filter_le_one hsound.keyed fun r hr q hq hs hqs =>
      hsound.oneOpen r hr q hq (by simpa using hs) (by simpa using hqs)
  · intro l hl
    obtain ⟨r, hr, hpk, ht, hs, hanchor⟩ := hsound.sent l hl
    -- the request that the token names
    obtain ⟨q, hq, hqr, hqa, hqs, hname⟩ : ∃ q ∈ d.requests, r.linkAnchor.getD r.pk = q.pk ∧ q.linkAnchor = none ∧
        q.status ≠ .draft ∧ d.latest.getD q.pk = d.latest.getD l.request := by
      cases ha : r.linkAnchor with
      | none => exact ⟨r, hr, rfl, ha, hs, by rw [hpk]⟩
      | some pk =>
        obtain ⟨q, hq, rfl, hqa, hqs⟩ := hsound.anchored r hr pk ha
        refine ⟨q, hq, rfl, hqa, hqs, ?_⟩
        obtain ⟨x, hx⟩ := Option.ne_none_iff_exists'.1 (hanchor.resolve_left (by rw [ha]; nofun))
        rw [hx]
        rfl
    obtain ⟨x, hx, hfollow, hxs, hxp⟩ := hw.follow hd hq hqa hqs
    refine ⟨x, ?_, hxp.trans hname, hxs, (hsound.belongs x hx).1, (hsound.belongs x hx).2⟩
    rw [World.resolveToken, ht, linkToken, signer.unsign_sign, hqr]
    exact (congrArg (Option.bind · _) (hw.request hd hq)).trans hfollow

/-! ### A stay that is extended before it is paid -/

def reservationPk : Uuid := ⟨"8b3f7c1a-1f60-4f0e-9a51-0d5d7c2f1c01", rfl⟩

def intentPk : Uuid := ⟨"8b3f7c1a-1f60-4f0e-9a51-0d5d7c2f1c02", rfl⟩

def originalPk : Uuid := ⟨"8b3f7c1a-1f60-4f0e-9a51-0d5d7c2f1c03", rfl⟩

def revisionPk : Uuid := ⟨"8b3f7c1a-1f60-4f0e-9a51-0d5d7c2f1c04", rfl⟩

def extensionPk : Uuid := ⟨"8b3f7c1a-1f60-4f0e-9a51-0d5d7c2f1c05", rfl⟩

def live : LinkSettings := ⟨true, true, .production⟩

def riyals (amount : Dec) : FxSnapshot := ⟨"SAR", some amount, some amount, "SAR", some amount⟩

def booked : Reservation where
  pk := reservationPk
  isTest := false
  bookingIntent := some intentPk
  property := some ⟨1, some 40160, some 40161⟩
  hostawayReservationId := some 77001
  hostawayListingMapId := some 40161
  channelId := some 2000
  sourceType := .directWebsite
  normalizedStatus := .confirmed
  hostawayStatus := "new"
  paymentStatus := "unpaid"
  checkIn := 100
  checkOut := 103
  guests := 2
  currency := "SAR"
  totalPrice := 900
  sourceUpdatedAt := none
  lastSyncedAt := some 1
  confirmedAt := some 1
  cancelledAt := none
  pointsConfirmationStarted := false
  hold := false

def bookedIntent : BookingIntent :=
  ⟨intentPk, 900, "SAR", some 1, 100, 103, 2, some 900, riyals 900, "guest@example.com", "+966500000000", "Noura", "A", "ar"⟩

/-- One more night, at the owner's total. -/
def extension (status : Hostaway.RequestStatus) : ModificationRequest where
  pk := extensionPk
  requestType := .extendStay
  status := status
  oldCheckIn := 100
  oldCheckOut := 103
  newCheckIn := some 100
  newCheckOut := some 104
  oldGuests := 2
  newGuests := some 2
  oldTotal := 900
  newTotal := some 1200
  priceDifference := 300
  paymentAmountSar := none
  currency := "SAR"
  ownerFinalTotal := some 1200
  idempotencyKey := ""
  requestedAt := 10
  expiresAt := 1000
  approvedAt := none
  completedAt := none
  operation := none

def unpaidStay : Dossier := ⟨⟨⟨booked, []⟩, some bookedIntent, ⟨some intentPk, none, [], []⟩, "", []⟩, [], [], []⟩

def extendedStay : Board := ⟨{ booked with checkOut := 104, totalPrice := 1200, normalizedStatus := .modified }, [extension .completed]⟩

def reviewAt (now : Time) (paid due : Dec) : Review :=
  ⟨⟨now, true, true, true, true, true, "production", "", "", none, none, none, "ready", .refused "", []⟩,
    paid, due, due, riyals due, 500⟩

/-- The link of the booking is sent, the extension is reviewed, carried out and approved. -/
def extensionRun : List (Uuid × Event) :=
  [.issue live originalPk 5, .send live originalPk, .change ⟨booked, [extension .readyForHostaway]⟩,
   .prepare live (reviewAt 20 0 1200) extensionPk revisionPk 20, .review live (reviewAt 21 0 1200) revisionPk 21,
   .change extendedStay, .executed 0, .switch 0 live (reviewAt 30 0 1200) true 30].map fun ev => (reservationPk, ev)

def plainSigner : Signer where
  sign pk := pk.str
  unsign s := if h : (!s.toList.isEmpty && s.toList.all isUuidChar) = true then some ⟨s, h⟩ else none
  unsign_sign pk := dif_pos pk.canonical

theorem links_follow_the_balance_extended :
    ∃ r, (Machine.run (World.step plainSigner) [unpaidStay] extensionRun).resolveToken plainSigner originalPk.str = some r ∧
      r.pk = revisionPk := by
  have hfresh : World.Fresh [unpaidStay] := ⟨by simp, by simp [unpaidStay, Dossier.requests]⟩
  obtain ⟨d, hd, hsent, hlatest⟩ : ∃ d ∈ Machine.run (World.step plainSigner) [unpaidStay] extensionRun,
      (⟨originalPk.str, originalPk⟩ : SentLink) ∈ d.sent ∧ d.latest = some revisionPk := by
    decide +kernel
  obtain ⟨-, hlinks⟩ := @links_follow_the_balance plainSigner _ hfresh extensionRun d hd
  obtain ⟨r, hr, hpk, -⟩ := hlinks _ hsent
  exact ⟨r, hr, by rw [hpk, hlatest]; rfl⟩

end Apartments.Links
