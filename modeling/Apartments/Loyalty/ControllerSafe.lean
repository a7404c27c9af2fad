import Apartments.Loyalty.Controller
import Apartments.Loyalty.InvitedOnce
import Mathlib.Data.List.Pairwise
import Mathlib.Tactic.SplitIfs

/-!
# The runs of the invitation controller

A message is handed to the provider only by a run that has heard of a permit for its own invitation, and the registry hands
out no second permit for a booking or a guest. A run that is done after its message has heard that it was delivered. What a
single run does on one answer is read off first; the rest is an invariant of the runs together with the registry.
-/

namespace Apartments.Controller

open Machine
open Invitations (JoinInvitation Keeps Same Shares Clear)

/-! ### A run on its own -/

section
variable {parseDate : Json → Option ℕ} {s : Run} {r : Response} {now : ℕ} {post : Post}

/-- What the answer to a preflight says that lets a message be handed over. -/
structure Permits (s : Run) (r : Response) : Prop where
  fine : r.fine = true
  allowed : r.field "send_allowed" = .bool true
  reference : r.field "provider_reference" = s.claim.referenceId
  recipient : normalizePhone (r.field "recipient_phone") = some s.candidate.phone

theorem Json.eq_of_same {v w : Json} (h : v.same w = true) : v = w := by
  cases v with
  | other shown => cases h
  | undefined | null | bool | number | text => exact beq_iff_eq.1 h

theorem permits_of_preflight {claim : Claim} (h : preflight parseDate s.candidate s.claim r now = .go claim) :
    Permits s r := by
  unfold preflight at h
  split at h
  · cases h
  · rename_i hfine
    split at h
    · cases h
    · rename_i hallowed
      split at h
      · cases h
      · rename_i hown
        simp only [not_or, not_not] at hallowed hown
        exact ⟨by simpa using hfine, hallowed.1, Json.eq_of_same (by simpa using hown.2.1), hown.2.2.1⟩

/-- The state in which a run waits for its permit. -/
def Run.asking (s : Run) : Prop := ∃ invitationId ticket phone, s.act = .preflight invitationId ticket phone

/-- The run has no permit yet. -/
def Run.early (s : Run) : Prop := (∃ request, s.act = .claim request) ∨ s.asking

/-- A run hands its one message over. -/
structure Sends (s : Run) (r : Response) (now : ℕ) (s' : Run) : Prop where
  asking : s.asking
  permits : Permits s r
  unsent : s.posts = 0
  posts : s'.posts = 1
  act : s'.act = .send s.post
  deadline : s'.deadline = some (now + 300000)
  evidence : s'.evidence = s.evidence

theorem Sends.handed {s' : Run} (h : Sends s r now s') : handed s' = some s.post := by
  unfold Controller.handed
  rw [h.act]

variable (parseDate) in
/-- What a run does with an answer: it hands over its message, or it goes on with what it has handed over. -/
theorem receive_cases (s : Run) (r : Response) (now : ℕ) :
    Sends s r now (s.receive parseDate r now) ∨
    ((s.receive parseDate r now).posts = s.posts ∧ handed (s.receive parseDate r now) = none) := by
  unfold Run.receive
  split
  case h_1 =>
    refine .inr ?_
    unfold Run.receiveClaim
    split
    · exact ⟨rfl, rfl⟩
    · split <;> exact ⟨rfl, rfl⟩
  case h_2 invitationId ticket phone hact =>
    unfold Run.receivePreflight
    split
    case h_3 claim hgo =>
      split
      · exact .inr ⟨rfl, rfl⟩
      · rename_i hposts
        exact .inl ⟨⟨invitationId, ticket, phone, hact⟩, permits_of_preflight hgo, not_not.1 hposts, rfl, rfl, rfl, rfl⟩
    all_goals exact .inr ⟨rfl, rfl⟩
  case h_3 => exact .inr ⟨rfl, rfl⟩
  case h_4 => exact .inr ⟨rfl, rfl⟩
  case h_5 =>
    refine .inr ?_
    unfold Run.receiveRecord
    split
    · exact ⟨rfl, rfl⟩
    · split
      · split <;> exact ⟨rfl, rfl⟩
      · exact ⟨rfl, rfl⟩
  case h_6 => exact .inr ⟨rfl, rfl⟩
  case h_7 =>
    refine .inr ?_
    unfold Run.receiveStatus
    split <;> exact ⟨rfl, rfl⟩
  all_goals exact .inr ⟨rfl, rfl⟩

theorem receive_own (s : Run) (r : Response) (now : ℕ) :
    (s.receive parseDate r now).candidate = s.candidate ∧ (s.receive parseDate r now).packet = s.packet := by
  unfold Run.receive
  split
  case h_1 =>
    unfold Run.receiveClaim
    split
    · exact ⟨rfl, rfl⟩
    · split <;> exact ⟨rfl, rfl⟩
  case h_2 =>
    unfold Run.receivePreflight
    split
    case h_3 => split <;> exact ⟨rfl, rfl⟩
    all_goals exact ⟨rfl, rfl⟩
  case h_5 =>
    unfold Run.receiveRecord
    split
    · exact ⟨rfl, rfl⟩
    · split
      · split <;> exact ⟨rfl, rfl⟩
      · exact ⟨rfl, rfl⟩
  case h_7 =>
    unfold Run.receiveStatus
    split <;> exact ⟨rfl, rfl⟩
  all_goals exact ⟨rfl, rfl⟩

/-! ### What a run has heard -/

/-- The answer says that the message of the run was delivered: it is the website's, or it has a row of the provider. -/
def Confirms (s : Run) (r : Response) : Prop :=
  s.confirmed r = true ∨ ∃ row ∈ r.messages, names s.claim.referenceId s.candidate.phone row = true ∧
    ack row ∈ ["read", "played", "device"]

/-- A run reports a delivery only after it has heard of it. -/
structure Informed (s : Run) (heard : List Response) : Prop where
  early : s.early → s.posts = 0 ∧ s.evidence = none
  evidence : s.evidence.any Evidence.delivered = true → ∃ r ∈ heard, Confirms s r
  done : s.act = .done → s.posts = 0 ∨ ∃ r ∈ heard, Confirms s r

theorem not_delivered_sendEvidence (r : Response) : (sendEvidence r).delivered = false := by
  unfold sendEvidence
  dsimp only
  split_ifs <;> rfl

/-- A receipt that says delivered has a row about the message. -/
theorem receipt_names {providerId phone : String} {referenceId : Json}
    (h : (receiptEvidence r providerId referenceId phone).delivered = true) :
    ∃ row ∈ r.messages, names referenceId phone row = true ∧ ack row ∈ ["read", "played", "device"] := by
  unfold receiptEvidence at h
  split at h
  · cases h
  · split at h
    case h_2 => cases h
    case h_1 row hrows =>
      obtain ⟨hrow, hnames⟩ := List.mem_filter.1 (hrows ▸ List.mem_singleton_self row)
      rw [Bool.and_eq_true] at hnames
      refine ⟨row, hrow, hnames.2, ?_⟩
      split at h
      · cases h
      · split at h
        · rename_i hack
          simp only [List.mem_cons, List.not_mem_nil, or_false] at hack ⊢
          exact hack.elim .inl fun hplayed => .inr (.inl hplayed)
        · split at h
          · rename_i hack
            simp [hack]
          · cases h

variable {heard : List Response}

theorem Confirms.congr {s' : Run} (h : Confirms s r) (hclaim : s'.claim = s.claim)
    (hcandidate : s'.candidate = s.candidate) : Confirms s' r := by
  unfold Confirms Run.confirmed at *
  rwa [hclaim, hcandidate]

/-- What was heard stays heard. -/
theorem Informed.kept (h : Informed s heard) {s' : Run} (hclaim : s'.claim = s.claim)
    (hcandidate : s'.candidate = s.candidate) (hevidence : s'.evidence = s.evidence)
    (hact : ¬ s'.early)
    (hdone : s'.act = .done → s'.posts = 0 ∨ s.evidence.any Evidence.delivered = true) : Informed s' (heard ++ [r]) := by
  have hheard : s.evidence.any Evidence.delivered = true → ∃ x ∈ heard ++ [r], Confirms s' x := by
    intro hd
    obtain ⟨x, hx, hconfirms⟩ := h.evidence hd
    exact ⟨x, List.mem_append_left _ hx, hconfirms.congr hclaim hcandidate⟩
  exact ⟨fun hearly => absurd hearly hact, fun hd => hheard (hevidence ▸ hd), fun hd => (hdone hd).imp id hheard⟩

/-- Nothing was heard yet, and nothing was handed over. -/
theorem informed_early {s' : Run} (hposts : s'.posts = 0) (hevidence : s'.evidence = none) : Informed s' heard where
  early _ := ⟨hposts, hevidence⟩
  evidence hd := by
    rw [hevidence] at hd
    cases hd
  done _ := .inl hposts

theorem Run.not_early {s' : Run} (hact : ∀ request, s'.act ≠ .claim request)
    (hasking : ∀ invitationId ticket phone, s'.act ≠ .preflight invitationId ticket phone) : ¬ s'.early := by
  rintro (⟨request, h⟩ | ⟨invitationId, ticket, phone, h⟩)
  · exact hact request h
  · exact hasking invitationId ticket phone h

theorem informed_receiveEvidence {evidence : Evidence} (hevidence : evidence.delivered = true → Confirms s r) :
    Informed (s.receiveEvidence evidence now) (heard ++ [r]) where
  early hearly := by
    rcases hearly with ⟨request, hact⟩ | ⟨invitationId, ticket, phone, hact⟩ <;> cases hact
  evidence hd := ⟨r, List.mem_append_right _ (List.mem_singleton_self r), (hevidence hd).congr rfl rfl⟩
  done hact := by cases hact

theorem Informed.receive (h : Informed s heard) : Informed (s.receive parseDate r now) (heard ++ [r]) := by
  have hnot : ∀ {s' : Run}, (∀ request, s'.act ≠ .claim request) →
      (∀ invitationId ticket phone, s'.act ≠ .preflight invitationId ticket phone) → _ := @Run.not_early
  unfold Run.receive
  split
  case h_1 request hact =>
    obtain ⟨hposts, hevidence⟩ := h.early (.inl ⟨request, hact⟩)
    unfold Run.receiveClaim
    split
    · exact informed_early hposts hevidence
    · split <;> exact informed_early hposts hevidence
  case h_2 invitationId ticket phone hact =>
    obtain ⟨hposts, hevidence⟩ := h.early (.inr ⟨invitationId, ticket, phone, hact⟩)
    unfold Run.receivePreflight
    split
    case h_3 =>
      split
      · exact informed_early hposts hevidence
      · exact h.kept rfl rfl rfl (hnot (by simp [Run.next]) (by simp [Run.next])) (by simp [Run.next])
    all_goals exact informed_early hposts hevidence
  case h_3 =>
    refine informed_receiveEvidence fun hd => ?_
    rw [not_delivered_sendEvidence] at hd
    cases hd
  case h_4 => exact informed_receiveEvidence fun hd => .inr (receipt_names hd)
  case h_5 =>
    unfold Run.receiveRecord
    split
    · exact h.kept rfl rfl rfl (hnot (by simp [Run.askStatus, Run.next]) (by simp [Run.askStatus, Run.next]))
        (by simp [Run.askStatus, Run.next])
    · split
      · split
        · rename_i hdelivered
          exact h.kept rfl rfl rfl (hnot (by simp [Run.next]) (by simp [Run.next])) fun _ => .inr hdelivered
        · exact h.kept rfl rfl rfl (hnot (by simp [Run.attention]) (by simp [Run.attention])) (by simp [Run.attention])
      · exact h.kept rfl rfl rfl (hnot (by simp [Run.next]) (by simp [Run.next])) (by simp [Run.next])
  case h_6 => exact h.kept rfl rfl rfl (hnot (by simp [Run.next]) (by simp [Run.next])) (by simp [Run.next])
  case h_7 =>
    unfold Run.receiveStatus
    split
    · rename_i hconfirmed
      have hr : r ∈ heard ++ [r] := List.mem_append_right _ (List.mem_singleton_self r)
      have hconfirms : Confirms s r := .inl hconfirmed
      refine ⟨fun hearly => ?_, fun _ => ⟨r, hr, hconfirms.congr rfl rfl⟩, fun _ => .inr ⟨r, hr, hconfirms.congr rfl rfl⟩⟩
      rcases hearly with ⟨request, hact⟩ | ⟨invitationId, ticket, phone, hact⟩ <;> cases hact
    · exact h.kept rfl rfl rfl (hnot (by simp [Run.attention]) (by simp [Run.attention])) (by simp [Run.attention])
  all_goals exact h.kept rfl rfl rfl (hnot (by simp [Run.attention]) (by simp [Run.attention])) (by simp [Run.attention])

/-! ### The end of a run -/

/-- The answers that a run may still need. -/
def Run.remaining (s : Run) : ℕ :=
  match s.act with
  | .done | .attention => 0
  | .status _ => 1
  | .record .. => if s.finished = true then 2 else 5
  | .send _ | .receipt .. => 3
  | .wait => 4
  | .claim _ | .preflight .. => 0

/-- A run whose time runs out at `d`. -/
structure Due (d : ℕ) (s : Run) : Prop where
  deadline : s.deadline = some d
  late : ¬ s.early

variable {d : ℕ}

theorem Due.of_act (h : Due d s) {s' : Run} (hdeadline : s'.deadline = s.deadline)
    (hact : ∀ request, s'.act ≠ .claim request)
    (hasking : ∀ invitationId ticket phone, s'.act ≠ .preflight invitationId ticket phone) : Due d s' :=
  ⟨hdeadline.trans h.deadline, Run.not_early hact hasking⟩

/-- What is said of the message after its time has run out is the last that is reported. -/
theorem Due.receiveEvidence (h : Due d s) (now : ℕ) (evidence : Evidence) : Due d (s.receiveEvidence evidence now) ∧
    (d ≤ now → (s.receiveEvidence evidence now).remaining = 2) := by
  refine ⟨h.of_act rfl (by simp [Run.receiveEvidence]) (by simp [Run.receiveEvidence]), fun hnow => ?_⟩
  have htimed : s.timedOut now = true := by
    unfold Run.timedOut
    rw [h.deadline]
    simpa using hnow
  simp [Run.receiveEvidence, Run.remaining, htimed]

/-- Every answer after the deadline brings a run nearer to its end. -/
theorem Due.receive (h : Due d s) (r : Response) (now : ℕ) : Due d (s.receive parseDate r now) ∧
    (d ≤ now → (s.receive parseDate r now).remaining ≤ s.remaining - 1) := by
  unfold Run.receive
  split
  case h_1 request hact => exact absurd (.inl ⟨request, hact⟩) h.late
  case h_2 invitationId ticket phone hact => exact absurd (.inr ⟨invitationId, ticket, phone, hact⟩) h.late
  case h_3 post hact =>
    obtain ⟨hdue, hremaining⟩ := h.receiveEvidence now (sendEvidence r)
    refine ⟨hdue, fun hnow => ?_⟩
    rw [hremaining hnow]
    simp [Run.remaining, hact]
  case h_4 id referenceId hact =>
    obtain ⟨hdue, hremaining⟩ :=
      h.receiveEvidence now (receiptEvidence r s.providerId s.claim.referenceId s.candidate.phone)
    refine ⟨hdue, fun hnow => ?_⟩
    rw [hremaining hnow]
    simp [Run.remaining, hact]
  case h_5 invitationId reference providerId status hact =>
    have hrest : 2 ≤ s.remaining := by
      unfold Run.remaining
      rw [hact]
      dsimp only
      split <;> omega
    unfold Run.receiveRecord
    split
    · refine ⟨h.of_act rfl (by simp [Run.askStatus, Run.next]) (by simp [Run.askStatus, Run.next]), fun _ => ?_⟩
      show 1 ≤ _
      omega
    · split
      · split
        · exact ⟨h.of_act rfl (by simp [Run.next]) (by simp [Run.next]), fun _ => Nat.zero_le _⟩
        · exact ⟨h.of_act rfl (by simp [Run.attention]) (by simp [Run.attention]), fun _ => Nat.zero_le _⟩
      · rename_i hfinished
        refine ⟨h.of_act rfl (by simp [Run.next]) (by simp [Run.next]), fun _ => ?_⟩
        simp [Run.remaining, hact, hfinished, Run.next]
  case h_6 hact =>
    refine ⟨h.of_act rfl (by simp [Run.next]) (by simp [Run.next]), fun _ => ?_⟩
    simp [Run.remaining, hact, Run.next]
  case h_7 =>
    unfold Run.receiveStatus
    split
    · exact ⟨h.of_act rfl (by simp) (by simp), fun _ => Nat.zero_le _⟩
    · exact ⟨h.of_act rfl (by simp [Run.attention]) (by simp [Run.attention]), fun _ => Nat.zero_le _⟩
  all_goals exact ⟨h.of_act rfl (by simp [Run.attention]) (by simp [Run.attention]), fun _ => Nat.zero_le _⟩

/-- A run after these answers, heard at these times. -/
def Run.after (parseDate : Json → Option ℕ) (s : Run) (answers : List (Response × ℕ)) : Run :=
  run (fun s a => s.receive parseDate a.1 a.2) s answers

theorem Run.after_cons (s : Run) (a : Response × ℕ) (answers : List (Response × ℕ)) :
    s.after parseDate (a :: answers) = (s.receive parseDate a.1 a.2).after parseDate answers := run_cons

theorem Run.after_append (s : Run) (answers late : List (Response × ℕ)) :
    s.after parseDate (answers ++ late) = (s.after parseDate answers).after parseDate late := run_append

variable (parseDate) in
theorem Due.after (h : Due d s) (answers : List (Response × ℕ)) : Due d (s.after parseDate answers) :=
  run_inv (I := Due d) (fun _ a hs => (hs.receive a.1 a.2).1) h answers

variable (parseDate) in
theorem Due.remaining_after (h : Due d s) {answers : List (Response × ℕ)} (hlate : ∀ a ∈ answers, d ≤ a.2) :
    (s.after parseDate answers).remaining ≤ s.remaining - answers.length := by
  induction answers generalizing s with
  | nil => exact Nat.le_refl _
  | cons a answers ih =>
    have hnext : Due d (s.receive parseDate a.1 a.2) ∧ _ := h.receive a.1 a.2
    have hfirst := hnext.2 (hlate a List.mem_cons_self)
    have hrest := ih hnext.1 fun b hb => hlate b (List.mem_cons_of_mem a hb)
    rw [Run.after_cons, List.length_cons]
    omega

variable (parseDate) in
theorem Informed.after (h : Informed s heard) (answers : List (Response × ℕ)) :
    Informed (s.after parseDate answers) (heard ++ answers.map Prod.fst) := by
  induction answers generalizing s heard with
  | nil => rwa [List.map_nil, List.append_nil]
  | cons a answers ih =>
    have hnext := ih (s := s.receive parseDate a.1 a.2) h.receive
    rwa [List.append_assoc] at hnext

variable (parseDate) in
/-- A run hands no second message over. -/
theorem posts_after (hposts : s.posts = 1) (answers : List (Response × ℕ)) : (s.after parseDate answers).posts = 1 :=
  run_inv (I := fun s : Run => s.posts = 1)
    (fun s a hs => (receive_cases parseDate s a.1 a.2).elim Sends.posts fun hsame => hsame.1.trans hs) hposts answers

theorem informed_start {candidate : Candidate} {packet : Packet} {run : Run} (h : start candidate packet = some run) :
    Informed run [] := by
  unfold start at h
  split at h
  · cases h
  · obtain ⟨phone, -, rfl⟩ := Option.map_eq_some_iff.1 h
    exact informed_early rfl rfl

theorem Sends.due {s' : Run} (h : Sends s r now s') : Due (now + 300000) s' where
  deadline := h.deadline
  late := Run.not_early (by simp [h.act]) (by simp [h.act])

theorem Sends.not_early {s' : Run} (h : Sends s r now s') : ¬ s'.early := h.due.late

/-- A run that hands its message over has heard nothing of it. -/
theorem Sends.informed {s' : Run} (h : Sends s r now s') (hs : Informed s heard) : Informed s' [] where
  early hearly := absurd hearly h.not_early
  evidence hd := by
    rw [h.evidence, (hs.early (.inr h.asking)).2] at hd
    cases hd
  done hact := by
    rw [h.act] at hact
    cases hact

theorem ended_of_remaining (h : s.remaining = 0) (hearly : ¬ s.early) : s.act = .attention ∨ s.act = .done := by
  unfold Run.remaining at h
  cases hact : s.act with
  | done => exact .inr rfl
  | attention => exact .inl rfl
  | claim request => exact absurd (.inl ⟨request, hact⟩) hearly
  | preflight invitationId ticket phone => exact absurd (.inr ⟨invitationId, ticket, phone, hact⟩) hearly
  | record =>
    rw [hact] at h
    dsimp only at h
    split at h <;> omega
  | send | wait | receipt | status =>
    rw [hact] at h
    cases h

theorem remaining_le (s : Run) : s.remaining ≤ 5 := by
  unfold Run.remaining
  split
  case h_4 => split <;> omega
  all_goals omega

/-- Whatever a run hears after its message was handed over, the fifth answer that comes when five minutes are over ends it; it
is done only if it has heard that the message was delivered. -/
theorem message_ends {candidate : Candidate} {packet : Packet} (hstart : start candidate packet = some s)
    (before within late : List (Response × ℕ)) (hpost : handed (s.after parseDate (before ++ [(r, now)])) ≠ none)
    (hlate : ∀ a ∈ late, now + 300000 ≤ a.2) (hlength : 5 ≤ late.length) {s' : Run}
    (hs' : s.after parseDate (before ++ (r, now) :: within ++ late) = s') :
    s'.act = .attention ∨ s'.act = .done ∧ ∃ a ∈ within ++ late, Confirms s' a.1 := by
  rw [Run.after_append] at hpost
  rw [List.append_assoc, List.cons_append, Run.after_append, Run.after_cons] at hs'
  rcases receive_cases parseDate (s.after parseDate before) r now with hsends | ⟨-, hnone⟩
  · have hinformed := hsends.informed ((informed_start hstart).after parseDate before)
    have hend : Due (now + 300000) s' := hs' ▸ hsends.due.after parseDate (within ++ late)
    have hposts : s'.posts = 1 := hs' ▸ posts_after parseDate hsends.posts (within ++ late)
    have hheard : Informed s' _ := hs' ▸ hinformed.after parseDate (within ++ late)
    have hzero : s'.remaining = 0 := by
      have hremaining := (hsends.due.after parseDate within).remaining_after parseDate hlate
      rw [← Run.after_append, hs'] at hremaining
      have hle := remaining_le (Run.after parseDate ((s.after parseDate before).receive parseDate r now) within)
      omega
    refine (ended_of_remaining hzero hend.late).imp_right fun hdone => ⟨hdone, ?_⟩
    rcases hheard.done hdone with hnone | ⟨x, hx, hconfirms⟩
    · omega
    · obtain ⟨a, ha, rfl⟩ := List.mem_map.1 hx
      exact ⟨a, ha, hconfirms⟩
  · exact absurd hnone hpost

end

/-! ### The runs together -/

section
variable {site : Site} {sys sys' : System} {i : ℕ} {p : Process} {r : Response} {now : ℕ} {pk : Uuid}

/-- Two rows for different bookings and guests. -/
def Apart (r s : JoinInvitation) : Prop := r.pk ≠ s.pk ∧ r.reservationKey ≠ s.reservationKey ∧ ¬ Shares r s

theorem Apart.symm {r s : JoinInvitation} (h : Apart r s) : Apart s r :=
  ⟨h.1.symm, h.2.1.symm, fun hshares => h.2.2 hshares.symm⟩

/-- The row of a permit that was handed to the `i`-th run. -/
structure Grant (sys : System) (i : ℕ) (row : JoinInvitation) : Prop where
  permit : (i, row.pk) ∈ sys.permits
  mem : row ∈ sys.registry.rows
  dispatched : row.dispatchedAt ≠ none

/-- There is a permit of the run for this reference and this phone. -/
def Granted (sys : System) (i : ℕ) (reference : Json) (phone : String) : Prop :=
  ∃ row, Grant sys i row ∧ reference = .text (providerReference row.pk) ∧ row.phone = phone

/-- The message is that of the run, for the phone of its permit. -/
structure Handed (sys : System) (x : ℕ × Post) (p : Process) : Prop where
  posts : p.run.posts ≠ 0
  recipient : x.2.recipient = p.run.candidate.phone
  packet : x.2.caption = p.run.packet.caption ∧ x.2.image = p.run.packet.imageBase64
  granted : ∃ phone, Granted sys x.1 x.2.referenceId phone ∧ normalizePhone (.text phone) = some x.2.recipient

structure Safe (site : Site) (sys : System) : Prop where
  sound : Invitations.Sound site.hashes sys.registry
  permits : ∀ x ∈ sys.permits, ∃ row ∈ sys.registry.rows, row.pk = x.2 ∧ row.dispatchedAt ≠ none
  apart : sys.permits.Pairwise fun x y => ∀ r ∈ sys.registry.rows, ∀ s ∈ sys.registry.rows, r.pk = x.2 → s.pk = y.2 →
    Apart r s
  replies : ∀ i p, sys.processes[i]? = some p → ∀ r ∈ p.replies, r.field "send_allowed" = .bool true →
    ∃ phone, r.field "recipient_phone" = .text phone ∧ Granted sys i (r.field "provider_reference") phone
  posts : ∀ x ∈ sys.posts, ∃ p, sys.processes[x.1]? = some p ∧ Handed sys x p
  once : (sys.posts.map Prod.fst).Nodup
  informed : ∀ p ∈ sys.processes, Informed p.run p.heard

/-- The registry moves on, and permits are added. -/
structure Moves (sys sys' : System) : Prop where
  keeps : Keeps sys.registry sys'.registry
  permits : sys.permits ⊆ sys'.permits

theorem Granted.mono {reference : Json} {phone : String} (h : Granted sys i reference phone) (hm : Moves sys sys') :
    Granted sys' i reference phone := by
  obtain ⟨row, hgrant, hreference, hphone⟩ := h
  obtain ⟨row', hrow', hsame, hd⟩ := hm.keeps row hgrant.mem hgrant.dispatched
  refine ⟨row', ⟨hm.permits (hsame.pk ▸ hgrant.permit), hrow', hd⟩, ?_, hsame.phone.trans hphone⟩
  rw [hreference, hsame.pk]

theorem Handed.mono {x : ℕ × Post} (h : Handed sys x p) (hm : Moves sys sys') : Handed sys' x p := by
  obtain ⟨phone, hgranted, hphone⟩ := h.granted
  exact ⟨h.posts, h.recipient, h.packet, phone, hgranted.mono hm, hphone⟩

/-- Rows that a registry keeps stay apart. -/
theorem Apart.of_keeps {w w' : Invitations.Registry} (hk : Keeps w w')
    (hpks : (w'.rows.map (·.pk)).Nodup) {k l : Uuid}
    (hkl : ∀ r ∈ w.rows, ∀ s ∈ w.rows, r.pk = k → s.pk = l → Apart r s)
    (hk₀ : ∃ r ∈ w.rows, r.pk = k ∧ r.dispatchedAt ≠ none) (hl₀ : ∃ s ∈ w.rows, s.pk = l ∧ s.dispatchedAt ≠ none) :
    ∀ r ∈ w'.rows, ∀ s ∈ w'.rows, r.pk = k → s.pk = l → Apart r s := by
  obtain ⟨r₀, hr₀, hrk, hrd⟩ := hk₀
  obtain ⟨s₀, hs₀, hsl, hsd⟩ := hl₀
  obtain ⟨r', hr', hsame, -⟩ := hk r₀ hr₀ hrd
  obtain ⟨s', hs', hsame', -⟩ := hk s₀ hs₀ hsd
  intro r hr s hs hrpk hspk
  obtain rfl : r = r' := Table.eq_of_mem_of_key hpks hr hr' (hrpk.trans (hrk.symm.trans hsame.pk.symm))
  obtain rfl : s = s' := Table.eq_of_mem_of_key hpks hs hs' (hspk.trans (hsl.symm.trans hsame'.pk.symm))
  obtain ⟨hpk, hkey, hshares⟩ := hkl r₀ hr₀ s₀ hs₀ hrk hsl
  refine ⟨by rwa [hsame.pk, hsame'.pk], by rwa [hsame.key, hsame'.key], fun h => hshares (hsame.shares hsame' h)⟩

theorem Safe.initial {w : Invitations.Registry} (hw : w.Fresh) : Safe site (System.initial w) where
  sound := hw.sound
  permits := by simp [System.initial]
  apart := List.Pairwise.nil
  replies := by simp [System.initial]
  posts := by simp [System.initial]
  once := List.nodup_nil
  informed := by simp [System.initial]

/-- Anything that a caller does with the registry. -/
theorem Safe.acted (hinj : Function.Injective site.hashes.keyed) (h : Safe site sys) (a : Invitations.Action) :
    Safe site { sys with registry := Invitations.step site.hashes sys.registry a } := by
  obtain ⟨hsound, hkeeps⟩ := Invitations.step_spec hinj h.sound a
  have hm : Moves sys { sys with registry := Invitations.step site.hashes sys.registry a } := ⟨hkeeps, List.Subset.refl _⟩
  refine ⟨hsound, fun x hx => ?_, ?_, fun i p hp r hr hallowed => ?_, fun x hx => ?_, h.once, h.informed⟩
  · obtain ⟨row, hrow, hpk, hd⟩ := h.permits x hx
    obtain ⟨row', hrow', hsame, hd'⟩ := hkeeps row hrow hd
    exact ⟨row', hrow', hsame.pk.trans hpk, hd'⟩
  · refine h.apart.imp_of_mem fun {x y} hx hy hxy => ?_
    exact Apart.of_keeps hkeeps hsound.pks hxy (h.permits x hx) (h.permits y hy)
  · obtain ⟨phone, hphone, hgranted⟩ := h.replies i p hp r hr hallowed
    exact ⟨phone, hphone, hgranted.mono hm⟩
  · obtain ⟨p, hp, hhanded⟩ := h.posts x hx
    exact ⟨p, hp, hhanded.mono hm⟩

theorem eligible_of_permitted {w : Invitations.Registry} {a : Invitations.Action}
    (h : Invitations.permitted site.hashes w a = some pk) : pk ∈ Invitations.eligible site.hashes w a := by
  unfold Invitations.permitted at h
  unfold Invitations.eligible
  cases ha : Invitations.act site.hashes w a with
  | error e =>
    rw [ha] at h
    cases h
  | ok o =>
    rw [ha] at h
    have hpermitted : o.permitted = some pk := h
    refine List.mem_append_right o.claimed.toList ?_
    rw [hpermitted]
    exact List.mem_singleton_self pk

/-- The website's answer to a preflight is an action on the registry. -/
theorem consumed_step {w w' : Invitations.Registry} {isMember : Bool} {ticket phone : Json}
    {decision : Invitations.Decision} (h : consumed site w isMember pk ticket phone = .ok (decision, w')) :
    ∃ a, Invitations.step site.hashes w a = w' ∧
      (decision = .eligible → Invitations.permitted site.hashes w a = some pk) := by
  obtain ⟨row, hrow, hconsume⟩ := bind_eq_ok.1 h
  refine ⟨.preflight isMember pk (site.loads ticket) (site.normalize phone.str), ?_, fun hd => ?_⟩
  · simp only [Invitations.step, Invitations.act, Invitations.preflight, hrow, hconsume, bind, Except.bind]
    rfl
  · simp only [Invitations.permitted, Invitations.act, Invitations.preflight, hrow, hconsume, bind, Except.bind, hd]
    rfl

/-- A permit is handed to a run, apart from those that were handed out before. -/
theorem Safe.granted (h : Safe site sys) (hrow : ∃ row ∈ sys.registry.rows, row.pk = pk ∧ row.dispatchedAt ≠ none)
    (hapart : ∀ x ∈ sys.permits, ∀ r ∈ sys.registry.rows, ∀ s ∈ sys.registry.rows, r.pk = x.2 → s.pk = pk → Apart r s) :
    Safe site { sys with permits := sys.permits ++ [(i, pk)] } := by
  have hm : Moves sys { sys with permits := sys.permits ++ [(i, pk)] } := ⟨.refl _, List.subset_append_left _ _⟩
  refine ⟨h.sound, fun x hx => ?_, ?_, fun j p hp r hr hallowed => ?_, fun x hx => ?_, h.once, h.informed⟩
  · rcases List.mem_append.1 hx with hx | hx
    · exact h.permits x hx
    · rw [List.mem_singleton.1 hx]
      exact hrow
  · refine List.pairwise_append.2 ⟨h.apart, List.pairwise_singleton _ _, fun x hx y hy => ?_⟩
    rw [List.mem_singleton.1 hy]
    exact hapart x hx
  · obtain ⟨phone, hphone, hgranted⟩ := h.replies j p hp r hr hallowed
    exact ⟨phone, hphone, hgranted.mono hm⟩
  · obtain ⟨p, hp, hhanded⟩ := h.posts x hx
    exact ⟨p, hp, hhanded.mono hm⟩

theorem getElem?_set_some {α : Type*} {l : List α} {a b : α} {j : ℕ} (h : l[i]? = some a) :
    (l.set i b)[j]? = if i = j then some b else l[j]? := by
  have hlt : i < l.length := (List.getElem?_eq_some_iff.1 h).1
  rw [List.getElem?_set]
  rw [if_pos hlt]

/-- Answers to the preflight of a run are under way. -/
theorem Safe.replied (h : Safe site sys) (hp : sys.processes[i]? = some p) {answers : List Response}
    (hanswers : ∀ r ∈ answers, r.field "send_allowed" = .bool true →
      ∃ phone, r.field "recipient_phone" = .text phone ∧ Granted sys i (r.field "provider_reference") phone) :
    Safe site { sys with processes := sys.processes.set i { p with replies := p.replies ++ answers } } := by
  have hm : Moves sys { sys with processes := sys.processes.set i { p with replies := p.replies ++ answers } } :=
    ⟨.refl _, List.Subset.refl _⟩
  refine ⟨h.sound, h.permits, h.apart, fun j q hq x hx hallowed => ?_, fun x hx => ?_, h.once, fun q hq => ?_⟩
  · have hgranted : ∃ phone, x.field "recipient_phone" = .text phone ∧
        Granted sys j (x.field "provider_reference") phone := by
      rw [getElem?_set_some hp] at hq
      split at hq
      · rename_i hij
        obtain rfl := Option.some.inj hq
        subst hij
        rcases List.mem_append.1 hx with hx | hx
        · exact h.replies i p hp x hx hallowed
        · exact hanswers x hx hallowed
      · exact h.replies j q hq x hx hallowed
    obtain ⟨phone, hphone, hgranted⟩ := hgranted
    exact ⟨phone, hphone, hgranted.mono hm⟩
  · obtain ⟨q, hq, hhanded⟩ := h.posts x hx
    rw [getElem?_set_some hp]
    split
    · rename_i hij
      obtain rfl : p = q := Option.some.inj (hp.symm.trans (hij ▸ hq))
      have hhanded := hhanded.mono hm
      exact ⟨_, rfl, hhanded.posts, hhanded.recipient, hhanded.packet, hhanded.granted⟩
    · exact ⟨q, hq, hhanded.mono hm⟩
  · rcases List.mem_or_eq_of_mem_set hq with hq | rfl
    · exact h.informed q hq
    · exact h.informed p (List.mem_of_getElem? hp)

/-- The fields of an answer that hands out a permit. -/
theorem permitAnswer_fields {now : Time} {row : JoinInvitation} {decision : Invitations.Decision}
    (h : (permitAnswer site now row decision).field "send_allowed" = .bool true) : decision = .eligible ∧
      (permitAnswer site now row decision).field "recipient_phone" = .text row.phone ∧
      (permitAnswer site now row decision).field "provider_reference" = .text (providerReference row.pk) := by
  cases decision with
  | eligible => exact ⟨rfl, rfl, rfl⟩
  | member | phoneMissing | duplicate | blocked => cases h

/-- The website works the preflight of a run off. -/
theorem Safe.served (hinj : Function.Injective site.hashes.keyed) (h : Safe site sys) (hp : sys.processes[i]? = some p)
    (ticket phone : Json) (isMember : Bool) : Safe site (sys.serve site i p pk ticket phone isMember) := by
  unfold System.serve
  split
  case h_1 => exact h
  case h_2 decision w hconsumed =>
    obtain ⟨a, rfl, hpermitted⟩ := consumed_step hconsumed
    have hacted := h.acted hinj a
    -- the permit, if there is one, is apart from all that were handed out before
    have hgranted : Safe site { sys with
        registry := Invitations.step site.hashes sys.registry a
        permits := if decision = .eligible then sys.permits ++ [(i, pk)] else sys.permits } := by
      by_cases hd : decision = .eligible
      · rw [if_pos hd]
        have hpk := hpermitted hd
        obtain ⟨row, hrow, rfl, hclear⟩ := Invitations.eligible_step hinj h.sound (eligible_of_permitted hpk)
        refine Safe.granted hacted (Invitations.permitted_step hinj h.sound hpk) fun x hx r hr s hs hrx hspk => ?_
        obtain rfl : s = row := Table.eq_of_mem_of_key hacted.sound.pks hs hrow hspk
        obtain ⟨old, hold, holdpk, hd'⟩ := h.permits x hx
        obtain ⟨r', hr', hsame, -⟩ := (Invitations.step_spec hinj h.sound a).2 old hold hd'
        obtain rfl : r = r' :=
          Table.eq_of_mem_of_key hacted.sound.pks hr hr' (hrx.trans (holdpk.symm.trans hsame.pk.symm))
        obtain ⟨hpk', hkey, hshares⟩ := hclear old hold hd'
        refine ⟨by rw [hsame.pk]; exact hpk', by rw [hsame.key]; exact hkey, fun hrs => hshares ?_⟩
        exact (hsame.shares (.refl s) hrs).symm
      · rw [if_neg hd]
        exact hacted
    refine Safe.replied hgranted hp fun x hx hallowed => ?_
    obtain ⟨row, hrow, rfl⟩ := Option.map_eq_some_iff.1 (Option.mem_toList.1 hx)
    obtain ⟨hmem, rfl⟩ := Invitations.mem_of_row hrow
    obtain ⟨rfl, hphone, hreference⟩ := permitAnswer_fields hallowed
    obtain ⟨row', hrow', hpk', hd⟩ := Invitations.permitted_step hinj h.sound (hpermitted rfl)
    obtain rfl : row' = row := Table.eq_of_mem_of_key hacted.sound.pks hrow' hmem hpk'
    refine ⟨row'.phone, hphone, row', ⟨?_, hmem, hd⟩, hreference, rfl⟩
    exact List.mem_append_right _ (List.mem_singleton_self _)

/-- What a run has handed over stays its own. -/
theorem Handed.hear {x : ℕ × Post} (h : Handed sys x p) : Handed sys x (p.hear site r now) := by
  have hown : (p.hear site r now).run.candidate = p.run.candidate ∧ (p.hear site r now).run.packet = p.run.packet :=
    receive_own p.run r now
  have hposts : (p.hear site r now).run.posts = 1 ∨ (p.hear site r now).run.posts = p.run.posts :=
    (receive_cases site.parseDate p.run r now).imp Sends.posts And.left
  have hbefore := h.posts
  refine ⟨by omega, ?_, ?_, h.granted⟩
  · rw [hown.1]
    exact h.recipient
  · rw [hown.2]
    exact h.packet

/-- What a run hands over when it hears of its permit. -/
theorem handed_hear {post : Post} (hpost : handed (p.hear site r now).run = some post)
    (hpermit : p.run.asking → Permits p.run r →
      ∃ phone, r.field "recipient_phone" = .text phone ∧ Granted sys i (r.field "provider_reference") phone) :
    p.run.posts = 0 ∧ Handed sys (i, post) (p.hear site r now) := by
  have hown : (p.hear site r now).run.candidate = p.run.candidate ∧ (p.hear site r now).run.packet = p.run.packet :=
    receive_own p.run r now
  have hcases : Sends p.run r now (p.hear site r now).run ∨ _ ∧ handed (p.hear site r now).run = none :=
    receive_cases site.parseDate p.run r now
  rcases hcases with hsends | ⟨-, hnone⟩
  · obtain rfl : p.run.post = post := Option.some.inj (hsends.handed.symm.trans hpost)
    obtain ⟨phone, hphone, hgranted⟩ := hpermit hsends.asking hsends.permits
    refine ⟨hsends.unsent, ?_, ?_, ?_, phone, ?_, ?_⟩
    · rw [hsends.posts]
      exact one_ne_zero
    · rw [hown.1]
      rfl
    · rw [hown.2]
      exact ⟨rfl, rfl⟩
    · rw [hsends.permits.reference] at hgranted
      exact hgranted
    · rw [← hphone]
      exact hsends.permits.recipient
  · rw [hnone] at hpost
    cases hpost

/-- The run has not heard of a permit, or there is one. -/
theorem Safe.heard (h : Safe site sys) (hp : sys.processes[i]? = some p)
    (hpermit : p.run.asking → Permits p.run r →
      ∃ phone, r.field "recipient_phone" = .text phone ∧ Granted sys i (r.field "provider_reference") phone) :
    Safe site (sys.hear site i p r now) := by
  have hm : Moves sys (sys.hear site i p r now) := ⟨.refl _, List.Subset.refl _⟩
  have hset : ∀ j, (sys.hear site i p r now).processes[j]? =
      if i = j then some (p.hear site r now) else sys.processes[j]? := fun j => getElem?_set_some hp
  have hnew : ∀ x ∈ ((handed (p.hear site r now).run).map fun post => (i, post)).toList,
      x.1 = i ∧ p.run.posts = 0 ∧ Handed sys x (p.hear site r now) := by
    intro x hx
    obtain ⟨post, hpost, rfl⟩ := Option.map_eq_some_iff.1 (Option.mem_toList.1 hx)
    exact ⟨rfl, handed_hear hpost hpermit⟩
  refine ⟨h.sound, h.permits, h.apart, fun j q hq x hx hallowed => ?_, fun x hx => ?_, ?_, fun q hq => ?_⟩
  · rw [hset] at hq
    split at hq
    · obtain rfl := Option.some.inj hq
      exact absurd hx List.not_mem_nil
    · obtain ⟨phone, hphone, hgranted⟩ := h.replies j q hq x hx hallowed
      exact ⟨phone, hphone, hgranted.mono hm⟩
  · rw [hset]
    rcases List.mem_append.1 hx with hx | hx
    · obtain ⟨q, hq, hhanded⟩ := h.posts x hx
      split
      · rename_i hix
        obtain rfl : p = q := Option.some.inj (hp.symm.trans (hix ▸ hq))
        exact ⟨_, rfl, (hhanded.mono hm).hear⟩
      · exact ⟨q, hq, hhanded.mono hm⟩
    · obtain ⟨hxi, -, hhanded⟩ := hnew x hx
      rw [if_pos hxi.symm]
      exact ⟨_, rfl, hhanded.mono hm⟩
  · show ((sys.posts ++ _).map Prod.fst).Nodup
    rw [List.map_append]
    refine List.nodup_append.2 ⟨h.once, ?_, fun a ha b hb hab => ?_⟩
    · cases handed (p.hear site r now).run with
      | none => exact List.nodup_nil
      | some post => exact List.nodup_singleton i
    · -- a run that hands a message over has handed none over before
      subst hab
      obtain ⟨x, hx, rfl⟩ := List.mem_map.1 ha
      obtain ⟨y, hy, hyx⟩ := List.mem_map.1 hb
      obtain ⟨hyi, hzero, -⟩ := hnew y hy
      obtain ⟨q, hq, hhanded⟩ := h.posts x hx
      obtain rfl : p = q := Option.some.inj (hp.symm.trans ((hyx.symm.trans hyi) ▸ hq))
      exact hhanded.posts hzero
  · rcases List.mem_or_eq_of_mem_set hq with hq | rfl
    · exact h.informed q hq
    · exact (h.informed p (List.mem_of_getElem? hp)).receive

theorem Safe.started (h : Safe site sys) {run : Run} (hrun : Informed run []) :
    Safe site { sys with processes := sys.processes ++ [⟨run, [], []⟩] } := by
  have hm : Moves sys { sys with processes := sys.processes ++ [⟨run, [], []⟩] } := ⟨.refl _, List.Subset.refl _⟩
  refine ⟨h.sound, h.permits, h.apart, fun j q hq x hx hallowed => ?_, fun x hx => ?_, h.once, fun q hq => ?_⟩
  · by_cases hj : j < sys.processes.length
    · obtain ⟨phone, hphone, hgranted⟩ := h.replies j q ((List.getElem?_append_left hj).symm.trans hq) x hx hallowed
      exact ⟨phone, hphone, hgranted.mono hm⟩
    · have hq := (List.getElem?_append_right (Nat.le_of_not_lt hj)).symm.trans hq
      obtain rfl := List.mem_singleton.1 (List.mem_of_getElem? hq)
      exact absurd hx List.not_mem_nil
  · obtain ⟨q, hq, hhanded⟩ := h.posts x hx
    have hlt : x.1 < sys.processes.length := (List.getElem?_eq_some_iff.1 hq).1
    exact ⟨q, (List.getElem?_append_left hlt).trans hq, hhanded.mono hm⟩
  · rcases List.mem_append.1 hq with hq | hq
    · exact h.informed q hq
    · rw [List.mem_singleton.1 hq]
      exact hrun

theorem Safe.step (hinj : Function.Injective site.hashes.keyed) (h : Safe site sys) (e : Event) :
    Safe site (sys.step site e) := by
  unfold System.step
  cases e with
  | site a => exact h.acted hinj a
  | start candidate packet =>
    dsimp only
    split
    · rename_i run hrun
      exact h.started (informed_start hrun)
    · exact h
  | serve i isMember =>
    dsimp only
    split
    · exact h
    · rename_i p hp
      split
      · split
        · exact h.served hinj hp _ _ isMember
        · exact h
      · exact h
  | deliver i n now =>
    dsimp only
    split
    · exact h
    · rename_i p hp
      split
      · rename_i r hr
        exact h.heard hp fun _ hpermits => h.replies i p hp r (List.mem_of_getElem? hr) hpermits.allowed
      · exact h
  | answer i r now =>
    dsimp only
    split
    · exact h
    · rename_i p hp
      split
      · rename_i hadmitted
        refine h.heard hp fun hasking hpermits => ?_
        -- what a run hears at its preflight, if it is not the website, is no permit
        obtain ⟨invitationId, ticket, phone, hact⟩ := hasking
        unfold admitted at hadmitted
        rw [hact] at hadmitted
        simp [hpermits.fine] at hadmitted
      · exact h

end

/-! ### Every run of the system -/

/-- The system after these events. -/
def System.after (site : Site) (w : Invitations.Registry) (es : List Event) : System :=
  run (System.step site) (System.initial w) es

theorem Safe.after {site : Site} {w : Invitations.Registry} (hinj : Function.Injective site.hashes.keyed) (hw : w.Fresh)
    (es : List Event) : Safe site (System.after site w es) :=
  run_inv (I := Safe site) (fun _ e h => h.step hinj e) (.initial hw) es

/-- The rows of permits for different runs are apart. -/
theorem Safe.apart_of_ne {site : Site} {sys : System} (h : Safe site sys) {i j : ℕ} (hij : i ≠ j) {r s : JoinInvitation}
    (hr : Grant sys i r) (hs : Grant sys j s) : Apart r s := by
  have hsymm : Std.Symm fun x y : ℕ × Uuid => ∀ r ∈ sys.registry.rows, ∀ s ∈ sys.registry.rows,
      r.pk = x.2 → s.pk = y.2 → Apart r s := ⟨fun x y hxy r hr s hs hrpk hspk => (hxy s hs r hr hspk hrpk).symm⟩
  have hne : (i, r.pk) ≠ (j, s.pk) := fun heq => hij (congrArg Prod.fst heq)
  exact h.apart.forall hr.permit hs.permit hne r hr.mem s hs.mem rfl rfl

/-- Whatever is lost, repeated or done by others, a run hands at most one message to the provider; it is its own, for the phone
of its permit, and the permits behind two messages are for different bookings and guests. -/
theorem posts_are_permitted (site : Site) {w : Invitations.Registry} (hinj : Function.Injective site.hashes.keyed)
    (hw : w.Fresh) (es : List Event) :
    ((System.after site w es).posts.map Prod.fst).Nodup ∧
      (∀ x ∈ (System.after site w es).posts, ∃ p, (System.after site w es).processes[x.1]? = some p ∧
        Handed (System.after site w es) x p) ∧
      (System.after site w es).posts.Pairwise fun x y => ∀ r s, Grant (System.after site w es) x.1 r →
        Grant (System.after site w es) y.1 s → Apart r s := by
  have h : Safe site (System.after site w es) := .after hinj hw es
  refine ⟨h.once, h.posts, ?_⟩
  have hpairwise := List.pairwise_map.1 h.once
  exact hpairwise.imp fun hxy r s hr hs => h.apart_of_ne hxy hr hs

/-! ### A run -/

def firstSite : Site where
  hashes := Invitations.plain
  parseDate v := if v = .text "1970-01-01T00:17:40+00:00" then some 1060000 else none
  uuid v := if v = .text Invitations.firstRow.str then some Invitations.firstRow else none
  loads _ := ⟨true, Invitations.firstRow, "p+966500000001", 1⟩
  normalize phone := phone
  isoformat _ := "1970-01-01T00:17:40+00:00"

def firstCandidate : Candidate := ⟨"hostaway:501", "966500000001", "", "ar", "Sara", "airbnb", "stay-1"⟩

def firstPacket : Packet := ⟨"ar", "مرحبا", "aW1hZ2U="⟩

/-- The answer of the website to the claim of the first row. -/
def firstClaim : Response where
  error := false
  statusCode := some 200
  body := some {
    fields := [("code", .text "ok"), ("decision", .text "eligible"), ("send_allowed", .bool false),
      ("invitation_id", .text Invitations.firstRow.str),
      ("provider_reference", .text (providerReference Invitations.firstRow)),
      ("recipient_phone", .text "+966500000001"), ("ticket", .text "t")]
    messages := [] }

/-- Nobody answers. -/
def silence : Response := ⟨true, none, none⟩

/-- The website answers the preflight twice; the run hears the first answer and then that there is none. -/
def firstEvents : List Event :=
  [.start firstCandidate firstPacket, .site (Invitations.applied Invitations.firstRow 501 "+966500000001"),
    .answer 0 firstClaim 1000000, .serve 0 false, .serve 0 false, .deliver 0 0 1000000, .answer 0 silence 1000500]

/-- The website hands out the permit once, and the message is there. -/
theorem posts_are_permitted_repeated :
    (System.after firstSite Invitations.untouched firstEvents).posts.map Prod.fst = [0] ∧
      ∀ x ∈ (System.after firstSite Invitations.untouched firstEvents).posts,
        ∃ p, (System.after firstSite Invitations.untouched firstEvents).processes[x.1]? = some p ∧
          Handed (System.after firstSite Invitations.untouched firstEvents) x p :=
  ⟨by decide +kernel, (posts_are_permitted firstSite (fun _ _ heq => heq)
    (⟨rfl, List.nodup_nil, fun _ hq => absurd hq List.not_mem_nil⟩ : Invitations.untouched.Fresh) firstEvents).2.1⟩

def firstRun : Run := (start firstCandidate firstPacket).get (by decide)

/-- The answer of the website to the preflight of the first row. -/
def firstAnswer : Response where
  error := false
  statusCode := some 200
  body := some {
    fields := [("code", .text "ok"), ("decision", .text "eligible"), ("send_allowed", .bool true),
      ("invitation_id", .text Invitations.firstRow.str),
      ("provider_reference", .text (providerReference Invitations.firstRow)),
      ("recipient_phone", .text "+966500000001"), ("send_expires_at", .text "1970-01-01T00:17:40+00:00")]
    messages := [] }

/-- What the run hears while its message may still arrive, and after that. -/
def firstWithin : List (Response × ℕ) := [(silence, 1000500)]

def firstLate : List (Response × ℕ) := List.replicate 5 (silence, 1300000)

def firstEnd : Run :=
  firstRun.after firstSite.parseDate ([(firstClaim, 1000000)] ++ (firstAnswer, 1000000) :: firstWithin ++ firstLate)

/-- Nothing comes back. -/
theorem message_ends_unanswered :
    firstEnd.act = .attention ∨ firstEnd.act = .done ∧ ∃ a ∈ firstWithin ++ firstLate, Confirms firstEnd a.1 :=
  message_ends (Option.some_get _).symm [(firstClaim, 1000000)] firstWithin firstLate (by decide +kernel)
    (fun _ ha => (List.eq_of_mem_replicate ha) ▸ Nat.le_refl 1300000) (Nat.le_refl 5) rfl

end Apartments.Controller
