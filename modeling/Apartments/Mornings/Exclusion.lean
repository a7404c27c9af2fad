import Apartments.HyperPay.Gateway
import Apartments.Mornings.Calendar

/-!
# Morning stays exclude each other

`active_stays` compares a stay with what is committed, so two transactions exclude each other only through a lock that
both hold. A checkout locks the property of the stay it has read before; the stay may be at another property by then. A
change compares a stay with those of the environment of its own process.
-/

namespace Apartments.Morning.Calendar

open Payments HyperPay Verification

variable {w w' : World} {i j : ℕ} {c d : Call} {s r : Row}

/-- The stay is being paid for or is paid. -/
def Row.held (s : Row) : Bool := s.status == .processing || s.status == .paid

/-- One stay ends at least a turnover before the other one starts. -/
def Apart (a b : Row) : Prop := a.endsAt + turnover ≤ b.startsAt ∨ b.endsAt + turnover ≤ a.startsAt

/-- Two stays of one property and environment that are both held are apart. -/
def Excludes (a b : Row) : Prop :=
  a.property = b.property → a.environment = b.environment → a.held = true → b.held = true → Apart a b

def Exclusive (w : World) : Prop := ∀ a ∈ w.stays, ∀ b ∈ w.stays, a.pk ≠ b.pk → Excludes a b

instance (a b : Row) : Decidable (Apart a b) := inferInstanceAs (Decidable (_ ∨ _))

instance (a b : Row) : Decidable (Excludes a b) := inferInstanceAs (Decidable (_ → _ → _ → _ → _))

instance (w : World) : Decidable (Exclusive w) := by
  delta Exclusive
  infer_instance

/-- The two rows take the same place in the calendar. -/
def SamePlace (a b : Row) : Prop := a.property = b.property ∧ a.startsAt = b.startsAt ∧ a.endsAt = b.endsAt

theorem Apart.symm {a b : Row} (h : Apart a b) : Apart b a := Or.symm h

theorem Excludes.symm {a b : Row} (h : Excludes a b) : Excludes b a :=
  fun hp he ha hb => (h hp.symm he.symm hb ha).symm

/-- What a row excludes, one at the same place that is held only if the first is excludes as well. -/
theorem Excludes.of_place {a a' b : Row} (h : Excludes a b) (hp : SamePlace a a') (he : a.environment = a'.environment)
    (hh : a'.held = true → a.held = true) : Excludes a' b := by
  intro hprop henv ha' hb
  obtain ⟨hproperty, hstart, hend⟩ := hp
  have := h (hproperty.trans hprop) (he.trans henv) (hh ha') hb
  unfold Apart at this ⊢
  rwa [hstart, hend] at this

theorem Excludes.of_not_held {a b : Row} (h : a.held = false) : Excludes a b := by
  intro _ _ ha
  rw [h] at ha
  cases ha

/-- The window is free: no other stay of the property and environment that is held stands in it. -/
theorem apart_of_active {environment : String} {property : ℕ} {start stop : Time} {exclude : Option Uuid}
    (h : w.active environment property start (stop + turnover) exclude = false) {b : Row} (hb : b ∈ w.stays)
    (hp : b.property = property) (he : b.environment = environment) (hx : some b.pk ≠ exclude) (hh : b.held = true) :
    stop + turnover ≤ b.startsAt ∨ b.endsAt + turnover ≤ start := by
  by_contra hnot
  rw [not_or, Nat.not_le, Nat.not_le] at hnot
  rw [World.active, List.any_eq_false] at h
  refine h b hb ?_
  have hstatus : (b.status == .paid || b.status == .processing || b.status == .review) = true := by
    simp only [Row.held, Bool.or_eq_true] at hh ⊢
    tauto
  simp [hp, he, hx, hnot.1, hnot.2, hstatus]

/-! ### Rows -/

theorem mem_put {α κ : Type} [DecidableEq κ] {key : α → κ} {l : List α} {x y : α} (h : y ∈ put key l x) :
    y = x ∨ y ∈ l ∧ key y ≠ key x := by
  unfold put at h
  split at h
  · obtain ⟨z, hz, rfl⟩ := Table.mem_modify.1 h
    split_ifs with hk
    · exact .inl rfl
    · exact .inr ⟨hz, hk⟩
  · rename_i hnew
    rcases List.mem_append.1 h with h | h
    · exact .inr ⟨h, fun hk => hnew (hk ▸ List.mem_map_of_mem h)⟩
    · exact .inl (List.mem_singleton.1 h)

theorem mem_put_self {α κ : Type} [DecidableEq κ] {key : α → κ} {l : List α} {x : α} : x ∈ put key l x := by
  unfold put
  split
  · rename_i hold
    obtain ⟨y, hy, hk⟩ := List.mem_map.1 hold
    exact Table.mem_modify.2 ⟨y, hy, if_pos hk⟩
  · exact List.mem_append_right _ (List.mem_singleton_self x)

theorem mem_put_of_ne {α κ : Type} [DecidableEq κ] {key : α → κ} {l : List α} {x y : α} (hy : y ∈ l)
    (hk : key y ≠ key x) : y ∈ put key l x := by
  unfold put
  split
  · exact Table.mem_modify_of_ne hy hk
  · exact List.mem_append_left _ hy

theorem nodup_put {α κ : Type} [DecidableEq κ] {key : α → κ} {l : List α} {x : α} (h : (l.map key).Nodup) :
    ((put key l x).map key).Nodup := by
  unfold put
  split
  · rw [Table.map_key_modify fun _ _ => rfl]
    exact h
  · rename_i hnew
    rw [List.map_append]
    exact List.nodup_append'.2 ⟨h, by simp, by simpa using hnew⟩

/-! ### What is under way -/

/-- The row that is written is at the place of the committed one, and held only if that is. -/
def Keeps (w : World) (r : Row) : Prop :=
  ∃ s ∈ w.stays, s.pk = r.pk ∧ SamePlace s r ∧ s.environment = r.environment ∧ (r.held = true → s.held = true)

/-- The row that is written excludes the others, and its property is locked unless the checkout is a stray one. -/
def Clears (w : World) (c : Call) (r : Row) : Prop :=
  (r.held = true → r.property ∈ c.properties ∨ c.stray = true) ∧ ∀ b ∈ w.stays, b.pk ≠ r.pk → Excludes r b

/-- The stay of a call is still there, and has been saved since if it has moved. -/
def Seen (w : World) (c : Call) : Prop :=
  ∃ s ∈ w.stays, s.pk = c.seen.pk ∧ c.seen.updatedAt ≤ s.updatedAt ∧
    (s.updatedAt = c.seen.updatedAt → SamePlace s c.seen)

/-- A change was asked for with a stamp that its stay had had by then. -/
def Call.stamped (c : Call) : Prop :=
  match c.request with
  | .change _ _ expected => expected ≤ c.seen.updatedAt
  | _ => True

/-- A stay that is to be created is not held yet. -/
def Placed (w : World) (c : Call) : Prop :=
  match c.request with
  | .create .. => c.seen.held = false
  | _ => Seen w c

theorem Placed.imp (h : Placed w c) (hseen : Seen w c → Seen w' c) : Placed w' c := by
  unfold Placed at h ⊢
  cases hr : c.request <;> simp only [hr] at h ⊢
  · exact h
  all_goals exact hseen h

structure Sane (w : World) : Prop where
  keys : (w.stays.map (·.pk)).Nodup
  saves : ∀ s ∈ w.stays, s.updatedAt ≤ w.saves
  seen : ∀ c ∈ w.calls, c.stamped ∧ Placed w c
  locks : ∀ (i j : ℕ) (c d : Call), w.calls[i]? = some c → w.calls[j]? = some d → i ≠ j → ∀ p ∈ c.held, p ∉ d.held
  rows : ∀ (i j : ℕ) (c d : Call) (r r' : Row), w.calls[i]? = some c → w.calls[j]? = some d → i ≠ j →
    c.row = some r → d.row = some r' → r.pk ≠ r'.pk
  stray : ∀ (i j : ℕ) (c d : Call), w.calls[i]? = some c → w.calls[j]? = some d → i ≠ j → c.stray = true → d.row = none
  writes : ∀ c ∈ w.calls, ∀ r, c.row = some r → r.pk = c.seen.pk ∧ (Keeps w r ∨ Clears w c r)
  exclusive : Exclusive w

theorem getElem?_putCall {k : ℕ} (hi : w.calls[i]? = some c) :
    (w.putCall i d).calls[k]? = if k = i then some d else w.calls[k]? := by
  obtain ⟨hlt, -⟩ := List.getElem?_eq_some_iff.1 hi
  simp only [World.putCall, List.getElem?_set]
  split_ifs with h1 h2 h2
  · rfl
  · exact absurd h1.symm h2
  · exact absurd h2.symm h1
  · rfl

theorem mem_putCall {x : Call} (hx : x ∈ (w.putCall i d).calls) : x = d ∨ x ∈ w.calls :=
  (List.mem_or_eq_of_mem_set hx).symm

theorem of_all_eraseIdx {p : Call → Bool} (h : (w.calls.eraseIdx i).all p = true) (hij : j ≠ i)
    (hj : w.calls[j]? = some d) : p d = true :=
  List.all_eq_true.1 h d (List.mem_eraseIdx_iff_getElem?.2 ⟨j, hij, hj⟩)

/-- A call goes on: what it holds it has held before, or nobody else holds it; what it is about to write does not get in
the way of the others. -/
theorem Sane.putCall (h : Sane w) (hi : w.calls[i]? = some c) (hsame : d.request = c.request ∧ d.seen = c.seen)
    (hheld : ∀ p ∈ d.held, p ∈ c.held ∨ ∀ (j : ℕ) (e : Call), j ≠ i → w.calls[j]? = some e → p ∉ e.held)
    (hrow : ∀ r, d.row = some r → r.pk = c.seen.pk ∧ (Keeps w r ∨ Clears w d r) ∧
      ∀ (j : ℕ) (e : Call), j ≠ i → w.calls[j]? = some e →
        (∀ r', e.row = some r' → r'.pk ≠ r.pk) ∧ e.stray = false ∧ (d.stray = true → e.row = none)) :
    Sane (w.putCall i d) := by
  obtain ⟨hrequest, hseen⟩ := hsame
  have hd : d.stray = true → ∃ r, d.row = some r := by
    intro hs
    unfold Call.stray at hs
    unfold Call.row
    split at hs
    · rename_i hstage
      rw [hstage]
      exact ⟨_, rfl⟩
    · cases hs
  refine ⟨h.keys, h.saves, fun x hx => ?_, fun a b x y hx hy hab p hp hp' => ?_, fun a b x y r r' hx hy hab hr hr' => ?_,
    fun a b x y hx hy hab hs => ?_, fun x hx r hr => ?_, h.exclusive⟩
  · rcases mem_putCall hx with rfl | hx
    · obtain ⟨hstamped, hplace⟩ := h.seen c (List.mem_of_getElem? hi)
      unfold Call.stamped Placed Seen at *
      rw [hrequest, hseen]
      exact ⟨hstamped, hplace⟩
    · exact h.seen x hx
  · rw [getElem?_putCall hi] at hx hy
    have hnew : ∀ (j : ℕ) (e : Call), j ≠ i → w.calls[j]? = some e → ∀ p ∈ d.held, p ∉ e.held := by
      intro j e hj he p hp
      rcases hheld p hp with hp | hfree
      · exact h.locks i j c e hi he hj.symm p hp
      · exact hfree j e hj he
    split_ifs at hx hy with ha hb hb
    · exact hab (ha.trans hb.symm)
    · obtain rfl := Option.some.inj hx
      exact hnew b y hb hy p hp hp'
    · obtain rfl := Option.some.inj hy
      exact hnew a x ha hx p hp' hp
    · exact h.locks a b x y hx hy hab p hp hp'
  · rw [getElem?_putCall hi] at hx hy
    split_ifs at hx hy with ha hb hb
    · exact absurd (ha.trans hb.symm) hab
    · obtain rfl := Option.some.inj hx
      exact (((hrow r hr).2.2 b y hb hy).1 r' hr').symm
    · obtain rfl := Option.some.inj hy
      exact ((hrow r' hr').2.2 a x ha hx).1 r hr
    · exact h.rows a b x y r r' hx hy hab hr hr'
  · rw [getElem?_putCall hi] at hx hy
    split_ifs at hx hy with ha hb hb
    · exact absurd (ha.trans hb.symm) hab
    · obtain rfl := Option.some.inj hx
      obtain ⟨r, hr⟩ := hd hs
      exact ((hrow r hr).2.2 b y hb hy).2.2 hs
    · obtain rfl := Option.some.inj hy
      cases hr : d.row with
      | none => rfl
      | some r =>
        have := ((hrow r hr).2.2 a x ha hx).2.1
        rw [hs] at this
        cases this
    · exact h.stray a b x y hx hy hab hs
  · rcases mem_putCall hx with rfl | hx
    · obtain ⟨hpk, hwrites, -⟩ := hrow r hr
      exact ⟨by rw [hseen]; exact hpk, hwrites⟩
    · exact h.writes x hx r hr

/-- A call that is not about to write. -/
theorem Sane.move (h : Sane w) (hi : w.calls[i]? = some c) (hsame : d.request = c.request ∧ d.seen = c.seen)
    (hheld : d.held = []) (hrow : d.row = none) : Sane (w.putCall i d) :=
  h.putCall hi hsame (by simp [hheld]) fun r hr => by rw [hrow] at hr; cases hr

theorem Sane.attempts {attempts : List MorningPaymentAttempt} (h : Sane w) : Sane { w with attempts := attempts } :=
  ⟨h.keys, h.saves, h.seen, h.locks, h.rows, h.stray, h.writes, h.exclusive⟩

theorem Call.held_of_row (h : c.row = some r) : c.held = c.properties := by
  unfold Call.row at h
  unfold Call.held
  split at h
  · rename_i hstage
    rw [hstage]
  · cases h

@[simp] theorem committed_same (c : Call) : (World.committed c).request = c.request ∧ (World.committed c).seen = c.seen := by
  unfold World.committed
  split <;> exact ⟨rfl, rfl⟩

theorem committed_over (c : Call) : (World.committed c).held = [] ∧ (World.committed c).row = none := by
  unfold World.committed
  split <;> exact ⟨rfl, rfl⟩

/-- Two transactions that are about to write rows of one property do not both hold its lock. -/
theorem Sane.excludes (h : Sane w) {r' : Row} (hi : w.calls[i]? = some c) (hj : w.calls[j]? = some d) (hij : i ≠ j)
    (hr : c.row = some r) (hr' : d.row = some r') (hc : Clears w c r) (hd : Clears w d r') : Excludes r r' := by
  intro hp _ hheld hheld'
  rcases hc.1 hheld with hlock | hstray
  · rcases hd.1 hheld' with hlock' | hstray'
    · rw [← Call.held_of_row hr] at hlock
      rw [← Call.held_of_row hr', ← hp] at hlock'
      exact absurd hlock' (h.locks i j c d hi hj hij _ hlock)
    · rw [h.stray j i d c hj hi hij.symm hstray'] at hr
      cases hr
  · rw [h.stray i j c d hi hj hij hstray] at hr'
    cases hr'

/-- A transaction commits: what the others are about to write excludes the committed row as well. -/
theorem Sane.commit (h : Sane w) : Sane (w.commit i) := by
  unfold World.commit
  split
  swap
  · exact h
  rename_i c hi
  split
  swap
  · exact h
  rename_i row attempt hstage
  have hrow : c.row = some row := by rw [Call.row, hstage]
  obtain ⟨hpk, hwrites⟩ := h.writes c (List.mem_of_getElem? hi) row hrow
  have hmove : Sane (w.putCall i (World.committed c)) :=
    h.move hi (committed_same c) (committed_over c).1 (committed_over c).2
  refine ⟨nodup_put h.keys, fun s hs => ?_, fun x hx => ⟨(hmove.seen x hx).1, (hmove.seen x hx).2.imp ?_⟩, hmove.locks,
    hmove.rows, hmove.stray, fun x hx r hr => ?_, fun a ha b hb hab => ?_⟩
  · rcases mem_put hs with rfl | ⟨hs, -⟩
    · exact Nat.le_refl _
    · exact Nat.le_succ_of_le (h.saves s hs)
  · rintro ⟨s, hs, hspk, hle, hplace⟩
    by_cases hk : s.pk = row.pk
    · have hsaves := h.saves s hs
      refine ⟨_, mem_put_self, hk.symm.trans hspk, Nat.le_succ_of_le (hle.trans hsaves), fun heq => ?_⟩
      have heq : w.saves + 1 = x.seen.updatedAt := heq
      omega
    · exact ⟨s, mem_put_of_ne hs hk, hspk, hle, hplace⟩
  · obtain ⟨j, hj⟩ := List.getElem?_of_mem hx
    have hj : (w.putCall i (World.committed c)).calls[j]? = some x := hj
    rw [getElem?_putCall hi] at hj
    split_ifs at hj with hji
    · obtain rfl := Option.some.inj hj
      rw [(committed_over c).2] at hr
      cases hr
    · obtain ⟨hxpk, hx'⟩ := h.writes x (List.mem_of_getElem? hj) r hr
      have hne : r.pk ≠ row.pk := h.rows j i x c r row hj hi hji hr hrow
      refine ⟨hxpk, ?_⟩
      rcases hx' with ⟨s, hs, hspk, hrest⟩ | hclears
      · exact .inl ⟨s, mem_put_of_ne hs (hspk ▸ hne), hspk, hrest⟩
      · refine .inr ⟨hclears.1, fun b hb hbk => ?_⟩
        rcases mem_put hb with rfl | ⟨hb, -⟩
        · rcases hwrites with ⟨s, hs, hspk, hplace, henv, hheld⟩ | hclears'
          · exact ((hclears.2 s hs (hspk ▸ hne.symm)).symm.of_place hplace henv hheld).symm
          · have hexcludes : Excludes r row := h.excludes hj hi hji hr hrow hclears hclears'
            exact hexcludes
        · exact hclears.2 b hb hbk
  · have hcommitted : ∀ b ∈ w.stays, b.pk ≠ row.pk → Excludes row b := by
      intro b hb hbk
      rcases hwrites with ⟨s, hs, hspk, hplace, henv, hheld⟩ | hclears
      · exact (h.exclusive s hs b hb (hspk ▸ hbk.symm)).of_place hplace henv hheld
      · exact hclears.2 b hb hbk
    rcases mem_put ha with rfl | ⟨ha, hak⟩
    · rcases mem_put hb with rfl | ⟨hb, hbk⟩
      · exact absurd rfl hab
      · exact hcommitted b hb hbk
    · rcases mem_put hb with rfl | ⟨hb, hbk⟩
      · exact (hcommitted a ha hak).symm
      · exact h.exclusive a ha b hb hab

/-- A stay that goes to review excludes the others. -/
theorem Sane.review (h : Sane w) : Sane (w.review i) := by
  unfold World.review
  split
  swap
  · exact h
  rename_i c hi
  split
  swap
  · exact h
  rename_i hguard
  obtain ⟨hstage, hfree⟩ := hguard
  have hmove : Sane (w.putCall i { c with stage := .ended }) := h.move hi ⟨rfl, rfl⟩ rfl rfl
  have hnot : ∀ s : Row, ({ s with status := .review } : Row).held = false := fun _ => rfl
  have hmem : ∀ b ∈ Table.modify (fun s : Row => s.pk) w.stays c.seen.pk fun s => { s with status := .review },
      b ∈ w.stays ∧ b.pk ≠ c.seen.pk ∨ b.held = false := by
    intro b hb
    obtain ⟨b₀, hb₀, rfl⟩ := Table.mem_modify.1 hb
    split_ifs with hk
    · exact .inr (hnot b₀)
    · exact .inl ⟨hb₀, hk⟩
  refine ⟨?_, fun s hs => ?_, fun x hx => ⟨(hmove.seen x hx).1, (hmove.seen x hx).2.imp ?_⟩, hmove.locks, hmove.rows,
    hmove.stray, fun x hx r hr => ?_, fun a ha b hb hab => ?_⟩
  · have hkeys : (Table.modify (fun s : Row => s.pk) w.stays c.seen.pk fun s => { s with status := .review }).map (·.pk) =
        w.stays.map (·.pk) := Table.map_key_modify fun s hs => hs
    rw [hkeys]
    exact h.keys
  · obtain ⟨s₀, hs₀, rfl⟩ := Table.mem_modify.1 hs
    have hle := h.saves s₀ hs₀
    split_ifs <;> exact hle
  · rintro ⟨s, hs, hspk, hle, hplace⟩
    refine ⟨_, Table.mem_modify.2 ⟨s, hs, rfl⟩, ?_⟩
    split_ifs <;> exact ⟨hspk, hle, hplace⟩
  · obtain ⟨hxpk, hx'⟩ := hmove.writes x hx r hr
    have hne : r.pk ≠ c.seen.pk := by
      rcases mem_putCall hx with rfl | hx
      · cases hr
      · have hall := List.all_eq_true.1 hfree x hx
        rw [hr] at hall
        simpa using hall
    refine ⟨hxpk, ?_⟩
    rcases hx' with ⟨s, hs, hspk, hrest⟩ | hclears
    · exact .inl ⟨s, Table.mem_modify_of_ne hs (hspk ▸ hne), hspk, hrest⟩
    · refine .inr ⟨hclears.1, fun b hb hbk => ?_⟩
      rcases hmem b hb with ⟨hb, -⟩ | hb
      · exact hclears.2 b hb hbk
      · exact (Excludes.of_not_held hb).symm
  · rcases hmem a ha with ⟨ha, -⟩ | ha
    · rcases hmem b hb with ⟨hb, -⟩ | hb
      · exact h.exclusive a ha b hb hab
      · exact (Excludes.of_not_held hb).symm
    · exact .of_not_held ha

/-! ### Checks -/

/-- What is to hold when a transaction makes its checks. A checkout finds its stay at the property it has locked, or no
other transaction is between its checks and its commit. A change of a held stay is compared with the stays of its own
environment, unless the window stays as it is. -/
def Call.finds (w : World) (c : Call) (s : Row) : Prop :=
  match c.request with
  | .checkout .. => s.property = c.seen.property ∨ ∀ d ∈ w.calls, d.row = none
  | .change _ window _ =>
    s.environment = c.settings.environment ∨ s.held = false ∨ World.windowChanged c.seen window = false ∨
      w.active s.environment window.property window.startsAt (window.endsAt + turnover) (some s.pk) = false
  | _ => True

/-- A transaction that makes its checks finds what it has locked, and no checkout that has not is about to commit; a
change is asked for with a stamp that its stay has had. -/
def Serial (w : World) : Action → Prop
  | .call _ (.change stay _ expected) => ∀ s ∈ w.stayOf stay, expected ≤ s.updatedAt
  | .check i => ∀ c ∈ w.calls[i]?, c.stage = .locked →
      (∀ d ∈ w.calls, d.stray = false) ∧ ∀ s ∈ w.stayOf c.seen.pk, c.finds w s
  | _ => True

instance (w : World) (c : Call) (s : Row) : Decidable (c.finds w s) := by
  delta Call.finds
  cases c.request <;> infer_instance

instance (w : World) : ∀ a, Decidable (Serial w a)
  | .call _ (.change stay _ expected) => inferInstanceAs (Decidable (∀ s ∈ w.stayOf stay, expected ≤ s.updatedAt))
  | .check i => inferInstanceAs (Decidable (∀ c ∈ w.calls[i]?, c.stage = .locked →
      (∀ d ∈ w.calls, d.stray = false) ∧ ∀ s ∈ w.stayOf c.seen.pk, c.finds w s))
  | .call _ (.create ..) | .call _ (.checkout ..) | .call _ (.cancel _) | .call _ (.verify ..) | .tick _ | .lock _
  | .commit _ | .abort _ | .reply .. | .unknown _ | .review _ => .isTrue trivial

theorem morningStayAfter_kept (a : MorningPaymentAttempt) (now : Time) (s : MorningStay) :
    (morningStayAfter a now s).pk = s.pk ∧ (morningStayAfter a now s).environment = s.environment ∧
      (morningStayAfter a now s).endsAt = s.endsAt ∧
      ((morningStayAfter a now s).status = .processing ∨ (morningStayAfter a now s).status = .paid →
        s.status = .processing ∨ s.status = .paid) := by
  unfold morningStayAfter
  split
  · refine ⟨rfl, rfl, rfl, fun hs => ?_⟩
    dsimp only at hs
    split_ifs at hs with hopen
    · exact .inl hopen.1
    · simp at hs
  · exact ⟨rfl, rfl, rfl, by simp⟩
  · exact ⟨rfl, rfl, rfl, by simp⟩
  · exact ⟨rfl, rfl, rfl, by simp⟩
  · exact ⟨rfl, rfl, rfl, by simp⟩
  · exact ⟨rfl, rfl, rfl, id⟩

theorem createStay_eq_some {settings : Settings} {new : Row} (h : w.createStay settings new = some r) :
    r = { new with expiresAt := min (w.now + 300) new.startsAt } := by
  unfold World.createStay at h
  split_ifs at h
  exact (Option.some.inj h).symm

theorem createCheckout_eq_some {settings : Settings} {attempt : Uuid} {merchantTransactionId : String}
    {a : MorningPaymentAttempt} (h : w.createCheckout settings s attempt merchantTransactionId = some (r, a)) :
    r = { s with status := .processing } ∧ s.environment = settings.environment ∧
      w.active settings.environment s.property s.startsAt (s.endsAt + turnover) (some s.pk) = false := by
  unfold World.createCheckout at h
  split_ifs at h with hguard
  simp only [not_or, Bool.not_eq_false, Bool.not_eq_true, World.payable, Bool.and_eq_true, beq_iff_eq] at hguard
  obtain ⟨⟨⟨⟨-, henv⟩, -⟩, -⟩, hactive, -⟩ := hguard
  cases h
  exact ⟨rfl, henv, hactive⟩

theorem changePaidStay_eq_some {settings : Settings} {seen : Row} {window : Window} {expectedUpdatedAt : ℕ}
    (h : w.changePaidStay settings seen s window expectedUpdatedAt = some r) :
    r = { s with
      property := window.property
      startsAt := window.startsAt
      endsAt := window.endsAt
      guests := window.guests } ∧ s.updatedAt = expectedUpdatedAt ∧
      (World.windowChanged seen window = true →
        w.active settings.environment window.property window.startsAt (window.endsAt + turnover) (some s.pk) = false) := by
  unfold World.changePaidStay at h
  split_ifs at h with hguard
  simp only [not_or, ne_eq, not_not, not_and, Bool.not_eq_true] at hguard
  exact ⟨(Option.some.inj h).symm, hguard.1, hguard.2.2.2.2⟩

theorem cancelStay_eq_some (h : w.cancelStay s = some r) : r = { s with status := .cancelled } := by
  unfold World.cancelStay at h
  split_ifs at h
  exact (Option.some.inj h).symm

theorem verifyPayment_eq_some {settings : Settings} {read a : MorningPaymentAttempt} {answer : Answer}
    {recorded : List String} (h : w.verifyPayment settings read answer recorded s = some (r, a)) :
    r = { s with toMorningStay := morningStayAfter a w.now s.toMorningStay } := by
  unfold World.verifyPayment at h
  split at h
  · cases h
  split at h
  · cases h
  split at h
  · cases h
  cases h
  rfl

/-- A window that is free lets the stay that takes it exclude the others. -/
theorem excludes_of_active {environment : String} {property : ℕ} {start stop : Time}
    (h : w.active environment property start (stop + turnover) (some r.pk) = false) (hp : r.property = property)
    (he : r.environment = environment) (hstart : r.startsAt = start) (hstop : r.endsAt = stop) :
    ∀ b ∈ w.stays, b.pk ≠ r.pk → Excludes r b := by
  intro b hb hbk hprop henv _ hheld
  unfold Apart
  rw [hstart, hstop]
  refine apart_of_active h hb (hprop.symm.trans hp) (henv.symm.trans he) ?_ hheld
  simpa using hbk

/-- The stay a change is about is at the place where the call has read it. -/
theorem Sane.place (h : Sane w) (hc : c ∈ w.calls) (hs : s ∈ w.stays) (hspk : s.pk = c.seen.pk) {stay : Uuid}
    {window : Window} {expectedUpdatedAt : ℕ} (hr : c.request = .change stay window expectedUpdatedAt)
    (hu : s.updatedAt = expectedUpdatedAt) : SamePlace s c.seen := by
  obtain ⟨hstamped, hplaced⟩ := h.seen c hc
  rw [Call.stamped, hr] at hstamped
  rw [Placed, hr] at hplaced
  obtain ⟨s', hs', hspk', hle, hplace⟩ := hplaced
  obtain rfl : s' = s := Table.eq_of_mem_of_key h.keys hs' hs (hspk'.trans hspk.symm)
  have hstamped : expectedUpdatedAt ≤ c.seen.updatedAt := hstamped
  exact hplace (by omega)

/-- What a transaction writes keeps its place, or is compared with the other stays. -/
theorem Sane.written (h : Sane w) {row : Row} {attempt : Option MorningPaymentAttempt} (hc : c ∈ w.calls)
    (hs : s ∈ w.stays) (hspk : s.pk = c.seen.pk) (hw : w.written c s = some (row, attempt)) (hfinds : c.finds w s) :
    row.pk = s.pk ∧ (Keeps w row ∨ Clears w { c with stage := .checked row attempt } row) ∧
      (Call.stray { c with stage := .checked row attempt } = true → ∀ d ∈ w.calls, d.row = none) := by
  unfold World.written at hw
  split at hw
  · cases hw
  · -- a checkout
    rename_i stay pk merchant hrequest
    obtain ⟨⟨row', a⟩, hcheckout, heq⟩ := Option.map_eq_some_iff.1 hw
    obtain ⟨rfl, rfl⟩ := Prod.mk.inj heq
    obtain ⟨hrow, henv, hactive⟩ := createCheckout_eq_some hcheckout
    obtain rfl : row' = { s with status := .processing } := hrow
    rw [Call.finds, hrequest] at hfinds
    refine ⟨rfl, .inr ⟨fun _ => ?_, excludes_of_active hactive rfl henv rfl rfl⟩, fun hs => ?_⟩
    · simp only [Call.properties, Call.stray, hrequest, List.mem_singleton, bne_iff_ne, ne_eq]
      exact em _
    · simp only [Call.stray, hrequest, bne_iff_ne, ne_eq] at hs
      exact hfinds.resolve_left hs
  · -- a change
    rename_i stay window expected hrequest
    obtain ⟨row', hchange, heq⟩ := Option.map_eq_some_iff.1 hw
    obtain ⟨rfl, rfl⟩ := Prod.mk.inj heq
    obtain ⟨rfl, hupdated, hactive⟩ := changePaidStay_eq_some hchange
    rw [Call.finds, hrequest] at hfinds
    refine ⟨rfl, ?_, fun hs => by simp [Call.stray, hrequest] at hs⟩
    have hlock : ∀ row, window.property ∈ ({ c with stage := .checked row none } : Call).properties := fun row => by
      simp [Call.properties, hrequest]
    by_cases hchanged : World.windowChanged c.seen window = true
    · refine .inr ⟨fun _ => .inl (hlock _), ?_⟩
      rcases hfinds with henv | hheld | hsame | hfree
      · exact excludes_of_active (hactive hchanged) rfl henv rfl rfl
      · exact fun b _ _ => .of_not_held hheld
      · rw [hsame] at hchanged
        cases hchanged
      · exact excludes_of_active hfree rfl rfl rfl rfl
    · obtain ⟨hp, hstart, hend⟩ := h.place hc hs hspk hrequest hupdated
      simp only [World.windowChanged, Bool.or_eq_true, bne_iff_ne, ne_eq, not_or, not_not] at hchanged
      obtain ⟨⟨⟨hp', hstart'⟩, hend'⟩, -⟩ := hchanged
      exact .inl ⟨s, hs, rfl, ⟨hp.trans hp', hstart.trans hstart', hend.trans hend'⟩, rfl, id⟩
  · -- a cancellation
    rename_i hrequest
    obtain ⟨row', hcancel, heq⟩ := Option.map_eq_some_iff.1 hw
    obtain ⟨rfl, -⟩ := Prod.mk.inj heq
    obtain rfl := cancelStay_eq_some hcancel
    exact ⟨rfl, .inr ⟨nofun, fun b _ _ => .of_not_held rfl⟩, fun hs => by simp [Call.stray, hrequest] at hs⟩
  · -- a verification
    rename_i hrequest
    split at hw
    · cases hw
    obtain ⟨⟨row', a⟩, hverify, heq⟩ := Option.map_eq_some_iff.1 hw
    obtain ⟨rfl, rfl⟩ := Prod.mk.inj heq
    have hrow := verifyPayment_eq_some hverify
    obtain ⟨hpk, henv, hend, hstatus⟩ := morningStayAfter_kept a w.now s.toMorningStay
    obtain rfl : row' = _ := hrow
    refine ⟨hpk, .inl ⟨s, hs, hpk.symm, ⟨rfl, rfl, hend.symm⟩, henv.symm, fun hheld => ?_⟩,
      fun hs => by simp [Call.stray, hrequest] at hs⟩
    simp only [Row.held, Bool.or_eq_true, beq_iff_eq] at hheld ⊢
    exact hstatus hheld

/-- A transaction makes its checks. -/
theorem Sane.check (h : Sane w) (hok : Serial w (.check i)) : Sane (w.check i) := by
  unfold World.check
  split
  swap
  · exact h
  rename_i c hi
  split
  swap
  · exact h
  rename_i hguard
  obtain ⟨hstage, hfree⟩ := hguard
  obtain ⟨hstray, hfinds⟩ := hok c hi hstage
  split
  · exact h.move hi ⟨rfl, rfl⟩ rfl rfl
  rename_i row attempt hwrites
  have hc := List.mem_of_getElem? hi
  have hrow : row.pk = c.seen.pk ∧ (Keeps w row ∨ Clears w { c with stage := .checked row attempt } row) ∧
      (Call.stray { c with stage := .checked row attempt } = true → ∀ d ∈ w.calls, d.row = none) := by
    unfold World.writes at hwrites
    split at hwrites
    · -- a new stay
      rename_i hrequest
      obtain ⟨row', hcreate, heq⟩ := Option.map_eq_some_iff.1 hwrites
      obtain ⟨rfl, -⟩ := Prod.mk.inj heq
      obtain rfl := createStay_eq_some hcreate
      have hplaced := (h.seen c hc).2
      rw [Placed, hrequest] at hplaced
      have hheld : ({ c.seen with expiresAt := min (w.now + 300) c.seen.startsAt } : Row).held = false := hplaced
      refine ⟨rfl, .inr ⟨fun hh => ?_, fun b _ _ => .of_not_held hheld⟩, fun hs => ?_⟩
      · exact (Bool.false_ne_true (hheld.symm.trans hh)).elim
      · simp [Call.stray, hrequest] at hs
    · split at hwrites
      · cases hwrites
      rename_i s hget
      have hspk := Table.key_of_get hget
      obtain ⟨hpk, hrest⟩ := h.written hc (Table.mem_of_get hget) hspk hwrites (hfinds s hget)
      exact ⟨hpk.trans hspk, hrest⟩
  refine h.putCall hi ⟨rfl, rfl⟩ (fun p hp => .inl ?_) fun r hr => ?_
  · rw [Call.held, hstage]
    exact hp
  · obtain rfl : row = r := Option.some.inj hr
    refine ⟨hrow.1, hrow.2.1, fun j e hj he => ⟨fun r' hr' => ?_, hstray e (List.mem_of_getElem? he), fun hs => ?_⟩⟩
    · have := of_all_eraseIdx hfree hj he
      rw [hr'] at this
      rw [hrow.1]
      simpa using this
    · exact hrow.2.2 hs e (List.mem_of_getElem? he)

/-! ### Runs -/

/-- A call is started: it holds nothing yet. -/
theorem Sane.call {settings : Settings} {request : Request} (h : Sane w) (hok : Serial w (.call settings request)) :
    Sane (w.call settings request) := by
  unfold World.call
  split
  · exact h
  rename_i c hopening
  have hc : c.request = request ∧ c.stage = .called ∧ c.stamped ∧ Placed w c := by
    have hseen : ∀ {s : Row} {pk : Uuid} {read : Option MorningPaymentAttempt}, w.stayOf pk = some s →
        Seen w ⟨settings, request, s, read, .called⟩ := fun hget =>
      ⟨_, Table.mem_of_get hget, rfl, Nat.le_refl _, fun _ => ⟨rfl, rfl, rfl⟩⟩
    unfold World.opening at hopening
    split at hopening
    · split_ifs at hopening
      cases hopening
      exact ⟨rfl, rfl, trivial, rfl⟩
    · split at hopening
      · cases hopening
      rename_i hget
      split_ifs at hopening
      cases hopening
      exact ⟨rfl, rfl, trivial, hseen hget⟩
    · obtain ⟨s, hget, rfl⟩ := Option.map_eq_some_iff.1 hopening
      exact ⟨rfl, rfl, hok s hget, hseen hget⟩
    · obtain ⟨s, hget, rfl⟩ := Option.map_eq_some_iff.1 hopening
      exact ⟨rfl, rfl, trivial, hseen hget⟩
    · split at hopening
      · cases hopening
      split at hopening
      · cases hopening
      rename_i hget
      split_ifs at hopening
      cases hopening
      exact ⟨rfl, rfl, trivial, hseen hget⟩
  obtain ⟨-, hstage, hstamped, hplaced⟩ := hc
  have hheld : c.held = [] := by rw [Call.held, hstage]
  have hrow : c.row = none := by rw [Call.row, hstage]
  have hstray : c.stray = false := by
    rw [Call.stray, hstage]
    split <;> simp_all
  have hget : ∀ {j : ℕ} {x : Call}, (w.calls ++ [c])[j]? = some x → w.calls[j]? = some x ∨ x = c := by
    intro j x hj
    rw [List.getElem?_append] at hj
    split_ifs at hj with hlt
    · exact .inl hj
    · exact .inr (List.mem_singleton.1 (List.mem_of_getElem? hj))
  refine ⟨h.keys, h.saves, fun x hx => ?_, fun a b x y hx hy hab p hp hp' => ?_, fun a b x y r r' hx hy hab hr hr' => ?_,
    fun a b x y hx hy hab hs => ?_, fun x hx r hr => ?_, h.exclusive⟩
  · rcases List.mem_append.1 hx with hx | hx
    · exact h.seen x hx
    · rw [List.mem_singleton.1 hx]
      exact ⟨hstamped, hplaced⟩
  · rcases hget hx with hx | rfl
    · rcases hget hy with hy | rfl
      · exact h.locks a b x y hx hy hab p hp hp'
      · simp [hheld] at hp'
    · simp [hheld] at hp
  · rcases hget hx with hx | rfl
    · rcases hget hy with hy | rfl
      · exact h.rows a b x y r r' hx hy hab hr hr'
      · simp [hrow] at hr'
    · simp [hrow] at hr
  · rcases hget hx with hx | rfl
    · rcases hget hy with hy | rfl
      · exact h.stray a b x y hx hy hab hs
      · exact hrow
    · simp [hstray] at hs
  · rcases List.mem_append.1 hx with hx | hx
    · exact h.writes x hx r hr
    · rw [List.mem_singleton.1 hx, hrow] at hr
      cases hr

theorem Sane.lock (h : Sane w) : Sane (w.lock i) := by
  unfold World.lock
  split
  swap
  · exact h
  rename_i c hi
  split
  swap
  · exact h
  rename_i hguard
  refine h.putCall hi ⟨rfl, rfl⟩ (fun p hp => .inr fun j e hj he hpe => ?_) nofun
  have := List.all_eq_true.1 (of_all_eraseIdx hguard.2 hj he) p hpe
  simp only [Bool.not_eq_true', List.contains_eq_mem, decide_eq_false_iff_not] at this
  exact this hp

theorem Sane.step (h : Sane w) {a : Action} (hok : Serial w a) : Sane (w.step a) := by
  cases a with
  | tick seconds => exact ⟨h.keys, h.saves, h.seen, h.locks, h.rows, h.stray, h.writes, h.exclusive⟩
  | call settings request => exact h.call hok
  | lock i => exact h.lock
  | check i => exact h.check hok
  | commit i => exact h.commit
  | abort i =>
    unfold World.step World.abort
    dsimp only
    split
    · rename_i hi
      exact h.move hi ⟨rfl, rfl⟩ rfl rfl
    · exact h
  | reply i answer =>
    unfold World.step World.reply
    dsimp only
    split
    swap
    · exact h
    rename_i hi
    split
    swap
    · exact h
    cases answer with
    | valid id => exact h.attempts.move hi ⟨rfl, rfl⟩ rfl rfl
    | invalid => exact h.attempts.move hi ⟨rfl, rfl⟩ rfl rfl
    | raised => exact h.move hi ⟨rfl, rfl⟩ rfl rfl
  | unknown i =>
    unfold World.step World.unknown
    dsimp only
    split
    swap
    · exact h
    rename_i hi
    split
    swap
    · exact h
    split
    · exact h.move hi ⟨rfl, rfl⟩ rfl rfl
    · exact h.attempts.move hi ⟨rfl, rfl⟩ rfl rfl
  | review i => exact h.review

/-- No call is under way, and the stays exclude each other. -/
structure Quiet (w : World) : Prop where
  keys : (w.stays.map (·.pk)).Nodup
  saves : ∀ s ∈ w.stays, s.updatedAt ≤ w.saves
  calls : w.calls = []
  exclusive : Exclusive w

theorem Quiet.sane (h : Quiet w) : Sane w :=
  ⟨h.keys, h.saves, by simp [h.calls], by simp [h.calls], by simp [h.calls], by simp [h.calls], by simp [h.calls],
    h.exclusive⟩

/-- Stays of one property that are being paid for or are paid leave a turnover between them, whatever calls there are and
whatever Hostaway and the provider answer, as long as every transaction finds what it has locked. -/
theorem stays_exclude (h : Quiet w) {as : List Action} (hok : Machine.Meets World.step Serial w as) (n : ℕ) :
    Exclusive (Machine.run World.step w (as.take n)) :=
  ((hok.take n).inv (fun _ _ hs ha => hs.step ha) h.sane).exclusive

/-! ### Two stays of one window -/

section Double

def firstStay : Uuid := ⟨"07000000-0000-4000-8000-000000000011", rfl⟩

def secondStay : Uuid := ⟨"07000000-0000-4000-8000-000000000012", rfl⟩

def firstPayment : Uuid := ⟨"07000000-0000-4000-8000-000000000021", rfl⟩

def secondPayment : Uuid := ⟨"07000000-0000-4000-8000-000000000022", rfl⟩

def emptyCalendar : World := ⟨1000, [], [], [], 0⟩

/-- A window of a property on one morning. -/
def morningOf (property : ℕ) (startsAt : Time) : Window := ⟨property, startsAt, startsAt + 5000, 2⟩

/-- A transaction that no other one interrupts. -/
def whole (i : ℕ) : List Action := [.lock i, .check i, .commit i]

/-- Two stays are created, the second one at another property or at another time, and the holds run out. -/
def twoStays (second : Window) : List Action :=
  .call liveSettings (.create firstStay firstStay (morningOf 1 20000) 100) :: whole 0 ++
    .call liveSettings (.create secondStay secondStay second 100) :: whole 1 ++ [.tick 300]

/-- One after the other, three hours apart. -/
def oneAfterTheOther : List Action :=
  twoStays (morningOf 1 35800) ++ .call liveSettings (.checkout firstStay firstPayment "AM-1") :: whole 2 ++
    .call liveSettings (.checkout secondStay secondPayment "AM-2") :: whole 3

/-- The second stay is moved to the property of the first one while its checkout waits for Hostaway. -/
def movedMeanwhile : List Action :=
  twoStays (morningOf 2 20000) ++ .call liveSettings (.checkout secondStay secondPayment "AM-2") ::
    .call liveSettings (.change secondStay (morningOf 1 20000) 2) :: whole 3 ++
    [.call liveSettings (.checkout firstStay firstPayment "AM-1"), .lock 2, .lock 4, .check 2, .check 4, .commit 2,
      .commit 4]

/-- The second stay is paid and then moved by a process with the settings of the test environment. -/
def movedInTest : List Action :=
  twoStays (morningOf 2 20000) ++ .call liveSettings (.checkout firstStay firstPayment "AM-1") :: whole 2 ++
    .call liveSettings (.checkout secondStay secondPayment "AM-2") :: whole 3 ++
    .reply 3 (.valid "checkout-2") :: .call liveSettings (.verify secondPayment
      ⟨{ answerDocument "000.000.000" with merchantTransactionId := .text "AM-2" }, false, false⟩ []) :: whole 4 ++
    .call { liveSettings with environment := "test" } (.change secondStay (morningOf 1 20000) 5) :: whole 5

theorem emptyCalendar_quiet : Quiet emptyCalendar := ⟨by decide, by decide, rfl, by decide⟩

theorem stays_exclude_in_turn :
    Exclusive (Machine.run World.step emptyCalendar (oneAfterTheOther.take 17)) ∧
      (Machine.run World.step emptyCalendar oneAfterTheOther).stays.map (·.status) = [.processing, .processing] :=
  ⟨stays_exclude emptyCalendar_quiet (by decide +kernel) 17, by decide +kernel⟩

/-- Two stays are taken for the same window of one property, also if no transaction interrupts another. -/
theorem moved_meanwhile_overlaps :
    ¬ Exclusive (Machine.run World.step emptyCalendar movedMeanwhile) ∧
      ¬ Exclusive (Machine.run World.step emptyCalendar movedInTest) := by
  constructor <;> decide +kernel

end Double

end Apartments.Morning.Calendar
