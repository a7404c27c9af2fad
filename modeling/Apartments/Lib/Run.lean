import Mathlib.Data.List.Basic

/-!
# Runs of a machine under a guard

A machine is a total `step : σ → α → σ`: an action that is not enabled, or an operation that fails and
rolls back, leaves the state as it is. `run` takes a list of actions, `Meets` says that every action of
the list satisfies a guard in the state it is taken in. `inv` is the only induction over runs: what the
guarded steps preserve holds at the end of every guarded run. `rel` is its two-state form.
-/

namespace Machine

variable {σ α : Type*}

/-- The state after the actions `as` from `s`. -/
def run (step : σ → α → σ) (s : σ) (as : List α) : σ := as.foldl step s

/-- Every action of `as` satisfies the guard `ok` in the state it is taken in. -/
def Meets (step : σ → α → σ) (ok : σ → α → Prop) : σ → List α → Prop
  | _, [] => True
  | s, a :: as => ok s a ∧ Meets step ok (step s a) as

variable {step : σ → α → σ} {ok : σ → α → Prop} {I : σ → Prop} {R : σ → σ → Prop} {s : σ} {a : α} {as bs : List α}

@[simp] theorem run_nil : run step s [] = s := rfl

@[simp] theorem run_cons : run step s (a :: as) = run step (step s a) as := rfl

theorem run_append : run step s (as ++ bs) = run step (run step s as) bs := List.foldl_append

@[simp] theorem meets_nil : Meets step ok s [] := trivial

@[simp] theorem meets_cons : Meets step ok s (a :: as) ↔ ok s a ∧ Meets step ok (step s a) as := Iff.rfl

theorem meets_append : Meets step ok s (as ++ bs) ↔ Meets step ok s as ∧ Meets step ok (run step s as) bs := by
  induction as generalizing s with
  | nil => simp
  | cons a as ih => simp [ih, and_assoc]

/-- A run is guarded iff each of its actions satisfies the guard in the state that the actions before it lead to. -/
theorem meets_iff_getElem? :
    Meets step ok s as ↔ ∀ n a, as[n]? = some a → ok (run step s (as.take n)) a := by
  induction as generalizing s with
  | nil => simp
  | cons b as ih =>
    rw [meets_cons, ih]
    constructor
    · rintro ⟨hb, hrest⟩ (_ | n) a ha
      · obtain rfl : b = a := Option.some.inj ha
        exact hb
      · exact hrest n a ha
    · exact fun h => ⟨h 0 b rfl, fun n a ha => h (n + 1) a ha⟩

theorem Meets.drop (h : Meets step ok s as) (n : ℕ) : Meets step ok (run step s (as.take n)) (as.drop n) := by
  rw [← List.take_append_drop n as] at h
  exact (meets_append.1 h).2

theorem Meets.take (h : Meets step ok s as) (n : ℕ) : Meets step ok s (as.take n) := by
  rw [← List.take_append_drop n as] at h
  exact (meets_append.1 h).1

instance Meets.decidable (step : σ → α → σ) (ok : σ → α → Prop) [∀ s a, Decidable (ok s a)] :
    ∀ (s : σ) (as : List α), Decidable (Meets step ok s as)
  | _, [] => .isTrue trivial
  | s, a :: as =>
    have := Meets.decidable step ok (step s a) as
    inferInstanceAs (Decidable (ok s a ∧ Meets step ok (step s a) as))

theorem Meets.mono {ok' : σ → α → Prop} (hok : ∀ s a, ok s a → ok' s a) (h : Meets step ok s as) :
    Meets step ok' s as := by
  induction as generalizing s with
  | nil => trivial
  | cons a as ih => exact ⟨hok s a h.1, ih h.2⟩

/-- What every guarded step preserves holds at the end of a guarded run. -/
theorem Meets.inv (hstep : ∀ s a, I s → ok s a → I (step s a)) (h : Meets step ok s as) (h0 : I s) :
    I (run step s as) := by
  induction as generalizing s with
  | nil => exact h0
  | cons a as ih => exact ih h.2 (hstep s a h0 h.1)

/-- A reflexive and transitive relation that holds across every guarded step holds across a guarded run. -/
theorem Meets.rel (hinv : ∀ s a, I s → ok s a → I (step s a)) (hrefl : ∀ s, R s s)
    (htrans : ∀ s t u, R s t → R t u → R s u) (hstep : ∀ s a, I s → ok s a → R s (step s a))
    (h : Meets step ok s as) (h0 : I s) : R s (run step s as) := by
  induction as generalizing s with
  | nil => exact hrefl s
  | cons a as ih => exact htrans _ _ _ (hstep s a h0 h.1) (ih h.2 (hinv s a h0 h.1))

/-- A run is guarded throughout iff it never leaves `J`, if a step stays in `J` exactly when it is guarded. -/
theorem meets_iff {J : σ → Prop} (hinv : ∀ s a, I s → J s → I (step s a))
    (hstep : ∀ s a, I s → J s → (ok s a ↔ J (step s a))) (h0 : I s) (hJ : J s) :
    Meets step ok s as ↔ ∀ n, J (run step s (as.take n)) := by
  induction as generalizing s with
  | nil => simpa using hJ
  | cons a as ih =>
    rw [meets_cons, hstep s a h0 hJ]
    constructor
    · rintro ⟨hJ', hok⟩ (_ | n)
      · exact hJ
      · exact (ih (hinv s a h0 hJ) hJ').1 hok n
    · intro h
      have hJ' : J (step s a) := h 1
      exact ⟨hJ', (ih (hinv s a h0 hJ) hJ').2 fun n => h (n + 1)⟩

/-- A run is guarded throughout iff a property that once holds is never lost in it, if a step keeps the property exactly
when it is guarded. -/
theorem meets_iff_stays {ι : Sort*} {P : σ → ι → Prop} (hinv : ∀ s a, I s → I (step s a))
    (hstep : ∀ s a, I s → (ok s a ↔ ∀ x, P s x → P (step s a) x)) (h0 : I s) :
    Meets step ok s as ↔ ∀ n k x, n ≤ k → P (run step s (as.take n)) x → P (run step s (as.take k)) x := by
  induction as generalizing s with
  | nil => simp
  | cons a as ih =>
    rw [meets_cons, hstep s a h0, ih (hinv s a h0)]
    constructor
    · rintro ⟨hone, hrest⟩ n k x hnk hP
      match n, k, hnk with
      | 0, 0, _ => exact hP
      | 0, k + 1, _ => exact hrest 0 k x (Nat.zero_le k) (hone x hP)
      | n + 1, k + 1, hnk => exact hrest n k x (Nat.le_of_succ_le_succ hnk) hP
    · intro h
      exact ⟨fun x => h 0 1 x (Nat.zero_le 1), fun n k x hnk => h (n + 1) (k + 1) x (Nat.succ_le_succ hnk)⟩

/-- What every step preserves holds at the end of every run. -/
theorem run_inv (hstep : ∀ s a, I s → I (step s a)) (h0 : I s) (as : List α) : I (run step s as) := by
  induction as generalizing s with
  | nil => exact h0
  | cons a as ih => exact ih (hstep s a h0)

/-- What does not hold at the start of a run and holds at its end begins to hold with one of its steps. -/
theorem becomes {P : σ → Prop} (h0 : ¬P s) (h : P (run step s as)) :
    ∃ n a, as[n]? = some a ∧ ¬P (run step s (as.take n)) ∧ P (step (run step s (as.take n)) a) := by
  induction as generalizing s with
  | nil => exact absurd h h0
  | cons a as ih =>
    by_cases hP : P (step s a)
    · exact ⟨0, a, rfl, h0, hP⟩
    · obtain ⟨n, b, hb, hbefore, hafter⟩ := ih hP h
      exact ⟨n + 1, b, hb, hbefore, hafter⟩

end Machine
