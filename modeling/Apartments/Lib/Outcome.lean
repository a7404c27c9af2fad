import Mathlib.Data.Option.Basic

/-!
# Outcomes of fallible code

`Outcome m Q E`: a computation that may raise either returns a value with `Q` or raises an error with `E`.
The rules take the `do` block of a function apart statement by statement, so that one walk through its code
settles what it returns and how it can fail.
-/

/-- `if c: raise e`. -/
def raiseIf {ε : Type*} (c : Prop) [Decidable c] (e : ε) : Except ε Unit := if c then .error e else .ok ()

theorem raiseIf_of {ε : Type*} {c : Prop} [Decidable c] {e : ε} (h : c) : raiseIf c e = .error e := if_pos h

theorem raiseIf_of_not {ε : Type*} {c : Prop} [Decidable c] {e : ε} (h : ¬ c) : raiseIf c e = .ok () := if_neg h

theorem raiseIf_eq_ok {ε : Type*} {c : Prop} [Decidable c] {e : ε} {u : Unit} : raiseIf c e = .ok u ↔ ¬ c := by
  by_cases h : c
  · rw [raiseIf_of h]
    exact iff_of_false nofun (not_not_intro h)
  · rw [raiseIf_of_not h]
    exact iff_of_true rfl h

theorem bind_eq_ok {ε : Type*} {α β : Type} {m : Except ε α} {k : α → Except ε β} {b : β} :
    (m >>= k) = .ok b ↔ ∃ a, m = .ok a ∧ k a = .ok b := by
  cases m with
  | ok a => exact ⟨fun h => ⟨a, rfl, h⟩, fun ⟨_, ha, h⟩ => by cases ha; exact h⟩
  | error e => exact ⟨nofun, fun ⟨_, ha, _⟩ => nomatch ha⟩

/-- The value of a lookup; a lookup without a result raises `e`. -/
def found {ε α : Type*} (o : Option α) (e : ε) : Except ε α :=
  match o with
  | some a => .ok a
  | none => .error e

/-- `m` returns a value with `Q` or raises an error with `E`. -/
def Outcome {ε α : Type*} (m : Except ε α) (Q : α → Prop) (E : ε → Prop) : Prop :=
  match m with
  | .ok a => Q a
  | .error e => E e

namespace Outcome

variable {ε : Type*} {α β : Type} {m : Except ε α} {k : α → Except ε β} {Q Q' : α → Prop} {R : β → Prop} {E : ε → Prop}
  {a : α} {e : ε}

theorem of_ok (h : Q a) : Outcome (.ok a : Except ε α) Q E := h

theorem of_pure (h : Q a) : Outcome (pure a : Except ε α) Q E := h

theorem of_error (h : E e) : Outcome (.error e : Except ε α) Q E := h

theorem mono (h : Outcome m Q E) (hQ : ∀ a, Q a → Q' a) : Outcome m Q' E := by
  cases m with
  | ok a => exact hQ a h
  | error e => exact h

theorem weaken {E' : ε → Prop} (h : Outcome m Q E) (hE : ∀ e, E e → E' e) : Outcome m Q E' := by
  cases m with
  | ok a => exact h
  | error e => exact hE e h

/-- Nothing is asked of the value or of the error. -/
theorem any (m : Except ε α) : Outcome m (fun _ => True) fun _ => True := by
  cases m with
  | ok a => trivial
  | error e => trivial

theorem of_eq_ok (h : Outcome m Q E) (hm : m = .ok a) : Q a := by
  subst hm
  exact h

theorem of_eq_error (h : Outcome m Q E) (hm : m = .error e) : E e := by
  subst hm
  exact h

theorem bind (h : Outcome m Q E) (hk : ∀ a, Q a → Outcome (k a) R E) : Outcome (m >>= k) R E := by
  cases m with
  | ok a => exact hk a h
  | error e => exact h

/-- The rule of `bind` that keeps which value was returned. -/
theorem bind_eq (h : Outcome m Q E) (hk : ∀ a, m = .ok a → Q a → Outcome (k a) R E) : Outcome (m >>= k) R E := by
  cases m with
  | ok a => exact hk a rfl h
  | error e => exact h

theorem guard {c : Prop} [Decidable c] {k : Unit → Except ε β} (he : E e) (hk : ¬ c → Outcome (k ()) R E) :
    Outcome (raiseIf c e >>= k) R E := by
  by_cases h : c
  · rw [raiseIf_of h]
    exact he
  · rw [raiseIf_of_not h]
    exact hk h

/-- The rule of `guard` that keeps why the error is raised. -/
theorem guard_of {c : Prop} [Decidable c] {k : Unit → Except ε β} (he : c → E e) (hk : ¬ c → Outcome (k ()) R E) :
    Outcome (raiseIf c e >>= k) R E := by
  by_cases h : c
  · rw [raiseIf_of h]
    exact he h
  · rw [raiseIf_of_not h]
    exact hk h

theorem pass {c : Prop} [Decidable c] {k : Unit → Except ε β} (hc : ¬ c) (hk : Outcome (k ()) R E) :
    Outcome (raiseIf c e >>= k) R E := by
  rw [raiseIf_of_not hc]
  exact hk

theorem last {c : Prop} [Decidable c] {R : Unit → Prop} (he : E e) (hR : R ()) : Outcome (raiseIf c e) R E := by
  by_cases h : c
  · rw [raiseIf_of h]
    exact he
  · rw [raiseIf_of_not h]
    exact hR

theorem lookup {o : Option α} (he : E e) (hk : ∀ a, o = some a → Outcome (k a) R E) :
    Outcome (found o e >>= k) R E := by
  cases o with
  | none => exact he
  | some a => exact hk a rfl

/-- The rule of `lookup` that keeps why the error is raised. -/
theorem lookup_of {o : Option α} (he : o = none → E e) (hk : ∀ a, o = some a → Outcome (k a) R E) :
    Outcome (found o e >>= k) R E := by
  cases o with
  | none => exact he rfl
  | some a => exact hk a rfl

theorem ite {c : Prop} [Decidable c] {m' : Except ε α} (ht : c → Outcome m Q E) (hf : ¬ c → Outcome m' Q E) :
    Outcome (if c then m else m') Q E := by
  by_cases h : c
  · simpa [h] using ht h
  · simpa [h] using hf h

end Outcome
