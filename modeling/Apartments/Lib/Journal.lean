import Apartments.Lib.Table
import Mathlib.Data.List.Induction

/-!
# Journals with running balances

A journal is a list of rows in posting order. Every row moves an amount on an account and carries a number,
the balance of the journal and the balance of its account after it. `Chained` says that the numbers count the
rows and that both balances are the sums they stand for; `chained_concat` is the only way a proof about a
posting has to look at the rows before it.
-/

namespace Journal

variable {ρ κ α : Type*} [DecidableEq κ] [AddCommGroup α]

/-- How the columns of a journal are read. -/
structure Columns (ρ κ α : Type*) where
  number : ρ → ℕ
  account : ρ → κ
  amount : ρ → α
  totalAfter : ρ → α
  ownAfter : ρ → α

/-- The balance of an account. -/
def own (c : Columns ρ κ α) (k : κ) (rows : List ρ) : α := Table.total (fun r => c.account r = k) c.amount rows

/-- The balance of the journal. -/
def whole (c : Columns ρ κ α) (rows : List ρ) : α := Table.total (fun _ => true) c.amount rows

/-- Every row is numbered by its place and carries the two balances after it. -/
def Chained (c : Columns ρ κ α) (rows : List ρ) : Prop :=
  ∀ before r after, rows = before ++ r :: after →
    c.number r = before.length + 1 ∧ c.totalAfter r = whole c (before ++ [r]) ∧
      c.ownAfter r = own c (c.account r) (before ++ [r])

variable {c : Columns ρ κ α} {rows : List ρ} {r : ρ} {k : κ}

theorem own_concat : own c k (rows ++ [r]) = own c k rows + if c.account r = k then c.amount r else 0 := by
  simp [own, Table.total_append, Table.total_cons]

omit [DecidableEq κ] in
theorem whole_concat : whole c (rows ++ [r]) = whole c rows + c.amount r := by
  simp [whole, Table.total_append, Table.total_cons]

theorem chained_nil : Chained c [] := fun before r after h => by simp at h

theorem chained_concat : Chained c (rows ++ [r]) ↔ Chained c rows ∧ c.number r = rows.length + 1 ∧
    c.totalAfter r = whole c rows + c.amount r ∧ c.ownAfter r = own c (c.account r) rows + c.amount r := by
  have hlast : own c (c.account r) (rows ++ [r]) = own c (c.account r) rows + c.amount r := by
    rw [own_concat, if_pos rfl]
  rw [← whole_concat, ← hlast]
  constructor
  · intro h
    refine ⟨fun before s after hs => h before s (after ++ [r]) (by simp [hs]), h rows r [] rfl⟩
  · rintro ⟨h, hr⟩ before s after hs
    rcases List.eq_nil_or_concat after with rfl | ⟨after', t, rfl⟩
    · obtain ⟨rfl, hrs⟩ := List.append_inj' hs rfl
      obtain rfl : r = s := by simpa using hrs
      exact hr
    · have hs' : rows ++ [r] = (before ++ s :: after') ++ [t] := by simpa using hs
      exact h before s after' (List.append_inj' hs' rfl).1

/-- The numbers of a chained journal are `1, ..., n` in posting order. -/
theorem Chained.numbers (h : Chained c rows) : rows.map c.number = List.range' 1 rows.length := by
  induction rows using List.reverseRec with
  | nil => rfl
  | append_singleton rows r ih =>
    obtain ⟨hrows, hr, -⟩ := chained_concat.1 h
    rw [List.map_append, ih hrows, List.length_append, List.length_singleton, List.range'_concat]
    simp [hr, Nat.add_comm]

theorem Chained.nodup (h : Chained c rows) : (rows.map c.number).Nodup := by
  rw [h.numbers]
  exact List.nodup_range'

/-- The highest number counts the rows. -/
theorem Chained.max_number (h : Chained c rows) : (rows.map c.number).foldr max 0 = rows.length := by
  rw [h.numbers]
  have hgen : ∀ n s, 0 < s → (List.range' s n).foldr max 0 = if n = 0 then 0 else s + n - 1 := by
    intro n
    induction n with
    | zero => simp
    | succ n ih =>
      intro s hs
      rw [List.range'_succ, List.foldr_cons, ih (s + 1) (by omega), if_neg n.succ_ne_zero]
      split <;> omega
  rw [hgen _ 1 one_pos]
  split <;> omega

theorem Chained.number_le (h : Chained c rows) (hr : r ∈ rows) : 0 < c.number r ∧ c.number r ≤ rows.length := by
  have := List.mem_map_of_mem (f := c.number) hr
  rw [h.numbers, List.mem_range'_1] at this
  omega

end Journal
