import Mathlib.Algebra.BigOperators.Group.List.Basic
import Mathlib.Algebra.Order.BigOperators.Group.List
import Mathlib.Data.List.Nodup
import Mathlib.Data.List.Perm.Basic
import Mathlib.Tactic.Abel

/-!
# Keyed tables as lists

A database table is a list of rows with a key. `get` reads the row of a key, `modify` rewrites it and
`total p v` adds the values `v` of the rows that satisfy `p`. `total_modify` says what rewriting one row
does to a total, which is all that a proof about a sum over a table needs from the table.
-/

namespace Table

variable {α κ M : Type*} [DecidableEq κ] {key : α → κ} {l : List α} {k : κ} {a b : α} {f : α → α}

/-- The row of key `k`. -/
def get (key : α → κ) (l : List α) (k : κ) : Option α := l.find? fun a => key a = k

/-- Rewrites the row of key `k` by `f`. -/
def modify (key : α → κ) (l : List α) (k : κ) (f : α → α) : List α := l.map fun a => if key a = k then f a else a

/-- The first row in the order `before`; of rows that tie, the one that stands first. -/
def first (before : α → α → Bool) : List α → Option α
  | [] => none
  | a :: l =>
    match first before l with
    | none => some a
    | some b => if before b a then some b else some a

/-- The sum of `v` over the rows that satisfy `p`. -/
def total [AddZeroClass M] (p : α → Bool) (v : α → M) (l : List α) : M := ((l.filter p).map v).sum

theorem mem_of_first {before : α → α → Bool} (h : first before l = some a) : a ∈ l := by
  induction l with
  | nil => simp [first] at h
  | cons b l ih =>
    rw [first] at h
    split at h
    · simp_all
    · rename_i c hc
      split at h
      · exact List.mem_cons_of_mem _ (ih (h ▸ hc))
      · simp_all

theorem first_eq_none {before : α → α → Bool} : first before l = none ↔ l = [] := by
  cases l with
  | nil => simp [first]
  | cons a l =>
    rw [first]
    split
    · simp
    · split <;> simp

theorem mem_of_get (h : get key l k = some a) : a ∈ l := List.mem_of_find?_eq_some h

theorem key_of_get (h : get key l k = some a) : key a = k := by
  simpa using List.find?_some h

theorem get_eq_of_mem (hnd : (l.map key).Nodup) (ha : a ∈ l) : get key l (key a) = some a := by
  induction l with
  | nil => simp at ha
  | cons b l ih =>
    simp only [List.map_cons, List.nodup_cons, List.mem_map, not_exists, not_and] at hnd
    rcases List.mem_cons.1 ha with rfl | ha
    · simp [get]
    · have hne : key b ≠ key a := fun h => hnd.1 a ha h.symm
      simpa [get, hne] using ih hnd.2 ha

theorem eq_of_mem_of_key (hnd : (l.map key).Nodup) (ha : a ∈ l) (hb : b ∈ l) (h : key a = key b) : a = b := by
  have h1 := get_eq_of_mem hnd ha
  rw [h, get_eq_of_mem hnd hb] at h1
  exact (Option.some.inj h1).symm

theorem get_eq_none : get key l k = none ↔ ∀ a ∈ l, key a ≠ k := by
  simp [get]

/-- At most one row has a key. -/
theorem filter_eq_get (hnd : (l.map key).Nodup) (k : κ) : (l.filter fun a => key a = k) = (get key l k).toList := by
  induction l with
  | nil => rfl
  | cons a l ih =>
    obtain ⟨ha, hl⟩ := List.nodup_cons.1 hnd
    by_cases hk : key a = k
    · have hnone : get key l k = none := get_eq_none.2 fun b hb hb' => ha (List.mem_map.2 ⟨b, hb, hb'.trans hk.symm⟩)
      rw [List.filter_cons_of_pos (by simpa using hk), ih hl, hnone, get, List.find?_cons_of_pos (by simpa using hk)]
      rfl
    · rw [List.filter_cons_of_neg (by simpa using hk), ih hl, get, get, List.find?_cons_of_neg (by simpa using hk)]

theorem map_key_modify (hf : ∀ a, key a = k → key (f a) = k) : (modify key l k f).map key = l.map key := by
  simp only [modify, List.map_map]
  refine List.map_congr_left fun a _ => ?_
  by_cases h : key a = k <;> simp [h, hf]

theorem mem_modify : b ∈ modify key l k f ↔ ∃ a ∈ l, (if key a = k then f a else a) = b := by
  simp [modify]

theorem mem_modify_of_ne (ha : a ∈ l) (h : key a ≠ k) : a ∈ modify key l k f :=
  mem_modify.2 ⟨a, ha, by simp [h]⟩

theorem get_modify_self (hf : ∀ a, key a = k → key (f a) = k) : get key (modify key l k f) k = (get key l k).map f := by
  induction l with
  | nil => rfl
  | cons a l ih =>
    by_cases h : key a = k
    · simp [get, modify, h, hf]
    · simpa [get, modify, h] using ih

theorem get_modify_ne {k' : κ} (hf : ∀ a, key a = k → key (f a) = k) (hk : k' ≠ k) :
    get key (modify key l k f) k' = get key l k' := by
  induction l with
  | nil => rfl
  | cons a l ih =>
    have hi : get key (modify key l k f) k' = get key l k' := ih
    by_cases h : key a = k
    · have hne : key a ≠ k' := fun h' => hk (h'.symm.trans h)
      simpa [get, modify, h, hf, hk.symm] using hi
    · by_cases h' : key a = k'
      · simp [get, modify, h', hk]
      · simpa [get, modify, h, h'] using hi

/-- The row is saved in the place of the one that has its key, or as a new one. -/
def put (key : α → κ) (l : List α) (b : α) : List α :=
  match get key l (key b) with
  | some _ => modify key l (key b) fun _ => b
  | none => l ++ [b]

theorem mem_put : a ∈ put key l b ↔ a = b ∨ (a ∈ l ∧ key a ≠ key b) := by
  unfold put
  split
  case h_1 c hc =>
    rw [mem_modify]
    constructor
    · rintro ⟨d, hd, rfl⟩
      split
      · exact .inl rfl
      · rename_i hne
        exact .inr ⟨hd, hne⟩
    · rintro (rfl | ⟨ha, hne⟩)
      · exact ⟨c, mem_of_get hc, if_pos (key_of_get hc)⟩
      · exact ⟨a, ha, if_neg hne⟩
  case h_2 hnone =>
    rw [List.mem_append, List.mem_singleton]
    constructor
    · rintro (ha | rfl)
      · exact .inr ⟨ha, get_eq_none.1 hnone a ha⟩
      · exact .inl rfl
    · rintro (rfl | ⟨ha, -⟩)
      · exact .inr rfl
      · exact .inl ha

theorem nodup_put (hnd : (l.map key).Nodup) : ((put key l b).map key).Nodup := by
  unfold put
  split
  case h_1 => rwa [map_key_modify fun _ hk => hk ▸ rfl]
  case h_2 hnone =>
    rw [List.map_append]
    refine List.nodup_append.2 ⟨hnd, List.nodup_singleton _, ?_⟩
    rintro k hk k' hk' rfl
    obtain ⟨c, hc, rfl⟩ := List.mem_map.1 hk
    exact get_eq_none.1 hnone c hc (List.mem_singleton.1 hk')

/-- A row with a new key is appended. -/
theorem put_of_get_none (h : get key l (key b) = none) : put key l b = l ++ [b] := by
  rw [put, h]

theorem get_put_self : get key (put key l b) (key b) = some b := by
  unfold put
  split
  case h_1 c hc => rw [get_modify_self fun _ _ => rfl, hc, Option.map_some]
  case h_2 hnone =>
    show List.find? _ (l ++ [b]) = some b
    have hl : l.find? (fun a => key a = key b) = none := hnone
    rw [List.find?_append, hl, Option.none_or]
    simp

theorem get_put_ne {k' : κ} (hk : k' ≠ key b) : get key (put key l b) k' = get key l k' := by
  unfold put
  split
  case h_1 => exact get_modify_ne (fun _ _ => rfl) hk
  case h_2 =>
    have hb : ¬ key b = k' := fun h => hk h.symm
    simp [get, List.find?_append, hb]

theorem get_map (hf : ∀ a, key (f a) = key a) : get key (l.map f) k = (get key l k).map f := by
  have hcomp : (fun a => decide (key a = k)) ∘ f = fun a => decide (key a = k) := by
    funext a
    simp only [Function.comp_apply, hf]
  rw [get, get, List.find?_map, hcomp]

theorem get_append {l' : List α} : get key (l ++ l') k = (get key l k).or (get key l' k) := by
  simp [get, List.find?_append]

/-- Only the row of the key matters to a rewriting of it. -/
theorem modify_eq_of_get (hnd : (l.map key).Nodup) (h : get key l k = some a) :
    modify key l k f = modify key l k fun _ => f a := by
  refine List.map_congr_left fun b hb => ?_
  by_cases hk : key b = k
  · obtain rfl : b = a := eq_of_mem_of_key hnd hb (mem_of_get h) (hk.trans (key_of_get h).symm)
    rfl
  · simp [hk]

theorem modify_of_get_none (h : get key l k = none) : modify key l k f = l := by
  rw [get_eq_none] at h
  refine (List.map_congr_left fun a ha => ?_).trans (List.map_id _)
  simp [h a ha]

/-! ### Rows by position -/

section Position

variable {i : ℕ} {c : α}

omit [DecidableEq κ]

theorem perm_of_getElem? (h : l[i]? = some a) : l.Perm (a :: l.eraseIdx i) := by
  obtain ⟨hi, rfl⟩ := List.getElem?_eq_some_iff.1 h
  exact (List.getElem_cons_eraseIdx_perm hi).symm

/-- A row that stays when the one at `i` is taken out has another key. -/
theorem mem_eraseIdx_cases (hnd : (l.map key).Nodup) (h : l[i]? = some a) (hc : c ∈ l.eraseIdx i) :
    c ∈ l ∧ key c ≠ key a := by
  refine ⟨List.mem_of_mem_eraseIdx hc, fun hk => ?_⟩
  have hnd' := ((perm_of_getElem? h).map key).nodup_iff.1 hnd
  rw [List.map_cons, List.nodup_cons] at hnd'
  exact hnd'.1 (hk ▸ List.mem_map_of_mem hc)

theorem nodup_eraseIdx (hnd : (l.map key).Nodup) : ((l.eraseIdx i).map key).Nodup :=
  hnd.sublist ((List.eraseIdx_sublist ..).map key)

/-- A row that is there when the one at `i` is replaced is the new one, or has another key. -/
theorem mem_set_cases (hnd : (l.map key).Nodup) (h : l[i]? = some a) (hc : c ∈ l.set i b) :
    c = b ∨ c ∈ l ∧ key c ≠ key a := by
  have hi := (List.getElem?_eq_some_iff.1 h).1
  rcases List.mem_cons.1 ((List.set_perm_cons_eraseIdx hi b).mem_iff.1 hc) with rfl | hc
  · exact .inl rfl
  · exact .inr (mem_eraseIdx_cases hnd h hc)

theorem map_key_set (h : l[i]? = some a) (hb : key b = key a) : (l.set i b).map key = l.map key := by
  obtain ⟨hi, rfl⟩ := List.getElem?_eq_some_iff.1 h
  rw [List.map_set, hb, ← List.getElem_map key (h := by simpa using hi), List.set_getElem_self]

end Position

/-- Replacing a row at its place is modifying it under its key. -/
theorem set_eq_modify {i : ℕ} (hnd : (l.map key).Nodup) (h : l[i]? = some a) : l.set i b = modify key l (key a) fun _ => b := by
  refine List.ext_getElem? fun j => ?_
  rw [List.getElem?_set, modify, List.getElem?_map]
  obtain ⟨hi, rfl⟩ := List.getElem?_eq_some_iff.1 h
  by_cases hij : i = j
  · subst hij
    rw [if_pos rfl, if_pos hi, h, Option.map_some, if_pos rfl]
  · rw [if_neg hij]
    cases hj : l[j]? with
    | none => rfl
    | some c =>
      obtain ⟨hlast, rfl⟩ := List.getElem?_eq_some_iff.1 hj
      have hne : key l[j] ≠ key l[i] := by
        intro hkey
        have hkeys := List.nodup_iff_getElem?_ne_getElem?.1 hnd
        rcases lt_or_gt_of_ne hij with hlt | hlt
        · exact hkeys i j hlt (by simpa using hlast) (by simp [hi, hlast, hkey])
        · exact hkeys j i hlt (by simpa using hi) (by simp [hi, hlast, hkey])
      rw [Option.map_some, if_neg hne]

/-- Modifying a row in a way that a predicate does not see keeps the number of rows that satisfy it. -/
theorem countP_modify (hnd : (l.map key).Nodup) (hget : get key l k = some a) {q : α → Bool} (hq : q (f a) = q a) :
    (modify key l k f).countP q = l.countP q := by
  rw [modify, List.countP_map]
  refine List.countP_congr fun c hc => ?_
  by_cases hk : key c = k
  · obtain rfl : c = a := eq_of_mem_of_key hnd hc (mem_of_get hget) (hk.trans (key_of_get hget).symm)
    simp [hk, hq]
  · simp [hk]

section Total

variable [AddCommGroup M] {p q : α → Bool} {v : α → M}

@[simp] theorem total_nil : total p v [] = 0 := rfl

theorem total_cons : total p v (a :: l) = (if p a then v a else 0) + total p v l := by
  by_cases h : p a <;> simp [total, h]

theorem total_append {l' : List α} : total p v (l ++ l') = total p v l + total p v l' := by
  simp [total]

theorem total_congr {w : α → M} (h : ∀ a ∈ l, (if p a then v a else 0) = if q a then w a else 0) :
    total p v l = total q w l := by
  induction l with
  | nil => rfl
  | cons a l ih =>
    rw [total_cons, total_cons, h a (by simp), ih fun b hb => h b (by simp [hb])]

theorem total_eq_zero (h : ∀ a ∈ l, p a = false) : total p v l = 0 := by
  induction l with
  | nil => rfl
  | cons a l ih => rw [total_cons, h a (by simp), ih fun b hb => h b (by simp [hb])]; simp

theorem total_eq_zero_of (h : ∀ a ∈ l, p a = true → v a = 0) : total p v l = 0 := by
  induction l with
  | nil => rfl
  | cons a l ih =>
    rw [total_cons, ih fun b hb => h b (by simp [hb]), add_zero]
    split
    · exact h a (by simp) (by assumption)
    · rfl

/-- Rewriting one row replaces its contribution. -/
theorem total_modify (hnd : (l.map key).Nodup) (hget : get key l k = some a) :
    total p v (modify key l k f) =
      total p v l - (if p a then v a else 0) + if p (f a) then v (f a) else 0 := by
  induction l with
  | nil => simp [get] at hget
  | cons b l ih =>
    simp only [List.map_cons, List.nodup_cons, List.mem_map, not_exists, not_and] at hnd
    by_cases h : key b = k
    · have hb : b = a := by simpa [get, h] using hget
      subst hb
      have hrest : modify key l k f = l := modify_of_get_none (get_eq_none.2 fun c hc hk => hnd.1 c hc (hk.trans h.symm))
      have hmod : modify key (b :: l) k f = f b :: modify key l k f := by simp [modify, h]
      rw [hmod, hrest, total_cons, total_cons]
      abel
    · have hget' : get key l k = some a := by simpa [get, h] using hget
      have hmod : modify key (b :: l) k f = b :: modify key l k f := by simp [modify, h]
      rw [hmod, total_cons, total_cons, ih hnd.2 hget']
      abel

theorem total_split (q : α → Bool) :
    total p v l = total (fun a => p a && q a) v l + total (fun a => p a && !q a) v l := by
  induction l with
  | nil => simp
  | cons a l ih =>
    rw [total_cons, total_cons, total_cons, ih]
    cases p a <;> cases q a <;> simp <;> abel

/-- A total is that of the rows with each of some labels, and that of the others. -/
theorem total_labels {ι : Type*} [DecidableEq ι] (label : α → Option ι) {ks : List ι} (hks : ks.Nodup) :
    total p v l = (ks.map fun k => total (fun a => p a && label a == some k) v l).sum +
      total (fun a => p a && !ks.any fun k => label a == some k) v l := by
  induction ks generalizing p with
  | nil => simp
  | cons k ks ih =>
    obtain ⟨hk, hks⟩ := List.nodup_cons.1 hks
    have hother : ∀ k' ∈ ks, total (fun a => (p a && !(label a == some k)) && label a == some k') v l =
        total (fun a => p a && label a == some k') v l := by
      intro k' hk'
      refine total_congr fun a _ => ?_
      by_cases h : label a = some k'
      · have hne : k' ≠ k := fun he => hk (he ▸ hk')
        simp [h, hne]
      · simp [h]
    rw [total_split fun a => label a == some k, ih (p := fun a => p a && !(label a == some k)) hks,
      List.map_congr_left hother, List.map_cons, List.sum_cons, add_assoc]
    simp only [List.any_cons, Bool.not_or, Bool.and_assoc]

variable [PartialOrder M] [IsOrderedAddMonoid M]

theorem total_nonneg (h : ∀ a ∈ l, p a → 0 ≤ v a) : 0 ≤ total p v l := by
  refine List.sum_nonneg fun x hx => ?_
  obtain ⟨a, ha, rfl⟩ := List.mem_map.1 hx
  rw [List.mem_filter] at ha
  exact h a ha.1 ha.2

/-- Fewer rows of nonnegative value have a smaller total. -/
theorem total_le_total (h : ∀ a ∈ l, (if p a then v a else 0) ≤ if q a then v a else 0) :
    total p v l ≤ total q v l := by
  induction l with
  | nil => exact le_rfl
  | cons a l ih =>
    rw [total_cons, total_cons]
    exact add_le_add (h a (by simp)) (ih fun b hb => h b (by simp [hb]))

end Total

/-- Replacing one element replaces its share of a sum. -/
theorem sum_map_set {f : α → ℕ} {l : List α} {i : ℕ} {a b : α} (h : l[i]? = some a) :
    ((l.set i b).map f).sum + f a = (l.map f).sum + f b := by
  induction l generalizing i with
  | nil => simp at h
  | cons c l ih =>
    cases i with
    | zero =>
      obtain rfl : c = a := by simpa using h
      simp only [List.set_cons_zero, List.map_cons, List.sum_cons]
      omega
    | succ i =>
      have := ih (i := i) (by simpa using h)
      simp only [List.set_cons_succ, List.map_cons, List.sum_cons]
      omega

end Table
