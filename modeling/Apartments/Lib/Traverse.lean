import Apartments.Lib.Outcome
import Mathlib.Data.List.Dedup
import Mathlib.Data.List.Forall2
import Mathlib.Data.List.Perm.Basic
import Mathlib.Data.List.Sort

/-!
# Blocks and loops that raise nothing

When a block of fallible code returns a value, each of its tests passed and each round of its loops returned one. The
rules are equivalences, so that a checker is read both ways: what its acceptance says, and what is enough for it.
-/

section
variable {ε : Type*} {α β : Type}

theorem found_eq_ok {o : Option α} {e : ε} {a : α} : found o e = .ok a ↔ o = some a := by
  cases o with
  | none => exact iff_of_false nofun nofun
  | some b => exact ⟨fun h => congrArg some (Except.ok.inj h), fun h => congrArg Except.ok (Option.some.inj h)⟩

theorem pure_eq_ok {a b : α} : (pure a : Except ε α) = .ok b ↔ a = b :=
  ⟨fun h => Except.ok.inj h, fun h => congrArg Except.ok h⟩

theorem mapM_eq_ok {f : α → Except ε β} {l : List α} {l' : List β} :
    l.mapM f = .ok l' ↔ List.Forall₂ (fun a b => f a = .ok b) l l' := by
  induction l generalizing l' with
  | nil =>
    rw [List.mapM_nil, pure_eq_ok, List.forall₂_nil_left_iff]
    exact eq_comm
  | cons a l ih =>
    simp only [List.mapM_cons, bind_eq_ok, pure_eq_ok, List.forall₂_cons_left_iff, ih]
    constructor
    · rintro ⟨b, hb, bs, hbs, rfl⟩
      exact ⟨b, bs, hb, hbs, rfl⟩
    · rintro ⟨b, bs, hb, hbs, rfl⟩
      exact ⟨b, hb, bs, hbs, rfl⟩

theorem forM_eq_ok {f : α → Except ε Unit} {l : List α} {u : Unit} : l.forM f = .ok u ↔ ∀ a ∈ l, f a = .ok () := by
  induction l with
  | nil => exact iff_of_true rfl nofun
  | cons a l ih =>
    show (f a >>= fun _ => l.forM f) = .ok u ↔ _
    rw [bind_eq_ok, List.forall_mem_cons, ← ih]
    exact ⟨fun ⟨_, ha, hl⟩ => ⟨ha, hl⟩, fun ⟨ha, hl⟩ => ⟨(), ha, hl⟩⟩

/-- The loop raises nothing when no round does. -/
theorem anyM_of_ok {p : α → Except ε Bool} {q : α → Bool} {l : List α} (h : ∀ a ∈ l, p a = .ok (q a)) :
    l.anyM p = .ok (l.any q) := by
  induction l with
  | nil => rfl
  | cons a l ih =>
    obtain ⟨ha, hl⟩ := List.forall_mem_cons.1 h
    unfold List.anyM
    rw [ha, List.any_cons]
    cases q a with
    | true => rfl
    | false => exact ih hl

theorem toOption_eq_some {m : Except ε α} {a : α} : m.toOption = some a ↔ m = .ok a := by
  cases m with
  | error e => exact iff_of_false (by rintro ⟨⟩) (by rintro ⟨⟩)
  | ok b => exact ⟨fun h => congrArg Except.ok (Option.some.inj h), fun h => congrArg some (Except.ok.inj h)⟩

theorem toOption_bind {m : Except ε α} {k : α → Except ε β} : (m >>= k).toOption = m.toOption.bind fun a => (k a).toOption := by
  cases m <;> rfl

theorem toOption_bind_congr {m m' : Except ε α} {k k' : α → Except ε β} (hm : m.toOption = m'.toOption)
    (hk : ∀ a, (k a).toOption = (k' a).toOption) : (m >>= k).toOption = (m' >>= k').toOption := by
  rw [toOption_bind, toOption_bind, hm]
  exact Option.bind_congr fun a _ => hk a

theorem toOption_found {o : Option α} {e : ε} : (found o e).toOption = o := by
  cases o <;> rfl

theorem toOption_raiseIf {c : Prop} [Decidable c] {e : ε} : (raiseIf c e).toOption = if c then none else some () := by
  by_cases h : c
  · rw [raiseIf_of h, if_pos h]
    rfl
  · rw [raiseIf_of_not h, if_neg h]
    rfl

/-- A loop over some values in any order returns what it returns for each of them. -/
theorem mapM_of_perm {γ : Type*} {f : α → Except ε β} {g : γ → α} {h : γ → β} {l : List α} {xs : List γ}
    (hl : l.Perm (xs.map g)) (hf : ∀ x ∈ xs, f (g x) = .ok (h x)) : ∃ r, l.mapM f = .ok r ∧ r.Perm (xs.map h) := by
  have hall : List.Forall₂ (fun a b => f a = .ok b) (xs.map g) (xs.map h) := by
    rw [List.forall₂_map_right_iff, List.forall₂_map_left_iff, List.forall₂_same]
    exact hf
  obtain ⟨r, hr, hperm⟩ := List.perm_comp_forall₂ hl hall
  exact ⟨r, mapM_eq_ok.2 hr, hperm⟩

end

namespace List

variable {α : Type*} {l : List α}

theorem nodup_eraseDups [DecidableEq α] (l : List α) : l.eraseDups.Nodup := by
  induction hn : l.length using Nat.strongRecOn generalizing l with
  | _ n ih =>
    cases l with
    | nil => exact nodup_nil
    | cons a l =>
      rw [eraseDups_cons]
      have hlt : (l.filter fun b => !b == a).length < n := by
        have := length_filter_le (fun b => !b == a) l
        simp only [length_cons] at hn
        omega
      refine nodup_cons.2 ⟨?_, ih _ hlt _ rfl⟩
      simp

/-- As many as the values of a list are, so many are different. -/
theorem nodup_of_length_dedup [DecidableEq α] (h : l.dedup.length = l.length) : l.Nodup := by
  rw [← dedup_eq_self]
  exact (dedup_sublist l).eq_of_length h

/-- There is one list of some elements that is sorted by their different keys. -/
theorem insertionSort_of_perm {β : Type*} [LinearOrder β] {f : α → β} {l l' : List α} (h : l.Perm l')
    (hl' : l'.Pairwise fun a b => f a < f b) : l.insertionSort (fun a b => f a ≤ f b) = l' := by
  have htotal : Std.Total fun a b : α => f a ≤ f b := ⟨fun a b => le_total (f a) (f b)⟩
  have htrans : IsTrans α fun a b => f a ≤ f b := ⟨fun a b c => le_trans⟩
  have hinj : ∀ a ∈ l', ∀ b ∈ l', f a = f b → a = b :=
    List.inj_on_of_nodup_map (List.pairwise_map.2 (hl'.imp fun hab => hab.ne))
  have hperm := (l.perm_insertionSort fun a b => f a ≤ f b).trans h
  refine hperm.eq_of_pairwise (fun a b ha hb hab hba => ?_) (l.pairwise_insertionSort _) (hl'.imp le_of_lt)
  exact hinj a (hperm.mem_iff.1 ha) b hb (le_antisymm hab hba)

/-- The elements by their keys. -/
theorem perm_flatMap_filter {κ : Type*} [DecidableEq κ] {f : α → κ} {keys : List κ} (hkeys : keys.Nodup)
    (h : ∀ a ∈ l, f a ∈ keys) : (keys.flatMap fun k => l.filter (f · == k)).Perm l := by
  induction keys generalizing l with
  | nil =>
    obtain rfl : l = [] := eq_nil_iff_forall_not_mem.2 fun a ha => by simpa using h a ha
    rfl
  | cons k keys ih =>
    obtain ⟨hk, hkeys⟩ := nodup_cons.1 hkeys
    have hrest : (keys.flatMap fun k' => l.filter (f · == k')) =
        keys.flatMap fun k' => (l.filter (!f · == k)).filter (f · == k') := by
      refine flatMap_congr fun k' hk' => ?_
      rw [filter_filter]
      refine filter_congr fun a _ => ?_
      have hne : k' ≠ k := fun heq => hk (heq ▸ hk')
      grind
    rw [flatMap_cons, hrest]
    refine (Perm.append_left _ (ih hkeys fun a ha => ?_)).trans (filter_append_perm (f · == k) l)
    obtain ⟨ha, hne⟩ := mem_filter.1 ha
    have := h a ha
    grind

end List
