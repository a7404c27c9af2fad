import Apartments.Lib.Run
import Mathlib.Data.List.Basic

/-!
# Rewriting one record under locks

Transactions that read a record, compute a new one from it and write it whole, at read committed isolation: a read sees
the last committed record, and a write blocks until no other transaction holds the row. A transaction takes its `early`
locks before it reads, its `late` locks and the row before it writes, and keeps all of them until it ends. A record that
is read with the row among the early locks is read under its lock.

`stale` is the step at which an update is lost: a transaction writes a record that has changed since it read it. In a
run without such a step the record is the replay of the committed writers in the order they committed
(`Serial.replayed`). In every run only a writer that shares no lock with the reader can have committed in between
(`Inv.of_stale`).
-/

namespace Locks

variable {δ ι κ : Type*} [DecidableEq κ]

structure Protocol (δ ι κ : Type*) where
  early : ι → List κ
  late : ι → List κ
  row : κ
  /-- The record a writer makes of the one it has read; `none` ends it without a write. -/
  apply : ι → δ → Option δ

/-- The locks a writer holds when it commits. -/
def Protocol.all (p : Protocol δ ι κ) (x : ι) : List κ := p.row :: (p.early x ++ p.late x)

/-- The record after writers that run one after the other. -/
def Protocol.replay (p : Protocol δ ι κ) : δ → List ι → Option δ
  | d, [] => some d
  | d, x :: xs => (p.apply x d).bind fun d' => p.replay d' xs

inductive Phase (δ : Type*)
  | begun
  | locked
  | read (seen : δ) (since : ℕ)
  | written (new : δ)
  | ended
deriving DecidableEq

structure Tx (δ ι : Type*) where
  writer : ι
  phase : Phase δ
deriving DecidableEq

structure World (δ ι : Type*) where
  stored : δ
  txs : List (Tx δ ι)
  /-- The committed writers, in the order of their commits. -/
  log : List ι
deriving DecidableEq

inductive Action (ι : Type*)
  | start (x : ι)
  | lock (i : ℕ)
  | read (i : ℕ)
  | write (i : ℕ)
  | commit (i : ℕ)
  | abort (i : ℕ)
deriving DecidableEq

def Tx.held (p : Protocol δ ι κ) (t : Tx δ ι) : List κ :=
  match t.phase with
  | .begun | .ended => []
  | .locked | .read .. => p.early t.writer
  | .written _ => p.all t.writer

namespace World

variable (p : Protocol δ ι κ) (w : World δ ι)

/-- No transaction but `i` holds any of these locks. -/
def free (i : ℕ) (ks : List κ) : Bool :=
  (w.txs.eraseIdx i).all fun t => (t.held p).all fun k => !ks.contains k

def put (i : ℕ) (t : Tx δ ι) : World δ ι := { w with txs := w.txs.set i t }

def step : Action ι → World δ ι
  | .start x => { w with txs := w.txs ++ [⟨x, .begun⟩] }
  | .lock i =>
    match w.txs[i]? with
    | some ⟨x, .begun⟩ => if w.free p i (p.early x) then w.put i ⟨x, .locked⟩ else w
    | _ => w
  | .read i =>
    match w.txs[i]? with
    | some ⟨x, .locked⟩ => w.put i ⟨x, .read w.stored w.log.length⟩
    | _ => w
  | .write i =>
    match w.txs[i]? with
    | some ⟨x, .read seen _⟩ =>
      match p.apply x seen with
      | none => w.put i ⟨x, .ended⟩
      | some new => if w.free p i (p.all x) then w.put i ⟨x, .written new⟩ else w
    | _ => w
  | .commit i =>
    match w.txs[i]? with
    | some ⟨x, .written new⟩ => { stored := new, txs := w.txs.set i ⟨x, .ended⟩, log := w.log ++ [x] }
    | _ => w
  | .abort i =>
    match w.txs[i]? with
    | some ⟨x, _⟩ => w.put i ⟨x, .ended⟩
    | none => w

/-- The writers that have committed since a transaction read the record that it writes now. -/
def missed : Action ι → List ι
  | .write i =>
    match w.txs[i]? with
    | some ⟨_, .read _ since⟩ => w.log.drop since
    | _ => []
  | _ => []

/-- A transaction writes a record that is no longer the one it has read. -/
def stale [DecidableEq δ] : Action ι → Bool
  | .write i =>
    match w.txs[i]? with
    | some ⟨x, .read seen _⟩ => (p.apply x seen).isSome && seen != w.stored
    | _ => false
  | _ => false

end World

/-- What an action can do. -/
inductive Step (p : Protocol δ ι κ) (w : World δ ι) : Action ι → World δ ι → Prop
  | same {a} : Step p w a w
  | started {x} : Step p w (.start x) { w with txs := w.txs ++ [⟨x, .begun⟩] }
  | locked {i x} : w.txs[i]? = some ⟨x, .begun⟩ → w.free p i (p.early x) = true →
      Step p w (.lock i) (w.put i ⟨x, .locked⟩)
  | read {i x} : w.txs[i]? = some ⟨x, .locked⟩ → Step p w (.read i) (w.put i ⟨x, .read w.stored w.log.length⟩)
  | written {i x seen since new} : w.txs[i]? = some ⟨x, .read seen since⟩ → p.apply x seen = some new →
      w.free p i (p.all x) = true → Step p w (.write i) (w.put i ⟨x, .written new⟩)
  | committed {i x new} : w.txs[i]? = some ⟨x, .written new⟩ →
      Step p w (.commit i) { stored := new, txs := w.txs.set i ⟨x, .ended⟩, log := w.log ++ [x] }
  | ended {a i x phase} : w.txs[i]? = some ⟨x, phase⟩ → Step p w a (w.put i ⟨x, .ended⟩)

variable {p : Protocol δ ι κ} {w w' : World δ ι} {i j : ℕ} {t u : Tx δ ι} {x : ι} {a : Action ι} {ks : List κ} {d : δ}

theorem step_step (p : Protocol δ ι κ) (w : World δ ι) (a : Action ι) : Step p w a (w.step p a) := by
  cases a with
  | start x => exact .started
  | lock i =>
    simp only [World.step]
    split
    · split
      · exact .locked (by assumption) (by assumption)
      · exact .same
    · exact .same
  | read i =>
    simp only [World.step]
    split
    · exact .read (by assumption)
    · exact .same
  | write i =>
    simp only [World.step]
    split
    · split
      · exact .ended (by assumption)
      · split
        · exact .written (by assumption) (by assumption) (by assumption)
        · exact .same
    · exact .same
  | commit i =>
    simp only [World.step]
    split
    · exact .committed (by assumption)
    · exact .same
  | abort i =>
    simp only [World.step]
    split
    · exact .ended (by assumption)
    · exact .same

theorem of_free (h : w.free p i ks = true) (hij : j ≠ i) (hj : w.txs[j]? = some u) : ∀ k ∈ u.held p, k ∉ ks := by
  intro k hk hks
  simp only [World.free, List.all_eq_true] at h
  have := h u (List.mem_eraseIdx_iff_getElem?.2 ⟨j, hij, hj⟩) k hk
  simp [hks] at this

theorem getElem?_put (hi : w.txs[i]? = some t) : (w.put i u).txs[j]? = if j = i then some u else w.txs[j]? := by
  obtain ⟨hlt, -⟩ := List.getElem?_eq_some_iff.1 hi
  simp only [World.put, List.getElem?_set]
  split_ifs with h1 h2 h2
  · rfl
  · exact absurd h1.symm h2
  · exact absurd h2.symm h1
  · rfl

theorem getElem?_started (h : (w.txs ++ [t])[j]? = some u) : w.txs[j]? = some u ∨ u = t := by
  rw [List.getElem?_append] at h
  split_ifs at h with hlt
  · exact .inl h
  · exact .inr (List.mem_singleton.1 (List.mem_of_getElem? h))

/-- What every run keeps: no lock is held twice, and who has committed since a record was read shares no lock with the
reader. -/
structure Inv (p : Protocol δ ι κ) (w : World δ ι) : Prop where
  excl : ∀ (i j : ℕ) (t u : Tx δ ι), w.txs[i]? = some t → w.txs[j]? = some u → i ≠ j → ∀ k ∈ t.held p, k ∉ u.held p
  reading : ∀ (i : ℕ) (x : ι) (seen : δ) (since : ℕ), w.txs[i]? = some ⟨x, .read seen since⟩ → since ≤ w.log.length ∧
    (since = w.log.length → seen = w.stored) ∧ ∀ y ∈ w.log.drop since, ∀ k ∈ p.early x, k ∉ p.all y

omit [DecidableEq κ] in
/-- A transaction moves on; what it holds it held before or is free. -/
theorem Inv.put (h : Inv p w) (hi : w.txs[i]? = some t)
    (hheld : ∀ k ∈ u.held p, k ∈ t.held p ∨ ∀ (j : ℕ) (v : Tx δ ι), j ≠ i → w.txs[j]? = some v → k ∉ v.held p)
    (hread : ∀ seen since, u.phase = .read seen since → seen = w.stored ∧ since = w.log.length) :
    Inv p (w.put i u) := by
  have hnew : ∀ j v, j ≠ i → w.txs[j]? = some v → ∀ k ∈ u.held p, k ∉ v.held p := by
    intro j v hj hv k hk
    rcases hheld k hk with hk | hk
    · exact h.excl i j t v hi hv hj.symm k hk
    · exact hk j v hj hv
  refine ⟨fun a b v v' hv hv' hab k hk hk' => ?_, fun j x seen since hj => ?_⟩
  · rw [getElem?_put hi] at hv hv'
    split_ifs at hv hv' with ha hb hb
    · exact hab (ha.trans hb.symm)
    · obtain rfl := Option.some.inj hv
      exact hnew b v' hb hv' k hk hk'
    · obtain rfl := Option.some.inj hv'
      exact hnew a v ha hv k hk' hk
    · exact h.excl a b v v' hv hv' hab k hk hk'
  · rw [getElem?_put hi] at hj
    split_ifs at hj with hji
    · obtain rfl := Option.some.inj hj
      obtain ⟨rfl, rfl⟩ := hread seen since rfl
      exact ⟨Nat.le_refl _, fun _ => rfl, by simp [World.put]⟩
    · exact h.reading j x seen since hj

theorem Inv.step (h : Inv p w) (a : Action ι) : Inv p (w.step p a) := by
  have hs := step_step p w a
  generalize w.step p a = w' at hs
  cases hs with
  | same => exact h
  | started =>
    refine ⟨fun i j t u hi hj hij k hk hk' => ?_, fun i x seen since hi => ?_⟩
    · rcases getElem?_started hi with hi | rfl
      · rcases getElem?_started hj with hj | rfl
        · exact h.excl i j t u hi hj hij k hk hk'
        · cases hk'
      · cases hk
    · rcases getElem?_started hi with hi | hi
      · exact h.reading i x seen since hi
      · cases hi
  | locked hi hfree =>
    exact h.put hi (fun k hk => .inr fun j v hj hv hkv => of_free hfree hj hv k hkv hk) nofun
  | read hi =>
    refine h.put hi (fun k hk => .inl hk) fun seen since hr => ?_
    cases hr
    exact ⟨rfl, rfl⟩
  | written hi happ hfree =>
    exact h.put hi (fun k hk => .inr fun j v hj hv hkv => of_free hfree hj hv k hkv hk) nofun
  | ended hi => exact h.put hi (fun k hk => by cases hk) nofun
  | @committed i x new hi =>
    have hput : Inv p (w.put i ⟨x, .ended⟩) := h.put hi (fun k hk => by cases hk) nofun
    refine ⟨hput.excl, fun j y seen since hj => ?_⟩
    obtain ⟨hle, -, hmissed⟩ := hput.reading j y seen since hj
    have hle : since ≤ w.log.length := hle
    refine ⟨by simp; omega, fun hlen => by simp at hlen; omega, fun z hz k hk hk' => ?_⟩
    rw [List.drop_append_of_le_length hle] at hz
    rcases List.mem_append.1 hz with hz | hz
    · exact hmissed z hz k hk hk'
    · -- the committing transaction holds all of its locks while `j` holds its early ones
      obtain rfl := List.mem_singleton.1 hz
      have hji : j ≠ i := by
        rintro rfl
        have : (w.put j ⟨z, .ended⟩).txs[j]? = some ⟨y, .read seen since⟩ := hj
        rw [getElem?_put hi, if_pos rfl] at this
        cases this
      have hj' : w.txs[j]? = some ⟨y, .read seen since⟩ := by
        have : (w.put i ⟨z, .ended⟩).txs[j]? = some ⟨y, .read seen since⟩ := hj
        rwa [getElem?_put hi, if_neg hji] at this
      exact h.excl j i _ _ hj' hi hji k hk hk'

/-- A run that has not lost an update. -/
structure Serial (p : Protocol δ ι κ) (d : δ) (w : World δ ι) : Prop where
  inv : Inv p w
  replayed : p.replay d w.log = some w.stored
  written : ∀ (i : ℕ) (x : ι) (new : δ), w.txs[i]? = some ⟨x, .written new⟩ → p.apply x w.stored = some new

omit [DecidableEq κ] in
theorem Protocol.replay_append {xs ys : List ι} :
    p.replay d (xs ++ ys) = (p.replay d xs).bind fun d' => p.replay d' ys := by
  induction xs generalizing d with
  | nil => rfl
  | cons x xs ih =>
    simp only [List.cons_append, Protocol.replay]
    cases p.apply x d with
    | none => rfl
    | some d' => simp only [Option.bind_some, ih]

omit [DecidableEq κ] in
/-- A transaction that moves on writes what its writer makes of the stored record, or nothing. -/
theorem Serial.put (h : Serial p d w) (hinv : Inv p (w.put i u)) (hi : w.txs[i]? = some t)
    (hu : ∀ new, u.phase = .written new → p.apply u.writer w.stored = some new) : Serial p d (w.put i u) := by
  refine ⟨hinv, h.replayed, fun j x new hj => ?_⟩
  rw [getElem?_put hi] at hj
  split_ifs at hj with hji
  · obtain rfl := Option.some.inj hj
    exact hu new rfl
  · exact h.written j x new hj

theorem Serial.step [DecidableEq δ] (h : Serial p d w) (hok : w.stale p a = false) : Serial p d (w.step p a) := by
  have hinv := h.inv.step a
  have hs := step_step p w a
  generalize w.step p a = w' at hs hinv
  cases hs with
  | same => exact h
  | started =>
    refine ⟨hinv, h.replayed, fun j x new hj => ?_⟩
    rcases getElem?_started hj with hj | hj
    · exact h.written j x new hj
    · cases hj
  | locked hi hfree => exact h.put hinv hi nofun
  | read hi => exact h.put hinv hi nofun
  | ended hi => exact h.put hinv hi nofun
  | @written i x seen since new hi happ hfree =>
    refine h.put hinv hi fun new' hnew => ?_
    cases hnew
    have hseen : seen = w.stored := by simpa [World.stale, hi, happ] using hok
    exact hseen ▸ happ
  | @committed i x new hi =>
    refine ⟨hinv, ?_, fun j y new' hj => ?_⟩
    · rw [Protocol.replay_append, h.replayed]
      simp [Protocol.replay, h.written i x new hi]
    · -- two transactions that have written would both hold the row
      have hj : (w.put i ⟨x, .ended⟩).txs[j]? = some ⟨y, .written new'⟩ := hj
      rw [getElem?_put hi] at hj
      split_ifs at hj with hji
      · cases hj
      exact absurd (by simp [Tx.held, Protocol.all])
        (h.inv.excl j i _ _ hj hi hji p.row (by simp [Tx.held, Protocol.all]))

omit [DecidableEq κ] in
theorem inv_start (d : δ) : Inv p (⟨d, [], []⟩ : World δ ι) := ⟨by simp, by simp⟩

omit [DecidableEq κ] in
theorem serial_start (d : δ) : Serial p d (⟨d, [], []⟩ : World δ ι) := ⟨inv_start d, rfl, by simp⟩

omit [DecidableEq κ] in
/-- Only a writer that shares no lock with the reader can have committed since it read. -/
theorem Inv.of_stale [DecidableEq δ] (h : Inv p w) (hs : w.stale p a = true) :
    ∃ i x seen since, a = .write i ∧ w.txs[i]? = some ⟨x, .read seen since⟩ ∧
      ∃ y ∈ w.missed a, ∀ k ∈ p.early x, k ∉ p.all y := by
  cases a with
  | write i =>
    simp only [World.stale] at hs
    split at hs
    · rename_i x seen since hi
      obtain ⟨hle, hseen, hshare⟩ := h.reading i x seen since hi
      have hne : seen ≠ w.stored := by simpa using (Bool.and_eq_true_iff.1 hs).2
      have hmissed : w.missed (.write i) = w.log.drop since := by simp [World.missed, hi]
      -- the record has changed, so that someone has committed
      obtain ⟨y, hy⟩ := List.exists_mem_of_ne_nil (w.log.drop since) fun hnil =>
        hne (hseen (Nat.le_antisymm hle (List.drop_eq_nil_iff.1 hnil)))
      exact ⟨i, x, seen, since, rfl, hi, y, hmissed ▸ hy, hshare y hy⟩
    · cases hs
  | _ => cases hs

/-- A step commits one writer, which rewrites the record it finds, or leaves the record and the log. -/
theorem Serial.committed (h : Serial p d w) (a : Action ι) :
    (w.step p a).stored = w.stored ∧ (w.step p a).log = w.log ∨
      ∃ x, (w.step p a).log = w.log ++ [x] ∧ p.apply x w.stored = some (w.step p a).stored := by
  have hs := step_step p w a
  generalize w.step p a = w' at hs
  cases hs with
  | committed hi => exact .inr ⟨_, rfl, h.written _ _ _ hi⟩
  | _ => exact .inl ⟨rfl, rfl⟩

/-- Between two states of a run that loses no update, the record is rewritten by what is committed. -/
theorem Serial.since [DecidableEq δ] {as : List (Action ι)} (h : Serial p d w)
    (hok : Machine.Meets (World.step p) (fun w a => w.stale p a = false) w as) :
    ∃ xs, (Machine.run (World.step p) w as).log = w.log ++ xs ∧
      p.replay w.stored xs = some (Machine.run (World.step p) w as).stored := by
  induction as generalizing w with
  | nil => exact ⟨[], by simp, rfl⟩
  | cons a as ih =>
    obtain ⟨xs, hlog, hreplay⟩ := ih (h.step hok.1) hok.2
    rcases h.committed a with ⟨hstored, hsame⟩ | ⟨x, hx, happly⟩
    · rw [hstored] at hreplay
      rw [hsame] at hlog
      exact ⟨xs, hlog, hreplay⟩
    · refine ⟨x :: xs, ?_, ?_⟩
      · rw [Machine.run_cons, hlog, hx, List.append_assoc]
        rfl
      · rw [Protocol.replay, happly]
        exact hreplay

omit [DecidableEq κ] in
/-- What every writer keeps holds across writers that run one after the other. -/
theorem Protocol.replay_rel {R : List ι → δ → δ → Prop} (hnil : ∀ d, R [] d d)
    (hcons : ∀ x xs d d' d'', p.apply x d = some d' → R xs d' d'' → R (x :: xs) d d'') {xs : List ι} {d' : δ}
    (h : p.replay d xs = some d') : R xs d d' := by
  induction xs generalizing d with
  | nil => exact Option.some.inj h ▸ hnil d
  | cons x xs ih =>
    obtain ⟨d₁, happly, hrest⟩ := Option.bind_eq_some_iff.1 h
    exact hcons x xs d d₁ d' happly (ih hrest)

end Locks
