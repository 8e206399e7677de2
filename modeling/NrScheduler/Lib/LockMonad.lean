import Mathlib.Data.List.Basic
import Mathlib.Data.Set.Insert

/-!
# Scoped locks and failing computations

A computation may crash, and it may take non-recursive mutexes for the extent of a
block.  The environment is either `none`, where mutex operations are no-ops, or the
list of mutexes the calling thread holds, where taking a held one is an error.
Because a block releases what it took, the held list is a reader and never a state.
-/

namespace LockMonad

/-- Why a computation stopped: it crashed, or it took a mutex it already held. -/
inductive Failure (μ ε : Type) where
  | crash (e : ε)
  | relock (m : μ)
  deriving DecidableEq, Repr

/-- Computations over mutexes `μ` that may crash with `ε`. -/
abbrev LockM (μ ε : Type) := ReaderT (Option (List μ)) (Except (Failure μ ε))

variable {μ ε : Type} {α β σ : Type}

def crash (e : ε) : LockM μ ε α := fun _ ↦ .error (.crash e)

/-- The block `x` under a scoped guard on `m`. -/
def withLock [DecidableEq μ] (m : μ) (x : LockM μ ε α) : LockM μ ε α := fun env ↦
  match env with
  | none => x none
  | some held => if m ∈ held then .error (.relock m) else x (some (m :: held))

/-! ## Running without mutexes -/

@[simp] theorem withLock_run_none [DecidableEq μ] (m : μ) (x : LockM μ ε α) :
    (withLock m x).run none = x.run none := rfl

theorem withLock_run_some [DecidableEq μ] (m : μ) (x : LockM μ ε α) (held : List μ) :
    (withLock m x).run (some held) =
      if m ∈ held then .error (.relock m) else x.run (some (m :: held)) := rfl

theorem run_bind_eq_ok {x : LockM μ ε α} {f : α → LockM μ ε β}
    {env : Option (List μ)} {b : β} :
    (x >>= f).run env = .ok b ↔ ∃ a, x.run env = .ok a ∧ (f a).run env = .ok b := by
  rw [ReaderT.run_bind]
  cases x.run env with
  | error e => simp [bind, Except.bind]
  | ok a => simp [bind, Except.bind]

theorem run_bind_of_ok {x : LockM μ ε α} {f : α → LockM μ ε β}
    {env : Option (List μ)} {a : α} (h : x.run env = .ok a) :
    (x >>= f).run env = (f a).run env := by
  rw [ReaderT.run_bind, h]
  rfl

theorem run_bind_of_error {x : LockM μ ε α} {f : α → LockM μ ε β}
    {env : Option (List μ)} {e : Failure μ ε} (h : x.run env = .error e) :
    (x >>= f).run env = .error e := by
  rw [ReaderT.run_bind, h]
  rfl

@[simp] theorem run_pure_eq_ok {a b : α} {env : Option (List μ)} :
    (pure a : LockM μ ε α).run env = .ok b ↔ a = b :=
  Except.ok.injEq a b ▸ Iff.rfl

/-- What a computation returns while mutexes are no-ops. -/
def ignoringLocks (x : LockM μ ε α) : Option α := (x.run none).toOption

theorem ignoringLocks_eq_some {x : LockM μ ε α} {a : α} :
    ignoringLocks x = some a ↔ x.run none = .ok a := by
  rw [ignoringLocks]
  cases x.run none with
  | error e => simp [Except.toOption]
  | ok b => simp [Except.toOption]

theorem foldlM_run_of_ok {f : σ → α → LockM μ ε σ} {g : σ → α → σ} {env : Option (List μ)}
    {xs : List α} (h : ∀ s, ∀ x ∈ xs, (f s x).run env = .ok (g s x)) {s : σ} :
    (xs.foldlM f s).run env = .ok (xs.foldl g s) := by
  induction xs generalizing s with
  | nil => rfl
  | cons x xs ih =>
      rw [List.foldlM_cons, run_bind_of_ok (h s x List.mem_cons_self), List.foldl_cons]
      exact ih fun s y hy ↦ h s y (List.mem_cons_of_mem x hy)

theorem allM_run_of_ok {p : α → LockM μ ε Bool} {q : α → Bool} {env : Option (List μ)}
    {xs : List α} (h : ∀ x ∈ xs, (p x).run env = .ok (q x)) :
    (xs.allM p).run env = .ok (xs.all q) := by
  induction xs with
  | nil => rfl
  | cons x xs ih =>
      rw [List.allM, run_bind_of_ok (h x List.mem_cons_self), List.all_cons]
      cases q x with
      | true => simpa using ih fun y hy ↦ h y (List.mem_cons_of_mem x hy)
      | false => rfl

theorem findM_run_of_ok {p : α → LockM μ ε Bool} {q : α → Bool} {env : Option (List μ)}
    {xs : List α} (h : ∀ x ∈ xs, (p x).run env = .ok (q x)) :
    (xs.findM? p).run env = .ok (xs.find? q) := by
  induction xs with
  | nil => rfl
  | cons x xs ih =>
      rw [List.findM?, run_bind_of_ok (h x List.mem_cons_self), List.find?_cons]
      cases q x with
      | true => rfl
      | false => exact ih fun y hy ↦ h y (List.mem_cons_of_mem x hy)

/-! ## Lock footprints -/

/-- Every mutex that `x` takes lies in `S`, and `x` never takes one twice: from any
held list that avoids `S` it behaves as if mutexes were no-ops. -/
structure Footprint (S : Set μ) (x : LockM μ ε α) : Prop where
  erase : ∀ held : List μ, (∀ m ∈ S, m ∉ held) → x.run (some held) = x.run none
  noRelock : ∀ m, x.run none ≠ .error (.relock m)

namespace Footprint

theorem mono {S T : Set μ} {x : LockM μ ε α} (h : Footprint S x) (hST : S ⊆ T) :
    Footprint T x where
  erase held havoid := h.erase held fun m hm ↦ havoid m (hST hm)
  noRelock := h.noRelock

theorem pure (S : Set μ) (a : α) : Footprint S (Pure.pure a : LockM μ ε α) where
  erase _ _ := rfl
  noRelock m h := by cases h

theorem crash (S : Set μ) (e : ε) : Footprint S (LockMonad.crash e : LockM μ ε α) where
  erase _ _ := rfl
  noRelock m h := by cases h

theorem bind {S : Set μ} {x : LockM μ ε α} {f : α → LockM μ ε β}
    (hx : Footprint S x) (hf : ∀ a, Footprint S (f a)) : Footprint S (x >>= f) where
  erase held havoid := by
    rw [ReaderT.run_bind, ReaderT.run_bind, hx.erase held havoid]
    cases x.run none with
    | error e => rfl
    | ok a => exact (hf a).erase held havoid
  noRelock m h := by
    cases hrun : x.run none with
    | error e =>
        rw [run_bind_of_error hrun] at h
        have he : e = .relock m := Except.error.inj h
        exact hx.noRelock m (he ▸ hrun)
    | ok a =>
        rw [run_bind_of_ok hrun] at h
        exact (hf a).noRelock m h

/-- A guard adds its mutex, provided the block does not take it again. -/
theorem withLock [DecidableEq μ] {S : Set μ} {m : μ} {x : LockM μ ε α}
    (hx : Footprint S x) (hm : m ∉ S) : Footprint (insert m S) (withLock m x) where
  erase held havoid := by
    have hfree : m ∉ held := havoid m (Set.mem_insert m S)
    rw [withLock_run_some, if_neg hfree, withLock_run_none]
    apply hx.erase
    intro k hk hmem
    rcases List.mem_cons.mp hmem with rfl | hmem
    · exact hm hk
    · exact havoid k (Set.mem_insert_of_mem m hk) hmem
  noRelock := hx.noRelock

theorem foldlM {S : Set μ} {f : σ → α → LockM μ ε σ} (hf : ∀ s a, Footprint S (f s a)) :
    ∀ (xs : List α) (s : σ), Footprint S (xs.foldlM f s)
  | [], s => pure S s
  | x :: xs, s => by
      rw [List.foldlM_cons]
      exact (hf s x).bind fun s' ↦ foldlM hf xs s'

theorem ite {S : Set μ} {c : Prop} [Decidable c] {x y : LockM μ ε α}
    (hx : Footprint S x) (hy : Footprint S y) : Footprint S (if c then x else y) := by
  split
  · exact hx
  · exact hy

theorem guard [DecidableEq μ] {m : μ} {x : LockM μ ε α} (hx : Footprint ∅ x) :
    Footprint {m} (LockMonad.withLock m x) :=
  (hx.withLock (Set.notMem_empty m)).mono (insert_empty_eq m).subset

theorem guard_pure [DecidableEq μ] (m : μ) (a : α) :
    Footprint {m} (LockMonad.withLock m (Pure.pure a : LockM μ ε α)) :=
  (pure ∅ a).guard

theorem map {S : Set μ} {x : LockM μ ε α} (h : Footprint S x) (g : α → β) :
    Footprint S (x >>= fun a ↦ Pure.pure (g a)) :=
  h.bind fun a ↦ pure S (g a)

theorem run_nil {S : Set μ} {x : LockM μ ε α} (h : Footprint S x) :
    x.run (some []) = x.run none :=
  h.erase [] fun _ _ ↦ List.not_mem_nil

end Footprint

/-! ## Blocking -/

/-- From any held list that avoids `S`, `x` takes `m` a second time exactly where it would
return if mutexes were no-ops. -/
def Blocks (S : Set μ) (m : μ) (x : LockM μ ε α) : Prop :=
  ∀ held : List μ, (∀ k ∈ S, k ∉ held) →
    x.run (some held) = (x.run none).bind fun _ ↦ .error (.relock m)

namespace Blocks

theorem mono {S T : Set μ} {m : μ} {x : LockM μ ε α} (h : Blocks S m x) (hST : S ⊆ T) :
    Blocks T m x :=
  fun held havoid ↦ h held fun k hk ↦ havoid k (hST hk)

theorem bind {S : Set μ} {m : μ} {x : LockM μ ε α} {f : α → LockM μ ε β}
    (hx : Footprint S x) (hf : ∀ a, Blocks S m (f a)) : Blocks S m (x >>= f) := by
  intro held havoid
  rw [ReaderT.run_bind, ReaderT.run_bind, hx.erase held havoid]
  cases x.run none with
  | error e => rfl
  | ok a => exact hf a held havoid

theorem bind_pure {S : Set μ} {m : μ} {x : LockM μ ε α} {g : α → β} (hx : Blocks S m x) :
    Blocks S m (x >>= fun a ↦ pure (g a)) := by
  intro held havoid
  rw [ReaderT.run_bind, ReaderT.run_bind, hx held havoid]
  cases x.run none with
  | error e => rfl
  | ok a => rfl

theorem withLock [DecidableEq μ] {S : Set μ} {m k : μ} {x : LockM μ ε α}
    (hx : Blocks S m x) (hk : k ∉ S) : Blocks (insert k S) m (withLock k x) := by
  intro held havoid
  have hfree : k ∉ held := havoid k (Set.mem_insert k S)
  rw [withLock_run_some, if_neg hfree, withLock_run_none]
  apply hx
  intro j hj hmem
  rcases List.mem_cons.mp hmem with rfl | hmem
  · exact hk hj
  · exact havoid j (Set.mem_insert_of_mem k hj) hmem

/-- A block guarded by `m` that takes `m` again. -/
theorem again [DecidableEq μ] {m : μ} {x : LockM μ ε α} {f : α → LockM μ ε β} {b : β}
    (hx : ((LockMonad.withLock m x) >>= f).run none = .ok b) :
    Blocks {m} m (LockMonad.withLock m (LockMonad.withLock m x >>= f)) := by
  intro held havoid
  rw [withLock_run_some, if_neg (havoid m rfl), withLock_run_none, hx]
  apply run_bind_of_error
  rw [withLock_run_some, if_pos List.mem_cons_self]

end Blocks

end LockMonad
