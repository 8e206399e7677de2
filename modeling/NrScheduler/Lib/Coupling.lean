import NrScheduler.Lib.LockMonad
import Mathlib.Data.List.Forall2

/-!
# Two computations side by side

Two computations are coupled by a relation if, with mutexes as no-ops, both return related
values or both stop for the same reason.  The rules follow the shape of a program, so two
programs of one shape are compared statement by statement.
-/

namespace LockMonad

variable {μ ε α β γ δ : Type} {R : α → β → Prop} {S : γ → δ → Prop}

/-- Both outcomes are values that are related, or both are the same failure. -/
inductive Outcomes (R : α → β → Prop) :
    Except (Failure μ ε) α → Except (Failure μ ε) β → Prop
  | ok {a : α} {b : β} (h : R a b) : Outcomes R (.ok a) (.ok b)
  | error (f : Failure μ ε) : Outcomes R (.error f) (.error f)

def Coupled (R : α → β → Prop) (x : LockM μ ε α) (y : LockM μ ε β) : Prop :=
  Outcomes R (x.run none) (y.run none)

namespace Coupled

/-- Closed forms of both outcomes are all that counts. -/
theorem of_ok {x : LockM μ ε α} {y : LockM μ ε β} {a : α} {b : β} (hx : x.run none = .ok a)
    (hy : y.run none = .ok b) (h : R a b) : Coupled R x y := by
  rw [Coupled, hx, hy]
  exact .ok h

theorem congr {x x' : LockM μ ε α} {y y' : LockM μ ε β} (h : Coupled R x y)
    (hx : x'.run none = x.run none) (hy : y'.run none = y.run none) : Coupled R x' y' := by
  rw [Coupled, hx, hy]
  exact h

theorem pure {a : α} {b : β} (h : R a b) :
    Coupled R (Pure.pure a : LockM μ ε α) (Pure.pure b) := .ok h

theorem crash (e : ε) : Coupled R (LockMonad.crash e : LockM μ ε α) (LockMonad.crash e) :=
  .error _

/-- A computation beside itself returns one value. -/
theorem refl (x : LockM μ ε α) : Coupled Eq x x := by
  rw [Coupled]
  cases x.run none with
  | ok a => exact .ok rfl
  | error f => exact .error f

theorem mono {R' : α → β → Prop} {x : LockM μ ε α} {y : LockM μ ε β} (h : Coupled R x y)
    (himp : ∀ a b, R a b → R' a b) : Coupled R' x y := by
  rw [Coupled] at h ⊢
  generalize x.run none = r at h ⊢
  generalize y.run none = r' at h ⊢
  cases h with
  | ok hab => exact .ok (himp _ _ hab)
  | error f => exact .error f

theorem bind {x : LockM μ ε α} {y : LockM μ ε β} {f : α → LockM μ ε γ} {g : β → LockM μ ε δ}
    (h : Coupled R x y) (hfg : ∀ a b, R a b → Coupled S (f a) (g b)) :
    Coupled S (x >>= f) (y >>= g) := by
  rw [Coupled] at h
  rw [Coupled, ReaderT.run_bind, ReaderT.run_bind]
  generalize x.run none = r at h ⊢
  generalize y.run none = r' at h ⊢
  cases h with
  | ok hab => exact hfg _ _ hab
  | error f => exact .error f

/-- The same computation in front of two others. -/
theorem bind_left {x : LockM μ ε α} {f : α → LockM μ ε γ} {g : α → LockM μ ε δ}
    (hfg : ∀ a, Coupled S (f a) (g a)) : Coupled S (x >>= f) (x >>= g) :=
  (refl x).bind fun a _ hab ↦ hab ▸ hfg a

theorem withLock [DecidableEq μ] (m : μ) {x : LockM μ ε α} {y : LockM μ ε β}
    (h : Coupled R x y) : Coupled R (LockMonad.withLock m x) (LockMonad.withLock m y) := h

theorem ite {c c' : Prop} [Decidable c] [Decidable c'] {x x' : LockM μ ε α}
    {y y' : LockM μ ε β} (hc : c' ↔ c) (hx : c → Coupled R x y) (hy : ¬ c → Coupled R x' y') :
    Coupled R (if c then x else x') (if c' then y else y') := by
  by_cases h : c
  · rw [if_pos h, if_pos (hc.mpr h)]
    exact hx h
  · rw [if_neg h, if_neg fun h' ↦ h (hc.mp h')]
    exact hy h

theorem ignoringLocks {x : LockM μ ε α} {y : LockM μ ε β} (h : Coupled R x y) :
    Option.Rel R (LockMonad.ignoringLocks x) (LockMonad.ignoringLocks y) := by
  rw [LockMonad.ignoringLocks, LockMonad.ignoringLocks]
  rw [Coupled] at h
  generalize x.run none = r at h ⊢
  generalize y.run none = r' at h ⊢
  cases h with
  | ok hab => exact .some hab
  | error f => exact .none

end Coupled

end LockMonad
