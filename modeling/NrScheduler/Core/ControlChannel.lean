import NrScheduler.Core.Types
import NrScheduler.Lib.Bitmap
import NrScheduler.Lib.FirstFit

/-!
# Control channel elements

A pool hands out aligned blocks of control channel elements and counts those in use.
-/

namespace NrScheduler

open LockMonad

inductive AggregationLevel where
  | al1
  | al2
  | al4
  | al8
  | al16
  deriving DecidableEq, Repr

def AggregationLevel.value : AggregationLevel → ℕ
  | .al1 => 1
  | .al2 => 2
  | .al4 => 4
  | .al8 => 8
  | .al16 => 16

theorem AggregationLevel.value_pos (al : AggregationLevel) : 0 < al.value := by
  cases al <;> decide

structure CcePool where
  numCces : ℕ
  allocatedCount : ℕ := 0
  cceBitmap : BitVec 128 := 0
  deriving DecidableEq

namespace CcePool

/-- The pool of a CORESET; the number of elements is passed in eight bits. -/
def create (numCces : ℕ) : CcePool := { numCces := numCces % 2 ^ 8 }

def reset (p : CcePool) : CcePool := { p with cceBitmap := 0, allocatedCount := 0 }

/-- Read one bit; outside the bitmap the access is out of range. -/
def test (p : CcePool) (i : ℕ) : Exec Bool :=
  if i < 128 then pure (p.cceBitmap.getLsbD i) else crash .outOfRange

def set (p : CcePool) (i : ℕ) : Exec CcePool :=
  if i < 128 then pure { p with cceBitmap := Bitmap.setBit p.cceBitmap i } else crash .outOfRange

def clear (p : CcePool) (i : ℕ) : Exec CcePool :=
  if i < 128 then pure { p with cceBitmap := Bitmap.clearBit p.cceBitmap i }
  else crash .outOfRange

/-- Whether the elements from `start` on are free; the first one in use ends the loop. -/
def blockFree (p : CcePool) (start alValue : ℕ) : Exec Bool :=
  (List.range' start alValue).allM fun i ↦ do return !(← p.test i)

def allocate (p : CcePool) (al : AggregationLevel) : Exec (Option ℕ × CcePool) := do
  let starts := List.range' 0 (p.numCces / al.value) al.value
  match ← starts.findM? (p.blockFree · al.value) with
  | some start =>
      let p' ← (List.range' start al.value).foldlM set p
      return (some start, { p' with allocatedCount := (p.allocatedCount + al.value) % 2 ^ 8 })
  | none => return (none, p)

def freeCce (p : CcePool) (i : ℕ) : Exec CcePool := do
  if ← p.test i then
    let p' ← p.clear i
    return { p' with allocatedCount := (p.allocatedCount + 2 ^ 8 - 1) % 2 ^ 8 }
  else return p

/-- Free the elements of a block that lie in the pool; the start is passed in eight bits. -/
def deallocate (p : CcePool) (startCce : ℕ) (al : AggregationLevel) : Exec CcePool :=
  ((List.range' (startCce % 2 ^ 8) al.value).takeWhile (· < p.numCces)).foldlM freeCce p

def available (p : CcePool) : ℕ := (p.numCces + 2 ^ 8 - p.allocatedCount) % 2 ^ 8

def canAllocate (p : CcePool) (al : AggregationLevel) : Bool := decide (al.value ≤ p.available)

end CcePool

end NrScheduler
