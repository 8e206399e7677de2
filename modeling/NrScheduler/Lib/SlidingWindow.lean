import Mathlib.Data.List.Induction
import Mathlib.Data.List.Pairwise
import Mathlib.Order.MinMax

/-!
# Sliding windows

A log of values with times, oldest first, from which a push deletes what has left the window
that ends with the pushed value.  Where times do not decrease, the log holds exactly the
values in the window of the last one.
-/

namespace SlidingWindow

variable {α : Type} {time : α → ℕ} {width t t' : ℕ} {l : List α} {a : α}

/-- Dropping a downward closed set from the front of a sorted list drops all of it. -/
theorem dropWhile_eq_filter {p : α → Bool} (h : l.Pairwise fun a b ↦ p b = true → p a = true) :
    l.dropWhile p = l.filter fun a ↦ !p a := by
  induction l with
  | nil => rfl
  | cons a l ih =>
      obtain ⟨hhead, htail⟩ := List.pairwise_cons.mp h
      cases ha : p a with
      | true => rw [List.dropWhile_cons_of_pos ha, List.filter_cons_of_neg (by simp [ha]), ih htail]
      | false =>
          have hkept : ∀ b ∈ a :: l, (!p b) = true := by
            intro b hb
            rcases List.mem_cons.mp hb with rfl | hb
            · rw [ha, Bool.not_false]
            · cases hpb : p b with
              | true => rw [hhead b hb hpb] at ha; cases ha
              | false => rfl
          rw [List.dropWhile_cons_of_neg (by simp [ha]), List.filter_eq_self.mpr hkept]

/-- The values in the window that ends at `t`. -/
def inWindow (time : α → ℕ) (width t : ℕ) (l : List α) : List α :=
  l.filter fun a ↦ decide (t ≤ time a + width)

theorem mem_inWindow : a ∈ inWindow time width t l ↔ a ∈ l ∧ t ≤ time a + width := by
  rw [inWindow, List.mem_filter, decide_eq_true_eq]

theorem inWindow_split_of_le (h : t ≤ time a + width) (l l' : List α) :
    inWindow time width t (l ++ a :: l') =
      inWindow time width t l ++ a :: inWindow time width t l' := by
  have hkept : decide (t ≤ time a + width) = true := decide_eq_true h
  simp only [inWindow, List.filter_append, List.filter_cons, if_pos hkept]

theorem inWindow_split_of_lt (h : time a + width < t) (l l' : List α) :
    inWindow time width t (l ++ a :: l') =
      inWindow time width t l ++ inWindow time width t l' := by
  have hdropped : ¬ decide (t ≤ time a + width) = true :=
    fun hkept ↦ Nat.not_le_of_lt h (of_decide_eq_true hkept)
  simp only [inWindow, List.filter_append, List.filter_cons, if_neg hdropped]

theorem inWindow_inWindow (time : α → ℕ) (width t t' : ℕ) (l : List α) :
    inWindow time width t (inWindow time width t' l) = inWindow time width (max t t') l := by
  rw [inWindow, inWindow, List.filter_filter, inWindow]
  refine List.filter_congr fun a _ ↦ ?_
  rw [← Bool.decide_and]
  exact decide_eq_decide.mpr max_le_iff.symm

def push (time : α → ℕ) (width : ℕ) (log : List α) (a : α) : List α :=
  (log ++ [a]).dropWhile fun b ↦ decide (time b + width < time a)

/-- The time of the last value. -/
def lastTime (time : α → ℕ) (l : List α) : ℕ := (l.getLast?.map time).getD 0

theorem lastTime_concat (time : α → ℕ) (l : List α) (a : α) :
    lastTime time (l ++ [a]) = time a := by
  rw [lastTime, List.getLast?_concat]
  rfl

theorem lastTime_le (h : ∀ a ∈ l, time a ≤ t) : lastTime time l ≤ t := by
  rw [lastTime]
  cases hlast : l.getLast? with
  | none => exact Nat.zero_le t
  | some a => exact h a (List.mem_of_getLast? hlast)

theorem le_lastTime (hsorted : l.Pairwise fun a b ↦ time a ≤ time b) (ha : a ∈ l) :
    time a ≤ lastTime time l := by
  have hrefl : Std.Refl fun a b : α ↦ time a ≤ time b := ⟨fun a ↦ Nat.le_refl (time a)⟩
  rw [lastTime, List.getLast?_eq_some_getLast (List.ne_nil_of_mem ha)]
  exact hsorted.rel_getLast ha

/-! ## Times alone -/

theorem map_inWindow (time : α → ℕ) (width t : ℕ) (l : List α) :
    (inWindow time width t l).map time = inWindow id width t (l.map time) := by
  rw [inWindow, inWindow, List.filter_map]
  rfl

theorem lastTime_map (time : α → ℕ) (l : List α) :
    lastTime id (l.map time) = lastTime time l := by
  rw [lastTime, lastTime, List.getLast?_map, Option.map_map]
  rfl

/-! ## Pushes -/

/-- What pushes leave in the log is what is in the window of the last of them. -/
theorem foldl_push (hsorted : l.Pairwise fun a b ↦ time a ≤ time b) :
    l.foldl (push time width) [] = inWindow time width (lastTime time l) l := by
  induction l using List.reverseRecOn with
  | nil => rfl
  | append_singleton l a ih =>
      obtain ⟨hinit, -, hbefore⟩ := List.pairwise_append.mp hsorted
      have hlast : lastTime time l ≤ time a :=
        lastTime_le fun b hb ↦ hbefore b hb a List.mem_cons_self
      have hlog : (inWindow time width (lastTime time l) l ++ [a]).Pairwise
          fun a b ↦ time a ≤ time b :=
        hsorted.sublist (List.Sublist.append_right List.filter_sublist _)
      rw [List.foldl_append, ih hinit, List.foldl_cons, List.foldl_nil, lastTime_concat, push,
        dropWhile_eq_filter (hlog.imp fun hab hb ↦ ?_)]
      · have hkeeps : (fun b ↦ !decide (time b + width < time a)) =
            fun b ↦ decide (time a ≤ time b + width) := by
          funext b
          rw [← decide_not]
          exact decide_eq_decide.mpr Nat.not_lt
        rw [hkeeps, List.filter_append, ← inWindow, inWindow_inWindow,
          max_eq_left hlast, inWindow, inWindow,
          List.filter_append]
      · have := of_decide_eq_true hb
        exact decide_eq_true (by omega)

end SlidingWindow
