import Mathlib.Algebra.BigOperators.Group.List.Basic
import Mathlib.Algebra.GroupWithZero.Nat
import Mathlib.Algebra.Order.BigOperators.Group.List
import Mathlib.Algebra.Order.Group.Nat

/-!
# First come, first served

Units are handed out to parties in the order in which they come: each gets what it demands
as long as there are units left.  The result depends on the order exactly where there are
units, but too few of them, and more than one party demands some.
-/

namespace FirstCome

variable {κ : Type*} [DecidableEq κ]

/-- What party `a` gets of the units that are left. -/
def grant : ℕ → List (κ × ℕ) → κ → ℕ
  | _, [], _ => 0
  | left, d :: rest, a => if a = d.1 then min d.2 left else grant (left - d.2) rest a

omit [DecidableEq κ] in
def total (demands : List (κ × ℕ)) : ℕ := (demands.map Prod.snd).sum

variable {left n : ℕ} {demands before after : List (κ × ℕ)} {a : κ}

omit [DecidableEq κ] in
theorem total_cons (d : κ × ℕ) (demands : List (κ × ℕ)) :
    total (d :: demands) = d.2 + total demands :=
  List.sum_cons

omit [DecidableEq κ] in
theorem le_total (h : (a, n) ∈ demands) : n ≤ total demands :=
  List.single_le_sum (fun _ _ ↦ Nat.zero_le _) _ (List.mem_map_of_mem (f := Prod.snd) h)

theorem grant_le (left : ℕ) (demands : List (κ × ℕ)) (a : κ) : grant left demands a ≤ left := by
  induction demands generalizing left with
  | nil => exact Nat.zero_le _
  | cons d rest ih =>
      rw [grant]
      split
      · exact Nat.min_le_right _ _
      · exact (ih _).trans (Nat.sub_le _ _)

theorem grant_of_notMem (h : a ∉ demands.map Prod.fst) : grant left demands a = 0 := by
  induction demands generalizing left with
  | nil => rfl
  | cons d rest ih =>
      rw [List.map_cons, List.mem_cons, not_or] at h
      rw [grant, if_neg h.1, ih h.2]

/-- A party gets what it demands of the units that those before it leave. -/
theorem grant_append (h : a ∉ before.map Prod.fst) :
    grant left (before ++ (a, n) :: after) a = min n (left - total before) := by
  induction before generalizing left with
  | nil => rw [List.nil_append, grant, if_pos rfl, total, List.map_nil, List.sum_nil, Nat.sub_zero]
  | cons d rest ih =>
      rw [List.map_cons, List.mem_cons, not_or] at h
      rw [List.cons_append, grant, if_neg h.1, ih h.2, total_cons, Nat.sub_sub]

omit [DecidableEq κ] in
theorem exists_split (hnodup : (demands.map Prod.fst).Nodup) (h : (a, n) ∈ demands) :
    ∃ before after, demands = before ++ (a, n) :: after ∧ a ∉ before.map Prod.fst := by
  obtain ⟨before, after, rfl⟩ := List.append_of_mem h
  rw [List.map_append, List.map_cons] at hnodup
  exact ⟨before, after, rfl, fun hmem ↦
    (List.nodup_append.mp hnodup).2.2 a hmem a List.mem_cons_self rfl⟩

theorem grant_le_demand (hnodup : (demands.map Prod.fst).Nodup) (h : (a, n) ∈ demands) :
    grant left demands a ≤ n := by
  obtain ⟨before, after, rfl, hnotin⟩ := exists_split hnodup h
  rw [grant_append hnotin]
  exact Nat.min_le_left _ _

/-- Where there are enough units, everybody gets all. -/
theorem grant_eq_of_total_le (hnodup : (demands.map Prod.fst).Nodup)
    (hle : total demands ≤ left) (h : (a, n) ∈ demands) : grant left demands a = n := by
  obtain ⟨before, after, rfl, hnotin⟩ := exists_split hnodup h
  have hsplit : total (before ++ (a, n) :: after) = total before + (n + total after) := by
    rw [total, List.map_append, List.sum_append]
    rfl
  rw [grant_append hnotin]
  omega

/-- Where nobody else demands any units, a party gets all there are. -/
theorem grant_of_sole (hnodup : (demands.map Prod.fst).Nodup)
    (hsole : ∀ b m, (b, m) ∈ demands → 0 < m → b = a) (h : (a, n) ∈ demands) :
    grant left demands a = min n left := by
  obtain ⟨before, after, rfl, hnotin⟩ := exists_split hnodup h
  have hnone : total before = 0 := by
    refine List.sum_eq_zero fun m hm ↦ ?_
    obtain ⟨⟨b, m⟩, hmem, rfl⟩ := List.mem_map.mp hm
    by_contra hpos
    have hb : b = a := hsole b m (List.mem_append_left _ hmem) (Nat.pos_of_ne_zero hpos)
    exact hnotin (hb ▸ List.mem_map_of_mem (f := Prod.fst) hmem)
  rw [grant_append hnotin, hnone, Nat.sub_zero]

/-! ## Orders -/

omit [DecidableEq κ] in
theorem total_perm {demands' : List (κ × ℕ)} (h : demands'.Perm demands) :
    total demands' = total demands :=
  (h.map Prod.snd).sum_eq

/-- One of two demands is met less if it comes last, where the units do not reach for all. -/
theorem grant_last_lt (hnodup : (demands.map Prod.fst).Nodup) (hleft : 0 < left)
    (hlt : left < total demands) {b : κ} {m : ℕ} (ha : (a, n) ∈ demands) (hb : (b, m) ∈ demands)
    (hn : 0 < n) (hm : 0 < m) (hne : a ≠ b) :
    ∃ rest, ((a, n) :: rest).Perm demands ∧ (rest ++ [(a, n)]).Perm demands ∧
      grant left (rest ++ [(a, n)]) a < grant left ((a, n) :: rest) a := by
  obtain ⟨before, after, rfl⟩ := List.append_of_mem ha
  have hperm : ((a, n) :: (before ++ after)).Perm (before ++ (a, n) :: after) :=
    List.perm_middle.symm
  have hnotin : a ∉ (before ++ after).map Prod.fst := by
    have hkeys := (hperm.map Prod.fst).nodup_iff.mpr hnodup
    rw [List.map_cons] at hkeys
    exact (List.nodup_cons.mp hkeys).1
  have htotal : n + total (before ++ after) = total (before ++ (a, n) :: after) := by
    rw [← total_perm hperm, total_cons]
  have hrest : (b, m) ∈ before ++ after := by
    rcases List.mem_cons.mp (hperm.mem_iff.mpr hb) with heq | hmem
    · exact absurd (congrArg Prod.fst heq).symm hne
    · exact hmem
  have hle := le_total hrest
  refine ⟨before ++ after, hperm, ?_, ?_⟩
  · exact (List.perm_append_singleton _ _).trans hperm
  · rw [grant_append hnotin, grant, if_pos rfl]
    omega

/-- The order does not matter where the units reach for all demands, where there are none,
or where at most one party demands any; and only there. -/
theorem grant_perm_iff (hnodup : (demands.map Prod.fst).Nodup) :
    (∀ demands', demands'.Perm demands → ∀ a, grant left demands' a = grant left demands a) ↔
      total demands ≤ left ∨ left = 0 ∨
        ∀ a n b m, (a, n) ∈ demands → (b, m) ∈ demands → 0 < n → 0 < m → a = b := by
  constructor
  · intro hsame
    by_contra hnot
    push Not at hnot
    obtain ⟨hlt, hleft, a, n, b, m, ha, hb, hn, hm, hne⟩ := hnot
    obtain ⟨rest, hfirst, hlast, hgrants⟩ :=
      grant_last_lt hnodup (Nat.pos_of_ne_zero hleft) hlt ha hb hn hm hne
    rw [hsame _ hfirst a, hsame _ hlast a] at hgrants
    exact Nat.lt_irrefl _ hgrants
  · intro h demands' hperm a
    have hnodup' := (hperm.map Prod.fst).nodup_iff.mpr hnodup
    by_cases hmem : a ∈ demands.map Prod.fst
    · obtain ⟨⟨a, n⟩, ha, rfl⟩ := List.mem_map.mp hmem
      have ha' := hperm.mem_iff.mpr ha
      rcases h with hle | rfl | hsole
      · rw [grant_eq_of_total_le hnodup hle ha,
          grant_eq_of_total_le hnodup' ((total_perm hperm).trans_le hle) ha']
      · rw [Nat.le_zero.mp (grant_le _ _ _), Nat.le_zero.mp (grant_le _ _ _)]
      · rcases Nat.eq_zero_or_pos n with rfl | hn
        · rw [Nat.le_zero.mp (grant_le_demand hnodup ha),
            Nat.le_zero.mp (grant_le_demand hnodup' ha')]
        · have hsole' : ∀ b m, (b, m) ∈ demands → 0 < m → b = a :=
            fun b m hb hm ↦ hsole b m a n hb ha hm hn
          rw [grant_of_sole hnodup hsole' ha,
            grant_of_sole hnodup' (fun b m hb ↦ hsole' b m (hperm.mem_iff.mp hb)) ha']
    · have hmem' : a ∉ demands'.map Prod.fst := (hperm.map Prod.fst).mem_iff.not.mpr hmem
      rw [grant_of_notMem hmem, grant_of_notMem hmem']

end FirstCome
