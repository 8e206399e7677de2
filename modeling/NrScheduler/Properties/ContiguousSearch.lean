import NrScheduler.Properties.GridRefusal

/-!
# The search for contiguous blocks is exact

The search passes over the blocks of a grid once.  It returns the first run of the wanted
length that is free on all symbols of the range, and fails only where there is none.
-/

namespace NrScheduler

open LockMonad FirstFit

namespace ResourceGrid

/-- The `n` blocks from `s` on lie in the grid and are free on all symbols of the range. -/
def FreeRun (g : ResourceGrid) (startSymbol numSymbols n s : ℕ) : Prop :=
  s + n ≤ g.numRbs ∧ ∀ rb, s ≤ rb → rb < s + n →
    ∀ sym, startSymbol ≤ sym → sym < startSymbol + numSymbols → g.occupied sym rb = false

/-- What the search for `n` blocks returns: the first free run, if any.  It can be allocated,
and fewer blocks are found as well. -/
structure IsFirstRun (g : ResourceGrid) (startSymbol numSymbols n : ℕ)
    (r : Option ResourceBlockRange) : Prop where
  some_iff : ∀ range, r = some range ↔
    range.numRbs = n ∧ IsLeast {s | g.FreeRun startSymbol numSymbols n s} range.startRb
  none_iff : r = none ↔ ∀ s, ¬ g.FreeRun startSymbol numSymbols n s
  allocated : 0 < numSymbols → ∀ range, r = some range →
    ∃ g', ignoringLocks (g.allocate ⟨range, ⟨startSymbol, numSymbols⟩⟩) = some (true, g')
  fewer : r ≠ none → ∀ m, 1 ≤ m → m ≤ n →
    ∃ range, ignoringLocks (g.findContiguous m startSymbol numSymbols) = some (some range)

variable {g : ResourceGrid} {startSymbol numSymbols n m s : ℕ}

theorem fits_iff_freeRun :
    Fits (fun rb ↦ g.rbFree startSymbol numSymbols rb = true) g.numRbs n s ↔
      g.FreeRun startSymbol numSymbols n s := by
  simp only [Fits, FreeRun, rbFree_iff]

theorem firstFit_eq_some_iff (hn : 1 ≤ n) : g.firstFit startSymbol numSymbols n = some s ↔
    IsLeast {s | g.FreeRun startSymbol numSymbols n s} s := by
  rw [(g.firstFit_isFirst startSymbol numSymbols hn).eq_some_iff]
  simp only [fits_iff_freeRun]

theorem firstFit_eq_none_iff (hn : 1 ≤ n) : g.firstFit startSymbol numSymbols n = none ↔
    ∀ s, ¬ g.FreeRun startSymbol numSymbols n s := by
  rw [(g.firstFit_isFirst startSymbol numSymbols hn).eq_none_iff]
  simp only [fits_iff_freeRun]

theorem FreeRun.mono (h : g.FreeRun startSymbol numSymbols n s) (hm : m ≤ n) :
    g.FreeRun startSymbol numSymbols m s :=
  fits_iff_freeRun.mp ((fits_iff_freeRun.mpr h).mono hm)

theorem FreeRun.allocate (h : g.FreeRun startSymbol numSymbols n s) (hg : g.numRbs ≤ 273)
    (hs : startSymbol + numSymbols ≤ 14) (hn : 1 ≤ n) (hsymbols : 0 < numSymbols) :
    ignoringLocks (g.allocate ⟨⟨s, n⟩, ⟨startSymbol, numSymbols⟩⟩) =
      some (true, g.fill ⟨⟨s, n⟩, ⟨startSymbol, numSymbols⟩⟩) := by
  obtain ⟨hend, hfree⟩ := h
  have hinside : Inside ⟨⟨s, n⟩, ⟨startSymbol, numSymbols⟩⟩ := ⟨hsymbols, hs, hn, hend.trans hg⟩
  apply allocate_of_free (not_loopsForever hinside) (cells_lt hinside)
  rintro ⟨sym, rb⟩ hcell
  obtain ⟨hsym, hrb⟩ := (mem_cells hinside).mp hcell
  exact hfree rb hrb.1 hrb.2 sym hsym.1 hsym.2

/-- First fit is exact in every grid within the bitmaps. -/
theorem findContiguous_isFirstRun (hg : g.numRbs ≤ 273) (hs : startSymbol + numSymbols ≤ 14)
    (hn : 1 ≤ n) : ∃ r, ignoringLocks (g.findContiguous n startSymbol numSymbols) = some r ∧
      g.IsFirstRun startSymbol numSymbols n r := by
  have hfind : ∀ m, ignoringLocks (g.findContiguous m startSymbol numSymbols) =
      some ((g.firstFit startSymbol numSymbols m).map fun s ↦ ⟨s, m⟩) := fun m ↦
    ignoringLocks_eq_some.mpr (g.findContiguous_run hg hs m none)
  have hsome : ∀ range : ResourceBlockRange,
      (g.firstFit startSymbol numSymbols n).map (fun s ↦ ⟨s, n⟩) = some range ↔
        range.numRbs = n ∧ IsLeast {s | g.FreeRun startSymbol numSymbols n s} range.startRb := by
    rintro ⟨s, k⟩
    rw [Option.map_eq_some_iff, ← firstFit_eq_some_iff hn]
    constructor
    · rintro ⟨s', hs', heq⟩
      obtain ⟨rfl, rfl⟩ := ResourceBlockRange.mk.inj heq
      exact ⟨rfl, hs'⟩
    · rintro ⟨rfl, hfirst⟩
      exact ⟨s, hfirst, rfl⟩
  have hnone : (g.firstFit startSymbol numSymbols n).map
      (fun s ↦ (⟨s, n⟩ : ResourceBlockRange)) = none ↔
        ∀ s, ¬ g.FreeRun startSymbol numSymbols n s := by
    rw [Option.map_eq_none_iff, firstFit_eq_none_iff hn]
  refine ⟨_, hfind n, hsome, hnone, ?_, ?_⟩
  · intro hsymbols range hrange
    obtain ⟨hlength, hleast⟩ := (hsome range).mp hrange
    have hallocate := FreeRun.allocate hleast.1 hg hs hn hsymbols
    rw [← hlength] at hallocate
    exact ⟨_, hallocate⟩
  · intro hfound m hm hle
    have hrun : ¬ ∀ s, ¬ g.FreeRun startSymbol numSymbols m s := by
      intro hnothing
      exact hfound (hnone.mpr fun s hrun ↦ hnothing s (hrun.mono hle))
    obtain ⟨s, hfirst⟩ := Option.ne_none_iff_exists'.mp (mt (firstFit_eq_none_iff hm).mp hrun)
    refine ⟨⟨s, m⟩, ?_⟩
    rw [hfind m, hfirst]
    rfl

/-- Six blocks of which the second one is taken in the middle of the slot. -/
theorem findContiguous_isFirstRun_fragmented :
    let g := (create 6).setBit 7 1
    ∃ r, ignoringLocks (g.findContiguous 4 0 14) = some r ∧ g.IsFirstRun 0 14 4 r :=
  findContiguous_isFirstRun (by decide) (by decide) (by decide)

end ResourceGrid

end NrScheduler
