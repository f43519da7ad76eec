import Mathlib.Data.Nat.Basic
import Mathlib.Data.Option.Basic
import Mathlib.Tactic.Linarith

/-!
# Binary search

The search for the first place at which a test fails.  A probe outside the
table it reads has no answer, and the search is then without a result.
-/

namespace BinarySearch

/-- `while (lo < hi)`: a probe in the middle, and on with one of the halves. -/
def search (probe : ℕ → Option Bool) (lo hi : ℕ) : Option ℕ :=
  if lo < hi then
    (probe ((lo + hi) / 2)).bind fun below =>
      if below then search probe ((lo + hi) / 2 + 1) hi
      else search probe lo ((lo + hi) / 2)
  else
    some lo
termination_by hi - lo

variable {probe : ℕ → Option Bool} {lo hi k : ℕ}

theorem search_of_le (hdone : hi ≤ lo) : search probe lo hi = some lo := by
  rw [search, if_neg (Nat.not_lt.mpr hdone)]

theorem search_of_below (hless : lo < hi) (hprobe : probe ((lo + hi) / 2) = some true) :
    search probe lo hi = search probe ((lo + hi) / 2 + 1) hi := by
  rw [search, if_pos hless, hprobe]
  rfl

theorem search_of_not_below (hless : lo < hi)
    (hprobe : probe ((lo + hi) / 2) = some false) :
    search probe lo hi = search probe lo ((lo + hi) / 2) := by
  rw [search, if_pos hless, hprobe]
  rfl

/-- The search finds the place `k` before which the probes succeed and from
which on they fail, provided it is somewhere between `lo` and `hi`. -/
theorem search_eq (hlo : lo ≤ k) (hhi : k ≤ hi)
    (hprobe : ∀ i, lo ≤ i → i < hi → probe i = some (decide (i < k))) :
    search probe lo hi = some k := by
  induction hsize : hi - lo using Nat.strong_induction_on generalizing lo hi with
  | _ size ih =>
      by_cases hless : lo < hi
      · have hmidLo : lo ≤ (lo + hi) / 2 := by omega
        have hmidHi : (lo + hi) / 2 < hi := by omega
        have hmid := hprobe _ hmidLo hmidHi
        by_cases hbelow : (lo + hi) / 2 < k
        · rw [search_of_below hless (by simpa [hbelow] using hmid)]
          apply ih (hi - ((lo + hi) / 2 + 1)) (by omega) hbelow hhi _ rfl
          intro i hfrom hto
          exact hprobe i (by omega) hto
        · rw [search_of_not_below hless (by simpa [hbelow] using hmid)]
          apply ih ((lo + hi) / 2 - lo) (by omega) hlo (Nat.not_lt.mp hbelow) _ rfl
          intro i hfrom hto
          exact hprobe i hfrom (hto.trans hmidHi)
      · rw [search_of_le (Nat.not_lt.mp hless)]
        exact congrArg some (by omega)

end BinarySearch
