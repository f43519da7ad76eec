import Mathlib.Algebra.BigOperators.Group.Finset.Piecewise
import Mathlib.Algebra.Order.Field.Basic
import Mathlib.Algebra.Order.BigOperators.Group.List
import Mathlib.Data.List.Dedup
import Mathlib.Data.List.Sort
import Mathlib.Data.Rat.Defs
import Mathlib.Algebra.Order.Ring.Rat
import Mathlib.Tactic.Linarith

/-!
# Grouping and averages

`GROUP BY` over a list of rows: one group for each key which occurs, in
ascending order of the keys.  Averages are exact.
-/

namespace Grouping

section OneGroup

variable {α κ : Type*} [DecidableEq κ] {key : α → κ} {rows : List α} {k : κ} {row : α}

def group (key : α → κ) (rows : List α) (k : κ) : List α :=
  rows.filter fun row => key row = k

@[simp] theorem mem_group : row ∈ group key rows k ↔ row ∈ rows ∧ key row = k := by
  simp [group]

/-- A sum over all rows, group by group. -/
theorem sum_groups {M : Type*} [AddCommMonoid M] (key : α → κ) (f : α → M)
    {ks : List κ} (hnodup : ks.Nodup) :
    ∀ rows : List α, (∀ row ∈ rows, key row ∈ ks) →
      (ks.map fun k => ((group key rows k).map f).sum).sum = (rows.map f).sum := by
  intro rows
  induction rows with
  | nil => intro _; simp [group]
  | cons row rest ih =>
      intro hmem
      have hrow : key row ∈ ks := hmem row List.mem_cons_self
      have hsplit : ∀ k, ((group key (row :: rest) k).map f).sum =
          (if k = key row then f row else 0) + ((group key rest k).map f).sum := by
        intro k
        by_cases hk : k = key row
        · simp [group, hk]
        · simp [group, hk, Ne.symm hk]
      have hone : (ks.map fun k => if k = key row then f row else 0).sum = f row := by
        rw [← List.sum_toFinset _ hnodup, Finset.sum_ite_eq',
          if_pos (List.mem_toFinset.mpr hrow)]
      simp only [hsplit, List.sum_map_add, hone]
      rw [ih fun other hother => hmem other (List.mem_cons_of_mem row hother),
        List.map_cons, List.sum_cons]

end OneGroup

section Groups

variable {α κ : Type*} [LinearOrder κ]

/-- The keys which occur, each one once, in ascending order. -/
def keys (key : α → κ) (rows : List α) : List κ :=
  (rows.map key).dedup.insertionSort (· ≤ ·)

def groupBy (key : α → κ) (rows : List α) : List (κ × List α) :=
  (keys key rows).map fun k => (k, group key rows k)

variable {key : α → κ} {rows : List α} {k : κ} {row : α}

@[simp] theorem mem_keys : k ∈ keys key rows ↔ ∃ row ∈ rows, key row = k := by
  simp [keys]

theorem keys_nodup (key : α → κ) (rows : List α) : (keys key rows).Nodup :=
  (List.perm_insertionSort _ _).nodup_iff.mpr (List.nodup_dedup _)

theorem keys_sorted (key : α → κ) (rows : List α) :
    (keys key rows).Pairwise (· < ·) := by
  have hle := List.pairwise_insertionSort (· ≤ ·) (rows.map key).dedup
  have hne : (keys key rows).Pairwise (· ≠ ·) := keys_nodup key rows
  exact (hle.and hne).imp fun hboth => lt_of_le_of_ne hboth.1 hboth.2

theorem group_ne_nil (hk : k ∈ keys key rows) : group key rows k ≠ [] := by
  obtain ⟨row, hrow, hkey⟩ := mem_keys.mp hk
  exact List.ne_nil_of_mem (mem_group.mpr ⟨hrow, hkey⟩)

theorem mem_groupBy {entry : κ × List α} :
    entry ∈ groupBy key rows ↔
      entry.1 ∈ keys key rows ∧ entry.2 = group key rows entry.1 := by
  obtain ⟨k, members⟩ := entry
  simp only [groupBy, List.mem_map, Prod.mk.injEq]
  constructor
  · rintro ⟨other, hother, rfl, rfl⟩
    exact ⟨hother, rfl⟩
  · rintro ⟨hk, hmembers⟩
    exact ⟨k, hk, rfl, hmembers.symm⟩

end Groups

/-! ## Averages -/

def average (values : List ℚ) : ℚ :=
  values.sum / values.length

theorem average_mul_length {values : List ℚ} (hne : values ≠ []) :
    average values * values.length = values.sum := by
  have hlength : (values.length : ℚ) ≠ 0 := by
    exact_mod_cast (List.length_pos_iff.mpr hne).ne'
  exact div_mul_cancel₀ _ hlength

theorem average_perm {values others : List ℚ} (hperm : values.Perm others) :
    average values = average others := by
  rw [average, average, hperm.sum_eq, hperm.length_eq]

/-- Some value is not below the average. -/
theorem exists_average_le {values : List ℚ} (hne : values ≠ []) :
    ∃ value ∈ values, average values ≤ value := by
  have hsum : (values.map fun _ => average values).sum ≤ (values.map id).sum := by
    rw [List.map_const', List.sum_replicate, nsmul_eq_mul, mul_comm, List.map_id,
      average_mul_length hne]
  exact List.exists_le_of_sum_le hne _ _ hsum

end Grouping
