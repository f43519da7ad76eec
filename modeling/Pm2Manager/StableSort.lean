import Mathlib.Data.List.Sort

/-!
# Sorting by a comparator

The sort of a list by a comparator keeps elements which compare equal in the
order they had.  Permutation, order and stability together determine the
result, so a caller may rely on nothing else.
-/

namespace StableSort

variable {α : Type*}

def sortBy (cmp : α → α → Ordering) (l : List α) : List α :=
  l.insertionSort fun a b => (cmp a b).isLE

/-- The elements which compare equal to `a`, in their order. -/
def ties (cmp : α → α → Ordering) (a : α) (l : List α) : List α :=
  l.filter fun b => cmp a b = .eq

structure IsStableSort (cmp : α → α → Ordering) (l sorted : List α) : Prop where
  perm : sorted.Perm l
  ordered : sorted.Pairwise fun a b => (cmp a b).isLE
  stable : ∀ a, ties cmp a sorted = ties cmp a l

variable {cmp : α → α → Ordering} {a b : α} {l sorted other : List α}

theorem mem_ties : b ∈ ties cmp a l ↔ b ∈ l ∧ cmp a b = .eq := by
  simp [ties]

theorem ties_cons_of_eq (heq : cmp a b = .eq) :
    ties cmp a (b :: l) = b :: ties cmp a l := by
  simp [ties, heq]

theorem ties_cons_of_ne (hne : cmp a b ≠ .eq) : ties cmp a (b :: l) = ties cmp a l := by
  simp [ties, hne]

/-- A sort keeps, among the elements which compare equal, the order of a list
which was in order before. -/
theorem IsStableSort.pairwise {R : α → α → Prop} (hsorted : IsStableSort cmp l sorted)
    (hself : ∀ a, cmp a a = .eq) (hl : l.Pairwise R) :
    sorted.Pairwise fun a b => cmp a b = .lt ∨ cmp a b = .eq ∧ R a b := by
  rw [List.pairwise_iff_forall_sublist]
  intro a b hpair
  have hle := List.pairwise_iff_forall_sublist.mp hsorted.ordered hpair
  cases hcmp : cmp a b with
  | lt => exact .inl rfl
  | gt => simp [hcmp] at hle
  | eq =>
      have hties : ties cmp a [a, b] = [a, b] := by simp [ties, hself a, hcmp]
      have hbefore : [a, b].Sublist l := by
        rw [← hties]
        refine (hpair.filter _).trans ?_
        rw [← ties, hsorted.stable a]
        exact List.filter_sublist
      exact .inr ⟨rfl, List.pairwise_iff_forall_sublist.mp hl hbefore⟩

section

variable [Std.TransCmp cmp]

/-- An element is put in front of those which compare equal to it. -/
theorem ties_orderedInsert (hsorted : l.Pairwise fun a b => (cmp a b).isLE) :
    ties cmp a (l.orderedInsert (fun a b => (cmp a b).isLE) b) = ties cmp a (b :: l) := by
  induction l with
  | nil => rfl
  | cons head tail ih =>
      rw [List.orderedInsert_cons]
      split
      · rfl
      next hgreater =>
        have htail := ih (List.pairwise_cons.mp hsorted).2
        by_cases hhead : cmp a head = .eq
        · have hb : cmp a b ≠ .eq := by
            intro hb
            have hle : (cmp b head).isLE :=
              Std.TransCmp.isLE_trans (Ordering.isLE_of_eq_eq (Std.OrientedCmp.eq_symm hb))
                (Ordering.isLE_of_eq_eq hhead)
            exact hgreater hle
          rw [ties_cons_of_eq hhead, htail, ties_cons_of_ne hb, ties_cons_of_ne hb,
            ties_cons_of_eq hhead]
        · rw [ties_cons_of_ne hhead, htail]
          by_cases hb : cmp a b = .eq
          · rw [ties_cons_of_eq hb, ties_cons_of_eq hb, ties_cons_of_ne hhead]
          · rw [ties_cons_of_ne hb, ties_cons_of_ne hb, ties_cons_of_ne hhead]

theorem ordered_sortBy (l : List α) :
    (sortBy cmp l).Pairwise fun a b => (cmp a b).isLE := by
  have htotal : Std.Total fun a b => (cmp a b).isLE = true := by
    constructor
    intro a b
    cases hcmp : cmp a b with
    | lt => exact .inl rfl
    | eq => exact .inl rfl
    | gt =>
        right
        rw [Std.OrientedCmp.lt_of_gt hcmp]
        rfl
  have htrans : IsTrans α fun a b => (cmp a b).isLE = true :=
    ⟨fun _ _ _ hab hbc => Std.TransCmp.isLE_trans hab hbc⟩
  exact List.pairwise_insertionSort _ l

theorem isStableSort_sortBy (l : List α) : IsStableSort cmp l (sortBy cmp l) where
  perm := List.perm_insertionSort _ l
  ordered := ordered_sortBy l
  stable a := by
    induction l with
    | nil => rfl
    | cons head tail ih =>
        have hinsert : sortBy cmp (head :: tail) = (sortBy cmp tail).orderedInsert
            (fun a b => (cmp a b).isLE) head := List.insertionSort_cons ..
        rw [hinsert, ties_orderedInsert (ordered_sortBy tail)]
        by_cases heq : cmp a head = .eq
        · rw [ties_cons_of_eq heq, ties_cons_of_eq heq, ih]
        · rw [ties_cons_of_ne heq, ties_cons_of_ne heq, ih]

theorem ties_self_cons (a : α) : ties cmp a (a :: l) = a :: ties cmp a l :=
  ties_cons_of_eq Std.ReflCmp.compare_self

/-- An element which is the first of its ties elsewhere is not below the head. -/
theorem isLE_of_ties_eq {xs ys : List α} (hhead : ∀ c ∈ xs, (cmp a c).isLE)
    (hties : ties cmp b (a :: xs) = ties cmp b (b :: ys)) : (cmp a b).isLE := by
  have hmem : b ∈ ties cmp b (a :: xs) := by
    rw [hties, ties_self_cons]
    exact List.mem_cons_self
  rcases List.mem_cons.mp (mem_ties.mp hmem).1 with rfl | hb
  · exact Ordering.isLE_of_eq_eq Std.ReflCmp.compare_self
  · exact hhead b hb

/-- Two ordered lists with the same ties are the same: their heads compare
equal, and are then the first of their ties. -/
theorem eq_of_ties (hsorted : sorted.Pairwise fun a b => (cmp a b).isLE)
    (hother : other.Pairwise fun a b => (cmp a b).isLE)
    (hties : ∀ a, ties cmp a sorted = ties cmp a other) : sorted = other := by
  induction sorted generalizing other with
  | nil =>
      cases other with
      | nil => rfl
      | cons head tail =>
          have hhead := hties head
          rw [ties_self_cons] at hhead
          cases hhead
  | cons first rest ih =>
      cases other with
      | nil =>
          have hfirst := hties first
          rw [ties_self_cons] at hfirst
          cases hfirst
      | cons head tail =>
          obtain ⟨hfirst, hrest⟩ := List.pairwise_cons.mp hsorted
          obtain ⟨hhead, htail⟩ := List.pairwise_cons.mp hother
          have hforth : (cmp first head).isLE := isLE_of_ties_eq hfirst (hties head)
          have hback : (cmp head first).isLE := isLE_of_ties_eq hhead (hties first).symm
          have heq : cmp first head = .eq := Std.OrientedCmp.isLE_antisymm hforth hback
          have hcons := hties first
          rw [ties_self_cons, ties_cons_of_eq heq] at hcons
          obtain ⟨rfl, -⟩ := List.cons.inj hcons
          congr 1
          refine ih hrest htail fun a => ?_
          have hboth := hties a
          by_cases ha : cmp a first = .eq
          · rw [ties_cons_of_eq ha, ties_cons_of_eq ha] at hboth
            exact (List.cons.inj hboth).2
          · rwa [ties_cons_of_ne ha, ties_cons_of_ne ha] at hboth

/-- Where no two elements compare equal, the order before does not matter. -/
theorem sortBy_perm (hperm : other.Perm l)
    (hdistinct : l.Pairwise fun a b => cmp a b ≠ .eq) :
    sortBy cmp other = sortBy cmp l := by
  refine eq_of_ties (ordered_sortBy other) (ordered_sortBy l) fun a => ?_
  rw [(isStableSort_sortBy other).stable a, (isStableSort_sortBy l).stable a]
  have hties : (ties cmp a other).Perm (ties cmp a l) := hperm.filter _
  have hpair : (ties cmp a l).Pairwise fun b c => cmp b c ≠ .eq := hdistinct.filter _
  have hequal : ∀ b ∈ ties cmp a l, cmp a b = .eq := fun b hb => (mem_ties.mp hb).2
  revert hties hpair hequal
  -- two ties of `a` would compare equal
  rcases ties cmp a l with _ | ⟨b, _ | ⟨c, rest⟩⟩
  · intro hties _ _
    exact hties.eq_nil
  · intro hties _ _
    exact List.perm_singleton.mp hties
  · intro _ hpair hequal
    have hbc : cmp b c = .eq :=
      Std.TransCmp.eq_trans (Std.OrientedCmp.eq_symm (hequal b (by simp)))
        (hequal c (by simp))
    exact absurd hbc ((List.pairwise_cons.mp hpair).1 c (by simp))

end

end StableSort
