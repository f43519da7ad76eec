import Mathlib.Data.List.Basic
import Mathlib.Data.List.Nodup

/-!
# Pages of a list which moves

A reader takes a list page by page while the list grows at its front and is
cut at its end.  An item which stays in the list only moves backwards, so what
the reader has not seen is never in front of the next page.
-/

namespace Paging

universe u

variable {α : Type u} {earlier middle later items : List α} {item : α}
variable {offset limit : ℕ}

def page (offset limit : ℕ) (items : List α) : List α :=
  (items.drop offset).take limit

/-- A leading part of the items is left, behind new ones. -/
def Moved (earlier later : List α) : Prop :=
  ∃ fresh kept, later = fresh ++ kept ∧ kept.IsPrefix earlier ∧
    ∀ item ∈ fresh, item ∉ earlier

theorem Moved.refl (items : List α) : Moved items items :=
  ⟨[], items, rfl, List.prefix_rfl, by simp⟩

theorem moved_cons (hfresh : item ∉ items) : Moved items (item :: items) :=
  ⟨[item], items, rfl, List.prefix_rfl, by simpa using hfresh⟩

theorem moved_of_prefix (hhead : later.IsPrefix earlier) : Moved earlier later :=
  ⟨[], later, rfl, hhead, by simp⟩

theorem Moved.filter (p : α → Bool) (hmoved : Moved earlier later) :
    Moved (earlier.filter p) (later.filter p) := by
  obtain ⟨fresh, kept, rfl, hhead, hfresh⟩ := hmoved
  refine ⟨fresh.filter p, kept.filter p, List.filter_append .., hhead.filter p, ?_⟩
  intro item hitem hearlier
  exact hfresh item (List.mem_of_mem_filter hitem) (List.mem_of_mem_filter hearlier)

/-- An item behind an offset is still behind it while it is in the list. -/
theorem Moved.mem_drop (hmoved : Moved earlier later) (hunique : earlier.Nodup)
    (hbehind : item ∈ earlier.drop offset) (hlater : item ∈ later) :
    item ∈ later.drop offset := by
  obtain ⟨fresh, kept, rfl, hhead, hfresh⟩ := hmoved
  have hearlier : item ∈ earlier := List.mem_of_mem_drop hbehind
  have hkept : item ∈ kept := by
    rcases List.mem_append.mp hlater with hnew | hkept
    · exact absurd hearlier (hfresh item hnew)
    · exact hkept
  have hfront : item ∉ earlier.take offset := by
    intro htake
    have hsplit := List.take_append_drop offset earlier
    rw [← hsplit, List.nodup_append] at hunique
    exact hunique.2.2 item htake item hbehind rfl
  have hdrop : item ∈ kept.drop offset := by
    have hsplit : item ∈ kept.take offset ++ kept.drop offset := by
      rwa [List.take_append_drop]
    rcases List.mem_append.mp hsplit with htake | hdrop
    · obtain ⟨cut, rfl⟩ := hhead
      exact absurd (by simp [List.take_append, htake]) hfront
    · exact hdrop
  rw [List.drop_append, List.mem_append]
  refine .inr ?_
  exact (List.drop_sublist_drop_left kept (Nat.sub_le offset fresh.length)).subset hdrop

theorem mem_page_or (limit : ℕ) (hbehind : item ∈ items.drop offset) :
    item ∈ page offset limit items ∨ item ∈ items.drop (offset + limit) := by
  have hsplit : item ∈ (items.drop offset).take limit ++
      (items.drop offset).drop limit := by
    rwa [List.take_append_drop]
  rcases List.mem_append.mp hsplit with hpage | hrest
  · exact .inl hpage
  · rw [List.drop_drop] at hrest
    exact .inr hrest

/-- The pages of a list which stays, one after the other. -/
theorem take_append_page (offset limit : ℕ) (items : List α) :
    items.take offset ++ page offset limit items = items.take (offset + limit) := by
  rw [page, ← List.take_add]

end Paging
