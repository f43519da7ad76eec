import Mathlib.Data.List.Sort
import Pm2Manager.JsonText

/-!
# The process selector of the metrics view

`loadMetrics` joins the names of the live processes with the names which have
history and offers each one.  It keeps the names it has had as the keys of an
ordinary object, in which the members of `Object.prototype` are found as well.
Names are strings of UTF-16 code units and are ordered by them.
-/

namespace Pm2Manager

open JsonText

/-! ## Joining the names -/

/-- What an object literal inherits; every one of these values is truthy. -/
def inheritedNames : List Text :=
  ["constructor", "__defineGetter__", "__defineSetter__", "hasOwnProperty",
    "__lookupGetter__", "__lookupSetter__", "isPrototypeOf", "propertyIsEnumerable",
    "toString", "valueOf", "__proto__", "toLocaleString"].map ascii

/-- The keys which have been put into `seen`, and `names`. -/
structure CollectedNames where
  seen : List Text
  names : List Text

namespace CollectedNames

/-- `seen[n]` is truthy. -/
def sees (collected : CollectedNames) (n : Text) : Bool :=
  n ∈ collected.seen ∨ n ∈ inheritedNames

def add (collected : CollectedNames) (n : Text) : CollectedNames :=
  if n ≠ [] ∧ collected.sees n = false then
    { seen := n :: collected.seen, names := collected.names ++ [n] }
  else
    collected

end CollectedNames

def collectNames (list : List Text) : List Text :=
  (list.foldl CollectedNames.add { seen := [], names := [] }).names

/-! ## The selector -/

section Selector

variable (toLowerCase : Text → Text)

def compareNames (a b : Text) : Ordering :=
  if toLowerCase a < toLowerCase b then .lt
  else if toLowerCase b < toLowerCase a then .gt
  else .eq

def metricsNames (live stored : List Text) : List Text :=
  (collectNames (live ++ stored)).insertionSort fun a b =>
    compareNames toLowerCase a b ≠ .gt

structure SelectOption where
  value : Text
  text : Text
deriving DecidableEq

def metricsOptions (live stored : List Text) : List SelectOption :=
  if metricsNames toLowerCase live stored = [] then
    [{ value := [], text := ascii "No process history yet" }]
  else
    (metricsNames toLowerCase live stored).map fun n => { value := n, text := n }

/-- The options are the names of both lists, each one once and in order.  The
option without a name is there only for want of names. -/
structure OffersNames (live stored : List Text) (options : List SelectOption) :
    Prop where
  once : (options.map SelectOption.value).Nodup
  names : ∀ n, n ≠ [] →
    (n ∈ options.map SelectOption.value ↔ n ∈ live ++ stored)
  shown : ∀ option ∈ options, option.value ≠ [] → option.text = option.value
  nameless : [] ∈ options.map SelectOption.value → ∀ n ∈ live ++ stored, n = []
  sorted : (options.map SelectOption.value).Pairwise fun a b =>
    ¬ toLowerCase b < toLowerCase a

end Selector

/-! ## Collecting -/

theorem nil_not_inherited : [] ∉ inheritedNames := by
  decide

namespace CollectedNames

variable {collected : CollectedNames} {list : List Text} {n : Text}

/-- `seen` and `names` have the same members, and no name twice. -/
structure Agrees (collected : CollectedNames) : Prop where
  same : ∀ n, n ∈ collected.seen ↔ n ∈ collected.names
  nodup : collected.names.Nodup

theorem Agrees.add (hagrees : collected.Agrees) (n : Text) : (collected.add n).Agrees := by
  unfold CollectedNames.add
  split
  next hnew =>
    obtain ⟨_, hnew⟩ := hnew
    have hfresh : n ∉ collected.names := by
      intro hold
      simp [sees, (hagrees.same n).mpr hold] at hnew
    constructor
    · intro other
      simp [hagrees.same other, or_comm]
    · rw [← List.concat_eq_append]
      exact hagrees.nodup.concat hfresh
  · exact hagrees

theorem mem_add (hagrees : collected.Agrees) {other : Text} :
    n ∈ (collected.add other).names ↔
      n ∈ collected.names ∨ n = other ∧ n ≠ [] ∧ n ∉ inheritedNames := by
  unfold CollectedNames.add
  split
  next hnew =>
    obtain ⟨hname, hnew⟩ := hnew
    have hinherited : other ∉ inheritedNames := by
      intro hother
      simp [sees, hother] at hnew
    simp only [List.mem_append, List.mem_singleton]
    constructor
    · rintro (hold | rfl)
      · exact .inl hold
      · exact .inr ⟨rfl, hname, hinherited⟩
    · rintro (hold | ⟨rfl, _⟩)
      · exact .inl hold
      · exact .inr rfl
  next hknown =>
    constructor
    · exact .inl
    · rintro (hold | ⟨rfl, hname, hinherited⟩)
      · exact hold
      · -- the name has been seen before
        by_contra hfresh
        apply hknown
        simp [sees, hname, hinherited, hagrees.same, hfresh]

theorem agrees_foldl (hagrees : collected.Agrees) (list : List Text) :
    (list.foldl CollectedNames.add collected).Agrees := by
  induction list generalizing collected with
  | nil => exact hagrees
  | cons n rest ih => exact ih (hagrees.add n)

theorem mem_foldl (hagrees : collected.Agrees) :
    n ∈ (list.foldl CollectedNames.add collected).names ↔
      n ∈ collected.names ∨ n ∈ list ∧ n ≠ [] ∧ n ∉ inheritedNames := by
  induction list generalizing collected with
  | nil => simp
  | cons other rest ih =>
      rw [List.foldl_cons, ih (hagrees.add other), mem_add hagrees, List.mem_cons]
      tauto

theorem agrees_nil : Agrees { seen := [], names := [] } where
  same := by simp
  nodup := List.nodup_nil

end CollectedNames

section Collected

variable {list live stored : List Text} {n : Text} {toLowerCase : Text → Text}

theorem nodup_collectNames (list : List Text) : (collectNames list).Nodup :=
  (CollectedNames.agrees_foldl CollectedNames.agrees_nil list).nodup

theorem mem_collectNames :
    n ∈ collectNames list ↔ n ∈ list ∧ n ≠ [] ∧ n ∉ inheritedNames := by
  rw [collectNames, CollectedNames.mem_foldl CollectedNames.agrees_nil]
  simp

/-! ## Sorting -/

theorem compareNames_ne_gt {a b : Text} :
    compareNames toLowerCase a b ≠ .gt ↔ toLowerCase a ≤ toLowerCase b := by
  rw [← List.not_lt]
  unfold compareNames
  split
  next hless => simp [List.lt_asymm hless]
  next =>
    split
    next hgreater => simp [hgreater]
    next hequal => simp [hequal]

theorem sorted_metricsNames :
    (metricsNames toLowerCase live stored).Pairwise fun a b =>
      ¬ toLowerCase b < toLowerCase a := by
  have htotal : Std.Total fun a b => compareNames toLowerCase a b ≠ .gt := by
    constructor
    intro a b
    rw [compareNames_ne_gt, compareNames_ne_gt]
    exact List.le_total _ _
  have htrans : IsTrans Text fun a b => compareNames toLowerCase a b ≠ .gt := by
    constructor
    intro a b c hab hbc
    rw [compareNames_ne_gt] at hab hbc ⊢
    exact List.le_trans hab hbc
  have hpairwise := List.pairwise_insertionSort
    (fun a b => compareNames toLowerCase a b ≠ .gt) (collectNames (live ++ stored))
  refine hpairwise.imp fun hle => ?_
  rw [List.not_lt]
  exact compareNames_ne_gt.mp hle

theorem mem_metricsNames : n ∈ metricsNames toLowerCase live stored ↔
    n ∈ live ++ stored ∧ n ≠ [] ∧ n ∉ inheritedNames := by
  rw [metricsNames, List.mem_insertionSort, mem_collectNames]

theorem nodup_metricsNames : (metricsNames toLowerCase live stored).Nodup :=
  (List.perm_insertionSort _ _).nodup_iff.mpr (nodup_collectNames _)

/-! ## What is offered -/

theorem values_of_names (hnames : metricsNames toLowerCase live stored ≠ []) :
    (metricsOptions toLowerCase live stored).map SelectOption.value =
      metricsNames toLowerCase live stored := by
  rw [metricsOptions, if_neg hnames, List.map_map]
  exact List.map_id _

theorem values_of_none (hnone : metricsNames toLowerCase live stored = []) :
    (metricsOptions toLowerCase live stored).map SelectOption.value = [[]] := by
  rw [metricsOptions, if_pos hnone, List.map_singleton]

theorem mem_values (hname : n ≠ []) :
    n ∈ (metricsOptions toLowerCase live stored).map SelectOption.value ↔
      n ∈ live ++ stored ∧ n ∉ inheritedNames := by
  by_cases hnone : metricsNames toLowerCase live stored = []
  · have habsent : ¬ (n ∈ live ++ stored ∧ n ≠ [] ∧ n ∉ inheritedNames) := by
      intro hnamed
      have hlisted : n ∈ metricsNames toLowerCase live stored := mem_metricsNames.mpr hnamed
      rw [hnone] at hlisted
      exact List.not_mem_nil hlisted
    rw [values_of_none hnone, List.mem_singleton]
    tauto
  · rw [values_of_names hnone, mem_metricsNames]
    tauto

/-- Without a name to list, the placeholder is the one option. -/
theorem offers_placeholder (hplain : ∀ n ∈ live ++ stored, n ∉ inheritedNames)
    (hnone : metricsNames toLowerCase live stored = []) :
    OffersNames toLowerCase live stored (metricsOptions toLowerCase live stored) := by
  have hvalues := values_of_none hnone
  have hempty : ∀ n ∈ live ++ stored, n = [] := by
    intro n hn
    by_contra hname
    have hlisted : n ∈ metricsNames toLowerCase live stored :=
      mem_metricsNames.mpr ⟨hn, hname, hplain n hn⟩
    rw [hnone] at hlisted
    exact List.not_mem_nil hlisted
  constructor
  · rw [hvalues]
    exact List.nodup_singleton []
  · intro n hname
    rw [mem_values hname]
    exact and_iff_left_of_imp (hplain n)
  · intro option hoption hvalue
    rw [metricsOptions, if_pos hnone, List.mem_singleton] at hoption
    subst option
    exact absurd rfl hvalue
  · exact fun _ => hempty
  · rw [hvalues]
    exact List.pairwise_singleton _ _

theorem offers_listed (hplain : ∀ n ∈ live ++ stored, n ∉ inheritedNames)
    (hnames : metricsNames toLowerCase live stored ≠ []) :
    OffersNames toLowerCase live stored (metricsOptions toLowerCase live stored) := by
  have hvalues := values_of_names hnames
  constructor
  · rw [hvalues]
    exact nodup_metricsNames
  · intro n hname
    rw [mem_values hname]
    exact and_iff_left_of_imp (hplain n)
  · intro option hoption _
    rw [metricsOptions, if_neg hnames] at hoption
    obtain ⟨n, _, rfl⟩ := List.mem_map.mp hoption
    rfl
  · intro hnil
    rw [hvalues] at hnil
    exact absurd rfl (mem_metricsNames.mp hnil).2.1
  · rw [hvalues]
    exact sorted_metricsNames

/-- The selector offers the names of both lists exactly when none of them is
a member of `Object.prototype`. -/
theorem metrics_selector_iff (toLowerCase : Text → Text) (live stored : List Text) :
    OffersNames toLowerCase live stored (metricsOptions toLowerCase live stored) ↔
      ∀ n ∈ live ++ stored, n ∉ inheritedNames := by
  constructor
  · intro hoffers n hn hinherited
    have hname : n ≠ [] := by
      rintro rfl
      exact nil_not_inherited hinherited
    have hvalue := (hoffers.names n hname).mpr hn
    exact ((mem_values hname).mp hvalue).2 hinherited
  · intro hplain
    by_cases hnone : metricsNames toLowerCase live stored = []
    · exact offers_placeholder hplain hnone
    · exact offers_listed hplain hnone

/-- A process called `constructor` cannot be selected. -/
theorem constructor_not_offered :
    ∃ live stored, ∀ toLowerCase : Text → Text,
      ¬ OffersNames toLowerCase live stored (metricsOptions toLowerCase live stored) := by
  refine ⟨[ascii "constructor"], [], fun toLowerCase hoffers => ?_⟩
  have hname : ascii "constructor" ≠ [] := by
    decide
  have hvalue := (hoffers.names _ hname).mpr List.mem_cons_self
  exact ((mem_values hname).mp hvalue).2 (List.mem_map_of_mem List.mem_cons_self)

end Collected

end Pm2Manager
