import Mathlib.Data.Option.Basic
import Pm2Manager.Machine

/-!
# Two machines on one word

Two machines read the same actions.  A relation between their states is kept
in lockstep when, from related states, an action is impossible in both
machines or leads to related states again; then a whole word is impossible in
both, or it leads both to related states.
-/

universe u v w

namespace Machine

variable {State₁ : Type u} {State₂ : Type v} {Action : Type w}

/-- Every action of the word meets `ok` in the two states in which it is
taken. -/
def AdmitsBoth (m : Machine State₁ Action) (n : Machine State₂ Action)
    (ok : State₁ → State₂ → Action → Prop) : State₁ → State₂ → List Action → Prop
  | _, _, [] => True
  | state₁, state₂, action :: rest =>
      ok state₁ state₂ action ∧
        ∀ next₁ next₂, m.step state₁ action = some next₁ →
          n.step state₂ action = some next₂ →
            AdmitsBoth m n ok next₁ next₂ rest

def Lockstep (m : Machine State₁ Action) (n : Machine State₂ Action)
    (ok : State₁ → State₂ → Action → Prop) (R : State₁ → State₂ → Prop) : Prop :=
  ∀ state₁ state₂ action, R state₁ state₂ → ok state₁ state₂ action →
    Option.Rel R (m.step state₁ action) (n.step state₂ action)

variable {m : Machine State₁ Action} {n : Machine State₂ Action}
variable {ok : State₁ → State₂ → Action → Prop} {R : State₁ → State₂ → Prop}
variable {state₁ : State₁} {state₂ : State₂} {word : List Action}

/-- A guard on the actions alone is met by the words which keep to it. -/
theorem admitsBoth_of_forall {P : Action → Prop}
    (hword : ∀ action ∈ word, P action) :
    m.AdmitsBoth n (fun _ _ => P) state₁ state₂ word := by
  induction word generalizing state₁ state₂ with
  | nil => trivial
  | cons action rest ih =>
      exact ⟨hword action List.mem_cons_self, fun next₁ next₂ _ _ =>
        ih fun later hlater => hword later (List.mem_cons_of_mem _ hlater)⟩

/-- The rule for runs. -/
theorem Lockstep.exec (hlock : m.Lockstep n ok R) (hstate : R state₁ state₂)
    (hadmits : m.AdmitsBoth n ok state₁ state₂ word) :
    Option.Rel R (m.exec state₁ word) (n.exec state₂ word) := by
  induction word generalizing state₁ state₂ with
  | nil => exact .some hstate
  | cons action rest ih =>
      have hstep := hlock state₁ state₂ action hstate hadmits.1
      simp only [Machine.exec]
      cases hfirst : m.step state₁ action with
      | none =>
          rw [hfirst] at hstep
          cases hsecond : n.step state₂ action with
          | none => exact .none
          | some next₂ =>
              rw [hsecond] at hstep
              cases hstep
      | some next₁ =>
          rw [hfirst] at hstep
          cases hsecond : n.step state₂ action with
          | none =>
              rw [hsecond] at hstep
              cases hstep
          | some next₂ =>
              rw [hsecond] at hstep
              cases hstep with
              | some hnext =>
                  exact ih hnext (hadmits.2 next₁ next₂ hfirst hsecond)

/-- A guard evaluated along two concrete runs. -/
def checksBoth (m : Machine State₁ Action) (n : Machine State₂ Action)
    (check : State₁ → State₂ → Action → Bool) :
    State₁ → State₂ → List Action → Bool
  | _, _, [] => true
  | state₁, state₂, action :: rest =>
      check state₁ state₂ action &&
        match m.step state₁ action, n.step state₂ action with
        | some next₁, some next₂ => checksBoth m n check next₁ next₂ rest
        | _, _ => true

theorem admitsBoth_of_checksBoth {check : State₁ → State₂ → Action → Bool}
    (hcheck : ∀ state₁ state₂ action, check state₁ state₂ action = true →
      ok state₁ state₂ action)
    (hchecks : m.checksBoth n check state₁ state₂ word = true) :
    m.AdmitsBoth n ok state₁ state₂ word := by
  induction word generalizing state₁ state₂ with
  | nil => trivial
  | cons action rest ih =>
      simp only [checksBoth, Bool.and_eq_true] at hchecks
      constructor
      · exact hcheck state₁ state₂ action hchecks.1
      · intro next₁ next₂ hnext₁ hnext₂
        rw [hnext₁, hnext₂] at hchecks
        exact ih hchecks.2

end Machine

theorem Option.Rel.imp {α : Type u} {β : Type v} {R S : α → β → Prop}
    {a : Option α} {b : Option β} (himp : ∀ x y, R x y → S x y)
    (hrel : Option.Rel R a b) : Option.Rel S a b := by
  cases hrel with
  | none => exact .none
  | some hR => exact .some (himp _ _ hR)

theorem Option.rel_of_map_eq {α : Type u} {β : Type v} {f : α → β} {a b : Option α}
    (hmap : a.map f = b.map f) : Option.Rel (fun x y => f x = f y) a b := by
  cases a with
  | none =>
      cases b with
      | none => exact .none
      | some y => simp at hmap
  | some x =>
      cases b with
      | none => simp at hmap
      | some y => exact .some (Option.some.inj hmap)
