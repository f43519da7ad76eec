import Mathlib.Logic.Function.Basic
import Mathlib.Data.List.Basic

/-!
# Machines, runs and guarded runs

A machine is a partial step function.  All nondeterminism (the scheduler, the
environment, the random draws) is in the actions, so a run is a word of
actions and can be replayed by evaluation.  A guard restricts the actions
taken by a run to those which meet a condition in the state before them; the
rules below turn one-step facts into facts about every run and about every
guarded run.
-/

universe u v

/-- In a state, an action is impossible or leads to one next state. -/
structure Machine (State : Type u) (Action : Type v) where
  step : State → Action → Option State

namespace Machine

variable {State : Type u} {Action : Type v} (m : Machine State Action)

/-- The state a word of actions leads to, provided each action is possible. -/
def exec : State → List Action → Option State
  | state, [] => some state
  | state, action :: rest =>
      match m.step state action with
      | none => none
      | some next => exec next rest

/-- Every action of the word meets `ok` in the state in which it is taken. -/
def Admits (ok : State → Action → Prop) : State → List Action → Prop
  | _, [] => True
  | state, action :: rest =>
      ok state action ∧
        ∀ next, m.step state action = some next → Admits ok next rest

/-- `inv` survives every step whose action meets `ok`. -/
def Preserves (ok : State → Action → Prop) (inv : State → Prop) : Prop :=
  ∀ state action next, inv state → ok state action →
    m.step state action = some next → inv next

def anyAction : State → Action → Prop := fun _ _ => True

/-- `P` holds in every state the run visits, both ends included. -/
def Along (P : State → Prop) (state : State) (word : List Action) : Prop :=
  ∀ before after mid, word = before ++ after →
    m.exec state before = some mid → P mid

/-- `Q` holds of every step the run takes. -/
def Steps (Q : State → Action → State → Prop) (state : State)
    (word : List Action) : Prop :=
  ∀ before action after mid next, word = before ++ action :: after →
    m.exec state before = some mid → m.step mid action = some next →
    Q mid action next

variable {m}
variable {ok : State → Action → Prop} {inv P : State → Prop}
variable {Q : State → Action → State → Prop}
variable {state mid last next : State} {action : Action}
variable {word before after : List Action}

@[simp] theorem exec_nil : m.exec state [] = some state := rfl

theorem exec_cons_some (hstep : m.step state action = some next) :
    m.exec state (action :: after) = m.exec next after := by
  simp [exec, hstep]

theorem exec_cons_inv (hexec : m.exec state (action :: after) = some last) :
    ∃ next, m.step state action = some next ∧
      m.exec next after = some last := by
  cases hstep : m.step state action with
  | none => simp [exec, hstep] at hexec
  | some next => exact ⟨next, rfl, by simpa [exec, hstep] using hexec⟩

theorem exec_append (hbefore : m.exec state before = some mid)
    (hafter : m.exec mid after = some last) :
    m.exec state (before ++ after) = some last := by
  induction before generalizing state with
  | nil =>
      simp only [exec_nil, Option.some.injEq] at hbefore
      exact hbefore ▸ hafter
  | cons action rest ih =>
      obtain ⟨next, hstep, hrest⟩ := exec_cons_inv hbefore
      rw [List.cons_append, exec_cons_some hstep]
      exact ih hrest

/-- A run goes on from each state it visits. -/
theorem exec_suffix (hbefore : m.exec state before = some mid)
    (hexec : m.exec state (before ++ after) = some last) :
    m.exec mid after = some last := by
  induction before generalizing state with
  | nil =>
      simp only [exec_nil, Option.some.injEq] at hbefore
      exact hbefore ▸ hexec
  | cons action rest ih =>
      obtain ⟨next, hstep, hrest⟩ := exec_cons_inv hexec
      rw [exec_cons_some hstep] at hbefore
      exact ih hbefore hrest

theorem admits_anyAction (state : State) (word : List Action) :
    m.Admits anyAction state word := by
  induction word generalizing state with
  | nil => trivial
  | cons action rest ih => exact ⟨trivial, fun next _ => ih next⟩

/-- A guard on the actions alone is met by the words which keep to it. -/
theorem admits_of_forall {allowed : Action → Prop}
    (hword : ∀ action ∈ word, allowed action) : m.Admits (fun _ => allowed) state word := by
  induction word generalizing state with
  | nil => trivial
  | cons action rest ih =>
      exact ⟨hword action List.mem_cons_self, fun next _ =>
        ih fun later hlater => hword later (List.mem_cons_of_mem action hlater)⟩

theorem Admits.split (hadmits : m.Admits ok state (before ++ after))
    (hbefore : m.exec state before = some mid) :
    m.Admits ok state before ∧ m.Admits ok mid after := by
  induction before generalizing state with
  | nil =>
      simp only [exec_nil, Option.some.injEq] at hbefore
      subst mid
      exact ⟨trivial, hadmits⟩
  | cons action rest ih =>
      obtain ⟨next, hstep, hrest⟩ := exec_cons_inv hbefore
      refine ⟨⟨hadmits.1, fun other hother => ?_⟩,
        (ih (hadmits.2 next hstep) hrest).2⟩
      rw [hstep, Option.some.injEq] at hother
      subst other
      exact (ih (hadmits.2 next hstep) hrest).1

/-- The invariant rule for guarded runs. -/
theorem Preserves.exec (hpres : m.Preserves ok inv) (hstate : inv state)
    (hadmits : m.Admits ok state word) (hexec : m.exec state word = some last) :
    inv last := by
  induction word generalizing state with
  | nil =>
      simp only [exec_nil, Option.some.injEq] at hexec
      exact hexec ▸ hstate
  | cons action rest ih =>
      obtain ⟨next, hstep, hrest⟩ := exec_cons_inv hexec
      exact ih (hpres state action next hstate hadmits.1 hstep)
        (hadmits.2 next hstep) hrest

theorem Preserves.exec_any (hpres : m.Preserves anyAction inv)
    (hstate : inv state) (hexec : m.exec state word = some last) : inv last :=
  hpres.exec hstate (admits_anyAction state word) hexec

theorem Preserves.of_any (hpres : m.Preserves anyAction inv) : m.Preserves ok inv :=
  fun state action next hstate _ hstep => hpres state action next hstate trivial hstep

/-- An invariant of all runs may be assumed while another one is proved. -/
theorem Preserves.and (hinv : m.Preserves anyAction inv)
    (hstep : ∀ state action next, inv state → P state → ok state action →
      m.step state action = some next → P next) :
    m.Preserves ok (fun state => inv state ∧ P state) := by
  intro state action next hboth hok hnext
  exact ⟨hinv state action next hboth.1 trivial hnext,
    hstep state action next hboth.1 hboth.2 hok hnext⟩

/-- What does not hold at first and holds at last becomes true in a step. -/
theorem exec_first (hstate : ¬ P state) (hlast : P last)
    (hexec : m.exec state word = some last) :
    ∃ before action after mid next, word = before ++ action :: after ∧
      m.exec state before = some mid ∧ m.step mid action = some next ∧
      ¬ P mid ∧ P next := by
  induction word generalizing state with
  | nil =>
      simp only [exec_nil, Option.some.injEq] at hexec
      exact absurd (hexec ▸ hlast) hstate
  | cons action rest ih =>
      obtain ⟨next, hstep, hrest⟩ := exec_cons_inv hexec
      by_cases hnext : P next
      · exact ⟨[], action, rest, state, next, rfl, rfl, hstep, hstate, hnext⟩
      · obtain ⟨before, later, after, mid, reached, rfl, hmid, hlater, hnot, hP⟩ :=
          ih hnext hrest
        refine ⟨action :: before, later, after, mid, reached, rfl, ?_, hlater,
          hnot, hP⟩
        rw [exec_cons_some hstep]
        exact hmid

theorem Along.head (halong : m.Along P state word) : P state :=
  halong [] word state rfl rfl

theorem Along.tail (halong : m.Along P state (action :: after))
    (hstep : m.step state action = some next) : m.Along P next after := by
  intro first rest mid hsplit hexec
  apply halong (action :: first) rest mid (by simp [hsplit])
  rw [exec_cons_some hstep]
  exact hexec

theorem Preserves.along (hpres : m.Preserves ok inv) (hstate : inv state)
    (hadmits : m.Admits ok state word) : m.Along inv state word := by
  intro before after mid hsplit hexec
  subst hsplit
  exact hpres.exec hstate (hadmits.split hexec).1 hexec

/-- A guard is exact for `P` when every step outside it leaves `P`: among the
runs whose actions are allowed, those which stay in `P` are then the ones the
guard admits. -/
theorem along_iff_admits {allow : State → Action → Prop}
    (hinv : m.Preserves anyAction inv)
    (hgood : ∀ state action next, inv state → P state → allow state action →
      ok state action → m.step state action = some next → P next)
    (hbad : ∀ state action next, inv state → P state → allow state action →
      ¬ ok state action → m.step state action = some next → ¬ P next)
    (hstate : inv state) (hP : P state) (hallow : m.Admits allow state word)
    (hexec : m.exec state word = some last) :
    m.Along P state word ↔ m.Admits ok state word := by
  induction word generalizing state with
  | nil =>
      constructor
      · exact fun _ => trivial
      · intro _ before after mid hsplit hmid
        obtain ⟨rfl, _⟩ := List.append_eq_nil_iff.mp hsplit.symm
        simp only [exec_nil, Option.some.injEq] at hmid
        exact hmid ▸ hP
  | cons action rest ih =>
      obtain ⟨next, hstep, hrest⟩ := exec_cons_inv hexec
      have hinvNext := hinv state action next hstate trivial hstep
      constructor
      · intro halong
        have htail := halong.tail hstep
        have hok : ok state action := by
          by_contra hnot
          exact hbad state action next hstate hP hallow.1 hnot hstep htail.head
        constructor
        · exact hok
        · intro other hother
          rw [hstep, Option.some.injEq] at hother
          subst other
          exact (ih hinvNext htail.head (hallow.2 next hstep) hrest).mp htail
      · intro hadmits before after mid hsplit hmid
        have hPNext := hgood state action next hstate hP hallow.1 hadmits.1 hstep
        cases before with
        | nil =>
            simp only [exec_nil, Option.some.injEq] at hmid
            exact hmid ▸ hP
        | cons first before =>
            simp only [List.cons_append, List.cons.injEq] at hsplit
            obtain ⟨rfl, hsplit⟩ := hsplit
            rw [exec_cons_some hstep] at hmid
            exact (ih hinvNext hPNext (hallow.2 next hstep) hrest).mpr
              (hadmits.2 next hstep) before after mid hsplit hmid

theorem Steps.head (hsteps : m.Steps Q state (action :: after))
    (hstep : m.step state action = some next) : Q state action next :=
  hsteps [] action after state next rfl rfl hstep

theorem Steps.tail (hsteps : m.Steps Q state (action :: after))
    (hstep : m.step state action = some next) : m.Steps Q next after := by
  intro first later rest mid other hsplit hexec hlater
  apply hsteps (action :: first) later rest mid other (by simp [hsplit]) _ hlater
  rw [exec_cons_some hstep]
  exact hexec

theorem steps_of_admits (hinv : m.Preserves ok inv)
    (hgood : ∀ state action next, inv state → ok state action →
      m.step state action = some next → Q state action next)
    (hstate : inv state) (hadmits : m.Admits ok state word) :
    m.Steps Q state word := by
  intro before action after mid next hsplit hexec hstep
  subst hsplit
  obtain ⟨hbefore, hafter⟩ := hadmits.split hexec
  exact hgood mid action next (hinv.exec hstate hbefore hexec) hafter.1 hstep

/-- A guard is exact for `Q` when the steps within it are those of which `Q`
holds: the runs all of whose steps have `Q` are the ones the guard admits. -/
theorem steps_iff_admits (hinv : m.Preserves anyAction inv)
    (hexact : ∀ state action next, inv state → m.step state action = some next →
      (Q state action next ↔ ok state action))
    (hstate : inv state) (hexec : m.exec state word = some last) :
    m.Steps Q state word ↔ m.Admits ok state word := by
  constructor
  · intro hsteps
    induction word generalizing state with
    | nil => trivial
    | cons action rest ih =>
        obtain ⟨next, hstep, hrest⟩ := exec_cons_inv hexec
        have hnext := hinv state action next hstate trivial hstep
        refine ⟨(hexact state action next hstate hstep).mp (hsteps.head hstep), ?_⟩
        intro other hother
        rw [hstep, Option.some.injEq] at hother
        subst other
        exact ih hnext hrest (hsteps.tail hstep)
  · intro hadmits
    refine steps_of_admits hinv.of_any ?_ hstate hadmits
    intro state action next hstate hok hstep
    exact (hexact state action next hstate hstep).mpr hok

/-- A guard evaluated along a concrete run. -/
def checks (m : Machine State Action) (check : State → Action → Bool) :
    State → List Action → Bool
  | _, [] => true
  | state, action :: rest =>
      check state action &&
        match m.step state action with
        | none => true
        | some next => checks m check next rest

theorem admits_of_checks {check : State → Action → Bool}
    (hinv : m.Preserves anyAction inv)
    (hcheck : ∀ state action, inv state → check state action = true →
      ok state action)
    (hstate : inv state) (hchecks : m.checks check state word = true) :
    m.Admits ok state word := by
  induction word generalizing state with
  | nil => trivial
  | cons action rest ih =>
      simp only [checks, Bool.and_eq_true] at hchecks
      constructor
      · exact hcheck state action hstate hchecks.1
      · intro next hstep
        rw [hstep] at hchecks
        exact ih (hinv state action next hstate trivial hstep) hchecks.2

/-- A test evaluated at the end of a concrete run is a fact about a state the
run reaches. -/
theorem exists_of_exec_map (m : Machine State Action) (state : State)
    (word : List Action) (test : State → Bool)
    (hrun : (m.exec state word).map test = some true) :
    ∃ last, m.exec state word = some last ∧ test last = true := by
  cases hexec : m.exec state word with
  | none => simp [hexec] at hrun
  | some last => exact ⟨last, rfl, by simpa [hexec] using hrun⟩

end Machine
