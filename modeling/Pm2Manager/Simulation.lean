import Pm2Manager.Machine

/-!
# Machines within machines

A machine which contains another one takes each of its steps as a run of the
inner machine, possibly an empty one.  Invariants of the inner machine, and
guards on its runs, then hold of the outer machine.
-/

universe u v

namespace Machine

variable {State Inner : Type u} {Action Move : Type v}
variable {m : Machine State Action} {n : Machine Inner Move}
variable {inside : State → Inner} {moves : State → Action → List Move}
variable {ok : State → Action → Prop} {allowed : Inner → Move → Prop}
variable {inv : Inner → Prop}

/-- A step of `m` is, within `inside`, the run of its moves. -/
def Contains (m : Machine State Action) (n : Machine Inner Move)
    (inside : State → Inner) (moves : State → Action → List Move) : Prop :=
  ∀ state action next, m.step state action = some next →
    n.exec (inside state) (moves state action) = some (inside next)

theorem Contains.preserves_guarded (hcontains : m.Contains n inside moves)
    (hallowed : ∀ state action, ok state action →
      n.Admits allowed (inside state) (moves state action))
    (hinv : n.Preserves allowed inv) : m.Preserves ok fun state => inv (inside state) := by
  intro state action next hstate hok hstep
  exact hinv.exec hstate (hallowed state action hok) (hcontains state action next hstep)

theorem Contains.preserves (hcontains : m.Contains n inside moves)
    (hinv : n.Preserves anyAction inv) :
    m.Preserves anyAction fun state => inv (inside state) :=
  hcontains.preserves_guarded
    (fun state action _ => admits_anyAction (inside state) (moves state action)) hinv

end Machine
