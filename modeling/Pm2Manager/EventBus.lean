import Mathlib.Data.Finset.Card
import Pm2Manager.Pm2Transitions

/-!
# Duplicate event buses

The `close` and `error` handlers of every bus write the same field.  An error
drops a bus which is still open, and so does a late event of another bus; the
next operation then attaches a second one.
-/

namespace Pm2Manager

open Function

variable {state next last : Pm2State} {action : Pm2Action}
variable {word : List Pm2Action}

namespace Pm2State

/-- The bus has not closed and delivers packets to its handlers. -/
def Live (state : Pm2State) (id : BusId) : Prop :=
  ∃ bus, state.buses id = some bus ∧ bus.live = true

/-- At most one bus forwards packets, and none has been forwarded twice. -/
structure ForwardsOnce (state : Pm2State) : Prop where
  sole : state.liveBuses.length ≤ 1
  once : (state.emitted.map Prod.fst).Nodup

def Numbered (state : Pm2State) : Prop :=
  ∀ entry ∈ state.emitted, entry.1 < state.published

end Pm2State

/-- When `launchBus` hands out a bus, every bus which was dropped before has
closed. -/
def DroppedClosed (state : Pm2State) (action : Pm2Action) : Prop :=
  ∀ launch hasClose, action = .launchCallback launch (.ok hasClose) →
    ∀ id, state.Live id → state.bus = some id

/-! ## Live buses -/

theorem mem_liveBuses (hinv : state.BusInvariant) {id : BusId} :
    id ∈ state.liveBuses ↔ state.Live id := by
  simp only [Pm2State.liveBuses, List.mem_filter, List.mem_range,
    Option.any_eq_true, Pm2State.Live]
  refine ⟨fun hmem => hmem.2, fun hlive => ⟨?_, hlive⟩⟩
  obtain ⟨bus, hbus, _⟩ := hlive
  exact hinv.bound_of_some (hinv.handedOut id bus hbus)

theorem liveBuses_le_one_iff (hinv : state.BusInvariant) :
    state.liveBuses.length ≤ 1 ↔
      ∀ id other, state.Live id → state.Live other → id = other := by
  have hnodup : state.liveBuses.Nodup := List.nodup_range.filter _
  rw [← List.toFinset_card_of_nodup hnodup, Finset.card_le_one]
  simp only [List.mem_toFinset, mem_liveBuses hinv]
  exact ⟨fun hall id other hid hother => hall id hid other hother,
    fun hall id hid other hother => hall id other hid hother⟩

theorem live_setBus {id other : BusId} {bus : Pm2Bus} :
    (state.setBus id bus).Live other ↔
      if other = id then bus.live = true else state.Live other := by
  unfold Pm2State.Live Pm2State.setBus
  by_cases heq : other = id
  · simp [heq]
  · simp [heq]

theorem live_step (hstep : pm2Machine.step state action = some next)
    {id : BusId} (hlive : next.Live id) :
    state.Live id ∨ ∃ hasClose, action = .launchCallback id (.ok hasClose) := by
  have hmoves : ∀ reached, Pm2Moves state reached → reached.Live id →
      state.Live id := by
    intro reached hmoves hreached
    simpa only [Pm2State.Live, (moves_same hmoves).buses] using hreached
  cases pm2Step_cases hstep with
  | called operation => exact .inl (hmoves _ (state.startCall_moves _) hlive)
  | resumed other call _ hcall hresume =>
      exact .inl (hmoves _ (Pm2State.resume_moves hresume) hlive)
  | disconnected throws =>
      left
      change (state.closeBus throws).Live id at hlive
      rcases closeBus_cases state throws with
        ⟨hsame, _⟩ | ⟨other, bus, _, hbus, _, hclosed⟩
      · rwa [hsame] at hlive
      · rw [hclosed] at hlive
        change (state.setBus other _).Live id at hlive
        rw [live_setBus] at hlive
        split at hlive
        next heq =>
          simp only [Bool.and_eq_true] at hlive
          exact ⟨bus, heq ▸ hbus, hlive.1⟩
        · exact hlive
  | timedOut _ _ _ _ => exact .inl hlive
  | calledBackLate _ _ _ _ => exact .inl hlive
  | refused _ _ _ _ => exact .inl hlive
  | connected _ _ => exact .inl hlive
  | launchFailed _ _ _ _ => exact .inl hlive
  | launched launch hasClose hlaunch =>
      change ((state.settleLaunch launch (.ok ())).setBus launch _).Live id
        at hlive
      rw [live_setBus] at hlive
      split at hlive
      next heq =>
        exact .inr ⟨hasClose, heq ▸ rfl⟩
      · exact .inl hlive
  | answered _ _ _ _ => exact .inl hlive
  | busErrored _ _ _ _ => exact .inl hlive
  | busClosed other bus hbus _ =>
      left
      change (state.setBus other _).Live id at hlive
      rw [live_setBus] at hlive
      split at hlive
      · simp at hlive
      · exact hlive
  | published _ _ => exact .inl hlive

theorem launched_live (hinv : state.BusInvariant) {launch : LaunchId}
    {hasClose : Bool} (hstep : pm2Machine.step state
      (.launchCallback launch (.ok hasClose)) = some next) :
    state.bus = none ∧ next.Live launch ∧ ¬ state.Live launch ∧
      ∀ id, state.Live id → next.Live id := by
  cases pm2Step_cases hstep with
  | launched _ _ hlaunch =>
      have hnew : ¬ state.Live launch := by
        rintro ⟨bus, hbus, _⟩
        simp [hinv.handedOut launch bus hbus] at hlaunch
      refine ⟨(hinv.bus_of_pending hlaunch).2, ?_, hnew, fun id hlive => ?_⟩
      · exact live_setBus.mpr (by simp)
      · have hne : id ≠ launch := fun heq => hnew (heq ▸ hlive)
        exact live_setBus.mpr ((if_neg hne).symm ▸ hlive)

/-! ## Forwarded packets -/

theorem emitted_step (hstep : pm2Machine.step state action = some next) :
    next.emitted = state.emitted ∧ next.published = state.published ∨
      ∃ event, next.published = state.published + 1 ∧
        next.emitted = state.emitted ++
          List.replicate state.liveBuses.length (state.published, event) := by
  have hmoves : ∀ reached, Pm2Moves state reached →
      reached.emitted = state.emitted ∧
        reached.published = state.published := fun reached hmoves =>
    ⟨(moves_same hmoves).emitted, (moves_same hmoves).published⟩
  cases pm2Step_cases hstep with
  | called operation => exact .inl (hmoves _ (state.startCall_moves _))
  | resumed _ call _ hcall hresume =>
      exact .inl (hmoves _ (Pm2State.resume_moves hresume))
  | disconnected throws =>
      left
      unfold Pm2State.disconnect
      rcases closeBus_cases state throws with
        ⟨hsame, _⟩ | ⟨_, _, _, _, _, hclosed⟩
      · rw [hsame]
        exact ⟨rfl, rfl⟩
      · rw [hclosed]
        exact ⟨rfl, rfl⟩
  | timedOut _ _ _ _ => exact .inl ⟨rfl, rfl⟩
  | calledBackLate _ _ _ _ => exact .inl ⟨rfl, rfl⟩
  | refused _ _ _ _ => exact .inl ⟨rfl, rfl⟩
  | connected _ _ => exact .inl ⟨rfl, rfl⟩
  | launchFailed _ _ _ _ => exact .inl ⟨rfl, rfl⟩
  | launched _ _ _ => exact .inl ⟨rfl, rfl⟩
  | answered _ _ _ _ => exact .inl ⟨rfl, rfl⟩
  | busErrored _ _ _ _ => exact .inl ⟨rfl, rfl⟩
  | busClosed _ _ _ _ => exact .inl ⟨rfl, rfl⟩
  | published packet now =>
      exact .inr ⟨packet.reemit now, rfl, by simp [List.map_const']⟩

theorem numbered_step (hnumbered : state.Numbered)
    (hstep : pm2Machine.step state action = some next) : next.Numbered := by
  intro entry hentry
  rcases emitted_step hstep with
    ⟨hemitted, hpublished⟩ | ⟨event, hpublished, hemitted⟩
  · rw [hemitted] at hentry
    rw [hpublished]
    exact hnumbered entry hentry
  · rw [hemitted, List.mem_append] at hentry
    rw [hpublished]
    rcases hentry with hold | hnew
    · exact Nat.lt_succ_of_lt (hnumbered entry hold)
    · rw [List.eq_of_mem_replicate hnew]
      exact Nat.lt_succ_self _

theorem busNumbered_step : pm2Machine.Preserves Machine.anyAction
    (fun state => state.BusInvariant ∧ state.Numbered) :=
  busInvariant_step.and fun _ _ _ _ hnumbered _ hstep =>
    numbered_step hnumbered hstep

theorem once_step (hnumbered : state.Numbered) (hforwards : state.ForwardsOnce)
    (hstep : pm2Machine.step state action = some next) :
    (next.emitted.map Prod.fst).Nodup := by
  rcases emitted_step hstep with ⟨hemitted, _⟩ | ⟨event, _, hemitted⟩
  · rw [hemitted]
    exact hforwards.once
  · rw [hemitted, List.map_append, List.map_replicate]
    apply hforwards.once.append (List.nodup_replicate.mpr hforwards.sole)
    intro number hold hnew
    obtain ⟨entry, hentry, rfl⟩ := List.mem_map.mp hold
    have hlt := hnumbered entry hentry
    rw [List.eq_of_mem_replicate hnew] at hlt
    exact Nat.lt_irrefl _ hlt

theorem forwardsOnce_step (hinv : state.BusInvariant ∧ state.Numbered)
    (hforwards : state.ForwardsOnce) (hguard : DroppedClosed state action)
    (hstep : pm2Machine.step state action = some next) : next.ForwardsOnce := by
  constructor
  · have hnext := busInvariant_step state action next hinv.1 trivial hstep
    have hsole := (liveBuses_le_one_iff hinv.1).mp hforwards.sole
    -- a bus which is handed out is the only live one
    have hlaunched : ∀ launch hasClose,
        action = .launchCallback launch (.ok hasClose) →
        ∀ id, ¬ state.Live id := by
      intro launch hasClose haction id hlive
      have hheld := hguard launch hasClose haction id hlive
      subst haction
      simp [(launched_live hinv.1 hstep).1] at hheld
    rw [liveBuses_le_one_iff hnext]
    intro id other hid hother
    rcases live_step hstep hid with hidOld | ⟨hasClose, haction⟩
    · rcases live_step hstep hother with hotherOld | ⟨hasClose, haction⟩
      · exact hsole id other hidOld hotherOld
      · exact absurd hidOld (hlaunched other hasClose haction id)
    · rcases live_step hstep hother with hotherOld | ⟨hasClose', haction'⟩
      · exact absurd hotherOld (hlaunched id hasClose haction other)
      · rw [haction] at haction'
        injection haction'
  · exact once_step hinv.2 hforwards hstep

theorem not_forwardsOnce_step (hinv : state.BusInvariant)
    (hguard : ¬ DroppedClosed state action)
    (hstep : pm2Machine.step state action = some next) :
    ¬ next.ForwardsOnce := by
  intro hforwards
  have hnext := busInvariant_step state action next hinv trivial hstep
  simp only [DroppedClosed, not_forall] at hguard
  obtain ⟨launch, hasClose, rfl, id, hlive, _⟩ := hguard
  obtain ⟨_, hnew, hfresh, hkeep⟩ := launched_live hinv hstep
  have hsame := (liveBuses_le_one_iff hnext).mp hforwards.sole id launch
    (hkeep id hlive) hnew
  exact hfresh (hsame ▸ hlive)

/-- The runs in which no two buses forward packets at a time, and no packet is
forwarded twice, are the ones in which every bus that was dropped has closed
before `launchBus` hands out another. -/
theorem forwardsOnce_iff
    (hexec : pm2Machine.exec .initial word = some last) :
    pm2Machine.Along Pm2State.ForwardsOnce .initial word ↔
      pm2Machine.Admits DroppedClosed .initial word := by
  refine Machine.along_iff_admits busNumbered_step ?_ ?_
    ⟨busInvariant_initial, ?_⟩ ?_ (Machine.admits_anyAction _ _) hexec
  · intro state action next hinv hforwards _ hguard hstep
    exact forwardsOnce_step hinv hforwards hguard hstep
  · intro state action next hinv _ _ hguard hstep
    exact not_forwardsOnce_step hinv.1 hguard hstep
  · intro entry hentry
    simp [Pm2State.initial] at hentry
  · exact ⟨by simp [Pm2State.initial, Pm2State.liveBuses],
      by simp [Pm2State.initial]⟩

/-- The first bus emits an error, and the next operation attaches another. -/
def sampleBusError : List Pm2Action :=
  [.call .connect, .connectCallback 0 none, .resume 0, .call .initBus,
    .launchCallback 0 (.ok true), .resume 1, .busError 0, .call .list,
    .launchCallback 1 (.ok true), .publish (.process (some "exit") none) 0]

theorem sampleBusError_exec :
    ∃ last, pm2Machine.exec .initial sampleBusError = some last ∧
      last.liveBuses = [0, 1] ∧ last.emitted.map Prod.fst = [0, 0] := by
  obtain ⟨last, hexec, htest⟩ := Machine.exists_of_exec_map pm2Machine
    .initial sampleBusError
    (fun last => decide (last.liveBuses = [0, 1]) &&
      decide (last.emitted.map Prod.fst = [0, 0])) (by decide +kernel)
  simp only [Bool.and_eq_true, decide_eq_true_eq] at htest
  exact ⟨last, hexec, htest⟩

theorem forwardsOnce_iff_sampleBusError :
    pm2Machine.Along Pm2State.ForwardsOnce .initial sampleBusError ↔
      pm2Machine.Admits DroppedClosed .initial sampleBusError := by
  obtain ⟨last, hexec, _⟩ := sampleBusError_exec
  exact forwardsOnce_iff hexec

/-- Two open buses forward the one packet, and its event is emitted twice. -/
theorem packet_forwarded_twice :
    ∃ last, pm2Machine.exec .initial sampleBusError = some last ∧
      ¬ last.liveBuses.length ≤ 1 ∧ ¬ (last.emitted.map Prod.fst).Nodup := by
  obtain ⟨last, hexec, hlive, hemitted⟩ := sampleBusError_exec
  exact ⟨last, hexec, by simp [hlive], by simp [hemitted]⟩

end Pm2Manager
