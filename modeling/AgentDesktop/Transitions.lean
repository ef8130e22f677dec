import Mathlib.Logic.Basic

namespace AgentDesktop

section

variable {State Action : Type} (step : State → Action → Option State) (allowed : State → Action → Bool)

/-- Takes the actions one after another, as long as each is allowed and possible
where it is taken. -/
def execute : List Action → State → Option State
  | [], state => some state
  | action :: rest, state => if allowed state action then (step state action).bind (execute rest) else none

end

section

variable {State Action : Type} {step : State → Action → Option State} {allowed : State → Action → Bool}

theorem execute_cons {action : Action} {rest : List Action} {state final : State}
    (h : execute step allowed (action :: rest) state = some final) :
    ∃ next, allowed state action = true ∧ step state action = some next ∧
      execute step allowed rest next = some final := by
  rw [execute] at h
  split at h
  next hallowed =>
    obtain ⟨next, hnext, hrest⟩ := Option.bind_eq_some_iff.mp h
    exact ⟨next, hallowed, hnext, hrest⟩
  next => cases h

/-- What every allowed step of a run preserves holds at its end. -/
theorem execute_invariant_of_mem {Inv : State → Prop} {actions : List Action} {state final : State}
    (keeps : ∀ state, ∀ action ∈ actions, ∀ next, Inv state → allowed state action = true →
      step state action = some next → Inv next)
    (start : Inv state) (h : execute step allowed actions state = some final) : Inv final := by
  induction actions generalizing state with
  | nil => cases h; exact start
  | cons action rest ih =>
    obtain ⟨next, hallowed, hnext, hrest⟩ := execute_cons h
    have hfirst := keeps state action List.mem_cons_self next start hallowed hnext
    exact ih (fun state action hmem => keeps state action (List.mem_cons_of_mem _ hmem)) hfirst hrest

/-- What every allowed step preserves holds after every run of allowed steps. -/
theorem execute_invariant {Inv : State → Prop}
    (keeps : ∀ state action next, Inv state → allowed state action = true → step state action = some next → Inv next)
    {actions : List Action} {state final : State} (start : Inv state)
    (h : execute step allowed actions state = some final) : Inv final :=
  execute_invariant_of_mem (fun state action _ => keeps state action) start h

/-- Guards that agree wherever a run gets allow the same runs. -/
theorem execute_congr {Inv : State → Prop} {other : State → Action → Bool} {actions : List Action} {state : State}
    (keeps : ∀ state action next, Inv state → step state action = some next → Inv next)
    (agree : ∀ state action, Inv state → allowed state action = other state action) (start : Inv state) :
    execute step allowed actions state = execute step other actions state := by
  induction actions generalizing state with
  | nil => rfl
  | cons action rest ih =>
    rw [execute, execute, agree state action start]
    cases hnext : step state action with
    | none => rfl
    | some next =>
      have hrest := ih (keeps state action next start hnext)
      simp only [Option.bind_some, hrest]

/-- The visible steps of a run can be taken on their own, if each can be taken beside it
and a hidden one leaves what is beside it. -/
theorem execute_visible (Rel : State → State → Prop) {other : State → Action → Bool} {visible : Action → Bool}
    {actions : List Action} {state beside final : State} (start : Rel state beside)
    (h : execute step allowed actions state = some final)
    (takes : ∀ state beside action next, Rel state beside → visible action = true → allowed state action = true →
      step state action = some next →
      ∃ taken, other beside action = true ∧ step beside action = some taken ∧ Rel next taken)
    (hides : ∀ state beside action next, Rel state beside → visible action = false → allowed state action = true →
      step state action = some next → Rel next beside) :
    ∃ last, execute step other (actions.filter visible) beside = some last ∧ Rel final last := by
  induction actions generalizing state beside with
  | nil =>
    cases h
    exact ⟨beside, rfl, start⟩
  | cons action rest ih =>
    obtain ⟨next, hallowed, hnext, hrest⟩ := execute_cons h
    cases hvisible : visible action with
    | false =>
      rw [List.filter_cons_of_neg (by simp [hvisible])]
      exact ih (hides state beside action next start hvisible hallowed hnext) hrest
    | true =>
      obtain ⟨taken, hother, htaken, hrel⟩ := takes state beside action next start hvisible hallowed hnext
      obtain ⟨last, hlast, hfinal⟩ := ih hrel hrest
      refine ⟨last, ?_, hfinal⟩
      rw [List.filter_cons_of_pos hvisible, execute, if_pos hother, htaken]
      exact hlast

/-- Every step of a run is good. -/
def EachStep (step : State → Action → Option State) (Good : State → Action → State → Prop) :
    List Action → State → Prop
  | [], _ => True
  | action :: rest, state =>
    ∀ next, step state action = some next → Good state action next ∧ EachStep step Good rest next

/-- A run of good steps keeps to a guard, if every good step does as long as an invariant holds. -/
theorem EachStep.keepsTo {Inv : State → Prop} {Good : State → Action → State → Prop} {guard : State → Action → Bool}
    {actions : List Action} {state final : State} (h : EachStep step Good actions state)
    (keeps : ∀ state action next, Inv state → Good state action next → step state action = some next →
      guard state action = true ∧ Inv next)
    (start : Inv state) (hrun : execute step allowed actions state = some final) :
    execute step guard actions state = some final ∧ Inv final := by
  induction actions generalizing state with
  | nil =>
    cases hrun
    exact ⟨rfl, start⟩
  | cons action rest ih =>
    obtain ⟨next, _, hnext, hrest⟩ := execute_cons hrun
    obtain ⟨hgood, hlater⟩ := h next hnext
    obtain ⟨hguard, hinv⟩ := keeps state action next start hgood hnext
    rw [execute, if_pos hguard, hnext]
    exact ih hlater hinv hrest

/-- The steps of a run are good just if it kept to the guard, when the guard tells the good steps. -/
theorem eachStep_iff_guarded {Inv : State → Prop} {Good : State → Action → State → Prop}
    {guard : State → Action → Bool} {actions : List Action} {state final : State}
    (keeps : ∀ state, ∀ action ∈ actions, ∀ next, Inv state → allowed state action = true →
      guard state action = true → step state action = some next → Inv next)
    (good : ∀ state action next, Inv state → allowed state action = true → step state action = some next →
      (Good state action next ↔ guard state action = true))
    (start : Inv state) (h : execute step allowed actions state = some final) :
    EachStep step Good actions state ↔
      execute step (fun state action => allowed state action && guard state action) actions state = some final := by
  induction actions generalizing state with
  | nil => exact iff_of_true trivial h
  | cons action rest ih =>
    obtain ⟨next, hallowed, hnext, hrest⟩ := execute_cons h
    have hgood := good state action next start hallowed hnext
    rw [execute, hallowed, Bool.true_and, hnext]
    cases hguard : guard state action with
    | false =>
      refine iff_of_false (fun hall => ?_) (by simp)
      rw [hgood.mp (hall next hnext).1] at hguard
      cases hguard
    | true =>
      have hinv := keeps state action List.mem_cons_self next start hallowed hguard hnext
      have hlater := ih (fun state action hmem => keeps state action (List.mem_cons_of_mem _ hmem)) hinv hrest
      rw [if_pos rfl, Option.bind_some, ← hlater]
      refine ⟨fun hall => (hall next hnext).2, fun hall other hother => ?_⟩
      cases hnext.symm.trans hother
      exact ⟨hgood.mpr hguard, hall⟩

/-- A goal is reached by steps of some kind, if wherever it is not one of them brings it nearer. -/
theorem execute_reaches {Inv Goal : State → Prop} {Kind : Action → Prop} (cost : State → Nat)
    (moves : ∀ state, Inv state → ¬ Goal state → ∃ action next, Kind action ∧ allowed state action = true ∧
      step state action = some next ∧ Inv next ∧ cost next < cost state)
    {state : State} (start : Inv state) :
    ∃ actions final, (∀ action ∈ actions, Kind action) ∧ execute step allowed actions state = some final ∧
      Inv final ∧ Goal final := by
  induction hcost : cost state using Nat.strongRecOn generalizing state with
  | ind bound ih =>
    by_cases hgoal : Goal state
    · exact ⟨[], state, fun _ hnone => (by cases hnone), rfl, start, hgoal⟩
    · obtain ⟨action, next, hkind, hallowed, hnext, hinv, hless⟩ := moves state start hgoal
      obtain ⟨actions, final, hkinds, hrun, hfinal⟩ := ih (cost next) (hcost ▸ hless) hinv rfl
      refine ⟨action :: actions, final, List.forall_mem_cons.mpr ⟨hkind, hkinds⟩, ?_, hfinal⟩
      rw [execute, if_pos hallowed, hnext]
      exact hrun

end

section

variable {State Change : Type} {change : State → Change → State} {P : State → Prop} {state : State}

/-- A property holds wherever a list of changes is stopped. -/
def Throughout (change : State → Change → State) (P : State → Prop) (state : State) (changes : List Change) : Prop :=
  ∀ count, P ((changes.take count).foldl change state)

theorem Throughout.nil (h : P state) : Throughout change P state [] := by
  intro count
  rw [List.take_nil]
  exact h

theorem Throughout.cons {first : Change} {rest : List Change} (h : P state)
    (hrest : Throughout change P (change state first) rest) : Throughout change P state (first :: rest) := by
  intro count
  cases count with
  | zero => exact h
  | succ count => exact hrest count

theorem Throughout.append {first second : List Change} (h : Throughout change P state first)
    (hsecond : Throughout change P (first.foldl change state) second) :
    Throughout change P state (first ++ second) := by
  induction first generalizing state with
  | nil => exact hsecond
  | cons next rest ih =>
    have hrest : Throughout change P (change state next) rest := fun count => h (count + 1)
    exact Throughout.cons (h 0) (ih hrest hsecond)

/-- What every change preserves holds wherever they are stopped. -/
theorem throughout_of_step {changes : List Change} (h : P state)
    (keeps : ∀ state, ∀ next ∈ changes, P state → P (change state next)) : Throughout change P state changes := by
  induction changes generalizing state with
  | nil => exact Throughout.nil h
  | cons next rest ih =>
    have hrest := ih (keeps state next List.mem_cons_self h) fun state other hother =>
      keeps state other (List.mem_cons_of_mem _ hother)
    exact Throughout.cons h hrest

theorem throughout_of_length_le {changes : List Change} (hlength : changes.length ≤ 1) (h : P state)
    (hall : P (changes.foldl change state)) : Throughout change P state changes := by
  intro count
  cases count with
  | zero => exact h
  | succ count =>
    rw [List.take_of_length_le (by omega)]
    exact hall

theorem Throughout.imp {Q : State → Prop} {changes : List Change} (h : Throughout change P state changes)
    (himp : ∀ state, P state → Q state) : Throughout change Q state changes :=
  fun count => himp _ (h count)

theorem Throughout.full {changes : List Change} (h : Throughout change P state changes) :
    P (changes.foldl change state) := by
  have hall := h changes.length
  rw [List.take_length] at hall
  exact hall

/-- A run is good wherever it is stopped just if it kept to the guard, when a step against the
guard leads to where it is not. -/
theorem throughout_iff_guarded {Inv Good : State → Prop} {allowed guard : State → Change → Bool} {changes : List Change}
    {final : State} (keeps : ∀ state next, Inv state → allowed state next = true → guard state next = true →
      Inv (change state next))
    (breaks : ∀ state next, Inv state → allowed state next = true → guard state next = false →
      ¬ Good (change state next))
    (good : ∀ state, Inv state → Good state) (start : Inv state)
    (h : execute (fun state next => some (change state next)) allowed changes state = some final) :
    Throughout change Good state changes ↔
      execute (fun state next => some (change state next)) (fun state next => allowed state next && guard state next)
        changes state = some final := by
  induction changes generalizing state with
  | nil => exact iff_of_true (Throughout.nil (good state start)) h
  | cons next rest ih =>
    obtain ⟨after, hallowed, hafter, hrest⟩ := execute_cons h
    cases hafter
    rw [execute]
    cases hguard : guard state next with
    | true =>
      have hnext := ih (keeps state next start hallowed hguard) hrest
      rw [hallowed, Bool.and_true, if_pos rfl, Option.bind_some, ← hnext]
      exact ⟨fun hall count => hall (count + 1), Throughout.cons (good state start)⟩
    | false =>
      rw [Bool.and_false, if_neg (by simp)]
      refine iff_of_false (fun hall => breaks state next start hallowed hguard (hall 1)) (by simp)

end

end AgentDesktop
