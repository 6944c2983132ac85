import Mathlib.Data.List.Basic

/-! # Runs of machines that may refuse an event

A machine is a partial step function. This file gives its runs, the rule that
carries an invariant from one step to a whole run, and the rule that deletes
the invisible events of a run.
-/

namespace AssassinGame.Transition

variable {State : Type u} {Event : Type v}

/-- Perform the events in order. A refused event refuses the whole run. -/
def run (step : State → Event → Option State) : State → List Event → Option State
  | state, [] => some state
  | state, event :: events =>
      (step state event).bind fun next => run step next events

section Runs

variable {step : State → Event → Option State}

@[simp] theorem run_nil (state : State) : run step state [] = some state := rfl

theorem run_cons_eq_some {state final : State} {event : Event} {events : List Event} :
    run step state (event :: events) = some final ↔
      ∃ next, step state event = some next ∧ run step next events = some final := by
  simp [run, Option.bind_eq_some_iff]

theorem run_append (state : State) (first second : List Event) :
    run step state (first ++ second) =
      (run step state first).bind fun middle => run step middle second := by
  induction first generalizing state with
  | nil => rfl
  | cons event events induction => simp [run, induction, Option.bind_assoc]

theorem run_append_of {state middle final : State} {first second : List Event}
    (front : run step state first = some middle)
    (back : run step middle second = some final) :
    run step state (first ++ second) = some final := by
  rw [run_append, front]
  exact back

theorem run_ends {property : State → Prop} [DecidablePred property] {state : State}
    {events : List Event}
    (ends : (run step state events).any (fun final => property final) = true) :
    ∃ final, run step state events = some final ∧ property final := by
  rcases (Option.any_eq_true _ _).mp ends with ⟨final, performed, holds⟩
  exact ⟨final, performed, of_decide_eq_true holds⟩

/-- Every event of the run meets `condition` in the state it is performed in. -/
def Meets (step : State → Event → Option State) (condition : State → Event → Prop) :
    State → List Event → Prop
  | _, [] => True
  | state, event :: events =>
      condition state event ∧
        match step state event with
        | some next => Meets step condition next events
        | none => True

instance Meets.decidable (step : State → Event → Option State)
    (condition : State → Event → Prop) [∀ state event, Decidable (condition state event)] :
    ∀ state events, Decidable (Meets step condition state events)
  | _, [] => inferInstanceAs (Decidable True)
  | state, event :: events =>
      match found : step state event with
      | some next =>
          have := Meets.decidable step condition next events
          decidable_of_iff (condition state event ∧ Meets step condition next events)
            (by rw [Meets, found])
      | none => decidable_of_iff (condition state event) (by simp [Meets, found])

theorem Meets.head {condition : State → Event → Prop} {state : State} {event : Event}
    {events : List Event} (meets : Meets step condition state (event :: events)) :
    condition state event := meets.1

theorem Meets.tail {condition : State → Event → Prop} {state next : State} {event : Event}
    {events : List Event} (meets : Meets step condition state (event :: events))
    (stepped : step state event = some next) : Meets step condition next events := by
  have rest := meets.2
  rw [stepped] at rest
  exact rest

theorem Meets.and {left right : State → Event → Prop} {state : State} {events : List Event}
    (first : Meets step left state events) (second : Meets step right state events) :
    Meets step (fun state event => left state event ∧ right state event) state events := by
  induction events generalizing state with
  | nil => trivial
  | cons event events induction =>
      refine ⟨⟨first.head, second.head⟩, ?_⟩
      split
      · rename_i next stepped
        exact induction (first.tail stepped) (second.tail stepped)
      · trivial

theorem meets_cons {condition : State → Event → Prop} {state next : State} {event : Event}
    {events : List Event} (stepped : step state event = some next) :
    Meets step condition state (event :: events) ↔
      condition state event ∧ Meets step condition next events := by
  rw [Meets, stepped]

theorem Meets.append {condition : State → Event → Prop} {state middle : State}
    {first second : List Event} (meets : Meets step condition state (first ++ second))
    (performed : run step state first = some middle) :
    Meets step condition state first ∧ Meets step condition middle second := by
  induction first generalizing state with
  | nil => exact ⟨trivial, Option.some.inj performed ▸ meets⟩
  | cons event events induction =>
      rcases run_cons_eq_some.mp performed with ⟨next, stepped, rest⟩
      have both := induction (meets.tail stepped) rest
      refine ⟨⟨meets.head, ?_⟩, both.2⟩
      rw [stepped]
      exact both.1

theorem meets_true (state : State) (events : List Event) :
    Meets step (fun _ _ => True) state events := by
  induction events generalizing state with
  | nil => trivial
  | cons event events induction =>
      refine ⟨trivial, ?_⟩
      split
      · exact induction _
      · trivial

theorem meets_of_forall {permitted : Event → Prop} {events : List Event}
    (all : ∀ event ∈ events, permitted event) (state : State) :
    Meets step (fun _ event => permitted event) state events := by
  induction events generalizing state with
  | nil => trivial
  | cons event events induction =>
      rcases List.forall_mem_cons.mp all with ⟨first, rest⟩
      refine ⟨first, ?_⟩
      split
      · exact induction rest _
      · trivial

/-- The property holds in every state of the run, the first and the last
included. -/
def Throughout (step : State → Event → Option State) (property : State → Prop) :
    State → List Event → Prop
  | state, [] => property state
  | state, event :: events =>
      property state ∧
        match step state event with
        | some next => Throughout step property next events
        | none => True

theorem throughout_cons {property : State → Prop} {state next : State} {event : Event}
    {events : List Event} (stepped : step state event = some next) :
    Throughout step property state (event :: events) ↔
      property state ∧ Throughout step property next events := by
  rw [Throughout, stepped]

/-- The induction behind every safety result: what each permitted step keeps,
each permitted run keeps. -/
theorem run_invariant {condition : State → Event → Prop} (invariant : State → Prop)
    (preserved : ∀ state event next, invariant state → condition state event →
      step state event = some next → invariant next)
    {state final : State} {events : List Event} (holds : invariant state)
    (meets : Meets step condition state events)
    (performed : run step state events = some final) : invariant final := by
  induction events generalizing state with
  | nil => exact Option.some.inj performed ▸ holds
  | cons event events induction =>
      rcases run_cons_eq_some.mp performed with ⟨next, stepped, rest⟩
      exact induction (preserved state event next holds meets.head stepped)
        (meets.tail stepped) rest

theorem run_keeps (invariant : State → Prop)
    (preserved : ∀ {state event next}, invariant state → step state event = some next →
      invariant next)
    {state final : State} {events : List Event} (holds : invariant state)
    (performed : run step state events = some final) : invariant final :=
  run_invariant invariant (fun _ _ _ holds _ stepped => preserved holds stepped) holds
    (meets_true state events) performed

/-- What an invariant ensures at each permitted step, every step of a permitted run meets. -/
theorem Meets.ensures {permitted condition : State → Event → Prop} (invariant : State → Prop)
    (preserved : ∀ state event next, invariant state → permitted state event →
      step state event = some next → invariant next)
    (ensures : ∀ state event next, invariant state → permitted state event →
      step state event = some next → condition state event)
    {state final : State} {events : List Event}
    (meets : Meets step permitted state events) (holds : invariant state)
    (performed : run step state events = some final) : Meets step condition state events := by
  induction events generalizing state with
  | nil => trivial
  | cons event events induction =>
      rcases run_cons_eq_some.mp performed with ⟨next, stepped, rest⟩
      rw [meets_cons stepped]
      exact ⟨ensures state event next holds meets.head stepped,
        induction (meets.tail stepped) (preserved state event next holds meets.head stepped) rest⟩

theorem run_meets {condition : State → Event → Prop} (invariant : State → Prop)
    (preserved : ∀ state event next, invariant state → step state event = some next →
      invariant next)
    (ensures : ∀ state event next, invariant state → step state event = some next →
      condition state event)
    {state final : State} {events : List Event} (holds : invariant state)
    (performed : run step state events = some final) : Meets step condition state events :=
  Meets.ensures invariant (fun _ _ _ now _ => preserved _ _ _ now)
    (fun _ _ _ now _ => ensures _ _ _ now) (meets_true state events) holds performed

theorem run_relates (relation : State → State → Prop)
    (refl : ∀ state, relation state state)
    (trans : ∀ first second third,
      relation first second → relation second third → relation first third)
    (respected : ∀ state event next, step state event = some next → relation state next)
    {state final : State} {events : List Event}
    (performed : run step state events = some final) : relation state final :=
  run_keeps (relation state)
    (fun reached stepped => trans _ _ _ reached (respected _ _ _ stepped)) (refl state)
    performed

end Runs

/-! ## Deleting invisible events -/

/-- The two facts under which an observer who sees only the `visible` events
cannot tell a run from the run without the others. -/
structure Unwinding (step : State → Event → Option State) (visible : Event → Bool)
    (agree : State → State → Prop) : Prop where
  invisible : ∀ {left next right : State} {event : Event}, visible event = false →
    agree left right → step left event = some next → agree next right
  matched : ∀ {left next right : State} {event : Event}, visible event = true →
    agree left right → step left event = some next →
    ∃ other, step right event = some other ∧ agree next other

theorem Unwinding.purge {step : State → Event → Option State} {visible : Event → Bool}
    {agree : State → State → Prop} (unwinding : Unwinding step visible agree)
    {left final right : State} {events : List Event} (start : agree left right)
    (performed : run step left events = some final) :
    ∃ other, run step right (events.filter visible) = some other ∧ agree final other := by
  induction events generalizing left right with
  | nil => exact ⟨right, rfl, Option.some.inj performed ▸ start⟩
  | cons event events induction =>
      rcases run_cons_eq_some.mp performed with ⟨next, stepped, rest⟩
      cases seen : visible event with
      | false =>
          rw [List.filter_cons_of_neg (by simp [seen])]
          exact induction (unwinding.invisible seen start stepped) rest
      | true =>
          rw [List.filter_cons_of_pos seen]
          rcases unwinding.matched seen start stepped with ⟨other, followed, agreed⟩
          rcases induction agreed rest with ⟨last, finished, close⟩
          exact ⟨last, run_cons_eq_some.mpr ⟨other, followed, finished⟩, close⟩

/-! ## Runs seen as runs of another machine -/

/-- Each permitted step is seen as one step of a coarser machine, or is not seen at all. -/
structure Refinement (step : State → Event → Option State)
    (permitted : State → Event → Prop) {Coarse : Type w} {Access : Type x}
    (coarse : Coarse → Access → Option Coarse) (seen : Event → Option Access)
    (view : State → Coarse) (invariant : State → Prop) : Prop where
  kept : ∀ {state next : State} {event : Event}, invariant state → permitted state event →
    step state event = some next → invariant next
  hidden : ∀ {state next : State} {event : Event}, invariant state → permitted state event →
    step state event = some next → seen event = none → view next = view state
  matched : ∀ {state next : State} {event : Event} {access : Access}, invariant state →
    permitted state event → step state event = some next → seen event = some access →
    coarse (view state) access = some (view next)

theorem Refinement.run {step : State → Event → Option State}
    {permitted : State → Event → Prop} {Coarse : Type w} {Access : Type x}
    {coarse : Coarse → Access → Option Coarse} {seen : Event → Option Access}
    {view : State → Coarse} {invariant : State → Prop}
    (refinement : Refinement step permitted coarse seen view invariant)
    {state final : State} {events : List Event} (holds : invariant state)
    (meets : Meets step permitted state events)
    (performed : Transition.run step state events = some final) :
    Transition.run coarse (view state) (events.filterMap seen) = some (view final) := by
  induction events generalizing state with
  | nil => exact congrArg (some ∘ view) (Option.some.inj performed)
  | cons event events induction =>
      rcases run_cons_eq_some.mp performed with ⟨next, stepped, rest⟩
      have permits := meets.head
      have continued := induction (refinement.kept holds permits stepped) (meets.tail stepped)
        rest
      cases shown : seen event with
      | none =>
          rw [List.filterMap_cons_none shown,
            ← refinement.hidden holds permits stepped shown]
          exact continued
      | some access =>
          rw [List.filterMap_cons_some shown]
          exact run_cons_eq_some.mpr
            ⟨_, refinement.matched holds permits stepped shown, continued⟩

theorem Refinement.meets_iff {step : State → Event → Option State}
    {permitted condition : State → Event → Prop} {Coarse : Type w} {Access : Type x}
    {coarse : Coarse → Access → Option Coarse} {seen : Event → Option Access}
    {view : State → Coarse} {invariant : State → Prop} {visible : Coarse → Access → Prop}
    (refinement : Refinement step permitted coarse seen view invariant)
    (hidden : ∀ state event, seen event = none → condition state event)
    (shown : ∀ {state next event access}, invariant state → permitted state event →
      step state event = some next → seen event = some access →
      (condition state event ↔ visible (view state) access))
    {state final : State} {events : List Event} (holds : invariant state)
    (meets : Meets step permitted state events)
    (performed : Transition.run step state events = some final) :
    Meets step condition state events ↔
      Meets coarse visible (view state) (events.filterMap seen) := by
  induction events generalizing state with
  | nil => exact Iff.rfl
  | cons event events induction =>
      rcases run_cons_eq_some.mp performed with ⟨next, stepped, rest⟩
      have permits := meets.head
      have continued := induction (refinement.kept holds permits stepped) (meets.tail stepped)
        rest
      rw [meets_cons stepped, continued]
      cases sight : seen event with
      | none =>
          rw [List.filterMap_cons_none sight,
            refinement.hidden holds permits stepped sight]
          exact and_iff_right (hidden state event sight)
      | some access =>
          rw [List.filterMap_cons_some sight,
            meets_cons (refinement.matched holds permits stepped sight)]
          exact and_congr_left' (shown holds permits stepped sight)

/-- Where each permitted step follows an allowed step of a coarser machine or changes nothing
there, a run follows a run. -/
theorem run_follows {step : State → Event → Option State} {permitted : State → Event → Prop}
    {Coarse : Type w} {Access : Type x} {coarse : Coarse → Access → Option Coarse}
    {allowed : Coarse → Access → Prop} {view : State → Coarse}
    (follows : ∀ {state next : State} {event : Event}, permitted state event →
      step state event = some next → view next = view state ∨ ∃ access,
        allowed (view state) access ∧ coarse (view state) access = some (view next))
    {state final : State} {events : List Event} (meets : Meets step permitted state events)
    (performed : Transition.run step state events = some final) :
    ∃ accesses, Meets coarse allowed (view state) accesses ∧
      Transition.run coarse (view state) accesses = some (view final) := by
  induction events generalizing state with
  | nil =>
      cases performed
      exact ⟨[], trivial, rfl⟩
  | cons event events induction =>
      rcases run_cons_eq_some.mp performed with ⟨next, stepped, rest⟩
      rcases induction (meets.tail stepped) rest with ⟨accesses, meetsRest, continued⟩
      rcases follows meets.head stepped with same | ⟨access, allows, moved⟩
      · rw [same] at meetsRest continued
        exact ⟨accesses, meetsRest, continued⟩
      · exact ⟨access :: accesses, (meets_cons moved).mpr ⟨allows, meetsRest⟩,
          run_cons_eq_some.mpr ⟨_, moved, continued⟩⟩

end AssassinGame.Transition
