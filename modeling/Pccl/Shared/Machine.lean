import Mathlib

set_option autoImplicit false

namespace Pccl.Machine

variable {State Input : Type} (step : Input → State → State)

def run (inputs : List Input) (state : State) : State :=
  inputs.foldl (fun state input => step input state) state

@[simp] theorem run_nil (state : State) : run step [] state = state := rfl

@[simp] theorem run_cons (input : Input) (inputs : List Input) (state : State) :
    run step (input :: inputs) state = run step inputs (step input state) := rfl

theorem run_append (first second : List Input) (state : State) :
    run step (first ++ second) state = run step second (run step first state) :=
  List.foldl_append

def Always (allowed : Input → State → Prop) : List Input → State → Prop
  | [], _ => True
  | input :: inputs, state => allowed input state ∧ Always allowed inputs (step input state)

instance decidableAlways (allowed : Input → State → Prop)
    [decidable : ∀ input state, Decidable (allowed input state)] (inputs : List Input)
    (state : State) : Decidable (Always step allowed inputs state) :=
  match inputs with
  | [] => inferInstanceAs (Decidable True)
  | input :: inputs =>
    have := decidableAlways allowed inputs (step input state)
    inferInstanceAs (Decidable (_ ∧ _))

def checks (allowed : Input → State → Bool) : List Input → State → Bool
  | [], _ => true
  | input :: inputs, state => allowed input state && checks allowed inputs (step input state)

/-- What somebody has noted down who sees every step with the states before and after it. -/
def watch {Ghost : Type} (observe : Input → State → State → Ghost → Ghost) :
    List Input → State → Ghost → Ghost
  | [], _, ghost => ghost
  | input :: inputs, state, ghost =>
    watch observe inputs (step input state) (observe input state (step input state) ghost)

variable {step} {allowed : Input → State → Prop} {invariant doomed : State → Prop}

theorem checks_iff {test : Input → State → Bool} (inputs : List Input) (state : State) :
    checks step test inputs state = true ↔
      Always step (fun input state => test input state) inputs state := by
  induction inputs generalizing state with
  | nil => simp [checks, Always]
  | cons input inputs ih => simp [checks, Always, ih]

theorem always_of_forall (all : ∀ input state, allowed input state) (inputs : List Input)
    (state : State) : Always step allowed inputs state := by
  induction inputs generalizing state with
  | nil => trivial
  | cons input inputs ih => exact ⟨all input state, ih _⟩

theorem always_append {first second : List Input} {state : State}
    (always : Always step allowed (first ++ second) state) :
    Always step allowed first state ∧ Always step allowed second (run step first state) := by
  induction first generalizing state with
  | nil => exact ⟨trivial, always⟩
  | cons input inputs ih => exact ⟨⟨always.1, (ih always.2).1⟩, (ih always.2).2⟩

theorem run_preserves
    (keeps : ∀ input state, invariant state → allowed input state → invariant (step input state))
    (inputs : List Input) (state : State) (holds : invariant state)
    (always : Always step allowed inputs state) : invariant (run step inputs state) := by
  induction inputs generalizing state with
  | nil => exact holds
  | cons input inputs ih => exact ih _ (keeps input state holds always.1) always.2

theorem run_preserves_past {invariant : List Input → State → Prop}
    (keeps : ∀ past input state, invariant past state → allowed input state →
      invariant (past ++ [input]) (step input state))
    (inputs past : List Input) (state : State) (holds : invariant past state)
    (always : Always step allowed inputs state) : invariant (past ++ inputs) (run step inputs state) := by
  induction inputs generalizing past state with
  | nil => simpa using holds
  | cons input inputs ih =>
    have later := ih (past ++ [input]) _ (keeps past input state holds always.1) always.2
    simpa using later

theorem watch_preserves {Ghost : Type} {observe : Input → State → State → Ghost → Ghost}
    {linked : State → Ghost → Prop}
    (keeps : ∀ input state ghost, linked state ghost → allowed input state →
      linked (step input state) (observe input state (step input state) ghost))
    (inputs : List Input) (state : State) (ghost : Ghost) (holds : linked state ghost)
    (always : Always step allowed inputs state) :
    linked (run step inputs state) (watch step observe inputs state ghost) := by
  induction inputs generalizing state ghost with
  | nil => exact holds
  | cons input inputs ih => exact ih _ _ (keeps input state ghost holds always.1) always.2

theorem watch_concat {Ghost : Type} {observe : Input → State → State → Ghost → Ghost}
    (inputs : List Input) (input : Input) (state : State) (ghost : Ghost) :
    watch step observe (inputs ++ [input]) state ghost =
      observe input (run step inputs state) (step input (run step inputs state))
        (watch step observe inputs state ghost) := by
  induction inputs generalizing state ghost with
  | nil => rfl
  | cons first inputs ih => exact ih _ _

theorem run_stays (stays : ∀ input state, doomed state → doomed (step input state))
    (inputs : List Input) (state : State) (holds : doomed state) : doomed (run step inputs state) := by
  induction inputs generalizing state with
  | nil => exact holds
  | cons input inputs ih => exact ih _ (stays input state holds)

theorem run_doomed
    (keeps : ∀ input state, invariant state → allowed input state → invariant (step input state))
    (breaks : ∀ input state, invariant state → ¬ allowed input state → doomed (step input state))
    (stays : ∀ input state, doomed state → doomed (step input state))
    (inputs : List Input) (state : State) (holds : invariant state)
    (broken : ¬ Always step allowed inputs state) : doomed (run step inputs state) := by
  induction inputs generalizing state with
  | nil => exact absurd trivial broken
  | cons input inputs ih =>
    by_cases fine : allowed input state
    · exact ih _ (keeps input state holds fine) fun later => broken ⟨fine, later⟩
    · exact run_stays stays inputs _ (breaks input state holds fine)

end Pccl.Machine
