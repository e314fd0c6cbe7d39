import Mathlib

set_option autoImplicit false

/-!
Every process sends to its successor and receives from its predecessor. A process that still has
to send `todo` and to receive `expected` may act at any time and on any arrived part of its inbox.
What it has to send and to receive is a property of its own state, so that the correctness of one
process carries over to every interleaving of the ring.
-/

namespace Pccl.FifoRing

variable {State Message Observation : Type}

structure Effect (State Message : Type) where
  state : State
  inbox : List Message
  outgoing : List Message

/-- The queue `edges r` holds what the predecessor of `r` has sent and `r` has not yet taken. -/
structure Net (State Message : Type) where
  ranks : Nat → State
  edges : Nat → List Message

def next (size rank : Nat) : Nat := (rank + 1) % size

def pred (size rank : Nat) : Nat := (rank + size - 1) % size

theorem next_lt (size rank : Nat) (inside : rank < size) : next size rank < size :=
  Nat.mod_lt _ (by omega)

theorem pred_lt (size rank : Nat) (inside : rank < size) : pred size rank < size :=
  Nat.mod_lt _ (by omega)

theorem next_eq (size rank : Nat) (inside : rank < size) :
    next size rank = if rank + 1 = size then 0 else rank + 1 := by
  unfold next
  split_ifs with last
  · rw [last, Nat.mod_self]
  · exact Nat.mod_eq_of_lt (by omega)

theorem pred_eq (size rank : Nat) (inside : rank < size) :
    pred size rank = if rank = 0 then size - 1 else rank - 1 := by
  unfold pred
  split_ifs with first
  · rw [first, Nat.zero_add]
    exact Nat.mod_eq_of_lt (show size - 1 < size by omega)
  · have moved : rank + size - 1 = rank - 1 + size := by omega
    rw [moved, Nat.add_mod_right]
    exact Nat.mod_eq_of_lt (show rank - 1 < size by omega)

theorem pred_next (size rank : Nat) (inside : rank < size) : pred size (next size rank) = rank := by
  rw [pred_eq _ _ (next_lt _ _ inside), next_eq _ _ inside]
  by_cases last : rank + 1 = size
  · simp [last]
    omega
  · simp [last]

theorem next_pred (size rank : Nat) (inside : rank < size) : next size (pred size rank) = rank := by
  rw [next_eq _ _ (pred_lt _ _ inside), pred_eq _ _ inside]
  by_cases first : rank = 0
  · simp [first, show size - 1 + 1 = size by omega]
  · simp [first, show rank - 1 + 1 = rank by omega, show ¬ rank = size by omega]

theorem next_ne (size rank : Nat) (inside : rank < size) (pair : 2 ≤ size) :
    next size rank ≠ rank := by
  rw [next_eq _ _ inside]
  split_ifs <;> omega

theorem pred_shift (size rank offset : Nat) (positive : 0 < size) :
    (pred size rank + offset) % size = pred size ((rank + offset) % size) := by
  rw [pred, pred, Nat.mod_add_mod, Nat.add_sub_assoc positive, Nat.add_sub_assoc positive,
    Nat.mod_add_mod]
  congr 1
  omega

section Run

variable (size : Nat) (act : Nat → Observation → List Message → State → Effect State Message)

def step (net : Net State Message) (action : Nat × Observation) : Net State Message :=
  let rank := action.1
  if rank < size then
    let effect := act rank action.2 (net.edges rank) (net.ranks rank)
    let edges := Function.update net.edges rank effect.inbox
    ⟨Function.update net.ranks rank effect.state,
      Function.update edges (next size rank) (edges (next size rank) ++ effect.outgoing)⟩
  else
    net

def run (net : Net State Message) (schedule : List (Nat × Observation)) : Net State Message :=
  schedule.foldl (step size act) net

/-- One process's part of the proof: as long as its inbox is the front of what it expects, an action
either loses the run or takes a front of the inbox and sends a front of what was left to send. A
process that has lost the run sends nothing. -/
structure Follows (Lost : State → Prop)
    (Tracks : Nat → State → List Message → List Message → Prop) : Prop where
  lost : ∀ rank observed inbox state, Lost state → Lost (act rank observed inbox state).state
  silent : ∀ rank observed inbox state, Lost (act rank observed inbox state).state →
    (act rank observed inbox state).outgoing = []
  tracks : ∀ rank observed inbox state todo expected, rank < size →
    Tracks rank state todo expected → inbox <+: expected →
    let effect := act rank observed inbox state
    Lost effect.state ∨ ∃ todo' expected' taken,
      Tracks rank effect.state todo' expected' ∧ todo = effect.outgoing ++ todo' ∧
        inbox = taken ++ effect.inbox ∧ expected = taken ++ expected'

/-- Each process has lost the run or its edge holds the front of what it expects. The edge and what
its sender still has to send make up all of it, unless the sender has lost the run. -/
def Aligned (Lost : State → Prop) (Tracks : Nat → State → List Message → List Message → Prop)
    (net : Net State Message) : Prop :=
  ∃ todo expected : Nat → List Message, ∀ rank, rank < size → ¬ Lost (net.ranks rank) →
    Tracks rank (net.ranks rank) (todo rank) (expected rank) ∧
      net.edges rank <+: expected rank ∧
      (¬ Lost (net.ranks (pred size rank)) →
        net.edges rank ++ todo (pred size rank) = expected rank)

variable {size act} {Lost : State → Prop}
  {Tracks : Nat → State → List Message → List Message → Prop}

section Keeps

variable {Keeps : Nat → State → Prop}
  (keeps : ∀ rank observed inbox state, rank < size → Keeps rank state →
    Keeps rank (act rank observed inbox state).state)

include keeps

theorem step_keeps (net : Net State Message) (action : Nat × Observation) (rank : Nat)
    (kept : Keeps rank (net.ranks rank)) : Keeps rank ((step size act net action).ranks rank) := by
  obtain ⟨actor, observed⟩ := action
  by_cases inside : actor < size
  · by_cases same : rank = actor
    · subst same
      simpa [step, inside] using keeps rank observed _ _ inside kept
    · simpa [step, inside, Function.update_of_ne same] using kept
  · simpa [step, inside] using kept

theorem run_keeps (net : Net State Message) (schedule : List (Nat × Observation)) (rank : Nat)
    (kept : Keeps rank (net.ranks rank)) : Keeps rank ((run size act net schedule).ranks rank) := by
  induction schedule generalizing net with
  | nil => exact kept
  | cons action schedule ih => exact ih _ (step_keeps keeps net action rank kept)

end Keeps

theorem step_aligned (pair : 2 ≤ size) (follows : Follows size act Lost Tracks)
    (net : Net State Message) (action : Nat × Observation)
    (aligned : Aligned size Lost Tracks net) :
    Aligned size Lost Tracks (step size act net action) := by
  obtain ⟨todo, expected, local_⟩ := aligned
  obtain ⟨actor, observed⟩ := action
  by_cases inside : actor < size
  swap
  · exact ⟨todo, expected, by simpa [step, inside] using local_⟩
  have stays := follows.lost actor observed (net.edges actor) (net.ranks actor)
  have silent := follows.silent actor observed (net.edges actor) (net.ranks actor)
  have tracked := follows.tracks actor observed (net.edges actor) (net.ranks actor) (todo actor)
    (expected actor) inside
  have other := next_ne size actor inside pair
  have sender (rank : Nat) (bound : rank < size) : pred size rank = actor ↔ rank = next size actor := by
    constructor
    · rintro rfl
      exact (next_pred size rank bound).symm
    · rintro rfl
      exact pred_next size actor inside
  generalize effect_eq : act actor observed (net.edges actor) (net.ranks actor) = effect at *
  by_cases ends : Lost effect.state
  · -- The others keep their edges; the successor's may now be cut short.
    refine ⟨todo, expected, ?_⟩
    intro rank bound going
    have self : rank ≠ actor := by
      rintro rfl
      exact going (by simpa [step, inside, effect_eq] using ends)
    obtain ⟨rankTracks, rankFront, rankBalance⟩ :=
      local_ rank bound (by simpa [step, inside, Function.update_of_ne self] using going)
    have edge : (step size act net (actor, observed)).edges rank = net.edges rank := by
      by_cases successor : rank = next size actor
      · subst successor
        simp [step, inside, effect_eq, silent ends, Function.update_of_ne self]
      · simp [step, inside, Function.update_of_ne successor, Function.update_of_ne self]
    rw [edge]
    refine ⟨by simpa [step, inside, Function.update_of_ne self] using rankTracks, rankFront, ?_⟩
    intro upstream
    by_cases before : pred size rank = actor
    · rw [before] at upstream
      exact absurd (by simpa [step, inside, effect_eq] using ends) upstream
    · exact rankBalance (by simpa [step, inside, Function.update_of_ne before] using upstream)
  · have went : ¬ Lost (net.ranks actor) := fun lost => ends (stays lost)
    obtain ⟨tracks, front, balance⟩ := local_ actor inside went
    rcases tracked tracks front with lost | ⟨todo', expected', taken, tracks', sent, received, rest⟩
    · exact absurd lost ends
    refine ⟨Function.update todo actor todo', Function.update expected actor expected', ?_⟩
    intro rank bound going
    by_cases self : rank = actor
    · -- The actor's own edge loses what was taken; its sender has done nothing.
      subst self
      have apart : ¬ pred size rank = rank := by
        rw [sender rank bound]
        exact fun same => other same.symm
      have edge : (step size act net (rank, observed)).edges rank = effect.inbox := by
        simp [step, inside, effect_eq, Function.update_of_ne other.symm]
      rw [edge]
      refine ⟨by simpa [step, inside, effect_eq] using tracks', ?_, ?_⟩
      · rw [received, rest, List.prefix_append_right_inj] at front
        simpa using front
      · intro upstream
        have whole := balance (by simpa [step, inside, Function.update_of_ne apart] using upstream)
        have shorter : taken ++ (effect.inbox ++ todo (pred size rank)) = taken ++ expected' := by
          rw [← List.append_assoc, ← received, whole, rest]
        simpa [Function.update_of_ne apart] using List.append_cancel_left shorter
    · obtain ⟨rankTracks, rankFront, rankBalance⟩ :=
        local_ rank bound (by simpa [step, inside, Function.update_of_ne self] using going)
      simp only [Function.update_of_ne self expected' expected]
      refine ⟨by simpa [step, inside, Function.update_of_ne self] using rankTracks, ?_⟩
      by_cases successor : rank = next size actor
      · -- What the actor sent moves from its own list to the edge of its successor.
        have before := (sender rank bound).mpr successor
        rw [before] at rankBalance
        have whole := rankBalance went
        have edge : (step size act net (actor, observed)).edges rank =
            net.edges rank ++ effect.outgoing := by
          subst successor
          simp [step, inside, effect_eq, Function.update_of_ne self]
        rw [edge, before, Function.update_self, List.append_assoc, ← sent]
        refine ⟨⟨todo', ?_⟩, fun _ => whole⟩
        rw [List.append_assoc, ← sent]
        exact whole
      · have apart : ¬ pred size rank = actor := fun same => successor ((sender rank bound).mp same)
        have edge : (step size act net (actor, observed)).edges rank = net.edges rank := by
          simp [step, inside, Function.update_of_ne successor, Function.update_of_ne self]
        rw [edge, Function.update_of_ne apart]
        refine ⟨rankFront, fun upstream => rankBalance ?_⟩
        simpa [step, inside, Function.update_of_ne apart] using upstream

theorem run_aligned (pair : 2 ≤ size) (follows : Follows size act Lost Tracks)
    (net : Net State Message) (aligned : Aligned size Lost Tracks net)
    (schedule : List (Nat × Observation)) :
    Aligned size Lost Tracks (run size act net schedule) := by
  induction schedule generalizing net with
  | nil => exact aligned
  | cons action schedule ih => exact ih _ (step_aligned pair follows net action aligned)

end Run

section Watched

variable {Note : Type} (size : Nat)
  (act : Nat → Observation → List Message → State → Effect State Message)
  (note : State → Effect State Message → Note → Note)

def watched (rank : Nat) (observed : Observation) (inbox : List Message) (noted : State × Note) :
    Effect (State × Note) Message :=
  let effect := act rank observed inbox noted.1
  ⟨(effect.state, note noted.1 effect noted.2), effect.inbox, effect.outgoing⟩

def Net.forget (net : Net (State × Note) Message) : Net State Message :=
  ⟨fun rank => (net.ranks rank).1, net.edges⟩

theorem run_watched (net : Net (State × Note) Message) (schedule : List (Nat × Observation)) :
    (run size (watched act note) net schedule).forget = run size act net.forget schedule := by
  have stepwise (net : Net (State × Note) Message) (action : Nat × Observation) :
      (step size (watched act note) net action).forget = step size act net.forget action := by
    obtain ⟨actor, observed⟩ := action
    by_cases inside : actor < size
    · have ranks : (fun rank => (Function.update net.ranks actor
          (watched act note actor observed (net.edges actor) (net.ranks actor)).state rank).1) =
          Function.update (fun rank => (net.ranks rank).1) actor
            (act actor observed (net.edges actor) (net.ranks actor).1).state := by
        funext rank
        by_cases same : rank = actor
        · subst same
          simp [watched]
        · simp [Function.update_of_ne same]
      simp only [step, inside, if_true, Net.forget, ranks]
      rfl
    · simp [step, inside]
  induction schedule generalizing net with
  | nil => rfl
  | cons action schedule ih =>
    change (run size (watched act note) (step size (watched act note) net action) schedule).forget =
      run size act (step size act net.forget action) schedule
    rw [ih, stepwise]

end Watched

end Pccl.FifoRing
