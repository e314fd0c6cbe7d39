import Pccl.Shared.Program

set_option autoImplicit false

namespace Pccl

open Program

abbrev Annotated (State Exit Note A : Type) := Program (State × List Note) (Exit × List Note) A

namespace Annotated

variable {State Exit Note A B Item : Type}

def lift (program : Program State Exit A) : Annotated State Exit Note A := fun start =>
  match program start.1 with
  | .ok (value, next) => .ok (value, next, start.2)
  | .error exit => .error (exit, start.2)

def note (entry : Note) : Annotated State Exit Note Unit :=
  modify fun start => (start.1, start.2 ++ [entry])

def forget : Except (Exit × List Note) (A × State × List Note) → Except Exit (A × State)
  | .ok (value, next, _) => .ok (value, next)
  | .error (exit, _) => .error exit

def notesOf (program : Annotated State Exit Note A) (state : State) : List Note :=
  match program (state, []) with
  | .ok (_, _, notes) => notes
  | .error (_, notes) => notes

section Rules

variable {state : State} {notes : List Note} {post : A → State × List Note → Prop}
  {fail : Exit × List Note → Prop}

@[simp] theorem meets_lift (program : Program State Exit A) :
    (lift program : Annotated State Exit Note A).Meets (state, notes) post fail ↔
      program.Meets state (fun value next => post value (next, notes))
        fun exit => fail (exit, notes) := by
  simp only [Meets, lift]
  cases program state <;> rfl

@[simp] theorem meets_note (entry : Note) {post : Unit → State × List Note → Prop} :
    (note entry : Annotated State Exit Note Unit).Meets (state, notes) post fail ↔
      post () (state, notes ++ [entry]) :=
  Iff.rfl

theorem notesOf_of_meets {program : Annotated State Exit Note A} (good : List Note → Prop)
    (meets : program.Meets (state, []) (fun _ after => good after.2) fun exit => good exit.2) :
    good (notesOf program state) := by
  unfold Meets at meets
  unfold notesOf
  split at meets <;> simp_all

theorem notesOf_lift_bind {program : Program State Exit A} {next : A → Annotated State Exit Note B}
    {value : A} {middle : State} (returns : program state = .ok (value, middle)) :
    notesOf (lift program >>= next) state = notesOf (next value) middle := by
  simp [notesOf, lift, Bind.bind, StateT.bind, Except.bind, returns]

theorem notesOf_bind_lift (program : Annotated State Exit Note A) (last : Program State Exit B) :
    notesOf (program >>= fun _ => lift last) state = notesOf program state := by
  simp only [notesOf, Bind.bind, StateT.bind, Except.bind]
  cases program (state, []) with
  | error exit => rfl
  | ok result =>
    simp only [lift]
    cases last result.2.1 <;> rfl

end Rules

/-- Without its notes the first program is the second. -/
def Erases (annotated : Annotated State Exit Note A) (program : Program State Exit A) : Prop :=
  ∀ state notes, forget (annotated (state, notes)) = program state

namespace Erases

theorem lift (program : Program State Exit A) :
    Erases (lift program : Annotated State Exit Note A) program := by
  intro state notes
  simp only [Annotated.lift]
  cases program state <;> rfl

theorem bind {annotated : Annotated State Exit Note A} {program : Program State Exit A}
    {next : A → Annotated State Exit Note B} {plain : A → Program State Exit B}
    (first : Erases annotated program) (rest : ∀ value, Erases (next value) (plain value)) :
    Erases (annotated >>= next) (program >>= plain) := by
  intro state notes
  have same := first state notes
  simp only [Bind.bind, StateT.bind, Except.bind]
  rw [← same]
  cases annotated (state, notes) with
  | error exit => rfl
  | ok result => exact rest result.1 result.2.1 result.2.2

theorem note {entry : Note} {annotated : Annotated State Exit Note A}
    {program : Program State Exit A} (rest : Erases annotated program) :
    Erases (note entry >>= fun _ => annotated) program :=
  fun state notes => rest state (notes ++ [entry])

theorem ite {condition : Prop} [Decidable condition] {first second : Annotated State Exit Note A}
    {plainFirst plainSecond : Program State Exit A} (yes : Erases first plainFirst)
    (no : Erases second plainSecond) :
    Erases (if condition then first else second) (if condition then plainFirst else plainSecond) := by
  split
  · exact yes
  · exact no

theorem when {condition : Prop} [Decidable condition] {annotated : Annotated State Exit Note Unit}
    {program : Program State Exit Unit} (erases : Erases annotated program) :
    Erases (when condition annotated) (when condition program) :=
  ite erases fun _ _ => rfl

theorem forEach {items : List Item} {annotated : Item → Annotated State Exit Note Unit}
    {body : Item → Program State Exit Unit} (erases : ∀ item, Erases (annotated item) (body item)) :
    Erases (forEach items annotated) (forEach items body) := by
  induction items with
  | nil => exact fun _ _ => rfl
  | cons item items ih => exact bind (erases item) fun _ => ih

end Erases

end Annotated

end Pccl
