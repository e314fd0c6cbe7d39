import Mathlib

set_option autoImplicit false

namespace Pccl

abbrev Program (State Exit A : Type) := StateT State (Except Exit) A

namespace Program

variable {State Exit A B Item : Type}

def stop (exit : State → Exit) : Program State Exit A := fun state => .error (exit state)

def when (condition : Prop) [Decidable condition] (program : Program State Exit Unit) :
    Program State Exit Unit :=
  if condition then program else pure ()

def forEach : List Item → (Item → Program State Exit Unit) → Program State Exit Unit
  | [], _ => pure ()
  | item :: items, body => do
    body item
    forEach items body

def Meets (program : Program State Exit A) (state : State) (post : A → State → Prop)
    (fail : Exit → Prop) : Prop :=
  match program state with
  | .ok (value, next) => post value next
  | .error exit => fail exit

variable {post : A → State → Prop} {fail : Exit → Prop} {state : State}

@[simp] theorem meets_pure (value : A) :
    Meets (pure value : Program State Exit A) state post fail ↔ post value state :=
  Iff.rfl

@[simp] theorem meets_bind (program : Program State Exit B) (next : B → Program State Exit A) :
    Meets (program >>= next) state post fail ↔
      Meets program state (fun value middle => Meets (next value) middle post fail) fail := by
  simp only [Meets, bind, StateT.bind, Except.bind]
  cases program state <;> rfl

@[simp] theorem meets_get {post : State → State → Prop} :
    Meets (get : Program State Exit State) state post fail ↔ post state state :=
  Iff.rfl

@[simp] theorem meets_set (next : State) {post : PUnit → State → Prop} :
    Meets (set next : Program State Exit PUnit) state post fail ↔ post ⟨⟩ next :=
  Iff.rfl

@[simp] theorem meets_modify (change : State → State) {post : Unit → State → Prop} :
    Meets (modify change : Program State Exit Unit) state post fail ↔ post () (change state) :=
  Iff.rfl

theorem meets_ite (condition : Prop) [Decidable condition] (first second : Program State Exit A) :
    Meets (if condition then first else second) state post fail ↔
      (condition → Meets first state post fail) ∧ (¬ condition → Meets second state post fail) := by
  by_cases holds : condition <;> simp [holds]

@[simp] theorem meets_when (condition : Prop) [Decidable condition]
    (program : Program State Exit Unit) {post : Unit → State → Prop} :
    Meets (when condition program) state post fail ↔
      (condition → Meets program state post fail) ∧ (¬ condition → post () state) := by
  rw [when, meets_ite, meets_pure]

theorem get_bind (next : State → Program State Exit A) (state : State) :
    (get >>= next) state = next state state := rfl

theorem Meets.read {next : State → Program State Exit A} (meets : Meets (next state) state post fail) :
    Meets (get >>= next) state post fail :=
  (meets_bind _ _).mpr meets

theorem Meets.write {next : PUnit → Program State Exit A} {value : State}
    (meets : Meets (next ⟨⟩) value post fail) : Meets (set value >>= next) state post fail :=
  (meets_bind _ _).mpr meets

theorem Meets.change {next : Unit → Program State Exit A} {change : State → State}
    (meets : Meets (next ()) (change state) post fail) : Meets (modify change >>= next) state post fail :=
  (meets_bind _ _).mpr meets

theorem Meets.imp {program : Program State Exit A} {weaker : A → State → Prop}
    {weakerFail : Exit → Prop} (meets : Meets program state post fail)
    (returns : ∀ value next, post value next → weaker value next)
    (exits : ∀ exit, fail exit → weakerFail exit) :
    Meets program state weaker weakerFail := by
  unfold Meets at *
  cases result : program state with
  | error exit => exact exits exit (by simpa [result] using meets)
  | ok pair => exact returns pair.1 pair.2 (by simpa [result] using meets)

theorem Meets.and {program : Program State Exit A} {other : A → State → Prop}
    {otherFail : Exit → Prop} (meets : Meets program state post fail)
    (also : Meets program state other otherFail) :
    Meets program state (fun value next => post value next ∧ other value next)
      (fun exit => fail exit ∧ otherFail exit) := by
  unfold Meets at *
  cases result : program state with
  | error exit => exact ⟨by simpa [result] using meets, by simpa [result] using also⟩
  | ok pair => exact ⟨by simpa [result] using meets, by simpa [result] using also⟩

theorem Meets.returns {program : Program State Exit A}
    (meets : Meets program state post fun _ => False) :
    ∃ value next, program state = .ok (value, next) ∧ post value next := by
  unfold Meets at meets
  cases result : program state with
  | error exit =>
    rw [result] at meets
    exact meets.elim
  | ok pair =>
    rw [result] at meets
    exact ⟨pair.1, pair.2, rfl, meets⟩

theorem Meets.bind {program : Program State Exit B} {next : B → Program State Exit A}
    {between : B → State → Prop} (first : Meets program state between fail)
    (rest : ∀ value middle, between value middle → Meets (next value) middle post fail) :
    Meets (program >>= next) state post fail :=
  (meets_bind program next).mpr (first.imp rest fun _ same => same)

theorem meets_forEach {items : List Item} {body : Item → Program State Exit Unit}
    {invariant : List Item → State → Prop}
    (keeps : ∀ finished item rest, finished ++ item :: rest = items → ∀ middle,
      invariant finished middle →
        Meets (body item) middle (fun _ next => invariant (finished ++ [item]) next) fail)
    (holds : invariant [] state) :
    Meets (forEach items body) state (fun _ next => invariant items next) fail := by
  have rest (finished todo : List Item) (split : finished ++ todo = items) (middle : State)
      (holds : invariant finished middle) :
      Meets (forEach todo body) middle (fun _ next => invariant items next) fail := by
    induction todo generalizing finished middle with
    | nil => simpa [forEach, ← split] using holds
    | cons item todo ih =>
      refine Meets.bind (keeps finished item todo split middle holds) fun _ next kept => ?_
      exact ih (finished ++ [item]) (by simpa using split) next kept
  exact rest [] items rfl state holds

/-- The program keeps the invariant until it returns; `fail` holds of the exits. -/
def Preserves (invariant : State → Prop) (fail : Exit → Prop) (program : Program State Exit A) :
    Prop :=
  ∀ state, invariant state → Meets program state (fun _ next => invariant next) fail

namespace Preserves

variable {invariant : State → Prop} {program : Program State Exit A}

theorem pure (value : A) :
    Preserves invariant fail (Pure.pure value : Program State Exit A) :=
  fun _ holds => holds

theorem bind {next : A → Program State Exit B} (first : Preserves invariant fail program)
    (rest : ∀ value, Preserves invariant fail (next value)) :
    Preserves invariant fail (program >>= next) :=
  fun state holds => Meets.bind (first state holds) fun value middle kept => rest value middle kept

theorem read {next : State → Program State Exit A}
    (rest : ∀ state, invariant state → Preserves invariant fail (next state)) :
    Preserves invariant fail (get >>= next) :=
  fun state holds => (meets_bind _ _).mpr (rest state holds state holds)

theorem set {next : State} (kept : invariant next) :
    Preserves invariant fail (MonadStateOf.set next : Program State Exit PUnit) :=
  fun _ _ => kept

theorem modify {change : State → State} (kept : ∀ state, invariant state → invariant (change state)) :
    Preserves invariant fail (modify change : Program State Exit Unit) :=
  kept

theorem stop {exit : State → Exit} (left : ∀ state, invariant state → fail (exit state)) :
    Preserves invariant fail (stop exit : Program State Exit A) :=
  left

theorem ite {condition : Prop} [Decidable condition] {first second : Program State Exit A}
    (yes : condition → Preserves invariant fail first)
    (no : ¬ condition → Preserves invariant fail second) :
    Preserves invariant fail (if condition then first else second) := by
  split
  · next holds => exact yes holds
  · next fails => exact no fails

theorem when {condition : Prop} [Decidable condition] {program : Program State Exit Unit}
    (keeps : Preserves invariant fail program) : Preserves invariant fail (when condition program) :=
  ite (fun _ => keeps) fun _ => pure ()

theorem forEach {items : List Item} {body : Item → Program State Exit Unit}
    (keeps : ∀ item, Preserves invariant fail (body item)) :
    Preserves invariant fail (forEach items body) :=
  fun _ holds => @meets_forEach _ _ _ _ _ _ _ (fun _ => invariant) (fun _ item _ _ => keeps item) holds

end Preserves

end Program

end Pccl
