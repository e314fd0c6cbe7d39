import Pccl.Client.Retry

set_option autoImplicit false

namespace Pccl.Client

open RetryState

section Shape

variable (request : RetryRequest)

def Placed (state : RetryState) : Prop :=
  match state.pc with
  | .begin => state.handles = ∅ ∧ state.completed = ∅ ∧ state.inFlight = 0 ∧ state.log = []
  | .upFront index => state.handles = Finset.range index ∧ state.completed = ∅ ∧
      state.inFlight = index ∧ index ≤ request.count ∧ 1 < state.worldSize
  | .scan index => state.allDone = true → ∀ handle ∈ state.handles, index ≤ handle
  | .settle index => index ∈ state.handles ∧
      (state.allDone = true → ∀ handle ∈ state.handles, index ≤ handle)
  | .drain failed index => failed < request.count ∧ failed ∉ state.handles ∧
      failed ∉ state.completed ∧ ∀ handle ∈ state.handles, index ≤ handle
  | .leave => 1 < state.worldSize → state.handles = ∅
  | .test | .finalize _ | .returned _ => True

structure Shape (state : RetryState) : Prop where
  inside : ∀ handle ∈ state.handles, handle < request.count
  apart : Disjoint state.handles state.completed
  counted : state.handles.card ≤ state.inFlight
  placed : Placed request state

variable {request} {state : RetryState} (shape : Shape request state) (answers : Answers)

include shape

theorem Shape.move (next : RetryState) (handles : next.handles = state.handles)
    (completed : next.completed = state.completed) (inFlight : next.inFlight = state.inFlight)
    (placed : Placed request next) : Shape request next := by
  refine ⟨?_, ?_, ?_, placed⟩
  · rw [handles]
    exact shape.inside
  · rw [handles, completed]
    exact shape.apart
  · rw [handles, inFlight]
    exact shape.counted

theorem Shape.addHandle (index : Nat) (next : RetryState) (inside : index < request.count)
    (absent : index ∉ state.handles) (open' : index ∉ state.completed)
    (handles : next.handles = insert index state.handles)
    (completed : next.completed = state.completed) (inFlight : next.inFlight = state.inFlight + 1)
    (placed : Placed request next) : Shape request next := by
  refine ⟨?_, ?_, ?_, placed⟩
  · intro handle member
    rw [handles, Finset.mem_insert] at member
    rcases member with rfl | member
    · exact inside
    · exact shape.inside handle member
  · rw [handles, completed, Finset.disjoint_insert_left]
    exact ⟨open', shape.apart⟩
  · rw [handles, inFlight, Finset.card_insert_of_notMem absent]
    exact Nat.succ_le_succ shape.counted

theorem Shape.dropHandle (index freed : Nat) (next : RetryState) (present : index ∈ state.handles)
    (handles : next.handles = state.handles.erase index)
    (completed : next.completed = state.completed ∨ next.completed = insert index state.completed)
    (slot : freed ≤ 1) (inFlight : next.inFlight = state.inFlight - freed)
    (placed : Placed request next) : Shape request next := by
  have card := Finset.card_erase_add_one present
  have counted := shape.counted
  refine ⟨?_, ?_, ?_, placed⟩
  · intro handle member
    rw [handles] at member
    exact shape.inside handle (Finset.mem_of_mem_erase member)
  · have rest : Disjoint next.handles state.completed := by
      rw [handles]
      exact Finset.disjoint_of_subset_left (Finset.erase_subset _ _) shape.apart
    rcases completed with same | more
    · rwa [same]
    · rw [more, Finset.disjoint_insert_right]
      exact ⟨by simp [handles], rest⟩
  · rw [handles, inFlight]
    omega

theorem Shape.not_completed (index : Nat) (present : index ∈ state.handles) :
    index ∉ state.completed :=
  Finset.disjoint_left.mp shape.apart present

theorem Shape.exit (result : PcclResult) : Shape request (state.exit result) :=
  shape.move _ rfl rfl rfl trivial

theorem Shape.stepUpFront (index : Nat) (pc : state.pc = .upFront index) :
    Shape request (state.stepUpFront request answers index) := by
  have placed := shape.placed
  rw [Placed, pc] at placed
  obtain ⟨handles, completed, inFlight, bound, world⟩ := placed
  unfold RetryState.stepUpFront
  split
  next room =>
    split
    · exact shape.exit _
    · refine shape.addHandle index _ room.1 (by simp [handles]) (by simp [completed]) rfl rfl rfl ?_
      refine ⟨?_, completed, congrArg (· + 1) inFlight, room.1, world⟩
      rw [Finset.range_add_one, ← handles]
      rfl
  · exact shape.move _ rfl rfl rfl trivial

theorem Shape.stepTest : Shape request state.stepTest := by
  unfold RetryState.stepTest
  split
  · exact shape.move _ rfl rfl rfl fun _ _ _ => Nat.zero_le _
  next closed => exact shape.move _ rfl rfl rfl fun opened => absurd opened closed

theorem Shape.stepScan (index : Nat) (pc : state.pc = .scan index) :
    Shape request (state.stepScan request answers index) := by
  have ahead := shape.placed
  rw [Placed, pc] at ahead
  unfold RetryState.stepScan
  split
  next inside =>
    split
    next present => exact shape.move _ rfl rfl rfl ⟨present, ahead⟩
    next absent =>
      split
      · refine shape.move _ rfl rfl rfl fun done handle member => ?_
        have later := ahead done handle member
        have other : handle ≠ index := fun same => absent (same ▸ member)
        omega
      next free =>
        split
        · exact shape.exit _
        · split
          · exact shape.exit _
          · refine shape.addHandle index _ inside absent (fun done => free (.inl done)) rfl rfl rfl
              ⟨Finset.mem_insert_self _ _, fun done handle member => ?_⟩
            rcases Finset.mem_insert.mp member with rfl | member
            · exact Nat.le_refl _
            · exact ahead done handle member
  next outside =>
    split
    next done =>
      refine shape.move _ rfl rfl rfl fun _ => Finset.eq_empty_of_forall_notMem fun handle member => ?_
      have inside := shape.inside handle member
      have later := ahead done handle member
      omega
    · exact shape.move _ rfl rfl rfl trivial

theorem Shape.stepSettle (index : Nat) (pc : state.pc = .settle index) :
    Shape request (state.stepSettle request answers index) := by
  have placed := shape.placed
  rw [Placed, pc] at placed
  obtain ⟨present, ahead⟩ := placed
  unfold RetryState.stepSettle
  split
  · exact shape.move _ rfl rfl rfl fun done => by simp at done
  · split
    · exact shape.move _ rfl rfl rfl trivial
    · split
      · exact shape.dropHandle index 0 _ present rfl (.inl rfl) (by omega) rfl
          ⟨shape.inside index present, by simp, shape.not_completed index present,
            fun _ _ => Nat.zero_le _⟩
      · refine shape.dropHandle index 1 _ present rfl (.inr rfl) (by omega) rfl
          fun done handle member => ?_
        have later := ahead done handle (Finset.mem_of_mem_erase member)
        have other := Finset.ne_of_mem_erase member
        omega

theorem Shape.stepDrain (failed index : Nat) (pc : state.pc = .drain failed index) :
    Shape request (state.stepDrain request answers failed index) := by
  have placed := shape.placed
  rw [Placed, pc] at placed
  obtain ⟨inside, absent, unfinished, ahead⟩ := placed
  unfold RetryState.stepDrain
  split
  · split
    next found =>
      refine shape.dropHandle index 1 _ found.2 rfl ?_ (by omega) rfl ?_
      · split
        · exact .inr rfl
        · exact .inl rfl
      · refine ⟨inside, fun member => absent (Finset.mem_of_mem_erase member), ?_, ?_⟩
        · change failed ∉ if answers.await = .success then _ else _
          split
          · rw [Finset.mem_insert, not_or]
            exact ⟨fun same => found.1 same.symm, unfinished⟩
          · exact unfinished
        · intro handle member
          have later := ahead handle (Finset.mem_of_mem_erase member)
          have other := Finset.ne_of_mem_erase member
          omega
    next skipped =>
      refine shape.move _ rfl rfl rfl ⟨inside, absent, unfinished, fun handle member => ?_⟩
      have later := ahead handle member
      have other : handle ≠ index := by
        rintro rfl
        exact skipped ⟨fun same => absent (same ▸ member), member⟩
      omega
  · exact shape.move _ rfl rfl rfl trivial

theorem Shape.step : Shape request (state.step request answers) := by
  cases pc : state.pc with
  | begin =>
    have placed := shape.placed
    rw [Placed, pc] at placed
    obtain ⟨handles, completed, inFlight, _⟩ := placed
    rw [RetryState.step, pc]
    change Shape request (state.stepBegin request answers)
    unfold RetryState.stepBegin
    split
    · exact shape.exit _
    · split
      · exact shape.exit _
      · split
        · exact shape.exit _
        next large =>
          refine shape.move _ rfl rfl rfl ⟨handles, completed, inFlight, Nat.zero_le _, ?_⟩
          change 1 < answers.worldSize
          omega
  | upFront index => simpa only [RetryState.step, pc] using shape.stepUpFront answers index pc
  | test => simpa only [RetryState.step, pc] using shape.stepTest
  | scan index => simpa only [RetryState.step, pc] using shape.stepScan answers index pc
  | settle index => simpa only [RetryState.step, pc] using shape.stepSettle answers index pc
  | drain failed index =>
    simpa only [RetryState.step, pc] using shape.stepDrain answers failed index pc
  | leave =>
    rw [RetryState.step, pc]
    change Shape request state.stepLeave
    unfold RetryState.stepLeave
    split
    · exact shape.move _ rfl rfl rfl trivial
    · exact shape.exit _
  | finalize index =>
    rw [RetryState.step, pc]
    change Shape request (state.stepFinalize request answers index)
    unfold RetryState.stepFinalize
    split
    · split
      · exact shape.move _ rfl rfl rfl trivial
      · exact shape.move _ rfl rfl rfl trivial
    · exact shape.exit _
  | returned result => simpa only [RetryState.step, pc] using shape

end Shape

section Balance

def launches (index : Nat) (log : List RetryEvent) : Nat := log.count (.launched index)

def awaits (index : Nat) (log : List RetryEvent) : Nat :=
  log.count (.awaited index true) + log.count (.awaited index false)

/-- The operations in `pending`, and no others, have been launched without being awaited. -/
def Balances (pending : Finset Nat) (log : List RetryEvent) : Prop :=
  ∀ index, launches index log = awaits index log + if index ∈ pending then 1 else 0

def AllAwaited (log : List RetryEvent) : Prop := ∀ index, launches index log = awaits index log

theorem balances_launch (pending : Finset Nat) (log : List RetryEvent) (index : Nat)
    (balances : Balances pending log) (absent : index ∉ pending) :
    Balances (insert index pending) (log ++ [.launched index]) := by
  intro other
  have before := balances other
  unfold launches awaits at before ⊢
  by_cases same : index = other
  · subst same
    simp [List.count_append, absent] at before ⊢
    omega
  · simpa [List.count_append, same, Ne.symm same] using before

theorem balances_await (pending : Finset Nat) (log : List RetryEvent) (index : Nat) (success : Bool)
    (balances : Balances pending log) (present : index ∈ pending) :
    Balances (pending.erase index) (log ++ [.awaited index success]) := by
  intro other
  have before := balances other
  unfold launches awaits at before ⊢
  by_cases same : index = other
  · subst same
    cases success <;> simp [List.count_append, present] at before ⊢ <;> omega
  · cases success <;> simpa [List.count_append, same, Ne.symm same] using before

theorem balances_allAwaited (pending : Finset Nat) (log : List RetryEvent)
    (balances : Balances pending log) : AllAwaited log ↔ pending = ∅ := by
  constructor
  · intro all
    apply Finset.eq_empty_of_forall_notMem
    intro index member
    have known := balances index
    rw [if_pos member, all index] at known
    omega
  · rintro rfl index
    simpa using balances index

def pending (state : RetryState) : Finset Nat :=
  match state.pc with
  | .finalize index => state.handles.filter (index ≤ ·)
  | .returned _ => ∅
  | _ => state.handles

variable (request : RetryRequest) (answers : Answers) (state : RetryState)

/-- The function is about to return early while other operations are in flight. -/
def Abandons : Prop :=
  match state.pc with
  | .upFront index => index < request.count ∧ state.inFlight < request.maxInFlight ∧
      answers.launch ≠ .success ∧ state.handles ≠ ∅
  | .scan index => index < request.count ∧ index ∉ state.handles ∧ index ∉ state.completed ∧
      state.inFlight < request.maxInFlight ∧
      (DataType.isInput (request.dataType index) = false ∨ answers.launch ≠ .success) ∧
      state.handles ≠ ∅
  | .settle index => state.postpones request = false ∧ answers.getAttribute ≠ .success ∧
      state.handles.erase index ≠ ∅
  | .leave => state.worldSize < 1 ∧ state.handles ≠ ∅
  | _ => False

instance : Decidable (Abandons request answers state) := by
  unfold Abandons
  split <;> infer_instance

structure Accounted : Prop where
  shape : Shape request state
  balances : Balances (pending state) state.log

def Abandoned : Prop := (∃ result, state.pc = .returned result) ∧ ¬ AllAwaited state.log

def Settles (next : RetryState) : Prop :=
  (¬ Abandons request answers state → Balances (pending next) next.log) ∧
    (Abandons request answers state → Abandoned next)

variable {request} {answers} {state}

theorem settles_keep (next : RetryState) (fine : ¬ Abandons request answers state)
    (balances : Balances (pending next) next.log) : Settles request answers state next :=
  ⟨fun _ => balances, fun abandons => absurd abandons fine⟩

theorem settles_exit (held : Finset Nat) (result : PcclResult) (last : RetryState)
    (balances : Balances held last.log) (exact : Abandons request answers state ↔ held ≠ ∅) :
    Settles request answers state (last.exit result) := by
  constructor
  · intro fine
    have none : held = ∅ := by
      by_contra some
      exact fine (exact.mpr some)
    rwa [none] at balances
  · intro abandons
    exact ⟨⟨result, rfl⟩, fun all =>
      exact.mp abandons ((balances_allAwaited _ _ balances).mp all)⟩

variable (accounted : Accounted request state)

include accounted

theorem Accounted.settles_upFront (index : Nat) (pc : state.pc = .upFront index) :
    Settles request answers state (state.stepUpFront request answers index) := by
  have placed := accounted.shape.placed
  have balances := accounted.balances
  rw [Placed, pc] at placed
  simp only [pending, pc] at balances
  unfold RetryState.stepUpFront
  split
  next room =>
    split
    next rejected =>
      apply settles_exit state.handles _ _ balances
      simp [Abandons, pc, room, rejected]
    next launched =>
      apply settles_keep _ (by simp [Abandons, pc, launched])
      exact balances_launch _ _ _ balances (by simp [placed.1])
  next full =>
    apply settles_keep
    · rw [Abandons, pc]
      rintro ⟨inside, room, _⟩
      exact full ⟨inside, room⟩
    · exact balances

theorem Accounted.settles_scan (index : Nat) (pc : state.pc = .scan index) :
    Settles request answers state (state.stepScan request answers index) := by
  have balances := accounted.balances
  simp only [pending, pc] at balances
  unfold RetryState.stepScan
  split
  next inside =>
    split
    next present => exact settles_keep _ (by simp [Abandons, pc, present]) balances
    next absent =>
      split
      next skipped =>
        refine settles_keep _ ?_ balances
        rw [Abandons, pc]
        rintro ⟨_, _, unfinished, room, _⟩
        rcases skipped with done | full
        · exact unfinished done
        · omega
      next free =>
        rw [not_or, Nat.not_le] at free
        split
        next unsupported =>
          apply settles_exit state.handles _ _ balances
          simp_all [Abandons]
        next supported =>
          split
          next rejected =>
            apply settles_exit state.handles _ _ balances
            simp_all [Abandons]
          next launched =>
            apply settles_keep _ (by simp_all [Abandons])
            exact balances_launch _ _ _ balances absent
  next outside =>
    have fine : ¬ Abandons request answers state := by
      rw [Abandons, pc]
      exact fun abandons => outside abandons.1
    split
    · exact settles_keep _ fine balances
    · exact settles_keep _ fine balances

theorem Accounted.settles_settle (index : Nat) (pc : state.pc = .settle index) :
    Settles request answers state (state.stepSettle request answers index) := by
  have placed := accounted.shape.placed
  have balances := accounted.balances
  rw [Placed, pc] at placed
  simp only [pending, pc] at balances
  have awaited := balances_await _ _ index (answers.await = .success) balances placed.1
  unfold RetryState.stepSettle
  split
  next postponed => exact settles_keep _ (by simp [Abandons, pc, postponed]) balances
  next waits =>
    split
    next lost =>
      apply settles_exit (state.handles.erase index) _ _ awaited
      simp_all [Abandons]
    next known =>
      have fine : ¬ Abandons request answers state := by simp_all [Abandons]
      split
      · exact settles_keep _ fine awaited
      · exact settles_keep _ fine awaited

theorem Accounted.settles_drain (failed index : Nat) (pc : state.pc = .drain failed index) :
    Settles request answers state (state.stepDrain request answers failed index) := by
  have balances := accounted.balances
  simp only [pending, pc] at balances
  have fine : ¬ Abandons request answers state := by simp [Abandons, pc]
  unfold RetryState.stepDrain
  split
  · split
    next found => exact settles_keep _ fine (balances_await _ _ _ _ balances found.2)
    · exact settles_keep _ fine balances
  · exact settles_keep _ fine balances

theorem Accounted.settles_leave (pc : state.pc = .leave) :
    Settles request answers state state.stepLeave := by
  have placed := accounted.shape.placed
  have balances := accounted.balances
  rw [Placed, pc] at placed
  simp only [pending, pc] at balances
  unfold RetryState.stepLeave
  split
  next alone =>
    apply settles_keep _ (by simp [Abandons, pc, alone])
    have all : state.handles.filter (0 ≤ ·) = state.handles := by simp
    change Balances (state.handles.filter (0 ≤ ·)) state.log
    rwa [all]
  next others =>
    apply settles_exit state.handles _ _ balances
    rw [Abandons, pc]
    constructor
    · exact fun abandons => abandons.2
    · intro some
      refine ⟨?_, some⟩
      by_contra large
      exact some (placed (by omega))

theorem Accounted.settles_finalize (index : Nat) (pc : state.pc = .finalize index) :
    Settles request answers state (state.stepFinalize request answers index) := by
  have balances := accounted.balances
  simp only [pending, pc] at balances
  have fine : ¬ Abandons request answers state := by simp [Abandons, pc]
  have next : (state.handles.filter (index ≤ ·)).erase index =
      state.handles.filter (index + 1 ≤ ·) := by
    ext handle
    simp only [Finset.mem_erase, Finset.mem_filter]
    constructor
    · rintro ⟨other, member, later⟩
      exact ⟨member, by omega⟩
    · rintro ⟨member, later⟩
      exact ⟨by omega, member, by omega⟩
  unfold RetryState.stepFinalize
  split
  next inside =>
    split
    next present =>
      apply settles_keep _ fine
      have awaited := balances_await _ _ index (answers.await = .success) balances
        (by simpa using present)
      rwa [next] at awaited
    next absent =>
      apply settles_keep _ fine
      rw [← Finset.erase_eq_of_notMem (show index ∉ state.handles.filter (index ≤ ·) by simp [absent]),
        next] at balances
      exact balances
  next outside =>
    apply settles_keep _ fine
    have none : state.handles.filter (index ≤ ·) = ∅ := by
      apply Finset.filter_eq_empty_iff.mpr
      intro handle member later
      have inside := accounted.shape.inside handle member
      omega
    rwa [none] at balances

theorem Accounted.settles : Settles request answers state (state.step request answers) := by
  have balances := accounted.balances
  cases pc : state.pc with
  | begin =>
    have placed := accounted.shape.placed
    rw [Placed, pc] at placed
    simp only [pending, pc] at balances
    have fine : ¬ Abandons request answers state := by simp [Abandons, pc]
    rw [RetryState.step, pc]
    change Settles request answers state (state.stepBegin request answers)
    unfold RetryState.stepBegin
    rw [placed.1] at balances
    split
    · exact settles_keep _ fine balances
    · split
      · exact settles_keep _ fine balances
      · split
        · exact settles_keep _ fine balances
        · exact settles_keep _ fine (by rw [← placed.1] at balances; exact balances)
  | test =>
    simp only [pending, pc] at balances
    have fine : ¬ Abandons request answers state := by simp [Abandons, pc]
    rw [RetryState.step, pc]
    change Settles request answers state state.stepTest
    unfold RetryState.stepTest
    split
    · exact settles_keep _ fine balances
    · exact settles_keep _ fine balances
  | upFront index => simpa only [RetryState.step, pc] using accounted.settles_upFront index pc
  | scan index => simpa only [RetryState.step, pc] using accounted.settles_scan index pc
  | settle index => simpa only [RetryState.step, pc] using accounted.settles_settle index pc
  | drain failed index =>
    simpa only [RetryState.step, pc] using accounted.settles_drain failed index pc
  | leave => simpa only [RetryState.step, pc] using accounted.settles_leave pc
  | finalize index => simpa only [RetryState.step, pc] using accounted.settles_finalize index pc
  | returned result =>
    have fine : ¬ Abandons request answers state := by simp [Abandons, pc]
    simpa only [RetryState.step, pc] using settles_keep state fine balances

omit accounted in
theorem step_returned (result : PcclResult) (pc : state.pc = .returned result) :
    state.step request answers = state := by
  rw [RetryState.step, pc]

end Balance

section Awaited

variable (request : RetryRequest)

theorem accounted_start : Accounted request RetryState.start where
  shape := ⟨by simp [RetryState.start], by simp [RetryState.start], Nat.zero_le _,
    rfl, rfl, rfl, rfl⟩
  balances := fun _ => rfl

theorem pcclAllReduceMultipleWithRetry_awaits (inputs : List Answers)
    (returned : ∃ result, (pcclAllReduceMultipleWithRetry request inputs).pc = .returned result) :
    AllAwaited (pcclAllReduceMultipleWithRetry request inputs).log ↔
      Machine.Always (RetryState.step request)
        (fun answers state => ¬ Abandons request answers state) inputs RetryState.start := by
  have keeps (answers : Answers) (state : RetryState) (accounted : Accounted request state)
      (fine : ¬ Abandons request answers state) : Accounted request (state.step request answers) :=
    ⟨accounted.shape.step answers, accounted.settles.1 fine⟩
  constructor
  · intro all
    by_contra broken
    have abandoned := Machine.run_doomed keeps
      (fun answers state accounted abandons => accounted.settles.2 (not_not.mp abandons))
      (fun answers state abandoned => by
        obtain ⟨result, pc⟩ := abandoned.1
        rwa [step_returned result pc]) inputs _ (accounted_start request) broken
    exact abandoned.2 all
  · intro always
    have accounted := Machine.run_preserves keeps inputs _ (accounted_start request) always
    obtain ⟨result, pc⟩ := returned
    apply (balances_allAwaited _ _ accounted.balances).mpr
    change pending (pcclAllReduceMultipleWithRetry request inputs) = ∅
    simp only [pending, pc]

def healthy : Answers := ⟨.success, .success, .success, 2⟩

def floats (count maxInFlight : Nat) : RetryRequest := ⟨count, fun _ => .float, maxInFlight⟩

theorem pcclAllReduceMultipleWithRetry_awaits_two :
    AllAwaited (pcclAllReduceMultipleWithRetry (floats 2 2) (List.replicate 20 healthy)).log :=
  (pcclAllReduceMultipleWithRetry_awaits (floats 2 2) (List.replicate 20 healthy)
    ⟨.success, by decide⟩).mpr (by decide)

theorem rejected_launch_abandons :
    (pcclAllReduceMultipleWithRetry (floats 2 2)
        [healthy, healthy, { healthy with launch := .invalidArgument }]).pc =
        .returned .invalidArgument ∧
      ¬ AllAwaited (pcclAllReduceMultipleWithRetry (floats 2 2)
        [healthy, healthy, { healthy with launch := .invalidArgument }]).log := by
  refine ⟨by decide, fun all => ?_⟩
  have first := all 0
  revert first
  decide

end Awaited

end Pccl.Client
