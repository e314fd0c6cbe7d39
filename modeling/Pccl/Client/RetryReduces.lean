import Pccl.Client.RetryAwaits

set_option autoImplicit false

namespace Pccl.Client

open RetryState

section Log

/-- One operation for the index was awaited with success and none was launched afterwards. -/
def Reduced (log : List RetryEvent) (index : Nat) : Prop :=
  ∃ before after, log = before ++ .awaited index true :: after ∧
    .awaited index true ∉ before ∧ .awaited index true ∉ after ∧ .launched index ∉ after

theorem reduced_append (log : List RetryEvent) (index : Nat) (event : RetryEvent)
    (reduced : Reduced log index) (other : event ≠ .awaited index true)
    (quiet : event ≠ .launched index) : Reduced (log ++ [event]) index := by
  obtain ⟨before, after, split, first, last, still⟩ := reduced
  refine ⟨before, after ++ [event], by simp [split], first, ?_, ?_⟩
  · simp [last, Ne.symm other]
  · simp [still, Ne.symm quiet]

theorem reduced_await (log : List RetryEvent) (index : Nat) (new : .awaited index true ∉ log) :
    Reduced (log ++ [.awaited index true]) index :=
  ⟨log, [], rfl, new, by simp, by simp⟩

theorem awaited_of_reduced (log : List RetryEvent) (index : Nat) (reduced : Reduced log index) :
    .awaited index true ∈ log := by
  obtain ⟨before, after, split, _⟩ := reduced
  simp [split]

def Records (completed : Finset Nat) (log : List RetryEvent) : Prop :=
  ∀ index, if index ∈ completed then Reduced log index else .awaited index true ∉ log

theorem records_launch (completed : Finset Nat) (log : List RetryEvent) (index : Nat)
    (records : Records completed log) (unfinished : index ∉ completed) :
    Records completed (log ++ [.launched index]) := by
  intro other
  have known := records other
  split at known
  next done =>
    rw [if_pos done]
    refine reduced_append _ _ _ known (by simp) ?_
    rintro ⟨rfl⟩
    exact unfinished done
  next not =>
    rw [if_neg not]
    simpa using known

theorem records_await (completed : Finset Nat) (log : List RetryEvent) (index : Nat) (success : Bool)
    (records : Records completed log) (unfinished : index ∉ completed) :
    Records (if success then insert index completed else completed)
      (log ++ [.awaited index success]) := by
  intro other
  have known := records other
  by_cases same : other = index
  · subst same
    rw [if_neg unfinished] at known
    cases success with
    | true => simpa using reduced_await log other known
    | false => simpa [unfinished] using known
  · have member : other ∈ (if success then insert index completed else completed) ↔
        other ∈ completed := by cases success <;> simp [same]
    simp only [member]
    split at known
    next done =>
      rw [if_pos done]
      exact reduced_append _ _ _ known (by simp [Ne.symm same]) (by simp)
    next not =>
      rw [if_neg not]
      simp [known, same]

def RetryPc.recorded : RetryPc → Bool
  | .finalize _ => false
  | .returned result => result = .success
  | _ => true

def Recorded (state : RetryState) : Prop :=
  state.pc.recorded = true → Records state.completed state.log

variable {request : RetryRequest} {state : RetryState} (shape : Shape request state)
  (recorded : Recorded state) (answers : Answers)

include shape recorded

theorem recorded_settle (index : Nat) (pc : state.pc = .settle index) :
    Recorded (state.stepSettle request answers index) := by
  have placed := shape.placed
  rw [Placed, pc] at placed
  have unfinished := shape.not_completed index placed.1
  have records := recorded (by rw [pc]; rfl)
  unfold RetryState.stepSettle
  split
  · exact fun _ => records
  · split
    next lost =>
      intro success
      simp [RetryState.exit, RetryPc.recorded] at success
      exact absurd success lost
    · split
      next failed =>
        intro _
        have awaited := records_await _ _ index (answers.await = .success) records unfinished
        rwa [if_neg (by simpa using failed)] at awaited
      next succeeded =>
        intro _
        have awaited := records_await _ _ index (answers.await = .success) records unfinished
        rwa [if_pos (by simpa using succeeded)] at awaited

theorem recorded_drain (failed index : Nat) (pc : state.pc = .drain failed index) :
    Recorded (state.stepDrain request answers failed index) := by
  have records := recorded (by rw [pc]; rfl)
  unfold RetryState.stepDrain
  split
  · split
    next found =>
      intro _
      have awaited := records_await _ _ index (answers.await = .success) records
        (shape.not_completed index found.2)
      simp only [decide_eq_true_eq] at awaited
      exact awaited
    · exact fun _ => records
  · exact fun _ => records

omit shape in
theorem recorded_scan (index : Nat) (pc : state.pc = .scan index) :
    Recorded (state.stepScan request answers index) := by
  have records := recorded (by rw [pc]; rfl)
  unfold RetryState.stepScan
  split
  · split
    · exact fun _ => records
    · split
      · exact fun _ => records
      next free =>
        split
        · exact fun _ => records
        · split
          · exact fun _ => records
          · exact fun _ => records_launch _ _ _ records fun done => free (.inl done)
  · split
    · exact fun _ => records
    · exact fun _ => records

theorem recorded_upFront (index : Nat) (pc : state.pc = .upFront index) :
    Recorded (state.stepUpFront request answers index) := by
  have placed := shape.placed
  rw [Placed, pc] at placed
  have records := recorded (by rw [pc]; rfl)
  have unfinished : index ∉ state.completed := by
    rw [placed.2.1]
    exact Finset.notMem_empty index
  unfold RetryState.stepUpFront
  split
  · split
    · exact fun _ => records
    · exact fun _ => records_launch _ _ _ records unfinished
  · exact fun _ => records

theorem recorded_step : Recorded (state.step request answers) := by
  cases pc : state.pc with
  | upFront index =>
    simpa only [RetryState.step, pc] using recorded_upFront shape recorded answers index pc
  | scan index =>
    simpa only [RetryState.step, pc] using recorded_scan recorded answers index pc
  | settle index =>
    simpa only [RetryState.step, pc] using recorded_settle shape recorded answers index pc
  | drain failed index =>
    simpa only [RetryState.step, pc] using recorded_drain shape recorded answers failed index pc
  | begin =>
    have records := recorded (by rw [pc]; rfl)
    simp only [RetryState.step, pc, RetryState.stepBegin]
    split_ifs <;> exact fun _ => records
  | test =>
    have records := recorded (by rw [pc]; rfl)
    simp only [RetryState.step, pc, RetryState.stepTest]
    split_ifs <;> exact fun _ => records
  | leave =>
    have records := recorded (by rw [pc]; rfl)
    simp only [RetryState.step, pc, RetryState.stepLeave]
    split_ifs <;> exact fun _ => records
  | finalize index =>
    simp only [RetryState.step, pc, RetryState.stepFinalize]
    split_ifs <;> intro impossible <;> simp [RetryPc.recorded, RetryState.exit] at impossible
  | returned result => simpa only [RetryState.step, pc] using recorded

end Log

section Order

variable (request : RetryRequest)

def Ordered (state : RetryState) : Prop :=
  ∀ handle ∈ state.handles, ∀ index, index < handle →
    index ∈ state.handles ∨ index ∈ state.completed

/-- How far the pass has come. An index it has skipped was skipped for want of a slot. -/
def Advanced (state : RetryState) : Prop :=
  match state.pc with
  | .scan index => Ordered state ∧
      (∀ earlier, earlier < index → earlier < request.count → earlier ∉ state.handles →
        earlier ∉ state.completed → request.maxInFlight ≤ state.inFlight) ∧
      (state.allDone = true → ∀ earlier, earlier < index → earlier < request.count →
        earlier ∈ state.completed) ∧
      (state.allDone = false → ∃ earlier, earlier < index ∧ earlier ∈ state.handles)
  | .settle index => Ordered state ∧
      (state.allDone = true → ∀ earlier, earlier < index → earlier ∈ state.completed) ∧
      (state.allDone = false → ∃ earlier, earlier < index ∧ earlier ∈ state.handles)
  | .test => Ordered state ∧
      (1 < state.worldSize ∨ ∃ index, index < request.count ∧ index ∉ state.completed)
  | .leave => (∀ index, index < request.count → index ∈ state.completed) ∨ state.worldSize = 1
  | .returned result => result = .success →
      ∀ index, index < request.count → index ∈ state.completed
  | .begin | .upFront _ | .drain _ _ | .finalize _ => True

/-- The slots that no handle accounts for do not use up the limit. -/
structure Continues (state : RetryState) : Prop where
  fresh : state.inFlight < state.handles.card + request.maxInFlight
  advanced : Advanced request state

structure Sound (state : RetryState) : Prop where
  shape : Shape request state
  recorded : Recorded state
  continues : Continues request state

/-- An operation fails when every other slot is already lost, or the loop is left for a world size
below one. -/
def LosesLastSlot (answers : Answers) (state : RetryState) : Prop :=
  match state.pc with
  | .settle _ => state.postpones request = false ∧ answers.getAttribute = .success ∧
      answers.await ≠ .success ∧
      state.handles.card + request.maxInFlight ≤ state.inFlight + 1
  | .test => state.worldSize < 1
  | _ => False

instance (answers : Answers) (state : RetryState) :
    Decidable (LosesLastSlot request answers state) := by
  delta LosesLastSlot
  exact match state.pc with
    | .begin | .upFront _ | .test | .scan _ | .settle _ | .drain _ _ | .leave | .finalize _ | .returned _ =>
      inferInstance

variable {request} {answers : Answers} {state : RetryState} (sound : Sound request state)

theorem ordered_empty (handles : state.handles = ∅) : Ordered state := by
  intro handle member
  simp [handles] at member

include sound

theorem Sound.upFront (index : Nat) (pc : state.pc = .upFront index) :
    Continues request (state.stepUpFront request answers index) := by
  have placed := sound.shape.placed
  have fresh := sound.continues.fresh
  rw [Placed, pc] at placed
  obtain ⟨handles, completed, inFlight, bound, world⟩ := placed
  unfold RetryState.stepUpFront
  split
  next room =>
    split
    next rejected => exact ⟨fresh, fun success => absurd success rejected⟩
    · refine ⟨?_, trivial⟩
      have absent : index ∉ state.handles := by simp [handles]
      change state.inFlight + 1 < (insert index state.handles).card + _
      rw [Finset.card_insert_of_notMem absent]
      omega
  · refine ⟨fresh, ⟨?_, .inl world⟩⟩
    intro handle member earlier before
    refine .inl ?_
    simp only [handles, Finset.mem_range] at member ⊢
    omega

theorem Sound.skipped_done (index : Nat) (pc : state.pc = .scan index) (absent : index ∉ state.handles)
    (full : request.maxInFlight ≤ state.inFlight) (done : state.allDone = true) :
    index ∈ state.completed := by
  have fresh := sound.continues.fresh
  have ahead := sound.shape.placed
  have advanced := sound.continues.advanced
  rw [Placed, pc] at ahead
  rw [Advanced, pc] at advanced
  have some : 0 < state.handles.card := by omega
  obtain ⟨handle, member⟩ := Finset.card_pos.mp some
  have later := ahead done handle member
  have other : handle ≠ index := fun same => absent (same ▸ member)
  rcases advanced.1 handle member index (by omega) with present | completed
  · exact absurd present absent
  · exact completed

theorem Sound.scan (index : Nat) (pc : state.pc = .scan index) :
    Continues request (state.stepScan request answers index) := by
  have fresh := sound.continues.fresh
  have advanced := sound.continues.advanced
  rw [Advanced, pc] at advanced
  obtain ⟨ordered, blocked, done, notDone⟩ := advanced
  unfold RetryState.stepScan
  split
  next inside =>
    split
    next present =>
      exact ⟨fresh, ordered, fun all earlier before => done all earlier before (by omega), notDone⟩
    next absent =>
      split
      next skipped =>
        refine ⟨fresh, ordered, ?_, ?_, ?_⟩
        · intro earlier before bound gone unfinished
          rcases Nat.lt_succ_iff_lt_or_eq.mp before with before | rfl
          · exact blocked earlier before bound gone unfinished
          · exact skipped.resolve_left unfinished
        · intro all earlier before bound
          rcases Nat.lt_succ_iff_lt_or_eq.mp before with before | rfl
          · exact done all earlier before bound
          · rcases skipped with completed | full
            · exact completed
            · exact sound.skipped_done earlier pc absent full all
        · intro some
          obtain ⟨earlier, before, member⟩ := notDone some
          exact ⟨earlier, by omega, member⟩
      next free =>
        rw [not_or, Nat.not_le] at free
        split
        · exact ⟨fresh, fun success => by cases success⟩
        · split
          next rejected => exact ⟨fresh, fun success => absurd success rejected⟩
          · refine ⟨?_, ?_, fun all earlier before => done all earlier before (by omega), ?_⟩
            · change state.inFlight + 1 < (insert index state.handles).card + _
              rw [Finset.card_insert_of_notMem absent]
              omega
            · intro handle member earlier before
              change earlier ∈ insert index state.handles ∨ earlier ∈ state.completed
              rw [Finset.mem_insert]
              rcases Finset.mem_insert.mp member with rfl | member
              · by_contra missing
                have full := blocked earlier before (by omega) (by tauto) (by tauto)
                omega
              · rcases ordered handle member earlier before with present | completed
                · exact .inl (.inr present)
                · exact .inr completed
            · intro some
              obtain ⟨earlier, before, member⟩ := notDone some
              exact ⟨earlier, before, Finset.mem_insert_of_mem member⟩
  next outside =>
    split
    next all => exact ⟨fresh, .inl fun earlier bound => done all earlier (by omega) bound⟩
    next open' =>
      obtain ⟨earlier, _, member⟩ := notDone (by simpa using open')
      exact ⟨fresh, ordered, .inr ⟨earlier, sound.shape.inside earlier member,
        sound.shape.not_completed earlier member⟩⟩

theorem Sound.settle_succeeds (index : Nat) (pc : state.pc = .settle index) (next : RetryState)
    (handles : next.handles = state.handles.erase index)
    (completed : next.completed = insert index state.completed)
    (inFlight : next.inFlight = state.inFlight - 1) (allDone : next.allDone = state.allDone)
    (place : next.pc = .scan (index + 1)) : Continues request next := by
  have fresh := sound.continues.fresh
  have counted := sound.shape.counted
  have placed := sound.shape.placed
  have advanced := sound.continues.advanced
  rw [Placed, pc] at placed
  rw [Advanced, pc] at advanced
  obtain ⟨ordered, done, notDone⟩ := advanced
  have card := Finset.card_erase_add_one placed.1
  have known (earlier : Nat) (launched : earlier ∈ state.handles ∨ earlier ∈ state.completed) :
      earlier ∈ next.handles ∨ earlier ∈ next.completed := by
    rw [handles, completed, Finset.mem_erase, Finset.mem_insert]
    tauto
  refine ⟨by rw [handles, inFlight]; omega, ?_⟩
  rw [Advanced, place]
  refine ⟨?_, ?_, ?_, ?_⟩
  · intro handle member earlier before
    rw [handles] at member
    exact known earlier (ordered handle (Finset.mem_of_mem_erase member) earlier before)
  · intro earlier before _ gone unfinished
    rcases Nat.lt_succ_iff_lt_or_eq.mp before with before | rfl
    · rcases known earlier (ordered index placed.1 earlier before) with present | finished
      · exact absurd present gone
      · exact absurd finished unfinished
    · exact absurd (by simp [completed]) unfinished
  · intro all earlier before _
    rw [completed, Finset.mem_insert]
    rcases Nat.lt_succ_iff_lt_or_eq.mp before with before | rfl
    · exact .inr (done (allDone ▸ all) earlier before)
    · exact .inl rfl
  · intro some
    obtain ⟨earlier, before, member⟩ := notDone (allDone ▸ some)
    rw [handles]
    exact ⟨earlier, by omega, Finset.mem_erase.mpr ⟨by omega, member⟩⟩

theorem Sound.settle (index : Nat) (pc : state.pc = .settle index)
    (fine : ¬ LosesLastSlot request answers state) :
    Continues request (state.stepSettle request answers index) := by
  have fresh := sound.continues.fresh
  have placed := sound.shape.placed
  have advanced := sound.continues.advanced
  rw [Placed, pc] at placed
  rw [Advanced, pc] at advanced
  obtain ⟨ordered, done, notDone⟩ := advanced
  rw [LosesLastSlot, pc] at fine
  unfold RetryState.stepSettle
  split
  · refine ⟨fresh, ordered, ?_, fun all => by simp at all, fun _ => ⟨index, by omega, placed.1⟩⟩
    intro earlier before _ gone unfinished
    rcases Nat.lt_succ_iff_lt_or_eq.mp before with before | rfl
    · rcases ordered index placed.1 earlier before with present | finished
      · exact absurd present gone
      · exact absurd finished unfinished
    · exact absurd placed.1 gone
  next waits =>
    split
    next lost => exact ⟨fresh, fun success => absurd success lost⟩
    next known =>
      split
      next failed =>
        have card := Finset.card_erase_add_one placed.1
        have slots : ¬ state.handles.card + request.maxInFlight ≤ state.inFlight + 1 := fun last =>
          fine ⟨by simpa using waits, by simpa using known, failed, last⟩
        refine ⟨?_, trivial⟩
        change state.inFlight < (state.handles.erase index).card + _
        omega
      · exact sound.settle_succeeds index pc _ rfl rfl rfl rfl rfl

theorem Sound.drain (failed index : Nat) (pc : state.pc = .drain failed index) :
    Continues request (state.stepDrain request answers failed index) := by
  have fresh := sound.continues.fresh
  have counted := sound.shape.counted
  have placed := sound.shape.placed
  rw [Placed, pc] at placed
  obtain ⟨inside, absent, unfinished, ahead⟩ := placed
  unfold RetryState.stepDrain
  split
  · split
    next found =>
      have card := Finset.card_erase_add_one found.2
      refine ⟨?_, trivial⟩
      change state.inFlight - 1 < (state.handles.erase index).card + _
      omega
    · exact ⟨fresh, trivial⟩
  next outside =>
    have none : state.handles = ∅ := by
      apply Finset.eq_empty_of_forall_notMem
      intro handle member
      have later := ahead handle member
      have bound := sound.shape.inside handle member
      omega
    exact ⟨fresh, ordered_empty none, .inr ⟨failed, inside, unfinished⟩⟩

theorem Sound.step (fine : ¬ LosesLastSlot request answers state) :
    Sound request (state.step request answers) := by
  refine ⟨sound.shape.step answers, recorded_step sound.shape sound.recorded answers, ?_⟩
  have fresh := sound.continues.fresh
  have advanced := sound.continues.advanced
  cases pc : state.pc with
  | upFront index => simpa only [RetryState.step, pc] using sound.upFront index pc
  | scan index => simpa only [RetryState.step, pc] using sound.scan index pc
  | settle index => simpa only [RetryState.step, pc] using sound.settle index pc fine
  | drain failed index => simpa only [RetryState.step, pc] using sound.drain failed index pc
  | begin =>
    simp only [RetryState.step, pc, RetryState.stepBegin]
    split_ifs
    · exact ⟨fresh, fun success => by cases success⟩
    · exact ⟨fresh, fun success => by cases success⟩
    · exact ⟨fresh, fun success => by cases success⟩
    · exact ⟨fresh, trivial⟩
  | test =>
    rw [Advanced, pc] at advanced
    rw [LosesLastSlot, pc] at fine
    simp only [RetryState.step, pc, RetryState.stepTest]
    split_ifs with several
    · exact ⟨fresh, advanced.1, fun _ before => absurd before (Nat.not_lt_zero _),
        fun _ _ before => absurd before (Nat.not_lt_zero _), fun none => by simp at none⟩
    · refine ⟨fresh, .inr ?_⟩
      change state.worldSize = 1
      omega
  | leave =>
    rw [Advanced, pc] at advanced
    simp only [RetryState.step, pc, RetryState.stepLeave]
    split_ifs with alone
    · exact ⟨fresh, trivial⟩
    · exact ⟨fresh, fun _ => advanced.resolve_right alone⟩
  | finalize index =>
    simp only [RetryState.step, pc, RetryState.stepFinalize]
    split_ifs
    · exact ⟨fresh, trivial⟩
    · exact ⟨fresh, trivial⟩
    · exact ⟨fresh, fun success => by cases success⟩
  | returned result => simpa only [RetryState.step, pc] using sound.continues

end Order

section Starvation

variable (request : RetryRequest)

/-- The counter says that every slot is taken although the operation that failed has no handle: it
is not launched again, and the next pass takes the call for finished. -/
structure Starved (failed : Nat) (state : RetryState) : Prop where
  inside : failed < request.count
  never : .awaited failed true ∉ state.log
  slots : state.handles.card + request.maxInFlight ≤ state.inFlight
  place : match state.pc with
    | .drain current index => current = failed ∧ failed ∉ state.handles ∧
        ∀ handle ∈ state.handles, index ≤ handle ∧ handle < request.count
    | .test | .scan _ | .leave | .finalize _ => state.handles = ∅
    | .returned _ => True
    | .begin | .upFront _ | .settle _ => False

structure Dropped (state : RetryState) : Prop where
  world : state.worldSize < 1
  unfinished : ∃ index, index < request.count ∧ .awaited index true ∉ state.log
  place : state.pc = .leave ∨ state.pc = .returned .success

def Unreduced (state : RetryState) : Prop :=
  (∃ failed, Starved request failed state) ∨ Dropped request state

variable {request} {state : RetryState}

theorem Unreduced.not_reduced (unreduced : Unreduced request state) :
    ¬ ∀ index, index < request.count → Reduced state.log index := by
  intro reduced
  rcases unreduced with ⟨failed, starved⟩ | dropped
  · exact starved.never (awaited_of_reduced _ _ (reduced failed starved.inside))
  · obtain ⟨index, inside, never⟩ := dropped.unfinished
    exact never (awaited_of_reduced _ _ (reduced index inside))

theorem Starved.drain {failed : Nat} (starved : Starved request failed state) (answers : Answers)
    (current index : Nat) (pc : state.pc = .drain current index) :
    Starved request failed (state.stepDrain request answers current index) := by
  have slots := starved.slots
  have place := starved.place
  rw [pc] at place
  obtain ⟨rfl, absent, ahead⟩ := place
  unfold RetryState.stepDrain
  split
  · split
    next found =>
      have card := Finset.card_erase_add_one found.2
      refine ⟨starved.inside, ?_, ?_, rfl, fun member => absent (Finset.mem_of_mem_erase member), ?_⟩
      · simpa [RetryState.logAwait, starved.never] using fun same => absurd same.symm found.1
      · change (state.handles.erase index).card + _ ≤ state.inFlight - 1
        omega
      · intro handle member
        have later := ahead handle (Finset.mem_of_mem_erase member)
        have other := Finset.ne_of_mem_erase member
        exact ⟨by omega, later.2⟩
    next skipped =>
      refine ⟨starved.inside, starved.never, slots, rfl, absent, ?_⟩
      intro handle member
      have later := ahead handle member
      have other : handle ≠ index := by
        rintro rfl
        exact skipped ⟨fun same => absent (same ▸ member), member⟩
      exact ⟨by omega, later.2⟩
  next outside =>
    refine ⟨starved.inside, starved.never, slots, ?_⟩
    apply Finset.eq_empty_of_forall_notMem
    intro handle member
    have later := ahead handle member
    omega

theorem Starved.step {failed : Nat} (starved : Starved request failed state) (answers : Answers) :
    Starved request failed (state.step request answers) := by
  have ⟨inside, never, slots, place⟩ := starved
  cases pc : state.pc with
  | drain current index =>
    simpa only [RetryState.step, pc] using starved.drain answers current index pc
  | test =>
    rw [pc] at place
    simp only [RetryState.step, pc, RetryState.stepTest]
    split_ifs <;> exact ⟨inside, never, slots, place⟩
  | scan index =>
    rw [pc] at place
    have full : index ∈ state.completed ∨ request.maxInFlight ≤ state.inFlight := .inr (by omega)
    have absent : index ∉ state.handles := by simp [place]
    simp only [RetryState.step, pc, RetryState.stepScan, absent, if_false, full, if_true]
    split_ifs <;> exact ⟨inside, never, slots, place⟩
  | leave =>
    rw [pc] at place
    simp only [RetryState.step, pc, RetryState.stepLeave]
    split_ifs
    · exact ⟨inside, never, slots, place⟩
    · exact ⟨inside, never, slots, trivial⟩
  | finalize index =>
    rw [pc] at place
    have absent : index ∉ state.handles := by simp [place]
    simp only [RetryState.step, pc, RetryState.stepFinalize, absent, if_false]
    split_ifs
    · exact ⟨inside, never, slots, place⟩
    · exact ⟨inside, never, slots, trivial⟩
  | returned result => simpa only [RetryState.step, pc] using starved
  | begin | upFront _ | settle _ =>
    rw [pc] at place
    exact place.elim

theorem Dropped.step (dropped : Dropped request state) (answers : Answers) :
    Dropped request (state.step request answers) := by
  have ⟨world, unfinished, place⟩ := dropped
  rcases place with pc | pc
  · have several : state.worldSize ≠ 1 := by omega
    simp only [RetryState.step, pc, RetryState.stepLeave, several, if_false]
    exact ⟨world, unfinished, .inr rfl⟩
  · simpa only [RetryState.step, pc] using dropped

theorem Unreduced.step (unreduced : Unreduced request state) (answers : Answers) :
    Unreduced request (state.step request answers) := by
  rcases unreduced with ⟨failed, starved⟩ | dropped
  · exact .inl ⟨failed, starved.step answers⟩
  · exact .inr (dropped.step answers)

theorem Sound.unreduced (sound : Sound request state) (answers : Answers)
    (loses : LosesLastSlot request answers state) :
    Unreduced request (state.step request answers) := by
  cases pc : state.pc with
  | settle index =>
    have placed := sound.shape.placed
    rw [Placed, pc] at placed
    rw [LosesLastSlot, pc] at loses
    obtain ⟨waits, known, failed, last⟩ := loses
    have card := Finset.card_erase_add_one placed.1
    have records := sound.recorded (by rw [pc]; rfl) index
    rw [if_neg (sound.shape.not_completed index placed.1)] at records
    refine .inl ⟨index, ?_⟩
    rw [RetryState.step, pc]
    change Starved request index (state.stepSettle request answers index)
    rw [RetryState.stepSettle, if_neg (by simp [waits]), if_neg (by simp [known]), if_pos failed]
    refine ⟨sound.shape.inside index placed.1, ?_, ?_, rfl, by simp, ?_⟩
    · simpa [RetryState.logAwait, failed] using records
    · change (state.handles.erase index).card + _ ≤ state.inFlight
      omega
    · intro handle member
      exact ⟨Nat.zero_le _, sound.shape.inside handle (Finset.mem_of_mem_erase member)⟩
  | test =>
    have advanced := sound.continues.advanced
    rw [Advanced, pc] at advanced
    rw [LosesLastSlot, pc] at loses
    have few : ¬ 1 < state.worldSize := by omega
    obtain ⟨index, inside, unfinished⟩ := advanced.2.resolve_left few
    have records := sound.recorded (by rw [pc]; rfl) index
    rw [if_neg unfinished] at records
    refine .inr ?_
    simp only [RetryState.step, pc, RetryState.stepTest, few, if_false]
    exact ⟨loses, ⟨index, inside, records⟩, .inl rfl⟩
  | begin | upFront _ | scan _ | drain _ _ | leave | finalize _ | returned _ =>
    rw [LosesLastSlot, pc] at loses
    exact loses.elim

end Starvation

section Reduces

variable (request : RetryRequest)

theorem sound_start (positive : 0 < request.maxInFlight) : Sound request RetryState.start where
  shape := (accounted_start request).shape
  recorded := fun _ _ => by simp [RetryState.start]
  continues := ⟨by simpa [RetryState.start] using positive, trivial⟩

theorem pcclAllReduceMultipleWithRetry_reduces (positive : 0 < request.maxInFlight)
    (inputs : List Answers)
    (returned : (pcclAllReduceMultipleWithRetry request inputs).pc = .returned .success) :
    (∀ index, index < request.count →
        Reduced (pcclAllReduceMultipleWithRetry request inputs).log index) ↔
      Machine.Always (RetryState.step request)
        (fun answers state => ¬ LosesLastSlot request answers state) inputs RetryState.start := by
  have keeps (answers : Answers) (state : RetryState) (sound : Sound request state)
      (fine : ¬ LosesLastSlot request answers state) : Sound request (state.step request answers) :=
    sound.step fine
  constructor
  · intro reduced
    by_contra broken
    have unreduced := Machine.run_doomed keeps
      (fun answers state sound loses => sound.unreduced answers (not_not.mp loses))
      (fun answers state unreduced => unreduced.step answers) inputs _
      (sound_start request positive) broken
    exact unreduced.not_reduced reduced
  · intro always index inside
    have sound := Machine.run_preserves keeps inputs _ (sound_start request positive) always
    have advanced := sound.continues.advanced
    have records := sound.recorded
    change Advanced request (pcclAllReduceMultipleWithRetry request inputs) at advanced
    change Recorded (pcclAllReduceMultipleWithRetry request inputs) at records
    rw [Advanced, returned] at advanced
    have known := records (by rw [returned]; rfl) index
    rwa [if_pos (advanced rfl index inside)] at known

theorem pcclAllReduceMultipleWithRetry_reduces_four :
    Reduced (pcclAllReduceMultipleWithRetry (floats 4 2)
      (List.replicate 6 healthy ++ { healthy with await := .rankConnectionLost } ::
        List.replicate 40 healthy)).log 3 :=
  (pcclAllReduceMultipleWithRetry_reduces (floats 4 2) (by decide) _ (by decide +kernel)).mpr
    (by decide +kernel) 3 (by decide)

theorem failure_of_last_slot_skips :
    (pcclAllReduceMultipleWithRetry (floats 1 1)
        (List.replicate 5 healthy ++ { healthy with await := .rankConnectionLost } ::
          List.replicate 6 healthy)).pc = .returned .success ∧
      ¬ Reduced (pcclAllReduceMultipleWithRetry (floats 1 1)
        (List.replicate 5 healthy ++ { healthy with await := .rankConnectionLost } ::
          List.replicate 6 healthy)).log 0 := by
  refine ⟨by decide, fun reduced => ?_⟩
  have awaited := awaited_of_reduced _ _ reduced
  revert awaited
  decide

end Reduces

end Pccl.Client
