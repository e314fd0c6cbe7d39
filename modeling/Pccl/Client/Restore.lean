import Pccl.Client.AllReduceTask
import Pccl.Ring.AllReduce

set_option autoImplicit false

namespace Pccl.Client

open Buffer Packet Pccl.Ring

section Rank

variable (cfg : Config) (plan : Config.Plan) (call : Call)

def Restored (state : RankState) : Prop :=
  ∀ success abortReceived, state.outcome = .returned success abortReceived →
    (success && !abortReceived) = true ∨ (call.inPlace = true → state.dst = call.source)

variable {cfg plan call}

theorem Restored.of_ending {state : RankState} {abort : Bool} (ending : Ending call abort state) :
    Restored call state := by
  intro success abortReceived returned
  cases ending with
  | running outcome => cases outcome.symm.trans returned
  | terminated outcome => cases outcome.symm.trans returned
  | finished outcome =>
    cases outcome.symm.trans returned
    exact .inl rfl
  | broken before gaveUp => exact .inr fun inPlace => by simp [gaveUp, RankState.giveUp, inPlace]
  | aborted before gaveUp _ => exact .inr fun inPlace => by simp [gaveUp, RankState.giveUp, inPlace]

end Rank

section Samples

def pairLaunch : Launch where
  cfg := ⟨2, 2, .int16, .int16, .none, .sum, 7, constantKernel .int16 .int16⟩
  ringOrder := [11, 12]
  uuid := 11
  inPlace := true
  sendbuff := [1, 0, 2, 0]
  recvbuff := [1, 0, 2, 0]
  chunkSize := 64
  world := rfl
  aliased _ := rfl

def exchangePair (inbox : List (List Byte)) : TaskEvent := .exchanged ⟨1, true, false⟩ inbox

def pairReduced : List TaskEvent :=
  [.sent true, .received (some (.collectiveCommsCommence 7 1)),
    exchangePair [], exchangePair [[20, 0]], exchangePair [],
    exchangePair [], exchangePair [[11, 0]], exchangePair [], .sent true]

def pairBroken : List TaskEvent :=
  [.sent true, .received (some (.collectiveCommsCommence 7 1)),
    exchangePair [], exchangePair [[20, 0]], exchangePair [],
    .exchanged ⟨0, false, false⟩ [], .sent true,
    .received (some (.collectiveCommsAbort 7 true)), .received (some (.collectiveCommsComplete 7))]

end Samples

section Task

variable (launch : Launch)

def FailsVerdict (tag : Tag) (pc : TaskPc) (event : TaskEvent) : Prop :=
  match pc, event with
  | .complete, .sent delivered => delivered = false
  | .awaitAbort, .received none => True
  | .awaitAbort, .received (some packet) => packet = .collectiveCommsAbort tag true
  | .awaitComplete, .received packet => packet = none
  | _, _ => False

instance (tag : Tag) (pc : TaskPc) (event : TaskEvent) : Decidable (FailsVerdict tag pc event) := by
  unfold FailsVerdict
  split <;> infer_instance

/-- The ring has reduced the caller's buffer in place when the operation fails after all. -/
def LateFailure (event : TaskEvent) (task : Task) : Prop :=
  launch.inPlace = true ∧ task.success = true ∧ FailsVerdict launch.cfg.tag task.pc event

instance (event : TaskEvent) (task : Task) : Decidable (LateFailure launch event task) :=
  inferInstanceAs (Decidable (_ ∧ _ ∧ _))

/-- The buffer of an operation in place, by how far the task has come. -/
def Intact (task : Task) : Prop :=
  match task.pc with
  | .initiate | .awaitCommence => task.promise = none ∧ task.recvbuff = launch.sendbuff
  | .ring _ rank => task.promise = none ∧ rank.outcome = .running
  | .complete | .awaitAbort | .awaitComplete =>
    task.promise = none ∧
      ((task.success && !task.aborted) = false → task.recvbuff = launch.sendbuff)
  | .finished => task.promise = some false → task.recvbuff = launch.sendbuff
  | .terminated => task.promise = none

variable {launch} (inPlace : launch.inPlace = true)

theorem intact_reported (task : Task) (intact : Intact launch task)
    (failed : task.promise = some false) : task.recvbuff = launch.sendbuff := by
  unfold Intact at intact
  cases phase : task.pc <;> simp_all

theorem intact_setPromise (success : Bool) (task : Task)
    (kept : success = false → task.recvbuff = launch.sendbuff) :
    Intact launch (setPromise success task) := by
  intro failed
  exact kept (Option.some.inj failed)

theorem intact_reduceReturned (success abortReceived : Bool) (task : Task)
    (pending : task.promise = none)
    (kept : (success && !abortReceived) = true ∨ task.recvbuff = launch.sendbuff) :
    Intact launch (reduceReturned success abortReceived task) := by
  refine ⟨pending, ?_⟩
  intro failed
  rcases kept with done | kept
  · cases success <;> cases abortReceived <;> simp_all [reduceReturned]
  · exact kept

include inPlace

theorem intact_afterExchange (position : Nat) (rank : RankState) (task : Task)
    (pending : task.promise = none) (restored : Restored (launch.call position) rank) :
    Intact launch (afterExchange position rank task) := by
  unfold afterExchange
  simp only
  split
  · exact ⟨pending, by assumption⟩
  next success abortReceived returned =>
    refine intact_reduceReturned _ _ { task with recvbuff := rank.dst } pending ?_
    rcases restored success abortReceived returned with done | kept
    · exact .inl done
    · exact .inr (kept inPlace)
  · exact pending

theorem intact_commenced (task : Task) (pending : task.promise = none)
    (kept : task.recvbuff = launch.sendbuff) : Intact launch (commenced launch task) := by
  unfold commenced
  split
  · exact intact_reduceReturned _ _ _ pending (.inr kept)
  · split
    · exact intact_reduceReturned _ _ _ pending (.inr kept)
    · exact intact_afterExchange inPlace _ _ _ pending (.of_ending (@Ending.startRank _ _ true))

omit inPlace in
theorem intact_pending (task : Task) (pc : TaskPc) (kept : (task.success && !task.aborted) = false →
    task.recvbuff = launch.sendbuff) (pending : task.promise = none)
    (phase : pc = .complete ∨ pc = .awaitAbort ∨ pc = .awaitComplete) :
    Intact launch { task with pc } := by
  rcases phase with rfl | rfl | rfl <;> exact ⟨pending, kept⟩

theorem kept_of_timely (event : TaskEvent) (task : Task)
    (kept : (task.success && !task.aborted) = false → task.recvbuff = launch.sendbuff)
    (timely : ¬ LateFailure launch event task)
    (fails : FailsVerdict launch.cfg.tag task.pc event) : task.recvbuff = launch.sendbuff := by
  apply kept
  cases success : task.success with
  | false => rfl
  | true => exact absurd ⟨inPlace, success, fails⟩ timely

theorem intact_stepComplete (event : TaskEvent) (task : Task) (phase : task.pc = .complete)
    (intact : Intact launch task) (timely : ¬ LateFailure launch event task) :
    Intact launch (stepComplete event task) := by
  have known := intact
  rw [Intact, phase] at known
  unfold stepComplete
  split
  · apply intact_pending _ _ known.2 known.1
    split_ifs <;> simp
  · exact intact_setPromise _ _ fun _ =>
      kept_of_timely inPlace _ _ known.2 timely (by rw [phase]; rfl)
  · exact intact

theorem intact_stepAbort (event : TaskEvent) (task : Task) (phase : task.pc = .awaitAbort)
    (intact : Intact launch task) (timely : ¬ LateFailure launch event task) :
    Intact launch (stepAbort launch event task) := by
  have known := intact
  rw [Intact, phase] at known
  unfold stepAbort
  split
  · exact intact_setPromise _ _ fun _ =>
      kept_of_timely inPlace _ _ known.2 timely (by rw [phase]; trivial)
  next tag aborted =>
    split
    next same =>
      refine ⟨known.1, ?_⟩
      intro failed
      cases aborted with
      | false => exact known.2 (by simp_all)
      | true => exact kept_of_timely inPlace _ task known.2 timely (by rw [phase, same]; rfl)
    · exact intact
  · exact intact

theorem intact_stepVerdict (event : TaskEvent) (task : Task) (phase : task.pc = .awaitComplete)
    (intact : Intact launch task) (timely : ¬ LateFailure launch event task) :
    Intact launch (stepVerdict launch event task) := by
  have known := intact
  rw [Intact, phase] at known
  unfold stepVerdict
  split
  · exact intact_setPromise _ _ fun _ =>
      kept_of_timely inPlace _ _ known.2 timely (by rw [phase]; rfl)
  · split
    · exact intact_setPromise _ _ known.2
    · exact intact
  · exact intact

theorem intact_taskStep (event : TaskEvent) (task : Task) (intact : Intact launch task)
    (timely : ¬ LateFailure launch event task) : Intact launch (taskStep launch event task) := by
  have known := intact
  unfold taskStep
  split <;> rename_i phase
  · rw [Intact, phase] at known
    unfold stepInitiate
    split
    · exact known
    · exact intact_reduceReturned _ _ _ known.1 (.inr known.2)
    · exact intact
  · rw [Intact, phase] at known
    unfold stepCommence
    split
    · exact intact_reduceReturned _ _ _ known.1 (.inr known.2)
    · split
      · exact intact_commenced inPlace _ known.1 known.2
      · exact intact
    · exact intact
  · rw [Intact, phase] at known
    unfold stepExchange
    split
    · exact intact_afterExchange inPlace _ _ _ known.1 (.of_ending (.stepRank _ _ known.2))
    · exact intact
  · exact intact_stepComplete inPlace event task phase intact timely
  · exact intact_stepAbort inPlace event task phase intact timely
  · exact intact_stepVerdict inPlace event task phase intact timely
  · exact intact
  · exact intact

end Task

section Runs

variable (launch : Launch)

theorem taskStep_after_ring (event : TaskEvent) (task : Task)
    (phase : task.pc ∈ [TaskPc.complete, .awaitAbort, .awaitComplete, .finished]) :
    (taskStep launch event task).pc ∈ [TaskPc.complete, .awaitAbort, .awaitComplete, .finished] ∧
      (taskStep launch event task).recvbuff = task.recvbuff := by
  unfold taskStep
  split <;> rename_i known <;> simp only [known, List.mem_cons, reduceCtorEq, or_self, or_false,
    List.not_mem_nil] at phase
  · unfold stepComplete
    split
    · split_ifs <;> simp
    · simp [setPromise]
    · simp [known]
  · unfold stepAbort
    split
    · simp [setPromise]
    · split_ifs <;> simp [known]
    · simp [known]
  · unfold stepVerdict
    split
    · simp [setPromise]
    · split_ifs <;> simp [setPromise, known]
    · simp [known]
  · simp [known]

theorem run_after_ring (events : List TaskEvent) (task : Task)
    (phase : task.pc ∈ [TaskPc.complete, .awaitAbort, .awaitComplete, .finished]) :
    (Machine.run (taskStep launch) events task).recvbuff = task.recvbuff := by
  induction events generalizing task with
  | nil => rfl
  | cons event events ih =>
    obtain ⟨next, same⟩ := taskStep_after_ring launch event task phase
    exact (ih _ next).trans same

theorem allReduceAsync_keeps_sendbuff (events : List TaskEvent)
    (timely : Machine.Always (taskStep launch) (fun event task => ¬ LateFailure launch event task)
      events launch.start)
    (failed : (runTask launch events).promise = some false) :
    launch.sendbuffAt (runTask launch events) = launch.sendbuff := by
  unfold Launch.sendbuffAt
  split
  next inPlace =>
    have start : Intact launch launch.start := ⟨rfl, launch.aliased inPlace⟩
    exact intact_reported _
      (Machine.run_preserves (intact_taskStep inPlace) events _ start timely) failed
  · rfl

theorem pairBroken_keeps_sendbuff :
    pairLaunch.sendbuffAt (runTask pairLaunch pairBroken) = [1, 0, 2, 0] :=
  allReduceAsync_keeps_sendbuff pairLaunch pairBroken (by decide +kernel) (by decide +kernel)

theorem pairReduced_loses_sendbuff :
    let events := pairReduced ++ [.received (some (.collectiveCommsAbort 7 true)),
      .received (some (.collectiveCommsComplete 7))]
    (runTask pairLaunch events).promise = some false ∧
      pairLaunch.sendbuffAt (runTask pairLaunch events) = [11, 0, 22, 0] ∧
      pairLaunch.sendbuff = [1, 0, 2, 0] := by
  decide +kernel

end Runs

end Pccl.Client
