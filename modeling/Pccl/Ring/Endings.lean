import Pccl.Ring.Machine

set_option autoImplicit false

namespace Pccl.Ring

open Buffer

section Accepting

variable (cfg : Config)

theorem acceptData_cases (data : List Byte) (state : RankState) (present : data.length ≠ 0) :
    ∃ dst outcome, acceptData cfg data state =
        { state with
          recvBuffer := splice state.recvBuffer state.recvd data
          recvd := state.recvd + data.length
          noEvent := false
          dst
          outcome } ∧
      (outcome = state.outcome ∨ outcome = .terminated) := by
  simp only [acceptData, if_neg present]
  split_ifs
  · split
    · exact ⟨_, _, rfl, .inr rfl⟩
    · exact ⟨_, _, rfl, .inl rfl⟩
  · exact ⟨_, _, rfl, .inr rfl⟩
  · exact ⟨_, _, rfl, .inl rfl⟩

theorem acceptData_outcome (data : List Byte) (state : RankState) :
    (acceptData cfg data state).outcome = state.outcome ∨
      (acceptData cfg data state).outcome = .terminated := by
  by_cases present : data.length = 0
  · rw [List.length_eq_zero_iff.mp present]
    exact .inl rfl
  · obtain ⟨_, _, same, outcome⟩ := acceptData_cases cfg data state present
    rw [same]
    exact outcome

end Accepting

variable {cfg : Config} {plan : Config.Plan} {call : Call} {abort : Bool}

/-- What becomes of a running rank; `abort` says whether the abort packet is waiting. -/
inductive Ending (call : Call) (abort : Bool) (state : RankState) : Prop
  | running (outcome : state.outcome = .running)
  | terminated (outcome : state.outcome = .terminated)
  | finished (outcome : state.outcome = .returned true false)
  | broken (before : RankState) (gaveUp : state = before.giveUp call false false)
  | aborted (before : RankState) (gaveUp : state = before.giveUp call true true) (told : abort = true)

namespace Ending

variable {state : RankState}

theorem terminate (state : RankState) : Ending call abort state.terminate := .terminated rfl

theorem finalize (state : RankState) : Ending call abort (finalize cfg state) := by
  unfold Ring.finalize
  split
  · exact terminate state
  · exact .finished rfl

theorem beginReduceStage (step : Nat) (running : state.outcome = .running) :
    Ending call abort (beginReduceStage cfg plan call step state) := by
  unfold Ring.beginReduceStage enterQuantized
  dsimp only
  split
  · exact terminate state
  split
  · split
    · exact terminate state
    · exact .running running
  · exact .running running

theorem beginAllgatherStage (step : Nat) (running : state.outcome = .running) :
    Ending call abort (beginAllgatherStage cfg plan step state) := by
  unfold Ring.beginAllgatherStage enterOwned enterForwarding
  dsimp only
  split
  · exact terminate state
  split
  · split
    · split
      · exact terminate state
      split
      · exact terminate state
      · exact .running running
    · exact .running running
  · exact .running running

theorem finishStage (running : state.outcome = .running) :
    Ending call abort (finishStage cfg plan call state) := by
  unfold Ring.finishStage
  dsimp only
  split
  · split
    · exact beginReduceStage _ running
    · exact beginAllgatherStage 0 running
  · split
    · exact beginAllgatherStage _ running
    · exact finalize _

theorem startRank : Ending call abort (startRank cfg call) := by
  unfold Ring.startRank
  split
  · exact finalize _
  split
  · exact terminate _
  split
  · exact beginReduceStage 0 rfl
  · exact finalize _

variable (observed : Observation) (inbox : List (List Byte)) (running : state.outcome = .running)

include running

theorem endIteration : Ending call observed.abortPacket (endIteration call observed state) := by
  unfold Ring.endIteration
  generalize (if state.noEvent then state.noEventCtr + 1 else 0) = counter
  dsimp only
  split
  · split
    next told => exact .aborted state rfl told
    next => exact .running running
  · exact .running running

theorem pollAbort : Ending call observed.abortPacket (pollAbort call observed inbox state).state := by
  unfold Ring.pollAbort
  split
  next told => exact .aborted state rfl told
  next => exact .running running

theorem stepRank :
    Ending call observed.abortPacket (stepRank cfg plan call observed inbox state).state := by
  have gaveUp : Ending call observed.abortPacket (state.giveUp call false false) := .broken state rfl
  unfold Ring.stepRank
  rw [running]
  dsimp only
  cases state.pc with
  | sendMeta =>
    dsimp only [stepSendMeta]
    split
    · exact .running running
    · exact gaveUp
  | receiveMeta =>
    dsimp only [stepReceiveMeta]
    split
    · split
      · exact pollAbort observed _ running
      split
      · exact terminate state
      split
      · exact terminate state
      · exact pollAbort observed _ running
      · exact .running running
    · exact gaveUp
  | send =>
    dsimp only [stepSend]
    split
    · split
      · split
        · exact .running running
        · exact gaveUp
      · exact .running running
    · exact finishStage running
  | receive =>
    dsimp only [stepReceive]
    split
    · split
      · split
        · exact terminate state
        split
        · exact endIteration observed running
        next data _ _ =>
          dsimp only
          split
          next still => exact endIteration observed still
          next ended =>
            exact .terminated ((acceptData_outcome cfg data state).resolve_left (running ▸ ended))
      · exact gaveUp
    · exact endIteration observed running

end Ending

end Pccl.Ring
