import Pccl.Ring.Types
import Pccl.Shared.Machine

set_option autoImplicit false

/-!
The loops are cut into iterations. What `pcclAllReduceAsync`, `pcclAwaitAsyncReduce` and
`pcclGetAttribute` return in an iteration is an input.
-/

namespace Pccl.Client

open Pccl.Ring (DataType)

inductive PcclResult where
  | success | notInitialized | internalError | invalidArgument | invalidUsage | tooFewPeers
  | masterConnectionFailed | rankConnectionFailed | rankConnectionLost | noSharedStateAvailable
  | pendingAsyncOps | updateTopologyFailed | topologyOptimizationFailed
deriving DecidableEq, Repr

structure RetryRequest where
  count : Nat
  dataType : Nat → DataType
  maxInFlight : Nat

inductive RetryPc where
  | begin
  | upFront (index : Nat)
  | test
  | scan (index : Nat)
  | settle (index : Nat)
  | drain (failed index : Nat)
  | leave
  | finalize (index : Nat)
  | returned (result : PcclResult)
deriving DecidableEq, Repr

inductive RetryEvent where
  | launched (index : Nat)
  | awaited (index : Nat) (success : Bool)
deriving DecidableEq, Repr

/-- `handles` are the indices whose optional handle is set. -/
structure RetryState where
  pc : RetryPc
  worldSize : Int
  inFlight : Nat
  handles : Finset Nat
  completed : Finset Nat
  allDone : Bool
  log : List RetryEvent
deriving DecidableEq

/-- The results of the calls that one iteration makes. -/
structure Answers where
  launch : PcclResult
  await : PcclResult
  getAttribute : PcclResult
  worldSize : Int
deriving DecidableEq, Repr

def DataType.isInput (dataType : DataType) : Bool := dataType ≠ .uint2 && dataType ≠ .uint4

namespace RetryState

variable (request : RetryRequest) (answers : Answers)

def start : RetryState := ⟨.begin, 0, 0, ∅, ∅, true, []⟩

def exit (result : PcclResult) (state : RetryState) : RetryState :=
  { state with pc := .returned result }

def addHandle (index : Nat) (state : RetryState) : RetryState :=
  { state with
    handles := insert index state.handles
    inFlight := state.inFlight + 1
    log := state.log ++ [.launched index] }

def logAwait (index : Nat) (state : RetryState) : RetryState :=
  { state with log := state.log ++ [.awaited index (answers.await = .success)] }

def stepBegin (state : RetryState) : RetryState :=
  if request.count = 0 ∨ request.maxInFlight = 0 then state.exit .invalidArgument
  else if answers.getAttribute ≠ .success then state.exit .invalidUsage
  else if answers.worldSize < 2 then state.exit .tooFewPeers
  else { state with worldSize := answers.worldSize, pc := .upFront 0 }

def stepUpFront (index : Nat) (state : RetryState) : RetryState :=
  if index < request.count ∧ state.inFlight < request.maxInFlight then
    if answers.launch ≠ .success then state.exit answers.launch
    else { state.addHandle index with pc := .upFront (index + 1) }
  else { state with pc := .test }

def stepTest (state : RetryState) : RetryState :=
  if 1 < state.worldSize then { state with allDone := true, pc := .scan 0 }
  else { state with pc := .leave }

def stepScan (index : Nat) (state : RetryState) : RetryState :=
  -- The head of the loop body, up to the point where a handle for the index exists.
  if index < request.count then
    if index ∈ state.handles then { state with pc := .settle index }
    else if index ∈ state.completed ∨ request.maxInFlight ≤ state.inFlight then
      { state with pc := .scan (index + 1) }
    else if !DataType.isInput (request.dataType index) then state.exit .invalidArgument
    else if answers.launch ≠ .success then state.exit answers.launch
    else { state.addHandle index with pc := .settle index }
  else if state.allDone then { state with pc := .leave }
  else { state with pc := .test }

def allLaunched (state : RetryState) : Bool :=
  (List.range request.count).all fun index => index ∈ state.handles ∨ index ∈ state.completed

def postpones (state : RetryState) : Bool :=
  -- Below the limit, with operations still to launch, the operation is left for the next pass.
  state.inFlight < request.maxInFlight && !state.allLaunched request

def stepSettle (index : Nat) (state : RetryState) : RetryState :=
  if state.postpones request then { state with allDone := false, pc := .scan (index + 1) }
  else if answers.getAttribute ≠ .success then (state.logAwait answers index).exit answers.getAttribute
  else if answers.await ≠ .success then
    -- The source does not count the failed operation out of `in_flight` here.
    { state.logAwait answers index with
      worldSize := answers.worldSize
      handles := state.handles.erase index
      pc := .drain index 0 }
  else
    { state.logAwait answers index with
      worldSize := answers.worldSize
      handles := state.handles.erase index
      completed := insert index state.completed
      inFlight := state.inFlight - 1
      pc := .scan (index + 1) }

def stepDrain (failed index : Nat) (state : RetryState) : RetryState :=
  if index < request.count then
    if index ≠ failed ∧ index ∈ state.handles then
      { state.logAwait answers index with
        handles := state.handles.erase index
        completed :=
          if answers.await = .success then insert index state.completed else state.completed
        inFlight := state.inFlight - 1
        pc := .drain failed (index + 1) }
    else { state with pc := .drain failed (index + 1) }
  else { state with allDone := false, pc := .test }

def stepLeave (state : RetryState) : RetryState :=
  if state.worldSize = 1 then { state with pc := .finalize 0 } else state.exit .success

def stepFinalize (index : Nat) (state : RetryState) : RetryState :=
  if index < request.count then
    if index ∈ state.handles then
      { state.logAwait answers index with pc := .finalize (index + 1) }
    else { state with pc := .finalize (index + 1) }
  else state.exit .tooFewPeers

def step (state : RetryState) : RetryState :=
  match state.pc with
  | .begin => state.stepBegin request answers
  | .upFront index => state.stepUpFront request answers index
  | .test => state.stepTest
  | .scan index => state.stepScan request answers index
  | .settle index => state.stepSettle request answers index
  | .drain failed index => state.stepDrain request answers failed index
  | .leave => state.stepLeave
  | .finalize index => state.stepFinalize request answers index
  | .returned _ => state

end RetryState

def pcclAllReduceMultipleWithRetry (request : RetryRequest) (inputs : List Answers) : RetryState :=
  Machine.run (RetryState.step request) inputs RetryState.start

end Pccl.Client
