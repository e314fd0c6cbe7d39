import Pccl.Packet.Messages

set_option autoImplicit false

namespace Pccl.Client

open Packet

/-- `running_reduce_tasks_failure_states`: 2, 0 and 1. -/
inductive TaskState where
  | notCompleted | failed | succeeded
deriving DecidableEq, Repr

inductive EstablishAttempt where
  | sendFailed | retryNeeded | failed | established
deriving DecidableEq, Repr

/-- What a join meets: whether the master's socket is open, and how the round goes that it may start. -/
structure JoinEnvironment where
  masterOpen : Bool
  attempts : List EstablishAttempt
deriving DecidableEq, Repr

structure CollectiveOps where
  accepted : Bool
  connectionRevision : BitVec 64
  runningTags : Finset Tag
  runningOps : Finset Tag
  failureStates : Tag → Option TaskState
  connectionRevisions : Tag → Option (BitVec 64)

-- `none` while every attempt so far asks for another one.
def establishRound : List EstablishAttempt → Option Bool
  | [] => none
  | .retryNeeded :: attempts => establishRound attempts
  | .sendFailed :: _ | .failed :: _ => some false
  | .established :: _ => some true

namespace CollectiveOps

variable (ops : CollectiveOps) (tag : Tag)

def requestAndEstablishP2PConnections (environment : JoinEnvironment) :
    Option (Bool × CollectiveOps) :=
  -- `none` if the process ends with `LOG(BUG)` or the round does not come to an end.
  if ops.accepted = false then none
  else if environment.masterOpen = false then some (false, ops)
  else if ops.runningTags.Nonempty then some (false, ops)
  else
    (establishRound environment.attempts).map fun success =>
      (success, if success then { ops with connectionRevision := ops.connectionRevision + 1 } else ops)

def launchAsyncCollectiveOp : Bool × CollectiveOps :=
  if tag ∈ ops.runningTags then (false, ops)
  else
    (true, { ops with
      runningTags := insert tag ops.runningTags
      failureStates := Function.update ops.failureStates tag (some .notCompleted)
      runningOps := insert tag ops.runningOps })

def allReduceAsync : Bool × CollectiveOps :=
  if tag ∈ ops.runningTags then (false, ops)
  else
    launchAsyncCollectiveOp
      { ops with
        connectionRevisions :=
          Function.update ops.connectionRevisions tag (some ops.connectionRevision) }
      tag

def finishTask (success : Bool) : CollectiveOps :=
  { ops with
    failureStates := Function.update ops.failureStates tag
      (some (if success then .succeeded else .failed)) }

def joinAsyncCollectiveOp : Option (Bool × CollectiveOps) :=
  -- `none` while the task is not done, or if the process ends with `LOG(BUG)`.
  if tag ∈ ops.runningOps then
    if ops.failureStates tag = some .notCompleted then none
    else if tag ∈ ops.runningTags then
      some (true, { ops with
        runningTags := ops.runningTags.erase tag
        runningOps := ops.runningOps.erase tag })
    else none
  else some (false, ops)

def joinAsyncReduce (environment : JoinEnvironment) : Option (Bool × CollectiveOps) := do
  let (joined, ops) ← ops.joinAsyncCollectiveOp tag
  if joined then
    match ops.failureStates tag with
    | none => some (false, ops)
    | some .failed =>
      if some ops.connectionRevision = ops.connectionRevisions tag then
        let (_, ops) ← ops.requestAndEstablishP2PConnections environment
        some (false, ops)
      else some (false, ops)
    | some _ => some (true, ops)
  else some (false, ops)

end CollectiveOps

inductive BatchEvent where
  | launch (tag : Tag)
  | finish (tag : Tag)
  | join (tag : Tag) (environment : JoinEnvironment)
deriving DecidableEq, Repr

namespace BatchEvent

/-- Each operation is launched, finishes and is joined once, and the first join comes after the last
launch. -/
def Proper : List BatchEvent → (waiting unfinished finished : Finset Tag) → Prop
  | [], waiting, unfinished, finished => waiting = ∅ ∧ unfinished = ∅ ∧ finished = ∅
  | .launch tag :: events, waiting, unfinished, finished =>
    tag ∈ waiting ∧ Proper events (waiting.erase tag) (insert tag unfinished) finished
  | .finish tag :: events, waiting, unfinished, finished =>
    tag ∈ unfinished ∧ Proper events waiting (unfinished.erase tag) (insert tag finished)
  | .join tag _ :: events, waiting, unfinished, finished =>
    waiting = ∅ ∧ tag ∈ finished ∧ Proper events waiting unfinished (finished.erase tag)

def lastJoin : List BatchEvent → Option (Tag × JoinEnvironment)
  | [] => none
  | .join tag environment :: events => (lastJoin events).or (some (tag, environment))
  | _ :: events => lastJoin events

end BatchEvent

namespace CollectiveOps

def batchStep (outcome : Tag → Bool) (ops : CollectiveOps) : BatchEvent → Option CollectiveOps
  | .launch tag => if (ops.allReduceAsync tag).1 then some (ops.allReduceAsync tag).2 else none
  | .finish tag => some (ops.finishTask tag (outcome tag))
  | .join tag environment => (ops.joinAsyncReduce tag environment).map Prod.snd

def runBatch (outcome : Tag → Bool) (events : List BatchEvent) (ops : CollectiveOps) :
    Option CollectiveOps :=
  events.foldlM (batchStep outcome) ops

/-- A batch under way: what is registered, with which results and at which revision. -/
structure Batch (outcome : Tag → Bool) (others : Finset Tag) (revision : BitVec 64)
    (waiting unfinished finished : Finset Tag) (ops : CollectiveOps) : Prop where
  accepted : ops.accepted = true
  current : ops.connectionRevision = revision
  running : ∀ tag, tag ∈ ops.runningTags ↔ tag ∈ others ∨ tag ∈ unfinished ∨ tag ∈ finished
  fresh : ∀ tag ∈ waiting, tag ∉ others ∧ tag ∉ unfinished ∧ tag ∉ finished
  apart : ∀ tag ∈ finished, tag ∉ others ∧ tag ∉ unfinished
  own : ∀ tag ∈ unfinished, tag ∉ others
  scheduled : ∀ tag, tag ∈ unfinished ∨ tag ∈ finished → tag ∈ ops.runningOps
  launched : ∀ tag, tag ∈ unfinished ∨ tag ∈ finished →
    ops.connectionRevisions tag = some revision
  stored : ∀ tag ∈ finished,
    ops.failureStates tag = some (if outcome tag then .succeeded else .failed)

section Steps

variable {outcome : Tag → Bool} {others waiting unfinished finished : Finset Tag}
  {revision : BitVec 64} {ops : CollectiveOps} {tag : Tag}

def begun (ops : CollectiveOps) (tag : Tag) : CollectiveOps :=
  { ops with
    connectionRevisions := Function.update ops.connectionRevisions tag (some ops.connectionRevision)
    runningTags := insert tag ops.runningTags
    failureStates := Function.update ops.failureStates tag (some .notCompleted)
    runningOps := insert tag ops.runningOps }

theorem Batch.launch
    (batch : Batch outcome others revision waiting unfinished finished ops) (waits : tag ∈ waiting) :
    ∃ next, ops.batchStep outcome (.launch tag) = some next ∧
      Batch outcome others revision (waiting.erase tag) (insert tag unfinished) finished next := by
  obtain ⟨notOther, notUnfinished, notFinished⟩ := batch.fresh tag waits
  have free : tag ∉ ops.runningTags := by
    rw [batch.running]
    tauto
  refine ⟨ops.begun tag, by simp [begun, batchStep, allReduceAsync, launchAsyncCollectiveOp, free], ?_⟩
  constructor
  · exact batch.accepted
  · exact batch.current
  · intro other
    simp only [begun, Finset.mem_insert, batch.running]
    tauto
  · intro other mine
    obtain ⟨apart, member⟩ := Finset.mem_erase.mp mine
    have rest := batch.fresh other member
    simp only [Finset.mem_insert]
    tauto
  · intro other mine
    have rest := batch.apart other mine
    simp only [Finset.mem_insert]
    refine ⟨rest.1, ?_⟩
    rintro (rfl | old)
    · exact notFinished mine
    · exact rest.2 old
  · intro other mine
    rcases Finset.mem_insert.mp mine with rfl | old
    · exact notOther
    · exact batch.own other old
  · intro other mine
    have rest := batch.scheduled other
    simp only [begun, Finset.mem_insert] at mine ⊢
    tauto
  · intro other mine
    by_cases same : other = tag
    · subst same
      simp [begun, batch.current]
    · have rest := batch.launched other
      simp only [Finset.mem_insert] at mine
      simp only [begun, Function.update_of_ne same]
      tauto
  · intro other mine
    have same : other ≠ tag := by
      rintro rfl
      exact notFinished mine
    simpa only [begun, Function.update_of_ne same] using batch.stored other mine

theorem Batch.finish
    (batch : Batch outcome others revision waiting unfinished finished ops)
    (works : tag ∈ unfinished) :
    Batch outcome others revision waiting (unfinished.erase tag) (insert tag finished)
      (ops.finishTask tag (outcome tag)) := by
  have members (other : Tag) : other ∈ unfinished.erase tag ∨ other ∈ insert tag finished ↔
      other ∈ unfinished ∨ other ∈ finished := by
    by_cases same : other = tag
    · subst same
      simp [works]
    · simp [same]
  constructor
  · exact batch.accepted
  · exact batch.current
  · intro other
    rw [members]
    exact batch.running other
  · intro other mine
    have rest := batch.fresh other mine
    refine ⟨rest.1, ?_⟩
    have neither := members other
    tauto
  · intro other mine
    rcases Finset.mem_insert.mp mine with rfl | old
    · exact ⟨batch.own other works, Finset.notMem_erase _ _⟩
    · obtain ⟨apart, out⟩ := batch.apart other old
      exact ⟨apart, fun member => out (Finset.mem_of_mem_erase member)⟩
  · intro other mine
    exact batch.own other (Finset.mem_of_mem_erase mine)
  · intro other mine
    exact batch.scheduled other ((members other).mp mine)
  · intro other mine
    exact batch.launched other ((members other).mp mine)
  · intro other mine
    by_cases same : other = tag
    · subst same
      simp [finishTask]
    · have old := Finset.mem_of_mem_insert_of_ne mine same
      simpa only [finishTask, Function.update_of_ne same] using batch.stored other old

def joined (ops : CollectiveOps) (tag : Tag) : CollectiveOps :=
  { ops with
    runningTags := ops.runningTags.erase tag
    runningOps := ops.runningOps.erase tag }

theorem Batch.joins
    (batch : Batch outcome others revision waiting unfinished finished ops) (done : tag ∈ finished) :
    Batch outcome others revision waiting unfinished (finished.erase tag) (ops.joined tag) := by
  obtain ⟨notOther, notUnfinished⟩ := batch.apart tag done
  constructor
  · exact batch.accepted
  · exact batch.current
  · intro other
    simp only [joined, Finset.mem_erase, batch.running]
    by_cases same : other = tag
    · subst same
      tauto
    · tauto
  · intro other mine
    have rest := batch.fresh other mine
    simp only [Finset.mem_erase]
    tauto
  · intro other mine
    exact batch.apart other (Finset.mem_of_mem_erase mine)
  · exact batch.own
  · intro other mine
    have rest := batch.scheduled other
    simp only [joined, Finset.mem_erase] at mine ⊢
    by_cases same : other = tag
    · subst same
      tauto
    · tauto
  · intro other mine
    exact batch.launched other (mine.imp_right Finset.mem_of_mem_erase)
  · intro other mine
    exact batch.stored other (Finset.mem_of_mem_erase mine)

theorem Batch.joinAsyncReduce_eq
    (batch : Batch outcome others revision waiting unfinished finished ops) (done : tag ∈ finished)
    (environment : JoinEnvironment) :
    ops.joinAsyncReduce tag environment =
      if outcome tag then some (true, ops.joined tag)
      else ((ops.joined tag).requestAndEstablishP2PConnections environment).map fun result =>
        (false, result.2) := by
  have stored := batch.stored tag done
  have running := (batch.running tag).mpr (.inr (.inr done))
  have scheduled := batch.scheduled tag (.inr done)
  have launched := batch.launched tag (.inr done)
  have taken : ops.joinAsyncCollectiveOp tag = some (true, ops.joined tag) := by
    rw [joinAsyncCollectiveOp, if_pos scheduled, if_neg (by rw [stored]; split_ifs <;> simp),
      if_pos running]
    rfl
  unfold joinAsyncReduce
  rw [taken]
  have state : (ops.joined tag).failureStates tag = some (if outcome tag then .succeeded else .failed) :=
    stored
  have begun : (ops.joined tag).connectionRevisions tag = some (ops.joined tag).connectionRevision := by
    rw [show (ops.joined tag).connectionRevision = revision from batch.current]
    exact launched
  simp only [Option.bind_eq_bind, Option.bind_some, if_true, state]
  cases outcome tag with
  | true => rfl
  | false =>
    simp only [Bool.false_eq_true, if_false, begun, if_true]
    cases (ops.joined tag).requestAndEstablishP2PConnections environment <;> rfl

theorem Batch.join_early
    (batch : Batch outcome others revision waiting unfinished finished ops) (done : tag ∈ finished)
    (environment : JoinEnvironment) (more : (unfinished ∪ finished.erase tag).Nonempty) :
    ops.batchStep outcome (.join tag environment) = some (ops.joined tag) := by
  have after := batch.joins done
  obtain ⟨other, member⟩ := more
  have busy : (ops.joined tag).runningTags.Nonempty :=
    ⟨other, (after.running other).mpr (.inr (Finset.mem_union.mp member))⟩
  rw [batchStep, batch.joinAsyncReduce_eq done]
  cases outcome tag with
  | true => rfl
  | false =>
    simp only [Bool.false_eq_true, if_false, requestAndEstablishP2PConnections, after.accepted,
      Bool.true_eq_false]
    split_ifs <;> rfl

theorem Batch.join_last
    (batch : Batch outcome others revision waiting unfinished finished ops) (done : tag ∈ finished)
    (environment : JoinEnvironment) (alone : unfinished ∪ finished.erase tag = ∅)
    (establishes : establishRound environment.attempts = some true) :
    ∃ final, ops.batchStep outcome (.join tag environment) = some final ∧
      final.connectionRevision =
        if outcome tag = false ∧ environment.masterOpen = true ∧ others = ∅ then revision + 1
        else revision := by
  have after := batch.joins done
  obtain ⟨noUnfinished, noFinished⟩ := Finset.union_eq_empty.mp alone
  have idle : (ops.joined tag).runningTags = others := by
    ext other
    rw [after.running, noUnfinished, noFinished]
    simp
  rw [batchStep, batch.joinAsyncReduce_eq done]
  cases outcome tag with
  | true => exact ⟨ops.joined tag, rfl, by simpa using after.current⟩
  | false =>
    simp only [Bool.false_eq_true, if_false, requestAndEstablishP2PConnections, after.accepted,
      Bool.true_eq_false, idle, establishes, true_and]
    by_cases opened : environment.masterOpen = true
    · by_cases nobody : others = ∅
      · simp only [opened, nobody, Bool.true_eq_false, Finset.not_nonempty_empty, if_false,
          Option.map_some, if_true, and_self]
        exact ⟨_, rfl, by rw [after.current]⟩
      · simp only [opened, nobody, Bool.true_eq_false, Finset.nonempty_iff_ne_empty.mpr nobody,
          if_false, if_true, Option.map_some, and_false]
        exact ⟨_, rfl, after.current⟩
    · rw [Bool.not_eq_true] at opened
      simp only [opened, if_true, Option.map_some, Bool.false_eq_true, false_and, if_false]
      exact ⟨_, rfl, after.current⟩

end Steps

section Runs

variable {outcome : Tag → Bool} {others : Finset Tag} {revision : BitVec 64}

theorem eq_nil_of_proper (events : List BatchEvent) (proper : BatchEvent.Proper events ∅ ∅ ∅) :
    events = [] := by
  cases events with
  | nil => rfl
  | cons event events =>
    cases event <;> simp [BatchEvent.Proper] at proper

theorem Batch.run (events : List BatchEvent) (waiting unfinished finished : Finset Tag)
    (ops : CollectiveOps)
    (batch : Batch outcome others revision waiting unfinished finished ops)
    (proper : BatchEvent.Proper events waiting unfinished finished)
    (some : (waiting ∪ unfinished ∪ finished).Nonempty)
    (establishes : ∀ tag environment, BatchEvent.join tag environment ∈ events →
      establishRound environment.attempts = Option.some true) :
    ∃ last environment final, BatchEvent.lastJoin events = Option.some (last, environment) ∧
      ops.runBatch outcome events = Option.some final ∧
      final.connectionRevision =
        if outcome last = false ∧ environment.masterOpen = true ∧ others = ∅ then revision + 1
        else revision := by
  induction events generalizing waiting unfinished finished ops with
  | nil =>
    obtain ⟨rfl, rfl, rfl⟩ := proper
    simp at some
  | cons event events ih =>
    have later (tag : Tag) (environment : JoinEnvironment)
        (present : BatchEvent.join tag environment ∈ events) :=
      establishes tag environment (List.mem_cons_of_mem _ present)
    -- The batch goes on: what comes later decides.
    have goes (next : CollectiveOps) (stepped : ops.batchStep outcome event = Option.some next)
        (rest : ∃ last environment final,
          BatchEvent.lastJoin events = Option.some (last, environment) ∧
          next.runBatch outcome events = Option.some final ∧
          final.connectionRevision =
            if outcome last = false ∧ environment.masterOpen = true ∧ others = ∅ then revision + 1
            else revision) :
        ∃ last environment final,
          BatchEvent.lastJoin (event :: events) = Option.some (last, environment) ∧
          ops.runBatch outcome (event :: events) = Option.some final ∧
          final.connectionRevision =
            if outcome last = false ∧ environment.masterOpen = true ∧ others = ∅ then revision + 1
            else revision := by
      obtain ⟨last, environment, final, found, ran, result⟩ := rest
      refine ⟨last, environment, final, ?_, ?_, result⟩
      · cases event <;> simp [BatchEvent.lastJoin, found]
      · rw [runBatch, List.foldlM_cons, stepped]
        exact ran
    cases event with
    | launch tag =>
      obtain ⟨waits, proper⟩ := proper
      obtain ⟨next, stepped, batch⟩ := batch.launch waits
      refine goes next stepped (ih _ _ _ next batch proper ⟨tag, ?_⟩ later)
      simp
    | finish tag =>
      obtain ⟨works, proper⟩ := proper
      refine goes _ rfl (ih _ _ _ _ (batch.finish works) proper ⟨tag, ?_⟩ later)
      simp
    | join tag environment =>
      obtain ⟨rfl, done, proper⟩ := proper
      by_cases more : (unfinished ∪ finished.erase tag).Nonempty
      · refine goes _ (batch.join_early done environment more) (ih _ _ _ _ (batch.joins done) proper ?_ later)
        rwa [Finset.empty_union]
      · rw [Finset.not_nonempty_iff_eq_empty] at more
        obtain ⟨final, stepped, result⟩ := batch.join_last done environment more
          (establishes tag environment List.mem_cons_self)
        obtain ⟨noUnfinished, noFinished⟩ := Finset.union_eq_empty.mp more
        rw [noUnfinished, noFinished] at proper
        obtain rfl := eq_nil_of_proper events proper
        exact ⟨tag, environment, final, rfl, by rw [runBatch, List.foldlM_cons, stepped]; rfl, result⟩

end Runs

end CollectiveOps

theorem reestablished_once_iff (start : CollectiveOps) (accepted : start.accepted = true)
    (tags : Finset Tag) (nonempty : tags.Nonempty)
    (fresh : ∀ tag ∈ tags, tag ∉ start.runningTags) (outcome : Tag → Bool)
    (events : List BatchEvent) (proper : BatchEvent.Proper events tags ∅ ∅)
    (establishes : ∀ tag environment, .join tag environment ∈ events →
      establishRound environment.attempts = some true) :
    ∃ last environment final, BatchEvent.lastJoin events = some (last, environment) ∧
      start.runBatch outcome events = some final ∧
      (final.connectionRevision = start.connectionRevision + 1 ↔
        outcome last = false ∧ environment.masterOpen = true ∧ start.runningTags = ∅) := by
  have batch : start.Batch outcome start.runningTags start.connectionRevision tags ∅ ∅ := by
    refine ⟨accepted, rfl, ?_, ?_, ?_, ?_, ?_, ?_, ?_⟩ <;> simp
    exact fresh
  obtain ⟨last, environment, final, found, ran, result⟩ :=
    batch.run events tags ∅ ∅ start proper (by simpa using nonempty) establishes
  refine ⟨last, environment, final, found, ran, ?_⟩
  rw [result]
  split_ifs with last
  · simpa using last
  · simp [last]

namespace Sample

def idleClient : CollectiveOps := ⟨true, 3, ∅, ∅, fun _ => none, fun _ => none⟩

def establishing : JoinEnvironment := ⟨true, [.retryNeeded, .established]⟩

def twoOperations : List BatchEvent :=
  [.launch 1, .launch 2, .finish 2, .finish 1, .join 1 establishing, .join 2 establishing]

theorem twoOperations_proper : BatchEvent.Proper twoOperations {1, 2} ∅ ∅ := by
  simp only [twoOperations, BatchEvent.Proper]
  decide

end Sample

open Sample

theorem reestablished_once_twoOperations :
    ∃ last environment final,
      BatchEvent.lastJoin twoOperations = some (last, environment) ∧
      idleClient.runBatch (fun tag => tag = 1) twoOperations = some final ∧
      (final.connectionRevision = idleClient.connectionRevision + 1 ↔
        decide (last = 1) = false ∧ environment.masterOpen = true ∧
          idleClient.runningTags = ∅) :=
  reestablished_once_iff idleClient rfl {1, 2} (by simp) (by simp [idleClient])
    (fun tag => tag = 1)
    twoOperations twoOperations_proper (by
      intro tag environment present
      simp only [twoOperations, List.mem_cons, reduceCtorEq, BatchEvent.join.injEq,
        List.not_mem_nil, or_false, false_or] at present
      rcases present with ⟨_, rfl⟩ | ⟨_, rfl⟩ <;> rfl)

theorem failed_operation_ignored :
    BatchEvent.Proper twoOperations {1, 2} ∅ ∅ ∧
      ∃ final, idleClient.runBatch (fun tag => tag ≠ 1) twoOperations = some final ∧
        final.connectionRevision = idleClient.connectionRevision := by
  refine ⟨twoOperations_proper, ?_⟩
  have unchanged : (idleClient.runBatch (fun tag => tag ≠ 1) twoOperations).map
      CollectiveOps.connectionRevision = some idleClient.connectionRevision := by decide
  exact Option.map_eq_some_iff.mp unchanged

end Pccl.Client
