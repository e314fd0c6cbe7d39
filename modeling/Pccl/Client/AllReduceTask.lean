import Pccl.Packet.Messages
import Pccl.Ring.Machine
import Pccl.Shared.Machine

set_option autoImplicit false

/-!
The task is cut at its waits: for the master's socket and, inside `pipelineRingReduce`, for the
sockets of the neighbours.
-/

namespace Pccl.Client

open Buffer Packet Pccl.Ring

/-- What a call of `allReduceAsync` captures, and the two buffers as they are at that time. -/
structure Launch where
  cfg : Config
  ringOrder : List Uuid
  uuid : Uuid
  inPlace : Bool
  sendbuff : List Byte
  recvbuff : List Byte
  chunkSize : Nat
  world : cfg.worldSize = ringOrder.length
  aliased : inPlace = true → recvbuff = sendbuff

inductive TaskPc where
  | initiate
  | awaitCommence
  | ring (position : Nat) (rank : RankState)
  | complete
  | awaitAbort
  | awaitComplete
  | finished
  | terminated
deriving DecidableEq, Repr

structure Task where
  pc : TaskPc
  recvbuff : List Byte
  success : Bool
  abortReceived : Bool
  aborted : Bool
  promise : Option Bool
deriving DecidableEq, Repr

/-- How a wait ends: a packet is sent or not, a matching packet arrives or the connection is lost, or
the ring looks at its sockets. -/
inductive TaskEvent where
  | sent (delivered : Bool)
  | received (packet : Option M2CPacket)
  | exchanged (observed : Observation) (inbox : List (List Byte))
deriving DecidableEq, Repr

namespace Launch

variable (launch : Launch)

def start : Task := ⟨.initiate, launch.recvbuff, false, false, false, none⟩

def call (position : Nat) : Call :=
  ⟨position, launch.sendbuff, launch.inPlace, launch.chunkSize⟩

def sendbuffAt (task : Task) : List Byte := if launch.inPlace then task.recvbuff else launch.sendbuff

def wasAborted (task : Task) : Bool := !task.success && 1 < launch.ringOrder.length

def outgoing (task : Task) : Option C2MPacket :=
  match task.pc with
  | .initiate =>
    some (.collectiveCommsInitiate launch.cfg.tag launch.cfg.dataType launch.cfg.count launch.cfg.op)
  | .complete => some (.collectiveCommsComplete launch.cfg.tag (launch.wasAborted task))
  | _ => none

end Launch

def reduceReturned (success abortReceived : Bool) (task : Task) : Task :=
  -- `reduce_fun` returns: an abort packet overrides its success.
  { task with
    pc := .complete
    success := success && !abortReceived
    abortReceived
    aborted := abortReceived }

def setPromise (success : Bool) (task : Task) : Task :=
  { task with pc := .finished, success, promise := some success }

section Task

variable (launch : Launch)

def afterExchange (position : Nat) (rank : RankState) (task : Task) : Task :=
  let task := { task with recvbuff := rank.dst }
  match rank.outcome with
  | .running => { task with pc := .ring position rank }
  | .returned success abortReceived => reduceReturned success abortReceived task
  | .terminated => { task with pc := .terminated }

def commenced (task : Task) : Task :=
  if launch.ringOrder.length < 2 then reduceReturned false false task
  else
    match launch.ringOrder.idxOf? launch.uuid with
    | none => reduceReturned false false task
    | some position => afterExchange position (startRank launch.cfg (launch.call position)) task

def stepInitiate (event : TaskEvent) (task : Task) : Task :=
  match event with
  | .sent true => { task with pc := .awaitCommence }
  | .sent false => reduceReturned false false task
  | _ => task

def stepCommence (event : TaskEvent) (task : Task) : Task :=
  match event with
  | .received none => reduceReturned false false task
  | .received (some (.collectiveCommsCommence tag _)) =>
    if tag = launch.cfg.tag then commenced launch task else task
  | _ => task

def stepExchange (position : Nat) (rank : RankState) (event : TaskEvent) (task : Task) : Task :=
  match event with
  | .exchanged observed inbox =>
    afterExchange position
      (stepRank launch.cfg (Net.plan launch.cfg) (launch.call position) observed inbox rank).state task
  | _ => task

def stepComplete (event : TaskEvent) (task : Task) : Task :=
  match event with
  -- An abort packet that the ring has consumed is not waited for again.
  | .sent true => { task with pc := if task.abortReceived then .awaitComplete else .awaitAbort }
  | .sent false => setPromise false task
  | _ => task

def stepAbort (event : TaskEvent) (task : Task) : Task :=
  match event with
  | .received none => setPromise false task
  | .received (some (.collectiveCommsAbort tag aborted)) =>
    if tag = launch.cfg.tag then { task with aborted, pc := .awaitComplete } else task
  | _ => task

def stepVerdict (event : TaskEvent) (task : Task) : Task :=
  match event with
  | .received none => setPromise false task
  | .received (some (.collectiveCommsComplete tag)) =>
    if tag = launch.cfg.tag then setPromise (task.success && !task.aborted) task else task
  | _ => task

def taskStep (event : TaskEvent) (task : Task) : Task :=
  match task.pc with
  | .initiate => stepInitiate event task
  | .awaitCommence => stepCommence launch event task
  | .ring position rank => stepExchange launch position rank event task
  | .complete => stepComplete event task
  | .awaitAbort => stepAbort launch event task
  | .awaitComplete => stepVerdict launch event task
  | .finished | .terminated => task

def runTask (events : List TaskEvent) : Task := Machine.run (taskStep launch) events launch.start

end Task

end Pccl.Client
