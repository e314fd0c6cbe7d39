import Pccl.Shared.FifoRing
import Pccl.Ring.Chunks
import Pccl.Ring.MetaPacket

set_option autoImplicit false

/-!
A rank is cut at the points where it touches a socket: the two halves of the metadata exchange and
the two halves of the send/receive loop, which `runReduceStage` and `runAllgatherStage` share. What
the rank sees of the outside at such a point is an `Observation`.
-/

namespace Pccl.Ring

open Buffer

inductive Phase where
  | reduceScatter | allgather
deriving DecidableEq, Repr

inductive Pc where
  | sendMeta | receiveMeta | send | receive
deriving DecidableEq, Repr

/-- The memory `tx_span` points into: it is read when a piece is sent, not when the stage begins. -/
inductive TxSource where
  | dst | quantized | owned
deriving DecidableEq, Repr

/-- `terminated` covers an exception and a fatal log message. -/
inductive Outcome where
  | running
  | returned (success abortReceived : Bool)
  | terminated
deriving DecidableEq, Repr

structure Stage where
  phase : Phase
  step : Nat
  txSource : TxSource
  txOffset : Nat
  txSize : Nat
  rxOffset : Nat
  rxSize : Nat
  recvSize : Nat
  metaSelf : Option DeQuantizationMetaData
deriving DecidableEq, Repr

structure RankState where
  outcome : Outcome
  dst : List Byte
  quantized : List Byte
  recvBuffer : List Byte
  prevMeta : DeQuantizationMetaData
  currentChunk : Nat
  stage : Stage
  pc : Pc
  receivedMeta : DeQuantizationMetaData
  sent : Nat
  recvd : Nat
  noEvent : Bool
  noEventCtr : Nat
deriving DecidableEq, Repr

structure Call where
  rank : Nat
  source : List Byte
  inPlace : Bool
  chunkSize : Nat
deriving DecidableEq, Repr

/-- How many queued frames have arrived, whether the socket in use is open and whether the master's
abort packet for the operation is waiting. -/
structure Observation where
  arrived : Nat
  socketOpen : Bool
  abortPacket : Bool
deriving DecidableEq, Repr

abbrev Effect := FifoRing.Effect RankState (List Byte)

-- The receive thread stops the process on a frame of more than 1 GiB with its tag and stream counter.
def maxFrameSize : Nat := 2 ^ 30 - 16

-- `static_cast<int>(world_size) - 1`, the bound of both step loops.
def Config.stepCount (cfg : Config) : Nat := (Int.bmod cfg.worldSize (2 ^ 32) - 1).toNat

theorem Config.stepCount_eq (cfg : Config) (positive : 0 < cfg.worldSize)
    (small : cfg.worldSize < 2 ^ 31) : cfg.stepCount = cfg.worldSize - 1 := by
  have bound : cfg.worldSize < 2147483648 := by simpa using small
  have plain : Int.bmod cfg.worldSize (2 ^ 32) = cfg.worldSize := by
    apply Int.bmod_eq_of_le_mul_two
    · norm_num
      omega
    · norm_num
      omega
  unfold stepCount
  rw [plain]
  clear small
  omega

namespace RankState

def terminate (state : RankState) : RankState := { state with outcome := .terminated }

def giveUp (call : Call) (success abortReceived : Bool) (state : RankState) : RankState :=
  -- A failed or aborted stage: `restore_src_buf` and return.
  { state with
    outcome := .returned success abortReceived
    dst := if call.inPlace then call.source else state.dst }

def txSpan (state : RankState) : List Byte :=
  match state.stage.txSource with
  | .dst => slice state.dst state.stage.txOffset state.stage.txSize
  | .quantized => state.quantized
  | .owned => slice state.recvBuffer 0 state.stage.txSize

def enterStage (cfg : Config) (stage : Stage) (state : RankState) : RankState :=
  { state with
    stage
    pc := if cfg.quantizedType ≠ cfg.dataType then .sendMeta else .send
    receivedMeta := .initial
    sent := 0
    recvd := 0
    noEvent := true
    noEventCtr := 0 }

end RankState

section Ring

variable (cfg : Config) (plan : Config.Plan) (call : Call)

def Config.Plan.chunkEl (chunk : Nat) : Nat :=
  (plan.boundaries.getD chunk (0, 0)).2 - (plan.boundaries.getD chunk (0, 0)).1

def stageSpans? (phase : Phase) (step txChunk rxChunk : Nat) (state : RankState) : Option Stage :=
  -- The spans of a stage before quantization; `none` where `guarded_subspan` throws.
  let size := cfg.dataType.size
  let txOffset := (plan.boundaries.getD txChunk (0, 0)).1 * size
  let rxOffset := (plan.boundaries.getD rxChunk (0, 0)).1 * size
  let txSize := plan.chunkEl txChunk * size
  let rxSize := plan.chunkEl rxChunk * size
  let recvSize := cfg.quantizedSize (plan.chunkEl rxChunk)
  if txOffset + txSize ≤ state.dst.length ∧ rxOffset + rxSize ≤ state.dst.length ∧
      recvSize ≤ state.recvBuffer.length then
    some { phase, step, txSource := .dst, txOffset, txSize, rxOffset, rxSize, recvSize, metaSelf := none }
  else
    none

def quantizedStage (txEl : Nat) (txSource : TxSource) (metaData : DeQuantizationMetaData)
    (stage : Stage) : Stage :=
  { stage with txSource, txSize := cfg.quantizedSize txEl, metaSelf := some metaData }

def quantizeChunk (txEl : Nat) (stage : Stage) (state : RankState) :
    Option (List Byte × DeQuantizationMetaData) :=
  performQuantization cfg.kernel cfg.algorithm (cfg.quantizedSize txEl)
    (slice state.dst stage.txOffset stage.txSize)

def enterQuantized (txEl : Nat) (stage : Stage) (state : RankState) : RankState :=
  match quantizeChunk cfg txEl stage state with
  | none => state.terminate
  | some (quantized, metaData) =>
    { state with quantized }.enterStage cfg (quantizedStage cfg txEl .quantized metaData stage)

def enterOwned (txEl : Nat) (stage : Stage) (state : RankState) : RankState :=
  -- The owner quantizes its finished chunk and takes over what the others will dequantize.
  match quantizeChunk cfg txEl stage state with
  | none => state.terminate
  | some (quantized, metaData) =>
    match performReduction cfg.kernel cfg.algorithm .set metaData
        (slice state.dst stage.txOffset stage.txSize) quantized with
    | none => state.terminate
    | some own =>
      { state with quantized, dst := splice state.dst stage.txOffset own }.enterStage cfg
        (quantizedStage cfg txEl .quantized metaData stage)

def enterForwarding (txEl : Nat) (stage : Stage) (state : RankState) : RankState :=
  state.enterStage cfg (quantizedStage cfg txEl .owned state.prevMeta stage)

def beginReduceStage (step : Nat) (state : RankState) : RankState :=
  let txChunk := (call.rank + cfg.worldSize - step) % cfg.worldSize
  let rxChunk := (call.rank + cfg.worldSize - step - 1) % cfg.worldSize
  let txEl := plan.chunkEl txChunk
  match stageSpans? cfg plan .reduceScatter step txChunk rxChunk state with
  | none => state.terminate
  | some stage =>
    if cfg.quantizing && 0 < txEl then enterQuantized cfg txEl stage state
    else state.enterStage cfg stage

def beginAllgatherStage (step : Nat) (state : RankState) : RankState :=
  let txChunk := state.currentChunk
  let rxChunk := (state.currentChunk + cfg.worldSize - 1) % cfg.worldSize
  let txEl := plan.chunkEl txChunk
  match stageSpans? cfg plan .allgather step txChunk rxChunk state with
  | none => state.terminate
  | some stage =>
    if cfg.quantizing && 0 < txEl then
      -- `owned_data_ptr` is null in the first step only.
      if step = 0 then enterOwned cfg txEl stage state else enterForwarding cfg txEl stage state
    else
      state.enterStage cfg stage

def finalize (state : RankState) : RankState :=
  match performReduceFinalization cfg.kernel cfg.worldSize cfg.op state.dst with
  | none => state.terminate
  | some dst => { state with dst, outcome := .returned true false }

def beginAllgather (state : RankState) : RankState :=
  beginAllgatherStage cfg plan 0
    { state with
      recvBuffer := List.replicate (cfg.quantizedSize plan.maxChunkEl) 0
      prevMeta := .initial
      currentChunk := (call.rank + 1) % cfg.worldSize }

def finishStage (state : RankState) : RankState :=
  match state.stage.phase with
  | .reduceScatter =>
    if state.stage.step + 1 < cfg.stepCount then
      beginReduceStage cfg plan call (state.stage.step + 1) state
    else
      beginAllgather cfg plan call state
  | .allgather =>
    let state :=
      { state with currentChunk := (state.currentChunk + cfg.worldSize - 1) % cfg.worldSize }
    if state.stage.step + 1 < cfg.stepCount then
      beginAllgatherStage cfg plan (state.stage.step + 1) state
    else
      finalize cfg state

def idleStage : Stage := ⟨.reduceScatter, 0, .dst, 0, 0, 0, 0, 0, none⟩

def enterRing : RankState where
  outcome := .running
  dst := call.source
  quantized := []
  recvBuffer := List.replicate (cfg.quantizedSize plan.maxChunkEl) 0
  prevMeta := .initial
  currentChunk := 0
  stage := idleStage
  pc := .send
  receivedMeta := .initial
  sent := 0
  recvd := 0
  noEvent := true
  noEventCtr := 0

def startRank : RankState :=
  if cfg.worldSize < 2 then finalize cfg (enterRing cfg ⟨[], 0⟩ call)
  else
    match cfg.plan? with
    | none => (enterRing cfg ⟨[], 0⟩ call).terminate
    | some plan =>
      if 0 < cfg.stepCount then beginReduceStage cfg plan call 0 (enterRing cfg plan call)
      else finalize cfg (enterRing cfg plan call)

def stageOp : Phase → ReduceOp
  | .reduceScatter => cfg.op
  | .allgather => .set

def acceptData (data : List Byte) (state : RankState) : RankState :=
  -- Bytes that `receiveBytesInplace` has put behind those already received, and the reduction of
  -- the elements they complete.
  if data.length = 0 then state
  else
    let quantBits := cfg.quantizedType.sizeBits
    let dataBits := cfg.dataType.sizeBits
    let oldFloor := state.recvd * 8 / quantBits
    let newFloor := (state.recvd + data.length) * 8 / quantBits
    let received :=
      { state with
        recvBuffer := splice state.recvBuffer state.recvd data
        recvd := state.recvd + data.length
        noEvent := false }
    if oldFloor < newFloor then
      let srcOffset := oldFloor * quantBits / 8
      let srcSize := (newFloor - oldFloor) * quantBits / 8
      let dstOffset := oldFloor * dataBits / 8
      let dstSize := (newFloor - oldFloor) * dataBits / 8
      if srcOffset + srcSize ≤ state.stage.recvSize ∧ dstOffset + dstSize ≤ state.stage.rxSize then
        match performReduction cfg.kernel cfg.algorithm (stageOp cfg state.stage.phase)
            state.receivedMeta (slice received.dst (state.stage.rxOffset + dstOffset) dstSize)
            (slice received.recvBuffer srcOffset srcSize) with
        | none => received.terminate
        | some reduced =>
          { received with
            dst := splice received.dst (state.stage.rxOffset + dstOffset) reduced }
      else
        received.terminate
    else
      received

def receiveBytesInplace (capacity : Nat) : List (List Byte) → Option (List Byte) × List (List Byte)
  -- The first frame that fits; larger ones in front of it are dropped.
  | [] => (none, [])
  | frame :: frames =>
    if capacity < frame.length then receiveBytesInplace capacity frames else (some frame, frames)

def endIteration (observed : Observation) (state : RankState) : RankState :=
  -- The end of a loop iteration: the abort packet is looked for after 100 idle rounds.
  let counter := if state.noEvent then state.noEventCtr + 1 else 0
  if 100 < counter then
    if observed.abortPacket then state.giveUp call true true
    else { state with noEventCtr := 0, pc := .send }
  else
    { state with noEventCtr := counter, pc := .send }

def stepSendMeta (observed : Observation) (inbox : List (List Byte)) (state : RankState) : Effect :=
  if observed.socketOpen then
    ⟨{ state with pc := .receiveMeta }, inbox,
      [sendMetaPacket cfg.tag (state.stage.metaSelf.getD .initial)]⟩
  else
    ⟨state.giveUp call false false, inbox, []⟩

def pollAbort (observed : Observation) (inbox : List (List Byte)) (state : RankState) : Effect :=
  if observed.abortPacket then ⟨state.giveUp call true true, inbox, []⟩ else ⟨state, inbox, []⟩

def acceptMeta (metaData : DeQuantizationMetaData) (state : RankState) : RankState :=
  { state with
    receivedMeta := metaData
    prevMeta := if state.stage.phase = .allgather then metaData else state.prevMeta
    pc := .send }

def stepReceiveMeta (observed : Observation) (inbox : List (List Byte)) (state : RankState) :
    Effect :=
  if observed.socketOpen then
    match inbox.take observed.arrived with
    | [] => pollAbort call observed inbox state
    | frame :: _ =>
      if maxFrameSize < frame.length then ⟨state.terminate, inbox, []⟩
      else
        match receiveMetaPacket frame with
        | none => ⟨state.terminate, inbox.tail, []⟩
        | some none => pollAbort call observed inbox.tail state
        | some (some metaData) => ⟨acceptMeta metaData state, inbox.tail, []⟩
  else
    ⟨state.giveUp call false false, inbox, []⟩

def stepSend (observed : Observation) (inbox : List (List Byte)) (state : RankState) : Effect :=
  if state.sent < state.stage.txSize ∨ state.recvd < state.stage.recvSize then
    if state.sent < state.stage.txSize then
      -- A piece of no bytes makes the send thread take the connection for closed.
      if observed.socketOpen ∧ 0 < call.chunkSize then
        let piece := slice state.txSpan state.sent (min call.chunkSize (state.stage.txSize - state.sent))
        ⟨{ state with
            sent := state.sent + min call.chunkSize (state.stage.txSize - state.sent)
            noEvent := false
            pc := .receive },
          inbox, [piece]⟩
      else
        ⟨state.giveUp call false false, inbox, []⟩
    else
      ⟨{ state with noEvent := true, pc := .receive }, inbox, []⟩
  else
    ⟨finishStage cfg plan call state, inbox, []⟩

def stepReceive (observed : Observation) (inbox : List (List Byte)) (state : RankState) : Effect :=
  if state.recvd < state.stage.recvSize then
    if observed.socketOpen then
      if (inbox.take observed.arrived).any fun frame => maxFrameSize < frame.length then
        ⟨state.terminate, inbox, []⟩
      else
        match receiveBytesInplace (state.stage.recvSize - state.recvd)
            (inbox.take observed.arrived) with
        | (none, frames) =>
          ⟨endIteration call observed state, frames ++ inbox.drop observed.arrived, []⟩
        | (some data, frames) =>
          let accepted := acceptData cfg data state
          ⟨if accepted.outcome = .running then endIteration call observed accepted else accepted,
            frames ++ inbox.drop observed.arrived, []⟩
    else
      ⟨state.giveUp call false false, inbox, []⟩
  else
    ⟨endIteration call observed state, inbox, []⟩

def stepRank (observed : Observation) (inbox : List (List Byte)) (state : RankState) : Effect :=
  match state.outcome with
  | .running =>
    match state.pc with
    | .sendMeta => stepSendMeta cfg call observed inbox state
    | .receiveMeta => stepReceiveMeta call observed inbox state
    | .send => stepSend cfg plan call observed inbox state
    | .receive => stepReceive cfg call observed inbox state
  | _ => ⟨state, inbox, []⟩

end Ring

structure Inputs (cfg : Config) where
  source : Nat → List Byte
  source_length : ∀ rank, (source rank).length = cfg.count * cfg.dataType.size
  inPlace : Nat → Bool
  chunkSize : Nat → Nat

abbrev Net := FifoRing.Net RankState (List Byte)

namespace Net

variable (cfg : Config) (inputs : Inputs cfg)

def call (rank : Nat) : Call :=
  ⟨rank, inputs.source rank, inputs.inPlace rank, inputs.chunkSize rank⟩

def start : Net where
  ranks rank := startRank cfg (call cfg inputs rank)
  edges _ := []

def plan : Config.Plan := cfg.plan?.getD ⟨[], 0⟩

def act (rank : Nat) : Observation → List (List Byte) → RankState → Effect :=
  stepRank cfg (plan cfg) (call cfg inputs rank)

def run (schedule : List (Nat × Observation)) : Net :=
  FifoRing.run cfg.worldSize (act cfg inputs) (start cfg inputs) schedule

def Completed (net : Net) : Prop :=
  ∀ rank, rank < cfg.worldSize → (net.ranks rank).outcome = .returned true false

instance (net : Net) : Decidable (Completed cfg net) :=
  inferInstanceAs (Decidable (∀ rank, rank < cfg.worldSize → _))

end Net

end Pccl.Ring
