import Pccl.Ring.Progress

set_option autoImplicit false

namespace Pccl.Ring

open Buffer FifoRing

section Frames

variable (cfg : Config) (inputs : Inputs cfg) (rank : Nat)

/-- A rank does not receive larger pieces than it sends, or each of its chunks is one piece. -/
abbrev Paced : Prop :=
  inputs.chunkSize (pred cfg.worldSize rank) ≤ inputs.chunkSize rank ∨
    ∀ chunk, chunk < cfg.worldSize → cfg.wireSize chunk ≤ inputs.chunkSize rank

def metaFrames (stage : Nat) (pending : Bool) : List (List Byte) :=
  if pending && cfg.quantizedType ≠ cfg.dataType then
    [sendMetaPacket cfg.tag (lockstep cfg inputs stage rank).metaData]
  else []

def dataFrames (stage offset : Nat) : List (List Byte) :=
  cut (inputs.chunkSize rank) ((lockstep cfg inputs stage rank).wire.drop offset)

def framesFrom : (remaining stage : Nat) → List (List Byte)
  | 0, _ => []
  | remaining + 1, stage =>
    metaFrames cfg inputs rank stage true ++
      (dataFrames cfg inputs rank stage 0 ++ framesFrom remaining (stage + 1))

def pendingFrames (stage : Nat) (metaPending : Bool) (offset : Nat) : List (List Byte) :=
  metaFrames cfg inputs rank stage metaPending ++
    (dataFrames cfg inputs rank stage offset ++
      framesFrom cfg inputs rank (2 * cfg.steps - (stage + 1)) (stage + 1))

theorem framesFrom_eq (stage : Nat) (bound : stage < 2 * cfg.steps) :
    framesFrom cfg inputs rank (2 * cfg.steps - stage) stage =
      pendingFrames cfg inputs rank stage true 0 := by
  rw [show 2 * cfg.steps - stage = 2 * cfg.steps - (stage + 1) + 1 by omega, framesFrom,
    pendingFrames]

theorem pendingFrames_next (stage size : Nat) (bound : stage + 1 < 2 * cfg.steps)
    (length : (lockstep cfg inputs stage rank).wire.length = size) :
    pendingFrames cfg inputs rank stage false size =
      pendingFrames cfg inputs rank (stage + 1) true 0 := by
  rw [← framesFrom_eq cfg inputs rank (stage + 1) bound]
  simp [pendingFrames, metaFrames, dataFrames, ← length]

theorem pendingFrames_last (stage size : Nat) (last : stage + 1 = 2 * cfg.steps)
    (length : (lockstep cfg inputs stage rank).wire.length = size) :
    pendingFrames cfg inputs rank stage false size = [] := by
  simp [pendingFrames, metaFrames, dataFrames, ← length, last, framesFrom]

end Frames

section Stages

variable (cfg : Config) (inputs : Inputs cfg) (rank : Nat)

def spansAt (cfg : Config) (rank stage : Nat) : Stage where
  phase := if stage < cfg.steps then .reduceScatter else .allgather
  step := if stage < cfg.steps then stage else stage - cfg.steps
  txSource := .dst
  txOffset := cfg.byteOffset (cfg.txChunk rank stage)
  txSize := cfg.byteSize (cfg.txChunk rank stage)
  rxOffset := cfg.byteOffset (cfg.rxChunk rank stage)
  rxSize := cfg.byteSize (cfg.rxChunk rank stage)
  recvSize := cfg.wireSize (cfg.rxChunk rank stage)
  metaSelf := none

def stageAt (stage : Nat) : Stage :=
  if cfg.quantizes (cfg.txChunk rank stage) then
    { spansAt cfg rank stage with
      txSource := if cfg.steps < stage then .owned else .quantized
      txSize := cfg.wireSize (cfg.txChunk rank stage)
      metaSelf := some (lockstep cfg inputs stage rank).metaData }
  else
    spansAt cfg rank stage

structure Core (stage : Nat) (state : RankState) : Prop where
  running : state.outcome = .running
  bound : stage < 2 * cfg.steps
  spans : state.stage = stageAt cfg inputs rank stage
  dst : state.dst = partialDst cfg inputs rank stage state.recvd
  sent_le : state.sent ≤ cfg.wireSize (cfg.txChunk rank stage)
  recvd_le : state.recvd ≤ cfg.wireSize (cfg.rxChunk rank stage)
  sending : ∀ index, state.sent ≤ index → index < cfg.wireSize (cfg.txChunk rank stage) →
    state.txSpan[index]? = (lockstep cfg inputs stage rank).wire[index]?
  received : ∀ index, index < state.recvd → state.recvBuffer[index]? =
    (lockstep cfg inputs stage (pred cfg.worldSize rank)).wire[index]?
  room : cfg.wireSize (cfg.rxChunk rank stage) ≤ state.recvBuffer.length
  current : cfg.steps ≤ stage → state.currentChunk = cfg.txChunk rank stage

/-- The part of the invariant that depends on where in the stage the rank is. The received chunk may
overwrite the one being forwarded only where it has already been sent. -/
structure InStage (stage : Nat) (state : RankState) : Prop extends
    Core cfg inputs rank stage state where
  exchange : state.pc = .sendMeta ∨ state.pc = .receiveMeta →
    cfg.quantizedType ≠ cfg.dataType ∧ state.sent = 0 ∧ state.recvd = 0
  metaData : state.pc = .send ∨ state.pc = .receive →
    state.receivedMeta = (lockstep cfg inputs stage (pred cfg.worldSize rank)).metaData ∧
      (cfg.quantizing = true → cfg.steps ≤ stage →
        state.prevMeta = (lockstep cfg inputs stage (pred cfg.worldSize rank)).metaData)
  lead : cfg.quantizing = true → cfg.steps < stage →
    (state.pc = .send → state.recvd ≤ state.sent ∨
      state.sent = cfg.wireSize (cfg.txChunk rank stage)) ∧
    (state.pc = .receive → state.recvd + max 1 (inputs.chunkSize rank) ≤ state.sent ∨
      state.sent = cfg.wireSize (cfg.txChunk rank stage))

structure Entered (stage : Nat) (state : RankState) : Prop extends
    InStage cfg inputs rank stage state where
  pc : state.pc = if cfg.quantizedType ≠ cfg.dataType then .sendMeta else .send
  sent : state.sent = 0
  recvd : state.recvd = 0

def metaToSend : Pc → Bool
  | .sendMeta => true
  | _ => false

def metaToReceive : Pc → Bool
  | .sendMeta | .receiveMeta => true
  | _ => false

/-- A rank that ended in any way but `{true, false}`. -/
def Lost (state : RankState) : Prop :=
  state.outcome ≠ .running ∧ state.outcome ≠ .returned true false

def Tracks (state : RankState) (todo expected : List (List Byte)) : Prop :=
  (∃ stage, InStage cfg inputs rank stage state ∧
    todo = pendingFrames cfg inputs rank stage (metaToSend state.pc) state.sent ∧
    expected = pendingFrames cfg inputs (pred cfg.worldSize rank) stage (metaToReceive state.pc)
      state.recvd) ∨
  (state.outcome = .returned true false ∧ todo = [] ∧ expected = [] ∧
    performReduceFinalization cfg.kernel cfg.worldSize cfg.op
      (settled cfg inputs (2 * cfg.steps - 1) rank) = some state.dst)

variable {cfg inputs rank}

theorem Core.congr {stage : Nat} {state other : RankState} (core : Core cfg inputs rank stage state)
    (outcome : other.outcome = state.outcome) (dst : other.dst = state.dst)
    (quantized : other.quantized = state.quantized) (recvBuffer : other.recvBuffer = state.recvBuffer)
    (currentChunk : other.currentChunk = state.currentChunk) (spans : other.stage = state.stage)
    (sent : other.sent = state.sent) (recvd : other.recvd = state.recvd) :
    Core cfg inputs rank stage other := by
  have txSpan : other.txSpan = state.txSpan := by
    simp only [RankState.txSpan, spans, dst, quantized, recvBuffer]
  refine ⟨outcome ▸ core.running, core.bound, spans ▸ core.spans, ?_, sent ▸ core.sent_le,
    recvd ▸ core.recvd_le, ?_, ?_, recvBuffer ▸ core.room, ?_⟩
  · rw [dst, recvd, core.dst]
  · rw [sent, txSpan]
    exact core.sending
  · rw [recvd, recvBuffer]
    exact core.received
  · rw [currentChunk]
    exact core.current

end Stages

section Begin

variable {cfg : Config} (ready : cfg.Ready) (inputs : Inputs cfg) (rank : Nat)

include ready

theorem wireSize_unquantized (chunk : Nat) (plain : cfg.quantizes chunk = false) :
    cfg.wireSize chunk = cfg.byteSize chunk := by
  by_cases quantizing : cfg.quantizing = false
  · exact ready.planned.wireSize_plain quantizing chunk
  · have empty : cfg.chunkEl chunk = 0 := by simpa [Config.quantizes, quantizing] using plain
    simp [Config.byteSize, Config.wireSize, Config.quantizedSize, empty]

theorem plan_chunkEl (chunk : Nat) (inside : chunk < cfg.worldSize) :
    (Net.plan cfg).chunkEl chunk = cfg.chunkEl chunk := by
  rw [Config.Plan.chunkEl, ready.planned.boundary chunk inside]
  rfl

theorem stageSpans?_eq (stage : Nat) (state : RankState) (spans : Stage)
    (computed : stageSpans? cfg (Net.plan cfg) (spansAt cfg rank stage).phase
      (spansAt cfg rank stage).step (cfg.txChunk rank stage) (cfg.rxChunk rank stage) state =
        some spans) :
    spans = spansAt cfg rank stage ∧
      cfg.wireSize (cfg.rxChunk rank stage) ≤ state.recvBuffer.length := by
  have tx := ready.txChunk_lt rank stage
  have rx := ready.rxChunk_lt rank stage
  simp only [stageSpans?, plan_chunkEl ready _ tx, plan_chunkEl ready _ rx,
    ready.planned.boundary _ tx, ready.planned.boundary _ rx] at computed
  split_ifs at computed with inside
  obtain rfl := Option.some.inj computed
  exact ⟨rfl, inside.2.2⟩

theorem stageAt_txSize (stage : Nat) :
    (stageAt cfg inputs rank stage).txSize = cfg.wireSize (cfg.txChunk rank stage) := by
  by_cases quantizes : cfg.quantizes (cfg.txChunk rank stage) = true
  · rw [stageAt, if_pos quantizes]
  · rw [stageAt, if_neg quantizes, wireSize_unquantized ready _ (Bool.eq_false_iff.mpr quantizes)]
    rfl

omit ready in
@[simp] theorem stageAt_rx (stage : Nat) :
    (stageAt cfg inputs rank stage).rxOffset = cfg.byteOffset (cfg.rxChunk rank stage) ∧
      (stageAt cfg inputs rank stage).rxSize = cfg.byteSize (cfg.rxChunk rank stage) ∧
      (stageAt cfg inputs rank stage).recvSize = cfg.wireSize (cfg.rxChunk rank stage) := by
  by_cases quantizes : cfg.quantizes (cfg.txChunk rank stage) = true
  · rw [stageAt, if_pos quantizes]
    exact ⟨rfl, rfl, rfl⟩
  · rw [stageAt, if_neg quantizes]
    exact ⟨rfl, rfl, rfl⟩

omit ready in
theorem stageAt_phase (stage : Nat) :
    (stageAt cfg inputs rank stage).phase = (spansAt cfg rank stage).phase ∧
      (stageAt cfg inputs rank stage).step = (spansAt cfg rank stage).step := by
  by_cases quantizes : cfg.quantizes (cfg.txChunk rank stage) = true
  · rw [stageAt, if_pos quantizes]
    exact ⟨rfl, rfl⟩
  · rw [stageAt, if_neg quantizes]
    exact ⟨rfl, rfl⟩

omit ready in
theorem lockstep_metaData_plain (stage : Nat)
    (plain : cfg.quantizes (cfg.txChunk rank stage) = false) :
    (lockstep cfg inputs stage rank).metaData = .initial := by
  cases stage <;> simp [lockstep, prepare, plain]

omit ready in
theorem stageAt_metaSelf (stage : Nat) :
    (stageAt cfg inputs rank stage).metaSelf.getD .initial =
      (lockstep cfg inputs stage rank).metaData := by
  by_cases quantizes : cfg.quantizes (cfg.txChunk rank stage) = true
  · rw [stageAt, if_pos quantizes]
    rfl
  · rw [stageAt, if_neg quantizes,
      lockstep_metaData_plain inputs rank stage (Bool.eq_false_iff.mpr quantizes)]
    rfl

omit ready in
theorem lockstep_metaData_made (stage : Nat) :
    (lockstep cfg inputs stage rank).metaData.Made ∨
      (lockstep cfg inputs stage rank).metaData = .initial := by
  have prepared (stage rank : Nat) (dst carried : List Byte) (carriedMeta : DeQuantizationMetaData)
      (known : carriedMeta.Made ∨ carriedMeta = .initial) :
      (prepare cfg rank stage dst carried carriedMeta).metaData.Made ∨
        (prepare cfg rank stage dst carried carriedMeta).metaData = .initial := by
    unfold prepare
    simp only
    split_ifs
    · exact known
    · exact .inl (cfg.kernel.quantize_made _ _)
    · exact .inl (cfg.kernel.quantize_made _ _)
    · exact .inr rfl
  induction stage generalizing rank with
  | zero => exact prepared _ _ _ _ _ (.inr rfl)
  | succ stage ih => exact prepared _ _ _ _ _ (ih _)

omit ready in
theorem lost_terminate (state : RankState) : Lost state.terminate := by
  simp [Lost, RankState.terminate]

theorem enterStage_entered (stage : Nat) (state : RankState) (bound : stage < 2 * cfg.steps)
    (running : state.outcome = .running) (dst : state.dst = (lockstep cfg inputs stage rank).dst)
    (sending : ∀ index, index < cfg.wireSize (cfg.txChunk rank stage) →
      (state.enterStage cfg (stageAt cfg inputs rank stage)).txSpan[index]? =
        (lockstep cfg inputs stage rank).wire[index]?)
    (room : cfg.wireSize (cfg.rxChunk rank stage) ≤ state.recvBuffer.length)
    (current : cfg.steps ≤ stage → state.currentChunk = cfg.txChunk rank stage) :
    Entered cfg inputs rank stage (state.enterStage cfg (stageAt cfg inputs rank stage)) := by
  refine ⟨⟨⟨running, bound, rfl, ?_, Nat.zero_le _, Nat.zero_le _, ?_, ?_, room, current⟩, ?_, ?_, ?_⟩,
    rfl, rfl, rfl⟩
  · exact dst.trans (partialDst_zero inputs rank stage ready bound).symm
  · exact fun index _ inside => sending index inside
  · exact fun index inside => absurd inside (Nat.not_lt_zero index)
  · intro exchanging
    refine ⟨fun same => ?_, rfl, rfl⟩
    simp [RankState.enterStage, same] at exchanging
  · intro looping
    have same : cfg.quantizedType = cfg.dataType := by
      by_contra differ
      simp [RankState.enterStage, differ] at looping
    have plain : cfg.quantizing = false := by simp [Config.quantizing, same]
    rw [lockstep_metaData_plain inputs _ stage (by simp [Config.quantizes, plain])]
    exact ⟨rfl, fun quantizing => absurd plain (by simp [quantizing])⟩
  · exact fun _ _ => ⟨fun _ => .inl (Nat.le_refl 0), fun receiving => by
      simp only [RankState.enterStage] at receiving
      split_ifs at receiving⟩

omit ready in
theorem quantizeChunk_eq (txEl : Nat) (stage : Stage) (state : RankState) (wire : List Byte)
    (metaData : DeQuantizationMetaData)
    (quantized : quantizeChunk cfg txEl stage state = some (wire, metaData)) :
    cfg.kernel.quantize (cfg.quantizedSize txEl) (slice state.dst stage.txOffset stage.txSize) =
      (wire, metaData) := by
  unfold quantizeChunk performQuantization at quantized
  split_ifs at quantized
  exact Option.some.inj quantized

omit ready in
theorem quantizedStage_eq (stage : Nat) (txSource : TxSource) (metaData : DeQuantizationMetaData)
    (quantizes : cfg.quantizes (cfg.txChunk rank stage) = true)
    (source : txSource = if cfg.steps < stage then .owned else .quantized)
    (same : (lockstep cfg inputs stage rank).metaData = metaData) :
    quantizedStage cfg (cfg.chunkEl (cfg.txChunk rank stage)) txSource metaData
      (spansAt cfg rank stage) = stageAt cfg inputs rank stage := by
  rw [stageAt, if_pos quantizes, same, source]
  rfl

theorem enterPlain_entered (stage : Nat) (state : RankState) (carried : List Byte)
    (carriedMeta : DeQuantizationMetaData) (bound : stage < 2 * cfg.steps)
    (running : state.outcome = .running)
    (own : lockstep cfg inputs stage rank = prepare cfg rank stage state.dst carried carriedMeta)
    (room : cfg.wireSize (cfg.rxChunk rank stage) ≤ state.recvBuffer.length)
    (current : cfg.steps ≤ stage → state.currentChunk = cfg.txChunk rank stage)
    (plain : ¬ cfg.quantizes (cfg.txChunk rank stage) = true) :
    Entered cfg inputs rank stage (state.enterStage cfg (spansAt cfg rank stage)) := by
  have snapshot : lockstep cfg inputs stage rank =
      ⟨state.dst, cfg.chunkOf state.dst (cfg.txChunk rank stage), .initial⟩ := by
    rw [own]
    simp [prepare, plain]
  have stage_eq : stageAt cfg inputs rank stage = spansAt cfg rank stage := if_neg plain
  rw [← stage_eq]
  refine enterStage_entered ready inputs rank stage _ bound running (by rw [snapshot]) ?_ room current
  intro index inside
  simp [RankState.txSpan, RankState.enterStage, stage_eq, snapshot, Config.chunkOf, spansAt]

theorem enterQuantized_entered (stage : Nat) (state : RankState) (carried : List Byte)
    (carriedMeta : DeQuantizationMetaData) (reducing : stage < cfg.steps)
    (running : state.outcome = .running)
    (own : lockstep cfg inputs stage rank = prepare cfg rank stage state.dst carried carriedMeta)
    (room : cfg.wireSize (cfg.rxChunk rank stage) ≤ state.recvBuffer.length)
    (quantizes : cfg.quantizes (cfg.txChunk rank stage) = true) :
    let entered := enterQuantized cfg (cfg.chunkEl (cfg.txChunk rank stage)) (spansAt cfg rank stage)
      state
    Lost entered ∨ Entered cfg inputs rank stage entered := by
  intro entered
  unfold entered enterQuantized
  cases quantized : quantizeChunk cfg (cfg.chunkEl (cfg.txChunk rank stage))
      (spansAt cfg rank stage) state with
  | none => exact .inl (lost_terminate _)
  | some result =>
    obtain ⟨wire, metaData⟩ := result
    have bytes : cfg.kernel.quantize (cfg.wireSize (cfg.txChunk rank stage))
        (cfg.chunkOf state.dst (cfg.txChunk rank stage)) = (wire, metaData) :=
      quantizeChunk_eq _ _ _ _ _ quantized
    have late : ¬ cfg.steps < stage := by omega
    have snapshot : lockstep cfg inputs stage rank = ⟨state.dst, wire, metaData⟩ := by
      rw [own]
      simp [prepare, quantizes, late, bytes, show ¬ stage = cfg.steps by omega]
    right
    simp only
    rw [quantizedStage_eq inputs rank stage .quantized metaData quantizes (if_neg late).symm
      (by rw [snapshot])]
    refine enterStage_entered ready inputs rank stage _ (by omega) running (by rw [snapshot]) ?_ room
      fun gathering => absurd reducing (by omega)
    intro index inside
    simp [RankState.txSpan, RankState.enterStage, stageAt, quantizes, late, snapshot]

theorem enterOwned_entered (state : RankState) (carried : List Byte)
    (carriedMeta : DeQuantizationMetaData) (running : state.outcome = .running)
    (own : lockstep cfg inputs cfg.steps rank =
      prepare cfg rank cfg.steps state.dst carried carriedMeta)
    (room : cfg.wireSize (cfg.rxChunk rank cfg.steps) ≤ state.recvBuffer.length)
    (current : state.currentChunk = cfg.txChunk rank cfg.steps)
    (quantizes : cfg.quantizes (cfg.txChunk rank cfg.steps) = true) :
    let entered := enterOwned cfg (cfg.chunkEl (cfg.txChunk rank cfg.steps))
      (spansAt cfg rank cfg.steps) state
    Lost entered ∨ Entered cfg inputs rank cfg.steps entered := by
  intro entered
  unfold entered enterOwned
  cases quantized : quantizeChunk cfg (cfg.chunkEl (cfg.txChunk rank cfg.steps))
      (spansAt cfg rank cfg.steps) state with
  | none => exact .inl (lost_terminate _)
  | some result =>
    obtain ⟨wire, metaData⟩ := result
    have bytes : cfg.kernel.quantize (cfg.wireSize (cfg.txChunk rank cfg.steps))
        (cfg.chunkOf state.dst (cfg.txChunk rank cfg.steps)) = (wire, metaData) :=
      quantizeChunk_eq _ _ _ _ _ quantized
    have snapshot : lockstep cfg inputs cfg.steps rank =
        ⟨splice state.dst (cfg.byteOffset (cfg.txChunk rank cfg.steps))
          (reduceElements cfg.kernel .set metaData
            (cfg.chunkOf state.dst (cfg.txChunk rank cfg.steps)) wire), wire, metaData⟩ := by
      rw [own]
      simp [prepare, quantizes, bytes]
    simp only [performReduction]
    split_ifs with supported
    swap
    · exact .inl (lost_terminate _)
    right
    simp only
    rw [quantizedStage_eq inputs rank cfg.steps .quantized metaData quantizes (by simp)
      (by rw [snapshot])]
    have positive : 0 < cfg.steps := Nat.sub_pos_of_lt ready.pair
    refine enterStage_entered ready inputs rank cfg.steps _ (by omega) running
      (by rw [snapshot]; rfl) ?_ room fun _ => current
    intro index inside
    simp [RankState.txSpan, RankState.enterStage, stageAt, quantizes, snapshot]

theorem enterForwarding_entered (stage : Nat) (state : RankState) (carried : List Byte)
    (bound : stage < 2 * cfg.steps) (forwarding : cfg.steps < stage)
    (running : state.outcome = .running)
    (own : lockstep cfg inputs stage rank =
      prepare cfg rank stage state.dst carried state.prevMeta)
    (room : cfg.wireSize (cfg.rxChunk rank stage) ≤ state.recvBuffer.length)
    (current : state.currentChunk = cfg.txChunk rank stage)
    (held : ∀ index, index < cfg.wireSize (cfg.txChunk rank stage) →
      state.recvBuffer[index]? = carried[index]?)
    (quantizes : cfg.quantizes (cfg.txChunk rank stage) = true) :
    Entered cfg inputs rank stage
      (enterForwarding cfg (cfg.chunkEl (cfg.txChunk rank stage)) (spansAt cfg rank stage) state) := by
  have snapshot : lockstep cfg inputs stage rank = ⟨state.dst, carried, state.prevMeta⟩ := by
    rw [own]
    simp [prepare, quantizes, forwarding]
  rw [enterForwarding, quantizedStage_eq inputs rank stage .owned state.prevMeta quantizes
    (if_pos forwarding).symm (by rw [snapshot])]
  refine enterStage_entered ready inputs rank stage _ bound running (by rw [snapshot]) ?_ room
    fun _ => current
  intro index inside
  simp [RankState.txSpan, RankState.enterStage, stageAt, quantizes, forwarding, snapshot,
    slice_getElem?, inside, held]

theorem beginReduceStage_entered (stage : Nat) (state : RankState) (carried : List Byte)
    (carriedMeta : DeQuantizationMetaData) (reducing : stage < cfg.steps)
    (running : state.outcome = .running)
    (own : lockstep cfg inputs stage rank = prepare cfg rank stage state.dst carried carriedMeta) :
    let begun := beginReduceStage cfg (Net.plan cfg) (Net.call cfg inputs rank) stage state
    Lost begun ∨ Entered cfg inputs rank stage begun := by
  have worlds : cfg.steps = cfg.worldSize - 1 := rfl
  have tx : (rank + cfg.worldSize - stage) % cfg.worldSize = cfg.txChunk rank stage := by
    rw [Config.txChunk, if_pos reducing, Nat.add_sub_assoc (by omega)]
  have rx : (rank + cfg.worldSize - stage - 1) % cfg.worldSize = cfg.rxChunk rank stage := by
    rw [Config.rxChunk, pred, ← tx, Nat.add_sub_assoc ready.one_le, Nat.mod_add_mod,
      show rank + cfg.worldSize - stage + (cfg.worldSize - 1) =
        rank + cfg.worldSize - stage - 1 + cfg.worldSize by omega, Nat.add_mod_right]
  have phase : (spansAt cfg rank stage).phase = .reduceScatter := if_pos reducing
  have step : (spansAt cfg rank stage).step = stage := if_pos reducing
  intro begun
  unfold begun beginReduceStage
  simp only [Net.call, tx, rx, plan_chunkEl ready _ (ready.txChunk_lt rank stage)]
  cases computed : stageSpans? cfg (Net.plan cfg) .reduceScatter stage (cfg.txChunk rank stage)
      (cfg.rxChunk rank stage) state with
  | none => exact .inl (lost_terminate _)
  | some spans =>
    obtain ⟨rfl, room⟩ := stageSpans?_eq ready rank stage state spans (by rwa [phase, step])
    change Lost (if cfg.quantizes (cfg.txChunk rank stage) = true then _ else _) ∨
      Entered cfg inputs rank stage (if cfg.quantizes (cfg.txChunk rank stage) = true then _ else _)
    split_ifs with quantizes
    · exact enterQuantized_entered ready inputs rank stage state carried carriedMeta reducing running
        own room quantizes
    · exact .inr (enterPlain_entered ready inputs rank stage state carried carriedMeta (by omega)
        running own room (fun gathering => absurd reducing (by omega)) quantizes)

theorem beginAllgatherStage_entered (stage : Nat) (state : RankState) (carried : List Byte)
    (carriedMeta : DeQuantizationMetaData) (bound : stage < 2 * cfg.steps)
    (gathering : cfg.steps ≤ stage) (running : state.outcome = .running)
    (own : lockstep cfg inputs stage rank = prepare cfg rank stage state.dst carried carriedMeta)
    (current : state.currentChunk = cfg.txChunk rank stage)
    (held : cfg.quantizing = true → cfg.steps < stage → carriedMeta = state.prevMeta ∧
      ∀ index, index < cfg.wireSize (cfg.txChunk rank stage) →
        state.recvBuffer[index]? = carried[index]?) :
    let begun := beginAllgatherStage cfg (Net.plan cfg) (stage - cfg.steps) state
    Lost begun ∨ Entered cfg inputs rank stage begun := by
  have rx : (cfg.txChunk rank stage + cfg.worldSize - 1) % cfg.worldSize = cfg.rxChunk rank stage := rfl
  have phase : (spansAt cfg rank stage).phase = .allgather := if_neg (by omega)
  have step : (spansAt cfg rank stage).step = stage - cfg.steps := if_neg (by omega)
  intro begun
  unfold begun beginAllgatherStage
  simp only [current, rx, plan_chunkEl ready _ (ready.txChunk_lt rank stage)]
  cases computed : stageSpans? cfg (Net.plan cfg) .allgather (stage - cfg.steps)
      (cfg.txChunk rank stage) (cfg.rxChunk rank stage) state with
  | none => exact .inl (lost_terminate _)
  | some spans =>
    obtain ⟨rfl, room⟩ := stageSpans?_eq ready rank stage state spans (by rwa [phase, step])
    change Lost (if cfg.quantizes (cfg.txChunk rank stage) = true then _ else _) ∨
      Entered cfg inputs rank stage (if cfg.quantizes (cfg.txChunk rank stage) = true then _ else _)
    by_cases quantizes : cfg.quantizes (cfg.txChunk rank stage) = true
    · have quantizing : cfg.quantizing = true := by
        rw [Config.quantizes, Bool.and_eq_true] at quantizes
        exact quantizes.1
      simp only [quantizes, if_true]
      by_cases first : stage = cfg.steps
      · subst first
        simp only [Nat.sub_self, if_true]
        exact enterOwned_entered ready inputs rank state carried carriedMeta running own room current
          quantizes
      · have forwarding : cfg.steps < stage := by omega
        obtain ⟨same, bytes⟩ := held quantizing forwarding
        rw [if_neg (by omega)]
        exact .inr (enterForwarding_entered ready inputs rank stage state carried bound forwarding
          running (same ▸ own) room current bytes quantizes)
    · simp only [quantizes]
      exact .inr (enterPlain_entered ready inputs rank stage state carried carriedMeta bound running
        own room (fun _ => current) quantizes)

omit ready in
theorem finalize_returned (state : RankState) :
    Lost (finalize cfg state) ∨ (finalize cfg state).outcome = .returned true false ∧
      performReduceFinalization cfg.kernel cfg.worldSize cfg.op state.dst =
        some (finalize cfg state).dst := by
  unfold finalize
  cases finished : performReduceFinalization cfg.kernel cfg.worldSize cfg.op state.dst with
  | none => exact .inl (lost_terminate _)
  | some dst => exact .inr ⟨rfl, rfl⟩

theorem finishStage_next (stage : Nat) (state : RankState)
    (inStage : InStage cfg inputs rank stage state) (looping : state.pc = .send)
    (complete : state.recvd = cfg.wireSize (cfg.rxChunk rank stage))
    (more : stage + 1 < 2 * cfg.steps) :
    let finished := finishStage cfg (Net.plan cfg) (Net.call cfg inputs rank) state
    Lost finished ∨ Entered cfg inputs rank (stage + 1) finished := by
  have dst : state.dst = settled cfg inputs stage rank := by
    rw [inStage.dst, complete, partialDst_full inputs rank stage ready inStage.bound]
  have own : lockstep cfg inputs (stage + 1) rank =
      prepare cfg rank (stage + 1) state.dst
        (lockstep cfg inputs stage (pred cfg.worldSize rank)).wire
        (lockstep cfg inputs stage (pred cfg.worldSize rank)).metaData := by
    rw [dst, lockstep, settled]
  obtain ⟨phase, step⟩ := stageAt_phase inputs rank stage
  rw [← inStage.spans] at phase step
  intro finished
  unfold finished finishStage
  simp only [phase, step, ready.stepCount]
  by_cases reducing : stage < cfg.steps
  · simp only [spansAt, reducing, if_true]
    split_ifs with again
    · exact beginReduceStage_entered ready inputs rank (stage + 1) state _ _ again inStage.running own
    · have first : stage + 1 = cfg.steps := by omega
      rw [first] at own ⊢
      have begun := beginAllgatherStage_entered ready inputs rank cfg.steps
        { state with
          recvBuffer := List.replicate (cfg.quantizedSize (Net.plan cfg).maxChunkEl) 0
          prevMeta := .initial
          currentChunk := (rank + 1) % cfg.worldSize }
        _ _ (by omega) (Nat.le_refl _) inStage.running own (cfg.txChunk_gather rank).symm
        (fun _ late => absurd late (Nat.lt_irrefl _))
      rwa [Nat.sub_self] at begun
  · simp only [spansAt, reducing, if_false]
    rw [if_pos (by omega)]
    have chunk := ready.txChunk_succ rank stage (by omega) more
    have begun := beginAllgatherStage_entered ready inputs rank (stage + 1)
      { state with
        currentChunk := (state.currentChunk + cfg.worldSize - 1) % cfg.worldSize }
      _ _ more (by omega) inStage.running own
      (by rw [chunk, inStage.current (by omega)]; rfl)
      (fun quantizing late =>
        ⟨((inStage.metaData (.inl looping)).2 quantizing (by omega)).symm, fun index inside =>
          inStage.received index (by rwa [complete, ← chunk])⟩)
    rwa [Nat.sub_add_comm (by omega)] at begun

theorem finishStage_last (stage : Nat) (state : RankState)
    (inStage : InStage cfg inputs rank stage state)
    (complete : state.recvd = cfg.wireSize (cfg.rxChunk rank stage))
    (last : stage + 1 = 2 * cfg.steps) :
    let finished := finishStage cfg (Net.plan cfg) (Net.call cfg inputs rank) state
    Lost finished ∨ finished.outcome = .returned true false ∧
      performReduceFinalization cfg.kernel cfg.worldSize cfg.op
        (settled cfg inputs (2 * cfg.steps - 1) rank) = some finished.dst := by
  have dst : settled cfg inputs (2 * cfg.steps - 1) rank = state.dst := by
    rw [inStage.dst, complete, partialDst_full inputs rank stage ready inStage.bound,
      show 2 * cfg.steps - 1 = stage by omega]
  obtain ⟨phase, step⟩ := stageAt_phase inputs rank stage
  rw [← inStage.spans] at phase step
  have positive : 0 < cfg.steps := Nat.sub_pos_of_lt ready.pair
  intro finished
  unfold finished finishStage
  simp only [phase, step, ready.stepCount, spansAt, show ¬ stage < cfg.steps by omega, if_false]
  rw [if_neg (by omega), dst]
  exact finalize_returned _

end Begin

end Pccl.Ring
