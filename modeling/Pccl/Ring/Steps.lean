import Pccl.Ring.Refinement

set_option autoImplicit false

namespace Pccl.Ring

open Buffer FifoRing

section Receive

variable {cfg : Config} (ready : cfg.Ready) (inputs : Inputs cfg) (rank : Nat)

include ready

omit ready in
theorem lockstep_wire_plain (stage : Nat)
    (plain : ¬ cfg.quantizes (cfg.txChunk rank stage) = true) :
    (lockstep cfg inputs stage rank).wire =
      cfg.chunkOf (lockstep cfg inputs stage rank).dst (cfg.txChunk rank stage) := by
  cases stage <;> simp [lockstep, prepare, plain]

theorem Core.length_sender (stage : Nat) (state : RankState)
    (core : Core cfg inputs rank stage state) :
    (lockstep cfg inputs stage (pred cfg.worldSize rank)).wire.length =
      cfg.wireSize (cfg.rxChunk rank stage) := by
  rw [(lockstep_sized ready inputs stage _ core.bound).2, ready.txChunk_pred]

theorem Core.received_piece (stage length : Nat) (state : RankState)
    (core : Core cfg inputs rank stage state)
    (inside : state.recvd + length ≤ cfg.wireSize (cfg.rxChunk rank stage)) (index : Nat)
    (small : index < state.recvd + length) :
    (splice state.recvBuffer state.recvd
      (slice (lockstep cfg inputs stage (pred cfg.worldSize rank)).wire state.recvd length))[index]? =
      (lockstep cfg inputs stage (pred cfg.worldSize rank)).wire[index]? := by
  have wire := core.length_sender ready
  have room := core.room
  have piece := length_slice_of_le (lockstep cfg inputs stage (pred cfg.worldSize rank)).wire
    state.recvd length (by omega)
  rw [splice_getElem? _ _ _ _ (by omega), piece]
  split_ifs with old
  · exact core.received index old
  · rw [slice_getElem?, if_pos (by omega), Nat.add_sub_cancel' (by omega)]

theorem Core.receive (stage length : Nat) (state other : RankState)
    (core : Core cfg inputs rank stage state)
    (inside : state.recvd + length ≤ cfg.wireSize (cfg.rxChunk rank stage))
    (lead : cfg.quantizing = true → cfg.steps < stage → state.recvd + length ≤ state.sent ∨
      state.sent = cfg.wireSize (cfg.txChunk rank stage))
    (outcome : other.outcome = .running)
    (dst : other.dst = partialDst cfg inputs rank stage (state.recvd + length))
    (quantized : other.quantized = state.quantized)
    (recvBuffer : other.recvBuffer = splice state.recvBuffer state.recvd
      (slice (lockstep cfg inputs stage (pred cfg.worldSize rank)).wire state.recvd length))
    (currentChunk : other.currentChunk = state.currentChunk) (spans : other.stage = state.stage)
    (sent : other.sent = state.sent) (recvd : other.recvd = state.recvd + length) :
    Core cfg inputs rank stage other := by
  have wire := core.length_sender ready
  have piece := length_slice_of_le (lockstep cfg inputs stage (pred cfg.worldSize rank)).wire
    state.recvd length (by omega)
  have room := core.room
  have bytes (index : Nat) := splice_getElem? state.recvBuffer state.recvd
    (slice (lockstep cfg inputs stage (pred cfg.worldSize rank)).wire state.recvd length) index
    (by omega)
  refine ⟨outcome, core.bound, spans ▸ core.spans, by rw [dst, recvd], sent ▸ core.sent_le,
    recvd ▸ inside, ?_, ?_, ?_, ?_⟩
  · -- Each of the three sources keeps what is still to be sent.
    intro index later small
    have before := core.sending index (sent ▸ later) small
    by_cases quantizes : cfg.quantizes (cfg.txChunk rank stage) = true
    · by_cases forwarding : cfg.steps < stage
      · have source : state.stage.txSource = .owned := by
          simp [core.spans, stageAt, quantizes, forwarding]
        have quantizing : cfg.quantizing = true := by
          rw [Config.quantizes, Bool.and_eq_true] at quantizes
          exact quantizes.1
        have passed : state.recvd + length ≤ index := by
          rcases lead quantizing forwarding with ahead | done <;> omega
        have kept : other.recvBuffer[index]? = state.recvBuffer[index]? := by
          rw [recvBuffer, bytes, piece, if_neg (by omega), if_neg (by omega)]
        simp only [RankState.txSpan, spans, source, slice_getElem?, Nat.zero_add] at before ⊢
        rw [kept]
        exact before
      · have source : state.stage.txSource = .quantized := by
          simp [core.spans, stageAt, quantizes, forwarding]
        simpa only [RankState.txSpan, spans, source, quantized] using before
    · have source : state.stage = spansAt cfg rank stage := by
        rw [core.spans, stageAt, if_neg quantizes]
      have kept := chunkOf_partialDst inputs rank stage ready core.bound _ (cfg.txChunk rank stage)
        inside (ready.txChunk_ne_rxChunk rank stage)
      rw [lockstep_wire_plain inputs rank stage quantizes, ← kept, ← dst]
      simp only [RankState.txSpan, spans, source, spansAt, Config.chunkOf]
  · intro index small
    rw [recvBuffer]
    exact core.received_piece ready inputs rank stage length state inside index (recvd ▸ small)
  · rw [recvBuffer, length_splice _ _ _ (by omega)]
    exact room
  · rw [currentChunk]
    exact core.current

theorem acceptData_core (stage length : Nat) (state : RankState)
    (inStage : InStage cfg inputs rank stage state) (receiving : state.pc = .receive)
    (positive : 0 < length)
    (inside : state.recvd + length ≤ cfg.wireSize (cfg.rxChunk rank stage))
    (lead : cfg.quantizing = true → cfg.steps < stage → state.recvd + length ≤ state.sent ∨
      state.sent = cfg.wireSize (cfg.txChunk rank stage)) :
    let accepted := acceptData cfg
      (slice (lockstep cfg inputs stage (pred cfg.worldSize rank)).wire state.recvd length) state
    Lost accepted ∨ Core cfg inputs rank stage accepted ∧
      accepted.recvd = state.recvd + length ∧ accepted.sent = state.sent ∧
      accepted.receivedMeta = state.receivedMeta ∧ accepted.prevMeta = state.prevMeta := by
  have wire := inStage.length_sender ready
  have piece := length_slice_of_le (lockstep cfg inputs stage (pred cfg.worldSize rank)).wire
    state.recvd length (by omega)
  obtain ⟨rxOffset, rxSize, recvSize⟩ := stageAt_rx inputs rank stage
  have phase := (stageAt_phase inputs rank stage).1
  rw [← inStage.spans] at rxOffset rxSize recvSize phase
  have op : stageOp cfg state.stage.phase = cfg.opOf stage := by
    rw [phase, Config.opOf, spansAt]
    split_ifs <;> rfl
  have reduces : (landing inputs rank stage ready inStage.bound).Reduces state :=
    ⟨rxOffset, rxSize, recvSize, op, (inStage.metaData (.inr receiving)).1, inStage.dst⟩
  have received := inStage.received_piece ready inputs rank stage length state inside
  rw [← piece] at positive inside
  rcases reduces.accept positive.ne' inside (fun index small => received index (piece ▸ small)) with
    same | ⟨_, terminated⟩
  · right
    rw [same, piece]
    exact ⟨Core.receive ready inputs rank stage length state _ inStage.toCore (piece ▸ inside) lead
      inStage.running rfl rfl rfl rfl rfl rfl rfl, rfl, rfl, rfl, rfl⟩
  · exact .inl (by simp [Lost, terminated])

end Receive

section Advance

variable {cfg : Config} (ready : cfg.Ready) (inputs : Inputs cfg) (rank : Nat)

/-- What one action of a rank owes to the ring. -/
def Advances (cfg : Config) (inputs : Inputs cfg) (rank : Nat) (inbox todo expected : List (List Byte))
    (effect : Effect) : Prop :=
  Lost effect.state ∨ ∃ todo' expected' taken,
    Tracks cfg inputs rank effect.state todo' expected' ∧ todo = effect.outgoing ++ todo' ∧
      inbox = taken ++ effect.inbox ∧ expected = taken ++ expected'

theorem lost_giveUp_false (call : Call) (state : RankState) :
    Lost (state.giveUp call false false) := by
  simp [Lost, RankState.giveUp]

theorem lost_giveUp_abort (call : Call) (state : RankState) :
    Lost (state.giveUp call true true) := by
  simp [Lost, RankState.giveUp]

theorem metaFrames_differ (stage : Nat) (differ : cfg.quantizedType ≠ cfg.dataType) :
    metaFrames cfg inputs rank stage true =
      [sendMetaPacket cfg.tag (lockstep cfg inputs stage rank).metaData] := by
  simp [metaFrames, differ]

theorem stepSendMeta_advances (observed : Observation) (inbox : List (List Byte))
    (state : RankState) (stage : Nat) (inStage : InStage cfg inputs rank stage state)
    (sending : state.pc = .sendMeta) :
    Advances cfg inputs rank inbox
      (pendingFrames cfg inputs rank stage true state.sent)
      (pendingFrames cfg inputs (pred cfg.worldSize rank) stage true state.recvd)
      (stepSendMeta cfg (Net.call cfg inputs rank) observed inbox state) := by
  have exchange := inStage.exchange (.inl sending)
  unfold stepSendMeta
  split_ifs
  · have next : InStage cfg inputs rank stage { state with pc := .receiveMeta } :=
      ⟨inStage.toCore.congr rfl rfl rfl rfl rfl rfl rfl rfl, fun _ => exchange,
        fun looping => by simp at looping, fun _ _ => ⟨fun looping => by simp at looping,
          fun looping => by simp at looping⟩⟩
    refine .inr ⟨_, _, [], .inl ⟨stage, next, rfl, rfl⟩, ?_, rfl, rfl⟩
    rw [pendingFrames, metaFrames_differ _ _ _ exchange.1, inStage.spans, stageAt_metaSelf]
    rfl
  · exact .inl (lost_giveUp_false _ _)

theorem stepReceiveMeta_advances (observed : Observation) (inbox : List (List Byte))
    (state : RankState) (stage : Nat) (inStage : InStage cfg inputs rank stage state)
    (receiving : state.pc = .receiveMeta)
    (front : inbox <+: pendingFrames cfg inputs (pred cfg.worldSize rank) stage true state.recvd) :
    Advances cfg inputs rank inbox
      (pendingFrames cfg inputs rank stage false state.sent)
      (pendingFrames cfg inputs (pred cfg.worldSize rank) stage true state.recvd)
      (stepReceiveMeta (Net.call cfg inputs rank) observed inbox state) := by
  have exchange := inStage.exchange (.inr receiving)
  rw [pendingFrames, metaFrames_differ _ _ _ exchange.1] at front
  unfold stepReceiveMeta
  by_cases opened : observed.socketOpen = true
  swap
  · rw [if_neg opened]
    exact .inl (lost_giveUp_false _ _)
  rw [if_pos opened]
  cases arrived : inbox.take observed.arrived with
  | nil =>
    simp only [pollAbort]
    split_ifs
    · exact .inl (lost_giveUp_abort _ _)
    · exact .inr ⟨_, _, [], .inl ⟨stage, inStage, by rw [receiving]; rfl, by rw [receiving]; rfl⟩,
        rfl, rfl, rfl⟩
  | cons frame frames =>
    -- The first frame that arrives is the metadata of the predecessor's stage.
    have split : frame :: frames ++ inbox.drop observed.arrived = inbox :=
      arrived ▸ List.take_append_drop observed.arrived inbox
    have whole : frame :: inbox.tail = inbox := by
      rw [← congrArg List.tail split]
      exact split
    obtain ⟨rest, all⟩ := front
    rw [← whole] at all
    have first : frame = sendMetaPacket cfg.tag
        (lockstep cfg inputs stage (pred cfg.worldSize rank)).metaData := by
      simpa using congrArg List.head? all
    simp only
    by_cases large : maxFrameSize < frame.length
    · rw [if_pos large]
      exact .inl (lost_terminate _)
    rw [if_neg large, first, receiveMetaPacket_sendMetaPacket]
    rcases lockstep_metaData_made inputs (pred cfg.worldSize rank) stage with made | empty
    swap
    · rw [empty, DeQuantizationMetaData.deserialize_initial]
      exact .inl (lost_terminate _)
    rw [DeQuantizationMetaData.deserialize_serialize _ made]
    refine .inr ⟨pendingFrames cfg inputs rank stage false state.sent,
      pendingFrames cfg inputs (pred cfg.worldSize rank) stage false state.recvd, [frame],
      .inl ⟨stage, ⟨inStage.toCore.congr rfl rfl rfl rfl rfl rfl rfl rfl, ?_, ?_, ?_⟩, rfl, rfl⟩,
      rfl, whole.symm, ?_⟩
    · exact fun exchanging => by simp [acceptMeta] at exchanging
    · refine fun _ => ⟨rfl, fun _ gathering => ?_⟩
      have phase : state.stage.phase = .allgather := by
        rw [inStage.spans, (stageAt_phase inputs rank stage).1]
        exact if_neg (by omega)
      simp [acceptMeta, phase]
    · refine fun _ _ => ⟨fun _ => .inl ?_, fun looping => by simp [acceptMeta] at looping⟩
      change state.recvd ≤ state.sent
      omega
    · rw [pendingFrames, metaFrames_differ _ _ _ exchange.1, first]
      rfl

theorem dataFrames_send (stage sent : Nat) (positive : 0 < inputs.chunkSize rank)
    (more : sent < (lockstep cfg inputs stage rank).wire.length) :
    let size := min (inputs.chunkSize rank) ((lockstep cfg inputs stage rank).wire.length - sent)
    dataFrames cfg inputs rank stage sent =
      slice (lockstep cfg inputs stage rank).wire sent size ::
        dataFrames cfg inputs rank stage (sent + size) := by
  intro size
  have present : (lockstep cfg inputs stage rank).wire.drop sent ≠ [] := by
    rw [Ne, List.drop_eq_nil_iff]
    omega
  rw [dataFrames, cut_of_ne_nil _ _ positive present, dataFrames, slice, List.drop_drop]
  congr 1
  · rw [List.take_eq_take_iff, List.length_drop]
    omega
  · by_cases short : size = inputs.chunkSize rank
    · rw [short]
    · rw [List.drop_of_length_le (by omega), List.drop_of_length_le (by omega)]

theorem dataFrames_cases (stage recvd : Nat)
    (more : recvd < (lockstep cfg inputs stage rank).wire.length) :
    ∃ length, 0 < length ∧ recvd + length ≤ (lockstep cfg inputs stage rank).wire.length ∧
      length ≤ max 1 (inputs.chunkSize rank) ∧
      dataFrames cfg inputs rank stage recvd =
        slice (lockstep cfg inputs stage rank).wire recvd length ::
          dataFrames cfg inputs rank stage (recvd + length) := by
  have present : (lockstep cfg inputs stage rank).wire.drop recvd ≠ [] := by
    rw [Ne, List.drop_eq_nil_iff]
    omega
  obtain ⟨length, positive, bound, size, frames⟩ :=
    cut_cases (inputs.chunkSize rank) ((lockstep cfg inputs stage rank).wire.drop recvd) present
  rw [List.length_drop] at bound
  refine ⟨length, positive, by omega, size, ?_⟩
  rw [dataFrames, frames, List.drop_drop, slice, dataFrames]

theorem Entered.pendingFrames_eq (stage other : Nat) (state : RankState)
    (entered : Entered cfg inputs rank stage state) :
    pendingFrames cfg inputs other stage (metaToSend state.pc) state.sent =
        pendingFrames cfg inputs other stage true 0 ∧
      pendingFrames cfg inputs other stage (metaToReceive state.pc) state.recvd =
        pendingFrames cfg inputs other stage true 0 := by
  rw [entered.pc, entered.sent, entered.recvd]
  by_cases differ : cfg.quantizedType ≠ cfg.dataType
  · simp [pendingFrames, metaFrames, metaToSend, metaToReceive, differ]
  · simp [pendingFrames, metaFrames, differ]

theorem Entered.tracks (stage : Nat) (state : RankState)
    (entered : Entered cfg inputs rank stage state) :
    Tracks cfg inputs rank state (pendingFrames cfg inputs rank stage true 0)
      (pendingFrames cfg inputs (pred cfg.worldSize rank) stage true 0) := by
  refine .inl ⟨stage, entered.toInStage, ?_, ?_⟩
  · exact (entered.pendingFrames_eq inputs rank stage rank state).1.symm
  · exact (entered.pendingFrames_eq inputs rank stage _ state).2.symm

theorem InStage.sendPiece (stage : Nat) (state : RankState)
    (inStage : InStage cfg inputs rank stage state) (looping : state.pc = .send)
    (positive : 0 < inputs.chunkSize rank)
    (more : state.sent < cfg.wireSize (cfg.txChunk rank stage)) :
    InStage cfg inputs rank stage
      { state with
        sent := state.sent +
          min (inputs.chunkSize rank) (cfg.wireSize (cfg.txChunk rank stage) - state.sent)
        noEvent := false
        pc := .receive } := by
  have core := inStage.toCore
  refine ⟨⟨core.running, core.bound, core.spans, core.dst, ?_, core.recvd_le, ?_, core.received,
    core.room, core.current⟩, ?_, fun _ => inStage.metaData (.inl looping), ?_⟩
  · change _ + _ ≤ _
    omega
  · intro index later small
    exact core.sending index (Nat.le_trans (Nat.le_add_right _ _) later) small
  · exact fun exchanging => by simp at exchanging
  · intro quantizing forwarding
    have ahead := (inStage.lead quantizing forwarding).1 looping
    refine ⟨fun waiting => by simp at waiting, fun _ => ?_⟩
    change state.recvd + _ ≤ state.sent + _ ∨ state.sent + _ = _
    omega

theorem Core.piece (stage : Nat) (state : RankState) (length : Nat)
    (core : Core cfg inputs rank stage state)
    (inside : state.sent + length ≤ cfg.wireSize (cfg.txChunk rank stage)) :
    slice state.txSpan state.sent length =
      slice (lockstep cfg inputs stage rank).wire state.sent length := by
  apply List.ext_getElem?
  intro index
  rw [slice_getElem?, slice_getElem?]
  split_ifs with small
  · exact core.sending _ (Nat.le_add_right _ _) (by omega)
  · rfl

theorem InStage.skipSend (stage : Nat) (state : RankState)
    (inStage : InStage cfg inputs rank stage state) (looping : state.pc = .send)
    (all : state.sent = cfg.wireSize (cfg.txChunk rank stage)) :
    InStage cfg inputs rank stage { state with noEvent := true, pc := .receive } :=
  ⟨inStage.toCore.congr rfl rfl rfl rfl rfl rfl rfl rfl, fun exchanging => by simp at exchanging,
    fun _ => inStage.metaData (.inl looping),
    fun _ _ => ⟨fun waiting => by simp at waiting, fun _ => .inr all⟩⟩

include ready

theorem finishStage_advances (inbox : List (List Byte)) (state : RankState) (stage : Nat)
    (inStage : InStage cfg inputs rank stage state) (looping : state.pc = .send)
    (sent : state.sent = cfg.wireSize (cfg.txChunk rank stage))
    (recvd : state.recvd = cfg.wireSize (cfg.rxChunk rank stage)) :
    Advances cfg inputs rank inbox
      (pendingFrames cfg inputs rank stage false state.sent)
      (pendingFrames cfg inputs (pred cfg.worldSize rank) stage false state.recvd)
      ⟨finishStage cfg (Net.plan cfg) (Net.call cfg inputs rank) state, inbox, []⟩ := by
  have wire := (lockstep_sized ready inputs stage rank inStage.bound).2
  have sender := inStage.length_sender ready
  rw [← sent] at wire
  rw [← recvd] at sender
  have bound := inStage.bound
  by_cases more : stage + 1 < 2 * cfg.steps
  · rw [pendingFrames_next cfg inputs rank stage _ more wire,
      pendingFrames_next cfg inputs _ stage _ more sender]
    rcases finishStage_next ready inputs rank stage state inStage looping recvd more with
      lost | entered
    · exact .inl lost
    · exact .inr ⟨_, _, [], entered.tracks, rfl, rfl, rfl⟩
  · have last : stage + 1 = 2 * cfg.steps := by omega
    rw [pendingFrames_last cfg inputs rank stage _ last wire,
      pendingFrames_last cfg inputs _ stage _ last sender]
    rcases finishStage_last ready inputs rank stage state inStage recvd last with lost | returned
    · exact .inl lost
    · exact .inr ⟨[], [], [], .inr ⟨returned.1, rfl, rfl, returned.2⟩, rfl, rfl, rfl⟩

theorem stepSend_advances (observed : Observation) (inbox : List (List Byte)) (state : RankState)
    (stage : Nat) (inStage : InStage cfg inputs rank stage state) (looping : state.pc = .send) :
    Advances cfg inputs rank inbox
      (pendingFrames cfg inputs rank stage false state.sent)
      (pendingFrames cfg inputs (pred cfg.worldSize rank) stage false state.recvd)
      (stepSend cfg (Net.plan cfg) (Net.call cfg inputs rank) observed inbox state) := by
  have sent_le := inStage.sent_le
  have recvd_le := inStage.recvd_le
  have wire : (lockstep cfg inputs stage rank).wire.length = cfg.wireSize (cfg.txChunk rank stage) :=
    (lockstep_sized ready inputs stage rank inStage.bound).2
  have txSize : state.stage.txSize = cfg.wireSize (cfg.txChunk rank stage) := by
    rw [inStage.spans, stageAt_txSize ready]
  have recvSize : state.stage.recvSize = cfg.wireSize (cfg.rxChunk rank stage) := by
    rw [inStage.spans, (stageAt_rx inputs rank stage).2.2]
  unfold stepSend
  rw [txSize, recvSize]
  by_cases loop : state.sent < cfg.wireSize (cfg.txChunk rank stage) ∨
      state.recvd < cfg.wireSize (cfg.rxChunk rank stage)
  swap
  · rw [if_neg loop]
    exact finishStage_advances ready inputs rank inbox state stage inStage looping (by omega) (by omega)
  rw [if_pos loop]
  by_cases more : state.sent < cfg.wireSize (cfg.txChunk rank stage)
  swap
  · rw [if_neg more]
    exact .inr ⟨_, _, [], .inl ⟨stage, inStage.skipSend inputs rank stage state looping (by omega), rfl,
      rfl⟩, rfl, rfl, rfl⟩
  rw [if_pos more]
  by_cases opened : observed.socketOpen = true ∧ 0 < inputs.chunkSize rank
  swap
  · rw [if_neg (by exact opened)]
    exact .inl (lost_giveUp_false _ _)
  rw [if_pos (by exact opened)]
  have frames := dataFrames_send inputs rank stage state.sent opened.2 (by omega)
  rw [wire] at frames
  have piece := Core.piece inputs rank stage state
    (min (inputs.chunkSize rank) (cfg.wireSize (cfg.txChunk rank stage) - state.sent)) inStage.toCore
    (by omega)
  refine .inr ⟨_, _, [], .inl ⟨stage, inStage.sendPiece inputs rank stage state looping opened.2 more,
    rfl, rfl⟩, ?_, rfl, rfl⟩
  simp only [pendingFrames, metaFrames, Net.call, metaToSend, Bool.false_and, frames, piece]
  rfl

omit ready in
theorem endIteration_cases (call : Call) (observed : Observation) (state : RankState) :
    Lost (endIteration call observed state) ∨
      ∃ counter, endIteration call observed state =
        { state with noEventCtr := counter, pc := .send } := by
  unfold endIteration
  simp only
  by_cases idle : 100 < (if state.noEvent then state.noEventCtr + 1 else 0)
  · rw [if_pos idle]
    by_cases abort : observed.abortPacket = true
    · rw [if_pos abort]
      exact .inl (lost_giveUp_abort _ _)
    · rw [if_neg abort]
      exact .inr ⟨_, rfl⟩
  · rw [if_neg idle]
    exact .inr ⟨_, rfl⟩

omit ready in
theorem endIteration_advances (observed : Observation) (inbox inbox' taken : List (List Byte))
    (state : RankState) (stage : Nat) (todo expected : List (List Byte))
    (core : Core cfg inputs rank stage state)
    (received : state.receivedMeta =
      (lockstep cfg inputs stage (pred cfg.worldSize rank)).metaData)
    (previous : cfg.quantizing = true → cfg.steps ≤ stage →
      state.prevMeta = (lockstep cfg inputs stage (pred cfg.worldSize rank)).metaData)
    (lead : cfg.quantizing = true → cfg.steps < stage → state.recvd ≤ state.sent ∨
      state.sent = cfg.wireSize (cfg.txChunk rank stage))
    (todo_eq : todo = pendingFrames cfg inputs rank stage false state.sent)
    (inbox_eq : inbox = taken ++ inbox')
    (expected_eq : expected =
      taken ++ pendingFrames cfg inputs (pred cfg.worldSize rank) stage false state.recvd) :
    Advances cfg inputs rank inbox todo expected
      ⟨endIteration (Net.call cfg inputs rank) observed state, inbox', []⟩ := by
  rcases endIteration_cases (Net.call cfg inputs rank) observed state with lost | ⟨counter, same⟩
  · exact .inl lost
  · rw [same]
    refine .inr ⟨_, _, taken, .inl ⟨stage, ⟨core.congr rfl rfl rfl rfl rfl rfl rfl rfl, ?_, ?_, ?_⟩,
      rfl, rfl⟩, todo_eq, inbox_eq, expected_eq⟩
    · exact fun exchanging => by simp at exchanging
    · exact fun _ => ⟨received, previous⟩
    · exact fun quantizing forwarding =>
        ⟨fun _ => lead quantizing forwarding, fun waiting => by simp at waiting⟩

theorem Core.arrived_piece (stage : Nat) (state : RankState)
    (core : Core cfg inputs rank stage state) (inbox : List (List Byte))
    (front : inbox <+: pendingFrames cfg inputs (pred cfg.worldSize rank) stage false state.recvd)
    (count : Nat) (frame : List Byte) (frames : List (List Byte))
    (arrived : inbox.take count = frame :: frames)
    (more : state.recvd < cfg.wireSize (cfg.rxChunk rank stage)) :
    ∃ length, 0 < length ∧ state.recvd + length ≤ cfg.wireSize (cfg.rxChunk rank stage) ∧
      length ≤ max 1 (inputs.chunkSize (pred cfg.worldSize rank)) ∧
      pendingFrames cfg inputs (pred cfg.worldSize rank) stage false state.recvd =
        slice (lockstep cfg inputs stage (pred cfg.worldSize rank)).wire state.recvd length ::
          pendingFrames cfg inputs (pred cfg.worldSize rank) stage false (state.recvd + length) ∧
      frame =
        slice (lockstep cfg inputs stage (pred cfg.worldSize rank)).wire state.recvd length := by
  have sender := core.length_sender ready
  have split := List.take_append_drop count inbox
  obtain ⟨length, positive, inside, size, pieces⟩ :=
    dataFrames_cases inputs (pred cfg.worldSize rank) stage state.recvd (by omega)
  rw [sender] at inside
  have expected : pendingFrames cfg inputs (pred cfg.worldSize rank) stage false state.recvd =
      slice (lockstep cfg inputs stage (pred cfg.worldSize rank)).wire state.recvd length ::
        pendingFrames cfg inputs (pred cfg.worldSize rank) stage false (state.recvd + length) := by
    simp [pendingFrames, metaFrames, pieces]
  obtain ⟨rest, all⟩ := front
  rw [expected, ← split, arrived] at all
  exact ⟨length, positive, inside, size, expected, by simpa using congrArg List.head? all⟩

theorem stepReceive_advances (observed : Observation) (inbox : List (List Byte)) (state : RankState)
    (stage : Nat) (inStage : InStage cfg inputs rank stage state) (receiving : state.pc = .receive)
    (paced : cfg.quantizing = true → Paced cfg inputs rank)
    (front : inbox <+: pendingFrames cfg inputs (pred cfg.worldSize rank) stage false state.recvd) :
    Advances cfg inputs rank inbox
      (pendingFrames cfg inputs rank stage false state.sent)
      (pendingFrames cfg inputs (pred cfg.worldSize rank) stage false state.recvd)
      (stepReceive cfg (Net.call cfg inputs rank) observed inbox state) := by
  have sender := inStage.length_sender ready
  have recvSize : state.stage.recvSize = cfg.wireSize (cfg.rxChunk rank stage) := by
    rw [inStage.spans, (stageAt_rx inputs rank stage).2.2]
  have ahead (quantizing : cfg.quantizing = true) (forwarding : cfg.steps < stage) :=
    (inStage.lead quantizing forwarding).2 receiving
  obtain ⟨received, previous⟩ := inStage.metaData (.inr receiving)
  have idle (frames : List (List Byte)) (same : frames = inbox) : Advances cfg inputs rank inbox
      (pendingFrames cfg inputs rank stage false state.sent)
      (pendingFrames cfg inputs (pred cfg.worldSize rank) stage false state.recvd)
      ⟨endIteration (Net.call cfg inputs rank) observed state, frames, []⟩ := by
    subst same
    refine endIteration_advances inputs rank observed frames frames [] state stage _ _
      inStage.toCore received previous (fun quantizing forwarding => ?_) rfl rfl rfl
    have margin := ahead quantizing forwarding
    omega
  unfold stepReceive
  rw [recvSize]
  by_cases more : state.recvd < cfg.wireSize (cfg.rxChunk rank stage)
  swap
  · rw [if_neg more]
    exact idle inbox rfl
  rw [if_pos more]
  by_cases opened : observed.socketOpen = true
  swap
  · rw [if_neg opened]
    exact .inl (lost_giveUp_false _ _)
  rw [if_pos opened]
  by_cases large :
      (inbox.take observed.arrived).any (fun frame => decide (maxFrameSize < frame.length)) = true
  · rw [if_pos large]
    exact .inl (lost_terminate _)
  rw [if_neg large]
  have split := List.take_append_drop observed.arrived inbox
  cases arrived : inbox.take observed.arrived with
  | nil =>
    rw [arrived] at split
    exact idle _ split
  | cons frame frames =>
    obtain ⟨length, positive, inside, size, expected, first⟩ :=
      inStage.toCore.arrived_piece ready inputs rank stage state inbox front observed.arrived frame
        frames arrived more
    rw [arrived] at split
    have frameLength : frame.length = length := by
      rw [first, length_slice_of_le _ _ _ (by omega)]
    have fits : ¬ cfg.wireSize (cfg.rxChunk rank stage) - state.recvd < frame.length := by omega
    have lead (quantizing : cfg.quantizing = true) (forwarding : cfg.steps < stage) :
        state.recvd + length ≤ state.sent ∨
          state.sent = cfg.wireSize (cfg.txChunk rank stage) := by
      have margin := ahead quantizing forwarding
      rcases paced quantizing with slower | whole
      · omega
      · have single := whole _ (ready.rxChunk_lt rank stage)
        omega
    simp only [receiveBytesInplace, if_neg fits]
    rw [first]
    rcases acceptData_core ready inputs rank stage length state inStage receiving positive inside
      lead with lost | ⟨core, recvd, sent, sameReceived, samePrevious⟩
    · rw [if_neg lost.1]
      exact .inl lost
    · rw [if_pos core.running]
      refine endIteration_advances inputs rank observed inbox _ [frame] _ stage _ _ core
        (sameReceived.trans received)
        (fun quantizing gathering => samePrevious.trans (previous quantizing gathering))
        (fun quantizing forwarding => ?_) (by rw [sent]) ?_ ?_
      · rw [recvd, sent]
        exact lead quantizing forwarding
      · exact split.symm
      · rw [expected, recvd, first]
        rfl

omit ready in
theorem act_lost (observed : Observation) (inbox : List (List Byte)) (state : RankState)
    (lost : Lost state) : Lost (Net.act cfg inputs rank observed inbox state).state := by
  unfold Net.act stepRank
  cases outcome : state.outcome with
  | running => exact absurd outcome lost.1
  | returned success abort => exact lost
  | terminated => exact lost

omit ready in
theorem act_silent (observed : Observation) (inbox : List (List Byte)) (state : RankState)
    (lost : Lost (Net.act cfg inputs rank observed inbox state).state) :
    (Net.act cfg inputs rank observed inbox state).outgoing = [] := by
  unfold Net.act stepRank at lost ⊢
  cases outcome : state.outcome with
  | running =>
    simp only [outcome] at lost ⊢
    cases pc : state.pc with
    | sendMeta =>
      simp only [pc, stepSendMeta] at lost ⊢
      split_ifs at lost ⊢
      · exact absurd outcome lost.1
      · rfl
    | receiveMeta =>
      simp only [stepReceiveMeta, pollAbort]
      split_ifs <;> repeat' (first | rfl | split)
    | send =>
      simp only [pc, stepSend] at lost ⊢
      split_ifs at lost ⊢
      · exact absurd outcome lost.1
      · rfl
      · rfl
      · rfl
    | receive =>
      simp only [stepReceive]
      split_ifs <;> repeat' (first | rfl | split)
  | returned success abort => rfl
  | terminated => rfl

end Advance

section Run

variable {cfg : Config} (ready : cfg.Ready) (inputs : Inputs cfg)

include ready

theorem act_follows
    (paced : cfg.quantizing = true → ∀ rank, rank < cfg.worldSize → Paced cfg inputs rank) :
    Follows cfg.worldSize (Net.act cfg inputs) Lost (Tracks cfg inputs) := by
  refine ⟨act_lost inputs, act_silent inputs, ?_⟩
  rintro rank observed inbox state todo expected bound
    (⟨stage, inStage, rfl, rfl⟩ | ⟨returned, rfl, rfl, finished⟩) front
  · change Advances cfg inputs rank inbox _ _ (stepRank _ _ _ _ _ _)
    simp only [stepRank, inStage.running]
    cases pc : state.pc with
    | sendMeta => exact stepSendMeta_advances inputs rank observed inbox state stage inStage pc
    | receiveMeta =>
      rw [pc] at front
      exact stepReceiveMeta_advances inputs rank observed inbox state stage inStage pc front
    | send => exact stepSend_advances ready inputs rank observed inbox state stage inStage pc
    | receive =>
      rw [pc] at front
      exact stepReceive_advances ready inputs rank observed inbox state stage inStage pc
        (fun quantizing => paced quantizing rank bound) front
  · refine .inr ⟨[], [], [], ?_⟩
    simp only [Net.act, stepRank, returned]
    exact ⟨.inr ⟨returned, rfl, rfl, finished⟩, rfl, rfl, rfl⟩

theorem startRank_entered (rank : Nat) :
    Lost (startRank cfg (Net.call cfg inputs rank)) ∨
      Entered cfg inputs rank 0 (startRank cfg (Net.call cfg inputs rank)) := by
  obtain ⟨plan, computed⟩ := ready.plan
  have positive : 0 < cfg.steps := Nat.sub_pos_of_lt ready.pair
  have same : Net.plan cfg = plan := by simp [Net.plan, computed]
  unfold startRank
  rw [if_neg (Nat.not_lt.mpr ready.pair), computed]
  simp only [ready.stepCount, positive, if_true]
  rw [← same]
  exact beginReduceStage_entered ready inputs rank 0 _ [] .initial positive rfl rfl

theorem start_aligned :
    Aligned cfg.worldSize Lost (Tracks cfg inputs) (Net.start cfg inputs) := by
  refine ⟨fun rank => pendingFrames cfg inputs rank 0 true 0,
    fun rank => pendingFrames cfg inputs (pred cfg.worldSize rank) 0 true 0, ?_⟩
  intro rank bound going
  refine ⟨?_, List.nil_prefix, fun _ => rfl⟩
  rcases startRank_entered ready inputs rank with early | entered
  · exact absurd early going
  · exact entered.tracks

end Run

section Completion

variable {cfg : Config} (inputs : Inputs cfg)

theorem ready_of_completed (pair : 2 ≤ cfg.worldSize) (small : cfg.worldSize < 2 ^ 31)
    (schedule : List (Nat × Observation))
    (completed : Net.Completed cfg (Net.run cfg inputs schedule)) : cfg.Ready := by
  refine ⟨?_, pair, small⟩
  cases computed : cfg.plan? with
  | some plan => exact ⟨plan, rfl⟩
  | none =>
    have lost : Lost ((Net.start cfg inputs).ranks 0) := by
      simp only [Net.start, startRank, if_neg (Nat.not_lt.mpr pair), computed]
      exact lost_terminate _
    have stays (rank : Nat) (observed : Observation) (inbox : List (List Byte))
        (state : RankState) (_ : rank < cfg.worldSize) := act_lost inputs rank observed inbox state
    have still : Lost ((Net.run cfg inputs schedule).ranks 0) :=
      run_keeps stays _ schedule 0 lost
    exact absurd (completed 0 (by omega)) still.2

theorem completed_settled (pair : 2 ≤ cfg.worldSize) (small : cfg.worldSize < 2 ^ 31)
    (paced : cfg.quantizing = true → ∀ rank, rank < cfg.worldSize → Paced cfg inputs rank)
    (schedule : List (Nat × Observation))
    (completed : Net.Completed cfg (Net.run cfg inputs schedule)) (rank : Nat)
    (bound : rank < cfg.worldSize) :
    performReduceFinalization cfg.kernel cfg.worldSize cfg.op
        (settled cfg inputs (2 * cfg.steps - 1) rank) =
      some ((Net.run cfg inputs schedule).ranks rank).dst := by
  have ready := ready_of_completed inputs pair small schedule completed
  have aligned := run_aligned pair (act_follows ready inputs paced) (Net.start cfg inputs)
    (start_aligned ready inputs) schedule
  obtain ⟨todo, expected, tracked⟩ := aligned
  have kept : ¬ Lost ((Net.run cfg inputs schedule).ranks rank) := fun lost =>
    lost.2 (completed rank bound)
  rcases (tracked rank bound kept).1 with ⟨stage, inStage, _⟩ | ⟨_, _, _, finished⟩
  · have ended := completed rank bound
    rw [Net.run, inStage.running] at ended
    cases ended
  · exact finished

end Completion

end Pccl.Ring
