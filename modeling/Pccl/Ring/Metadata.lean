import Pccl.Ring.AllReduce

set_option autoImplicit false

namespace Pccl.Ring

open Buffer FifoRing

def Config.outgoing (cfg : Config) (rank : Nat) : Phase → Nat → Nat
  | .reduceScatter, step => (rank + cfg.worldSize - step) % cfg.worldSize
  | .allgather, step => (rank + 1 + (cfg.worldSize - step)) % cfg.worldSize

def RankState.metaToSend? (state : RankState) : Option DeQuantizationMetaData :=
  if state.outcome = .running ∧ state.pc = .sendMeta then
    some (state.stage.metaSelf.getD .initial)
  else
    none

section Chunks

variable {cfg : Config}

theorem Config.outgoing_lt (rank : Nat) (phase : Phase) (step : Nat) (positive : 0 < cfg.worldSize) :
    cfg.outgoing rank phase step < cfg.worldSize := by
  cases phase <;> exact Nat.mod_lt _ positive

theorem Config.outgoing_succ (rank step : Nat) (inside : step < cfg.worldSize) :
    (cfg.outgoing rank .allgather step + cfg.worldSize - 1) % cfg.worldSize =
      cfg.outgoing rank .allgather (step + 1) := by
  have before : rank + 1 + (cfg.worldSize - step) = rank + 1 + (cfg.worldSize - (step + 1)) + 1 := by
    omega
  have back : (rank + 1 + (cfg.worldSize - step)) % cfg.worldSize + cfg.worldSize - 1 =
      (rank + 1 + (cfg.worldSize - step)) % cfg.worldSize + (cfg.worldSize - 1) := by omega
  have around : rank + 1 + (cfg.worldSize - (step + 1)) + 1 + (cfg.worldSize - 1) =
      rank + 1 + (cfg.worldSize - (step + 1)) + cfg.worldSize := by omega
  rw [outgoing, back, Nat.mod_add_mod, before, around, Nat.add_mod_right, outgoing]

theorem Config.stepCount_lt (positive : 0 < cfg.worldSize) : cfg.stepCount < cfg.worldSize := by
  have wrapped : Int.bmod cfg.worldSize (2 ^ 32) ≤ cfg.worldSize := by
    have shorter := Nat.mod_le cfg.worldSize (2 ^ 32)
    rw [Int.bmod_def]
    norm_num at shorter ⊢
    split_ifs <;> omega
  unfold stepCount
  omega

theorem Config.Planned.chunkEl_pos_iff {plan : Config.Plan} (planned : cfg.Planned plan)
    (chunk : Nat) (inside : chunk < cfg.worldSize) :
    0 < plan.chunkEl chunk ↔ chunk < cfg.count / cfg.unit := by
  have unit := cfg.unit_pos
  have longer : plan.chunkEl chunk =
      (chunkStart (cfg.count / cfg.unit) cfg.worldSize (chunk + 1) -
        chunkStart (cfg.count / cfg.unit) cfg.worldSize chunk) * cfg.unit := by
    rw [Config.Plan.chunkEl, planned.boundary chunk inside]
    simp only [start, Nat.sub_mul]
  rw [longer, Nat.mul_pos_iff_of_pos_right unit]
  generalize cfg.count / cfg.unit = total
  have split := Nat.div_add_mod total cfg.worldSize
  simp only [chunkStart, Nat.add_mul, Nat.one_mul]
  by_cases spread : total / cfg.worldSize = 0
  · -- Fewer elements than chunks: the first ones hold a single unit each.
    rw [spread, Nat.mul_zero, Nat.zero_add] at split
    rw [spread, split]
    omega
  · have enough : cfg.worldSize ≤ cfg.worldSize * (total / cfg.worldSize) :=
      Nat.le_mul_of_pos_right _ (Nat.pos_of_ne_zero spread)
    generalize cfg.worldSize * (total / cfg.worldSize) = whole at split enough
    generalize total / cfg.worldSize = base at spread ⊢
    generalize chunk * base = before
    omega

end Chunks

section Decoding

namespace DeQuantizationMetaData

theorem made_of_deserialize (buffer : List Byte) (metaData : DeQuantizationMetaData)
    (read : deserialize buffer = some (some metaData)) : metaData.Made := by
  have known (input : List Byte) (dataType : DataType) (bytes : Nat) (rest : List Byte)
      (typed : readDataType input = some (dataType, bytes, rest)) :
      dataType.size? = some bytes := by
    simp only [readDataType, Option.bind_eq_bind, Option.bind_eq_some_iff, Option.some.injEq,
      Prod.mk.injEq, Prod.exists] at typed
    obtain ⟨_, _, _, _, _, _, size, rfl, rfl, _⟩ := typed
    assumption
  have filled (count : Nat) (input value rest : List Byte)
      (taken : Packet.readBytes count input = some (value, rest)) : value.length = count := by
    unfold Packet.readBytes at taken
    split_ifs at taken with short
    obtain ⟨rfl, _⟩ := Prod.mk.inj (Option.some.inj taken)
    rw [List.length_take]
    omega
  simp only [deserialize, Option.bind_eq_bind, Option.bind_eq_some_iff, Prod.exists] at read
  obtain ⟨metaType, buffer, _, read⟩ := read
  split at read
  · simp only [Option.bind_eq_some_iff, Prod.exists, Option.some.injEq] at read
    obtain ⟨dataType, bytes, _, typed, minValue, _, least, maxValue, _, most, rfl⟩ := read
    exact .minMax _ bytes _ _ (known _ _ _ _ typed) (filled _ _ _ _ least) (filled _ _ _ _ most)
  · simp only [Option.bind_eq_some_iff, Prod.exists, Option.some.injEq] at read
    obtain ⟨zeroType, zeroBytes, _, zeroTyped, zeroPoint, _, zero, scaleType, scaleBytes, _,
      scaleTyped, scale, _, scaled, rfl⟩ := read
    exact .zeroPointScale _ _ zeroBytes scaleBytes _ _ (known _ _ _ _ zeroTyped)
      (known _ _ _ _ scaleTyped) (filled _ _ _ _ zero) (filled _ _ _ _ scaled)
  · cases read

end DeQuantizationMetaData

theorem made_of_receiveMetaPacket (frame : List Byte) (metaData : DeQuantizationMetaData)
    (received : receiveMetaPacket frame = some (some metaData)) : metaData.Made := by
  simp only [receiveMetaPacket, Option.bind_eq_bind, Option.bind_eq_some_iff, Prod.exists] at received
  obtain ⟨packetId, buffer, _, received⟩ := received
  split_ifs at received
  · simp only [Option.bind_eq_some_iff, Prod.exists] at received
    obtain ⟨_, rest, _, read⟩ := received
    exact DeQuantizationMetaData.made_of_deserialize rest metaData read
  · cases received

end Decoding

section Described

variable (cfg : Config) (plan : Config.Plan) (rank : Nat)

/-- What a running rank knows of the chunk it sends: metadata if it has elements and none if not.
A rank past the exchange of an allgather step also holds metadata for the chunk it will forward. -/
structure Described (state : RankState) : Prop where
  exchange : state.pc = .sendMeta → cfg.quantizedType ≠ cfg.dataType
  step : state.stage.step < cfg.worldSize
  current : state.stage.phase = .allgather →
    state.currentChunk = cfg.outgoing rank .allgather state.stage.step
  full : cfg.quantizing = true →
    0 < plan.chunkEl (cfg.outgoing rank state.stage.phase state.stage.step) →
    ∃ metaData, state.stage.metaSelf = some metaData ∧ metaData.Made
  empty : ¬ 0 < plan.chunkEl (cfg.outgoing rank state.stage.phase state.stage.step) →
    state.stage.metaSelf = none
  carried : cfg.quantizing = true → state.stage.phase = .allgather →
    state.pc = .send ∨ state.pc = .receive → state.prevMeta.Made

def WhileRunning (Holds : RankState → Prop) (state : RankState) : Prop :=
  state.outcome = .running → Holds state

variable {cfg plan rank}

theorem whileRunning_terminate (Holds : RankState → Prop) (state : RankState) :
    WhileRunning Holds state.terminate := by
  intro running
  cases running

theorem whileRunning_giveUp (Holds : RankState → Prop) (call : Call) (success abort : Bool)
    (state : RankState) : WhileRunning Holds (state.giveUp call success abort) := by
  intro running
  cases running

theorem enterStage_exchange (stage : Stage) (state : RankState) :
    (state.enterStage cfg stage).pc = .sendMeta → cfg.quantizedType ≠ cfg.dataType := by
  simp only [RankState.enterStage]
  split_ifs with differ
  · exact fun _ => differ
  · exact fun exchanging => by cases exchanging

theorem Config.types_differ (quantizing : cfg.quantizing = true) :
    cfg.quantizedType ≠ cfg.dataType := by
  simp only [Config.quantizing, Bool.and_eq_true, decide_eq_true_eq] at quantizing
  exact quantizing.1

theorem stageSpans?_fields (phase : Phase) (step txChunk rxChunk : Nat) (state : RankState)
    (stage : Stage) (spans : stageSpans? cfg plan phase step txChunk rxChunk state = some stage) :
    stage.phase = phase ∧ stage.step = step ∧ stage.metaSelf = none := by
  simp only [stageSpans?] at spans
  split_ifs at spans
  obtain rfl := Option.some.inj spans
  exact ⟨rfl, rfl, rfl⟩

theorem quantizeChunk_made (txEl : Nat) (stage : Stage) (state : RankState) (quantized : List Byte)
    (metaData : DeQuantizationMetaData)
    (done : quantizeChunk cfg txEl stage state = some (quantized, metaData)) : metaData.Made := by
  unfold quantizeChunk performQuantization at done
  split_ifs at done
  have made := cfg.kernel.quantize_made (cfg.quantizedSize txEl)
    (slice state.dst stage.txOffset stage.txSize)
  rwa [Option.some.inj done] at made

section Enter

variable (phase : Phase) (step : Nat) (stage : Stage) (state : RankState)
  (inside : step < cfg.worldSize) (samePhase : stage.phase = phase) (sameStep : stage.step = step)
  (current : phase = .allgather → state.currentChunk = cfg.outgoing rank .allgather step)

include inside samePhase sameStep current

theorem enterStage_described (unset : stage.metaSelf = none)
    (empty : cfg.quantizing = true → ¬ 0 < plan.chunkEl (cfg.outgoing rank phase step)) :
    Described cfg plan rank (state.enterStage cfg stage) := by
  subst samePhase sameStep
  refine ⟨enterStage_exchange _ _, inside, current, ?_, fun _ => unset, ?_⟩
  · intro quantizing some
    exact absurd some (empty quantizing)
  · intro quantizing _ exchanged
    simp [RankState.enterStage, Config.types_differ quantizing] at exchanged

theorem enterStage_quantized_described (txEl : Nat) (txSource : TxSource)
    (metaData : DeQuantizationMetaData) (made : metaData.Made)
    (full : 0 < plan.chunkEl (cfg.outgoing rank phase step)) :
    Described cfg plan rank
      (state.enterStage cfg (quantizedStage cfg txEl txSource metaData stage)) := by
  subst samePhase sameStep
  refine ⟨enterStage_exchange _ _, inside, current, fun _ _ => ⟨metaData, rfl, made⟩, ?_, ?_⟩
  · intro empty
    exact absurd full empty
  · intro quantizing _ exchanged
    simp [RankState.enterStage, Config.types_differ quantizing] at exchanged

theorem enterQuantized_described (txEl : Nat)
    (full : 0 < plan.chunkEl (cfg.outgoing rank phase step)) :
    WhileRunning (Described cfg plan rank) (enterQuantized cfg txEl stage state) := by
  unfold enterQuantized
  split
  next => exact whileRunning_terminate _ _
  next quantized metaData done =>
    exact fun _ => enterStage_quantized_described phase step stage { state with quantized } inside
      samePhase sameStep current txEl .quantized metaData (quantizeChunk_made _ _ _ _ _ done) full

theorem enterOwned_described (txEl : Nat)
    (full : 0 < plan.chunkEl (cfg.outgoing rank phase step)) :
    WhileRunning (Described cfg plan rank) (enterOwned cfg txEl stage state) := by
  unfold enterOwned
  split
  next => exact whileRunning_terminate _ _
  next quantized metaData done =>
    split
    next => exact whileRunning_terminate _ _
    next own _ =>
      exact fun _ => enterStage_quantized_described phase step stage
        { state with quantized, dst := splice state.dst stage.txOffset own } inside samePhase
        sameStep current txEl .quantized metaData (quantizeChunk_made _ _ _ _ _ done) full

end Enter

section Begin

variable (call : Call) (same : call.rank = rank)

theorem beginAllgatherStage_described (step : Nat) (state : RankState)
    (inside : step < cfg.worldSize)
    (current : state.currentChunk = cfg.outgoing rank .allgather step)
    (carried : cfg.quantizing = true → step ≠ 0 → state.prevMeta.Made) :
    WhileRunning (Described cfg plan rank) (beginAllgatherStage cfg plan step state) := by
  simp only [beginAllgatherStage, current]
  split
  next => exact whileRunning_terminate _ _
  next stage spans =>
    obtain ⟨samePhase, sameStep, unset⟩ := stageSpans?_fields _ _ _ _ _ _ spans
    split_ifs with quantizes first
    all_goals simp only [Bool.and_eq_true, decide_eq_true_eq] at quantizes
    · exact enterOwned_described .allgather step stage state inside samePhase sameStep
        (fun _ => current) _ quantizes.2
    · exact fun _ => enterStage_quantized_described .allgather step stage state inside samePhase
        sameStep (fun _ => current) _ .owned state.prevMeta (carried quantizes.1 first) quantizes.2
    · exact fun _ => enterStage_described .allgather step stage state inside samePhase sameStep
        (fun _ => current) unset (fun quantizing some => quantizes ⟨quantizing, some⟩)

theorem finalize_not_running (state : RankState) : (finalize cfg state).outcome ≠ .running := by
  unfold finalize
  split <;> simp [RankState.terminate]

include same

theorem beginReduceStage_described (step : Nat) (state : RankState) (inside : step < cfg.worldSize) :
    WhileRunning (Described cfg plan rank) (beginReduceStage cfg plan call step state) := by
  subst same
  simp only [beginReduceStage]
  split
  next => exact whileRunning_terminate _ _
  next stage spans =>
    obtain ⟨samePhase, sameStep, unset⟩ := stageSpans?_fields _ _ _ _ _ _ spans
    split_ifs with quantizes
    all_goals simp only [Bool.and_eq_true, decide_eq_true_eq] at quantizes
    · exact enterQuantized_described .reduceScatter step stage state inside samePhase sameStep
        (fun gathering => by cases gathering) _ quantizes.2
    · exact fun _ => enterStage_described .reduceScatter step stage state inside samePhase sameStep
        (fun gathering => by cases gathering) unset
        (fun quantizing some => quantizes ⟨quantizing, some⟩)

theorem beginAllgather_described (state : RankState) (positive : 0 < cfg.worldSize) :
    WhileRunning (Described cfg plan rank) (beginAllgather cfg plan call state) := by
  subst same
  apply beginAllgatherStage_described 0 _ positive
  · simp [Config.outgoing]
  · intro _ later
    exact absurd rfl later

theorem finishStage_described (state : RankState) (positive : 0 < cfg.worldSize)
    (described : Described cfg plan rank state) (looping : state.pc = .send) :
    WhileRunning (Described cfg plan rank) (finishStage cfg plan call state) := by
  have bound := @Config.stepCount_lt cfg positive
  unfold finishStage
  split
  next =>
    split_ifs with more
    · exact beginReduceStage_described call same _ state (by omega)
    · exact beginAllgather_described call same state positive
  next gathering =>
    simp only
    split_ifs with more
    · apply beginAllgatherStage_described
      · omega
      · simp only
        rw [described.current gathering, Config.outgoing_succ rank _ described.step]
      · intro quantizing _
        exact described.carried quantizing gathering (.inl looping)
    · exact fun running => absurd running (finalize_not_running _)

end Begin

section Steps

variable (call : Call) (same : call.rank = rank)

theorem Described.congr (state after : RankState) (described : Described cfg plan rank state)
    (sameStage : after.stage = state.stage) (sameChunk : after.currentChunk = state.currentChunk)
    (exchanged : after.pc ≠ .sendMeta)
    (carried : cfg.quantizing = true → state.stage.phase = .allgather →
      after.pc = .send ∨ after.pc = .receive → after.prevMeta.Made) :
    Described cfg plan rank after := by
  constructor
  · exact fun exchanging => absurd exchanging exchanged
  · rw [sameStage]
    exact described.step
  · rw [sameStage, sameChunk]
    exact described.current
  · rw [sameStage]
    exact described.full
  · rw [sameStage]
    exact described.empty
  · rw [sameStage]
    exact carried

theorem acceptData_described (data : List Byte) (state : RankState)
    (described : Described cfg plan rank state) (receiving : state.pc = .receive) :
    WhileRunning (Described cfg plan rank) (acceptData cfg data state) := by
  have exchanged : state.pc ≠ .sendMeta := by simp [receiving]
  have carried (quantizing : cfg.quantizing = true) (gathering : state.stage.phase = .allgather) :=
    described.carried quantizing gathering (.inr receiving)
  by_cases present : data.length = 0
  · rw [List.length_eq_zero_iff.mp present]
    exact fun _ => described
  · obtain ⟨_, _, same, _⟩ := acceptData_cases cfg data state present
    rw [same]
    exact fun _ => described.congr _ _ rfl rfl exchanged fun quantizing gathering _ =>
      carried quantizing gathering

theorem acceptData_pc (data : List Byte) (state : RankState) :
    (acceptData cfg data state).pc = state.pc := by
  by_cases present : data.length = 0
  · rw [List.length_eq_zero_iff.mp present]
    rfl
  · obtain ⟨_, _, same, _⟩ := acceptData_cases cfg data state present
    rw [same]

theorem endIteration_described (observed : Observation) (state : RankState)
    (described : Described cfg plan rank state) (receiving : state.pc = .receive) :
    WhileRunning (Described cfg plan rank) (endIteration call observed state) := by
  rcases endIteration_cases call observed state with lost | ⟨counter, looping⟩
  · exact fun running => absurd running lost.1
  · rw [looping]
    exact fun _ => described.congr _ _ rfl rfl nofun fun quantizing gathering _ =>
      described.carried quantizing gathering (.inr receiving)

theorem stepReceive_described (observed : Observation) (inbox : List (List Byte))
    (state : RankState) (described : Described cfg plan rank state) (receiving : state.pc = .receive) :
    WhileRunning (Described cfg plan rank) (stepReceive cfg call observed inbox state).state := by
  have idle := endIteration_described call observed state described receiving
  unfold stepReceive
  split_ifs
  · exact whileRunning_terminate _ _
  · split
    next => exact idle
    next data _ _ =>
      have accepted := acceptData_described data state described receiving
      simp only
      split_ifs with running
      · exact endIteration_described call observed _ (accepted running)
          ((acceptData_pc data state).trans receiving)
      · exact accepted
  · exact whileRunning_giveUp _ _ _ _ _
  · exact idle

theorem stepReceiveMeta_described (observed : Observation) (inbox : List (List Byte))
    (state : RankState) (described : Described cfg plan rank state) :
    WhileRunning (Described cfg plan rank) (stepReceiveMeta call observed inbox state).state := by
  have polled (frames : List (List Byte)) :
      WhileRunning (Described cfg plan rank) (pollAbort call observed frames state).state := by
    unfold pollAbort
    split_ifs
    · exact whileRunning_giveUp _ _ _ _ _
    · exact fun _ => described
  unfold stepReceiveMeta
  split_ifs
  · split
    next => exact polled inbox
    next frame _ _ =>
      split_ifs
      · exact whileRunning_terminate _ _
      · split
        next => exact whileRunning_terminate _ _
        next => exact polled inbox.tail
        next metaData received =>
          have made := made_of_receiveMetaPacket frame metaData received
          refine fun _ => described.congr _ _ rfl rfl nofun fun _ gathering _ => ?_
          simpa [acceptMeta, gathering] using made
  · exact whileRunning_giveUp _ _ _ _ _

include same

theorem stepSend_described (observed : Observation) (inbox : List (List Byte)) (state : RankState)
    (positive : 0 < cfg.worldSize) (described : Described cfg plan rank state)
    (looping : state.pc = .send) :
    WhileRunning (Described cfg plan rank) (stepSend cfg plan call observed inbox state).state := by
  have carried (quantizing : cfg.quantizing = true) (gathering : state.stage.phase = .allgather) :=
    described.carried quantizing gathering (.inl looping)
  unfold stepSend
  split_ifs
  · exact fun _ => described.congr _ _ rfl rfl nofun fun quantizing gathering _ =>
      carried quantizing gathering
  · exact whileRunning_giveUp _ _ _ _ _
  · exact fun _ => described.congr _ _ rfl rfl nofun fun quantizing gathering _ =>
      carried quantizing gathering
  · exact finishStage_described call same state positive described looping

theorem stepRank_described (observed : Observation) (inbox : List (List Byte)) (state : RankState)
    (positive : 0 < cfg.worldSize)
    (described : WhileRunning (Described cfg plan rank) state) :
    WhileRunning (Described cfg plan rank) (stepRank cfg plan call observed inbox state).state := by
  unfold stepRank
  split
  next running =>
    have known := described running
    split
    next =>
      unfold stepSendMeta
      split_ifs
      · refine fun _ => known.congr _ _ rfl rfl nofun fun _ _ exchanged => ?_
        simp at exchanged
      · exact whileRunning_giveUp _ _ _ _ _
    next => exact stepReceiveMeta_described call observed inbox state known
    next looping => exact stepSend_described call same observed inbox state positive known looping
    next receiving => exact stepReceive_described call observed inbox state known receiving
  next => exact described

end Steps

end Described

section Runs

variable {cfg : Config} (inputs : Inputs cfg)

theorem start_described (rank : Nat) :
    WhileRunning (Described cfg (Net.plan cfg) rank) ((Net.start cfg inputs).ranks rank) := by
  change WhileRunning _ (startRank cfg (Net.call cfg inputs rank))
  unfold startRank
  by_cases single : cfg.worldSize < 2
  · rw [if_pos single]
    exact fun running => absurd running (finalize_not_running _)
  · rw [if_neg single]
    split
    next => exact whileRunning_terminate _ _
    next plan computed =>
      have same : Net.plan cfg = plan := by simp [Net.plan, computed]
      rw [same]
      split_ifs
      · exact beginReduceStage_described _ rfl 0 _ (by omega)
      · exact fun running => absurd running (finalize_not_running _)

theorem run_described (schedule : List (Nat × Observation)) (rank : Nat) :
    WhileRunning (Described cfg (Net.plan cfg) rank)
      ((Net.run cfg inputs schedule).ranks rank) := by
  have keeps (rank : Nat) (observed : Observation) (inbox : List (List Byte)) (state : RankState)
      (bound : rank < cfg.worldSize)
      (described : WhileRunning (Described cfg (Net.plan cfg) rank) state) :
      WhileRunning (Described cfg (Net.plan cfg) rank)
        (Net.act cfg inputs rank observed inbox state).state :=
    stepRank_described _ rfl observed inbox state (by omega) described
  exact @run_keeps _ _ _ _ _ (fun rank => WhileRunning (Described cfg (Net.plan cfg) rank)) keeps
    _ schedule rank (start_described inputs rank)

omit inputs in
theorem act_not_running (rank : Nat) (inputs : Inputs cfg) (observed : Observation)
    (inbox : List (List Byte)) (state : RankState) (ended : state.outcome ≠ .running) :
    (Net.act cfg inputs rank observed inbox state).state.outcome ≠ .running := by
  unfold Net.act stepRank
  split
  next running => exact absurd running ended
  next => exact ended

theorem planned_of_running (schedule : List (Nat × Observation)) (rank : Nat)
    (running : ((Net.run cfg inputs schedule).ranks rank).outcome = .running) :
    cfg.Planned (Net.plan cfg) ∧ 2 ≤ cfg.worldSize := by
  have stays (rank : Nat) (observed : Observation) (inbox : List (List Byte)) (state : RankState)
      (_ : rank < cfg.worldSize) := act_not_running rank inputs observed inbox state
  have started : ((Net.start cfg inputs).ranks rank).outcome = .running := by
    by_contra ended
    exact run_keeps stays (Net.start cfg inputs) schedule rank ended running
  change (startRank cfg (Net.call cfg inputs rank)).outcome = .running at started
  unfold startRank at started
  by_cases single : cfg.worldSize < 2
  · rw [if_pos single] at started
    exact absurd started (finalize_not_running _)
  · rw [if_neg single] at started
    cases computed : cfg.plan? with
    | none =>
      rw [computed] at started
      cases started
    | some plan =>
      have same : Net.plan cfg = plan := by simp [Net.plan, computed]
      rw [same]
      exact ⟨Config.plan?_correct plan computed, by omega⟩

theorem metadata_decodes_iff (schedule : List (Nat × Observation)) (rank : Nat)
    (metaData : DeQuantizationMetaData)
    (sends : ((Net.run cfg inputs schedule).ranks rank).metaToSend? = some metaData) :
    let stage := ((Net.run cfg inputs schedule).ranks rank).stage
    receiveMetaPacket (sendMetaPacket cfg.tag metaData) = some (some metaData) ↔
      cfg.outgoing rank stage.phase stage.step < cfg.count / cfg.unit := by
  intro stage
  unfold RankState.metaToSend? at sends
  split_ifs at sends with exchanging
  obtain ⟨running, sending⟩ := exchanging
  have described := run_described inputs schedule rank running
  obtain ⟨planned, pair⟩ := planned_of_running inputs schedule rank running
  have quantizing : cfg.quantizing = true := by
    by_contra plain
    exact described.exchange sending (planned.exact (by simpa using plain))
  rw [receiveMetaPacket_sendMetaPacket, ← planned.chunkEl_pos_iff _
    (Config.outgoing_lt rank stage.phase stage.step (by omega))]
  constructor
  · intro decoded
    by_contra empty
    -- An empty chunk is announced by default metadata, whose type has no size.
    rw [described.empty empty] at sends
    obtain rfl := Option.some.inj sends
    rw [Option.getD_none, DeQuantizationMetaData.deserialize_initial] at decoded
    cases decoded
  · intro full
    obtain ⟨own, set, made⟩ := described.full quantizing full
    rw [set] at sends
    obtain rfl := Option.some.inj sends
    exact DeQuantizationMetaData.deserialize_serialize own made

theorem quantizedPair_metadata_decodes :
    let state := (Net.run quantizedPair (rankInputs quantizedPair fun _ => 2) (alternating 10)).ranks 1
    receiveMetaPacket (sendMetaPacket quantizedPair.tag (.makeMinMax .uint8 [0] [0])) =
        some (some (.makeMinMax .uint8 [0] [0])) ↔
      quantizedPair.outgoing 1 state.stage.phase state.stage.step <
        quantizedPair.count / quantizedPair.unit :=
  metadata_decodes_iff (rankInputs quantizedPair fun _ => 2) (alternating 10) 1
    (.makeMinMax .uint8 [0] [0]) (by decide +kernel)

def singleElement : Config :=
  ⟨2, 1, .float, .uint8, .minMax, .sum, 7, constantKernel .float .uint8⟩

theorem singleElement_metadata_throws :
    ∃ metaData,
      ((Net.run singleElement (rankInputs singleElement fun _ => 1) []).ranks 1).metaToSend? =
        some metaData ∧
      receiveMetaPacket (sendMetaPacket singleElement.tag metaData) = none :=
  ⟨.initial, by decide +kernel, by decide +kernel⟩

end Runs

end Pccl.Ring
