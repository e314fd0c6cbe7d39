import Pccl.Ring.AllReduce

set_option autoImplicit false

namespace Pccl.Ring

open Buffer

def pcclAllReduceAsync (count : Nat) (dataType requested : DataType) (algorithm : QuantizationAlgorithm) :
    Option DataType :=
  -- The checks of `pcclAllReduceAsync`, with the quantized type that it goes on with.
  let quantizedType := if algorithm = .none then dataType else requested
  let packed := quantizedType = .uint2 ∨ quantizedType = .uint4
  if packed ∧ algorithm ≠ .zeroPointScale then none
  else
    let bits := if quantizedType = .uint2 then 2 else 4
    if packed ∧ count % (8 / Nat.gcd bits 8) ≠ 0 then none
    -- `VALIDATE_SUPPORTED_INPUT_DATA_TYPE`
    else if dataType = .uint2 ∨ dataType = .uint4 then none
    else some quantizedType

def allgatherChunk (cfg : Config) (rank : Nat) : (step : Nat) → Nat
  | 0 => (rank + 1) % cfg.worldSize
  | step + 1 => (allgatherChunk cfg rank step + cfg.worldSize - 1) % cfg.worldSize

theorem pcclAllReduceAsync_admits {count : Nat} {dataType requested quantizedType : DataType}
    {algorithm : QuantizationAlgorithm}
    (admitted : pcclAllReduceAsync count dataType requested algorithm = some quantizedType) :
    (∃ bytes, dataType.size? = some bytes) ∧ (algorithm = .none → quantizedType = dataType) ∧
      (quantizedType.sizeBits < 8 → algorithm = .zeroPointScale ∧
        count % (8 / Nat.gcd quantizedType.sizeBits 8) = 0) := by
  unfold pcclAllReduceAsync at admitted
  dsimp only at admitted
  generalize chosen : (if algorithm = .none then dataType else requested) = type at admitted
  split_ifs at admitted with unscaled two ragged narrow ragged narrow <;> cases admitted
  all_goals refine ⟨?_, fun plain => by rw [← chosen, if_pos plain], fun few => ?_⟩
  · cases dataType <;> simp_all [DataType.size?]
  · subst two
    simp_all [DataType.sizeBits]
  · cases dataType <;> simp_all [DataType.size?]
  · have four : quantizedType = .uint4 := by
      cases quantizedType <;> simp_all [DataType.sizeBits]
    subst four
    simp_all [DataType.sizeBits]

namespace Config

variable {cfg : Config}

theorem boundaries?_of_admitted {requested : DataType}
    (admitted : pcclAllReduceAsync cfg.count cfg.dataType requested cfg.algorithm = some cfg.quantizedType) :
    ∃ boundaries, cfg.boundaries? = some boundaries ∧ boundaries.length = cfg.worldSize := by
  obtain ⟨⟨bytes, size⟩, _, packed⟩ := pcclAllReduceAsync_admits admitted
  by_cases narrow : cfg.quantizedType.sizeBits < 8
  · obtain ⟨scaled, whole⟩ := packed narrow
    have quantizing : cfg.quantizing = true := by
      obtain ⟨bits, _, positive⟩ := cfg.dataType.sizeBits_of_size bytes size
      have other : cfg.quantizedType ≠ cfg.dataType := fun same => by
        rw [same] at narrow
        omega
      simp [Config.quantizing, other, scaled]
    simp only [boundaries?, quantizing, narrow, decide_true, Bool.and_self, if_true, whole, ne_eq,
      not_true_eq_false, if_false]
    exact ⟨_, rfl, by rw [scaleBoundaries, List.length_map, length_computeChunkBoundaries]⟩
  · have even : cfg.quantizedType.sizeBits % 8 = 0 := by
      revert narrow
      cases cfg.quantizedType <;> decide
    simp only [boundaries?, narrow, decide_false, Bool.and_false, Bool.false_eq_true, if_false, even, ne_eq,
      not_true_eq_false]
    exact ⟨_, rfl, length_computeChunkBoundaries _ _⟩

theorem chunkEl_eq (chunk : Nat) :
    cfg.chunkEl chunk = (cfg.count / cfg.unit / cfg.worldSize +
      if chunk < cfg.count / cfg.unit % cfg.worldSize then 1 else 0) * cfg.unit := by
  rw [chunkEl, start, start, ← Nat.sub_mul]
  congr 1
  simp only [chunkStart, Nat.add_mul, Nat.one_mul]
  generalize cfg.count / cfg.unit / cfg.worldSize = base
  generalize cfg.count / cfg.unit % cfg.worldSize = remainder
  split_ifs <;> omega

theorem plan?_of_admitted {requested : DataType}
    (admitted : pcclAllReduceAsync cfg.count cfg.dataType requested cfg.algorithm = some cfg.quantizedType) :
    ∃ plan, cfg.plan? = some plan ∧ cfg.Planned plan ∧ plan.boundaries.length = cfg.worldSize ∧
      (∀ chunk < cfg.worldSize, cfg.chunkEl chunk ≤ plan.maxChunkEl) ∧ plan.maxChunkEl ≤ cfg.count := by
  obtain ⟨⟨bytes, size⟩, plain, _⟩ := pcclAllReduceAsync_admits admitted
  obtain ⟨boundaries, computed, length⟩ := boundaries?_of_admitted admitted
  obtain ⟨whole, packed, boundary⟩ := boundaries?_correct boundaries computed
  let sizes := boundaries.map fun chunk => chunk.2 - chunk.1
  have planned : cfg.Planned ⟨boundaries, sizes.foldl max 0⟩ := by
    refine ⟨⟨bytes, size⟩, boundary, whole, packed, fun unquantized => ?_⟩
    by_contra other
    exact other (plain (by simpa [quantizing, other] using unquantized))
  have entry (chunk : Nat) (inside : chunk < cfg.worldSize) :
      sizes[chunk]? = some (cfg.chunkEl chunk) := by
    have here := boundary chunk inside
    rw [List.getD_eq_getElem _ _ (by omega)] at here
    rw [List.getElem?_map, List.getElem?_eq_getElem (by omega), here]
    rfl
  obtain ⟨attained, bounds⟩ := List.max?_eq_some_iff.mp (@List.max?_cons' Nat 0 _ sizes)
  have largest : sizes.foldl max 0 * cfg.quantizedType.sizeBits % 8 = 0 ∧ sizes.foldl max 0 ≤ cfg.count := by
    rcases List.mem_cons.mp attained with none_ | some_
    · rw [none_, Nat.zero_mul]
      exact ⟨rfl, Nat.zero_le _⟩
    · obtain ⟨chunk, inside, same⟩ := List.getElem_of_mem some_
      have small : chunk < cfg.worldSize := by
        rw [← length]
        simpa [sizes] using inside
      have here := entry chunk small
      rw [List.getElem?_eq_getElem inside, same] at here
      rw [Option.some.inj here, ← planned.wireSize_exact chunk, ← planned.start_all (by omega)]
      exact ⟨Nat.mul_mod_right _ _, (Nat.sub_le _ _).trans (cfg.start_mono small)⟩
  refine ⟨_, ?_, planned, length, fun chunk inside => ?_, largest.2⟩
  · simp only [plan?, size, computed, Option.bind_eq_bind, Option.bind_some]
    rw [if_neg fun odd => odd.2 (plain odd.1), if_neg (not_not.mpr largest.1)]
  · exact bounds _ (List.mem_cons_of_mem _ (List.mem_of_getElem? (entry chunk inside)))

end Config

section Spans

variable {cfg : Config} {plan : Config.Plan} (planned : cfg.Planned plan)

include planned

theorem Config.Planned.chunkEl_eq {chunk : Nat} (inside : chunk < cfg.worldSize) :
    plan.chunkEl chunk = cfg.chunkEl chunk := by
  rw [Config.Plan.chunkEl, planned.boundary chunk inside]
  rfl

theorem Config.Planned.stageSpans {phase : Phase} {step txChunk rxChunk : Nat} {state : RankState}
    (tx : txChunk < cfg.worldSize) (rx : rxChunk < cfg.worldSize)
    (largest : cfg.chunkEl rxChunk ≤ plan.maxChunkEl)
    (dst : state.dst.length = cfg.count * cfg.dataType.size)
    (buffer : state.recvBuffer.length = cfg.quantizedSize plan.maxChunkEl) :
    (stageSpans? cfg plan phase step txChunk rxChunk state).isSome = true := by
  unfold stageSpans?
  dsimp only
  rw [planned.chunkEl_eq tx, planned.chunkEl_eq rx, planned.boundary _ tx, planned.boundary _ rx, dst,
    buffer, if_pos]
  · rfl
  · exact ⟨planned.chunk_inside _ tx, planned.chunk_inside _ rx,
      Nat.div_le_div_right (Nat.mul_le_mul_right _ largest)⟩

end Spans

theorem allgatherChunk_lt {cfg : Config} (positive : 0 < cfg.worldSize) (rank step : Nat) :
    allgatherChunk cfg rank step < cfg.worldSize := by
  cases step <;> exact Nat.mod_lt _ positive

theorem chunks_in_bounds (cfg : Config) (requested : DataType) (pair : 2 ≤ cfg.worldSize)
    (admitted : pcclAllReduceAsync cfg.count cfg.dataType requested cfg.algorithm = some cfg.quantizedType)
    (memory : cfg.count * cfg.dataType.size ≤ 2 ^ 57) :
    ∃ plan, cfg.plan? = some plan ∧ plan.boundaries.length = cfg.worldSize ∧
      -- The chunks tile the elements in order.
      (plan.boundaries.getD 0 (0, 0)).1 = 0 ∧
      (∀ chunk, chunk + 1 < cfg.worldSize →
        (plan.boundaries.getD (chunk + 1) (0, 0)).1 = (plan.boundaries.getD chunk (0, 0)).2) ∧
      (plan.boundaries.getD (cfg.worldSize - 1) (0, 0)).2 = cfg.count ∧
      (∀ chunk < cfg.worldSize,
        (plan.boundaries.getD chunk (0, 0)).1 ≤ (plan.boundaries.getD chunk (0, 0)).2 ∧
        -- Their sizes are even, fit into the buffers and do not overflow.
        (∀ other < cfg.worldSize, plan.chunkEl chunk ≤ plan.chunkEl other + cfg.unit) ∧
        8 ∣ plan.chunkEl chunk * cfg.quantizedType.sizeBits ∧
        cfg.quantizedSize (plan.chunkEl chunk) ≤ cfg.quantizedSize plan.maxChunkEl) ∧
      plan.maxChunkEl * cfg.quantizedType.sizeBits < 2 ^ 64 ∧
      ∀ rank step state, step < cfg.stepCount →
        state.dst.length = cfg.count * cfg.dataType.size →
        state.recvBuffer.length = cfg.quantizedSize plan.maxChunkEl →
        (stageSpans? cfg plan .reduceScatter step ((rank + cfg.worldSize - step) % cfg.worldSize)
          ((rank + cfg.worldSize - step - 1) % cfg.worldSize) state).isSome = true ∧
        (stageSpans? cfg plan .allgather step (allgatherChunk cfg rank step)
          (allgatherChunk cfg rank (step + 1)) state).isSome = true := by
  obtain ⟨plan, computed, planned, length, largest, within⟩ := Config.plan?_of_admitted admitted
  have positive : 0 < cfg.worldSize := by omega
  refine ⟨plan, computed, length, ?_, fun chunk inside => ?_, ?_,
    fun chunk inside => ⟨?_, fun other there => ?_, ?_, ?_⟩, ?_,
    fun rank step state _ dst buffer => ⟨?_, ?_⟩⟩
  · rw [planned.boundary 0 positive]
    simp [Config.start]
  · rw [planned.boundary _ inside, planned.boundary _ (by omega)]
  · rw [planned.boundary _ (by omega), Nat.sub_add_cancel positive]
    exact planned.start_all positive
  · rw [planned.boundary _ inside]
    exact cfg.start_mono (Nat.le_succ chunk)
  · rw [planned.chunkEl_eq inside, planned.chunkEl_eq there, Config.chunkEl_eq, Config.chunkEl_eq,
      ← Nat.succ_mul]
    exact Nat.mul_le_mul_right _ (by split_ifs <;> omega)
  · rw [planned.chunkEl_eq inside, ← planned.wireSize_exact chunk]
    exact Nat.dvd_mul_right _ _
  · rw [planned.chunkEl_eq inside]
    exact Nat.div_le_div_right (Nat.mul_le_mul_right _ (largest chunk inside))
  · have bits : cfg.quantizedType.sizeBits ≤ 64 := by cases cfg.quantizedType <;> decide
    have few : plan.maxChunkEl ≤ 2 ^ 57 := within.trans
      ((Nat.le_mul_of_pos_right _ planned.size_pos).trans memory)
    calc
      plan.maxChunkEl * cfg.quantizedType.sizeBits ≤ 2 ^ 57 * 64 := Nat.mul_le_mul few bits
      _ < 2 ^ 64 := by decide
  · exact planned.stageSpans (Nat.mod_lt _ positive) (Nat.mod_lt _ positive)
      (largest _ (Nat.mod_lt _ positive))
      dst buffer
  · exact planned.stageSpans (allgatherChunk_lt positive _ _) (allgatherChunk_lt positive _ _)
      (largest _ (allgatherChunk_lt positive _ _)) dst buffer

theorem chunks_in_bounds_quantizedPair :
    pcclAllReduceAsync quantizedPair.count quantizedPair.dataType quantizedPair.quantizedType
        quantizedPair.algorithm = some quantizedPair.quantizedType ∧
      ∃ plan, quantizedPair.plan? = some plan ∧ plan.boundaries.length = 2 := by
  have admitted : pcclAllReduceAsync quantizedPair.count quantizedPair.dataType
      quantizedPair.quantizedType quantizedPair.algorithm = some quantizedPair.quantizedType := by decide
  obtain ⟨plan, computed, length, _⟩ := chunks_in_bounds quantizedPair _ (by decide) admitted (by decide)
  exact ⟨admitted, plan, computed, length⟩

end Pccl.Ring
