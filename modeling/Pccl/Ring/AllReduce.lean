import Pccl.Ring.Result
import Pccl.Ring.Steps

set_option autoImplicit false

namespace Pccl.Ring

open Buffer FifoRing

section Fold

variable {A : Type} (op : A → A → A)

def reduceAll : List A → Option A
  | [] => none
  | first :: rest => some (rest.foldl op first)

theorem reduceAll_concat (values : List A) (reduced last : A)
    (known : reduceAll op values = some reduced) :
    reduceAll op (values ++ [last]) = some (op reduced last) := by
  cases values with
  | nil => simp [reduceAll] at known
  | cons first rest =>
    have value : rest.foldl op first = reduced := by simpa [reduceAll] using known
    simp [reduceAll, value]

theorem reduceAll_perm [Std.Commutative op] [Std.Associative op] (left right : List A)
    (perm : left.Perm right) : reduceAll op left = reduceAll op right := by
  induction perm with
  | nil => rfl
  | cons first rest _ => simp [reduceAll, rest.foldl_op_eq]
  | swap first second rest => simp [reduceAll, Std.Commutative.comm first second]
  | trans _ _ leftEqual rightEqual => exact leftEqual.trans rightEqual

theorem rotated_perm (size position : Nat) :
    ((List.range size).map fun hops => (position + hops) % size).Perm (List.range size) := by
  have rotated : (List.range size).map (fun hops => (position + hops) % size) =
      (List.range size).rotate position := by
    apply List.ext_getElem
    · simp
    · intro index _ _
      simp [List.getElem_rotate, Nat.add_comm]
  rw [rotated]
  exact List.rotate_perm _ _

end Fold

section Integers

variable {width : Nat}

theorem exists_key (signed : Bool) : ∃ key : BitVec width → Int, Function.Injective key ∧
    ∀ left right : BitVec width,
      (if signed then left.slt right else left.ult right) = decide (key left < key right) := by
  cases signed with
  | true => exact ⟨BitVec.toInt, fun _ _ => BitVec.eq_of_toInt_eq, fun _ _ => rfl⟩
  | false =>
    refine ⟨fun value => value.toNat, ?_, ?_⟩
    · intro left right same
      exact BitVec.eq_of_toNat_eq (by simpa using same)
    · intro left right
      simp [BitVec.ult]

theorem integerOp_comm (signed : Bool) (op : ReduceOp)
    (folds : op ∈ [ReduceOp.sum, .prod, .min, .max]) (left right : BitVec width) :
    integerOp signed op left right = integerOp signed op right left := by
  obtain ⟨key, injective, compares⟩ := @exists_key width signed
  have equal (same : key left = key right) : left = right := injective same
  cases op with
  | sum => exact BitVec.add_comm left right
  | prod => exact BitVec.mul_comm left right
  | max | min =>
    simp only [integerOp, compares, decide_eq_true_eq]
    split_ifs with first second second
    · omega
    · rfl
    · rfl
    · exact equal (by omega)
  | set | avg => simp at folds

theorem integerOp_assoc (signed : Bool) (op : ReduceOp)
    (folds : op ∈ [ReduceOp.sum, .prod, .min, .max]) (left middle right : BitVec width) :
    integerOp signed op (integerOp signed op left middle) right =
      integerOp signed op left (integerOp signed op middle right) := by
  obtain ⟨key, injective, compares⟩ := @exists_key width signed
  cases op with
  | sum => exact BitVec.add_assoc left middle right
  | prod => exact BitVec.mul_assoc left middle right
  | max | min =>
    simp only [integerOp, compares, decide_eq_true_eq]
    split_ifs <;> first | rfl | omega
  | set | avg => simp at folds

end Integers

section Chunks

variable {cfg : Config} (ready : cfg.Ready)

theorem elem_chunkOf (buffer : List Byte) (chunk index : Nat) (inside : index < cfg.chunkEl chunk) :
    elem (8 * cfg.dataType.size) (cfg.chunkOf buffer chunk) index =
      elem (8 * cfg.dataType.size) buffer (cfg.start chunk + index) := by
  have scaled : (index + 1) * (8 * cfg.dataType.size) ≤ cfg.chunkEl chunk * (8 * cfg.dataType.size) :=
    Nat.mul_le_mul_right _ inside
  apply elem_slice
  · rw [Config.byteOffset]
    ring
  · rw [Config.byteSize]
    calc (index + 1) * (8 * cfg.dataType.size)
        ≤ cfg.chunkEl chunk * (8 * cfg.dataType.size) := scaled
      _ = 8 * (cfg.chunkEl chunk * cfg.dataType.size) := by ring

include ready

theorem eq_of_chunks (left right : List Byte)
    (leftLength : left.length = cfg.count * cfg.dataType.size)
    (rightLength : right.length = cfg.count * cfg.dataType.size)
    (same : ∀ chunk, chunk < cfg.worldSize → cfg.chunkOf left chunk = cfg.chunkOf right chunk) :
    left = right := by
  rw [← store_elem _ _ left leftLength, ← store_elem _ _ right rightLength]
  apply store_congr
  intro element inside
  obtain ⟨chunk, index, bound, within, rfl⟩ :=
    ready.planned.chunk_of_element element inside ready.one_le
  rw [← elem_chunkOf left chunk index within, ← elem_chunkOf right chunk index within,
    same chunk bound]

variable (inputs : Inputs cfg)

theorem elem_collected (integer : cfg.dataType.isInteger = true) (plain : cfg.quantizing = false)
    (folds : cfg.op ∈ [ReduceOp.sum, .prod, .min, .max]) (chunk hops index : Nat)
    (bound : chunk < cfg.worldSize) (inside : index < cfg.chunkEl chunk) :
    reduceAll (integerOp cfg.dataType.isSigned cfg.op)
        ((List.range (hops + 1)).map fun hop => elem (8 * cfg.dataType.size)
          (inputs.source ((chunk + hop) % cfg.worldSize)) (cfg.start chunk + index)) =
      some (elem (8 * cfg.dataType.size) (collected cfg inputs chunk hops) index) := by
  induction hops with
  | zero =>
    rw [collected, elem_chunkOf _ _ _ inside, Nat.zero_add, List.range_one, List.map_singleton,
      Nat.add_zero, Nat.mod_eq_of_lt bound]
    rfl
  | succ hops ih =>
    have size := ready.planned.size_pos
    have own := length_chunkOf ready (inputs.source ((chunk + (hops + 1)) % cfg.worldSize)) chunk bound
      (inputs.source_length _)
    have unquantized : cfg.quantizes chunk = false := by simp [Config.quantizes, plain]
    have exact := ready.planned.exact plain
    have notSet : cfg.op ≠ .set := by
      intro set
      simp [set] at folds
    have received (metaData : DeQuantizationMetaData) :
        operand cfg.kernel metaData
          (elem cfg.quantizedType.sizeBits (collected cfg inputs chunk hops) index) =
          elem (8 * cfg.dataType.size) (collected cfg inputs chunk hops) index := by
      rw [operand, if_pos exact.symm, elem_setWidth]
      rw [exact, ready.planned.dataBits]
    rw [List.range_succ, List.map_append, List.map_singleton, reduceAll_concat _ _ _ _ ih,
      integerOp_comm _ _ folds, collected, encode, unquantized, elem_reduceElements _ _ _ _ _ _
        (by rw [own, Config.byteSize, Nat.mul_div_cancel _ size]; exact inside),
      elem_chunkOf _ _ _ inside]
    simp only [Bool.false_eq_true, if_false]
    rw [received, combine, if_neg notSet, if_pos integer]

theorem elem_final (integer : cfg.dataType.isInteger = true) (plain : cfg.quantizing = false)
    (folds : cfg.op ∈ [ReduceOp.sum, .prod, .min, .max]) (chunk index : Nat)
    (bound : chunk < cfg.worldSize) (inside : index < cfg.chunkEl chunk) :
    reduceAll (integerOp cfg.dataType.isSigned cfg.op)
        ((List.range cfg.worldSize).map fun rank =>
          elem (8 * cfg.dataType.size) (inputs.source rank) (cfg.start chunk + index)) =
      some (elem (8 * cfg.dataType.size) (final cfg inputs chunk) index) := by
  have ranks : cfg.steps + 1 = cfg.worldSize := Nat.sub_add_cancel ready.one_le
  have unquantized : cfg.quantizes chunk = false := by simp [Config.quantizes, plain]
  have commutative : Std.Commutative (@integerOp (8 * cfg.dataType.size)
      cfg.dataType.isSigned cfg.op) := ⟨integerOp_comm _ _ folds⟩
  have associative : Std.Associative (@integerOp (8 * cfg.dataType.size)
      cfg.dataType.isSigned cfg.op) := ⟨integerOp_assoc _ _ folds⟩
  rw [final_plain ready inputs chunk bound unquantized,
    ← elem_collected ready inputs integer plain folds chunk cfg.steps index bound inside, ranks]
  apply reduceAll_perm
  have visited := (rotated_perm cfg.worldSize chunk).map fun rank =>
    elem (8 * cfg.dataType.size) (inputs.source rank) (cfg.start chunk + index)
  rw [List.map_map] at visited
  exact visited.symm

end Chunks

section Samples

theorem unitRange_made (_ : Nat) (_ : List Byte) :
    (DeQuantizationMetaData.makeMinMax .uint8 [0] [0]).Made :=
  .minMax _ 1 _ _ rfl rfl rfl

def constantKernel (dataType quantizedType : DataType) : Kernel dataType quantizedType where
  quantize size _ := (List.replicate size 1, .makeMinMax .uint8 [0] [0])
  quantize_length _ _ := List.length_replicate
  quantize_made := unitRange_made
  dequantize value _ := value.setWidth _
  floatOp _ left right := left + right
  floatDivide value _ := value

def rankInputs (cfg : Config) (chunkSize : Nat → Nat) : Inputs cfg where
  source rank := store cfg.dataType.size cfg.count fun index => BitVec.ofNat _ (100 * rank + index)
  source_length _ := length_store _ _ _
  inPlace _ := false
  chunkSize

def alternating (turns : Nat) : List (Nat × Observation) :=
  (List.range turns).map fun turn => (turn % 2, ⟨1, true, false⟩)

def integerPair : Config :=
  ⟨2, 3, .int16, .int16, .none, .sum, 7, constantKernel .int16 .int16⟩

def quantizedPair : Config :=
  ⟨2, 3, .float, .uint8, .minMax, .sum, 7, constantKernel .float .uint8⟩

end Samples

section Runs

variable {cfg : Config} (inputs : Inputs cfg)

theorem pipelineRingReduce_reduces (pair : 2 ≤ cfg.worldSize) (small : cfg.worldSize ≤ 2 ^ 31 - 1)
    (integer : cfg.dataType.isInteger = true) (plain : cfg.quantizing = false)
    (folds : cfg.op ∈ [ReduceOp.sum, .prod, .min, .max]) (schedule : List (Nat × Observation))
    (completed : Net.Completed cfg (Net.run cfg inputs schedule)) (rank element : Nat)
    (bound : rank < cfg.worldSize) (inside : element < cfg.count) :
    reduceAll (integerOp cfg.dataType.isSigned cfg.op)
        ((List.range cfg.worldSize).map fun other =>
          elem (8 * cfg.dataType.size) (inputs.source other) element) =
      some (elem (8 * cfg.dataType.size) ((Net.run cfg inputs schedule).ranks rank).dst element) := by
  have below : cfg.worldSize < 2 ^ 31 := by
    norm_num at small ⊢
    omega
  have ready := ready_of_completed inputs pair below schedule completed
  have settled := completed_settled inputs pair below (by simp [plain]) schedule completed rank bound
  have notAvg : cfg.op ≠ .avg := by
    intro avg
    simp [avg] at folds
  rw [performReduceFinalization, if_pos notAvg] at settled
  obtain ⟨chunk, index, within, small, rfl⟩ :=
    ready.planned.chunk_of_element element inside ready.one_le
  rw [← Option.some.inj settled, ← elem_chunkOf _ _ _ small,
    settled_final ready inputs rank chunk bound within]
  exact elem_final ready inputs integer plain folds chunk index within small

theorem integerPair_reduces :
    let inputs := rankInputs integerPair (· + 1)
    reduceAll (integerOp integerPair.dataType.isSigned integerPair.op)
        ((List.range integerPair.worldSize).map fun other =>
          elem (8 * integerPair.dataType.size) (inputs.source other) 2) =
      some (elem (8 * integerPair.dataType.size)
        ((Net.run integerPair inputs (alternating 40)).ranks 1).dst 2) :=
  pipelineRingReduce_reduces (rankInputs integerPair (· + 1)) (by decide) (by decide) (by decide)
    (by decide) (by decide) (alternating 40) (by decide +kernel) 1 2 (by decide) (by decide)

theorem pipelineRingReduce_parity (pair : 2 ≤ cfg.worldSize) (small : cfg.worldSize ≤ 2 ^ 31 - 1)
    (size : Nat) (common : ∀ rank, rank < cfg.worldSize → inputs.chunkSize rank = size)
    (schedule : List (Nat × Observation))
    (completed : Net.Completed cfg (Net.run cfg inputs schedule)) (left right : Nat)
    (leftBound : left < cfg.worldSize) (rightBound : right < cfg.worldSize) :
    ((Net.run cfg inputs schedule).ranks left).dst =
      ((Net.run cfg inputs schedule).ranks right).dst := by
  have below : cfg.worldSize < 2 ^ 31 := by
    norm_num at small ⊢
    omega
  have ready := ready_of_completed inputs pair below schedule completed
  have paced (rank : Nat) (bound : rank < cfg.worldSize) : Paced cfg inputs rank :=
    Or.inl (by rw [common _ (pred_lt _ _ bound), common _ bound])
  have settled := completed_settled inputs pair below (fun _ => paced) schedule completed
  have positive : 0 < cfg.steps := Nat.sub_pos_of_lt pair
  have length (rank : Nat) := length_absorb ready _ _ _
    (lockstep cfg inputs (2 * cfg.steps - 1) (pred cfg.worldSize rank))
    (lockstep_sized ready inputs (2 * cfg.steps - 1) rank (by omega))
  have same := eq_of_chunks ready _ _ (length left) (length right) fun chunk bound =>
    (settled_final ready inputs left chunk leftBound bound).trans
      (settled_final ready inputs right chunk rightBound bound).symm
  have first := settled left leftBound
  have second := settled right rightBound
  rw [Ring.settled, same] at first
  exact Option.some.inj (first.symm.trans second)

theorem quantizedPair_parity :
    ((Net.run quantizedPair (rankInputs quantizedPair fun _ => 2) (alternating 60)).ranks 0).dst =
      ((Net.run quantizedPair (rankInputs quantizedPair fun _ => 2) (alternating 60)).ranks 1).dst :=
  pipelineRingReduce_parity (rankInputs quantizedPair fun _ => 2) (by decide) (by decide) 2
    (fun _ _ => rfl) (alternating 60) (by decide +kernel) 0 1 (by decide) (by decide)

theorem successes_agree (ready : cfg.Ready)
    (common : cfg.quantizing = true → ∀ rank, rank < cfg.worldSize →
      inputs.chunkSize (pred cfg.worldSize rank) = inputs.chunkSize rank) :
    ∃ result, ∀ schedule rank, rank < cfg.worldSize →
      let net := Net.run cfg inputs schedule
      (net.ranks rank).outcome = .returned true false →
        (net.ranks rank).dst = result ∧ net.edges rank = [] := by
  let last := settled cfg inputs (2 * cfg.steps - 1)
  have positive : 0 < cfg.steps := Nat.sub_pos_of_lt ready.pair
  have length (rank : Nat) := length_absorb ready _ _ _
    (lockstep cfg inputs (2 * cfg.steps - 1) (pred cfg.worldSize rank))
    (lockstep_sized ready inputs (2 * cfg.steps - 1) rank (by omega))
  refine ⟨(performReduceFinalization cfg.kernel cfg.worldSize cfg.op (last 0)).getD [],
    fun schedule rank bound returned => ?_⟩
  have same : last rank = last 0 := eq_of_chunks ready _ _ (length rank) (length 0) fun chunk inside =>
    (settled_final ready inputs rank chunk bound inside).trans
      (settled_final ready inputs 0 chunk ready.one_le inside).symm
  obtain ⟨todo, expected, tracked⟩ := run_aligned ready.pair
    (act_follows ready inputs fun quantizing rank bound => Or.inl (common quantizing rank bound).le)
    (Net.start cfg inputs) (start_aligned ready inputs) schedule
  obtain ⟨⟨_, inStage, _⟩ | ⟨_, _, none, finished⟩, front, _⟩ :=
    tracked rank bound fun lost => lost.2 returned
  · cases inStage.running.symm.trans returned
  · rw [none] at front
    rw [← same, finished]
    exact ⟨rfl, List.prefix_nil.mp front⟩

theorem successes_agree_pair : ∃ result, ∀ schedule rank, rank < 2 →
    let net := Net.run quantizedPair (rankInputs quantizedPair fun _ => 2) schedule
    (net.ranks rank).outcome = .returned true false →
      (net.ranks rank).dst = result ∧ net.edges rank = [] :=
  successes_agree (rankInputs quantizedPair fun _ => 2) ⟨⟨_, rfl⟩, by decide, by decide⟩
    fun _ _ _ => rfl

end Runs

section Overflow

def hugeWorld : Config :=
  -- A world size that is negative as an `int`: neither step loop runs.
  ⟨2 ^ 31 + 1, 1, .float, .uint8, .minMax, .sum, 7, constantKernel .float .uint8⟩

theorem hugeWorld_stepCount : hugeWorld.stepCount = 0 := by
  decide +kernel

-- A quantized type of one byte passes every check, whatever the boundaries are.
theorem hugeWorld_plan : ∃ plan, hugeWorld.plan? = some plan := by
  have bits : hugeWorld.quantizedType.sizeBits = 8 := rfl
  have size : hugeWorld.dataType.size? = some 4 := rfl
  have algorithm : hugeWorld.algorithm ≠ .none := by decide
  simp [Config.plan?, Config.boundaries?, bits, size, algorithm]

theorem returns_source {cfg : Config} (inputs : Inputs cfg) (pair : 2 ≤ cfg.worldSize)
    (planned : ∃ plan, cfg.plan? = some plan) (loops : cfg.stepCount = 0) (sums : cfg.op = .sum)
    (rank : Nat) :
    ((Net.run cfg inputs []).ranks rank).outcome = .returned true false ∧
      ((Net.run cfg inputs []).ranks rank).dst = inputs.source rank := by
  obtain ⟨plan, computed⟩ := planned
  have started : (Net.run cfg inputs []).ranks rank = startRank cfg (Net.call cfg inputs rank) := rfl
  rw [started, startRank, if_neg (Nat.not_lt.mpr pair), computed]
  simp only [loops, Nat.lt_irrefl, if_false, finalize, performReduceFinalization, sums]
  exact ⟨rfl, rfl⟩

theorem parity_fails_hugeWorld :
    let inputs := rankInputs hugeWorld fun _ => 1
    2 ≤ hugeWorld.worldSize ∧ hugeWorld.quantizing = true ∧
      Net.Completed hugeWorld (Net.run hugeWorld inputs []) ∧
      ((Net.run hugeWorld inputs []).ranks 0).dst ≠ ((Net.run hugeWorld inputs []).ranks 1).dst := by
  have pair : 2 ≤ hugeWorld.worldSize := by decide
  have returned (rank : Nat) := returns_source (rankInputs hugeWorld fun _ => 1) pair hugeWorld_plan
    hugeWorld_stepCount rfl rank
  refine ⟨pair, by decide, fun rank _ => (returned rank).1, ?_⟩
  rw [(returned 0).2, (returned 1).2]
  decide

end Overflow

end Pccl.Ring
