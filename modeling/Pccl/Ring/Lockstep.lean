import Pccl.Ring.Endings

set_option autoImplicit false

namespace Pccl.Ring

open Buffer FifoRing

namespace Config

variable (cfg : Config)

/-- A plan exists and the step loops run `worldSize - 1` times. -/
structure Ready : Prop where
  plan : ∃ plan, cfg.plan? = some plan
  pair : 2 ≤ cfg.worldSize
  small : cfg.worldSize < 2 ^ 31

def steps : Nat := cfg.worldSize - 1

def txChunk (rank stage : Nat) : Nat :=
  if stage < cfg.steps then (rank + (cfg.worldSize - stage)) % cfg.worldSize
  else (rank + 1 + (cfg.worldSize - (stage - cfg.steps))) % cfg.worldSize

def rxChunk (rank stage : Nat) : Nat := pred cfg.worldSize (cfg.txChunk rank stage)

def chunkOf (buffer : List Byte) (chunk : Nat) : List Byte :=
  slice buffer (cfg.byteOffset chunk) (cfg.byteSize chunk)

def quantizes (chunk : Nat) : Bool := cfg.quantizing && 0 < cfg.chunkEl chunk

def opOf (stage : Nat) : ReduceOp := if stage < cfg.steps then cfg.op else .set

end Config

/-- A rank at the beginning of a stage: its buffer and what it is going to send. -/
structure Snapshot where
  dst : List Byte
  wire : List Byte
  metaData : DeQuantizationMetaData

section Lockstep

variable (cfg : Config) (inputs : Inputs cfg)

def prepare (rank stage : Nat) (dst carried : List Byte) (carriedMeta : DeQuantizationMetaData) :
    Snapshot :=
  let chunk := cfg.txChunk rank stage
  if cfg.quantizes chunk then
    if cfg.steps < stage then ⟨dst, carried, carriedMeta⟩
    else
      let (wire, metaData) := cfg.kernel.quantize (cfg.wireSize chunk) (cfg.chunkOf dst chunk)
      if stage = cfg.steps then
        ⟨splice dst (cfg.byteOffset chunk)
          (reduceElements cfg.kernel .set metaData (cfg.chunkOf dst chunk) wire), wire, metaData⟩
      else
        ⟨dst, wire, metaData⟩
  else
    ⟨dst, cfg.chunkOf dst chunk, .initial⟩

def incoming (rank stage : Nat) (own sender : Snapshot) : List Byte :=
  reduceElements cfg.kernel (cfg.opOf stage) sender.metaData
    (cfg.chunkOf own.dst (cfg.rxChunk rank stage)) sender.wire

def absorb (rank stage : Nat) (own sender : Snapshot) : List Byte :=
  splice own.dst (cfg.byteOffset (cfg.rxChunk rank stage)) (incoming cfg rank stage own sender)

def lockstep : (stage rank : Nat) → Snapshot
  | 0, rank => prepare cfg rank 0 (inputs.source rank) [] .initial
  | stage + 1, rank =>
    let own := lockstep stage rank
    let sender := lockstep stage (pred cfg.worldSize rank)
    prepare cfg rank (stage + 1) (absorb cfg rank stage own sender) sender.wire sender.metaData

def settled (stage rank : Nat) : List Byte :=
  absorb cfg rank stage (lockstep cfg inputs stage rank)
    (lockstep cfg inputs stage (pred cfg.worldSize rank))

theorem lockstep_succ (stage rank : Nat) :
    lockstep cfg inputs (stage + 1) rank =
      prepare cfg rank (stage + 1) (settled cfg inputs stage rank)
        (lockstep cfg inputs stage (pred cfg.worldSize rank)).wire
        (lockstep cfg inputs stage (pred cfg.worldSize rank)).metaData := rfl

end Lockstep

section Geometry

variable {cfg : Config} (ready : cfg.Ready)

include ready

theorem Config.Ready.stepCount : cfg.stepCount = cfg.steps :=
  cfg.stepCount_eq (Nat.lt_of_lt_of_le Nat.two_pos ready.pair) ready.small

theorem Config.Ready.one_le : 1 ≤ cfg.worldSize :=
  Nat.le_of_succ_le ready.pair

theorem Config.Ready.txChunk_lt (rank stage : Nat) : cfg.txChunk rank stage < cfg.worldSize := by
  have pair := ready.pair
  unfold Config.txChunk
  split_ifs <;> exact Nat.mod_lt _ (by omega)

theorem Config.Ready.rxChunk_lt (rank stage : Nat) : cfg.rxChunk rank stage < cfg.worldSize :=
  pred_lt _ _ (ready.txChunk_lt rank stage)

theorem Config.Ready.txChunk_ne_rxChunk (rank stage : Nat) :
    cfg.txChunk rank stage ≠ cfg.rxChunk rank stage := by
  have apart := next_ne _ _ (ready.rxChunk_lt rank stage) ready.pair
  rwa [Config.rxChunk, next_pred _ _ (ready.txChunk_lt rank stage)] at apart

theorem Config.Ready.txChunk_pred (rank stage : Nat) :
    cfg.txChunk (pred cfg.worldSize rank) stage = cfg.rxChunk rank stage := by
  have positive : 0 < cfg.worldSize := by have pair := ready.pair; omega
  unfold Config.rxChunk Config.txChunk
  split_ifs
  · exact pred_shift _ _ _ positive
  · rw [Nat.add_assoc, Nat.add_assoc, pred_shift _ _ _ positive]

theorem Config.Ready.txChunk_succ (rank stage : Nat) (gather : cfg.steps ≤ stage)
    (bound : stage + 1 < 2 * cfg.steps) :
    cfg.txChunk rank (stage + 1) = cfg.rxChunk rank stage := by
  have count : cfg.steps = cfg.worldSize - 1 := rfl
  have pair := ready.pair
  have shifted : rank + 1 + (cfg.worldSize - (stage - cfg.steps)) + cfg.worldSize - 1 =
      rank + 1 + (cfg.worldSize - (stage + 1 - cfg.steps)) + cfg.worldSize := by omega
  rw [Config.rxChunk, Config.txChunk, Config.txChunk, if_neg (by omega), if_neg (by omega), pred,
    Nat.add_sub_assoc (show 1 ≤ cfg.worldSize by omega), Nat.mod_add_mod,
    ← Nat.add_sub_assoc (show 1 ≤ cfg.worldSize by omega), shifted, Nat.add_mod_right]

omit ready in
theorem Config.txChunk_gather (rank : Nat) :
    cfg.txChunk rank cfg.steps = (rank + 1) % cfg.worldSize := by
  rw [Config.txChunk, if_neg (by omega), Nat.sub_self, Nat.sub_zero, Nat.add_mod_right]

end Geometry

section Lengths

variable {cfg : Config} (ready : cfg.Ready) (inputs : Inputs cfg)

include ready

theorem Config.Ready.planned : cfg.Planned (Net.plan cfg) := by
  obtain ⟨plan, computed⟩ := ready.plan
  have same : Net.plan cfg = plan := by simp [Net.plan, computed]
  rw [same]
  exact Config.plan?_correct plan computed

theorem length_chunkOf (buffer : List Byte) (chunk : Nat) (inside : chunk < cfg.worldSize)
    (length : buffer.length = cfg.count * cfg.dataType.size) :
    (cfg.chunkOf buffer chunk).length = cfg.byteSize chunk :=
  length_slice_of_le _ _ _ (length ▸ ready.planned.chunk_inside chunk inside)

omit ready in
theorem length_reduceChunk (op : ReduceOp) (metaData : DeQuantizationMetaData)
    (dst src : List Byte) (chunk : Nat) (length : dst.length = cfg.byteSize chunk) :
    (reduceElements cfg.kernel op metaData dst src).length = cfg.byteSize chunk := by
  rw [length_reduceElements cfg.kernel op metaData dst src (cfg.chunkEl chunk) length, length]

def Snapshot.Sized (cfg : Config) (rank stage : Nat) (snapshot : Snapshot) : Prop :=
  snapshot.dst.length = cfg.count * cfg.dataType.size ∧
    snapshot.wire.length = cfg.wireSize (cfg.txChunk rank stage)

theorem prepare_sized (rank stage : Nat) (dst carried : List Byte)
    (carriedMeta : DeQuantizationMetaData) (length : dst.length = cfg.count * cfg.dataType.size)
    (forwarded : cfg.steps < stage → carried.length = cfg.wireSize (cfg.txChunk rank stage)) :
    (prepare cfg rank stage dst carried carriedMeta).Sized cfg rank stage := by
  have inside := ready.txChunk_lt rank stage
  have chunk := length_chunkOf ready dst _ inside length
  have room := ready.planned.chunk_inside _ inside
  unfold prepare
  simp only
  split_ifs with quantizes later first
  · exact ⟨length, forwarded later⟩
  · refine ⟨?_, cfg.kernel.quantize_length _ _⟩
    have reduced := length_reduceChunk .set
      (cfg.kernel.quantize (cfg.wireSize (cfg.txChunk rank stage))
        (cfg.chunkOf dst (cfg.txChunk rank stage))).2 _
      (cfg.kernel.quantize (cfg.wireSize (cfg.txChunk rank stage))
        (cfg.chunkOf dst (cfg.txChunk rank stage))).1 _ chunk
    rw [length_splice _ _ _ (by rw [reduced]; omega), length]
  · exact ⟨length, cfg.kernel.quantize_length _ _⟩
  · refine ⟨length, ?_⟩
    rw [chunk]
    by_cases plain : cfg.quantizing = false
    · exact (ready.planned.wireSize_plain plain _).symm
    · have empty : cfg.chunkEl (cfg.txChunk rank stage) = 0 := by
        simpa [Config.quantizes, plain] using quantizes
      simp [Config.byteSize, Config.wireSize, Config.quantizedSize, empty]

theorem length_absorb (rank stage : Nat) (own sender : Snapshot)
    (sized : own.Sized cfg rank stage) :
    (absorb cfg rank stage own sender).length = cfg.count * cfg.dataType.size := by
  have inside := ready.rxChunk_lt rank stage
  have room := ready.planned.chunk_inside _ inside
  have chunk := length_chunkOf ready own.dst _ inside sized.1
  have reduced : (incoming cfg rank stage own sender).length = _ :=
    length_reduceChunk _ _ _ _ _ chunk
  rw [absorb, length_splice _ _ _ (by rw [reduced, sized.1]; omega), sized.1]

theorem lockstep_sized (stage rank : Nat) (bound : stage < 2 * cfg.steps) :
    (lockstep cfg inputs stage rank).Sized cfg rank stage := by
  induction stage generalizing rank with
  | zero =>
    apply prepare_sized ready _ _ _ _ _ (inputs.source_length rank)
    intro later
    omega
  | succ stage ih =>
    apply prepare_sized ready _ _ _ _ _ (length_absorb ready _ _ _ _ (ih rank (by omega)))
    intro later
    rw [(ih _ (by omega)).2, ready.txChunk_pred, ready.txChunk_succ rank stage (by omega) bound]

end Lengths

end Pccl.Ring
