import Pccl.Ring.Lockstep

set_option autoImplicit false

namespace Pccl.Ring

open Buffer FifoRing

theorem DataType.sizeBits_pos (dataType : DataType) : 0 < dataType.sizeBits := by
  cases dataType <;> decide

theorem DataType.floor_aligned (dataType : DataType) (bytes : Nat) :
    8 ∣ bytes * 8 / dataType.sizeBits * dataType.sizeBits := by
  cases dataType <;> simp only [sizeBits] <;> omega

def Config.floorEl (cfg : Config) (bytes : Nat) : Nat := bytes * 8 / cfg.quantizedType.sizeBits

section Floor

variable (cfg : Config)

theorem Config.floorEl_mono (less more : Nat) (le : less ≤ more) :
    cfg.floorEl less ≤ cfg.floorEl more :=
  Nat.div_le_div_right (Nat.mul_le_mul_right 8 le)

theorem Config.floorEl_aligned (bytes : Nat) :
    8 * (cfg.floorEl bytes * cfg.quantizedType.sizeBits / 8) =
      cfg.floorEl bytes * cfg.quantizedType.sizeBits :=
  Nat.mul_div_cancel' (cfg.quantizedType.floor_aligned bytes)

theorem Config.floorEl_window (less more : Nat) :
    8 * ((cfg.floorEl more - cfg.floorEl less) * cfg.quantizedType.sizeBits / 8) =
      (cfg.floorEl more - cfg.floorEl less) * cfg.quantizedType.sizeBits := by
  apply Nat.mul_div_cancel'
  rw [Nat.sub_mul]
  exact Nat.dvd_sub (cfg.quantizedType.floor_aligned more) (cfg.quantizedType.floor_aligned less)

theorem Config.floorEl_received (less more : Nat) (le : less ≤ more) :
    cfg.floorEl less * cfg.quantizedType.sizeBits / 8 +
      (cfg.floorEl more - cfg.floorEl less) * cfg.quantizedType.sizeBits / 8 ≤ more := by
  have first := cfg.floorEl_aligned less
  have second := cfg.floorEl_window less more
  have order := cfg.floorEl_mono less more le
  have total : cfg.floorEl more * cfg.quantizedType.sizeBits ≤ more * 8 := Nat.div_mul_le_self _ _
  rw [Nat.sub_mul] at second
  have grows := Nat.mul_le_mul_right cfg.quantizedType.sizeBits order
  rw [Nat.sub_mul]
  omega

end Floor

theorem Config.floorEl_exact {cfg : Config} {wireSize elements : Nat}
    (whole : 8 * wireSize = elements * cfg.quantizedType.sizeBits) : cfg.floorEl wireSize = elements := by
  rw [floorEl, Nat.mul_comm, whole, Nat.mul_div_cancel _ (DataType.sizeBits_pos _)]

/-- A chunk that comes in: the elements on the wire are reduced into those of the buffer at `offset`. -/
structure Landing (cfg : Config) where
  own : List Byte
  offset : Nat
  elements : Nat
  op : ReduceOp
  metaData : DeQuantizationMetaData
  wire : List Byte
  wireSize : Nat
  room : offset + elements * cfg.dataType.size ≤ own.length
  whole : 8 * wireSize = elements * cfg.quantizedType.sizeBits
  width : cfg.dataType.sizeBits = 8 * cfg.dataType.size

namespace Landing

variable {cfg : Config} (landing : Landing cfg)

def target : List Byte := slice landing.own landing.offset (landing.elements * cfg.dataType.size)

def reduced : List Byte :=
  reduceElements cfg.kernel landing.op landing.metaData landing.target landing.wire

def mixed (recvd : Nat) : List Byte :=
  mix (cfg.floorEl recvd * cfg.dataType.size) landing.reduced landing.target

def after (recvd : Nat) : List Byte := splice landing.own landing.offset (landing.mixed recvd)

include landing in
theorem positive : 0 < cfg.dataType.size := by
  have bits := cfg.dataType.sizeBits_pos
  have width := landing.width
  omega

include landing in
theorem scaled (elements : Nat) : elements * cfg.dataType.sizeBits / 8 = elements * cfg.dataType.size := by
  rw [landing.width, Nat.mul_left_comm, Nat.mul_div_cancel_left _ (by decide)]

theorem length_target : landing.target.length = landing.elements * cfg.dataType.size :=
  length_slice_of_le _ _ _ landing.room

theorem length_reduced : landing.reduced.length = landing.elements * cfg.dataType.size :=
  (length_reduceElements _ _ _ _ _ _ landing.length_target).trans landing.length_target

theorem floorEl_le {recvd : Nat} (inside : recvd ≤ landing.wireSize) :
    cfg.floorEl recvd ≤ landing.elements := by
  rw [← Config.floorEl_exact landing.whole]
  exact cfg.floorEl_mono _ _ inside

theorem length_mixed {recvd : Nat} (inside : recvd ≤ landing.wireSize) :
    (landing.mixed recvd).length = landing.elements * cfg.dataType.size := by
  rw [mixed, length_mix _ _ _ (by rw [length_reduced, length_target]), length_target]
  rw [length_reduced]
  exact Nat.mul_le_mul_right _ (landing.floorEl_le inside)

theorem after_zero : landing.after 0 = landing.own := by
  simp only [after, mixed, Config.floorEl, Nat.zero_mul, Nat.zero_div, mix_zero]
  exact splice_slice _ _ _ landing.room

theorem after_full : landing.after landing.wireSize = splice landing.own landing.offset landing.reduced := by
  rw [after, mixed, Config.floorEl_exact landing.whole, ← landing.length_reduced,
    mix_all _ _ (by rw [length_reduced, length_target])]

theorem after_advance (recvd more : Nat) (recvBuffer : List Byte) (le : recvd ≤ more)
    (inside : more ≤ landing.wireSize)
    (received : ∀ index, index < more → recvBuffer[index]? = landing.wire[index]?) :
    let dst := landing.after recvd
    let offset := landing.offset + cfg.floorEl recvd * cfg.dataType.size
    let elements := cfg.floorEl more - cfg.floorEl recvd
    splice dst offset
      (reduceElements cfg.kernel landing.op landing.metaData
        (slice dst offset (elements * cfg.dataType.size))
        (slice recvBuffer (cfg.floorEl recvd * cfg.quantizedType.sizeBits / 8)
          (elements * cfg.quantizedType.sizeBits / 8))) =
      landing.after more := by
  intro dst offset elements
  have chunk := landing.length_target
  have next := landing.length_reduced
  have mixed := landing.length_mixed (Nat.le_trans le inside)
  have room := landing.room
  have order := cfg.floorEl_mono recvd more le
  have whole : cfg.floorEl recvd + elements ≤ landing.elements := by
    have last := landing.floorEl_le inside
    omega
  have bytes : cfg.floorEl recvd * cfg.dataType.size + elements * cfg.dataType.size ≤
      landing.elements * cfg.dataType.size := by
    rw [← Nat.add_mul]
    exact Nat.mul_le_mul_right _ whole
  have target : slice dst offset (elements * cfg.dataType.size) =
      slice landing.target (cfg.floorEl recvd * cfg.dataType.size) (elements * cfg.dataType.size) := by
    have window := slice_slice dst landing.offset (landing.elements * cfg.dataType.size)
      (cfg.floorEl recvd * cfg.dataType.size) (elements * cfg.dataType.size) bytes
    have written := slice_splice_same landing.own landing.offset (landing.mixed recvd)
      (by rw [mixed]; exact room)
    rw [mixed] at written
    rw [← window]
    exact (congrArg (slice · _ _) written).trans (slice_mix_after _ _ _ _ _ (by omega) (Nat.le_refl _))
  have source : slice recvBuffer (cfg.floorEl recvd * cfg.quantizedType.sizeBits / 8)
        (elements * cfg.quantizedType.sizeBits / 8) =
      slice landing.wire (cfg.floorEl recvd * cfg.quantizedType.sizeBits / 8)
        (elements * cfg.quantizedType.sizeBits / 8) := by
    have used : _ + elements * cfg.quantizedType.sizeBits / 8 ≤ more :=
      cfg.floorEl_received recvd more le
    apply List.ext_getElem?
    intro index
    rw [slice_getElem?, slice_getElem?]
    split_ifs with small
    · exact received _ (by omega)
    · rfl
  have reduced := reduceElements_slice cfg.kernel landing.op landing.metaData landing.target
    landing.wire landing.elements (cfg.floorEl recvd) elements _ _ chunk whole
    (cfg.floorEl_aligned recvd) (cfg.floorEl_window recvd more) landing.positive
  rw [target, source, reduced]
  have length : (slice landing.reduced (cfg.floorEl recvd * cfg.dataType.size)
      (elements * cfg.dataType.size)).length = elements * cfg.dataType.size :=
    length_slice_of_le _ _ _ (by omega)
  change splice (splice _ _ _) _ (slice landing.reduced _ _) = _
  rw [splice_splice_inside _ _ _ _ _ (by rw [mixed]; exact room) (by rw [length, mixed]; exact bytes),
    Landing.mixed, splice_mix _ _ _ _ (by rw [chunk, next]) (by omega), ← Nat.add_mul,
    Nat.add_sub_cancel' order]
  rfl

/-- The rank is in the stage in which the chunk comes in, and has reduced what has come in so far. -/
structure Reduces (state : RankState) : Prop where
  rxOffset : state.stage.rxOffset = landing.offset
  rxSize : state.stage.rxSize = landing.elements * cfg.dataType.size
  recvSize : state.stage.recvSize = landing.wireSize
  op : stageOp cfg state.stage.phase = landing.op
  metaData : state.receivedMeta = landing.metaData
  dst : state.dst = landing.after state.recvd

variable {landing}

theorem Reduces.accept {state : RankState} (reduces : landing.Reduces state) {data : List Byte}
    (present : data.length ≠ 0) (inside : state.recvd + data.length ≤ landing.wireSize)
    (received : ∀ index, index < state.recvd + data.length →
      (splice state.recvBuffer state.recvd data)[index]? = landing.wire[index]?) :
    acceptData cfg data state =
        { state with
          recvBuffer := splice state.recvBuffer state.recvd data
          recvd := state.recvd + data.length
          noEvent := false
          dst := landing.after (state.recvd + data.length) } ∨
      reductionSupported cfg.dataType cfg.quantizedType cfg.algorithm landing.op = false ∧
        (acceptData cfg data state).outcome = .terminated := by
  have order := cfg.floorEl_mono state.recvd _ (Nat.le_add_right _ data.length)
  have last := landing.floorEl_le inside
  rw [acceptData, if_neg present, reduces.recvSize, reduces.rxSize, reduces.op, reduces.rxOffset]
  simp only [landing.scaled]
  split_ifs with complete bounds
  · rw [performReduction]
    split_ifs with supported
    · left
      dsimp only
      rw [reduces.metaData, reduces.dst]
      congr 1
      exact landing.after_advance _ _ _ (Nat.le_add_right _ _) inside received
    · exact .inr ⟨by simpa using supported, rfl⟩
  · refine absurd ⟨?_, ?_⟩ bounds
    · exact (cfg.floorEl_received _ _ (Nat.le_add_right _ _)).trans inside
    · rw [← Nat.add_mul]
      exact Nat.mul_le_mul_right _ (Nat.le_trans (Nat.add_sub_cancel' order).le last)
  · -- No element is complete yet: the progress stays where it is.
    have same : cfg.floorEl (state.recvd + data.length) = cfg.floorEl state.recvd :=
      (Nat.not_lt.mp complete).antisymm order
    left
    rw [after, mixed, same]
    congr 1
    exact reduces.dst

end Landing

section Progress

variable {cfg : Config} (inputs : Inputs cfg) (rank stage : Nat)

def arriving (cfg : Config) (inputs : Inputs cfg) (rank stage : Nat) : List Byte :=
  incoming cfg rank stage (lockstep cfg inputs stage rank)
    (lockstep cfg inputs stage (pred cfg.worldSize rank))

def partialDst (cfg : Config) (inputs : Inputs cfg) (rank stage recvd : Nat) : List Byte :=
  let own := (lockstep cfg inputs stage rank).dst
  splice own (cfg.byteOffset (cfg.rxChunk rank stage))
    (mix (cfg.floorEl recvd * cfg.dataType.size) (arriving cfg inputs rank stage)
      (cfg.chunkOf own (cfg.rxChunk rank stage)))

variable (ready : cfg.Ready) (bound : stage < 2 * cfg.steps)

include ready bound

theorem length_own :
    (lockstep cfg inputs stage rank).dst.length = cfg.count * cfg.dataType.size :=
  (lockstep_sized ready inputs stage rank bound).1

theorem room_own :
    cfg.byteOffset (cfg.rxChunk rank stage) + cfg.byteSize (cfg.rxChunk rank stage) ≤
      (lockstep cfg inputs stage rank).dst.length := by
  rw [length_own inputs rank stage ready bound]
  exact ready.planned.chunk_inside _ (ready.rxChunk_lt rank stage)

def landing : Landing cfg where
  own := (lockstep cfg inputs stage rank).dst
  offset := cfg.byteOffset (cfg.rxChunk rank stage)
  elements := cfg.chunkEl (cfg.rxChunk rank stage)
  op := cfg.opOf stage
  metaData := (lockstep cfg inputs stage (pred cfg.worldSize rank)).metaData
  wire := (lockstep cfg inputs stage (pred cfg.worldSize rank)).wire
  wireSize := cfg.wireSize (cfg.rxChunk rank stage)
  room := room_own inputs rank stage ready bound
  whole := ready.planned.wireSize_exact _
  width := ready.planned.dataBits

theorem partialDst_zero : partialDst cfg inputs rank stage 0 = (lockstep cfg inputs stage rank).dst :=
  (landing inputs rank stage ready bound).after_zero

theorem partialDst_full :
    partialDst cfg inputs rank stage (cfg.wireSize (cfg.rxChunk rank stage)) =
      settled cfg inputs stage rank :=
  (landing inputs rank stage ready bound).after_full

theorem chunkOf_partialDst (recvd chunk : Nat)
    (le : recvd ≤ cfg.wireSize (cfg.rxChunk rank stage)) (apart : chunk ≠ cfg.rxChunk rank stage) :
    cfg.chunkOf (partialDst cfg inputs rank stage recvd) chunk =
      cfg.chunkOf (lockstep cfg inputs stage rank).dst chunk := by
  have mixed := (landing inputs rank stage ready bound).length_mixed le
  change cfg.chunkOf ((landing inputs rank stage ready bound).after recvd) chunk = _
  apply slice_splice_outside
  · rw [mixed]
    exact room_own inputs rank stage ready bound
  · rw [mixed]
    exact cfg.chunk_disjoint _ _ apart

end Progress

end Pccl.Ring
