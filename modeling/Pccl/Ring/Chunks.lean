import Pccl.Ring.Kernels

set_option autoImplicit false

namespace Pccl.Ring

open Buffer

structure Config where
  worldSize : Nat
  count : Nat
  dataType : DataType
  quantizedType : DataType
  algorithm : QuantizationAlgorithm
  op : ReduceOp
  tag : BitVec 64
  kernel : Kernel dataType quantizedType

def boundaryLoop (base remainder : Nat) : (ranks rank currentStart : Nat) → List (Nat × Nat)
  | 0, _, _ => []
  | ranks + 1, rank, currentStart =>
    let chunkSize := base + if rank < remainder then 1 else 0
    (currentStart, currentStart + chunkSize) ::
      boundaryLoop base remainder ranks (rank + 1) (currentStart + chunkSize)

def computeChunkBoundaries (totalEl worldSize : Nat) : List (Nat × Nat) :=
  boundaryLoop (totalEl / worldSize) (totalEl % worldSize) worldSize 0 0

/-- Where the chunk of a rank starts: the first `total % ranks` chunks hold one element more. -/
def chunkStart (total ranks rank : Nat) : Nat :=
  rank * (total / ranks) + min rank (total % ranks)

theorem boundaryLoop_getElem? (total ranks left rank index : Nat) (inside : index < left) :
    (boundaryLoop (total / ranks) (total % ranks) left rank (chunkStart total ranks rank))[index]? =
      some (chunkStart total ranks (rank + index), chunkStart total ranks (rank + index + 1)) := by
  have next (rank : Nat) :
      chunkStart total ranks rank + (total / ranks + if rank < total % ranks then 1 else 0) =
        chunkStart total ranks (rank + 1) := by
    simp only [chunkStart, Nat.add_mul, Nat.one_mul]
    split_ifs <;> omega
  induction left generalizing rank index with
  | zero => omega
  | succ left ih =>
    cases index with
    | zero => simp [boundaryLoop, next]
    | succ index =>
      have moved : rank + (index + 1) = rank + 1 + index := by omega
      simp only [boundaryLoop, next, List.getElem?_cons_succ, ih (rank + 1) index (by omega), moved]

theorem computeChunkBoundaries_getElem? (total ranks rank : Nat) (inside : rank < ranks) :
    (computeChunkBoundaries total ranks)[rank]? =
      some (chunkStart total ranks rank, chunkStart total ranks (rank + 1)) := by
  have first := boundaryLoop_getElem? total ranks ranks 0 rank inside
  simpa [computeChunkBoundaries, chunkStart] using first

theorem length_computeChunkBoundaries (total ranks : Nat) :
    (computeChunkBoundaries total ranks).length = ranks := by
  have loop (base remainder left rank start : Nat) :
      (boundaryLoop base remainder left rank start).length = left := by
    induction left generalizing rank start with
    | zero => rfl
    | succ left ih => simp [boundaryLoop, ih]
  exact loop _ _ _ _ _

theorem chunkStart_le_succ (total ranks rank : Nat) :
    chunkStart total ranks rank ≤ chunkStart total ranks (rank + 1) := by
  simp only [chunkStart, Nat.add_mul, Nat.one_mul]
  generalize total / ranks = base
  omega

theorem chunkStart_mono (total ranks : Nat) : Monotone (chunkStart total ranks) :=
  monotone_nat_of_le_succ (chunkStart_le_succ total ranks)

@[simp] theorem chunkStart_zero (total ranks : Nat) : chunkStart total ranks 0 = 0 := by
  simp [chunkStart]

theorem chunkStart_all (total ranks : Nat) (positive : 0 < ranks) :
    chunkStart total ranks ranks = total := by
  have small := Nat.mod_lt total positive
  have split := Nat.div_add_mod total ranks
  simp only [chunkStart]
  rw [Nat.min_eq_right (by omega)]
  exact split

namespace Config

variable (cfg : Config)

def quantizing : Bool := cfg.quantizedType ≠ cfg.dataType && cfg.algorithm ≠ .none

structure Plan where
  boundaries : List (Nat × Nat)
  maxChunkEl : Nat
deriving DecidableEq

def scaleBoundaries (pack : Nat) (boundaries : List (Nat × Nat)) : List (Nat × Nat) :=
  boundaries.map fun (first, last) => (first * pack, last * pack)

def boundaries? : Option (List (Nat × Nat)) :=
  let qbits := cfg.quantizedType.sizeBits
  if cfg.quantizing && qbits < 8 then
    let pack := 8 / Nat.gcd qbits 8
    if cfg.count % pack ≠ 0 then none
    else some (scaleBoundaries pack (computeChunkBoundaries (cfg.count / pack) cfg.worldSize))
  else if qbits % 8 ≠ 0 then none
  else some (computeChunkBoundaries cfg.count cfg.worldSize)

-- `none` stands for a `LOG(BUG)` or for the exception of a data type without a byte size.
def plan? : Option Plan := do
  let _ ← cfg.dataType.size?
  let boundaries ← cfg.boundaries?
  if cfg.algorithm = .none ∧ cfg.quantizedType ≠ cfg.dataType then none
  else
    let maxChunkEl := (boundaries.map fun (first, last) => last - first).foldl max 0
    if maxChunkEl * cfg.quantizedType.sizeBits % 8 ≠ 0 then none
    else some ⟨boundaries, maxChunkEl⟩

def unit : Nat :=
  if cfg.quantizing && cfg.quantizedType.sizeBits < 8 then
    8 / Nat.gcd cfg.quantizedType.sizeBits 8
  else 1

def start (chunk : Nat) : Nat :=
  chunkStart (cfg.count / cfg.unit) cfg.worldSize chunk * cfg.unit

def chunkEl (chunk : Nat) : Nat := cfg.start (chunk + 1) - cfg.start chunk

theorem unit_pos : 0 < cfg.unit := by
  unfold unit
  split_ifs
  · have divides := Nat.gcd_dvd_right cfg.quantizedType.sizeBits 8
    exact Nat.div_pos (Nat.le_of_dvd (by decide) divides)
      (Nat.gcd_pos_of_pos_right _ (by decide))
  · exact Nat.one_pos

theorem start_mono : Monotone cfg.start := fun _ _ le =>
  Nat.mul_le_mul_right _ (chunkStart_mono _ _ le)

theorem start_add_chunkEl (chunk : Nat) :
    cfg.start chunk + cfg.chunkEl chunk = cfg.start (chunk + 1) := by
  exact Nat.add_sub_of_le (cfg.start_mono (Nat.le_succ chunk))

/-- What the rest of the ring uses of the boundaries it has computed. -/
structure Planned (plan : Plan) : Prop where
  size : ∃ bytes, cfg.dataType.size? = some bytes
  boundary : ∀ chunk, chunk < cfg.worldSize →
    plan.boundaries.getD chunk (0, 0) = (cfg.start chunk, cfg.start (chunk + 1))
  whole : cfg.count % cfg.unit = 0
  packed : 8 ∣ cfg.unit * cfg.quantizedType.sizeBits
  exact : cfg.quantizing = false → cfg.quantizedType = cfg.dataType

variable {cfg}

theorem boundaries?_correct (boundaries : List (Nat × Nat))
    (computed : cfg.boundaries? = some boundaries) :
    cfg.count % cfg.unit = 0 ∧ 8 ∣ cfg.unit * cfg.quantizedType.sizeBits ∧
      ∀ chunk, chunk < cfg.worldSize →
        boundaries.getD chunk (0, 0) = (cfg.start chunk, cfg.start (chunk + 1)) := by
  by_cases packing : (cfg.quantizing && cfg.quantizedType.sizeBits < 8) = true
  · have pack : cfg.unit = 8 / Nat.gcd cfg.quantizedType.sizeBits 8 := by simp [unit, packing]
    simp only [boundaries?, packing, if_true, ← pack] at computed
    split_ifs at computed with uneven
    obtain rfl := Option.some.inj computed
    refine ⟨by omega, ?_, ?_⟩
    · have divides := Nat.gcd_dvd_right cfg.quantizedType.sizeBits 8
      rw [pack, Nat.div_mul_right_comm divides,
        Nat.mul_div_assoc _ (Nat.gcd_dvd_left cfg.quantizedType.sizeBits 8)]
      exact Dvd.intro _ rfl
    · intro chunk inside
      simp [scaleBoundaries, computeChunkBoundaries_getElem? _ _ _ inside, start]
  · have single : cfg.unit = 1 := by simp [unit, packing]
    simp only [boundaries?, if_neg packing] at computed
    split_ifs at computed with uneven
    obtain rfl := Option.some.inj computed
    rw [single]
    refine ⟨Nat.mod_one _, by omega, ?_⟩
    intro chunk inside
    simp [computeChunkBoundaries_getElem? _ _ _ inside, start, single]

theorem plan?_correct (plan : Plan) (computed : cfg.plan? = some plan) : cfg.Planned plan := by
  simp only [plan?, Option.bind_eq_bind, Option.bind_eq_some_iff] at computed
  obtain ⟨bytes, size, boundaries, computed, rest⟩ := computed
  split_ifs at rest with unquantized uneven
  obtain rfl := Option.some.inj rest
  obtain ⟨whole, packed, boundary⟩ := boundaries?_correct boundaries computed
  refine ⟨⟨bytes, size⟩, boundary, whole, packed, ?_⟩
  intro plain
  simp only [quantizing, Bool.and_eq_false_iff, decide_eq_false_iff_not, not_not] at plain
  tauto

variable (cfg)

def quantizedSize (elements : Nat) : Nat := elements * cfg.quantizedType.sizeBits / 8

def byteOffset (chunk : Nat) : Nat := cfg.start chunk * cfg.dataType.size

def byteSize (chunk : Nat) : Nat := cfg.chunkEl chunk * cfg.dataType.size

def wireSize (chunk : Nat) : Nat := cfg.quantizedSize (cfg.chunkEl chunk)

theorem byteOffset_add_byteSize (chunk : Nat) :
    cfg.byteOffset chunk + cfg.byteSize chunk = cfg.byteOffset (chunk + 1) := by
  rw [byteOffset, byteSize, ← Nat.add_mul, cfg.start_add_chunkEl, byteOffset]

theorem byteOffset_mono : Monotone cfg.byteOffset := fun _ _ le =>
  Nat.mul_le_mul_right _ (cfg.start_mono le)

theorem chunk_disjoint (left right : Nat) (apart : left ≠ right) :
    cfg.byteOffset left + cfg.byteSize left ≤ cfg.byteOffset right ∨
      cfg.byteOffset right + cfg.byteSize right ≤ cfg.byteOffset left := by
  rw [byteOffset_add_byteSize, byteOffset_add_byteSize]
  rcases Nat.lt_or_gt_of_ne apart with less | greater
  · exact .inl (cfg.byteOffset_mono less)
  · exact .inr (cfg.byteOffset_mono greater)

variable {cfg} {plan : Plan} (planned : cfg.Planned plan)

include planned

theorem Planned.size_pos : 0 < cfg.dataType.size := by
  obtain ⟨bytes, size⟩ := planned.size
  obtain ⟨_, same, positive⟩ := cfg.dataType.sizeBits_of_size bytes size
  omega

theorem Planned.dataBits : cfg.dataType.sizeBits = 8 * cfg.dataType.size := by
  obtain ⟨bytes, size⟩ := planned.size
  obtain ⟨bits, same, _⟩ := cfg.dataType.sizeBits_of_size bytes size
  rw [bits, same]

theorem Planned.start_all (positive : 0 < cfg.worldSize) : cfg.start cfg.worldSize = cfg.count := by
  rw [start, chunkStart_all _ _ positive]
  exact Nat.div_mul_cancel (Nat.dvd_of_mod_eq_zero planned.whole)

theorem Planned.chunk_inside (chunk : Nat) (inside : chunk < cfg.worldSize) :
    cfg.byteOffset chunk + cfg.byteSize chunk ≤ cfg.count * cfg.dataType.size := by
  rw [byteOffset_add_byteSize, ← planned.start_all (by omega)]
  exact cfg.byteOffset_mono inside

theorem Planned.wireSize_exact (chunk : Nat) :
    8 * cfg.wireSize chunk = cfg.chunkEl chunk * cfg.quantizedType.sizeBits := by
  have multiple : cfg.chunkEl chunk =
      (chunkStart (cfg.count / cfg.unit) cfg.worldSize (chunk + 1) -
        chunkStart (cfg.count / cfg.unit) cfg.worldSize chunk) * cfg.unit := by
    rw [chunkEl, start, start, Nat.sub_mul]
  have divides : 8 ∣ cfg.chunkEl chunk * cfg.quantizedType.sizeBits := by
    rw [multiple, Nat.mul_assoc]
    exact planned.packed.mul_left _
  exact Nat.mul_div_cancel' divides

theorem Planned.wireSize_plain (plain : cfg.quantizing = false) (chunk : Nat) :
    cfg.wireSize chunk = cfg.byteSize chunk := by
  have exact := planned.wireSize_exact chunk
  rw [planned.exact plain, planned.dataBits] at exact
  have scaled : cfg.chunkEl chunk * (8 * cfg.dataType.size) = 8 * cfg.byteSize chunk := by
    rw [byteSize]
    ring
  omega

theorem Planned.chunk_of_element (element : Nat) (inside : element < cfg.count)
    (positive : 0 < cfg.worldSize) :
    ∃ chunk index, chunk < cfg.worldSize ∧ index < cfg.chunkEl chunk ∧
      element = cfg.start chunk + index := by
  have reached (ranks : Nat) (within : element < cfg.start ranks) :
      ∃ chunk index, chunk < ranks ∧ index < cfg.chunkEl chunk ∧
        element = cfg.start chunk + index := by
    induction ranks with
    | zero => simp [start] at within
    | succ ranks ih =>
      by_cases before : element < cfg.start ranks
      · obtain ⟨chunk, index, small, rest⟩ := ih before
        exact ⟨chunk, index, by omega, rest⟩
      · have last := cfg.start_add_chunkEl ranks
        exact ⟨ranks, element - cfg.start ranks, by omega, by omega, by omega⟩
  exact reached cfg.worldSize (by rwa [planned.start_all positive])

end Config

end Pccl.Ring
