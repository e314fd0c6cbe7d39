import Pccl.Shared.Elements
import Pccl.Shared.Lanes

set_option autoImplicit false

/-!
The hash of a buffer is computed in the order in which the CUDA kernels do it: the words are dealt out
to blocks, each of which deals them out to 256 threads, and two trees of 32 lanes reduce the threads of
a block. Arrays are functions here, with zeros behind their end.
-/

namespace Pccl.Hash

open Buffer Lanes

abbrev Word := BitVec 32

def hashCombineScalar (a b : Word) : Word :=
  let a := a ^^^ (b + 0x9e3779b1)
  let a := a <<< 7 ||| a >>> 25
  a * 0x85ebca6b

def warpSize : Nat := 32

def blockDim : Nat := 256

def warpReduce (input : Nat → Word) : Word :=
  [16, 8, 4, 2, 1].foldl (fun temp offset => halve offset hashCombineScalar temp) input 0

def blockReduce (acc : Nat → Word) : Word :=
  let numWarps := blockDim / warpSize
  warpReduce fun warp => if warp < numWarps then warpReduce fun lane => acc (warp * warpSize + lane) else 0

def combineVector (acc : Word) (vec : Fin 4 → Word) : Word :=
  [0, 1, 2, 3].foldl (fun acc i => hashCombineScalar acc (vec i)) acc

def computeThreadBlockPerformAllThreadsStep (acc : Nat → Word) (currentWords : Nat → Word)
    (threadsWithData : Nat) : Nat → Word :=
  pass threadsWithData combineVector (fun thread i => currentWords (thread * 4 + i)) acc

def computeThreadBlockResult (b : Nat) (words : Nat → Word) (nVec vectorsPerBlock : Nat) : Word :=
  let blockStart := b * vectorsPerBlock
  let blockEnd := if blockStart + vectorsPerBlock > nVec then nVec else blockStart + vectorsPerBlock
  let acc := (List.range ((blockEnd - blockStart + blockDim - 1) / blockDim)).foldl
    (fun acc turn =>
      let i := blockStart + turn * blockDim
      computeThreadBlockPerformAllThreadsStep acc (fun j => words (i * 4 + j))
        (min blockDim (blockEnd - i)))
    fun _ => 0
  blockReduce acc

def computeKernelResult (gridDim : Nat) (words : Nat → Word) (nVec vectorsPerBlock : Nat) : Word :=
  let sections := (gridDim + blockDim - 1) / blockDim
  let threadReduceResults := (List.range sections).foldl
    (fun results section_ =>
      pass (min (gridDim - section_ * blockDim) blockDim) hashCombineScalar
        (fun thread => computeThreadBlockResult (section_ * blockDim + thread) words nVec vectorsPerBlock)
        results)
    fun _ => 0
  blockReduce threadReduceResults

def littleEndian (bytes : Nat → Byte) (count : Nat) : Word :=
  (List.range count).foldl (fun value i => value ||| (bytes i).setWidth 32 <<< (8 * i)) 0

def wordAt (data : List Byte) (i : Nat) : Word := littleEndian (fun j => data.getD (i * 4 + j) 0) 4

def kernelHash (words : Nat → Word) (nVec : Nat) : Word :=
  let gridDim := min ((nVec + blockDim - 1) / blockDim) 960
  if gridDim = 0 then 0
  else computeKernelResult gridDim words nVec ((nVec + gridDim - 1) / gridDim)

def hashWords (words : Nat → Word) (nWords : Nat) : Word :=
  -- The words that do not make up a vector come after those that do.
  let nVec := nWords / 4
  let tailInts := nWords % 4
  (List.range tailInts).foldl (fun hash i => hashCombineScalar hash (words (nVec * 4 + i)))
    (kernelHash words nVec)

def simplehashCpu (address : Nat) (data : List Byte) : Option Word :=
  -- `none` where the source aborts: the buffer has to begin at a multiple of 16.
  let bytes := data.length
  if bytes = 0 then some 0
  else if address % 16 ≠ 0 then none
  else
    let nWords := bytes / 4
    let finalHash := hashWords (wordAt data) nWords
    let tailBytes := bytes % 4
    if tailBytes > 0 then
      some (hashCombineScalar finalHash (littleEndian (fun i => data.getD (nWords * 4 + i) 0) tailBytes))
    else some finalHash

section Combine

theorem rotate_injective {a b : Word} (same : a <<< 7 ||| a >>> 25 = b <<< 7 ||| b >>> 25) : a = b := by
  refine BitVec.eq_of_getLsbD_eq fun i low => ?_
  have bit (place : Nat) := congrArg (fun word : Word => word.getLsbD place) same
  by_cases high : i < 25
  · have inside : i + 7 < 32 := by omega
    have beyond (word : Word) : word.getLsbD (25 + (i + 7)) = false := word.getLsbD_of_ge _ (by omega)
    simpa [inside, beyond, low] using bit (i + 7)
  · have front : i - 25 < 7 := by omega
    have back : 25 + (i - 25) = i := by omega
    simpa [front, back] using bit (i - 25)

theorem mul_injective {a b : Word} (same : a * 0x85ebca6b = b * 0x85ebca6b) : a = b := by
  have inverse : (0x85ebca6b : Word) * 0xa5cb9243 = 1#32 := by decide
  have times := congrArg (· * (0xa5cb9243 : Word)) same
  simpa only [BitVec.mul_assoc, inverse, BitVec.mul_one] using times

theorem hashCombineScalar_cancels : Cancels hashCombineScalar where
  left a b c same := by
    have mixed := rotate_injective (mul_injective same)
    simpa using mixed
  right a b c same := by
    have mixed := rotate_injective (mul_injective same)
    simpa using mixed

end Combine

section Reductions

theorem warpReduce_eq (input : Nat → Word) : warpReduce input = tree hashCombineScalar 5 input := rfl

theorem warpReduce_congr {first second : Nat → Word} (same : ∀ lane < 32, first lane = second lane) :
    warpReduce first = warpReduce second := by
  rw [warpReduce_eq, warpReduce_eq, tree_congr 5 same]

theorem warpReduce_ne {first second : Nat → Word} {lane : Nat}
    (differs : DiffersAt 32 first second lane) : warpReduce first ≠ warpReduce second := by
  rw [warpReduce_eq, warpReduce_eq]
  exact tree_differs hashCombineScalar_cancels 5 differs

theorem blockReduce_eq (acc : Nat → Word) :
    blockReduce acc = warpReduce fun warp =>
      if warp < 8 then warpReduce fun lane => acc (warp * 32 + lane) else 0 :=
  rfl

theorem blockReduce_ne {first second : Nat → Word} {thread : Nat}
    (differs : DiffersAt blockDim first second thread) : blockReduce first ≠ blockReduce second := by
  have inside : thread < 256 := differs.within
  have here : thread / 32 < 8 := by omega
  rw [blockReduce_eq, blockReduce_eq]
  refine @warpReduce_ne _ _ (thread / 32) ⟨by omega, ?_, fun warp _ apart => ?_⟩
  · rw [if_pos here, if_pos here]
    refine @warpReduce_ne _ _ (thread % 32) ⟨Nat.mod_lt _ (by omega), ?_, fun lane low other => ?_⟩
    · rw [Nat.div_add_mod' thread 32]
      exact differs.differs
    · exact differs.agrees _ (show _ < 256 by omega) (by omega)
  · split
    next few =>
      -- Another warp has none of the lanes that differ.
      have same : ∀ lane < 32, first (warp * 32 + lane) = second (warp * 32 + lane) := fun lane low =>
        differs.agrees _ (show _ < 256 by omega) (by omega)
      exact warpReduce_congr same
    next => rfl

end Reductions

section Blocks

variable {first second : Nat → Word} {nVec vectorsPerBlock : Nat}

def vectorAt (words : Nat → Word) (index : Nat) (i : Fin 4) : Word := words (index * 4 + i)

theorem combineVector_left (word other : Word) (vec : Fin 4 → Word)
    (same : combineVector word vec = combineVector other vec) : word = other := by
  have cancels := hashCombineScalar_cancels
  exact cancels.left _ _ _ (cancels.left _ _ _ (cancels.left _ _ _ (cancels.left _ _ _ same)))

def VectorsDiffer (vec other : Fin 4 → Word) (place : Fin 4) : Prop :=
  vec place ≠ other place ∧ ∀ i, i ≠ place → vec i = other i

theorem combineVector_ne {vec other : Fin 4 → Word} {place : Fin 4}
    (differs : VectorsDiffer vec other place) (acc : Word) :
    combineVector acc vec ≠ combineVector acc other := by
  have unrolled (vec : Fin 4 → Word) : combineVector acc vec =
      (List.range 4).foldl (fun acc i => hashCombineScalar acc (vec (Fin.ofNat 4 i))) acc := rfl
  have here : Fin.ofNat 4 place = place := Fin.ofNat_val_eq_self place
  rw [unrolled, unrolled]
  refine chain_differs hashCombineScalar_cancels place.isLt ?_ (fun i low apart => differs.2 _ ?_) acc
  · rw [here]
    exact differs.1
  · intro same
    rw [← same] at apart
    simp [Fin.ofNat, Nat.mod_eq_of_lt low] at apart

theorem computeThreadBlockResult_eq (b : Nat) (words : Nat → Word) (nVec vectorsPerBlock : Nat) :
    computeThreadBlockResult b words nVec vectorsPerBlock =
      blockReduce (stride blockDim combineVector (vectorAt words) (b * vectorsPerBlock)
        (min nVec (b * vectorsPerBlock + vectorsPerBlock)) fun _ => 0) := by
  have block : (if b * vectorsPerBlock + vectorsPerBlock > nVec then nVec
      else b * vectorsPerBlock + vectorsPerBlock) = min nVec (b * vectorsPerBlock + vectorsPerBlock) := by
    split <;> omega
  unfold computeThreadBlockResult
  dsimp only
  rw [block]
  refine congrArg blockReduce (List.foldl_ext _ _ _ fun acc turn _ => ?_)
  refine pass_congr (fun thread _ => funext fun i => ?_) acc
  exact congrArg words (by ring)

theorem computeThreadBlockResult_congr {b : Nat}
    (same : ∀ index, b * vectorsPerBlock ≤ index → index < nVec →
      index < b * vectorsPerBlock + vectorsPerBlock → vectorAt first index = vectorAt second index) :
    computeThreadBlockResult b first nVec vectorsPerBlock =
      computeThreadBlockResult b second nVec vectorsPerBlock := by
  rw [computeThreadBlockResult_eq, computeThreadBlockResult_eq]
  refine congrArg blockReduce (stride_congr (fun index after before => ?_) _)
  exact same index after (lt_of_lt_of_le before (min_le_left _ _))
    (lt_of_lt_of_le before (min_le_right _ _))

theorem computeThreadBlockResult_ne {b index : Nat} {place : Fin 4} (after : b * vectorsPerBlock ≤ index)
    (before : index < nVec) (inside : index < b * vectorsPerBlock + vectorsPerBlock)
    (differs : VectorsDiffer (vectorAt first index) (vectorAt second index) place)
    (same : ∀ other, other < nVec → other ≠ index → vectorAt first other = vectorAt second other) :
    computeThreadBlockResult b first nVec vectorsPerBlock ≠
      computeThreadBlockResult b second nVec vectorsPerBlock := by
  rw [computeThreadBlockResult_eq, computeThreadBlockResult_eq]
  refine blockReduce_ne (stride_differs (by decide) combineVector_left after (lt_min before inside)
    (combineVector_ne differs) (fun other _ low apart => ?_) _)
  exact same other (lt_of_lt_of_le low (min_le_left _ _)) apart

theorem computeKernelResult_eq (gridDim : Nat) (words : Nat → Word) (nVec vectorsPerBlock : Nat) :
    computeKernelResult gridDim words nVec vectorsPerBlock =
      blockReduce (stride blockDim hashCombineScalar
        (fun b => computeThreadBlockResult b words nVec vectorsPerBlock) 0 gridDim fun _ => 0) := by
  unfold computeKernelResult stride
  simp only [Nat.zero_add, Nat.sub_zero]
  refine congrArg blockReduce (List.foldl_ext _ _ _ fun results turn _ => ?_)
  rw [min_comm]

end Blocks

section Kernel

variable {first second : Nat → Word} {nVec : Nat}

theorem kernelHash_congr (same : ∀ index < nVec, vectorAt first index = vectorAt second index) :
    kernelHash first nVec = kernelHash second nVec := by
  unfold kernelHash
  dsimp only
  split
  · rfl
  · rw [computeKernelResult_eq, computeKernelResult_eq]
    refine congrArg blockReduce (stride_congr (fun b _ _ => ?_) _)
    exact computeThreadBlockResult_congr fun index _ low _ => same index low

theorem kernelHash_ne {index : Nat} {place : Fin 4} (low : index < nVec)
    (differs : VectorsDiffer (vectorAt first index) (vectorAt second index) place)
    (same : ∀ other < nVec, other ≠ index → vectorAt first other = vectorAt second other) :
    kernelHash first nVec ≠ kernelHash second nVec := by
  unfold kernelHash
  dsimp only
  have positive : 0 < min ((nVec + blockDim - 1) / blockDim) 960 := by
    have blocks : blockDim = 256 := rfl
    rw [blocks]
    omega
  generalize min ((nVec + blockDim - 1) / blockDim) 960 = gridDim at positive ⊢
  rw [if_neg positive.ne', if_neg positive.ne', computeKernelResult_eq, computeKernelResult_eq]
  generalize perBlock : (nVec + gridDim - 1) / gridDim = vectorsPerBlock
  have covers : nVec ≤ gridDim * vectorsPerBlock := by
    have := Nat.div_add_mod (nVec + gridDim - 1) gridDim
    have := Nat.mod_lt (nVec + gridDim - 1) positive
    rw [perBlock] at *
    omega
  have some_ : 0 < vectorsPerBlock := by
    rcases Nat.eq_zero_or_pos vectorsPerBlock with none_ | more
    · rw [none_] at covers
      omega
    · exact more
  have split := Nat.div_add_mod' index vectorsPerBlock
  have rest := Nat.mod_lt index some_
  refine blockReduce_ne (stride_differs (by decide) hashCombineScalar_cancels.left (Nat.zero_le _)
    (?_ : index / vectorsPerBlock < gridDim) (fun word agree => ?_) (fun b _ _ apart => ?_) _)
  · rw [Nat.div_lt_iff_lt_mul some_]
    omega
  · refine computeThreadBlockResult_ne (by omega) low (by omega) differs same
      (hashCombineScalar_cancels.right _ _ _ agree)
  · refine computeThreadBlockResult_congr fun other after before inside => same other before ?_
    rintro rfl
    exact apart (Nat.div_eq_of_lt_le after (by rw [Nat.succ_mul]; exact inside)).symm

end Kernel

section Words

variable {first second : Nat → Word} {nWords : Nat}

theorem hashWords_eq (words : Nat → Word) (nWords : Nat) :
    hashWords words nWords = (List.range (nWords % 4)).foldl
      (fun hash i => hashCombineScalar hash (words (nWords / 4 * 4 + i)))
      (kernelHash words (nWords / 4)) :=
  rfl

theorem hashWords_congr (same : ∀ i < nWords, first i = second i) :
    hashWords first nWords = hashWords second nWords := by
  have vectors : ∀ index < nWords / 4, vectorAt first index = vectorAt second index :=
    fun index low => funext fun i => same _ (by omega)
  rw [hashWords_eq, hashWords_eq, kernelHash_congr vectors]
  exact chain_congr _ (fun i low => same _ (by omega)) _

theorem hashWords_ne {word : Nat} (differs : DiffersAt nWords first second word) :
    hashWords first nWords ≠ hashWords second nWords := by
  have inside := differs.within
  rw [hashWords_eq, hashWords_eq]
  by_cases vectored : word < nWords / 4 * 4
  · -- The word is part of a vector; what comes after the vectors is the same.
    have place : VectorsDiffer (vectorAt first (word / 4)) (vectorAt second (word / 4))
        ⟨word % 4, Nat.mod_lt _ (by omega)⟩ := by
      refine ⟨?_, fun i apart => differs.agrees _ (by omega) fun same => apart (Fin.ext ?_)⟩
      · simp only [vectorAt, Nat.div_add_mod']
        exact differs.differs
      · change i.val = word % 4
        omega
    refine chain_differs_of_start hashCombineScalar_cancels _
      (fun i low => differs.agrees _ (by omega) (by omega)) ?_
    refine kernelHash_ne (by omega) place fun other low apart => funext fun i => ?_
    exact differs.agrees _ (by omega) (by omega)
  · have vectors : ∀ index < nWords / 4, vectorAt first index = vectorAt second index :=
      fun index low => funext fun i => differs.agrees _ (by omega) (by omega)
    rw [kernelHash_congr vectors]
    have tail : nWords / 4 * 4 + (word - nWords / 4 * 4) = word := by omega
    refine chain_differs hashCombineScalar_cancels
      (by omega : word - nWords / 4 * 4 < nWords % 4) ?_ (fun i low apart => ?_) _
    · rw [tail]
      exact differs.differs
    · exact differs.agrees _ (by omega) (by omega)

end Words

section Bytes

theorem littleEndian_getLsbD (bytes : Nat → Byte) (count : Nat) {place : Nat} (low : place < 32) :
    (littleEndian bytes count).getLsbD place =
      (decide (place / 8 < count) && (bytes (place / 8)).getLsbD (place % 8)) := by
  induction count with
  | zero => simp [littleEndian]
  | succ count ih =>
    have last : littleEndian bytes (count + 1) =
        littleEndian bytes count ||| (bytes count).setWidth 32 <<< (8 * count) := by
      simp [littleEndian, List.range_succ]
    rw [last, BitVec.getLsbD_or, ih, BitVec.getLsbD_shiftLeft, BitVec.getLsbD_setWidth]
    rcases Nat.lt_trichotomy (place / 8) count with before | here | after
    · have early : place < 8 * count := by omega
      simp [before, early, Nat.lt_succ_of_lt before]
    · have late : ¬ place < 8 * count := by omega
      have bit : place - 8 * count = place % 8 := by omega
      have small : place % 8 < 32 := by omega
      simp [here, low, late, bit, small]
    · have beyond : (bytes count).getLsbD (place - 8 * count) = false :=
        (bytes count).getLsbD_of_ge _ (by omega)
      have above : ¬ place / 8 < count + 1 := by omega
      simp [beyond, above, Nat.not_lt_of_gt after]

theorem littleEndian_congr {first second : Nat → Byte} {count : Nat}
    (same : ∀ i < count, first i = second i) : littleEndian first count = littleEndian second count :=
  List.foldl_ext _ _ _ fun value i low => by rw [same i (List.mem_range.mp low)]

theorem littleEndian_ne {first second : Nat → Byte} {count i : Nat} (few : count ≤ 4) (low : i < count)
    (differs : first i ≠ second i) : littleEndian first count ≠ littleEndian second count := by
  intro same
  refine differs (BitVec.eq_of_getLsbD_eq fun bit small => ?_)
  have place : (8 * i + bit) / 8 = i := by omega
  have rest : (8 * i + bit) % 8 = bit := by omega
  have bits := congrArg (fun word : Word => word.getLsbD (8 * i + bit)) same
  simpa [littleEndian_getLsbD _ _ (show 8 * i + bit < 32 by omega), place, rest, low] using bits

end Bytes

theorem simplehashCpu_eq {address : Nat} (aligned : address % 16 = 0) {data : List Byte}
    (some_ : 0 < data.length) :
    simplehashCpu address data = some (
      let hash := hashWords (wordAt data) (data.length / 4)
      if data.length % 4 > 0 then
        hashCombineScalar hash
          (littleEndian (fun i => data.getD (data.length / 4 * 4 + i) 0) (data.length % 4))
      else hash) := by
  unfold simplehashCpu
  dsimp only
  rw [if_neg some_.ne', if_neg (not_not.mpr aligned)]
  split <;> rfl

theorem single_word_change_detected (first second : List Byte) (length : first.length = second.length)
    (differ : first ≠ second) (word : Nat) (only : ∀ i, i / 4 ≠ word → first[i]? = second[i]?)
    {address other : Nat} (aligned : address % 16 = 0) (alignedToo : other % 16 = 0) :
    ∃ hash different, simplehashCpu address first = some hash ∧
      simplehashCpu other second = some different ∧ hash ≠ different := by
  obtain ⟨place, inside, changed⟩ : ∃ place < first.length, first.getD place 0 ≠ second.getD place 0 := by
    by_contra none_
    push Not at none_
    refine differ (List.ext_getElem length fun i here there => ?_)
    simpa [here, there] using none_ i here
  have among : place / 4 = word := by
    by_contra apart
    have same := only place apart
    simp only [List.getD_eq_getElem?_getD, same, ne_eq, not_true_eq_false] at changed
  have agrees (i : Nat) (apart : i / 4 ≠ word) : first.getD i 0 = second.getD i 0 := by
    simp only [List.getD_eq_getElem?_getD, only i apart]
  rw [simplehashCpu_eq aligned (by omega), simplehashCpu_eq alignedToo (by omega), ← length]
  refine ⟨_, _, rfl, rfl, ?_⟩
  dsimp only
  by_cases whole : word < first.length / 4
  · -- A word is another one, and the bytes after the words are the same.
    have words : DiffersAt (first.length / 4) (wordAt first) (wordAt second) word := by
      refine ⟨whole, ?_, fun i low apart => ?_⟩
      · refine littleEndian_ne le_rfl (Nat.mod_lt place (by omega) : place % 4 < 4) ?_
        rw [← among, Nat.div_add_mod']
        exact changed
      · exact littleEndian_congr fun j small => agrees _ (by omega)
    have hashes := hashWords_ne words
    split
    next more =>
      have tail : littleEndian (fun i => first.getD (first.length / 4 * 4 + i) 0) (first.length % 4) =
          littleEndian (fun i => second.getD (first.length / 4 * 4 + i) 0) (first.length % 4) :=
        littleEndian_congr fun i low => agrees _ (by omega)
      rw [tail]
      exact fun same => hashes (hashCombineScalar_cancels.left _ _ _ same)
    next => exact hashes
  · have more : first.length % 4 > 0 := by omega
    have words : hashWords (wordAt first) (first.length / 4) =
        hashWords (wordAt second) (first.length / 4) :=
      hashWords_congr fun i low => littleEndian_congr fun j small => agrees _ (by omega)
    rw [if_pos more, if_pos more, words]
    refine fun same => littleEndian_ne (by omega) (by omega : place - first.length / 4 * 4 < _) ?_
      (hashCombineScalar_cancels.right _ _ _ same)
    have back : first.length / 4 * 4 + (place - first.length / 4 * 4) = place := by omega
    rw [back]
    exact changed

theorem single_word_change_detected_last_byte :
    ∃ hash different, simplehashCpu 0 (List.replicate 82 1) = some hash ∧
      simplehashCpu 64 (List.replicate 81 1 ++ [2]) = some different ∧ hash ≠ different := by
  refine single_word_change_detected (List.replicate 82 1) (List.replicate 81 1 ++ [2]) rfl
    (by decide) 20 (fun i apart => ?_) rfl rfl
  by_cases low : i < 81
  · rw [List.getElem?_append_left (by simpa using low), List.getElem?_replicate_of_lt low,
      List.getElem?_replicate_of_lt (by omega)]
  · rw [List.getElem?_eq_none (by simp; omega), List.getElem?_eq_none (by simp; omega)]

end Pccl.Hash
