import Pccl.Ring.AllReduce

set_option autoImplicit false

namespace Pccl.Ring

open Buffer

structure Window where
  srcOffset : Nat
  srcSize : Nat
  dstOffset : Nat
  dstSize : Nat
deriving DecidableEq, Repr

namespace Config

variable (cfg : Config)

def window (recvd more : Nat) : Window where
  srcOffset := cfg.floorEl recvd * cfg.quantizedType.sizeBits / 8
  srcSize := (cfg.floorEl more - cfg.floorEl recvd) * cfg.quantizedType.sizeBits / 8
  dstOffset := cfg.floorEl recvd * cfg.dataType.sizeBits / 8
  dstSize := (cfg.floorEl more - cfg.floorEl recvd) * cfg.dataType.sizeBits / 8

def windows : (recvd : Nat) → (reads : List (List Byte)) → List (Nat × Window)
  | _, [] => []
  | recvd, data :: reads =>
    let more := recvd + data.length
    let rest := windows more reads
    if cfg.floorEl recvd < cfg.floorEl more then (more, cfg.window recvd more) :: rest else rest

structure Spans (first last : Nat) (window : Window) : Prop where
  srcOffset : 8 * window.srcOffset = first * cfg.quantizedType.sizeBits
  srcSize : 8 * window.srcSize = (last - first) * cfg.quantizedType.sizeBits
  dstOffset : window.dstOffset = first * cfg.dataType.size
  dstSize : window.dstSize = (last - first) * cfg.dataType.size

/-- One window begins where the one before it ends, and all of them reach from `first` to `last`. -/
def Tile : (first last : Nat) → List Window → Prop
  | first, last, [] => first = last
  | first, last, window :: windows =>
    ∃ next, first < next ∧ cfg.Spans first next window ∧ Tile next last windows

end Config

def acceptReads (cfg : Config) : List (List Byte) → RankState → RankState
  | [], state => state
  | data :: reads, state =>
    let accepted := acceptData cfg data state
    if accepted.outcome = .running then acceptReads cfg reads accepted else accepted

section Windows

variable {cfg : Config} (whole : cfg.dataType.sizeBits = 8 * cfg.dataType.size)

theorem acceptData_window (data : List Byte) (state : RankState) (present : data.length ≠ 0) :
    acceptData cfg data state =
      let window := cfg.window state.recvd (state.recvd + data.length)
      let received :=
        { state with
          recvBuffer := splice state.recvBuffer state.recvd data
          recvd := state.recvd + data.length
          noEvent := false }
      if cfg.floorEl state.recvd < cfg.floorEl (state.recvd + data.length) then
        if window.srcOffset + window.srcSize ≤ state.stage.recvSize ∧
            window.dstOffset + window.dstSize ≤ state.stage.rxSize then
          match performReduction cfg.kernel cfg.algorithm (stageOp cfg state.stage.phase)
              state.receivedMeta
              (slice received.dst (state.stage.rxOffset + window.dstOffset) window.dstSize)
              (slice received.recvBuffer window.srcOffset window.srcSize) with
          | none => received.terminate
          | some reduced =>
            { received with
              dst := splice received.dst (state.stage.rxOffset + window.dstOffset) reduced }
        else received.terminate
      else received := by
  rw [acceptData, if_neg present]
  rfl

include whole

theorem scaled_dataBits (elements : Nat) :
    elements * cfg.dataType.sizeBits / 8 = elements * cfg.dataType.size := by
  rw [whole, Nat.mul_left_comm, Nat.mul_div_cancel_left _ (by decide)]

theorem window_spans {recvd more : Nat} :
    cfg.Spans (cfg.floorEl recvd) (cfg.floorEl more) (cfg.window recvd more) :=
  ⟨cfg.floorEl_aligned recvd, cfg.floorEl_window recvd more, scaled_dataBits whole _,
    scaled_dataBits whole _⟩

theorem windows_tile (recvd : Nat) (reads : List (List Byte)) :
    cfg.Tile (cfg.floorEl recvd) (cfg.floorEl (recvd + reads.flatten.length))
      ((cfg.windows recvd reads).map Prod.snd) := by
  induction reads generalizing recvd with
  | nil => rfl
  | cons data reads ih =>
    have rest := ih (recvd + data.length)
    rw [List.flatten_cons, List.length_append, ← Nat.add_assoc]
    unfold Config.windows
    dsimp only
    split_ifs with more
    · exact ⟨_, more, window_spans whole, rest⟩
    · have same : cfg.floorEl recvd = cfg.floorEl (recvd + data.length) :=
        (cfg.floorEl_mono _ _ (Nat.le_add_right _ _)).antisymm (Nat.not_lt.mp more)
      rwa [same]

omit whole in
theorem windows_received {recvd : Nat} {reads : List (List Byte)} {entry : Nat × Window}
    (member : entry ∈ cfg.windows recvd reads) :
    entry.2.srcOffset + entry.2.srcSize ≤ entry.1 ∧ entry.1 ≤ recvd + reads.flatten.length ∧
      ∃ before, entry.2 = cfg.window before entry.1 ∧ before ≤ entry.1 := by
  induction reads generalizing recvd with
  | nil => cases member
  | cons data reads ih =>
    rw [List.flatten_cons, List.length_append, ← Nat.add_assoc]
    unfold Config.windows at member
    dsimp only at member
    split_ifs at member
    · rcases List.mem_cons.mp member with rfl | later
      · exact ⟨cfg.floorEl_received _ _ (Nat.le_add_right _ _), Nat.le_add_right _ _, recvd, rfl,
          Nat.le_add_right _ _⟩
      · exact ih later
    · exact ih member

end Windows

/-- A rank in the receive loop of a stage that takes in a chunk of `elements` elements. -/
structure Expects (cfg : Config) (elements : Nat) (state : RankState) : Prop where
  running : state.outcome = .running
  fresh : state.recvd = 0
  rxSize : state.stage.rxSize = elements * cfg.dataType.size
  recvSize : 8 * state.stage.recvSize = elements * cfg.quantizedType.sizeBits
  target : state.stage.rxOffset + state.stage.rxSize ≤ state.dst.length
  buffer : state.stage.recvSize ≤ state.recvBuffer.length

section Reads

variable {cfg : Config} {landing : Landing cfg}

theorem acceptReads_reduces
    (supported : reductionSupported cfg.dataType cfg.quantizedType cfg.algorithm landing.op = true)
    (reads : List (List Byte)) (positive : ∀ data ∈ reads, 0 < data.length) {state : RankState}
    (running : state.outcome = .running) (reduces : landing.Reduces state)
    (buffer : landing.wireSize ≤ state.recvBuffer.length)
    (received : ∀ index < state.recvd, state.recvBuffer[index]? = landing.wire[index]?)
    (arriving : landing.wire.drop state.recvd = reads.flatten)
    (inside : state.recvd + reads.flatten.length ≤ landing.wireSize) :
    (acceptReads cfg reads state).outcome = .running ∧
      (acceptReads cfg reads state).dst = landing.after (state.recvd + reads.flatten.length) := by
  induction reads generalizing state with
  | nil => exact ⟨running, reduces.dst⟩
  | cons data reads ih =>
    rw [List.flatten_cons, List.length_append] at inside
    rw [List.flatten_cons] at arriving
    have now (index : Nat) (small : index < state.recvd + data.length) :
        (splice state.recvBuffer state.recvd data)[index]? = landing.wire[index]? := by
      rw [splice_getElem? _ _ _ _ (by omega), if_pos small]
      split_ifs with old
      · exact received index old
      · have here := congrArg (·[index - state.recvd]?) arriving
        rw [List.getElem?_drop, List.getElem?_append_left (by omega), Nat.add_sub_cancel' (by omega)] at here
        exact here.symm
    have accepted := (reduces.accept (positive data List.mem_cons_self).ne' (by omega) now).resolve_right
      fun missing => by simp [supported] at missing
    have rest := @ih (fun other member => positive other (List.mem_cons_of_mem _ member))
      (acceptData cfg data state)
    rw [accepted] at rest
    unfold acceptReads
    rw [accepted, List.flatten_cons, List.length_append, ← Nat.add_assoc]
    dsimp only
    rw [if_pos running]
    refine rest running { reduces with dst := rfl } ?_ now ?_ (by dsimp only; omega)
    · rw [length_splice _ _ _ (by omega)]
      exact buffer
    · rw [← List.drop_drop, arriving, List.drop_left]

end Reads

theorem reads_reduce_once (cfg : Config) (bytes : Nat) (size : cfg.dataType.size? = some bytes)
    (elements : Nat) (state : RankState) (expects : Expects cfg elements state)
    (reads : List (List Byte)) (positive : ∀ data ∈ reads, 0 < data.length)
    (all : reads.flatten.length = state.stage.recvSize) :
    cfg.Tile 0 elements ((cfg.windows 0 reads).map Prod.snd) ∧
      (∀ entry ∈ cfg.windows 0 reads, entry.2.srcOffset + entry.2.srcSize ≤ entry.1 ∧
        entry.1 ≤ state.stage.recvSize ∧ entry.2.dstOffset + entry.2.dstSize ≤ state.stage.rxSize) ∧
      (reductionSupported cfg.dataType cfg.quantizedType cfg.algorithm
          (stageOp cfg state.stage.phase) = true →
        (acceptReads cfg reads state).outcome = .running ∧
        (acceptReads cfg reads state).dst = (acceptData cfg reads.flatten state).dst) := by
  obtain ⟨bits, sizes, some_⟩ := cfg.dataType.sizeBits_of_size bytes size
  have whole : cfg.dataType.sizeBits = 8 * cfg.dataType.size := by rw [bits, sizes]
  have zero : cfg.floorEl 0 = 0 := by simp [Config.floorEl]
  have full := Config.floorEl_exact expects.recvSize
  refine ⟨?_, fun entry member => ?_, fun supported => ?_⟩
  · have tile := windows_tile whole 0 reads
    rwa [zero, Nat.zero_add, all, full] at tile
  · obtain ⟨received, inside, before, same, earlier⟩ := windows_received member
    rw [Nat.zero_add, all] at inside
    refine ⟨received, inside, ?_⟩
    have order := cfg.floorEl_mono _ _ earlier
    have last := cfg.floorEl_mono _ _ inside
    rw [same, expects.rxSize, Config.window, scaled_dataBits whole, scaled_dataBits whole, ← Nat.add_mul]
    exact Nat.mul_le_mul_right _ (by omega)
  · let landing : Landing cfg :=
      { own := state.dst, offset := state.stage.rxOffset, elements
        op := stageOp cfg state.stage.phase, metaData := state.receivedMeta, wire := reads.flatten
        wireSize := state.stage.recvSize, room := expects.rxSize ▸ expects.target
        whole := expects.recvSize, width := whole }
    have fresh := expects.fresh
    have reduces : landing.Reduces state :=
      ⟨rfl, expects.rxSize, rfl, rfl, rfl, by rw [fresh]; exact landing.after_zero.symm⟩
    have reduced (split : List (List Byte)) (some_ : ∀ data ∈ split, 0 < data.length)
        (same : reads.flatten = split.flatten) := @acceptReads_reduces cfg landing supported split some_
      state expects.running reduces expects.buffer (by simp [fresh]) (by rw [fresh]; exact same)
      (by rw [fresh, ← same, Nat.zero_add, all])
    obtain ⟨running, dst⟩ := reduced reads positive rfl
    refine ⟨running, dst.trans ?_⟩
    by_cases present : 0 < reads.flatten.length
    · have once := (reduced [reads.flatten] (by simpa using present) (by simp)).2
      have single : acceptReads cfg [reads.flatten] state = acceptData cfg reads.flatten state := ite_self _
      rw [single, List.flatten_singleton] at once
      exact once.symm
    · have none_ : reads.flatten.length = 0 := by omega
      rw [acceptData, if_pos none_, none_]
      exact reduces.dst.symm

def widePair : Config :=
  ⟨2, 4, .float, .uint16, .minMax, .sum, 7, constantKernel .float .uint16⟩

def widePairReceiving : RankState :=
  { enterRing widePair ⟨[], 2⟩ ⟨0, List.replicate 16 1, false, 64⟩ with
    stage := ⟨.reduceScatter, 0, .dst, 0, 8, 8, 8, 4, none⟩, pc := .receive }

theorem reads_reduce_once_widePair :
    (widePair.windows 0 [[1], [2, 3], [4]]).map Prod.snd = [⟨0, 2, 0, 4⟩, ⟨2, 2, 4, 4⟩] ∧
      (acceptReads widePair [[1], [2, 3], [4]] widePairReceiving).dst =
        (acceptData widePair [1, 2, 3, 4] widePairReceiving).dst :=
  ⟨by decide, ((reads_reduce_once widePair 4 rfl 2 widePairReceiving
    ⟨rfl, rfl, rfl, rfl, by decide, by decide⟩ [[1], [2, 3], [4]] (by decide) rfl).2.2 rfl).2⟩

end Pccl.Ring
