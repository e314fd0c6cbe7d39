import Pccl.Ring.AllReduce

set_option autoImplicit false

namespace Pccl.Ring

open Buffer FifoRing

/-- The bytes a rank has sent and received, by the step of the allgather. -/
structure Ledger where
  sent : Nat → List Byte
  received : Nat → List Byte

namespace Ledger

def initial : Ledger := ⟨fun _ => [], fun _ => []⟩

def addSent (step : Nat) (data : List Byte) (ledger : Ledger) : Ledger :=
  { ledger with sent := Function.update ledger.sent step (ledger.sent step ++ data) }

def addReceived (step : Nat) (data : List Byte) (ledger : Ledger) : Ledger :=
  { ledger with received := Function.update ledger.received step (ledger.received step ++ data) }

def note (before : RankState) (effect : Effect) (ledger : Ledger) : Ledger :=
  -- What the action of a rank adds: the frames it sends and the bytes it has put behind those
  -- already received.
  if before.outcome = .running ∧ before.stage.phase = .allgather then
    match before.pc with
    | .send => ledger.addSent before.stage.step effect.outgoing.flatten
    | .receive =>
      ledger.addReceived before.stage.step
        (slice effect.state.recvBuffer before.recvd (effect.state.recvd - before.recvd))
    | .sendMeta | .receiveMeta => ledger
  else
    ledger

theorem note_reduceScatter (before : RankState) (effect : Effect) (ledger : Ledger)
    (phase : before.stage.phase = .reduceScatter) : ledger.note before effect = ledger := by
  simp [note, phase]

end Ledger

def RankState.Passed (state : RankState) (step : Nat) : Prop :=
  state.outcome = .returned true false ∨
    state.outcome = .running ∧ state.stage.phase = .allgather ∧ step < state.stage.step

section Portions

/-- The part of a stage's bytes that has gone through when the current stage has got to `done`. -/
def portion (current done stage : Nat) (wire : List Byte) : List Byte :=
  if stage < current then wire else if stage = current then wire.take done else []

theorem portion_next (current done stage : Nat) (wire : List Byte)
    (complete : stage = current → done = wire.length) :
    portion (current + 1) 0 stage wire = portion current done stage wire := by
  unfold portion
  by_cases before : stage < current
  · rw [if_pos before, if_pos (by omega)]
  · by_cases same : stage = current
    · rw [if_pos (by omega), if_neg before, if_pos same, complete same, List.take_length]
    · rw [if_neg (by omega), if_neg before, if_neg same]
      split_ifs <;> simp

theorem portion_grow (current done length : Nat) (wire : List Byte) :
    portion current (done + length) current wire =
      portion current done current wire ++ slice wire done length := by
  simp [portion, slice, List.take_add]

theorem portion_other (current done more stage : Nat) (wire : List Byte) (apart : stage ≠ current) :
    portion current more stage wire = portion current done stage wire := by
  simp [portion, apart]

end Portions

section Ledgers

variable (cfg : Config) (inputs : Inputs cfg) (rank : Nat)

structure LedgerAt (stage sent recvd : Nat) (ledger : Ledger) : Prop where
  sent : ∀ step, ledger.sent step =
    portion stage sent (cfg.steps + step) (lockstep cfg inputs (cfg.steps + step) rank).wire
  received : ∀ step, ledger.received step =
    portion stage recvd (cfg.steps + step)
      (lockstep cfg inputs (cfg.steps + step) (pred cfg.worldSize rank)).wire

def Forwards (ledger : Ledger) : Prop :=
  ∀ step, step + 1 < cfg.steps → ledger.sent (step + 1) <+: ledger.received step

variable {cfg inputs rank}

theorem LedgerAt.next (ready : cfg.Ready) (stage : Nat) (ledger : Ledger) (sent recvd : Nat)
    (bound : stage < 2 * cfg.steps)
    (allSent : sent = cfg.wireSize (cfg.txChunk rank stage))
    (allReceived : recvd = cfg.wireSize (cfg.rxChunk rank stage))
    (known : LedgerAt cfg inputs rank stage sent recvd ledger) :
    LedgerAt cfg inputs rank (stage + 1) 0 0 ledger := by
  constructor
  · intro step
    rw [known.sent]
    refine (portion_next _ _ _ _ fun same => ?_).symm
    rw [same, (lockstep_sized ready inputs stage rank bound).2, allSent]
  · intro step
    rw [known.received]
    refine (portion_next _ _ _ _ fun same => ?_).symm
    rw [same, (lockstep_sized ready inputs stage _ bound).2, allReceived, ready.txChunk_pred]

theorem LedgerAt.send (stage sent recvd length : Nat) (ledger : Ledger)
    (gathering : cfg.steps ≤ stage)
    (known : LedgerAt cfg inputs rank stage sent recvd ledger) :
    LedgerAt cfg inputs rank stage (sent + length) recvd (ledger.addSent (stage - cfg.steps)
      (slice (lockstep cfg inputs stage rank).wire sent length)) := by
  have here : cfg.steps + (stage - cfg.steps) = stage := by omega
  refine ⟨fun step => ?_, known.received⟩
  by_cases same : step = stage - cfg.steps
  · subst same
    simp only [Ledger.addSent, Function.update_self]
    rw [known.sent, here, portion_grow]
  · rw [portion_other _ sent _ _ _ (by omega), ← known.sent]
    simp [Ledger.addSent, Function.update_of_ne same]

theorem LedgerAt.receive (stage sent recvd length : Nat) (ledger : Ledger)
    (gathering : cfg.steps ≤ stage)
    (known : LedgerAt cfg inputs rank stage sent recvd ledger) :
    LedgerAt cfg inputs rank stage sent (recvd + length) (ledger.addReceived (stage - cfg.steps)
      (slice (lockstep cfg inputs stage (pred cfg.worldSize rank)).wire recvd length)) := by
  have here : cfg.steps + (stage - cfg.steps) = stage := by omega
  refine ⟨known.sent, fun step => ?_⟩
  by_cases same : step = stage - cfg.steps
  · subst same
    simp only [Ledger.addReceived, Function.update_self]
    rw [known.received, here, portion_grow]
  · rw [portion_other _ recvd _ _ _ (by omega), ← known.received]
    simp [Ledger.addReceived, Function.update_of_ne same]

theorem LedgerAt.early (stage sent recvd sent' recvd' : Nat) (ledger : Ledger)
    (early : stage < cfg.steps) (known : LedgerAt cfg inputs rank stage sent recvd ledger) :
    LedgerAt cfg inputs rank stage sent' recvd' ledger := by
  constructor
  · intro step
    rw [known.sent]
    exact portion_other _ _ _ _ _ (by omega)
  · intro step
    rw [known.received]
    exact portion_other _ _ _ _ _ (by omega)

theorem lockstep_wire_forwarded (ready : cfg.Ready) (quantizing : cfg.quantizing = true)
    (stage : Nat) (gathering : cfg.steps ≤ stage) (bound : stage + 1 < 2 * cfg.steps) :
    (lockstep cfg inputs (stage + 1) rank).wire =
      (lockstep cfg inputs stage (pred cfg.worldSize rank)).wire := by
  by_cases quantizes : cfg.quantizes (cfg.txChunk rank (stage + 1)) = true
  · rw [lockstep_succ, prepare]
    simp only [quantizes, if_true, show cfg.steps < stage + 1 by omega]
  · -- An empty chunk has no bytes in either stage.
    have empty : cfg.wireSize (cfg.txChunk rank (stage + 1)) = 0 := by
      have none : cfg.chunkEl (cfg.txChunk rank (stage + 1)) = 0 := by
        simpa [Config.quantizes, quantizing] using quantizes
      simp [Config.wireSize, Config.quantizedSize, none]
    have own := (lockstep_sized ready inputs (stage + 1) rank bound).2
    have sender := (lockstep_sized ready inputs stage (pred cfg.worldSize rank) (by omega)).2
    rw [ready.txChunk_pred, ← ready.txChunk_succ rank stage gathering bound, empty] at sender
    rw [empty] at own
    rw [List.eq_nil_of_length_eq_zero own, List.eq_nil_of_length_eq_zero sender]

section Compare

variable (ready : cfg.Ready) (quantizing : cfg.quantizing = true) (stage sent recvd : Nat)
  (ledger : Ledger) (known : LedgerAt cfg inputs rank stage sent recvd ledger)

include ready quantizing known

theorem LedgerAt.equal (step : Nat) (more : step + 1 < cfg.steps)
    (passed : cfg.steps + (step + 1) < stage) :
    ledger.sent (step + 1) = ledger.received step := by
  rw [known.sent, known.received, portion, portion, if_pos passed, if_pos (by omega),
    show cfg.steps + (step + 1) = cfg.steps + step + 1 by omega,
    lockstep_wire_forwarded ready quantizing _ (by omega) (by omega)]

theorem LedgerAt.forwards : Forwards cfg ledger := by
  intro step more
  by_cases passed : cfg.steps + (step + 1) < stage
  · rw [known.equal ready quantizing stage sent recvd ledger step more passed]
  · rw [known.sent, portion, if_neg passed]
    split_ifs with here
    · rw [known.received, portion, if_pos (by omega),
        show cfg.steps + (step + 1) = cfg.steps + step + 1 by omega,
        lockstep_wire_forwarded ready quantizing _ (by omega) (by omega)]
      exact List.take_prefix _ _
    · exact List.nil_prefix

end Compare

end Ledgers

section Steps

variable {cfg : Config} (ready : cfg.Ready) (quantizing : cfg.quantizing = true)
  (inputs : Inputs cfg) (rank : Nat)

/-- The ledger agrees with the state of a rank that follows the lockstep ring. -/
structure Fits (cfg : Config) (inputs : Inputs cfg) (rank : Nat) (state : RankState)
    (ledger : Ledger) : Prop where
  forwards : Forwards cfg ledger
  inStage : ∀ stage, InStage cfg inputs rank stage state →
    LedgerAt cfg inputs rank stage state.sent state.recvd ledger
  returned : state.outcome = .returned true false →
    LedgerAt cfg inputs rank (2 * cfg.steps) 0 0 ledger

def Noted (cfg : Config) (inputs : Inputs cfg) (rank : Nat) (state : RankState) (ledger : Ledger)
    (effect : Effect) : Prop :=
  Fits cfg inputs rank effect.state (ledger.note state effect)

theorem stageAt_injective (stage other : Nat)
    (same : stageAt cfg inputs rank stage = stageAt cfg inputs rank other) : stage = other := by
  obtain ⟨phase, step⟩ := stageAt_phase inputs rank stage
  obtain ⟨otherPhase, otherStep⟩ := stageAt_phase inputs rank other
  rw [same, otherPhase] at phase
  rw [same, otherStep] at step
  simp only [spansAt] at phase step
  split_ifs at phase step <;> omega

theorem InStage.phase_eq (stage : Nat) (state : RankState)
    (inStage : InStage cfg inputs rank stage state) :
    state.stage.phase = (if stage < cfg.steps then .reduceScatter else .allgather) ∧
      (cfg.steps ≤ stage → state.stage.step = stage - cfg.steps) := by
  obtain ⟨phase, step⟩ := stageAt_phase inputs rank stage
  rw [← inStage.spans] at phase step
  refine ⟨phase, fun gathering => ?_⟩
  rw [step, spansAt]
  exact if_neg (by omega)

include ready quantizing

theorem Fits.within (stage : Nat) (state after : RankState) (ledger : Ledger)
    (inStage : InStage cfg inputs rank stage state) (same : after.stage = state.stage)
    (unfinished : after.outcome ≠ .returned true false)
    (known : LedgerAt cfg inputs rank stage after.sent after.recvd ledger) :
    Fits cfg inputs rank after ledger := by
  refine ⟨known.forwards ready quantizing _ _ _ _, ?_, fun returned => absurd returned unfinished⟩
  intro other stays
  have equal : other = stage := by
    apply stageAt_injective inputs rank
    rw [← stays.spans, same, inStage.spans]
  rw [equal]
  exact known

theorem finishStage_fits (stage : Nat) (state : RankState) (ledger : Ledger)
    (inStage : InStage cfg inputs rank stage state) (looping : state.pc = .send)
    (sent : state.sent = cfg.wireSize (cfg.txChunk rank stage))
    (recvd : state.recvd = cfg.wireSize (cfg.rxChunk rank stage))
    (known : LedgerAt cfg inputs rank stage state.sent state.recvd ledger) :
    Fits cfg inputs rank (finishStage cfg (Net.plan cfg) (Net.call cfg inputs rank) state)
      ledger := by
  have bound := inStage.bound
  have next := known.next ready stage ledger _ _ bound sent recvd
  refine ⟨next.forwards ready quantizing _ _ _ _, ?_, ?_⟩
  · intro other entered
    by_cases more : stage + 1 < 2 * cfg.steps
    · rcases finishStage_next ready inputs rank stage state inStage looping recvd more with
        lost | started
      · exact absurd entered.running lost.1
      · have equal : other = stage + 1 := by
          apply stageAt_injective inputs rank
          rw [← entered.spans, started.spans]
        rw [equal, started.sent, started.recvd]
        exact next
    · rcases finishStage_last ready inputs rank stage state inStage recvd (by omega) with
        lost | ended
      · exact absurd entered.running lost.1
      · cases ended.1.symm.trans entered.running
  · intro returned
    by_cases more : stage + 1 < 2 * cfg.steps
    · rcases finishStage_next ready inputs rank stage state inStage looping recvd more with
        lost | started
      · exact absurd returned lost.2
      · rw [started.running] at returned
        cases returned
    · rw [show 2 * cfg.steps = stage + 1 by omega]
      exact next

theorem stepSend_fits (observed : Observation) (inbox : List (List Byte)) (stage : Nat)
    (state : RankState) (ledger : Ledger) (inStage : InStage cfg inputs rank stage state)
    (looping : state.pc = .send)
    (known : LedgerAt cfg inputs rank stage state.sent state.recvd ledger) :
    Noted cfg inputs rank state ledger
      (stepSend cfg (Net.plan cfg) (Net.call cfg inputs rank) observed inbox state) := by
  have sent_le := inStage.sent_le
  have recvd_le := inStage.recvd_le
  have running := inStage.running
  obtain ⟨phase, step⟩ := inStage.phase_eq inputs rank stage state
  have txSize : state.stage.txSize = cfg.wireSize (cfg.txChunk rank stage) := by
    rw [inStage.spans, stageAt_txSize ready]
  have recvSize : state.stage.recvSize = cfg.wireSize (cfg.rxChunk rank stage) := by
    rw [inStage.spans, (stageAt_rx inputs rank stage).2.2]
  have quiet (after : RankState) (frames : List (List Byte))
      (fits : Fits cfg inputs rank after ledger) :
      Noted cfg inputs rank state ledger ⟨after, frames, []⟩ := by
    have same : ledger.note state ⟨after, frames, []⟩ = ledger := by
      simp [Ledger.note, looping, Ledger.addSent]
    rw [Noted, same]
    exact fits
  have within (after : RankState) (ledger : Ledger) :=
    @Fits.within cfg ready quantizing inputs rank stage state after ledger inStage
  unfold stepSend
  rw [txSize, recvSize]
  by_cases loop : state.sent < cfg.wireSize (cfg.txChunk rank stage) ∨
      state.recvd < cfg.wireSize (cfg.rxChunk rank stage)
  swap
  · rw [if_neg loop]
    exact quiet _ _ (finishStage_fits ready quantizing inputs rank stage state ledger inStage looping
      (by omega) (by omega) known)
  rw [if_pos loop]
  by_cases more : state.sent < cfg.wireSize (cfg.txChunk rank stage)
  swap
  · rw [if_neg more]
    exact quiet _ _ (within _ _ rfl (by simp [running]) known)
  rw [if_pos more]
  by_cases opened : observed.socketOpen = true ∧ 0 < inputs.chunkSize rank
  swap
  · rw [if_neg (by exact opened)]
    exact quiet _ _ (within _ _ rfl (lost_giveUp_false _ _).2 known)
  rw [if_pos (by exact opened)]
  refine within _ _ rfl (by simp [running]) ?_
  have piece := Core.piece inputs rank stage state
    (min (inputs.chunkSize rank) (cfg.wireSize (cfg.txChunk rank stage) - state.sent)) inStage.toCore
    (by omega)
  by_cases early : stage < cfg.steps
  · rw [if_pos early] at phase
    rw [Ledger.note_reduceScatter _ _ _ phase]
    exact known.early _ _ _ _ _ _ early
  · rw [if_neg early] at phase
    have sent := known.send stage _ _ (min (inputs.chunkSize rank)
      (cfg.wireSize (cfg.txChunk rank stage) - state.sent)) ledger (by omega)
    rw [← piece, ← step (by omega)] at sent
    simpa [Ledger.note, running, phase, looping, Net.call] using sent

omit ready quantizing in
theorem endIteration_fields (call : Call) (observed : Observation) (state : RankState)
    (running : state.outcome = .running) :
    (endIteration call observed state).stage = state.stage ∧
      (endIteration call observed state).sent = state.sent ∧
      (endIteration call observed state).recvd = state.recvd ∧
      (endIteration call observed state).recvBuffer = state.recvBuffer ∧
      (endIteration call observed state).outcome ≠ .returned true false := by
  unfold endIteration
  simp only
  by_cases idle : 100 < (if state.noEvent then state.noEventCtr + 1 else 0)
  · rw [if_pos idle]
    split_ifs
    · exact ⟨rfl, rfl, rfl, rfl, (lost_giveUp_abort _ _).2⟩
    · exact ⟨rfl, rfl, rfl, rfl, by simp [running]⟩
  · rw [if_neg idle]
    exact ⟨rfl, rfl, rfl, rfl, by simp [running]⟩

theorem stepReceive_fits (observed : Observation) (inbox : List (List Byte)) (stage : Nat)
    (state : RankState) (ledger : Ledger) (inStage : InStage cfg inputs rank stage state)
    (receiving : state.pc = .receive)
    (front : inbox <+: pendingFrames cfg inputs (pred cfg.worldSize rank) stage false state.recvd)
    (known : LedgerAt cfg inputs rank stage state.sent state.recvd ledger) :
    Noted cfg inputs rank state ledger
      (stepReceive cfg (Net.call cfg inputs rank) observed inbox state) := by
  have running := inStage.running
  have room := inStage.room
  obtain ⟨phase, step⟩ := inStage.phase_eq inputs rank stage state
  have recvSize : state.stage.recvSize = cfg.wireSize (cfg.rxChunk rank stage) := by
    rw [inStage.spans, (stageAt_rx inputs rank stage).2.2]
  have within (after : RankState) (ledger : Ledger) :=
    @Fits.within cfg ready quantizing inputs rank stage state after ledger inStage
  have quiet (after : RankState) (frames : List (List Byte)) (sameStage : after.stage = state.stage)
      (sent : after.sent = state.sent) (recvd : after.recvd = state.recvd)
      (unfinished : after.outcome ≠ .returned true false) :
      Noted cfg inputs rank state ledger ⟨after, frames, []⟩ := by
    have same : ledger.note state ⟨after, frames, []⟩ = ledger := by
      simp [Ledger.note, receiving, Ledger.addReceived, recvd]
    rw [Noted, same]
    exact within _ _ sameStage unfinished (by rw [sent, recvd]; exact known)
  have idle (frames : List (List Byte)) : Noted cfg inputs rank state ledger
      ⟨endIteration (Net.call cfg inputs rank) observed state, frames, []⟩ := by
    obtain ⟨sameStage, sent, recvd, _, unfinished⟩ :=
      endIteration_fields (Net.call cfg inputs rank) observed state running
    exact quiet _ _ sameStage sent recvd unfinished
  unfold stepReceive
  rw [recvSize]
  by_cases more : state.recvd < cfg.wireSize (cfg.rxChunk rank stage)
  swap
  · rw [if_neg more]
    exact idle inbox
  rw [if_pos more]
  by_cases opened : observed.socketOpen = true
  swap
  · rw [if_neg opened]
    exact quiet _ _ rfl rfl rfl (lost_giveUp_false _ _).2
  rw [if_pos opened]
  by_cases large :
      (inbox.take observed.arrived).any (fun frame => decide (maxFrameSize < frame.length)) = true
  · rw [if_pos large]
    exact quiet _ _ rfl rfl rfl (lost_terminate _).2
  rw [if_neg large]
  cases arrived : inbox.take observed.arrived with
  | nil => exact idle _
  | cons frame frames =>
    obtain ⟨length, positive, inside, size, _, first⟩ :=
      inStage.toCore.arrived_piece ready inputs rank stage state inbox front observed.arrived frame
        frames arrived more
    have frameLength : frame.length = length := by
      rw [first, length_slice_of_le _ _ _ (by rw [inStage.length_sender ready]; omega)]
    have fits : ¬ cfg.wireSize (cfg.rxChunk rank stage) - state.recvd < frame.length := by omega
    simp only [receiveBytesInplace, if_neg fits]
    obtain ⟨dst, outcome, same, kept⟩ := acceptData_cases cfg frame state (by omega)
    rw [same]
    -- Whether the iteration ends in an abort or not, the piece is in the buffer.
    have entered (after : RankState) (rest : List (List Byte)) (stage_eq : after.stage = state.stage)
        (sent_eq : after.sent = state.sent) (recvd_eq : after.recvd = state.recvd + frame.length)
        (buffer_eq : after.recvBuffer = splice state.recvBuffer state.recvd frame)
        (unfinished : after.outcome ≠ .returned true false) :
        Noted cfg inputs rank state ledger ⟨after, rest, []⟩ := by
      refine within _ _ stage_eq unfinished ?_
      rw [sent_eq, recvd_eq]
      by_cases early : stage < cfg.steps
      · rw [if_pos early] at phase
        rw [Ledger.note_reduceScatter _ _ _ phase]
        exact known.early _ _ _ _ _ _ early
      · rw [if_neg early] at phase
        have written : slice after.recvBuffer state.recvd (after.recvd - state.recvd) = frame := by
          rw [buffer_eq, recvd_eq, Nat.add_sub_cancel_left, slice_splice_same _ _ _ (by omega)]
        have received := known.receive stage _ _ length ledger (by omega)
        rw [← first, ← step (by omega), ← frameLength] at received
        simpa [Ledger.note, running, phase, receiving, written] using received
    split_ifs with alive
    · obtain ⟨endStage, endSent, endRecvd, endBuffer, unfinished⟩ :=
        endIteration_fields (Net.call cfg inputs rank) observed _ alive
      exact entered _ _ endStage endSent endRecvd endBuffer unfinished
    · refine entered _ _ rfl rfl rfl rfl ?_
      rcases kept with same | ended
      · exact absurd (same.trans running) alive
      · simp [ended]

theorem stepReceiveMeta_fits (observed : Observation) (inbox : List (List Byte)) (stage : Nat)
    (state : RankState) (ledger : Ledger) (inStage : InStage cfg inputs rank stage state)
    (receiving : state.pc = .receiveMeta)
    (known : LedgerAt cfg inputs rank stage state.sent state.recvd ledger) :
    Noted cfg inputs rank state ledger
      (stepReceiveMeta (Net.call cfg inputs rank) observed inbox state) := by
  have running := inStage.running
  have same (effect : Effect) : ledger.note state effect = ledger := by
    simp [Ledger.note, receiving]
  rw [Noted, same]
  have quiet (after : RankState) := Fits.within ready quantizing inputs rank stage state after ledger
    inStage
  have polled (frames : List (List Byte)) : Fits cfg inputs rank
      (pollAbort (Net.call cfg inputs rank) observed frames state).state ledger := by
    unfold pollAbort
    split_ifs
    · exact quiet _ rfl (lost_giveUp_abort _ _).2 known
    · exact quiet _ rfl (by simp [running]) known
  unfold stepReceiveMeta
  split_ifs
  · split
    next => exact polled inbox
    next =>
      split_ifs
      · exact quiet _ rfl (lost_terminate _).2 known
      · split
        next => exact quiet _ rfl (lost_terminate _).2 known
        next => exact polled inbox.tail
        next => exact quiet _ rfl (by simp [acceptMeta, running]) known
  · exact quiet _ rfl (lost_giveUp_false _ _).2 known

theorem stepSendMeta_fits (observed : Observation) (inbox : List (List Byte)) (stage : Nat)
    (state : RankState) (ledger : Ledger) (inStage : InStage cfg inputs rank stage state)
    (sending : state.pc = .sendMeta)
    (known : LedgerAt cfg inputs rank stage state.sent state.recvd ledger) :
    Noted cfg inputs rank state ledger
      (stepSendMeta cfg (Net.call cfg inputs rank) observed inbox state) := by
  have running := inStage.running
  have same (effect : Effect) : ledger.note state effect = ledger := by
    simp [Ledger.note, sending]
  rw [Noted, same]
  unfold stepSendMeta
  split_ifs
  · exact .within ready quantizing inputs rank stage state _ ledger inStage rfl (by simp [running])
      known
  · exact .within ready quantizing inputs rank stage state _ ledger inStage rfl
      (lost_giveUp_false _ _).2 known

end Steps

section Runs

variable {cfg : Config} (inputs : Inputs cfg)

def Net.recorded (cfg : Config) (inputs : Inputs cfg) (schedule : List (Nat × Observation)) :
    FifoRing.Net (RankState × Ledger) (List Byte) :=
  FifoRing.run cfg.worldSize (watched (Net.act cfg inputs) Ledger.note)
    ⟨fun rank => ((Net.start cfg inputs).ranks rank, .initial), fun _ => []⟩ schedule

theorem recorded_forget (schedule : List (Nat × Observation)) :
    (Net.recorded cfg inputs schedule).forget = Net.run cfg inputs schedule :=
  run_watched _ _ _ _ _

def LostNoted (cfg : Config) (noted : RankState × Ledger) : Prop :=
  Lost noted.1 ∧ Forwards cfg noted.2

def TracksNoted (cfg : Config) (inputs : Inputs cfg) (rank : Nat) (noted : RankState × Ledger)
    (todo expected : List (List Byte)) : Prop :=
  Tracks cfg inputs rank noted.1 todo expected ∧ Fits cfg inputs rank noted.1 noted.2

section Follow

variable (ready : cfg.Ready) (quantizing : cfg.quantizing = true)

include ready quantizing

theorem act_noted (rank : Nat) (observed : Observation) (inbox : List (List Byte))
    (state : RankState) (ledger : Ledger) (todo expected : List (List Byte))
    (tracks : Tracks cfg inputs rank state todo expected) (front : inbox <+: expected)
    (fits : Fits cfg inputs rank state ledger) :
    Noted cfg inputs rank state ledger (Net.act cfg inputs rank observed inbox state) := by
  rcases tracks with ⟨stage, inStage, _, rfl⟩ | ⟨returned, _⟩
  · have known := fits.inStage stage inStage
    simp only [Net.act, stepRank, inStage.running]
    cases pc : state.pc with
    | sendMeta =>
      exact stepSendMeta_fits ready quantizing inputs rank observed inbox stage state ledger inStage
        pc known
    | receiveMeta =>
      exact stepReceiveMeta_fits ready quantizing inputs rank observed inbox stage state ledger
        inStage pc known
    | send =>
      exact stepSend_fits ready quantizing inputs rank observed inbox stage state ledger inStage pc
        known
    | receive =>
      rw [pc] at front
      exact stepReceive_fits ready quantizing inputs rank observed inbox stage state ledger inStage
        pc front known
  · simp only [Net.act, stepRank, returned, Noted, Ledger.note]
    exact fits

theorem watched_follows (paced : ∀ rank, rank < cfg.worldSize → Paced cfg inputs rank) :
    Follows cfg.worldSize (watched (Net.act cfg inputs) Ledger.note) (LostNoted cfg)
      (TracksNoted cfg inputs) := by
  have follows := act_follows ready inputs fun _ => paced
  refine ⟨?_, ?_, ?_⟩
  · rintro rank observed inbox ⟨state, ledger⟩ ⟨lost, forwards⟩
    refine ⟨follows.lost rank observed inbox state lost, ?_⟩
    have same : ledger.note state (Net.act cfg inputs rank observed inbox state) = ledger := by
      simp [Ledger.note, lost.1]
    simpa only [watched, same] using forwards
  · intro rank observed inbox noted lost
    exact follows.silent rank observed inbox noted.1 lost.1
  · rintro rank observed inbox ⟨state, ledger⟩ todo expected bound ⟨tracks, fits⟩ front
    have noted := act_noted inputs ready quantizing rank observed inbox state ledger todo expected
      tracks front fits
    rcases follows.tracks rank observed inbox state todo expected bound tracks front with
      lost | ⟨todo', expected', taken, next, rest⟩
    · exact .inl ⟨lost, noted.forwards⟩
    · exact .inr ⟨todo', expected', taken, ⟨next, noted⟩, rest⟩

theorem recorded_aligned (paced : ∀ rank, rank < cfg.worldSize → Paced cfg inputs rank)
    (schedule : List (Nat × Observation)) :
    Aligned cfg.worldSize (LostNoted cfg) (TracksNoted cfg inputs)
      (Net.recorded cfg inputs schedule) := by
  have blank (rank : Nat) : LedgerAt cfg inputs rank 0 0 0 .initial := by
    constructor <;> intro step <;> simp [Ledger.initial, portion]
  refine run_aligned ready.pair (watched_follows inputs ready quantizing paced) _ ?_ schedule
  refine ⟨fun rank => pendingFrames cfg inputs rank 0 true 0,
    fun rank => pendingFrames cfg inputs (pred cfg.worldSize rank) 0 true 0, ?_⟩
  intro rank bound going
  refine ⟨?_, List.nil_prefix, fun _ => rfl⟩
  have forwards := (blank rank).forwards ready quantizing _ _ _ _
  rcases startRank_entered ready inputs rank with early | entered
  · exact absurd ⟨early, forwards⟩ going
  · refine ⟨entered.tracks, forwards, ?_, ?_⟩
    · intro stage inStage
      have equal : stage = 0 := by
        apply stageAt_injective inputs rank
        rw [← inStage.spans, ← entered.spans]
        rfl
      rw [equal]
      change LedgerAt cfg inputs rank 0 (startRank cfg (Net.call cfg inputs rank)).sent
        (startRank cfg (Net.call cfg inputs rank)).recvd .initial
      rw [entered.sent, entered.recvd]
      exact blank rank
    · intro returned
      cases returned.symm.trans entered.running

end Follow

theorem recorded_unplanned (pair : 2 ≤ cfg.worldSize) (unplanned : cfg.plan? = none)
    (schedule : List (Nat × Observation)) (rank : Nat) :
    ((Net.recorded cfg inputs schedule).ranks rank).1.outcome = .terminated ∧
      ((Net.recorded cfg inputs schedule).ranks rank).2 = .initial := by
  have keeps (rank : Nat) (observed : Observation) (inbox : List (List Byte))
      (noted : RankState × Ledger) (_ : rank < cfg.worldSize)
      (ended : noted.1.outcome = .terminated ∧ noted.2 = .initial) :
      (watched (Net.act cfg inputs) Ledger.note rank observed inbox noted).state.1.outcome =
          .terminated ∧
        (watched (Net.act cfg inputs) Ledger.note rank observed inbox noted).state.2 = .initial := by
    simp [watched, Net.act, stepRank, Ledger.note, ended.1, ended.2]
  refine @run_keeps _ _ _ _ _ (fun _ (noted : RankState × Ledger) =>
      noted.1.outcome = .terminated ∧ noted.2 = .initial) keeps _ schedule rank ⟨?_, rfl⟩
  simp only [Net.start, startRank, if_neg (Nat.not_lt.mpr pair), unplanned]
  rfl

def truncatingKernel (dataType quantizedType : DataType) : Kernel dataType quantizedType where
  quantize size chunk := ((chunk ++ List.replicate size 0).take size, .makeMinMax .uint8 [0] [0])
  quantize_length size chunk := by simp
  quantize_made := unitRange_made
  dequantize value _ := value.setWidth _
  floatOp _ left right := left + right
  floatDivide value _ := value

def forwardingTriple : Config :=
  ⟨3, 6, .float, .uint8, .minMax, .sum, 7, truncatingKernel .float .uint8⟩

def turns (count : Nat) : List (Nat × Observation) :=
  (List.range count).map fun turn => (turn % 3, ⟨1, true, false⟩)

theorem forwarded_unmodified (quantizing : cfg.quantizing = true)
    (small : cfg.worldSize ≤ 2 ^ 31 - 1)
    (paced : ∀ rank, rank < cfg.worldSize → Paced cfg inputs rank)
    (schedule : List (Nat × Observation)) (rank step : Nat) (bound : rank < cfg.worldSize)
    (more : step + 1 < cfg.worldSize - 1) :
    let state := ((Net.recorded cfg inputs schedule).ranks rank).1
    let ledger := ((Net.recorded cfg inputs schedule).ranks rank).2
    ledger.sent (step + 1) <+: ledger.received step ∧
      (state.Passed (step + 1) → ledger.sent (step + 1) = ledger.received step) := by
  intro state ledger
  cases computed : cfg.plan? with
  | none =>
    obtain ⟨ended, blank⟩ := recorded_unplanned inputs (by omega) computed schedule rank
    have nothing : ledger = .initial := blank
    rw [nothing]
    exact ⟨List.nil_prefix, fun _ => rfl⟩
  | some plan =>
    have ready : cfg.Ready := ⟨⟨plan, computed⟩, by omega, by norm_num at small ⊢; omega⟩
    obtain ⟨todo, expected, tracked⟩ := recorded_aligned inputs ready quantizing paced schedule
    by_cases lost : LostNoted cfg ((Net.recorded cfg inputs schedule).ranks rank)
    · refine ⟨lost.2 step more, ?_⟩
      rintro (returned | ⟨running, _⟩)
      · exact absurd returned lost.1.2
      · exact absurd running lost.1.1
    · obtain ⟨⟨tracks, fits⟩, _⟩ := tracked rank bound lost
      refine ⟨fits.forwards step more, ?_⟩
      have steps : cfg.steps = cfg.worldSize - 1 := rfl
      rintro (returned | ⟨running, phase, passed⟩)
      · exact (fits.returned returned).equal ready quantizing _ _ _ _ step more (by omega)
      · rcases tracks with ⟨stage, inStage, _⟩ | ⟨returned, _⟩
        · obtain ⟨phase_eq, step_eq⟩ := inStage.phase_eq inputs rank stage _
          have gathering : cfg.steps ≤ stage := by
            by_contra early
            rw [phase, if_pos (by omega)] at phase_eq
            cases phase_eq
          have known := fits.inStage stage inStage
          refine known.equal ready quantizing _ _ _ _ step more ?_
          have later := step_eq gathering
          change step + 1 < state.stage.step at passed
          change state.stage.step = _ at later
          omega
        · cases returned.symm.trans running

theorem forwardingTriple_forwards :
    let noted := (Net.recorded forwardingTriple
      (rankInputs forwardingTriple fun rank => if rank = 1 then 2 else 3) (turns 90)).ranks 1
    noted.1.Passed 1 ∧ noted.2.received 0 = [50, 0] ∧ noted.2.sent 1 = [50, 0] := by
  intro noted
  have passed : noted.1.Passed 1 := Or.inl (by decide +kernel)
  have received : noted.2.received 0 = [50, 0] := by decide +kernel
  have forwards := forwarded_unmodified
    (rankInputs forwardingTriple fun rank => if rank = 1 then 2 else 3) (by decide) (by decide)
    (by decide) (turns 90) 1 0 (by decide) (by decide)
  exact ⟨passed, received, (forwards.2 passed).trans received⟩

theorem forwardingTriple_overwrites :
    let noted := (Net.recorded forwardingTriple
      (rankInputs forwardingTriple fun rank => if rank = 1 then 1 else 2) (turns 90)).ranks 1
    noted.1.outcome = .returned true false ∧ noted.2.received 0 = [50, 0] ∧
      noted.2.sent 1 = [50, 1] := by
  decide +kernel

end Runs

end Pccl.Ring
