import Pccl.Ring.Lockstep

set_option autoImplicit false

namespace Pccl.Ring

open Buffer FifoRing

section Definitions

variable (cfg : Config) (inputs : Inputs cfg)

def encode (chunk : Nat) (data : List Byte) : List Byte × DeQuantizationMetaData :=
  if cfg.quantizes chunk then cfg.kernel.quantize (cfg.wireSize chunk) data else (data, .initial)

def collected (chunk : Nat) : (hops : Nat) → List Byte
  | 0 => cfg.chunkOf (inputs.source chunk) chunk
  | hops + 1 =>
    reduceElements cfg.kernel cfg.op (encode cfg chunk (collected chunk hops)).2
      (cfg.chunkOf (inputs.source ((chunk + (hops + 1)) % cfg.worldSize)) chunk)
      (encode cfg chunk (collected chunk hops)).1

def published (chunk : Nat) : List Byte × DeQuantizationMetaData :=
  encode cfg chunk (collected cfg inputs chunk cfg.steps)

def final (chunk : Nat) : List Byte :=
  reduceElements cfg.kernel .set (published cfg inputs chunk).2
    (collected cfg inputs chunk cfg.steps) (published cfg inputs chunk).1

structure Carries (chunk : Nat) (snapshot : Snapshot) : Prop where
  wire : snapshot.wire = (published cfg inputs chunk).1
  metaData : snapshot.metaData = (published cfg inputs chunk).2

end Definitions

section Positions

variable {cfg : Config} (ready : cfg.Ready)

theorem add_mod_eq_self (size position distance : Nat) (inside : position < size)
    (small : distance < size) : (position + distance) % size = position ↔ distance = 0 := by
  by_cases wraps : position + distance < size
  · rw [Nat.mod_eq_of_lt wraps]
    omega
  · rw [Nat.mod_eq_sub_mod (by omega), Nat.mod_eq_of_lt (by omega)]
    omega

include ready

theorem rxChunk_reduce (chunk hops stage : Nat) (inside : chunk < cfg.worldSize)
    (near : hops < cfg.worldSize) (reducing : stage < cfg.steps) :
    cfg.rxChunk ((chunk + hops) % cfg.worldSize) stage = chunk ↔ hops = stage + 1 := by
  have worlds : cfg.steps = cfg.worldSize - 1 := rfl
  rw [Config.rxChunk, Config.txChunk, if_pos reducing, pred, Nat.mod_add_mod,
    Nat.add_sub_assoc ready.one_le, Nat.mod_add_mod]
  by_cases ahead : stage + 1 ≤ hops
  · rw [show chunk + hops + (cfg.worldSize - stage) + (cfg.worldSize - 1) =
        chunk + (hops - (stage + 1)) + cfg.worldSize + cfg.worldSize by omega,
      Nat.add_mod_right, Nat.add_mod_right, add_mod_eq_self _ _ _ inside (by omega)]
    omega
  · rw [show chunk + hops + (cfg.worldSize - stage) + (cfg.worldSize - 1) =
        chunk + (hops + cfg.worldSize - (stage + 1)) + cfg.worldSize by omega,
      Nat.add_mod_right, add_mod_eq_self _ _ _ inside (by omega)]
    omega

omit ready in
theorem txChunk_reduce (chunk stage : Nat) (inside : chunk < cfg.worldSize)
    (reducing : stage < cfg.steps) :
    cfg.txChunk ((chunk + stage) % cfg.worldSize) stage = chunk := by
  have worlds : cfg.steps = cfg.worldSize - 1 := rfl
  rw [Config.txChunk, if_pos reducing, Nat.mod_add_mod,
    show chunk + stage + (cfg.worldSize - stage) = chunk + cfg.worldSize by omega, Nat.add_mod_right,
    Nat.mod_eq_of_lt inside]

theorem rxChunk_gather (chunk hops step : Nat) (inside : chunk < cfg.worldSize)
    (near : hops < cfg.worldSize) (gathering : step < cfg.steps) :
    cfg.rxChunk ((chunk + cfg.steps + hops) % cfg.worldSize) (cfg.steps + step) = chunk ↔
      hops = step + 1 := by
  have worlds : cfg.steps = cfg.worldSize - 1 := rfl
  rw [Config.rxChunk, Config.txChunk, if_neg (by omega), pred, Nat.add_sub_cancel_left,
    Nat.add_assoc (_ % _) 1, Nat.mod_add_mod, Nat.add_sub_assoc ready.one_le, Nat.mod_add_mod]
  by_cases ahead : step + 1 ≤ hops
  · rw [show chunk + cfg.steps + hops + (1 + (cfg.worldSize - step)) + (cfg.worldSize - 1) =
        chunk + (hops - (step + 1)) + cfg.worldSize + cfg.worldSize + cfg.worldSize by omega,
      Nat.add_mod_right, Nat.add_mod_right, Nat.add_mod_right,
      add_mod_eq_self _ _ _ inside (by omega)]
    omega
  · rw [show chunk + cfg.steps + hops + (1 + (cfg.worldSize - step)) + (cfg.worldSize - 1) =
        chunk + (hops + cfg.worldSize - (step + 1)) + cfg.worldSize + cfg.worldSize by omega,
      Nat.add_mod_right, Nat.add_mod_right, add_mod_eq_self _ _ _ inside (by omega)]
    omega

theorem txChunk_gather_owner (chunk step : Nat) (inside : chunk < cfg.worldSize)
    (gathering : step < cfg.steps) :
    cfg.txChunk ((chunk + cfg.steps + step) % cfg.worldSize) (cfg.steps + step) = chunk := by
  have worlds : cfg.steps = cfg.worldSize - 1 := rfl
  have pair := ready.pair
  rw [Config.txChunk, if_neg (by omega), Nat.add_sub_cancel_left, Nat.add_assoc (_ % _) 1,
    Nat.mod_add_mod,
    show chunk + cfg.steps + step + (1 + (cfg.worldSize - step)) =
      chunk + cfg.worldSize + cfg.worldSize by omega,
    Nat.add_mod_right, Nat.add_mod_right, Nat.mod_eq_of_lt inside]

theorem pred_hop (position : Nat) :
    pred cfg.worldSize ((position + 1) % cfg.worldSize) = position % cfg.worldSize := by
  have one := ready.one_le
  rw [pred, Nat.add_sub_assoc one, Nat.mod_add_mod,
    show position + 1 + (cfg.worldSize - 1) = position + cfg.worldSize by omega, Nat.add_mod_right]

theorem exists_hops (position rank : Nat) (bound : rank < cfg.worldSize) :
    ∃ hops, hops < cfg.worldSize ∧ (position + hops) % cfg.worldSize = rank := by
  have one := ready.one_le
  refine ⟨(rank + (cfg.worldSize - position % cfg.worldSize)) % cfg.worldSize,
    Nat.mod_lt _ (by omega), ?_⟩
  have small := Nat.mod_lt position one
  rw [Nat.add_mod_mod, ← Nat.mod_add_mod,
    show position % cfg.worldSize + (rank + (cfg.worldSize - position % cfg.worldSize)) =
      rank + cfg.worldSize by omega, Nat.add_mod_right, Nat.mod_eq_of_lt bound]

end Positions

section Evolution

variable {cfg : Config} (ready : cfg.Ready) (inputs : Inputs cfg)

theorem prepare_reduce (rank stage : Nat) (dst carried : List Byte)
    (carriedMeta : DeQuantizationMetaData) (reducing : stage < cfg.steps) :
    prepare cfg rank stage dst carried carriedMeta =
      ⟨dst, (encode cfg (cfg.txChunk rank stage) (cfg.chunkOf dst (cfg.txChunk rank stage))).1,
        (encode cfg (cfg.txChunk rank stage) (cfg.chunkOf dst (cfg.txChunk rank stage))).2⟩ := by
  have late : ¬ cfg.steps < stage := by omega
  have other : ¬ stage = cfg.steps := by omega
  unfold prepare encode
  simp only [late, other, if_false]
  split_ifs <;> rfl

include ready

theorem chunkOf_absorb (rank stage chunk : Nat) (own sender : Snapshot)
    (sized : own.Sized cfg rank stage) :
    cfg.chunkOf (absorb cfg rank stage own sender) chunk =
      if cfg.rxChunk rank stage = chunk then incoming cfg rank stage own sender
      else cfg.chunkOf own.dst chunk := by
  have inside := ready.rxChunk_lt rank stage
  have room := ready.planned.chunk_inside _ inside
  have length : (incoming cfg rank stage own sender).length =
      cfg.byteSize (cfg.rxChunk rank stage) :=
    length_reduceChunk _ _ _ _ _ (length_chunkOf ready own.dst _ inside sized.1)
  split_ifs with same
  · have written := slice_splice_same own.dst (cfg.byteOffset (cfg.rxChunk rank stage))
      (incoming cfg rank stage own sender) (by rw [length, sized.1]; exact room)
    rw [length] at written
    rw [← same]
    exact written
  · apply slice_splice_outside
    · rw [length, sized.1]
      exact room
    · rw [length]
      exact cfg.chunk_disjoint _ _ fun equal => same equal.symm

theorem settled_reduce_step (stage : Nat) (reducing : stage < cfg.steps)
    (held : ∀ chunk hops, chunk < cfg.worldSize → hops < cfg.worldSize →
      cfg.chunkOf (lockstep cfg inputs stage ((chunk + hops) % cfg.worldSize)).dst chunk =
        if hops ≤ stage then collected cfg inputs chunk hops
        else cfg.chunkOf (inputs.source ((chunk + hops) % cfg.worldSize)) chunk)
    (snapshot : ∀ rank, lockstep cfg inputs stage rank =
      prepare cfg rank stage (lockstep cfg inputs stage rank).dst [] .initial)
    (chunk hops : Nat) (inside : chunk < cfg.worldSize) (near : hops < cfg.worldSize) :
    cfg.chunkOf (settled cfg inputs stage ((chunk + hops) % cfg.worldSize)) chunk =
      if hops ≤ stage + 1 then collected cfg inputs chunk hops
      else cfg.chunkOf (inputs.source ((chunk + hops) % cfg.worldSize)) chunk := by
  have sized := lockstep_sized ready inputs stage ((chunk + hops) % cfg.worldSize) (by omega)
  have worlds : cfg.steps = cfg.worldSize - 1 := rfl
  rw [settled, chunkOf_absorb ready _ _ _ _ _ sized]
  by_cases arrives : hops = stage + 1
  · subst arrives
    have rx := (rxChunk_reduce ready chunk (stage + 1) stage inside near reducing).mpr rfl
    have tx := @txChunk_reduce cfg chunk stage inside reducing
    have sender := snapshot ((chunk + stage) % cfg.worldSize)
    rw [prepare_reduce _ _ _ _ _ reducing, tx, held chunk stage inside (by omega),
      if_pos (Nat.le_refl stage)] at sender
    rw [if_pos rx, if_pos (Nat.le_refl _), incoming, rx, held chunk (stage + 1) inside near,
      if_neg (by omega), ← Nat.add_assoc, pred_hop ready, sender, Config.opOf, if_pos reducing,
      collected]
    rfl
  · rw [if_neg (fun rx => arrives ((rxChunk_reduce ready chunk hops stage inside near reducing).mp rx)),
      held chunk hops inside near]
    split_ifs <;> first | rfl | omega

theorem reduce_held (stage : Nat) (reducing : stage < cfg.steps) :
    (∀ rank, lockstep cfg inputs stage rank =
      prepare cfg rank stage (lockstep cfg inputs stage rank).dst [] .initial) ∧
    ∀ chunk hops, chunk < cfg.worldSize → hops < cfg.worldSize →
      cfg.chunkOf (lockstep cfg inputs stage ((chunk + hops) % cfg.worldSize)).dst chunk =
        if hops ≤ stage then collected cfg inputs chunk hops
        else cfg.chunkOf (inputs.source ((chunk + hops) % cfg.worldSize)) chunk := by
  induction stage with
  | zero =>
    have start (rank : Nat) : (lockstep cfg inputs 0 rank).dst = inputs.source rank := by
      rw [lockstep, prepare_reduce _ _ _ _ _ reducing]
    refine ⟨fun rank => by rw [start, lockstep], ?_⟩
    intro chunk hops inside near
    rw [start]
    split_ifs with none
    · rw [Nat.le_zero.mp none, Nat.add_zero, Nat.mod_eq_of_lt inside, collected]
    · rfl
  | succ stage ih =>
    obtain ⟨snapshot, held⟩ := ih (by omega)
    have next (rank : Nat) :
        (lockstep cfg inputs (stage + 1) rank).dst = settled cfg inputs stage rank := by
      rw [lockstep_succ, prepare_reduce _ _ _ _ _ reducing]
    refine ⟨fun rank => ?_, ?_⟩
    · rw [next, lockstep_succ, prepare_reduce _ _ _ _ _ reducing,
        prepare_reduce _ _ _ _ _ reducing]
    · intro chunk hops inside near
      rw [next]
      exact settled_reduce_step ready inputs stage (by omega) held snapshot chunk hops inside near

theorem reduced_owner (chunk : Nat) (inside : chunk < cfg.worldSize) :
    cfg.chunkOf (settled cfg inputs (cfg.steps - 1) ((chunk + cfg.steps) % cfg.worldSize)) chunk =
      collected cfg inputs chunk cfg.steps := by
  have positive : 0 < cfg.steps := Nat.sub_pos_of_lt ready.pair
  have worlds : cfg.steps = cfg.worldSize - 1 := rfl
  obtain ⟨snapshot, held⟩ := reduce_held ready inputs (cfg.steps - 1) (by omega)
  rw [settled_reduce_step ready inputs (cfg.steps - 1) (by omega) held snapshot chunk cfg.steps inside
    (by omega), if_pos (by omega)]

theorem length_collected (chunk hops : Nat) (inside : chunk < cfg.worldSize) :
    (collected cfg inputs chunk hops).length = cfg.byteSize chunk := by
  cases hops with
  | zero => exact length_chunkOf ready _ _ inside (inputs.source_length chunk)
  | succ hops =>
    exact length_reduceChunk _ _ _ _ _ (length_chunkOf ready _ _ inside (inputs.source_length _))

theorem length_final (chunk : Nat) (inside : chunk < cfg.worldSize) :
    (final cfg inputs chunk).length = cfg.byteSize chunk :=
  length_reduceChunk _ _ _ _ _ (length_collected ready inputs chunk _ inside)

theorem final_plain (chunk : Nat) (inside : chunk < cfg.worldSize)
    (plain : cfg.quantizes chunk = false) :
    final cfg inputs chunk = collected cfg inputs chunk cfg.steps := by
  have length := length_collected ready inputs chunk cfg.steps inside
  rw [final, published, encode, plain]
  by_cases same : cfg.quantizing = false
  · exact reduceElements_set_same cfg.kernel _ _ (cfg.chunkEl chunk) length
      (ready.planned.dataBits) (ready.planned.exact same).symm
  · have empty : cfg.chunkEl chunk = 0 := by simpa [Config.quantizes, same] using plain
    have none : cfg.byteSize chunk = 0 := by simp [Config.byteSize, empty]
    have left := length_final ready inputs chunk inside
    rw [final, published, encode, plain, none] at left
    rw [none] at length
    rw [List.length_eq_zero_iff.mp length] at left ⊢
    exact List.length_eq_zero_iff.mp left

theorem prepare_owner (rank chunk : Nat) (dst carried : List Byte)
    (carriedMeta : DeQuantizationMetaData) (length : dst.length = cfg.count * cfg.dataType.size)
    (tx : cfg.txChunk rank cfg.steps = chunk) (inside : chunk < cfg.worldSize)
    (owned : cfg.chunkOf dst chunk = collected cfg inputs chunk cfg.steps) :
    Carries cfg inputs chunk (prepare cfg rank cfg.steps dst carried carriedMeta) ∧
      cfg.chunkOf (prepare cfg rank cfg.steps dst carried carriedMeta).dst chunk =
        final cfg inputs chunk := by
  have room := ready.planned.chunk_inside _ inside
  unfold prepare
  simp only [tx, owned, Nat.lt_irrefl, if_false, if_true]
  by_cases quantizes : cfg.quantizes chunk = true
  · have sent : published cfg inputs chunk =
        cfg.kernel.quantize (cfg.wireSize chunk) (collected cfg inputs chunk cfg.steps) := by
      rw [published, encode, if_pos quantizes]
    have size := length_final ready inputs chunk inside
    have written := slice_splice_same dst (cfg.byteOffset chunk) (final cfg inputs chunk)
      (by rw [size, length]; exact room)
    rw [size, final, sent] at written
    rw [if_pos quantizes, final, sent]
    exact ⟨⟨by rw [sent], by rw [sent]⟩, written⟩
  · have plain : cfg.quantizes chunk = false := by simpa using quantizes
    rw [if_neg quantizes, final_plain ready inputs chunk inside plain]
    have sent : published cfg inputs chunk = (collected cfg inputs chunk cfg.steps, .initial) := by
      rw [published, encode, if_neg quantizes]
    exact ⟨⟨by rw [sent], by rw [sent]⟩, owned⟩

theorem prepare_forward (rank stage chunk : Nat) (dst : List Byte) (inside : chunk < cfg.worldSize)
    (tx : cfg.txChunk rank stage = chunk) (late : cfg.steps < stage)
    (owned : cfg.chunkOf dst chunk = final cfg inputs chunk) :
    Carries cfg inputs chunk (prepare cfg rank stage dst (published cfg inputs chunk).1
      (published cfg inputs chunk).2) := by
  unfold prepare
  simp only [tx, owned, late, if_true]
  by_cases quantizes : cfg.quantizes chunk = true
  · rw [if_pos quantizes]
    exact ⟨rfl, rfl⟩
  · have plain : cfg.quantizes chunk = false := by simpa using quantizes
    have sent : published cfg inputs chunk = (collected cfg inputs chunk cfg.steps, .initial) := by
      rw [published, encode, if_neg quantizes]
    rw [if_neg quantizes, final_plain ready inputs chunk inside plain]
    exact ⟨by rw [sent], by rw [sent]⟩

omit ready in
theorem prepare_late_dst (rank stage : Nat) (dst carried : List Byte)
    (carriedMeta : DeQuantizationMetaData) (late : cfg.steps < stage) :
    (prepare cfg rank stage dst carried carriedMeta).dst = dst := by
  unfold prepare
  simp only [late, if_true]
  split_ifs <;> rfl

/-- The allgather after `step` stages: `step + 1` ranks, counted from the owner, have the final chunk
and the last of them is about to pass it on. -/
structure Gathered (cfg : Config) (inputs : Inputs cfg) (step chunk : Nat) : Prop where
  carries : Carries cfg inputs chunk
    (lockstep cfg inputs (cfg.steps + step) ((chunk + cfg.steps + step) % cfg.worldSize))
  held : ∀ hops, hops ≤ step → cfg.chunkOf
    (lockstep cfg inputs (cfg.steps + step) ((chunk + cfg.steps + hops) % cfg.worldSize)).dst chunk =
      final cfg inputs chunk

theorem gathered_start (chunk : Nat) (inside : chunk < cfg.worldSize) :
    Gathered cfg inputs 0 chunk := by
  have positive : 0 < cfg.steps := Nat.sub_pos_of_lt ready.pair
  have tx := txChunk_gather_owner ready chunk 0 inside positive
  have owned := reduced_owner ready inputs chunk inside
  obtain ⟨last, stages⟩ : ∃ last, cfg.steps = last + 1 := ⟨cfg.steps - 1, by omega⟩
  have sized := lockstep_sized ready inputs last ((chunk + cfg.steps) % cfg.worldSize) (by omega)
  have started := prepare_owner ready inputs ((chunk + cfg.steps) % cfg.worldSize) chunk
    (settled cfg inputs last ((chunk + cfg.steps) % cfg.worldSize))
    (lockstep cfg inputs last (pred cfg.worldSize ((chunk + cfg.steps) % cfg.worldSize))).wire
    (lockstep cfg inputs last (pred cfg.worldSize ((chunk + cfg.steps) % cfg.worldSize))).metaData
    (length_absorb ready _ _ _ _ sized) tx inside
    (by rwa [show cfg.steps - 1 = last by omega] at owned)
  have snapshot (rank : Nat) : lockstep cfg inputs cfg.steps rank =
      prepare cfg rank cfg.steps (settled cfg inputs last rank)
        (lockstep cfg inputs last (pred cfg.worldSize rank)).wire
        (lockstep cfg inputs last (pred cfg.worldSize rank)).metaData := by
    rw [stages, lockstep_succ]
  rw [← snapshot] at started
  refine ⟨started.1, ?_⟩
  intro hops none
  rw [Nat.le_zero.mp none]
  exact started.2

theorem settled_gather_step (step chunk hops : Nat) (inside : chunk < cfg.worldSize)
    (gathering : step < cfg.steps) (gathered : Gathered cfg inputs step chunk)
    (near : hops ≤ step + 1) :
    cfg.chunkOf (settled cfg inputs (cfg.steps + step)
      ((chunk + cfg.steps + hops) % cfg.worldSize)) chunk = final cfg inputs chunk := by
  have worlds : cfg.steps = cfg.worldSize - 1 := rfl
  have sized := lockstep_sized ready inputs (cfg.steps + step)
    ((chunk + cfg.steps + hops) % cfg.worldSize) (by omega)
  have receives := rxChunk_gather ready chunk hops step inside (by omega) gathering
  rw [settled, chunkOf_absorb ready _ _ _ _ _ sized]
  by_cases arrives : hops = step + 1
  · subst arrives
    have rx := receives.mpr rfl
    rw [if_pos rx, incoming, rx, ← Nat.add_assoc, pred_hop ready, Config.opOf, if_neg (by omega),
      gathered.carries.wire, gathered.carries.metaData, final]
    apply reduceElements_set
    rw [length_collected ready inputs chunk _ inside]
    exact length_chunkOf ready _ _ inside (by rw [Nat.add_assoc (chunk + cfg.steps)]; exact sized.1)
  · rw [if_neg (fun rx => arrives (receives.mp rx))]
    exact gathered.held hops (by omega)

theorem gathered_all (step chunk : Nat) (inside : chunk < cfg.worldSize)
    (gathering : step < cfg.steps) : Gathered cfg inputs step chunk := by
  induction step with
  | zero => exact gathered_start ready inputs chunk inside
  | succ step ih =>
    have gathered := ih (by omega)
    have held (hops : Nat) (near : hops ≤ step + 1) :=
      settled_gather_step ready inputs step chunk hops inside (by omega) gathered near
    have tx := txChunk_gather_owner ready chunk (step + 1) inside gathering
    constructor
    · have forwarded := prepare_forward ready inputs _ _ chunk _ inside tx (by omega)
        (held (step + 1) (Nat.le_refl _))
      rw [← Nat.add_assoc cfg.steps, lockstep_succ, ← Nat.add_assoc (chunk + cfg.steps), pred_hop ready,
        gathered.carries.wire, gathered.carries.metaData]
      exact forwarded
    · intro hops near
      rw [← Nat.add_assoc cfg.steps, lockstep_succ, prepare_late_dst _ _ _ _ _ (by omega)]
      exact held hops near

theorem settled_final (rank chunk : Nat) (bound : rank < cfg.worldSize)
    (inside : chunk < cfg.worldSize) :
    cfg.chunkOf (settled cfg inputs (2 * cfg.steps - 1) rank) chunk = final cfg inputs chunk := by
  have worlds : cfg.steps = cfg.worldSize - 1 := rfl
  have pair := ready.pair
  obtain ⟨hops, near, rfl⟩ := exists_hops ready (chunk + cfg.steps) rank bound
  have gathered := gathered_all ready inputs (cfg.steps - 1) chunk inside (by omega)
  have last := settled_gather_step ready inputs (cfg.steps - 1) chunk hops inside (by omega) gathered
    (by omega)
  rwa [show cfg.steps + (cfg.steps - 1) = 2 * cfg.steps - 1 by omega] at last

end Evolution

end Pccl.Ring
