import Pccl.Master.Runs

set_option autoImplicit false

namespace Pccl.Master

open Packet Program

section Lists

variable (mask entries : List SharedStateHashEntry)

def SameKeySet : Prop :=
  mask.length = entries.length ∧
    ∀ pair ∈ mask.zip entries, SharedStateHashEntry.sameShape pair.1 pair.2

def changed : List SharedStateHashEntry :=
  ((mask.zip entries).filter fun pair => pair.1.hash ≠ pair.2.hash).map Prod.fst

def changedKeys : List String := (changed mask entries).map SharedStateHashEntry.key

theorem changed_cons (expected entry : SharedStateHashEntry) :
    changed (expected :: mask) (entry :: entries) =
      if expected.hash = entry.hash then changed mask entries
      else expected :: changed mask entries := by
  by_cases same : expected.hash = entry.hash <;> simp [changed, same]

variable {mask entries}

theorem compareEntries_of_shape {pair : SharedStateHashEntry × SharedStateHashEntry}
    (paired : pair ∈ mask.zip entries) (differ : ¬ SharedStateHashEntry.sameShape pair.1 pair.2)
    (status : SharedStateMismatchStatus) (dirty : List SharedStateHashEntry) :
    ∃ found, compareEntries mask entries status dirty = some (.keySetMismatch, found) := by
  induction mask generalizing entries status dirty with
  | nil => simp at paired
  | cons expected mask ih =>
    cases entries with
    | nil => simp at paired
    | cons entry entries =>
      unfold compareEntries
      by_cases same : SharedStateHashEntry.sameShape expected entry
      · have later : pair ∈ mask.zip entries := by
          rcases List.mem_cons.mp paired with rfl | later
          · exact absurd same differ
          · exact later
        rw [if_pos same]
        split <;> exact ih later _ _
      · rw [if_neg same]
        exact ⟨dirty, rfl⟩

theorem compareEntries_of_short
    (same : ∀ pair ∈ mask.zip entries, SharedStateHashEntry.sameShape pair.1 pair.2)
    (short : entries.length < mask.length) (status : SharedStateMismatchStatus)
    (dirty : List SharedStateHashEntry) : compareEntries mask entries status dirty = none := by
  induction mask generalizing entries status dirty with
  | nil => simp at short
  | cons expected mask ih =>
    cases entries with
    | nil => rfl
    | cons entry entries =>
      have rest := @ih entries (fun pair paired => same pair (List.mem_cons_of_mem _ paired))
        (by simpa using short)
      unfold compareEntries
      rw [if_pos (same (expected, entry) List.mem_cons_self)]
      split <;> exact rest _ _

theorem compareEntries_of_long
    (same : ∀ pair ∈ mask.zip entries, SharedStateHashEntry.sameShape pair.1 pair.2)
    (long : mask.length ≤ entries.length) (status : SharedStateMismatchStatus)
    (dirty : List SharedStateHashEntry) :
    compareEntries mask entries status dirty =
      some (if changed mask entries = [] then status else .contentHashMismatch,
        dirty ++ changed mask entries) := by
  induction mask generalizing entries status dirty with
  | nil => simp [compareEntries, changed]
  | cons expected mask ih =>
    cases entries with
    | nil => simp at long
    | cons entry entries =>
      have rest := @ih entries (fun pair paired => same pair (List.mem_cons_of_mem _ paired))
        (by simpa using long)
      unfold compareEntries
      rw [if_pos (same (expected, entry) List.mem_cons_self)]
      rw [changed_cons]
      by_cases content : expected.hash = entry.hash
      · rw [if_pos content, rest, if_pos content]
      · rw [if_neg content, rest, if_neg content]
        simp

end Lists

structure Comparison where
  mask : List SharedStateHashEntry
  status : Option SharedStateMismatchStatus
  dirtyKeys : List String

namespace Comparison

variable (comparison : Comparison)

def oldStatus : SharedStateMismatchStatus := comparison.status.getD .successfulMatch

def compares : Bool :=
  -- Voters with another status are passed over.
  comparison.oldStatus = .successfulMatch || comparison.oldStatus = .revisionOutdated

def check (entries : List SharedStateHashEntry) : Option Comparison :=
  if comparison.compares then
    (compareEntries comparison.mask entries .successfulMatch []).map fun (status, dirty) =>
      { comparison with
        status := if comparison.oldStatus = .successfulMatch then some status else comparison.status
        dirtyKeys := comparison.dirtyKeys ++ dirty.map SharedStateHashEntry.key }
  else some comparison

end Comparison

namespace SharedStateRound

variable (round : SharedStateRound)

def comparison (uuid : Uuid) : Comparison :=
  ⟨round.mask, round.statuses.lookup uuid, round.dirtyKeys uuid⟩

theorem compareClient_comparison (uuid : Uuid) (entries : List SharedStateHashEntry) :
    (round.compareClient uuid entries).map (fun next => next.comparison uuid) =
      (round.comparison uuid).check entries := by
  have same : (round.comparison uuid).oldStatus = round.oldStatus uuid := rfl
  simp only [compareClient, Comparison.check, Comparison.compares, same, Bool.or_eq_true,
    decide_eq_true_eq]
  split
  · have read : (round.comparison uuid).mask = round.mask := rfl
    rw [read]
    cases compareEntries round.mask entries .successfulMatch [] with
    | none => rfl
    | some found =>
      by_cases matched : round.oldStatus uuid = .successfulMatch <;>
        simp [comparison, noteDirty, matched]
  · rfl

theorem compareClient_others {uuid other : Uuid} {entries : List SharedStateHashEntry}
    {next : SharedStateRound} (compared : round.compareClient uuid entries = some next)
    (different : other ≠ uuid) : next.comparison other = round.comparison other := by
  unfold compareClient at compared
  dsimp only at compared
  split at compared
  · split at compared
    · cases compared
    · cases compared
      simp only [comparison, noteDirty, Function.update_of_ne different]
      split <;> simp [different]
  · cases compared
    rfl

end SharedStateRound

theorem compareClients_meets (group : Group) (voters : List (Uuid × List SharedStateHashEntry))
    (single : (voters.map Prod.fst).Nodup) (master : MasterState) :
    (compareClients group voters).Meets master
      (fun _ next =>
        (∀ voter ∈ voters, ((master.sharedState group).comparison voter.1).check voter.2 =
            some ((next.sharedState group).comparison voter.1)) ∧
          ∀ uuid ∉ voters.map Prod.fst,
            (next.sharedState group).comparison uuid = (master.sharedState group).comparison uuid)
      (fun exit => exit.bug = .undefinedRead ∧
        ∃ voter ∈ voters, ((master.sharedState group).comparison voter.1).check voter.2 = none) := by
  induction voters generalizing master with
  | nil => exact ⟨by simp, fun _ _ => rfl⟩
  | cons voter voters ih =>
    obtain ⟨uuid, entries⟩ := voter
    obtain ⟨fresh, single⟩ := List.nodup_cons.mp single
    have own := (master.sharedState group).compareClient_comparison uuid entries
    refine .read ?_
    cases compared : (master.sharedState group).compareClient uuid entries with
    | none =>
      rw [compared] at own
      exact ⟨rfl, (uuid, entries), List.mem_cons_self, own.symm⟩
    | some round =>
      rw [compared] at own
      have others {other : Uuid} (different : other ≠ uuid) :=
        (master.sharedState group).compareClient_others compared different
      refine .write ?_
      have placed : (master.setRound group round).sharedState group = round :=
        Function.update_self _ _ _
      have elsewhere {voter : Uuid × List SharedStateHashEntry} (present : voter ∈ voters) :
          voter.1 ≠ uuid :=
        fun same => fresh (List.mem_map.mpr ⟨voter, present, same⟩)
      refine (ih single (master.setRound group round)).imp (fun _ next checked => ?_) fun exit failed => ?_
      · rw [placed] at checked
        refine ⟨fun voter present => ?_, fun other absent => ?_⟩
        · rcases List.mem_cons.mp present with rfl | later
          · rw [checked.2 uuid fresh]
            exact own.symm
          · rw [← others (elsewhere later)]
            exact checked.1 voter later
        · rw [List.map_cons, List.mem_cons, not_or] at absent
          rw [checked.2 other absent.2, others absent.1]
      · rw [placed] at failed
        obtain ⟨bug, voter, present, failed⟩ := failed
        rw [others (elsewhere present)] at failed
        exact ⟨bug, voter, List.mem_cons_of_mem _ present, failed⟩

/-- A voter is said to have another set of keys just when it has, and otherwise its dirty keys are
those whose content differs, each once. -/
structure Classified (mask entries : List SharedStateHashEntry)
    (status : Option SharedStateMismatchStatus) (dirtyKeys : List String) : Prop where
  keySet : status = some .keySetMismatch ↔ ¬ SameKeySet mask entries
  dirty : status ≠ some .keySetMismatch →
    dirtyKeys.Nodup ∧ ∀ key, key ∈ dirtyKeys ↔ key ∈ changedKeys mask entries

/-- The list has the keys of the mask and nothing is dirty from before, or the revision is not
outdated and the lists already differ in a place that both have. -/
def Comparison.Regular (comparison : Comparison) (entries : List SharedStateHashEntry) : Prop :=
  (SameKeySet comparison.mask entries ∧ comparison.dirtyKeys = [] ∧
      (changedKeys comparison.mask entries).Nodup) ∨
    comparison.oldStatus = .successfulMatch ∧
      ∃ pair ∈ comparison.mask.zip entries, ¬ SharedStateHashEntry.sameShape pair.1 pair.2

theorem appended_exact_iff (old found : List String) :
    ((old ++ found).Nodup ∧ ∀ key, key ∈ old ++ found ↔ key ∈ found) ↔ old = [] ∧ found.Nodup := by
  constructor
  · rintro ⟨once, members⟩
    obtain ⟨_, distinct, apart⟩ := List.nodup_append.mp once
    refine ⟨List.eq_nil_iff_forall_not_mem.mpr fun key present => ?_, distinct⟩
    have again := (members key).mp (List.mem_append_left found present)
    exact apart key present key again rfl
  · rintro ⟨rfl, distinct⟩
    exact ⟨distinct, fun _ => Iff.rfl⟩

namespace Comparison

variable {comparison : Comparison} {entries : List SharedStateHashEntry}

theorem check_of_long (compares : comparison.compares)
    (same : ∀ pair ∈ comparison.mask.zip entries, SharedStateHashEntry.sameShape pair.1 pair.2)
    (long : comparison.mask.length ≤ entries.length) :
    ∃ next, comparison.check entries = some next ∧ next.status ≠ some .keySetMismatch ∧
      next.dirtyKeys = comparison.dirtyKeys ++ changedKeys comparison.mask entries := by
  rw [check, if_pos compares, compareEntries_of_long same long]
  refine ⟨_, rfl, ?_, rfl⟩
  dsimp only
  by_cases matched : comparison.oldStatus = .successfulMatch
  · rw [if_pos matched]
    split <;> simp
  · have outdated : comparison.oldStatus = .revisionOutdated := by
      simpa [Comparison.compares, matched] using compares
    rw [if_neg matched]
    intro marked
    rw [oldStatus, marked] at outdated
    cases outdated

theorem check_of_shape (compares : comparison.compares)
    {pair : SharedStateHashEntry × SharedStateHashEntry}
    (paired : pair ∈ comparison.mask.zip entries)
    (differ : ¬ SharedStateHashEntry.sameShape pair.1 pair.2) :
    ∃ next, comparison.check entries = some next ∧
      (next.status = some .keySetMismatch ↔ comparison.oldStatus = .successfulMatch) := by
  obtain ⟨found, result⟩ := compareEntries_of_shape paired differ .successfulMatch []
  rw [check, if_pos compares, result]
  refine ⟨_, rfl, ?_⟩
  dsimp only
  by_cases matched : comparison.oldStatus = .successfulMatch
  · simp [matched]
  · rw [if_neg matched]
    refine iff_of_false (fun marked => ?_) matched
    simp [Comparison.compares, oldStatus, marked] at compares

theorem check_classified_iff (compares : comparison.compares) :
    (∃ next, comparison.check entries = some next ∧
      Classified comparison.mask entries next.status next.dirtyKeys) ↔ comparison.Regular entries := by
  by_cases same : ∀ pair ∈ comparison.mask.zip entries,
      SharedStateHashEntry.sameShape pair.1 pair.2
  · have alike : ¬ ∃ pair ∈ comparison.mask.zip entries,
        ¬ SharedStateHashEntry.sameShape pair.1 pair.2 := by
      rintro ⟨pair, paired, differ⟩
      exact differ (same pair paired)
    by_cases long : comparison.mask.length ≤ entries.length
    · obtain ⟨next, checked, unmarked, dirty⟩ := check_of_long compares same long
      have appended := appended_exact_iff comparison.dirtyKeys (changedKeys comparison.mask entries)
      rw [← dirty] at appended
      rw [checked]
      constructor
      · rintro ⟨_, ⟨⟩, classified⟩
        have keys : SameKeySet comparison.mask entries :=
          not_not.mp fun other => unmarked (classified.keySet.mpr other)
        exact Or.inl ⟨keys, appended.mp (classified.dirty unmarked)⟩
      · rintro (⟨keys, clean⟩ | ⟨_, differ⟩)
        · exact ⟨next, rfl, iff_of_false unmarked (not_not.mpr keys), fun _ => appended.mpr clean⟩
        · exact absurd differ alike
    · -- The read past the end.
      have short := compareEntries_of_short same (not_le.mp long) .successfulMatch []
      rw [check, if_pos compares, short]
      refine iff_of_false (by simp) ?_
      rintro (⟨keys, _⟩ | ⟨_, differ⟩)
      · exact long keys.1.le
      · exact alike differ
  · obtain ⟨pair, paired, differ⟩ : ∃ pair ∈ comparison.mask.zip entries,
        ¬ SharedStateHashEntry.sameShape pair.1 pair.2 := by simpa using same
    obtain ⟨next, checked, marked⟩ := check_of_shape compares paired differ
    have keys : ¬ SameKeySet comparison.mask entries := fun keys => differ (keys.2 pair paired)
    rw [checked]
    constructor
    · rintro ⟨_, ⟨⟩, classified⟩
      exact Or.inr ⟨marked.mp (classified.keySet.mpr keys), pair, paired, differ⟩
    · rintro (⟨other, _⟩ | ⟨matched, _⟩)
      · exact absurd other keys
      · have here := marked.mpr matched
        exact ⟨next, rfl, iff_of_true here keys, fun unmarked => absurd here unmarked⟩

end Comparison

def ChecksExactly (group : Group) (master : MasterState) : Prop :=
  ∃ next, checkMaskSharedStateMismatches group master = .ok (true, next) ∧
    ∀ voter ∈ (master.sharedState group).entries,
      ((master.sharedState group).comparison voter.1).compares →
        Classified (master.sharedState group).mask voter.2
          ((next.sharedState group).statuses.lookup voter.1)
          ((next.sharedState group).dirtyKeys voter.1)

def SharedStateRound.Single (round : SharedStateRound) : Prop := (round.entries.map Prod.fst).Nodup

theorem mismatches_exact_iff (master : MasterState) (group : Group)
    (mask : (master.sharedState group).mask ≠ []) (single : (master.sharedState group).Single) :
    ChecksExactly group master ↔
      ∀ voter ∈ (master.sharedState group).entries,
        ((master.sharedState group).comparison voter.1).compares →
          ((master.sharedState group).comparison voter.1).Regular voter.2 := by
  have checks : checkMaskSharedStateMismatches group master =
      (do compareClients group (master.sharedState group).entries; return true : MasterM Bool) master := by
    change (if _ then _ else _ : MasterM Bool) master = _
    rw [if_neg mask]
  have meets := compareClients_meets group (master.sharedState group).entries single master
  unfold Meets at meets
  cases result : compareClients group (master.sharedState group).entries master with
  | error exit =>
    rw [result] at meets
    obtain ⟨_, voter, present, failed⟩ := meets
    refine iff_of_false ?_ fun regular => ?_
    · rintro ⟨next, checked, _⟩
      rw [checks] at checked
      simp [bind, StateT.bind, result, Except.bind] at checked
    · have compares : ((master.sharedState group).comparison voter.1).compares := by
        by_contra skipped
        simp [Comparison.check, skipped] at failed
      obtain ⟨next, checked, _⟩ :=
        (Comparison.check_classified_iff compares).mpr (regular voter present compares)
      rw [failed] at checked
      cases checked
  | ok pair =>
    obtain ⟨_, next⟩ := pair
    rw [result] at meets
    obtain ⟨own, _⟩ := meets
    have returned : checkMaskSharedStateMismatches group master = .ok (true, next) := by
      rw [checks]
      simp [bind, StateT.bind, result, Except.bind, pure, StateT.pure, Except.pure]
    constructor
    · rintro ⟨last, checked, classified⟩ voter present compares
      rw [returned] at checked
      cases checked
      refine (Comparison.check_classified_iff compares).mp ⟨_, own voter present, ?_⟩
      exact classified voter present compares
    · refine fun regular => ⟨next, returned, fun voter present compares => ?_⟩
      obtain ⟨last, checked, classified⟩ :=
        (Comparison.check_classified_iff compares).mpr (regular voter present compares)
      rw [own voter present] at checked
      cases checked
      exact classified

namespace Sample

def entry (key : String) (hash : BitVec 64) : SharedStateHashEntry :=
  ⟨key, hash, .simple, 4, .float, false⟩

def sync (client : Nat) (revision : BitVec 64) (strategy : SyncStrategy)
    (hashes : List SharedStateHashEntry) : Event :=
  .read (address client) (.syncSharedState revision strategy hashes)

def compared : MasterState :=
  MasterState.initial.setRound 0
    { SharedStateRound.empty with mask := [entry "a" 1], entries := [(0, [entry "a" 2])] }

end Sample

open Sample

theorem mismatches_exact_content :
    (compared.sharedState 0).mask ≠ [] ∧ (compared.sharedState 0).Single ∧
      ChecksExactly 0 compared := by
  have mask : (compared.sharedState 0).mask ≠ [] := by decide
  have single : (compared.sharedState 0).Single := by
    simp [SharedStateRound.Single, compared, MasterState.setRound]
  refine ⟨mask, single, (mismatches_exact_iff compared 0 mask single).mpr fun voter present _ => ?_⟩
  cases List.mem_singleton.mp present
  refine Or.inl ⟨⟨rfl, ?_⟩, rfl, ?_⟩
  · decide
  · decide

theorem shorter_list_is_read_past_its_end :
    ∃ exit, run environment (pair ++ third ++
        [sync 0 1 .enforcePopular [entry "a" 1, entry "b" 1],
          sync 1 1 .enforcePopular [entry "a" 1, entry "b" 1],
          sync 2 1 .enforcePopular [entry "a" 1]]) = .error exit ∧
      (exit.master.sharedState 0).mask ≠ [] ∧ (exit.master.sharedState 0).Single ∧
      ¬ ChecksExactly 0 exit.master := by
  have fails : (run environment (pair ++ third ++
      [sync 0 1 .enforcePopular [entry "a" 1, entry "b" 1],
        sync 1 1 .enforcePopular [entry "a" 1, entry "b" 1],
        sync 2 1 .enforcePopular [entry "a" 1]])).fails
      (fun exit => !(exit.master.sharedState 0).mask.isEmpty &&
        ((exit.master.sharedState 0).entries.map Prod.fst == [0, 1, 2]) &&
        !(checkMaskSharedStateMismatches 0 exit.master).isOk) = true := by cbv
  obtain ⟨exit, ended, check⟩ := Server.exists_of_fails fails
  simp only [Bool.and_eq_true, Bool.not_eq_true', beq_iff_eq] at check
  obtain ⟨⟨mask, voters⟩, stuck⟩ := check
  refine ⟨exit, ended, by simpa using mask, ?_, ?_⟩
  · rw [SharedStateRound.Single, voters]
    decide
  · rintro ⟨next, checked, _⟩
    rw [checked] at stuck
    cases stuck

end Pccl.Master
