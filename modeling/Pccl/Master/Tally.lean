import Pccl.Master.Mismatches

set_option autoImplicit false

namespace Pccl.Master

open Packet

abbrev Candidates := List (Uuid × List SharedStateHashEntry)

section Count

variable (status : Uuid → Option SharedStateMismatchStatus)

def tally (candidates : Candidates) : List (List SharedStateHashEntry × ElectionStats) :=
  candidates.foldl (fun stats (uuid, entries) => countVote entries (status uuid) stats) []

def votesFor (candidates : Candidates) (entries : List SharedStateHashEntry) : Nat :=
  candidates.countP fun candidate => candidate.2 = entries

def priorityOf (candidates : Candidates) (entries : List SharedStateHashEntry) : Int :=
  -- The last voter for the list that has a status decides.
  candidates.foldl
    (fun priority candidate =>
      if candidate.2 = entries then
        ((status candidate.1).map SharedStateMismatchStatus.priority).getD priority
      else priority) 0

variable {status}

theorem priorityOf_concat (candidates : Candidates) (last : Uuid × List SharedStateHashEntry)
    (entries : List SharedStateHashEntry) :
    priorityOf status (candidates ++ [last]) entries =
      if last.2 = entries then
        ((status last.1).map SharedStateMismatchStatus.priority).getD
          (priorityOf status candidates entries)
      else priorityOf status candidates entries := by
  rw [priorityOf, List.foldl_append]
  rfl

theorem countVote_lists (entries : List SharedStateHashEntry) (vote : Option SharedStateMismatchStatus)
    (stats : List (List SharedStateHashEntry × ElectionStats)) :
    (countVote entries vote stats).map Prod.fst =
      if entries ∈ stats.map Prod.fst then stats.map Prod.fst
      else stats.map Prod.fst ++ [entries] := by
  induction stats with
  | nil => rfl
  | cons first stats ih =>
    by_cases same : first.1 = entries
    · simp [countVote, same]
    · have other : entries ≠ first.1 := Ne.symm same
      simp only [countVote, same, if_false, List.map_cons, ih, List.mem_cons, other, false_or]
      split <;> simp

theorem mem_countVote {entries : List SharedStateHashEntry} {vote : Option SharedStateMismatchStatus}
    {stats : List (List SharedStateHashEntry × ElectionStats)} (distinct : (stats.map Prod.fst).Nodup)
    (list : List SharedStateHashEntry) (figures : ElectionStats) :
    (list, figures) ∈ countVote entries vote stats ↔
      if list = entries then
        (∃ old, (entries, old) ∈ stats ∧ figures =
          ⟨old.numVotes + 1, (vote.map SharedStateMismatchStatus.priority).getD old.priority⟩) ∨
        entries ∉ stats.map Prod.fst ∧
          figures = ⟨1, (vote.map SharedStateMismatchStatus.priority).getD 0⟩
      else (list, figures) ∈ stats := by
  induction stats with
  | nil => by_cases same : list = entries <;> simp [countVote, same]
  | cons first stats ih =>
    obtain ⟨candidate, old⟩ := first
    obtain ⟨fresh, distinct⟩ := List.nodup_cons.mp distinct
    have absent (figures : ElectionStats) : (candidate, figures) ∉ stats :=
      fun present => fresh (List.mem_map.mpr ⟨_, present, rfl⟩)
    by_cases here : candidate = entries
    · subst here
      by_cases same : list = candidate
      · subst same
        simp [countVote, absent]
      · simp [countVote, same]
    · have other : entries ≠ candidate := Ne.symm here
      simp only [countVote, here, if_false, List.mem_cons, ih distinct, Prod.mk.injEq, List.map_cons,
        other, false_and, false_or]
      by_cases same : list = entries
      · simp [same, other]
      · simp [same]

theorem tally_concat (candidates : Candidates) (last : Uuid × List SharedStateHashEntry) :
    tally status (candidates ++ [last]) = countVote last.2 (status last.1) (tally status candidates) := by
  rw [tally, List.foldl_append]
  rfl

theorem mem_tally_lists (candidates : Candidates) :
    ((tally status candidates).map Prod.fst).Nodup ∧
      ∀ list, list ∈ (tally status candidates).map Prod.fst ↔ list ∈ candidates.map Prod.snd := by
  induction candidates using List.reverseRecOn with
  | nil => simp [tally]
  | append_singleton candidates last ih =>
    rw [tally_concat, countVote_lists]
    split
    · next present =>
      refine ⟨ih.1, fun list => ?_⟩
      rw [ih.2, List.map_append, List.mem_append]
      refine ⟨Or.inl, fun either => either.elim id fun same => ?_⟩
      rw [List.mem_singleton.mp same]
      exact (ih.2 _).mp present
    · next absent =>
      refine ⟨List.nodup_append.mpr ⟨ih.1, by simp, ?_⟩, fun list => ?_⟩
      · intro list present other same equal
        rw [List.mem_singleton.mp same] at equal
        exact absent (equal ▸ present)
      · simp only [List.mem_append, ih.2, List.map_append, List.map_cons, List.map_nil]

theorem mem_tally (candidates : Candidates) (list : List SharedStateHashEntry) (figures : ElectionStats) :
    (list, figures) ∈ tally status candidates ↔
      list ∈ candidates.map Prod.snd ∧
        figures = ⟨votesFor candidates list, priorityOf status candidates list⟩ := by
  induction candidates using List.reverseRecOn generalizing list figures with
  | nil => simp [tally]
  | append_singleton candidates last ih =>
    have lists := @mem_tally_lists status candidates
    rw [tally_concat, mem_countVote lists.1, priorityOf_concat, votesFor, List.countP_append, ← votesFor]
    by_cases same : list = last.2
    · subst same
      have none (absent : last.2 ∉ candidates.map Prod.snd) :
          votesFor candidates last.2 = 0 ∧ priorityOf status candidates last.2 = 0 := by
        have apart (candidate : Uuid × List SharedStateHashEntry) (present : candidate ∈ candidates) :
            candidate.2 ≠ last.2 := fun same => absent (same ▸ List.mem_map_of_mem present)
        refine ⟨List.countP_eq_zero.mpr (by simpa using apart), ?_⟩
        have steady (rest : Candidates) (fewer : rest ⊆ candidates) :
            priorityOf status rest last.2 = 0 := by
          induction rest with
          | nil => rfl
          | cons first rest ih =>
            rw [priorityOf, List.foldl_cons, if_neg (apart first (fewer List.mem_cons_self))]
            exact ih (List.subset_of_cons_subset fewer)
        exact steady candidates (List.Subset.refl _)
      simp only [if_true, ih, lists.2]
      by_cases present : last.2 ∈ candidates.map Prod.snd
      · simp [present]
      · simp [present, none present]
    · have other : last.2 ≠ list := Ne.symm same
      simp [same, other, ih]

end Count

section Winner

theorem foldl_best (start : Nat × Option (List SharedStateHashEntry))
    (stats : List (List SharedStateHashEntry × ElectionStats))
    {best : Nat × Option (List SharedStateHashEntry)}
    (found : best = stats.foldl (fun best candidate =>
      if best.1 < candidate.2.numVotes then (candidate.2.numVotes, some candidate.1) else best) start) :
    start.1 ≤ best.1 ∧ (∀ candidate ∈ stats, candidate.2.numVotes ≤ best.1) ∧
      (best = start ∨ ∃ candidate ∈ stats, best = (candidate.2.numVotes, some candidate.1)) := by
  induction stats generalizing start with
  | nil => simp [found]
  | cons first stats ih =>
    rw [List.foldl_cons] at found
    by_cases more : start.1 < first.2.numVotes
    · rw [if_pos more] at found
      obtain ⟨above, all, origin⟩ := ih _ found
      refine ⟨(Nat.le_of_lt more).trans above, ?_, Or.inr ?_⟩
      · rintro candidate (_ | ⟨_, present⟩)
        · exact above
        · exact all candidate present
      · rcases origin with same | ⟨candidate, present, same⟩
        · exact ⟨first, List.mem_cons_self, same⟩
        · exact ⟨candidate, List.mem_cons_of_mem _ present, same⟩
    · rw [if_neg more] at found
      obtain ⟨above, all, origin⟩ := ih _ found
      refine ⟨above, ?_, origin.imp id fun ⟨candidate, present, same⟩ =>
        ⟨candidate, List.mem_cons_of_mem _ present, same⟩⟩
      rintro candidate (_ | ⟨_, present⟩)
      · exact (Nat.le_of_not_lt more).trans above
      · exact all candidate present

theorem winningCandidate_spec {stats : List (List SharedStateHashEntry × ElectionStats)}
    {mask : List SharedStateHashEntry} (wins : winningCandidate stats = some mask) :
    ∃ figures, (mask, figures) ∈ stats ∧
      (∀ candidate ∈ stats, candidate.2.priority ≤ figures.priority) ∧
      ∀ candidate ∈ stats, candidate.2.priority = figures.priority →
        candidate.2.numVotes ≤ figures.numVotes := by
  unfold winningCandidate at wins
  dsimp only at wins
  generalize highest : (stats.map fun candidate => candidate.2.priority).foldl max (-2147483648) = top
    at wins
  generalize found : List.foldl _ _ _ = best at wins
  obtain ⟨_, most, origin⟩ := foldl_best _ _ found.symm
  rcases origin with rfl | ⟨candidate, present, rfl⟩
  · cases wins
  · cases wins
    obtain ⟨present, first⟩ := List.mem_filter.mp present
    have first : candidate.2.priority = top := of_decide_eq_true first
    refine ⟨candidate.2, present, fun other here => ?_, fun other here same => ?_⟩
    · rw [first, ← highest]
      exact (List.max?_eq_some_iff.mp List.max?_cons').2 _
        (List.mem_cons_of_mem _ (List.mem_map_of_mem here))
    · exact most other (List.mem_filter.mpr ⟨here, by simpa [first] using same⟩)

end Winner

end Pccl.Master
