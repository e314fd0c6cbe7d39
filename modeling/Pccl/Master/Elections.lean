import Pccl.Master.Tally
import Pccl.Master.Footprints

set_option autoImplicit false

namespace Pccl.Master

open Packet Program

namespace Election

def eligible (election : Election) : List Voter :=
  election.voters.filter fun voter => voter.registered && decide (voter.strategy ≠ some .rxOnly)

def votes (election : Election) (entries : List SharedStateHashEntry) : Nat :=
  election.eligible.countP fun voter => voter.entries = entries

/-- The elected list is that of somebody eligible. If anybody eligible has the current revision, it is
the most popular one among those of such clients. -/
structure Fair (election : Election) : Prop where
  live : ∃ voter ∈ election.eligible, voter.entries = election.mask
  popular : (∃ voter ∈ election.eligible, voter.status = some .successfulMatch) →
    (∃ voter ∈ election.eligible, voter.status = some .successfulMatch ∧
      voter.entries = election.mask) ∧
    ∀ voter ∈ election.eligible, voter.status = some .successfulMatch →
      election.votes voter.entries ≤ election.votes election.mask

end Election

section Priority

variable {status : Uuid → Option SharedStateMismatchStatus}

/-- Where a list has been submitted by somebody with the current revision, the last who has submitted
it has the current revision. -/
def Firm (status : Uuid → Option SharedStateMismatchStatus) (candidates : Candidates) : Prop :=
  ∀ candidate ∈ candidates, status candidate.1 = some .successfulMatch →
    ∃ last, (candidates.filter fun other => other.2 = candidate.2).getLast? = some last ∧
      status last.1 = some .successfulMatch

theorem priorityOf_last {candidates : Candidates} {entries : List SharedStateHashEntry}
    {last : Uuid × List SharedStateHashEntry} {decided : SharedStateMismatchStatus}
    (ends : (candidates.filter fun other => other.2 = entries).getLast? = some last)
    (rated : status last.1 = some decided) : priorityOf status candidates entries = decided.priority := by
  induction candidates using List.reverseRecOn with
  | nil => simp at ends
  | append_singleton candidates final ih =>
    rw [priorityOf_concat]
    by_cases same : final.2 = entries
    · simp only [List.filter_append, same, List.filter_cons, List.filter_nil, decide_true, if_true,
        List.getLast?_concat, Option.some.injEq] at ends
      rw [if_pos same, ends, rated]
      rfl
    · simp only [List.filter_append, same, List.filter_cons, List.filter_nil, decide_false,
        Bool.false_eq_true, if_false, List.append_nil] at ends
      rw [if_neg same]
      exact ih ends

theorem priority_le_one (decided : SharedStateMismatchStatus) : decided.priority ≤ 1 := by
  cases decided <;> decide

theorem priority_eq_one {decided : SharedStateMismatchStatus} :
    decided.priority = 1 ↔ decided = .successfulMatch := by
  cases decided <;> decide

theorem priorityOf_le_one (candidates : Candidates) (entries : List SharedStateHashEntry) :
    priorityOf status candidates entries ≤ 1 ∧
      (priorityOf status candidates entries = 1 →
        ∃ candidate ∈ candidates, candidate.2 = entries ∧
          status candidate.1 = some .successfulMatch) := by
  induction candidates using List.reverseRecOn with
  | nil => simp [priorityOf]
  | append_singleton candidates last ih =>
    have earlier (highest : priorityOf status candidates entries = 1) :
        ∃ candidate ∈ candidates ++ [last], candidate.2 = entries ∧
          status candidate.1 = some .successfulMatch := by
      obtain ⟨candidate, present, found⟩ := ih.2 highest
      exact ⟨candidate, List.mem_append_left _ present, found⟩
    rw [priorityOf_concat]
    by_cases same : last.2 = entries
    · rw [if_pos same]
      cases rated : status last.1 with
      | none => exact ⟨ih.1, earlier⟩
      | some decided =>
        refine ⟨priority_le_one decided, fun highest => ?_⟩
        rw [priority_eq_one.mp highest] at rated
        exact ⟨last, by simp, same, rated⟩
    · rw [if_neg same]
      exact ⟨ih.1, earlier⟩

theorem winner_of_firm {candidates : Candidates} {mask : List SharedStateHashEntry}
    {stats : List (List SharedStateHashEntry × ElectionStats)} (firm : Firm status candidates)
    (order : stats.Perm (tally status candidates)) (wins : winningCandidate stats = some mask) :
    mask ∈ candidates.map Prod.snd ∧
      ((∃ candidate ∈ candidates, status candidate.1 = some .successfulMatch) →
        (∃ candidate ∈ candidates, status candidate.1 = some .successfulMatch ∧ candidate.2 = mask) ∧
        ∀ candidate ∈ candidates, status candidate.1 = some .successfulMatch →
          votesFor candidates candidate.2 ≤ votesFor candidates mask) := by
  obtain ⟨figures, counted, highest, most⟩ := winningCandidate_spec wins
  obtain ⟨submitted, rfl⟩ := (mem_tally candidates mask figures).mp (order.mem_iff.mp counted)
  have figuresOf {candidate : Uuid × List SharedStateHashEntry} (present : candidate ∈ candidates)
      (current : status candidate.1 = some .successfulMatch) :
      priorityOf status candidates candidate.2 = 1 ∧ (candidate.2,
        (⟨votesFor candidates candidate.2, priorityOf status candidates candidate.2⟩ : ElectionStats)) ∈
          tally status candidates := by
    obtain ⟨last, ends, rated⟩ := firm candidate present current
    exact ⟨priorityOf_last ends rated,
      (mem_tally candidates _ _).mpr ⟨List.mem_map_of_mem present, rfl⟩⟩
  refine ⟨submitted, fun ⟨first, present, current⟩ => ?_⟩
  have top : priorityOf status candidates mask = 1 := by
    obtain ⟨one, listed⟩ := figuresOf present current
    have above := highest _ (order.mem_iff.mpr listed)
    have bound := (@priorityOf_le_one status candidates mask).1
    dsimp only at above
    omega
  refine ⟨?_, fun candidate present current => ?_⟩
  · obtain ⟨candidate, present, same, rated⟩ := (priorityOf_le_one candidates mask).2 top
    exact ⟨candidate, present, rated, same⟩
  · obtain ⟨one, listed⟩ := figuresOf present current
    exact most _ (order.mem_iff.mpr listed) (one.trans top.symm)

theorem Firm.congr {candidates : Candidates} {other : Uuid → Option SharedStateMismatchStatus}
    (firm : Firm status candidates)
    (same : ∀ candidate ∈ candidates, other candidate.1 = status candidate.1) :
    Firm other candidates := by
  intro candidate present current
  rw [same candidate present] at current
  obtain ⟨last, ends, rated⟩ := firm candidate present current
  have among := List.mem_of_mem_filter (List.mem_of_getLast? ends)
  exact ⟨last, ends, (same last among).trans rated⟩

theorem Firm.concat {candidates : Candidates} (firm : Firm status candidates)
    {last : Uuid × List SharedStateHashEntry}
    (current : status last.1 ≠ some .successfulMatch →
      ∀ candidate ∈ candidates, candidate.2 = last.2 → status candidate.1 ≠ some .successfulMatch) :
    Firm status (candidates ++ [last]) := by
  intro candidate present matches_
  by_cases same : last.2 = candidate.2
  · refine ⟨last, by simp [List.filter_append, same], ?_⟩
    by_contra outdated
    rcases List.mem_append.mp present with earlier | now
    · exact current outdated candidate earlier same.symm matches_
    · rw [List.mem_singleton.mp now] at matches_
      exact outdated matches_
  · have earlier : candidate ∈ candidates := by
      rcases List.mem_append.mp present with earlier | now
      · exact earlier
      · exact absurd (congrArg Prod.snd (List.mem_singleton.mp now)).symm same
    obtain ⟨decides, ends, rated⟩ := firm candidate earlier matches_
    exact ⟨decides, by simpa [List.filter_append, same] using ends, rated⟩

end Priority

namespace SharedStateRound

/-- Nobody has submitted twice, and the candidates are those who still stand. -/
structure Tidy (issued : Uuid → Prop) (stands : Uuid → Bool) (round : SharedStateRound) : Prop where
  single : round.Single
  known : ∀ voter ∈ round.entries, issued voter.1
  rated : ∀ voter ∈ round.entries, round.statuses.lookup voter.1 ≠ none
  roll : round.maskCandidates = round.entries.filter fun voter => stands voter.1
  firm : Firm (fun uuid => round.statuses.lookup uuid) round.maskCandidates

variable {issued later : Uuid → Prop} {stands standing : Uuid → Bool} {round next : SharedStateRound}

theorem Tidy.empty : SharedStateRound.empty.Tidy issued stands :=
  ⟨List.nodup_nil, nofun, nofun, rfl, nofun⟩

theorem Tidy.mem_candidates (tidy : round.Tidy issued stands) {voter : Uuid × List SharedStateHashEntry} :
    voter ∈ round.maskCandidates ↔ voter ∈ round.entries ∧ stands voter.1 := by
  rw [tidy.roll, List.mem_filter]

theorem Tidy.congr (tidy : round.Tidy issued stands) (grows : ∀ uuid, issued uuid → later uuid)
    (lists : next.entries = round.entries ∧ next.maskCandidates = round.maskCandidates)
    (statuses : ∀ voter ∈ round.entries, next.statuses.lookup voter.1 = round.statuses.lookup voter.1)
    (same : ∀ voter ∈ round.entries, standing voter.1 = stands voter.1) : next.Tidy later standing := by
  constructor
  · rw [Single, lists.1]
    exact tidy.single
  · rw [lists.1]
    exact fun voter present => grows _ (tidy.known voter present)
  · rw [lists.1]
    intro voter present
    rw [statuses voter present]
    exact tidy.rated voter present
  · rw [lists.1, lists.2, tidy.roll]
    exact (List.filter_congr same).symm
  · rw [lists.2]
    exact tidy.firm.congr fun candidate present =>
      statuses candidate (tidy.mem_candidates.mp present).1

theorem tidy_update {rounds : Group → SharedStateRound} {standing : Group → Uuid → Bool}
    (tidy : ∀ group, (rounds group).Tidy issued (standing group)) {group : Group}
    (own : next.Tidy issued (standing group)) (other : Group) :
    (Function.update rounds group next other).Tidy issued (standing other) := by
  by_cases here : other = group
  · subst here
    rwa [Function.update_self]
  · rw [Function.update_of_ne here]
    exact tidy other

theorem Tidy.submit (tidy : round.Tidy issued stands) {uuid : Uuid} {entries : List SharedStateHashEntry}
    {status : SharedStateMismatchStatus} (given : issued uuid)
    (fresh : ∀ voter ∈ round.entries, voter.1 ≠ uuid) (rating : round.statuses.lookup uuid = some status)
    (current : stands uuid → status ≠ .successfulMatch → ∀ candidate ∈ round.maskCandidates,
      candidate.2 = entries → round.statuses.lookup candidate.1 ≠ some .successfulMatch) :
    Tidy issued stands
      { round with
        maskCandidates :=
          if stands uuid then round.maskCandidates ++ [(uuid, entries)] else round.maskCandidates
        entries := round.entries ++ [(uuid, entries)] } := by
  constructor
  · rw [Single, List.map_append, List.nodup_append]
    refine ⟨tidy.single, List.nodup_singleton _, fun earlier present last now => ?_⟩
    obtain ⟨voter, submitted, rfl⟩ := List.mem_map.mp present
    rw [List.mem_singleton.mp now]
    exact fresh voter submitted
  · intro voter present
    rcases List.mem_append.mp present with earlier | now
    · exact tidy.known voter earlier
    · rw [List.mem_singleton.mp now]
      exact given
  · intro voter present
    rcases List.mem_append.mp present with earlier | now
    · exact tidy.rated voter earlier
    · rw [List.mem_singleton.mp now, rating]
      exact Option.some_ne_none status
  · dsimp only
    rw [List.filter_append, ← tidy.roll]
    by_cases stand : stands uuid <;> simp [stand]
  · dsimp only
    split
    next stand =>
      refine tidy.firm.concat fun outdated => current stand fun same => outdated ?_
      rw [rating, same]
    next => exact tidy.firm

def verdict (mask entries : List SharedStateHashEntry) : Option SharedStateMismatchStatus :=
  (compareEntries mask entries .successfulMatch []).map Prod.fst

theorem status_of_check {comparison checked : Comparison} {entries : List SharedStateHashEntry}
    {status : SharedStateMismatchStatus} (rated : comparison.status = some status)
    (checks : comparison.check entries = some checked) :
    ∃ after, checked.status = some after ∧
      (status = .successfulMatch → verdict comparison.mask entries = some after) ∧
      (status ≠ .successfulMatch → after = status) := by
  have old : comparison.oldStatus = status := by rw [Comparison.oldStatus, rated]; rfl
  unfold Comparison.check at checks
  split at checks
  next =>
    obtain ⟨⟨result, dirty⟩, found, rfl⟩ := Option.map_eq_some_iff.mp checks
    by_cases current : status = .successfulMatch
    · exact ⟨result, by simp [old, current], fun _ => by simp [verdict, found], absurd current⟩
    · exact ⟨status, by simp [old, current, rated], fun same => absurd same current, fun _ => rfl⟩
  next skipped =>
    cases checks
    refine ⟨status, rated, fun current => ?_, fun _ => rfl⟩
    exact absurd (by simp [Comparison.compares, old, current]) skipped

theorem Tidy.compared (tidy : round.Tidy issued stands)
    (lists : next.entries = round.entries ∧ next.maskCandidates = round.maskCandidates)
    (checks : ∀ voter ∈ round.entries,
      (round.comparison voter.1).check voter.2 = some (next.comparison voter.1)) :
    next.Tidy issued stands := by
  have statuses {voter : Uuid × List SharedStateHashEntry} (present : voter ∈ round.entries) :
      ∃ status after, round.statuses.lookup voter.1 = some status ∧
        next.statuses.lookup voter.1 = some after ∧
        (status = .successfulMatch → verdict round.mask voter.2 = some after) ∧
        (status ≠ .successfulMatch → after = status) := by
    obtain ⟨status, rated⟩ := Option.ne_none_iff_exists'.mp (tidy.rated voter present)
    obtain ⟨after, found, matched, other⟩ := status_of_check rated (checks voter present)
    exact ⟨status, after, rated, found, matched, other⟩
  constructor
  · rw [Single, lists.1]
    exact tidy.single
  · rw [lists.1]
    exact tidy.known
  · rw [lists.1]
    intro voter present
    obtain ⟨_, after, _, found, _⟩ := statuses present
    rw [found]
    exact Option.some_ne_none after
  · rw [lists.1, lists.2]
    exact tidy.roll
  · rw [lists.2]
    intro candidate present current
    -- A candidate that matches has matched before, and so has the last one with its list.
    obtain ⟨status, after, rated, found, matched, other⟩ := statuses (tidy.mem_candidates.mp present).1
    cases found.symm.trans current
    have before : status = .successfulMatch := by
      by_contra differs
      exact differs (other differs).symm
    subst before
    obtain ⟨last, ends, decides⟩ := tidy.firm candidate present rated
    obtain ⟨among, same⟩ := List.mem_filter.mp (List.mem_of_getLast? ends)
    obtain ⟨earlier, now, rated, found, alike, _⟩ := statuses (tidy.mem_candidates.mp among).1
    cases rated.symm.trans decides
    have agree := (alike rfl).symm.trans ((congrArg _ (of_decide_eq_true same)).trans (matched rfl))
    cases agree
    exact ⟨last, ends, found⟩

end SharedStateRound

def MasterState.stands (master : MasterState) (group : Group) (uuid : Uuid) : Bool :=
  decide (master.viewInfo ClientInfo.peerGroup uuid = some group) &&
    decide (master.getSharedStateSyncStrategy uuid ≠ some .rxOnly)

def Environment.Issued (environment : Environment) (count : Nat) (uuid : Uuid) : Prop :=
  ∃ index, index < count ∧ environment.generateUuid index = uuid

structure Polls (environment : Environment) (master : MasterState) : Prop where
  named : ∀ uuid info, master.getClientInfo uuid = some info → info.clientUuid = uuid
  tidy : ∀ group, (master.sharedState group).Tidy (environment.Issued master.generatedUuids)
    (master.stands group)
  fair : ∀ election ∈ master.elections, election.Fair

def Polled (exit : Exit) : Prop := ∀ election ∈ exit.master.elections, election.Fair

def BeyondPolls (parts : Set Part) : Prop :=
  Part.registry ∉ parts ∧ Part.strategies ∉ parts ∧ Part.rounds ∉ parts ∧ Part.issued ∉ parts

section Frame

variable {environment : Environment} {master next : MasterState}

theorem Polls.initial : Polls environment MasterState.initial :=
  ⟨nofun, fun _ => .empty, nofun⟩

theorem named_of_registry
    (named : ∀ uuid info, master.getClientInfo uuid = some info → info.clientUuid = uuid)
    (registry : Part.registry.view next = Part.registry.view master) (uuid : Uuid) (info : ClientInfo)
    (found : next.getClientInfo uuid = some info) : info.clientUuid = uuid := by
  have infos := congrFun (congrArg (fun view : Part.registry.View => view.2.2) registry) uuid
  simp only [Part.view, MasterState.viewInfo, found, Option.map_some] at infos
  obtain ⟨old, before, same⟩ := Option.map_eq_some_iff.mp infos.symm
  exact (congrArg Prod.fst same).symm.trans (named uuid old before)

theorem groups_of_registry (registry : Part.registry.view next = Part.registry.view master) :
    next.viewInfo ClientInfo.peerGroup = master.viewInfo ClientInfo.peerGroup := by
  have infos := congrArg (fun view : Part.registry.View => view.2.2) registry
  funext uuid
  have own := congrArg (Option.map fun view : Uuid × SocketAddress × ClientVariablePorts × Group =>
    view.2.2.2) (congrFun infos uuid)
  simpa [Part.view, MasterState.viewInfo, Function.comp_def] using own

theorem Polls.group_of_participant (polls : Polls environment master) {group : Group} {uuid : Uuid}
    (member : uuid ∈ master.participants group) :
    master.viewInfo ClientInfo.peerGroup uuid = some group := by
  obtain ⟨info, present, rfl⟩ := List.mem_map.mp member
  obtain ⟨present, takesPart⟩ := List.mem_filter.mp present
  obtain ⟨key, found⟩ := (master.mem_infos info).mp present
  have found : master.getClientInfo key = some info := found
  have here : info.peerGroup = group := by
    simpa using (Bool.and_eq_true_iff.mp takesPart).2
  rw [polls.named key info found, MasterState.viewInfo, found, Option.map_some, here]

theorem stands_of_views (registry : Part.registry.view next = Part.registry.view master)
    (strategies : Part.strategies.view next = Part.strategies.view master) :
    next.stands = master.stands := by
  funext group uuid
  have declared : next.getSharedStateSyncStrategy uuid = master.getSharedStateSyncStrategy uuid :=
    congrArg (fun table : Table Uuid SyncStrategy => table.lookup uuid) strategies
  rw [MasterState.stands, groups_of_registry registry, declared]
  rfl

theorem Polls.within (polls : Polls environment master) {parts : Set Part} (beyond : BeyondPolls parts)
    (within : Within parts master next) : Polls environment next := by
  have rounds := within .rounds beyond.2.2.1
  have sharedState : next.sharedState = master.sharedState := congrArg Prod.fst rounds
  have elections : next.elections = master.elections := congrArg Prod.snd rounds
  have issued : next.generatedUuids = master.generatedUuids := within .issued beyond.2.2.2
  have stands := stands_of_views (within .registry beyond.1) (within .strategies beyond.2.1)
  refine ⟨named_of_registry polls.named (within .registry beyond.1), ?_, ?_⟩
  · rw [sharedState, issued, stands]
    exact polls.tidy
  · rw [elections]
    exact polls.fair

def KeepsPolls (environment : Environment) {A : Type} (program : MasterM A) : Prop :=
  Preserves (Polls environment) Polled program

theorem Touches.polls {A : Type} {parts : Set Part} {program : MasterM A} (touches : Touches parts program)
    (beyond : BeyondPolls parts) : KeepsPolls environment program := by
  intro master polls
  refine (touches master).imp (fun _ next within => polls.within beyond within) fun exit left => ?_
  have elections : exit.master.elections = master.elections :=
    congrArg Prod.snd (left.1 .rounds beyond.2.2.1)
  intro election present
  rw [elections] at present
  exact polls.fair election present

end Frame

section Election

variable {environment : Environment} {master : MasterState}

def MasterState.voterOf (master : MasterState) (group : Group) (voter : Uuid × List SharedStateHashEntry) :
    Voter where
  client := voter.1
  entries := voter.2
  registered := (master.getClientInfo voter.1).any fun info => info.peerGroup = group
  strategy := master.getSharedStateSyncStrategy voter.1
  status := master.getSharedStateMismatchStatus voter.1

theorem eligible_eq (polls : Polls environment master) (group : Group) (mask : List SharedStateHashEntry) :
    Election.eligible ⟨group, master.voters group, mask⟩ =
      (master.sharedState group).maskCandidates.map (master.voterOf group) := by
  have voters : master.voters group = (master.sharedState group).entries.map (master.voterOf group) := rfl
  rw [Election.eligible, voters, List.filter_map, (polls.tidy group).roll]
  have registered (found : Option ClientInfo) : (found.any fun info => info.peerGroup = group) =
      decide (found.map ClientInfo.peerGroup = some group) := by cases found <;> simp
  congr 1
  refine List.filter_congr fun voter _ => ?_
  simp only [Function.comp_apply, MasterState.voterOf, MasterState.stands, MasterState.viewInfo]
  rw [registered]
  rfl

theorem status_of_candidate (polls : Polls environment master) {group : Group}
    {candidate : Uuid × List SharedStateHashEntry}
    (present : candidate ∈ (master.sharedState group).maskCandidates) :
    master.getSharedStateMismatchStatus candidate.1 =
      (master.sharedState group).statuses.lookup candidate.1 := by
  have stands := ((polls.tidy group).mem_candidates.mp present).2
  have place := of_decide_eq_true (Bool.and_eq_true_iff.mp stands).1
  obtain ⟨info, found, same⟩ := Option.map_eq_some_iff.mp place
  rw [MasterState.getSharedStateMismatchStatus, found, ← same]

theorem fair_of_wins (polls : Polls environment master) {group : Group} {mask : List SharedStateHashEntry}
    {stats : List (List SharedStateHashEntry × ElectionStats)}
    (order : stats.Perm (tally master.getSharedStateMismatchStatus
      (master.sharedState group).maskCandidates))
    (wins : winningCandidate stats = some mask) :
    Election.Fair ⟨group, master.voters group, mask⟩ := by
  have firm := (polls.tidy group).firm.congr fun candidate present => status_of_candidate polls present
  obtain ⟨submitted, popular⟩ := winner_of_firm firm order wins
  have votes (list : List SharedStateHashEntry) :
      Election.votes ⟨group, master.voters group, mask⟩ list =
        votesFor (master.sharedState group).maskCandidates list := by
    rw [Election.votes, eligible_eq polls, List.countP_map]
    rfl
  constructor
  · rw [eligible_eq polls]
    obtain ⟨candidate, present, same⟩ := List.mem_map.mp submitted
    exact ⟨_, List.mem_map_of_mem present, same⟩
  · rw [eligible_eq polls]
    rintro ⟨_, among, current⟩
    obtain ⟨first, present, rfl⟩ := List.mem_map.mp among
    obtain ⟨⟨winner, stood, matched, same⟩, most⟩ := popular ⟨first, present, current⟩
    refine ⟨⟨_, List.mem_map_of_mem stood, matched, same⟩, fun voter among current => ?_⟩
    obtain ⟨candidate, present, rfl⟩ := List.mem_map.mp among
    rw [votes, votes]
    exact most candidate present current

theorem electSharedStateMask_polls (group : Group) :
    KeepsPolls environment (electSharedStateMask environment group) := by
  refine .read fun master polls => ?_
  dsimp only
  split
  next => exact .pure _
  next mask wins =>
    have fair := fair_of_wins polls (environment.permutes _) wins
    refine .bind (.set ⟨polls.named, fun other => ?_, fun election present => ?_⟩) fun _ => .pure _
    · refine SharedStateRound.tidy_update polls.tidy ?_ other
      exact (polls.tidy group).congr (fun _ => id) ⟨rfl, rfl⟩ (fun _ _ => rfl) fun _ _ => rfl
    · rcases List.mem_append.mp present with earlier | now
      · exact polls.fair election earlier
      · rw [List.mem_singleton.mp now]
        exact fair

theorem compareClients_lists (group : Group) (voters : List (Uuid × List SharedStateHashEntry))
    (master : MasterState) :
    (compareClients group voters).Meets master
      (fun _ next => (∀ other, other ≠ group → next.sharedState other = master.sharedState other) ∧
        (next.sharedState group).entries = (master.sharedState group).entries ∧
        (next.sharedState group).maskCandidates = (master.sharedState group).maskCandidates ∧
        next.elections = master.elections)
      fun exit => exit.master.elections = master.elections := by
  induction voters generalizing master with
  | nil => exact ⟨fun _ _ => rfl, rfl, rfl, rfl⟩
  | cons voter voters ih =>
    refine .read ?_
    cases compared : (master.sharedState group).compareClient voter.1 voter.2 with
    | none => exact rfl
    | some round =>
      have lists : round.entries = (master.sharedState group).entries ∧
          round.maskCandidates = (master.sharedState group).maskCandidates := by
        unfold SharedStateRound.compareClient at compared
        dsimp only at compared
        split at compared
        · split at compared
          · cases compared
          · cases compared
            exact ⟨rfl, rfl⟩
        · cases compared
          exact ⟨rfl, rfl⟩
      refine .write ((ih _).imp (fun _ next kept => ?_) fun _ kept => kept)
      obtain ⟨others, entries, candidates, elections⟩ := kept
      have placed : (master.setRound group round).sharedState group = round := Function.update_self _ _ _
      rw [placed] at entries candidates
      refine ⟨fun other apart => ?_, entries.trans lists.1, candidates.trans lists.2, elections⟩
      rw [others other apart]
      exact Function.update_of_ne apart _ _

theorem checkMaskSharedStateMismatches_polls (group : Group) :
    KeepsPolls environment (checkMaskSharedStateMismatches group) := by
  intro master polls
  refine .read ((meets_ite _ _ _).mpr ⟨fun _ => polls, fun _ => ?_⟩)
  have tidy := polls.tidy group
  refine Meets.bind (((compareClients_meets group _ tidy.single master).and
    ((compareClients_lists group _ master).and (Touches.compareClients group _ master))).imp
      (fun _ next all => ?_) fun exit all => ?_) fun _ _ kept => kept
  · obtain ⟨⟨checks, _⟩, ⟨others, entries, candidates, elections⟩, within⟩ := all
    have issued : next.generatedUuids = master.generatedUuids := within .issued (by simp)
    have stands := stands_of_views (within .registry (by simp)) (within .strategies (by simp))
    refine ⟨named_of_registry polls.named (within .registry (by simp)), ?_, ?_⟩
    · intro other
      rw [issued, stands]
      by_cases here : other = group
      · subst here
        exact tidy.compared ⟨entries, candidates⟩ checks
      · rw [others other here]
        exact polls.tidy other
    · rw [elections]
      exact polls.fair
  · intro election present
    rw [all.2.1] at present
    exact polls.fair election present

theorem checkSyncSharedStateConsensus_polls (group : Group) :
    KeepsPolls environment (checkSyncSharedStateConsensus environment group) := by
  have counts : KeepsPolls environment (syncSharedStateConsensus group) :=
    (Touches.groupVote group .syncSharedState rfl).polls (by simp [BeyondPolls])
  have kicks : KeepsPolls environment (kickKeySetMismatch group) :=
    (Touches.kickKeySetMismatch group).polls (by simp [BeyondPolls])
  have enters : KeepsPolls environment (enterSharedStateSync group) :=
    (Touches.enterSharedStateSync group).polls (by simp [BeyondPolls])
  refine .bind ((@Touches.anyClient ∅ _).polls (by simp [BeyondPolls])) fun waiting =>
    .ite (fun _ => .bind counts fun unanimous => .ite (fun _ => ?_) fun _ => .pure _) fun _ => .pure _
  refine .bind (electSharedStateMask_polls group) fun elected => .ite (fun _ => ?_) fun _ => .pure _
  refine .bind (checkMaskSharedStateMismatches_polls group) fun compared =>
    .ite (fun _ => .bind kicks fun kicked => ?_) fun _ => .pure _
  exact .bind (.when enters) fun _ => .pure _

theorem endSharedStateSyncPhase_polls (group : Group) :
    KeepsPolls environment (endSharedStateSyncPhase group) := by
  intro master polls
  have ends : (endSharedStateSyncPhase group).Meets master
      (fun _ next => next = master ∨ next.elections = master.elections ∧
        next.sharedState = Function.update master.sharedState group .empty ∧
        ∀ uuid ∉ master.participants group,
          next.getSharedStateSyncStrategy uuid = master.getSharedStateSyncStrategy uuid)
      fun exit => exit.master.elections = master.elections := by
    refine .read ?_
    cases master.clients.clientInfo.updateAll _ with
    | none => exact .inl rfl
    | some infos =>
      refine .inr ⟨rfl, rfl, fun uuid absent => ?_⟩
      exact (Table.lookup_foldl_erase _ _ uuid).trans (if_neg absent)
  refine (ends.and (Touches.endSharedStateSyncPhase group master)).imp (fun _ next both => ?_)
    fun exit both election present => ?_
  · obtain ⟨rfl | ⟨elections, rounds, strategies⟩, within⟩ := both
    · exact polls
    have registry := within .registry (by simp)
    have issued : next.generatedUuids = master.generatedUuids := within .issued (by simp)
    refine ⟨named_of_registry polls.named registry, fun other => ?_, by rw [elections]; exact polls.fair⟩
    rw [rounds, issued]
    by_cases apart : other = group
    · subst apart
      rw [Function.update_self]
      exact .empty
    · rw [Function.update_of_ne apart]
      refine (polls.tidy other).congr (fun _ => id) ⟨rfl, rfl⟩ (fun _ _ => rfl) fun voter _ => ?_
      rw [MasterState.stands, MasterState.stands, groups_of_registry registry]
      -- A strategy is forgotten with the round of the group that the client belongs to.
      by_cases member : voter.1 ∈ master.participants group
      · have place := polls.group_of_participant member
        simp [place, Ne.symm apart]
      · rw [strategies voter.1 member]
  · rw [both.1] at present
    exact polls.fair election present

theorem checkSyncSharedStateCompleteConsensus_polls (group : Group) :
    KeepsPolls environment (checkSyncSharedStateCompleteConsensus group) := by
  have counts : KeepsPolls environment (syncSharedStateCompleteConsensus group) :=
    (Touches.groupVote group .syncSharedStateComplete rfl).polls (by simp [BeyondPolls])
  have tells : Touches {.told .other} (forEachClient fun uuid address info =>
      when (info.takesPart group) do
        if info.connectionState = .idle then sendPacket uuid address .syncSharedStateComplete
        else logBug .endSharedStateSyncState) :=
    .forEachClient fun _ _ _ => .when (.ite (fun _ => .sendPacket _ _ _) fun _ => .logBug nofun)
  refine .bind counts fun unanimous => .when (.bind (endSharedStateSyncPhase_polls group) fun ended => ?_)
  refine .ite (fun _ => tells.polls (by simp [BeyondPolls])) fun _ => .stop fun _ polls => polls.fair

end Election

section Electorate

variable {environment : Environment} {master : MasterState}

theorem registerClient_polls {address : SocketAddress} {uuid : Uuid} (polls : Polls environment master)
    (fresh : ∀ group, ∀ voter ∈ (master.sharedState group).entries, voter.1 ≠ uuid)
    (ports : ClientVariablePorts) (group : Group) :
    (registerClient address ports group uuid).Meets master (fun _ next => Polls environment next) Polled := by
  refine .read ((meets_ite _ _ _).mpr ⟨fun _ => polls, fun free => ?_⟩)
  refine .write ?_
  generalize clients : Clients.mk _ _ _ = registered
  generalize reached : ({ master with clients := registered } : MasterState) = middle
  have infoOf (other : Uuid) : middle.getClientInfo other =
      if other = uuid then some ⟨uuid, .registered, .idle, false, ∅, address, ports, group⟩
      else master.getClientInfo other := by
    rw [← reached, ← clients]
    exact Table.lookup_insert_iff _ _ _ _
  have joined : Polls environment middle := by
    refine ⟨fun other info found => ?_, fun place => ?_, by rw [← reached]; exact polls.fair⟩
    · rw [infoOf] at found
      split at found
      next same =>
        cases found
        exact same.symm
      next => exact polls.named other info found
    · have same : middle.sharedState = master.sharedState ∧
          middle.generatedUuids = master.generatedUuids := by rw [← reached]; exact ⟨rfl, rfl⟩
      rw [same.1, same.2]
      refine (polls.tidy place).congr (fun _ => id) ⟨rfl, rfl⟩ (fun _ _ => rfl) fun voter present => ?_
      have info : middle.getClientInfo voter.1 = master.getClientInfo voter.1 := by
        rw [infoOf, if_neg (fresh place voter present)]
      have strategy : middle.getSharedStateSyncStrategy = master.getSharedStateSyncStrategy := by
        rw [← reached]
        rfl
      rw [MasterState.stands, MasterState.stands, MasterState.viewInfo, MasterState.viewInfo, info, strategy]
  refine (meets_ite _ _ _).mpr ⟨fun _ => ?_, fun _ => joined⟩
  exact (Touches.acceptFirstClient uuid _).polls (by simp [BeyondPolls]) middle joined

theorem unregisterClient_polls {address : SocketAddress} (polls : Polls environment master)
    (absent : ∀ uuid info, master.findClientUUID address = some uuid → master.getClientInfo uuid = some info →
      ∀ candidate ∈ (master.sharedState info.peerGroup).maskCandidates, candidate.1 ≠ uuid) :
    (unregisterClient address).Meets master (fun _ next => Polls environment next) Polled := by
  refine .read ?_
  cases known : master.findClientUUID address with
  | none => exact polls
  | some uuid =>
    refine (meets_ite _ _ _).mpr ⟨fun _ => ?_, fun _ => polls.fair⟩
    cases found : master.getClientInfo uuid with
    | none => exact polls.fair
    | some info =>
      refine .write ?_
      generalize reached : MasterState.mk _ _ _ _ _ _ _ _ _ _ _ _ _ = middle
      have infoOf (other : Uuid) : middle.getClientInfo other =
          if other = uuid then none else master.getClientInfo other := by
        rw [← reached]
        exact Table.lookup_erase_iff master.clients.clientInfo uuid other
      have strategyOf (other : Uuid) : middle.getSharedStateSyncStrategy other =
          if other = uuid then none else master.getSharedStateSyncStrategy other := by
        rw [← reached]
        exact Table.lookup_erase_iff master.votes.sharedStateSyncStrategies uuid other
      have left : Polls environment middle := by
        refine ⟨fun other value present => ?_, fun place => ?_, by rw [← reached]; exact polls.fair⟩
        · rw [infoOf] at present
          split at present
          next => cases present
          next => exact polls.named other value present
        · have same : middle.sharedState = master.sharedState ∧
              middle.generatedUuids = master.generatedUuids := by rw [← reached]; exact ⟨rfl, rfl⟩
          rw [same.1, same.2]
          refine (polls.tidy place).congr (fun _ => id) ⟨rfl, rfl⟩ (fun _ _ => rfl) fun voter present => ?_
          by_cases leaves : voter.1 = uuid
          · -- Whoever stands is a candidate in the group that it is registered in.
            have stood : master.stands place voter.1 = false := by
              rw [Bool.eq_false_iff]
              intro stands
              have candidate := (polls.tidy place).mem_candidates.mpr ⟨present, stands⟩
              have here := of_decide_eq_true (Bool.and_eq_true_iff.mp stands).1
              rw [MasterState.viewInfo, leaves, found, Option.map_some, Option.some.injEq] at here
              subst here
              exact absent uuid info known found voter candidate leaves
            rw [stood, MasterState.stands, MasterState.viewInfo, infoOf, if_pos leaves]
            rfl
          · rw [MasterState.stands, MasterState.stands, MasterState.viewInfo, MasterState.viewInfo, infoOf,
              strategyOf, if_neg leaves, if_neg leaves]
      exact Meets.bind ((Touches.forgetBandwidth info uuid).polls (by simp [BeyondPolls]) middle left)
        fun _ _ kept => kept

/-- The client has submitted nothing in the round, and if it is outdated but stands for election,
nobody has submitted its list whose revision is the current one. -/
def MasterState.admits (master : MasterState) (uuid : Uuid) (info : ClientInfo) (revision : BitVec 64)
    (strategy : SyncStrategy) (hashes : List SharedStateHashEntry) : Bool :=
  let round := master.sharedState info.peerGroup
  round.entries.all (fun voter => voter.1 ≠ uuid) &&
    (strategy = .rxOnly ||
      MasterState.revisionStatus (master.nextSharedStateRevision info.peerGroup) revision ≠
        .revisionOutdated ||
      round.maskCandidates.all fun candidate =>
        candidate.2 ≠ hashes || round.statuses.lookup candidate.1 ≠ some .successfulMatch)

theorem isNewRevisionLegal_polls {uuid : Uuid} {info : ClientInfo} (polls : Polls environment master)
    (found : master.getClientInfo uuid = some info)
    (fresh : ∀ voter ∈ (master.sharedState info.peerGroup).entries, voter.1 ≠ uuid) (revision : BitVec 64) :
    (isNewRevisionLegal uuid revision).Meets master
      (fun status next => Polls environment next ∧ Within {.rounds, .revisions} master next ∧
        status = MasterState.revisionStatus (master.nextSharedStateRevision info.peerGroup) revision ∧
        next.sharedState = Function.update master.sharedState info.peerGroup
          { master.sharedState info.peerGroup with
            statuses := (master.sharedState info.peerGroup).statuses.insert uuid status })
      Polled := by
  have touches := Touches.isNewRevisionLegal uuid revision master
  refine .read ?_
  have touches := (meets_bind _ _).mp touches
  rw [meets_get] at touches
  rw [found] at touches ⊢
  refine ⟨⟨polls.named, SharedStateRound.tidy_update polls.tidy ?_, polls.fair⟩, touches, rfl, rfl⟩
  refine (polls.tidy info.peerGroup).congr (fun _ => id) ⟨rfl, rfl⟩ (fun voter present => ?_) fun _ _ => rfl
  exact AList.lookup_insert_ne (fresh voter present)

theorem voteSyncSharedState_polls {uuid : Uuid} {place : Group} (polls : Polls environment master)
    (here : master.viewInfo ClientInfo.peerGroup uuid = some place)
    (fresh : ∀ voter ∈ (master.sharedState place).entries, voter.1 ≠ uuid) (strategy : SyncStrategy) :
    (voteSyncSharedState uuid strategy).Meets master
      (fun counted next => Polls environment next ∧ Within {.sync, .strategies} master next ∧
        (counted → next.getSharedStateSyncStrategy uuid = some strategy)) Polled := by
  have declares : (voteSyncSharedState uuid strategy).Meets master
      (fun counted next =>
        (∀ other, other ≠ uuid →
          next.getSharedStateSyncStrategy other = master.getSharedStateSyncStrategy other) ∧
        (counted → next.getSharedStateSyncStrategy uuid = some strategy)) fun _ => True := by
    refine Meets.bind ((Touches.vote .syncSharedState uuid master).imp (fun _ _ within => within)
      fun _ _ => trivial) fun counted middle within => ?_
    have same (other : Uuid) :
        middle.getSharedStateSyncStrategy other = master.getSharedStateSyncStrategy other :=
      congrArg (fun table : Table Uuid SyncStrategy => table.lookup other)
        (within .strategies (by simp [Ballot.parts]))
    refine .read ((meets_ite _ _ _).mpr ⟨fun _ => ?_, fun refused => ?_⟩)
    · refine (meets_ite _ _ _).mpr ⟨fun _ => trivial, fun _ => ⟨fun other apart => ?_, fun _ => ?_⟩⟩
      · rw [← same other]
        exact AList.lookup_insert_ne apart
      · exact AList.lookup_insert _
    · exact ⟨fun other _ => same other, fun counts => by cases counts⟩
  refine (declares.and (Touches.voteSyncSharedState uuid strategy master)).imp (fun counted next both => ?_)
    fun exit both election present => ?_
  · obtain ⟨⟨others, own⟩, within⟩ := both
    have rounds := within .rounds (by simp)
    have sharedState : next.sharedState = master.sharedState := congrArg Prod.fst rounds
    have elections : next.elections = master.elections := congrArg Prod.snd rounds
    have issued : next.generatedUuids = master.generatedUuids := within .issued (by simp)
    have registry := within .registry (by simp)
    refine ⟨⟨named_of_registry polls.named registry, fun group => ?_, by rw [elections]; exact polls.fair⟩,
      within, own⟩
    rw [sharedState, issued]
    refine (polls.tidy group).congr (fun _ => id) ⟨rfl, rfl⟩ (fun _ _ => rfl) fun voter present => ?_
    rw [MasterState.stands, MasterState.stands, groups_of_registry registry]
    by_cases sender : voter.1 = uuid
    · have elsewhere : master.viewInfo ClientInfo.peerGroup voter.1 ≠ some group := by
        rw [sender, here]
        rintro ⟨⟩
        exact fresh voter present sender
      simp [elsewhere]
    · rw [others voter.1 sender]
  · rw [show exit.master.elections = master.elections from congrArg Prod.snd (both.2.1 .rounds (by simp))]
      at present
    exact polls.fair election present

theorem voteSharedStateMask_polls {uuid : Uuid} {info : ClientInfo} {hashes : List SharedStateHashEntry}
    {status : SharedStateMismatchStatus} (polls : Polls environment master)
    (found : master.getClientInfo uuid = some info)
    (given : environment.Issued master.generatedUuids uuid)
    (fresh : ∀ voter ∈ (master.sharedState info.peerGroup).entries, voter.1 ≠ uuid)
    (rating : (master.sharedState info.peerGroup).statuses.lookup uuid = some status)
    (current : master.getSharedStateSyncStrategy uuid ≠ some .rxOnly → status ≠ .successfulMatch →
      ∀ candidate ∈ (master.sharedState info.peerGroup).maskCandidates, candidate.2 = hashes →
        (master.sharedState info.peerGroup).statuses.lookup candidate.1 ≠ some .successfulMatch) :
    (voteSharedStateMask uuid hashes).Meets master (fun _ next => Polls environment next) Polled := by
  refine meets_modify _ |>.mpr ?_
  rw [found]
  have stands : master.stands info.peerGroup uuid =
      decide (master.getSharedStateSyncStrategy uuid ≠ some .rxOnly) := by
    rw [MasterState.stands, MasterState.viewInfo, found]
    simp
  refine ⟨polls.named, SharedStateRound.tidy_update polls.tidy ?_, polls.fair⟩
  have submitted := (polls.tidy info.peerGroup).submit given fresh rating fun stand =>
    current (by simpa [stands] using stand)
  rw [stands] at submitted
  by_cases receives : master.getSharedStateSyncStrategy uuid = some .rxOnly
  · simpa [receives] using submitted
  · simpa [receives] using submitted

end Electorate

section Events

variable {environment : Environment} {master : MasterState}

/-- Nobody leaves who stands for election, and whoever submits a list is admitted. -/
def MasterState.keepsPolls (event : Event) (master : MasterState) : Bool :=
  match event with
  | .disconnect address => (master.findClientUUID address).all fun uuid =>
      (master.getClientInfo uuid).all fun info =>
        (master.sharedState info.peerGroup).maskCandidates.all fun candidate => candidate.1 ≠ uuid
  | .read address (.syncSharedState revision strategy hashes) =>
      (master.findClientUUID address).all fun uuid =>
        (master.getClientInfo uuid).all fun info => master.admits uuid info revision strategy hashes
  | _ => true

theorem handleSyncSharedState_polls {address : SocketAddress} {revision : BitVec 64}
    {strategy : SyncStrategy} {hashes : List SharedStateHashEntry} (valid : master.core.Valid environment)
    (earlier : Polls environment master)
    (keeps : master.keepsPolls (.read address (.syncSharedState revision strategy hashes))) :
    (handleSyncSharedState environment address revision strategy hashes).Meets master
      (fun _ next => Polls environment next) Polled := by
  have kicks : KeepsPolls environment (kickClient address) :=
    (Touches.kickClient address).polls (by simp [BeyondPolls])
  refine .read ?_
  cases known : master.findClientUUID address with
  | none => exact kicks master earlier
  | some uuid =>
    refine .read ?_
    cases found : master.getClientInfo uuid with
    | none => exact earlier
    | some info =>
      simp only [MasterState.keepsPolls, known, found, Option.all_some, MasterState.admits,
        Bool.and_eq_true, List.all_eq_true, decide_eq_true_eq] at keeps
      obtain ⟨fresh, joins⟩ := keeps
      refine Meets.bind (isNewRevisionLegal_polls earlier found fresh revision) fun status middle legal => ?_
      obtain ⟨polls, within, rated, rounds⟩ := legal
      refine (meets_ite _ _ _).mpr ⟨fun _ => kicks middle polls, fun accepted => ?_⟩
      have own : middle.sharedState info.peerGroup = _ :=
        (congrFun rounds info.peerGroup).trans (Function.update_self _ _ _)
      have here : middle.viewInfo ClientInfo.peerGroup uuid = some info.peerGroup := by
        rw [groups_of_registry (within .registry (by simp)), MasterState.viewInfo, found]
        rfl
      refine Meets.bind (voteSyncSharedState_polls polls here (by rw [own]; exact fresh) strategy)
        fun counted next voted => ?_
      obtain ⟨polls, declares, strategy_eq⟩ := voted
      refine (meets_ite _ _ _).mpr ⟨fun counts => ?_, fun _ => kicks next polls⟩
      have later : next.sharedState info.peerGroup = middle.sharedState info.peerGroup :=
        congrFun (congrArg Prod.fst (declares .rounds (by simp))) _
      have issued : next.generatedUuids = master.generatedUuids :=
        (declares .issued (by simp)).trans (within .issued (by simp))
      have place : next.viewInfo ClientInfo.peerGroup uuid = some info.peerGroup := by
        rw [groups_of_registry (declares .registry (by simp)), here]
      obtain ⟨now, registered, same⟩ := Option.map_eq_some_iff.mp place
      have submits : (voteSharedStateMask uuid hashes).Meets next
          (fun _ last => Polls environment last) Polled := by
        refine @voteSharedStateMask_polls _ _ uuid now hashes status polls registered ?_ ?_ ?_ ?_
        · rw [issued]
          exact valid.registry.issued uuid (.inl (Option.ne_none_iff_exists'.mpr ⟨info, found⟩))
        · rw [same, later, own]
          exact fresh
        · rw [same, later, own]
          exact AList.lookup_insert _
        · rw [same, later, own, strategy_eq counts]
          intro stands outdated candidate present list
          have submitted : candidate ∈ (master.sharedState info.peerGroup).entries :=
            ((earlier.tidy info.peerGroup).mem_candidates.mp present).1
          have behind : MasterState.revisionStatus (master.nextSharedStateRevision info.peerGroup) revision =
              .revisionOutdated := by
            rw [rated] at outdated accepted
            unfold MasterState.revisionStatus at outdated accepted ⊢
            split_ifs at outdated accepted ⊢ <;> simp_all
          have receives : strategy ≠ .rxOnly := fun receives => stands (congrArg some receives)
          simp only [receives, behind, decide_false, ne_eq, not_true_eq_false, Bool.false_or,
            List.all_eq_true, Bool.or_eq_true, decide_eq_true_eq] at joins
          change AList.lookup _ (AList.insert _ _ _) ≠ _
          rw [AList.lookup_insert_ne (fresh candidate submitted)]
          exact (joins candidate present).resolve_left (not_not.mpr list)
      refine Meets.bind submits fun _ last kept => ?_
      refine Preserves.bind (checkSyncSharedStateConsensus_polls info.peerGroup)
        (fun resolved => ?_) last kept
      exact .when ((Touches.kickGroup info.peerGroup).polls (by simp [BeyondPolls]))

theorem recheckVotes_polls (group : Group) : KeepsPolls environment (recheckVotes environment group) := by
  have drops : Touches ∅ (modify fun master => { master with peerDropped := true } : MasterM Unit) :=
    .modify fun master part _ => by cases part <;> rfl
  refine .bind (Touches.checkEstablishP2PConnectionConsensus.polls (by simp [BeyondPolls])) fun _ => ?_
  refine .bind (drops.polls (by simp [BeyondPolls])) fun _ => ?_
  refine .bind (Touches.checkP2PConnectionsEstablished.polls (by simp [BeyondPolls])) fun _ => ?_
  refine .bind (Touches.checkQueryPeersPendingConsensus.polls (by simp [BeyondPolls])) fun _ => ?_
  refine .bind (checkSyncSharedStateConsensus_polls group) fun _ => ?_
  refine .bind (checkSyncSharedStateCompleteConsensus_polls group) fun _ => ?_
  exact .read fun _ _ => .forEach fun tag =>
    (Touches.recheckOperation group tag).polls (by simp [BeyondPolls])

theorem handle_polls (valid : master.core.Valid environment) (polls : Polls environment master)
    {event : Event} (keeps : master.keepsPolls event) :
    (handle environment event).Meets master (fun _ next => Polls environment next) Polled := by
  have usual (beyond : BeyondPolls event.parts) : KeepsPolls environment (handle environment event) :=
    (handle_touches environment event).polls beyond
  cases event with
  | background group => exact usual (by simp [BeyondPolls, Event.parts]) master polls
  | disconnect address =>
    refine .read ?_
    cases known : master.findClientUUID address with
    | none => exact polls
    | some uuid =>
      dsimp only
      cases found : master.getClientInfo uuid with
      | none => exact polls.fair
      | some info =>
        refine Meets.bind (unregisterClient_polls polls fun _ _ again lookup => ?_)
          fun removed middle kept => ?_
        · cases known.symm.trans again
          cases found.symm.trans lookup
          simpa [MasterState.keepsPolls, known, found] using keeps
        · exact Preserves.when (recheckVotes_polls info.peerGroup) middle kept
  | read address packet =>
    cases packet with
    | requestSessionRegistration p2p sharedState benchmark group =>
      refine .read ((meets_ite _ _ _).mpr ⟨fun _ => ?_, fun _ => ?_⟩)
      · exact (Touches.kickClient address).polls (by simp [BeyondPolls]) master polls
      · refine .write ?_
        have counted : Polls environment { master with generatedUuids := master.generatedUuids + 1 } := by
          refine ⟨polls.named, fun place => ?_, polls.fair⟩
          refine (polls.tidy place).congr ?_ ⟨rfl, rfl⟩ (fun _ _ => rfl) fun _ _ => rfl
          rintro uuid ⟨index, below, same⟩
          exact ⟨index, Nat.lt_succ_of_lt below, same⟩
        refine Meets.bind (registerClient_polls counted (fun place voter present same => ?_) _ group)
          fun accepted middle kept => ?_
        · obtain ⟨index, below, again⟩ := (polls.tidy place).known voter present
          exact absurd (environment.distinct (again.trans same)) (Nat.ne_of_lt below)
        · have rest (uuid : Uuid) : KeepsPolls environment (do
              sendPacket uuid address (.sessionRegistrationResponse accepted uuid)
              let master ← get
              if master.clients.clientUuids.size = 1 then sendP2PConnectionInformation true
              else checkEstablishP2PConnectionConsensus) := by
            refine .bind ((Touches.sendPacket _ _ _).polls (by simp [BeyondPolls])) fun _ =>
              .read fun _ _ => ?_
            refine .ite (fun _ => ?_) fun _ => ?_
            · exact (Touches.sendP2PConnectionInformation true).polls (by simp [BeyondPolls])
            · exact Touches.checkEstablishP2PConnectionConsensus.polls (by simp [BeyondPolls])
          exact rest _ middle kept
    | syncSharedState revision strategy hashes => exact handleSyncSharedState_polls valid polls keeps
    | distSharedStateComplete =>
      have kicks : KeepsPolls environment (kickClient address) :=
        (Touches.kickClient address).polls (by simp [BeyondPolls])
      refine .read ?_
      cases master.findClientUUID address with
      | none => exact kicks master polls
      | some uuid =>
        refine Preserves.bind ((Touches.vote .syncSharedStateComplete uuid).polls
          (by simp [BeyondPolls, Ballot.parts])) (fun counted => Preserves.ite (fun _ => ?_) fun _ => kicks)
          master polls
        refine .read fun master _ => ?_
        cases master.getClientInfo uuid with
        | none => exact .pure _
        | some info => exact checkSyncSharedStateCompleteConsensus_polls info.peerGroup
    | _ => exact usual (by simp [BeyondPolls, Event.parts]) master polls

end Events

theorem elections_fair (environment : Environment) (events : List Event)
    (lawful : Lawful environment (fun event master => master.keepsPolls event) events) :
    (run environment events).Holds (fun master => ∀ election ∈ master.elections, election.Fair) Polled := by
  have holds : (run environment events).Holds
      (fun master => master.core.Valid environment ∧ Polls environment master) Polled := by
    refine run_holds ⟨.initial environment, .initial⟩ (fun event master holds keeps => ?_) events lawful
    refine ((handle_served holds.1 event).and (handle_polls holds.1 holds.2 keeps)).imp
      (fun _ next both => ⟨both.1.valid holds.1, both.2⟩) fun exit both => both.2
  exact holds.imp (fun master both => both.2.fair) fun _ polled => polled

namespace Sample

def agree : List Event :=
  pair ++ [sync 0 5 .enforcePopular [entry "a" 1], sync 1 5 .enforcePopular [entry "a" 1]]

def departed : List Event :=
  pair ++ [sync 0 5 .enforcePopular [entry "a" 1], leave 0, sync 1 3 .enforcePopular [entry "a" 2]]

end Sample

open Sample

theorem elections_fair_pair :
    ∃ master, run environment agree = .ok master ∧ master.elections ≠ [] ∧
      ∀ election ∈ master.elections, election.Fair := by
  have lawful : Lawful environment (fun event master => master.keepsPolls event) agree :=
    (lawful_iff _ _ _).mp (by cbv)
  have passes : (run environment agree).passes
      (fun master => !master.elections.isEmpty) = true := by cbv
  have fair := elections_fair environment agree lawful
  obtain ⟨master, reached, elected⟩ := Server.exists_of_passes passes
  rw [reached] at fair
  cases fair with
  | serves fair => exact ⟨master, reached, by simpa using elected, fair⟩

theorem departed_client_elected :
    ∃ master, run environment departed = .ok master ∧
      ∃ election ∈ master.elections, ¬ election.Fair := by
  have passes : (run environment departed).passes (fun master =>
      master.elections.any fun election =>
        election.eligible.all fun voter => voter.entries ≠ election.mask) = true := by cbv
  obtain ⟨master, reached, check⟩ := Server.exists_of_passes passes
  obtain ⟨election, present, others⟩ := List.any_eq_true.mp check
  refine ⟨master, reached, election, present, fun fair => ?_⟩
  obtain ⟨voter, eligible, same⟩ := fair.live
  exact of_decide_eq_true (List.all_eq_true.mp others voter eligible) same

end Pccl.Master
