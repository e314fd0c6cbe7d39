import Pccl.Master.Votes

set_option autoImplicit false

namespace Pccl.Master

open Packet

def SharedStateMismatchStatus.priority : SharedStateMismatchStatus → Int
  | .successfulMatch => 1
  | .revisionOutdated => -2
  | _ => -1

def countVote (entries : List SharedStateHashEntry) (status : Option SharedStateMismatchStatus) :
    List (List SharedStateHashEntry × ElectionStats) →
      List (List SharedStateHashEntry × ElectionStats)
  -- One more vote for a list; the last voter with a status decides the priority.
  | [] => [(entries, ⟨1, (status.map SharedStateMismatchStatus.priority).getD 0⟩)]
  | (candidate, stats) :: rest =>
    if candidate = entries then
      (candidate,
        ⟨stats.numVotes + 1, (status.map SharedStateMismatchStatus.priority).getD stats.priority⟩) ::
        rest
    else (candidate, stats) :: countVote entries status rest

def winningCandidate (stats : List (List SharedStateHashEntry × ElectionStats)) :
    Option (List SharedStateHashEntry) :=
  -- The first candidate with the most votes among those of the highest priority.
  let maxPriority := (stats.map fun candidate => candidate.2.priority).foldl max (-2147483648)
  ((stats.filter fun candidate => candidate.2.priority = maxPriority).foldl
    (fun (best : Nat × Option (List SharedStateHashEntry)) candidate =>
      if best.1 < candidate.2.numVotes then (candidate.2.numVotes, some candidate.1) else best)
    (0, none)).2

def SharedStateHashEntry.sameShape (first second : SharedStateHashEntry) : Bool :=
  first.key = second.key && first.allowContentInequality = second.allowContentInequality &&
    first.dataType = second.dataType && first.hashType = second.hashType

def compareEntries :
    (mask entries : List SharedStateHashEntry) → SharedStateMismatchStatus →
      List SharedStateHashEntry → Option (SharedStateMismatchStatus × List SharedStateHashEntry)
  -- A submitted list against the mask: the status and the entries of the mask whose content
  -- differs. `none` where the submitted list is shorter and is read past its end.
  | [], _, status, dirty => some (status, dirty)
  | _ :: _, [], _, _ => none
  | expected :: mask, entry :: entries, status, dirty =>
    if SharedStateHashEntry.sameShape expected entry then
      if expected.hash = entry.hash then compareEntries mask entries status dirty
      else compareEntries mask entries .contentHashMismatch (dirty ++ [expected])
    else
      some (.keySetMismatch, dirty)

namespace SharedStateRound

variable (round : SharedStateRound)

def oldStatus (uuid : Uuid) : SharedStateMismatchStatus :=
  (round.statuses.lookup uuid).getD .successfulMatch

def noteDirty (uuid : Uuid) (dirty : List SharedStateHashEntry) : SharedStateRound :=
  { round with
    hashes := dirty.foldl (fun hashes entry => hashes.insert entry.key entry.hash) round.hashes
    hashTypes :=
      dirty.foldl (fun hashTypes entry => hashTypes.insert entry.key entry.hashType) round.hashTypes
    dirtyKeys := Function.update round.dirtyKeys uuid
      (round.dirtyKeys uuid ++ dirty.map SharedStateHashEntry.key) }

def compareClient (uuid : Uuid) (entries : List SharedStateHashEntry) : Option SharedStateRound :=
  -- An outdated revision stays the status whatever the comparison says.
  let oldStatus := round.oldStatus uuid
  if oldStatus = .successfulMatch ∨ oldStatus = .revisionOutdated then
    match compareEntries round.mask entries .successfulMatch [] with
    | none => none
    | some (status, dirty) =>
      let round := round.noteDirty uuid dirty
      some
        { round with
          statuses := if oldStatus = .successfulMatch then round.statuses.insert uuid status
            else round.statuses }
  else
    some round

end SharedStateRound

namespace MasterState

variable (master : MasterState)

def setRound (group : Group) (round : SharedStateRound) : MasterState :=
  { master with sharedState := Function.update master.sharedState group round }

def getSharedStateSyncStrategy (uuid : Uuid) : Option SyncStrategy :=
  master.votes.sharedStateSyncStrategies.lookup uuid

def getSharedStateMismatchStatus (uuid : Uuid) : Option SharedStateMismatchStatus :=
  match master.getClientInfo uuid with
  | none => none
  | some info => (master.sharedState info.peerGroup).statuses.lookup uuid

def revisionStatus (expected revision : BitVec 64) : SharedStateMismatchStatus :=
  if expected ≠ 0 ∧ revision < expected then .revisionOutdated
  else if expected ≠ 0 ∧ expected < revision then .revisionIncrementViolation
  else .successfulMatch

end MasterState

def isNewRevisionLegal (uuid : Uuid) (revision : BitVec 64) : MasterM SharedStateMismatchStatus := do
  -- The first revision above zero sets the one that is expected of everybody else.
  let master ← get
  match master.getClientInfo uuid with
  | none => logBug .undefinedRead
  | some info =>
    let expected := master.nextSharedStateRevision info.peerGroup
    let status := MasterState.revisionStatus expected revision
    let round := master.sharedState info.peerGroup
    set { master.setRound info.peerGroup { round with statuses := round.statuses.insert uuid status } with
      nextSharedStateRevision :=
        if expected = 0 ∧ 0 < revision then
          Function.update master.nextSharedStateRevision info.peerGroup revision
        else master.nextSharedStateRevision }
    return status

def voteSharedStateMask (uuid : Uuid) (entries : List SharedStateHashEntry) : MasterM Unit :=
  -- Clients that only receive are compared with the mask but do not stand for election.
  modify fun master =>
    match master.getClientInfo uuid with
    | none => master
    | some info =>
      let round := master.sharedState info.peerGroup
      master.setRound info.peerGroup
        { round with
          maskCandidates :=
            if master.getSharedStateSyncStrategy uuid = some .rxOnly then round.maskCandidates
            else round.maskCandidates ++ [(uuid, entries)]
          entries := round.entries ++ [(uuid, entries)] }

def MasterState.voters (master : MasterState) (group : Group) : List Voter :=
  (master.sharedState group).entries.map fun (uuid, entries) =>
    { client := uuid
      entries
      registered := (master.getClientInfo uuid).any fun info => info.peerGroup = group
      strategy := master.getSharedStateSyncStrategy uuid
      status := master.getSharedStateMismatchStatus uuid }

def electSharedStateMask (environment : Environment) (group : Group) : MasterM Bool := do
  let master ← get
  let round := master.sharedState group
  let stats := round.maskCandidates.foldl
    (fun stats (uuid, entries) =>
      countVote entries (master.getSharedStateMismatchStatus uuid) stats) []
  match winningCandidate (environment.order stats) with
  | none => return false
  | some mask =>
    let election : Election := ⟨group, master.voters group, mask⟩
    set { master.setRound group { round with mask } with
      elections := master.elections ++ [election] }
    return true

def compareClients (group : Group) : List (Uuid × List SharedStateHashEntry) → MasterM Unit
  | [] => pure ()
  | (uuid, entries) :: rest => do
    let master ← get
    match (master.sharedState group).compareClient uuid entries with
    | none => logBug .undefinedRead
    | some round =>
      set (master.setRound group round)
      compareClients group rest

def checkMaskSharedStateMismatches (group : Group) : MasterM Bool := do
  let master ← get
  if (master.sharedState group).mask = [] then return false
  else
    compareClients group (master.sharedState group).entries
    return true

def MasterState.groupConsensus (master : MasterState) (group : Group) (ballot : Ballot) :
    Option Bool :=
  -- The vote of the group, whatever the phases of its clients; `none` if the vote set disagrees.
  let members := master.infos.filter fun info => info.peerGroup = group
  let voting := members.countP fun info => info.connectionState = ballot.cast
  if voting = (master.votes.voters group ballot).card then
    some (voting = members.countP fun info => info.connectionPhase = .accepted)
  else none

def syncSharedStateConsensus (group : Group) : MasterM Bool := do
  match (← get).groupConsensus group .syncSharedState with
  | none => logBug .syncVoteMismatch
  | some unanimous => return unanimous

def syncSharedStateCompleteConsensus (group : Group) : MasterM Bool := do
  match (← get).groupConsensus group .syncSharedStateComplete with
  | none => logBug .syncCompleteVoteMismatch
  | some unanimous => return unanimous

def ClientInfo.enterSync (status : Uuid → Option SharedStateMismatchStatus) (group : Group)
    (info : ClientInfo) : Option ClientInfo :=
  -- A voter with the elected content distributes it, any other fetches it.
  if info.peerGroup ≠ group then some info
  else if info.connectionState = .voteSyncSharedState then
    match status info.clientUuid with
    | none => none
    | some .keySetMismatch => none
    | some .successfulMatch => some (info.enter .distributeSharedState)
    | some _ => some (info.enter .requestSharedState)
  else if info.connectionPhase = .accepted then none
  else some info

def transitionToSharedStateSyncPhase (group : Group) : MasterM Bool := do
  let master ← get
  match master.clients.clientInfo.updateAll
      (ClientInfo.enterSync master.getSharedStateMismatchStatus group) with
  | none => return false
  | some clientInfo =>
    set { master.setClientInfo clientInfo with
      votes := master.votes.clear group .syncSharedState
      nextSharedStateRevision := Function.update master.nextSharedStateRevision group
        (master.nextSharedStateRevision group + 1) }
    return true

end Pccl.Master
