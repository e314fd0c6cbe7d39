import Pccl.Master.Mismatches

set_option autoImplicit false

namespace Pccl.Master

open Packet Program

namespace MasterState

variable (master : MasterState)

def sender (address : SocketAddress) : Option ClientInfo :=
  (master.findClientUUID address).bind master.getClientInfo

def rejects (address : SocketAddress) (revision : BitVec 64) : Bool :=
  -- The request gets its sender kicked: nobody, not accepted, busy, or too far ahead.
  match master.findClientUUID address with
  | none => true
  | some uuid =>
    match master.getClientInfo uuid with
    | none => false
    | some info =>
      info.connectionPhase ≠ .accepted || info.connectionState ≠ .idle ||
        revisionStatus (master.nextSharedStateRevision info.peerGroup) revision =
          .revisionIncrementViolation

def setsRevision (address : SocketAddress) (revision : BitVec 64) : Bool :=
  match master.sender address with
  | none => false
  | some info => master.nextSharedStateRevision info.peerGroup = 0 && 0 < revision

end MasterState

/-- The bookkeeping of the groups is the same for everybody but the sender. -/
structure Untouched (sender : Option Uuid) (master next : MasterState) : Prop where
  revisions : next.nextSharedStateRevision = master.nextSharedStateRevision
  candidates : ∀ group,
    (next.sharedState group).maskCandidates = (master.sharedState group).maskCandidates
  entries : ∀ group, (next.sharedState group).entries = (master.sharedState group).entries
  statuses : ∀ group other, sender ≠ some other →
    (next.sharedState group).statuses.lookup other = (master.sharedState group).statuses.lookup other

theorem untouched_kicked (sender : Option Uuid) (master next : MasterState)
    (kicked : List SocketAddress) :
    Untouched sender master { next with kicked } ↔ Untouched sender master next :=
  ⟨fun same => ⟨same.revisions, same.candidates, same.entries, same.statuses⟩,
    fun same => ⟨same.revisions, same.candidates, same.entries, same.statuses⟩⟩

namespace MasterState

variable (master : MasterState)

def noteRevision (uuid : Uuid) (group : Group) (revision : BitVec 64) : MasterState :=
  { master.setRound group
      { master.sharedState group with
        statuses := (master.sharedState group).statuses.insert uuid
          (revisionStatus (master.nextSharedStateRevision group) revision) } with
    nextSharedStateRevision :=
      if master.nextSharedStateRevision group = 0 ∧ 0 < revision then
        Function.update master.nextSharedStateRevision group revision
      else master.nextSharedStateRevision }

theorem untouched_noteRevision (uuid : Uuid) (group : Group) (revision : BitVec 64) :
    Untouched (some uuid) master (master.noteRevision uuid group revision) ↔
      ¬ (master.nextSharedStateRevision group = 0 ∧ 0 < revision) := by
  constructor
  · rintro untouched ⟨unset, positive⟩
    have revisions := congrFun untouched.revisions group
    rw [noteRevision] at revisions
    simp only [unset, positive, and_self, if_true, Function.update_self] at revisions
    rw [revisions] at positive
    exact absurd positive (by decide)
  · intro kept
    have rounds (other : Group) : (master.noteRevision uuid group revision).sharedState other =
        Function.update master.sharedState group _ other := rfl
    refine ⟨if_neg kept, fun other => ?_, fun other => ?_, fun other client different => ?_⟩
    · rw [rounds, Function.update_apply]
      split <;> simp_all
    · rw [rounds, Function.update_apply]
      split <;> simp_all
    · have apart : client ≠ uuid := fun same => different (congrArg some same.symm)
      rw [rounds, Function.update_apply]
      split
      · next here => simp [here, apart]
      · rfl

end MasterState

theorem isNewRevisionLegal_meets {master : MasterState} {uuid : Uuid} {info : ClientInfo}
    (found : master.getClientInfo uuid = some info) (revision : BitVec 64)
    {post : SharedStateMismatchStatus → MasterState → Prop} {fail : Exit → Prop} :
    (isNewRevisionLegal uuid revision).Meets master post fail ↔
      post (MasterState.revisionStatus (master.nextSharedStateRevision info.peerGroup) revision)
        (master.noteRevision uuid info.peerGroup revision) := by
  rw [isNewRevisionLegal, meets_bind, meets_get, found]
  exact Iff.rfl

theorem voteSyncSharedState_refused {master : MasterState} {uuid : Uuid} {info : ClientInfo}
    (found : master.getClientInfo uuid = some info)
    (refused : ¬ (info.connectionPhase = .accepted ∧ info.connectionState = .idle))
    (strategy : SyncStrategy) : voteSyncSharedState uuid strategy master = .ok (false, master) := by
  have vote : vote .syncSharedState uuid master = .ok (false, master) := by
    change (match master.getClientInfo uuid with | none => _ | some info => _ : MasterM Bool) master = _
    rw [found]
    change (if _ then _ else _ : MasterM Bool) master = _
    rw [if_neg (by simpa [Ballot.admits] using refused)]
    rfl
  simp [voteSyncSharedState, bind, StateT.bind, vote, Except.bind, get, getThe, MonadStateOf.get,
    StateT.get, pure, StateT.pure, Except.pure]

theorem rejected_meets (environment : Environment) {master : MasterState} {address : SocketAddress}
    {revision : BitVec 64} (rejects : master.rejects address revision) (strategy : SyncStrategy)
    (hashes : List SharedStateHashEntry) :
    (handleSyncSharedState environment address revision strategy hashes).Meets master
      (fun _ next => next.kicked = master.kicked ++ [address] ∧
        (Untouched (master.findClientUUID address) master next ↔
          ¬ master.setsRevision address revision))
      fun _ => False := by
  refine .read ?_
  unfold MasterState.rejects at rejects
  simp only [MasterState.setsRevision, MasterState.sender]
  cases known : master.findClientUUID address with
  | none =>
    refine ⟨rfl, iff_of_true ?_ (by simp)⟩
    exact ⟨rfl, fun _ => rfl, fun _ => rfl, fun _ _ _ => rfl⟩
  | some uuid =>
    rw [known] at rejects
    dsimp only at rejects ⊢
    refine .read ?_
    cases found : master.getClientInfo uuid with
    | none => simp [found] at rejects
    | some info =>
      rw [found] at rejects
      simp only [Option.bind_some, found]
      refine (meets_bind _ _).mpr ((isNewRevisionLegal_meets found revision).mpr ?_)
      have untouched := master.untouched_noteRevision uuid info.peerGroup revision
      generalize noted : master.noteRevision uuid info.peerGroup revision = middle at untouched ⊢
      have kicks : (kickClient address).Meets middle
          (fun _ next => next.kicked = master.kicked ++ [address] ∧
            (Untouched (some uuid) master next ↔
              ¬ (decide (master.nextSharedStateRevision info.peerGroup = 0) &&
                decide (0 < revision)) = true)) fun _ => False := by
        refine (meets_modify _).mpr ⟨by rw [← noted]; rfl, ?_⟩
        rw [untouched_kicked, untouched]
        simp
      refine (meets_ite _ _ _).mpr ⟨fun _ => kicks, fun legal => ?_⟩
      have refused : ¬ (info.connectionPhase = .accepted ∧ info.connectionState = .idle) := by
        rintro ⟨accepted, idle⟩
        refine legal (Or.inl ?_)
        simpa [accepted, idle] using rejects
      have present : middle.getClientInfo uuid = some info := by
        rw [← noted]
        exact found
      have vote := voteSyncSharedState_refused present refused strategy
      refine (meets_bind _ _).mpr ?_
      rw [Meets, vote]
      exact kicks

theorem rejected_request_untouched_iff (environment : Environment) (master : MasterState)
    (address : SocketAddress) (revision : BitVec 64) (strategy : SyncStrategy)
    (hashes : List SharedStateHashEntry) (rejected : master.rejects address revision) :
    (∃ next, handle environment (.read address (.syncSharedState revision strategy hashes)) master =
        .ok ((), next) ∧ next.kicked = master.kicked ++ [address] ∧
        Untouched (master.findClientUUID address) master next) ↔
      ¬ master.setsRevision address revision := by
  obtain ⟨_, next, handled, kicked, iff⟩ := (rejected_meets environment rejected strategy hashes).returns
  have same : handle environment (.read address (.syncSharedState revision strategy hashes)) master =
      .ok ((), next) := handled
  rw [same, ← iff]
  constructor
  · rintro ⟨_, ⟨⟩, _, untouched⟩
    exact untouched
  · exact fun untouched => ⟨next, rfl, kicked, untouched⟩

open Sample

theorem rejected_request_untouched_newcomer :
    ∃ master, run environment [join 0 0, report 0 true, join 1 0] =
        .ok master ∧ master.rejects (address 1) 0 ∧
      ∃ next, handle environment (sync 1 0 .enforcePopular []) master =
        .ok ((), next) ∧ next.kicked = master.kicked ++ [address 1] ∧
        Untouched (master.findClientUUID (address 1)) master next := by
  have passes : (run environment
      [join 0 0, report 0 true, join 1 0]).passes
      (fun master => master.rejects (address 1) 0 &&
        !master.setsRevision (address 1) 0) = true := by cbv
  obtain ⟨master, reached, check⟩ := Server.exists_of_passes passes
  rw [Bool.and_eq_true] at check
  refine ⟨master, reached, check.1, ?_⟩
  exact (rejected_request_untouched_iff environment master (address 1) 0 .enforcePopular
    [] check.1).mpr (by simpa using check.2)

theorem rejected_request_sets_revision :
    ∃ before after,
      run environment [join 0 0, report 0 true, join 1 0] = .ok before ∧
      run environment [join 0 0, report 0 true, join 1 0,
        sync 1 5 .enforcePopular []] = .ok after ∧
      before.rejects (address 1) 5 ∧ after.kicked = before.kicked ++ [address 1] ∧
      ¬ Untouched (before.findClientUUID (address 1)) before after := by
  have both : Server.both (fun before after =>
        before.rejects (address 1) 5 &&
          (after.kicked == before.kicked ++ [address 1]) &&
          (before.nextSharedStateRevision 0 == 0) && after.nextSharedStateRevision 0 == 5)
      (run environment [join 0 0, report 0 true, join 1 0])
      (run environment [join 0 0, report 0 true, join 1 0,
        sync 1 5 .enforcePopular []]) = true := by cbv
  obtain ⟨before, after, reached, later, check⟩ := Server.exists_of_both both
  simp only [Bool.and_eq_true, beq_iff_eq] at check
  obtain ⟨⟨⟨rejects, kicked⟩, unset⟩, five⟩ := check
  refine ⟨before, after, reached, later, rejects, kicked, fun untouched => ?_⟩
  have same := congrFun untouched.revisions 0
  rw [unset, five] at same
  cases same

end Pccl.Master
