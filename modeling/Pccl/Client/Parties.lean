import Pccl.Client.Handshake

set_option autoImplicit false

namespace Pccl.Client

open Packet Connections

namespace Stage

def current : Stage → Option Uuid
  | .dialling peer _ | .awaiting peer _ _ => some peer.peerUuid
  | _ => none

def remaining : Stage → List PeerInfo
  | .connecting peers | .dialling _ peers | .awaiting _ _ peers => peers
  | _ => []

def working : Stage → Bool
  | .voted | .reported | .confirmed => false
  | _ => true

def closed : Stage → Bool
  | .closingRx _ | .voted | .reported | .confirmed => true
  | _ => false

theorem at_rest {stage : Stage} (resting : stage.working = false) :
    stage.current = none ∧ stage.remaining = [] ∧ stage.closed = true := by
  cases stage <;> first | exact ⟨rfl, rfl, rfl⟩ | cases resting

end Stage

namespace Party

def failing (party : Party) : List Uuid :=
  match party.stage with
  | .connecting _ | .dialling _ _ | .awaiting _ _ _ => []
  | .closingTx failed | .closingRx failed => failed
  | .voted | .reported | .confirmed => party.failed

def renewed (party : Party) : Prop := ∃ peers, party.inbox = some (.info false peers)

/-- The main thread with its outgoing pools, for a plan that has been sent to it. -/
structure Sound (size : Nat) (plan : List PeerInfo) (party : Party) : Prop where
  busy : party.stage.working = true → party.listed = plan ∧ party.inbox = none
  complete : ∀ uuid pool, party.connections.p2pConnectionsTx.lookup uuid = some pool →
    lists plan uuid = true → uuid ∉ party.failing → party.stage.current ≠ some uuid → pool.length = size
  growing : ∀ uuid, party.stage.current = some uuid →
    ∃ pool, party.connections.p2pConnectionsTx.lookup uuid = some pool ∧ pool.length ≤ size
  room : ∀ peer connection peers, party.stage = .awaiting peer connection peers →
    ∀ pool, party.connections.p2pConnectionsTx.lookup peer.peerUuid = some pool → pool.length < size
  covered : party.failing = [] → ¬ party.renewed → ∀ uuid, lists plan uuid = true →
    lists party.stage.remaining uuid = true ∨ uuid ∈ party.connections.p2pConnectionsTx
  tidy : party.stage.closed = true → ¬ party.renewed →
    ∀ uuid ∈ party.connections.p2pConnectionsTx, lists plan uuid = true
  told : ∀ unchanged peers, party.inbox = some (.info unchanged peers) → party.stage = .voted ∧
    (unchanged = true → party.failed = []) ∧
    (unchanged = false → peers = plan ∧ ∀ uuid ∈ party.failed, lists plan uuid = false)

theorem failing_of_resting {party : Party} (resting : party.stage.working = false) :
    party.failing = party.failed := by
  unfold failing
  cases stage : party.stage <;> first | rfl | (rw [stage] at resting; cases resting)

def view (party : Party) :
    Table Uuid (List TxSocket) × Stage × Option Notice × List PeerInfo × List Uuid :=
  (party.connections.p2pConnectionsTx, party.stage, party.inbox, party.listed, party.failed)

theorem Sound.congr {size : Nat} {plan : List PeerInfo} {party other : Party}
    (sound : party.Sound size plan) (same : other.view = party.view) : other.Sound size plan := by
  obtain ⟨connections, stage, inbox, listed, failed⟩ := party
  obtain ⟨connections', stage', inbox', listed', failed'⟩ := other
  simp only [view, Prod.mk.injEq] at same
  obtain ⟨tx, rfl, rfl, rfl, rfl⟩ := same
  obtain ⟨busy, complete, growing, room, covered, tidy, told⟩ := sound
  simp only [← tx] at complete growing room covered tidy
  exact ⟨busy, complete, growing, room, covered, tidy, told⟩

variable {size : Nat} {plan : List PeerInfo} {party : Party}

theorem Sound.receive_unchanged (sound : party.Sound size plan) {peers : List PeerInfo}
    (told : party.inbox = some (.info true peers)) :
    Sound size plan { party with inbox := none, stage := .reported, failed := [] } := by
  obtain ⟨voted, none, _⟩ := sound.told true peers told
  have failing : party.failing = [] := by simp [Party.failing, voted, none rfl]
  have fresh : ¬ party.renewed := by
    rintro ⟨others, renewed⟩
    rw [told] at renewed
    cases renewed
  refine ⟨nofun, fun uuid pool found listed _ _ => ?_, nofun, nofun, fun _ _ uuid listed => ?_,
    fun _ _ => ?_, nofun⟩
  · exact sound.complete uuid pool found listed (by simp [failing]) (by simp [voted, Stage.current])
  · refine .inr ((sound.covered failing fresh uuid listed).resolve_left ?_)
    simp [voted, Stage.remaining, lists]
  · exact sound.tidy (by simp [voted, Stage.closed]) fresh

theorem Sound.receive_changed (sound : party.Sound size plan) {peers : List PeerInfo}
    (told : party.inbox = some (.info false peers)) :
    Sound size plan { party with inbox := none, listed := peers, stage := .connecting peers } := by
  obtain ⟨voted, _, changed⟩ := sound.told false peers told
  obtain ⟨rfl, heeded⟩ := changed rfl
  refine ⟨fun _ => ⟨rfl, rfl⟩, fun uuid pool found listed _ _ => ?_, nofun, nofun,
    fun _ _ uuid listed => .inl listed, nofun, nofun⟩
  refine sound.complete uuid pool found listed (fun failed => ?_) (by simp [voted, Stage.current])
  simp only [Party.failing, voted] at failed
  rw [heeded uuid failed] at listed
  cases listed

theorem Sound.finish (sound : party.Sound size plan) (connecting : party.stage = .connecting []) :
    Sound size plan { party with stage := .closingTx [] } := by
  obtain ⟨listed, inbox⟩ := sound.busy (by simp [connecting, Stage.working])
  refine ⟨fun _ => ⟨listed, inbox⟩, fun uuid pool found listed _ _ => ?_, nofun, nofun,
    fun _ _ uuid listed => ?_, nofun, fun _ _ told => ?_⟩
  · exact sound.complete uuid pool found listed (by simp [Party.failing, connecting])
      (by simp [connecting, Stage.current])
  · have fresh : ¬ party.renewed := by simp [Party.renewed, inbox]
    have covered := sound.covered (by simp [Party.failing, connecting]) fresh uuid listed
    exact .inr (covered.resolve_left (by simp [connecting, Stage.remaining, lists]))
  · rw [inbox] at told
    cases told

theorem Sound.skip (sound : party.Sound size plan) {peer : PeerInfo} {peers : List PeerInfo}
    (connecting : party.stage = .connecting (peer :: peers))
    (present : peer.peerUuid ∈ party.connections.p2pConnectionsTx) :
    Sound size plan { party with stage := .connecting peers } := by
  obtain ⟨listed, inbox⟩ := sound.busy (by simp [connecting, Stage.working])
  refine ⟨fun _ => ⟨listed, inbox⟩, fun uuid pool found listed _ _ => ?_, nofun, nofun,
    fun _ _ uuid listed => ?_, nofun, fun _ _ told => ?_⟩
  · exact sound.complete uuid pool found listed (by simp [Party.failing, connecting])
      (by simp [connecting, Stage.current])
  · have fresh : ¬ party.renewed := by simp [Party.renewed, inbox]
    rcases sound.covered (by simp [Party.failing, connecting]) fresh uuid listed with later | there
    · simp only [connecting, Stage.remaining, lists, List.any_cons, Bool.or_eq_true,
        decide_eq_true_eq] at later
      rcases later with rfl | later
      · exact .inr present
      · exact .inl later
    · exact .inr there
  · rw [inbox] at told
    cases told

def withPool (party : Party) (uuid : Uuid) (sockets : List TxSocket) (stage : Stage) : Party :=
  { party with
    stage
    connections :=
      { party.connections with
        p2pConnectionsTx := party.connections.p2pConnectionsTx.insert uuid sockets } }

theorem lookup_withPool (party : Party) (uuid other : Uuid) (sockets : List TxSocket) (stage : Stage) :
    (party.withPool uuid sockets stage).connections.p2pConnectionsTx.lookup other =
      if other = uuid then some sockets else party.connections.p2pConnectionsTx.lookup other :=
  Table.lookup_insert_iff _ _ _ _

theorem Sound.dialling (sound : party.Sound size plan) (peer : PeerInfo) (peers : List PeerInfo)
    {sockets : List TxSocket} (room : sockets.length ≤ size) (working : party.stage.working = true)
    (fine : party.failing = [])
    (only : ∀ uuid, party.stage.current = some uuid → uuid = peer.peerUuid)
    (remaining : ∀ uuid, lists party.stage.remaining uuid = true →
      uuid = peer.peerUuid ∨ lists peers uuid = true) :
    Sound size plan (party.withPool peer.peerUuid sockets (.dialling peer peers)) := by
  obtain ⟨listed, inbox⟩ := sound.busy working
  have fresh : ¬ party.renewed := by simp [Party.renewed, inbox]
  refine ⟨fun _ => ⟨listed, inbox⟩, fun uuid pool found listed _ other => ?_, fun uuid current => ?_,
    nofun, fun _ _ uuid listed => ?_, nofun, fun _ _ told => ?_⟩
  · have different : uuid ≠ peer.peerUuid := by
      rintro rfl
      exact other rfl
    rw [lookup_withPool, if_neg different] at found
    exact sound.complete uuid pool found listed (by simp [fine]) fun current => different (only uuid current)
  · obtain rfl := Option.some.inj current
    exact ⟨sockets, by rw [lookup_withPool, if_pos rfl], room⟩
  · have inserted : uuid ∈ (party.withPool peer.peerUuid sockets
        (.dialling peer peers)).connections.p2pConnectionsTx ↔
        uuid = peer.peerUuid ∨ uuid ∈ party.connections.p2pConnectionsTx := AList.mem_insert _
    rw [inserted]
    rcases sound.covered fine fresh uuid listed with later | there
    · rcases remaining uuid later with same | rest
      · exact .inr (.inl same)
      · exact .inl rest
    · exact .inr (.inr there)
  · have none : party.inbox = some _ := told
    rw [inbox] at none
    cases none

theorem Sound.dialled (sound : party.Sound size plan) {peer : PeerInfo} {peers : List PeerInfo}
    (dialling : party.stage = .dialling peer peers) (connection : Nat)
    (room : ((party.connections.p2pConnectionsTx.lookup peer.peerUuid).getD []).length < size) :
    Sound size plan { party with stage := .awaiting peer connection peers } := by
  obtain ⟨listed, inbox⟩ := sound.busy (by simp [dialling, Stage.working])
  refine ⟨fun _ => ⟨listed, inbox⟩, fun uuid pool found listed _ other => ?_, fun uuid current => ?_,
    fun other id rest same pool found => ?_, fun _ fresh => ?_, nofun, fun _ _ told => ?_⟩
  · exact sound.complete uuid pool found listed (by simp [Party.failing, dialling])
      (by simpa [dialling, Stage.current] using other)
  · exact sound.growing uuid (by simpa [dialling, Stage.current] using current)
  · cases same
    rw [found] at room
    exact room
  · have covered := sound.covered (by simp [Party.failing, dialling]) fresh
    simpa [dialling, Stage.remaining] using covered
  · rw [inbox] at told
    cases told

theorem Sound.registered (sound : party.Sound size plan) {peer : PeerInfo} {peers : List PeerInfo}
    (dialling : party.stage = .dialling peer peers)
    (full : ¬ ((party.connections.p2pConnectionsTx.lookup peer.peerUuid).getD []).length < size)
    {connections : Connections} (same : connections.p2pConnectionsTx = party.connections.p2pConnectionsTx) :
    Sound size plan { party with connections, stage := .connecting peers } := by
  obtain ⟨listed, inbox⟩ := sound.busy (by simp [dialling, Stage.working])
  refine ⟨fun _ => ⟨listed, inbox⟩, fun uuid pool found listed _ other => ?_, nofun, nofun,
    fun _ fresh => ?_, nofun, fun _ _ told => ?_⟩
  · dsimp only at found
    rw [same] at found
    by_cases first : uuid = peer.peerUuid
    · -- The pool has grown up to its size.
      subst first
      obtain ⟨grown, there, bound⟩ := sound.growing peer.peerUuid (by simp [dialling, Stage.current])
      cases found.symm.trans there
      rw [found, Option.getD_some] at full
      omega
    · refine sound.complete uuid pool found listed (by simp [Party.failing, dialling]) ?_
      simpa [dialling, Stage.current, eq_comm] using first
  · have covered := sound.covered (by simp [Party.failing, dialling]) fresh
    dsimp only
    rw [same]
    simpa [dialling, Stage.remaining] using covered
  · rw [inbox] at told
    cases told

theorem Sound.fail (sound : party.Sound size plan) {uuid : Uuid} (working : party.stage.working = true)
    (current : party.stage.current = some uuid) (fine : party.failing = []) :
    Sound size plan { party with stage := .closingTx [uuid] } := by
  obtain ⟨listed, inbox⟩ := sound.busy working
  refine ⟨fun _ => ⟨listed, inbox⟩, fun other pool found listed failed _ => ?_, nofun, nofun, nofun, nofun,
    fun _ _ told => ?_⟩
  · refine sound.complete other pool found listed (by simp [fine]) ?_
    rw [current]
    simpa [Party.failing, eq_comm] using failed
  · rw [inbox] at told
    cases told

theorem Sound.closeTx (sound : party.Sound size plan) {failed : List Uuid}
    (closing : party.stage = .closingTx failed) :
    Sound size plan
      { party with
        connections := party.connections.closeUnlistedTx party.listed, stage := .closingRx failed } := by
  obtain ⟨listed, inbox⟩ := sound.busy (by simp [closing, Stage.working])
  have lookup (uuid : Uuid) : (party.connections.closeUnlistedTx party.listed).p2pConnectionsTx.lookup uuid =
      if lists plan uuid then party.connections.p2pConnectionsTx.lookup uuid else none := by
    rw [lookup_tx_closeUnlistedTx, listed]
  refine ⟨fun _ => ⟨listed, inbox⟩, fun uuid pool found member fine _ => ?_, nofun, nofun,
    fun none fresh uuid member => ?_, fun _ _ uuid present => ?_, fun _ _ told => ?_⟩
  · dsimp only at found
    rw [lookup, if_pos member] at found
    exact sound.complete uuid pool found member (by simpa [Party.failing, closing] using fine)
      (by simp [closing, Stage.current])
  · have covered := sound.covered (by simpa [Party.failing, closing] using none) fresh uuid member
    have present := covered.resolve_left (by simp [closing, Stage.remaining, lists])
    refine .inr ?_
    dsimp only
    rw [← AList.lookup_isSome, lookup, if_pos member]
    exact AList.lookup_isSome.mpr present
  · dsimp only at present
    rw [← AList.lookup_isSome, lookup] at present
    split at present
    · assumption
    · cases present
  · rw [inbox] at told
    cases told

theorem Sound.conclude (sound : party.Sound size plan) {failed : List Uuid}
    (closing : party.stage = .closingRx failed) :
    Sound size plan
      { party with
        connections := party.connections.closeUnlistedRx party.listed, stage := .reported, failed } := by
  obtain ⟨_, inbox⟩ := sound.busy (by simp [closing, Stage.working])
  have fresh : ¬ party.renewed := by simp [Party.renewed, inbox]
  refine ⟨nofun, fun uuid pool found listed fine _ => ?_, nofun, nofun, fun none _ uuid listed => ?_,
    fun _ _ => ?_, fun _ _ told => ?_⟩
  · exact sound.complete uuid pool found listed (by simpa [Party.failing, closing] using fine)
      (by simp [closing, Stage.current])
  · have covered := sound.covered (by simpa [Party.failing, closing] using none) fresh uuid listed
    exact .inr (covered.resolve_left (by simp [closing, Stage.remaining, lists]))
  · exact sound.tidy (by simp [closing, Stage.closed]) fresh
  · have none : party.inbox = some _ := told
    rw [inbox] at none
    cases none

theorem Sound.rest (sound : party.Sound size plan) (resting : party.stage.working = false)
    (fresh : ∀ unchanged peers, party.inbox ≠ some (.info unchanged peers)) (inbox : Option Notice)
    (still : ∀ unchanged peers, inbox ≠ some (.info unchanged peers)) (stage : Stage)
    (resting' : stage.working = false) :
    Sound size plan { party with inbox, stage } := by
  obtain ⟨current, remaining, closed⟩ := Stage.at_rest resting
  obtain ⟨current', _, _⟩ := Stage.at_rest resting'
  have news : ¬ party.renewed := not_exists.mpr (fresh false)
  have lists_nil (uuid : Uuid) : lists [] uuid ≠ true := by simp [lists]
  refine ⟨fun works => ?_, fun uuid pool found listed fine _ => ?_, fun uuid now => ?_,
    fun peer connection peers same => ?_, fun none _ uuid listed => ?_, fun _ _ => ?_,
    fun unchanged peers told => ?_⟩
  · dsimp only at works
    rw [resting'] at works
    cases works
  · rw [failing_of_resting resting'] at fine
    exact sound.complete uuid pool found listed (by rw [failing_of_resting resting]; exact fine)
      (by simp [current])
  · dsimp only at now
    rw [current'] at now
    cases now
  · dsimp only at same
    rw [same] at resting'
    cases resting'
  · rw [failing_of_resting resting'] at none
    have covered := sound.covered (by rw [failing_of_resting resting]; exact none) news uuid listed
    rw [remaining] at covered
    exact .inr (covered.resolve_left (lists_nil uuid))
  · exact sound.tidy closed news
  · exact absurd told (still unchanged peers)

end Party

theorem lists_of_samePeers {previous plan : List PeerInfo} (same : samePeers previous plan = true)
    (distinct : (plan.map PeerInfo.peerUuid).Nodup) (uuid : Uuid) :
    lists previous uuid = true ↔ lists plan uuid = true := by
  have mem_iff (peers : List PeerInfo) : lists peers uuid = true ↔ uuid ∈ peers.map PeerInfo.peerUuid := by
    rw [lists_iff, List.mem_map]
  simp only [samePeers, Bool.and_eq_true, decide_eq_true_eq, List.all_eq_true] at same
  have subset : plan.map PeerInfo.peerUuid ⊆ previous.map PeerInfo.peerUuid := by
    intro other member
    obtain ⟨peer, listed, rfl⟩ := List.mem_map.mp member
    obtain ⟨before, found, equal⟩ := (lists_iff _ _).mp (same.2 peer listed)
    exact List.mem_map.mpr ⟨before, found, equal⟩
  have perm : (plan.map PeerInfo.peerUuid).Perm (previous.map PeerInfo.peerUuid) :=
    (distinct.subperm subset).perm_of_length_le (by simp [same.1])
  rw [mem_iff, mem_iff, perm.mem_iff]

namespace Party

variable {size : Nat} {plan : List PeerInfo} {party : Party}

theorem Sound.start (sound : party.Sound size plan) (voted : party.stage = .voted)
    (inbox : party.inbox = none) {next : List PeerInfo}
    (distinct : (next.map PeerInfo.peerUuid).Nodup)
    (heeds : party.failed = [] ∨
      samePeers plan next = false ∧ ∀ uuid ∈ party.failed, lists next uuid = false) :
    Sound size next
      { party with
        inbox := some (if samePeers plan next then .info true [] else .info false next) } := by
  have failing : party.failing = party.failed := by simp [Party.failing, voted]
  have fresh : ¬ party.renewed := by simp [Party.renewed, inbox]
  have tidy := sound.tidy (by simp [voted, Stage.closed]) fresh
  have complete (uuid : Uuid) (pool : List TxSocket)
      (found : party.connections.p2pConnectionsTx.lookup uuid = some pool) (fine : uuid ∉ party.failed) :
      pool.length = size :=
    sound.complete uuid pool found (tidy uuid (AList.lookup_isSome.mp (by simp [found])))
      (by rwa [failing]) (by simp [voted, Stage.current])
  have resting : ¬ (party.stage.working = true) := by simp [voted, Stage.working]
  have current (uuid : Uuid) : party.stage.current ≠ some uuid := by simp [voted, Stage.current]
  have await (peer : PeerInfo) (connection : Nat) (peers : List PeerInfo) :
      party.stage ≠ .awaiting peer connection peers := by simp [voted]
  cases same : samePeers plan next with
  | true =>
    have failed : party.failed = [] := by simpa [same] using heeds
    have listed_iff := lists_of_samePeers same distinct
    rw [if_pos rfl]
    refine ⟨fun works => absurd works resting, fun uuid pool found _ fine _ => ?_,
      fun uuid now => absurd now (current uuid), fun peer connection peers now => absurd now (await _ _ _),
      fun _ _ uuid listed => ?_, fun _ _ uuid present => ?_, fun unchanged peers told => ?_⟩
    · exact complete uuid pool found (by simp [failed])
    · have covered := sound.covered (by rw [failing, failed]) fresh uuid ((listed_iff uuid).mpr listed)
      exact covered
    · exact (listed_iff uuid).mp (tidy uuid present)
    · cases told
      exact ⟨voted, fun _ => failed, nofun⟩
  | false =>
    have heeded (uuid : Uuid) (member : uuid ∈ party.failed) : lists next uuid = false := by
      rcases heeds with none | both
      · rw [none] at member
        cases member
      · exact both.2 uuid member
    have renewed : Party.renewed { party with inbox := some (.info false next) } := ⟨next, rfl⟩
    rw [if_neg (by simp)]
    refine ⟨fun works => absurd works resting, fun uuid pool found listed _ _ => ?_,
      fun uuid now => absurd now (current uuid), fun peer connection peers now => absurd now (await _ _ _),
      fun _ news => absurd renewed news, fun _ news => absurd renewed news, fun unchanged peers told => ?_⟩
    · refine complete uuid pool found fun member => ?_
      rw [heeded uuid member] at listed
      cases listed
    · cases told
      exact ⟨voted, nofun, fun _ => ⟨rfl, heeded⟩⟩

end Party

end Pccl.Client
