import Pccl.Client.Connections
import Pccl.Master.Runs

set_option autoImplicit false

namespace Pccl.Client

open Packet Connections

/-- After a failure the packet lists its peers, and the one at which the attempt has stopped is not
among them. -/
def Call.heeds (call : Call) (session : Session) : Bool :=
  session.failed.isEmpty ||
    (!call.packet.unchanged && session.failed.all fun uuid => !lists call.packet.allPeers uuid)

/-- The pool has its size, and all of its sockets have been acknowledged during the calls. -/
def CompletePool (poolSize : Nat) (calls : List Call) (uuid : Uuid) (pool : List TxSocket) : Prop :=
  pool.length = poolSize ∧ Handshaken calls uuid pool

structure Session.Pooled (poolSize : Nat) (calls : List Call) (session : Session) : Prop where
  pools : ∀ uuid pool, session.connections.p2pConnectionsTx.lookup uuid = some pool →
    uuid ∉ session.failed → CompletePool poolSize calls uuid pool
  listed : session.failed = [] → ∀ peer ∈ session.plan,
    peer.peerUuid ∈ session.connections.p2pConnectionsTx
  honest : ∀ report, session.reports.getLast? = some report → report.success = true →
    session.failed = []

theorem Session.failed_establish (poolSize : Nat) (call : Call) (session : Session) :
    (session.establish poolSize call).failed =
      if call.packet.unchanged then []
      else (connectPeers poolSize call.attempts call.packet.allPeers session.connections).1 := by
  unfold Session.failed Session.establish establishP2PConnections
  by_cases same : call.packet.unchanged <;> simp [same]

theorem Session.success_establish (poolSize : Nat) (call : Call) (session : Session) (report : Report)
    (last : (session.establish poolSize call).reports.getLast? = some report)
    (success : report.success = true) : (session.establish poolSize call).failed = [] := by
  rw [Session.failed_establish]
  unfold Session.establish establishP2PConnections at last
  by_cases same : call.packet.unchanged
  · rw [if_pos same]
  · simp only [same, Bool.false_eq_true, if_false, List.getLast?_append, List.getLast?_singleton,
      Option.some_or, Option.some.injEq] at last
    subst last
    simpa [same] using success

theorem Session.tx_establish (poolSize : Nat) (call : Call) (session : Session)
    (changed : call.packet.unchanged = false) (uuid : Uuid) :
    (session.establish poolSize call).connections.p2pConnectionsTx.lookup uuid =
      if lists call.packet.allPeers uuid then
        (connectPeers poolSize call.attempts call.packet.allPeers
          session.connections).2.p2pConnectionsTx.lookup uuid
      else none := by
  unfold Session.establish establishP2PConnections
  simp only [changed, Bool.false_eq_true, if_false]
  exact lookup_tx_closeUnlistedTx _ _ uuid

theorem Session.establish_unchanged (poolSize : Nat) (call : Call) (session : Session)
    (same : call.packet.unchanged = true) :
    (session.establish poolSize call).connections = session.connections ∧
      (session.establish poolSize call).plan = session.plan := by
  simp [Session.establish, establishP2PConnections, same]

theorem Call.heeds_unchanged {call : Call} {session : Session} (heeds : call.heeds session)
    (same : call.packet.unchanged = true) : session.failed = [] := by
  simpa [Call.heeds, same] using heeds

theorem Call.heeds_listed {call : Call} {session : Session} (heeds : call.heeds session) {uuid : Uuid}
    (listed : lists call.packet.allPeers uuid = true) : uuid ∉ session.failed := by
  intro failed
  rcases (Bool.or_eq_true _ _).mp heeds with none | both
  · rw [List.isEmpty_iff.mp none] at failed
    cases failed
  · have unlisted := List.all_eq_true.mp ((Bool.and_eq_true _ _).mp both).2 uuid failed
    rw [listed] at unlisted
    cases unlisted

theorem Session.Pooled.establish {poolSize : Nat} {calls : List Call} {session : Session}
    (pooled : session.Pooled poolSize calls) (call : Call) (heeds : call.heeds session) :
    (session.establish poolSize call).Pooled poolSize (calls ++ [call]) := by
  have opened := connectPeers_opened poolSize call.attempts call.packet.allPeers session.connections
  refine ⟨?_, ?_, fun report => Session.success_establish poolSize call session report⟩
  · intro uuid pool found succeeded
    rw [Session.failed_establish] at succeeded
    cases same : call.packet.unchanged with
    | true =>
      rw [(Session.establish_unchanged poolSize call session same).1] at found
      obtain ⟨length, handshaken⟩ := pooled.pools uuid pool found
        (by rw [Call.heeds_unchanged heeds same]; simp)
      exact ⟨length, handshaken.later⟩
    | false =>
      rw [Session.tx_establish poolSize call session same] at found
      rw [same, if_neg (by simp)] at succeeded
      split at found
      · next listed =>
        by_cases before : uuid ∈ session.connections.p2pConnectionsTx
        · rw [opened.kept uuid before] at found
          obtain ⟨length, handshaken⟩ := pooled.pools uuid pool found (Call.heeds_listed heeds listed)
          exact ⟨length, handshaken.later⟩
        · obtain ⟨length, answered⟩ := opened.answered uuid pool found before succeeded
          exact ⟨length, call, by simp, answered⟩
      · cases found
  · intro none peer member
    rw [Session.failed_establish] at none
    cases same : call.packet.unchanged with
    | true =>
      obtain ⟨connections, plan⟩ := Session.establish_unchanged poolSize call session same
      rw [connections]
      rw [plan] at member
      exact pooled.listed (Call.heeds_unchanged heeds same) peer member
    | false =>
      rw [same, if_neg (by simp)] at none
      have planned : peer ∈ call.packet.allPeers := by simpa [Session.establish, same] using member
      have listed : lists call.packet.allPeers peer.peerUuid = true :=
        (lists_iff _ _).mpr ⟨peer, planned, rfl⟩
      rw [← AList.lookup_isSome, Session.tx_establish poolSize call session same, if_pos listed]
      exact AList.lookup_isSome.mpr (opened.listed none peer planned)

theorem success_means_complete_pools (poolSize : Nat) (calls : List Call)
    (heeded : Machine.Always (Session.establish poolSize) (fun call session => call.heeds session)
      calls {})
    (report : Report) (sent : (Session.run poolSize calls).reports.getLast? = some report)
    (success : report.success = true) (peer : PeerInfo)
    (planned : peer ∈ (Session.run poolSize calls).plan) :
    ∃ pool, (Session.run poolSize calls).connections.p2pConnectionsTx.lookup peer.peerUuid = some pool ∧
      CompletePool poolSize calls peer.peerUuid pool := by
  have initial : Session.Pooled poolSize [] {} := by
    refine ⟨fun uuid pool found => ?_, fun _ peer member => ?_, fun report last => ?_⟩
    · simp at found
    · cases member
    · cases last
  have keeps (past : List Call) (call : Call) (session : Session)
      (pooled : session.Pooled poolSize past) (heeds : call.heeds session) :
      (session.establish poolSize call).Pooled poolSize (past ++ [call]) := pooled.establish call heeds
  have pooled := Machine.run_preserves_past keeps calls [] {} initial heeded
  rw [List.nil_append] at pooled
  have failed := pooled.honest report sent success
  obtain ⟨pool, found⟩ := Option.isSome_iff_exists.mp
    (AList.lookup_isSome.mpr (pooled.listed failed peer planned))
  exact ⟨pool, found, pooled.pools _ _ found (by rw [failed]; simp)⟩

namespace Sample

def peer (uuid : Uuid) : PeerInfo := ⟨Master.Sample.address uuid, uuid⟩

def attempts (uuid : Uuid) (nr : Nat) : Attempt := if uuid = 3 then .refused else .answered nr

def call (peers : List PeerInfo) : Call := ⟨⟨false, 0, 0, 0, 0, peers⟩, attempts⟩

def infos (uuid : Uuid) (sent : List Master.Sent) : List P2PConnectionInfo :=
  sent.filterMap fun message =>
    match message.packet with
    | .p2pConnectionInfo info => if message.peer = uuid then some info else none
    | _ => none

def reports (address : SocketAddress) (events : List Master.Event) : List Report :=
  events.filterMap fun event =>
    match event with
    | .read source (.p2pConnectionsEstablished success failedPeers) =>
      if source = address then some ⟨success, failedPeers⟩ else none
    | _ => none

open Master.Sample in
def events : List Master.Event :=
  pair ++ [join 2 0, establish 0 true, establish 1 true, report 0 true, report 1 true, report 2 true,
    join 3 0, establish 0 true, establish 1 true, establish 2 true,
    .read (address 0) (.p2pConnectionsEstablished false [3]), report 1 true, report 2 true, report 3 true,
    leave 2, establish 0 false, establish 1 false, establish 3 false, report 0 true]

end Sample

open Sample

theorem success_means_complete_pools_retry :
    ∃ pool, (Session.run 2 [call [peer 1, peer 3], call [peer 1,
        peer 2]]).connections.p2pConnectionsTx.lookup 2 = some pool ∧
      CompletePool 2 [call [peer 1, peer 3], call [peer 1,
        peer 2]] 2 pool :=
  success_means_complete_pools 2 _ (by decide) ⟨true, []⟩ (by decide) rfl (peer 2) (by decide)

theorem unchanged_plan_hides_failure :
    ∃ master, Master.run Master.Sample.environment events = .ok master ∧
      ∃ calls : List Call, calls.map Call.packet = infos 0 master.sent ∧
        (Session.run 1 calls).reports = reports (Master.Sample.address 0) events ∧
        (Session.run 1 calls).reports.getLast? = some ⟨true, []⟩ ∧
        peer 3 ∈ (Session.run 1 calls).plan ∧
        (Session.run 1 calls).connections.p2pConnectionsTx.lookup 3 = some [] := by
  have passes : (Master.run Master.Sample.environment events).passes (fun master =>
      let calls := (infos 0 master.sent).map fun packet => (⟨packet, attempts⟩ : Call)
      decide ((Session.run 1 calls).reports = reports (Master.Sample.address 0) events) &&
      decide ((Session.run 1 calls).reports.getLast? = some ⟨true, []⟩) &&
      decide (peer 3 ∈ (Session.run 1 calls).plan) &&
      decide ((Session.run 1 calls).connections.p2pConnectionsTx.lookup 3 = some [])) = true := by cbv
  obtain ⟨master, reached, checks⟩ := Master.Server.exists_of_passes passes
  simp only [Bool.and_eq_true, decide_eq_true_eq] at checks
  refine ⟨master, reached, (infos 0 master.sent).map fun packet => ⟨packet, attempts⟩, ?_⟩
  refine ⟨?_, checks.1.1.1, checks.1.1.2, checks.1.2, checks.2⟩
  simp [Function.comp_def]

end Pccl.Client
