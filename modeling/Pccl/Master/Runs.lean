import Pccl.Master.Service

set_option autoImplicit false

namespace Pccl.Master

open Packet Program

/-- What is asked of the state after the last event, or of the exit. -/
inductive Server.Holds (invariant : MasterState → Prop) (ended : Exit → Prop) : Server → Prop
  | serves {master : MasterState} (holds : invariant master) : Holds invariant ended (.ok master)
  | stopped {exit : Exit} (ends : ended exit) : Holds invariant ended (.error exit)

theorem Server.Holds.imp {invariant weaker : MasterState → Prop} {ended weakerEnded : Exit → Prop}
    {server : Server} (holds : server.Holds invariant ended)
    (returns : ∀ master, invariant master → weaker master)
    (exits : ∀ exit, ended exit → weakerEnded exit) : server.Holds weaker weakerEnded := by
  cases holds with
  | serves holds => exact .serves (returns _ holds)
  | stopped ends => exact .stopped (exits _ ends)

def Server.passes (check : MasterState → Bool) : Server → Bool
  | .ok master => check master
  | .error _ => false

theorem Server.not_holds {check : MasterState → Bool} {server : Server}
    (passes : server.passes check = true) {invariant : MasterState → Prop} {ended : Exit → Prop}
    (excludes : ∀ master, check master = true → ¬ invariant master) :
    ¬ server.Holds invariant ended := by
  rintro (holds | _)
  · exact excludes _ passes holds
  · cases passes

def Server.fails (check : Exit → Bool) : Server → Bool
  | .ok _ => false
  | .error exit => check exit

theorem Server.not_holds_of_fails {check : Exit → Bool} {server : Server}
    (fails : server.fails check = true) {invariant : MasterState → Prop} {ended : Exit → Prop}
    (excludes : ∀ exit, check exit = true → ¬ ended exit) : ¬ server.Holds invariant ended := by
  rintro (_ | ends)
  · cases fails
  · exact excludes _ fails ends

theorem Server.exists_of_fails {check : Exit → Bool} {server : Server}
    (fails : server.fails check = true) : ∃ exit, server = .error exit ∧ check exit = true := by
  cases server with
  | ok => cases fails
  | error exit => exact ⟨exit, rfl, fails⟩

theorem Server.exists_of_passes {check : MasterState → Bool} {server : Server}
    (passes : server.passes check = true) : ∃ master, server = .ok master ∧ check master = true := by
  cases server with
  | ok master => exact ⟨master, rfl, passes⟩
  | error => cases passes

def Server.both (check : MasterState → MasterState → Bool) : Server → Server → Bool
  | .ok first, .ok second => check first second
  | _, _ => false

theorem Server.exists_of_both {check : MasterState → MasterState → Bool} {first second : Server}
    (both : Server.both check first second = true) :
    ∃ before after, first = .ok before ∧ second = .ok after ∧ check before after = true := by
  cases first with
  | error => cases both
  | ok before =>
    cases second with
    | error => cases both
    | ok after => exact ⟨before, after, rfl, rfl, both⟩

def permits (condition : Event → MasterState → Bool) (event : Event) : Server → Bool
  | .ok master => condition event master
  | .error _ => true

section

variable (environment : Environment)

/-- Every event of the run meets the condition. -/
def Lawful (condition : Event → MasterState → Bool) (events : List Event) : Prop :=
  Machine.Always (serve environment) (fun event server => permits condition event server) events
    (.ok MasterState.initial)

def lawful (condition : Event → MasterState → Bool) (events : List Event) : Bool :=
  Machine.checks (serve environment) (permits condition) events (.ok MasterState.initial)

theorem lawful_iff (condition : Event → MasterState → Bool) (events : List Event) :
    lawful environment condition events = true ↔ Lawful environment condition events :=
  Machine.checks_iff events _

variable {environment} {condition : Event → MasterState → Bool}

theorem serve_ok (event : Event) (master : MasterState) :
    serve environment event (.ok master) =
      match handle environment event master with
      | .ok (_, next) => .ok next
      | .error exit => .error exit := by
  simp only [serve, bind, Except.bind, pure, Except.pure]
  cases handle environment event master <;> rfl

theorem serve_holds {invariant : MasterState → Prop} {ended : Exit → Prop} {event : Event}
    {master : MasterState}
    (meets : (handle environment event).Meets master (fun _ next => invariant next) ended) :
    (serve environment event (.ok master)).Holds invariant ended := by
  rw [serve_ok]
  unfold Meets at meets
  cases result : handle environment event master with
  | ok pair =>
    rw [result] at meets
    exact .serves meets
  | error exit =>
    rw [result] at meets
    exact .stopped meets

theorem run_holds {invariant : MasterState → Prop} {ended : Exit → Prop}
    (initial : invariant MasterState.initial)
    (step : ∀ event master, invariant master → condition event master →
      (handle environment event).Meets master (fun _ next => invariant next) ended)
    (events : List Event) (lawful : Lawful environment condition events) :
    (run environment events).Holds invariant ended := by
  have keeps (event : Event) (server : Server) (holds : server.Holds invariant ended)
      (permitted : permits condition event server) :
      (serve environment event server).Holds invariant ended := by
    cases holds with
    | serves holds => exact serve_holds (step event _ holds permitted)
    | stopped ends => exact .stopped ends
  exact Machine.run_preserves keeps events _ (.serves initial) lawful

theorem run_concat {events : List Event} {master : MasterState}
    (reached : run environment events = .ok master) (event : Event) :
    run environment (events ++ [event]) = serve environment event (.ok master) := by
  rw [run, Machine.run_append, ← run, reached]
  rfl

theorem lawful_true (events : List Event) : Lawful environment (fun _ _ => true) events := by
  refine Machine.always_of_forall (fun event server => ?_) events _
  cases server <;> rfl

theorem Core.Ended.bug {event : Event} {core : Core} {exit : Exit}
    (ended : Core.Ended environment event core exit) :
    exit.bug.ofProtocol = false ∨ exit.bug = .p2pConnectionsEstablishedPhase := by
  cases ended with
  | early fatal => exact Or.inl fatal.1
  | late _ _ _ fatal => exact Or.inl fatal.1
  | jammed _ _ _ bug => exact Or.inr bug

theorem run_valid (events : List Event) :
    (run environment events).Holds (fun master => master.core.Valid environment) fun exit =>
      exit.bug.ofProtocol = false ∨ exit.bug = .p2pConnectionsEstablishedPhase := by
  refine run_holds (.initial environment) (fun event master valid _ => ?_) events (lawful_true events)
  exact (handle_served valid event).imp (fun _ _ served => served.valid valid) fun _ ended => ended.bug

theorem bugs_unreachable (events : List Event) :
    (run environment events).Holds (fun _ => True) fun exit =>
      exit.bug.ofProtocol → exit.bug = .p2pConnectionsEstablishedPhase :=
  (run_valid events).imp (fun _ _ => trivial) fun _ bug is => bug.resolve_left (by simp [is])

theorem run_holds_core (invariant : Core → Prop) {ended : Exit → Prop}
    (initial : invariant Core.initial)
    (step : ∀ event (master : MasterState) next, master.core.Valid environment → invariant master.core →
      condition event master → Core.Served environment event master.core next → invariant next)
    (exits : ∀ event (master : MasterState) exit, master.core.Valid environment →
      invariant master.core → condition event master → Core.Ended environment event master.core exit →
      ended exit)
    (events : List Event) (lawful : Lawful environment condition events) :
    (run environment events).Holds
      (fun master => master.core.Valid environment ∧ invariant master.core) ended := by
  refine run_holds ⟨.initial environment, initial⟩ (fun event master holds permitted => ?_) events lawful
  refine (handle_served holds.1 event).imp (fun _ next served => ?_) fun exit ends => ?_
  · exact ⟨served.valid holds.1, step event master _ holds.1 holds.2 permitted served⟩
  · exact exits event master exit holds.1 holds.2 permitted ends

theorem serve_of_run {events : List Event} {event : Event} {before after : MasterState}
    (reached : run environment events = .ok before)
    (served : run environment (events ++ [event]) = .ok after) :
    serve environment event (.ok before) = .ok after := by
  rw [← served, run, Machine.run_append, ← run, reached]
  rfl

theorem run_served (invariant : Core → Prop) (initial : invariant Core.initial)
    (step : ∀ event (master : MasterState) next, master.core.Valid environment → invariant master.core →
      condition event master → Core.Served environment event master.core next → invariant next)
    {events : List Event} {event : Event} {before after : MasterState}
    (lawful : Lawful environment condition (events ++ [event]))
    (reached : run environment events = .ok before)
    (served : run environment (events ++ [event]) = .ok after) :
    before.core.Valid environment ∧ invariant before.core ∧ condition event before ∧
      Core.Served environment event before.core after.core := by
  obtain ⟨early, last⟩ := Machine.always_append lawful
  have holds := @run_holds_core _ _ invariant (fun _ => True) initial step
    (fun _ _ _ _ _ _ _ => trivial) events early
  change Machine.Always _ _ _ (run environment events) at last
  rw [reached] at holds last
  cases holds with
  | serves holds =>
    have now := serve_holds (handle_served holds.1 event)
    rw [serve_of_run reached served] at now
    cases now with
    | serves now => exact ⟨holds.1, holds.2, last.1, now⟩

section Watching

variable {Ghost : Type} (observe : Event → MasterState → MasterState → Ghost → Ghost)

def observed (event : Event) (before after : Server) (ghost : Ghost) : Ghost :=
  match before, after with
  | .ok master, .ok next => observe event master next ghost
  | _, _ => ghost

variable (environment) in
def watch (events : List Event) (ghost : Ghost) : Ghost :=
  Machine.watch (serve environment) (observed observe) events (.ok MasterState.initial) ghost

variable {observe}

theorem watch_holds (linked : Core → Ghost → Prop) {conclusion : Ghost → Prop} {ghost : Ghost}
    (initial : linked Core.initial ghost)
    (step : ∀ event (master next : MasterState) ghost, master.core.Valid environment →
      linked master.core ghost → condition event master →
      Core.Served environment event master.core next.core →
      linked next.core (observe event master next ghost))
    (concludes : ∀ core ghost, linked core ghost → conclusion ghost)
    (events : List Event) (lawful : Lawful environment condition events) :
    conclusion (watch environment observe events ghost) ∧
      ∀ master, run environment events = .ok master →
        linked master.core (watch environment observe events ghost) := by
  -- The notes end with the process.
  let links (server : Server) (ghost : Ghost) : Prop :=
    conclusion ghost ∧
      ∀ master, server = .ok master → master.core.Valid environment ∧ linked master.core ghost
  have keeps (event : Event) (server : Server) (ghost : Ghost) (holds : links server ghost)
      (permitted : permits condition event server) :
      links (serve environment event server)
        (observed observe event server (serve environment event server) ghost) := by
    cases server with
    | error exit => exact ⟨holds.1, nofun⟩
    | ok master =>
      obtain ⟨valid, linked⟩ := holds.2 master rfl
      have served := serve_holds (handle_served valid event)
      cases after : serve environment event (.ok master) with
      | error exit => exact ⟨holds.1, nofun⟩
      | ok next =>
        rw [after] at served
        cases served with
        | serves served =>
          have still := step event master next ghost valid linked permitted served
          refine ⟨concludes _ _ still, fun last same => ?_⟩
          cases same
          exact ⟨served.valid valid, still⟩
  have starts : links (.ok MasterState.initial) ghost := by
    refine ⟨concludes _ _ initial, fun master same => ?_⟩
    cases same
    exact ⟨.initial environment, initial⟩
  have ends := @Machine.watch_preserves _ _ _ _ _ _ links keeps events _ ghost starts lawful
  exact ⟨ends.1, fun master reached => (ends.2 master reached).2⟩

theorem watch_served (linked : Core → Ghost → Prop) {ghost : Ghost} (initial : linked Core.initial ghost)
    (step : ∀ event (master next : MasterState) ghost, master.core.Valid environment →
      linked master.core ghost → condition event master →
      Core.Served environment event master.core next.core →
      linked next.core (observe event master next ghost))
    {events : List Event} {event : Event} {before after : MasterState}
    (lawful : Lawful environment condition (events ++ [event]))
    (reached : run environment events = .ok before)
    (served : run environment (events ++ [event]) = .ok after) :
    before.core.Valid environment ∧ linked before.core (watch environment observe events ghost) ∧
      condition event before ∧ Core.Served environment event before.core after.core ∧
      watch environment observe (events ++ [event]) ghost =
        observe event before after (watch environment observe events ghost) := by
  obtain ⟨valid, _, permitted, last⟩ := run_served (fun _ => True) trivial
    (fun _ _ _ _ _ _ _ => trivial) lawful reached served
  have early := (watch_holds linked initial step (fun _ _ _ => trivial) events
    (Machine.always_append lawful).1).2 before reached
  refine ⟨valid, early, permitted, last, ?_⟩
  have here : Machine.run (serve environment) events (.ok MasterState.initial) = .ok before := reached
  rw [watch, Machine.watch_concat, here, serve_of_run reached served]
  rfl

end Watching

end

namespace Sample

def environment : Environment where
  generateUuid := id
  distinct := Function.injective_id
  solve _ _ ring := some (ring, .optimal)
  order := id
  permutes := List.Perm.refl

def address (client : Nat) : SocketAddress := ⟨.ipv4 (BitVec.ofNat 32 (2 ^ 25 + client)), 0⟩

def join (client : Nat) (group : Group) : Event :=
  .read (address client) (.requestSessionRegistration 0 0 0 group)

def establish (client : Nat) (acceptNewPeers : Bool) : Event :=
  .read (address client) (.requestEstablishP2PConnections acceptNewPeers)

def report (client : Nat) (success : Bool) : Event :=
  .read (address client) (.p2pConnectionsEstablished success [])

def leave (client : Nat) : Event := .disconnect (address client)

def pair : List Event :=
  [join 0 0, report 0 true, join 1 0, establish 0 true, report 0 true, report 1 true]

/-- A third client joins a pair. -/
def third : List Event :=
  [join 2 0, establish 0 true, establish 1 true, report 0 true, report 1 true, report 2 true]

end Sample

end Pccl.Master
