import Pccl.Master.Benchmarks
import Pccl.Shared.Annotated

set_option autoImplicit false

namespace Pccl.Master

open Packet Program Annotated

inductive TaskAction where
  | schedules (moonshot : Bool)
  | awaits
deriving DecidableEq, Repr

abbrev NotedM := Annotated MasterState Exit (Group × TaskAction)

section Noted

variable (environment : Environment)

def notedPerformTopologyOptimization (group : Group) : NotedM Unit := do
  let master ← lift get
  let moonshot := (master.topology.optimizationTasks group).isSome
  when moonshot do
    note (group, .awaits)
    lift (joinTask environment group)
    lift (setTask group none)
  let master ← lift get
  when (¬ master.topology.topologyIsOptimal group) do
    note (group, .schedules moonshot)
    lift (setTask group (some (.scheduled moonshot)))
    when (¬ moonshot) do
      note (group, .awaits)
      lift (joinTask environment group)

def notedVisit (group : Group) : NotedM Unit := do
  let master ← lift get
  when (¬ master.topology.topologyIsOptimal group)
    (notedPerformTopologyOptimization environment group)

def notedCompletion : NotedM Unit := do
  let master ← lift get
  when master.topologyOptimizationCompleteConsensus do
    lift (modify MasterState.markMissingUnreachable)
    let ended ← lift (endTopologyOptimizationPhase false)
    if ended then
      forEach master.getExistingPeerGroups (notedVisit environment)
      lift (forEachClient fun uuid address info =>
        when (info.connectionPhase = .accepted)
          (sendPacket uuid address (.optimizeTopologyComplete true [])))
    else
      lift (logBug .endTopologyOptimizationPhase)

theorem notedCompletion_erases :
    Erases (notedCompletion environment) (checkTopologyOptimizationCompletionConsensus environment) := by
  have performs (group : Group) : Erases (notedPerformTopologyOptimization environment group)
      (performTopologyOptimization environment group) := by
    refine .bind (.lift get) fun master => .bind (.when (.note ?_)) fun _ =>
      .bind (.lift get) fun later => .when (.note (.bind (.lift _) fun _ => .when (.note (.lift _))))
    exact .bind (.lift _) fun _ => .lift _
  refine .bind (.lift get) fun master => .when (.bind (.lift _) fun _ => .bind (.lift _) fun ended => ?_)
  refine .ite (.bind (.forEach fun group => ?_) fun _ => .lift _) (.lift _)
  exact .bind (.lift get) fun later => .when (performs group)

end Noted

def trace (group : Group) (notes : List (Group × TaskAction)) : List TaskAction :=
  (notes.filter fun entry => entry.1 = group).map Prod.snd

def TaskAction.isSchedule : TaskAction → Bool
  | .schedules _ => true
  | .awaits => false

/-- At most one task is scheduled, and a moonshot that is scheduled is not waited for. -/
structure Sparing (actions : List TaskAction) : Prop where
  once : actions.countP TaskAction.isSchedule ≤ 1
  unattended : ¬ [.schedules true, .awaits].Sublist actions

/-- What decides about a visit to a group. -/
structure GroupProgress where
  optimal : Bool
  task : Option OptimizationTask

def MasterState.progress (master : MasterState) (group : Group) : GroupProgress where
  optimal := master.topology.topologyIsOptimal group
  task := master.topology.optimizationTasks group

def OptimizationTask.outcome (answer : Option SolutionType) : OptimizationTask → Option Bool
  -- Whether the ring is optimal once the task is done, given the answer the solver has for it;
  -- `none` if the solver fails.
  | .scheduled _ => answer.map fun kind => kind = .optimal
  | .solving _ solution => solution.map fun found => found.2 = .optimal
  | .finished => some false

namespace GroupProgress

def visit (progress : GroupProgress) (answer : Option SolutionType) :
    List TaskAction × Option GroupProgress :=
  if progress.optimal then ([], some progress)
  else
    match progress.task with
    | none => ([.schedules false, .awaits], answer.map fun kind => ⟨kind = .optimal, some .finished⟩)
    | some task =>
      match task.outcome answer with
      | none => ([.awaits], none)
      | some true => ([.awaits], some ⟨true, none⟩)
      | some false => ([.awaits, .schedules true], some ⟨false, some (.scheduled true)⟩)

def visits (progress : GroupProgress) :
    List (Option SolutionType) → List TaskAction × Option GroupProgress
  | [] => ([], some progress)
  | answer :: answers =>
    match progress.visit answer with
    | (actions, none) => (actions, none)
    | (actions, some next) => (actions ++ (next.visits answers).1, (next.visits answers).2)

def fails (progress : GroupProgress) : Prop :=
  progress.optimal = false ∧ ∃ moonshot, progress.task = some (.solving moonshot none)

/-- The first visit finds the ring optimal, or the task that it waits for makes it so. -/
def settles (progress : GroupProgress) : Prop :=
  progress.optimal = true ∨
    ∃ moonshot ring, progress.task = some (.solving moonshot (some (ring, .optimal)))

variable {progress next : GroupProgress} {answer : Option SolutionType}
  {answers : List (Option SolutionType)}

instance : Decidable progress.fails :=
  decidable_of_iff (progress.optimal = false ∧
    (progress.task = some (.solving true none) ∨ progress.task = some (.solving false none)))
    (and_congr_right fun _ => by simp [Bool.exists_bool, or_comm])

theorem visit_of_optimal (optimal : progress.optimal = true) :
    progress.visit answer = ([], some progress) :=
  if_pos optimal

theorem visits_of_optimal (optimal : progress.optimal = true) :
    progress.visits answers = ([], some progress) := by
  induction answers with
  | nil => rfl
  | cons answer answers ih => simp [visits, visit_of_optimal optimal, ih]

theorem visit_of_none (pending : progress.optimal = false) (idle : progress.task = none) :
    progress.visit answer =
      ([.schedules false, .awaits], answer.map fun kind => ⟨kind = .optimal, some .finished⟩) := by
  simp [visit, pending, idle]

theorem visit_of_left {task : OptimizationTask} (pending : progress.optimal = false)
    (present : progress.task = some task) (left : task.outcome answer = some false) :
    progress.visit answer = ([.awaits, .schedules true], some ⟨false, some (.scheduled true)⟩) := by
  simp [visit, pending, present, left]

theorem visits_concat (before : (progress.visits answers).2 = some next) :
    progress.visits (answers ++ [answer]) =
      ((progress.visits answers).1 ++ (next.visit answer).1, (next.visit answer).2) := by
  induction answers generalizing progress with
  | nil =>
    cases before
    simp only [List.nil_append, visits]
    split <;> simp_all
  | cons first answers ih =>
    simp only [List.cons_append, visits] at before ⊢
    rcases visited : progress.visit first with ⟨actions, _ | middle⟩
    · simp [visited] at before
    · simp only [visited] at before ⊢
      simp [ih before]

theorem visit_of_fails (fails : progress.fails) : progress.visit answer = ([.awaits], none) := by
  obtain ⟨open_, moonshot, pending⟩ := fails
  simp [visit, open_, pending, OptimizationTask.outcome]

theorem visits_of_fails (fails : progress.fails) :
    (progress.visits answers).1 = [] ∨ (progress.visits answers).1 = [.awaits] := by
  cases answers with
  | nil => exact Or.inl rfl
  | cons answer answers => exact Or.inr (by simp [visits, visit_of_fails fails])

theorem visits_of_settles (settles : progress.settles) :
    (progress.visits answers).1 = [] ∨ (progress.visits answers).1 = [.awaits] := by
  cases optimal : progress.optimal with
  | true => exact Or.inl (by rw [visits_of_optimal optimal])
  | false =>
    cases answers with
    | nil => exact Or.inl rfl
    | cons answer answers =>
      obtain ⟨moonshot, ring, pending⟩ := settles.resolve_left (by simp [optimal])
      refine Or.inr ?_
      simp [visits, visit, optimal, pending, OptimizationTask.outcome, visits_of_optimal]

theorem visit_sparing (progress : GroupProgress) (answer : Option SolutionType) :
    Sparing (progress.visit answer).1 := by
  unfold visit
  repeat' split
  all_goals
    dsimp only
    exact ⟨by decide, by decide⟩

theorem visits_sparing (few : answers.length ≤ 1 ∨ progress.fails ∨ progress.settles) :
    Sparing (progress.visits answers).1 := by
  have idle (actions : List TaskAction) (short : actions = [] ∨ actions = [.awaits]) :
      Sparing actions := by
    rcases short with rfl | rfl <;> exact ⟨by decide, by decide⟩
  rcases few with short | fails | settles
  · match answers with
    | [] => exact idle _ (Or.inl rfl)
    | [answer] =>
      have visited := visit_sparing progress answer
      unfold visits
      split <;> simp_all [visits]
  · exact idle _ (visits_of_fails fails)
  · exact idle _ (visits_of_settles settles)

def Open (answer : Option SolutionType) : Prop := ∃ kind, answer = some kind ∧ kind ≠ .optimal

theorem visit_of_open (fine : ¬ progress.fails) (open_ : Open answer) :
    ∃ next, (progress.visit answer).2 = some next ∧ ¬ next.fails := by
  obtain ⟨kind, rfl, other⟩ := open_
  unfold visit
  split
  · exact ⟨progress, rfl, fine⟩
  next pending =>
    split
    · exact ⟨_, rfl, by simp [fails]⟩
    next task present =>
      have answered : task.outcome (some kind) ≠ none := by
        rcases task with moonshot | ⟨moonshot, _ | found⟩ | _
        · simp [OptimizationTask.outcome]
        · exact absurd ⟨by simpa using pending, moonshot, present⟩ fine
        · simp [OptimizationTask.outcome]
        · simp [OptimizationTask.outcome]
      split
      next gone => exact absurd gone answered
      · exact ⟨_, rfl, by simp [fails]⟩
      · exact ⟨_, rfl, by simp [fails]⟩

theorem visits_of_open (fine : ¬ progress.fails) (open_ : ∀ answer ∈ answers, Open answer) :
    (progress.visits answers).2 ≠ none := by
  induction answers generalizing progress with
  | nil => simp [visits]
  | cons answer answers ih =>
    obtain ⟨next, visited, still⟩ := visit_of_open fine (open_ answer List.mem_cons_self)
    have rest := ih still fun later among => open_ later (List.mem_cons_of_mem _ among)
    unfold visits
    split
    next actions gone => rw [gone] at visited; cases visited
    next actions middle there =>
      rw [there] at visited
      cases visited
      exact rest

theorem not_sparing_of_open (fine : ¬ progress.fails) (unsettled : ¬ progress.settles)
    (many : 2 ≤ answers.length) (open_ : ∀ answer ∈ answers, Open answer) :
    ¬ Sparing (progress.visits answers).1 := by
  obtain ⟨first, second, answers, rfl⟩ : ∃ first second rest, answers = first :: second :: rest := by
    match answers, many with
    | first :: second :: rest, _ => exact ⟨first, second, rest, rfl⟩
  obtain ⟨kind, rfl, other⟩ := open_ first (by simp)
  obtain ⟨last, rfl, otherToo⟩ := open_ second (by simp)
  have pending : progress.optimal = false := by
    have := mt Or.inl unsettled
    simpa using this
  -- Whatever waits now, the second visit finds a task and leaves a moonshot behind.
  have again (task : OptimizationTask) (left : task.outcome (some last) = some false) :
      ((⟨false, some task⟩ : GroupProgress).visits (some last :: answers)).1 =
        .awaits :: .schedules true ::
          ((⟨false, some (.scheduled true)⟩ : GroupProgress).visits answers).1 := by
    have visited : (⟨false, some task⟩ : GroupProgress).visit (some last) = _ := visit_of_left rfl rfl left
    simp [visits, visited]
  intro sparing
  cases task : progress.task with
  | none =>
    have once := sparing.once
    rw [visits, visit_of_none pending task] at once
    simp [other, again .finished rfl, List.countP_cons, TaskAction.isSchedule] at once
  | some present =>
    have left : present.outcome (some kind) = some false := by
      rcases present with moonshot | ⟨moonshot, _ | ⟨ring, found⟩⟩ | _
      · simp [OptimizationTask.outcome, other]
      · exact absurd ⟨pending, moonshot, task⟩ fine
      · have worse : found ≠ .optimal := fun best => unsettled (Or.inr ⟨moonshot, ring, best ▸ task⟩)
        simp [OptimizationTask.outcome, worse]
      · rfl
    have unattended := sparing.unattended
    rw [visits, visit_of_left pending task left] at unattended
    simp [again (.scheduled true) (by simp [OptimizationTask.outcome, otherToo])] at unattended

end GroupProgress

section Simulation

variable {environment : Environment} {master : MasterState} {group : Group}

def Environment.Answers (environment : Environment) (answer : Option SolutionType) : Prop :=
  ∃ moonshot call store ring, answer = (solveRing environment moonshot call store ring).map Prod.snd

def Elsewhere (group : Group) (master next : MasterState) : Prop :=
  ∀ other, other ≠ group → next.progress other = master.progress other

theorem getRingTopology_pending (pending : (master.progress group).optimal = false)
    (includeRegistered : Bool) {fail : Exit → Prop} :
    (getRingTopology group includeRegistered).Meets master
      (fun _ next => next.progress = master.progress) fail := by
  have open_ : master.topology.topologyIsOptimal group = false := pending
  have refreshed : ∃ next, master.refreshRing group includeRegistered = some next ∧
      next.progress = master.progress := by
    unfold MasterState.refreshRing
    split
    · refine ⟨_, if_neg (by simp [MasterState.staysOptimal, open_]), ?_⟩
      funext other
      simp [MasterState.progress, MasterState.setTopology, ← open_]
    · exact ⟨master, rfl, rfl⟩
  obtain ⟨next, found, same⟩ := refreshed
  refine .read ?_
  rw [found]
  exact same

theorem setTask_meets (task : Option OptimizationTask) {fail : Exit → Prop} :
    (setTask group task).Meets master
      (fun _ next => Elsewhere group master next ∧
        next.progress group = ⟨(master.progress group).optimal, task⟩) fail := by
  refine meets_modify _ |>.mpr ⟨fun other apart => ?_, ?_⟩
  · simp [MasterState.progress, MasterState.setTopology, apart]
  · simp [MasterState.progress, MasterState.setTopology]

theorem startTask_meets (pending : (master.progress group).optimal = false) (moonshot : Bool)
    {fail : Exit → Prop} :
    (startTask environment group moonshot).Meets master
      (fun _ next => Elsewhere group master next ∧ ∃ solution,
        next.progress group = ⟨false, some (.solving moonshot solution)⟩ ∧
          environment.Answers (solution.map Prod.snd)) fail := by
  refine Meets.bind (getRingTopology_pending pending false) fun ring middle same => ?_
  have open_ : ¬ middle.topology.topologyIsOptimal group = true := by
    have here := congrArg GroupProgress.optimal (congrFun same group)
    simp_all [MasterState.progress]
  refine .read ?_
  rw [if_neg open_]
  refine .write ?_
  refine (setTask_meets _).imp (fun _ next moved => ?_) fun _ exit => exit
  have there : next.progress group = ⟨false, some (.solving moonshot (solveRing environment moonshot
      middle.topology.solverCalls middle.topology.bandwidthStore ring))⟩ := by
    rw [moved.2]
    simpa [MasterState.progress, MasterState.setTopology] using open_
  exact ⟨fun other apart => (moved.1 other apart).trans (congrFun same other), _, there,
    moonshot, _, _, ring, rfl⟩

theorem finishTask_meets (pending : (master.progress group).optimal = false) (moonshot : Bool)
    (solution : Option (List Uuid × SolutionType)) :
    (finishTask group moonshot solution).Meets master
      (fun _ next => Elsewhere group master next ∧ ∃ ring kind, solution = some (ring, kind) ∧
        next.progress group = ⟨kind = .optimal, some .finished⟩) fun _ => solution = none := by
  have open_ : master.topology.topologyIsOptimal group = false := pending
  cases solution with
  | none => rfl
  | some found =>
    obtain ⟨ring, kind⟩ := found
    -- The flag of the group says whether the answer is optimal, also where the ring stays.
    have settled : (when (hasImproved moonshot kind) (set
        ((master.setRingTopology group ring (kind = .optimal)).getD master)) : MasterM Unit).Meets master
        (fun _ next => Elsewhere group master next ∧
          (next.progress group).optimal = decide (kind = .optimal)) fun _ => some (ring, kind) = none := by
      refine (meets_when _ _).mpr ⟨fun _ => meets_set _ |>.mpr ?_, fun same => ⟨fun _ _ => rfl, ?_⟩⟩
      · have replaced : ¬ master.staysOptimal group ring = true := by
          simp [MasterState.staysOptimal, open_]
        rw [MasterState.setRingTopology, if_neg replaced]
        refine ⟨fun other apart => ?_, ?_⟩
        · simp [MasterState.progress, MasterState.setTopology, apart]
        · simp [MasterState.progress, MasterState.setTopology]
      · rw [pending]
        cases kind <;> simp_all [hasImproved]
    refine .read (Meets.bind settled fun _ middle moved => ?_)
    refine (setTask_meets _).imp (fun _ next later => ?_) fun _ exit => exit
    refine ⟨fun other apart => (later.1 other apart).trans (moved.1 other apart), ring, kind, rfl, ?_⟩
    rw [later.2, moved.2]

theorem joinTask_meets {task : OptimizationTask} (pending : (master.progress group).optimal = false)
    (present : (master.progress group).task = some task) :
    (joinTask environment group).Meets master
      (fun _ next => Elsewhere group master next ∧ ∃ answer optimal, environment.Answers answer ∧
        task.outcome answer = some optimal ∧ next.progress group = ⟨optimal, some .finished⟩)
      fun _ => ∃ answer, environment.Answers answer ∧ task.outcome answer = none := by
  have idle (master : MasterState) (done : (master.progress group).task = some .finished)
      {post : Unit → MasterState → Prop} {fail : Exit → Prop} (holds : post () master) :
      (stepTask environment group).Meets master post fail := by
    have found : master.topology.optimizationTasks group = some .finished := done
    refine .read ?_
    rw [found]
    exact holds
  have finishes (master : MasterState) (moonshot : Bool) (solution : Option (List Uuid × SolutionType))
      (at_ : master.progress group = ⟨false, some (.solving moonshot solution)⟩) :
      (stepTask environment group).Meets master
        (fun _ next => Elsewhere group master next ∧ ∃ ring kind, solution = some (ring, kind) ∧
          next.progress group = ⟨kind = .optimal, some .finished⟩) fun _ => solution = none := by
    have found : master.topology.optimizationTasks group = some (.solving moonshot solution) :=
      congrArg GroupProgress.task at_
    refine .read ?_
    rw [found]
    exact finishTask_meets (congrArg GroupProgress.optimal at_) moonshot solution
  -- For a task that has its answer, any call will do.
  have some_ : environment.Answers ((solveRing environment false 0 master.topology.bandwidthStore
    []).map Prod.snd) := ⟨false, 0, _, [], rfl⟩
  have found : master.topology.optimizationTasks group = some task := present
  rcases task with moonshot | ⟨moonshot, solution⟩ | _
  · refine Meets.bind (?_ : Meets _ _ (fun _ middle => Elsewhere group master middle ∧ ∃ solution,
      middle.progress group = ⟨false, some (.solving moonshot solution)⟩ ∧
        environment.Answers (solution.map Prod.snd)) _) ?_
    · refine .read ?_
      rw [found]
      exact startTask_meets pending moonshot
    · rintro _ middle ⟨apart, solution, at_, answers⟩
      refine (finishes middle moonshot solution at_).imp ?_ ?_
      · rintro _ next ⟨later, ring, kind, rfl, done⟩
        exact ⟨fun other away => (later other away).trans (apart other away), some kind, _, answers, rfl,
          done⟩
      · rintro exit rfl
        exact ⟨none, answers, rfl⟩
  · have at_ : master.progress group = ⟨false, some (.solving moonshot solution)⟩ := by
      rw [← pending, ← present]
    refine Meets.bind ((finishes master moonshot solution at_).imp (fun _ _ kept => kept) ?_) ?_
    · rintro exit rfl
      exact ⟨_, some_, rfl⟩
    · rintro _ middle ⟨apart, ring, kind, rfl, done⟩
      exact idle middle (congrArg GroupProgress.task done) ⟨apart, _, _, some_, rfl, done⟩
  · have at_ : master.progress group = ⟨false, some .finished⟩ := by rw [← pending, ← present]
    have kept : Elsewhere group master master := fun _ _ => rfl
    exact (meets_bind _ _).mpr (idle master present (idle master present
      ⟨kept, _, false, some_, rfl, at_⟩))

theorem notedVisit_meets (notes : List (Group × TaskAction)) :
    (notedVisit environment group).Meets (master, notes)
      (fun _ after => Elsewhere group master after.1 ∧ ∃ answer actions, environment.Answers answer ∧
        (master.progress group).visit answer = (actions, some (after.1.progress group)) ∧
        after.2 = notes ++ actions.map (Prod.mk group))
      fun exit => ∃ answer actions, environment.Answers answer ∧
        (master.progress group).visit answer = (actions, none) ∧
        exit.2 = notes ++ actions.map (Prod.mk group) := by
  refine (meets_bind _ _).mpr (meets_lift _ |>.mpr (meets_get.mpr ?_))
  refine (meets_when _ _).mpr ⟨fun open_ => ?_, fun optimal => ?_⟩
  · have pending : (master.progress group).optimal = false := Bool.eq_false_iff.mpr open_
    refine (meets_bind _ _).mpr (meets_lift _ |>.mpr (meets_get.mpr ((meets_bind _ _).mpr ?_)))
    cases present : (master.progress group).task with
    | none =>
      have found : master.topology.optimizationTasks group = none := present
      rw [found]
      refine (meets_when _ _).mpr ⟨nofun, fun _ => ?_⟩
      refine (meets_bind _ _).mpr (meets_lift _ |>.mpr (meets_get.mpr ?_))
      refine (meets_when _ _).mpr ⟨fun _ => ?_, absurd open_⟩
      refine (meets_bind _ _).mpr (meets_note _ |>.mpr ((meets_bind _ _).mpr (meets_lift _ |>.mpr ?_)))
      refine (setTask_meets _).imp (fun _ middle moved => ?_) fun _ exit => exit
      refine (meets_when _ _).mpr ⟨fun _ => ?_, fun some_ => absurd nofun some_⟩
      refine (meets_bind _ _).mpr (meets_note _ |>.mpr (meets_lift _ |>.mpr ?_))
      refine (joinTask_meets ((congrArg GroupProgress.optimal moved.2).trans pending)
        (congrArg GroupProgress.task moved.2)).imp ?_ ?_
      · rintro _ next ⟨later, answer, optimal, answers, outcome, done⟩
        refine ⟨fun other apart => (later other apart).trans (moved.1 other apart), answer, _, answers,
          (GroupProgress.visit_of_none pending present).trans (Prod.ext rfl ?_), by simp⟩
        obtain ⟨kind, rfl, rfl⟩ := Option.map_eq_some_iff.mp outcome
        exact congrArg some done.symm
      · rintro exit ⟨answer, answers, outcome⟩
        refine ⟨answer, _, answers,
          (GroupProgress.visit_of_none pending present).trans (Prod.ext rfl ?_), by simp⟩
        rw [Option.map_eq_none_iff.mp outcome]
        rfl
    | some task =>
      have found : master.topology.optimizationTasks group = some task := present
      rw [found]
      refine (meets_when _ _).mpr ⟨fun _ => ?_, absurd rfl⟩
      refine (meets_bind _ _).mpr (meets_note _ |>.mpr ((meets_bind _ _).mpr (meets_lift _ |>.mpr ?_)))
      refine (joinTask_meets pending present).imp ?_ ?_
      · rintro _ joined ⟨apart, answer, optimal, answers, outcome, done⟩
        refine meets_lift _ |>.mpr ((setTask_meets none).imp (fun _ middle moved => ?_) fun _ exit => exit)
        have flag : (middle.progress group).optimal = optimal := by rw [moved.2, done]
        have away : Elsewhere group master middle :=
          fun other out => (moved.1 other out).trans (apart other out)
        refine (meets_bind _ _).mpr (meets_lift _ |>.mpr (meets_get.mpr ?_))
        refine (meets_when _ _).mpr ⟨fun left => ?_, fun best => ?_⟩
        · obtain rfl : optimal = false := flag ▸ Bool.eq_false_iff.mpr left
          refine (meets_bind _ _).mpr (meets_note _ |>.mpr ((meets_bind _ _).mpr (meets_lift _ |>.mpr ?_)))
          refine (setTask_meets _).imp (fun _ next later => ?_) fun _ exit => exit
          refine (meets_when _ _).mpr ⟨absurd rfl, fun _ => ?_⟩
          refine ⟨fun other out => (later.1 other out).trans (away other out), answer, _, answers,
            (GroupProgress.visit_of_left pending present outcome).trans (Prod.ext rfl ?_), by simp⟩
          rw [later.2, flag]
          rfl
        · obtain rfl : optimal = true := flag ▸ not_not.mp best
          refine ⟨away, answer, [.awaits], answers, ?_, by simp⟩
          rw [moved.2, done]
          simp [GroupProgress.visit, pending, present, outcome]
      · rintro exit ⟨answer, answers, outcome⟩
        exact ⟨answer, [.awaits], answers, by simp [GroupProgress.visit, pending, present, outcome], by simp⟩
  · exact ⟨fun _ _ => rfl, _, [], ⟨false, 0, master.topology.bandwidthStore, [], rfl⟩,
      GroupProgress.visit_of_optimal (not_not.mp optimal), by simp⟩

/-- The notes are those of the automata, each visited as often as its group is listed. -/
structure Replays (environment : Environment) (start : MasterState) (visited : List Group)
    (notes : List (Group × TaskAction)) (answers : Group → List (Option SolutionType)) : Prop where
  answered : ∀ group, ∀ answer ∈ answers group, environment.Answers answer
  counted : ∀ group, (answers group).length = visited.count group
  traced : ∀ group, trace group notes = ((start.progress group).visits (answers group)).1

def Returned (environment : Environment) (start : MasterState) (visited : List Group)
    (after : MasterState × List (Group × TaskAction)) : Prop :=
  ∃ answers, Replays environment start visited after.2 answers ∧
    ∀ group, ((start.progress group).visits (answers group)).2 = some (after.1.progress group)

def Stopped (environment : Environment) (start : MasterState) (groups : List Group)
    (notes : List (Group × TaskAction)) : Prop :=
  ∃ finished last rest answers, finished ++ last :: rest = groups ∧
    (∀ group ∈ finished, ¬ (start.progress group).fails) ∧
    Replays environment start (finished ++ [last]) notes answers ∧
    ((start.progress last).visits (answers last)).2 = none

theorem trace_append (group : Group) (first second : List (Group × TaskAction)) :
    trace group (first ++ second) = trace group first ++ trace group second := by
  simp [trace]

theorem trace_map_self (group : Group) (actions : List TaskAction) :
    trace group (actions.map (Prod.mk group)) = actions := by
  simp [trace, List.filter_map, Function.comp_def]

theorem trace_map_of_ne {group other : Group} (apart : other ≠ group) (actions : List TaskAction) :
    trace other (actions.map (Prod.mk group)) = [] := by
  simp [trace, List.filter_map, Function.comp_def, apart.symm]

theorem Replays.visit {start : MasterState} {visited : List Group}
    {notes : List (Group × TaskAction)} {answers : Group → List (Option SolutionType)}
    (replays : Replays environment start visited notes answers) {answer : Option SolutionType}
    (answered : environment.Answers answer) {now : GroupProgress} {actions : List TaskAction}
    {next : Option GroupProgress} (reached : ((start.progress group).visits (answers group)).2 = some now)
    (visits : now.visit answer = (actions, next)) :
    Replays environment start (visited ++ [group]) (notes ++ actions.map (Prod.mk group))
        (Function.update answers group (answers group ++ [answer])) ∧
      ((start.progress group).visits (answers group ++ [answer])).2 = next := by
  have extended := @GroupProgress.visits_concat _ _ answer _ reached
  rw [visits] at extended
  refine ⟨⟨fun other => ?_, fun other => ?_, fun other => ?_⟩, congrArg Prod.snd extended⟩
  all_goals by_cases here : other = group
  · subst here
    rw [Function.update_self]
    intro given among
    rcases List.mem_append.mp among with before | last
    · exact replays.answered other given before
    · exact List.mem_singleton.mp last ▸ answered
  · rw [Function.update_of_ne here]
    exact replays.answered other
  · subst here
    simp [replays.counted]
  · simp [Function.update_of_ne here, replays.counted, Ne.symm here]
  · subst here
    rw [Function.update_self, trace_append, trace_map_self, replays.traced, extended]
  · rw [Function.update_of_ne here, trace_append, trace_map_of_ne here, replays.traced, List.append_nil]

theorem Replays.not_fails {start : MasterState} {visited : List Group}
    {notes : List (Group × TaskAction)} {answers : Group → List (Option SolutionType)}
    (replays : Replays environment start visited notes answers) (among : group ∈ visited)
    {now : GroupProgress} (reached : ((start.progress group).visits (answers group)).2 = some now) :
    ¬ (start.progress group).fails := by
  intro fails
  have counted := replays.counted group
  have often := List.count_pos_iff.mpr among
  cases given : answers group with
  | nil =>
    rw [given, List.length_nil] at counted
    omega
  | cons first others =>
    rw [given, GroupProgress.visits, GroupProgress.visit_of_fails fails] at reached
    cases reached

theorem optimizeGroups_replays (groups : List Group) :
    (forEach groups (notedVisit environment)).Meets (master, [])
      (fun _ after => Returned environment master groups after)
      fun exit => Stopped environment master groups exit.2 := by
  refine meets_forEach (fun finished group rest split middle returned => ?_) ?_
  · obtain ⟨answers, replays, reached⟩ := returned
    obtain ⟨middle, notes⟩ := middle
    refine (notedVisit_meets notes).imp ?_ ?_
    · rintro _ ⟨next, _⟩ ⟨apart, answer, actions, answered, visits, rfl⟩
      obtain ⟨further, now⟩ := replays.visit answered (reached group) visits
      refine ⟨_, further, fun other => ?_⟩
      by_cases here : other = group
      · subst here
        rw [Function.update_self]
        exact now
      · rw [Function.update_of_ne here, reached other]
        exact congrArg some (apart other here).symm
    · rintro ⟨exit, _⟩ ⟨answer, actions, answered, visits, rfl⟩
      obtain ⟨further, now⟩ := replays.visit answered (reached group) visits
      refine ⟨finished, group, rest, _, split, fun other among => ?_, further, ?_⟩
      · exact replays.not_fails among (reached other)
      · rw [Function.update_self]
        exact now
  · exact ⟨fun _ => [], ⟨by simp, by simp, fun _ => rfl⟩, fun _ => rfl⟩

def MasterState.visitable (master : MasterState) (groups : List Group) : List Group :=
  groups.takeWhile fun group => ¬ (master.progress group).fails

theorem MasterState.visitable_eq {finished : List Group} (fine : ∀ group ∈ finished,
    ¬ (master.progress group).fails) (rest : List Group) :
    master.visitable (finished ++ rest) = finished ++ master.visitable rest := by
  unfold MasterState.visitable
  exact List.takeWhile_append_of_pos fun group among => by simpa using fine group among

theorem optimizeGroups_sparing {groups : List Group}
    (few : ∀ group, 2 ≤ (master.visitable groups).count group → (master.progress group).settles)
    (group : Group) :
    Sparing (trace group (notesOf (forEach groups (notedVisit environment)) master)) := by
  refine notesOf_of_meets (fun notes => Sparing (trace group notes))
    ((optimizeGroups_replays groups).imp ?_ ?_)
  · rintro _ ⟨next, notes⟩ ⟨answers, replays, reached⟩
    have all : master.visitable groups = groups := by
      have fine : ∀ group ∈ groups, ¬ (master.progress group).fails :=
        fun group among => replays.not_fails among (reached group)
      simpa [MasterState.visitable] using MasterState.visitable_eq fine []
    have bound := few group
    rw [all, ← replays.counted] at bound
    rw [replays.traced]
    refine GroupProgress.visits_sparing ?_
    by_cases many : 2 ≤ (answers group).length
    · exact Or.inr (Or.inr (bound many))
    · exact Or.inl (by omega)
  · rintro ⟨exit, notes⟩ ⟨finished, last, rest, answers, rfl, fine, replays, _⟩
    rw [replays.traced]
    refine GroupProgress.visits_sparing ?_
    by_cases fails : (master.progress group).fails
    · exact Or.inr (Or.inl fails)
    · -- Only the last group may fail, so this one has not been visited more often than it counts.
      have bound := few group
      have most : (finished ++ [last]).count group ≤
          (master.visitable (finished ++ last :: rest)).count group := by
        rw [MasterState.visitable_eq fine, List.count_append, List.count_append]
        refine Nat.add_le_add_left ?_ _
        by_cases same : last = group
        · subst same
          simp [MasterState.visitable, fails]
        · simp [same]
      rw [← replays.counted] at most
      by_cases many : 2 ≤ (answers group).length
      · exact Or.inr (Or.inr (bound (many.trans most)))
      · exact Or.inl (by omega)

def Environment.approximating (environment : Environment) : Environment :=
  { environment with solve := fun _ _ ring => some (ring, .approximate) }

theorem Environment.approximating_open {answer : Option SolutionType}
    (answers : environment.approximating.Answers answer) : GroupProgress.Open answer := by
  obtain ⟨moonshot, call, store, ring, rfl⟩ := answers
  unfold solveRing
  split
  · cases moonshot
    · exact ⟨.approximate, rfl, nofun⟩
    · exact ⟨.noImprovement, rfl, nofun⟩
  · exact ⟨.approximate, rfl, nofun⟩

theorem settles_of_sparing {groups : List Group} (many : 2 ≤ (master.visitable groups).count group)
    (sparing : Sparing (trace group
      (notesOf (forEach groups (notedVisit environment.approximating)) master))) :
    (master.progress group).settles := by
  by_contra unsettled
  have fine : ¬ (master.progress group).fails := by
    have among : group ∈ master.visitable groups := List.count_pos_iff.mp (by omega)
    simpa using List.mem_takeWhile_imp among
  have seen : ∃ visited answers, Replays environment.approximating master visited
      (notesOf (forEach groups (notedVisit environment.approximating)) master) answers ∧
        (master.visitable groups).count group ≤ visited.count group := by
    refine notesOf_of_meets (fun notes => ∃ visited answers, Replays _ master visited notes answers ∧
      _ ≤ visited.count group) ((optimizeGroups_replays groups).imp ?_ ?_)
    · rintro _ ⟨next, notes⟩ ⟨answers, replays, _⟩
      exact ⟨groups, answers, replays, (List.takeWhile_sublist _).count_le group⟩
    · rintro ⟨exit, notes⟩ ⟨finished, last, rest, answers, rfl, others, replays, ended⟩
      have fails : (master.progress last).fails := by
        by_contra going
        refine GroupProgress.visits_of_open going (fun answer among => ?_) ended
        exact Environment.approximating_open (replays.answered last answer among)
      refine ⟨finished ++ [last], answers, replays, ?_⟩
      rw [MasterState.visitable_eq others, List.count_append, List.count_append]
      simp [MasterState.visitable, fails]
  obtain ⟨visited, answers, replays, often⟩ := seen
  rw [replays.traced] at sparing
  refine GroupProgress.not_sparing_of_open fine unsettled ?_ (fun answer among => ?_) sparing
  · rw [replays.counted]
    exact many.trans often
  · exact Environment.approximating_open (replays.answered group answer among)

end Simulation

section Firing

variable {environment : Environment}

theorem notedCompletion_notes {master : MasterState} (registry : master.core.Registry environment)
    (unanimous : master.topologyOptimizationCompleteConsensus = true) :
    ∃ start : MasterState, start.progress = master.progress ∧ ∀ other : Environment,
      notesOf (notedCompletion other) master =
        notesOf (forEach master.getExistingPeerGroups (notedVisit other)) start := by
  have voted := (master.ballotConsensus_iff registry .completeTopologyOptimization).mp unanimous
  have enabled : master.core.enabled .endOptimization := all_advance voted
  have marked := Touches.markMissingUnreachable master
  have ends : (endTopologyOptimizationPhase false).Meets master.markMissingUnreachable
      (fun ended start => ended = true ∧ start.progress = master.progress) fun _ => False := by
    refine (endTopologyOptimizationPhase_meets.and
      (Touches.endTopologyOptimizationPhase false _)).imp (fun ended start both => ?_) fun _ exit => exit.1
    obtain ⟨transits, within⟩ := both
    rw [Keeps.markMissingUnreachable] at transits
    refine ⟨(transits.of_enabled enabled).1, funext fun group => ?_⟩
    have rings := (within .rings (by simp)).trans (marked .rings (by simp))
    have tasks := (within .tasks (by simp)).trans (marked .tasks (by simp))
    exact congrArg₂ GroupProgress.mk (congrFun (congrArg Prod.snd rings) group) (congrFun tasks group)
  obtain ⟨ended, start, returns, rfl, same⟩ := ends.returns
  refine ⟨start, same, fun other => ?_⟩
  unfold notedCompletion
  rw [notesOf_lift_bind rfl, when, if_pos unanimous, notesOf_lift_bind rfl, notesOf_lift_bind returns,
    if_pos rfl, notesOf_bind_lift]

theorem one_task_per_group_iff (environment : Environment) (events : List Event)
    {master middle : MasterState} (reached : run environment events = .ok master) {uuid : Uuid}
    (voted : voteTopologyOptimizationComplete uuid master = .ok (true, middle))
    (unanimous : middle.topologyOptimizationCompleteConsensus = true) :
    (∀ solve group,
        Sparing (trace group (notesOf (notedCompletion { environment with solve }) middle))) ↔
      ∀ group, 2 ≤ (middle.visitable middle.getExistingPeerGroups).count group →
        (middle.progress group).settles := by
  have registry : middle.core.Registry environment := by
    have holds := @run_valid environment events
    rw [reached] at holds
    cases holds with
    | serves valid =>
      have taken := vote_takes .completeTopologyOptimization (by simp) uuid master valid
      have returned : vote .completeTopologyOptimization uuid master = .ok (true, middle) := voted
      rw [Meets, returned] at taken
      obtain ⟨_, enabled, moved⟩ := taken.resolve_right (by simp)
      rw [moved]
      exact (valid.apply enabled).registry
  obtain ⟨start, same, notes⟩ := notedCompletion_notes registry unanimous
  have visitable : start.visitable middle.getExistingPeerGroups =
      middle.visitable middle.getExistingPeerGroups := by
    unfold MasterState.visitable
    rw [same]
  rw [← visitable, ← same]
  constructor
  · intro sparing group many
    have once := sparing (fun _ _ ring => some (ring, .approximate)) group
    rw [notes] at once
    exact settles_of_sparing many once
  · intro few solve group
    rw [notes]
    exact optimizeGroups_sparing few group

end Firing

namespace Sample

def apart : List Event :=
  [join 0 0, report 0 true, join 1 1, establish 0 true, report 0 true, report 1 true,
    optimize 0, optimize 1, workComplete 0]

def trio : List Event :=
  pair ++ third ++ [optimize 0, optimize 1, optimize 2, workComplete 0, workComplete 1]

def completing (uuid : Uuid) (test : MasterState → Bool) (master : MasterState) : Bool :=
  match voteTopologyOptimizationComplete uuid master with
  | .ok (true, middle) => test middle
  | _ => false

theorem exists_of_completing {uuid : Uuid} {test : MasterState → Bool} {master : MasterState}
    (completes : completing uuid test master = true) :
    ∃ middle, voteTopologyOptimizationComplete uuid master = .ok (true, middle) ∧ test middle = true := by
  unfold completing at completes
  split at completes
  next middle voted => exact ⟨middle, voted, completes⟩
  next => cases completes

end Sample

open Sample

theorem one_task_per_group_apart :
    ∃ master middle, run environment apart = .ok master ∧
      voteTopologyOptimizationComplete 1 master = .ok (true, middle) ∧
      middle.getExistingPeerGroups = [1, 0] ∧
      ∀ solve group,
        Sparing (trace group (notesOf (notedCompletion { environment with solve }) middle)) := by
  have passes : (run environment apart).passes (completing 1 fun middle =>
      middle.topologyOptimizationCompleteConsensus && middle.getExistingPeerGroups = [1, 0]) = true := by cbv
  obtain ⟨master, reached, completes⟩ := Server.exists_of_passes passes
  obtain ⟨middle, voted, checked⟩ := exists_of_completing completes
  simp only [Bool.and_eq_true, decide_eq_true_eq] at checked
  refine ⟨master, middle, reached, voted, checked.2, ?_⟩
  refine (one_task_per_group_iff environment apart reached voted checked.1).mpr ?_
  intro group many
  have few := (List.takeWhile_sublist fun group => ¬ (middle.progress group).fails).count_le group
    |>.trans' many
  rw [checked.2] at few
  have once := List.nodup_iff_count_le_one.mp (by decide : [1, 0].Nodup) group
  omega

theorem tasks_for_every_client :
    ∃ master middle, run environment trio = .ok master ∧
      voteTopologyOptimizationComplete 2 master = .ok (true, middle) ∧
      trace 0 (notesOf (notedCompletion environment.approximating) middle) =
        [.schedules false, .awaits, .awaits, .schedules true, .awaits, .schedules true] := by
  have passes : (run environment trio).passes (completing 2 fun middle =>
      trace 0 (notesOf (notedCompletion environment.approximating) middle) =
        [.schedules false, .awaits, .awaits, .schedules true, .awaits, .schedules true]) = true := by cbv
  obtain ⟨master, reached, completes⟩ := Server.exists_of_passes passes
  obtain ⟨middle, voted, checked⟩ := exists_of_completing completes
  exact ⟨master, middle, reached, voted, of_decide_eq_true checked⟩

end Pccl.Master
