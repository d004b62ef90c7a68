import SimLn.Pipeline.Producer
import SimLn.Pipeline.Shutdown
import SimLn.RandomActivity.Capacity
import Mathlib.Data.List.ReduceOption

/-!
# SimLn — running a simulation

`run` validates the nodes and the activity, starts the tasks that collect results, sets up the activity,
starts the producer and the task for the total time, and waits for all tasks. While it sets up, the tasks
that it has started already take their steps.

`Pipeline` starts all tasks at once. That is no restriction (`run_refines`): once `run` waits, its tasks
are where a run of `Pipeline` from the producer that was set up has led them. If `run` fails instead, no
payment has been dispatched and none will be.
-/

namespace SimLn

open Lib

/-! ## Validation -/

/-- The chain that a node is on. -/
inductive Network where
  | bitcoin | testnet | testnet4 | signet | regtest
  deriving DecidableEq, Repr

instance : ToString Network where
  toString
    | .bitcoin => "bitcoin"
    | .testnet => "testnet"
    | .testnet4 => "testnet4"
    | .signet => "signet"
    | .regtest => "regtest"

/-- One node in the loop of `validate_node_network`, after those that are all on `runningNetwork`. -/
def checkNetwork (runningNetwork : Option Network) (network : Network) :
    Except LightningError (Option Network) :=
  if network = .bitcoin then
    .error (.validationError "mainnet is not supported")
  else
    let runningNetwork := runningNetwork.or (some network)
    if runningNetwork ≠ some network then
      .error (.validationError s!"nodes are not on the same network {network}.")
    else
      .ok runningNetwork

/-- Validates that the nodes are all on the same network, which is not the main one. -/
def validateNodeNetwork (networks : List Network) : Except LightningError (Option Network) :=
  if networks.isEmpty then
    .error (.validationError
      "we don't control any nodes. Specify at least one node in your config file")
  else
    networks.foldlM checkNetwork none

/-- Only test networks are accepted, and one for all nodes. -/
theorem checkNetwork_ok {running running' : Option Network} {network : Network}
    (h : checkNetwork running network = .ok running') :
    network ≠ .bitcoin ∧ running' = some network ∧ (running = none ∨ running = some network) := by
  unfold checkNetwork at h
  dsimp only at h
  split_ifs at h with hmain hsame
  · obtain rfl := Except.ok.inj h
    refine ⟨hmain, not_not.mp hsame, ?_⟩
    cases running with
    | none => exact .inl rfl
    | some n => exact .inr (not_not.mp hsame)

/-- The loop ends with the network that it has started with, or that of all nodes. -/
theorem foldlM_checkNetwork {networks : List Network} {start running : Option Network}
    (h : networks.foldlM checkNetwork start = .ok running) :
    (∀ n, start = some n → running = some n) ∧ ∀ n ∈ networks, n ≠ .bitcoin ∧ running = some n := by
  induction networks generalizing start with
  | nil =>
    obtain rfl := Except.ok.inj h
    exact ⟨fun n hn => hn, nofun⟩
  | cons network rest ih =>
    obtain ⟨next, hnext, hrest⟩ := foldlM_cons_ok h
    obtain ⟨hmain, rfl, hstart⟩ := checkNetwork_ok hnext
    obtain ⟨hkept, hnodes⟩ := ih hrest
    have hrunning := hkept network rfl
    refine ⟨fun n hn => ?_, fun n hn => ?_⟩
    · rcases hstart with rfl | rfl
      · cases hn
      · exact hn ▸ hrunning
    · rcases List.mem_cons.mp hn with rfl | hn
      · exact ⟨hmain, hrunning⟩
      · exact hnodes n hn

/-- Nodes that pass are on one network. -/
theorem validateNodeNetwork_ok {networks : List Network} {running : Option Network}
    (h : validateNodeNetwork networks = .ok running) :
    ∃ network, running = some network ∧ network ≠ .bitcoin ∧ ∀ n ∈ networks, n = network := by
  unfold validateNodeNetwork at h
  split_ifs at h with hempty
  obtain ⟨-, hnodes⟩ := foldlM_checkNetwork h
  obtain ⟨network, hnetwork⟩ := List.exists_mem_of_ne_nil networks (by simpa using hempty)
  obtain ⟨hmain, hrunning⟩ := hnodes network hnetwork
  exact ⟨network, hrunning, hmain, fun n hn => Option.some.inj ((hnodes n hn).2.symm.trans hrunning)⟩

/-! ## The run -/

/-- What a simulation is created and run with. -/
structure RunConfig (γ : Type) where
  clock : Clock
  csv : Csv
  nodes : Table PublicKey NodeInfo
  /-- The network of each node. -/
  networks : PublicKey → Network
  rng : ThreadRng γ
  totalTime : Option Duration
  /-- The batch size of the results file, if results are written. -/
  writeResults : Option UInt32
  activity : List ActivityDefinition
  /-- What `random_activity_nodes` comes to. -/
  randomActivity : Except RandomActivitySetupError (List (ExecutorKit γ))

/-- The errors of `run`, by where they come from. -/
inductive RunError where
  | invalid (e : LightningError)
  | executors (e : RandomActivitySetupError)
  | paymentEvents (e : SimulationError)

section Config

variable {γ : Type} (cfg : RunConfig γ)

/-- What is checked before any task is started. -/
def RunConfig.validate (g : γ) : Except LightningError γ :=
  match validateNodeNetwork (cfg.nodes.entries.map fun node => cfg.networks node.1) with
  | .error e => .error e
  | .ok _ => validateActivity cfg.rng cfg.nodes cfg.activity g

/-- Without any activity described, random activity is generated. -/
def RunConfig.executors : Except RandomActivitySetupError (List (ExecutorKit γ)) :=
  if cfg.activity.isEmpty then cfg.randomActivity else .ok (activityExecutors cfg.rng cfg.activity)

/-- The producer that is set up for the activity at time `now`. -/
def RunConfig.setUp (now : SystemTime) (g : γ) : Except RunError (Producer γ) :=
  match cfg.executors with
  | .error e => .error (.executors e)
  | .ok executors =>
    match setupPaymentEvents executors now g with
    | .error e => .error (.paymentEvents e)
    | .ok (_, p) => .ok p

/-- The set-up has not come back: it is still choosing the destination of some node's first payment. -/
def RunError.drawing : RunError := .paymentEvents (.destinationGenerationError .outOfAttempts)

/-- Every executor's choices of a destination come back. -/
def RunConfig.DrawsReturn : Prop :=
  ∀ executors, cfg.executors = .ok executors → ∀ ex ∈ executors, ex.networkGenerator.Returns

end Config

/-- Where `run` is. -/
inductive RunPhase where
  | validating
  /-- The tasks that collect results have been started, and `internal_run` has the output sender. -/
  | settingUp
  /-- The producer has been started, and what ends the simulation after its total time has not. -/
  | scheduled
  /-- `internal_run` has returned; the tasks are waited for. -/
  | waiting
  | returned
  /-- The signal has been raised because of an error, which is about to be returned. -/
  | failing (e : RunError)
  | failed (e : RunError)

/-- There is no producer yet. -/
def RunPhase.unscheduled : RunPhase → Bool
  | .validating | .settingUp | .failing _ | .failed _ => true
  | .scheduled | .waiting | .returned => false

/-- A call of `run`, with the tasks that it has started. The random numbers are only `run`'s until it has
started the producer. -/
structure RunState (γ : Type) where
  phase : RunPhase
  tasks : Option (Simulation γ)
  generators : γ

variable {γ : Type}

/-- The tasks that collect results. Until the producer is started its output sender is in the hands of
`internal_run`, which stands here as a producer that takes no step. -/
def dataCollection (now : SystemTime) (writeResults : Option UInt32) (g : γ) : Simulation γ :=
  .start { heap := .empty, paymentsTracker := ∅, generators := g } now writeResults false

/-- One step of `run`, or of a task that it has started. -/
inductive RunStep (cfg : RunConfig γ) (r : RunState γ) : Option TaskEvent → RunState γ → Prop where
  | invalid {e : LightningError} (hphase : r.phase = .validating)
      (h : cfg.validate r.generators = .error e) :
      RunStep cfg r none { r with phase := .failed (.invalid e) }
  | collect {g : γ} (now : SystemTime) (hphase : r.phase = .validating)
      (h : cfg.validate r.generators = .ok g) :
      RunStep cfg r none ⟨.settingUp, some (dataCollection now cfg.writeResults g), g⟩
  | schedule {tasks : Simulation γ} {p : Producer γ} (now : SystemTime) (hphase : r.phase = .settingUp)
      (htasks : r.tasks = some tasks) (h : cfg.setUp now r.generators = .ok p) :
      RunStep cfg r none
        { r with phase := .scheduled, tasks := some { tasks with producer := .looping p, now } }
  /-- A set-up that has not come back takes no step. -/
  | giveUp {tasks : Simulation γ} {e : RunError} (now : SystemTime) (hphase : r.phase = .settingUp)
      (htasks : r.tasks = some tasks) (h : cfg.setUp now r.generators = .error e)
      (hback : e ≠ .drawing) :
      RunStep cfg r none
        { r with phase := .failing e, tasks := some { tasks with shutdown := true } }
  /-- The output sender is dropped. -/
  | fail {tasks : Simulation γ} {e : RunError} (hphase : r.phase = .failing e)
      (htasks : r.tasks = some tasks) :
      RunStep cfg r none
        { r with phase := .failed e, tasks := some { tasks with producer := .finished } }
  | startTimeout {tasks : Simulation γ} (hphase : r.phase = .scheduled) (htasks : r.tasks = some tasks) :
      RunStep cfg r none
        { r with phase := .waiting, tasks := some { tasks with timeout := cfg.totalTime.isSome } }
  | finish {tasks : Simulation γ} (hphase : r.phase = .waiting) (htasks : r.tasks = some tasks)
      (hdone : tasks.Done) : RunStep cfg r none { r with phase := .returned }
  | task {tasks tasks' : Simulation γ} {e : TaskEvent} (htasks : r.tasks = some tasks)
      (h : SimulationStep cfg.clock cfg.csv cfg.nodes tasks e tasks')
      (hproducer : r.phase.unscheduled = true → tasks'.producer = tasks.producer) :
      RunStep cfg r (some e) { r with tasks := some tasks' }

def RunState.start (g : γ) : RunState γ := ⟨.validating, none, g⟩

abbrev RunRun (cfg : RunConfig γ) (g : γ) (trace : List (Option TaskEvent)) (r : RunState γ) : Prop :=
  Steps (RunStep cfg) (.start g) trace r

/-! ## Steps that do not look at the producer -/

section Steps

variable {clock : Clock} {csv : Csv} {nodes : Table PublicKey NodeInfo} {s s' : Simulation γ}
  {e : TaskEvent}

/-- Of the producer another task only sees whether it has ended its loop. A total time that nothing waits
for yet is not looked at either. -/
theorem SimulationStep.with_producer (h : SimulationStep clock csv nodes s e s')
    (htimeout : s.timeout = false) : ProducerStep clock nodes s e s' ∨
      (s'.producer = s.producer ∧ s'.now = s.now ∧ s'.dispatched = s.dispatched) ∧
      s'.timeout = false ∧ ∀ (producer : ProducerPhase γ) now timeout, producer.ended = s.producer.ended →
        SimulationStep clock csv nodes { s with producer, now, timeout } e
          { s' with producer, now, timeout } := by
  rcases h.producer_or_frame with hstep | ⟨hproducer, hnow, hdispatched, -⟩
  · exact .inl hstep
  have hframe := And.intro hproducer (And.intro hnow hdispatched)
  cases h with
  | producer h => exact .inl h
  | send h =>
    refine .inr ⟨hframe, by cases h <;> exact htimeout, fun _ _ _ _ => .send ?_⟩
    cases h with
    | sent hsends houtput => exact .sent hsends houtput
    | fail hsends houtput => exact .fail hsends houtput
    | send hsends hfree hopen => exact .send hsends hfree hopen
    | closed hsends hclosed => exact .closed hsends hclosed
    | trigger hfailed => exact .trigger hfailed
  | resultsProducer h =>
    refine .inr ⟨hframe, by cases h <;> exact htimeout, fun producer _ _ hsame => .resultsProducer ?_⟩
    cases h with
    | track hphase houtput hnode => exact .track hphase houtput hnode
    | missingNode hphase houtput hnode => exact .missingNode hphase houtput hnode
    | report hphase houtput => exact .report hphase houtput
    | finish hphase houtput hended hsends => exact .finish hphase houtput (hsame.trans hended) hsends
    | leave hphase hsignal => exact .leave hphase hsignal
    | poll hphase hsignal => exact .poll hphase hsignal
    | send hphase hfree hopen => exact .send hphase hfree hopen
    | closed hphase hclosed => exact .closed hphase hclosed
    | pending hphase hfull => exact .pending hphase hfull
    | exit hphase => exact .exit hphase
  | tracker h =>
    refine .inr ⟨hframe, by cases h <;> exact htimeout, fun _ _ _ _ => .tracker ?_⟩
    cases h with
    | tracked htrackers => exact .tracked htrackers
    | abandoned htrackers hsignal => exact .abandoned htrackers hsignal
    | leave htrackers hsignal => exact .leave htrackers hsignal
    | poll htrackers hsignal => exact .poll htrackers hsignal
    | send htrackers hfree hopen => exact .send htrackers hfree hopen
    | closed htrackers hclosed => exact .closed htrackers hclosed
    | pending htrackers hfull => exact .pending htrackers hfull
  | consumer h =>
    refine .inr ⟨hframe, by cases h <;> exact htimeout, fun _ _ _ _ => .consumer ?_⟩
    cases h with
    | start hphase hwriter => exact .start hphase hwriter
    | startFailed hphase hwriter => exact .startFailed hphase hwriter
    | leave hphase hsignal => exact .leave hphase hsignal
    | poll hphase hsignal => exact .poll hphase hsignal
    | receive hphase hresults => exact .receive hphase hresults
    | finish hphase hresults hended htrackers => exact .finish hphase hresults hended htrackers
    | pending hphase hresults => exact .pending hphase hresults
    | record hphase hqueue => exact .record hphase hqueue
    | recordFailed hphase hqueue => exact .recordFailed hphase hqueue
    | close hphase hclose => exact .close hphase hclose
    | closeFailed hphase hclose => exact .closeFailed hphase hclose
    | exit hphase => exact .exit hphase
  | background h =>
    refine .inr ?_
    cases h with
    | log htask hsignal => exact ⟨hframe, htimeout, fun _ _ _ _ => .background (.log htask hsignal)⟩
    | leaveLogger htask hsignal =>
      exact ⟨hframe, htimeout, fun _ _ _ _ => .background (.leaveLogger htask hsignal)⟩
    | timedOut htask | leaveTimeout htask => cases htimeout.symm.trans htask
    | shutdown => exact ⟨hframe, htimeout, fun _ _ _ _ => .background .shutdown⟩

/-- The producer does not look at the total time. -/
theorem ProducerStep.with_timeout (h : ProducerStep clock nodes s e s') (timeout : Bool) :
    ProducerStep clock nodes { s with timeout } e { s' with timeout } ∧ s'.timeout = s.timeout := by
  cases h with
  | poll hphase hsignal => exact ⟨.poll hphase hsignal, rfl⟩
  | leave hphase hsignal => exact ⟨.leave hphase hsignal, rfl⟩
  | pop hphase hnow => exact ⟨.pop hphase hnow, rfl⟩
  | pollSleep hphase hsignal => exact ⟨.pollSleep hphase hsignal, rfl⟩
  | leaveSleep hphase hsignal => exact ⟨.leaveSleep hphase hsignal, rfl⟩
  | pending hphase => exact ⟨.pending hphase, rfl⟩
  | fail hphase hnow hgenerate => exact ⟨.fail hphase hnow hgenerate, rfl⟩
  | dispatch hphase hnow hgenerate htime hnode =>
    exact ⟨.dispatch hphase hnow hgenerate htime hnode, rfl⟩
  | trigger hphase => exact ⟨.trigger hphase, rfl⟩

/-- Each step of the producer moves it on. -/
theorem ProducerStep.producer_ne (h : ProducerStep clock nodes s e s')
    (hphase : (∃ p, s.producer = .looping p) ∨ s.producer = .finished) : s'.producer ≠ s.producer := by
  intro hsame
  rcases hphase with ⟨p, hphase⟩ | hphase
  · cases h with
    | poll | leave => cases hphase.symm.trans hsame.symm
    | pop h | pollSleep h | leaveSleep h | pending h | fail h | dispatch h | trigger h =>
      cases hphase.symm.trans h
  · cases h with
    | poll h | leave h | pop h | pollSleep h | leaveSleep h | pending h | fail h | dispatch h
    | trigger h => cases hphase.symm.trans h

end Steps

/-! ## What `run` comes to -/

/-- Where the tasks are in each phase of `run`. Until the producer is there, whatever producer is set up,
its run could have begun with the steps so far. -/
inductive Stage (cfg : RunConfig γ) (g₀ : γ) (events : List TaskEvent) : RunState γ → Prop where
  | validating (hquiet : events = []) : Stage cfg g₀ events ⟨.validating, none, g₀⟩
  | invalid {e : LightningError} {g : γ} (h : cfg.validate g₀ = .error e) :
      Stage cfg g₀ events ⟨.failed (.invalid e), none, g⟩
  | settingUp {tasks : Simulation γ} {p₀ : Producer γ} {g : γ} (hvalid : cfg.validate g₀ = .ok g)
      (hproducer : tasks.producer = .looping p₀) (htimeout : tasks.timeout = false)
      (hidle : tasks.dispatched = [])
      (hrun : ∀ (p : Producer γ) now timeout, SimulationRun cfg.clock cfg.csv cfg.nodes
        (.start p now cfg.writeResults timeout) events
        { tasks with producer := .looping p, now, timeout }) :
      Stage cfg g₀ events ⟨.settingUp, some tasks, g⟩
  | scheduled {tasks : Simulation γ} {p : Producer γ} {now : SystemTime} {g : γ}
      (hvalid : cfg.validate g₀ = .ok g) (hsetUp : cfg.setUp now g = .ok p)
      (htimeout : tasks.timeout = false)
      (hrun : ∀ timeout, SimulationRun cfg.clock cfg.csv cfg.nodes
        (.start p now cfg.writeResults timeout) events { tasks with timeout }) :
      Stage cfg g₀ events ⟨.scheduled, some tasks, g⟩
  | waiting {tasks : Simulation γ} {p : Producer γ} {now : SystemTime} {g : γ}
      (hvalid : cfg.validate g₀ = .ok g) (hsetUp : cfg.setUp now g = .ok p)
      (hrun : SimulationRun cfg.clock cfg.csv cfg.nodes
        (.start p now cfg.writeResults cfg.totalTime.isSome) events tasks) :
      Stage cfg g₀ events ⟨.waiting, some tasks, g⟩
  | returned {tasks : Simulation γ} {p : Producer γ} {now : SystemTime} {g : γ}
      (hvalid : cfg.validate g₀ = .ok g) (hsetUp : cfg.setUp now g = .ok p)
      (hrun : SimulationRun cfg.clock cfg.csv cfg.nodes
        (.start p now cfg.writeResults cfg.totalTime.isSome) events tasks) (hdone : tasks.Done) :
      Stage cfg g₀ events ⟨.returned, some tasks, g⟩
  | failing {tasks : Simulation γ} {p₀ : Producer γ} {now : SystemTime} {e : RunError} {g : γ}
      (hvalid : cfg.validate g₀ = .ok g) (hsetUp : cfg.setUp now g = .error e)
      (hproducer : tasks.producer = .looping p₀) (hsignal : tasks.shutdown = true)
      (hidle : tasks.dispatched = []) : Stage cfg g₀ events ⟨.failing e, some tasks, g⟩
  | failed {tasks : Simulation γ} {now : SystemTime} {e : RunError} {g : γ}
      (hvalid : cfg.validate g₀ = .ok g) (hsetUp : cfg.setUp now g = .error e)
      (hproducer : tasks.producer = .finished) (hsignal : tasks.shutdown = true)
      (hidle : tasks.dispatched = []) : Stage cfg g₀ events ⟨.failed e, some tasks, g⟩

section Runs

variable {cfg : RunConfig γ} {g₀ : γ} {r r' : RunState γ} {trace : List (Option TaskEvent)}
  {events : List TaskEvent} {label : Option TaskEvent}

/-- Once all tasks have finished, only the signal is left to be raised. -/
theorem SimulationStep.done {clock : Clock} {csv : Csv} {nodes : Table PublicKey NodeInfo}
    {s s' : Simulation γ} {e : TaskEvent} (h : SimulationStep clock csv nodes s e s') (hdone : s.Done) :
    s'.Done := by
  obtain ⟨hproducer, hsends, hfailed, hresults, htrackers, hconsumer, hlogger, htimeout⟩ := hdone
  cases h with
  | producer h => cases h <;> simp_all
  | send h => cases h <;> simp_all
  | resultsProducer h => cases h <;> simp_all
  | tracker h => cases h <;> simp_all
  | consumer h => cases h <;> simp_all
  | background h =>
    cases h with
    | log | leaveLogger | timedOut | leaveTimeout => simp_all
    | shutdown =>
      exact ⟨hproducer, hsends, hfailed, hresults, htrackers, hconsumer, hlogger, htimeout⟩

/-- A step of a task that `run` has started. -/
theorem Stage.task {tasks tasks' : Simulation γ} {phase : RunPhase} {g : γ} {e : TaskEvent}
    (h : Stage cfg g₀ events ⟨phase, some tasks, g⟩)
    (hs : SimulationStep cfg.clock cfg.csv cfg.nodes tasks e tasks')
    (hsame : phase.unscheduled = true → tasks'.producer = tasks.producer) :
    Stage cfg g₀ (events ++ [e]) ⟨phase, some tasks', g⟩ := by
  cases h with
  | @settingUp _ p₀ _ hvalid hproducer htimeout hidle hrun =>
    obtain ⟨⟨-, -, hdispatched⟩, htimeout', hstep⟩ := (hs.with_producer htimeout).resolve_left
      fun hstep => hstep.producer_ne (.inl ⟨_, hproducer⟩) (hsame rfl)
    refine .settingUp hvalid ((hsame rfl).trans hproducer) htimeout' (hdispatched.trans hidle) ?_
    intro p now timeout
    exact (hrun p now timeout).tail (hstep (.looping p) now timeout (by rw [hproducer]; rfl))
  | scheduled hvalid hsetUp htimeout hrun =>
    refine .scheduled hvalid hsetUp ?_ fun timeout => (hrun timeout).tail ?_
    all_goals rcases hs.with_producer htimeout with hstep | ⟨⟨hproducer, hnow, -⟩, htimeout', hstep⟩
    · exact (hstep.with_timeout false).2.trans htimeout
    · exact htimeout'
    · exact .producer (hstep.with_timeout timeout).1
    · have hstep := hstep tasks.producer tasks.now timeout rfl
      obtain ⟨⟩ := tasks'
      subst hproducer hnow
      exact hstep
  | waiting hvalid hsetUp hrun => exact .waiting hvalid hsetUp (hrun.tail hs)
  | returned hvalid hsetUp hrun hdone => exact .returned hvalid hsetUp (hrun.tail hs) (hs.done hdone)
  | failing hvalid hsetUp hproducer hsignal hidle =>
    obtain ⟨-, -, hdispatched, -⟩ := hs.producer_or_frame.resolve_left
      fun hstep => hstep.producer_ne (.inl ⟨_, hproducer⟩) (hsame rfl)
    exact .failing hvalid hsetUp ((hsame rfl).trans hproducer) (hs.shutdown_stays hsignal)
      (hdispatched.trans hidle)
  | failed hvalid hsetUp hproducer hsignal hidle =>
    obtain ⟨-, -, hdispatched, -⟩ := hs.producer_or_frame.resolve_left
      fun hstep => hstep.producer_ne (.inr hproducer) (hsame rfl)
    exact .failed hvalid hsetUp ((hsame rfl).trans hproducer) (hs.shutdown_stays hsignal)
      (hdispatched.trans hidle)

/-- A step of `run` goes on with the stage it is in or enters the next one. -/
theorem Stage.step (h : Stage cfg g₀ events r) (hs : RunStep cfg r label r') :
    Stage cfg g₀ (events ++ label.toList) r' := by
  cases hs with
  | invalid hphase hinvalid =>
    cases h with
    | validating => exact .invalid hinvalid
    | _ => cases hphase
  | collect now hphase hvalid =>
    cases h with
    | validating hquiet =>
      subst hquiet
      exact .settingUp hvalid rfl rfl rfl fun _ _ _ => .refl
    | _ => cases hphase
  | schedule now hphase htasks hsetUp =>
    rw [Option.toList_none, List.append_nil]
    cases h with
    | settingUp hvalid hproducer htimeout hidle hrun =>
      cases htasks
      exact .scheduled hvalid hsetUp htimeout fun timeout => hrun _ now timeout
    | _ => cases hphase
  | giveUp now hphase htasks hsetUp hback =>
    cases h with
    | settingUp hvalid hproducer htimeout hidle hrun =>
      cases htasks
      exact .failing hvalid hsetUp hproducer rfl hidle
    | _ => cases hphase
  | fail hphase htasks =>
    cases h with
    | failing hvalid hsetUp hproducer hsignal hidle =>
      cases hphase
      cases htasks
      exact .failed hvalid hsetUp rfl hsignal hidle
    | _ => cases hphase
  | startTimeout hphase htasks =>
    rw [Option.toList_none, List.append_nil]
    cases h with
    | scheduled hvalid hsetUp htimeout hrun =>
      cases htasks
      exact .waiting hvalid hsetUp (hrun _)
    | _ => cases hphase
  | finish hphase htasks hdone =>
    rw [Option.toList_none, List.append_nil]
    cases h with
    | waiting hvalid hsetUp hrun =>
      cases htasks
      exact .returned hvalid hsetUp hrun hdone
    | _ => cases hphase
  | task htasks hs hproducer =>
    obtain ⟨phase, tasks, g⟩ := r
    obtain rfl := htasks
    exact h.task hs hproducer

/-- Every state of `run` is at one of its stages. -/
theorem run_stage (h : RunRun cfg g₀ trace r) : Stage cfg g₀ trace.reduceOption r := by
  refine h.invariant (I := fun trace r => Stage cfg g₀ trace.reduceOption r) (.validating rfl) ?_
  intro trace r label r' hstage hs
  rw [List.reduceOption_append, List.reduceOption_singleton]
  exact hstage.step hs

/-- The nodes are on one network, which is not the main one. -/
theorem RunConfig.validate_network {g : γ} (h : cfg.validate g₀ = .ok g) :
    ∃ network, network ≠ .bitcoin ∧ ∀ key ∈ cfg.nodes, cfg.networks key = network := by
  unfold RunConfig.validate at h
  cases hnetwork : validateNodeNetwork (cfg.nodes.entries.map fun node => cfg.networks node.1) with
  | error e =>
    rw [hnetwork] at h
    cases h
  | ok running =>
    obtain ⟨network, -, hmain, hsame⟩ := validateNodeNetwork_ok hnetwork
    refine ⟨network, hmain, fun key hkey => hsame _ ?_⟩
    obtain ⟨entry, hentry, rfl⟩ := List.mem_map.mp (AList.mem_keys.mp hkey)
    exact List.mem_map_of_mem hentry

/-- What a user relies on while `run` goes on and after it has come back. -/
structure RunSafe (cfg : RunConfig γ) (g₀ : γ) (events : List TaskEvent) (r : RunState γ) : Prop where
  /-- Nothing is started on the main network, or across networks. -/
  network : ∀ tasks, r.tasks = some tasks →
    ∃ network, network ≠ .bitcoin ∧ ∀ key ∈ cfg.nodes, cfg.networks key = network
  /-- Nothing is dispatched unless everything has been validated and set up. -/
  idle : ∀ tasks, r.tasks = some tasks → r.phase.unscheduled = true → tasks.dispatched = []
  /-- From then on the tasks are those of `Pipeline`. -/
  refines : r.phase.unscheduled = false → ∃ tasks g now p timeout, r.tasks = some tasks ∧
    cfg.validate g₀ = .ok g ∧ cfg.setUp now g = .ok p ∧
    SimulationRun cfg.clock cfg.csv cfg.nodes (.start p now cfg.writeResults timeout) events tasks
  returned : r.phase = .returned → ∃ tasks, r.tasks = some tasks ∧ tasks.Done
  /-- What has been started for a set-up that fails is told to shut down. -/
  failed : ∀ e tasks, r.phase = .failed e → r.tasks = some tasks → tasks.shutdown = true

/-- **A run is one of the pipeline, or none.** Whatever steps the tasks take while `run` still validates
and sets up, and however that goes. -/
theorem run_refines (h : RunRun cfg g₀ trace r) : RunSafe cfg g₀ trace.reduceOption r := by
  have hstage := run_stage h
  generalize trace.reduceOption = events at hstage
  constructor
  case network =>
    intro tasks htasks
    cases hstage with
    | validating | invalid => cases htasks
    | settingUp hvalid | scheduled hvalid | waiting hvalid | returned hvalid | failing hvalid
    | failed hvalid => exact RunConfig.validate_network hvalid
  case idle =>
    intro tasks htasks hphase
    cases hstage with
    | validating | invalid => cases htasks
    | settingUp _ _ _ hidle | failing _ _ _ _ hidle | failed _ _ _ _ hidle =>
      cases htasks
      exact hidle
    | scheduled | waiting | returned => cases hphase
  case refines =>
    intro hphase
    cases hstage with
    | scheduled hvalid hsetUp _ hrun => exact ⟨_, _, _, _, _, rfl, hvalid, hsetUp, hrun _⟩
    | waiting hvalid hsetUp hrun | returned hvalid hsetUp hrun =>
      exact ⟨_, _, _, _, _, rfl, hvalid, hsetUp, hrun⟩
    | _ => cases hphase
  case returned =>
    intro hphase
    cases hstage with
    | returned _ _ _ hdone => exact ⟨_, rfl, hdone⟩
    | _ => cases hphase
  case failed =>
    intro e tasks hphase htasks
    cases hstage with
    | invalid => cases htasks
    | failed _ _ _ hsignal =>
      cases htasks
      exact hsignal
    | _ => cases hphase

end Runs

/-- One payment on a test network, whose result is not written. -/
def onePaymentConfig : RunConfig Unit where
  clock := .exact
  csv := reliableCsv
  nodes := sampleNodes
  networks _ := .regtest
  rng := lowestRng
  totalTime := none
  writeResults := none
  activity := [sampleActivity 1 2 1 1]
  randomActivity := .ok []

theorem onePaymentConfig_setUp : onePaymentConfig.setUp 0 ()
    = .ok (onePayment (MinHeap.empty.push (onePaymentEvent 1)) 0) := by
  have hexecutors : onePaymentConfig.executors
      = .ok (activityExecutors lowestRng [sampleActivity 1 2 1 1]) := rfl
  simp only [RunConfig.setUp, hexecutors, onePayment_setup]

theorem run_refines_onePayment : ∃ trace r, RunRun onePaymentConfig () trace r ∧
    r.phase = .returned ∧ RunSafe onePaymentConfig () trace.reduceOption r := by
  have h : RunRun onePaymentConfig () _ _ := .refl
  have h := h.tail (.collect 0 rfl rfl)
  -- the consumer starts before the producer is there
  have h := h.tail (.task rfl (.consumer (.start rfl rfl)) fun _ => rfl)
  have h := h.tail (.schedule 0 rfl rfl onePaymentConfig_setUp)
  have h := h.tail (.startTimeout rfl rfl)
  have h := h.tail (.task rfl (.background .shutdown) nofun)
  have h := h.tail (.task rfl (.producer (.leave rfl rfl)) nofun)
  have h := h.tail (.task rfl (.producer (.trigger rfl)) nofun)
  have h := h.tail (.task rfl (.resultsProducer (.finish rfl rfl rfl rfl)) nofun)
  have h := h.tail (.task rfl (.resultsProducer (.exit rfl)) nofun)
  have h := h.tail (.task rfl (.consumer (.leave rfl rfl)) nofun)
  have h := h.tail (.task rfl (.consumer (.close rfl rfl)) nofun)
  have h := h.tail (.task rfl (.consumer (.exit rfl)) nofun)
  have h := h.tail (.task rfl (.background (.leaveLogger rfl rfl)) nofun)
  have h := h.tail (.finish rfl rfl ⟨rfl, rfl, rfl, rfl, rfl, rfl, rfl, rfl⟩)
  exact ⟨_, _, h, rfl, run_refines h⟩

/-! ## The end of a run -/

section Runs

variable {cfg : RunConfig γ} {g₀ : γ} {r r' : RunState γ} {trace : List (Option TaskEvent)}
  {events : List TaskEvent} {label : Option TaskEvent}

/-- A step of `run` or of one of its tasks: every step but raising the signal from outside. -/
def RunProgress (cfg : RunConfig γ) (r : RunState γ) (label : Option TaskEvent) (r' : RunState γ) : Prop :=
  RunStep cfg r label r' ∧ label ≠ some .shutdown

/-- How far `run` is from its end. -/
def RunPhase.stepsLeft : RunPhase → Nat
  | .validating => 4
  | .settingUp => 3
  | .scheduled => 2
  | .waiting | .failing _ => 1
  | .returned | .failed _ => 0

/-- The steps that are left of `run`, and those of its tasks. -/
def RunState.rank (r : RunState γ) : ℕ × ℕ :=
  (r.phase.stepsLeft, (r.tasks.map Simulation.remaining).getD 0)

/-- `run` has come back, and its tasks have finished. -/
def RunState.Over (r : RunState γ) : Prop :=
  (r.phase = .returned ∨ ∃ e, r.phase = .failed e) ∧ ∀ tasks, r.tasks = some tasks → tasks.Done

/-- After the signal, every step of `run` lowers its rank. -/
theorem RunProgress.rank_lt (hs : RunProgress cfg r label r')
    (hsignal : ∀ tasks, r.tasks = some tasks → tasks.shutdown = true) :
    Prod.Lex (· < ·) (· < ·) r'.rank r.rank := by
  obtain ⟨hs, hlabel⟩ := hs
  cases hs with
  | task htasks hs hproducer =>
    have hlt := TaskStep.decreases ⟨hs, by simpa using hlabel⟩ (hsignal _ htasks)
    unfold RunState.rank
    rw [htasks]
    exact .right _ hlt
  | invalid hphase | collect now hphase | schedule now hphase | giveUp now hphase | fail hphase
  | startTimeout hphase | finish hphase =>
    refine .left _ _ ?_
    simp only [hphase, RunPhase.stepsLeft]
    omega

/-- A delay is drawn by a payment generator. -/
theorem getPaymentDelay_error {completed : Nat} {generator : PaymentGenerator γ} {g : γ}
    {err : SimulationError} (h : getPaymentDelay completed generator g = .error err) :
    ∃ e, err = .paymentGenerationError e := by
  have hwait : ∀ {drawn : Except PaymentGenerationError (Duration × γ)},
      drawn.mapError .paymentGenerationError = .error err → ∃ e, err = .paymentGenerationError e := by
    intro drawn hdrawn
    cases drawn with
    | error e =>
      cases hdrawn
      exact ⟨e, rfl⟩
    | ok wait => cases hdrawn
  unfold getPaymentDelay at h
  split at h
  · exact hwait h
  · split at h
    · cases h
    · exact hwait h

/-- The first payment of an executor whose choices come back is generated, or fails for good. -/
theorem Producer.generatePayment_ne_outOfAttempts {p : Producer γ} {pubkey : PublicKey}
    {tracker : ExecutorPaymentTracker γ} {base : SystemTime}
    (hlookup : p.paymentsTracker.lookup pubkey = some tracker)
    (hreturns : tracker.executor.networkGenerator.Returns) :
    p.generatePayment pubkey base ≠ .error (.destinationGenerationError .outOfAttempts) := by
  intro h
  unfold Producer.generatePayment at h
  rw [hlookup] at h
  dsimp only at h
  split at h
  case h_1 e hdelay =>
    cases h
    obtain ⟨e, he⟩ := getPaymentDelay_error hdelay
    cases he
  case h_2 wait g hdelay =>
    split at h
    · cases h
    · split at h
      case h_1 e hchosen =>
        cases h
        exact hreturns _ _ hchosen
      case h_2 =>
        split at h <;> cases h

/-- With generators whose draws return, set-up never runs out of attempts. -/
theorem setupExecutors_ne_outOfAttempts {executors : List (ExecutorKit γ)} {p : Producer γ}
    {now : SystemTime} (hreturns : ∀ ex ∈ executors, ex.networkGenerator.Returns) :
    setupExecutors now executors p ≠ .error (.destinationGenerationError .outOfAttempts) := by
  induction executors generalizing p with
  | nil => nofun
  | cons executor rest ih =>
    intro h
    simp only [setupExecutors] at h
    split at h
    case h_1 e hgenerate =>
      cases h
      exact Producer.generatePayment_ne_outOfAttempts (AList.lookup_insert _)
        (hreturns _ List.mem_cons_self) hgenerate
    case h_2 delay p' hgenerate =>
      split at h
      case h_1 e hrest =>
        cases h
        exact ih (fun ex hex => hreturns ex (List.mem_cons_of_mem _ hex)) hrest
      case h_2 => cases h

/-- With generators whose draws return, set-up is never left drawing. -/
theorem RunConfig.setUp_ne_drawing {now : SystemTime} {g : γ} (hreturns : cfg.DrawsReturn) :
    cfg.setUp now g ≠ .error .drawing := by
  intro h
  unfold RunConfig.setUp at h
  split at h
  case h_1 => cases h
  case h_2 executors hexecutors =>
    split at h
    case h_1 e hsetup =>
      cases h
      refine setupExecutors_ne_outOfAttempts (fun ex hex => ?_) hsetup
      exact hreturns _ hexecutors ex ((List.perm_insertionSort _ _).mem_iff.mp hex)
    case h_2 => cases h

/-- What is defined by the user has its destinations. -/
theorem drawsReturn_of_defined (hdefined : cfg.activity ≠ []) : cfg.DrawsReturn := by
  intro executors hexecutors ex hex
  rw [RunConfig.executors, if_neg (by simpa using hdefined)] at hexecutors
  cases hexecutors
  obtain ⟨activity, -, rfl⟩ := List.mem_map.mp hex
  exact DefinedPaymentActivity.returns_destinationGenerator _

/-- There is a step to take until all is over, once the signal has been raised. -/
theorem Stage.over_or_progress (h : Stage cfg g₀ events r) (hclock : ∀ t, ∃ t', cfg.clock.idle t t')
    (hreturns : cfg.DrawsReturn) (hstarted : r.phase ≠ .validating)
    (hsignal : ∀ tasks, r.tasks = some tasks → tasks.shutdown = true) :
    r.Over ∨ ∃ label r', RunProgress cfg r label r' := by
  cases h with
  | validating => exact absurd rfl hstarted
  | invalid => exact .inl ⟨.inr ⟨_, rfl⟩, fun _ heq => nomatch heq⟩
  | @settingUp tasks _ g =>
    refine .inr ?_
    cases hsetUp : cfg.setUp 0 g with
    | ok p => exact ⟨_, _, .schedule 0 rfl rfl hsetUp, nofun⟩
    | error e =>
      refine ⟨_, _, .giveUp 0 rfl rfl hsetUp ?_, nofun⟩
      rintro rfl
      exact RunConfig.setUp_ne_drawing hreturns hsetUp
  | scheduled => exact .inr ⟨_, _, .startTimeout rfl rfl, nofun⟩
  | @waiting tasks =>
    refine .inr ?_
    by_cases hdone : tasks.Done
    · exact ⟨_, _, .finish rfl rfl hdone, nofun⟩
    · obtain ⟨e, tasks', hs, he⟩ := exists_taskStep hclock (hsignal _ rfl) hdone
      exact ⟨_, _, .task rfl hs nofun, by simpa using he⟩
  | returned _ _ _ hdone =>
    refine .inl ⟨.inl rfl, fun _ heq => ?_⟩
    cases heq
    exact hdone
  | failing => exact .inr ⟨_, _, .fail rfl rfl, nofun⟩
  | @failed tasks _ err _ _ _ hproducer =>
    by_cases hdone : tasks.Done
    · refine .inl ⟨.inr ⟨_, rfl⟩, fun _ heq => ?_⟩
      cases heq
      exact hdone
    · obtain ⟨e, tasks', hs, he⟩ := exists_taskStep hclock (hsignal _ rfl) hdone
      refine .inr ⟨_, _, .task rfl hs fun _ => ?_, by simpa using he⟩
      -- the producer has never been started
      rcases hs.producer_or_frame with hstep | ⟨hsame, -⟩
      · cases hstep <;> cases hproducer.symm.trans ‹_›
      · exact hsame

/-- The signal is never taken back. -/
theorem RunStep.signal_stays (hs : RunStep cfg r label r') (hstarted : r.phase ≠ .validating)
    (hsignal : ∀ tasks, r.tasks = some tasks → tasks.shutdown = true) :
    r'.phase ≠ .validating ∧ ∀ tasks, r'.tasks = some tasks → tasks.shutdown = true := by
  cases hs with
  | invalid hphase | collect now hphase => exact absurd hphase hstarted
  | schedule now hphase htasks | startTimeout hphase htasks | fail hphase htasks =>
    have hraised := hsignal _ htasks
    refine ⟨nofun, fun tasks heq => ?_⟩
    cases heq
    exact hraised
  | giveUp =>
    refine ⟨nofun, fun tasks heq => ?_⟩
    cases heq
    rfl
  | finish hphase htasks => exact ⟨nofun, hsignal⟩
  | task htasks hs =>
    refine ⟨hstarted, fun tasks heq => ?_⟩
    cases heq
    exact hs.shutdown_stays (hsignal _ htasks)

/-- **A run comes back**, if its choices of destinations do. Once the signal has been raised, `run` comes
back, with its tasks finished or with an error that leaves none going. -/
theorem run_comes_back (h : RunRun cfg g₀ trace r) (hclock : ∀ t, ∃ t', cfg.clock.idle t t')
    (hreturns : cfg.DrawsReturn) {tasks : Simulation γ} (htasks : r.tasks = some tasks)
    (hsignal : tasks.shutdown = true) :
    Inevitably (RunProgress cfg) RunState.Over r := by
  have hstarted : r.phase ≠ .validating := by
    intro hphase
    cases run_stage h with
    | validating => cases htasks
    | _ => cases hphase
  refine Inevitably.of_rank (WellFounded.prod_lex Nat.lt_wfRel.wf Nat.lt_wfRel.wf) RunState.rank
    (I := fun r => (∃ events, Stage cfg g₀ events r) ∧ r.phase ≠ .validating ∧
      ∀ tasks, r.tasks = some tasks → tasks.shutdown = true) (fun r hr => ?_)
    ⟨⟨_, run_stage h⟩, hstarted, fun tasks' heq => ?_⟩
  · obtain ⟨⟨events, hstage⟩, hstarted, hsignal⟩ := hr
    rcases hstage.over_or_progress hclock hreturns hstarted hsignal with hover | hgo
    · exact .inl hover
    · refine .inr ⟨hgo, fun label r' hs => ⟨⟨⟨_, hstage.step hs.1⟩, ?_⟩, hs.rank_lt hsignal⟩⟩
      exact hs.1.signal_stays hstarted hsignal
  · rw [htasks] at heq
    cases heq
    exact hsignal

end Runs

/-- Draws that take turns between the first two nodes. -/
def turningRand : Rand ℚ Bool where
  seedFromU64 _ := false
  hash _ := 0
  weightedIndex weights :=
    if h : 1 < weights.length then
      .ok fun turn => (⟨turn.toNat, Nat.lt_of_le_of_lt turn.toNat_le h⟩, !turn)
    else
      .error "No weights provided in distribution."
  exp _ := .ok fun turn => (60, turn)
  logNormal _ _ := .ok fun turn => (3800000, turn)

/-- Two nodes that pay each other at random, on a test network. -/
def twoNodesConfig : RunConfig (RandomState Bool) where
  clock := .exact
  csv := reliableCsv
  nodes := (∅ : Table PublicKey NodeInfo).insert firstKey (nodeInfo firstKey "")
    |>.insert secondKey (nodeInfo secondKey "")
  networks _ := .regtest
  rng :=
    { genRangeU16 := fun lo _ g => (lo, g)
      genRangeU64 := fun lo _ g => (lo, g)
      genRangeU16_mem := fun _ h => ⟨UInt16.le_refl _, h⟩
      genRangeU64_mem := fun _ h => ⟨UInt64.le_refl _, h⟩ }
  totalTime := none
  writeResults := none
  activity := []
  randomActivity := randomActivityNodes seededFloats turningRand ⟨3800000, 2⟩ 2 seededReports id

/-- Of two draws in turn one is not the source. -/
theorem twoNodesConfig_drawsReturn : twoNodesConfig.DrawsReturn := by
  intro executors hexecutors
  have hkits : randomActivityNodes seededFloats turningRand ⟨3800000, 2⟩ 2 seededReports id
      = .ok executors := hexecutors
  refine returns_randomActivityNodes hkits fun active view hpass hview source turn hchoose => ?_
  obtain ⟨table, htable, rfl⟩ := hpass
  cases htable
  cases hview
  simp only [NetworkGraphView.chooseDestination] at hchoose
  split_ifs at hchoose with hfirst hsecond
  rw [not_not] at hfirst hsecond
  have hne := hfirst.trans hsecond.symm
  cases turn <;> exact absurd hne (by decide)

/-- The signal is raised before the producer of random activity has been set up. -/
theorem run_comes_back_twoNodes : ∃ trace r,
    RunRun twoNodesConfig (.new turningRand (some 2332) 0 fun _ => 0) trace r ∧
    r.phase = .settingUp ∧ Inevitably (RunProgress twoNodesConfig) RunState.Over r := by
  have h : RunRun twoNodesConfig (.new turningRand (some 2332) 0 fun _ => 0) _ _ := .refl
  have h := h.tail (.collect 0 rfl rfl)
  have h := h.tail (.task rfl (.background .shutdown) fun _ => rfl)
  exact ⟨_, _, h, rfl, run_comes_back h (fun t => ⟨t, rfl⟩) twoNodesConfig_drawsReturn rfl rfl⟩

end SimLn
