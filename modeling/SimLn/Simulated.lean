import SimLn.Node.Tracked
import SimLn.Pipeline.Records

/-!
# SimLn — a simulation on a simulated network

A simulation that is run on a simulated network is one system of three parts: the tasks of `Pipeline`, the
calls that these make on their nodes, and the payments that the calls dispatch. A task that waits for a
call goes on with what the call has returned, and the parts share one shutdown signal: the network is
created with the trigger and the listener that the simulation is created with.

Its tasks are a run of `Pipeline` (`SimulatedRun.tasks_run`), and its network is a run of `Node.Tasks`
(`SimulatedRun.network_run`). So what has been proved of either holds here, of what the other really does.
-/

namespace SimLn

open Lib

/-! ## The system -/

/-- The calls that are made for payment `n`. -/
inductive PaymentCall where
  | send (n : Nat)
  | track (n : Nat)
  deriving DecidableEq

/-- Where a path leads. -/
def Path.destination (path : Path) : PublicKey := (path.hops.getLast path.hops_ne).pubkey

/-- Pathfinding, with what it promises of the routes that it finds from a node to another for an amount. -/
structure Pathfinder where
  finds : PublicKey → PublicKey → UInt64 → Route → Prop
  pays : ∀ {source destination amount route}, finds source destination amount route →
    ∀ path ∈ route.paths, path.destination = destination ∧ path.finalValueMsat = amount

/-- What a simulation is run with. Each of its nodes goes by its own key. -/
structure Setting where
  clock : Clock
  csv : Csv
  nodes : Table PublicKey NodeInfo
  network : SimGraph
  pathfinder : Pathfinder
  /-- The hashes that payments draw at random. -/
  hashes : Nat → PaymentHash
  keys : ∀ key node, nodes.lookup key = some node → node.pubkey = key

namespace Setting

variable (env : Setting)

def info (key : PublicKey) : NodeInfo := (env.nodes.lookup key).getD (nodeInfo key "")

def call : PaymentCall → Call
  | .send _ => .sendPayment
  | .track n => .trackPayment (env.hashes n)

/-- The routes that may be found for a payment. -/
def Finds (dispatch : Dispatch) (route : Route) : Prop :=
  env.pathfinder.finds dispatch.event.source dispatch.event.destination.pubkey dispatch.event.amount route

theorem info_pubkey (key : PublicKey) : (env.info key).pubkey = key := by
  unfold info
  cases hnode : env.nodes.lookup key with
  | none => rfl
  | some node => exact env.keys key node hnode

end Setting

/-- The tasks of a simulation and the network that it is run on. -/
structure Simulated (γ : Type) where
  tasks : Simulation γ
  network : World PaymentCall (NetworkState PublicKey PaymentCall) (CallState PaymentCall)

inductive SimulatedEvent where
  | task (e : TaskEvent)
  | call (k : PaymentCall) (es : List NetworkEvent)

namespace Simulated

variable {γ : Type}

/-- A task that goes on does so with what its call has returned. -/
structure Answered (s : Simulated γ) (e : TaskEvent) (tasks : Simulation γ) : Prop where
  sent : ∀ n outcome, e = .sent n outcome →
    (s.network.proc (.send n)).phase = .returned (.sent outcome)
  tracked : ∀ n outcome, e = .tracked n outcome →
    (s.network.proc (.track n)).phase = .returned (.tracked outcome)
  /-- Nothing else takes a tracker out of its call. -/
  waiting : e = .internal → ∀ n payment, (n, .tracking payment) ∈ s.tasks.trackers →
    (n, .tracking payment) ∈ tasks.trackers

/-- The tasks have taken a step. -/
def advance (s : Simulated γ) (tasks : Simulation γ) : Simulated γ :=
  { tasks
    network :=
      { shared := { s.network.shared with triggered := tasks.shutdown }
        proc := s.network.proc } }

/-- Call `k` or its payment has taken a step. -/
def progress (s : Simulated γ) (k : PaymentCall) (shared : NetworkState PublicKey PaymentCall)
    (p : CallState PaymentCall) : Simulated γ :=
  { tasks := { s.tasks with shutdown := shared.triggered }
    network := { shared, proc := Function.update s.network.proc k p } }

end Simulated

section Steps

variable {γ : Type}

/-- One step of the tasks, of a call that a task waits for, or of a payment on the channels. -/
inductive SimulatedStep (env : Setting) (s : Simulated γ) :
    SimulatedEvent → Simulated γ → Prop where
  | task {e : TaskEvent} {tasks : Simulation γ}
      (h : SimulationStep env.clock env.csv env.nodes s.tasks e tasks) (hanswered : s.Answered e tasks) :
      SimulatedStep env s (.task e) (s.advance tasks)
  /-- The hash is drawn and the route is found in the first step of the call. -/
  | send {n : Nat} {node : NodeInfo} {dispatch : Dispatch} {es : List NetworkEvent}
      {shared : NetworkState PublicKey PaymentCall} {p : CallState PaymentCall}
      (hcalling : (n, .calling node dispatch) ∈ s.tasks.sends)
      (hstep : NetworkStep env.network (fun _ => node.pubkey) (.send n) s.network.shared
        (s.network.proc (.send n)) es shared p)
      (hroute : ∀ hash route, p.phase = .sendPayment hash route →
        hash = env.hashes n ∧ ∀ found, route = .ok found → env.Finds dispatch found) :
      SimulatedStep env s (.call (.send n) es) (s.progress (.send n) shared p)
  | track {n : Nat} {payment : Payment} {es : List NetworkEvent}
      {shared : NetworkState PublicKey PaymentCall} {p : CallState PaymentCall}
      (htracking : (n, .tracking payment) ∈ s.tasks.trackers)
      (hhash : payment.hash = some (env.hashes n))
      (hstep : NetworkStep env.network (fun _ => payment.source) (.track n) s.network.shared
        (s.network.proc (.track n)) es shared p) :
      SimulatedStep env s (.call (.track n) es) (s.progress (.track n) shared p)
  | pay {k : PaymentCall} {req : PropagatePaymentRequest} {phase phase' : Phase} {es : List Event}
      {channels : Channels} (htask : (s.network.proc k).task = some (req, phase))
      (hstep : Step req s.network.shared.channels phase es channels phase') :
      SimulatedStep env s (.call k (es.map .payment))
        (s.progress k (es.foldl (NetworkState.notice k) { s.network.shared with channels })
          { s.network.proc k with task := some (req, phase') })

/-- The tasks as they are started, on a network that nothing has happened on yet. -/
def Simulated.start (env : Setting) (p : Producer γ) (now : SystemTime)
    (writeResults : Option UInt32) (timeout : Bool) : Simulated γ :=
  { tasks := .start p now writeResults timeout
    network := connected env.network env.info env.call }

abbrev SimulatedRun (env : Setting) (start : Simulated γ) (trace : List SimulatedEvent)
    (s : Simulated γ) : Prop :=
  Steps (SimulatedStep env) start trace s

end Steps

/-- What happens on the network. -/
def networkEvents (trace : List SimulatedEvent) : List (PaymentCall × NetworkEvent) :=
  trace.flatMap fun
    | .task _ => []
    | .call k es => es.map (Prod.mk k)

@[simp] theorem networkEvents_append (trace trace' : List SimulatedEvent) :
    networkEvents (trace ++ trace') = networkEvents trace ++ networkEvents trace' :=
  List.flatMap_append

/-! ## The tasks of the system -/

section Runs

variable {γ : Type} {env : Setting} {s s' : Simulated γ} {label : SimulatedEvent}
  {trace : List SimulatedEvent}

theorem SimulatedStep.task_or_call (h : SimulatedStep env s label s') :
    (∃ e tasks, label = .task e ∧ SimulationStep env.clock env.csv env.nodes s.tasks e tasks ∧
      s.Answered e tasks ∧ s' = s.advance tasks) ∨
    ∃ k es shared p nodeOf, label = .call k es ∧ NetworkStep env.network nodeOf k s.network.shared
      (s.network.proc k) es shared p ∧ s' = s.progress k shared p := by
  cases h with
  | task h hanswered => exact .inl ⟨_, _, rfl, h, hanswered, rfl⟩
  | send hcalling hstep hroute => exact .inr ⟨_, _, _, _, _, rfl, hstep, rfl⟩
  | track htracking hhash hstep => exact .inr ⟨_, _, _, _, _, rfl, hstep, rfl⟩
  | pay htask hstep =>
    exact .inr ⟨_, _, _, _, fun _ => ⟨0⟩, rfl, .pay htask hstep, rfl⟩

/-- To the tasks a step on the network is none of theirs, but it may raise the signal. -/
theorem SimulatedStep.tasks_progress {k : PaymentCall} {nodeOf : PaymentCall → PublicKey}
    {es : List NetworkEvent} {shared : NetworkState PublicKey PaymentCall}
    {p : CallState PaymentCall}
    (hs : NetworkStep env.network nodeOf k s.network.shared (s.network.proc k) es shared p)
    (hsignal : s.network.shared.triggered = s.tasks.shutdown) :
    (s.progress k shared p).tasks = s.tasks ∨
      (s.progress k shared p).tasks = { s.tasks with shutdown := true } := by
  show { s.tasks with shutdown := shared.triggered } = _ ∨ _
  cases htriggered : shared.triggered with
  | true => exact .inr (congrArg (fun shutdown => { s.tasks with shutdown }) htriggered)
  | false =>
    have hquiet : s.tasks.shutdown = false := by
      rw [← hsignal]
      by_contra hraised
      rw [hs.triggered (by simpa using hraised)] at htriggered
      cases htriggered
    rw [← hquiet]
    exact .inl rfl

/-- **The tasks are a run of the pipeline.** What the network does comes to them as answers of the nodes
and as a shutdown signal from outside. -/
theorem SimulatedRun.tasks_run {start : Simulated γ} (h : SimulatedRun env start trace s)
    (hsignal : start.network.shared.triggered = start.tasks.shutdown) :
    (∃ steps, SimulationRun env.clock env.csv env.nodes start.tasks steps s.tasks ∧
      ∀ e, e ≠ .shutdown → (e ∈ steps ↔ .task e ∈ trace)) ∧
    s.network.shared.triggered = s.tasks.shutdown := by
  induction h with
  | refl => exact ⟨⟨[], .refl, by simp⟩, hsignal⟩
  | tail _ hstep ih =>
    obtain ⟨⟨steps, hrun, hsteps⟩, hsignal⟩ := ih
    rcases hstep.task_or_call with ⟨e, tasks, rfl, h, -, rfl⟩ | ⟨k, es, shared, p, nodeOf, rfl, hs, rfl⟩
    · refine ⟨⟨_, hrun.tail h, fun e' he' => ?_⟩, rfl⟩
      simp [hsteps e' he']
    · refine ⟨?_, rfl⟩
      rcases SimulatedStep.tasks_progress hs hsignal with heq | heq
      · exact ⟨steps, heq ▸ hrun, fun e he => by simp [hsteps e he]⟩
      · refine ⟨_, heq ▸ hrun.tail (.background .shutdown), fun e he => ?_⟩
        simp [hsteps e he, he]

end Runs

end SimLn
