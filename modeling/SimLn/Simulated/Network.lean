import SimLn.Simulated
import SimLn.Pipeline.Shutdown

/-!
# SimLn — the network of a simulation

The nodes of `Node.Tasks` are told beforehand which calls will be made on them, while a simulation decides
on its payments as it goes. A `plan` closes the gap: it says of each payment what it will be dispatched as,
and every run has a plan that comes true. Under its plan the network of a simulation is a run of the calls
that the tasks make (`SimulatedRun.network_run`).
-/

namespace SimLn

open Lib

/-! ## Plans -/

/-- The payments dispatched so far are dispatched as planned. -/
def Planned {γ : Type} (plan : Nat → Dispatch) (s : Simulated γ) : Prop :=
  ∀ n d, s.tasks.dispatched[n]? = some d → plan n = d

/-- The node that the calls for a payment are made on. -/
def payer (plan : Nat → Dispatch) : PaymentCall → PublicKey
  | .send n | .track n => (plan n).event.source

/-- The plan of the payments dispatched; what stands in for the others is of no consequence. -/
def Simulated.plan {γ : Type} (s : Simulated γ) (n : Nat) : Dispatch :=
  (s.tasks.dispatched[n]?).getD ⟨⟨⟨0⟩, 0, nodeInfo ⟨0⟩ "", 0⟩, 0⟩

theorem planned_plan {γ : Type} (s : Simulated γ) : Planned s.plan s := by
  intro n d hd
  rw [Simulated.plan, hd]
  rfl

section Runs

variable {γ : Type} {env : Setting} {s s' : Simulated γ} {label : SimulatedEvent}
  {trace : List SimulatedEvent} {plan : Nat → Dispatch}

/-- What will be dispatched as planned has been so far. -/
theorem Planned.of_step (h : Planned plan s') (hstep : SimulatedStep env s label s') :
    Planned plan s := by
  intro n d hd
  apply h n d
  rcases hstep.task_or_call with ⟨e, tasks, -, hs, -, rfl⟩ | ⟨k, es, shared, p, nodeOf, -, -, rfl⟩
  · rcases hs.dispatched with ⟨⟨d', hd'⟩, -⟩ | ⟨hsame, -⟩
    · show tasks.dispatched[n]? = some d
      rw [hd']
      exact getElem?_of_isPrefix (List.prefix_append _ _) hd
    · show tasks.dispatched[n]? = some d
      rwa [hsame]
  · exact hd

/-! ## Calls on their nodes -/

/-- The node of a payment that is being sent, and the one that is asked for its result. -/
theorem Traced.node_of_calling {nodes : Table PublicKey NodeInfo} {steps : List TaskEvent}
    {tasks : Simulation γ} (h : Traced nodes steps tasks)
    (hkeys : ∀ key node, nodes.lookup key = some node → node.pubkey = key) {n : Nat} {node : NodeInfo}
    {dispatch : Dispatch} (hcalling : (n, .calling node dispatch) ∈ tasks.sends) :
    tasks.dispatched[n]? = some dispatch ∧ node.pubkey = dispatch.event.source := by
  obtain ⟨hd, hnode⟩ := h.calling n node dispatch hcalling
  exact ⟨hd, hkeys _ _ hnode⟩

/-- A payment that is tracked was sent to the node that is its source. -/
theorem Traced.node_of_tracking {nodes : Table PublicKey NodeInfo} {steps : List TaskEvent}
    {tasks : Simulation γ} (h : Traced nodes steps tasks)
    (hkeys : ∀ key node, nodes.lookup key = some node → node.pubkey = key) {n : Nat}
    {payment : Payment} (htracking : (n, .tracking payment) ∈ tasks.trackers) :
    ∃ d hash, tasks.dispatched[n]? = some d ∧ payment.source = d.event.source ∧
      payment.hash = some hash ∧ .sent n (.ok hash) ∈ steps := by
  obtain ⟨d, node, outcome, hd, hnode, hsent, houtput⟩ := h.tracking n payment htracking
  cases outcome with
  | error err => cases err <;> cases houtput
  | ok hash =>
    obtain rfl := SimulationOutput.sendPaymentSuccess.inj (Except.ok.inj houtput)
    exact ⟨d, hash, hd, hkeys _ _ hnode, rfl, hsent⟩

/-- What a call does on its node does not depend on where the others are made. -/
theorem NetworkStep.of_nodeOf {network : SimGraph} {k : PaymentCall} {n : PublicKey}
    {nodeOf : PaymentCall → PublicKey} {shared shared' : NetworkState PublicKey PaymentCall}
    {p p' : CallState PaymentCall} {es : List NetworkEvent}
    (h : NetworkStep network (fun _ => n) k shared p es shared' p') (hn : nodeOf k = n) :
    NetworkStep network nodeOf k shared p es shared' p' := by
  subst hn
  cases h with
  | send hsends hstep => exact .send hsends hstep
  | take hphase hstep => exact .take hphase hstep
  | outcome hphase hreceiver houtcome sinceEpoch scorer =>
    exact .outcome hphase hreceiver houtcome sinceEpoch scorer
  | pay htask hstep => exact .pay htask hstep

/-- A step on the network is one of a call on the node that the plan says, or of its payment. -/
theorem SimulatedStep.planned {steps : List TaskEvent} (htraced : Traced env.nodes steps s.tasks)
    (hplan : Planned plan s) {k : PaymentCall} {es : List NetworkEvent}
    (h : SimulatedStep env s (.call k es) s') : ∃ shared p,
      NetworkStep env.network (payer plan) k s.network.shared (s.network.proc k) es shared p ∧
        s' = s.progress k shared p := by
  cases h with
  | @send n node dispatch _ shared p hcalling hstep hroute =>
    obtain ⟨hd, hnode⟩ := htraced.node_of_calling env.keys hcalling
    refine ⟨shared, p, hstep.of_nodeOf ?_, rfl⟩
    rw [payer, hplan n dispatch hd, hnode]
  | @track n payment _ shared p htracking hhash hstep =>
    obtain ⟨d, hash, hd, hsource, -, -⟩ := htraced.node_of_tracking env.keys htracking
    refine ⟨shared, p, hstep.of_nodeOf ?_, rfl⟩
    rw [payer, hplan n d hd, hsource]
  | pay htask hstep => exact ⟨_, _, .pay htask hstep, rfl⟩

end Runs

/-! ## The signal -/

section Signal

variable {ν κ : Type} [DecidableEq ν] [DecidableEq κ] {network : SimGraph} {infos : ν → NodeInfo}
  {nodeOf : κ → ν} {calls : κ → Call} {k : κ} {shared shared' : NetworkState ν κ}
  {p p' : CallState κ} {es : List NetworkEvent} {events : List (κ × NetworkEvent)}
  {w : World κ (NetworkState ν κ) (CallState κ)}

theorem NetworkState.foldl_observe_interrupt (n : ν) (k : κ) (shared : NetworkState ν κ)
    (es : List CallEvent) : es.foldl (observe n k) (shared.interrupt true)
      = (es.foldl (observe n k) shared).interrupt true := by
  induction es generalizing shared with
  | nil => rfl
  | cons e es ih =>
    rw [List.foldl_cons, List.foldl_cons, ← ih]
    rcases e with hash | ⟨hash, result⟩ | ⟨_ | req⟩ | update <;> rfl

omit [DecidableEq ν] in
theorem NetworkState.foldl_notice_interrupt (k : κ) (shared : NetworkState ν κ) (es : List Event) :
    es.foldl (notice k) (shared.interrupt true) = (es.foldl (notice k) shared).interrupt true := by
  induction es generalizing shared with
  | nil => rfl
  | cons e es ih =>
    rw [List.foldl_cons, List.foldl_cons, ← ih]
    cases e <;> rfl

/-- Only a call that waits for an outcome looks at the signal. -/
theorem NetworkStep.of_interrupt
    (h : NetworkStep network nodeOf k (shared.interrupt true) p es shared' p')
    (hphase : p.phase.isTracking = false) : ∃ after, shared' = after.interrupt true ∧
      NetworkStep network nodeOf k shared p es after p' := by
  cases h with
  | @send es node phase hsends hstep =>
    refine ⟨_, ?_, .send hsends hstep⟩
    exact NetworkState.foldl_observe_interrupt _ _ (shared.setNode (nodeOf k) node) _
  | take hphase hstep => exact ⟨_, rfl, .take hphase hstep⟩
  | outcome hwaits =>
    rw [hwaits] at hphase
    cases hphase
  | @pay req phase phase' es channels htask hstep =>
    refine ⟨_, ?_, .pay htask hstep⟩
    exact NetworkState.foldl_notice_interrupt _ { shared with channels } _

omit [DecidableEq ν] [DecidableEq κ] in
theorem NetworkState.interrupt_false (shared : NetworkState ν κ) : shared.interrupt false = shared := by
  rw [interrupt, Bool.or_false]

omit [DecidableEq ν] [DecidableEq κ] in
theorem NetworkState.interrupt_interrupt (shared : NetworkState ν κ) (interrupted : Bool) :
    (shared.interrupt interrupted).interrupt true = shared.interrupt true := by
  simp only [interrupt, Bool.or_true]

/-- A run of the calls, during which the signal may be raised at any time. -/
def InterruptedRun (network : SimGraph) (infos : ν → NodeInfo) (nodeOf : κ → ν) (calls : κ → Call)
    (events : List (κ × NetworkEvent)) (w : World κ (NetworkState ν κ) (CallState κ)) : Prop :=
  NetworkRun network infos nodeOf calls events w ∨
    -- the signal has been raised before the first step
    events = [] ∧ w = ⟨(connected network infos calls).shared.interrupt true,
      (connected network infos calls).proc⟩

/-- An interrupted run goes on with a step of any call. -/
theorem InterruptedRun.step (h : InterruptedRun network infos nodeOf calls events w)
    (hs : NetworkStep network nodeOf k w.shared (w.proc k) es shared' p') :
    InterruptedRun network infos nodeOf calls (events ++ es.map (Prod.mk k))
      ⟨shared', Function.update w.proc k p'⟩ := by
  refine .inl ?_
  rcases h with h | ⟨rfl, rfl⟩
  · have hrun := h.step k hs
    rwa [NetworkState.interrupt_false] at hrun
  · have hphase : (calls k).start.isTracking = false := by cases calls k <;> rfl
    obtain ⟨after, rfl, hafter⟩ := hs.of_interrupt hphase
    exact System.Run.refl.tail ⟨after, true, hafter, rfl⟩

/-- The signal is raised with the last step. -/
theorem InterruptedRun.interrupt (h : InterruptedRun network infos nodeOf calls events w) :
    InterruptedRun network infos nodeOf calls events ⟨w.shared.interrupt true, w.proc⟩ := by
  rcases h with h | ⟨rfl, rfl⟩
  · cases h with
    | refl => exact .inr ⟨rfl, rfl⟩
    | tail hrun hs =>
      obtain ⟨after, interrupted, hs, rfl⟩ := hs
      rw [NetworkState.interrupt_interrupt]
      exact .inl (hrun.tail ⟨after, true, hs, rfl⟩)
  · exact .inr ⟨rfl, by rw [NetworkState.interrupt_interrupt]⟩

end Signal

/-! ## The run of the network -/

section Runs

variable {γ : Type} {env : Setting} {s : Simulated γ} {trace : List SimulatedEvent}
  {plan : Nat → Dispatch}

/-- **The network is a run of the calls that the tasks make.** -/
theorem SimulatedRun.network_run {p : Producer γ} {now : SystemTime} {writeResults : Option UInt32}
    {timeout : Bool} (h : SimulatedRun env (.start env p now writeResults timeout) trace s)
    (hplan : Planned plan s) :
    InterruptedRun env.network env.info (payer plan) env.call (networkEvents trace) s.network := by
  induction h with
  | refl => exact .inl .refl
  | @tail trace s s' label hrun hstep ih =>
    have hplan' := hplan.of_step hstep
    have hrun' := ih hplan'
    obtain ⟨⟨steps, htasks, -⟩, hsignal⟩ := SimulatedRun.tasks_run hrun rfl
    rw [networkEvents_append]
    cases label with
    | task e =>
      cases hstep with
      | @task _ tasks hs hanswered =>
        rw [show networkEvents [.task e] = [] from rfl, List.append_nil]
        show InterruptedRun _ _ _ _ _ ⟨{ s.network.shared with triggered := tasks.shutdown }, _⟩
        cases hraised : tasks.shutdown with
        | true =>
          have hinterrupt := hrun'.interrupt
          rwa [NetworkState.interrupt, Bool.or_true] at hinterrupt
        | false =>
          -- the signal has not been raised before either
          have hquiet : s.network.shared.triggered = false := by
            rw [hsignal]
            by_contra hsignal'
            rw [hs.shutdown_stays (by simpa using hsignal')] at hraised
            cases hraised
          rw [← hquiet]
          exact hrun'
    | call k es =>
      obtain ⟨shared, p, hs, rfl⟩ := hstep.planned (run_traced htasks) hplan'
      have hevents : networkEvents [.call k es] = es.map (Prod.mk k) := by simp [networkEvents]
      rw [hevents]
      exact hrun'.step hs

end Runs

end SimLn
