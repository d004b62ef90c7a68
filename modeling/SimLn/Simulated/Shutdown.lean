import SimLn.Node.Returns
import SimLn.Simulated.Records

/-!
# SimLn — a simulation comes to its end

After the shutdown signal a simulation on its network comes to its end, whatever steps it takes
(`simulation_ends`). Here a task cannot leave a node's call at will: it goes on once the call has returned,
and the call may wait for a node whose lock another call has. That one is waited for by a task as well
(`Awaited`), so it is not abandoned with the lock in its hand. It is about to dispatch, or it tracks a
payment and is told of the shutdown.

Three numbers decrease in turn: the steps that are left of the tasks, of the calls, and of the payments.
-/

namespace SimLn

open Lib

/-! ## Calls that are waited for -/

section Tasks

variable {γ : Type} {clock : Clock} {csv : Csv} {nodes : Table PublicKey NodeInfo}
  {s s' : Simulation γ} {e : TaskEvent} {n : Nat}

/-- A task that has asked a node to send a payment stays until the call has returned. -/
theorem SimulationStep.calling_or_sent (h : SimulationStep clock csv nodes s e s') {node : NodeInfo}
    {dispatch : Dispatch} (hcalling : (n, .calling node dispatch) ∈ s.sends) :
    (n, .calling node dispatch) ∈ s'.sends ∨ ∃ outcome, e = .sent n outcome := by
  cases h with
  | producer h =>
    cases h with
    | dispatch => exact .inl (List.mem_append_left _ hcalling)
    | _ => exact .inl hcalling
  | send h =>
    cases h with
    | @sent before after m node' dispatch' outcome output hsends =>
      by_cases hm : n = m
      · exact .inr ⟨outcome, by rw [hm]⟩
      · exact .inl ((mem_of_ne_middle hsends hcalling fun heq => hm (congrArg Prod.fst heq)).2 _)
    | @fail before after m node' dispatch' outcome err hsends =>
      by_cases hm : n = m
      · exact .inr ⟨outcome, by rw [hm]⟩
      · exact .inl (mem_of_ne_middle hsends hcalling fun heq => hm (congrArg Prod.fst heq)).1
    | send hsends | closed hsends => exact .inl (mem_of_ne_middle hsends hcalling (by simp)).1
    | trigger => exact .inl hcalling
  | resultsProducer h => cases h <;> exact .inl hcalling
  | tracker h => cases h <;> exact .inl hcalling
  | consumer h => cases h <;> exact .inl hcalling
  | background h => cases h <;> exact .inl hcalling

/-- A payment that is dispatched gets a task, which asks its node to send it. -/
theorem SimulationStep.calling_of_dispatched (h : SimulationStep clock csv nodes s e s')
    (hbefore : s.dispatched.length ≤ n) (hafter : n < s'.dispatched.length) :
    ∃ node dispatch, (n, .calling node dispatch) ∈ s'.sends := by
  have hsame : s'.dispatched = s.dispatched → False := fun heq => by
    rw [heq] at hafter
    omega
  cases h with
  | producer h =>
    cases h with
    | @dispatch event wait delay p p' now time node =>
      obtain rfl : n = s.dispatched.length := by
        simp only [List.length_append, List.length_singleton] at hafter
        omega
      exact ⟨node, ⟨event, time⟩, List.mem_append_right _ List.mem_cons_self⟩
    | _ => exact (hsame rfl).elim
  | send h => cases h <;> exact (hsame rfl).elim
  | resultsProducer h => cases h <;> exact (hsame rfl).elim
  | tracker h => cases h <;> exact (hsame rfl).elim
  | consumer h => cases h <;> exact (hsame rfl).elim
  | background h => cases h <;> exact (hsame rfl).elim

/-- A task that has asked a node for a result stays until the call has returned, if it does not abandon
the call. -/
theorem SimulationStep.tracking_or_tracked (h : SimulationStep clock csv nodes s e s')
    {payment : Payment} (htracking : (n, .tracking payment) ∈ s.trackers) :
    (n, .tracking payment) ∈ s'.trackers ∨ (∃ outcome, e = .tracked n outcome) ∨ e = .internal := by
  cases h with
  | producer h => cases h <;> exact .inl htracking
  | send h => cases h <;> exact .inl htracking
  | resultsProducer h =>
    cases h with
    | track => exact .inl (List.mem_append_left _ htracking)
    | _ => exact .inl htracking
  | tracker h =>
    cases h with
    | @tracked before after m payment' outcome htrackers =>
      by_cases hm : n = m
      · exact .inr (.inl ⟨outcome, by rw [hm]⟩)
      · exact .inl ((mem_of_ne_middle htrackers htracking fun heq => hm (congrArg Prod.fst heq)).2 _)
    | abandoned | poll | send | pending => exact .inr (.inr rfl)
    | leave htrackers | closed htrackers => exact .inl (mem_of_ne_middle htrackers htracking (by simp)).1
  | consumer h => cases h <;> exact .inl htracking
  | background h => cases h <;> exact .inl htracking

end Tasks

section Runs

variable {γ : Type} {env : Setting} {s s' : Simulated γ} {label : SimulatedEvent}
  {trace : List SimulatedEvent} {tasks : Producer γ} {now : SystemTime} {writeResults : Option UInt32}
  {timeout : Bool} {n : Nat}

/-- A call that has begun has a task that waits for it. -/
structure Awaited (s : Simulated γ) : Prop where
  sending : ∀ n, n < s.tasks.dispatched.length →
    (∃ node dispatch, (n, .calling node dispatch) ∈ s.tasks.sends) ∨
      ∃ outcome, (s.network.proc (.send n)).phase = .returned (.sent outcome)
  unsent : ∀ n, s.tasks.dispatched.length ≤ n → s.network.proc (.send n) = ⟨.findingRoute, none, none⟩
  tracking : ∀ n inFlight, (s.network.proc (.track n)).phase = .tracking inFlight →
    ∃ payment, (n, .tracking payment) ∈ s.tasks.trackers

/-- Only payments that have been dispatched have tasks. -/
theorem Awaited.length_of_task (h : Awaited s) {req : PropagatePaymentRequest} {phase : Phase}
    (htask : (s.network.proc (.send n)).task = some (req, phase)) : n < s.tasks.dispatched.length := by
  by_contra hlater
  rw [h.unsent n (Nat.not_lt.mp hlater)] at htask
  cases htask

theorem TrackCall.task_ne {p : CallState PaymentCall} {task : PropagatePaymentRequest × Phase}
    (h : TrackCall env n p) : p.task ≠ some task := by
  cases h <;> exact nofun

/-- A step of a call that is waited for, or of its payment. -/
theorem Awaited.progress (h : Awaited s) {k : PaymentCall} {shared : NetworkState PublicKey PaymentCall}
    {p : CallState PaymentCall}
    (hsend : ∀ n, k = .send n → n < s.tasks.dispatched.length ∧
      ((∃ node dispatch, (n, .calling node dispatch) ∈ s.tasks.sends) ∨
        ∃ outcome, p.phase = .returned (.sent outcome)))
    (htrack : ∀ n, k = .track n → ∃ payment, (n, .tracking payment) ∈ s.tasks.trackers) :
    Awaited (s.progress k shared p) where
  sending n hn := by
    by_cases hk : PaymentCall.send n = k
    · refine (hsend n hk.symm).2.imp_right fun hreturned => ?_
      subst hk
      rwa [show (s.progress (.send n) shared p).network.proc (.send n) = p from Function.update_self _ _ _]
    · refine (h.sending n hn).imp_right fun hreturned => ?_
      rwa [show (s.progress k shared p).network.proc (.send n) = s.network.proc (.send n) from
        Function.update_of_ne hk _ _]
  unsent n hn := by
    have hk : PaymentCall.send n ≠ k := fun hk => absurd (hsend n hk.symm).1 (Nat.not_lt.mpr hn)
    exact (Function.update_of_ne hk _ _).trans (h.unsent n hn)
  tracking n inFlight hphase := by
    by_cases hk : PaymentCall.track n = k
    · exact htrack n hk.symm
    · rw [show (s.progress k shared p).network.proc (.track n) = s.network.proc (.track n) from
        Function.update_of_ne hk _ _] at hphase
      exact h.tracking n inFlight hphase

theorem Awaited.advance (h : Awaited s) {e : TaskEvent} {tasks : Simulation γ}
    (hs : SimulationStep env.clock env.csv env.nodes s.tasks e tasks) (hanswered : s.Answered e tasks) :
    Awaited (s.advance tasks) where
  sending n hn := by
    rcases Nat.lt_or_ge n s.tasks.dispatched.length with hbefore | hbefore
    · rcases h.sending n hbefore with ⟨node, dispatch, hcalling⟩ | hreturned
      · rcases hs.calling_or_sent hcalling with hstays | ⟨outcome, he⟩
        · exact .inl ⟨node, dispatch, hstays⟩
        · exact .inr ⟨outcome, hanswered.sent n outcome he⟩
      · exact .inr hreturned
    · exact .inl (hs.calling_of_dispatched hbefore hn)
  unsent n hn := by
    refine h.unsent n ?_
    change tasks.dispatched.length ≤ n at hn
    rcases hs.dispatched with ⟨⟨d, heq⟩, -⟩ | ⟨heq, -⟩
    · rw [heq, List.length_append] at hn
      omega
    · rwa [heq] at hn
  tracking n inFlight hphase := by
    obtain ⟨payment, htracking⟩ := h.tracking n inFlight hphase
    rcases hs.tracking_or_tracked htracking with hstays | ⟨outcome, he⟩ | he
    · exact ⟨payment, hstays⟩
    · cases hphase.symm.trans (hanswered.tracked n outcome he)
    · exact ⟨payment, hanswered.waiting he n payment htracking⟩

theorem SimulatedRun.awaited
    (h : SimulatedRun env (.start env tasks now writeResults timeout) trace s) : Awaited s := by
  induction h with
  | refl =>
    exact ⟨fun n hn => absurd hn (Nat.not_lt_zero n), fun n _ => rfl,
      fun n inFlight hphase => nomatch hphase⟩
  | @tail trace s s' label hrun hstep ih =>
    obtain ⟨⟨steps, htasks, hsteps⟩, -⟩ := SimulatedRun.tasks_run hrun rfl
    cases hstep with
    | task hs hanswered => exact ih.advance hs hanswered
    | @send n node dispatch es shared p hcalling hs hroute =>
      obtain ⟨hd, -⟩ := (run_traced htasks).calling n node dispatch hcalling
      refine ih.progress (fun m hm => ?_) fun m hm => nomatch hm
      obtain rfl := PaymentCall.send.inj hm
      exact ⟨(List.getElem?_eq_some_iff.mp hd).1, .inl ⟨node, dispatch, hcalling⟩⟩
    | @track n payment es shared p htracking hhash hs =>
      refine ih.progress (fun m hm => nomatch hm) fun m hm => ?_
      obtain rfl := PaymentCall.track.inj hm
      exact ⟨payment, htracking⟩
    | @pay k req phase phase' es channels htask hs =>
      refine ih.progress (fun m hm => ?_) fun m hm => ?_
      · subst hm
        exact ⟨ih.length_of_task htask, ih.sending m (ih.length_of_task htask)⟩
      · subst hm
        exact absurd htask ((SimulatedRun.paired hrun (planned_plan s)).track m).task_ne

/-! ## No task is stuck -/

/-- A step of the simulation itself: every step but raising the signal from outside. -/
def SimulatedProgress (env : Setting) (s : Simulated γ) (label : SimulatedEvent) (s' : Simulated γ) :
    Prop :=
  SimulatedStep env s label s' ∧ label ≠ .task .shutdown

/-- The hash of a payment that is tracked is the one that was drawn for it. -/
theorem SimulatedRun.hash_of_tracking
    (h : SimulatedRun env (.start env tasks now writeResults timeout) trace s) {payment : Payment}
    (htracking : (n, .tracking payment) ∈ s.tasks.trackers) :
    payment.hash = some (env.hashes n) ∧ n < s.tasks.dispatched.length := by
  obtain ⟨⟨steps, htasks, hsteps⟩, -⟩ := SimulatedRun.tasks_run h rfl
  obtain ⟨d, hash, hd, -, hhash, hsent⟩ := (run_traced htasks).node_of_tracking env.keys htracking
  have hphase := (SimulatedRun.answered h).1 n _ ((hsteps _ (by simp)).mp hsent)
  refine ⟨?_, (List.getElem?_eq_some_iff.mp hd).1⟩
  have hcall := (SimulatedRun.paired h (planned_plan s)).send n
  generalize s.network.proc (.send n) = p at hphase hcall
  cases hcall with
  | findingRoute | sendPayment | dispatching | refused => cases hphase
  | unrouted | running =>
    cases hphase
    exact hhash

/-- A call that sends a payment takes a step, but none that finds its route. -/
theorem send_progress {node : NodeInfo} {dispatch : Dispatch}
    (hcalling : (n, .calling node dispatch) ∈ s.tasks.sends) {phase phase' : CallPhase}
    {es : List CallEvent} {locked : LockedNode PaymentCall}
    (hphase : (s.network.proc (.send n)).phase = phase) (hsends : phase.sends = true)
    (hstep : CallStep env.network (.send n) (s.network.shared.nodes node.pubkey) phase es locked phase')
    (hroute : phase'.stepsLeft < 2) : ∃ label s', SimulatedProgress env s label s' := by
  subst hphase
  refine ⟨_, _, .send hcalling (.send hsends hstep) fun hash route hphase => ?_, nofun⟩
  change phase' = _ at hphase
  rw [hphase] at hroute
  exact absurd hroute (by simp [CallPhase.stepsLeft])

/-- A tracker with the lock of its node in its hand is told of the shutdown. -/
theorem SimulatedRun.tracking_progress
    (h : SimulatedRun env (.start env tasks now writeResults timeout) trace s)
    (hsignal : s.tasks.shutdown = true) {inFlight : InFlightPayment}
    (hphase : (s.network.proc (.track n)).phase = .tracking inFlight) :
    ∃ label s', SimulatedProgress env s label s' := by
  obtain ⟨payment, htracking⟩ := (SimulatedRun.awaited h).tracking n inFlight hphase
  obtain ⟨hhash, -⟩ := SimulatedRun.hash_of_tracking h htracking
  have hreceiver : (s.network.proc (.track n)).receiver = some (.send n) := by
    have htrack := (SimulatedRun.paired h (planned_plan s)).track n
    generalize s.network.proc (.track n) = p at hphase htrack
    cases htrack with
    | tracking => rfl
    | _ => cases hphase
  have htriggered := (SimulatedRun.tasks_run h rfl).2.trans hsignal
  exact ⟨_, _, .track htracking hhash (.outcome hphase hreceiver (.shutdown htriggered) none (.ok ())),
    nofun⟩

/-- Whoever has the lock of a node has a step to take. -/
theorem SimulatedRun.owner_progress
    (h : SimulatedRun env (.start env tasks now writeResults timeout) trace s)
    (hsignal : s.tasks.shutdown = true) {key : PublicKey} {k : PaymentCall}
    (howner : (s.network.shared.nodes key).owner = some k) :
    ∃ label s', SimulatedProgress env s label s' := by
  have hguard : (s.network.proc k).phase.holdsGuard = true := by
    rcases SimulatedRun.network_run h (planned_plan s) with hrun | ⟨-, heq⟩
    · exact ((run_owner hrun key k).mp howner).2
    · rw [heq] at howner
      cases howner
  have hpaired := SimulatedRun.paired h (planned_plan s)
  cases k with
  | send n =>
    have hcall := hpaired.send n
    cases hphase : (s.network.proc (.send n)).phase with
    | dispatching hash route =>
      have hawaited := SimulatedRun.awaited h
      have hn : n < s.tasks.dispatched.length := by
        by_contra hlater
        rw [hawaited.unsent n (Nat.not_lt.mp hlater)] at hphase
        cases hphase
      rcases hawaited.sending n hn with ⟨node, dispatch, hcalling⟩ | ⟨outcome, hreturned⟩
      · exact send_progress hcalling hphase rfl .dispatch Nat.two_pos
      · cases hphase.symm.trans hreturned
    | tracking inFlight =>
      generalize s.network.proc (.send n) = p at hphase hcall
      cases hcall <;> cases hphase
    | _ =>
      rw [hphase] at hguard
      cases hguard
  | track n =>
    cases hphase : (s.network.proc (.track n)).phase with
    | tracking inFlight => exact SimulatedRun.tracking_progress h hsignal hphase
    | dispatching hash route =>
      have hcall := hpaired.track n
      generalize s.network.proc (.track n) = p at hphase hcall
      cases hcall <;> cases hphase
    | _ =>
      rw [hphase] at hguard
      cases hguard

/-- A task that waits for its call to send a payment has a step to take, or the call has one, or whoever
has the lock that the call needs. -/
theorem SimulatedRun.calling_progress
    (h : SimulatedRun env (.start env tasks now writeResults timeout) trace s)
    (hsignal : s.tasks.shutdown = true) {before after : List (Nat × SendPhase)} {node : NodeInfo}
    {dispatch : Dispatch} (hsends : s.tasks.sends = before ++ (n, .calling node dispatch) :: after) :
    ∃ label s', SimulatedProgress env s label s' := by
  have hcalling : (n, .calling node dispatch) ∈ s.tasks.sends := by simp [hsends]
  have hreturned : ∀ outcome, (s.network.proc (.send n)).phase = .returned (.sent outcome) →
      ∃ label s', SimulatedProgress env s label s' := by
    intro outcome hphase
    have hanswered : ∀ tasks, s.Answered (.sent n outcome) tasks := fun tasks =>
      ⟨fun m outcome' he => by cases he; exact hphase, nofun, nofun⟩
    cases houtput : sendPayment node dispatch outcome with
    | ok output => exact ⟨_, _, .task (.send (.sent hsends houtput)) (hanswered _), nofun⟩
    | error err => exact ⟨_, _, .task (.send (.fail hsends houtput)) (hanswered _), nofun⟩
  have hcall := (SimulatedRun.paired h (planned_plan s)).send n
  generalize hp : s.network.proc (.send n) = p at hcall hreturned
  cases hcall with
  | findingRoute => exact send_progress hcalling (by rw [hp]) rfl (.pathfindingFailed "") Nat.two_pos
  | @sendPayment route =>
    cases howner : (s.network.shared.nodes node.pubkey).owner with
    | some k => exact SimulatedRun.owner_progress h hsignal howner
    | none =>
      have hstep : CallStep env.network (PaymentCall.send n) (s.network.shared.nodes node.pubkey)
          (.sendPayment (env.hashes n) route) _ _ _ := .sendPayment howner
      exact send_progress hcalling (by rw [hp]) rfl hstep hstep.stepsLeft_lt
  | dispatching => exact send_progress hcalling (by rw [hp]) rfl .dispatch Nat.two_pos
  | refused | unrouted | running => exact hreturned _ rfl

/-- A tracker that waits for its call does not wait in vain either. -/
theorem SimulatedRun.tracker_progress
    (h : SimulatedRun env (.start env tasks now writeResults timeout) trace s)
    (hsignal : s.tasks.shutdown = true) {before after : List (Nat × TrackerPhase)} {payment : Payment}
    (htrackers : s.tasks.trackers = before ++ (n, .tracking payment) :: after) :
    ∃ label s', SimulatedProgress env s label s' := by
  have htracking : (n, .tracking payment) ∈ s.tasks.trackers := by simp [htrackers]
  obtain ⟨hhash, -⟩ := SimulatedRun.hash_of_tracking h htracking
  have hcall := (SimulatedRun.paired h (planned_plan s)).track n
  generalize hp : s.network.proc (.track n) = p at hcall
  cases hcall with
  | waiting =>
    cases howner : (s.network.shared.nodes payment.source).owner with
    | some k => exact SimulatedRun.owner_progress h hsignal howner
    | none => exact ⟨_, _, .track htracking hhash (.take (by rw [hp]) (.trackPayment howner)), nofun⟩
  | tracking => exact SimulatedRun.tracking_progress h hsignal (by rw [hp])
  | @returned res =>
    have hs := @TrackerStep.tracked _ s.tasks before after n payment res htrackers
    refine ⟨_, _, .task (.tracker hs) ⟨nofun, fun m outcome he => ?_, nofun⟩, nofun⟩
    cases he
    rw [hp]

/-- Where a task has a step to take that does not ask for what its call has returned, so has the
simulation on its network. -/
theorem SimulatedRun.progress_of_taskStep
    (h : SimulatedRun env (.start env tasks now writeResults timeout) trace s)
    (hsignal : s.tasks.shutdown = true) {e : TaskEvent} {tasks' : Simulation γ}
    (ht : TaskStep env.clock env.csv env.nodes s.tasks e tasks') :
    ∃ label s', SimulatedProgress env s label s' := by
  obtain ⟨hs, he⟩ := ht
  have hquiet (hsent : ∀ n outcome, e ≠ .sent n outcome) (htracked : ∀ n outcome, e ≠ .tracked n outcome)
      (hwaiting : ∀ n payment, (n, .tracking payment) ∈ s.tasks.trackers →
        (n, .tracking payment) ∈ tasks'.trackers) : ∃ label s', SimulatedProgress env s label s' :=
    ⟨_, _, .task hs ⟨fun n outcome heq => absurd heq (hsent n outcome),
      fun n outcome heq => absurd heq (htracked n outcome), fun _ => hwaiting⟩, by simpa using he⟩
  cases hs with
  | producer hs => cases hs <;> exact hquiet nofun nofun fun _ _ hmem => hmem
  | send hs =>
    cases hs with
    | sent hsends | fail hsends => exact SimulatedRun.calling_progress h hsignal hsends
    | send | closed | trigger => exact hquiet nofun nofun fun _ _ hmem => hmem
  | resultsProducer hs =>
    cases hs with
    | track => exact hquiet nofun nofun fun _ _ hmem => List.mem_append_left _ hmem
    | _ => exact hquiet nofun nofun fun _ _ hmem => hmem
  | tracker hs =>
    cases hs with
    | tracked htrackers | abandoned htrackers => exact SimulatedRun.tracker_progress h hsignal htrackers
    | poll htrackers | pending htrackers =>
      exact hquiet nofun nofun fun _ _ hmem => (mem_of_ne_middle htrackers hmem (by simp)).2 _
    | leave htrackers | send htrackers | closed htrackers =>
      exact hquiet nofun nofun fun _ _ hmem => (mem_of_ne_middle htrackers hmem (by simp)).1
  | consumer hs => cases hs <;> exact hquiet nofun nofun fun _ _ hmem => hmem
  | background hs => cases hs <;> exact hquiet nofun nofun fun _ _ hmem => hmem

/-- The signal is never taken back. -/
theorem SimulatedStep.shutdown_stays (hs : SimulatedStep env s label s')
    (hshared : s.network.shared.triggered = s.tasks.shutdown) (hsignal : s.tasks.shutdown = true) :
    s'.tasks.shutdown = true := by
  rcases hs.task_or_call with ⟨e, tasks, -, htask, -, rfl⟩ | ⟨k, es, shared, p, nodeOf, -, hcall, rfl⟩
  · exact htask.shutdown_stays hsignal
  · exact hcall.triggered (hshared.trans hsignal)

/-- The task of a call is a payment that runs over the channels. -/
theorem SimulatedRun.task_control
    (h : SimulatedRun env (.start env tasks now writeResults timeout) trace s) {k : PaymentCall}
    {req : PropagatePaymentRequest} {phase : Phase} (htask : (s.network.proc k).task = some (req, phase)) :
    (∃ past, Control req past phase) ∧ phase.NotifiesWithin req := by
  rcases SimulatedRun.network_run h (planned_plan s) with hrun | ⟨-, heq⟩
  · exact run_task_control hrun htask
  · rw [heq] at htask
    cases htask

/-! ## Each step is one of finitely many -/

/-- The calls that are made for the payments dispatched so far. -/
def Simulated.calls (s : Simulated γ) : Finset PaymentCall :=
  (Finset.range s.tasks.dispatched.length).biUnion fun n => {.send n, .track n}

theorem Simulated.send_mem_calls (hn : n < s.tasks.dispatched.length) : .send n ∈ s.calls :=
  Finset.mem_biUnion.mpr ⟨n, Finset.mem_range.mpr hn, by simp⟩

theorem Simulated.track_mem_calls (hn : n < s.tasks.dispatched.length) : .track n ∈ s.calls :=
  Finset.mem_biUnion.mpr ⟨n, Finset.mem_range.mpr hn, by simp⟩

/-- The steps that are left of the tasks, of the calls, and of the payments. -/
def Simulated.rank (s : Simulated γ) : ℕ × ℕ × ℕ :=
  (s.tasks.remaining, ∑ k ∈ s.calls, (s.network.proc k).phase.stepsLeft,
    ∑ k ∈ s.calls, (s.network.proc k).workLeft)

theorem SimulatedRun.mem_calls
    (h : SimulatedRun env (.start env tasks now writeResults timeout) trace s) {k : PaymentCall}
    {es : List NetworkEvent} (hs : SimulatedStep env s (.call k es) s') : k ∈ s.calls := by
  obtain ⟨⟨steps, htasks, -⟩, -⟩ := SimulatedRun.tasks_run h rfl
  cases hs with
  | @send n node dispatch _ _ _ hcalling =>
    obtain ⟨hd, -⟩ := (run_traced htasks).calling n node dispatch hcalling
    exact Simulated.send_mem_calls (List.getElem?_eq_some_iff.mp hd).1
  | track htracking => exact Simulated.track_mem_calls (SimulatedRun.hash_of_tracking h htracking).2
  | @pay k req phase phase' es channels htask =>
    cases k with
    | send n => exact Simulated.send_mem_calls ((SimulatedRun.awaited h).length_of_task htask)
    | track n => exact absurd htask ((SimulatedRun.paired h (planned_plan s)).track n).task_ne

/-- Each step leaves fewer steps of the tasks, or as many and fewer of the calls, or as many of both and
fewer of the payments. -/
theorem SimulatedProgress.rank_lt
    (h : SimulatedRun env (.start env tasks now writeResults timeout) trace s)
    (hsignal : s.tasks.shutdown = true) (hs : SimulatedProgress env s label s') :
    Prod.Lex (· < ·) (Prod.Lex (· < ·) (· < ·)) s'.rank s.rank := by
  obtain ⟨hs, hlabel⟩ := hs
  cases label with
  | task e =>
    cases hs with
    | task hs => exact .left _ _ (TaskStep.decreases ⟨hs, by simpa using hlabel⟩ hsignal)
  | call k es =>
    have hk := SimulatedRun.mem_calls h hs
    obtain ⟨⟨steps, htasks, -⟩, -⟩ := SimulatedRun.tasks_run h rfl
    obtain ⟨shared, p, hcall, rfl⟩ := hs.planned (run_traced htasks) (planned_plan s)
    have hother : ∀ j, j ≠ k → Function.update s.network.proc k p j = s.network.proc j :=
      fun j hj => Function.update_of_ne hj _ _
    refine .right _ ?_
    show Prod.Lex _ _ (∑ j ∈ s.calls, (Function.update s.network.proc k p j).phase.stepsLeft,
      ∑ j ∈ s.calls, (Function.update s.network.proc k p j).workLeft) _
    rcases hcall.call_or_payment with ⟨es', node, -, hstep, -⟩
      | ⟨es', req, phase, phase', -, htask, hstep, htask', -, hphase⟩
    · refine .left _ _ (sum_measure_lt_of_mem (fun _ (p : CallState PaymentCall) => p.phase.stepsLeft) hk ?_
        hother)
      show (Function.update s.network.proc k p k).phase.stepsLeft < _
      rw [Function.update_self]
      exact hstep.stepsLeft_lt
    · have hsame : ∑ j ∈ s.calls, (Function.update s.network.proc k p j).phase.stepsLeft
          = ∑ j ∈ s.calls, (s.network.proc j).phase.stepsLeft := by
        refine Finset.sum_congr rfl fun j _ => ?_
        by_cases hj : j = k
        · rw [hj, Function.update_self, hphase]
        · rw [hother j hj]
      rw [hsame]
      refine .right _ (sum_measure_lt_of_mem (fun _ (p : CallState PaymentCall) => p.workLeft) hk ?_ hother)
      obtain ⟨⟨past, hcontrol⟩, -⟩ := SimulatedRun.task_control h htask
      show (Function.update s.network.proc k p k).workLeft < (s.network.proc k).workLeft
      rw [Function.update_self, CallState.workLeft, htask', CallState.workLeft, htask]
      exact hstep.workLeft_lt hcontrol

/-! ## The end -/

/-- All tasks have finished, all payments that were dispatched have been sent or refused, those that
have been sent have come to their ends, and no node is locked. -/
structure Simulated.Done (s : Simulated γ) : Prop where
  tasks : s.tasks.Done
  calls : ∀ n, n < s.tasks.dispatched.length →
    ∃ outcome, (s.network.proc (.send n)).phase = .returned (.sent outcome)
  payments : ∀ k req phase, (s.network.proc k).task = some (req, phase) →
    ∃ result, phase = .finished result
  unlocked : ∀ key, (s.network.shared.nodes key).owner = none

/-- **No deadlock.** After the shutdown signal the simulation has a step to take until it is done. -/
theorem SimulatedRun.done_or_progress
    (h : SimulatedRun env (.start env tasks now writeResults timeout) trace s)
    (hclock : ∀ t, ∃ t', env.clock.idle t t') (hsignal : s.tasks.shutdown = true) :
    s.Done ∨ ∃ label s', SimulatedProgress env s label s' := by
  by_cases hgo : ∃ label s', SimulatedProgress env s label s'
  · exact .inr hgo
  have htasks : s.tasks.Done := by
    by_contra hdone
    obtain ⟨e, tasks', ht⟩ := exists_taskStep hclock hsignal hdone
    exact hgo (SimulatedRun.progress_of_taskStep h hsignal ht)
  refine .inl ⟨htasks, fun n hn => ?_, fun k req phase htask => ?_, fun key => ?_⟩
  · rcases (SimulatedRun.awaited h).sending n hn with ⟨node, dispatch, hcalling⟩ | hreturned
    · rw [htasks.sends] at hcalling
      cases hcalling
    · exact hreturned
  · obtain ⟨⟨past, hcontrol⟩, hwithin⟩ := SimulatedRun.task_control h htask
    refine (hcontrol.exists_step hwithin s.network.shared.channels).resolve_right ?_
    rintro ⟨es, channels, phase', hstep⟩
    exact hgo ⟨_, _, .pay htask hstep, nofun⟩
  · cases howner : (s.network.shared.nodes key).owner with
    | none => rfl
    | some k => exact absurd (SimulatedRun.owner_progress h hsignal howner) hgo

/-- **A simulation comes to its end.** Once the shutdown signal has been raised, wherever its tasks, the
nodes' calls and the payments are, and whichever of them take their steps, a simulation on its network
inevitably comes to an end with all of them finished. -/
theorem simulation_ends
    (h : SimulatedRun env (.start env tasks now writeResults timeout) trace s)
    (hclock : ∀ t, ∃ t', env.clock.idle t t') (hsignal : s.tasks.shutdown = true) :
    Inevitably (SimulatedProgress env)
      (fun s' => s'.Done ∧ ∃ trace', SimulatedRun env (.start env tasks now writeResults timeout)
        (trace ++ trace') s') s := by
  have hwf := WellFounded.prod_lex Nat.lt_wfRel.wf (WellFounded.prod_lex Nat.lt_wfRel.wf Nat.lt_wfRel.wf)
  refine Inevitably.of_rank hwf Simulated.rank (I := fun s' => s'.tasks.shutdown = true ∧
    ∃ trace', SimulatedRun env (.start env tasks now writeResults timeout) (trace ++ trace') s')
    (fun s' hs' => ?_) ⟨hsignal, [], by rwa [List.append_nil]⟩
  obtain ⟨hsignal, trace', hrun⟩ := hs'
  rcases SimulatedRun.done_or_progress hrun hclock hsignal with hdone | hgo
  · exact .inl ⟨hdone, trace', hrun⟩
  · refine .inr ⟨hgo, fun label s'' hs => ?_⟩
    have hlt := SimulatedProgress.rank_lt hrun hsignal hs
    refine ⟨⟨?_, trace' ++ [label], ?_⟩, hlt⟩
    · exact hs.1.shutdown_stays (SimulatedRun.tasks_run hrun rfl).2 hsignal
    · rw [← List.append_assoc]
      exact hrun.tail hs.1

end Runs

/-- The signal comes while Alice's node is locked for her payment. -/
theorem simulation_ends_aliceToBob : ∃ trace s,
    SimulatedRun aliceToBob (.start aliceToBob
      (onePayment (MinHeap.empty.push (onePaymentEvent 1)) 0) 0 none false) trace s ∧
    (s.network.shared.nodes alice).owner = some (.send 0) ∧
    Inevitably (SimulatedProgress aliceToBob)
      (fun s' => s'.Done ∧ ∃ trace', SimulatedRun aliceToBob (.start aliceToBob
        (onePayment (MinHeap.empty.push (onePaymentEvent 1)) 0) 0 none false) (trace ++ trace') s') s := by
  have h : SimulatedRun aliceToBob (.start aliceToBob
      (onePayment (MinHeap.empty.push (onePaymentEvent 1)) 0) 0 none false) _ _ := .refl
  have h := h.tail (.task (.producer (.poll rfl rfl)) ⟨nofun, nofun, nofun⟩)
  have h := h.tail (.task (.producer (.pop rfl rfl)) ⟨nofun, nofun, nofun⟩)
  have h := h.tail (.task (.producer (.pollSleep (congrArg PoppedEvent.phase onePayment_sleeps) rfl))
    ⟨nofun, nofun, nofun⟩)
  have h := h.tail (.task (.producer (.dispatch rfl rfl onePayment_generates rfl rfl))
    ⟨nofun, nofun, nofun⟩)
  have h := h.tail (.send (.head _) (.send rfl (.routeFound ⟨7⟩
    (.ok ⟨[⟨[⟨bob, 700, 1000, 18⟩], by simp⟩]⟩))) fun hash route hphase => by
      cases hphase
      exact ⟨rfl, fun found hfound => (Except.ok.inj hfound).symm⟩)
  have h := h.tail (.send (.head _) (.send rfl (.sendPayment rfl)) nofun)
  have h := h.tail (.task (.background .shutdown) ⟨nofun, nofun, nofun⟩)
  exact ⟨_, _, h, rfl, simulation_ends h (fun t => ⟨t, rfl⟩) rfl⟩

end SimLn
