import SimLn.Pipeline.Delivery

/-!
# SimLn — every task finishes after the shutdown signal

Once the signal has been raised, each step of a task brings the simulation closer to its end:
`Simulation.remaining` counts the steps that are left at most, and every step decreases it
(`SimulationStep.decreases`). No task is left waiting either. As long as one has not finished, some
task can take a step (`exists_taskStep`): a sender finds room in its channel, or its receiver gone,
once the receiver has had its turn, and a receiver finds a message, or its senders gone. The two
together say that every way to go on ends, and ends with all tasks finished.

That a node's calls return is part of the steps: `SendStep.sent` and `TrackerStep.abandoned` can be
taken at any time after the signal.
-/

namespace SimLn

open Lib

variable {γ : Type} {clock : Clock} {csv : Csv} {nodes : Table PublicKey NodeInfo}
variable {s s' : Simulation γ} {e : TaskEvent}

/-- A step of one of the tasks: every step but raising the signal from outside. -/
def TaskStep (clock : Clock) (csv : Csv) (nodes : Table PublicKey NodeInfo) (s : Simulation γ)
    (e : TaskEvent) (s' : Simulation γ) : Prop :=
  SimulationStep clock csv nodes s e s' ∧ e ≠ .shutdown

/-! ## The steps that are left -/

/-- A payment that is dispatched takes five more steps. -/
def ProducerPhase.remaining : ProducerPhase γ → Nat
  | .finished => 0
  | .returned => 1
  | .looping _ | .sleeping _ _ _ => 2
  | .polled _ => 3
  | .waking _ _ _ => 8

def SendPhase.remaining : SendPhase → Nat
  | .sending _ => 4
  | .calling _ _ => 5

/-- An output in the channel takes up to three more. -/
def ResultsProducerPhase.remaining : ResultsProducerPhase → Nat
  | .finished => 0
  | .returned _ => 1
  | .receiving => 2
  | .reporting _ _ _ => 3
  | .polled _ _ _ => 4

def TrackerPhase.remaining : TrackerPhase → Nat
  | .reporting _ _ => 1
  | .tracking _ | .polled _ _ => 2

def ConsumerPhase.remaining : ConsumerPhase → Nat
  | .finished => 0
  | .returned _ => 1
  | .closing => 2
  | .receiving => 3
  | .polled | .holding _ _ _ => 4
  | .starting _ => 5

/-- At most this many steps of tasks are left after the signal. -/
def Simulation.remaining (s : Simulation γ) : Nat :=
  s.producer.remaining + (s.sends.map fun task => task.2.remaining).sum + s.failedSends
    + (if s.output.isSome then 3 else 0) + s.resultsProducer.remaining
    + (s.trackers.map fun task => task.2.remaining).sum + (if s.results.isSome then 1 else 0)
    + s.consumer.remaining + s.resultsLogger.toNat + s.timeout.toNat

/-- One entry taken out of a list leaves its share out of the sum. -/
theorem sum_map_of_eq {α : Type} {l before after : List α} {a : α} (f : α → Nat)
    (h : l = before ++ a :: after) : (l.map f).sum = f a + ((before ++ after).map f).sum := by
  rw [h, sum_map_middle]

/-- An event that is popped takes the producer back to its loop, to a sleep or out of the loop. -/
theorem PoppedEvent.remaining_phase_le (popped : PoppedEvent γ) : popped.phase.remaining ≤ 2 := by
  cases popped <;> simp [PoppedEvent.phase, ProducerPhase.remaining]

/-! ## Each step is one less -/

/-- After the signal, a step of the producer leaves it less to do. -/
theorem ProducerStep.decreases (h : ProducerStep clock nodes s e s') (hsignal : s.shutdown = true) :
    s'.remaining < s.remaining := by
  cases h with
  | poll hphase hsignal' | pollSleep hphase hsignal' =>
    rw [hsignal] at hsignal'
    cases hsignal'
  | leave hphase | leaveSleep hphase | pending hphase | fail hphase | trigger hphase =>
    simp only [Simulation.remaining, hphase, ProducerPhase.remaining]
    omega
  | @pop p now hphase hnow =>
    have hle := (p.popEvent nodes now).remaining_phase_le
    have hpolled : s.producer.remaining = 3 := by
      rw [hphase]
      rfl
    simp only [Simulation.remaining, hpolled]
    omega
  | dispatch hphase =>
    -- the wake-up pays for the whole way of its payment
    simp only [Simulation.remaining, hphase, ProducerPhase.remaining, List.map_append,
      List.sum_append, List.map_cons, List.map_nil, List.sum_cons, List.sum_nil,
      SendPhase.remaining]
    omega

/-- A step of a send task leaves less to do. -/
theorem SendStep.decreases (h : SendStep s e s') : s'.remaining < s.remaining := by
  cases h with
  | sent hsends | fail hsends | closed hsends =>
    simp only [Simulation.remaining, sum_map_of_eq _ hsends, sum_map_middle, SendPhase.remaining]
    omega
  | send hsends hfree =>
    simp only [Simulation.remaining, sum_map_of_eq _ hsends, hfree, SendPhase.remaining,
      Option.isSome_none, Option.isSome_some, Bool.false_eq_true, if_false, if_true]
    omega
  | trigger hfailed =>
    simp only [Simulation.remaining, hfailed]
    omega

/-- After the signal, a step of the results producer leaves less to do. -/
theorem ResultsProducerStep.decreases (h : ResultsProducerStep nodes s e s')
    (hsignal : s.shutdown = true) : s'.remaining < s.remaining := by
  cases h with
  | poll hphase hsignal' =>
    rw [hsignal] at hsignal'
    cases hsignal'
  | track hphase houtput | missingNode hphase houtput | report hphase houtput =>
    simp [Simulation.remaining, hphase, houtput, ResultsProducerPhase.remaining,
      TrackerPhase.remaining]
    try omega
  | finish hphase | pending hphase | exit hphase =>
    simp only [Simulation.remaining, hphase, ResultsProducerPhase.remaining]
    omega
  | leave hphase | closed hphase =>
    simp only [Simulation.remaining, hphase, ResultsProducerPhase.remaining, Option.isSome_none,
      Bool.false_eq_true, if_false]
    omega
  | send hphase hfree =>
    simp only [Simulation.remaining, hphase, hfree, ResultsProducerPhase.remaining,
      Option.isSome_none, Option.isSome_some, Bool.false_eq_true, if_false, if_true]
    omega

/-- After the signal, a step of a tracking task leaves less to do. -/
theorem TrackerStep.decreases (h : TrackerStep s e s') (hsignal : s.shutdown = true) :
    s'.remaining < s.remaining := by
  cases h with
  | poll htrackers hsignal' =>
    rw [hsignal] at hsignal'
    cases hsignal'
  | tracked htrackers | abandoned htrackers | pending htrackers =>
    simp only [Simulation.remaining, sum_map_of_eq _ htrackers, sum_map_middle,
      TrackerPhase.remaining]
    omega
  | leave htrackers | closed htrackers =>
    simp only [Simulation.remaining, sum_map_of_eq _ htrackers, TrackerPhase.remaining]
    omega
  | send htrackers hfree =>
    simp only [Simulation.remaining, sum_map_of_eq _ htrackers, hfree, TrackerPhase.remaining,
      Option.isSome_none, Option.isSome_some, Bool.false_eq_true, if_false, if_true]
    omega

/-- After the signal, a step of the results consumer leaves less to do. -/
theorem ConsumerStep.decreases (h : ConsumerStep csv s e s') (hsignal : s.shutdown = true) :
    s'.remaining < s.remaining := by
  cases h with
  | poll hphase hsignal' =>
    rw [hsignal] at hsignal'
    cases hsignal'
  | start hphase | leave hphase | finish hphase | pending hphase | record hphase | exit hphase =>
    simp only [Simulation.remaining, hphase, ConsumerPhase.remaining]
    omega
  | startFailed hphase | recordFailed hphase | close hphase | closeFailed hphase =>
    simp only [Simulation.remaining, hphase, ConsumerPhase.remaining, Option.isSome_none,
      Bool.false_eq_true, if_false]
    omega
  | receive hphase hresults =>
    simp only [Simulation.remaining, hphase, hresults, ConsumerPhase.remaining,
      Option.isSome_none, Option.isSome_some, Bool.false_eq_true, if_false, if_true]
    omega

/-- After the signal, a step of a background task other than the signal itself leaves less to do. -/
theorem BackgroundStep.decreases (h : BackgroundStep s e s') (hsignal : s.shutdown = true)
    (he : e ≠ .shutdown) : s'.remaining < s.remaining := by
  cases h with
  | log htask hsignal' =>
    rw [hsignal] at hsignal'
    cases hsignal'
  | leaveLogger htask | timedOut htask | leaveTimeout htask =>
    simp only [Simulation.remaining, htask, Bool.toNat_true, Bool.toNat_false]
    omega
  | shutdown => exact absurd rfl he

/-- After the signal, whatever task takes a step leaves less to do. -/
theorem TaskStep.decreases (h : TaskStep clock csv nodes s e s') (hsignal : s.shutdown = true) :
    s'.remaining < s.remaining := by
  obtain ⟨hstep, he⟩ := h
  cases hstep with
  | producer h => exact h.decreases hsignal
  | send h => exact h.decreases
  | resultsProducer h => exact h.decreases hsignal
  | tracker h => exact h.decreases hsignal
  | consumer h => exact h.decreases hsignal
  | background h => exact h.decreases hsignal he

/-- The signal is never taken back. -/
theorem SimulationStep.shutdown_stays (h : SimulationStep clock csv nodes s e s')
    (hsignal : s.shutdown = true) : s'.shutdown = true := by
  cases h with
  | producer h => cases h <;> first | exact hsignal | rfl
  | send h => cases h <;> first | exact hsignal | rfl
  | resultsProducer h => cases h <;> first | exact hsignal | simp [hsignal]
  | tracker h => cases h <;> exact hsignal
  | consumer h => cases h <;> first | exact hsignal | simp [hsignal]
  | background h => cases h <;> first | exact hsignal | rfl

/-! ## No task is stuck -/

/-- After the signal, the producer can step until it has finished. -/
theorem producer_taskStep (hclock : ∀ t, ∃ t', clock.idle t t') (hsignal : s.shutdown = true)
    (h : s.producer ≠ .finished) : ∃ e s', TaskStep clock csv nodes s e s' := by
  cases hphase : s.producer with
  | looping p => exact ⟨_, _, .producer (.leave hphase hsignal), by simp⟩
  | polled p =>
    obtain ⟨now, hnow⟩ := hclock s.now
    exact ⟨_, _, .producer (.pop hphase hnow), by simp⟩
  | sleeping event wait p => exact ⟨_, _, .producer (.leaveSleep hphase hsignal), by simp⟩
  | waking event wait p => exact ⟨_, _, .producer (.pending hphase), by simp⟩
  | returned => exact ⟨_, _, .producer (.trigger hphase), by simp⟩
  | finished => exact absurd hphase h

/-- The consumer leaves its loop on the signal, whatever is in the results channel. -/
theorem consumer_taskStep (hsignal : s.shutdown = true) (h : s.consumer ≠ .finished) :
    ∃ e s', TaskStep clock csv nodes s e s' := by
  cases hphase : s.consumer with
  | starting writeResults =>
    cases hwriter : createWriter csv writeResults with
    | error err => exact ⟨_, _, .consumer (.startFailed hphase hwriter), by simp⟩
    | ok writer => exact ⟨_, _, .consumer (.start hphase hwriter), by simp⟩
  | receiving => exact ⟨_, _, .consumer (.leave hphase hsignal), by simp⟩
  | polled =>
    cases hresults : s.results with
    | none => exact ⟨_, _, .consumer (.pending hphase hresults), by simp⟩
    | some message => exact ⟨_, _, .consumer (.receive hphase hresults), by simp⟩
  | holding n payment result =>
    cases hqueue : queueRecord csv s.writer (payment, result) with
    | mk outcome writer =>
      cases outcome with
      | error err => exact ⟨_, _, .consumer (.recordFailed hphase hqueue), by simp⟩
      | ok u => exact ⟨_, _, .consumer (.record hphase hqueue), by simp⟩
  | closing =>
    cases hclose : closeWriter csv s.writer with
    | mk outcome writer =>
      cases outcome with
      | error err => exact ⟨_, _, .consumer (.closeFailed hphase hclose), by simp⟩
      | ok u => exact ⟨_, _, .consumer (.close hphase hclose), by simp⟩
  | returned failed => exact ⟨_, _, .consumer (.exit hphase), by simp⟩
  | finished => exact absurd hphase h

/-- A tracker whose result finds the results channel full goes back to polling the signal. -/
theorem tracker_taskStep (hsignal : s.shutdown = true) (h : s.trackers ≠ []) :
    ∃ e s', TaskStep clock csv nodes s e s' := by
  obtain ⟨⟨n, phase⟩, after, htrackers⟩ := List.exists_cons_of_ne_nil h
  have hfirst : s.trackers = [] ++ (n, phase) :: after := htrackers
  cases phase with
  | tracking payment =>
    exact ⟨_, _, .tracker (.abandoned (e := .permanentError "") hfirst hsignal), by simp⟩
  | reporting payment result => exact ⟨_, _, .tracker (.leave hfirst hsignal), by simp⟩
  | polled payment result =>
    cases hresults : s.results with
    | some message =>
      exact ⟨_, _, .tracker (.pending hfirst (by rw [hresults]; rfl)), by simp⟩
    | none =>
      cases hended : s.consumer.ended with
      | true => exact ⟨_, _, .tracker (.closed hfirst hended), by simp⟩
      | false => exact ⟨_, _, .tracker (.send hfirst hresults hended), by simp⟩

/-- After the signal, the results producer can step unless it has finished or waits for a task's output.
-/
theorem resultsProducer_taskStep (hsignal : s.shutdown = true)
    (h : s.resultsProducer ≠ .finished) (hreceiving : s.resultsProducer ≠ .receiving) :
    ∃ e s', TaskStep clock csv nodes s e s' := by
  cases hphase : s.resultsProducer with
  | receiving => exact absurd hphase hreceiving
  | reporting n payment result => exact ⟨_, _, .resultsProducer (.leave hphase hsignal), by simp⟩
  | polled n payment result =>
    cases hresults : s.results with
    | some message =>
      exact ⟨_, _, .resultsProducer (.pending hphase (by rw [hresults]; rfl)), by simp⟩
    | none =>
      cases hended : s.consumer.ended with
      | true => exact ⟨_, _, .resultsProducer (.closed hphase hended), by simp⟩
      | false => exact ⟨_, _, .resultsProducer (.send hphase hresults hended), by simp⟩
  | returned failed => exact ⟨_, _, .resultsProducer (.exit hphase), by simp⟩
  | finished => exact absurd hphase h

/-- The results producer takes what is in the output channel. -/
theorem output_taskStep {message : Nat × SimulationOutput} (h : s.resultsProducer = .receiving)
    (houtput : s.output = some message) : ∃ e s', TaskStep clock csv nodes s e s' := by
  obtain ⟨n, output⟩ := message
  cases output with
  | sendPaymentFailure payment result =>
    exact ⟨_, _, .resultsProducer (.report h houtput), by simp⟩
  | sendPaymentSuccess payment =>
    by_cases hnode : payment.source ∈ nodes
    · exact ⟨_, _, .resultsProducer (.track h houtput hnode), by simp⟩
    · exact ⟨_, _, .resultsProducer (.missingNode h houtput hnode), by simp⟩

/-- A payment that has been sent finds room in the output channel, or its receiver gone. -/
theorem send_taskStep (h : s.sends ≠ []) (hroom : s.resultsProducer.ended = true ∨ s.output = none) :
    ∃ e s', TaskStep clock csv nodes s e s' := by
  obtain ⟨⟨n, phase⟩, after, hsends⟩ := List.exists_cons_of_ne_nil h
  have hfirst : s.sends = [] ++ (n, phase) :: after := hsends
  cases phase with
  | calling node dispatch =>
    have houtput : sendPayment node dispatch (.ok ⟨0⟩)
        = .ok (.sendPaymentSuccess (dispatch.payment node (some ⟨0⟩))) := rfl
    exact ⟨_, _, .send (.sent hfirst houtput), by simp⟩
  | sending output =>
    cases hended : s.resultsProducer.ended with
    | true => exact ⟨_, _, .send (.closed hfirst hended), by simp⟩
    | false =>
      have hfree : s.output = none := hroom.resolve_left (by simp [hended])
      exact ⟨_, _, .send (.send hfirst hfree hended), by simp⟩

/-- The results producer does not poll the signal while it waits for outputs. It waits for senders
that go on, or that are gone. -/
theorem receiving_taskStep (h : s.resultsProducer = .receiving) (hproducer : s.producer = .finished) :
    ∃ e s', TaskStep clock csv nodes s e s' := by
  cases houtput : s.output with
  | some message => exact output_taskStep h houtput
  | none =>
    by_cases hsends : s.sends = []
    · exact ⟨_, _, .resultsProducer (.finish h houtput (by rw [hproducer]; rfl) hsends), by simp⟩
    · exact send_taskStep hsends (Or.inr houtput)

/-- **Progress.** Each task that has not finished can take a step, or one that it waits for can. -/
theorem exists_taskStep (hclock : ∀ t, ∃ t', clock.idle t t') (hsignal : s.shutdown = true)
    (hdone : ¬ s.Done) : ∃ e s', TaskStep clock csv nodes s e s' := by
  by_cases hproducer : s.producer = .finished
  swap
  · exact producer_taskStep hclock hsignal hproducer
  by_cases hreceiving : s.resultsProducer = .receiving
  · exact receiving_taskStep hreceiving hproducer
  by_cases hresultsProducer : s.resultsProducer = .finished
  swap
  · exact resultsProducer_taskStep hsignal hresultsProducer hreceiving
  by_cases hsends : s.sends = []
  swap
  · exact send_taskStep hsends (Or.inl (by rw [hresultsProducer]; rfl))
  by_cases htrackers : s.trackers = []
  swap
  · exact tracker_taskStep hsignal htrackers
  by_cases hconsumer : s.consumer = .finished
  swap
  · exact consumer_taskStep hsignal hconsumer
  -- what is left raises the signal again, logs or waits for the total time
  cases hfailed : s.failedSends with
  | succ k => exact ⟨_, _, .send (.trigger hfailed), by simp⟩
  | zero =>
    cases hlogger : s.resultsLogger with
    | true => exact ⟨_, _, .background (.leaveLogger hlogger hsignal), by simp⟩
    | false =>
      cases htimeout : s.timeout with
      | true => exact ⟨_, _, .background (.leaveTimeout htimeout hsignal), by simp⟩
      | false =>
        exact absurd ⟨hproducer, hsends, hfailed, hresultsProducer, htrackers, hconsumer, hlogger,
          htimeout⟩ hdone

/-- Raising the signal again changes nothing. -/
theorem remaining_shutdown (h : SimulationStep clock csv nodes s .shutdown s') :
    s'.remaining = s.remaining := by
  cases h with
  | producer h => cases h
  | send h => cases h
  | resultsProducer h => cases h
  | tracker h => cases h
  | consumer h => cases h
  | background h =>
    cases h
    rfl

/-- **Shutdown leaves no task stuck.** From any state in which the signal has been raised, whatever
raised it and wherever the tasks are, every state that is reached has a task that can take a step
until all have finished, and the tasks take no more than `remaining` steps to get there. -/
theorem shutdown_finishes {trace : List TaskEvent} (hclock : ∀ t, ∃ t', clock.idle t t')
    (hsignal : s.shutdown = true) (h : SimulationRun clock csv nodes s trace s') :
    (¬ s'.Done → ∃ e s'', TaskStep clock csv nodes s' e s'') ∧
      trace.countP (· ≠ .shutdown) + s'.remaining ≤ s.remaining := by
  have hrun : s'.shutdown = true ∧
      trace.countP (· ≠ .shutdown) + s'.remaining ≤ s.remaining := by
    refine h.countP_le (· ≠ .shutdown) Simulation.remaining (I := fun s => s.shutdown = true) hsignal ?_
    intro s e s' hsignal hstep
    refine ⟨hstep.shutdown_stays hsignal, ?_⟩
    by_cases he : e = .shutdown
    · subst he
      simp [remaining_shutdown hstep]
    · have hlt := TaskStep.decreases ⟨hstep, he⟩ hsignal
      simpa [he, Nat.succ_le_iff] using hlt
  exact ⟨fun hdone => exists_taskStep hclock hrun.1 hdone, hrun.2⟩

/-- The signal comes while a payment is being sent. -/
theorem shutdown_finishes_onePayment : ∃ trace s,
    SimulationRun .exact reliableCsv sampleNodes onePaymentStart trace s ∧ s.shutdown = true ∧
    s.sends.length = 1 ∧ ∃ e s', TaskStep .exact reliableCsv sampleNodes s e s' := by
  obtain ⟨trace, s, h, rfl, rfl⟩ := onePayment_dispatches
  have h := h.tail (.background .shutdown)
  refine ⟨_, _, h, rfl, rfl, (shutdown_finishes (fun t => ⟨t, rfl⟩) rfl .refl).1 fun hdone => ?_⟩
  cases hdone.resultsLogger

end SimLn
