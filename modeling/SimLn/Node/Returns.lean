import SimLn.Node.Tracked

/-!
# SimLn — every call returns

A call on a node waits for the lock on the node's payments, and a call that tracks a payment has that
lock while it waits for the outcome. So one call can hold up all others of its node, and it depends on a
task that depends on the channels. It always comes to an end (`calls_return`): the payment that is waited
for has been dispatched or is about to be, and for neither is the lock needed.

The rank of a world counts first the steps that are left of its calls, and then the work that is left of
the tasks they have spawned.
-/

namespace SimLn

open Lib

/-! ## The rank -/

/-- The number of steps that are left of a call at most. -/
def CallPhase.stepsLeft : CallPhase → Nat
  | .findingRoute => 3
  | .sendPayment _ _ | .sendToRoute _ _ _ | .trackPayment _ => 2
  | .dispatching _ _ | .routing _ _ _ | .tracking _ => 1
  | .returned _ => 0

theorem CallStep.stepsLeft_lt {κ : Type} {network : SimGraph} {k : κ} {s s' : LockedNode κ}
    {phase phase' : CallPhase} {es : List CallEvent} (h : CallStep network k s phase es s' phase') :
    phase'.stepsLeft < phase.stepsLeft := by
  cases h with
  | routeFound | pathfindingFailed | dispatch | badRoute | route | outcome =>
    simp only [CallPhase.stepsLeft]
    omega
  | @sendPayment hash route hfree =>
    rcases s.node.registerPayment_cases hash route with
      ⟨err, heq⟩ | ⟨hfresh, heq⟩ | ⟨route, path, hpaths, hfresh, heq⟩
    all_goals
      simp only [heq, CallPhase.stepsLeft]
      omega
  | sendToRoute hfree hpaths =>
    unfold SimNode.registerRoute
    split
    all_goals
      simp only [CallPhase.stepsLeft]
      omega
  | trackPayment hfree =>
    unfold SimNode.takePayment
    split
    all_goals
      simp only [CallPhase.stepsLeft]
      omega

/-- The work that is left of the task of a call. -/
def CallState.workLeft {κ : Type} (p : CallState κ) : Nat :=
  (p.task.map fun task => task.2.workLeft task.1).getD 0

section Runs

variable {ν κ : Type} [DecidableEq ν] [DecidableEq κ] {network : SimGraph} {infos : ν → NodeInfo}
  {nodeOf : κ → ν} {calls : κ → Call} {trace : List (κ × NetworkEvent)}
  {w : World κ (NetworkState ν κ) (CallState κ)} {k : κ}

/-- A task is a payment that runs over the channels. -/
theorem run_task_control (h : NetworkRun network infos nodeOf calls trace w)
    {req : PropagatePaymentRequest} {phase : Phase} (htask : (w.proc k).task = some (req, phase)) :
    (∃ past, Control req past phase) ∧ phase.NotifiesWithin req := by
  have hrun := run_tasks h (dispatched_dispatchedRequests req w)
  have hcontrol := run_control hrun k
  have hwithin := run_notifiesWithin hrun k
  have hreq : dispatchedRequests req w k = req := by
    rw [dispatchedRequests, htask]
    rfl
  have hphase : (paymentWorld (dispatchedRequests req w) w).proc k = phase := by
    show (w.proc k).progress _ = phase
    rw [CallState.progress, htask]
    rfl
  rw [hreq, hphase] at hcontrol hwithin
  exact ⟨⟨_, hcontrol⟩, hwithin⟩

/-- The steps left of the calls, and the work left of the tasks. -/
def rank [Fintype κ] (w : World κ (NetworkState ν κ) (CallState κ)) : ℕ × ℕ :=
  (∑ k, (w.proc k).phase.stepsLeft, ∑ k, (w.proc k).workLeft)

/-- **Each step is one of finitely many.** A call comes closer to its end, or a task does. -/
theorem rank_lt [Fintype κ] (h : NetworkRun network infos nodeOf calls trace w)
    {es : List NetworkEvent} {s' s'' : NetworkState ν κ} {p' : CallState κ}
    (hs : NetworkStep network nodeOf k w.shared (w.proc k) es s' p') :
    Prod.Lex (· < ·) (· < ·) (rank ⟨s'', Function.update w.proc k p'⟩) (rank w) := by
  have hother : ∀ j, j ≠ k → Function.update w.proc k p' j = w.proc j :=
    fun j hj => Function.update_of_ne hj _ _
  rcases hs.call_or_payment with ⟨es', node, -, hstep, -⟩
    | ⟨es', req, phase, phase', -, htask, hstep, htask', -, hphase⟩
  · refine .left _ _ (sum_measure_lt (fun _ p => p.phase.stepsLeft) (k := k) ?_ hother)
    show (Function.update w.proc k p' k).phase.stepsLeft < (w.proc k).phase.stepsLeft
    rw [Function.update_self]
    exact hstep.stepsLeft_lt
  · have hsame : ∑ j, (Function.update w.proc k p' j).phase.stepsLeft
        = ∑ j, (w.proc j).phase.stepsLeft := by
      refine Finset.sum_congr rfl fun j _ => ?_
      by_cases hj : j = k
      · rw [hj, Function.update_self, hphase]
      · rw [hother j hj]
    show Prod.Lex _ _ (∑ j, (Function.update w.proc k p' j).phase.stepsLeft, _) _
    rw [hsame]
    refine .right _ (sum_measure_lt (fun _ p => p.workLeft) (k := k) ?_ hother)
    obtain ⟨⟨past, hcontrol⟩, -⟩ := run_task_control h htask
    show (Function.update w.proc k p' k).workLeft < (w.proc k).workLeft
    rw [Function.update_self, CallState.workLeft, htask', CallState.workLeft, htask]
    exact hstep.workLeft_lt hcontrol

/-! ## The next step -/

/-- The call has returned, and so has the task that it has spawned. -/
structure CallState.Done (p : CallState κ) : Prop where
  returned : ∃ result, p.phase = .returned result
  finished : ∀ req phase, p.task = some (req, phase) → ∃ result, phase = .finished result

/-- Some call or task has a step to take. -/
def CanStep (network : SimGraph) (nodeOf : κ → ν) (w : World κ (NetworkState ν κ) (CallState κ)) :
    Prop :=
  ∃ k es s' p', NetworkStep network nodeOf k w.shared (w.proc k) es s' p'

theorem canStep_of_task (h : NetworkRun network infos nodeOf calls trace w)
    {req : PropagatePaymentRequest} {phase : Phase} (htask : (w.proc k).task = some (req, phase))
    (hunfinished : ¬ ∃ result, phase = .finished result) : CanStep network nodeOf w := by
  obtain ⟨⟨past, hcontrol⟩, hwithin⟩ := run_task_control h htask
  obtain ⟨es, channels, phase', hstep⟩ :=
    (hcontrol.exists_step hwithin w.shared.channels).resolve_left hunfinished
  exact ⟨k, _, _, _, .pay htask hstep⟩

/-- A sending call has a step to take where `CallStep` gives it one. -/
theorem canStep_of_send {phase phase' : CallPhase} {es : List CallEvent} {node : LockedNode κ}
    (hphase : (w.proc k).phase = phase) (hsends : phase.sends = true)
    (hstep : CallStep network k (w.shared.nodes (nodeOf k)) phase es node phase') :
    CanStep network nodeOf w := by
  subst hphase
  exact ⟨k, _, _, _, .send hsends hstep⟩

/-- Once its outcome is known, a payment has been tracked. -/
theorem canStep_of_sent {inFlight : InFlightPayment} {j : κ} {result : PaymentResult}
    (hphase : (w.proc k).phase = .tracking inFlight) (hreceiver : (w.proc k).receiver = some j)
    (hsent : w.shared.results j = .sent result) : CanStep network nodeOf w := by
  cases htriggered : w.shared.triggered with
  | true => exact ⟨k, _, _, _, .outcome hphase hreceiver (.shutdown htriggered) none (.ok ())⟩
  | false => exact ⟨k, _, _, _, .outcome hphase hreceiver (.result htriggered hsent) none (.ok ())⟩

/-- A call that waits for an outcome is not waiting forever: the payment is still being dispatched, or its
task is running, or the result has been sent. -/
theorem canStep_of_tracking (h : NetworkRun network infos nodeOf calls trace w)
    {inFlight : InFlightPayment} (hphase : (w.proc k).phase = .tracking inFlight) :
    CanStep network nodeOf w := by
  have hcustody := run_custody h
  obtain ⟨j, hreceiver⟩ := hcustody.waiting k (by rw [hphase]; rfl)
  obtain ⟨hash, inFlight', -, -, hregistered, -⟩ := hcustody.tracker k j hreceiver
  generalize hp : w.proc j = p at hregistered
  generalize hcell : w.shared.results j = cell at hregistered
  cases hregistered with
  | unrouted => exact canStep_of_sent hphase hreceiver hcell
  | dispatching hpaths => exact canStep_of_send (k := j) (by rw [hp]) rfl .dispatch
  | routing hpaths => exact canStep_of_send (k := j) (by rw [hp]) rfl .route
  | running hreturned hsource hhash hunfinished =>
    refine canStep_of_task h (k := j) (by rw [hp]) ?_
    rintro ⟨result, hfinished⟩
    exact hunfinished result hfinished
  | finished => exact canStep_of_sent hphase hreceiver hcell

/-- The call that has the lock of a node does not keep it forever. -/
theorem canStep_of_owner (h : NetworkRun network infos nodeOf calls trace w) {n : ν} {j : κ}
    (howner : (w.shared.nodes n).owner = some j) : CanStep network nodeOf w := by
  have hguard := ((run_owner h n j).mp howner).2
  cases hphase : (w.proc j).phase with
  | dispatching hash route => exact canStep_of_send hphase rfl .dispatch
  | tracking inFlight => exact canStep_of_tracking h hphase
  | _ =>
    rw [hphase] at hguard
    cases hguard

/-- **No deadlock.** Some step can be taken until all calls have returned and all payments are
finished. -/
theorem done_or_canStep (h : NetworkRun network infos nodeOf calls trace w) :
    (∀ k, (w.proc k).Done) ∨ CanStep network nodeOf w := by
  by_cases hfinished : ∀ k req phase, (w.proc k).task = some (req, phase) →
      ∃ result, phase = .finished result
  · by_cases hreturned : ∀ k, ∃ result, (w.proc k).phase = .returned result
    · exact .inl fun k => ⟨hreturned k, hfinished k⟩
    · obtain ⟨k, hk⟩ := not_forall.mp hreturned
      refine .inr ?_
      -- the lock that the call may need is free, or its owner can take a step
      cases howner : (w.shared.nodes (nodeOf k)).owner with
      | some j => exact canStep_of_owner h howner
      | none =>
        cases hphase : (w.proc k).phase with
        | findingRoute =>
          exact canStep_of_send hphase rfl (.pathfindingFailed "")
        | sendPayment hash route =>
          exact canStep_of_send hphase rfl (.sendPayment howner)
        | dispatching hash route => exact canStep_of_send hphase rfl .dispatch
        | sendToRoute route hash customRecords =>
          match hpaths : route.paths with
          | [path] =>
            exact canStep_of_send hphase rfl (.sendToRoute howner hpaths)
          | [] | _ :: _ :: _ =>
            exact canStep_of_send hphase rfl (.badRoute (by simp [hpaths]))
        | routing route hash customRecords => exact canStep_of_send hphase rfl .route
        | trackPayment hash => exact ⟨k, _, _, _, .take hphase (.trackPayment howner)⟩
        | tracking inFlight => exact canStep_of_tracking h hphase
        | returned result => exact absurd ⟨result, hphase⟩ hk
  · simp only [not_forall] at hfinished
    obtain ⟨k, req, phase, htask, hunfinished⟩ := hfinished
    exact .inr (canStep_of_task h htask hunfinished)

/-- **Every call returns.** Finitely many calls are made on the nodes of a network: payments are sent
and tracked, in any order and from any number of nodes, and the shutdown may be triggered at any time. All
calls inevitably return and all payments inevitably finish, and what the payments' trackers are told is
true of them. -/
theorem calls_return [Fintype κ] (network : SimGraph) (infos : ν → NodeInfo) (nodeOf : κ → ν)
    (calls : κ → Call) :
    (networkCalls network nodeOf).Inevitably
      (fun w => ∃ trace, NetworkRun network infos nodeOf calls trace w ∧ ∀ k, (w.proc k).Done ∧
        ∀ res, (w.proc k).phase = .returned (.tracked res) → ∃ hash, calls k = .trackPayment hash ∧
          FaithfullyTracked network infos nodeOf trace w k hash res)
      (connected network infos calls) := by
  refine System.inevitably_of_rank (WellFounded.prod_lex Nat.lt_wfRel.wf Nat.lt_wfRel.wf) rank
    (I := fun w => ∃ trace, NetworkRun network infos nodeOf calls trace w) (fun w hw => ?_) ⟨[], .refl⟩
  obtain ⟨trace, hrun⟩ := hw
  rcases done_or_canStep hrun with hdone | ⟨k, es, s', p', hs⟩
  · refine .inl ⟨trace, hrun, fun k => ⟨hdone k, fun res hreturned => ?_⟩⟩
    obtain ⟨hash, hcall, rfl | ⟨j, inFlight, hreceiver, hnode, hregistered, htracks⟩⟩ :=
      run_tracks hrun hreturned
    · exact ⟨hash, hcall, .notFound hash⟩
    · exact ⟨hash, hcall, .of_tracks hrun hreceiver hnode hregistered htracks⟩
  · refine .inr ⟨⟨k, es, _, p', s', false, hs, rfl⟩, fun k es s' p' hs => ⟨⟨_, hrun.tail hs⟩, ?_⟩⟩
    obtain ⟨after, interrupted, hs, rfl⟩ := hs
    exact rank_lt hrun hs

end Runs

end SimLn
