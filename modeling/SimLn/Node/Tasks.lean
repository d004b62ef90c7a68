import SimLn.Node.Calls
import SimLn.Payment.Progress

/-!
# SimLn — nodes and the payments they dispatch

The calls of `Node.Calls` and the tasks of `Payment` make up one system: calls on the nodes of one
network dispatch payments, which run as tasks over its channels. Between a call and those who track its
payment stands a oneshot channel. The sender goes to the task, or is used at once if no route was found.
The receiver is kept in the node's map of payments in flight until `track_payment` takes it out.

To each node this system is a run of its calls (`run_nodeCalls`), and to the channels it is a run of payments
(`run_tasks`). So what holds of every such run holds here.
-/

namespace SimLn

open Lib

/-! ## The network -/

/-- The oneshot channel for the result of a payment. -/
inductive ResultChannel where
  | empty
  | sent (result : PaymentResult)
  /-- The sender was dropped without a result. -/
  | closed
  deriving DecidableEq

/-- The network and its nodes `ν`. A call creates one result channel, which goes by its name. -/
structure NetworkState (ν κ : Type) where
  channels : Channels
  nodes : ν → LockedNode κ
  /-- The `track_payment_receiver` of each payment in flight on a node. -/
  receivers : ν → Table PaymentHash κ
  results : κ → ResultChannel
  /-- The shutdown signal. -/
  triggered : Bool

/-- A call together with the task that it has spawned. -/
structure CallState (κ : Type) where
  phase : CallPhase
  /-- The receiver that the call has taken out of its node's map. -/
  receiver : Option κ
  task : Option (PropagatePaymentRequest × Phase)

inductive NetworkEvent where
  | call (e : CallEvent)
  | payment (e : Event)

/-- The call sends a payment and has not returned. -/
def CallPhase.sends : CallPhase → Bool
  | .findingRoute | .sendPayment _ _ | .dispatching _ _ | .sendToRoute _ _ _ | .routing _ _ _ => true
  | .trackPayment _ | .tracking _ | .returned _ => false

def SimNode.new (info : NodeInfo) : SimNode := { info, inFlight := ∅ }

/-- The task that is spawned for a payment. -/
def CallEvent.spawned : CallEvent → Option (PropagatePaymentRequest × Phase)
  | .dispatched (some req) => some (req, req.start)
  | _ => none

namespace NetworkState

variable {ν κ : Type} [DecidableEq ν] [DecidableEq κ]

/-- What call `k` on node `n` does to the rest of the network. -/
def observe (n : ν) (k : κ) (s : NetworkState ν κ) : CallEvent → NetworkState ν κ
  | .registered hash =>
    { s with receivers := Function.update s.receivers n ((s.receivers n).insert hash k) }
  | .resultSent _ result => { s with results := Function.update s.results k (.sent result) }
  -- the sender is dropped with the route
  | .dispatched none => { s with results := Function.update s.results k .closed }
  | .dispatched (some _) | .scored _ => s

/-- What the task of call `k` does to the rest of the network. -/
def notice (k : κ) (s : NetworkState ν κ) : Event → NetworkState ν κ
  | .reported result => { s with results := Function.update s.results k (.sent result) }
  | .shutdownTriggered => { s with triggered := true }
  | _ => s

/-- What the receiver of call `j`'s channel is told. The shutdown comes first if it has been
triggered. -/
inductive Observes (s : NetworkState ν κ) (j : κ) : TrackedOutcome → Prop where
  | shutdown (htriggered : s.triggered = true) : Observes s j .shutdown
  | closed (message : String) (hquiet : s.triggered = false) (hclosed : s.results j = .closed) :
      Observes s j (.closed message)
  | result {result : PaymentResult} (hquiet : s.triggered = false)
      (hsent : s.results j = .sent result) : Observes s j (.result (.ok result))

def setNode (s : NetworkState ν κ) (n : ν) (node : LockedNode κ) : NetworkState ν κ :=
  { s with nodes := Function.update s.nodes n node }

/-- The shutdown is triggered from outside, or it is not. -/
def interrupt (s : NetworkState ν κ) (interrupted : Bool) : NetworkState ν κ :=
  { s with triggered := s.triggered || interrupted }

end NetworkState

section Steps

variable {ν κ : Type} [DecidableEq ν] [DecidableEq κ]

/-- One step of call `k`, which is made on node `nodeOf k`, or of the task that it has spawned. -/
inductive NetworkStep (network : SimGraph) (nodeOf : κ → ν) (k : κ) :
    NetworkState ν κ → CallState κ → List NetworkEvent → NetworkState ν κ → CallState κ → Prop where
  | send {s : NetworkState ν κ} {p : CallState κ} {es : List CallEvent} {node : LockedNode κ}
      {phase : CallPhase} (hsends : p.phase.sends = true)
      (hstep : CallStep network k (s.nodes (nodeOf k)) p.phase es node phase) :
      NetworkStep network nodeOf k s p (es.map .call)
        (es.foldl (NetworkState.observe (nodeOf k) k) (s.setNode (nodeOf k) node))
        { p with phase, task := p.task.or (es.findSome? CallEvent.spawned) }
  | take {s : NetworkState ν κ} {p : CallState κ} {hash : PaymentHash} {node : LockedNode κ}
      {phase : CallPhase} (hphase : p.phase = .trackPayment hash)
      (hstep : CallStep network k (s.nodes (nodeOf k)) (.trackPayment hash) [] node phase) :
      NetworkStep network nodeOf k s p []
        { s.setNode (nodeOf k) node with
          receivers := Function.update s.receivers (nodeOf k) ((s.receivers (nodeOf k)).erase hash) }
        { p with phase, receiver := (s.receivers (nodeOf k)).lookup hash }
  | outcome {s : NetworkState ν κ} {p : CallState κ} {inFlight : InFlightPayment} {j : κ}
      {outcome : TrackedOutcome} (hphase : p.phase = .tracking inFlight)
      (hreceiver : p.receiver = some j) (houtcome : s.Observes j outcome) (sinceEpoch : Option Nat)
      (scorer : Except String Unit) :
      NetworkStep network nodeOf k s p
        (((inFlight.tracked outcome sinceEpoch scorer).2.map CallEvent.scored).map .call)
        (s.setNode (nodeOf k) { s.nodes (nodeOf k) with owner := none })
        { p with phase := .returned (.tracked (inFlight.tracked outcome sinceEpoch scorer).1) }
  | pay {s : NetworkState ν κ} {p : CallState κ} {req : PropagatePaymentRequest}
      {phase phase' : Phase} {es : List Event} {channels : Channels}
      (htask : p.task = some (req, phase))
      (hstep : Step req s.channels phase es channels phase') :
      NetworkStep network nodeOf k s p (es.map .payment)
        (es.foldl (NetworkState.notice k) { s with channels })
        { p with task := some (req, phase') }

/-- The calls on the nodes of one network, with the payments that they dispatch. With any step the
shutdown may have been triggered from outside. -/
def networkCalls (network : SimGraph) (nodeOf : κ → ν) :
    System κ (NetworkState ν κ) (CallState κ) NetworkEvent where
  step k s p es s' p' :=
    ∃ after interrupted, NetworkStep network nodeOf k s p es after p' ∧
      s' = NetworkState.interrupt after interrupted

/-- The nodes, with nothing in flight, and the calls before their first step. -/
def connected (network : SimGraph) (infos : ν → NodeInfo) (calls : κ → Call) :
    World κ (NetworkState ν κ) (CallState κ) where
  shared :=
    { channels := network.channels
      nodes := fun n => ⟨.new (infos n), none⟩
      receivers := fun _ => ∅
      results := fun _ => .empty
      triggered := false }
  proc k := { phase := (calls k).start, receiver := none, task := none }

/-- Calls on the nodes of the network, and the payments, have taken steps in some order. -/
abbrev NetworkRun (network : SimGraph) (infos : ν → NodeInfo) (nodeOf : κ → ν) (calls : κ → Call)
    (trace : List (κ × NetworkEvent)) (w : World κ (NetworkState ν κ) (CallState κ)) : Prop :=
  (networkCalls network nodeOf).Run (connected network infos calls) trace w

/-- A network run goes on with a step of any call. -/
theorem NetworkRun.step {network : SimGraph} {infos : ν → NodeInfo} {nodeOf : κ → ν}
    {calls : κ → Call} {trace : List (κ × NetworkEvent)}
    {w : World κ (NetworkState ν κ) (CallState κ)} {es : List NetworkEvent} {s' : NetworkState ν κ}
    {p' : CallState κ} (h : NetworkRun network infos nodeOf calls trace w) (k : κ)
    (hs : NetworkStep network nodeOf k w.shared (w.proc k) es s' p') :
    NetworkRun network infos nodeOf calls (trace ++ es.map (Prod.mk k))
      ⟨s'.interrupt false, Function.update w.proc k p'⟩ :=
  h.tail ⟨s', false, hs, rfl⟩

end Steps

/-! ## What calls and tasks leave alone -/

namespace NetworkState

section SetNode

variable {ν κ : Type} [DecidableEq ν] (n : ν) (s : NetworkState ν κ) (node : LockedNode κ)

@[simp] theorem setNode_channels : (s.setNode n node).channels = s.channels := rfl

@[simp] theorem setNode_nodes : (s.setNode n node).nodes = Function.update s.nodes n node := rfl

@[simp] theorem setNode_receivers : (s.setNode n node).receivers = s.receivers := rfl

@[simp] theorem setNode_results : (s.setNode n node).results = s.results := rfl

@[simp] theorem setNode_triggered : (s.setNode n node).triggered = s.triggered := rfl

end SetNode

variable {ν κ : Type} [DecidableEq κ] (n : ν) (k : κ) (s : NetworkState ν κ)

section Observe

variable [DecidableEq ν]

/-- A call does not touch the nodes, the channels or the signal through its events. -/
theorem foldl_observe (es : List CallEvent) : (es.foldl (observe n k) s).nodes = s.nodes ∧
    (es.foldl (observe n k) s).channels = s.channels ∧
    (es.foldl (observe n k) s).triggered = s.triggered := by
  refine ⟨foldl_fixed nodes (fun s e => ?_) s es, foldl_fixed channels (fun s e => ?_) s es,
    foldl_fixed triggered (fun s e => ?_) s es⟩
  all_goals rcases e with hash | ⟨hash, result⟩ | ⟨_ | req⟩ | update <;> rfl

@[simp] theorem foldl_observe_nodes (es : List CallEvent) :
    (es.foldl (observe n k) s).nodes = s.nodes := (foldl_observe n k s es).1

@[simp] theorem foldl_observe_channels (es : List CallEvent) :
    (es.foldl (observe n k) s).channels = s.channels := (foldl_observe n k s es).2.1

@[simp] theorem foldl_observe_triggered (es : List CallEvent) :
    (es.foldl (observe n k) s).triggered = s.triggered := (foldl_observe n k s es).2.2

end Observe

/-- A task does not touch the nodes, the receivers or, but for its step, the channels. -/
theorem foldl_notice (es : List Event) : (es.foldl (notice k) s).nodes = s.nodes ∧
    (es.foldl (notice k) s).channels = s.channels ∧
    (es.foldl (notice k) s).receivers = s.receivers := by
  refine ⟨foldl_fixed nodes (fun s e => ?_) s es, foldl_fixed channels (fun s e => ?_) s es,
    foldl_fixed receivers (fun s e => ?_) s es⟩
  all_goals cases e <;> rfl

@[simp] theorem foldl_notice_nodes (es : List Event) :
    (es.foldl (notice k) s).nodes = s.nodes := (foldl_notice k s es).1

@[simp] theorem foldl_notice_channels (es : List Event) :
    (es.foldl (notice k) s).channels = s.channels := (foldl_notice k s es).2.1

@[simp] theorem foldl_notice_receivers (es : List Event) :
    (es.foldl (notice k) s).receivers = s.receivers := (foldl_notice k s es).2.2

/-- The shutdown signal is not taken back. -/
theorem foldl_notice_triggered (es : List Event) (h : s.triggered = true) :
    (es.foldl (notice k) s).triggered = true := by
  induction es generalizing s with
  | nil => exact h
  | cons e es ih =>
    refine ih _ ?_
    cases e with
    | shutdownTriggered => rfl
    | _ => exact h

/-- A task sends a result with its last step, and none before. -/
theorem results_of_step {req : PropagatePaymentRequest} {channels channels' : Channels}
    {phase phase' : Phase} {es : List Event} (h : Step req channels phase es channels' phase') :
    (∃ result, phase' = .finished result ∧
      (es.foldl (notice k) s).results = Function.update s.results k (.sent result)) ∨
    (∀ result, phase' ≠ .finished result) ∧ (es.foldl (notice k) s).results = s.results := by
  cases h.transition with
  | addCritical | addRefusedFirst | forwardCritical | interceptCritical | interceptRefusedFirst
  | removeCritical | removedInsane | notifyCritical | removedAll => exact .inl ⟨_, rfl, rfl⟩
  | addRefused | forwardRefused | interceptRefused | forwarded | received | removed | notified
  | removeNext => exact .inr ⟨fun _ h => (by cases h), rfl⟩
  | @added loop hop index =>
    refine .inr ⟨fun _ h => (by cases h), ?_⟩
    rw [List.foldl_cons, List.foldl_map]
    exact foldl_fixed results (fun _ _ => rfl) _ _

end NetworkState

/-! ## The calls of one node, and the payments -/

section Runs

variable {ν κ : Type} [DecidableEq ν] [DecidableEq κ] {network : SimGraph} {infos : ν → NodeInfo}
  {nodeOf : κ → ν} {calls : κ → Call} {trace : List (κ × NetworkEvent)}
  {w : World κ (NetworkState ν κ) (CallState κ)}

/-- A step is one of a call on its node, or one of the task that the call has spawned. -/
theorem NetworkStep.call_or_payment {k : κ} {s s' : NetworkState ν κ} {p p' : CallState κ}
    {es : List NetworkEvent} (h : NetworkStep network nodeOf k s p es s' p') :
    (∃ es' node, es = es'.map .call ∧
      CallStep network k (s.nodes (nodeOf k)) p.phase es' node p'.phase ∧
      s'.nodes = Function.update s.nodes (nodeOf k) node ∧ s'.channels = s.channels ∧
      (p'.task = p.task ∨ p.task = none ∧ ∃ req, p'.task = some (req, req.start))) ∨
    ∃ es' req phase phase', es = es'.map .payment ∧ p.task = some (req, phase) ∧
      Step req s.channels phase es' s'.channels phase' ∧ p'.task = some (req, phase') ∧
      s'.nodes = s.nodes ∧ p'.phase = p.phase := by
  cases h with
  | @send es node phase hsends hstep =>
    refine .inl ⟨es, node, rfl, hstep, by simp, by simp, ?_⟩
    cases htask : p.task with
    | some task => exact .inl rfl
    | none =>
      show es.findSome? CallEvent.spawned = none ∨ none = none ∧ ∃ req, _
      cases hspawned : es.findSome? CallEvent.spawned with
      | none => exact .inl rfl
      | some task =>
        obtain ⟨e, -, he⟩ := List.exists_of_findSome?_eq_some hspawned
        rcases e with hash | ⟨hash, result⟩ | ⟨_ | req⟩ | update <;> cases he
        exact .inr ⟨rfl, req, rfl⟩
  | take hphase hstep =>
    exact .inl ⟨[], _, rfl, hphase.symm ▸ hstep, by simp, by simp, .inl rfl⟩
  | outcome hphase hreceiver houtcome sinceEpoch scorer =>
    exact .inl ⟨_, _, rfl, hphase.symm ▸ CallStep.outcome _ sinceEpoch scorer, by simp, by simp,
      .inl rfl⟩
  | @pay req phase phase' es channels htask hstep =>
    exact .inr ⟨es, req, phase, phase', rfl, htask, by simpa using hstep, rfl, by simp, rfl⟩

/-- The events of calls on node `n`. -/
def callOn (nodeOf : κ → ν) (n : ν) (k : κ) : NetworkEvent → Option CallEvent
  | .call e => if nodeOf k = n then some e else none
  | .payment _ => none

/-- **A node sees its calls.** Whatever the network and the other nodes do, what a node does is a run of
the calls that are made on it. -/
theorem run_nodeCalls (h : NetworkRun network infos nodeOf calls trace w) (n : ν) :
    CallRun network (.new (infos n)) calls (observed (callOn nodeOf n) trace)
      ⟨w.shared.nodes n, fun k => if nodeOf k = n then (w.proc k).phase else (calls k).start⟩ := by
  have hrun := h.projected (nodeCalls κ network) (fun s => s.nodes n)
    (fun k p => if nodeOf k = n then p.phase else (calls k).start) (callOn nodeOf n)
    (fun _ => True) trivial (fun _ _ _ _ _ _ _ => trivial) fun v k es s p hs _ => ?_
  · simpa [connected] using hrun
  · obtain ⟨after, interrupted, hs, rfl⟩ := hs
    show CallStep network k _ _ _ (after.nodes n) _ ∨ after.nodes n = _ ∧ _
    rcases hs.call_or_payment with ⟨es', node, rfl, hstep, hnodes, -, -⟩
      | ⟨es', req, phase, phase', rfl, -, -, -, hnodes, hphase⟩
    · by_cases hn : nodeOf k = n
      · subst hn
        have hes : (es'.map NetworkEvent.call).filterMap (callOn nodeOf (nodeOf k) k) = es' := by
          simp [List.filterMap_map, callOn, Function.comp_def]
        rw [hes, hnodes, Function.update_self, if_pos rfl, if_pos rfl]
        exact .inl hstep
      · refine .inr ⟨?_, by rw [if_neg hn, if_neg hn], by simp [List.filterMap_eq_nil_iff, callOn, hn]⟩
        rw [hnodes, Function.update_of_ne (Ne.symm hn)]
    · rw [hnodes, hphase]
      exact .inr ⟨rfl, rfl, by simp [List.filterMap_eq_nil_iff, callOn]⟩

/-- The payments that have been dispatched are those of `reqs`. -/
def Dispatched (reqs : κ → PropagatePaymentRequest) (w : World κ (NetworkState ν κ) (CallState κ)) :
    Prop :=
  ∀ k req phase, (w.proc k).task = some (req, phase) → reqs k = req

/-- The events of the tasks. -/
def ofPayment (_ : κ) : NetworkEvent → Option Event
  | .call _ => none
  | .payment e => some e

/-- How far the payment of a call is. -/
def CallState.progress (req : PropagatePaymentRequest) (p : CallState κ) : Phase :=
  (p.task.map Prod.snd).getD req.start

/-- The network as its payments see it. -/
def paymentWorld (reqs : κ → PropagatePaymentRequest)
    (w : World κ (NetworkState ν κ) (CallState κ)) : World κ Channels Phase :=
  ⟨w.shared.channels, fun k => (w.proc k).progress (reqs k)⟩

/-- **The channels see payments.** Whatever the nodes do, what happens on the channels is a run of the
payments that are dispatched by its end. -/
theorem run_tasks (h : NetworkRun network infos nodeOf calls trace w)
    {reqs : κ → PropagatePaymentRequest} (hreqs : Dispatched reqs w) :
    PaymentRun reqs network.channels (observed ofPayment trace) (paymentWorld reqs w) := by
  refine h.projected (payments reqs) (fun s => s.channels) (fun k p => p.progress (reqs k))
    ofPayment (Dispatched reqs) hreqs (fun v k es s p hs hreqs => ?_) fun v k es s p hs hreqs => ?_
  · -- a task stays with its request, so that requests of the end are those of any world before
    obtain ⟨after, interrupted, hs, rfl⟩ := hs
    intro j req phase htask
    by_cases hj : j = k
    · subst hj
      have hreq := hreqs j
      simp only [Function.update_self] at hreq
      rcases hs.call_or_payment with ⟨-, -, -, -, -, -, hsame | ⟨hnone, -⟩⟩
        | ⟨-, req', phase', phase'', -, htask', -, htask'', -⟩
      · exact hreq req phase (hsame.trans htask)
      · rw [hnone] at htask
        cases htask
      · obtain rfl : req' = req := (Prod.mk.inj (Option.some.inj (htask'.symm.trans htask))).1
        exact hreq req' phase'' htask''
    · exact hreqs j req phase (by simpa only [Function.update_of_ne hj] using htask)
  · obtain ⟨after, interrupted, hs, rfl⟩ := hs
    have hreq := hreqs k
    simp only [Function.update_self] at hreq
    show Step (reqs k) _ _ _ after.channels _ ∨ after.channels = _ ∧ _
    rcases hs.call_or_payment with ⟨es', -, rfl, -, -, hchannels, htask⟩
      | ⟨es', req, phase, phase', rfl, htask, hstep, htask', -⟩
    · refine .inr ⟨hchannels, ?_, by simp [List.filterMap_eq_nil_iff, ofPayment]⟩
      rcases htask with hsame | ⟨hnone, req, hspawned⟩
      · rw [CallState.progress, hsame, CallState.progress]
      · rw [CallState.progress, hspawned, CallState.progress, hnone, hreq req _ hspawned]
        rfl
    · have hes : (es'.map NetworkEvent.payment).filterMap (ofPayment k) = es' := by
        simp [List.filterMap_map, ofPayment, Function.comp_def]
      obtain rfl := hreq req phase' htask'
      rw [hes, CallState.progress, htask, CallState.progress, htask']
      exact .inl hstep

end Runs

end SimLn
