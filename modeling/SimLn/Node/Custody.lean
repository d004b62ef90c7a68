import SimLn.Node.Tasks
import SimLn.Payment.Outcome

/-!
# SimLn — what a node is told of its payments

A payment that a node has in flight is in the custody of one receiver: the one in the node's map, or the
one that a `track_payment` call has taken out of it. `Custody` says which call each receiver belongs to,
and `Registered` how far the payment of that call is. From it follows what tracking a payment comes to
(`tracked_faithful`): the result is that of the one payment that the node has registered under the hash,
and true of its HTLCs.
-/

namespace SimLn

open Lib

/-! ## A registered payment -/

/-- The call has returned that its payment is under way. -/
def CallResult.Accepted (hash : PaymentHash) (result : CallResult) : Prop :=
  result = .sent (.ok hash) ∨ result = .routed (.ok ())

/-- A payment from `source` that has been registered under `hash`: where its call and its task are, and
what its result channel holds. -/
inductive Registered {κ : Type} (source : PublicKey) (hash : PaymentHash) :
    InFlightPayment → CallState κ → ResultChannel → Prop where
  | unrouted : Registered source hash ⟨none⟩ ⟨.returned (.sent (.ok hash)), none, none⟩
      (.sent ⟨0, .routeNotFound⟩)
  | dispatching {route : Route} {path : Path} (hpaths : route.paths = [path]) :
      Registered source hash ⟨some path⟩ ⟨.dispatching hash route, none, none⟩ .empty
  | routing {route : Route} {path : Path} {customRecords : Option CustomRecords}
      (hpaths : route.paths = [path]) :
      Registered source hash ⟨some path⟩ ⟨.routing route hash customRecords, none, none⟩ .empty
  | running {req : PropagatePaymentRequest} {phase : Phase} {result : CallResult}
      (hreturned : result.Accepted hash) (hsource : req.source = source)
      (hhash : req.paymentHash = hash) (hunfinished : ∀ result, phase ≠ .finished result) :
      Registered source hash ⟨some req.route⟩ ⟨.returned result, none, some (req, phase)⟩ .empty
  | finished {req : PropagatePaymentRequest} {payment : PaymentResult} {result : CallResult}
      (hreturned : result.Accepted hash) (hsource : req.source = source)
      (hhash : req.paymentHash = hash) :
      Registered source hash ⟨some req.route⟩
        ⟨.returned result, none, some (req, .finished payment)⟩ (.sent payment)

/-- `send_payment` is refused, or it registers a payment without a route or with one. -/
theorem SimNode.registerPayment_cases (self : SimNode) (hash : PaymentHash)
    (route : Except SimulationError Route) :
    (∃ err, self.registerPayment hash route = ([], self, .returned (.sent (.error err)))) ∨
    (hash ∉ self.inFlight ∧ self.registerPayment hash route
      = ([.resultSent hash ⟨0, .routeNotFound⟩, .registered hash],
        { self with inFlight := self.inFlight.insert hash { path := none } },
        .returned (.sent (.ok hash)))) ∨
    ∃ found path, found.paths = [path] ∧ hash ∉ self.inFlight ∧ self.registerPayment hash route
      = ([.registered hash], { self with inFlight := self.inFlight.insert hash { path := some path } },
        .dispatching hash found) := by
  unfold SimNode.registerPayment
  split
  next hmem => exact .inl ⟨_, rfl⟩
  next hmem =>
    split
    next err => exact .inr (.inl ⟨hmem, rfl⟩)
    next found =>
      split
      next path hpaths => exact .inr (.inr ⟨found, path, hpaths, hmem, rfl⟩)
      next => exact .inl ⟨_, rfl⟩

section Steps

variable {κ : Type} {network : SimGraph} {p : CallState κ} {source : PublicKey} {hash : PaymentHash}
  {inFlight : InFlightPayment} {cell : ResultChannel}

/-- A route with one path is dispatched. -/
theorem SimGraph.dispatchPayment_eq (network : SimGraph) (source : PublicKey) (hash : PaymentHash)
    {route : Route} {path : Path} (hpaths : route.paths = [path])
    (customRecords : Option CustomRecords) :
    ∃ req, network.dispatchPayment source route customRecords hash = some req ∧
      req.source = source ∧ req.route = path ∧ req.paymentHash = hash := by
  rw [SimGraph.dispatchPayment, hpaths]
  exact ⟨_, rfl, rfl, rfl, rfl⟩

/-- The call of a registered payment does not track. -/
theorem Registered.receiver (h : Registered source hash inFlight p cell) : p.receiver = none := by
  cases h <;> rfl

/-- A payment is registered under one hash, with one path. -/
theorem Registered.unique {hash' : PaymentHash} {source' : PublicKey} {inFlight' : InFlightPayment}
    (h : Registered source hash inFlight p cell) (h' : Registered source' hash' inFlight' p cell) :
    hash = hash' ∧ inFlight = inFlight' := by
  cases h with
  | unrouted =>
    cases h'
    exact ⟨rfl, rfl⟩
  | dispatching hpaths =>
    cases h' with
    | dispatching hpaths' =>
      obtain rfl := (List.cons.inj (hpaths.symm.trans hpaths')).1
      exact ⟨rfl, rfl⟩
  | routing hpaths =>
    cases h' with
    | routing hpaths' =>
      obtain rfl := (List.cons.inj (hpaths.symm.trans hpaths')).1
      exact ⟨rfl, rfl⟩
  | running hreturned hsource hhash hunfinished =>
    cases h' with
    | running hreturned' hsource' hhash' hunfinished' => exact ⟨hhash.symm.trans hhash', rfl⟩
  | finished hreturned hsource hhash =>
    cases h' with
    | finished hreturned' hsource' hhash' => exact ⟨hhash.symm.trans hhash', rfl⟩

/-- The sender of a registered payment is not dropped. -/
theorem Registered.cell_ne_closed (h : Registered source hash inFlight p cell) : cell ≠ .closed := by
  cases h <;> exact fun h => (by cases h)

/-- Once its route has been handed over, a payment runs. -/
theorem Registered.of_dispatched {path : Path} {req : PropagatePaymentRequest} {result : CallResult}
    (hreturned : result.Accepted hash) (hreq : req.source = source ∧ req.route = path ∧
      req.paymentHash = hash) : Registered source hash ⟨some path⟩
        (⟨.returned result, none, some (req, req.start)⟩ : CallState κ) .empty := by
  obtain ⟨hsource, rfl, hhash⟩ := hreq
  exact .running hreturned hsource hhash fun _ h => (by cases h)

variable {ν : Type} [DecidableEq ν] [DecidableEq κ] {nodeOf : κ → ν} {k : κ}
  {s s' : NetworkState ν κ} {p' : CallState κ} {es : List NetworkEvent}

/-- A registered payment stays registered. -/
theorem Registered.step (h : Registered source hash inFlight p (s.results k))
    (hs : NetworkStep network nodeOf k s p es s' p')
    (hsource : (s.nodes (nodeOf k)).node.info.pubkey = source) :
    Registered source hash inFlight p' (s'.results k) := by
  generalize hcell : s.results k = cell at h
  cases hs with
  | send hsends hstep =>
    cases h with
    | unrouted | running | finished => cases hsends
    | dispatching hpaths =>
      cases hstep
      obtain ⟨req, hdispatch, hreq⟩ := network.dispatchPayment_eq source hash hpaths none
      rw [hsource, hdispatch]
      show Registered _ _ _ _ (s.results k)
      rw [hcell]
      exact .of_dispatched (.inl rfl) hreq
    | @routing route path customRecords hpaths =>
      cases hstep
      obtain ⟨req, hdispatch, hreq⟩ := network.dispatchPayment_eq source hash hpaths customRecords
      rw [hsource, hdispatch]
      show Registered _ _ _ _ (s.results k)
      rw [hcell]
      exact .of_dispatched (.inr rfl) hreq
  | take hphase => cases h <;> cases hphase
  | outcome hphase => cases h <;> cases hphase
  | @pay req phase phase' es channels htask hstep =>
    cases h with
    | unrouted | dispatching | routing => cases htask
    | finished =>
      cases htask
      cases hstep
    | running hreturned hsource hhash hunfinished =>
      cases htask
      rcases NetworkState.results_of_step k { s with channels } hstep with
        ⟨payment, rfl, hresults⟩ | ⟨hunfinished', hresults⟩
      · rw [hresults, Function.update_self]
        exact .finished hreturned hsource hhash
      · rw [hresults]
        show Registered _ _ _ _ (s.results k)
        rw [hcell]
        exact .running hreturned hsource hhash hunfinished'

/-- The call has not got as far as the node's map. -/
def CallPhase.unregistered : CallPhase → Bool
  | .findingRoute | .sendPayment _ _ | .sendToRoute _ _ _ => true
  | _ => false

/-- What a step of call `k` does to the payments in flight, and to its own receiver. -/
inductive Effect (nodeOf : κ → ν) (k : κ) (s s' : NetworkState ν κ) (p p' : CallState κ) : Prop where
  | none (hnodes : ∀ n, (s'.nodes n).node = (s.nodes n).node) (hreceivers : s'.receivers = s.receivers)
      (hreceiver : p'.receiver = p.receiver)
  | registered {hash : PaymentHash} {inFlight : InFlightPayment} {owner : Option κ}
      (hunregistered : p.phase.unregistered = true) (hfree : (s.nodes (nodeOf k)).owner = .none)
      (hfresh : hash ∉ (s.nodes (nodeOf k)).node.inFlight)
      (hnodes : s'.nodes = Function.update s.nodes (nodeOf k)
        ⟨{ (s.nodes (nodeOf k)).node with
            inFlight := (s.nodes (nodeOf k)).node.inFlight.insert hash inFlight }, owner⟩)
      (hreceivers : s'.receivers =
        Function.update s.receivers (nodeOf k) ((s.receivers (nodeOf k)).insert hash k))
      (hreceiver : p'.receiver = p.receiver)
      (hregistered : p.receiver = .none → p.task = .none → s.results k = .empty →
        Registered (s.nodes (nodeOf k)).node.info.pubkey hash inFlight p' (s'.results k))
  | taken {hash : PaymentHash} {owner : Option κ} (hphase : p.phase = .trackPayment hash)
      (hfree : (s.nodes (nodeOf k)).owner = .none)
      (hnodes : s'.nodes = Function.update s.nodes (nodeOf k)
        ⟨((s.nodes (nodeOf k)).node.takePayment hash).1, owner⟩)
      (hreceivers : s'.receivers =
        Function.update s.receivers (nodeOf k) ((s.receivers (nodeOf k)).erase hash))
      (hreceiver : p'.receiver = (s.receivers (nodeOf k)).lookup hash)
      (hphase' : p'.phase = ((s.nodes (nodeOf k)).node.takePayment hash).2)

omit [DecidableEq κ] in
/-- A step that changes its own node, and that not in the map of payments. -/
theorem Effect.of_node {node : LockedNode κ}
    (hnodes : s'.nodes = Function.update s.nodes (nodeOf k) node)
    (hnode : node.node = (s.nodes (nodeOf k)).node) (hreceivers : s'.receivers = s.receivers)
    (hreceiver : p'.receiver = p.receiver) : Effect nodeOf k s s' p p' := by
  refine .none (fun n => ?_) hreceivers hreceiver
  rw [hnodes]
  by_cases hn : n = nodeOf k
  · rw [hn, Function.update_self, hnode]
  · rw [Function.update_of_ne hn]

/-- What a call that sends does to the nodes and their maps. -/
theorem CallStep.effect {es : List CallEvent} {node : LockedNode κ} {phase : CallPhase}
    (hsends : p.phase.sends = true)
    (h : CallStep network k (s.nodes (nodeOf k)) p.phase es node phase) :
    Effect nodeOf k s (es.foldl (NetworkState.observe (nodeOf k) k) (s.setNode (nodeOf k) node)) p
      { p with phase, task := p.task.or (es.findSome? CallEvent.spawned) } := by
  generalize hphase : p.phase = from_ at h hsends
  cases h with
  | trackPayment | outcome => cases hsends
  | routeFound | pathfindingFailed | badRoute => exact .of_node rfl rfl rfl rfl
  | @dispatch hash route =>
    cases hdispatch : network.dispatchPayment (s.nodes (nodeOf k)).node.info.pubkey route none hash with
    | none => exact .of_node rfl rfl rfl rfl
    | some req => exact .of_node rfl rfl rfl rfl
  | @route route hash customRecords =>
    cases hdispatch : network.dispatchPayment (s.nodes (nodeOf k)).node.info.pubkey route
        customRecords hash with
    | none => exact .of_node rfl rfl rfl rfl
    | some req => exact .of_node rfl rfl rfl rfl
  | @sendPayment hash route hfree =>
    rcases (s.nodes (nodeOf k)).node.registerPayment_cases hash route with
      ⟨err, heq⟩ | ⟨hfresh, heq⟩ | ⟨route, path, hpaths, hfresh, heq⟩
    · rw [heq]
      exact .of_node rfl rfl rfl rfl
    · rw [heq]
      refine .registered (by rw [hphase]; rfl) hfree hfresh rfl rfl rfl fun hreceiver htask hcell => ?_
      show Registered _ _ _ ⟨_, p.receiver, p.task.or none⟩ (Function.update s.results k _ k)
      rw [hreceiver, htask, Function.update_self]
      exact .unrouted
    · rw [heq]
      refine .registered (by rw [hphase]; rfl) hfree hfresh rfl rfl rfl fun hreceiver htask hcell => ?_
      show Registered _ _ _ ⟨_, p.receiver, p.task.or none⟩ (s.results k)
      rw [hreceiver, htask, hcell]
      exact .dispatching hpaths
  | @sendToRoute route path hash customRecords hfree hpaths =>
    rw [SimNode.registerRoute]
    by_cases hmem : hash ∈ (s.nodes (nodeOf k)).node.inFlight
    · rw [if_pos hmem]
      exact .of_node rfl rfl rfl rfl
    · rw [if_neg hmem]
      refine .registered (by rw [hphase]; rfl) hfree hmem rfl rfl rfl fun hreceiver htask hcell => ?_
      show Registered _ _ _ ⟨_, p.receiver, p.task.or none⟩ (s.results k)
      rw [hreceiver, htask, hcell]
      exact .routing hpaths

/-- Each step is one of a sending call, or takes a payment out of its node, or leaves it alone. -/
theorem NetworkStep.effect (h : NetworkStep network nodeOf k s p es s' p') :
    Effect nodeOf k s s' p p' := by
  cases h with
  | send hsends hstep => exact hstep.effect hsends
  | take hphase hstep =>
    cases hstep with
    | trackPayment hfree => exact .taken hphase hfree rfl rfl rfl rfl
  | outcome => exact .of_node rfl rfl rfl rfl
  | pay htask hstep => exact .none (fun n => by simp) (by simp) rfl

/-- A step leaves the result channels of other calls alone. -/
theorem NetworkStep.results_of_ne (h : NetworkStep network nodeOf k s p es s' p') {j : κ}
    (hj : j ≠ k) : s'.results j = s.results j := by
  cases h with
  | @send es node phase hsends hstep =>
    refine foldl_fixed (fun s : NetworkState ν κ => s.results j) (fun s e => ?_) _ _
    rcases e with hash | ⟨hash, result⟩ | ⟨_ | req⟩ | update
    · rfl
    · exact Function.update_of_ne hj _ _
    · exact Function.update_of_ne hj _ _
    · rfl
    · rfl
  | take | outcome => rfl
  | pay htask hstep =>
    refine foldl_fixed (fun s : NetworkState ν κ => s.results j) (fun s e => ?_) _ _
    cases e with
    | reported result => exact Function.update_of_ne hj _ _
    | _ => rfl

/-- Nothing is left to do for a payment whose result has been sent. -/
theorem Registered.not_step {payment : PaymentResult}
    (h : Registered source hash inFlight p (.sent payment)) :
    ¬ NetworkStep network nodeOf k s p es s' p' := by
  intro hs
  cases hs with
  | send hsends hstep => cases h <;> cases hsends
  | take hphase => cases h <;> cases hphase
  | outcome hphase => cases h <;> cases hphase
  | pay htask hstep =>
    cases h with
    | unrouted => cases htask
    | finished =>
      cases htask
      cases hstep

/-- What tracking a payment that the node does not know comes to. -/
def notFound (hash : PaymentHash) : LightningError :=
  .trackPaymentError s!"payment hash {hex 64 hash.bytes.toNat} not found"

/-- The call has registered its payment or has returned. -/
def CallPhase.settled : CallPhase → Bool
  | .dispatching _ _ | .routing _ _ _ | .returned _ => true
  | _ => false

/-- A settled call has registered its payment and does not track one. -/
theorem CallPhase.settled_spec {phase : CallPhase} (h : phase.settled = true) :
    phase.unregistered = false ∧ phase.isTracking = false := by
  cases phase with
  | dispatching | routing | returned => exact ⟨rfl, rfl⟩
  | _ => cases h

/-- Where a step leaves the call: where it was, if its task has taken the step, or with a route, or past
the node's map, or waiting for the outcome of what it has taken out of it. -/
theorem NetworkStep.phase_cases (h : NetworkStep network nodeOf k s p es s' p') :
    (p'.phase = p.phase ∧ p'.receiver = p.receiver ∧ p.task ≠ none) ∨
    (p.phase.unregistered = true ∧ (∃ hash route, p'.phase = .sendPayment hash route) ∧
      p'.receiver = p.receiver ∧ p'.task = p.task ∧ s'.results = s.results) ∨
    (p'.phase.settled = true ∧ ∀ res, p'.phase = .returned (.tracked res) →
      (p.phase.isTracking = true ∧ p'.receiver = p.receiver) ∨
      ∃ hash, p.phase = .trackPayment hash ∧ res = .error (notFound hash)) ∨
    ∃ hash inFlight, p.phase = .trackPayment hash ∧
      (s.nodes (nodeOf k)).node.inFlight.lookup hash = some inFlight ∧
      p'.phase = .tracking inFlight ∧ p'.receiver = (s.receivers (nodeOf k)).lookup hash := by
  cases h with
  | @send es node phase hsends hstep =>
    generalize hphase : p.phase = from_ at hstep hsends
    cases hstep with
    | trackPayment | outcome => cases hsends
    | routeFound hash route =>
      refine .inr (.inl ⟨rfl, ⟨hash, route, rfl⟩, rfl, ?_, rfl⟩)
      exact Option.or_none
    | pathfindingFailed | badRoute | dispatch | route =>
      exact .inr (.inr (.inl ⟨rfl, fun res h => (by cases h)⟩))
    | @sendPayment hash route hfree =>
      rcases (s.nodes (nodeOf k)).node.registerPayment_cases hash route with
        ⟨err, heq⟩ | ⟨hfresh, heq⟩ | ⟨route, path, hpaths, hfresh, heq⟩
      all_goals
        rw [heq]
        exact .inr (.inr (.inl ⟨rfl, fun res h => (by cases h)⟩))
    | sendToRoute =>
      rw [SimNode.registerRoute]
      split
      all_goals exact .inr (.inr (.inl ⟨rfl, fun res h => (by cases h)⟩))
  | @take hash node phase hphase hstep =>
    cases hstep
    show _ ∨ _ ∨ (CallPhase.settled (SimNode.takePayment _ hash).2 = true ∧
      ∀ res, (SimNode.takePayment _ hash).2 = _ → _) ∨ ∃ _ _, _ ∧ _ ∧
        (SimNode.takePayment _ hash).2 = _ ∧ _
    cases hlookup : (s.nodes (nodeOf k)).node.inFlight.lookup hash with
    | none =>
      rw [SimNode.takePayment, hlookup]
      refine .inr (.inr (.inl ⟨rfl, fun res h => .inr ⟨hash, hphase, ?_⟩⟩))
      cases h
      rfl
    | some inFlight =>
      rw [SimNode.takePayment, hlookup]
      exact .inr (.inr (.inr ⟨hash, inFlight, hphase, hlookup, rfl, rfl⟩))
  | outcome hphase hreceiver =>
    refine .inr (.inr (.inl ⟨rfl, fun res _ => .inl ⟨?_, rfl⟩⟩))
    rw [hphase]
    rfl
  | pay htask hstep => exact .inl ⟨rfl, rfl, by rw [htask]; exact Option.some_ne_none _⟩

theorem SimNode.takePayment_info (self : SimNode) (hash : PaymentHash) :
    (self.takePayment hash).1.info = self.info := by
  unfold SimNode.takePayment
  split <;> rfl

/-- Taking a payment leaves the others where they are. -/
theorem SimNode.lookup_takePayment (self : SimNode) (hash hash' : PaymentHash)
    (inFlight : InFlightPayment) :
    (self.takePayment hash).1.inFlight.lookup hash' = some inFlight ↔
      hash' ≠ hash ∧ self.inFlight.lookup hash' = some inFlight := by
  cases hlookup : self.inFlight.lookup hash with
  | none =>
    simp only [SimNode.takePayment, hlookup]
    refine ⟨fun h => ⟨fun heq => ?_, h⟩, And.right⟩
    rw [heq, hlookup] at h
    cases h
  | some taken =>
    simp only [SimNode.takePayment, hlookup]
    by_cases heq : hash' = hash
    · rw [heq, AList.lookup_erase]
      simp
    · rw [AList.lookup_erase_ne heq]
      simp [heq]

end Steps

/-! ## Custody -/

/-- Where a `track_payment` call is that has taken `inFlight` out of its node's map, with the receiver of
a channel that holds `cell`. -/
inductive Tracks (inFlight : InFlightPayment) (cell : ResultChannel) : CallPhase → Prop where
  | waiting : Tracks inFlight cell (.tracking inFlight)
  | interrupted (sinceEpoch : Option Nat) (scorer : Except String Unit) :
      Tracks inFlight cell (.returned (.tracked (inFlight.tracked .shutdown sinceEpoch scorer).1))
  | told {result : PaymentResult} (hcell : cell = .sent result) (sinceEpoch : Option Nat)
      (scorer : Except String Unit) : Tracks inFlight cell
        (.returned (.tracked (inFlight.tracked (.result (.ok result)) sinceEpoch scorer).1))

section Custody

variable {ν κ : Type} [DecidableEq ν] [DecidableEq κ] {network : SimGraph} {infos : ν → NodeInfo}
  {nodeOf : κ → ν} {calls : κ → Call} {k : κ} {s s' : NetworkState ν κ} {proc : κ → CallState κ}
  {p' : CallState κ} {es : List NetworkEvent}

/-- Who has the receivers of the payments in flight, and how far these payments are. -/
structure Custody (infos : ν → NodeInfo) (nodeOf : κ → ν) (calls : κ → Call) (s : NetworkState ν κ)
    (proc : κ → CallState κ) : Prop where
  info : ∀ n, (s.nodes n).node.info = infos n
  fresh : ∀ k, (proc k).phase.unregistered = true →
    (proc k).receiver = none ∧ (proc k).task = none ∧ s.results k = .empty
  tasked : ∀ k task, (proc k).task = some task → ∃ result, (proc k).phase = .returned result
  asked : ∀ k hash, (proc k).phase = .trackPayment hash → calls k = .trackPayment hash
  waiting : ∀ k, (proc k).phase.isTracking = true → ∃ j, (proc k).receiver = some j
  returned : ∀ k res, (proc k).phase = .returned (.tracked res) →
    (∃ j, (proc k).receiver = some j) ∨
      ∃ hash, calls k = .trackPayment hash ∧ res = .error (notFound hash)
  /-- A payment in flight on a node is that of one of its calls. -/
  entry : ∀ n hash inFlight, (s.nodes n).node.inFlight.lookup hash = some inFlight →
    ∃ j, (s.receivers n).lookup hash = some j ∧ nodeOf j = n ∧
      Registered (infos n).pubkey hash inFlight (proc j) (s.results j)
  listed : ∀ n hash, hash ∈ s.receivers n → hash ∈ (s.nodes n).node.inFlight
  /-- So is a payment that has been taken out to be tracked. -/
  tracker : ∀ k j, (proc k).receiver = some j → ∃ hash inFlight, calls k = .trackPayment hash ∧
    nodeOf j = nodeOf k ∧ Registered (infos (nodeOf k)).pubkey hash inFlight (proc j) (s.results j) ∧
      Tracks inFlight (s.results j) (proc k).phase
  once : ∀ k k' j, (proc k).receiver = some j → (proc k').receiver = some j → k = k'
  taken : ∀ k n hash j, (proc k).receiver = some j → (s.receivers n).lookup hash ≠ some j

omit [DecidableEq ν] [DecidableEq κ] in
/-- The receivers of a node are those of its payments in flight. -/
theorem Custody.of_receiver (h : Custody infos nodeOf calls s proc) {n : ν} {hash : PaymentHash} {j : κ}
    (hj : (s.receivers n).lookup hash = some j) : nodeOf j = n ∧
      ∃ inFlight, Registered (infos n).pubkey hash inFlight (proc j) (s.results j) := by
  have hmem : hash ∈ s.receivers n := AList.lookup_isSome.mp (by rw [hj]; rfl)
  obtain ⟨inFlight, hlookup⟩ := Option.isSome_iff_exists.mp
    (AList.lookup_isSome.mpr (h.listed n hash hmem))
  obtain ⟨i, hi, hnode, hregistered⟩ := h.entry n hash inFlight hlookup
  obtain rfl : j = i := Option.some.inj (hj.symm.trans hi)
  exact ⟨hnode, inFlight, hregistered⟩

omit [DecidableEq κ] in
/-- No receiver belongs to a call that has not registered anything. -/
theorem Custody.not_registered (hphase : (proc k).phase.unregistered = true) {source : PublicKey}
    {hash : PaymentHash} {inFlight : InFlightPayment} {cell : ResultChannel} :
    ¬ Registered source hash inFlight (proc k) cell := by
  generalize proc k = p at hphase
  intro h
  cases h <;> cases hphase

/-- A registered payment stays registered whichever call takes a step. -/
theorem Custody.registered_step (h : Custody infos nodeOf calls s proc)
    (hs : NetworkStep network nodeOf k s (proc k) es s' p') {j : κ} {hash : PaymentHash}
    {inFlight : InFlightPayment}
    (hj : Registered (infos (nodeOf j)).pubkey hash inFlight (proc j) (s.results j)) :
    Registered (infos (nodeOf j)).pubkey hash inFlight (Function.update proc k p' j) (s'.results j) := by
  by_cases hjk : j = k
  · subst hjk
    rw [Function.update_self]
    apply hj.step hs
    rw [h.info]
  · rw [Function.update_of_ne hjk, hs.results_of_ne hjk]
    exact hj

/-- A result that has been sent stays in its channel. -/
theorem Custody.sent_step (hs : NetworkStep network nodeOf k s (proc k) es s' p') {j : κ}
    {source : PublicKey} {hash : PaymentHash} {inFlight : InFlightPayment} {payment : PaymentResult}
    (hj : Registered source hash inFlight (proc j) (s.results j)) (hsent : s.results j = .sent payment) :
    s'.results j = .sent payment := by
  by_cases hjk : j = k
  · subst hjk
    rw [hsent] at hj
    exact absurd hs hj.not_step
  · rw [hs.results_of_ne hjk, hsent]

/-! ### One step -/

omit [DecidableEq κ] in
/-- Nodes keep their info. -/
theorem Custody.info_step (h : Custody infos nodeOf calls s proc)
    (heffect : Effect nodeOf k s s' (proc k) p') (n : ν) : (s'.nodes n).node.info = infos n := by
  cases heffect with
  | none hnodes => rw [hnodes, h.info]
  | registered hunregistered hfree hfresh hnodes =>
    rw [hnodes]
    by_cases hn : n = nodeOf k
    · rw [hn, Function.update_self]
      exact h.info _
    · rw [Function.update_of_ne hn, h.info]
  | taken hphase hfree hnodes =>
    rw [hnodes]
    by_cases hn : n = nodeOf k
    · rw [hn, Function.update_self]
      exact (SimNode.takePayment_info _ _).trans (h.info _)
    · rw [Function.update_of_ne hn, h.info]

/-- A call that has not registered its payment has nothing of it yet. -/
theorem Custody.fresh_step (h : Custody infos nodeOf calls s proc)
    (hs : NetworkStep network nodeOf k s (proc k) es s' p') (j : κ)
    (hphase : (Function.update proc k p' j).phase.unregistered = true) :
    (Function.update proc k p' j).receiver = none ∧ (Function.update proc k p' j).task = none ∧
      s'.results j = .empty := by
  by_cases hjk : j = k
  · subst hjk
    rw [Function.update_self] at hphase ⊢
    rcases hs.phase_cases with ⟨hsame, -, htask⟩ | ⟨hbefore, -, hreceiver, htask, hresults⟩
      | ⟨hsettled, -⟩ | ⟨hash, inFlight, -, -, htracking, -⟩
    · rw [hsame] at hphase
      exact absurd (h.fresh j hphase).2.1 htask
    · rw [hreceiver, htask, hresults]
      exact h.fresh j hbefore
    · rw [(CallPhase.settled_spec hsettled).1] at hphase
      cases hphase
    · rw [htracking] at hphase
      cases hphase
  · rw [Function.update_of_ne hjk] at hphase ⊢
    rw [hs.results_of_ne hjk]
    exact h.fresh j hphase

/-- A call that has spawned a task has returned, or returns with it. -/
theorem NetworkStep.tasked {p : CallState κ} (hs : NetworkStep network nodeOf k s p es s' p')
    (hbefore : ∀ task, p.task = some task → ∃ result, p.phase = .returned result)
    {task : PropagatePaymentRequest × Phase} (htask : p'.task = some task) :
    ∃ result, p'.phase = .returned result := by
  cases hs with
  | @send es node phase hsends hstep =>
    have hnone : p.task = none := by
      by_contra hne
      obtain ⟨task', htask'⟩ := Option.ne_none_iff_exists'.mp hne
      obtain ⟨result, hreturned⟩ := hbefore task' htask'
      rw [hreturned] at hsends
      cases hsends
    change p.task.or (es.findSome? CallEvent.spawned) = some task at htask
    rw [hnone, Option.none_or] at htask
    generalize p.phase = from_ at hstep hsends
    cases hstep with
    | trackPayment | outcome => cases hsends
    | routeFound => cases htask
    | pathfindingFailed | badRoute | dispatch | route => exact ⟨_, rfl⟩
    | @sendPayment hash route hfree =>
      rcases (s.nodes (nodeOf k)).node.registerPayment_cases hash route with
        ⟨err, heq⟩ | ⟨hfresh, heq⟩ | ⟨route, path, hpaths, hfresh, heq⟩
      all_goals
        rw [heq] at htask
        cases htask
    | sendToRoute =>
      rw [SimNode.registerRoute] at htask
      split at htask
      all_goals cases htask
  | take hphase =>
    obtain ⟨result, hreturned⟩ := hbefore task htask
    cases hphase.symm.trans hreturned
  | outcome => exact ⟨_, rfl⟩
  | pay htask' => exact hbefore _ htask'

/-- A call with a task has returned. -/
theorem Custody.tasked_step (h : Custody infos nodeOf calls s proc)
    (hs : NetworkStep network nodeOf k s (proc k) es s' p') (j : κ)
    (task : PropagatePaymentRequest × Phase) (htask : (Function.update proc k p' j).task = some task) :
    ∃ result, (Function.update proc k p' j).phase = .returned result := by
  by_cases hjk : j = k
  · subst hjk
    rw [Function.update_self] at htask ⊢
    exact hs.tasked (h.tasked j) htask
  · rw [Function.update_of_ne hjk] at htask ⊢
    exact h.tasked j task htask

/-- A call tracks the hash that it was made with. -/
theorem Custody.asked_step (h : Custody infos nodeOf calls s proc)
    (hs : NetworkStep network nodeOf k s (proc k) es s' p') (j : κ) (hash : PaymentHash)
    (hphase : (Function.update proc k p' j).phase = .trackPayment hash) :
    calls j = .trackPayment hash := by
  by_cases hjk : j = k
  · subst hjk
    rw [Function.update_self] at hphase
    rcases hs.phase_cases with ⟨hsame, -⟩ | ⟨-, ⟨_, _, hsend⟩, -⟩
      | ⟨hsettled, -⟩ | ⟨_, inFlight, -, -, htracking, -⟩
    · exact h.asked j hash (hsame.symm.trans hphase)
    · cases hsend.symm.trans hphase
    · rw [hphase] at hsettled
      cases hsettled
    · cases htracking.symm.trans hphase
  · rw [Function.update_of_ne hjk] at hphase
    exact h.asked j hash hphase

/-- A call that tracks has a receiver. -/
theorem Custody.waiting_step (h : Custody infos nodeOf calls s proc)
    (hs : NetworkStep network nodeOf k s (proc k) es s' p') (j : κ)
    (hphase : (Function.update proc k p' j).phase.isTracking = true) :
    ∃ i, (Function.update proc k p' j).receiver = some i := by
  by_cases hjk : j = k
  · subst hjk
    rw [Function.update_self] at hphase ⊢
    rcases hs.phase_cases with ⟨hsame, hreceiver, -⟩ | ⟨-, ⟨_, _, hsend⟩, -⟩
      | ⟨hsettled, -⟩ | ⟨_, inFlight, -, hlookup, -, hreceiver⟩
    · rw [hreceiver]
      exact h.waiting j (hsame ▸ hphase)
    · rw [hsend] at hphase
      cases hphase
    · rw [(CallPhase.settled_spec hsettled).2] at hphase
      cases hphase
    · obtain ⟨i, hi, -⟩ := h.entry _ _ _ hlookup
      exact ⟨i, hreceiver.trans hi⟩
  · rw [Function.update_of_ne hjk] at hphase ⊢
    exact h.waiting j hphase

/-- A call that has returned a result had a receiver, or there was none to have. -/
theorem Custody.returned_step (h : Custody infos nodeOf calls s proc)
    (hs : NetworkStep network nodeOf k s (proc k) es s' p') (j : κ)
    (res : Except LightningError PaymentResult)
    (hphase : (Function.update proc k p' j).phase = .returned (.tracked res)) :
    (∃ i, (Function.update proc k p' j).receiver = some i) ∨
      ∃ hash, calls j = .trackPayment hash ∧ res = .error (notFound hash) := by
  by_cases hjk : j = k
  · subst hjk
    rw [Function.update_self] at hphase ⊢
    rcases hs.phase_cases with ⟨hsame, hreceiver, -⟩ | ⟨-, ⟨_, _, hsend⟩, -⟩ | ⟨-, hreturned⟩
      | ⟨_, inFlight, -, -, htracking, -⟩
    · rw [hreceiver]
      exact h.returned j res (hsame.symm.trans hphase)
    · cases hsend.symm.trans hphase
    · rcases hreturned res hphase with ⟨htracking, hreceiver⟩ | ⟨hash, hbefore, hres⟩
      · rw [hreceiver]
        exact .inl (h.waiting j htracking)
      · exact .inr ⟨hash, h.asked j hash hbefore, hres⟩
    · cases htracking.symm.trans hphase
  · rw [Function.update_of_ne hjk] at hphase ⊢
    exact h.returned j res hphase

/-- An entry of a node's map belongs to a call on the node that has registered it. -/
theorem Custody.entry_step (h : Custody infos nodeOf calls s proc)
    (hs : NetworkStep network nodeOf k s (proc k) es s' p') (n : ν) (hash : PaymentHash)
    (inFlight : InFlightPayment) (hlookup : (s'.nodes n).node.inFlight.lookup hash = some inFlight) :
    ∃ j, (s'.receivers n).lookup hash = some j ∧ nodeOf j = n ∧
      Registered (infos n).pubkey hash inFlight (Function.update proc k p' j) (s'.results j) := by
  -- it was there before, with a receiver that is still there
  have hold : (s.nodes n).node.inFlight.lookup hash = some inFlight →
      (s'.receivers n).lookup hash = (s.receivers n).lookup hash →
      ∃ j, (s'.receivers n).lookup hash = some j ∧ nodeOf j = n ∧
        Registered (infos n).pubkey hash inFlight (Function.update proc k p' j) (s'.results j) := by
    intro hlookup hsame
    obtain ⟨j, hj, rfl, hregistered⟩ := h.entry n hash inFlight hlookup
    exact ⟨j, hsame.trans hj, rfl, h.registered_step hs hregistered⟩
  cases hs.effect with
  | none hnodes hreceivers => exact hold (hnodes n ▸ hlookup) (by rw [hreceivers])
  | @registered hash' inFlight' owner hunregistered hfree hfresh hnodes hreceivers hreceiver hnew =>
    rw [hnodes] at hlookup
    rw [hreceivers] at hold ⊢
    by_cases hn : n = nodeOf k
    · subst hn
      rw [Function.update_self] at hlookup hold ⊢
      by_cases hhash : hash = hash'
      · subst hhash
        obtain rfl := Option.some.inj ((AList.lookup_insert _).symm.trans hlookup)
        obtain ⟨hreceiver, htask, hcell⟩ := h.fresh k hunregistered
        refine ⟨k, AList.lookup_insert _, rfl, ?_⟩
        rw [Function.update_self, ← h.info]
        exact hnew hreceiver htask hcell
      · rw [AList.lookup_insert_ne hhash] at hold ⊢
        exact hold ((AList.lookup_insert_ne hhash).symm.trans hlookup) rfl
    · rw [Function.update_of_ne hn] at hlookup hold ⊢
      exact hold hlookup rfl
  | @taken hash' owner hphase hfree hnodes hreceivers =>
    rw [hnodes] at hlookup
    rw [hreceivers] at hold ⊢
    by_cases hn : n = nodeOf k
    · subst hn
      rw [Function.update_self] at hlookup hold ⊢
      obtain ⟨hne, hlookup⟩ := (SimNode.lookup_takePayment _ _ _ _).mp hlookup
      rw [AList.lookup_erase_ne hne] at hold ⊢
      exact hold hlookup rfl
    · rw [Function.update_of_ne hn] at hlookup hold ⊢
      exact hold hlookup rfl

omit [DecidableEq κ] in
/-- For every receiver there is an entry. -/
theorem Custody.listed_step (h : Custody infos nodeOf calls s proc)
    (heffect : Effect nodeOf k s s' (proc k) p') (n : ν) (hash : PaymentHash)
    (hmem : hash ∈ s'.receivers n) : hash ∈ (s'.nodes n).node.inFlight := by
  cases heffect with
  | none hnodes hreceivers =>
    rw [hnodes]
    exact h.listed n hash (hreceivers ▸ hmem)
  | registered hunregistered hfree hfresh hnodes hreceivers =>
    rw [hreceivers] at hmem
    rw [hnodes]
    by_cases hn : n = nodeOf k
    · subst hn
      rw [Function.update_self] at hmem ⊢
      exact (AList.mem_insert _).mpr (((AList.mem_insert _).mp hmem).imp_right (h.listed _ hash))
    · rw [Function.update_of_ne hn] at hmem ⊢
      exact h.listed n hash hmem
  | @taken hash' owner hphase hfree hnodes hreceivers =>
    rw [hreceivers] at hmem
    rw [hnodes]
    by_cases hn : n = nodeOf k
    · subst hn
      rw [Function.update_self] at hmem ⊢
      obtain ⟨hne, hmem⟩ := AList.mem_erase.mp hmem
      obtain ⟨inFlight, hlookup⟩ := Option.isSome_iff_exists.mp
        (AList.lookup_isSome.mpr (h.listed _ hash hmem))
      exact AList.lookup_isSome.mp (Option.isSome_of_eq_some
        ((SimNode.lookup_takePayment _ hash' hash inFlight).mpr ⟨hne, hlookup⟩))
    · rw [Function.update_of_ne hn] at hmem ⊢
      exact h.listed n hash hmem

/-- What a tracking call has been told is what its channel holds. -/
theorem Custody.tracks_step {source : PublicKey} {hash : PaymentHash} {inFlight : InFlightPayment}
    {j : κ} (hs : NetworkStep network nodeOf k s (proc k) es s' p')
    (hreceiver : (proc k).receiver = some j)
    (hregistered : Registered source hash inFlight (proc j) (s.results j))
    (htracks : Tracks inFlight (s.results j) (proc k).phase)
    (hsame : p'.receiver = (proc k).receiver) :
    Tracks inFlight (s'.results j) p'.phase := by
  have hsent : ∀ payment, s.results j = .sent payment → s'.results j = .sent payment :=
    fun _ => Custody.sent_step hs hregistered
  generalize proc k = p at hs hreceiver htracks
  cases hs with
  | send hsends =>
    generalize p.phase = phase at htracks hsends
    cases htracks <;> cases hsends
  | take hphase =>
    rw [hphase] at htracks
    cases htracks
  | outcome hphase hreceiver' houtcome sinceEpoch scorer =>
    rw [hphase] at htracks
    cases htracks
    obtain rfl := Option.some.inj (hreceiver'.symm.trans hreceiver)
    cases houtcome with
    | shutdown => exact .interrupted _ _
    | closed message hquiet hclosed => exact absurd hclosed hregistered.cell_ne_closed
    | result hquiet hcell => exact .told (hsent _ hcell) _ _
  | pay htask hstep =>
    show Tracks inFlight _ p.phase
    generalize p.phase = phase at htracks
    cases htracks with
    | waiting => exact .waiting
    | interrupted => exact .interrupted _ _
    | told hcell => exact .told (hsent _ hcell) _ _

/-- A receiver that has been taken belongs to a payment registered under the hash tracked. -/
theorem Custody.tracker_step (h : Custody infos nodeOf calls s proc)
    (hs : NetworkStep network nodeOf k s (proc k) es s' p') (i j : κ)
    (hreceiver : (Function.update proc k p' i).receiver = some j) :
    ∃ hash inFlight, calls i = .trackPayment hash ∧ nodeOf j = nodeOf i ∧
      Registered (infos (nodeOf i)).pubkey hash inFlight (Function.update proc k p' j) (s'.results j) ∧
      Tracks inFlight (s'.results j) (Function.update proc k p' i).phase := by
  by_cases hik : i = k
  · subst hik
    rw [Function.update_self] at hreceiver ⊢
    -- it has had the receiver before, or it has just taken it
    have hold : p'.receiver = (proc i).receiver → ∃ hash inFlight, calls i = .trackPayment hash ∧
        nodeOf j = nodeOf i ∧ Registered (infos (nodeOf i)).pubkey hash inFlight
          (Function.update proc i p' j) (s'.results j) ∧ Tracks inFlight (s'.results j) p'.phase := by
      intro hsame
      obtain ⟨hash, inFlight, hcall, hnode, hregistered, htracks⟩ :=
        h.tracker i j (hsame.symm.trans hreceiver)
      rw [← hnode] at hregistered ⊢
      exact ⟨hash, inFlight, hcall, rfl, h.registered_step hs hregistered,
        Custody.tracks_step hs (hsame.symm.trans hreceiver) hregistered htracks hsame⟩
    cases hs.effect with
    | none hnodes hreceivers hsame => exact hold hsame
    | registered hunregistered hfree hfresh hnodes hreceivers hsame => exact hold hsame
    | @taken hash owner hphase hfree hnodes hreceivers htaken hphase' =>
      rw [htaken] at hreceiver
      have hmem : hash ∈ s.receivers (nodeOf i) :=
        AList.lookup_isSome.mp (Option.isSome_of_eq_some hreceiver)
      obtain ⟨inFlight, hlookup⟩ := Option.isSome_iff_exists.mp
        (AList.lookup_isSome.mpr (h.listed _ hash hmem))
      obtain ⟨j', hj', hnode, hregistered⟩ := h.entry _ _ _ hlookup
      obtain rfl := Option.some.inj (hj'.symm.trans hreceiver)
      rw [← hnode] at hregistered ⊢
      refine ⟨hash, inFlight, h.asked i hash hphase, rfl, h.registered_step hs hregistered, ?_⟩
      rw [hphase', SimNode.takePayment, hlookup]
      exact .waiting
  · rw [Function.update_of_ne hik] at hreceiver ⊢
    obtain ⟨hash, inFlight, hcall, hnode, hregistered, htracks⟩ := h.tracker i j hreceiver
    rw [← hnode] at hregistered ⊢
    refine ⟨hash, inFlight, hcall, rfl, h.registered_step hs hregistered, ?_⟩
    generalize (proc i).phase = phase at htracks
    cases htracks with
    | waiting => exact .waiting
    | interrupted => exact .interrupted _ _
    | told hcell => exact .told (Custody.sent_step hs hregistered hcell) _ _

/-- No receiver is taken twice. -/
theorem Custody.once_step (h : Custody infos nodeOf calls s proc)
    (heffect : Effect nodeOf k s s' (proc k) p') (i i' j : κ)
    (hi : (Function.update proc k p' i).receiver = some j)
    (hi' : (Function.update proc k p' i').receiver = some j) : i = i' := by
  -- calls that keep the receivers they had
  have hold : p'.receiver = (proc k).receiver → i = i' := by
    intro hsame
    have hkept : ∀ i, (Function.update proc k p' i).receiver = (proc i).receiver := by
      intro i
      by_cases hik : i = k
      · rw [hik, Function.update_self, hsame]
      · rw [Function.update_of_ne hik]
    exact h.once i i' j ((hkept i).symm.trans hi) ((hkept i').symm.trans hi')
  cases heffect with
  | none hnodes hreceivers hsame => exact hold hsame
  | registered hunregistered hfree hfresh hnodes hreceivers hsame => exact hold hsame
  | @taken hash owner hphase hfree hnodes hreceivers htaken =>
    -- the receiver taken now was not with another call
    by_cases hik : i = k <;> by_cases hik' : i' = k
    · rw [hik, hik']
    · subst hik
      rw [Function.update_self, htaken] at hi
      rw [Function.update_of_ne hik'] at hi'
      exact absurd hi (h.taken i' _ hash j hi')
    · subst hik'
      rw [Function.update_self, htaken] at hi'
      rw [Function.update_of_ne hik] at hi
      exact absurd hi' (h.taken i _ hash j hi)
    · rw [Function.update_of_ne hik] at hi
      rw [Function.update_of_ne hik'] at hi'
      exact h.once i i' j hi hi'

/-- A receiver that has been taken is not in the map any more. -/
theorem Custody.taken_step (h : Custody infos nodeOf calls s proc)
    (heffect : Effect nodeOf k s s' (proc k) p') (i : κ) (n : ν) (hash : PaymentHash) (j : κ)
    (hi : (Function.update proc k p' i).receiver = some j) :
    (s'.receivers n).lookup hash ≠ some j := by
  have hkept : p'.receiver = (proc k).receiver → (proc i).receiver = some j := by
    intro hsame
    by_cases hik : i = k
    · rw [hik, Function.update_self, hsame] at hi
      rwa [hik]
    · rwa [Function.update_of_ne hik] at hi
  cases heffect with
  | none hnodes hreceivers hsame =>
    rw [hreceivers]
    exact h.taken i n hash j (hkept hsame)
  | @registered hash' inFlight owner hunregistered hfree hfresh hnodes hreceivers hsame =>
    have hbefore := hkept hsame
    rw [hreceivers]
    by_cases hn : n = nodeOf k
    · subst hn
      rw [Function.update_self]
      intro hj
      rcases Table.lookup_insert_cases hj with ⟨-, rfl⟩ | ⟨-, hj⟩
      · -- nobody has a receiver of a call that has only now registered its payment
        obtain ⟨_, _, -, -, hregistered, -⟩ := h.tracker i j hbefore
        exact Custody.not_registered hunregistered hregistered
      · exact h.taken i _ hash j hbefore hj
    · rw [Function.update_of_ne hn]
      exact h.taken i n hash j hbefore
  | @taken hash' owner hphase hfree hnodes hreceivers htaken =>
    rw [hreceivers]
    intro hj
    have hj' : (s.receivers n).lookup hash = some j ∧ (n = nodeOf k → hash ≠ hash') := by
      by_cases hn : n = nodeOf k
      · subst hn
        rw [Function.update_self] at hj
        by_cases hhash : hash = hash'
        · rw [hhash, AList.lookup_erase] at hj
          cases hj
        · exact ⟨(AList.lookup_erase_ne hhash).symm.trans hj, fun _ => hhash⟩
      · rw [Function.update_of_ne hn] at hj
        exact ⟨hj, fun h => absurd h hn⟩
    obtain ⟨hbefore, hne⟩ := hj'
    by_cases hik : i = k
    · subst hik
      rw [Function.update_self, htaken] at hi
      -- one payment under two hashes
      obtain ⟨hnode, _, hregistered⟩ := h.of_receiver hbefore
      obtain ⟨hnode', _, hregistered'⟩ := h.of_receiver hi
      exact hne (hnode.symm.trans hnode') (hregistered.unique hregistered').1
    · rw [Function.update_of_ne hik] at hi
      exact h.taken i n hash j hi hbefore

/-- **Custody is kept** by every step. -/
theorem Custody.step (h : Custody infos nodeOf calls s proc)
    (hs : NetworkStep network nodeOf k s (proc k) es s' p') :
    Custody infos nodeOf calls s' (Function.update proc k p') where
  info := h.info_step hs.effect
  fresh := h.fresh_step hs
  tasked := h.tasked_step hs
  asked := h.asked_step hs
  waiting := h.waiting_step hs
  returned := h.returned_step hs
  entry := h.entry_step hs
  listed := h.listed_step hs.effect
  tracker := h.tracker_step hs
  once := h.once_step hs.effect
  taken := h.taken_step hs.effect

variable {trace : List (κ × NetworkEvent)} {w : World κ (NetworkState ν κ) (CallState κ)}

/-- So it is known in every run who has the sender and the receiver of each payment. -/
theorem run_custody (h : NetworkRun network infos nodeOf calls trace w) :
    Custody infos nodeOf calls w.shared w.proc := by
  refine h.world_invariant (P := fun w => Custody infos nodeOf calls w.shared w.proc) ?_ ?_
  · constructor
    · exact fun n => rfl
    · exact fun k _ => ⟨rfl, rfl, rfl⟩
    · exact fun k task htask => (by cases htask)
    · intro k hash hphase
      generalize hcall : calls k = call
      simp only [connected, hcall] at hphase
      cases call <;> cases hphase
      rfl
    · intro k hphase
      simp only [connected] at hphase
      cases hcall : calls k <;> simp [hcall, Call.start, CallPhase.isTracking] at hphase
    · intro k res hphase
      simp only [connected] at hphase
      cases hcall : calls k <;> simp [hcall, Call.start] at hphase
    · exact fun n hash inFlight hlookup => (by cases hlookup)
    · exact fun n hash hmem => (by cases hmem)
    · exact fun k j hreceiver => (by cases hreceiver)
    · exact fun k k' j hreceiver => (by cases hreceiver)
    · exact fun k n hash j hreceiver => (by cases hreceiver)
  · intro w k es s' p' hs hcustody
    obtain ⟨after, interrupted, hs, rfl⟩ := hs
    obtain ⟨hinfo, hfresh, htasked, hasked, hwaiting, hreturned, hentry, hlisted, htracker, honce,
      htaken⟩ := hcustody.step hs
    exact ⟨hinfo, hfresh, htasked, hasked, hwaiting, hreturned, hentry, hlisted, htracker, honce,
      htaken⟩

end Custody

end SimLn
