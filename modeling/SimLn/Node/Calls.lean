import SimLn.Node

/-!
# SimLn — concurrent calls on one node

`send_payment`, `send_to_route` and `track_payment` run concurrently on one node and share its map
of payments in flight, which is behind a lock. A call is cut into steps where it waits: for its
route, for the lock, for the network, for an outcome. What decides how calls affect each other is
how long each of them keeps the guard of the lock:

* `send_payment` keeps it until it returns, so also while it waits for the network;
* `send_to_route` takes it for the statement that registers the payment;
* `track_payment` takes it in the scrutinee of a `match`, so until the end of the `match`, whose
  arms wait for the outcome.
-/

namespace SimLn

open Lib

/-! ## The calls -/

/-- A call made on the node. The payment hash of `send_payment` is drawn at random. -/
inductive Call where
  | sendPayment
  | sendToRoute (route : Route) (paymentHash : PaymentHash) (customRecords : Option CustomRecords)
  | trackPayment (hash : PaymentHash)

inductive CallResult where
  | sent (res : Except LightningError PaymentHash)
  | routed (res : Except LightningError Unit)
  | tracked (res : Except LightningError PaymentResult)

inductive CallEvent where
  /-- The payment is now in the map. -/
  | registered (hash : PaymentHash)
  /-- A result sent to the tracking channel by the node itself. -/
  | resultSent (hash : PaymentHash) (result : PaymentResult)
  | dispatched (request : Option PropagatePaymentRequest)
  | scored (update : ScoreUpdate)

inductive CallPhase where
  | findingRoute
  /-- `send_payment`, waiting for the lock. -/
  | sendPayment (hash : PaymentHash) (route : Except SimulationError Route)
  /-- `send_payment`, waiting for the network with the guard in hand. -/
  | dispatching (hash : PaymentHash) (route : Route)
  /-- `send_to_route`, waiting for the lock. -/
  | sendToRoute (route : Route) (hash : PaymentHash) (customRecords : Option CustomRecords)
  /-- `send_to_route`, waiting for the network. -/
  | routing (route : Route) (hash : PaymentHash) (customRecords : Option CustomRecords)
  /-- `track_payment`, waiting for the lock. -/
  | trackPayment (hash : PaymentHash)
  /-- `track_payment`, waiting for the outcome with the guard in hand. -/
  | tracking (inFlight : InFlightPayment)
  | returned (result : CallResult)

def Call.start : Call → CallPhase
  | .sendPayment => .findingRoute
  | .sendToRoute route hash customRecords => .sendToRoute route hash customRecords
  | .trackPayment hash => .trackPayment hash

/-- The call has the guard of the lock in this phase. -/
def CallPhase.holdsGuard : CallPhase → Bool
  | .dispatching _ _ | .tracking _ => true
  | _ => false

def CallPhase.isTracking : CallPhase → Bool
  | .tracking _ => true
  | _ => false

/-- A call that tracks a payment holds the node's lock. -/
theorem CallPhase.holdsGuard_of_isTracking {p : CallPhase} (h : p.isTracking = true) :
    p.holdsGuard = true := by
  cases p with
  | tracking inFlight => rfl
  | _ => cases h

def CallPhase.isRouting : CallPhase → Bool
  | .routing _ _ _ => true
  | _ => false

namespace SimNode

/-- What `send_payment` does once it has the lock. -/
def registerPayment (self : SimNode) (hash : PaymentHash) (route : Except SimulationError Route) :
    List CallEvent × SimNode × CallPhase :=
  if hash ∈ self.inFlight then
    ([], self, .returned (.sent (.error (.sendPaymentError "payment hash exists"))))
  else
    match route with
    | .error _ =>
      -- no route is a successful call, whose outcome is reported on the tracking channel
      ([.resultSent hash ⟨0, .routeNotFound⟩, .registered hash],
        { self with inFlight := self.inFlight.insert hash { path := none } },
        .returned (.sent (.ok hash)))
    | .ok route =>
      match route.paths with
      | [path] =>
        ([.registered hash],
          { self with inFlight := self.inFlight.insert hash { path := some path } },
          .dispatching hash route)
      | _ =>
        ([], self, .returned (.sent (.error (.sendPaymentError
          "Route must contain exactly one path for this operation."))))

/-- What `send_to_route` does once it has the lock. -/
def registerRoute (self : SimNode) (route : Route) (path : Path) (hash : PaymentHash)
    (customRecords : Option CustomRecords) : List CallEvent × SimNode × CallPhase :=
  if hash ∈ self.inFlight then
    ([], self, .returned (.routed (.error (.sendPaymentError "payment hash exists"))))
  else
    ([.registered hash],
      { self with inFlight := self.inFlight.insert hash { path := some path } },
      .routing route hash customRecords)

/-- What `track_payment` does once it has the lock. -/
def takePayment (self : SimNode) (hash : PaymentHash) : SimNode × CallPhase :=
  match self.inFlight.lookup hash with
  | none =>
    (self, .returned (.tracked (.error
      (.trackPaymentError s!"payment hash {hex 64 hash.bytes.toNat} not found"))))
  | some inFlight => ({ self with inFlight := self.inFlight.erase hash }, .tracking inFlight)

end SimNode

/-- What `track_payment` makes of the outcome. -/
def InFlightPayment.tracked (self : InFlightPayment) (outcome : TrackedOutcome)
    (sinceEpoch : Option Nat) (scorer : Except String Unit) :
    Except LightningError PaymentResult × List ScoreUpdate :=
  match outcome with
  | .shutdown => (.error (.trackPaymentError "shutdown during payment tracking"), [])
  | .closed message => (.error (.trackPaymentError s!"channel receive err: {message}"), [])
  | .result (.error err) => (.error err, [])
  | .result (.ok result) =>
    match sinceEpoch with
    | none => (.error .systemTimeConversionError, [])
    | some duration =>
      match self.path with
      | some path =>
        match scorer with
        | .error message => (.error (.trackPaymentError s!"scorer lock poisoned: {message}"), [])
        | .ok () => (.ok result, SimNode.score path result duration)
      | none =>
        if result.paymentOutcome ≠ .routeNotFound then
          (.error (.trackPaymentError
            "payment outcome was not RouteNotFound, but no path was provided"), [])
        else
          (.ok result, [])

/-- The node, and the call that has the guard of the lock on its payments. -/
structure LockedNode (κ : Type) where
  node : SimNode
  owner : Option κ

/-- One step of call `k`. Whoever takes the lock finds it free; the route, the outcome, the time and
the scorer's lock are what the environment makes them. -/
inductive CallStep {κ : Type} (network : SimGraph) (k : κ) :
    LockedNode κ → CallPhase → List CallEvent → LockedNode κ → CallPhase → Prop where
  | routeFound {s : LockedNode κ} (hash : PaymentHash) (route : Except SimulationError Route) :
      CallStep network k s .findingRoute [] s (.sendPayment hash route)
  | pathfindingFailed {s : LockedNode κ} (message : String) :
      CallStep network k s .findingRoute [] s
        (.returned (.sent (.error (.sendPaymentError message))))
  | sendPayment {s : LockedNode κ} {hash : PaymentHash} {route : Except SimulationError Route}
      (hfree : s.owner = none) :
      CallStep network k s (.sendPayment hash route) (s.node.registerPayment hash route).1
        { node := (s.node.registerPayment hash route).2.1
          -- the guard is dropped at once if the call returns here
          owner := if (s.node.registerPayment hash route).2.2.holdsGuard then some k else none }
        (s.node.registerPayment hash route).2.2
  | dispatch {s : LockedNode κ} {hash : PaymentHash} {route : Route} :
      CallStep network k s (.dispatching hash route)
        [.dispatched (network.dispatchPayment s.node.info.pubkey route none hash)]
        { s with owner := none } (.returned (.sent (.ok hash)))
  | badRoute {s : LockedNode κ} {route : Route} {hash : PaymentHash}
      {customRecords : Option CustomRecords} (hpaths : route.paths.length ≠ 1) :
      CallStep network k s (.sendToRoute route hash customRecords) [] s
        (.returned (.routed (.error (.sendPaymentError
          "Route must contain exactly one path for this operation."))))
  | sendToRoute {s : LockedNode κ} {route : Route} {path : Path} {hash : PaymentHash}
      {customRecords : Option CustomRecords} (hfree : s.owner = none)
      (hpaths : route.paths = [path]) :
      CallStep network k s (.sendToRoute route hash customRecords)
        (s.node.registerRoute route path hash customRecords).1
        -- taken and given back within the statement
        { s with node := (s.node.registerRoute route path hash customRecords).2.1 }
        (s.node.registerRoute route path hash customRecords).2.2
  | route {s : LockedNode κ} {route : Route} {hash : PaymentHash}
      {customRecords : Option CustomRecords} :
      CallStep network k s (.routing route hash customRecords)
        [.dispatched (network.dispatchPayment s.node.info.pubkey route customRecords hash)] s
        (.returned (.routed (.ok ())))
  | trackPayment {s : LockedNode κ} {hash : PaymentHash} (hfree : s.owner = none) :
      CallStep network k s (.trackPayment hash) []
        { node := (s.node.takePayment hash).1
          owner := if (s.node.takePayment hash).2.holdsGuard then some k else none }
        (s.node.takePayment hash).2
  | outcome {s : LockedNode κ} {inFlight : InFlightPayment} (outcome : TrackedOutcome)
      (sinceEpoch : Option Nat) (scorer : Except String Unit) :
      CallStep network k s (.tracking inFlight)
        ((inFlight.tracked outcome sinceEpoch scorer).2.map CallEvent.scored)
        { s with owner := none } (.returned (.tracked (inFlight.tracked outcome sinceEpoch scorer).1))

/-- Calls on one node. -/
def nodeCalls (κ : Type) (network : SimGraph) : System κ (LockedNode κ) CallPhase CallEvent where
  step k s p es s' p' := CallStep network k s p es s' p'

/-- The calls, made on a node whose lock is free, have taken steps in some order. -/
abbrev CallRun {κ : Type} [DecidableEq κ] (network : SimGraph) (node : SimNode) (calls : κ → Call)
    (trace : List (κ × CallEvent)) (w : World κ (LockedNode κ) CallPhase) : Prop :=
  (nodeCalls κ network).Run ⟨⟨node, none⟩, fun k => (calls k).start⟩ trace w

/-! ## A call that nobody disturbs -/

/-- Tracking a payment that is in flight takes it off the map. -/
theorem SimNode.trackPayment_eq (self : SimNode) (hash : PaymentHash) (outcome : TrackedOutcome)
    (sinceEpoch : Option Nat) (scorer : Except String Unit) {inFlight : InFlightPayment}
    (h : self.inFlight.lookup hash = some inFlight) :
    self.trackPayment hash outcome sinceEpoch scorer
      = ((inFlight.tracked outcome sinceEpoch scorer).1,
        (inFlight.tracked outcome sinceEpoch scorer).2,
        { self with inFlight := self.inFlight.erase hash }) := by
  unfold SimNode.trackPayment
  rw [h]
  obtain ⟨path⟩ := inFlight
  match outcome with
  | .shutdown | .closed _ | .result (.error _) => rfl
  | .result (.ok result) =>
    cases sinceEpoch with
    | none => rfl
    | some duration =>
      cases path with
      | some path => cases scorer <;> rfl
      | none =>
        by_cases hne : result.paymentOutcome = .routeNotFound
        · simp [InFlightPayment.tracked, hne]
        · simp [InFlightPayment.tracked, hne]

section Steps

variable {κ : Type} {network : SimGraph} {k : κ} {s : LockedNode κ} {hash : PaymentHash}

/-- Alone on the node, tracking a registered payment comes to what `trackPayment` computes. -/
theorem trackPayment_alone (hfree : s.owner = none) {inFlight : InFlightPayment}
    (hentry : s.node.inFlight.lookup hash = some inFlight) (outcome : TrackedOutcome)
    (sinceEpoch : Option Nat) (scorer : Except String Unit) :
    ∃ locked phase, CallStep network k s (.trackPayment hash) [] locked phase ∧
      CallStep network k locked phase
        ((s.node.trackPayment hash outcome sinceEpoch scorer).2.1.map CallEvent.scored)
        ⟨(s.node.trackPayment hash outcome sinceEpoch scorer).2.2, none⟩
        (.returned (.tracked (s.node.trackPayment hash outcome sinceEpoch scorer).1)) := by
  have htaken : s.node.takePayment hash
      = ({ s.node with inFlight := s.node.inFlight.erase hash }, .tracking inFlight) := by
    rw [SimNode.takePayment, hentry]
  refine ⟨_, _, .trackPayment hfree, ?_⟩
  rw [SimNode.trackPayment_eq s.node hash outcome sinceEpoch scorer hentry, htaken]
  exact .outcome outcome sinceEpoch scorer

/-- Alone on the node, sending to a route comes to what `sendToRoute` computes. -/
theorem sendToRoute_alone (hfree : s.owner = none) {route : Route} {path : Path}
    (hpaths : route.paths = [path]) (hfresh : hash ∉ s.node.inFlight)
    (customRecords : Option CustomRecords) :
    ∃ locked phase request,
      CallStep network k s (.sendToRoute route hash customRecords) [.registered hash] locked phase ∧
      CallStep network k locked phase [.dispatched request]
        ⟨(s.node.sendToRoute network route hash customRecords).2, none⟩
        (.returned (.routed (.ok ()))) ∧
      (s.node.sendToRoute network route hash customRecords).1 = .ok request := by
  have hregister : s.node.registerRoute route path hash customRecords = ([.registered hash],
      { s.node with inFlight := s.node.inFlight.insert hash { path := some path } },
      .routing route hash customRecords) := by
    rw [SimNode.registerRoute, if_neg hfresh]
  have hsend : s.node.sendToRoute network route hash customRecords
      = (.ok (network.dispatchPayment s.node.info.pubkey route customRecords hash),
        { s.node with inFlight := s.node.inFlight.insert hash { path := some path } }) := by
    simp only [SimNode.sendToRoute, hpaths, if_neg hfresh]
  have hstep : CallStep network k s (.sendToRoute route hash customRecords) _ _ _ :=
    .sendToRoute hfree hpaths
  rw [hregister, hfree] at hstep
  refine ⟨_, _, _, hstep, ?_, by rw [hsend]⟩
  rw [hsend]
  exact .route

/-! ## Who has the guard -/

/-- The owner of the lock is the call whose phase keeps the guard. -/
def LockInv (w : World κ (LockedNode κ) CallPhase) : Prop :=
  ∀ k, w.shared.owner = some k ↔ (w.proc k).holdsGuard = true

/-- What a step does to the lock: it is taken from free by the call that keeps the guard afterwards,
or given back by the call that kept it before, or left alone by a call that does not keep it. -/
inductive CallStep.Locks (k : κ) (owner owner' : Option κ) (p p' : CallPhase) : Prop where
  | taken (hfree : owner = none) (howner : owner' = if p'.holdsGuard then some k else none)
  | released (hheld : p.holdsGuard = true) (hfree : owner' = none) (hgone : p'.holdsGuard = false)
  | alone (hsame : owner' = owner) (hp : p.holdsGuard = false) (hp' : p'.holdsGuard = false)

/-- A `send_to_route` call is done with the lock when it returns. -/
theorem SimNode.registerRoute_guard (self : SimNode) (route : Route) (path : Path)
    (hash : PaymentHash) (customRecords : Option CustomRecords) :
    (self.registerRoute route path hash customRecords).2.2.holdsGuard = false := by
  unfold SimNode.registerRoute
  split <;> rfl

/-- A step takes the free lock, gives up its own, or leaves the lock alone. -/
theorem CallStep.locks {s' : LockedNode κ} {p p' : CallPhase} {es : List CallEvent}
    (h : CallStep network k s p es s' p') : CallStep.Locks k s.owner s'.owner p p' := by
  cases h with
  | routeFound | pathfindingFailed | badRoute | route => exact .alone rfl rfl rfl
  | sendPayment hfree => exact .taken hfree rfl
  | dispatch => exact .released rfl rfl rfl
  | sendToRoute hfree hpaths =>
    exact .alone rfl rfl (SimNode.registerRoute_guard _ _ _ _ _)
  | trackPayment hfree => exact .taken hfree rfl
  | outcome => exact .released rfl rfl rfl

/-- While another call has the guard, a call does not get past its registration. It can only find
its route, fail, or send off what it registered before. -/
theorem CallStep.blocked {s' : LockedNode κ} {p p' : CallPhase} {es : List CallEvent}
    (h : CallStep network k s p es s' p') (howned : s.owner ≠ none) (hp : p.holdsGuard = false) :
    s' = s ∧ (∀ hash, .registered hash ∉ es) ∧
      (∀ request, .dispatched request ∈ es → p.isRouting = true) ∧ p'.isRouting = false := by
  cases h with
  | routeFound | pathfindingFailed | badRoute => exact ⟨rfl, by simp, by simp, rfl⟩
  | route => exact ⟨rfl, by simp, fun _ _ => rfl, rfl⟩
  | sendPayment hfree | sendToRoute hfree hpaths | trackPayment hfree => exact absurd hfree howned
  | dispatch | outcome => cases hp

/-- Only the outcome ends the wait for it. -/
theorem CallStep.returned_of_tracking {s' : LockedNode κ} {p p' : CallPhase} {es : List CallEvent}
    (h : CallStep network k s p es s' p') (hp : p.isTracking = true) :
    ∃ result, p' = .returned result := by
  cases h with
  | outcome => exact ⟨_, rfl⟩
  | routeFound | pathfindingFailed | sendPayment | dispatch | badRoute | sendToRoute | route
  | trackPayment => cases hp

end Steps

section Runs

variable {κ : Type} [DecidableEq κ] {network : SimGraph} {node : SimNode} {calls : κ → Call}
  {trace : List (κ × CallEvent)} {w : World κ (LockedNode κ) CallPhase} {k : κ}

/-- One step of one call keeps the lock with the call that holds the guard. -/
theorem lockInv_step {es : List CallEvent} {s' : LockedNode κ} {p' : CallPhase}
    (h : CallStep network k w.shared (w.proc k) es s' p') (hinv : LockInv w) :
    LockInv ⟨s', Function.update w.proc k p'⟩ := by
  intro j
  by_cases hj : j = k
  · subst hj
    simp only [Function.update_self]
    cases h.locks with
    -- the call itself: it owns the lock exactly if it keeps the guard
    | taken hfree howner => cases hp : p'.holdsGuard <;> simp [howner, hp]
    | released hheld hfree hgone => simp [hfree, hgone]
    | alone hsame hp hp' => rw [hsame, hinv j, hp, hp']
  · simp only [Function.update_of_ne hj]
    rw [← hinv j]
    -- another call: it does not own the lock before or after
    cases h.locks with
    | taken hfree howner => cases hp : p'.holdsGuard <;> simp [howner, hp, hfree, Ne.symm hj]
    | released hheld hfree hgone => simp [(hinv k).mpr hheld, hfree, Ne.symm hj]
    | alone hsame hp hp' => rw [hsame]

/-- In every state of every run the lock is held by exactly the calls that hold the guard. -/
theorem run_lockInv (h : CallRun network node calls trace w) : LockInv w := by
  refine h.world_invariant (fun j => ?_) fun w k es s' p' hs hinv => lockInv_step hs hinv
  cases hcall : calls j <;> simp [Call.start, hcall, CallPhase.holdsGuard]

/-! ## While an outcome is awaited -/

/-- What a run from `w` to `w'` leaves as it was. -/
structure Blocked (w : World κ (LockedNode κ) CallPhase) (trace' : List (κ × CallEvent))
    (w' : World κ (LockedNode κ) CallPhase) : Prop where
  shared : w'.shared = w.shared
  registered : ∀ j hash, (j, .registered hash) ∉ trace'
  dispatched : ∀ j request, (j, .dispatched request) ∈ trace' → (w.proc j).isRouting = true
  routing : ∀ j, (w'.proc j).isRouting = true → (w.proc j).isRouting = true

/-- While another call owns the lock, a step of a call without the guard changes nothing of it. -/
theorem Blocked.step {w w' : World κ (LockedNode κ) CallPhase} {trace' : List (κ × CallEvent)}
    {j : κ} {es : List CallEvent} {s' : LockedNode κ} {p' : CallPhase} (h : Blocked w trace' w')
    (hs : CallStep network j w'.shared (w'.proc j) es s' p') (howned : w'.shared.owner ≠ none)
    (hguard : (w'.proc j).holdsGuard = false) :
    Blocked w (trace' ++ es.map (Prod.mk j)) ⟨s', Function.update w'.proc j p'⟩ := by
  obtain ⟨hshared, hregistered, hdispatched, hrouting⟩ := hs.blocked howned hguard
  constructor
  · exact hshared.trans h.shared
  · intro i hash hmem
    rcases List.mem_append.mp hmem with hmem | hmem
    · exact h.registered i hash hmem
    · obtain ⟨e, he, heq⟩ := List.mem_map.mp hmem
      obtain ⟨rfl, rfl⟩ := Prod.mk.inj heq
      exact hregistered hash he
  · intro i request hmem
    rcases List.mem_append.mp hmem with hmem | hmem
    · exact h.dispatched i request hmem
    · obtain ⟨e, he, heq⟩ := List.mem_map.mp hmem
      obtain ⟨rfl, rfl⟩ := Prod.mk.inj heq
      exact h.routing j (hdispatched request he)
  · intro i hi
    by_cases hij : i = j
    · subst hij
      simp [hrouting] at hi
    · simp only [Function.update_of_ne hij] at hi
      exact h.routing i hi

/-- A call that tracks keeps all others out, or has been told the outcome. Induction on the run. -/
theorem blocked_or_returned (h : CallRun network node calls trace w)
    (hwait : (w.proc k).isTracking = true) {trace' : List (κ × CallEvent)}
    {w' : World κ (LockedNode κ) CallPhase} (h' : (nodeCalls κ network).Run w trace' w') :
    (∃ result, w'.proc k = .returned result) ∨ (w'.proc k = w.proc k ∧ Blocked w trace' w') := by
  induction h' with
  | refl => exact .inr ⟨rfl, rfl, by simp, by simp, fun _ h => h⟩
  | @tail trace' v j es s' p' hrun hstep ih =>
    have hs : CallStep network j v.shared (v.proc j) es s' p' := hstep
    by_cases hj : j = k
    · subst hj
      simp only [Function.update_self]
      -- the tracking call itself moves: its wait is over
      rcases ih with ⟨result, hreturned⟩ | ⟨hsame, -⟩
      · rw [hreturned] at hs
        cases hs
      · exact .inl (hs.returned_of_tracking (hsame ▸ hwait))
    · simp only [Function.update_of_ne (Ne.symm hj)]
      refine ih.imp_right fun ⟨hsame, hblocked⟩ => ⟨hsame, ?_⟩
      -- another call moves, which finds the lock taken
      have hinv := run_lockInv (h.trans hrun)
      have howner : v.shared.owner = some k :=
        (hinv k).mpr (hsame ▸ CallPhase.holdsGuard_of_isTracking hwait)
      have hguard : (v.proc j).holdsGuard = false := by
        -- else two calls would own the lock
        by_contra hheld
        have hother := (hinv j).mpr (by simpa using hheld)
        rw [howner] at hother
        exact hj (Option.some.inj hother).symm
      exact hblocked.step hs (by simp [howner]) hguard

/-- **Tracking blocks the node.** In every reachable state in which a `track_payment` call waits for
its outcome, it has the lock on the node's payments. Until the outcome arrives no other call
registers a payment, and none dispatches one that it has not registered before. -/
theorem tracking_blocks (h : CallRun network node calls trace w)
    (hwait : (w.proc k).isTracking = true) :
    w.shared.owner = some k ∧
      ∀ trace' w', (nodeCalls κ network).Run w trace' w' → (w'.proc k).isTracking = true →
        w'.shared = w.shared ∧ (∀ j hash, (j, .registered hash) ∉ trace') ∧
          ∀ j request, (j, .dispatched request) ∈ trace' → (w.proc j).isRouting = true := by
  refine ⟨(run_lockInv h k).mpr (CallPhase.holdsGuard_of_isTracking hwait), ?_⟩
  intro trace' w' h' hwait'
  rcases blocked_or_returned h hwait h' with ⟨result, hreturned⟩ | ⟨-, hblocked⟩
  · rw [hreturned] at hwait'
    cases hwait'
  · exact ⟨hblocked.shared, hblocked.registered, hblocked.dispatched⟩

/-- A run goes on with a step of any call. -/
theorem CallRun.step {es : List CallEvent} {s' : LockedNode κ} {p' : CallPhase}
    (h : CallRun network node calls trace w) (k : κ)
    (hs : CallStep network k w.shared (w.proc k) es s' p') :
    CallRun network node calls (trace ++ es.map (Prod.mk k)) ⟨s', Function.update w.proc k p'⟩ :=
  h.tail hs

end Runs

/-! ## Two payments of one node -/

def aliceNode : SimNode := { info := nodeInfo alice "", inFlight := ∅ }

def threeNodesGraph : SimGraph :=
  { nodes := ∅, channels := threeNodes, interceptors := [], defaultCustomRecords := ∅ }

/-- Alice sends a payment and tracks it, and sends another one. -/
def aliceCalls : Fin 3 → Call
  | 0 => .sendToRoute ⟨[(aliceToCarol ⟨1⟩).route]⟩ ⟨1⟩ none
  | 1 => .trackPayment ⟨1⟩
  | 2 => .sendToRoute ⟨[(aliceToCarol ⟨2⟩).route]⟩ ⟨2⟩ none

theorem aliceCalls_run :
    ∃ trace w, CallRun threeNodesGraph aliceNode aliceCalls trace w ∧
      (w.proc 1).isTracking = true ∧ w.proc 2 = (aliceCalls 2).start ∧ w.shared.owner = some 1 := by
  have h0 : CallRun threeNodesGraph aliceNode aliceCalls _ _ := .refl
  have h1 := h0.step 0 (.sendToRoute rfl rfl)
  have h2 := h1.step 0 .route
  exact ⟨_, _, h2.step 1 (.trackPayment rfl), rfl, rfl, rfl⟩

theorem tracking_blocks_aliceCalls :
    ∃ trace w, CallRun threeNodesGraph aliceNode aliceCalls trace w ∧
      (w.proc 1).isTracking = true ∧ w.shared.owner = some 1 := by
  obtain ⟨trace, w, hrun, hwait, -⟩ := aliceCalls_run
  exact ⟨trace, w, hrun, hwait, (tracking_blocks hrun hwait).1⟩

/-- While the first payment is tracked, the call that sends the second has no step. -/
theorem aliceCalls_blocked :
    ∃ trace w, CallRun threeNodesGraph aliceNode aliceCalls trace w ∧
      (w.proc 1).isTracking = true ∧ w.shared.owner = some 1 ∧ w.proc 2 = (aliceCalls 2).start ∧
      ∀ es s' p', ¬ CallStep threeNodesGraph 2 w.shared (w.proc 2) es s' p' := by
  obtain ⟨trace, w, hrun, hwait, hsend, howner⟩ := aliceCalls_run
  refine ⟨trace, w, hrun, hwait, howner, hsend, fun es s' p' hs => ?_⟩
  rw [hsend] at hs
  cases hs with
  | badRoute hpaths => exact hpaths rfl
  | sendToRoute hfree hpaths =>
    rw [howner] at hfree
    cases hfree

end SimLn
