import SimLn.Payment.Control

/-!
# SimLn — a simulated node

`SimNode` sends payments through the network and tracks their outcome, on which it reports to the
scorer that its pathfinding uses. Pathfinding, the scorer and the clock are not part of this
repository: the route found, the time and the state of the scorer's lock are arguments.
-/

namespace SimLn

open Lib

structure Route where
  paths : List Path

/-- What the node is told about a payment it tracks. -/
inductive TrackedOutcome where
  /-- The shutdown listener fired first. -/
  | shutdown
  /-- The sender of the result was dropped. -/
  | closed (message : String)
  | result (res : Except LightningError PaymentResult)
  deriving DecidableEq

/-- The calls made to the scorer. The second argument of a failure is the short channel id that is
blamed. -/
inductive ScoreUpdate where
  | paymentPathSuccessful (path : Path) (duration : Nat)
  | paymentPathFailed (path : Path) (shortChannelId : UInt64) (duration : Nat)

/-- A payment whose outcome has not been tracked yet. Its path is none if no path was found. -/
structure InFlightPayment where
  path : Option Path

structure SimNode where
  info : NodeInfo
  inFlight : Table PaymentHash InFlightPayment

/-- Hands a payment over to the network as a task of its own. A route that does not have exactly one
path is dropped. Without records of their own, payments carry the default ones. -/
def SimGraph.dispatchPayment (self : SimGraph) (source : PublicKey) (route : Route)
    (customRecords : Option CustomRecords) (paymentHash : PaymentHash) :
    Option PropagatePaymentRequest :=
  match route.paths with
  | [path] =>
    some
      { source
        route := path
        paymentHash
        interceptors := self.interceptors
        customRecords := customRecords.getD self.defaultCustomRecords }
  | _ => none

namespace SimNode

/-- Dispatches a payment along a given route. -/
def sendToRoute (self : SimNode) (network : SimGraph) (route : Route) (paymentHash : PaymentHash)
    (customRecords : Option CustomRecords) :
    Except LightningError (Option PropagatePaymentRequest) × SimNode :=
  match route.paths with
  | [path] =>
    if paymentHash ∈ self.inFlight then
      (.error (.sendPaymentError "payment hash exists"), self)
    else
      (.ok (network.dispatchPayment self.info.pubkey route customRecords paymentHash),
        { self with inFlight := self.inFlight.insert paymentHash { path := some path } })
  | _ =>
    (.error (.sendPaymentError "Route must contain exactly one path for this operation."), self)

/-- What the scorer is told about a payment along `path`. -/
def score (path : Path) (result : PaymentResult) (duration : Nat) : List ScoreUpdate :=
  match result.paymentOutcome with
  | .success => [.paymentPathSuccessful path duration]
  -- the index of a hop, where the scorer takes a short channel id
  | .indexFailure index => [.paymentPathFailed path (UInt64.ofNat index) duration]
  | _ => []

/-- Waits for the outcome of a payment and updates the scorer. `sinceEpoch` is the time, none if the
clock is before the epoch; `scorer` is the error of a poisoned lock. -/
def trackPayment (self : SimNode) (hash : PaymentHash) (outcome : TrackedOutcome)
    (sinceEpoch : Option Nat) (scorer : Except String Unit) :
    Except LightningError PaymentResult × List ScoreUpdate × SimNode :=
  match self.inFlight.lookup hash with
  | none =>
    (.error (.trackPaymentError s!"payment hash {hex 64 hash.bytes.toNat} not found"), [], self)
  | some inFlight =>
    -- removed before its outcome is known; no error below puts it back
    let self := { self with inFlight := self.inFlight.erase hash }
    match outcome with
    | .shutdown => (.error (.trackPaymentError "shutdown during payment tracking"), [], self)
    | .closed message => (.error (.trackPaymentError s!"channel receive err: {message}"), [], self)
    | .result (.error err) => (.error err, [], self)
    | .result (.ok result) =>
      match sinceEpoch with
      | none => (.error .systemTimeConversionError, [], self)
      | some duration =>
        match inFlight.path with
        | some path =>
          match scorer with
          | .error message => (.error (.trackPaymentError s!"scorer lock poisoned: {message}"), [], self)
          | .ok () => (.ok result, score path result duration, self)
        | none =>
          if result.paymentOutcome ≠ .routeNotFound then
            (.error (.trackPaymentError
              "payment outcome was not RouteNotFound, but no path was provided"), [], self)
          else
            (.ok result, [], self)

/-- A payment is tracked with the path that it was dispatched on. -/
theorem sendToRoute_tracks {self self' : SimNode} {network : SimGraph} {route : Route}
    {paymentHash : PaymentHash} {customRecords : Option CustomRecords}
    {req : PropagatePaymentRequest}
    (h : self.sendToRoute network route paymentHash customRecords = (.ok (some req), self')) :
    self'.inFlight.lookup req.paymentHash = some { path := some req.route } := by
  unfold sendToRoute SimGraph.dispatchPayment at h
  split at h
  next path hpath =>
    split at h
    · cases h
    · simp only [Prod.mk.injEq, Except.ok.injEq, Option.some.injEq] at h
      obtain ⟨rfl, rfl⟩ := h
      exact AList.lookup_insert _
  · cases h

/-- An outcome that reaches the scorer is scored with the path of the payment. -/
theorem trackPayment_result {self : SimNode} {hash : PaymentHash} {path : Path}
    (hentry : self.inFlight.lookup hash = some { path := some path }) (result : PaymentResult)
    (duration : Nat) :
    (self.trackPayment hash (.result (.ok result)) (some duration) (.ok ())).2.1
      = score path result duration := by
  simp only [trackPayment, hentry]

end SimNode

/-! ## Blame -/

section Runs

variable {ι : Type} [DecidableEq ι] {reqs : ι → PropagatePaymentRequest} {channels : Channels}
  {w : World ι Channels Phase} {trace : List (ι × Event)}

/-- A payment that a channel refused at hop `hop` reports the hop before it, or `0` for the
first. -/
theorem Control.reported_of_refused {req : PropagatePaymentRequest} {past : List Event}
    {result : PaymentResult} (h : Control req past (.finished result)) {e : Event} {hop : Nat}
    (he : e ∈ past) (hrefused : e.refusedHop = some hop) :
    result = ⟨0, .indexFailure (hop - 1)⟩ ∧ hop < req.route.hops.length := by
  obtain ⟨hhop, hlt⟩ := h.log.refusedAt e he hop hrefused
  -- of the three ways to end, only a failure has a refusal behind it
  have hnot : ¬ Unrefused past := by
    intro hunrefused
    rw [hunrefused e he] at hrefused
    cases hrefused
  refine ⟨?_, hlt⟩
  cases h.phase with
  | unknown _ _ hunrefused => exact absurd hunrefused hnot
  | success _ _ hunrefused _ => exact absurd hunrefused hnot
  | failure _ _ => rw [hhop]

/-- **Which channel is blamed.** When a payment has ended because a channel refused its HTLC at hop
`hop`, tracking it blames one channel. It is the channel of that hop exactly when the short channel
id of that channel happens to be the number of the hop before it, or `0` for the first hop. -/
theorem blamed_channel_iff (h : PaymentRun reqs channels trace w) {k : ι} {e : Event} {hop : Nat}
    (he : (k, e) ∈ trace) (hrefused : e.refusedHop = some hop) {result : PaymentResult}
    (hfinished : w.proc k = .finished result) {node : SimNode}
    (hentry : node.inFlight.lookup (reqs k).paymentHash = some { path := some (reqs k).route })
    (duration : Nat) :
    ∃ refused scid, (reqs k).route.hops[hop]? = some refused ∧
      (node.trackPayment (reqs k).paymentHash (.result (.ok result)) (some duration) (.ok ())).2.1
        = [.paymentPathFailed (reqs k).route scid duration] ∧
      (scid = refused.shortChannelId ↔ refused.shortChannelId = UInt64.ofNat (hop - 1)) := by
  have hcontrol := run_control h k
  rw [hfinished] at hcontrol
  obtain ⟨rfl, hlt⟩ := hcontrol.reported_of_refused (mem_eventsOf.mpr he) hrefused
  refine ⟨_, UInt64.ofNat (hop - 1), List.getElem?_eq_getElem hlt, ?_, eq_comm⟩
  rw [SimNode.trackPayment_result hentry]
  rfl

/-- A payment that offers Bob no fee, which he refuses to forward. -/
def stingyPayment : PropagatePaymentRequest :=
  { source := alice
    route := ⟨[⟨bob, 700, 0, 40⟩, ⟨carol, 800, 20000, 18⟩], by simp⟩
    paymentHash := ⟨1⟩
    interceptors := []
    customRecords := ∅ }

/-- Alice's node, tracking that payment. -/
def aliceTracking : SimNode :=
  { info := nodeInfo alice ""
    inFlight := (∅ : Table _ _).insert ⟨1⟩ { path := some stingyPayment.route } }

theorem stingyPayment_fails :
    ∃ trace w, PaymentRun (fun _ : Unit => stingyPayment) threeNodes trace w ∧
      ((), .forwardRefused 0 (.insufficientFee 0 10 1000 30)) ∈ trace ∧
      w.proc () = .finished ⟨0, .indexFailure 0⟩ := by
  have h1 : PaymentRun (fun _ : Unit => stingyPayment) threeNodes _ _ :=
    PaymentRun.step .refl () (.add rfl)
  -- Bob has the HTLC when his check refuses, so it is removed again
  have h2 := h1.step () (.remove rfl)
  have h3 := h2.step () (.advance rfl)
  exact ⟨_, _, h3, .tail _ (.head _), rfl⟩

theorem blamed_channel_iff_stingyPayment :
    ∃ scid, (aliceTracking.trackPayment ⟨1⟩ (.result (.ok ⟨0, .indexFailure 0⟩)) (some 5)
        (.ok ())).2.1 = [.paymentPathFailed stingyPayment.route scid 5] ∧ scid ≠ 800 := by
  obtain ⟨trace, w, hrun, hmem, hfinished⟩ := stingyPayment_fails
  have hentry : aliceTracking.inFlight.lookup ⟨1⟩ = some { path := some stingyPayment.route } := rfl
  obtain ⟨refused, scid, hrefused, hscore, hiff⟩ :=
    blamed_channel_iff hrun hmem rfl hfinished hentry 5
  obtain rfl := Option.some.inj hrefused
  exact ⟨scid, hscore, fun heq => absurd (hiff.mp heq) (by decide)⟩

/-- The HTLC over channel 800 was refused, and the scorer hears that channel 0 failed. -/
theorem stingyPayment_blames_channel_zero :
    ∃ trace w, PaymentRun (fun _ : Unit => stingyPayment) threeNodes trace w ∧
      ((), .forwardRefused 0 (.insufficientFee 0 10 1000 30)) ∈ trace ∧
      w.proc () = .finished ⟨0, .indexFailure 0⟩ ∧
      (stingyPayment.route.hops[0 + 1]?).map (·.shortChannelId) = some 800 ∧
      (aliceTracking.trackPayment ⟨1⟩ (.result (.ok ⟨0, .indexFailure 0⟩)) (some 5) (.ok ())).2.1
        = [.paymentPathFailed stingyPayment.route 0 5] := by
  obtain ⟨trace, w, hrun, hmem, hfinished⟩ := stingyPayment_fails
  exact ⟨trace, w, hrun, hmem, hfinished, rfl, rfl⟩

end Runs

end SimLn
