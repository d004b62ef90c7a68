import SimLn.Graph
import SimLn.Lib.Interleaving

/-!
# SimLn — propagating one payment

`propagate_payment` is a task that adds the HTLCs of a path hop by hop and then removes them
backwards. It holds the lock on the channels for one iteration of either loop at a time and
waits for its interceptors in between, so its execution is cut into steps at these points:

* `addHop`: one locked iteration of `add_htlcs`, up to the call of the interceptors.
* `interceptHop`: the interceptors have answered.
* `removeHop`: one locked iteration of `remove_htlcs`, up to the notifications.
* `notifyInterceptor`, `removeNext`: one notification, and the end of the iteration.

`Step` collects them. Everything a step does that others can observe is an `Event`.
-/

namespace SimLn

open Lib

/-! ## Paths and requests -/

structure RouteHop where
  pubkey : PublicKey
  shortChannelId : UInt64
  feeMsat : UInt64
  cltvExpiryDelta : UInt32
  deriving DecidableEq, Repr

def RouteHop.scid (hop : RouteHop) : ShortChannelID := ⟨hop.shortChannelId⟩

structure Path where
  hops : List RouteHop
  hops_ne : hops ≠ []

namespace Path

/-- The fees paid to the hops before the last. -/
def feeMsat (path : Path) : UInt64 := (path.hops.dropLast.map (·.feeMsat)).sum

/-- The amount the last hop receives. -/
def finalValueMsat (path : Path) : UInt64 := (path.hops.getLast path.hops_ne).feeMsat

end Path

structure PropagatePaymentRequest where
  source : PublicKey
  route : Path
  paymentHash : PaymentHash
  interceptors : List Interceptor
  customRecords : CustomRecords

namespace PropagatePaymentRequest

/-- The node that sends the HTLC of hop `i`. -/
def sender (req : PropagatePaymentRequest) (i : Nat) : PublicKey :=
  if i = 0 then req.source else ((req.route.hops[i - 1]?).map (·.pubkey)).getD req.source

end PropagatePaymentRequest

/-! ## Interceptors -/

structure InterceptRequest where
  forwardingNode : PublicKey
  paymentHash : PaymentHash
  incomingHtlc : HtlcRef
  incomingCustomRecords : CustomRecords
  /-- None if the intercepting node is the receiver of the payment. -/
  outgoingChannelId : Option ShortChannelID
  incomingAmountMsat : UInt64
  outgoingAmountMsat : UInt64
  incomingExpiryHeight : UInt32
  outgoingExpiryHeight : UInt32

structure InterceptResolution where
  forwardingNode : PublicKey
  incomingHtlc : HtlcRef
  outgoingChannelId : Option ShortChannelID
  success : Bool
  deriving DecidableEq, Repr

abbrev InterceptResult := Except CriticalError (Except ForwardingError CustomRecords)

/-- Merges the records of one interceptor into those attached so far. -/
def mergeRecords : List (Sigma fun _ : UInt64 => List UInt8) → CustomRecords →
    Except CriticalError CustomRecords
  | [], attached => .ok attached
  | ⟨k, v⟩ :: rest, attached =>
    match attached.lookup k with
    | some existing =>
      if existing ≠ v then .error (.duplicateCustomRecord k) else mergeRecords rest attached
    | none => mergeRecords rest (attached.insert k v)

/-- The loop that collects the answers of the interceptors in the order of their completion. The
shutdown signal, if it comes, is seen once the number of answers given has been read: the answers
left then are awaited and dropped. -/
def collectAnswers : List (Except String InterceptResult) → Option Nat → CustomRecords →
    Option ForwardingError → InterceptResult
  | [], _, attached, failure => finish attached failure
  -- the answers that are left are awaited without being looked at
  | _ :: _, some 0, attached, failure => finish attached failure
  | .error joinErr :: _, _, _, _ => .error (.interceptorError joinErr)
  | .ok (.error err) :: _, _, _, _ => .error err
  -- remembered while the others are awaited; a later refusal takes its place
  | .ok (.ok (.error fwdError)) :: rest, shutdown, attached, _ =>
    collectAnswers rest (shutdown.map (· - 1)) attached (some fwdError)
  | .ok (.ok (.ok records)) :: rest, shutdown, attached, failure =>
    match mergeRecords records.entries attached with
    | .error err => .error err
    | .ok attached => collectAnswers rest (shutdown.map (· - 1)) attached failure
where
  finish (attached : CustomRecords) : Option ForwardingError → InterceptResult
    | some fwdError => .ok (.error fwdError)
    | none => .ok (.ok attached)

def handleInterceptedHtlc (request : InterceptRequest) (interceptors : List Interceptor)
    (answers : List (Except String InterceptResult)) (shutdown : Option Nat) : InterceptResult :=
  match interceptors with
  | [] => .ok (.ok request.incomingCustomRecords)
  | _ :: _ => collectAnswers answers shutdown ∅ none

/-! ## The task -/

/-- An HTLC as it was added to, or removed from, the channel of hop `hop`. -/
@[ext] structure HopHtlc where
  hop : Nat
  sender : PublicKey
  ref : HtlcRef
  htlc : Htlc
  deriving DecidableEq, Repr

inductive Event where
  | htlcAdded (h : HopHtlc)
  | addRefused (hop : Nat) (err : ForwardingError)
  | forwardRefused (hop : Nat) (err : ForwardingError)
  | intercepted (interceptor : Nat) (request : InterceptRequest)
  | interceptRefused (hop : Nat) (err : ForwardingError)
  | htlcRemoved (h : HopHtlc) (success : Bool)
  | resolved (interceptor : Nat) (resolution : InterceptResolution)
  /-- A critical error of a channel operation. -/
  | channelError (hop : Nat) (err : CriticalError)
  /-- A critical error of `handle_intercepted_htlc`. -/
  | interceptError (hop : Nat) (err : CriticalError)
  /-- A critical error returned by a notified interceptor. -/
  | notifyError (hop : Nat) (err : CriticalError)
  | shutdownTriggered
  | reported (result : PaymentResult)

/-- The variables of the loop in `add_htlcs`. -/
structure AddLoop where
  i : Nat
  outgoingNode : PublicKey
  outgoingAmount : UInt64
  outgoingCltv : UInt32
  incomingCustomRecords : CustomRecords
  failIdx : Option Nat

/-- The arguments and variables of `remove_htlcs`. -/
structure RemoveLoop where
  resolutionIdx : Nat
  success : Bool
  i : Nat
  outgoingChannelId : Option ShortChannelID
  deriving DecidableEq, Repr

inductive Phase where
  | adding (loop : AddLoop)
  | intercepting (loop : AddLoop) (request : InterceptRequest)
  | removing (loop : RemoveLoop)
  | notifying (loop : RemoveLoop) (resolution : InterceptResolution) (next : Nat)
  | finished (result : PaymentResult)

def PropagatePaymentRequest.start (req : PropagatePaymentRequest) : Phase :=
  .adding
    { i := 0
      outgoingNode := req.source
      outgoingAmount := req.route.feeMsat + req.route.finalValueMsat
      outgoingCltv := (req.route.hops.map (·.cltvExpiryDelta)).sum
      incomingCustomRecords := req.customRecords
      failIdx := none }

/-- What `propagate_payment` does once `add_htlcs` has returned. -/
def addsDone (req : PropagatePaymentRequest) :
    Except CriticalError (Except (Option Nat) Unit) → List Event × Phase
  | .ok (.ok ()) =>
    let last := req.route.hops.length - 1
    ([], .removing { resolutionIdx := last, success := true, i := last, outgoingChannelId := none })
  | .ok (.error (some idx)) =>
    ([], .removing { resolutionIdx := idx, success := false, i := idx, outgoingChannelId := none })
  | .ok (.error none) => ([.reported ⟨0, .indexFailure 0⟩], .finished ⟨0, .indexFailure 0⟩)
  | .error _ => ([.shutdownTriggered, .reported ⟨0, .unknown⟩], .finished ⟨0, .unknown⟩)

/-- The result that `propagate_payment` reports after removing HTLCs, whether or not that fails. -/
def RemoveLoop.result (loop : RemoveLoop) : PaymentResult :=
  if loop.success then ⟨1, .success⟩ else ⟨0, .indexFailure loop.resolutionIdx⟩

/-- What `propagate_payment` does once `remove_htlcs` has returned. -/
def removesDone (loop : RemoveLoop) : Except CriticalError Unit → List Event × Phase
  | .ok () => ([.reported loop.result], .finished loop.result)
  | .error _ => ([.shutdownTriggered, .reported loop.result], .finished loop.result)

/-- The check against the next channel's policy. It is skipped when that channel does not exist:
adding the next HTLC will fail then. -/
def checkForward (req : PropagatePaymentRequest) (loop : AddLoop) (hop : RouteHop)
    (channels : Channels) : ForwardResult :=
  match req.route.hops[loop.i + 1]? with
  | none => .ok (.ok ())
  | some next =>
    match channels.lookup next.scid with
    | none => .ok (.ok ())
    | some channel =>
      channel.checkHtlcForward hop.pubkey hop.cltvExpiryDelta (loop.outgoingAmount - hop.feeMsat)
        hop.feeMsat

def interceptRequest (req : PropagatePaymentRequest) (loop : AddLoop) (hop : RouteHop)
    (index : UInt64) : InterceptRequest :=
  { forwardingNode := hop.pubkey
    paymentHash := req.paymentHash
    incomingHtlc := { channelId := hop.scid, index }
    incomingCustomRecords := loop.incomingCustomRecords
    outgoingChannelId := (req.route.hops[loop.i + 1]?).map (·.scid)
    incomingAmountMsat := loop.outgoingAmount
    outgoingAmountMsat := loop.outgoingAmount - hop.feeMsat
    incomingExpiryHeight := loop.outgoingCltv
    outgoingExpiryHeight := loop.outgoingCltv - hop.cltvExpiryDelta }

/-- The locked part of an iteration of `add_htlcs`: add the HTLC of this hop, then check that the
node it arrives at can forward it. -/
def addHop (req : PropagatePaymentRequest) (loop : AddLoop) (hop : RouteHop)
    (channels : Channels) : List Event × Channels × Phase :=
  match channels.lookup hop.scid with
  | none =>
    let (events, phase) := addsDone req (.error (.channelNotFound hop.scid))
    (.channelError loop.i (.channelNotFound hop.scid) :: events, channels, phase)
  | some channel =>
    match channel.addHtlc loop.outgoingNode req.paymentHash
        { amountMsat := loop.outgoingAmount, cltvExpiry := loop.outgoingCltv } with
    | (.error err, channel) =>
      let (events, phase) := addsDone req (.error err)
      (.channelError loop.i err :: events, channels.insert hop.scid channel, phase)
    | (.ok (.error fwdErr), channel) =>
      -- nothing was added here, so that the failure index is still that of the hop before
      let (events, phase) := addsDone req (.ok (.error loop.failIdx))
      (.addRefused loop.i fwdErr :: events, channels.insert hop.scid channel, phase)
    | (.ok (.ok index), channel) =>
      let channels := channels.insert hop.scid channel
      let added := Event.htlcAdded
        { hop := loop.i
          sender := loop.outgoingNode
          ref := { channelId := hop.scid, index }
          htlc := { amountMsat := loop.outgoingAmount, cltvExpiry := loop.outgoingCltv } }
      -- from here on a failure removes the HTLC of this hop too
      let loop := { loop with failIdx := some loop.i }
      match checkForward req loop hop channels with
      | .error err =>
        let (events, phase) := addsDone req (.error err)
        (added :: .channelError loop.i err :: events, channels, phase)
      | .ok (.error fwdErr) =>
        let (events, phase) := addsDone req (.ok (.error loop.failIdx))
        (added :: .forwardRefused loop.i fwdErr :: events, channels, phase)
      | .ok (.ok ()) =>
        let request := interceptRequest req loop hop index
        (added :: (List.range req.interceptors.length).map (Event.intercepted · request), channels,
          .intercepting loop request)

/-- The rest of the iteration, with the answers of the interceptors: the next hop is the turn of
the node the HTLC arrived at. -/
def interceptHop (req : PropagatePaymentRequest) (loop : AddLoop) (hop : RouteHop)
    (request : InterceptRequest) (answers : List (Except String InterceptResult))
    (shutdown : Option Nat) : List Event × Phase :=
  match handleInterceptedHtlc request req.interceptors answers shutdown with
  | .error err =>
    let (events, phase) := addsDone req (.error err)
    (.interceptError loop.i err :: events, phase)
  | .ok (.error fwdErr) =>
    let (events, phase) := addsDone req (.ok (.error loop.failIdx))
    (.interceptRefused loop.i fwdErr :: events, phase)
  | .ok (.ok attachedCustomRecords) =>
    if loop.i + 1 < req.route.hops.length then
      ([], .adding
        { loop with
          i := loop.i + 1
          outgoingNode := hop.pubkey
          outgoingAmount := loop.outgoingAmount - hop.feeMsat
          outgoingCltv := loop.outgoingCltv - hop.cltvExpiryDelta
          incomingCustomRecords := attachedCustomRecords })
    else
      addsDone req (.ok (.ok ()))

/-- The locked part of an iteration of `remove_htlcs`. The HTLC of a hop is looked up at the node
that sent it. -/
def removeHop (req : PropagatePaymentRequest) (loop : RemoveLoop) (hop : RouteHop)
    (channels : Channels) : List Event × Channels × Phase :=
  match channels.lookup hop.scid with
  | none =>
    let (events, phase) := removesDone loop (.error (.channelNotFound hop.scid))
    (.channelError loop.i (.channelNotFound hop.scid) :: events, channels, phase)
  | some channel =>
    match channel.removeHtlc (req.sender loop.i) req.paymentHash loop.success with
    | (.error err, channel) =>
      let (events, phase) := removesDone loop (.error err)
      -- the channel keeps what it did before the error
      (.channelError loop.i err :: events, channels.insert hop.scid channel, phase)
    | (.ok (htlc, index), channel) =>
      let ref := { channelId := hop.scid, index }
      ([.htlcRemoved { hop := loop.i, sender := req.sender loop.i, ref, htlc } loop.success],
        channels.insert hop.scid channel,
        .notifying loop
          { forwardingNode := hop.pubkey
            incomingHtlc := ref
            outgoingChannelId := loop.outgoingChannelId
            success := loop.success } 0)

/-- The call of `notify_resolution` on interceptor `next`, which answers `answer`. -/
def notifyInterceptor (loop : RemoveLoop) (resolution : InterceptResolution) (next : Nat)
    (answer : Except CriticalError Unit) : List Event × Phase :=
  match answer with
  | .error err =>
    let (events, phase) := removesDone loop (.error err)
    (.resolved next resolution :: .notifyError loop.i err :: events, phase)
  | .ok () => ([.resolved next resolution], .notifying loop resolution (next + 1))

/-- The end of an iteration of `remove_htlcs`. -/
def removeNext (loop : RemoveLoop) (hop : RouteHop) : List Event × Phase :=
  match loop.i with
  | 0 => removesDone loop (.ok ())
  | i + 1 => ([], .removing { loop with i, outgoingChannelId := some hop.scid })

/-- One step of the task for `req`, from the channels and its phase to those after it. -/
inductive Step (req : PropagatePaymentRequest) :
    Channels → Phase → List Event → Channels → Phase → Prop where
  | add {channels : Channels} {loop : AddLoop} {hop : RouteHop}
      (hhop : req.route.hops[loop.i]? = some hop) :
      Step req channels (.adding loop) (addHop req loop hop channels).1
        (addHop req loop hop channels).2.1 (addHop req loop hop channels).2.2
  | intercept {channels : Channels} {loop : AddLoop} {request : InterceptRequest} {hop : RouteHop}
      (answers : List (Except String InterceptResult)) (shutdown : Option Nat)
      (hhop : req.route.hops[loop.i]? = some hop)
      (hanswers : answers.length = req.interceptors.length) :
      Step req channels (.intercepting loop request)
        (interceptHop req loop hop request answers shutdown).1 channels
        (interceptHop req loop hop request answers shutdown).2
  | remove {channels : Channels} {loop : RemoveLoop} {hop : RouteHop}
      (hhop : req.route.hops[loop.i]? = some hop) :
      Step req channels (.removing loop) (removeHop req loop hop channels).1
        (removeHop req loop hop channels).2.1 (removeHop req loop hop channels).2.2
  | notify {channels : Channels} {loop : RemoveLoop} {resolution : InterceptResolution}
      {next : Nat} (answer : Except CriticalError Unit) (hnext : next < req.interceptors.length) :
      Step req channels (.notifying loop resolution next)
        (notifyInterceptor loop resolution next answer).1 channels
        (notifyInterceptor loop resolution next answer).2
  | advance {channels : Channels} {loop : RemoveLoop} {resolution : InterceptResolution}
      {hop : RouteHop} (hhop : req.route.hops[loop.i]? = some hop) :
      Step req channels (.notifying loop resolution req.interceptors.length)
        (removeNext loop hop).1 channels (removeNext loop hop).2

/-- Payments propagating over one network, each as a task of its own. -/
def payments {ι : Type} (reqs : ι → PropagatePaymentRequest) :
    System ι Channels Phase Event where
  step k channels phase events channels' phase' :=
    Step (reqs k) channels phase events channels' phase'

/-- The network before any of the payments has started. -/
def dispatched {ι : Type} (reqs : ι → PropagatePaymentRequest) (channels : Channels) :
    World ι Channels Phase where
  shared := channels
  proc k := (reqs k).start

/-- The payments, dispatched on `channels`, have taken steps in some order and arrived at `w`. -/
abbrev PaymentRun {ι : Type} [DecidableEq ι] (reqs : ι → PropagatePaymentRequest)
    (channels : Channels) (trace : List (ι × Event)) (w : World ι Channels Phase) : Prop :=
  (payments reqs).Run (dispatched reqs channels) trace w

theorem PaymentRun.step {ι : Type} [DecidableEq ι] {reqs : ι → PropagatePaymentRequest}
    {channels shared : Channels} {trace : List (ι × Event)} {w : World ι Channels Phase}
    {events : List Event} {next : Phase} (h : PaymentRun reqs channels trace w) (k : ι)
    (hs : Step (reqs k) w.shared (w.proc k) events shared next) :
    PaymentRun reqs channels (trace ++ events.map (Prod.mk k))
      ⟨shared, Function.update w.proc k next⟩ :=
  h.tail hs

/-- A payment of 20000 msat from Alice to Carol, which leaves Bob the fee he asks for. -/
def aliceToCarol (hash : PaymentHash) : PropagatePaymentRequest :=
  { source := alice
    route := ⟨[⟨bob, 700, 30, 40⟩, ⟨carol, 800, 20000, 18⟩], by simp⟩
    paymentHash := hash
    interceptors := []
    customRecords := ∅ }

end SimLn
