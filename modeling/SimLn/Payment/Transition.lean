import SimLn.Payment

/-!
# SimLn — what a step of a payment can do

`Step` computes; `Transition` lists the outcomes, each with what it did to the channels, the
events it emitted and the phase it leads to. `Step.transition` is the only place where the
definitions of the two loops are unfolded.
-/

namespace SimLn

open Lib

/-- The same channels, in whatever order the table lists them. -/
def SameChannels (channels channels' : Channels) : Prop :=
  ∀ scid, channels'.lookup scid = channels.lookup scid

theorem SameChannels.refl (channels : Channels) : SameChannels channels channels := fun _ => rfl

theorem sameChannels_insert {channels : Channels} {scid : ShortChannelID} {c : SimulatedChannel}
    (h : channels.lookup scid = some c) : SameChannels channels (channels.insert scid c) := by
  intro scid'
  by_cases hs : scid' = scid
  · rw [hs, AList.lookup_insert, h]
  · rw [AList.lookup_insert_ne hs]

/-- `h` has been added, on side `s` of channel `c`. -/
structure Pushed (hash : PaymentHash) (h : HopHtlc) (c : SimulatedChannel) (s : Side)
    (channels channels' : Channels) : Prop where
  found : channels.lookup h.ref.channelId = some c
  side : c.sideOf h.sender = some s
  accepts : c.Accepts s hash h.htlc
  index : h.ref.index = (c.node s).index
  result : channels' = channels.insert h.ref.channelId (c.pushHtlc s hash h.htlc)

/-- `h` has been removed from side `s` of channel `c` and settled. -/
structure Popped (hash : PaymentHash) (h : HopHtlc) (success : Bool) (c : SimulatedChannel)
    (s : Side) (channels channels' : Channels) : Prop where
  found : channels.lookup h.ref.channelId = some c
  side : c.sideOf h.sender = some s
  entry : (c.node s).inFlight.lookup hash = some (h.htlc, h.ref.index)
  result : channels' = channels.insert h.ref.channelId
    (c.popHtlc s hash h.htlc.amountMsat success)

/-- The HTLC that `add_htlcs` offers to the channel of its current hop. -/
def AddLoop.offer (loop : AddLoop) (hop : RouteHop) (index : UInt64) : HopHtlc :=
  { hop := loop.i
    sender := loop.outgoingNode
    ref := { channelId := hop.scid, index }
    htlc := { amountMsat := loop.outgoingAmount, cltvExpiry := loop.outgoingCltv } }

/-- The loop of `add_htlcs` at its next hop. -/
def AddLoop.next (loop : AddLoop) (hop : RouteHop) (records : CustomRecords) : AddLoop :=
  { loop with
    i := loop.i + 1
    outgoingNode := hop.pubkey
    outgoingAmount := loop.outgoingAmount - hop.feeMsat
    outgoingCltv := loop.outgoingCltv - hop.cltvExpiryDelta
    incomingCustomRecords := records }

/-- The phase in which `remove_htlcs` starts. -/
def startRemoving (resolutionIdx : Nat) (success : Bool) : Phase :=
  .removing { resolutionIdx, success, i := resolutionIdx, outgoingChannelId := none }

/-- The ways a step can go. `unknown` is the result reported after a critical error of
`add_htlcs`. -/
inductive Transition (req : PropagatePaymentRequest) :
    Channels → Phase → List Event → Channels → Phase → Prop where
  | addCritical {channels channels' : Channels} {loop : AddLoop} {hop : RouteHop}
      {err : CriticalError} (hhop : req.route.hops[loop.i]? = some hop)
      (hsame : SameChannels channels channels')
      (hsane : ∀ b cap, err = .sanityCheckFailed b cap →
        ∃ c, channels.lookup hop.scid = some c ∧ c.sanityCheck = .error err) :
      Transition req channels (.adding loop)
        [.channelError loop.i err, .shutdownTriggered, .reported ⟨0, .unknown⟩] channels'
        (.finished ⟨0, .unknown⟩)
  | addRefusedFirst {channels channels' : Channels} {loop : AddLoop} {hop : RouteHop}
      {fwdErr : ForwardingError} (hhop : req.route.hops[loop.i]? = some hop)
      (hsame : SameChannels channels channels') (hidx : loop.failIdx = none) :
      Transition req channels (.adding loop)
        [.addRefused loop.i fwdErr, .reported ⟨0, .indexFailure 0⟩] channels'
        (.finished ⟨0, .indexFailure 0⟩)
  | addRefused {channels channels' : Channels} {loop : AddLoop} {hop : RouteHop} {idx : Nat}
      {fwdErr : ForwardingError} (hhop : req.route.hops[loop.i]? = some hop)
      (hsame : SameChannels channels channels') (hidx : loop.failIdx = some idx) :
      Transition req channels (.adding loop) [.addRefused loop.i fwdErr] channels'
        (startRemoving idx false)
  | forwardCritical {channels channels' : Channels} {loop : AddLoop} {hop : RouteHop}
      {index : UInt64} {c : SimulatedChannel} {s : Side} {err : CriticalError}
      (hhop : req.route.hops[loop.i]? = some hop)
      (hpush : Pushed req.paymentHash (loop.offer hop index) c s channels channels')
      (hcheck : checkForward req loop hop channels' = .error err) :
      Transition req channels (.adding loop)
        [.htlcAdded (loop.offer hop index), .channelError loop.i err, .shutdownTriggered,
          .reported ⟨0, .unknown⟩] channels' (.finished ⟨0, .unknown⟩)
  | forwardRefused {channels channels' : Channels} {loop : AddLoop} {hop : RouteHop}
      {index : UInt64} {c : SimulatedChannel} {s : Side} {fwdErr : ForwardingError}
      (hhop : req.route.hops[loop.i]? = some hop)
      (hpush : Pushed req.paymentHash (loop.offer hop index) c s channels channels')
      (hcheck : checkForward req loop hop channels' = .ok (.error fwdErr)) :
      Transition req channels (.adding loop)
        [.htlcAdded (loop.offer hop index), .forwardRefused loop.i fwdErr] channels'
        (startRemoving loop.i false)
  | added {channels channels' : Channels} {loop : AddLoop} {hop : RouteHop}
      {index : UInt64} {c : SimulatedChannel} {s : Side}
      (hhop : req.route.hops[loop.i]? = some hop)
      (hpush : Pushed req.paymentHash (loop.offer hop index) c s channels channels')
      (hcheck : checkForward req loop hop channels' = .ok (.ok ())) :
      Transition req channels (.adding loop)
        (.htlcAdded (loop.offer hop index) :: (List.range req.interceptors.length).map
          (Event.intercepted · (interceptRequest req loop hop index))) channels'
        (.intercepting { loop with failIdx := some loop.i } (interceptRequest req loop hop index))
  | interceptCritical {channels : Channels} {loop : AddLoop} {request : InterceptRequest}
      {hop : RouteHop} {err : CriticalError} (hhop : req.route.hops[loop.i]? = some hop) :
      Transition req channels (.intercepting loop request)
        [.interceptError loop.i err, .shutdownTriggered, .reported ⟨0, .unknown⟩] channels
        (.finished ⟨0, .unknown⟩)
  | interceptRefusedFirst {channels : Channels} {loop : AddLoop} {request : InterceptRequest}
      {hop : RouteHop} {fwdErr : ForwardingError} (hhop : req.route.hops[loop.i]? = some hop)
      (hidx : loop.failIdx = none) :
      Transition req channels (.intercepting loop request)
        [.interceptRefused loop.i fwdErr, .reported ⟨0, .indexFailure 0⟩] channels
        (.finished ⟨0, .indexFailure 0⟩)
  | interceptRefused {channels : Channels} {loop : AddLoop} {request : InterceptRequest}
      {hop : RouteHop} {idx : Nat} {fwdErr : ForwardingError}
      (hhop : req.route.hops[loop.i]? = some hop) (hidx : loop.failIdx = some idx) :
      Transition req channels (.intercepting loop request) [.interceptRefused loop.i fwdErr]
        channels (startRemoving idx false)
  | forwarded {channels : Channels} {loop : AddLoop} {request : InterceptRequest}
      {hop : RouteHop} {records : CustomRecords} (hhop : req.route.hops[loop.i]? = some hop)
      (hlt : loop.i + 1 < req.route.hops.length) :
      Transition req channels (.intercepting loop request) [] channels
        (.adding (loop.next hop records))
  | received {channels : Channels} {loop : AddLoop} {request : InterceptRequest}
      {hop : RouteHop} (hhop : req.route.hops[loop.i]? = some hop)
      (hlast : loop.i + 1 = req.route.hops.length) :
      Transition req channels (.intercepting loop request) [] channels (startRemoving loop.i true)
  | removeCritical {channels channels' : Channels} {loop : RemoveLoop} {hop : RouteHop}
      {err : CriticalError} (hhop : req.route.hops[loop.i]? = some hop)
      (hsame : SameChannels channels channels')
      (hsane : ∀ b cap, err ≠ .sanityCheckFailed b cap)
      (hnone : ∀ c s, channels.lookup hop.scid = some c → c.sideOf (req.sender loop.i) = some s →
        (c.node s).inFlight.lookup req.paymentHash = none) :
      Transition req channels (.removing loop)
        [.channelError loop.i err, .shutdownTriggered, .reported loop.result] channels'
        (.finished loop.result)
  | removedInsane {channels channels' : Channels} {loop : RemoveLoop} {hop : RouteHop}
      {htlc : Htlc} {index : UInt64} {c : SimulatedChannel} {s : Side} {err : CriticalError}
      (hhop : req.route.hops[loop.i]? = some hop)
      (hpop : Popped req.paymentHash ⟨loop.i, req.sender loop.i, ⟨hop.scid, index⟩, htlc⟩
        loop.success c s channels channels')
      (hinsane : c.sanityCheck ≠ .ok ()) :
      Transition req channels (.removing loop)
        [.channelError loop.i err, .shutdownTriggered, .reported loop.result] channels'
        (.finished loop.result)
  | removed {channels channels' : Channels} {loop : RemoveLoop} {hop : RouteHop}
      {htlc : Htlc} {index : UInt64} {c : SimulatedChannel} {s : Side}
      (hhop : req.route.hops[loop.i]? = some hop)
      (hpop : Popped req.paymentHash ⟨loop.i, req.sender loop.i, ⟨hop.scid, index⟩, htlc⟩
        loop.success c s channels channels') :
      Transition req channels (.removing loop)
        [.htlcRemoved ⟨loop.i, req.sender loop.i, ⟨hop.scid, index⟩, htlc⟩ loop.success] channels'
        (.notifying loop
          { forwardingNode := hop.pubkey
            incomingHtlc := ⟨hop.scid, index⟩
            outgoingChannelId := loop.outgoingChannelId
            success := loop.success } 0)
  | notifyCritical {channels : Channels} {loop : RemoveLoop} {resolution : InterceptResolution}
      {next : Nat} {err : CriticalError} (hnext : next < req.interceptors.length) :
      Transition req channels (.notifying loop resolution next)
        [.resolved next resolution, .notifyError loop.i err, .shutdownTriggered,
          .reported loop.result] channels (.finished loop.result)
  | notified {channels : Channels} {loop : RemoveLoop} {resolution : InterceptResolution}
      {next : Nat} (hnext : next < req.interceptors.length) :
      Transition req channels (.notifying loop resolution next) [.resolved next resolution] channels
        (.notifying loop resolution (next + 1))
  | removeNext {channels : Channels} {loop : RemoveLoop} {resolution : InterceptResolution}
      {hop : RouteHop} {i : Nat} (hhop : req.route.hops[loop.i]? = some hop)
      (hi : loop.i = i + 1) :
      Transition req channels (.notifying loop resolution req.interceptors.length) [] channels
        (.removing { loop with i, outgoingChannelId := some hop.scid })
  | removedAll {channels : Channels} {loop : RemoveLoop} {resolution : InterceptResolution}
      (hi : loop.i = 0) :
      Transition req channels (.notifying loop resolution req.interceptors.length)
        [.reported loop.result] channels (.finished loop.result)

variable {req : PropagatePaymentRequest} {channels : Channels}

theorem lookup_lt {loop : AddLoop} {hop : RouteHop} (hhop : req.route.hops[loop.i]? = some hop) :
    loop.i < req.route.hops.length := (List.getElem?_eq_some_iff.mp hhop).1

theorem addHop_transition {loop : AddLoop} {hop : RouteHop}
    (hhop : req.route.hops[loop.i]? = some hop) :
    Transition req channels (.adding loop) (addHop req loop hop channels).1
      (addHop req loop hop channels).2.1 (addHop req loop hop channels).2.2 := by
  cases hc : channels.lookup hop.scid with
  | none =>
    simp only [addHop, hc]
    exact .addCritical hhop (.refl _) (by simp)
  | some c =>
    rcases c.addHtlc_cases loop.outgoingNode req.paymentHash
      ⟨loop.outgoingAmount, loop.outgoingCltv⟩ with ⟨err, hadd, hsane⟩ | ⟨fwdErr, hadd⟩ |
      ⟨s, hside, hacc, hadd⟩
    · simp only [addHop, hc, hadd]
      exact .addCritical hhop (sameChannels_insert hc) fun b cap h => ⟨c, hc, hsane b cap h⟩
    · simp only [addHop, hc, hadd]
      cases hidx : loop.failIdx with
      | none => exact .addRefusedFirst hhop (sameChannels_insert hc) hidx
      | some idx => exact .addRefused hhop (sameChannels_insert hc) hidx
    · have hpush : Pushed req.paymentHash (loop.offer hop (c.node s).index) c s channels
          (channels.insert hop.scid (c.pushHtlc s req.paymentHash
            ⟨loop.outgoingAmount, loop.outgoingCltv⟩)) := ⟨hc, hside, hacc, rfl, rfl⟩
      -- the forward check does not read the failure index, which has moved on by now
      have hloop : ∀ chs, checkForward req { loop with failIdx := some loop.i } hop chs
          = checkForward req loop hop chs := fun _ => rfl
      simp only [addHop, hc, hadd, hloop]
      cases hcheck : checkForward req loop hop (channels.insert hop.scid
          (c.pushHtlc s req.paymentHash ⟨loop.outgoingAmount, loop.outgoingCltv⟩)) with
      | error err => exact .forwardCritical hhop hpush hcheck
      | ok res =>
        cases res with
        | error fwdErr => exact .forwardRefused hhop hpush hcheck
        | ok u => exact .added hhop hpush hcheck

theorem interceptHop_transition {loop : AddLoop} {hop : RouteHop} {request : InterceptRequest}
    (answers : List (Except String InterceptResult)) (shutdown : Option Nat)
    (hhop : req.route.hops[loop.i]? = some hop) :
    Transition req channels (.intercepting loop request)
      (interceptHop req loop hop request answers shutdown).1 channels
      (interceptHop req loop hop request answers shutdown).2 := by
  unfold interceptHop
  cases handleInterceptedHtlc request req.interceptors answers shutdown with
  | error err => exact .interceptCritical hhop
  | ok res =>
    cases res with
    | error fwdErr =>
      cases hidx : loop.failIdx with
      | none => exact .interceptRefusedFirst hhop hidx
      | some idx => exact .interceptRefused hhop hidx
    | ok records =>
      by_cases hlt : loop.i + 1 < req.route.hops.length
      · simp only [if_pos hlt]
        exact .forwarded hhop hlt
      · have hlast : loop.i + 1 = req.route.hops.length := by
          have := lookup_lt hhop
          omega
        have hidx : req.route.hops.length - 1 = loop.i := by omega
        simp only [if_neg hlt, addsDone, hidx]
        exact .received hhop hlast

theorem removeHop_transition {loop : RemoveLoop} {hop : RouteHop}
    (hhop : req.route.hops[loop.i]? = some hop) :
    Transition req channels (.removing loop) (removeHop req loop hop channels).1
      (removeHop req loop hop channels).2.1 (removeHop req loop hop channels).2.2 := by
  cases hc : channels.lookup hop.scid with
  | none =>
    simp only [removeHop, hc]
    exact .removeCritical hhop (.refl _) (by simp) (by simp [hc])
  | some c =>
    rcases c.removeHtlc_cases (req.sender loop.i) req.paymentHash loop.success with
      ⟨err, hrem, hne, hnone⟩ | ⟨s, ⟨htlc, index⟩, hside, hentry, hrem⟩
    · simp only [removeHop, hc, hrem]
      refine .removeCritical hhop (sameChannels_insert hc) hne fun c' s hc' hside => ?_
      obtain rfl := Option.some.inj (hc.symm.trans hc')
      exact hnone s hside
    · have hpop : Popped req.paymentHash ⟨loop.i, req.sender loop.i, ⟨hop.scid, index⟩, htlc⟩
          loop.success c s channels (channels.insert hop.scid
            (c.popHtlc s req.paymentHash htlc.amountMsat loop.success)) := ⟨hc, hside, hentry, rfl⟩
      simp only [removeHop, hc, hrem]
      cases hsane : (c.popHtlc s req.paymentHash htlc.amountMsat loop.success).sanityCheck with
      | ok u =>
        simp only [Except.map]
        exact .removed hhop hpop
      | error err =>
        simp only [Except.map]
        refine .removedInsane hhop hpop fun hok => ?_
        -- removing keeps the sum that the sanity check reads
        have hok' : (c.popHtlc s req.paymentHash htlc.amountMsat loop.success).sanityCheck
            = .ok () := by
          rw [SimulatedChannel.sanityCheck_eq_ok] at hok ⊢
          have hbal := SimulatedChannel.balance_popHtlc hentry loop.success
          rw [hbal, hok, (SimulatedChannel.sameTerms_popHtlc c s _ _ _).capacityMsat]
        rw [hsane] at hok'
        cases hok'

/-- **What a step can do.** -/
theorem Step.transition {phase phase' : Phase} {events : List Event} {channels' : Channels}
    (h : Step req channels phase events channels' phase') :
    Transition req channels phase events channels' phase' := by
  cases h with
  | add hhop => exact addHop_transition hhop
  | intercept answers shutdown hhop hanswers =>
    exact interceptHop_transition answers shutdown hhop
  | remove hhop => exact removeHop_transition hhop
  | notify answer hnext =>
    cases answer with
    | error err => exact .notifyCritical hnext
    | ok u => exact .notified hnext
  | @advance loop resolution hop hhop =>
    cases hi : loop.i with
    | zero =>
      simp only [SimLn.removeNext, hi]
      exact .removedAll hi
    | succ i =>
      simp only [SimLn.removeNext, hi]
      exact .removeNext hhop hi

end SimLn
