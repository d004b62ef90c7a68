import SimLn.Types
import Mathlib.Data.UInt

/-!
# SimLn — simulated channels

`ChannelState` is one side of a channel: its balance, its *outgoing* HTLCs in flight and the
counter that numbers them. `SimulatedChannel` pairs the two sides and moves balance between
them as HTLCs are added, failed and settled. Both follow `sim_node.rs` function by function.
An operation that takes `&mut self` and can fail returns its result together with the channel it
leaves behind, since the source keeps the mutations made before an error.
-/

namespace SimLn

open Lib

/-! ## One side of a channel -/

structure ChannelState where
  localBalanceMsat : UInt64
  /-- Payment hash to the HTLC and the index that it was added at. -/
  inFlight : Table PaymentHash (Htlc × UInt64)
  policy : ChannelPolicy
  index : UInt64

namespace ChannelState

def new (policy : ChannelPolicy) (localBalanceMsat : UInt64) : ChannelState :=
  { localBalanceMsat, inFlight := ∅, policy, index := 0 }

/-- The sum of the outgoing HTLCs in flight, in `u64` arithmetic. -/
def inFlightTotal (self : ChannelState) : UInt64 :=
  self.inFlight.total fun h => h.1.amountMsat

/-- Checks a forward against the policy advertised for using this channel as outgoing link. -/
def checkHtlcForward (self : ChannelState) (cltvDelta : UInt32) (amt fee : UInt64) :
    ForwardResult :=
  if cltvDelta < self.policy.cltvExpiryDelta then
    .ok (.error (.insufficientCltvDelta cltvDelta self.policy.cltvExpiryDelta))
  else
    -- an overflow of `u64` is a critical error, not a refusal
    match (checkedMul amt self.policy.feeRateProp).bind
        fun propFee => checkedAdd (propFee / 1000000) self.policy.baseFee with
    | none => .error (.feeOverflow amt self.policy.baseFee self.policy.feeRateProp)
    | some expectedFee =>
      if fee < expectedFee then
        .ok (.error (.insufficientFee fee self.policy.baseFee self.policy.feeRateProp expectedFee))
      else
        .ok (.ok ())

/-- Checks whether an HTLC can be added as outgoing. Its size is checked against the sender's own
policy, the in-flight count and total against the counterparty's. -/
def checkOutgoingAddition (self : ChannelState) (htlc : Htlc)
    (counterpartyPolicy : ChannelPolicy) : Except ForwardingError Unit :=
  if htlc.amountMsat > self.policy.maxHtlcSizeMsat then
    .error (.moreThanMaximum htlc.amountMsat self.policy.maxHtlcSizeMsat)
  else if htlc.amountMsat < self.policy.minHtlcSizeMsat then
    .error (.lessThanMinimum htlc.amountMsat self.policy.minHtlcSizeMsat)
  else if UInt64.ofNat self.inFlight.size + 1 > counterpartyPolicy.maxHtlcCount then
    .error (.exceedsInFlightCount (UInt64.ofNat self.inFlight.size + 1)
      counterpartyPolicy.maxHtlcCount)
  else if self.inFlightTotal + htlc.amountMsat > counterpartyPolicy.maxInFlightMsat then
    .error (.exceedsInFlightTotal (self.inFlightTotal + htlc.amountMsat)
      counterpartyPolicy.maxInFlightMsat)
  else if htlc.amountMsat > self.localBalanceMsat then
    .error (.insufficientBalance htlc.amountMsat self.localBalanceMsat)
  else if htlc.cltvExpiry > 500000000 then
    .error (.expiryInSeconds htlc.cltvExpiry 500000000)
  else
    .ok ()

/-- Adds an HTLC to the outgoing set, one per payment hash, and takes it from the balance. -/
def addOutgoingHtlc (self : ChannelState) (hash : PaymentHash) (htlc : Htlc)
    (counterpartyPolicy : ChannelPolicy) :
    Except CriticalError (Except ForwardingError UInt64) × ChannelState :=
  match self.checkOutgoingAddition htlc counterpartyPolicy with
  | .error fwdErr => (.ok (.error fwdErr), self)
  | .ok () =>
    -- one HTLC for each hash: there are no multi-path payments
    if hash ∈ self.inFlight then
      (.error (.paymentHashExists hash), self)
    else
      (.ok (.ok self.index),
        { self with
          index := self.index + 1
          localBalanceMsat := self.localBalanceMsat - htlc.amountMsat
          inFlight := self.inFlight.insert hash (htlc, self.index) })

/-- Removes an HTLC from the outgoing set, failing if its hash is not found. -/
def removeOutgoingHtlc (self : ChannelState) (hash : PaymentHash) :
    Except CriticalError (Htlc × UInt64) × ChannelState :=
  match self.inFlight.lookup hash with
  | none => (.error (.paymentHashNotFound hash), self)
  | some htlc => (.ok htlc, { self with inFlight := self.inFlight.erase hash })

/-- The sender's side of a resolution: a failed HTLC returns to its balance. -/
def settleOutgoingHtlc (self : ChannelState) (amt : UInt64) (success : Bool) : ChannelState :=
  if success then self else { self with localBalanceMsat := self.localBalanceMsat + amt }

/-- The receiver's side of a resolution: a successful HTLC is added to its balance. -/
def settleIncomingHtlc (self : ChannelState) (amt : UInt64) (success : Bool) : ChannelState :=
  if success then { self with localBalanceMsat := self.localBalanceMsat + amt } else self

end ChannelState

/-! ## Both sides -/

structure SimulatedChannel where
  capacityMsat : UInt64
  shortChannelId : ShortChannelID
  node1 : ChannelState
  node2 : ChannelState
  excludeCapacity : Bool

namespace SimulatedChannel

/-- Creates a channel whose capacity is split evenly between its two nodes. -/
def new (capacityMsat : UInt64) (shortChannelId : ShortChannelID)
    (node1 node2 : ChannelPolicy) (excludeCapacity : Bool) : SimulatedChannel :=
  { capacityMsat
    shortChannelId
    node1 := .new node1 (capacityMsat / 2)
    node2 := .new node2 (capacityMsat / 2)
    excludeCapacity }

/-- Validates that a channel has distinct nodes and acceptable policies. -/
def validate (self : SimulatedChannel) : Except SimulationError Unit :=
  if self.node1.policy.pubkey = self.node2.policy.pubkey then
    .error (.simulatedNetworkError
      s!"Channel should have distinct node pubkeys, got: {self.node1.policy.pubkey} for both nodes.")
  else do
    self.node1.policy.validate self.capacityMsat
    self.node2.policy.validate self.capacityMsat

/-- `get_node` and, for what it selects, `get_node_mut`. -/
def getNode (self : SimulatedChannel) (pubkey : PublicKey) : Except CriticalError ChannelState :=
  if pubkey = self.node1.policy.pubkey then .ok self.node1
  else if pubkey = self.node2.policy.pubkey then .ok self.node2
  else .error (.nodeNotFound pubkey)

/-- The two sides' balances and HTLCs must add up to the capacity exactly. -/
def sanityCheck (self : SimulatedChannel) : Except CriticalError Unit :=
  let node1Total := self.node1.localBalanceMsat + self.node1.inFlightTotal
  let node2Total := self.node2.localBalanceMsat + self.node2.inFlightTotal
  let channelBalance := node1Total + node2Total
  if channelBalance ≠ self.capacityMsat then
    .error (.sanityCheckFailed channelBalance self.capacityMsat)
  else
    .ok ()

/-- Adds an HTLC to the side of the channel that `sendingNode` owns. -/
def addHtlc (self : SimulatedChannel) (sendingNode : PublicKey) (hash : PaymentHash)
    (htlc : Htlc) : Except CriticalError (Except ForwardingError UInt64) × SimulatedChannel :=
  if htlc.amountMsat = 0 then
    (.error .zeroAmountHtlc, self)
  else match self.sanityCheck with
  | .error err => (.error err, self)
  | .ok () =>
    if sendingNode = self.node1.policy.pubkey then
      let (res, sender) := self.node1.addOutgoingHtlc hash htlc self.node2.policy
      (res, { self with node1 := sender })
    else if sendingNode = self.node2.policy.pubkey then
      let (res, sender) := self.node2.addOutgoingHtlc hash htlc self.node1.policy
      (res, { self with node2 := sender })
    else
      (.error (.nodeNotFound sendingNode), self)

/-- Updates both balances once an HTLC sent by `sendingNode` has been resolved. -/
def settleHtlc (self : SimulatedChannel) (sendingNode : PublicKey) (amountMsat : UInt64)
    (success : Bool) : Except CriticalError Unit × SimulatedChannel :=
  if sendingNode = self.node1.policy.pubkey then
    (.ok (), { self with
      node1 := self.node1.settleOutgoingHtlc amountMsat success
      node2 := self.node2.settleIncomingHtlc amountMsat success })
  else if sendingNode = self.node2.policy.pubkey then
    (.ok (), { self with
      node2 := self.node2.settleOutgoingHtlc amountMsat success
      node1 := self.node1.settleIncomingHtlc amountMsat success })
  else
    (.error (.nodeNotFound sendingNode), self)

/-- `get_node_mut(sending_node)?.remove_outgoing_htlc(hash)`. -/
def removeOutgoing (self : SimulatedChannel) (sendingNode : PublicKey) (hash : PaymentHash) :
    Except CriticalError (Htlc × UInt64) × SimulatedChannel :=
  if sendingNode = self.node1.policy.pubkey then
    let (res, sender) := self.node1.removeOutgoingHtlc hash
    (res, { self with node1 := sender })
  else if sendingNode = self.node2.policy.pubkey then
    let (res, sender) := self.node2.removeOutgoingHtlc hash
    (res, { self with node2 := sender })
  else
    (.error (.nodeNotFound sendingNode), self)

/-- Removes an HTLC from the side that `sendingNode` owns and settles it by its success. -/
def removeHtlc (self : SimulatedChannel) (sendingNode : PublicKey) (hash : PaymentHash)
    (success : Bool) : Except CriticalError (Htlc × UInt64) × SimulatedChannel :=
  match self.removeOutgoing sendingNode hash with
  | (.error err, self) => (.error err, self)
  | (.ok htlc, self) =>
    match self.settleHtlc sendingNode htlc.1.amountMsat success with
    | (.error err, self) => (.error err, self)
    | (.ok (), self) =>
      -- too late to keep the HTLC: it is removed and settled whatever this says
      match self.sanityCheck with
      | .error err => (.error err, self)
      | .ok () => (.ok htlc, self)

/-- Checks a forward against the outgoing policy of `forwardingNode`. -/
def checkHtlcForward (self : SimulatedChannel) (forwardingNode : PublicKey) (cltvDelta : UInt32)
    (amountMsat feeMsat : UInt64) : ForwardResult :=
  match self.getNode forwardingNode with
  | .error err => .error err
  | .ok node => node.checkHtlcForward cltvDelta amountMsat feeMsat

end SimulatedChannel
end SimLn
