import SimLn.Lib.Table
import Mathlib.Order.Basic

/-!
# SimLn — the data carried by simulated payments

Identifiers, HTLCs, channel policies, the error types of the simulated network and of the library,
and the outcome of a payment. Amounts are `u64` and expiries `u32`, with the wrapping arithmetic of a
release build; maps from the source are `Table`s.
-/

namespace SimLn

open Lib

/-- `n` in lower-case hexadecimal, with leading zeros up to `width` digits. -/
def hex (width n : Nat) : String :=
  let digits := Nat.toDigits 16 n
  String.ofList (List.replicate (width - digits.length) '0' ++ digits)

/-- A node's public key, as the number its compressed serialization spells. Keys compare by
that serialization. -/
structure PublicKey where
  serialized : Nat
  deriving Repr

instance : ToString PublicKey where
  toString pk := hex 66 pk.serialized

instance : LinearOrder PublicKey :=
  LinearOrder.lift' PublicKey.serialized fun a b h => by cases a; cases b; cases h; rfl

structure PaymentHash where
  bytes : BitVec 256
  deriving DecidableEq, Repr

/-- `ShortChannelID(u64)`. -/
structure ShortChannelID where
  id : UInt64
  deriving DecidableEq, Repr

/-- The one node feature the simulator reads. -/
structure NodeFeatures where
  keysend : Bool
  deriving DecidableEq, Repr

structure NodeInfo where
  pubkey : PublicKey
  aliasName : String
  features : NodeFeatures
  deriving DecidableEq, Repr

/-- A node is shown by its alias, if it has one, and the two ends of its key. -/
instance : ToString NodeInfo where
  toString node :=
    let pk := (toString node.pubkey).toList
    let summary := s!"{String.ofList (pk.take 6)}...{String.ofList (pk.drop (pk.length - 6))}"
    if node.aliasName = "" then summary else s!"{node.aliasName}({summary})"

/-- The node info of a simulated node, which always supports keysend. -/
def nodeInfo (pubkey : PublicKey) (aliasName : String) : NodeInfo :=
  { pubkey, aliasName, features := ⟨true⟩ }

/-- Custom records attached to an HTLC, by TLV type. -/
abbrev CustomRecords := Table UInt64 (List UInt8)

inductive ForwardingError where
  | insufficientBalance (amount balance : UInt64)
  | lessThanMinimum (amount minimum : UInt64)
  | moreThanMaximum (amount maximum : UInt64)
  | exceedsInFlightCount (count maximum : UInt64)
  | exceedsInFlightTotal (total maximum : UInt64)
  | expiryInSeconds (cltvExpiry maximum : UInt32)
  | insufficientCltvDelta (cltvDelta minimum : UInt32)
  | insufficientFee (fee baseFee propFee expectedFee : UInt64)
  | interceptorError (message : String)
  deriving DecidableEq, Repr

inductive CriticalError where
  | zeroAmountHtlc
  | channelNotFound (scid : ShortChannelID)
  | nodeNotFound (pubkey : PublicKey)
  | paymentHashExists (hash : PaymentHash)
  | paymentHashNotFound (hash : PaymentHash)
  | feeOverflow (amount baseFee propFee : UInt64)
  | sanityCheckFailed (balance capacity : UInt64)
  | duplicateCustomRecord (key : UInt64)
  | interceptorError (message : String)
  deriving DecidableEq, Repr

/-- The errors of a lightning node's calls: those that a simulated node or validation returns and
the permanent one, which ends the simulation. -/
inductive LightningError where
  | sendPaymentError (message : String)
  | trackPaymentError (message : String)
  | getNodeInfoError (message : String)
  | systemTimeConversionError
  | validationError (message : String)
  | permanentError (message : String)
  | getGraphError (message : String)
  deriving DecidableEq, Repr

structure PaymentGenerationError where
  message : String
  deriving DecidableEq, Repr

/-- Where the source loops without limit until it has a destination, there is one more outcome than the
source has. -/
inductive DestinationGenerationError where
  | error (message : String)
  /-- The loop is still going on after the attempts that are allowed here. -/
  | outOfAttempts
  deriving DecidableEq, Repr

/-- The variants of the library's error type that building a simulated network, scheduling
payments and sending them return. -/
inductive SimulationError where
  | lightningError (error : LightningError)
  | simulatedNetworkError (message : String)
  | missingNodeError (message : String)
  | mpscChannelError (message : String)
  | paymentGenerationError (error : PaymentGenerationError)
  | destinationGenerationError (error : DestinationGenerationError)
  deriving DecidableEq, Repr

/-- `Ok(Ok(()))`, `Ok(Err(forwarding error))` or `Err(critical error)`. -/
abbrev ForwardResult := Except CriticalError (Except ForwardingError Unit)

structure Htlc where
  amountMsat : UInt64
  cltvExpiry : UInt32
  deriving DecidableEq, Repr

/-- One node's forwarding policy and restrictions on a channel. -/
structure ChannelPolicy where
  pubkey : PublicKey
  aliasName : String
  maxHtlcCount : UInt64
  maxInFlightMsat : UInt64
  minHtlcSizeMsat : UInt64
  maxHtlcSizeMsat : UInt64
  cltvExpiryDelta : UInt32
  baseFee : UInt64
  feeRateProp : UInt64
  deriving DecidableEq, Repr

/-- Validates that the channel policy is acceptable for the size of the channel. -/
def ChannelPolicy.validate (self : ChannelPolicy) (capacityMsat : UInt64) :
    Except SimulationError Unit :=
  if self.maxInFlightMsat > capacityMsat then
    .error (.simulatedNetworkError
      s!"max_in_flight_msat {self.maxInFlightMsat} > capacity {capacityMsat}")
  else if self.maxHtlcSizeMsat > capacityMsat then
    .error (.simulatedNetworkError
      s!"max_htlc_size_msat {self.maxHtlcSizeMsat} > capacity {capacityMsat}")
  else
    .ok ()

/-- The identifier under which an HTLC is presented to interceptors. -/
@[ext] structure HtlcRef where
  channelId : ShortChannelID
  index : UInt64
  deriving DecidableEq, Repr

inductive PaymentOutcome where
  | success
  | recipientRejected
  | userAbandoned
  | retriesExhausted
  | paymentExpired
  | routeNotFound
  | unexpectedError
  | incorrectPaymentDetails
  | insufficientBalance
  | unknown
  | notDispatched
  | trackPaymentFailed
  | indexFailure (index : Nat)
  deriving DecidableEq, Repr

structure PaymentResult where
  htlcCount : Nat
  paymentOutcome : PaymentOutcome
  deriving DecidableEq, Repr

def PaymentResult.notDispatched : PaymentResult := ⟨0, .notDispatched⟩

def PaymentResult.trackPaymentFailed : PaymentResult := ⟨0, .trackPaymentFailed⟩

/-- `u64::checked_mul`. -/
def checkedMul (a b : UInt64) : Option UInt64 :=
  if a.toNat * b.toNat < 2 ^ 64 then some (a * b) else none

/-- `u64::checked_add`. -/
def checkedAdd (a b : UInt64) : Option UInt64 :=
  if a.toNat + b.toNat < 2 ^ 64 then some (a + b) else none

theorem toNat_of_checkedMul {a b c : UInt64} (h : checkedMul a b = some c) :
    c.toNat = a.toNat * b.toNat := by
  unfold checkedMul at h
  split at h
  · obtain rfl := Option.some.inj h
    rw [UInt64.toNat_mul, Nat.mod_eq_of_lt (by assumption)]
  · cases h

theorem toNat_of_checkedAdd {a b c : UInt64} (h : checkedAdd a b = some c) :
    c.toNat = a.toNat + b.toNat := by
  unfold checkedAdd at h
  split at h
  · obtain rfl := Option.some.inj h
    rw [UInt64.toNat_add, Nat.mod_eq_of_lt (by assumption)]
  · cases h

theorem checkedMul_eq_none {a b : UInt64} :
    checkedMul a b = none ↔ ¬ a.toNat * b.toNat < 2 ^ 64 := by
  unfold checkedMul
  split
  next h => simp only [h, not_true_eq_false, reduceCtorEq]
  next h => simp only [h, not_false_eq_true]

theorem checkedAdd_eq_none {a b : UInt64} :
    checkedAdd a b = none ↔ ¬ a.toNat + b.toNat < 2 ^ 64 := by
  unfold checkedAdd
  split
  next h => simp only [h, not_true_eq_false, reduceCtorEq]
  next h => simp only [h, not_false_eq_true]

end SimLn
