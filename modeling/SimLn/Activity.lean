import SimLn.Clock
import SimLn.Types

/-!
# SimLn — activities and what generates their payments

The two generator interfaces of the library and the executor kits that hold them. All generators
of a simulation, and the thread's random numbers, share one state `γ` that each draw passes on, so
that generators of different nodes may read the same source of randomness.

Defined activities are validated and turned into executor kits as a user describes them.
-/

namespace SimLn

open Lib

/-- Picks the destination of a node's next payment, with its capacity if known. -/
structure DestinationGenerator (γ : Type) where
  chooseDestination : PublicKey → γ →
    Except DestinationGenerationError ((NodeInfo × Option UInt64) × γ)

/-- Every choice comes back. What loops in the source finds a destination in the attempts allowed. -/
def DestinationGenerator.Returns {γ : Type} (generator : DestinationGenerator γ) : Prop :=
  ∀ source g, generator.chooseDestination source g ≠ .error .outOfAttempts

/-- Picks when a node pays, how often and how much. -/
structure PaymentGenerator (γ : Type) where
  paymentStart : Option Duration
  paymentCount : Option UInt64
  nextPaymentWait : γ → Except PaymentGenerationError (Duration × γ)
  paymentAmount : Option UInt64 → γ → Except PaymentGenerationError (UInt64 × γ)

/-- The components that execute one activity. -/
structure ExecutorKit (γ : Type) where
  sourceInfo : NodeInfo
  networkGenerator : DestinationGenerator γ
  paymentGenerator : PaymentGenerator γ

/-- The key of the node that pays. -/
def ExecutorKit.source {γ : Type} (ex : ExecutorKit γ) : PublicKey := ex.sourceInfo.pubkey

/-- The number of payments to dispatch, if there is a limit. -/
def ExecutorKit.count {γ : Type} (ex : ExecutorKit γ) : Option Nat :=
  ex.paymentGenerator.paymentCount.map UInt64.toNat

/-- Sampling from a half-open range with the thread's random numbers. An empty range panics in the
code; file parsing only lets increasing ranges through. -/
structure ThreadRng (γ : Type) where
  genRangeU16 : UInt16 → UInt16 → γ → UInt16 × γ
  genRangeU64 : UInt64 → UInt64 → γ → UInt64 × γ
  genRangeU16_mem : ∀ {lo hi : UInt16} (g : γ), lo < hi →
    lo ≤ (genRangeU16 lo hi g).1 ∧ (genRangeU16 lo hi g).1 < hi
  genRangeU64_mem : ∀ {lo hi : UInt64} (g : γ), lo < hi →
    lo ≤ (genRangeU64 lo hi g).1 ∧ (genRangeU64 lo hi g).1 < hi

/-- A fixed value or a range `[min, max)` that values are sampled from. -/
inductive ValueOrRange (α : Type) where
  | fixed (x : α)
  | range (min max : α)
  deriving DecidableEq, Repr

/-- The fixed value, or a sample of the range. -/
def ValueOrRange.value {α γ : Type} (genRange : α → α → γ → α × γ) :
    ValueOrRange α → γ → α × γ
  | .fixed x, g => (x, g)
  | .range min max, g => genRange min max g

/-- What the simulation file may hold: a range that is not empty. -/
def ValueOrRange.deserialize {α : Type} [LE α] [DecidableLE α] [ToString α] (a : ValueOrRange α) :
    Except String (ValueOrRange α) :=
  match a with
  | .fixed _ => .ok a
  | .range x y =>
    if y ≤ x then
      .error ("Cannot parse range. Ranges must be strictly increasing (i.e. [x, y] with x > y). "
        ++ s!"Received [{x}, {y}]")
    else
      .ok a

/-- An activity as the simulation is given it. -/
structure ActivityDefinition where
  source : NodeInfo
  destination : NodeInfo
  startSecs : Option UInt16
  count : Option UInt64
  intervalSecs : ValueOrRange UInt16
  amountMsat : ValueOrRange UInt64
  deriving DecidableEq, Repr

structure DefinedPaymentActivity where
  destination : NodeInfo
  start : Option Duration
  count : Option UInt64
  wait : ValueOrRange UInt16
  amount : ValueOrRange UInt64

namespace DefinedPaymentActivity

variable {γ : Type}

/-- A defined activity always pays the same node, whose capacity it does not report. -/
def destinationGenerator (self : DefinedPaymentActivity) : DestinationGenerator γ where
  chooseDestination _ g := .ok ((self.destination, none), g)

theorem returns_destinationGenerator (self : DefinedPaymentActivity) :
    (self.destinationGenerator : DestinationGenerator γ).Returns :=
  nofun

def paymentGenerator (self : DefinedPaymentActivity) (rng : ThreadRng γ) : PaymentGenerator γ where
  paymentStart := self.start
  paymentCount := self.count
  nextPaymentWait g :=
    let (secs, g) := self.wait.value rng.genRangeU16 g
    .ok (.fromSecs secs.toNat, g)
  paymentAmount destinationCapacity g :=
    if destinationCapacity.isSome then
      .error ⟨"destination amount must not be set for defined activity generator"⟩
    else
      .ok (self.amount.value rng.genRangeU64 g)

end DefinedPaymentActivity

/-- Validates one payment flow against the nodes of the simulation. -/
def validatePaymentFlow {γ : Type} (rng : ThreadRng γ) (nodes : Table PublicKey NodeInfo) (g : γ)
    (flow : ActivityDefinition) : Except LightningError γ :=
  let (amount, g) := flow.amountMsat.value rng.genRangeU64 g
  if amount = 0 then
    .error (.validationError "We do not allow defined activity amount_msat with zero values")
  else if flow.source.pubkey ∉ nodes then
    .error (.validationError s!"Source node not found, {flow.source}")
  else if !flow.destination.features.keysend then
    .error (.validationError s!"Destination node does not support keysend, {flow.destination}")
  else
    .ok g

/-- Validates that the user's activity can be executed on the nodes of the simulation; without
any, that the nodes are fit for random activity. -/
def validateActivity {γ : Type} (rng : ThreadRng γ) (nodes : Table PublicKey NodeInfo)
    (activity : List ActivityDefinition) (g : γ) : Except LightningError γ :=
  if activity.isEmpty && nodes.size ≤ 1 then
    .error (.validationError "At least two nodes required for random activity generation.")
  else
    match if activity.isEmpty then nodes.entries.find? (!·.2.features.keysend) else none with
    | some node => .error (.validationError
        s!"All nodes eligible for random activity generation must support keysend, {node.2} does not")
    | none => activity.foldlM (validatePaymentFlow rng nodes) g

/-- The executor of a defined activity. -/
def ActivityDefinition.executor {γ : Type} (rng : ThreadRng γ) (description : ActivityDefinition) :
    ExecutorKit γ :=
  let activityGenerator : DefinedPaymentActivity :=
    { destination := description.destination
      start := description.startSecs.map fun start => .fromSecs start.toNat
      count := description.count
      wait := description.intervalSecs
      amount := description.amountMsat }
  { sourceInfo := description.source
    networkGenerator := activityGenerator.destinationGenerator
    paymentGenerator := activityGenerator.paymentGenerator rng }

/-- One executor for each defined activity, in order: the branch of `activity_executors` for a
user who describes some. -/
def activityExecutors {γ : Type} (rng : ThreadRng γ) (activity : List ActivityDefinition) :
    List (ExecutorKit γ) :=
  activity.map (·.executor rng)

/-- What validation has checked of each flow it accepts. -/
theorem validatePaymentFlow_ok {γ : Type} {rng : ThreadRng γ} {nodes : Table PublicKey NodeInfo}
    {g g' : γ} {flow : ActivityDefinition} (h : validatePaymentFlow rng nodes g flow = .ok g') :
    (flow.amountMsat.value rng.genRangeU64 g).1 ≠ 0 ∧ flow.source.pubkey ∈ nodes ∧
      flow.destination.features.keysend = true := by
  simp only [validatePaymentFlow] at h
  split_ifs at h with hzero hsource hkeysend
  exact ⟨hzero, hsource, by simpa using hkeysend⟩

end SimLn
