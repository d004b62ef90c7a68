import SimLn.Activity
import Mathlib.Data.List.Sort

/-!
# SimLn — random activity

Without activities of the user, every node with enough capacity pays random destinations at random
times. `NetworkGraphView` picks the destinations for all nodes, weighted by their capacity, and a
`RandomPaymentActivity` for each node picks times and amounts. `randomActivityNodes` sets them up
from what the nodes report.

The generators, the distributions and floating-point arithmetic come from outside this repository,
and so does the order in which a hash map is iterated over; they are parameters.
-/

namespace SimLn

open Lib

def secondsPerMonth : UInt64 := 30 * 24 * 60 * 60

/-- The operations on `f64` that random activity uses. Its literals are whole numbers. -/
structure Float64 (F : Type) where
  ofU64 : UInt64 → F
  /-- The cast `as u64`. -/
  toU64 : F → UInt64
  mul : F → F → F
  div : F → F → F
  sub : F → F → F
  ln : F → F
  sqrt : F → F
  eq : F → F → Bool
  lt : F → F → Bool
  display : F → String

/-- A source of random numbers in state `σ` and the distributions sampled with it. -/
structure Rand (F σ : Type) where
  seedFromU64 : UInt64 → σ
  /-- What a hasher in its default state makes of a vector of bytes. -/
  hash : List UInt8 → UInt64
  /-- Indices of a list of weights. -/
  weightedIndex : (weights : List UInt64) → Except String (σ → Fin weights.length × σ)
  exp : F → Except String (σ → F × σ)
  logNormal : F → F → Except String (σ → F × σ)

inductive RandomActivityError where
  | valueError (message : String)
  | insufficientCapacity (message : String)
  deriving DecidableEq, Repr

/-- The bytes of a key, 33 of them. -/
def PublicKey.serialize (self : PublicKey) : List UInt8 :=
  (List.range 33).map fun i => UInt8.ofNat (self.serialized / 256 ^ (32 - i))

def toLeBytes (n : UInt64) : List UInt8 :=
  (List.range 8).map fun i => UInt8.ofNat (n.toNat / 256 ^ i)

/-- `MutRng::new`. Without a seed, `random` is drawn instead; a key salts the seed. -/
def mutRng {F σ : Type} (rand : Rand F σ) (seedOpt : Option (UInt64 × Option PublicKey))
    (random : UInt64) : σ :=
  rand.seedFromU64 <|
    match seedOpt with
    -- the salt: every node draws from a stream of its own
    | some (seed, some pubkey) => rand.hash (pubkey.serialize ++ toLeBytes seed)
    | some (seed, none) => seed
    | none => random

/-- The generators of random activity: one that the network view draws from, and one for each
node. -/
structure RandomState (σ : Type) where
  network : σ
  node : PublicKey → σ

/-- All generators, newly created. `random` and `randomOf` are drawn if there is no seed. -/
def RandomState.new {F σ : Type} (rand : Rand F σ) (seed : Option UInt64) (random : UInt64)
    (randomOf : PublicKey → UInt64) : RandomState σ where
  network := mutRng rand (seed.map fun seed => (seed, none)) random
  node pubkey := mutRng rand (seed.map fun seed => (seed, some pubkey)) (randomOf pubkey)

variable {F σ : Type}

/-! ## Destinations -/

/-- The nodes, sorted by their keys, and the sampler of their indices. -/
structure NetworkGraphView (σ : Type) where
  nodes : List (NodeInfo × UInt64)
  nodePicker : σ → Fin nodes.length × σ

namespace NetworkGraphView

/-- The view of nodes that are sorted already. -/
def ofSorted (rand : Rand F σ) (sorted : List (NodeInfo × UInt64)) :
    Except RandomActivityError (NetworkGraphView σ) :=
  match rand.weightedIndex (sorted.map (·.2)) with
  | .error e => .error (.valueError e)
  | .ok picker => .ok
      { nodes := sorted
        nodePicker := fun rng =>
          let (index, rng) := picker rng
          (index.cast (List.length_map _), rng) }

def new (rand : Rand F σ) (nodes : List (NodeInfo × UInt64)) :
    Except RandomActivityError (NetworkGraphView σ) :=
  if nodes.length < 2 then
    .error (.valueError "at least two nodes required for activity generation")
  else if nodes.any (·.2 = 0) then
    .error (.insufficientCapacity "network generator created with zero capacity node")
  else
    -- sorted, so that the order of the map does not reach the weights
    ofSorted rand (nodes.insertionSort fun n1 n2 => n1.1.pubkey ≤ n2.1.pubkey)

/-- Samples until the node is not `source`. The loop of the source has no limit; a sample that is not
found in `attempts` of its rounds is out of attempts, which the source never is. -/
def chooseDestination (self : NetworkGraphView σ) (source : PublicKey) :
    (attempts : Nat) → σ → Except DestinationGenerationError ((NodeInfo × UInt64) × σ)
  | 0, _ => .error .outOfAttempts
  | attempts + 1, rng =>
    let (index, rng) := self.nodePicker rng
    let node := self.nodes.get index
    -- drawing the source itself uses the shared generator up all the same
    if node.1.pubkey ≠ source then .ok (node, rng)
    else self.chooseDestination source attempts rng

def destinationGenerator (self : NetworkGraphView σ) (attempts : Nat) :
    DestinationGenerator (RandomState σ) where
  chooseDestination source g :=
    match self.chooseDestination source attempts g.network with
    | .error e => .error e
    | .ok ((node, capacity), network) => .ok ((node, some capacity), { g with network })

end NetworkGraphView

/-! ## Times and amounts -/

structure RandomPaymentActivity (F σ : Type) where
  expectedPaymentAmt : UInt64
  sourceCapacity : UInt64
  eventDist : σ → F × σ

/-- The number of payments that a node is expected to make in a month. -/
def eventsPerMonth (f : Float64 F) (sourceCapacityMsat : UInt64) (multiplier : F)
    (expectedPaymentAmt : UInt64) : F :=
  f.div (f.mul (f.ofU64 sourceCapacityMsat) multiplier) (f.ofU64 expectedPaymentAmt)

namespace RandomPaymentActivity

/-- Validates that payments can be generated with the node's capacity. -/
def validateCapacity (nodeCapacityMsat expectedPaymentAmt : UInt64) :
    Except RandomActivityError Unit :=
  let minRequiredCapacity := 2 * expectedPaymentAmt
  if nodeCapacityMsat < minRequiredCapacity then
    .error (.insufficientCapacity
      s!"node needs at least {minRequiredCapacity} capacity (has: {nodeCapacityMsat}) to process expected payment amount: {expectedPaymentAmt}")
  else
    .ok ()

def new (f : Float64 F) (rand : Rand F σ) (sourceCapacityMsat expectedPaymentAmt : UInt64)
    (multiplier : F) : Except RandomActivityError (RandomPaymentActivity F σ) :=
  if sourceCapacityMsat = 0 then
    .error (.valueError "source_capacity_msat cannot be zero")
  else if expectedPaymentAmt = 0 then
    .error (.valueError "expected_payment_amt cannot be zero")
  else if f.eq multiplier (f.ofU64 0) then
    .error (.valueError "multiplier cannot be zero")
  else
    match validateCapacity sourceCapacityMsat expectedPaymentAmt with
    | .error e => .error e
    | .ok () =>
      let lamda := f.div (eventsPerMonth f sourceCapacityMsat multiplier expectedPaymentAmt)
        (f.ofU64 secondsPerMonth)
      match rand.exp lamda with
      | .error e => .error (.valueError e)
      | .ok eventDist => .ok
          { expectedPaymentAmt, sourceCapacity := sourceCapacityMsat, eventDist }

/-- The amount of a payment to a node of the given capacity, drawn with the generator `rng`. -/
def paymentAmount (f : Float64 F) (rand : Rand F σ) (self : RandomPaymentActivity F σ)
    (destinationCapacity : Option UInt64) (rng : σ) : Except PaymentGenerationError (UInt64 × σ) :=
  match destinationCapacity with
  | none => .error ⟨"destination amount required for payment activity generator"⟩
  | some destinationCapacity =>
    let paymentLimit := min self.sourceCapacity destinationCapacity / 2
    let lnPmtAmt := f.ln (f.ofU64 self.expectedPaymentAmt)
    let lnLimit := f.ln (f.ofU64 paymentLimit)
    let mu := f.sub (f.mul (f.ofU64 2) lnPmtAmt) lnLimit
    let sigmaSquare := f.mul (f.ofU64 2) (f.sub lnLimit lnPmtAmt)
    if f.lt sigmaSquare (f.ofU64 0) then
      .error ⟨s!"payment amount not possible for limit: {paymentLimit}, sigma squared: {f.display sigmaSquare}"⟩
    else
      match rand.logNormal mu (f.sqrt sigmaSquare) with
      | .error e => .error ⟨e⟩
      | .ok logNormal =>
        let (amount, rng) := logNormal rng
        .ok (f.toU64 amount, rng)

/-- The generator of the node with key `pubkey`, which draws from that node's random numbers. -/
def paymentGenerator (f : Float64 F) (rand : Rand F σ) (self : RandomPaymentActivity F σ)
    (pubkey : PublicKey) : PaymentGenerator (RandomState σ) where
  paymentStart := none
  paymentCount := none
  -- the wait is drawn as a float and truncated to whole seconds
  nextPaymentWait g :=
    let (secs, rng) := self.eventDist (g.node pubkey)
    .ok (.fromSecs (f.toU64 secs).toNat, { g with node := Function.update g.node pubkey rng })
  paymentAmount destinationCapacity g :=
    match self.paymentAmount f rand destinationCapacity (g.node pubkey) with
    | .error e => .error e
    | .ok (amount, rng) => .ok (amount, { g with node := Function.update g.node pubkey rng })

end RandomPaymentActivity

/-! ## Setting up -/

/-- What a node answers when it is asked for the sum of its channels' capacities and for its info. -/
structure NodeReport where
  channelCapacities : Except LightningError UInt64
  nodeInfo : Except LightningError NodeInfo

/-- The part of the simulation's configuration that random activity reads, but for the seed. -/
structure RandomActivityCfg (F : Type) where
  expectedPaymentMsat : UInt64
  activityMultiplier : F

/-- The errors of setting up random activity. -/
inductive RandomActivitySetupError where
  | lightningError (error : LightningError)
  | randomActivityError (error : RandomActivityError)
  deriving DecidableEq, Repr

/-- The first pass: a node with enough capacity becomes active, with half of it, since each channel
reports the balance of both of its nodes. -/
def activeNodes (expectedPaymentMsat : UInt64) (active : Table PublicKey (NodeInfo × UInt64))
    (node : NodeReport) : Except LightningError (Table PublicKey (NodeInfo × UInt64)) :=
  match node.channelCapacities with
  | .error e => .error e
  | .ok chanCapacity =>
    match RandomPaymentActivity.validateCapacity chanCapacity expectedPaymentMsat with
    -- too little capacity is no error: the node stays passive
    | .error _ => .ok active
    | .ok () =>
      match node.nodeInfo with
      | .error e => .error e
      | .ok nodeInfo => .ok (active.insert nodeInfo.pubkey (nodeInfo, chanCapacity / 2))

/-- The executor of one active node. -/
def randomExecutor (f : Float64 F) (rand : Rand F σ) (cfg : RandomActivityCfg F) (attempts : Nat)
    (networkGenerator : NetworkGraphView σ) (node : NodeInfo × UInt64) :
    Except RandomActivityError (ExecutorKit (RandomState σ)) :=
  match RandomPaymentActivity.new f rand node.2 cfg.expectedPaymentMsat cfg.activityMultiplier with
  | .error e => .error e
  | .ok activity => .ok
      { sourceInfo := node.1
        networkGenerator := networkGenerator.destinationGenerator attempts
        paymentGenerator := activity.paymentGenerator f rand node.1.pubkey }

/-- The executors of random activity. `nodes` are the nodes in the order that their map is iterated
in, and `values` gives the order for the map of active nodes. -/
def randomActivityNodes (f : Float64 F) (rand : Rand F σ) (cfg : RandomActivityCfg F)
    (attempts : Nat) (nodes : List NodeReport)
    (values : List (NodeInfo × UInt64) → List (NodeInfo × UInt64)) :
    Except RandomActivitySetupError (List (ExecutorKit (RandomState σ))) :=
  match nodes.foldlM (activeNodes cfg.expectedPaymentMsat) ∅ with
  | .error e => .error (.lightningError e)
  | .ok active =>
    let active := values (active.entries.map Sigma.snd)
    match NetworkGraphView.new rand active with
    | .error e => .error (.randomActivityError e)
    | .ok networkGenerator =>
      (active.mapM (randomExecutor f rand cfg attempts networkGenerator)).mapError
        .randomActivityError

end SimLn
