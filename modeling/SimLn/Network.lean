import SimLn.Gossip
import SimLn.Node
import Mathlib.Algebra.Order.BigOperators.Group.List

/-!
# SimLn — a simulation on a simulated network

`createSimulationWithNetwork` builds the channels that the simulation file describes, the graph of
them and a node for each of their keys. Excluded nodes are part of the graph and forward payments, but
the simulation is not given them, and the channels that they are part of do not count towards the
capacity of any node.
-/

namespace SimLn

open Lib

/-- A channel as the simulation file describes it. -/
structure NetworkParser where
  scid : ShortChannelID
  capacityMsat : UInt64
  node1 : ChannelPolicy
  node2 : ChannelPolicy

/-- The channel of the simulated network. -/
def NetworkParser.simulatedChannel (exclude : List PublicKey) (channel : NetworkParser) :
    SimulatedChannel :=
  .new channel.capacityMsat channel.scid channel.node1 channel.node2
    (exclude.contains channel.node1.pubkey || exclude.contains channel.node2.pubkey)

namespace SimGraph

/-- A node's information and the capacities of its channels that count. -/
def lookupNode (self : SimGraph) (node : PublicKey) :
    Except LightningError (NodeInfo × List UInt64) :=
  match self.nodes.lookup node with
  | none => .error (.getNodeInfoError s!"Node {node} not found")
  | some (info, scids) =>
    .ok (info, ((scids.filterMap self.channels.lookup).filter (!·.excludeCapacity)).map
      (·.capacityMsat))

/-- A simulated node for each node of the graph. -/
def lnNodeFromGraph (self : SimGraph) : Table PublicKey SimNode :=
  Table.mapValues (fun node => { info := node.1, inFlight := ∅ }) self.nodes

end SimGraph

namespace SimNode

def getNodeInfo (network : SimGraph) (nodeId : PublicKey) : Except LightningError NodeInfo :=
  (network.lookupNode nodeId).map (·.1)

/-- The sum of the node's channels, in `u64`. -/
def channelCapacities (self : SimNode) (network : SimGraph) : Except LightningError UInt64 :=
  (network.lookupNode self.info.pubkey).map (·.2.sum)

end SimNode

/-- The errors of creating a simulation that are modelled, which the code wraps into one kind with
their debug output. -/
inductive CreateSimulationError (ε : Type) where
  | simGraph (error : SimulationError)
  | routingGraph (error : ε)

/-- Creates a simulation on a simulated network: its graph and the nodes that it is run with. The
activities that the file describes are validated after that. -/
def createSimulationWithNetwork {γ ε : Type} (routing : RoutingGraph γ ε) (clock : Nat → UInt32)
    (simNetwork : List NetworkParser) (exclude : List PublicKey) (interceptors : List Interceptor)
    (customRecords : CustomRecords) :
    Except (CreateSimulationError ε) (SimGraph × Table PublicKey SimNode) :=
  let channels := simNetwork.map (·.simulatedChannel exclude)
  match SimGraph.new channels interceptors customRecords with
  | .error e => .error (.simGraph e)
  | .ok simulationGraph =>
    match populateNetworkGraph routing channels clock with
    | .error e => .error (.routingGraph e)
    | .ok _ =>
      .ok (simulationGraph,
        exclude.foldl (fun nodesDyn pk => nodesDyn.erase pk) simulationGraph.lnNodeFromGraph)

/-! ## The channels of a node -/

def SimulatedChannel.touches (c : SimulatedChannel) (key : PublicKey) : Bool :=
  c.node1.policy.pubkey = key || c.node2.policy.pubkey = key

namespace SimGraph

/-- The ids recorded under a key, none for a key that is not there. -/
def scidsOf (nodes : Nodes) (key : PublicKey) : List ShortChannelID :=
  ((nodes.lookup key).map (·.2)).getD []

theorem scidsOf_addNode (nodes : Nodes) (info : ChannelPolicy) (scid : ShortChannelID)
    (key : PublicKey) : scidsOf (addNode nodes info scid) key
      = scidsOf nodes key ++ if info.pubkey = key then [scid] else [] := by
  unfold addNode scidsOf
  by_cases hkey : info.pubkey = key
  · rw [if_pos hkey, ← hkey]
    cases nodes.lookup info.pubkey with
    | none => simp [AList.lookup_insert]
    | some node => simp [AList.lookup_insert]
  · rw [if_neg hkey, List.append_nil]
    cases nodes.lookup info.pubkey with
    | none => simp [AList.lookup_insert_ne (Ne.symm hkey)]
    | some node => simp [AList.lookup_insert_ne (Ne.symm hkey)]

/-- The info of each node carries the key that it is recorded under. -/
def KeysMatch (nodes : Nodes) : Prop :=
  ∀ key node, nodes.lookup key = some node → node.1.pubkey = key

theorem KeysMatch.addNode {nodes : Nodes} (h : KeysMatch nodes) (info : ChannelPolicy)
    (scid : ShortChannelID) : KeysMatch (addNode nodes info scid) := by
  intro key node hnode
  unfold SimGraph.addNode at hnode
  cases hold : nodes.lookup info.pubkey with
  | none =>
    rw [hold] at hnode
    rcases Table.lookup_insert_cases hnode with ⟨rfl, rfl⟩ | ⟨-, hnode⟩
    · rfl
    · exact h key node hnode
  | some old =>
    rw [hold] at hnode
    rcases Table.lookup_insert_cases hnode with ⟨rfl, rfl⟩ | ⟨-, hnode⟩
    · exact h info.pubkey old hold
    · exact h key node hnode

/-- An accepted channel has two nodes. -/
theorem pubkey_ne_of_validate {channel : SimulatedChannel} (h : channel.validate = .ok ()) :
    channel.node1.policy.pubkey ≠ channel.node2.policy.pubkey := by
  intro heq
  unfold SimulatedChannel.validate at h
  rw [if_pos heq] at h
  cases h

theorem foldlM_addChannel_nodes {list : List SimulatedChannel} {acc acc' : Nodes × Channels}
    (h : list.foldlM addChannel acc = .ok acc') (hmatch : KeysMatch acc.1) :
    KeysMatch acc'.1 ∧ ∀ key, scidsOf acc'.1 key
      = scidsOf acc.1 key ++ (list.filter (·.touches key)).map (·.shortChannelId) := by
  induction list generalizing acc with
  | nil =>
    obtain rfl : acc = acc' := Except.ok.inj h
    exact ⟨hmatch, by simp⟩
  | cons channel rest ih =>
    obtain ⟨mid, hadd, hrest⟩ := foldlM_cons_ok h
    obtain ⟨hvalid, -, rfl⟩ := addChannel_eq_ok hadd
    have hne := pubkey_ne_of_validate hvalid
    obtain ⟨hkeys, hscids⟩ := ih hrest ((hmatch.addNode _ _).addNode _ _)
    refine ⟨hkeys, fun key => ?_⟩
    rw [hscids key, scidsOf_addNode, scidsOf_addNode, List.filter_cons]
    -- a channel has two nodes, so that a key is one of them at most
    by_cases h1 : channel.node1.policy.pubkey = key
    · have h2 : channel.node2.policy.pubkey ≠ key := fun h2 => hne (h1.trans h2.symm)
      simp [SimulatedChannel.touches, h1, h2]
    · by_cases h2 : channel.node2.policy.pubkey = key
      · simp [SimulatedChannel.touches, h1, h2]
      · simp [SimulatedChannel.touches, h1, h2]

variable {list : List SimulatedChannel} {interceptors : List Interceptor} {records : CustomRecords}
  {g : SimGraph}

/-- The nodes of an accepted graph, each with the ids of the channels that touch it. -/
theorem nodes_new (h : new list interceptors records = .ok g) :
    KeysMatch g.nodes ∧
      ∀ key, scidsOf g.nodes key = (list.filter (·.touches key)).map (·.shortChannelId) := by
  have hempty : KeysMatch (∅ : Nodes) := fun key node hnode => by
    rw [AList.lookup_empty] at hnode
    cases hnode
  obtain ⟨hkeys, hscids⟩ := foldlM_addChannel_nodes (foldlM_of_new h) hempty
  exact ⟨hkeys, fun key => by simpa [scidsOf] using hscids key⟩

/-- What a node of an accepted graph reports. -/
theorem lookupNode_new (h : new list interceptors records = .ok g) {key : PublicKey}
    {node : NodeInfo × List ShortChannelID} (hnode : g.nodes.lookup key = some node) :
    g.lookupNode key = .ok (node.1,
      ((list.filter (·.touches key)).filter (!·.excludeCapacity)).map (·.capacityMsat)) := by
  have hscids : node.2 = (list.filter (·.touches key)).map (·.shortChannelId) := by
    rw [← (nodes_new h).2 key, scidsOf, hnode]
    rfl
  have hfound : node.2.filterMap g.channels.lookup = list.filter (·.touches key) := by
    rw [hscids, List.filterMap_map]
    rw [List.filterMap_congr (g := some) fun c hc => ?_]
    · exact List.filterMap_some
    · exact (lookup_new h _ c).mpr ⟨(List.mem_filter.mp hc).1, rfl⟩
  unfold lookupNode
  rw [hnode]
  show Except.ok (node.1, ((node.2.filterMap g.channels.lookup).filter _).map _) = _
  rw [hfound]

end SimGraph

/-! ## What the simulation is run with -/

/-- The exact sum of the capacities of the channels of a node neither of whose nodes is excluded. -/
def capacitySum (simNetwork : List NetworkParser) (exclude : List PublicKey) (key : PublicKey) : Nat :=
  ((simNetwork.filter fun channel => (channel.node1.pubkey = key ∨ channel.node2.pubkey = key) ∧
    channel.node1.pubkey ∉ exclude ∧ channel.node2.pubkey ∉ exclude).map
      (·.capacityMsat.toNat)).sum

theorem capacitySum_le (simNetwork : List NetworkParser) (exclude : List PublicKey)
    (key : PublicKey) :
    capacitySum simNetwork exclude key ≤ (simNetwork.map (·.capacityMsat.toNat)).sum := by
  unfold capacitySum
  exact (List.filter_sublist.map _).sum_le_sum fun _ _ => Nat.zero_le _

theorem lookup_foldl_erase {β : Type} (nodes : Table PublicKey β) (exclude : List PublicKey)
    (key : PublicKey) : (exclude.foldl (fun nodes pk => nodes.erase pk) nodes).lookup key
      = if key ∈ exclude then none else nodes.lookup key := by
  induction exclude generalizing nodes with
  | nil => simp
  | cons pk rest ih =>
    rw [List.foldl_cons, ih]
    by_cases hrest : key ∈ rest
    · simp [hrest]
    · by_cases hkey : key = pk
      · rw [hkey, AList.lookup_erase]
        simp
      · rw [AList.lookup_erase_ne hkey]
        simp [hrest, hkey]

variable {γ ε : Type} {routing : RoutingGraph γ ε} {clock : Nat → UInt32}
  {simNetwork : List NetworkParser} {exclude : List PublicKey} {interceptors : List Interceptor}
  {records : CustomRecords} {graph : SimGraph} {nodes : Table PublicKey SimNode}

theorem createSimulationWithNetwork_ok
    (h : createSimulationWithNetwork routing clock simNetwork exclude interceptors records
      = .ok (graph, nodes)) :
    SimGraph.new (simNetwork.map (·.simulatedChannel exclude)) interceptors records = .ok graph ∧
      nodes = exclude.foldl (fun nodesDyn pk => nodesDyn.erase pk) graph.lnNodeFromGraph := by
  unfold createSimulationWithNetwork at h
  dsimp only at h
  split at h
  · cases h
  next simulationGraph hgraph =>
    split at h
    · cases h
    · obtain ⟨rfl, rfl⟩ := Prod.mk.inj (Except.ok.inj h)
      exact ⟨hgraph, rfl⟩

/-- The capacities that count for a node are those of `capacitySum`. -/
theorem sum_counted (key : PublicKey) :
    (((((simNetwork.map (·.simulatedChannel exclude)).filter (·.touches key)).filter
      (!·.excludeCapacity)).map (·.capacityMsat)).map UInt64.toNat).sum
      = capacitySum simNetwork exclude key := by
  unfold capacitySum
  rw [List.filter_filter, List.filter_map, List.map_map, List.map_map]
  congr 1
  congr 1
  apply List.filter_congr
  intro channel _
  simp only [NetworkParser.simulatedChannel, SimulatedChannel.new, SimulatedChannel.touches,
    ChannelState.new, Function.comp_apply]
  rw [Bool.and_comm]
  simp

/-- What a node that the simulation is run with reports. -/
theorem reports_of_created
    (h : createSimulationWithNetwork routing clock simNetwork exclude interceptors records
      = .ok (graph, nodes)) {key : PublicKey} {node : SimNode} (hnode : nodes.lookup key = some node) :
    key ∉ exclude ∧ node.info.pubkey = key ∧ SimNode.getNodeInfo graph key = .ok node.info ∧
      ∃ sum, node.channelCapacities graph = .ok sum ∧
        sum.toNat = capacitySum simNetwork exclude key % 2 ^ 64 := by
  obtain ⟨hgraph, rfl⟩ := createSimulationWithNetwork_ok h
  rw [lookup_foldl_erase] at hnode
  split_ifs at hnode with hexclude
  unfold SimGraph.lnNodeFromGraph at hnode
  rw [Table.lookup_mapValues] at hnode
  obtain ⟨entry, hentry, rfl⟩ := Option.map_eq_some_iff.mp hnode
  have hpubkey : entry.1.pubkey = key := (SimGraph.nodes_new hgraph).1 key entry hentry
  have hlookup := SimGraph.lookupNode_new hgraph hentry
  have hsum : (graph.lookupNode entry.1.pubkey).map (·.2.sum)
      = .ok (((((simNetwork.map (·.simulatedChannel exclude)).filter (·.touches key)).filter
        (!·.excludeCapacity)).map (·.capacityMsat)).sum) := by
    rw [hpubkey, hlookup]
    rfl
  refine ⟨hexclude, hpubkey, ?_, _, hsum, ?_⟩
  · rw [SimNode.getNodeInfo, hlookup]
    rfl
  · rw [toNat_sum, sum_counted]

/-- The simulation is run with every node outside the list that has channels which count. -/
theorem exists_node_of_created
    (h : createSimulationWithNetwork routing clock simNetwork exclude interceptors records
      = .ok (graph, nodes)) {key : PublicKey} (hkey : key ∉ exclude)
    (hsum : capacitySum simNetwork exclude key ≠ 0) : ∃ node, nodes.lookup key = some node := by
  obtain ⟨hgraph, rfl⟩ := createSimulationWithNetwork_ok h
  rw [lookup_foldl_erase, if_neg hkey]
  unfold SimGraph.lnNodeFromGraph
  rw [Table.lookup_mapValues]
  cases hentry : graph.nodes.lookup key with
  | some entry => exact ⟨_, rfl⟩
  | none =>
    -- no channel touches a key that is not in the graph
    exfalso
    have hscids := (SimGraph.nodes_new hgraph).2 key
    unfold SimGraph.scidsOf at hscids
    rw [hentry] at hscids
    have hnone : (simNetwork.map (·.simulatedChannel exclude)).filter (·.touches key) = [] :=
      List.map_eq_nil_iff.mp hscids.symm
    apply hsum
    rw [← sum_counted, hnone]
    rfl

end SimLn
