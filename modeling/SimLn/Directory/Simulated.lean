import SimLn.Directory.Resolution
import SimLn.Network

/-!
# SimLn — the two directories of a simulated network

The names of activities are looked up in the node infos that `createSimulationWithNetwork` collects
from the channels, while the network itself serves the infos that `SimGraph.new` has stored. A node
may be given an alias with each of its channels. The first directory keeps what the last one says and
the second what the first one says.
-/

namespace SimLn

open Lib

/-! ## Both directories -/

def SimulatedChannel.createSimulatedNodes (self : SimulatedChannel) : NodeInfo × NodeInfo :=
  (nodeInfo self.node1.policy.pubkey self.node1.policy.aliasName,
    nodeInfo self.node2.policy.pubkey self.node2.policy.aliasName)

/-- The node infos that activities are resolved with. -/
def simulatedNodesInfo (channels : List SimulatedChannel) : NodeDirectory :=
  channels.foldl (fun nodesInfo channel =>
    let (node1Info, node2Info) := channel.createSimulatedNodes
    (nodesInfo.insert node1Info).insert node2Info) .empty

def SimGraph.listNodes (order : IterationOrder NodeInfo) (self : SimGraph) : List NodeInfo :=
  order.arrange (self.nodes.entries.map (·.2.1))

def SimNode.getGraph (order : IterationOrder NodeInfo) (network : SimGraph) : Graph :=
  ⟨(network.listNodes order).foldl .insert .empty⟩

/-- Validates the activities of a simulation on a simulated network, with the nodes that it is run
with. -/
def simulatedActivities (env : Environment) (order : IterationOrder NodeInfo)
    (simNetwork : List NetworkParser) (exclude : List PublicKey) (simulationGraph : SimGraph)
    (nodesDyn : Table PublicKey SimNode) (activity : List ActivityParser) :
    Except LightningError (List ActivityDefinition) :=
  let clients := Table.mapValues (fun node : SimNode =>
    { getInfo := node.info, getGraph := .ok (SimNode.getGraph order simulationGraph) }) nodesDyn
  getValidatedActivities env clients
    (simulatedNodesInfo (simNetwork.map (·.simulatedChannel exclude))) activity

/-- Both directories give each node the same alias, so that an alias is that of the same nodes. -/
structure DirectoriesAgree (nodesInfo : NodeDirectory) (simulationGraph : SimGraph) : Prop where
  aliases : ∀ key info, nodesInfo.lookup key = some info →
    ∃ served capacities, simulationGraph.lookupNode key = .ok (served, capacities) ∧
      (∀ order, served ∈ simulationGraph.listNodes order) ∧ served.pubkey = key ∧
        served.aliasName = info.aliasName
  denotes : ∀ a key, (∃ info, nodesInfo.lookup key = some info ∧ info.aliasName = a) ↔
    ∃ node, simulationGraph.nodes.lookup key = some node ∧ node.1.aliasName = a

/-! ## What each of them keeps -/

/-- The policies of a network, in the order in which both loops come to them. -/
def policies (simNetwork : List NetworkParser) : List ChannelPolicy :=
  simNetwork.flatMap fun channel => [channel.node1, channel.node2]

/-- The aliases that a node is given. -/
def aliasesOf (simNetwork : List NetworkParser) (key : PublicKey) : List String :=
  ((policies simNetwork).filter (·.pubkey = key)).map (·.aliasName)

variable (simNetwork : List NetworkParser) (exclude : List PublicKey)

theorem lookup_simulatedNodesInfo (key : PublicKey) :
    (simulatedNodesInfo (simNetwork.map (·.simulatedChannel exclude))).lookup key
      = ((aliasesOf simNetwork key).getLast?).map (nodeInfo key) := by
  have hfold : simulatedNodesInfo (simNetwork.map (·.simulatedChannel exclude))
      = ((policies simNetwork).map fun policy => nodeInfo policy.pubkey policy.aliasName).foldl
        .insert .empty := by
    unfold simulatedNodesInfo policies
    rw [List.foldl_map, List.foldl_map, List.foldl_flatMap]
    rfl
  rw [hfold, NodeDirectory.lookup_foldl_insert, List.filter_map, List.getLast?_map]
  unfold aliasesOf
  rw [List.getLast?_map, Option.map_map]
  show Option.or (((policies simNetwork).filter (·.pubkey = key)).getLast?.map _) none = _
  rw [Option.or_none]
  cases hlast : ((policies simNetwork).filter (·.pubkey = key)).getLast? with
  | none => rfl
  | some policy =>
    obtain ⟨-, hkey⟩ := List.mem_filter.mp (List.mem_of_getLast? hlast)
    simp only [decide_eq_true_eq] at hkey
    rw [← hkey]
    rfl

namespace SimGraph

/-- A node that is there already keeps its info. -/
theorem info_addNode (nodes : Nodes) (policy : ChannelPolicy) (scid : ShortChannelID)
    (key : PublicKey) : ((addNode nodes policy scid).lookup key).map (·.1)
      = ((nodes.lookup key).map (·.1)).or
        (if policy.pubkey = key then some (nodeInfo key policy.aliasName) else none) := by
  unfold addNode
  by_cases hkey : policy.pubkey = key
  · subst hkey
    cases hold : nodes.lookup policy.pubkey with
    | none => simp [AList.lookup_insert]
    | some node => simp [AList.lookup_insert]
  · cases nodes.lookup policy.pubkey with
    | none => simp [AList.lookup_insert_ne (Ne.symm hkey), hkey]
    | some node => simp [AList.lookup_insert_ne (Ne.symm hkey), hkey]

theorem info_foldlM_addChannel {acc acc' : Nodes × Channels}
    (h : (simNetwork.map (·.simulatedChannel exclude)).foldlM addChannel acc = .ok acc')
    (key : PublicKey) : (acc'.1.lookup key).map (·.1)
      = ((acc.1.lookup key).map (·.1)).or
        ((aliasesOf simNetwork key).head?.map (nodeInfo key)) := by
  induction simNetwork generalizing acc with
  | nil =>
    obtain rfl : acc = acc' := Except.ok.inj h
    exact (Option.or_none).symm
  | cons channel rest ih =>
    obtain ⟨mid, hadd, hrest⟩ := foldlM_cons_ok h
    obtain ⟨-, -, rfl⟩ := addChannel_eq_ok hadd
    rw [ih hrest, info_addNode, info_addNode, Option.or_assoc, Option.or_assoc]
    congr 1
    unfold aliasesOf policies
    rw [List.flatMap_cons, List.filter_append, List.map_append, List.head?_append]
    by_cases h1 : channel.node1.pubkey = key
    · simp [NetworkParser.simulatedChannel, SimulatedChannel.new, ChannelState.new, h1]
    · by_cases h2 : channel.node2.pubkey = key
      · simp [NetworkParser.simulatedChannel, SimulatedChannel.new, ChannelState.new, h1, h2]
      · simp [NetworkParser.simulatedChannel, SimulatedChannel.new, ChannelState.new, h1, h2]

variable {simNetwork exclude} {interceptors : List Interceptor} {records : CustomRecords}
  {g : SimGraph}

theorem info_new
    (h : new (simNetwork.map (·.simulatedChannel exclude)) interceptors records = .ok g)
    (key : PublicKey) :
    (g.nodes.lookup key).map (·.1) = (aliasesOf simNetwork key).head?.map (nodeInfo key) := by
  rw [info_foldlM_addChannel simNetwork exclude (foldlM_of_new h) key]
  rfl

theorem mem_listNodes {key : PublicKey} {node : NodeInfo × List ShortChannelID}
    (hnode : g.nodes.lookup key = some node) (order : IterationOrder NodeInfo) :
    node.1 ∈ g.listNodes order := by
  unfold listNodes
  rw [(order.perm _).mem_iff]
  exact List.mem_map.mpr ⟨⟨key, node⟩, AList.mem_lookup_iff.mp hnode, rfl⟩

end SimGraph

/-! ## When the directories agree -/

variable {simNetwork exclude} {interceptors : List Interceptor} {records : CustomRecords}
  {simulationGraph : SimGraph}

/-- Directories that give the same infos agree on everything that they serve. -/
theorem directoriesAgree_of_infos
    (h : SimGraph.new (simNetwork.map (·.simulatedChannel exclude)) interceptors records
      = .ok simulationGraph) {nodesInfo : NodeDirectory}
    (hinfos : ∀ key, (simulationGraph.nodes.lookup key).map (·.1) = nodesInfo.lookup key) :
    DirectoriesAgree nodesInfo simulationGraph := by
  constructor
  · intro key info hinfo
    rw [← hinfos] at hinfo
    obtain ⟨node, hnode, rfl⟩ := Option.map_eq_some_iff.mp hinfo
    exact ⟨node.1, _, SimGraph.lookupNode_new h hnode, SimGraph.mem_listNodes hnode,
      (SimGraph.nodes_new h).1 key node hnode, rfl⟩
  · intro a key
    constructor
    · rintro ⟨info, hinfo, halias⟩
      rw [← hinfos] at hinfo
      obtain ⟨node, hnode, rfl⟩ := Option.map_eq_some_iff.mp hinfo
      exact ⟨node, hnode, halias⟩
    · rintro ⟨node, hnode, halias⟩
      refine ⟨node.1, ?_, halias⟩
      rw [← hinfos, hnode]
      rfl

/-- **The directories agree** exactly if the first and the last alias that a node is given are the
same, for each node. -/
theorem directoriesAgree_iff
    (h : SimGraph.new (simNetwork.map (·.simulatedChannel exclude)) interceptors records
      = .ok simulationGraph) :
    DirectoriesAgree (simulatedNodesInfo (simNetwork.map (·.simulatedChannel exclude)))
        simulationGraph ↔
      ∀ key, (aliasesOf simNetwork key).head? = (aliasesOf simNetwork key).getLast? := by
  constructor
  · intro hagree key
    have hdenotes := hagree.denotes
    simp only [lookup_simulatedNodesInfo] at hdenotes
    cases hlast : (aliasesOf simNetwork key).getLast? with
    | none =>
      rw [List.getLast?_eq_none_iff] at hlast
      rw [hlast]
      rfl
    | some last =>
      -- the alias that the simulation knows is that of the network, which is the first one
      obtain ⟨node, hnode, halias⟩ := (hdenotes last key).mp ⟨nodeInfo key last, by rw [hlast]; rfl, rfl⟩
      have hinfo := SimGraph.info_new h key
      rw [hnode] at hinfo
      obtain ⟨first, hfirst, heq⟩ := Option.map_eq_some_iff.mp hinfo.symm
      have hfirstAlias : first = node.1.aliasName := congrArg NodeInfo.aliasName heq
      rw [hfirst, ← halias, hfirstAlias]
  · intro hsame
    refine directoriesAgree_of_infos h fun key => ?_
    rw [SimGraph.info_new h key, lookup_simulatedNodesInfo, hsame key]

/-- Activities on a simulated network are resolved in the first directory, and in the graph that the
nodes serve. -/
theorem simulatedActivities_ok_iff (env : Environment) (order : IterationOrder NodeInfo)
    {nodesDyn : Table PublicKey SimNode} (hnodes : nodesDyn.entries ≠ [])
    (activity : List ActivityParser) (definitions : List ActivityDefinition) :
    simulatedActivities env order simNetwork exclude simulationGraph nodesDyn activity
        = .ok definitions ↔
      (¬ ∃ a, SharedAlias
        (simulatedNodesInfo (simNetwork.map (·.simulatedChannel exclude))).values a) ∧
        List.Forall₂ (Resolves (simulatedNodesInfo (simNetwork.map (·.simulatedChannel exclude)))
          (SimNode.getGraph order simulationGraph)) activity definitions := by
  unfold simulatedActivities
  apply getValidatedActivities_ok_iff
  unfold GivesGraph firstClient
  generalize hclients : (Table.mapValues (fun node : SimNode => ({
    getInfo := node.info
    getGraph := .ok (SimNode.getGraph order simulationGraph) } : LightningNode))
      nodesDyn).entries.map (·.2) = clients
  have hperm := env.clients.perm clients
  cases harranged : env.clients.arrange clients with
  | nil =>
    rw [harranged] at hperm
    rw [hperm.nil_eq.symm] at hclients
    exact absurd (List.map_eq_nil_iff.mp (List.map_eq_nil_iff.mp hclients)) hnodes
  | cons client rest =>
    have hmem : client ∈ clients := by
      rw [← hperm.mem_iff, harranged]
      exact List.mem_cons_self
    rw [← hclients] at hmem
    obtain ⟨entry, hentry, rfl⟩ := List.mem_map.mp hmem
    obtain ⟨node, -, rfl⟩ := List.mem_map.mp hentry
    exact ⟨_, rfl, rfl⟩

/-! ## A node with an alias -/

/-- Alice and Bob have a channel, and so have Bob and Carol. Bob is given an alias with each. -/
def sampleNetwork (first second : String) : List NetworkParser :=
  [{ scid := ⟨700⟩, capacityMsat := 100000, node1 := samplePolicy alice
     node2 := { samplePolicy bob with aliasName := first } },
    { scid := ⟨800⟩, capacityMsat := 100000
      node1 := { samplePolicy bob with aliasName := second }, node2 := samplePolicy carol }]

theorem directoriesAgree_same_alias :
    ∃ simulationGraph, SimGraph.new ((sampleNetwork "bob" "bob").map (·.simulatedChannel [])) [] ∅
        = .ok simulationGraph ∧
      DirectoriesAgree (simulatedNodesInfo ((sampleNetwork "bob" "bob").map (·.simulatedChannel [])))
        simulationGraph := by
  have hnew : ∃ simulationGraph, SimGraph.new
      ((sampleNetwork "bob" "bob").map (·.simulatedChannel [])) [] ∅ = .ok simulationGraph := ⟨_, rfl⟩
  obtain ⟨simulationGraph, hnew⟩ := hnew
  refine ⟨simulationGraph, hnew, (directoriesAgree_iff hnew).mpr fun key => ?_⟩
  unfold aliasesOf policies sampleNetwork samplePolicy
  by_cases hbob : bob = key
  · subst hbob
    rfl
  · by_cases halice : alice = key
    · subst halice
      rfl
    · by_cases hcarol : carol = key
      · subst hcarol
        rfl
      · simp [hbob, halice, hcarol]

/-- Bob has his alias with the first channel only: the network serves it, and an activity that names
him by it is refused. -/
theorem not_directoriesAgree_first_alias :
    ∃ simulationGraph, SimGraph.new ((sampleNetwork "bob" "").map (·.simulatedChannel [])) [] ∅
        = .ok simulationGraph ∧
      (∃ served, simulationGraph.lookupNode bob = .ok served ∧ served.1.aliasName = "bob") ∧
      (∃ info, (simulatedNodesInfo ((sampleNetwork "bob" "").map (·.simulatedChannel []))).lookup bob
        = some info ∧ info.aliasName = "") ∧
      (∃ e, simulatedActivities sampleEnvironment .id (sampleNetwork "bob" "") [] simulationGraph
        simulationGraph.lnNodeFromGraph [{ namedActivity with source := .aliasName "bob" }]
          = .error e) ∧
      ¬ DirectoriesAgree (simulatedNodesInfo ((sampleNetwork "bob" "").map (·.simulatedChannel [])))
        simulationGraph := by
  refine ⟨_, rfl, ⟨_, rfl, rfl⟩, ⟨_, rfl, rfl⟩, ⟨_, rfl⟩, fun hagree => ?_⟩
  obtain ⟨served, capacities, hserved, -, -, halias⟩ := hagree.aliases bob _ rfl
  obtain ⟨rfl, -⟩ := Prod.mk.inj (Except.ok.inj hserved)
  exact absurd halias (by decide)

end SimLn
