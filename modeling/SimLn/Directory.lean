import SimLn.Activity
import SimLn.Lib.Lists

/-!
# SimLn — the nodes and activities that a user configures

Before a simulation runs, `getClients` connects to the nodes that it controls and
`getValidatedActivities` finds the nodes that its activities name, by key or by alias, among them and
in the graph that one of them knows. The connections come from outside this repository.
-/

namespace SimLn

open Lib

/-! ## Directories -/

/-- A map of node infos, each under the key that it carries. -/
structure NodeDirectory where
  nodes : Table PublicKey NodeInfo
  keysMatch : ∀ key info, nodes.lookup key = some info → info.pubkey = key

namespace NodeDirectory

def empty : NodeDirectory where
  nodes := ∅
  keysMatch key info h := by
    rw [AList.lookup_empty] at h
    cases h

def insert (self : NodeDirectory) (info : NodeInfo) : NodeDirectory where
  nodes := self.nodes.insert info.pubkey info
  keysMatch key other h := by
    rcases Table.lookup_insert_cases h with ⟨rfl, rfl⟩ | ⟨-, hold⟩
    · rfl
    · exact self.keysMatch key other hold

def lookup (self : NodeDirectory) (key : PublicKey) : Option NodeInfo := self.nodes.lookup key

def values (self : NodeDirectory) : List NodeInfo := self.nodes.entries.map (·.2)

end NodeDirectory

/-- What a lightning node knows of the network. -/
structure Graph where
  nodesByPk : NodeDirectory

/-- A node that the simulation controls. A graph that it fails to get is given by the debug output of
its error. -/
structure LightningNode where
  getInfo : NodeInfo
  getGraph : Except String Graph

/-- An arrangement of the elements of each list, such as the order in which a hash map is iterated
over. -/
structure IterationOrder (α : Type) where
  arrange : List α → List α
  perm : ∀ l, (arrange l).Perm l

def IterationOrder.id {α : Type} : IterationOrder α := ⟨fun l => l, fun _ => .refl _⟩

/-- What validation leaves open: the orders in which it iterates over the clients, the nodes of the
graph and the nodes of the simulation, and the debug output of public keys. -/
structure Environment where
  clients : IterationOrder LightningNode
  graph : IterationOrder NodeInfo
  nodes : IterationOrder NodeInfo
  debug : List PublicKey → String

/-! ## Connecting -/

/-- Connects to the nodes, giving them and their infos by public key. -/
def getClients {κ : Type} (connect : κ → Except LightningError LightningNode) (nodes : List κ) :
    Except LightningError (Table PublicKey LightningNode × NodeDirectory) :=
  nodes.foldlM (fun (clients, clientsInfo) connection => do
    let node ← connect connection
    let nodeInfo := node.getInfo
    .ok (clients.insert nodeInfo.pubkey node, clientsInfo.insert nodeInfo)) (∅, .empty)

/-! ## Validating activities -/

/-- How the simulation file names a node. -/
inductive NodeId where
  | publicKey (pk : PublicKey)
  | aliasName (name : String)
  deriving DecidableEq, Repr

instance : ToString NodeId where
  toString
    | .publicKey pk => toString pk
    | .aliasName name => name

/-- An activity as the simulation file describes it. -/
structure ActivityParser where
  source : NodeId
  destination : NodeId
  startSecs : Option UInt16
  count : Option UInt64
  intervalSecs : ValueOrRange UInt16
  amountMsat : ValueOrRange UInt64
  deriving DecidableEq, Repr

structure NodeMapping where
  pkNodeMap : Table PublicKey NodeInfo
  aliasNodeMap : Table String NodeInfo

/-- One iteration of the loop in `addNodeToMaps`. -/
def NodeMapping.addNode (mapping : NodeMapping) (nodeInfo : NodeInfo) :
    Except LightningError NodeMapping :=
  if nodeInfo.pubkey ∈ mapping.pkNodeMap then
    .error (.validationError s!"duplicated node: {nodeInfo.pubkey}.")
  else if nodeInfo.aliasName ≠ "" then
    if nodeInfo.aliasName ∈ mapping.aliasNodeMap then
      .error (.validationError s!"duplicated alias: {nodeInfo.aliasName}.")
    else
      .ok { pkNodeMap := mapping.pkNodeMap.insert nodeInfo.pubkey nodeInfo
            aliasNodeMap := mapping.aliasNodeMap.insert nodeInfo.aliasName nodeInfo }
  else
    .ok { mapping with pkNodeMap := mapping.pkNodeMap.insert nodeInfo.pubkey nodeInfo }

/-- Maps the controlled nodes by key and by alias. -/
def addNodeToMaps (order : IterationOrder NodeInfo) (nodes : NodeDirectory) :
    Except LightningError NodeMapping :=
  (order.arrange nodes.values).foldlM NodeMapping.addNode ⟨∅, ∅⟩

/-- Records a node under its alias, which is not unique: an alias has a first node and others. -/
def pushByAlias (acc : Table String (NodeInfo × List NodeInfo)) (node : NodeInfo) :
    Table String (NodeInfo × List NodeInfo) :=
  match acc.lookup node.aliasName with
  | some (first, others) => acc.insert node.aliasName (first, others ++ [node])
  | none => acc.insert node.aliasName (node, [])

/-- The nodes of the graph by alias. -/
def graphNodesByAlias (nodes : List NodeInfo) : Table String (NodeInfo × List NodeInfo) :=
  nodes.foldl pushByAlias ∅

structure ActivityValidationParams where
  pkNodeMap : Table PublicKey NodeInfo
  aliasNodeMap : Table String NodeInfo
  graphNodesByPk : Table PublicKey NodeInfo
  graphNodesByAlias : Table String (NodeInfo × List NodeInfo)

namespace ActivityValidationParams

/-- The controlled node that an activity names. -/
def controlled (self : ActivityValidationParams) : NodeId → Option NodeInfo
  | .publicKey pk => self.pkNodeMap.lookup pk
  | .aliasName a => self.aliasNodeMap.lookup a

/-- The source of an activity must be a node that the simulation controls. -/
def source (self : ActivityValidationParams) (id : NodeId) : Except LightningError NodeInfo :=
  match self.controlled id with
  | some source => .ok source
  | none => .error (.validationError s!"activity source {id} not found in nodes.")

/-- The destination may be any node of the graph that is named unambiguously. -/
def destination (debug : List PublicKey → String) (self : ActivityValidationParams) (id : NodeId) :
    Except LightningError NodeInfo :=
  match id with
  | .aliasName a =>
    match self.aliasNodeMap.lookup a with
    | some nodeInfo => .ok nodeInfo
    | none =>
      match self.graphNodesByAlias.lookup a with
      | some (nodeInfo, []) => .ok nodeInfo
      | some (first, others) =>
        let pks := (first :: others).map (·.pubkey)
        .error (.validationError (s!"Multiple nodes in the graph have the same destination alias - {a}. \n"
          ++ s!"                            Use one of these public keys as the destination instead - {debug pks}"))
      | none => .error (.validationError s!"unknown activity destination: {id}.")
  | .publicKey pk =>
    match self.pkNodeMap.lookup pk with
    | some nodeInfo => .ok nodeInfo
    | none =>
      match self.graphNodesByPk.lookup pk with
      | some nodeInfo => .ok nodeInfo
      | none => .error (.validationError s!"unknown activity destination: {id}.")

/-- The definition of one activity, whose nodes are identified by key. -/
def definition (debug : List PublicKey → String) (self : ActivityValidationParams)
    (act : ActivityParser) : Except LightningError ActivityDefinition := do
  let source ← self.source act.source
  let destination ← self.destination debug act.destination
  .ok { source, destination
        intervalSecs := act.intervalSecs
        startSecs := act.startSecs
        count := act.count
        amountMsat := act.amountMsat }

end ActivityValidationParams

/-- Validates the activities one by one, collecting their definitions. -/
def validateActivities (debug : List PublicKey → String) (activity : List ActivityParser)
    (params : ActivityValidationParams) : Except LightningError (List ActivityDefinition) :=
  activity.mapM (params.definition debug)

/-- The client that is asked for its graph, the first that the map of clients gives. -/
def firstClient (env : Environment) (clients : Table PublicKey LightningNode) :
    Option LightningNode :=
  (env.clients.arrange (clients.entries.map (·.2))).head?

/-- Finds the nodes that the activities name. -/
def getValidatedActivities (env : Environment) (clients : Table PublicKey LightningNode)
    (nodesInfo : NodeDirectory) (activity : List ActivityParser) :
    Except LightningError (List ActivityDefinition) :=
  match firstClient env clients with
  | none => .error (.getGraphError "Graph is empty")
  | some client =>
    match client.getGraph with
    | .error e => .error (.getGraphError s!"Error getting graph {e}")
    | .ok graph =>
      match addNodeToMaps env.nodes nodesInfo with
      | .error e => .error e
      | .ok mapping =>
        validateActivities env.debug activity
          { pkNodeMap := mapping.pkNodeMap
            aliasNodeMap := mapping.aliasNodeMap
            graphNodesByPk := graph.nodesByPk.nodes
            graphNodesByAlias := graphNodesByAlias (env.graph.arrange graph.nodesByPk.values) }

/-- Creates a simulation that is run against a set of real lightning nodes: the nodes and the
activities that it is given. -/
def createSimulation {κ : Type} (env : Environment)
    (connect : κ → Except LightningError LightningNode) (nodes : List κ)
    (activity : List ActivityParser) :
    Except LightningError (Table PublicKey LightningNode × List ActivityDefinition) :=
  match getClients connect nodes with
  | .error e => .error e
  | .ok (clients, clientsInfo) =>
    match getValidatedActivities env clients clientsInfo activity with
    | .error e => .error e
    | .ok validatedActivities => .ok (clients, validatedActivities)

/-! ## What a directory holds -/

namespace NodeDirectory

/-- The inserted node is found under its own key, the others under theirs. -/
theorem lookup_insert (self : NodeDirectory) (info : NodeInfo) (key : PublicKey) :
    (self.insert info).lookup key = if info.pubkey = key then some info else self.lookup key := by
  show (self.nodes.insert info.pubkey info).lookup key = _
  split_ifs with hkey
  · rw [← hkey, AList.lookup_insert]
  · rw [AList.lookup_insert_ne (Ne.symm hkey)]
    rfl

/-- Of the infos inserted with a key, the last one stays. -/
theorem lookup_foldl_insert (infos : List NodeInfo) (self : NodeDirectory) (key : PublicKey) :
    (infos.foldl insert self).lookup key
      = ((infos.filter (·.pubkey = key)).getLast?).or (self.lookup key) := by
  have hnodes : (infos.foldl insert self).nodes
      = infos.foldl (fun nodes info => nodes.insert info.pubkey info) self.nodes := by
    induction infos generalizing self with
    | nil => rfl
    | cons info infos ih => exact ih (self.insert info)
  have hlookup := Table.lookup_foldl_insert NodeInfo.pubkey (fun info => info) infos self.nodes key
  rw [Option.map_id'] at hlookup
  unfold lookup
  rw [hnodes, hlookup]

/-- A key is found exactly when a node of the directory has it. -/
theorem lookup_eq_some_iff {self : NodeDirectory} {key : PublicKey} {info : NodeInfo} :
    self.lookup key = some info ↔ info ∈ self.values ∧ info.pubkey = key := by
  constructor
  · intro h
    refine ⟨List.mem_map.mpr ⟨⟨key, info⟩, AList.mem_lookup_iff.mp h, rfl⟩, ?_⟩
    exact self.keysMatch key info h
  · rintro ⟨hmem, rfl⟩
    obtain ⟨entry, hentry, rfl⟩ := List.mem_map.mp hmem
    have hlookup := AList.mem_lookup_iff.mpr hentry
    rw [self.keysMatch _ _ hlookup]
    exact hlookup

/-- Different entries have different keys. -/
theorem nodup_values (self : NodeDirectory) : (self.values.map (·.pubkey)).Nodup := by
  have hkeys : self.values.map (·.pubkey) = self.nodes.entries.keys := by
    unfold values List.keys
    rw [List.map_map]
    apply List.map_congr_left
    intro entry hentry
    exact self.keysMatch _ _ (AList.mem_lookup_iff.mpr hentry)
  rw [hkeys]
  exact self.nodes.nodupKeys

end NodeDirectory

/-! ## What the maps of validation hold -/

/-- Two nodes of different keys have the alias, which is not empty. -/
def SharedAlias (infos : List NodeInfo) (a : String) : Prop :=
  a ≠ "" ∧ ∃ info ∈ infos, ∃ other ∈ infos,
    info.pubkey ≠ other.pubkey ∧ info.aliasName = a ∧ other.aliasName = a

/-- More nodes share no fewer aliases. -/
theorem SharedAlias.mono {infos infos' : List NodeInfo} {a : String} (h : SharedAlias infos a)
    (hmem : ∀ info ∈ infos, info ∈ infos') : SharedAlias infos' a := by
  obtain ⟨ha, info, hinfo, other, hother, hdiffer⟩ := h
  exact ⟨ha, info, hmem info hinfo, other, hmem other hother, hdiffer⟩

/-- The maps that the loop has built after it has seen some nodes. -/
structure NodeMapping.Maps (mapping : NodeMapping) (seen : List NodeInfo) : Prop where
  byKey : ∀ key info, mapping.pkNodeMap.lookup key = some info ↔ info ∈ seen ∧ info.pubkey = key
  byAlias : ∀ a info, mapping.aliasNodeMap.lookup a = some info ↔
    info ∈ seen ∧ info.aliasName = a ∧ a ≠ ""

namespace NodeMapping

/-- A mapping is of the set of nodes that it was built from. -/
theorem Maps.congr {mapping : NodeMapping} {seen seen' : List NodeInfo} (h : mapping.Maps seen)
    (hmem : ∀ info, info ∈ seen ↔ info ∈ seen') : mapping.Maps seen' where
  byKey key info := by rw [h.byKey, hmem]
  byAlias a info := by rw [h.byAlias, hmem]

/-- A map has one node for an alias. -/
theorem Maps.not_sharedAlias {mapping : NodeMapping} {seen : List NodeInfo} (h : mapping.Maps seen)
    (a : String) : ¬ SharedAlias seen a := by
  rintro ⟨ha, info, hinfo, other, hother, hne, halias, halias'⟩
  have h₁ := (h.byAlias a info).mpr ⟨hinfo, halias, ha⟩
  have h₂ := (h.byAlias a other).mpr ⟨hother, halias', ha⟩
  exact hne (congrArg NodeInfo.pubkey (Option.some.inj (h₁.symm.trans h₂)))

theorem maps_empty : (⟨∅, ∅⟩ : NodeMapping).Maps [] := by
  constructor
  · intro key info
    simp
  · intro a info
    simp

/-- One more node of a new key is mapped, unless its alias has been seen. -/
theorem Maps.addNode {mapping : NodeMapping} {seen : List NodeInfo} (h : mapping.Maps seen)
    {nodeInfo : NodeInfo} (hkey : ∀ other ∈ seen, nodeInfo.pubkey ≠ other.pubkey) :
    (∃ mapping', mapping.addNode nodeInfo = .ok mapping' ∧ mapping'.Maps (nodeInfo :: seen)) ∨
      (SharedAlias (nodeInfo :: seen) nodeInfo.aliasName ∧ mapping.addNode nodeInfo
        = .error (.validationError s!"duplicated alias: {nodeInfo.aliasName}.")) := by
  have hnew : mapping.pkNodeMap.lookup nodeInfo.pubkey = none := by
    rw [Option.eq_none_iff_forall_not_mem]
    intro other hother
    obtain ⟨hseen, heq⟩ := (h.byKey _ _).mp hother
    exact hkey other hseen heq.symm
  have hbyKey : ∀ key info, (mapping.pkNodeMap.insert nodeInfo.pubkey nodeInfo).lookup key = some info
      ↔ info ∈ nodeInfo :: seen ∧ info.pubkey = key := by
    intro key info
    have hseen : ∀ key info, mapping.pkNodeMap.lookup key = some info ↔
        info ∈ seen ∧ info.pubkey = key ∧ True := by
      intro key info
      rw [h.byKey, and_true]
    rw [Table.lookup_insert_seen NodeInfo.pubkey hseen hnew trivial key info, and_true]
  unfold NodeMapping.addNode
  rw [if_neg (AList.lookup_eq_none.mp hnew)]
  by_cases halias : nodeInfo.aliasName ≠ ""
  · rw [if_pos halias]
    by_cases hmem : nodeInfo.aliasName ∈ mapping.aliasNodeMap
    · right
      rw [if_pos hmem]
      obtain ⟨other, hother⟩ := Option.isSome_iff_exists.mp (AList.lookup_isSome.mpr hmem)
      obtain ⟨hseen, heq, -⟩ := (h.byAlias _ _).mp hother
      exact ⟨⟨halias, nodeInfo, List.mem_cons_self, other, List.mem_cons_of_mem _ hseen,
        hkey other hseen, rfl, heq⟩, rfl⟩
    · left
      rw [if_neg hmem]
      have hfresh := AList.lookup_eq_none.mpr hmem
      exact ⟨_, rfl, hbyKey, Table.lookup_insert_seen NodeInfo.aliasName h.byAlias hfresh halias⟩
  · left
    rw [if_neg halias]
    refine ⟨_, rfl, hbyKey, fun a info => ?_⟩
    rw [h.byAlias, List.mem_cons]
    constructor
    · rintro ⟨hseen, heq, ha⟩
      exact ⟨.inr hseen, heq, ha⟩
    · rintro ⟨rfl | hseen, heq, ha⟩
      · exact absurd (by rwa [heq]) halias
      · exact ⟨hseen, heq, ha⟩

/-- The loop maps all nodes or stops at a shared alias. -/
theorem Maps.foldlM {mapping : NodeMapping} {seen rest : List NodeInfo} (h : mapping.Maps seen)
    (hkeys : ((seen ++ rest).map (·.pubkey)).Nodup) :
    (∃ mapping', rest.foldlM NodeMapping.addNode mapping = .ok mapping' ∧
        mapping'.Maps (seen ++ rest)) ∨
      ∃ a, SharedAlias (seen ++ rest) a ∧ rest.foldlM NodeMapping.addNode mapping
        = .error (.validationError s!"duplicated alias: {a}.") := by
  induction rest generalizing mapping seen with
  | nil => exact .inl ⟨mapping, rfl, by rwa [List.append_nil]⟩
  | cons nodeInfo rest ih =>
    have hperm : (seen ++ nodeInfo :: rest).Perm (nodeInfo :: seen ++ rest) := List.perm_middle
    have hkeys' : ((nodeInfo :: seen ++ rest).map (·.pubkey)).Nodup :=
      (hperm.map _).nodup_iff.mp hkeys
    have hnew : ∀ other ∈ seen, nodeInfo.pubkey ≠ other.pubkey := by
      intro other hother heq
      rw [List.cons_append, List.map_cons, List.nodup_cons] at hkeys'
      apply hkeys'.1
      rw [heq]
      exact List.mem_map_of_mem (List.mem_append_left _ hother)
    rw [List.foldlM_cons]
    rcases h.addNode hnew with ⟨mapping', hadd, hmaps⟩ | ⟨hshared, hadd⟩
    · rw [hadd]
      rcases ih hmaps hkeys' with ⟨mapping'', hrest, hmaps'⟩ | ⟨a, hshared, hrest⟩
      · exact .inl ⟨mapping'', hrest, hmaps'.congr fun _ => hperm.mem_iff.symm⟩
      · exact .inr ⟨a, hshared.mono fun _ => hperm.mem_iff.mpr, hrest⟩
    · rw [hadd]
      refine .inr ⟨nodeInfo.aliasName, hshared.mono fun info hinfo => ?_, rfl⟩
      exact hperm.mem_iff.mpr (List.mem_append_left _ hinfo)

end NodeMapping

/-- A directory is mapped, or two of its nodes share an alias. -/
theorem addNodeToMaps_cases (order : IterationOrder NodeInfo) (nodes : NodeDirectory) :
    (∃ mapping, addNodeToMaps order nodes = .ok mapping ∧ mapping.Maps nodes.values) ∨
      ∃ a, SharedAlias nodes.values a ∧ addNodeToMaps order nodes
        = .error (.validationError s!"duplicated alias: {a}.") := by
  have hperm := order.perm nodes.values
  have hkeys : ((order.arrange nodes.values).map (·.pubkey)).Nodup :=
    (hperm.map _).nodup_iff.mpr nodes.nodup_values
  rcases NodeMapping.maps_empty.foldlM hkeys with ⟨mapping, hfold, hmaps⟩ | ⟨a, hshared, hfold⟩
  · exact .inl ⟨mapping, hfold, hmaps.congr fun _ => hperm.mem_iff⟩
  · exact .inr ⟨a, hshared.mono fun _ => hperm.mem_iff.mp, hfold⟩

/-- What is recorded under an alias. -/
def namesakes (byAlias : Table String (NodeInfo × List NodeInfo)) (a : String) : List NodeInfo :=
  match byAlias.lookup a with
  | none => []
  | some (first, others) => first :: others

/-- Pushing a node adds it to its namesakes, last. -/
theorem namesakes_pushByAlias (acc : Table String (NodeInfo × List NodeInfo)) (node : NodeInfo)
    (a : String) : namesakes (pushByAlias acc node) a
      = namesakes acc a ++ if node.aliasName = a then [node] else [] := by
  unfold pushByAlias namesakes
  by_cases ha : node.aliasName = a
  · subst ha
    cases hold : acc.lookup node.aliasName with
    | none => simp [AList.lookup_insert]
    | some entry => simp [AList.lookup_insert]
  · cases hold : acc.lookup node.aliasName with
    | none => simp [AList.lookup_insert_ne (Ne.symm ha), ha]
    | some entry => simp [AList.lookup_insert_ne (Ne.symm ha), ha]

/-- An alias has the nodes of the graph that carry it, in the order in which they come. -/
theorem namesakes_graphNodesByAlias (nodes : List NodeInfo) (a : String) :
    namesakes (graphNodesByAlias nodes) a = nodes.filter (·.aliasName = a) := by
  unfold graphNodesByAlias
  have hfold : ∀ acc, namesakes (nodes.foldl pushByAlias acc) a
      = namesakes acc a ++ nodes.filter (·.aliasName = a) := by
    induction nodes with
    | nil => simp
    | cons node nodes ih =>
      intro acc
      rw [List.foldl_cons, ih, namesakes_pushByAlias, List.filter_cons, List.append_assoc]
      congr 1
      by_cases ha : node.aliasName = a
      · simp [ha]
      · simp [ha]
  exact hfold ∅

/-! ## Validation, by its outcomes -/

/-- The client that is asked gives the graph. -/
def GivesGraph (env : Environment) (clients : Table PublicKey LightningNode) (graph : Graph) : Prop :=
  ∃ client, firstClient env clients = some client ∧ client.getGraph = .ok graph

/-- What activities are validated with, once the controlled nodes are mapped. -/
def validationParams (env : Environment) (graph : Graph) (mapping : NodeMapping) :
    ActivityValidationParams where
  pkNodeMap := mapping.pkNodeMap
  aliasNodeMap := mapping.aliasNodeMap
  graphNodesByPk := graph.nodesByPk.nodes
  graphNodesByAlias := graphNodesByAlias (env.graph.arrange graph.nodesByPk.values)

variable {env : Environment} {clients : Table PublicKey LightningNode} {graph : Graph}

/-- Without a graph no activity is validated. -/
theorem getValidatedActivities_of_not_givesGraph (h : ¬ ∃ graph, GivesGraph env clients graph)
    (nodesInfo : NodeDirectory) (activity : List ActivityParser) :
    ∃ text, getValidatedActivities env clients nodesInfo activity = .error (.getGraphError text) := by
  unfold getValidatedActivities
  cases hfirst : firstClient env clients with
  | none => exact ⟨_, rfl⟩
  | some client =>
    cases hgraph : client.getGraph with
    | error e => exact ⟨_, by simp only [hgraph]; rfl⟩
    | ok graph => exact absurd ⟨graph, client, hfirst, hgraph⟩ h

/-- With a graph, a shared alias is refused and otherwise the activities are looked up. -/
theorem getValidatedActivities_cases (h : GivesGraph env clients graph) (nodesInfo : NodeDirectory)
    (activity : List ActivityParser) :
    (∃ a, SharedAlias nodesInfo.values a ∧ getValidatedActivities env clients nodesInfo activity
        = .error (.validationError s!"duplicated alias: {a}.")) ∨
      ∃ mapping : NodeMapping, mapping.Maps nodesInfo.values ∧
        getValidatedActivities env clients nodesInfo activity
          = validateActivities env.debug activity (validationParams env graph mapping) := by
  obtain ⟨client, hfirst, hgraph⟩ := h
  unfold getValidatedActivities
  rcases addNodeToMaps_cases env.nodes nodesInfo with ⟨mapping, hmap, hmaps⟩ | ⟨a, hshared, hmap⟩
  · refine .inr ⟨mapping, hmaps, ?_⟩
    simp only [hfirst, hgraph, hmap]
    rfl
  · refine .inl ⟨a, hshared, ?_⟩
    simp only [hfirst, hgraph, hmap]

/-! ## Sample nodes, for concrete instances -/

def sampleEnvironment : Environment where
  clients := .id
  graph := .id
  nodes := .id
  debug := toString

def sampleClient (pubkey : PublicKey) (aliasName : String) : LightningNode where
  getInfo := nodeInfo pubkey aliasName
  getGraph := .ok ⟨.empty⟩

end SimLn
