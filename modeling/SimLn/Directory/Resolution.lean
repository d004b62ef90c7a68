import SimLn.Directory

/-!
# SimLn — what the names of an activity denote

`Controlled` and `Destination` say which node a key or an alias denotes, without any map of
aliases. Validation finds exactly that node, in whatever order it iterates over the maps that it
builds, and it accepts a list of activities exactly if no alias of the controlled nodes is ambiguous
and all names denote something.
-/

namespace SimLn

open Lib

/-- A controlled node named by its key, or by its alias if that is not empty. -/
def Controlled (nodesInfo : NodeDirectory) : NodeId → NodeInfo → Prop
  | .publicKey pk, info => nodesInfo.lookup pk = some info
  | .aliasName a, info => a ≠ "" ∧ info ∈ nodesInfo.values ∧ info.aliasName = a

/-- A node of the graph named by its key, or by its alias if no other node has that. -/
def InGraph (graph : Graph) : NodeId → NodeInfo → Prop
  | .publicKey pk, info => graph.nodesByPk.lookup pk = some info
  | .aliasName a, info => info ∈ graph.nodesByPk.values ∧ info.aliasName = a ∧
      ∀ other ∈ graph.nodesByPk.values, other.aliasName = a → other = info

/-- The node that a destination names: controlled nodes come before those of the graph. -/
def Destination (nodesInfo : NodeDirectory) (graph : Graph) (id : NodeId) (info : NodeInfo) : Prop :=
  Controlled nodesInfo id info ∨ (∀ other, ¬ Controlled nodesInfo id other) ∧ InGraph graph id info

/-- What becomes of an activity. -/
structure Resolves (nodesInfo : NodeDirectory) (graph : Graph) (act : ActivityParser)
    (definition : ActivityDefinition) : Prop where
  source : Controlled nodesInfo act.source definition.source
  destination : Destination nodesInfo graph act.destination definition.destination
  intervalSecs : definition.intervalSecs = act.intervalSecs
  startSecs : definition.startSecs = act.startSecs
  count : definition.count = act.count
  amountMsat : definition.amountMsat = act.amountMsat

/-! ## Keys -/

/-- A public key names the client with that key. -/
theorem Controlled.pubkey {nodesInfo : NodeDirectory} {pk : PublicKey} {info : NodeInfo}
    (h : Controlled nodesInfo (.publicKey pk) info) : info.pubkey = pk :=
  nodesInfo.keysMatch pk info h

/-- A public key names the destination with that key. -/
theorem Destination.pubkey {nodesInfo : NodeDirectory} {graph : Graph} {pk : PublicKey}
    {info : NodeInfo} (h : Destination nodesInfo graph (.publicKey pk) info) : info.pubkey = pk := by
  rcases h with h | ⟨-, h⟩
  · exact h.pubkey
  · exact graph.nodesByPk.keysMatch pk info h

/-! ## Looking up one name -/

/-- The nodes of the graph with an alias, in the order of iteration, are the one that it names or not
exactly one. -/
theorem inGraph_alias_iff (env : Environment) (graph : Graph) (a : String) (info : NodeInfo) :
    (env.graph.arrange graph.nodesByPk.values).filter (·.aliasName = a) = [info] ↔
      InGraph graph (.aliasName a) info := by
  have hperm := env.graph.perm graph.nodesByPk.values
  have hnodup : ((env.graph.arrange graph.nodesByPk.values).filter (·.aliasName = a)).Nodup :=
    (hperm.nodup_iff.mpr (List.Nodup.of_map _ graph.nodesByPk.nodup_values)).filter _
  have hmem : ∀ other, other ∈ (env.graph.arrange graph.nodesByPk.values).filter (·.aliasName = a) ↔
      other ∈ graph.nodesByPk.values ∧ other.aliasName = a := by
    intro other
    rw [List.mem_filter, hperm.mem_iff, decide_eq_true_eq]
  show _ ↔ info ∈ graph.nodesByPk.values ∧ info.aliasName = a ∧
    ∀ other ∈ graph.nodesByPk.values, other.aliasName = a → other = info
  constructor
  · intro h
    rw [h] at hmem
    obtain ⟨hvalues, halias⟩ := (hmem info).mp (by simp)
    exact ⟨hvalues, halias, fun other hother ha => by simpa using (hmem other).mpr ⟨hother, ha⟩⟩
  · rintro ⟨hvalues, halias, hunique⟩
    refine List.perm_singleton.mp ((List.perm_ext_iff_of_nodup hnodup (by simp)).mpr fun other => ?_)
    rw [hmem, List.mem_singleton]
    constructor
    · rintro ⟨hother, ha⟩
      exact hunique other hother ha
    · rintro rfl
      exact ⟨hvalues, halias⟩

section Lookup

variable {nodesInfo : NodeDirectory} {mapping : NodeMapping} (hmaps : mapping.Maps nodesInfo.values)
  (env : Environment) (graph : Graph)

include hmaps

/-- The look-up closure finds exactly the controlled node that a name stands for. -/
theorem controlled_iff (id : NodeId) (info : NodeInfo) :
    (validationParams env graph mapping).controlled id = some info ↔ Controlled nodesInfo id info := by
  cases id with
  | publicKey pk =>
    show mapping.pkNodeMap.lookup pk = some info ↔ nodesInfo.lookup pk = some info
    rw [hmaps.byKey, NodeDirectory.lookup_eq_some_iff]
  | aliasName a =>
    show mapping.aliasNodeMap.lookup a = some info ↔
      a ≠ "" ∧ info ∈ nodesInfo.values ∧ info.aliasName = a
    rw [hmaps.byAlias]
    tauto

/-- A source is accepted exactly when it names a controlled node. -/
theorem source_ok_iff (id : NodeId) (info : NodeInfo) :
    (validationParams env graph mapping).source id = .ok info ↔ Controlled nodesInfo id info := by
  rw [← controlled_iff hmaps env graph]
  unfold ActivityValidationParams.source
  cases (validationParams env graph mapping).controlled id with
  | none => simp
  | some source => simp

/-- A destination is accepted exactly when it names a controlled node or one of the graph. -/
theorem destination_ok_iff (debug : List PublicKey → String) (id : NodeId) (info : NodeInfo) :
    (validationParams env graph mapping).destination debug id = .ok info ↔
      Destination nodesInfo graph id info := by
  have hcontrolled := controlled_iff hmaps env graph id
  unfold Destination ActivityValidationParams.destination
  simp only [← hcontrolled]
  cases id with
  | publicKey pk =>
    simp only [ActivityValidationParams.controlled, validationParams, InGraph, NodeDirectory.lookup]
    cases mapping.pkNodeMap.lookup pk with
    | some nodeInfo => simp
    | none =>
      cases graph.nodesByPk.nodes.lookup pk with
      | some nodeInfo => simp
      | none => simp
  | aliasName a =>
    rw [← inGraph_alias_iff env graph a info, ← namesakes_graphNodesByAlias]
    simp only [ActivityValidationParams.controlled, validationParams, namesakes]
    cases mapping.aliasNodeMap.lookup a with
    | some nodeInfo => simp
    | none =>
      -- one node of the graph is accepted, several are ambiguous and none is unknown
      cases (graphNodesByAlias (env.graph.arrange graph.nodesByPk.values)).lookup a with
      | none => simp
      | some entry =>
        obtain ⟨first, others⟩ := entry
        cases others with
        | nil => simp
        | cons second rest => simp

/-- An activity is accepted with exactly the definition it resolves to. -/
theorem definition_ok_iff (debug : List PublicKey → String) (act : ActivityParser)
    (definition : ActivityDefinition) :
    (validationParams env graph mapping).definition debug act = .ok definition ↔
      Resolves nodesInfo graph act definition := by
  unfold ActivityValidationParams.definition
  constructor
  · intro h
    cases hsource : (validationParams env graph mapping).source act.source with
    | error e =>
      rw [hsource] at h
      cases h
    | ok source =>
      cases hdest : (validationParams env graph mapping).destination debug act.destination with
      | error e =>
        rw [hsource, hdest] at h
        cases h
      | ok destination =>
        rw [hsource, hdest] at h
        obtain rfl := Except.ok.inj h
        exact ⟨(source_ok_iff hmaps env graph _ _).mp hsource,
          (destination_ok_iff hmaps env graph debug _ _).mp hdest, rfl, rfl, rfl, rfl⟩
  · intro h
    rw [(source_ok_iff hmaps env graph _ _).mpr h.source,
      (destination_ok_iff hmaps env graph debug _ _).mpr h.destination]
    obtain ⟨source, destination, startSecs, count, intervalSecs, amountMsat⟩ := definition
    obtain ⟨-, -, rfl, rfl, rfl, rfl⟩ := h
    rfl

/-- The loop over the activities resolves all of them. -/
theorem validateActivities_ok_iff (activity : List ActivityParser)
    (definitions : List ActivityDefinition) :
    validateActivities env.debug activity (validationParams env graph mapping) = .ok definitions ↔
      List.Forall₂ (Resolves nodesInfo graph) activity definitions := by
  have hbody : (fun act definition =>
      (validationParams env graph mapping).definition env.debug act = .ok definition)
        = Resolves nodesInfo graph := by
    funext act definition
    exact propext (definition_ok_iff hmaps env graph env.debug act definition)
  rw [← hbody]
  exact ⟨forall₂_of_mapM, mapM_of_forall₂⟩

end Lookup

/-! ## Validation as a whole -/

variable {env : Environment} {clients : Table PublicKey LightningNode} {graph : Graph}
  {nodesInfo : NodeDirectory} {activity : List ActivityParser}

/-- Validation gives the definitions that the names denote, if no alias is shared. -/
theorem getValidatedActivities_ok_iff (h : GivesGraph env clients graph)
    (definitions : List ActivityDefinition) :
    getValidatedActivities env clients nodesInfo activity = .ok definitions ↔
      (¬ ∃ a, SharedAlias nodesInfo.values a) ∧
        List.Forall₂ (Resolves nodesInfo graph) activity definitions := by
  rcases getValidatedActivities_cases h nodesInfo activity with ⟨a, hshared, heq⟩ | ⟨mapping, hmaps,
    heq⟩
  · rw [heq]
    constructor
    · intro hok
      cases hok
    · rintro ⟨hnone, -⟩
      exact absurd ⟨a, hshared⟩ hnone
  · rw [heq, validateActivities_ok_iff hmaps env graph]
    constructor
    · intro hresolved
      exact ⟨fun ⟨a, ha⟩ => hmaps.not_sharedAlias a ha, hresolved⟩
    · exact And.right

/-- An activity resolves exactly when both of its ends do. -/
theorem exists_resolved_iff (act : ActivityParser) :
    (∃ definition, Resolves nodesInfo graph act definition) ↔
      (∃ info, Controlled nodesInfo act.source info) ∧
        ∃ info, Destination nodesInfo graph act.destination info := by
  constructor
  · rintro ⟨definition, hresolved⟩
    exact ⟨⟨_, hresolved.source⟩, ⟨_, hresolved.destination⟩⟩
  · rintro ⟨⟨source, hsource⟩, ⟨destination, hdestination⟩⟩
    exact ⟨⟨source, destination, act.startSecs, act.count, act.intervalSecs, act.amountMsat⟩,
      hsource, hdestination, rfl, rfl, rfl, rfl⟩

/-- **Resolution is exact.** When a list of activities is accepted, what becomes of it, and that the
orders of iteration do not matter beyond which graph is looked at. -/
theorem getValidatedActivities_exact (env : Environment) (clients : Table PublicKey LightningNode)
    (graph : Graph) (nodesInfo : NodeDirectory) (activity : List ActivityParser)
    (h : GivesGraph env clients graph) :
    ((∃ definitions, getValidatedActivities env clients nodesInfo activity = .ok definitions) ↔
      (¬ ∃ a, SharedAlias nodesInfo.values a) ∧
        ∀ act ∈ activity, (∃ info, Controlled nodesInfo act.source info) ∧
          ∃ info, Destination nodesInfo graph act.destination info) ∧
    (∀ definitions, getValidatedActivities env clients nodesInfo activity = .ok definitions →
      List.Forall₂ (fun act definition => Resolves nodesInfo graph act definition ∧
        (∀ pk, act.source = .publicKey pk → definition.source.pubkey = pk) ∧
          ∀ pk, act.destination = .publicKey pk → definition.destination.pubkey = pk)
        activity definitions) ∧
    ∀ env' : Environment, GivesGraph env' clients graph →
      ∀ definitions, getValidatedActivities env clients nodesInfo activity = .ok definitions ↔
        getValidatedActivities env' clients nodesInfo activity = .ok definitions := by
  refine ⟨?_, fun definitions hok => ?_, fun env' h' definitions => ?_⟩
  · simp only [getValidatedActivities_ok_iff h, exists_and_left, exists_forall₂_iff,
      exists_resolved_iff]
  · refine ((getValidatedActivities_ok_iff h _).mp hok).2.imp fun act definition hresolved => ?_
    refine ⟨hresolved, fun pk hpk => ?_, fun pk hpk => ?_⟩
    · have hsource := hresolved.source
      rw [hpk] at hsource
      exact hsource.pubkey
    · have hdestination := hresolved.destination
      rw [hpk] at hdestination
      exact hdestination.pubkey
  · rw [getValidatedActivities_ok_iff h, getValidatedActivities_ok_iff h']

/-! ## Two clients, one of which knows no graph -/

/-- The client that the map gives first by default fails to give its graph. -/
def sampleClients : Table PublicKey LightningNode :=
  ((∅ : Table PublicKey LightningNode).insert ⟨1⟩ (sampleClient ⟨1⟩ "first")).insert ⟨2⟩
    { sampleClient ⟨2⟩ "second" with getGraph := .error "GetGraphError" }

def sampleDirectory : NodeDirectory :=
  (NodeDirectory.empty.insert (nodeInfo ⟨1⟩ "first")).insert (nodeInfo ⟨2⟩ "second")

def namedActivity : ActivityParser where
  source := .publicKey ⟨1⟩
  destination := .aliasName "second"
  startSecs := none
  count := none
  intervalSecs := .fixed 1
  amountMsat := .fixed 1000

/-- The clients are iterated over the other way round. -/
def otherEnvironment : Environment :=
  { sampleEnvironment with clients := ⟨List.reverse, fun l => List.reverse_perm l⟩ }

theorem not_sharedAlias_sampleDirectory : ¬ ∃ a, SharedAlias sampleDirectory.values a := by
  rintro ⟨a, -, info, hinfo, other, hother, hne, halias, halias'⟩
  have hvalues : sampleDirectory.values = [nodeInfo ⟨2⟩ "second", nodeInfo ⟨1⟩ "first"] := by rfl
  rw [hvalues] at hinfo hother
  simp only [List.mem_cons, List.not_mem_nil, or_false] at hinfo hother
  rcases hinfo with rfl | rfl
  · rcases hother with rfl | rfl
    · exact hne rfl
    · exact absurd (halias.trans halias'.symm) (by decide)
  · rcases hother with rfl | rfl
    · exact absurd (halias.trans halias'.symm) (by decide)
    · exact hne rfl

theorem resolves_namedActivity (graph : Graph) : ∀ act ∈ [namedActivity],
    (∃ info, Controlled sampleDirectory act.source info) ∧
      ∃ info, Destination sampleDirectory graph act.destination info := by
  intro act hact
  obtain rfl := List.mem_singleton.mp hact
  refine ⟨⟨nodeInfo ⟨1⟩ "first", by rfl⟩, nodeInfo ⟨2⟩ "second", .inl ⟨by decide, ?_, rfl⟩⟩
  exact List.mem_cons_self

theorem getValidatedActivities_exact_sample :
    ∃ definitions, getValidatedActivities otherEnvironment sampleClients sampleDirectory
      [namedActivity] = .ok definitions :=
  (getValidatedActivities_exact otherEnvironment sampleClients ⟨.empty⟩ sampleDirectory
    [namedActivity] ⟨_, rfl, rfl⟩).1.mpr
      ⟨not_sharedAlias_sampleDirectory, resolves_namedActivity _⟩

/-- One of the clients gives a graph and all names denote something, but activities are accepted in
one order of the clients and refused in another. -/
theorem getValidatedActivities_depends_on_order :
    (∃ key client, sampleClients.lookup key = some client ∧ client.getGraph = .ok ⟨.empty⟩) ∧
      (¬ ∃ a, SharedAlias sampleDirectory.values a) ∧
      (∀ act ∈ [namedActivity], (∃ info, Controlled sampleDirectory act.source info) ∧
        ∃ info, Destination sampleDirectory ⟨.empty⟩ act.destination info) ∧
      (∃ e, getValidatedActivities sampleEnvironment sampleClients sampleDirectory [namedActivity]
        = .error e) ∧
      ∃ definitions, getValidatedActivities otherEnvironment sampleClients sampleDirectory
        [namedActivity] = .ok definitions :=
  ⟨⟨⟨1⟩, sampleClient ⟨1⟩ "first", rfl, rfl⟩, not_sharedAlias_sampleDirectory,
    resolves_namedActivity _, ⟨_, rfl⟩, ⟨_, rfl⟩⟩

end SimLn
