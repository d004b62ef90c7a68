import SimLn.Directory

/-!
# SimLn — nodes configured twice

`addNodeToMaps` means to refuse a key or an alias that two nodes report. By then `getClients` has
collected the nodes by key, where of two nodes with one key the later one replaces the other, so that
a shared key is never noticed. A shared alias is, once the client that is asked first has given its
graph.
-/

namespace SimLn

open Lib

def duplicatedNode (pk : PublicKey) : LightningError :=
  .validationError s!"duplicated node: {pk}."

def duplicatedAlias (a : String) : LightningError :=
  .validationError s!"duplicated alias: {a}."

/-- Two of the nodes report the key. -/
def SharedKey (infos : List NodeInfo) (pk : PublicKey) : Prop :=
  2 ≤ (infos.map (·.pubkey)).count pk

/-- The map of the connected nodes by key. -/
def clientsByKey (clients : List LightningNode) : Table PublicKey LightningNode :=
  clients.foldl (fun map node => map.insert node.getInfo.pubkey node) ∅

/-- Nodes that share a key or an alias are refused for that reason, and others are all connected. -/
structure DuplicatesRejected {κ : Type} (env : Environment)
    (connect : κ → Except LightningError LightningNode) (nodes : List κ)
    (activity : List ActivityParser) (clients : List LightningNode) : Prop where
  key : (∃ pk, SharedKey (clients.map (·.getInfo)) pk) →
    ∃ pk, SharedKey (clients.map (·.getInfo)) pk ∧
      createSimulation env connect nodes activity = .error (duplicatedNode pk)
  sameAlias : (∃ a, SharedAlias (clients.map (·.getInfo)) a) →
    ∃ a, SharedAlias (clients.map (·.getInfo)) a ∧
      createSimulation env connect nodes activity = .error (duplicatedAlias a)
  otherwise : (¬ ∃ pk, SharedKey (clients.map (·.getInfo)) pk) →
    (¬ ∃ a, SharedAlias (clients.map (·.getInfo)) a) →
      (∀ pk, createSimulation env connect nodes activity ≠ .error (duplicatedNode pk)) ∧
      (∀ a, createSimulation env connect nodes activity ≠ .error (duplicatedAlias a)) ∧
      ∃ map infos, getClients connect nodes = .ok (map, infos) ∧
        ∀ client ∈ clients, map.lookup client.getInfo.pubkey = some client

/-! ## Telling the errors apart -/

/-- The two errors are told apart by their texts. -/
theorem duplicatedNode_ne_duplicatedAlias (pk : PublicKey) (a : String) :
    duplicatedNode pk ≠ duplicatedAlias a := by
  intro h
  have htexts := LightningError.validationError.inj h
  rw [String.append_assoc, String.append_assoc] at htexts
  exact append_ne_append 11 (by rfl) (by rfl) (by decide) htexts

/-- The errors of finding the nodes of an activity begin unlike those of the maps. -/
def Unfound (e : LightningError) : Prop :=
  ∃ p s : String, e = .validationError (p ++ s) ∧ ∃ x, p.toList[0]? = some x ∧ x ≠ 'd'

/-- A node that is not found is not reported as duplicated. -/
theorem Unfound.ne_duplicatedNode {e : LightningError} (h : Unfound e) (pk : PublicKey) :
    e ≠ duplicatedNode pk := by
  obtain ⟨p, s, rfl, x, hx, hne⟩ := h
  intro heq
  have htexts := LightningError.validationError.inj heq
  rw [String.append_assoc] at htexts
  exact append_ne_append 0 hx (by rfl) hne htexts

/-- Nor as having a duplicated alias. -/
theorem Unfound.ne_duplicatedAlias {e : LightningError} (h : Unfound e) (a : String) :
    e ≠ duplicatedAlias a := by
  obtain ⟨p, s, rfl, x, hx, hne⟩ := h
  intro heq
  have htexts := LightningError.validationError.inj heq
  rw [String.append_assoc] at htexts
  exact append_ne_append 0 hx (by rfl) hne htexts

namespace ActivityValidationParams

variable {debug : List PublicKey → String} {params : ActivityValidationParams} {id : NodeId}
  {e : LightningError}

/-- A source fails only if it is not found. -/
theorem unfound_of_source (h : params.source id = .error e) : Unfound e := by
  unfold source at h
  split at h
  · cases h
  · cases h
    rw [String.append_assoc]
    exact ⟨_, _, rfl, 'a', by rfl, by decide⟩

/-- A destination fails only if it is not found. -/
theorem unfound_of_destination (h : params.destination debug id = .error e) : Unfound e := by
  have hunknown : Unfound (.validationError s!"unknown activity destination: {id}.") := by
    rw [String.append_assoc]
    exact ⟨_, _, rfl, 'u', by rfl, by decide⟩
  unfold destination at h
  split at h
  · split at h
    · cases h
    · split at h
      · cases h
      · cases h
        rw [String.append_assoc, String.append_assoc]
        exact ⟨_, _, rfl, 'M', by rfl, by decide⟩
      · cases h
        exact hunknown
  · split at h
    · cases h
    · split at h
      · cases h
      · cases h
        exact hunknown

/-- An activity fails only if one of its nodes is not found. -/
theorem unfound_of_definition {act : ActivityParser} (h : params.definition debug act = .error e) :
    Unfound e := by
  unfold definition at h
  cases hsource : params.source act.source with
  | error e' =>
    rw [hsource] at h
    cases h
    exact unfound_of_source hsource
  | ok source =>
    cases hdest : params.destination debug act.destination with
    | error e' =>
      rw [hsource, hdest] at h
      cases h
      exact unfound_of_destination hdest
    | ok destination =>
      rw [hsource, hdest] at h
      cases h

end ActivityValidationParams

/-- A list of activities fails only if a node is not found. -/
theorem unfound_of_validateActivities {debug : List PublicKey → String}
    {activity : List ActivityParser} {params : ActivityValidationParams} {e : LightningError}
    (h : validateActivities debug activity params = .error e) : Unfound e := by
  unfold validateActivities at h
  obtain ⟨act, -, hact⟩ := exists_error_of_mapM h
  exact ActivityValidationParams.unfound_of_definition hact

/-! ## What building the simulation makes of the connected nodes -/

/-- The directory of the connected nodes. -/
def infosByKey (clients : List LightningNode) : NodeDirectory :=
  (clients.map (·.getInfo)).foldl .insert .empty

variable {κ : Type} {env : Environment} {connect : κ → Except LightningError LightningNode}
  {nodes : List κ} {activity : List ActivityParser} {clients : List LightningNode}

/-- Induction on the connections, with the maps that have been filled before. -/
theorem getClients_eq (h : nodes.mapM connect = .ok clients) :
    getClients connect nodes = .ok (clientsByKey clients, infosByKey clients) := by
  unfold getClients clientsByKey infosByKey
  have hrel := forall₂_of_mapM h
  generalize (∅ : Table PublicKey LightningNode) = map
  generalize NodeDirectory.empty = infos
  clear h
  induction hrel generalizing map infos with
  | nil => rfl
  | cons hhead _ ih =>
    rw [List.foldlM_cons, hhead]
    exact ih _ _

/-- The infos that are kept are those of clients. -/
theorem mem_values_infosByKey {info : NodeInfo} (h : info ∈ (infosByKey clients).values) :
    info ∈ clients.map (·.getInfo) := by
  have hlookup := NodeDirectory.lookup_eq_some_iff.mpr ⟨h, rfl⟩
  unfold infosByKey at hlookup
  rw [NodeDirectory.lookup_foldl_insert, Option.or_eq_some_iff] at hlookup
  rcases hlookup with hlast | ⟨-, hempty⟩
  · exact (List.mem_filter.mp (List.mem_of_getLast? hlast)).1
  · cases hempty

/-- With distinct keys those of all clients are kept. -/
theorem mem_values_infosByKey_iff (hkeys : ((clients.map (·.getInfo)).map (·.pubkey)).Nodup)
    (info : NodeInfo) : info ∈ (infosByKey clients).values ↔ info ∈ clients.map (·.getInfo) := by
  refine ⟨mem_values_infosByKey, fun hmem => ?_⟩
  have hlookup : (infosByKey clients).lookup info.pubkey = some info := by
    unfold infosByKey
    rw [NodeDirectory.lookup_foldl_insert, getLast?_filter_of_nodup hkeys hmem]
    rfl
  exact (NodeDirectory.lookup_eq_some_iff.mp hlookup).1

/-- With distinct keys every client is kept. -/
theorem lookup_clientsByKey (hkeys : ((clients.map (·.getInfo)).map (·.pubkey)).Nodup)
    {client : LightningNode} (hclient : client ∈ clients) :
    (clientsByKey clients).lookup client.getInfo.pubkey = some client := by
  rw [List.map_map] at hkeys
  have hlast := getLast?_filter_of_nodup hkeys hclient
  unfold clientsByKey
  have hlookup := Table.lookup_foldl_insert (fun node => node.getInfo.pubkey)
    (fun node : LightningNode => node) clients ∅ client.getInfo.pubkey
  rw [Option.map_id'] at hlookup
  rw [hlookup]
  exact Option.or_eq_some_iff.mpr (.inl hlast)

/-- The errors are those of validation. -/
theorem createSimulation_error (h : nodes.mapM connect = .ok clients) {e : LightningError} :
    createSimulation env connect nodes activity = .error e ↔
      getValidatedActivities env (clientsByKey clients) (infosByKey clients) activity = .error e := by
  unfold createSimulation
  rw [getClients_eq h]
  cases hvalid : getValidatedActivities env (clientsByKey clients) (infosByKey clients) activity with
  | error e' => simp only [hvalid, Except.error.injEq]
  | ok definitions => simp only [hvalid, reduceCtorEq]

/-- What building the simulation can fail with: there is no graph, two nodes share an alias or an
activity names an unknown node. -/
theorem createSimulation_error_cases (h : nodes.mapM connect = .ok clients) {e : LightningError}
    (herror : createSimulation env connect nodes activity = .error e) :
    (∃ text, e = .getGraphError text) ∨
      ((∃ graph, GivesGraph env (clientsByKey clients) graph) ∧
        ∃ a, SharedAlias (infosByKey clients).values a ∧ e = duplicatedAlias a) ∨ Unfound e := by
  rw [createSimulation_error h] at herror
  by_cases hgives : ∃ graph, GivesGraph env (clientsByKey clients) graph
  · obtain ⟨graph, hgraph⟩ := hgives
    rcases getValidatedActivities_cases hgraph (infosByKey clients) activity
      with ⟨a, ha, heq⟩ | ⟨mapping, -, heq⟩
    · rw [heq] at herror
      exact .inr (.inl ⟨⟨graph, hgraph⟩, a, ha, (Except.error.inj herror).symm⟩)
    · rw [heq] at herror
      exact .inr (.inr (unfound_of_validateActivities herror))
  · obtain ⟨text, heq⟩ := getValidatedActivities_of_not_givesGraph hgives (infosByKey clients) activity
    rw [heq] at herror
    exact .inl ⟨text, (Except.error.inj herror).symm⟩

/-- A shared key is never the reason. -/
theorem createSimulation_ne_duplicatedNode (h : nodes.mapM connect = .ok clients) (pk : PublicKey) :
    createSimulation env connect nodes activity ≠ .error (duplicatedNode pk) := by
  intro herror
  rcases createSimulation_error_cases h herror with ⟨text, heq⟩ | ⟨-, a, -, heq⟩ | hunfound
  · cases heq
  · exact duplicatedNode_ne_duplicatedAlias pk a heq
  · exact hunfound.ne_duplicatedNode pk rfl

/-- A shared alias is the reason if there is a graph and nodes of different keys do share one. -/
theorem createSimulation_duplicatedAlias (h : nodes.mapM connect = .ok clients)
    (hgives : ∃ graph, GivesGraph env (clientsByKey clients) graph)
    (hshared : ∃ a, SharedAlias (infosByKey clients).values a) :
    ∃ a, SharedAlias (infosByKey clients).values a ∧
      createSimulation env connect nodes activity = .error (duplicatedAlias a) := by
  obtain ⟨graph, hgives⟩ := hgives
  rcases getValidatedActivities_cases hgives (infosByKey clients) activity
    with ⟨a, ha, heq⟩ | ⟨mapping, hmaps, -⟩
  · exact ⟨a, ha, (createSimulation_error h).mpr heq⟩
  · obtain ⟨a, ha⟩ := hshared
    exact absurd ha (hmaps.not_sharedAlias a)

/-- Without a shared alias among the clients that are kept none is reported. -/
theorem createSimulation_ne_duplicatedAlias (h : nodes.mapM connect = .ok clients)
    (hnot : (∃ graph, GivesGraph env (clientsByKey clients) graph) →
      ¬ ∃ a, SharedAlias (infosByKey clients).values a) (a : String) :
    createSimulation env connect nodes activity ≠ .error (duplicatedAlias a) := by
  intro herror
  rcases createSimulation_error_cases h herror with ⟨text, heq⟩ | ⟨hgives, b, hb, -⟩ | hunfound
  · cases heq
  · exact hnot hgives ⟨b, hb⟩
  · exact hunfound.ne_duplicatedAlias a rfl

/-! ## When duplicates are rejected -/

/-- Keys are distinct if no two nodes share one. -/
theorem nodup_iff_not_sharedKey (infos : List NodeInfo) :
    (infos.map (·.pubkey)).Nodup ↔ ∀ pk, ¬ SharedKey infos pk := by
  rw [List.nodup_iff_count_le_one]
  constructor
  · intro h pk hshared
    have := h pk
    unfold SharedKey at hshared
    omega
  · intro h pk
    have := h pk
    unfold SharedKey at this
    omega

/-- **Duplicates are rejected** exactly if no key is shared and, where an alias is, the client that
is asked for its graph gives one. -/
theorem duplicatesRejected_iff (env : Environment)
    (connect : κ → Except LightningError LightningNode) (nodes : List κ)
    (activity : List ActivityParser) {clients : List LightningNode}
    (h : nodes.mapM connect = .ok clients) :
    DuplicatesRejected env connect nodes activity clients ↔
      (∀ pk, ¬ SharedKey (clients.map (·.getInfo)) pk) ∧
        ((∃ a, SharedAlias (clients.map (·.getInfo)) a) →
          ∃ graph, GivesGraph env (clientsByKey clients) graph) := by
  constructor
  · intro hrejected
    have hunique : ∀ pk, ¬ SharedKey (clients.map (·.getInfo)) pk := by
      intro pk hpk
      obtain ⟨pk', -, herror⟩ := hrejected.key ⟨pk, hpk⟩
      exact createSimulation_ne_duplicatedNode h pk' herror
    refine ⟨hunique, fun hshared => ?_⟩
    obtain ⟨a, -, herror⟩ := hrejected.sameAlias hshared
    by_contra hgives
    exact createSimulation_ne_duplicatedAlias h (fun hgives' => absurd hgives' hgives) a herror
  · rintro ⟨hunique, hgives⟩
    have hkeys := (nodup_iff_not_sharedKey _).mpr hunique
    have hvalues := mem_values_infosByKey_iff hkeys
    refine ⟨fun hkey => ?_, fun hshared => ?_, fun _ hnone => ⟨?_, ?_, ?_⟩⟩
    · obtain ⟨pk, hpk⟩ := hkey
      exact absurd hpk (hunique pk)
    · obtain ⟨a, ha⟩ := hshared
      obtain ⟨b, hb, herror⟩ := createSimulation_duplicatedAlias h (hgives ⟨a, ha⟩)
        ⟨a, ha.mono fun info => (hvalues info).mpr⟩
      exact ⟨b, hb.mono fun info => (hvalues info).mp, herror⟩
    · exact createSimulation_ne_duplicatedNode h
    · refine createSimulation_ne_duplicatedAlias h fun _ hshared => ?_
      obtain ⟨a, ha⟩ := hshared
      exact hnone ⟨a, ha.mono fun info => (hvalues info).mp⟩
    · exact ⟨_, _, getClients_eq h, fun client hclient => lookup_clientsByKey hkeys hclient⟩

/-! ## Two nodes with one key, two nodes with one alias -/

/-- Two nodes with one alias are refused. -/
theorem duplicatesRejected_one_alias :
    DuplicatesRejected sampleEnvironment .ok [sampleClient ⟨1⟩ "node", sampleClient ⟨2⟩ "node"] []
      [sampleClient ⟨1⟩ "node", sampleClient ⟨2⟩ "node"] := by
  refine (duplicatesRejected_iff sampleEnvironment .ok _ [] rfl).mpr ⟨?_, fun _ => ?_⟩
  · exact (nodup_iff_not_sharedKey _).mp (by decide)
  · exact ⟨⟨.empty⟩, _, rfl, rfl⟩

/-- Two connections report one key, and the simulation is built with the second of them only. -/
theorem not_duplicatesRejected_one_key :
    SharedKey ([sampleClient ⟨1⟩ "first", sampleClient ⟨1⟩ "second"].map (·.getInfo)) ⟨1⟩ ∧
      (∃ built, createSimulation sampleEnvironment .ok
        [sampleClient ⟨1⟩ "first", sampleClient ⟨1⟩ "second"] [] = .ok built ∧
          built.1.entries.map (·.2.getInfo.aliasName) = ["second"]) ∧
      ¬ DuplicatesRejected sampleEnvironment .ok
        [sampleClient ⟨1⟩ "first", sampleClient ⟨1⟩ "second"] []
        [sampleClient ⟨1⟩ "first", sampleClient ⟨1⟩ "second"] := by
  have hshared : SharedKey
      ([sampleClient ⟨1⟩ "first", sampleClient ⟨1⟩ "second"].map (·.getInfo)) ⟨1⟩ := by
    unfold SharedKey
    decide
  refine ⟨hshared, ⟨_, rfl, rfl⟩, fun hrejected => ?_⟩
  obtain ⟨pk, -, herror⟩ := hrejected.key ⟨_, hshared⟩
  cases herror

end SimLn
