import SimLn.Network
import Mathlib.Algebra.BigOperators.Ring.List

/-!
# SimLn — the node index of the simulated network

`SimGraph.new` keeps two maps: the channels by id and the nodes with the ids of their channels. An
accepted list determines both. Every channel stands under its two nodes, which is why the capacity
of a node is halved before capacities of different nodes are added up.
-/

namespace SimLn

open Lib

namespace SimGraph

/-! ## When a list is accepted -/

/-- A channel is added exactly when it validates and its id is new. -/
theorem exists_addChannel_iff (acc : Nodes × Channels) (channel : SimulatedChannel) :
    (∃ acc', addChannel acc channel = .ok acc') ↔
      channel.validate = .ok () ∧ channel.shortChannelId ∉ acc.2 := by
  constructor
  · rintro ⟨acc', h⟩
    obtain ⟨hvalid, hfresh, -⟩ := addChannel_eq_ok h
    exact ⟨hvalid, hfresh⟩
  · rintro ⟨hvalid, hfresh⟩
    unfold addChannel
    simp only [hvalid, if_neg hfresh]
    exact ⟨_, rfl⟩

/-- Induction on the list, with the ids that the loop has seen already. -/
theorem exists_foldlM_addChannel_iff (list : List SimulatedChannel) (acc : Nodes × Channels) :
    (∃ acc', list.foldlM addChannel acc = .ok acc') ↔
      (∀ c ∈ list, c.validate = .ok ()) ∧ (list.map (·.shortChannelId)).Nodup ∧
        ∀ c ∈ list, c.shortChannelId ∉ acc.2 := by
  induction list generalizing acc with
  | nil => simp [pure, Except.pure]
  | cons channel rest ih =>
    constructor
    · rintro ⟨acc', h⟩
      obtain ⟨mid, hadd, hrest⟩ := foldlM_cons_ok h
      obtain ⟨hvalid, hfresh, rfl⟩ := addChannel_eq_ok hadd
      obtain ⟨hvalids, hnodup, hunseen⟩ := (ih _).mp ⟨acc', hrest⟩
      simp only [AList.mem_insert, not_or] at hunseen
      refine ⟨List.forall_mem_cons.mpr ⟨hvalid, hvalids⟩, ?_,
        List.forall_mem_cons.mpr ⟨hfresh, fun c hc => (hunseen c hc).2⟩⟩
      rw [List.map_cons, List.nodup_cons]
      refine ⟨fun hmem => ?_, hnodup⟩
      obtain ⟨c, hc, heq⟩ := List.mem_map.mp hmem
      exact (hunseen c hc).1 heq
    · rintro ⟨hvalids, hnodup, hunseen⟩
      rw [List.map_cons, List.nodup_cons] at hnodup
      obtain ⟨mid, hadd⟩ := (exists_addChannel_iff acc channel).mpr
        ⟨hvalids channel List.mem_cons_self, hunseen channel List.mem_cons_self⟩
      obtain ⟨-, -, rfl⟩ := addChannel_eq_ok hadd
      rw [List.foldlM_cons, hadd]
      apply (ih _).mpr
      refine ⟨fun c hc => hvalids c (List.mem_cons_of_mem _ hc), hnodup.2, fun c hc => ?_⟩
      rw [AList.mem_insert, not_or]
      refine ⟨fun heq => hnodup.1 ?_, hunseen c (List.mem_cons_of_mem _ hc)⟩
      rw [← heq]
      exact List.mem_map_of_mem hc

/-- A list is accepted exactly when every channel validates and no id comes twice. -/
theorem exists_new_iff (list : List SimulatedChannel) (interceptors : List Interceptor)
    (records : CustomRecords) :
    (∃ g, new list interceptors records = .ok g) ↔
      (∀ c ∈ list, c.validate = .ok ()) ∧ (list.map (·.shortChannelId)).Nodup := by
  constructor
  · rintro ⟨g, h⟩
    obtain ⟨hvalids, hnodup, -⟩ := (exists_foldlM_addChannel_iff _ _).mp ⟨_, foldlM_of_new h⟩
    exact ⟨hvalids, hnodup⟩
  · rintro ⟨hvalids, hnodup⟩
    obtain ⟨acc, hacc⟩ := (exists_foldlM_addChannel_iff list (∅, ∅)).mpr
      ⟨hvalids, hnodup, fun c _ => AList.notMem_empty _⟩
    unfold new
    rw [hacc]
    exact ⟨_, rfl⟩

variable {list : List SimulatedChannel} {interceptors : List Interceptor} {records : CustomRecords}
  {g : SimGraph}

theorem nodup_of_new (h : new list interceptors records = .ok g) :
    (list.map (·.shortChannelId)).Nodup :=
  ((exists_new_iff _ _ _).mp ⟨g, h⟩).2

/-! ## The two maps -/

/-- The channel map holds the list's channels, each under its own id. -/
theorem channels_new (h : new list interceptors records = .ok g) :
    g.channels.entries.Perm (list.map fun c => ⟨c.shortChannelId, c⟩) := by
  have hnodup : (list.map fun c => (⟨c.shortChannelId, c⟩ :
      Sigma fun _ : ShortChannelID => SimulatedChannel)).Nodup := by
    apply List.Nodup.of_map Sigma.fst
    rw [List.map_map]
    exact nodup_of_new h
  refine (List.perm_ext_iff_of_nodup g.channels.nodupKeys.nodup hnodup).mpr fun e => ?_
  rw [← AList.mem_lookup_iff, Option.mem_def, lookup_new h, List.mem_map]
  constructor
  · rintro ⟨hc, heq⟩
    exact ⟨e.2, hc, by rw [heq]⟩
  · rintro ⟨c, hc, rfl⟩
    exact ⟨hc, rfl⟩

theorem mem_addNode {nodes : Nodes} {info : ChannelPolicy} {scid : ShortChannelID}
    {key : PublicKey} : key ∈ addNode nodes info scid ↔ info.pubkey = key ∨ key ∈ nodes := by
  unfold addNode
  split
  · rw [AList.mem_insert, eq_comm]
  · rw [AList.mem_insert, eq_comm]

/-- The node map gains exactly the nodes that the channels touch. -/
theorem mem_foldlM_addChannel {acc acc' : Nodes × Channels}
    (h : list.foldlM addChannel acc = .ok acc') (key : PublicKey) :
    key ∈ acc'.1 ↔ key ∈ acc.1 ∨ ∃ c ∈ list, c.touches key := by
  induction list generalizing acc with
  | nil =>
    obtain rfl : acc = acc' := Except.ok.inj h
    simp
  | cons channel rest ih =>
    obtain ⟨mid, hadd, hrest⟩ := foldlM_cons_ok h
    obtain ⟨-, -, rfl⟩ := addChannel_eq_ok hadd
    rw [ih hrest, mem_addNode, mem_addNode]
    simp only [List.exists_mem_cons_iff, SimulatedChannel.touches, Bool.or_eq_true,
      decide_eq_true_eq]
    grind

/-- The node map has exactly the nodes at the ends of the channels. -/
theorem mem_nodes_new (h : new list interceptors records = .ok g) (key : PublicKey) :
    key ∈ g.nodes ↔ ∃ c ∈ list, c.touches key := by
  rw [mem_foldlM_addChannel (foldlM_of_new h) key]
  simp

/-- The ids under a key are those of the channels that it is an endpoint of, each once. -/
theorem scids_new (h : new list interceptors records = .ok g) {key : PublicKey}
    {node : NodeInfo × List ShortChannelID} (hnode : g.nodes.lookup key = some node) :
    node.2.Nodup ∧
      ∀ scid, scid ∈ node.2 ↔ ∃ c ∈ list, c.touches key ∧ c.shortChannelId = scid := by
  have hscids : node.2 = (list.filter (·.touches key)).map (·.shortChannelId) := by
    rw [← (nodes_new h).2 key, scidsOf, hnode]
    rfl
  rw [hscids]
  constructor
  · exact (nodup_of_new h).sublist (List.filter_sublist.map _)
  · intro scid
    simp only [List.mem_map, List.mem_filter, and_assoc]

/-! ## Summing over all nodes -/

/-- The keys of an accepted graph meet each of its channels twice. -/
theorem countP_touches (h : new list interceptors records = .ok g) {keys : List PublicKey}
    (hkeys : keys.Perm g.nodes.entries.keys) {c : SimulatedChannel} (hc : c ∈ list) :
    keys.countP (c.touches ·) = 2 := by
  have hmem : ∀ key, c.touches key → key ∈ keys := by
    intro key htouches
    rw [hkeys.mem_iff]
    exact AList.mem_keys.mp ((mem_nodes_new h key).mpr ⟨c, hc, htouches⟩)
  have hvalid := ((exists_new_iff _ _ _).mp ⟨g, h⟩).1 c hc
  apply countP_pair_of_nodup (hkeys.nodup_iff.mpr g.nodes.nodupKeys)
  · exact pubkey_ne_of_validate hvalid
  · apply hmem
    simp [SimulatedChannel.touches]
  · apply hmem
    simp [SimulatedChannel.touches]

/-- What all nodes report together, in whatever order they are asked. -/
theorem lookupNode_all (h : new list interceptors records = .ok g) {keys : List PublicKey}
    (hkeys : keys.Perm g.nodes.entries.keys) :
    ∃ reports, keys.mapM g.lookupNode = .ok reports ∧
      (reports.map fun report => (report.2.map UInt64.toNat).sum).sum
        = 2 * ((list.filter (!·.excludeCapacity)).map (·.capacityMsat.toNat)).sum := by
  have hlookup : ∀ key ∈ keys, ∃ info, g.lookupNode key = .ok (info,
      ((list.filter (·.touches key)).filter (!·.excludeCapacity)).map (·.capacityMsat)) := by
    intro key hkey
    rw [hkeys.mem_iff] at hkey
    obtain ⟨node, hnode⟩ := Option.isSome_iff_exists.mp (AList.lookup_isSome.mpr hkey)
    exact ⟨node.1, lookupNode_new h hnode⟩
  obtain ⟨reports, hreports⟩ := exists_mapM_of_forall fun key hkey =>
    ⟨_, (hlookup key hkey).choose_spec⟩
  refine ⟨reports, hreports, ?_⟩
  -- each report is the sum over the channels that count and touch its key
  have hsums : reports.map (fun report => (report.2.map UInt64.toNat).sum)
      = keys.map fun key => (((list.filter (!·.excludeCapacity)).filter
        (SimulatedChannel.touches · key)).map (·.capacityMsat.toNat)).sum := by
    refine map_eq_of_forall₂ (forall₂_of_mapM hreports) fun key hkey report hreport => ?_
    obtain ⟨info, hinfo⟩ := hlookup key hkey
    obtain rfl := Except.ok.inj (hinfo.symm.trans hreport)
    rw [List.filter_comm, List.map_map]
    rfl
  rw [hsums, sum_incidence (fun key c => SimulatedChannel.touches c key)]
  rw [← List.sum_map_mul_left]
  congr 1
  apply List.map_congr_left
  intro c hc
  rw [countP_touches h hkeys (List.mem_filter.mp hc).1]

/-! ## The index as a whole -/

/-- **The index agrees with the channels.** When a list is accepted, what both maps hold then, and
what the capacities of all nodes add up to. -/
theorem new_index (list : List SimulatedChannel) (interceptors : List Interceptor)
    (records : CustomRecords) :
    ((∃ g, new list interceptors records = .ok g) ↔
      (∀ c ∈ list, c.validate = .ok ()) ∧ (list.map (·.shortChannelId)).Nodup) ∧
    ∀ g, new list interceptors records = .ok g →
      g.channels.entries.Perm (list.map fun c => ⟨c.shortChannelId, c⟩) ∧
      (∀ key, key ∈ g.nodes ↔
        ∃ c ∈ list, c.node1.policy.pubkey = key ∨ c.node2.policy.pubkey = key) ∧
      (∀ key info scids, g.nodes.lookup key = some (info, scids) → scids.Nodup ∧
        ∀ scid, scid ∈ scids ↔ ∃ c ∈ list,
          (c.node1.policy.pubkey = key ∨ c.node2.policy.pubkey = key) ∧
            c.shortChannelId = scid) ∧
      ∀ keys : List PublicKey, keys.Perm g.nodes.entries.keys →
        ∃ reports, keys.mapM g.lookupNode = .ok reports ∧
          (reports.map fun report => (report.2.map UInt64.toNat).sum).sum
            = 2 * ((list.filter (!·.excludeCapacity)).map (·.capacityMsat.toNat)).sum := by
  refine ⟨exists_new_iff list interceptors records, fun g h => ⟨channels_new h, ?_, ?_, ?_⟩⟩
  · intro key
    rw [mem_nodes_new h key]
    simp only [SimulatedChannel.touches, Bool.or_eq_true, decide_eq_true_eq]
  · intro key info scids hnode
    obtain ⟨hnodup, hmem⟩ := scids_new h hnode
    refine ⟨hnodup, fun scid => ?_⟩
    rw [hmem scid]
    simp only [SimulatedChannel.touches, Bool.or_eq_true, decide_eq_true_eq]
  · exact fun keys hkeys => lookupNode_all h hkeys

/-- Three nodes report 400000 for two channels of 100000 together. -/
theorem new_index_sample : ∃ g, new [aliceBob, bobCarol] [] ∅ = .ok g ∧
    ∀ keys : List PublicKey, keys.Perm g.nodes.entries.keys →
      ∃ reports, keys.mapM g.lookupNode = .ok reports ∧
        (reports.map fun report => (report.2.map UInt64.toNat).sum).sum = 400000 := by
  obtain ⟨g, hg, -⟩ := new_threeNodes
  obtain ⟨-, -, -, hsum⟩ := (new_index [aliceBob, bobCarol] [] ∅).2 g hg
  exact ⟨g, hg, hsum⟩

end SimGraph

end SimLn
