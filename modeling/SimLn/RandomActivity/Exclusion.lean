import SimLn.Network
import SimLn.RandomActivity.Capacity
import SimLn.Scheduler.Drawn

/-!
# SimLn — random activity without excluded nodes

Excluded nodes are left out of random activity in two ways: the simulation is not given them, so that
they neither pay nor are paid, and the channels that they are part of are not counted in what the
other nodes report. `Drawn` follows the events of a run back to the executors that drew them, and
these to the active nodes.

The capacities of a node are summed up in `u64`. If the sum does not fit, the node takes part with
what is left of it (`excludedTakeNoPart_iff`).
-/

namespace SimLn

open Lib

/-! ## What the nodes report -/

/-- The reports of the nodes, in the order that their map is iterated in. -/
def nodeReports (graph : SimGraph) (order : List (Sigma fun _ : PublicKey => SimNode)) :
    List NodeReport :=
  order.map fun e => ⟨e.2.channelCapacities graph, SimNode.getNodeInfo graph e.1⟩

section Network

variable {F σ γ ε : Type} {f : Float64 F} {rand : Rand F σ} {cfg : RandomActivityCfg F}
  {attempts : Nat} {routing : RoutingGraph γ ε} {clock : Nat → UInt32}
  {simNetwork : List NetworkParser} {exclude : List PublicKey} {interceptors : List Interceptor}
  {records : CustomRecords} {graph : SimGraph} {nodes : Table PublicKey SimNode}
  {order : List (Sigma fun _ : PublicKey => SimNode)}
  {values : List (NodeInfo × UInt64) → List (NodeInfo × UInt64)}
  {kits : List (ExecutorKit (RandomState σ))}

/-- A report is that of a node which the simulation is run with. -/
theorem report_of_created
    (h : createSimulationWithNetwork routing clock simNetwork exclude interceptors records
      = .ok (graph, nodes)) (horder : order.Perm nodes.entries) {report : NodeReport}
    (hreport : report ∈ nodeReports graph order) :
    ∃ key node sum, (⟨key, node⟩ : Sigma fun _ : PublicKey => SimNode) ∈ order ∧ key ∉ exclude ∧
      node.info.pubkey = key ∧ report = ⟨.ok sum, .ok node.info⟩ ∧
      sum.toNat = capacitySum simNetwork exclude key % 2 ^ 64 := by
  obtain ⟨⟨key, node⟩, he, rfl⟩ := List.mem_map.mp hreport
  have hnode : nodes.lookup key = some node :=
    AList.mem_lookup_iff.mpr (horder.mem_iff.mp he)
  obtain ⟨hkey, hpubkey, hinfo, sum, hsum, hexact⟩ := reports_of_created h hnode
  exact ⟨key, node, sum, he, hkey, hpubkey, by rw [hsum, hinfo], hexact⟩

theorem distinctNodes_reports
    (h : createSimulationWithNetwork routing clock simNetwork exclude interceptors records
      = .ok (graph, nodes)) (horder : order.Perm nodes.entries) :
    DistinctNodes (nodeReports graph order) := by
  have hnodup : (order.map Sigma.fst).Nodup := (horder.map _).nodup_iff.mpr nodes.nodupKeys
  have hinfo : ∀ e ∈ order, ∀ x, SimNode.getNodeInfo graph e.1 = .ok x → x.pubkey = e.1 := by
    intro e he x hx
    have hnode : nodes.lookup e.1 = some e.2 := AList.mem_lookup_iff.mpr (horder.mem_iff.mp he)
    obtain ⟨-, hpubkey, hinfo, -⟩ := reports_of_created h hnode
    rw [hinfo] at hx
    cases hx
    exact hpubkey
  unfold DistinctNodes nodeReports
  rw [List.pairwise_map]
  refine List.Pairwise.imp_of_mem ?_ (List.pairwise_map.mp hnodup)
  intro e e' he he' hne x y hx hy
  rw [hinfo e he x hx, hinfo e' he' y hy]
  exact hne

/-- The node takes part: it is not excluded, and its channels that count add up to the threshold. -/
def Participates (cfg : RandomActivityCfg F) (simNetwork : List NetworkParser)
    (exclude : List PublicKey) (key : PublicKey) : Prop :=
  key ∉ exclude ∧
    (2 * cfg.expectedPaymentMsat).toNat ≤ capacitySum simNetwork exclude key

/-- What an active node has reported. -/
theorem participates_of_active
    (h : createSimulationWithNetwork routing clock simNetwork exclude interceptors records
      = .ok (graph, nodes)) (horder : order.Perm nodes.entries) {report : NodeReport}
    (hreport : report ∈ nodeReports graph order) {entry : NodeInfo × UInt64}
    (hactive : report.Active cfg.expectedPaymentMsat entry) :
    Participates cfg simNetwork exclude entry.1.pubkey ∧
      (2 * cfg.expectedPaymentMsat).toNat ≤ capacitySum simNetwork exclude entry.1.pubkey % 2 ^ 64 ∧
      entry.2.toNat = capacitySum simNetwork exclude entry.1.pubkey % 2 ^ 64 / 2 := by
  obtain ⟨key, node, sum, -, hkey, hpubkey, rfl, hexact⟩ := report_of_created h horder hreport
  obtain ⟨capacity, hcapacity, hvalid, hinfo, hhalf⟩ := hactive
  cases hcapacity
  have hsame : node.info = entry.1 := Except.ok.inj hinfo
  rw [← hsame, hpubkey, ← hexact, hhalf, UInt64.toNat_div]
  have hlarge := UInt64.le_iff_toNat_le.mp (RandomPaymentActivity.validateCapacity_eq_ok.mp hvalid)
  have hmod := Nat.mod_le (capacitySum simNetwork exclude key) (2 ^ 64)
  exact ⟨⟨hkey, by omega⟩, hlarge, rfl⟩

/-- A node that is not excluded, with enough capacity in `u64`, is active. -/
theorem exists_active
    (h : createSimulationWithNetwork routing clock simNetwork exclude interceptors records
      = .ok (graph, nodes)) (horder : order.Perm nodes.entries) (hvalues : ∀ l, (values l).Perm l)
    {active : List (NodeInfo × UInt64)}
    (hpass : SecondPass cfg (nodeReports graph order) values active) {key : PublicKey}
    (hkey : key ∉ exclude) (hpos : capacitySum simNetwork exclude key ≠ 0)
    (hlarge : (2 * cfg.expectedPaymentMsat).toNat ≤ capacitySum simNetwork exclude key % 2 ^ 64) :
    ∃ entry ∈ active, entry.1.pubkey = key := by
  obtain ⟨node, hnode⟩ := exists_node_of_created h hkey hpos
  obtain ⟨-, hpubkey, hinfo, sum, hsum, hexact⟩ := reports_of_created h hnode
  have hmem : (⟨key, node⟩ : Sigma fun _ : PublicKey => SimNode) ∈ order :=
    horder.mem_iff.mpr (AList.mem_lookup_iff.mp hnode)
  have hreport : (⟨node.channelCapacities graph, SimNode.getNodeInfo graph key⟩ : NodeReport)
      ∈ nodeReports graph order := List.mem_map.mpr ⟨_, hmem, rfl⟩
  have hvalid : RandomPaymentActivity.validateCapacity sum cfg.expectedPaymentMsat = .ok () := by
    rw [RandomPaymentActivity.validateCapacity_eq_ok, UInt64.le_iff_toNat_le, hexact]
    exact hlarge
  obtain ⟨table, htable, rfl⟩ := hpass
  have hlookup := (lookup_foldlM_activeNodes (distinctNodes_reports h horder)
    (fun _ _ _ _ => AList.lookup_empty _) htable key (node.info, sum / 2)).mpr
      (.inr ⟨_, hreport, ⟨sum, hsum, hvalid, hinfo, rfl⟩, hpubkey⟩)
  refine ⟨(node.info, sum / 2), (hvalues _).mem_iff.mpr ?_, hpubkey⟩
  exact List.mem_map.mpr ⟨_, AList.mem_lookup_iff.mp hlookup, rfl⟩

/-! ## Excluded nodes -/

/-- Excluded nodes take no part in random activity. The capacity of a node is the weight that it is
drawn with as a destination and what its own payments are limited by. -/
structure ExcludedTakeNoPart (f : Float64 F) (rand : Rand F σ) (cfg : RandomActivityCfg F)
    (attempts : Nat) (simNetwork : List NetworkParser) (exclude : List PublicKey)
    (nodes : Table PublicKey NodeInfo) (reports : List NodeReport)
    (values : List (NodeInfo × UInt64) → List (NodeInfo × UInt64))
    (kits : List (ExecutorKit (RandomState σ))) : Prop where
  events : ∀ start g log₀ p clock log s, setupPaymentEvents kits start g = .ok (log₀, p) →
    ClockedRun clock nodes ⟨p, start⟩ log s → ∀ e ∈ s.producer.heap.toList,
      e.source ≠ e.destination.pubkey ∧ Participates cfg simNetwork exclude e.source ∧
        Participates cfg simNetwork exclude e.destination.pubkey
  capacities : ∃ active view, SecondPass cfg reports values active ∧
    NetworkGraphView.new rand active = .ok view ∧ view.nodes.Perm active ∧
    (∀ entry ∈ active, entry.2.toNat = capacitySum simNetwork exclude entry.1.pubkey / 2) ∧
    List.Forall₂ (fun entry kit => ∃ activity : RandomPaymentActivity F σ,
      activity.sourceCapacity = entry.2 ∧ kit.sourceInfo = entry.1 ∧
      kit.networkGenerator = view.destinationGenerator attempts ∧
      kit.paymentGenerator = activity.paymentGenerator f rand entry.1.pubkey) active kits

theorem participates_of_drawn
    (h : createSimulationWithNetwork routing clock simNetwork exclude interceptors records
      = .ok (graph, nodes)) (horder : order.Perm nodes.entries) (hvalues : ∀ l, (values l).Perm l)
    (hkits : randomActivityNodes f rand cfg attempts (nodeReports graph order) values = .ok kits)
    {p : Producer (RandomState σ)} (hdrawn : Drawn kits p) {e : PaymentEvent}
    (he : e ∈ p.heap.toList) :
    e.source ≠ e.destination.pubkey ∧ Participates cfg simNetwork exclude e.source ∧
      Participates cfg simNetwork exclude e.destination.pubkey := by
  obtain ⟨kit, hkit, hsource, g, g', g'', capacity, hdestination, -⟩ := hdrawn.queued e he
  obtain ⟨source, activity, chosen, activity', -, -, hinfo, hchosen, -, hne, ⟨report, hreport, hactive⟩,
    ⟨report', hreport', hactive'⟩, -⟩ := exists_activities hvalues hkits hkit hdestination
  have hkey : source.1.pubkey = e.source := by
    rw [← hsource, ExecutorKit.source, hinfo]
  rw [hchosen, ← hkey]
  exact ⟨hne.symm, (participates_of_active h horder hreport hactive).1,
    (participates_of_active h horder hreport' hactive').1⟩

/-- **Excluded nodes take no part in random activity** exactly if the capacities that count for each
active node add up in `u64`. -/
theorem excludedTakeNoPart_iff
    (h : createSimulationWithNetwork routing clock simNetwork exclude interceptors records
      = .ok (graph, nodes)) (horder : order.Perm nodes.entries) (hvalues : ∀ l, (values l).Perm l)
    (hkits : randomActivityNodes f rand cfg attempts (nodeReports graph order) values = .ok kits) :
    ExcludedTakeNoPart f rand cfg attempts simNetwork exclude (Table.mapValues (·.info) nodes)
        (nodeReports graph order) values kits ↔
      ∀ key, key ∉ exclude →
        (2 * cfg.expectedPaymentMsat).toNat ≤ capacitySum simNetwork exclude key % 2 ^ 64 →
        capacitySum simNetwork exclude key < 2 ^ 64 := by
  constructor
  · rintro ⟨-, active, view, hpass, -, -, hexact, -⟩ key hkey hlarge
    by_contra hover
    obtain ⟨entry, hentry, rfl⟩ := exists_active h horder hvalues hpass hkey (by omega) hlarge
    obtain ⟨report, hreport, hactive⟩ := hpass.active hvalues hentry
    have hhalf := (participates_of_active h horder hreport hactive).2.2
    have hsum := hexact entry hentry
    omega
  · intro hfits
    refine ⟨?_, ?_⟩
    · intro start g log₀ p clock log s hsetup hrun e he
      exact participates_of_drawn h horder hvalues hkits (drawn_run hsetup hrun) he
    · obtain ⟨active, view, hpass, hview, hexecutors⟩ := randomActivityNodes_ok hkits
      refine ⟨active, view, hpass, hview, NetworkGraphView.nodes_perm hview, ?_, ?_⟩
      · intro entry hentry
        obtain ⟨report, hreport, hactive⟩ := hpass.active hvalues hentry
        obtain ⟨hpart, hlarge, hhalf⟩ := participates_of_active h horder hreport hactive
        rw [hhalf, Nat.mod_eq_of_lt (hfits _ hpart.1 hlarge)]
      · refine hexecutors.imp fun entry kit hexecutor => ?_
        obtain ⟨activity, hactivity, hinfo, hnetwork, hpayment⟩ := randomExecutor_ok hexecutor
        exact ⟨activity, (RandomPaymentActivity.new_ok hactivity).2.2.2, hinfo, hnetwork, hpayment⟩

end Network

/-! ## Two small networks -/

/-- A routing graph that takes every message. -/
def anyGraph : RoutingGraph Unit Unit where
  empty := ()
  updateChannelFromUnsignedAnnouncement _ _ := .ok ()
  updateChannelUnsigned _ _ := .ok ()

/-- Two nodes with a channel of 10 BTC, and an excluded one with a channel to the second. -/
def excludedNeighbour : List NetworkParser :=
  [⟨⟨700⟩, 1000000000000, samplePolicy firstKey, samplePolicy secondKey⟩,
    ⟨⟨800⟩, 1000000000000, samplePolicy secondKey, samplePolicy alice⟩]

theorem excludedTakeNoPart_iff_excludedNeighbour : ∃ graph nodes kits,
    createSimulationWithNetwork anyGraph (fun _ => 0) excludedNeighbour [alice] [] ∅
      = .ok (graph, nodes) ∧ nodes.size = 2 ∧
    randomActivityNodes seededFloats seededRand ⟨3800000, 2⟩ 10 (nodeReports graph nodes.entries) id
      = .ok kits ∧ kits.length = 2 ∧
    ExcludedTakeNoPart seededFloats seededRand ⟨3800000, 2⟩ 10 excludedNeighbour [alice]
      (Table.mapValues (·.info) nodes) (nodeReports graph nodes.entries) id kits := by
  have hrun : ∃ graph nodes, createSimulationWithNetwork anyGraph (fun _ => 0) excludedNeighbour
      [alice] [] ∅ = .ok (graph, nodes) ∧ nodes.size = 2 ∧
      ∃ kits, randomActivityNodes seededFloats seededRand ⟨3800000, 2⟩ 10
        (nodeReports graph nodes.entries) id = .ok kits ∧ kits.length = 2 :=
    ⟨_, _, rfl, rfl, _, rfl, rfl⟩
  obtain ⟨graph, nodes, hcreate, hsize, kits, hkits, hlength⟩ := hrun
  refine ⟨graph, nodes, kits, hcreate, hsize, hkits, hlength, ?_⟩
  apply (excludedTakeNoPart_iff hcreate (.refl _) (fun _ => .refl _) hkits).mpr
  intro key _ _
  exact Nat.lt_of_le_of_lt (capacitySum_le _ _ _) (by decide)

/-- Nine channels of 21 million BTC between two nodes. -/
def overflowingNetwork : List NetworkParser :=
  (List.range 9).map fun i =>
    ⟨⟨UInt64.ofNat i⟩, 2100000000000000000, samplePolicy firstKey, samplePolicy secondKey⟩

/-- The sum wraps around: the nodes take part with a fortieth of half their capacity. -/
theorem overflowingNetwork_misses : ∃ graph nodes kits,
    createSimulationWithNetwork anyGraph (fun _ => 0) overflowingNetwork [] [] ∅ = .ok (graph, nodes) ∧
    randomActivityNodes seededFloats seededRand ⟨3800000, 2⟩ 10 (nodeReports graph nodes.entries) id
      = .ok kits ∧
    SecondPass ⟨3800000, (2 : ℚ)⟩ (nodeReports graph nodes.entries) id
      [(nodeInfo firstKey "", 226627963145224192), (nodeInfo secondKey "", 226627963145224192)] ∧
    capacitySum overflowingNetwork [] firstKey / 2 = 9450000000000000000 ∧
    ¬ ExcludedTakeNoPart seededFloats seededRand ⟨3800000, 2⟩ 10 overflowingNetwork []
      (Table.mapValues (·.info) nodes) (nodeReports graph nodes.entries) id kits := by
  have hrun : ∃ graph nodes, createSimulationWithNetwork anyGraph (fun _ => 0) overflowingNetwork
      [] [] ∅ = .ok (graph, nodes) ∧
      (∃ kits, randomActivityNodes seededFloats seededRand ⟨3800000, 2⟩ 10
        (nodeReports graph nodes.entries) id = .ok kits) ∧
      SecondPass ⟨3800000, (2 : ℚ)⟩ (nodeReports graph nodes.entries) id
        [(nodeInfo firstKey "", 226627963145224192), (nodeInfo secondKey "", 226627963145224192)] :=
    ⟨_, _, rfl, ⟨_, rfl⟩, _, rfl, rfl⟩
  obtain ⟨graph, nodes, hcreate, ⟨kits, hkits⟩, hpass⟩ := hrun
  refine ⟨graph, nodes, kits, hcreate, hkits, hpass, by decide, ?_⟩
  rintro ⟨-, active, view, hpass', -, -, hexact, -⟩
  rw [hpass'.unique hpass] at hexact
  exact absurd (hexact (nodeInfo firstKey "", 226627963145224192) (by simp)) (by decide)

end SimLn
