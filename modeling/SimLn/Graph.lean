import SimLn.Channel.Balance

/-!
# SimLn — building the simulated network

`SimGraph.new` validates a list of channels one by one and indexes them by short channel id and
by the nodes they connect.
-/

namespace SimLn

open Lib

/-- The channels of the network by short channel id. -/
abbrev Channels := Table ShortChannelID SimulatedChannel

/-- The nodes of the network, each with the ids of its channels. -/
abbrev Nodes := Table PublicKey (NodeInfo × List ShortChannelID)

/-- `Display` of a short channel id: block, transaction and output index. -/
def ShortChannelID.toString (scid : ShortChannelID) : String :=
  s!"{scid.id >>> 40}:{scid.id >>> 16 &&& 0xFFFFFF}:{scid.id &&& 0xFFFF}"

/-- A registered HTLC interceptor, as the simulation knows it. What it answers is up to the
environment. -/
structure Interceptor where
  name : String
  deriving DecidableEq, Repr

structure SimGraph where
  nodes : Nodes
  channels : Channels
  interceptors : List Interceptor
  defaultCustomRecords : CustomRecords

namespace SimGraph

/-- Records a channel under one of its nodes, adding the node if it is new. -/
def addNode (nodes : Nodes) (info : ChannelPolicy) (scid : ShortChannelID) : Nodes :=
  match nodes.lookup info.pubkey with
  | some (node, scids) => nodes.insert info.pubkey (node, scids ++ [scid])
  | none => nodes.insert info.pubkey (nodeInfo info.pubkey info.aliasName, [scid])

/-- One iteration of the loop in `new`: its channel must be valid and its id unused. -/
def addChannel (acc : Nodes × Channels) (channel : SimulatedChannel) :
    Except SimulationError (Nodes × Channels) :=
  match channel.validate with
  | .error err => .error err
  | .ok () =>
    if channel.shortChannelId ∈ acc.2 then
      .error (.simulatedNetworkError
        s!"Simulated short channel ID should be unique: {channel.shortChannelId.toString} duplicated")
    else
      let nodes := addNode acc.1 channel.node1.policy channel.shortChannelId
      .ok (addNode nodes channel.node2.policy channel.shortChannelId,
        acc.2.insert channel.shortChannelId channel)

/-- Creates a graph on which to simulate payments. -/
def new (graphChannels : List SimulatedChannel) (interceptors : List Interceptor)
    (defaultCustomRecords : CustomRecords) : Except SimulationError SimGraph :=
  match graphChannels.foldlM addChannel (∅, ∅) with
  | .error err => .error err
  | .ok (nodes, channels) => .ok { nodes, channels, interceptors, defaultCustomRecords }

/-! ## What an accepted list becomes -/

/-- An accepted channel is valid and new, and it is recorded under both of its nodes. -/
theorem addChannel_eq_ok {acc acc' : Nodes × Channels} {channel : SimulatedChannel}
    (h : addChannel acc channel = .ok acc') :
    channel.validate = .ok () ∧ channel.shortChannelId ∉ acc.2 ∧
      acc' = (addNode (addNode acc.1 channel.node1.policy channel.shortChannelId)
        channel.node2.policy channel.shortChannelId,
          acc.2.insert channel.shortChannelId channel) := by
  unfold addChannel at h
  cases hv : channel.validate with
  | error err => simp [hv] at h
  | ok u =>
    by_cases hmem : channel.shortChannelId ∈ acc.2
    · simp [hv, hmem] at h
    · simp only [hv, if_neg hmem] at h
      exact ⟨rfl, hmem, (Except.ok.inj h).symm⟩

/-- The channels of the accumulator and of the list, each under its own id. Induction on the
list: an id that is in the map already is refused, so no entry is overwritten. -/
theorem foldlM_addChannel {list : List SimulatedChannel} {acc acc' : Nodes × Channels}
    (h : list.foldlM addChannel acc = .ok acc') (scid : ShortChannelID) (c : SimulatedChannel) :
    acc'.2.lookup scid = some c ↔
      acc.2.lookup scid = some c ∨ (c ∈ list ∧ c.shortChannelId = scid) := by
  induction list generalizing acc with
  | nil =>
    obtain rfl : acc = acc' := Except.ok.inj h
    simp
  | cons channel rest ih =>
    obtain ⟨mid, hadd, hrest⟩ := foldlM_cons_ok h
    obtain ⟨-, hfresh, rfl⟩ := addChannel_eq_ok hadd
    have hnone : acc.2.lookup channel.shortChannelId = none := AList.lookup_eq_none.mpr hfresh
    -- the new channel comes from the front of the list, the others from the map or the rest
    rw [ih hrest, Table.lookup_insert_fresh _ hnone, or_assoc]
    simp only [Sigma.mk.injEq, heq_eq_eq]
    apply or_congr_right
    constructor
    · rintro (⟨rfl, rfl⟩ | ⟨hc, heq⟩)
      · exact ⟨List.mem_cons_self, rfl⟩
      · exact ⟨List.mem_cons_of_mem _ hc, heq⟩
    · rintro ⟨hc, heq⟩
      rcases List.mem_cons.mp hc with rfl | hc
      · exact .inl ⟨heq.symm, rfl⟩
      · exact .inr ⟨hc, heq⟩

/-- An accepted graph is what the loop has collected. -/
theorem foldlM_of_new {list : List SimulatedChannel} {interceptors : List Interceptor}
    {records : CustomRecords} {g : SimGraph} (h : new list interceptors records = .ok g) :
    list.foldlM addChannel (∅, ∅) = .ok (g.nodes, g.channels) := by
  unfold new at h
  cases hf : list.foldlM addChannel (∅, ∅) with
  | error err => simp [hf] at h
  | ok acc =>
    rw [hf] at h
    obtain rfl := Except.ok.inj h
    rfl

/-- The channel map of an accepted graph holds the channels it was built from. -/
theorem lookup_new {list : List SimulatedChannel} {interceptors : List Interceptor}
    {records : CustomRecords} {g : SimGraph} (h : new list interceptors records = .ok g)
    (scid : ShortChannelID) (c : SimulatedChannel) :
    g.channels.lookup scid = some c ↔ c ∈ list ∧ c.shortChannelId = scid := by
  rw [foldlM_addChannel (foldlM_of_new h) scid c]
  simp

end SimGraph

/-! ## A network of three nodes, for concrete instances -/

def samplePolicy (pubkey : PublicKey) : ChannelPolicy :=
  { pubkey
    aliasName := ""
    maxHtlcCount := 10
    maxInFlightMsat := 100000
    minHtlcSizeMsat := 1
    maxHtlcSizeMsat := 50000
    cltvExpiryDelta := 40
    baseFee := 10
    feeRateProp := 1000 }

def alice : PublicKey := ⟨1⟩

def bob : PublicKey := ⟨2⟩

def carol : PublicKey := ⟨3⟩

def aliceBob : SimulatedChannel :=
  .new 100000 ⟨700⟩ (samplePolicy alice) (samplePolicy bob) false

def bobCarol : SimulatedChannel :=
  .new 100000 ⟨800⟩ (samplePolicy bob) (samplePolicy carol) false

def threeNodes : Channels := ((∅ : Channels).insert ⟨700⟩ aliceBob).insert ⟨800⟩ bobCarol

theorem new_threeNodes :
    ∃ g, SimGraph.new [aliceBob, bobCarol] [] ∅ = .ok g ∧ g.channels = threeNodes :=
  ⟨_, rfl, rfl⟩

theorem threeNodes_inFlight (scid : ShortChannelID) (c : SimulatedChannel) (s : Side)
    (hc : threeNodes.lookup scid = some c) : (c.node s).inFlight = ∅ := by
  obtain ⟨g, hg, hchannels⟩ := new_threeNodes
  rw [← hchannels, SimGraph.lookup_new hg] at hc
  obtain ⟨hmem, -⟩ := hc
  simp only [List.mem_cons, List.not_mem_nil, or_false] at hmem
  rcases hmem with rfl | rfl
  · cases s <;> rfl
  · cases s <;> rfl

end SimLn
