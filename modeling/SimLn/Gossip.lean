import SimLn.Graph
import SimLn.Lib.Lists

/-!
# SimLn — the graph that pathfinding reads

`populateNetworkGraph` writes the channels into a routing graph: an announcement for each channel,
and an update for each direction of it. The graph is not part of this repository; it is a parameter
that takes these messages. They carry a node's policy in narrower fields than the simulated channel
does, so what pathfinding is told is what forwarding enforces only for policies that fit.
-/

namespace SimLn

open Lib

/-! ## Messages -/

structure ChannelAnnouncement where
  shortChannelId : UInt64
  nodeId1 : PublicKey
  nodeId2 : PublicKey
  bitcoinKey1 : PublicKey
  bitcoinKey2 : PublicKey
  /-- The value of the funding output, as the UTXO validator has it. -/
  amountSat : UInt64

structure ChannelUpdate where
  shortChannelId : UInt64
  timestamp : UInt32
  messageFlags : UInt8
  /-- The direction: zero for the first node of the announcement, one for the second. -/
  channelFlags : UInt8
  cltvExpiryDelta : UInt16
  htlcMinimumMsat : UInt64
  htlcMaximumMsat : UInt64
  feeBaseMsat : UInt32
  feeProportionalMillionths : UInt32

inductive GossipMessage where
  | announcement (msg : ChannelAnnouncement)
  | update (msg : ChannelUpdate)

def channelAnnouncement (channel : SimulatedChannel) : ChannelAnnouncement :=
  { shortChannelId := channel.shortChannelId.id
    nodeId1 := channel.node1.policy.pubkey
    nodeId2 := channel.node2.policy.pubkey
    bitcoinKey1 := channel.node1.policy.pubkey
    bitcoinKey2 := channel.node2.policy.pubkey
    amountSat := channel.capacityMsat / 1000 }

/-- The update of direction `i`, whose node is `node`. The `as` casts of the source truncate. -/
def channelUpdate (channel : SimulatedChannel) (i : Nat) (node : ChannelState) (now : UInt32) :
    ChannelUpdate :=
  { shortChannelId := channel.shortChannelId.id
    timestamp := now
    messageFlags := 1
    channelFlags := UInt8.ofNat i
    cltvExpiryDelta := node.policy.cltvExpiryDelta.toUInt16
    htlcMinimumMsat := node.policy.minHtlcSizeMsat
    htlcMaximumMsat := node.policy.maxHtlcSizeMsat
    feeBaseMsat := node.policy.baseFee.toUInt32
    feeProportionalMillionths := node.policy.feeRateProp.toUInt32 }

/-- A routing graph, by what it does with the messages that it is given. -/
structure RoutingGraph (γ ε : Type) where
  empty : γ
  updateChannelFromUnsignedAnnouncement : γ → ChannelAnnouncement → Except ε γ
  updateChannelUnsigned : γ → ChannelUpdate → Except ε γ

/-- Populates a routing graph with the channels. `clock` is its reading at each of them. -/
def populateNetworkGraph {γ ε : Type} (graph : RoutingGraph γ ε) (channels : List SimulatedChannel)
    (clock : Nat → UInt32) : Except ε γ :=
  channels.zipIdx.foldlM (fun g (channel, n) => do
    let g ← graph.updateChannelFromUnsignedAnnouncement g (channelAnnouncement channel)
    [channel.node1, channel.node2].zipIdx.foldlM
      (fun g (node, i) => graph.updateChannelUnsigned g (channelUpdate channel i node (clock n))) g)
    graph.empty

/-! ## What is written -/

def RoutingGraph.apply {γ ε : Type} (graph : RoutingGraph γ ε) (g : γ) :
    GossipMessage → Except ε γ
  | .announcement msg => graph.updateChannelFromUnsignedAnnouncement g msg
  | .update msg => graph.updateChannelUnsigned g msg

/-- The number of a direction. -/
def Side.direction : Side → Nat
  | .one => 0
  | .two => 1

def gossip (channels : List SimulatedChannel) (clock : Nat → UInt32) : List GossipMessage :=
  channels.zipIdx.flatMap fun (channel, n) =>
    .announcement (channelAnnouncement channel) :: [Side.one, Side.two].map fun s =>
      .update (channelUpdate channel s.direction (channel.node s) (clock n))

/-- The graph is given the messages of `gossip`, in order, until it refuses one. -/
theorem populateNetworkGraph_eq {γ ε : Type} (graph : RoutingGraph γ ε)
    (channels : List SimulatedChannel) (clock : Nat → UInt32) :
    populateNetworkGraph graph channels clock
      = (gossip channels clock).foldlM graph.apply graph.empty := by
  rw [gossip, foldlM_flatMap]
  rfl

/-- The messages are about the channels of the list. -/
theorem mem_gossip {channels : List SimulatedChannel} {clock : Nat → UInt32} {msg : GossipMessage} :
    msg ∈ gossip channels clock ↔ ∃ (n : Nat) (c : SimulatedChannel), channels[n]? = some c ∧
      (msg = .announcement (channelAnnouncement c) ∨
        ∃ s : Side, msg = .update (channelUpdate c s.direction (c.node s) (clock n))) := by
  unfold gossip
  rw [List.mem_flatMap]
  constructor
  -- the announcement comes first, then the updates of both sides
  · rintro ⟨⟨c, n⟩, hc, hmsg⟩
    refine ⟨n, c, List.mk_mem_zipIdx_iff_getElem?.mp hc, ?_⟩
    rcases List.mem_cons.mp hmsg with hmsg | hmsg
    · exact Or.inl hmsg
    · obtain ⟨s, -, rfl⟩ := List.mem_map.mp hmsg
      exact Or.inr ⟨s, rfl⟩
  · rintro ⟨n, c, hc, hmsg⟩
    refine ⟨(c, n), List.mk_mem_zipIdx_iff_getElem?.mpr hc, ?_⟩
    rcases hmsg with rfl | ⟨s, rfl⟩
    · exact List.mem_cons_self
    · apply List.mem_cons_of_mem
      apply List.mem_map_of_mem
      cases s <;> decide

theorem Side.eq_of_direction {s t : Side}
    (h : UInt8.ofNat s.direction = UInt8.ofNat t.direction) : s = t := by
  cases s <;> cases t <;> first | rfl | exact absurd h (by decide)

namespace SimGraph

/-- An accepted list has one channel for each id. -/
theorem eq_of_scid {list : List SimulatedChannel} {interceptors : List Interceptor}
    {records : CustomRecords} {g : SimGraph} (h : new list interceptors records = .ok g)
    {c d : SimulatedChannel} (hc : c ∈ list) (hd : d ∈ list)
    (hid : d.shortChannelId = c.shortChannelId) : d = c := by
  have hlookup := (lookup_new h c.shortChannelId c).mpr ⟨hc, rfl⟩
  rw [(lookup_new h c.shortChannelId d).mpr ⟨hd, hid⟩] at hlookup
  exact Option.some.inj hlookup

theorem validate_of_new {list : List SimulatedChannel} {interceptors : List Interceptor}
    {records : CustomRecords} {g : SimGraph} (h : new list interceptors records = .ok g)
    {c : SimulatedChannel} (hc : c ∈ list) : c.validate = .ok () := by
  unfold new at h
  cases hf : list.foldlM addChannel (∅, ∅) with
  | error err =>
    rw [hf] at h
    cases h
  | ok acc =>
    obtain ⟨_, _, hadd⟩ := exists_ok_of_foldlM hf hc
    unfold addChannel at hadd
    cases hv : c.validate with
    | error err =>
      rw [hv] at hadd
      cases hadd
    | ok u => rfl

end SimGraph

/-- In a valid channel, either node's key selects its own side. -/
theorem SimulatedChannel.sideOf_pubkey {c : SimulatedChannel} (h : c.validate = .ok ()) (s : Side) :
    c.sideOf (c.node s).policy.pubkey = some s := by
  unfold SimulatedChannel.validate at h
  split at h
  next => cases h
  next hne =>
    cases s with
    | one => exact SimulatedChannel.sideOf_eq_one.mpr rfl
    | two => exact SimulatedChannel.sideOf_eq_two.mpr ⟨fun heq => hne heq.symm, rfl⟩

/-! ## What pathfinding is told and what forwarding enforces -/

/-- What is announced and told of side `s` of a channel is what forwarding enforces there, and for
an HTLC of `amt` a hop that follows it passes. -/
structure Agrees (c : SimulatedChannel) (s : Side) (announced : ChannelAnnouncement)
    (told : ChannelUpdate) (amt : UInt64) : Prop where
  baseFee : told.feeBaseMsat.toNat = (c.node s).policy.baseFee.toNat
  feeRateProp : told.feeProportionalMillionths.toNat = (c.node s).policy.feeRateProp.toNat
  cltvExpiryDelta : told.cltvExpiryDelta.toNat = (c.node s).policy.cltvExpiryDelta.toNat
  minimum : told.htlcMinimumMsat = (c.node s).policy.minHtlcSizeMsat
  maximum : told.htlcMaximumMsat = (c.node s).policy.maxHtlcSizeMsat
  forwards : ∀ fee : UInt64,
    fee.toNat = told.feeBaseMsat.toNat
      + amt.toNat * told.feeProportionalMillionths.toNat / 1000000 →
    c.checkHtlcForward (c.node s).policy.pubkey told.cltvExpiryDelta.toUInt32 amt fee
      = .ok (.ok ())
  capacity : told.htlcMaximumMsat.toNat ≤ announced.amountSat.toNat * 1000

/-- The policy fits the fields of an update, its maximum the capacity in whole satoshis, and its
proportional fee for `amt` can be computed in `u64` (or no fee that large can be paid). -/
structure Fits (c : SimulatedChannel) (s : Side) (amt : UInt64) : Prop where
  baseFee : (c.node s).policy.baseFee.toNat < 2 ^ 32
  feeRateProp : (c.node s).policy.feeRateProp.toNat < 2 ^ 32
  cltvExpiryDelta : (c.node s).policy.cltvExpiryDelta.toNat < 2 ^ 16
  propFee : amt.toNat * (c.node s).policy.feeRateProp.toNat < 2 ^ 64 ∨
    2 ^ 64 ≤ (c.node s).policy.baseFee.toNat
      + amt.toNat * (c.node s).policy.feeRateProp.toNat / 1000000
  capacity : (c.node s).policy.maxHtlcSizeMsat.toNat ≤ c.capacityMsat.toNat / 1000 * 1000

theorem agrees_channelUpdate_iff {c : SimulatedChannel} (hvalid : c.validate = .ok ()) (s : Side)
    (now : UInt32) (amt : UInt64) :
    Agrees c s (channelAnnouncement c) (channelUpdate c s.direction (c.node s) now) amt ↔
      Fits c s amt := by
  have hsat : (channelAnnouncement c).amountSat.toNat = c.capacityMsat.toNat / 1000 :=
    UInt64.toNat_div _ _
  constructor
  · intro h
    have hbase : (c.node s).policy.baseFee.toNat % 2 ^ 32 = (c.node s).policy.baseFee.toNat :=
      h.baseFee
    have hprop : (c.node s).policy.feeRateProp.toNat % 2 ^ 32
        = (c.node s).policy.feeRateProp.toNat := h.feeRateProp
    have hcltv : (c.node s).policy.cltvExpiryDelta.toNat % 2 ^ 16
        = (c.node s).policy.cltvExpiryDelta.toNat := h.cltvExpiryDelta
    -- a cast that keeps its value bounds it
    refine ⟨by omega, by omega, by omega, ?_, hsat ▸ h.capacity⟩
    by_contra hcon
    obtain ⟨hmul, hfee⟩ := not_or.mp hcon
    -- the advertised fee can be paid, and the check of that hop overflows
    have hpass := h.forwards
      (UInt64.ofNat ((c.node s).policy.baseFee.toNat
        + amt.toNat * (c.node s).policy.feeRateProp.toNat / 1000000))
      (by rw [h.baseFee, h.feeRateProp, UInt64.toNat_ofNat', Nat.mod_eq_of_lt (not_le.mp hfee)])
    rw [SimulatedChannel.checkHtlcForward_eq (SimulatedChannel.sideOf_pubkey hvalid s),
      ChannelState.checkHtlcForward_eq_ok] at hpass
    exact hmul hpass.2.1
  · intro h
    -- the casts keep what fits
    have hbase : (channelUpdate c s.direction (c.node s) now).feeBaseMsat.toNat
        = (c.node s).policy.baseFee.toNat := Nat.mod_eq_of_lt h.baseFee
    have hprop : (channelUpdate c s.direction (c.node s) now).feeProportionalMillionths.toNat
        = (c.node s).policy.feeRateProp.toNat := Nat.mod_eq_of_lt h.feeRateProp
    have hcltv : (channelUpdate c s.direction (c.node s) now).cltvExpiryDelta.toNat
        = (c.node s).policy.cltvExpiryDelta.toNat := Nat.mod_eq_of_lt h.cltvExpiryDelta
    refine ⟨hbase, hprop, hcltv, rfl, rfl, ?_, hsat ▸ h.capacity⟩
    intro fee hfee
    rw [hbase, hprop] at hfee
    have hlt := fee.toNat_lt
    rw [SimulatedChannel.checkHtlcForward_eq (SimulatedChannel.sideOf_pubkey hvalid s),
      ChannelState.checkHtlcForward_eq_ok]
    refine ⟨?_, ?_, by omega⟩
    · rw [UInt16.toNat_toUInt32, hcltv]
    · rcases h.propFee with hmul | hbig
      · exact hmul
      · omega

/-- **Pathfinding and forwarding agree exactly on the policies that fit.** The announcement and the
update are those that the graph is given for side `s` of the channel. -/
theorem gossip_agrees_iff {list : List SimulatedChannel} {interceptors : List Interceptor}
    {records : CustomRecords} {g : SimGraph} (h : SimGraph.new list interceptors records = .ok g)
    {c : SimulatedChannel} (hc : c ∈ list) (s : Side) {clock : Nat → UInt32}
    {announced : ChannelAnnouncement} (hannounced : .announcement announced ∈ gossip list clock)
    (hannouncedId : announced.shortChannelId = c.shortChannelId.id)
    {told : ChannelUpdate} (htold : .update told ∈ gossip list clock)
    (htoldId : told.shortChannelId = c.shortChannelId.id)
    (hdirection : told.channelFlags = UInt8.ofNat s.direction) (amt : UInt64) :
    Agrees c s announced told amt ↔ Fits c s amt := by
  have hannounced : announced = channelAnnouncement c := by
    obtain ⟨n, d, hd, hmsg⟩ := mem_gossip.mp hannounced
    rcases hmsg with hmsg | ⟨t, hmsg⟩
    -- the only announcement with this id is that of `c`, since ids are unique
    · obtain rfl := GossipMessage.announcement.inj hmsg
      have hdc : d = c := SimGraph.eq_of_scid h hc (List.mem_of_getElem? hd)
        (congrArg ShortChannelID.mk hannouncedId)
      rw [hdc]
    · cases hmsg
  have htold : ∃ now, told = channelUpdate c s.direction (c.node s) now := by
    obtain ⟨n, d, hd, hmsg⟩ := mem_gossip.mp htold
    rcases hmsg with hmsg | ⟨t, hmsg⟩
    · cases hmsg
    · obtain rfl := GossipMessage.update.inj hmsg
      have hdc : d = c := SimGraph.eq_of_scid h hc (List.mem_of_getElem? hd)
        (congrArg ShortChannelID.mk htoldId)
      have hts : t = s := Side.eq_of_direction hdirection
      rw [hdc, hts]
      exact ⟨clock n, rfl⟩
  obtain ⟨now, htold⟩ := htold
  rw [hannounced, htold]
  exact agrees_channelUpdate_iff (SimGraph.validate_of_new h hc) s now amt

theorem fits_aliceBob : Fits aliceBob .one 50000 :=
  ⟨by decide, by decide, by decide, Or.inl (by decide), by decide⟩

theorem gossip_agrees_iff_aliceBob :
    Agrees aliceBob .one (channelAnnouncement aliceBob)
      (channelUpdate aliceBob 0 aliceBob.node1 0) 50000 := by
  obtain ⟨g, hg, -⟩ := new_threeNodes
  have hannounced : .announcement (channelAnnouncement aliceBob) ∈
      gossip [aliceBob, bobCarol] (fun _ => 0) := mem_gossip.mpr ⟨0, aliceBob, rfl, Or.inl rfl⟩
  have htold : .update (channelUpdate aliceBob 0 aliceBob.node1 0) ∈
      gossip [aliceBob, bobCarol] (fun _ => 0) :=
    mem_gossip.mpr ⟨0, aliceBob, rfl, Or.inr ⟨.one, rfl⟩⟩
  exact (gossip_agrees_iff hg List.mem_cons_self .one hannounced rfl htold rfl rfl 50000).mpr
    fits_aliceBob

/-- A channel whose first node asks for a base fee of `2 ^ 32` millisatoshis. -/
def expensive : SimulatedChannel :=
  .new 100000 ⟨700⟩ { samplePolicy alice with baseFee := 0x100000000 } (samplePolicy bob) false

/-- The channel is accepted, but its base fee is told to be zero. A hop that pays what it is told is
refused. -/
theorem gossip_expensive : ∃ g told,
    SimGraph.new [expensive] [] ∅ = .ok g ∧
    .update told ∈ gossip [expensive] (fun _ => 0) ∧ told.channelFlags = 0 ∧
    told.feeBaseMsat = 0 ∧ told.feeProportionalMillionths = 1000 ∧ told.cltvExpiryDelta = 40 ∧
    expensive.checkHtlcForward alice 40 50000 50
      = .ok (.error (.insufficientFee 50 0x100000000 1000 0x100000032)) :=
  ⟨_, channelUpdate expensive 0 expensive.node1 0, rfl,
    mem_gossip.mpr ⟨0, expensive, rfl, Or.inr ⟨.one, rfl⟩⟩, by decide, by decide, by decide,
    by decide, by decide⟩

end SimLn
