import SimLn.Payment.Store

/-!
# SimLn — the funds of a channel over a run

Three facts about every channel of the network, in every state that any payments can lead to:

* it keeps passing its sanity check if it passed it at the start, and no side is debited with
  more than it has (`funds_conserved`);
* in a network built by `SimGraph.new` from new channels, that is so from the start exactly when
  the capacities are even, since `SimulatedChannel.new` halves them (`starts_sane_iff_even`);
* in such a network no limit of either party is ever exceeded (`limits_kept`).
-/

namespace SimLn

open Lib

/-! ## The sanity check -/

/-- Every channel passes its sanity check. -/
def AllSane (channels : Channels) : Prop :=
  ∀ scid c, channels.lookup scid = some c → c.sanityCheck = .ok ()

/-- A payment's step leaves every channel sane. -/
theorem Step.allSane {req : PropagatePaymentRequest} {channels channels' : Channels}
    {phase phase' : Phase} {events : List Event}
    (h : Step req channels phase events channels' phase') (hsane : AllSane channels) :
    AllSane channels' := by
  intro scid c' hc'
  have hrel := h.channelsStep scid
  rw [hc'] at hrel
  generalize hc : channels.lookup scid = opt at hrel
  cases hrel with
  | some hstep => exact hstep.sanityCheck (hsane scid _ hc)

/-- Checking a forward is never what fails the sanity check. -/
theorem checkForward_ne_sanity {req : PropagatePaymentRequest} {loop : AddLoop} {hop : RouteHop}
    {channels : Channels} {b cap : UInt64} :
    checkForward req loop hop channels ≠ .error (.sanityCheckFailed b cap) := by
  unfold checkForward SimulatedChannel.checkHtlcForward SimulatedChannel.getNode
    ChannelState.checkHtlcForward
  repeat' split
  all_goals grind

/-- While every channel passes its sanity check, no channel operation reports that it fails. -/
theorem Step.no_sanityCheckFailed {req : PropagatePaymentRequest} {channels channels' : Channels}
    {phase phase' : Phase} {events : List Event}
    (h : Step req channels phase events channels' phase') (hsane : AllSane channels)
    (hop : Nat) (b cap : UInt64) : .channelError hop (.sanityCheckFailed b cap) ∉ events := by
  cases h.transition with
  | addCritical hhop hsame hcause =>
    intro hmem
    obtain ⟨-, herr⟩ : hop = _ ∧ _ = _ := by simpa using hmem
    obtain ⟨c, hc, hfail⟩ := hcause b cap herr.symm
    rw [hsane _ c hc] at hfail
    cases hfail
  | forwardCritical hhop hpush hcheck =>
    intro hmem
    obtain ⟨-, herr⟩ : hop = _ ∧ _ = _ := by simpa using hmem
    rw [← herr] at hcheck
    exact checkForward_ne_sanity hcheck
  | removeCritical hhop hsame hne hnone =>
    intro hmem
    obtain ⟨-, herr⟩ : hop = _ ∧ _ = _ := by simpa using hmem
    exact hne b cap herr.symm
  | removedInsane hhop hpop hinsane => exact absurd (hsane _ _ hpop.found) hinsane
  | _ => simp

/-- How a step of the payment with this hash may change the balance of side `s`. A debit is the amount
of an HTLC that is put in flight on this side, and no more than the balance. A credit is the amount of
an HTLC that is removed, and it does not wrap around where the funds of the channel fit in `u64`. -/
inductive BalanceMove (hash : PaymentHash) (c c' : SimulatedChannel) (s : Side) : Prop where
  | unchanged (h : (c'.node s).localBalanceMsat = (c.node s).localBalanceMsat)
  | debited (e : Htlc × UInt64) (hnew : hash ∉ (c.node s).inFlight)
      (hentry : (c'.node s).inFlight.lookup hash = some e)
      (hle : e.1.amountMsat.toNat ≤ (c.node s).localBalanceMsat.toNat)
      (h : (c'.node s).localBalanceMsat.toNat
        = (c.node s).localBalanceMsat.toNat - e.1.amountMsat.toNat)
  | credited (t : Side) (e : Htlc × UInt64) (hentry : (c.node t).inFlight.lookup hash = some e)
      (hgone : hash ∉ (c'.node t).inFlight)
      (h : (c'.node s).localBalanceMsat.toNat
        = ((c.node s).localBalanceMsat.toNat + e.1.amountMsat.toNat) % 2 ^ 64)
      (hexact : c.exactBalance < 2 ^ 64 →
        (c.node s).localBalanceMsat.toNat + e.1.amountMsat.toNat < 2 ^ 64)

/-- What an HTLC in flight adds to the balance of either side fits, if all the funds do. -/
theorem credit_lt {c : SimulatedChannel} {s t : Side} {hash : PaymentHash} {e : Htlc × UInt64}
    (hentry : (c.node t).inFlight.lookup hash = some e) (hfit : c.exactBalance < 2 ^ 64) :
    (c.node s).localBalanceMsat.toNat + e.1.amountMsat.toNat < 2 ^ 64 := by
  have hamount : e.1.amountMsat.toNat ≤ (c.node t).exactInFlight := by
    rw [SimulatedChannel.exactInFlight_erase hentry]
    exact Nat.le_add_right _ _
  rw [c.exactBalance_eq s] at hfit
  rcases s.eq_or_eq_other t with rfl | rfl
  · omega
  · omega

/-- What a step does to one side of a channel is nothing, one debit or one credit. -/
theorem ChannelStep.balanceMove {hash : PaymentHash} {c c' : SimulatedChannel}
    (h : ChannelStep hash c c') (t : Side) : BalanceMove hash c c' t := by
  cases h with
  | same => exact .unchanged rfl
  | @push s htlc hacc =>
    rcases s.eq_or_eq_other t with rfl | rfl
    · refine .debited (htlc, (c.node t).index) hacc.fresh ?_
        (UInt64.le_iff_toNat_le.mp hacc.balance) ?_
      · rw [SimulatedChannel.node_pushHtlc]
        exact AList.lookup_insert _
      · rw [SimulatedChannel.node_pushHtlc]
        exact UInt64.toNat_sub_of_le _ _ hacc.balance
    · exact .unchanged (by simp)
  | @pop s e success hentry =>
    have hgone : hash ∉ ((c.popHtlc s hash e.1.amountMsat success).node s).inFlight := by
      rw [SimulatedChannel.node_popHtlc]
      exact AList.lookup_eq_none.mp (AList.lookup_erase hash _)
    have hsum : ∀ before : UInt64, (before + e.1.amountMsat).toNat
        = (before.toNat + e.1.amountMsat.toNat) % 2 ^ 64 := fun before => UInt64.toNat_add _ _
    -- a failed HTLC goes back to its sender, a settled one to the other side
    rcases s.eq_or_eq_other t with rfl | rfl
    · cases success
      · exact .credited _ e hentry hgone (by simp [hsum]) (credit_lt hentry)
      · exact .unchanged (by simp)
    · cases success
      · exact .unchanged (by simp)
      · exact .credited s e hentry hgone (by simp [hsum]) (credit_lt hentry)

section Runs

variable {ι : Type} [DecidableEq ι] {reqs : ι → PropagatePaymentRequest} {channels : Channels}
  {w : World ι Channels Phase} {trace : List (ι × Event)}

/-- Sanity of all channels holds throughout a run, and no channel operation reports otherwise. -/
theorem run_allSane (hsane : AllSane channels)
    (h : PaymentRun reqs channels trace w) :
    AllSane w.shared ∧
      ∀ k hop b cap, (k, .channelError hop (.sanityCheckFailed b cap)) ∉ trace := by
  obtain ⟨hshared, htrace⟩ := h.shared_events (P := AllSane)
    (Q := fun _ e => ∀ hop b cap, e ≠ .channelError hop (.sanityCheckFailed b cap)) hsane
    fun k chs phase es chs' phase' hs hok => by
      refine ⟨Step.allSane hs hok, fun e he hop b cap heq => ?_⟩
      rw [heq] at he
      exact Step.no_sanityCheckFailed hs hok hop b cap he
  exact ⟨hshared, fun k hop b cap hmem => htrace _ hmem hop b cap rfl⟩

/-- A channel whose funds fit in `u64` keeps exactly the funds it started with. -/
theorem run_exactBalance (h : PaymentRun reqs channels trace w)
    {scid : ShortChannelID} {c c' : SimulatedChannel} (hc : channels.lookup scid = some c)
    (hc' : w.shared.lookup scid = some c') (hfit : c.exactBalance < 2 ^ 64) :
    c'.exactBalance = c.exactBalance := by
  have hinv := channel_invariant h
    (P := fun scid' d => ∀ c, channels.lookup scid' = some c → c.exactBalance < 2 ^ 64 →
      d.exactBalance = c.exactBalance)
    (fun scid' hash d d' hstep ih c hc hfit => by
      have hd := ih c hc hfit
      rw [hstep.exactBalance (hd ▸ hfit), hd])
    (fun scid' c hc d hd _ => by
      rw [Option.some.inj (hc.symm.trans hd)])
  exact hinv scid c' hc' c hc hfit

/-- **Conservation of channel funds.** From channels that pass their sanity check, whatever the
payments do, every channel passes it in every reachable state. So no channel operation has
reported its failure. A step of a payment debits a balance with the amount of the HTLC that it puts in
flight, never with more than there is, and credits it with the amount of the HTLC that it removes.
Where the sum also holds without wrapping, it keeps holding so. -/
theorem funds_conserved (hsane : AllSane channels)
    (h : PaymentRun reqs channels trace w) :
    AllSane w.shared ∧
    (∀ k hop b cap, (k, .channelError hop (.sanityCheckFailed b cap)) ∉ trace) ∧
    (∀ k events shared phase, (payments reqs).step k w.shared (w.proc k) events shared phase →
      ∀ scid c c', w.shared.lookup scid = some c → shared.lookup scid = some c' →
      ∀ s, BalanceMove (reqs k).paymentHash c c' s) ∧
    (∀ scid c c', channels.lookup scid = some c → w.shared.lookup scid = some c' →
      c.exactBalance = c.capacityMsat.toNat → c'.exactBalance = c'.capacityMsat.toNat) := by
  obtain ⟨hshared, htrace⟩ := run_allSane hsane h
  refine ⟨hshared, htrace, ?_, ?_⟩
  · intro k events shared phase hs scid c c' hc hc' s
    have hrel := Step.channelsStep hs scid
    rw [hc, hc'] at hrel
    cases hrel with
    | some hstep => exact hstep.balanceMove s
  · intro scid c c' hc hc' hexact
    have hfit : c.exactBalance < 2 ^ 64 := hexact ▸ c.capacityMsat.toNat_lt
    obtain ⟨d, hd, hterms⟩ := (run_sameNetwork h).lookup hc
    obtain rfl := Option.some.inj (hc'.symm.trans hd)
    rw [run_exactBalance h hc hc' hfit, hexact, hterms.capacityMsat]

end Runs

/-! ## Freshly built networks -/

/-- A channel that `SimulatedChannel.new` built. -/
def SimulatedChannel.Built (c : SimulatedChannel) : Prop :=
  ∃ capacityMsat shortChannelId node1 node2 excludeCapacity,
    c = .new capacityMsat shortChannelId node1 node2 excludeCapacity

/-- Two integer halves make the whole exactly when it is even. -/
theorem half_add_half (x : UInt64) : x / 2 + x / 2 = x ↔ x.toNat % 2 = 0 := by
  have hx := x.toNat_lt
  have h2 : (2 : UInt64).toNat = 2 := rfl
  rw [← UInt64.toNat_inj, UInt64.toNat_add, UInt64.toNat_div, h2]
  omega

/-- A new channel passes its sanity check when halving its capacity loses nothing. -/
theorem SimulatedChannel.Built.sanityCheck_iff {c : SimulatedChannel} (h : c.Built) :
    c.sanityCheck = .ok () ↔ c.capacityMsat.toNat % 2 = 0 := by
  obtain ⟨capacity, scid, policy1, policy2, exclude, rfl⟩ := h
  rw [sanityCheck_eq_ok, ← half_add_half]
  show capacity / 2 + 0 + (capacity / 2 + 0) = capacity ↔ capacity / 2 + capacity / 2 = capacity
  rw [UInt64.add_zero]

/-- A channel as built keeps every limit of both directions. -/
theorem SimulatedChannel.Built.bounded {c : SimulatedChannel} (h : c.Built) : c.Bounded := by
  obtain ⟨capacity, scid, policy1, policy2, exclude, rfl⟩ := h
  have h2 : (2 : UInt64).toNat = 2 := rfl
  refine ⟨?_, fun s => ?_⟩
  · show (capacity / 2).toNat + 0 + ((capacity / 2).toNat + 0) ≤ capacity.toNat
    rw [UInt64.toNat_div, h2]
    omega
  · have hempty : ∀ hash, (((SimulatedChannel.new capacity scid policy1 policy2 exclude).node
        s).inFlight).lookup hash = none := by
      intro hash
      cases s <;> rfl
    refine ⟨?_, ?_, fun hash e he => ?_⟩
    · cases s <;> exact Nat.zero_le _
    · cases s <;> exact Nat.zero_le _
    · rw [hempty hash] at he
      cases he

section Built

variable {list : List SimulatedChannel} {interceptors : List Interceptor} {records : CustomRecords}
  {g : SimGraph}

/-- The first payment over a channel that does not pass its sanity check ends there. -/
theorem insane_payment_fails {channels : Channels} {c : SimulatedChannel}
    (hc : channels.lookup c.shortChannelId = some c) (hinsane : c.sanityCheck ≠ .ok ()) :
    ∃ (req : PropagatePaymentRequest) (trace : List (Unit × Event))
      (w : World Unit Channels Phase) (b cap : UInt64),
      PaymentRun (fun _ => req) channels trace w ∧
      ((), .channelError 0 (.sanityCheckFailed b cap)) ∈ trace := by
  have hbal : c.balance ≠ c.capacityMsat := fun h =>
    hinsane (SimulatedChannel.sanityCheck_eq_ok.mpr h)
  have hfail : c.sanityCheck = .error (.sanityCheckFailed c.balance c.capacityMsat) :=
    if_pos hbal
  let hop : RouteHop := ⟨c.node2.policy.pubkey, c.shortChannelId.id, 1, 0⟩
  let req : PropagatePaymentRequest :=
    { source := c.node1.policy.pubkey
      route := ⟨[hop], by simp⟩
      paymentHash := ⟨0⟩
      interceptors := []
      customRecords := ∅ }
  have hadd : ∀ sender, c.addHtlc sender req.paymentHash ⟨1, 0⟩
      = (.error (.sanityCheckFailed c.balance c.capacityMsat), c) := by
    intro sender
    unfold SimulatedChannel.addHtlc
    rw [if_neg (by decide), hfail]
  have hstep : Step req channels req.start
      [.channelError 0 (.sanityCheckFailed c.balance c.capacityMsat), .shutdownTriggered,
        .reported ⟨0, .unknown⟩] (channels.insert c.shortChannelId c)
      (.finished ⟨0, .unknown⟩) := by
    have hhop : req.route.hops[0]? = some hop := rfl
    have hs : Step req channels req.start _ _ _ := Step.add hhop
    have hlookup : channels.lookup hop.scid = some c := hc
    have hamt : req.route.feeMsat + req.route.finalValueMsat = 1 := rfl
    have hcltv : (req.route.hops.map (·.cltvExpiryDelta)).sum = 0 := rfl
    simp only [addHop, hlookup, hamt, hcltv, hadd] at hs
    exact hs
  exact ⟨req, _, _, c.balance, c.capacityMsat, .tail (k := ()) .refl hstep, by simp⟩

/-- A freshly built network is sane exactly when every capacity is even. -/
theorem allSane_new_iff (hbuilt : ∀ c ∈ list, c.Built)
    (hg : SimGraph.new list interceptors records = .ok g) :
    AllSane g.channels ↔ ∀ c ∈ list, c.capacityMsat.toNat % 2 = 0 := by
  constructor
  · intro hsane c hc
    have hlookup := (SimGraph.lookup_new hg c.shortChannelId c).mpr ⟨hc, rfl⟩
    exact (hbuilt c hc).sanityCheck_iff.mp (hsane _ c hlookup)
  · intro heven scid c hc
    have hmem := ((SimGraph.lookup_new hg scid c).mp hc).1
    exact (hbuilt c hmem).sanityCheck_iff.mpr (heven c hmem)

theorem threeNodes_built : ∀ c ∈ [aliceBob, bobCarol], c.Built := by
  intro c hc
  simp only [List.mem_cons, List.not_mem_nil, or_false] at hc
  rcases hc with rfl | rfl
  · exact ⟨_, _, _, _, _, rfl⟩
  · exact ⟨_, _, _, _, _, rfl⟩

/-- With both HTLCs in flight every channel is sane, and the removal of Bob's credits Carol with its
amount. -/
theorem funds_conserved_aliceToCarol : ∃ trace w events shared phase c c',
    PaymentRun (fun _ : Unit => aliceToCarol ⟨1⟩) threeNodes trace w ∧
    (payments fun _ : Unit => aliceToCarol ⟨1⟩).step () w.shared (w.proc ()) events shared phase ∧
    w.shared.lookup ⟨800⟩ = some c ∧ shared.lookup ⟨800⟩ = some c' ∧
    (c.node .two).localBalanceMsat = 50000 ∧ (c'.node .two).localBalanceMsat = 70000 ∧
    BalanceMove ⟨1⟩ c c' .two ∧ AllSane w.shared := by
  obtain ⟨g, hg, hchannels⟩ := new_threeNodes
  have hsane : AllSane threeNodes :=
    hchannels ▸ (allSane_new_iff threeNodes_built hg).mpr (by decide)
  have h1 : PaymentRun (fun _ : Unit => aliceToCarol ⟨1⟩) threeNodes _ _ :=
    PaymentRun.step .refl () (.add rfl)
  have h2 := h1.step () (.intercept [] none rfl rfl)
  have h3 := h2.step () (.add rfl)
  have h4 := h3.step () (.intercept [] none rfl rfl)
  obtain ⟨hconserved, -, hmoves, -⟩ := funds_conserved hsane h4
  exact ⟨_, _, _, _, _, _, _, h4, .remove rfl, rfl, rfl, by decide, by decide,
    hmoves () _ _ _ (.remove rfl) ⟨800⟩ _ _ rfl rfl .two, hconserved⟩

/-- **The start of a built network.** In a network that `SimGraph.new` accepts from new channels,
every channel passes its sanity check exactly when all capacities are even, and exactly then no
payment ever ends because some channel does not. -/
theorem starts_sane_iff_even (hbuilt : ∀ c ∈ list, c.Built)
    (hg : SimGraph.new list interceptors records = .ok g) :
    (AllSane g.channels ↔ ∀ c ∈ list, c.capacityMsat.toNat % 2 = 0) ∧
    ((∀ (ι : Type) [DecidableEq ι] (reqs : ι → PropagatePaymentRequest) (trace : List (ι × Event))
        (w : World ι Channels Phase), PaymentRun reqs g.channels trace w →
        ∀ k hop b cap, (k, .channelError hop (.sanityCheckFailed b cap)) ∉ trace) ↔
      ∀ c ∈ list, c.capacityMsat.toNat % 2 = 0) := by
  have hsane := allSane_new_iff hbuilt hg
  refine ⟨hsane, fun hruns c hc => ?_, fun heven ι _ reqs trace w h => ?_⟩
  · by_contra hodd
    have hlookup := (SimGraph.lookup_new hg c.shortChannelId c).mpr ⟨hc, rfl⟩
    obtain ⟨req, trace, w, b, cap, hrun, hmem⟩ := insane_payment_fails hlookup
      fun hok => hodd ((hbuilt c hc).sanityCheck_iff.mp hok)
    exact hruns Unit (fun _ => req) trace w hrun () 0 b cap hmem
  · exact (run_allSane (hsane.mpr heven) h).2

theorem starts_sane_iff_even_threeNodes : AllSane threeNodes := by
  obtain ⟨g, hg, hchannels⟩ := new_threeNodes
  exact hchannels ▸ (starts_sane_iff_even threeNodes_built hg).1.mpr (by decide)

/-- A capacity of 100001 msat loses a millisatoshi when it is halved: the channel is accepted, and
its first payment ends with a failed sanity check. -/
theorem odd_capacity_not_sane :
    ∃ g trace w, SimGraph.new
        [.new 100001 ⟨700⟩ (samplePolicy alice) (samplePolicy bob) false] [] ∅ = .ok g ∧
      ¬ AllSane g.channels ∧
      PaymentRun (fun _ : Unit => aliceToCarol ⟨1⟩) g.channels trace w ∧
      ((), .channelError 0 (.sanityCheckFailed 100000 100001)) ∈ trace := by
  refine ⟨_, _, _, rfl, fun hsane => ?_, .tail (k := ()) .refl (.add rfl), .head _⟩
  have hfail := hsane ⟨700⟩ _ rfl
  exact absurd hfail (by decide)

/-- **Channel limits.** In every state reachable from a freshly built network, each direction of
each channel keeps the limits of both parties, and the funds of a channel stay within its
capacity. -/
theorem limits_kept {ι : Type} [DecidableEq ι] {reqs : ι → PropagatePaymentRequest}
    {w : World ι Channels Phase} {trace : List (ι × Event)} (hbuilt : ∀ c ∈ list, c.Built)
    (hg : SimGraph.new list interceptors records = .ok g)
    (h : PaymentRun reqs g.channels trace w) (scid : ShortChannelID)
    (c : SimulatedChannel) (hc : w.shared.lookup scid = some c) : c.Bounded := by
  refine channel_invariant h (P := fun _ c => c.Bounded) (fun _ hash c c' hstep hb => ?_)
    (fun scid c hc => ?_) scid c hc
  · cases hstep with
    | same => exact hb
    | push hacc => exact hb.pushHtlc hacc
    | pop success hentry => exact hb.popHtlc hentry success
  · exact (hbuilt c ((SimGraph.lookup_new hg scid c).mp hc).1).bounded

theorem limits_kept_aliceToCarol :
    ∃ trace w, PaymentRun (fun _ : Unit => aliceToCarol ⟨1⟩) threeNodes trace w ∧
      ((), .htlcAdded ⟨0, alice, ⟨⟨700⟩, 0⟩, ⟨20030, 58⟩⟩) ∈ trace ∧
      ∀ scid c, w.shared.lookup scid = some c → c.Bounded := by
  obtain ⟨g, hg, hchannels⟩ := new_threeNodes
  have hrun : PaymentRun (fun _ : Unit => aliceToCarol ⟨1⟩) threeNodes _ _ :=
    .tail (k := ()) .refl (.add rfl)
  have hlimits : ∀ trace w, PaymentRun (fun _ : Unit => aliceToCarol ⟨1⟩) threeNodes trace w →
      ∀ scid c, w.shared.lookup scid = some c → c.Bounded := by
    rw [← hchannels]
    exact fun _ _ h => limits_kept threeNodes_built hg h
  exact ⟨_, _, hrun, .head _, hlimits _ _ hrun⟩

end Built
end SimLn
