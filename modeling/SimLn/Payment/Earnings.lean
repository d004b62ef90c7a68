import SimLn.Payment.Safety
import SimLn.Payment.Fees

/-!
# SimLn — what payments cost and earn

A successful payment takes the amount of its first hop from its source and leaves every node on its
route with the fee that its hop states; the fee of the last hop is the amount that is delivered
(`earned`). The channels carry no such account: each moves the whole amount of its hop from one of its
sides to the other. The balances of a node's sides come to it in total because what a node receives
over the channel of one hop and sends over that of the next differ by the fee, so the sum over the hops
telescopes (`sum_moved`). So when the payments have finished, every node has what it had before, and
what the successful payments have earned it (`wealth_finished`).

This rests on routes that are connected: the node at the other end of each channel is the one that the
hop names. The channels check who sends an HTLC, but not who receives it.
-/

namespace SimLn

open Lib
open scoped UInt64.CommRing

/-! ## The balances of a node -/

/-- The node whose side of the channel this is. -/
def owner (channels : Channels) (p : Place) : Option PublicKey :=
  (channels.lookup p.1).map fun c => (c.node p.2).policy.pubkey

/-- The sides of channels that are a node's own. -/
def placesOf (channels : Channels) (pubkey : PublicKey) : Finset Place :=
  (channels.keys.toFinset ×ˢ {Side.one, Side.two}).filter fun p => owner channels p = some pubkey

variable {R : Type} [AddCommGroup R] (V : Reading R)

def balanceAt (channels : Channels) (p : Place) : R :=
  ((channels.lookup p.1).map fun c => V.val (c.node p.2).localBalanceMsat).getD 0

/-- What a node has on its sides of its channels. -/
def wealth (channels : Channels) (pubkey : PublicKey) : R :=
  ∑ p ∈ placesOf channels pubkey, balanceAt V channels p

/-- What a successful payment earns a node: the fees of its hops, and it costs the source the amount of
the first HTLC. -/
def earned (req : PropagatePaymentRequest) (pubkey : PublicKey) : R :=
  (req.route.hops.map fun hop => if hop.pubkey = pubkey then V.val hop.feeMsat else 0).sum
    - if req.source = pubkey then V.val (req.amountAt 0) else 0

/-- The node at the other end of each channel of the route is the node of the hop. -/
def Connected (channels : Channels) (req : PropagatePaymentRequest) : Prop :=
  ∀ i hop p, req.route.hops[i]? = some hop → Sends req channels i p →
    owner channels p.opposite = some hop.pubkey

variable {V} {channels channels' : Channels} {req : PropagatePaymentRequest} {pubkey : PublicKey}
  {p p' : Place} {i : Nat}

@[simp] theorem Place.opposite_opposite (p : Place) : p.opposite.opposite = p := by
  rw [Place.opposite, Place.opposite, Side.other_other]

/-- The owner of a place is the node with this side of the channel. -/
theorem owner_eq_some : owner channels p = some pubkey ↔
    ∃ c, channels.lookup p.1 = some c ∧ (c.node p.2).policy.pubkey = pubkey :=
  Option.map_eq_some_iff

/-- The places of a node are those that it owns. -/
theorem mem_placesOf : p ∈ placesOf channels pubkey ↔ owner channels p = some pubkey := by
  rw [placesOf, Finset.mem_filter, Finset.mem_product, List.mem_toFinset, AList.mem_keys.symm]
  refine ⟨And.right, fun h => ⟨⟨?_, ?_⟩, h⟩⟩
  · obtain ⟨c, hc, -⟩ := owner_eq_some.mp h
    exact AList.lookup_isSome.mp (by rw [hc]; rfl)
  · cases p.2 <;> decide

/-- Nodes keep their channels. -/
theorem SameNetwork.owner (h : SameNetwork channels channels') (p : Place) :
    owner channels' p = SimLn.owner channels p := by
  cases hc : channels.lookup p.1 with
  | none =>
    have hrel := h p.1
    rw [hc] at hrel
    generalize hc' : channels'.lookup p.1 = opt at hrel
    cases hrel
    rw [SimLn.owner, SimLn.owner, hc, hc']
  | some c =>
    obtain ⟨c', hc', hterms⟩ := h.lookup hc
    rw [SimLn.owner, SimLn.owner, hc, hc', Option.map_some, Option.map_some, hterms.policy]

/-- Payments do not change who owns what. -/
theorem SameNetwork.placesOf (h : SameNetwork channels channels') (pubkey : PublicKey) :
    placesOf channels' pubkey = SimLn.placesOf channels pubkey := by
  ext p
  rw [mem_placesOf, mem_placesOf, h.owner]

/-! ## The places of a route -/

/-- A hop is sent from one place. -/
theorem Sends.unique (h : Sends req channels i p) (h' : Sends req channels i p') : p = p' := by
  obtain ⟨hop, c, hhop, hid, hc, hside⟩ := sends_iff.mp h
  obtain ⟨hop', c', hhop', hid', hc', hside'⟩ := sends_iff.mp h'
  obtain rfl := Option.some.inj (hhop.symm.trans hhop')
  have hscid : p.1 = p'.1 := hid.symm.trans hid'
  rw [hscid] at hc
  obtain rfl := Option.some.inj (hc.symm.trans hc')
  exact Prod.ext hscid (Option.some.inj (hside.symm.trans hside'))

/-- The side that an HTLC goes from is that of its sender. -/
theorem Sends.owner (h : Sends req channels i p) : owner channels p = some (req.sender i) := by
  obtain ⟨hop, c, hhop, hid, hc, hside⟩ := sends_iff.mp h
  refine owner_eq_some.mpr ⟨c, hc, ?_⟩
  cases hs : p.2 with
  | one =>
    rw [hs] at hside
    exact (SimulatedChannel.sideOf_eq_one.mp hside).symm
  | two =>
    rw [hs] at hside
    exact (SimulatedChannel.sideOf_eq_two.mp hside).2.symm

/-- The amount of a hop, found in the one place that it goes from. -/
theorem sum_sends (h : Sends req channels i p) (places : Finset Place) (a : R) :
    (∑ q ∈ places, if Sends req channels i q then a else 0) = if p ∈ places then a else 0 := by
  have hiff : ∀ q, Sends req channels i q ↔ q = p := fun q =>
    ⟨fun hq => hq.unique h, fun hq => hq ▸ h⟩
  simp only [hiff, Finset.sum_ite_eq']

/-- What the HTLCs of a route take from a node. -/
theorem sum_sent (hsends : ∀ i < req.route.hops.length, ∃ p, Sends req channels i p) :
    ∑ p ∈ placesOf channels pubkey, sent V channels p req
      = ∑ i ∈ Finset.range req.route.hops.length,
        if req.sender i = pubkey then V.val (req.amountAt i) else 0 := by
  simp only [sent]
  rw [Finset.sum_comm]
  refine Finset.sum_congr rfl fun i hi => ?_
  obtain ⟨p, hp⟩ := hsends i (Finset.mem_range.mp hi)
  rw [sum_sends hp]
  refine if_congr ?_ rfl rfl
  rw [mem_placesOf, hp.owner, Option.some.injEq]

/-- What they bring to a node. -/
theorem sum_received (hsends : ∀ i < req.route.hops.length, ∃ p, Sends req channels i p)
    (hconnected : Connected channels req) :
    ∑ p ∈ placesOf channels pubkey, received V channels p req
      = ∑ i ∈ Finset.range req.route.hops.length,
        if req.sender (i + 1) = pubkey then V.val (req.amountAt i) else 0 := by
  simp only [received, sent]
  rw [Finset.sum_comm]
  refine Finset.sum_congr rfl fun i hi => ?_
  have hlt := Finset.mem_range.mp hi
  obtain ⟨p, hp⟩ := hsends i hlt
  have hhop := List.getElem?_eq_getElem hlt
  have hopposite : ∀ q : Place, Sends req channels i q.opposite ↔ q = p.opposite := fun q => by
    constructor
    · intro hq
      rw [← hq.unique hp, Place.opposite_opposite]
    · rintro rfl
      rwa [Place.opposite_opposite]
  simp only [hopposite, Finset.sum_ite_eq']
  refine if_congr ?_ rfl rfl
  rw [mem_placesOf, hconnected i _ p hhop hp, PropagatePaymentRequest.sender_succ hhop,
    Option.some.injEq]

/-! ## The sum over the hops -/

theorem Reading.val_zero (V : Reading R) : V.val 0 = 0 := by
  have hsub := V.val_sub (UInt64.le_refl 0)
  rwa [sub_self, sub_self] at hsub

/-- The amounts of the hops differ by their fees in this reading. -/
def Additive (V : Reading R) (req : PropagatePaymentRequest) : Prop :=
  ∀ i hop, req.route.hops[i]? = some hop →
    V.val (req.amountAt i) = V.val hop.feeMsat + V.val (req.amountAt (i + 1))

/-- Fees add up in `u64`. -/
theorem additive_wrapping (req : PropagatePaymentRequest) : Additive .wrapping req :=
  fun _ _ hhop => PropagatePaymentRequest.amountAt_eq hhop

/-- They add up exactly if the whole amount fits. -/
theorem additive_exact (hfits : req.exactAmount 0 < 2 ^ 64) : Additive .exact req := by
  intro i hop hhop
  have hexact : ∀ j, (req.amountAt j).toNat = req.exactAmount j := fun j => by
    rw [req.toNat_amountAt, Nat.mod_eq_of_lt (Nat.lt_of_le_of_lt (req.exactAmount_le j) hfits)]
  show ((req.amountAt i).toNat : ℤ) = hop.feeMsat.toNat + (req.amountAt (i + 1)).toNat
  rw [hexact, hexact, PropagatePaymentRequest.exactAmount_eq hhop, Nat.cast_add]

theorem amountAt_length (req : PropagatePaymentRequest) :
    req.amountAt req.route.hops.length = 0 := by
  rw [PropagatePaymentRequest.amountAt, List.drop_length, List.map_nil, List.sum_nil]

/-- A sum over the hops of a route, by their index. -/
theorem sum_hops (req : PropagatePaymentRequest) (f : RouteHop → R) :
    (req.route.hops.map f).sum
      = ∑ i ∈ Finset.range req.route.hops.length, ((req.route.hops[i]?).map f).getD 0 := by
  rw [Finset.sum_range, ← List.sum_ofFn]
  congr 1
  refine List.ext_getElem (by simp) fun i hi hi' => ?_
  rw [List.getElem_map, List.getElem_ofFn, List.getElem?_eq_getElem (by simpa using hi)]
  rfl

/-- **What a route moves.** What its HTLCs bring to a node and take from it come to what it earns. -/
theorem sum_moved (hsends : ∀ i < req.route.hops.length, ∃ p, Sends req channels i p)
    (hconnected : Connected channels req) (hadditive : Additive V req) :
    (∑ p ∈ placesOf channels pubkey, (received V channels p req - sent V channels p req))
      = earned V req pubkey := by
  have hsent : ∑ p ∈ placesOf channels pubkey, sent V channels p req = _ := sum_sent hsends
  -- the HTLC of the first hop comes from the source, the others from the hop before
  have hshift : ∑ i ∈ Finset.range req.route.hops.length,
        (if req.sender i = pubkey then V.val (req.amountAt i) else 0)
      = (∑ i ∈ Finset.range req.route.hops.length,
          if req.sender (i + 1) = pubkey then V.val (req.amountAt (i + 1)) else 0)
        + if req.source = pubkey then V.val (req.amountAt 0) else 0 := by
    have hsucc := Finset.sum_range_succ'
      (fun i => if req.sender i = pubkey then V.val (req.amountAt i) else 0) req.route.hops.length
    rw [Finset.sum_range_succ, amountAt_length, V.val_zero, ite_self, add_zero] at hsucc
    exact hsucc
  rw [Finset.sum_sub_distrib, hsent, sum_received hsends hconnected, hshift, earned, sum_hops,
    ← sub_sub, ← Finset.sum_sub_distrib]
  congr 1
  refine Finset.sum_congr rfl fun i hi => ?_
  have hlt := Finset.mem_range.mp hi
  have hhop := List.getElem?_eq_getElem hlt
  rw [PropagatePaymentRequest.sender_succ hhop, hhop, Option.map_some, Option.getD_some]
  by_cases hpubkey : req.route.hops[i].pubkey = pubkey
  · rw [if_pos hpubkey, if_pos hpubkey, if_pos hpubkey, hadditive i _ hhop, add_sub_cancel_right]
  · rw [if_neg hpubkey, if_neg hpubkey, if_neg hpubkey, sub_self]

/-! ## Runs -/

section Runs

variable {ι : Type} [DecidableEq ι] {reqs : ι → PropagatePaymentRequest} {w : World ι Channels Phase}
  {trace : List (ι × Event)}

/-- The hops of a payment that has succeeded are those of the network. -/
theorem Owned.sends {past : List Event} {result : PaymentResult}
    (h : Owned channels req channels' past (.finished result))
    (hsuccess : result.paymentOutcome = .success) :
    ∀ i < req.route.hops.length, ∃ p, Sends req channels i p := by
  intro i hi
  have hreported : Reported req past result := h.control.phase
  have hadded : (added past).length = req.route.hops.length := by
    cases hreported with
    | success hadded => exact hadded
    | unknown => cases hsuccess
    | failure => cases hsuccess
  have hget := List.getElem?_eq_getElem (hadded.symm ▸ hi)
  obtain ⟨hon, -⟩ := h.control.log.addedAt i _ hget
  obtain ⟨p, hp⟩ := h.located _ (List.mem_of_getElem? hget)
  exact ⟨p, (place_eq_some_iff_sends hon p).mp hp⟩

/-- What a node has is what it had, and what has flowed to its places. -/
theorem run_wealth [Fintype ι] (h : PaymentRun reqs channels trace w)
    (hfits : ∀ scid c, channels.lookup scid = some c → V.Fits c) (pubkey : PublicKey) :
    wealth V w.shared pubkey = wealth V channels pubkey
      + ∑ p ∈ placesOf channels pubkey, ∑ k, flow V channels p (eventsOf k trace) := by
  have hnet := run_sameNetwork h
  rw [wealth, hnet.placesOf, wealth, ← Finset.sum_add_distrib]
  refine Finset.sum_congr rfl fun p hp => ?_
  obtain ⟨c₀, hc₀, -⟩ := owner_eq_some.mp (mem_placesOf.mp hp)
  obtain ⟨c, hc, -⟩ := hnet.lookup hc₀
  rw [balanceAt, balanceAt, hc₀, hc]
  exact run_balance h hc₀ hc (hfits p.1 c₀ hc₀) p.2

/-- The rule for both readings. -/
theorem run_wealth_finished [Fintype ι] (hidle : Idle channels)
    (hdistinct : Function.Injective fun k => (reqs k).paymentHash)
    (h : PaymentRun reqs channels trace w) (hok : ∀ k e, (k, e) ∈ trace → e.isCritical = false)
    (hfinished : ∀ k, ∃ result, w.proc k = .finished result)
    (hconnected : ∀ k, Connected channels (reqs k))
    (hfits : ∀ scid c, channels.lookup scid = some c → V.Fits c)
    (hadditive : ∀ k, (w.proc k).succeeded = true → Additive V (reqs k)) (pubkey : PublicKey) :
    wealth V w.shared pubkey = wealth V channels pubkey
      + ∑ k, if (w.proc k).succeeded then earned V (reqs k) pubkey else 0 := by
  rw [run_wealth h hfits pubkey]
  simp only [sum_flow_finished hidle hdistinct h hok hfinished]
  simp only [← Finset.sum_sub_distrib]
  rw [Finset.sum_comm]
  congr 1
  refine Finset.sum_congr rfl fun k _ => ?_
  cases hsucceeded : (w.proc k).succeeded with
  | false => simp
  | true =>
    obtain ⟨result, hresult⟩ := hfinished k
    have howned := run_owned (hidle.hashesFree reqs) hdistinct h k
    rw [hresult] at howned hsucceeded
    have hsends := howned.sends (of_decide_eq_true hsucceeded)
    simp only [if_true]
    exact sum_moved hsends (hconnected k) (hadditive k (by rw [hresult, hsucceeded]))

/-- Forwarding never costs. -/
theorem earned_nonneg (hsource : req.source ≠ pubkey) : 0 ≤ earned .exact req pubkey := by
  rw [earned, if_neg hsource, sub_zero]
  refine List.sum_nonneg fun a ha => ?_
  obtain ⟨hop, -, rfl⟩ := List.mem_map.mp ha
  split
  · exact Int.natCast_nonneg _
  · exact le_refl 0

/-- **Fees.** Payments with distinct hashes and connected routes run over an idle network in any order,
without a critical error, until all have finished. Then every node has what it had at the start and what
the successful payments have earned it: in `u64` arithmetic, and exactly where the funds of the channels
and the amounts of these payments fit in `u64`. In that case only sources have lost anything. -/
theorem wealth_finished [Fintype ι] (hidle : Idle channels)
    (hdistinct : Function.Injective fun k => (reqs k).paymentHash)
    (h : PaymentRun reqs channels trace w) (hok : ∀ k e, (k, e) ∈ trace → e.isCritical = false)
    (hfinished : ∀ k, ∃ result, w.proc k = .finished result)
    (hconnected : ∀ k, Connected channels (reqs k)) (pubkey : PublicKey) :
    wealth .wrapping w.shared pubkey = wealth .wrapping channels pubkey
        + (∑ k, if (w.proc k).succeeded then earned .wrapping (reqs k) pubkey else 0) ∧
      ((∀ scid c, channels.lookup scid = some c → c.exactBalance < 2 ^ 64) →
        (∀ k, (w.proc k).succeeded = true → (reqs k).exactAmount 0 < 2 ^ 64) →
        wealth .exact w.shared pubkey = wealth .exact channels pubkey
            + (∑ k, if (w.proc k).succeeded then earned .exact (reqs k) pubkey else 0) ∧
          ((∀ k, (w.proc k).succeeded = true → (reqs k).source ≠ pubkey) →
            wealth .exact channels pubkey ≤ wealth .exact w.shared pubkey)) := by
  refine ⟨run_wealth_finished hidle hdistinct h hok hfinished hconnected (fun _ _ _ => trivial)
    (fun k _ => additive_wrapping (reqs k)) pubkey, fun hfits hamounts => ?_⟩
  have hexact := run_wealth_finished (V := .exact) hidle hdistinct h hok hfinished hconnected hfits
    (fun k hsucceeded => additive_exact (hamounts k hsucceeded)) pubkey
  refine ⟨hexact, fun hsources => ?_⟩
  rw [hexact]
  refine le_add_of_nonneg_right (Finset.sum_nonneg fun k _ => ?_)
  split
  case isTrue hsucceeded => exact earned_nonneg (hsources k hsucceeded)
  case isFalse => exact le_refl 0

/-- The route from Alice to Carol is connected. -/
theorem aliceToCarol_connected (hash : PaymentHash) : Connected threeNodes (aliceToCarol hash) := by
  intro i hop p hhop hp
  rcases sends_aliceToCarol hp with ⟨rfl, rfl⟩ | ⟨rfl, rfl⟩
  · obtain rfl := Option.some.inj hhop
    rfl
  · obtain rfl := Option.some.inj hhop
    rfl

/-- Both payments have connected routes. -/
theorem mixedPayments_connected (k : Bool) : Connected threeNodes (mixedPayments k) := by
  cases k with
  | true => exact aliceToCarol_connected _
  | false =>
    intro i hop p hhop hp
    obtain ⟨hop', c, hhop', hid, hc, hside⟩ := sends_iff.mp hp
    obtain rfl := Option.some.inj (hhop.symm.trans hhop')
    obtain ⟨scid, s⟩ := p
    match i, hhop with
    | 0, hhop =>
      obtain rfl := Option.some.inj hhop
      obtain rfl : (⟨700⟩ : ShortChannelID) = scid := hid
      obtain rfl := Option.some.inj
        ((show threeNodes.lookup ⟨700⟩ = some aliceBob from rfl).symm.trans hc)
      obtain rfl := Option.some.inj
        ((show aliceBob.sideOf alice = some .one from rfl).symm.trans hside)
      rfl

/-- Bob has earned the fee that his hop states. -/
theorem wealth_finished_mixedPayments :
    ∃ trace w, PaymentRun mixedPayments threeNodes trace w ∧
      wealth .wrapping w.shared bob = wealth .wrapping threeNodes bob + 30 := by
  obtain ⟨w, hrun, htrue, hfalse⟩ := mixedPayments_run
  have hdistinct : Function.Injective fun k => (mixedPayments k).paymentHash := by
    intro a b hab
    cases a <;> cases b <;> first | rfl | exact absurd hab (by decide)
  have hfinished : ∀ k, ∃ result, w.proc k = .finished result := by
    intro k
    cases k
    · exact ⟨_, hfalse⟩
    · exact ⟨_, htrue⟩
  have hwealth := (wealth_finished threeNodes_inFlight hdistinct hrun (fun k e he => ?_) hfinished
    mixedPayments_connected bob).1
  · refine ⟨_, w, hrun, hwealth.trans ?_⟩
    rw [Fintype.sum_bool, htrue, hfalse]
    rfl
  · simp only [List.mem_cons, Prod.mk.injEq, List.not_mem_nil, or_false] at he
    rcases he with ⟨-, rfl⟩ | ⟨-, rfl⟩ | ⟨-, rfl⟩ | ⟨-, rfl⟩ | ⟨-, rfl⟩ | ⟨-, rfl⟩ | ⟨-, rfl⟩ <;> rfl

end Runs

end SimLn
