import SimLn.Payment.Fees
import SimLn.Channel.Operations

/-!
# SimLn — a payment on its own

With no other payment running and no interceptors, what becomes of a payment is decided by the state
that it starts in. `Admissible` says of all hops at once what the loop of `add_htlcs` asks of one hop
after the other, each time of the party that owns the limit, and stops at where it is not met. The
payment succeeds exactly if its route is admissible, and otherwise leaves every channel as it was. It
comes to another end only where the fee that is expected of a hop overflows (`FeeOverflows`): then its
HTLCs are left behind, also if the hop offers that fee (`lone_payment_ends`).

The loop carries its work in the channels. `Standing` says how they differ from those of the start:
the first hops have their HTLC, and the other channels are as they were.
-/

namespace SimLn

open Lib

/-! ## Admissible routes -/

/-- Side `s` of `c` is that of the node which sends the HTLC of hop `i`, and the other side is that of
the node of the hop. -/
structure OnRoute (channels : Channels) (req : PropagatePaymentRequest) (i : Nat) (hop : RouteHop)
    (c : SimulatedChannel) (s : Side) : Prop where
  found : channels.lookup hop.scid = some c
  sender : c.sideOf (req.sender i) = some s
  receiver : (c.node s.other).policy.pubkey = hop.pubkey

/-- Side `s` of `c` can send the HTLC of hop `i`. -/
structure Offerable (req : PropagatePaymentRequest) (i : Nat) (c : SimulatedChannel) (s : Side) :
    Prop where
  min_le : (c.node s).policy.minHtlcSizeMsat.toNat ≤ req.exactAmount i
  le_max : req.exactAmount i ≤ (c.node s).policy.maxHtlcSizeMsat.toNat
  balance : req.exactAmount i ≤ (c.node s).localBalanceMsat.toNat
  count : (c.node s).inFlight.size + 1 ≤ (c.node s.other).policy.maxHtlcCount.toNat
  total : (c.node s).exactInFlight + req.exactAmount i
    ≤ (c.node s.other).policy.maxInFlightMsat.toNat
  expiry : req.exactCltv i ≤ 500000000

/-- The node after hop `i` is offered the delta and the fee of its policy for the next channel. -/
structure Forwardable (req : PropagatePaymentRequest) (i : Nat) (hop : RouteHop)
    (policy : ChannelPolicy) : Prop where
  delta : policy.cltvExpiryDelta.toNat ≤ hop.cltvExpiryDelta.toNat
  fee : policy.baseFee.toNat + req.exactAmount (i + 1) * policy.feeRateProp.toNat / 1000000
    ≤ hop.feeMsat.toNat

/-- What hop `i` needs: to be sent, and to be forwarded if it is not the last. -/
structure HopAdmissible (channels : Channels) (req : PropagatePaymentRequest) (i : Nat)
    (hop : RouteHop) : Prop where
  offer : ∃ c s, OnRoute channels req i hop c s ∧ Offerable req i c s
  forward : ∀ next, req.route.hops[i + 1]? = some next → ∃ c s,
    OnRoute channels req (i + 1) next c s ∧ Forwardable req i hop (c.node s).policy

/-- Every hop of the route can be sent and forwarded. -/
def Admissible (channels : Channels) (req : PropagatePaymentRequest) : Prop :=
  ∀ i hop, req.route.hops[i]? = some hop → HopAdmissible channels req i hop

/-- The route uses each channel once, and every channel is there, connects the nodes of its hop,
passes its sanity check and does not hold the payment's hash yet. -/
structure Ready (channels : Channels) (req : PropagatePaymentRequest) : Prop where
  once : (req.route.hops.map (·.scid)).Nodup
  channel : ∀ i hop, req.route.hops[i]? = some hop → ∃ c s, OnRoute channels req i hop c s ∧
    c.sanityCheck = .ok () ∧ req.paymentHash ∉ (c.node s).inFlight

/-- What the code computes for the route in `u64` and `u32` does not wrap around: the amounts and
expiries of the HTLCs, and what a side holds and has in flight. -/
structure NoOverflow (channels : Channels) (req : PropagatePaymentRequest) : Prop where
  amount : req.exactAmount 0 < 2 ^ 64
  cltv : req.exactCltv 0 < 2 ^ 32
  side : ∀ i hop c s, req.route.hops[i]? = some hop → OnRoute channels req i hop c s →
    (c.node s).localBalanceMsat.toNat + (c.node s).exactInFlight < 2 ^ 64 ∧
      (c.node s).inFlight.size + 1 < 2 ^ 64

/-- The hops before `k` are admissible. -/
def Passed (channels : Channels) (req : PropagatePaymentRequest) (k : Nat) : Prop :=
  ∀ i hop, i < k → req.route.hops[i]? = some hop → HopAdmissible channels req i hop

/-- The payment comes to ask the next channel what it takes to forward hop `i`, and cannot be told: the
hops before are admissible, hop `i` can be sent and brings the delta, which is checked first, but the
fee does not fit in `u64`. -/
inductive FeeOverflows (channels : Channels) (req : PropagatePaymentRequest) (i : Nat) : Prop where
  | mk {hop next : RouteHop} {c c' : SimulatedChannel} {s s' : Side}
      (hpassed : Passed channels req i) (hhop : req.route.hops[i]? = some hop)
      (hnext : req.route.hops[i + 1]? = some next) (hon : OnRoute channels req i hop c s)
      (hoffer : Offerable req i c s) (hon' : OnRoute channels req (i + 1) next c' s')
      (hdelta : (c'.node s').policy.cltvExpiryDelta.toNat ≤ hop.cltvExpiryDelta.toNat)
      (hfee : ¬ FeeFits (c'.node s').policy (req.amountAt (i + 1)))

/-- No fee that the payment comes to ask for overflows. -/
def FeesFit (channels : Channels) (req : PropagatePaymentRequest) : Prop :=
  ∀ i, ¬ FeeOverflows channels req i

/-- A channel with the balances and HTLCs that it had. The indices of its HTLCs have moved on. -/
structure Restored (c c' : SimulatedChannel) : Prop where
  frame : c.SameFrame c'
  balance : ∀ s, (c'.node s).localBalanceMsat = (c.node s).localBalanceMsat
  inFlight : ∀ s hash, (c'.node s).inFlight.lookup hash = (c.node s).inFlight.lookup hash

/-- What the payment has come to with this result. -/
structure Settles (channels : Channels) (req : PropagatePaymentRequest) (result : PaymentResult)
    (current : Channels) : Prop where
  success : result.paymentOutcome = .success ↔ Admissible channels req
  failure : ¬ Admissible channels req → (∃ idx, result.paymentOutcome = .indexFailure idx) ∧
    ∀ scid, Option.Rel Restored (channels.lookup scid) (current.lookup scid)

variable {channels current : Channels} {req : PropagatePaymentRequest} {c c' : SimulatedChannel}
  {s s' : Side} {i : Nat} {hop : RouteHop}

/-- A hop has one channel and one side of it. -/
theorem OnRoute.unique (h : OnRoute channels req i hop c s) (h' : OnRoute channels req i hop c' s') :
    c = c' ∧ s = s' := by
  obtain rfl : c = c' := Option.some.inj (h.found.symm.trans h'.found)
  exact ⟨rfl, Option.some.inj (h.sender.symm.trans h'.sender)⟩

/-! ## The sums of the route -/

/-- The amounts computed are the exact ones. -/
theorem NoOverflow.amountAt (h : NoOverflow channels req) (i : Nat) :
    (req.amountAt i).toNat = req.exactAmount i := by
  rw [req.toNat_amountAt, Nat.mod_eq_of_lt (Nat.lt_of_le_of_lt (req.exactAmount_le i) h.amount)]

/-- The expiries computed are the exact ones. -/
theorem NoOverflow.cltvAt (h : NoOverflow channels req) (i : Nat) :
    (req.cltvAt i).toNat = req.exactCltv i := by
  rw [req.toNat_cltvAt, Nat.mod_eq_of_lt (Nat.lt_of_le_of_lt (req.exactCltv_le i) h.cltv)]

/-- With a payment of more than nothing no HTLC is for nothing. -/
theorem NoOverflow.amount_ne (h : NoOverflow channels req) (hfinal : req.route.finalValueMsat ≠ 0)
    (hi : i < req.route.hops.length) : (req.htlcAt i).amountMsat ≠ 0 := by
  intro hzero
  have hle := PropagatePaymentRequest.finalValueMsat_le hi
  rw [← h.amountAt i, show req.amountAt i = 0 from hzero] at hle
  exact hfinal (UInt64.toNat_inj.mp (Nat.le_zero.mp hle))

/-- The checks of `check_outgoing_addition` are those of the route. -/
theorem NoOverflow.offerable_iff (h : NoOverflow channels req)
    (hhop : req.route.hops[i]? = some hop) (hon : OnRoute channels req i hop c s) :
    (c.node s).checkOutgoingAddition (req.htlcAt i) (c.node s.other).policy = .ok () ↔
      Offerable req i c s := by
  obtain ⟨hside, hsize⟩ := h.side i hop c s hhop hon
  rw [SimulatedChannel.checkOutgoingAddition_iff_exactly hside fun _ => hsize]
  unfold SimulatedChannel.ChecksExactly
  simp only [PropagatePaymentRequest.htlcAt, h.amountAt, h.cltvAt]
  constructor
  · rintro ⟨hmax, hmin, hcount, htotal, hbalance, hexpiry⟩
    exact ⟨hmin, hmax, hbalance, hcount, htotal, hexpiry⟩
  · rintro ⟨hmin, hmax, hbalance, hcount, htotal, hexpiry⟩
    exact ⟨hmax, hmin, hcount, htotal, hbalance, hexpiry⟩

/-! ## The channels along the way -/

/-- Two hops have two channels. -/
theorem scid_ne (hready : Ready channels req) {j : Nat} {other : RouteHop}
    (hhop : req.route.hops[i]? = some hop) (hother : req.route.hops[j]? = some other) (hne : j ≠ i) :
    other.scid ≠ hop.scid := by
  intro heq
  have hi : (req.route.hops.map (·.scid))[i]? = some hop.scid := by rw [List.getElem?_map, hhop]; rfl
  have hj : (req.route.hops.map (·.scid))[j]? = some hop.scid := by
    rw [List.getElem?_map, hother, ← heq]
    rfl
  have hlt : j < (req.route.hops.map (·.scid)).length := (List.getElem?_eq_some_iff.mp hj).1
  exact hne ((List.getElem?_inj hlt hready.once).mp (hj.trans hi.symm))

/-- The channels of the first `k` hops hold their HTLC, and every other one is in relation `R` to what
it was. -/
structure Standing (channels : Channels) (req : PropagatePaymentRequest)
    (R : SimulatedChannel → SimulatedChannel → Prop) (k : Nat) (current : Channels) : Prop where
  held : ∀ i hop c s, i < k → req.route.hops[i]? = some hop → OnRoute channels req i hop c s →
    current.lookup hop.scid = some (c.pushHtlc s req.paymentHash (req.htlcAt i))
  free : ∀ scid, (∀ i hop, i < k → req.route.hops[i]? = some hop → hop.scid ≠ scid) →
    Option.Rel R (channels.lookup scid) (current.lookup scid)

/-- An overflow of the fee of hop `i` ends the payment, and the HTLCs added so far stay. -/
def Stranded (channels : Channels) (req : PropagatePaymentRequest) (result : PaymentResult)
    (current : Channels) : Prop :=
  result.paymentOutcome = .unknown ∧
    ∃ i, FeeOverflows channels req i ∧ Standing channels req Eq (i + 1) current

variable {R R' : SimulatedChannel → SimulatedChannel → Prop} {k : Nat}

/-- Before the first hop nothing stands. -/
theorem standing_start (channels : Channels) (req : PropagatePaymentRequest) :
    Standing channels req Eq 0 channels := by
  refine ⟨fun i hop c s hlt => absurd hlt (Nat.not_lt_zero i), fun scid _ => ?_⟩
  cases channels.lookup scid with
  | none => exact .none
  | some c => exact .some rfl

theorem Standing.mono (h : Standing channels req R k current) (himp : ∀ c c', R c c' → R' c c') :
    Standing channels req R' k current :=
  ⟨h.held, fun scid hfree => optionRel_imp (h.free scid hfree) himp⟩

/-- What stands depends on the channels alone. -/
theorem Standing.same {current' : Channels} (h : Standing channels req R k current)
    (hsame : SameChannels current current') : Standing channels req R k current' := by
  refine ⟨fun i hop c s hlt hhop hon => ?_, fun scid hfree => ?_⟩
  · rw [hsame]
    exact h.held i hop c s hlt hhop hon
  · rw [hsame]
    exact h.free scid hfree

/-- The channel of a hop that has not been added yet. -/
theorem Standing.untouched (hready : Ready channels req) (h : Standing channels req Eq k current)
    (hhop : req.route.hops[i]? = some hop) (hle : k ≤ i) (hon : OnRoute channels req i hop c s) :
    current.lookup hop.scid = some c := by
  have hrel := h.free hop.scid fun j other hlt hother =>
    scid_ne hready hhop hother (by omega)
  rw [hon.found] at hrel
  obtain ⟨c', hc', rfl⟩ := exists_of_rel_some hrel
  exact hc'

/-- The HTLC of the next hop is added. -/
theorem Standing.push (hready : Ready channels req) (h : Standing channels req R k current)
    (hhop : req.route.hops[k]? = some hop) (hon : OnRoute channels req k hop c s) :
    Standing channels req R (k + 1)
      (current.insert hop.scid (c.pushHtlc s req.paymentHash (req.htlcAt k))) := by
  refine ⟨fun j other d t hlt hother hon' => ?_, fun scid hfree => ?_⟩
  · by_cases hjk : j = k
    · obtain rfl := hjk
      obtain rfl := Option.some.inj (hhop.symm.trans hother)
      obtain ⟨rfl, rfl⟩ := hon.unique hon'
      exact AList.lookup_insert _
    · rw [AList.lookup_insert_ne (scid_ne hready hhop hother hjk)]
      exact h.held j other d t (by omega) hother hon'
  · rw [AList.lookup_insert_ne (hfree k hop (by omega) hhop).symm]
    exact h.free scid fun j other hlt hother => hfree j other (by omega) hother

/-- The HTLC of the last hop that has one is removed, which leaves its channel as `R` says. -/
theorem Standing.pop (hready : Ready channels req) (h : Standing channels req R (k + 1) current)
    (hhop : req.route.hops[k]? = some hop) (hon : OnRoute channels req k hop c s) (hR : R c c') :
    Standing channels req R k (current.insert hop.scid c') := by
  refine ⟨fun j other d t hlt hother hon' => ?_, fun scid hfree => ?_⟩
  · rw [AList.lookup_insert_ne (scid_ne hready hhop hother (by omega))]
    exact h.held j other d t (by omega) hother hon'
  · by_cases hscid : scid = hop.scid
    · rw [hscid, AList.lookup_insert, hon.found]
      exact .some hR
    · rw [AList.lookup_insert_ne hscid]
      refine h.free scid fun j other hlt hother => ?_
      by_cases hjk : j = k
      · obtain rfl := hjk
        obtain rfl := Option.some.inj (hhop.symm.trans hother)
        exact Ne.symm hscid
      · exact hfree j other (by omega) hother

/-- A failed HTLC leaves its channel as it found it. -/
theorem restored_popHtlc (hash : PaymentHash) (htlc : Htlc) (hfresh : hash ∉ (c.node s).inFlight) :
    Restored c ((c.pushHtlc s hash htlc).popHtlc s hash htlc.amountMsat false) := by
  have hterms := (c.sameTerms_pushHtlc s hash htlc).trans
    ((c.pushHtlc s hash htlc).sameTerms_popHtlc s hash htlc.amountMsat false)
  refine ⟨⟨hterms, by simp [SimulatedChannel.pushHtlc, SimulatedChannel.popHtlc]⟩, fun t => ?_,
    fun t k => ?_⟩
  · rcases s.eq_or_eq_other t with rfl | rfl
    · simp
    · simp
  · rcases s.eq_or_eq_other t with rfl | rfl
    · simp only [SimulatedChannel.node_popHtlc, SimulatedChannel.node_pushHtlc]
      by_cases hk : k = hash
      · rw [hk, AList.lookup_erase, AList.lookup_eq_none.mpr hfresh]
      · rw [AList.lookup_erase_ne hk, AList.lookup_insert_ne hk]
    · simp

/-! ## One iteration of the loop -/

variable {loop : AddLoop}

/-- A channel that refuses the HTLC is not changed, and the payment fails from the hop before. -/
theorem addHop_refused (hat : loop.At req) (hfound : current.lookup hop.scid = some c)
    (hside : c.sideOf (req.sender loop.i) = some s) (hsane : c.sanityCheck = .ok ())
    (hamt : (req.htlcAt loop.i).amountMsat ≠ 0)
    (hcheck : (c.node s).checkOutgoingAddition (req.htlcAt loop.i) (c.node s.other).policy ≠ .ok ()) :
    (addHop req loop hop current).2
      = (current.insert hop.scid c, (addsDone req (.ok (.error loop.failIdx))).2) := by
  obtain ⟨fwdErr, hadd⟩ :=
    SimulatedChannel.addHtlc_refuses hsane hside hamt hcheck req.paymentHash
  unfold PropagatePaymentRequest.htlcAt at hadd
  rw [← hat.node, ← hat.amount, ← hat.cltv] at hadd
  simp only [addHop, hfound, hadd]

/-- Where the loop goes on once the forward check has been made. -/
def AddLoop.checked (loop : AddLoop) (request : InterceptRequest) :
    Except ForwardingError Unit → Phase
  | .ok () => .intercepting { loop with failIdx := some loop.i } request
  | .error _ => startRemoving loop.i false

/-- A channel that accepts the HTLC holds it, and the next channel decides on how to go on. -/
theorem addHop_added (hat : loop.At req) (hfound : current.lookup hop.scid = some c)
    (hside : c.sideOf (req.sender loop.i) = some s) (hsane : c.sanityCheck = .ok ())
    (hamt : (req.htlcAt loop.i).amountMsat ≠ 0) (hfresh : req.paymentHash ∉ (c.node s).inFlight)
    (hcheck : (c.node s).checkOutgoingAddition (req.htlcAt loop.i) (c.node s.other).policy = .ok ())
    {res : Except ForwardingError Unit}
    (hforward : checkForward req loop hop
      (current.insert hop.scid (c.pushHtlc s req.paymentHash (req.htlcAt loop.i))) = .ok res) :
    (addHop req loop hop current).2
      = (current.insert hop.scid (c.pushHtlc s req.paymentHash (req.htlcAt loop.i)),
        loop.checked (interceptRequest req loop hop (c.node s).index) res) := by
  have hadd := SimulatedChannel.addHtlc_accepts hsane hside hamt hcheck hfresh
  have hhtlc : req.htlcAt loop.i = ⟨loop.outgoingAmount, loop.outgoingCltv⟩ := by
    rw [PropagatePaymentRequest.htlcAt, hat.amount, hat.cltv]
  -- the forward check does not read the failure index
  have hloop : checkForward req { loop with failIdx := some loop.i } hop
      (current.insert hop.scid (c.pushHtlc s req.paymentHash (req.htlcAt loop.i))) = .ok res :=
    hforward
  rw [hhtlc] at hadd hloop ⊢
  rw [← hat.node] at hadd
  simp only [addHop, hfound, hadd, hloop]
  cases res with
  | ok u => rfl
  | error fwdErr => rfl

/-- The next channel is asked about the HTLC of the next hop. -/
theorem checkForward_eq (hready : Ready channels req) (hat : loop.At req)
    (hhop : req.route.hops[loop.i]? = some hop)
    (hstanding : Standing channels req Eq (loop.i + 1) current) {next : RouteHop}
    (hnext : req.route.hops[loop.i + 1]? = some next)
    (hon : OnRoute channels req (loop.i + 1) next c s) :
    checkForward req loop hop current
      = (c.node s).checkHtlcForward hop.cltvExpiryDelta (req.amountAt (loop.i + 1)) hop.feeMsat := by
  have hlater : (loop.next hop ∅).At req :=
    hat.next hhop (List.getElem?_eq_some_iff.mp hnext).1
  have hamount : loop.outgoingAmount - hop.feeMsat = req.amountAt (loop.i + 1) := hlater.amount
  have hside : c.sideOf hop.pubkey = some s := by
    rw [← PropagatePaymentRequest.sender_succ hhop]
    exact hon.sender
  simp only [checkForward, hnext, hstanding.untouched hready hnext (Nat.le_refl _) hon, hamount]
  exact SimulatedChannel.checkHtlcForward_eq hside _ _ _

/-- The forward check after a hop has been added is that of the route, unless the fee overflows. -/
theorem checkForward_iff (hready : Ready channels req) (hfits : NoOverflow channels req)
    (hat : loop.At req) (hhop : req.route.hops[loop.i]? = some hop)
    (hstanding : Standing channels req Eq (loop.i + 1) current)
    (hfee : ∀ next c s, req.route.hops[loop.i + 1]? = some next →
      OnRoute channels req (loop.i + 1) next c s →
      (c.node s).policy.cltvExpiryDelta.toNat ≤ hop.cltvExpiryDelta.toNat →
      FeeFits (c.node s).policy (req.amountAt (loop.i + 1))) :
    ∃ res, checkForward req loop hop current = .ok res ∧
      (res = .ok () ↔ ∀ next, req.route.hops[loop.i + 1]? = some next → ∃ c s,
        OnRoute channels req (loop.i + 1) next c s ∧
          Forwardable req loop.i hop (c.node s).policy) := by
  cases hnext : req.route.hops[loop.i + 1]? with
  | none => exact ⟨.ok (), by simp only [checkForward, hnext], by simp⟩
  | some next =>
    obtain ⟨c, s, hon, -, -⟩ := hready.channel _ _ hnext
    have hexact := hfits.amountAt (loop.i + 1)
    rw [checkForward_eq hready hat hhop hstanding hnext hon]
    rcases Nat.lt_or_ge hop.cltvExpiryDelta.toNat (c.node s).policy.cltvExpiryDelta.toNat
      with hlt | hdelta
    -- without the delta the fee does not matter
    · refine ⟨_, ChannelState.checkHtlcForward_of_delta_lt hlt _ _, fun hok => ?_, fun hall => ?_⟩
      · cases hok
      · obtain ⟨c', s', hon', hdelta, -⟩ := hall next rfl
        obtain ⟨rfl, rfl⟩ := hon.unique hon'
        omega
    · have hfeeFits := hfee next c s hnext hon hdelta
      obtain ⟨res, hres⟩ :=
        ChannelState.checkHtlcForward_of_fits hfeeFits hop.cltvExpiryDelta hop.feeMsat
      have hiff : res = .ok () ↔ (c.node s).checkHtlcForward hop.cltvExpiryDelta
          (req.amountAt (loop.i + 1)) hop.feeMsat = .ok (.ok ()) := by
        rw [hres, Except.ok.injEq]
      refine ⟨res, hres, ?_⟩
      rw [hiff, ChannelState.checkHtlcForward_eq_ok, hexact]
      constructor
      · rintro ⟨hdelta, -, hfee⟩ next' hnext'
        obtain rfl := Option.some.inj hnext'
        exact ⟨c, s, hon, hdelta, hfee⟩
      · intro hall
        obtain ⟨c', s', hon', hdelta, hfee⟩ := hall next rfl
        obtain ⟨rfl, rfl⟩ := hon.unique hon'
        exact ⟨hdelta, hexact ▸ hfeeFits.mul, hfee⟩

/-- An overflow in the forward check is critical: the payment ends, with this HTLC added. -/
theorem addHop_overflows (hready : Ready channels req) (hat : loop.At req)
    (hhop : req.route.hops[loop.i]? = some hop) (hstanding : Standing channels req Eq loop.i current)
    (hon : OnRoute channels req loop.i hop c s) (hsane : c.sanityCheck = .ok ())
    (hamt : (req.htlcAt loop.i).amountMsat ≠ 0) (hfresh : req.paymentHash ∉ (c.node s).inFlight)
    (hcheck : (c.node s).checkOutgoingAddition (req.htlcAt loop.i) (c.node s.other).policy = .ok ())
    (hover : FeeOverflows channels req loop.i) :
    (addHop req loop hop current).2
      = (current.insert hop.scid (c.pushHtlc s req.paymentHash (req.htlcAt loop.i)),
        .finished ⟨0, .unknown⟩) := by
  have hfound := hstanding.untouched hready hhop (Nat.le_refl _) hon
  have hpush := hstanding.push hready hhop hon
  cases hover with
  | mk hpassed hhop' hnext hon' hoffer hon'' hdelta hfee =>
    obtain rfl := Option.some.inj (hhop.symm.trans hhop')
    have hforward := checkForward_eq hready hat hhop hpush hnext hon''
    rw [ChannelState.checkHtlcForward_of_overflow hdelta hfee] at hforward
    have hadd := SimulatedChannel.addHtlc_accepts hsane hon.sender hamt hcheck hfresh
    have hhtlc : req.htlcAt loop.i = ⟨loop.outgoingAmount, loop.outgoingCltv⟩ := by
      rw [PropagatePaymentRequest.htlcAt, hat.amount, hat.cltv]
    -- the forward check does not read the failure index
    have hloop : checkForward req { loop with failIdx := some loop.i } hop
        (current.insert hop.scid (c.pushHtlc s req.paymentHash (req.htlcAt loop.i))) = .error _ :=
      hforward
    rw [hhtlc] at hadd hloop ⊢
    rw [← hat.node] at hadd
    simp only [addHop, hfound, hadd, hloop]
    rfl

/-! ## Where the payment stands -/

/-- The payment has come to hop `k`: the hops before are admissible, and none of their fees has
overflowed. -/
structure CameTo (channels : Channels) (req : PropagatePaymentRequest) (k : Nat) : Prop where
  passed : Passed channels req k
  fit : ∀ i < k, ¬ FeeOverflows channels req i

/-- Past an admissible hop whose fee can be told, the payment has come one hop further. -/
theorem CameTo.succ (h : CameTo channels req k) (hhop : req.route.hops[k]? = some hop)
    (hadmissible : HopAdmissible channels req k hop) (hover : ¬ FeeOverflows channels req k) :
    CameTo channels req (k + 1) := by
  refine ⟨fun i other hlt hother => ?_, fun i hlt => ?_⟩
  · rcases Nat.lt_or_ge i k with hlt' | hge
    · exact h.passed i other hlt' hother
    · obtain rfl : i = k := by omega
      obtain rfl := Option.some.inj (hhop.symm.trans hother)
      exact hadmissible
  · rcases Nat.lt_or_ge i k with hlt' | hge
    · exact h.fit i hlt'
    · obtain rfl : i = k := by omega
      exact hover

/-- A payment that has come past its last hop has an admissible route. -/
theorem CameTo.admissible (h : CameTo channels req req.route.hops.length) :
    Admissible channels req :=
  fun i hop hhop => h.passed i hop (List.getElem?_eq_some_iff.mp hhop).1 hhop

/-- A payment that has come to the end has asked for all fees. -/
theorem CameTo.feesFit (h : CameTo channels req req.route.hops.length) : FeesFit channels req := by
  intro i hover
  refine h.fit i ?_ hover
  cases hover with
  | mk hpassed hhop => exact (List.getElem?_eq_some_iff.mp hhop).1

/-- A payment that fails at hop `k` does not come to ask for the fees of later hops. -/
theorem CameTo.feesFit_of_not_admissible (h : CameTo channels req k)
    (hhop : req.route.hops[k]? = some hop) (hnot : ¬ HopAdmissible channels req k hop)
    (hover : ¬ FeeOverflows channels req k) : FeesFit channels req := by
  intro i hover'
  rcases Nat.lt_trichotomy i k with hlt | rfl | hgt
  · exact h.fit i hlt hover'
  · exact hover hover'
  · cases hover' with
    | mk hpassed => exact hnot (hpassed k hop hgt hhop)

/-- What removing does to a channel of the route. A payment that succeeds moves its funds. -/
def Unwinds (success : Bool) (c c' : SimulatedChannel) : Prop := success = false → Restored c c'

/-- Where a payment on its own stands, with the channels that it started with. -/
def LoneAt (channels : Channels) (req : PropagatePaymentRequest) (current : Channels) : Phase → Prop
  | .adding loop => loop.At req ∧
      loop.failIdx = (if loop.i = 0 then none else some (loop.i - 1)) ∧
      Standing channels req Eq loop.i current ∧ CameTo channels req loop.i
  | .intercepting loop _ => loop.At req ∧ loop.failIdx = some loop.i ∧
      Standing channels req Eq (loop.i + 1) current ∧ CameTo channels req (loop.i + 1)
  | .removing loop => loop.i < req.route.hops.length ∧
      Standing channels req (Unwinds loop.success) (loop.i + 1) current ∧
      (loop.success = true ↔ Admissible channels req) ∧ FeesFit channels req
  | .notifying loop _ next => next = 0 ∧ loop.i < req.route.hops.length ∧
      Standing channels req (Unwinds loop.success) loop.i current ∧
      (loop.success = true ↔ Admissible channels req) ∧ FeesFit channels req
  | .finished result => (FeesFit channels req ∧ Settles channels req result current) ∨
      Stranded channels req result current

/-- The number of steps that are left at most, on a path of `n` hops. -/
def Phase.stepsLeft (n : Nat) : Phase → Nat
  | .adding loop => 4 * n - 2 * loop.i
  | .intercepting loop _ => 4 * n - 2 * loop.i - 1
  | .removing loop => 2 * loop.i + 2
  | .notifying loop _ _ => 2 * loop.i + 1
  | .finished _ => 0

/-! ## The end -/

/-- A channel is as it was. -/
theorem Restored.refl (c : SimulatedChannel) : Restored c c :=
  ⟨⟨.refl c, rfl⟩, fun _ => rfl, fun _ _ => rfl⟩

/-- Nothing is left of a payment that has failed. -/
theorem Standing.settles (h : Standing channels req Restored 0 current)
    (hnot : ¬ Admissible channels req) (htlcCount idx : Nat) :
    Settles channels req ⟨htlcCount, .indexFailure idx⟩ current := by
  refine ⟨⟨nofun, fun hadmissible => absurd hadmissible hnot⟩, fun _ => ⟨⟨idx, rfl⟩, fun scid => ?_⟩⟩
  exact h.free scid fun i hop hlt => absurd hlt (Nat.not_lt_zero i)

/-- With all HTLCs removed again the result is what the route deserves. -/
theorem settles_result {loop : RemoveLoop}
    (h : Standing channels req (Unwinds loop.success) 0 current)
    (hsuccess : loop.success = true ↔ Admissible channels req) :
    Settles channels req loop.result current := by
  unfold RemoveLoop.result
  cases hs : loop.success with
  | true =>
    have hadmissible := hsuccess.mp hs
    exact ⟨⟨fun _ => hadmissible, fun _ => rfl⟩, fun hnot => absurd hadmissible hnot⟩
  | false =>
    have hnot : ¬ Admissible channels req := fun hadmissible => by
      rw [hsuccess.mpr hadmissible] at hs
      cases hs
    exact (h.mono fun _ _ hunwinds => hunwinds hs).settles hnot 0 _

/-- All that has been added is still there when removing starts. -/
theorem Standing.startRemoving {success : Bool} (h : Standing channels req Eq (k + 1) current)
    (hlt : k < req.route.hops.length) (hsuccess : success = true ↔ Admissible channels req)
    (hfees : FeesFit channels req) : LoneAt channels req current (startRemoving k success) := by
  refine ⟨hlt, h.mono ?_, hsuccess, hfees⟩
  rintro c _ rfl -
  exact .refl c

/-! ## The steps -/

/-- A hop that its sender cannot send is not admissible, and its fee is never asked for. -/
theorem not_admissible_of_not_offerable (hhop : req.route.hops[i]? = some hop)
    (hon : OnRoute channels req i hop c s) (hnot : ¬ Offerable req i c s) :
    ¬ HopAdmissible channels req i hop ∧ ¬ FeeOverflows channels req i := by
  have hnowhere : ∀ c' s', OnRoute channels req i hop c' s' → ¬ Offerable req i c' s' := by
    intro c' s' hon' hoffer
    obtain ⟨rfl, rfl⟩ := hon.unique hon'
    exact hnot hoffer
  constructor
  · rintro ⟨⟨c', s', hon', hoffer⟩, -⟩
    exact hnowhere c' s' hon' hoffer
  · rintro ⟨-, hhop', -, hon', hoffer, -⟩
    obtain rfl := Option.some.inj (hhop.symm.trans hhop')
    exact hnowhere _ _ hon' hoffer

/-- A hop that can be sent is added. Then it is forwarded or not, or its fee cannot be told. -/
theorem LoneAt.add_offered (hready : Ready channels req) (hfits : NoOverflow channels req)
    (hfinal : req.route.finalValueMsat ≠ 0) (h : LoneAt channels req current (.adding loop))
    (hhop : req.route.hops[loop.i]? = some hop) (hon : OnRoute channels req loop.i hop c s)
    (hsane : c.sanityCheck = .ok ()) (hfresh : req.paymentHash ∉ (c.node s).inFlight)
    (hoffer : Offerable req loop.i c s) :
    LoneAt channels req (addHop req loop hop current).2.1 (addHop req loop hop current).2.2 ∧
      (addHop req loop hop current).2.2.stepsLeft req.route.hops.length
        < (Phase.adding loop).stepsLeft req.route.hops.length := by
  obtain ⟨hat, -, hstanding, hcame⟩ := h
  have hlt := hat.lt
  have hfound := hstanding.untouched hready hhop (Nat.le_refl _) hon
  have hamt := hfits.amount_ne hfinal hlt
  have hcheck := (hfits.offerable_iff hhop hon).mpr hoffer
  have hpush := hstanding.push hready hhop hon
  by_cases hover : FeeOverflows channels req loop.i
  -- the fee cannot be computed: the payment ends here
  · rw [addHop_overflows hready hat hhop hstanding hon hsane hamt hfresh hcheck hover]
    refine ⟨.inr ⟨rfl, _, hover, hpush⟩, ?_⟩
    show 0 < 4 * _ - 2 * loop.i
    omega
  · obtain ⟨res, hres, hforward⟩ := checkForward_iff hready hfits hat hhop hpush
      fun next c' s' hnext hon' hdelta => by
        by_contra hfee
        exact hover (.mk hcame.passed hhop hnext hon hoffer hon' hdelta hfee)
    rw [addHop_added hat hfound hon.sender hsane hamt hfresh hcheck hres]
    cases res with
    | ok u =>
      have hadmissible : HopAdmissible channels req loop.i hop :=
        ⟨⟨c, s, hon, hoffer⟩, hforward.mp rfl⟩
      refine ⟨⟨⟨hat.lt, hat.node, hat.amount, hat.cltv⟩, rfl, hpush,
        hcame.succ hhop hadmissible hover⟩, ?_⟩
      show 4 * _ - 2 * loop.i - 1 < 4 * _ - 2 * loop.i
      omega
    | error fwdErr =>
      have hnot : ¬ HopAdmissible channels req loop.i hop := fun hadmissible => by
        cases hforward.mpr hadmissible.forward
      refine ⟨hpush.startRemoving hlt ⟨nofun, fun hadmissible => ?_⟩
        (hcame.feesFit_of_not_admissible hhop hnot hover), ?_⟩
      · exact absurd (hadmissible _ _ hhop) hnot
      · show 2 * loop.i + 2 < 4 * _ - 2 * loop.i
        omega

/-- A hop that cannot be sent is refused: the payment fails there and removes what it has added. -/
theorem LoneAt.add_refused (hready : Ready channels req) (hfits : NoOverflow channels req)
    (hfinal : req.route.finalValueMsat ≠ 0) (h : LoneAt channels req current (.adding loop))
    (hhop : req.route.hops[loop.i]? = some hop) (hon : OnRoute channels req loop.i hop c s)
    (hsane : c.sanityCheck = .ok ()) (hoffer : ¬ Offerable req loop.i c s) :
    LoneAt channels req (addHop req loop hop current).2.1 (addHop req loop hop current).2.2 ∧
      (addHop req loop hop current).2.2.stepsLeft req.route.hops.length
        < (Phase.adding loop).stepsLeft req.route.hops.length := by
  obtain ⟨hat, hidx, hstanding, hcame⟩ := h
  have hlt := hat.lt
  have hfound := hstanding.untouched hready hhop (Nat.le_refl _) hon
  obtain ⟨hnotHop, hover⟩ := not_admissible_of_not_offerable hhop hon hoffer
  have hnot : ¬ Admissible channels req := fun hadmissible => hnotHop (hadmissible _ _ hhop)
  have hfees := hcame.feesFit_of_not_admissible hhop hnotHop hover
  have hsame := hstanding.same (sameChannels_insert hfound)
  rw [addHop_refused hat hfound hon.sender hsane (hfits.amount_ne hfinal hlt)
    fun hok => hoffer ((hfits.offerable_iff hhop hon).mp hok), hidx]
  by_cases hzero : loop.i = 0
  · rw [if_pos hzero]
    rw [hzero] at hsame
    refine ⟨.inl ⟨hfees, (hsame.mono ?_).settles hnot 0 0⟩, ?_⟩
    · rintro c _ rfl
      exact .refl c
    · show 0 < 4 * _ - 2 * loop.i
      omega
  · rw [if_neg hzero]
    obtain ⟨j, hj⟩ := Nat.exists_eq_succ_of_ne_zero hzero
    rw [hj] at hsame hlt ⊢
    refine ⟨hsame.startRemoving (by omega)
      ⟨nofun, fun hadmissible => absurd hadmissible hnot⟩ hfees, ?_⟩
    show 2 * (j + 1 - 1) + 2 < 4 * _ - 2 * loop.i
    omega

/-- The add loop: the hop is offered and forwarded, or refused, or its fee cannot be told. -/
theorem LoneAt.add (hready : Ready channels req) (hfits : NoOverflow channels req)
    (hfinal : req.route.finalValueMsat ≠ 0) (h : LoneAt channels req current (.adding loop))
    (hhop : req.route.hops[loop.i]? = some hop) :
    LoneAt channels req (addHop req loop hop current).2.1 (addHop req loop hop current).2.2 ∧
      (addHop req loop hop current).2.2.stepsLeft req.route.hops.length
        < (Phase.adding loop).stepsLeft req.route.hops.length := by
  obtain ⟨c, s, hon, hsane, hfresh⟩ := hready.channel _ _ hhop
  by_cases hoffer : Offerable req loop.i c s
  · exact h.add_offered hready hfits hfinal hhop hon hsane hfresh hoffer
  · exact h.add_refused hready hfits hfinal hhop hon hsane hoffer

/-- Without interceptors nobody refuses the HTLC. -/
theorem LoneAt.intercept (hinterceptors : req.interceptors = []) {request : InterceptRequest}
    (h : LoneAt channels req current (.intercepting loop request))
    (hhop : req.route.hops[loop.i]? = some hop) (answers : List (Except String InterceptResult))
    (shutdown : Option Nat) :
    LoneAt channels req current (interceptHop req loop hop request answers shutdown).2 ∧
      (interceptHop req loop hop request answers shutdown).2.stepsLeft req.route.hops.length
        < (Phase.intercepting loop request).stepsLeft req.route.hops.length := by
  obtain ⟨hat, hidx, hstanding, hcame⟩ := h
  have hlt := hat.lt
  simp only [interceptHop, hinterceptors, handleInterceptedHtlc]
  by_cases hmore : loop.i + 1 < req.route.hops.length
  · rw [if_pos hmore]
    refine ⟨⟨hat.next hhop hmore, hidx, hstanding, hcame⟩, ?_⟩
    show 4 * _ - 2 * (loop.i + 1) < 4 * _ - 2 * loop.i - 1
    omega
  · rw [if_neg hmore]
    have hlast : req.route.hops.length = loop.i + 1 := by omega
    have hend : CameTo channels req req.route.hops.length := hlast ▸ hcame
    show LoneAt channels req current (startRemoving (req.route.hops.length - 1) true) ∧
      2 * (req.route.hops.length - 1) + 2 < 4 * _ - 2 * loop.i - 1
    rw [hlast]
    exact ⟨hstanding.startRemoving hlt ⟨fun _ => hend.admissible, fun _ => rfl⟩ hend.feesFit,
      by omega⟩

/-- The HTLC of a hop is found where it was added, and a sane channel stays sane. -/
theorem LoneAt.remove (hready : Ready channels req) {loop : RemoveLoop}
    (h : LoneAt channels req current (.removing loop))
    (hhop : req.route.hops[loop.i]? = some hop) :
    LoneAt channels req (removeHop req loop hop current).2.1 (removeHop req loop hop current).2.2 ∧
      (removeHop req loop hop current).2.2.stepsLeft req.route.hops.length
        < (Phase.removing loop).stepsLeft req.route.hops.length := by
  obtain ⟨hlt, hstanding, hsuccess, hfees⟩ := h
  obtain ⟨c, s, hon, hsane, hfresh⟩ := hready.channel _ _ hhop
  have hfound := hstanding.held loop.i hop c s (by omega) hhop hon
  have hside : (c.pushHtlc s req.paymentHash (req.htlcAt loop.i)).sideOf (req.sender loop.i)
      = some s := ((c.sameTerms_pushHtlc s _ _).sideOf _).trans hon.sender
  have hentry : ((c.pushHtlc s req.paymentHash (req.htlcAt loop.i)).node s).inFlight.lookup
      req.paymentHash = some (req.htlcAt loop.i, (c.node s).index) := by
    rw [SimulatedChannel.node_pushHtlc, AList.lookup_insert]
  have hremove := SimulatedChannel.removeHtlc_of_lookup hside hentry loop.success
  rw [SimulatedChannel.sanityCheck_popHtlc
    (SimulatedChannel.sanityCheck_pushHtlc hsane hfresh _) hentry loop.success] at hremove
  have hunwinds : Unwinds loop.success c ((c.pushHtlc s req.paymentHash (req.htlcAt loop.i)).popHtlc s
      req.paymentHash (req.htlcAt loop.i).amountMsat loop.success) := by
    intro hfailed
    rw [hfailed]
    exact restored_popHtlc req.paymentHash _ hfresh
  simp only [removeHop, hfound, hremove, Except.map]
  refine ⟨⟨rfl, hlt, hstanding.pop hready hhop hon hunwinds, hsuccess, hfees⟩, ?_⟩
  show 2 * loop.i + 1 < 2 * loop.i + 2
  omega

/-- The remove loop goes on to the hop before, or ends. -/
theorem LoneAt.advance {loop : RemoveLoop} {resolution : InterceptResolution} {next : Nat}
    (h : LoneAt channels req current (.notifying loop resolution next)) (hop : RouteHop) :
    LoneAt channels req current (removeNext loop hop).2 ∧
      (removeNext loop hop).2.stepsLeft req.route.hops.length
        < (Phase.notifying loop resolution next).stepsLeft req.route.hops.length := by
  obtain ⟨-, hlt, hstanding, hsuccess, hfees⟩ := h
  unfold removeNext
  cases hi : loop.i with
  | zero =>
    rw [hi] at hstanding
    refine ⟨.inl ⟨hfees, settles_result hstanding hsuccess⟩, ?_⟩
    show 0 < 2 * loop.i + 1
    omega
  | succ j =>
    rw [hi] at hstanding hlt
    have hj : j < req.route.hops.length := by omega
    refine ⟨⟨hj, hstanding, hsuccess, hfees⟩, ?_⟩
    show 2 * j + 2 < 2 * loop.i + 1
    omega

/-- **Each step of a payment on its own** keeps the invariant and is one of finitely many. -/
theorem Step.loneAt {channels' : Channels} {phase phase' : Phase} {es : List Event}
    (hready : Ready channels req) (hfits : NoOverflow channels req)
    (hfinal : req.route.finalValueMsat ≠ 0) (hinterceptors : req.interceptors = [])
    (hs : Step req current phase es channels' phase') (h : LoneAt channels req current phase) :
    LoneAt channels req channels' phase' ∧
      phase'.stepsLeft req.route.hops.length < phase.stepsLeft req.route.hops.length := by
  cases hs with
  | add hhop => exact h.add hready hfits hfinal hhop
  | intercept answers shutdown hhop _ => exact h.intercept hinterceptors hhop answers shutdown
  | remove hhop => exact h.remove hready hhop
  | notify answer hnext =>
    rw [hinterceptors] at hnext
    exact absurd hnext (Nat.not_lt_zero _)
  | advance hhop => exact h.advance _

/-- It can go on until it has finished. -/
theorem LoneAt.exists_step {phase : Phase} (hinterceptors : req.interceptors = [])
    (h : LoneAt channels req current phase) :
    (∃ result, phase = .finished result ∧ LoneAt channels req current (.finished result)) ∨
      ∃ es channels' phase', Step req current phase es channels' phase' := by
  cases phase with
  | finished result => exact .inl ⟨result, rfl, h⟩
  | adding loop =>
    exact .inr ⟨_, _, _, .add (List.getElem?_eq_getElem h.1.lt)⟩
  | intercepting loop request =>
    have hanswers : ([] : List (Except String InterceptResult)).length
        = req.interceptors.length := by
      rw [hinterceptors]
      rfl
    exact .inr ⟨_, _, _, .intercept [] none (List.getElem?_eq_getElem h.1.lt) hanswers⟩
  | removing loop =>
    exact .inr ⟨_, _, _, .remove (List.getElem?_eq_getElem h.1)⟩
  | notifying loop resolution next =>
    obtain ⟨hnext, hlt, -⟩ := h
    have hall : next = req.interceptors.length := by
      rw [hnext, hinterceptors]
      rfl
    rw [hall]
    exact .inr ⟨_, _, _, .advance (List.getElem?_eq_getElem hlt)⟩

/-- A payment on its own starts with nothing in flight. -/
theorem loneAt_start (channels : Channels) (req : PropagatePaymentRequest) :
    LoneAt channels req channels req.start := by
  obtain ⟨hat, -, -, -, hidx⟩ := (control_start req).phase
  exact ⟨hat, hidx, standing_start channels req, fun i hop hlt => absurd hlt (Nat.not_lt_zero i),
    fun i hlt => absurd hlt (Nat.not_lt_zero i)⟩

/-- What a payment on its own comes to. -/
structure LoneOutcome (channels : Channels) (req : PropagatePaymentRequest) (result : PaymentResult)
    (current : Channels) : Prop where
  settles : FeesFit channels req → Settles channels req result current
  strands : ¬ FeesFit channels req → Stranded channels req result current

/-- How a payment on its own has ended. -/
theorem LoneAt.outcome {result : PaymentResult}
    (h : LoneAt channels req current (.finished result)) :
    LoneOutcome channels req result current := by
  rcases h with ⟨hfees, hsettles⟩ | hstranded
  · exact ⟨fun _ => hsettles, fun hnot => absurd hfees hnot⟩
  · have hnot : ¬ FeesFit channels req := by
      obtain ⟨-, i, hover, -⟩ := hstranded
      exact fun hfees => hfees i hover
    exact ⟨fun hfees => absurd hfees hnot, fun _ => hstranded⟩

/-- **A payment on its own succeeds exactly if its route is admissible**, and otherwise it fails at a
hop and leaves every channel with the balances and HTLCs that it had, unless it comes to ask for a fee
that overflows: then it ends with an unknown outcome, and its HTLCs stay in flight. -/
theorem lone_payment_ends (hready : Ready channels req) (hfits : NoOverflow channels req)
    (hfinal : req.route.finalValueMsat ≠ 0) (hinterceptors : req.interceptors = []) :
    (payments fun _ : Unit => req).Inevitably
      (fun w => ∃ result, w.proc () = .finished result ∧ LoneOutcome channels req result w.shared)
      (dispatched (fun _ : Unit => req) channels) := by
  refine System.inevitably_of_measure (I := fun w => LoneAt channels req w.shared (w.proc ()))
    (fun w => (w.proc ()).stepsLeft req.route.hops.length) (fun w hw => ?_) (loneAt_start channels req)
  rcases hw.exists_step hinterceptors with ⟨result, hfinished, hend⟩ | ⟨es, channels', phase', hs⟩
  · exact .inl ⟨result, hfinished, hend.outcome⟩
  · refine .inr ⟨⟨(), es, channels', phase', hs⟩, fun k es s p hs' => ?_⟩
    show LoneAt channels req s (Function.update w.proc () p ()) ∧
      (Function.update w.proc () p ()).stepsLeft _ < _
    rw [Function.update_self]
    exact Step.loneAt hready hfits hfinal hinterceptors hs' hw

/-! ## Two hops -/

/-- What holds of both hops of a route of two holds of its hops. -/
theorem forall_of_two {P : Nat → RouteHop → Prop} {first last : RouteHop}
    (hroute : req.route.hops = [first, last]) (h0 : P 0 first) (h1 : P 1 last) (i : Nat)
    (hop : RouteHop) (hhop : req.route.hops[i]? = some hop) : P i hop := by
  rw [hroute] at hhop
  match i, hhop with
  | 0, hhop =>
    obtain rfl := Option.some.inj hhop
    exact h0
  | 1, hhop =>
    obtain rfl := Option.some.inj hhop
    exact h1

/-- A hop has one place on its route, so that it is enough to say what fits there. -/
theorem NoOverflow.of_onRoute (hamount : req.exactAmount 0 < 2 ^ 64)
    (hcltv : req.exactCltv 0 < 2 ^ 32)
    (hside : ∀ i hop, req.route.hops[i]? = some hop → ∃ c s, OnRoute channels req i hop c s ∧
      (c.node s).localBalanceMsat.toNat + (c.node s).exactInFlight < 2 ^ 64 ∧
      (c.node s).inFlight.size + 1 < 2 ^ 64) : NoOverflow channels req := by
  refine ⟨hamount, hcltv, fun i hop c s hhop hon => ?_⟩
  obtain ⟨c', s', hon', hbalance, hcount⟩ := hside i hop hhop
  obtain ⟨rfl, rfl⟩ := hon'.unique hon
  exact ⟨hbalance, hcount⟩

/-- The two hops of `aliceToCarol`, each sent by the first side of its channel. -/
theorem aliceToCarol_onRoute :
    OnRoute threeNodes (aliceToCarol ⟨1⟩) 0 ⟨bob, 700, 30, 40⟩ aliceBob .one ∧
      OnRoute threeNodes (aliceToCarol ⟨1⟩) 1 ⟨carol, 800, 20000, 18⟩ bobCarol .one :=
  ⟨⟨rfl, rfl, rfl⟩, ⟨rfl, rfl, rfl⟩⟩

theorem aliceToCarol_ready : Ready threeNodes (aliceToCarol ⟨1⟩) := by
  obtain ⟨hon, hon'⟩ := aliceToCarol_onRoute
  exact ⟨by decide, forall_of_two rfl ⟨_, _, hon, by decide, by decide⟩
    ⟨_, _, hon', by decide, by decide⟩⟩

theorem aliceToCarol_noOverflow : NoOverflow threeNodes (aliceToCarol ⟨1⟩) := by
  obtain ⟨hon, hon'⟩ := aliceToCarol_onRoute
  exact .of_onRoute (by decide) (by decide) (forall_of_two rfl ⟨_, _, hon, by decide, by decide⟩
    ⟨_, _, hon', by decide, by decide⟩)

/-- Only the first of the two hops is asked a fee for. -/
theorem aliceToCarol_feesFit : FeesFit threeNodes (aliceToCarol ⟨1⟩) := by
  rintro i ⟨-, -, hnext, -, -, hon, -, hfee⟩
  match i, hnext with
  | 0, hnext =>
    obtain rfl := Option.some.inj hnext
    obtain ⟨rfl, rfl⟩ := aliceToCarol_onRoute.2.unique hon
    exact hfee ⟨by decide, by decide⟩

/-- The payment from Alice to Carol succeeds exactly if its route is admissible: no fee overflows. -/
theorem lone_payment_ends_aliceToCarol :
    (payments fun _ : Unit => aliceToCarol ⟨1⟩).Inevitably
      (fun w => ∃ result, w.proc () = .finished result ∧
        Settles threeNodes (aliceToCarol ⟨1⟩) result w.shared)
      (dispatched (fun _ : Unit => aliceToCarol ⟨1⟩) threeNodes) :=
  (lone_payment_ends aliceToCarol_ready aliceToCarol_noOverflow (by decide) rfl).mono
    fun _ ⟨result, hfinished, houtcome⟩ =>
      ⟨result, hfinished, houtcome.settles aliceToCarol_feesFit⟩

/-- A policy that asks for a fee of more than the sixteenfold amount. -/
def steepPolicy (pubkey : PublicKey) : ChannelPolicy :=
  { samplePolicy pubkey with
    maxInFlightMsat := 2 ^ 46
    maxHtlcSizeMsat := 2 ^ 46
    feeRateProp := 2 ^ 24 }

def steepAliceBob : SimulatedChannel :=
  .new (2 ^ 47) ⟨700⟩ (steepPolicy alice) (steepPolicy bob) false

def steepBobCarol : SimulatedChannel :=
  .new (2 ^ 47) ⟨800⟩ (steepPolicy bob) (steepPolicy carol) false

def steepNodes : Channels := ((∅ : Channels).insert ⟨700⟩ steepAliceBob).insert ⟨800⟩ steepBobCarol

/-- A payment of `2 ^ 40` msat from Alice to Carol, which leaves Bob the fee he asks for. -/
def steepPayment : PropagatePaymentRequest :=
  { aliceToCarol ⟨1⟩ with
    route := ⟨[⟨bob, 700, 18446744073719, 40⟩, ⟨carol, 800, 1099511627776, 18⟩], by simp⟩ }

theorem steepPayment_onRoute :
    OnRoute steepNodes steepPayment 0 ⟨bob, 700, 18446744073719, 40⟩ steepAliceBob .one ∧
      OnRoute steepNodes steepPayment 1 ⟨carol, 800, 1099511627776, 18⟩ steepBobCarol .one :=
  ⟨⟨rfl, rfl, rfl⟩, ⟨rfl, rfl, rfl⟩⟩

theorem steepPayment_ready : Ready steepNodes steepPayment := by
  obtain ⟨hon, hon'⟩ := steepPayment_onRoute
  exact ⟨by decide, forall_of_two rfl ⟨_, _, hon, by decide, by decide⟩
    ⟨_, _, hon', by decide, by decide⟩⟩

theorem steepPayment_noOverflow : NoOverflow steepNodes steepPayment := by
  obtain ⟨hon, hon'⟩ := steepPayment_onRoute
  exact .of_onRoute (by decide) (by decide) (forall_of_two rfl ⟨_, _, hon, by decide, by decide⟩
    ⟨_, _, hon', by decide, by decide⟩)

/-- The route can be paid: the fee fits, and only its product with the rate does not. -/
theorem steepPayment_admissible : Admissible steepNodes steepPayment := by
  obtain ⟨hon, hon'⟩ := steepPayment_onRoute
  refine forall_of_two rfl
    ⟨⟨_, _, hon, by decide, by decide, by decide, by decide, by decide, by decide⟩,
      fun next hnext => ?_⟩
    ⟨⟨_, _, hon', by decide, by decide, by decide, by decide, by decide, by decide⟩,
      fun next hnext => nomatch hnext⟩
  obtain rfl := Option.some.inj hnext
  exact ⟨_, _, hon', by decide, by decide⟩

/-- The route is admissible, but the product from which Bob's fee is computed is `2 ^ 64`: the payment
ends with an unknown outcome, and Alice's HTLC stays in flight. -/
theorem steepPayment_stranded :
    Ready steepNodes steepPayment ∧ NoOverflow steepNodes steepPayment ∧
    steepPayment.route.finalValueMsat ≠ 0 ∧ steepPayment.interceptors = [] ∧
    Admissible steepNodes steepPayment ∧
    ∃ trace w, PaymentRun (fun _ : Unit => steepPayment) steepNodes trace w ∧
      w.proc () = .finished ⟨0, .unknown⟩ ∧ ¬ Settles steepNodes steepPayment ⟨0, .unknown⟩ w.shared ∧
      ∃ c, w.shared.lookup ⟨700⟩ = some c ∧ steepPayment.paymentHash ∈ (c.node .one).inFlight := by
  have hrun : PaymentRun (fun _ : Unit => steepPayment) steepNodes _ _ :=
    PaymentRun.step .refl () (.add rfl)
  refine ⟨steepPayment_ready, steepPayment_noOverflow, by decide, rfl, steepPayment_admissible,
    _, _, hrun, rfl, fun hsettles => ?_, _, rfl, by decide⟩
  exact nomatch hsettles.success.mpr steepPayment_admissible

end SimLn
