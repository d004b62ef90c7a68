import SimLn.Channel

/-!
# SimLn — what a channel operation can do

The source selects a side of a channel by public key in every operation. `Side` names the two
sides, and the operations are restated as one update of the sender's side (`pushHtlc`) and one of
both sides (`popHtlc`), with the guards under which they happen. Everything proved about runs of
payments goes through `addHtlc_cases` and `removeHtlc_cases`, not through the definitions.
-/

namespace SimLn

open Lib

inductive Side where
  | one
  | two
  deriving DecidableEq, Repr

def Side.other : Side → Side
  | .one => .two
  | .two => .one

@[simp] theorem Side.other_other (s : Side) : s.other.other = s := by cases s <;> rfl

@[simp] theorem Side.other_ne (s : Side) : s.other ≠ s := by cases s <;> decide

@[simp] theorem Side.ne_other (s : Side) : s ≠ s.other := by cases s <;> decide

/-- There are two sides. -/
theorem Side.eq_or_eq_other (s t : Side) : t = s ∨ t = s.other := by
  cases s <;> cases t <;> decide

namespace SimulatedChannel

def node (c : SimulatedChannel) : Side → ChannelState
  | .one => c.node1
  | .two => c.node2

def setNode (c : SimulatedChannel) (s : Side) (st : ChannelState) : SimulatedChannel :=
  match s with
  | .one => { c with node1 := st }
  | .two => { c with node2 := st }

/-- The side that `pubkey` selects, the first one if it owns both. -/
def sideOf (c : SimulatedChannel) (pubkey : PublicKey) : Option Side :=
  if pubkey = c.node1.policy.pubkey then some .one
  else if pubkey = c.node2.policy.pubkey then some .two
  else none

@[simp] theorem node_setNode (c : SimulatedChannel) (s : Side) (st : ChannelState) :
    (c.setNode s st).node s = st := by cases s <;> rfl

@[simp] theorem node_setNode_other (c : SimulatedChannel) (s : Side) (st : ChannelState) :
    (c.setNode s st).node s.other = c.node s.other := by cases s <;> rfl

@[simp] theorem node_other_setNode (c : SimulatedChannel) (s : Side) (st : ChannelState) :
    (c.setNode s.other st).node s = c.node s := by cases s <;> rfl

@[simp] theorem capacityMsat_setNode (c : SimulatedChannel) (s : Side) (st : ChannelState) :
    (c.setNode s st).capacityMsat = c.capacityMsat := by cases s <;> rfl

@[simp] theorem shortChannelId_setNode (c : SimulatedChannel) (s : Side) (st : ChannelState) :
    (c.setNode s st).shortChannelId = c.shortChannelId := by cases s <;> rfl

/-- The first node is looked at first, so that it wins if both have one key. -/
theorem sideOf_eq_one {c : SimulatedChannel} {pubkey : PublicKey} :
    c.sideOf pubkey = some .one ↔ pubkey = c.node1.policy.pubkey := by
  unfold sideOf
  by_cases h1 : pubkey = c.node1.policy.pubkey
  · simp [h1]
  · rw [if_neg h1]
    split <;> simp [h1]

/-- The second side is found under a key that the first does not have. -/
theorem sideOf_eq_two {c : SimulatedChannel} {pubkey : PublicKey} :
    c.sideOf pubkey = some .two ↔
      pubkey ≠ c.node1.policy.pubkey ∧ pubkey = c.node2.policy.pubkey := by
  unfold sideOf
  by_cases h1 : pubkey = c.node1.policy.pubkey
  · simp [h1]
  · rw [if_neg h1]
    by_cases h2 : pubkey = c.node2.policy.pubkey
    · rw [if_pos h2]
      exact ⟨fun _ => ⟨h1, h2⟩, fun _ => rfl⟩
    · simp [h2]

/-- A node that the channel does not belong to has no side of it. -/
theorem sideOf_eq_none {c : SimulatedChannel} {pubkey : PublicKey} :
    c.sideOf pubkey = none ↔
      pubkey ≠ c.node1.policy.pubkey ∧ pubkey ≠ c.node2.policy.pubkey := by
  unfold sideOf
  by_cases h1 : pubkey = c.node1.policy.pubkey
  · simp [h1]
  · rw [if_neg h1]
    split <;> simp [*]

/-- Sides depend on the keys in the policies alone. -/
theorem sideOf_congr {c d : SimulatedChannel} (h1 : d.node1.policy = c.node1.policy)
    (h2 : d.node2.policy = c.node2.policy) (pubkey : PublicKey) :
    d.sideOf pubkey = c.sideOf pubkey := by
  simp only [sideOf, h1, h2]

/-- Replacing a side by a state with the same policy does not change which side a key selects. -/
theorem sideOf_setNode {c : SimulatedChannel} {s : Side} {st : ChannelState}
    (h : st.policy = (c.node s).policy) (pubkey : PublicKey) :
    (c.setNode s st).sideOf pubkey = c.sideOf pubkey := by
  cases s with
  | one => exact sideOf_congr (c := c) (d := c.setNode .one st) h rfl pubkey
  | two => exact sideOf_congr (c := c) (d := c.setNode .two st) rfl h pubkey

/-- The state that is returned is that of the node's side. -/
theorem getNode_eq_ok {c : SimulatedChannel} {pubkey : PublicKey} {st : ChannelState} :
    c.getNode pubkey = .ok st ↔ ∃ s, c.sideOf pubkey = some s ∧ st = c.node s := by
  unfold getNode sideOf
  split
  · simp [node, eq_comm]
  · split <;> simp [node, eq_comm]

/-! ## Adding -/

/-- The sender's side `s` after an HTLC has been added to it. -/
def pushHtlc (c : SimulatedChannel) (s : Side) (hash : PaymentHash) (htlc : Htlc) :
    SimulatedChannel :=
  c.setNode s
    { c.node s with
      index := (c.node s).index + 1
      localBalanceMsat := (c.node s).localBalanceMsat - htlc.amountMsat
      inFlight := (c.node s).inFlight.insert hash (htlc, (c.node s).index) }

/-- Every check that an HTLC has passed when `addHtlc` accepts it on side `s`. -/
structure Accepts (c : SimulatedChannel) (s : Side) (hash : PaymentHash) (htlc : Htlc) :
    Prop where
  nonzero : htlc.amountMsat ≠ 0
  sane : c.sanityCheck = .ok ()
  le_max : htlc.amountMsat ≤ (c.node s).policy.maxHtlcSizeMsat
  min_le : (c.node s).policy.minHtlcSizeMsat ≤ htlc.amountMsat
  count : UInt64.ofNat (c.node s).inFlight.size + 1 ≤ (c.node s.other).policy.maxHtlcCount
  total : (c.node s).inFlightTotal + htlc.amountMsat ≤ (c.node s.other).policy.maxInFlightMsat
  balance : htlc.amountMsat ≤ (c.node s).localBalanceMsat
  expiry : htlc.cltvExpiry ≤ 500000000
  fresh : hash ∉ (c.node s).inFlight

/-- An HTLC passes if no limit is exceeded, neither of its sender nor of its receiver. -/
theorem checkOutgoingAddition_eq_ok {st : ChannelState} {htlc : Htlc}
    {policy : ChannelPolicy} : st.checkOutgoingAddition htlc policy = .ok () ↔
      htlc.amountMsat ≤ st.policy.maxHtlcSizeMsat ∧ st.policy.minHtlcSizeMsat ≤ htlc.amountMsat ∧
      UInt64.ofNat st.inFlight.size + 1 ≤ policy.maxHtlcCount ∧
      st.inFlightTotal + htlc.amountMsat ≤ policy.maxInFlightMsat ∧
      htlc.amountMsat ≤ st.localBalanceMsat ∧ htlc.cltvExpiry ≤ 500000000 := by
  simp only [ChannelState.checkOutgoingAddition, gt_iff_lt]
  repeat' split
  all_goals simp_all [UInt64.not_lt, UInt32.not_lt]

/-- Adding an HTLC fails, or is refused, or succeeds; in the first two cases nothing changes. -/
theorem addOutgoingHtlc_eq (c : SimulatedChannel) (s : Side) (hash : PaymentHash) (htlc : Htlc) :
    (∃ err, (c.node s).addOutgoingHtlc hash htlc (c.node s.other).policy
      = (.error err, c.node s) ∧ ∀ b cap, err ≠ .sanityCheckFailed b cap) ∨
    (∃ fwdErr, (c.node s).addOutgoingHtlc hash htlc (c.node s.other).policy
      = (.ok (.error fwdErr), c.node s)) ∨
    ((c.node s).addOutgoingHtlc hash htlc (c.node s.other).policy
        = (.ok (.ok (c.node s).index), (c.pushHtlc s hash htlc).node s) ∧
      (c.node s).checkOutgoingAddition htlc (c.node s.other).policy = .ok () ∧
      hash ∉ (c.node s).inFlight) := by
  unfold ChannelState.addOutgoingHtlc
  cases hcheck : (c.node s).checkOutgoingAddition htlc (c.node s.other).policy with
  | error fwdErr => exact Or.inr (Or.inl ⟨fwdErr, rfl⟩)
  | ok u =>
    by_cases hmem : hash ∈ (c.node s).inFlight
    · exact Or.inl ⟨.paymentHashExists hash, by simp [hmem], by simp⟩
    · exact Or.inr (Or.inr ⟨by simp [hmem, pushHtlc], rfl, hmem⟩)

/-- On side `s`, adding is the sender's own addition once the amount and the sanity check pass. -/
theorem addHtlc_of_sideOf {c : SimulatedChannel} {sender : PublicKey} {s : Side}
    (hs : c.sideOf sender = some s) (hash : PaymentHash) {htlc : Htlc}
    (hamt : htlc.amountMsat ≠ 0) (hsane : c.sanityCheck = .ok ()) :
    c.addHtlc sender hash htlc =
      (((c.node s).addOutgoingHtlc hash htlc (c.node s.other).policy).1,
        c.setNode s ((c.node s).addOutgoingHtlc hash htlc (c.node s.other).policy).2) := by
  unfold addHtlc
  rw [if_neg hamt, hsane]
  cases s with
  | one =>
    obtain rfl := sideOf_eq_one.mp hs
    simp only [if_true]
    rfl
  | two =>
    obtain ⟨hne, rfl⟩ := sideOf_eq_two.mp hs
    simp only [if_neg hne, if_true]
    rfl

@[simp] theorem setNode_node (c : SimulatedChannel) (s : Side) : c.setNode s (c.node s) = c := by
  cases s <;> rfl

/-- **What `addHtlc` can do.** It refuses with a critical or a forwarding error and leaves the
channel as it was, or every check has passed and the HTLC goes to the sender's side under its
index. -/
theorem addHtlc_cases (c : SimulatedChannel) (sender : PublicKey) (hash : PaymentHash)
    (htlc : Htlc) :
    (∃ err, c.addHtlc sender hash htlc = (.error err, c) ∧
      ∀ b cap, err = .sanityCheckFailed b cap → c.sanityCheck = .error err) ∨
    (∃ fwdErr, c.addHtlc sender hash htlc = (.ok (.error fwdErr), c)) ∨
    (∃ s, c.sideOf sender = some s ∧ c.Accepts s hash htlc ∧
      c.addHtlc sender hash htlc = (.ok (.ok (c.node s).index), c.pushHtlc s hash htlc)) := by
  by_cases hamt : htlc.amountMsat = 0
  · exact Or.inl ⟨.zeroAmountHtlc, by simp [addHtlc, hamt], by simp⟩
  cases hsane : c.sanityCheck with
  | error err => exact Or.inl ⟨err, by simp [addHtlc, hamt, hsane], fun _ _ _ => rfl⟩
  | ok u =>
    cases hs : c.sideOf sender with
    | none =>
      obtain ⟨h1, h2⟩ := sideOf_eq_none.mp hs
      exact Or.inl ⟨.nodeNotFound sender, by simp [addHtlc, hamt, hsane, h1, h2], by simp⟩
    | some s =>
      rw [addHtlc_of_sideOf hs hash hamt hsane]
      rcases addOutgoingHtlc_eq c s hash htlc with ⟨err, heq, hne⟩ | ⟨fwdErr, heq⟩ |
          ⟨heq, hcheck, hfresh⟩
      · exact Or.inl ⟨err, by simp [heq], fun b cap h => absurd h (hne b cap)⟩
      · exact Or.inr (Or.inl ⟨fwdErr, by simp [heq]⟩)
      · obtain ⟨h1, h2, h3, h4, h5, h6⟩ := checkOutgoingAddition_eq_ok.mp hcheck
        refine Or.inr (Or.inr ⟨s, rfl, ⟨hamt, hsane, h1, h2, h3, h4, h5, h6, hfresh⟩, ?_⟩)
        rw [heq]
        cases s <;> rfl

/-! ## Removing -/

/-- Both sides after the HTLC under `hash` on side `s` has been removed and settled. -/
def popHtlc (c : SimulatedChannel) (s : Side) (hash : PaymentHash) (amt : UInt64)
    (success : Bool) : SimulatedChannel :=
  (c.setNode s
    (({ c.node s with inFlight := (c.node s).inFlight.erase hash } : ChannelState)
      |>.settleOutgoingHtlc amt success)).setNode s.other
    ((c.node s.other).settleIncomingHtlc amt success)

/-- Removing an HTLC is an operation of the sender's side. -/
theorem removeOutgoing_of_sideOf {c : SimulatedChannel} {sender : PublicKey} {s : Side}
    (hs : c.sideOf sender = some s) (hash : PaymentHash) :
    c.removeOutgoing sender hash =
      (((c.node s).removeOutgoingHtlc hash).1,
        c.setNode s ((c.node s).removeOutgoingHtlc hash).2) := by
  unfold removeOutgoing
  cases s with
  | one =>
    obtain rfl := sideOf_eq_one.mp hs
    simp only [if_true]
    rfl
  | two =>
    obtain ⟨hne, rfl⟩ := sideOf_eq_two.mp hs
    simp only [if_neg hne, if_true]
    rfl

/-- Settling an HTLC is an operation of both sides. -/
theorem settleHtlc_of_sideOf {c : SimulatedChannel} {sender : PublicKey} {s : Side}
    (hs : c.sideOf sender = some s) (amt : UInt64) (success : Bool) :
    c.settleHtlc sender amt success =
      (.ok (), (c.setNode s ((c.node s).settleOutgoingHtlc amt success)).setNode s.other
        ((c.node s.other).settleIncomingHtlc amt success)) := by
  unfold settleHtlc
  cases s with
  | one =>
    obtain rfl := sideOf_eq_one.mp hs
    simp only [if_true]
    rfl
  | two =>
    obtain ⟨hne, rfl⟩ := sideOf_eq_two.mp hs
    simp only [if_neg hne, if_true]
    rfl

/-- Removing the HTLC found under a hash pops it, and only the sanity check comes after. -/
theorem removeHtlc_of_lookup {c : SimulatedChannel} {sender : PublicKey} {hash : PaymentHash}
    {s : Side} {e : Htlc × UInt64} (hs : c.sideOf sender = some s)
    (hl : (c.node s).inFlight.lookup hash = some e) (success : Bool) :
    c.removeHtlc sender hash success =
      ((c.popHtlc s hash e.1.amountMsat success).sanityCheck.map fun _ => e,
        c.popHtlc s hash e.1.amountMsat success) := by
  have hrem : (c.node s).removeOutgoingHtlc hash
      = (.ok e, { c.node s with inFlight := (c.node s).inFlight.erase hash }) := by
    simp [ChannelState.removeOutgoingHtlc, hl]
  have hs' : (c.setNode s { c.node s with inFlight := (c.node s).inFlight.erase hash }).sideOf
      sender = some s := (sideOf_setNode (by rfl) sender).trans hs
  have hpop : ((c.setNode s { c.node s with inFlight := (c.node s).inFlight.erase hash }).setNode s
      (({ c.node s with inFlight := (c.node s).inFlight.erase hash } : ChannelState)
        |>.settleOutgoingHtlc e.1.amountMsat success)).setNode s.other
      ((c.node s.other).settleIncomingHtlc e.1.amountMsat success)
      = c.popHtlc s hash e.1.amountMsat success := by cases s <;> rfl
  unfold removeHtlc
  rw [removeOutgoing_of_sideOf hs, hrem]
  simp only [settleHtlc_of_sideOf hs', node_setNode, node_setNode_other, hpop]
  cases (c.popHtlc s hash e.1.amountMsat success).sanityCheck <;> rfl

/-- **What `removeHtlc` can do.** It fails before touching the channel, or it removes the HTLC
found under the hash and settles it, after which only the sanity check can still fail. -/
theorem removeHtlc_cases (c : SimulatedChannel) (sender : PublicKey) (hash : PaymentHash)
    (success : Bool) :
    (∃ err, c.removeHtlc sender hash success = (.error err, c) ∧
      (∀ b cap, err ≠ .sanityCheckFailed b cap) ∧
      ∀ s, c.sideOf sender = some s → (c.node s).inFlight.lookup hash = none) ∨
    (∃ s e, c.sideOf sender = some s ∧ (c.node s).inFlight.lookup hash = some e ∧
      c.removeHtlc sender hash success =
        ((c.popHtlc s hash e.1.amountMsat success).sanityCheck.map fun _ => e,
          c.popHtlc s hash e.1.amountMsat success)) := by
  cases hs : c.sideOf sender with
  | none =>
    obtain ⟨h1, h2⟩ := sideOf_eq_none.mp hs
    exact Or.inl ⟨.nodeNotFound sender, by simp [removeHtlc, removeOutgoing, h1, h2], by simp, by simp⟩
  | some s =>
    cases hl : (c.node s).inFlight.lookup hash with
    | none =>
      refine Or.inl ⟨.paymentHashNotFound hash, ?_, by simp, by simpa using hl⟩
      unfold removeHtlc
      simp [removeOutgoing_of_sideOf hs, ChannelState.removeOutgoingHtlc, hl]
    | some e => exact Or.inr ⟨s, e, rfl, hl, removeHtlc_of_lookup hs hl success⟩

/-- A forward is checked against the policy of the node's own side. -/
theorem checkHtlcForward_eq {c : SimulatedChannel} {pubkey : PublicKey} {s : Side}
    (hs : c.sideOf pubkey = some s) (delta : UInt32) (amt fee : UInt64) :
    c.checkHtlcForward pubkey delta amt fee = (c.node s).checkHtlcForward delta amt fee := by
  rw [checkHtlcForward, getNode_eq_ok.mpr ⟨s, hs, rfl⟩]

end SimulatedChannel

/-- **When a forward passes.** The fee is compared exactly, which fails if the proportional part
does not fit in `u64` before it is divided. -/
theorem ChannelState.checkHtlcForward_eq_ok {st : ChannelState} {delta : UInt32}
    {amt fee : UInt64} :
    st.checkHtlcForward delta amt fee = .ok (.ok ()) ↔
      st.policy.cltvExpiryDelta.toNat ≤ delta.toNat ∧
      amt.toNat * st.policy.feeRateProp.toNat < 2 ^ 64 ∧
      st.policy.baseFee.toNat + amt.toNat * st.policy.feeRateProp.toNat / 1000000 ≤ fee.toNat := by
  have hmillion : (1000000 : UInt64).toNat = 1000000 := rfl
  have hlt := fee.toNat_lt
  unfold checkHtlcForward
  by_cases hdelta : delta < st.policy.cltvExpiryDelta
  · have := UInt32.lt_iff_toNat_lt.mp hdelta
    simp only [if_pos hdelta]
    constructor
    · intro h
      cases h
    · rintro ⟨hle, -⟩
      omega
  · have hle := UInt32.le_iff_toNat_le.mp (UInt32.not_lt.mp hdelta)
    rw [if_neg hdelta]
    cases hmul : checkedMul amt st.policy.feeRateProp with
    | none =>
      constructor
      · intro h
        cases h
      · rintro ⟨-, hfits, -⟩
        exact absurd hfits (checkedMul_eq_none.mp hmul)
    | some propFee =>
      have hprop := toNat_of_checkedMul hmul
      have hfits : amt.toNat * st.policy.feeRateProp.toNat < 2 ^ 64 := hprop ▸ propFee.toNat_lt
      have hdiv : (propFee / 1000000).toNat = amt.toNat * st.policy.feeRateProp.toNat / 1000000 := by
        rw [UInt64.toNat_div, hmillion, hprop]
      simp only [Option.bind_some]
      cases hadd : checkedAdd (propFee / 1000000) st.policy.baseFee with
      | none =>
        -- the sum alone overflows, so no fee covers it
        have hsum := checkedAdd_eq_none.mp hadd
        constructor
        · intro h
          cases h
        · rintro ⟨-, -, hfee⟩
          omega
      | some expectedFee =>
        have hexpected := toNat_of_checkedAdd hadd
        by_cases hfee : fee < expectedFee
        · have := UInt64.lt_iff_toNat_lt.mp hfee
          simp only [if_pos hfee]
          constructor
          · intro h
            cases h
          · rintro ⟨-, -, hcovers⟩
            omega
        · have := UInt64.le_iff_toNat_le.mp (UInt64.not_lt.mp hfee)
          simp only [if_neg hfee, true_iff]
          exact ⟨hle, hfits, by omega⟩

/-- The fee that `policy` asks for an HTLC of `amount` fits in `u64`, as does the product that it is
computed from. -/
structure FeeFits (policy : ChannelPolicy) (amount : UInt64) : Prop where
  mul : amount.toNat * policy.feeRateProp.toNat < 2 ^ 64
  add : policy.baseFee.toNat + amount.toNat * policy.feeRateProp.toNat / 1000000 < 2 ^ 64

/-- The expected fee is computed exactly if it fits. -/
theorem FeeFits.expected_iff {policy : ChannelPolicy} {amt : UInt64} :
    FeeFits policy amt ↔ ((checkedMul amt policy.feeRateProp).bind
      fun propFee => checkedAdd (propFee / 1000000) policy.baseFee) ≠ none := by
  have hmillion : (1000000 : UInt64).toNat = 1000000 := rfl
  cases hprop : checkedMul amt policy.feeRateProp with
  | none =>
    have hover := checkedMul_eq_none.mp hprop
    simp only [Option.bind_none, ne_eq, not_true_eq_false, iff_false]
    exact fun h => hover h.mul
  | some propFee =>
    have hexact := toNat_of_checkedMul hprop
    have hmul : amt.toNat * policy.feeRateProp.toNat < 2 ^ 64 := hexact ▸ propFee.toNat_lt
    rw [Option.bind_some, ne_eq, checkedAdd_eq_none, UInt64.toNat_div, hmillion, hexact, not_not,
      Nat.add_comm]
    exact ⟨fun h => h.add, fun hadd => ⟨hmul, hadd⟩⟩

/-- A forward is allowed or refused if the fee that it takes fits in `u64`. -/
theorem ChannelState.checkHtlcForward_of_fits {st : ChannelState} {amt : UInt64}
    (hfits : FeeFits st.policy amt) (delta : UInt32) (fee : UInt64) :
    ∃ res, st.checkHtlcForward delta amt fee = .ok res := by
  obtain ⟨expectedFee, hexpected⟩ :=
    Option.ne_none_iff_exists'.mp (FeeFits.expected_iff.mp hfits)
  unfold checkHtlcForward
  by_cases hdelta : delta < st.policy.cltvExpiryDelta
  · rw [if_pos hdelta]
    exact ⟨_, rfl⟩
  · simp only [if_neg hdelta, hexpected]
    split
    · exact ⟨_, rfl⟩
    · exact ⟨_, rfl⟩

/-- A forward that brings the delta fails critically if the fee that it takes does not fit. -/
theorem ChannelState.checkHtlcForward_of_overflow {st : ChannelState} {delta : UInt32} {amt : UInt64}
    (hdelta : st.policy.cltvExpiryDelta.toNat ≤ delta.toNat) (hover : ¬ FeeFits st.policy amt)
    (fee : UInt64) : st.checkHtlcForward delta amt fee
      = .error (.feeOverflow amt st.policy.baseFee st.policy.feeRateProp) := by
  have hexpected := not_ne_iff.mp (mt FeeFits.expected_iff.mpr hover)
  unfold checkHtlcForward
  rw [if_neg (UInt32.not_lt.mpr (UInt32.le_iff_toNat_le.mpr hdelta)), hexpected]

/-- A forward that does not bring the delta is refused before its fee is looked at. -/
theorem ChannelState.checkHtlcForward_of_delta_lt {st : ChannelState} {delta : UInt32}
    (hdelta : delta.toNat < st.policy.cltvExpiryDelta.toNat) (amt fee : UInt64) :
    st.checkHtlcForward delta amt fee
      = .ok (.error (.insufficientCltvDelta delta st.policy.cltvExpiryDelta)) :=
  if_pos (UInt32.lt_iff_toNat_lt.mpr hdelta)

end SimLn
