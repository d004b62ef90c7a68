import SimLn.Graph
import Mathlib.Logic.Relation

/-!
# SimLn — calls of a channel's operations

`Call` is one call of `add_htlc` or `remove_htlc`, with any arguments and any outcome.

* Operations are atomic (`operations_atomic`): those that fail change nothing, those that succeed
  change what they are about, and an HTLC that is removed later is settled with the amount that it was
  added with, whatever happened to other HTLCs in between.
* Wrap-around decides nothing (`wrapping_harmless`): in every state that calls lead to, the sums of
  the code are the exact ones, and an HTLC is accepted exactly if it is with unbounded integers. The
  sum of the HTLCs in flight and a new one can wrap around. The balance check refuses that HTLC.
-/

namespace SimLn

open Lib

namespace SimulatedChannel

variable {c c' : SimulatedChannel} {s : Side} {sender : PublicKey} {hash : PaymentHash} {htlc : Htlc}
  {success : Bool}

/-! ## Atomicity -/

/-- Removing an HTLC keeps a sane channel sane. -/
theorem sanityCheck_popHtlc (hsane : c.sanityCheck = .ok ()) {e : Htlc × UInt64}
    (hl : (c.node s).inFlight.lookup hash = some e) (success : Bool) :
    (c.popHtlc s hash e.1.amountMsat success).sanityCheck = .ok () := by
  rw [sanityCheck_eq_ok] at hsane ⊢
  rw [balance_popHtlc hl, hsane, (sameTerms_popHtlc c s hash _ success).capacityMsat]

/-- Adding an HTLC keeps a sane channel sane. -/
theorem sanityCheck_pushHtlc (hsane : c.sanityCheck = .ok ())
    (hfresh : hash ∉ (c.node s).inFlight) (htlc : Htlc) :
    (c.pushHtlc s hash htlc).sanityCheck = .ok () := by
  rw [sanityCheck_eq_ok] at hsane ⊢
  rw [balance_pushHtlc htlc hfresh, hsane, (sameTerms_pushHtlc c s hash htlc).capacityMsat]

/-- On a channel that passes its sanity check a removal finds no HTLC, or it succeeds. -/
theorem removeHtlc_sane (hsane : c.sanityCheck = .ok ()) (sender : PublicKey) (hash : PaymentHash)
    (success : Bool) :
    (∃ err, c.removeHtlc sender hash success = (.error err, c)) ∨
    (∃ s e, c.sideOf sender = some s ∧ (c.node s).inFlight.lookup hash = some e ∧
      c.removeHtlc sender hash success = (.ok e, c.popHtlc s hash e.1.amountMsat success)) := by
  rcases c.removeHtlc_cases sender hash success with ⟨err, heq, -⟩ | ⟨s, e, hs, hl, heq⟩
  · exact .inl ⟨err, heq⟩
  · rw [sanityCheck_popHtlc hsane hl] at heq
    exact .inr ⟨s, e, hs, hl, heq⟩

/-- An HTLC that is added has passed every check. -/
theorem addHtlc_ok {index : UInt64} (h : c.addHtlc sender hash htlc = (.ok (.ok index), c')) :
    ∃ s, c.sideOf sender = some s ∧ c.Accepts s hash htlc ∧ index = (c.node s).index ∧
      c' = c.pushHtlc s hash htlc := by
  rcases c.addHtlc_cases sender hash htlc with ⟨err, heq, -⟩ | ⟨fwdErr, heq⟩ | ⟨s, hs, hacc, heq⟩
  · rw [heq] at h
    cases h
  · rw [heq] at h
    cases h
  · rw [heq] at h
    obtain ⟨hok, rfl⟩ := Prod.mk.inj h
    exact ⟨s, hs, hacc, (Except.ok.inj (Except.ok.inj hok)).symm, rfl⟩

/-- Adding no HTLC changes nothing. -/
theorem eq_of_addHtlc {res : Except CriticalError (Except ForwardingError UInt64)}
    (h : c.addHtlc sender hash htlc = (res, c')) (hres : ∀ index, res ≠ .ok (.ok index)) :
    c' = c := by
  rcases c.addHtlc_cases sender hash htlc with ⟨err, heq, -⟩ | ⟨fwdErr, heq⟩ | ⟨s, -, -, heq⟩
  · rw [heq] at h
    exact (Prod.mk.inj h).2.symm
  · rw [heq] at h
    exact (Prod.mk.inj h).2.symm
  · rw [heq] at h
    exact absurd (Prod.mk.inj h).1.symm (hres _)

/-- An HTLC that is removed was there, and only its settlement has changed the channel. -/
theorem removeHtlc_ok {e : Htlc × UInt64} (hsane : c.sanityCheck = .ok ())
    (h : c.removeHtlc sender hash success = (.ok e, c')) :
    ∃ s, c.sideOf sender = some s ∧ (c.node s).inFlight.lookup hash = some e ∧
      c' = c.popHtlc s hash e.1.amountMsat success := by
  rcases removeHtlc_sane hsane sender hash success with ⟨err, heq⟩ | ⟨s, e', hs, hl, heq⟩
  · rw [heq] at h
    cases h
  · rw [heq] at h
    obtain ⟨hok, rfl⟩ := Prod.mk.inj h
    obtain rfl := Except.ok.inj hok
    exact ⟨s, hs, hl, rfl⟩

/-- Everything but the sides' balances, HTLCs and indices is the same. -/
structure SameFrame (c c' : SimulatedChannel) : Prop where
  terms : c.SameTerms c'
  excludeCapacity : c'.excludeCapacity = c.excludeCapacity

/-- The HTLC has been added to side `s` under `index`: its amount has left the balance of that side,
and nothing else has changed. -/
structure Added (c : SimulatedChannel) (s : Side) (hash : PaymentHash) (htlc : Htlc) (index : UInt64)
    (c' : SimulatedChannel) : Prop where
  frame : c.SameFrame c'
  other : c'.node s.other = c.node s.other
  atIndex : index = (c.node s).index
  next : (c'.node s).index = (c.node s).index + 1
  fresh : (c.node s).inFlight.lookup hash = none
  entry : (c'.node s).inFlight.lookup hash = some (htlc, index)
  others : ∀ k, k ≠ hash → (c'.node s).inFlight.lookup k = (c.node s).inFlight.lookup k
  balance : (c'.node s).localBalanceMsat.toNat + htlc.amountMsat.toNat
    = (c.node s).localBalanceMsat.toNat

/-- The side that the amount of a resolved HTLC goes to. -/
def payee (s : Side) (success : Bool) : Side := if success then s.other else s

/-- The HTLC of side `s` has been removed and `amt` credited, to the counterparty on success and else
to the sender. The credit is in `u64`; it is exact unless the channel's funds exceed `u64`. -/
structure Settled (c : SimulatedChannel) (s : Side) (hash : PaymentHash) (amt : UInt64)
    (success : Bool) (c' : SimulatedChannel) : Prop where
  frame : c.SameFrame c'
  indices : ∀ t, (c'.node t).index = (c.node t).index
  otherHtlcs : (c'.node s.other).inFlight = (c.node s.other).inFlight
  gone : (c'.node s).inFlight.lookup hash = none
  others : ∀ k, k ≠ hash → (c'.node s).inFlight.lookup k = (c.node s).inFlight.lookup k
  credited : (c'.node (payee s success)).localBalanceMsat
    = (c.node (payee s success)).localBalanceMsat + amt
  exact : c.exactBalance < 2 ^ 64 → (c'.node (payee s success)).localBalanceMsat.toNat
    = (c.node (payee s success)).localBalanceMsat.toNat + amt.toNat
  kept : (c'.node (payee s success).other).localBalanceMsat
    = (c.node (payee s success).other).localBalanceMsat

@[simp] theorem excludeCapacity_setNode (c : SimulatedChannel) (s : Side) (st : ChannelState) :
    (c.setNode s st).excludeCapacity = c.excludeCapacity := by cases s <;> rfl

/-- An HTLC that is accepted is added, and nothing else changes. -/
theorem added_pushHtlc (hacc : c.Accepts s hash htlc) :
    Added c s hash htlc (c.node s).index (c.pushHtlc s hash htlc) := by
  refine ⟨⟨sameTerms_pushHtlc c s hash htlc, by simp [pushHtlc]⟩, node_other_pushHtlc .., rfl, ?_, ?_,
    ?_, fun k hk => ?_, ?_⟩
  · rw [node_pushHtlc]
  · exact AList.lookup_eq_none.mpr hacc.fresh
  · rw [node_pushHtlc, AList.lookup_insert]
  · rw [node_pushHtlc, AList.lookup_insert_ne hk]
  · have hle := UInt64.le_iff_toNat_le.mp hacc.balance
    rw [node_pushHtlc, UInt64.toNat_sub_of_le _ _ hacc.balance]
    omega

/-- An HTLC in flight is part of the channel's funds. -/
theorem amount_le_exactBalance {e : Htlc × UInt64} (hl : (c.node s).inFlight.lookup hash = some e)
    (t : Side) :
    (c.node t).localBalanceMsat.toNat + e.1.amountMsat.toNat ≤ c.exactBalance := by
  have hflight := exactInFlight_erase hl
  rw [exactBalance_eq c s]
  rcases s.eq_or_eq_other t with rfl | rfl <;> omega

/-- An HTLC that is removed is settled, and nothing else changes. -/
theorem settled_popHtlc {e : Htlc × UInt64} (hl : (c.node s).inFlight.lookup hash = some e)
    (success : Bool) :
    Settled c s hash e.1.amountMsat success (c.popHtlc s hash e.1.amountMsat success) := by
  have hcredited : ((c.popHtlc s hash e.1.amountMsat success).node (payee s success)).localBalanceMsat
      = (c.node (payee s success)).localBalanceMsat + e.1.amountMsat := by
    cases success <;> simp [payee]
  refine ⟨⟨sameTerms_popHtlc c s hash _ success, by simp [popHtlc]⟩, fun t => ?_, ?_, ?_,
    fun k hk => ?_, hcredited, fun hfit => ?_, ?_⟩
  · rcases s.eq_or_eq_other t with rfl | rfl <;> simp
  · rw [node_other_popHtlc]
  · rw [node_popHtlc, AList.lookup_erase]
  · rw [node_popHtlc, AList.lookup_erase_ne hk]
  · have hle := amount_le_exactBalance hl (payee s success)
    rw [hcredited, UInt64.toNat_add, Nat.mod_eq_of_lt (by omega)]
  · cases success <;> simp [payee]

/-- A call on another hash that succeeds. -/
inductive OtherCall (hash : PaymentHash) (c : SimulatedChannel) : SimulatedChannel → Prop where
  | add {sender : PublicKey} {other : PaymentHash} {htlc : Htlc} {index : UInt64}
      {c' : SimulatedChannel} (hother : other ≠ hash)
      (h : c.addHtlc sender other htlc = (.ok (.ok index), c')) : OtherCall hash c c'
  | remove {sender : PublicKey} {other : PaymentHash} {success : Bool} {e : Htlc × UInt64}
      {c' : SimulatedChannel} (hother : other ≠ hash)
      (h : c.removeHtlc sender other success = (.ok e, c')) : OtherCall hash c c'

/-- What calls on other hashes leave as it was. -/
structure Untouched (hash : PaymentHash) (c c' : SimulatedChannel) : Prop where
  terms : c.SameTerms c'
  sane : c'.sanityCheck = .ok ()
  entry : ∀ s, (c'.node s).inFlight.lookup hash = (c.node s).inFlight.lookup hash

/-- A call with another hash leaves the entry of this one alone. -/
theorem OtherCall.untouched (hsane : c.sanityCheck = .ok ()) (h : OtherCall hash c c') :
    Untouched hash c c' := by
  cases h with
  | @add sender other htlc index _ hother h =>
    obtain ⟨s, -, hacc, -, rfl⟩ := addHtlc_ok h
    refine ⟨sameTerms_pushHtlc .., sanityCheck_pushHtlc hsane hacc.fresh htlc, fun t => ?_⟩
    rcases s.eq_or_eq_other t with rfl | rfl
    · rw [node_pushHtlc, AList.lookup_insert_ne hother.symm]
    · rw [node_other_pushHtlc]
  | @remove sender other success e _ hother h =>
    obtain ⟨s, -, hl, rfl⟩ := removeHtlc_ok hsane h
    refine ⟨sameTerms_popHtlc .., sanityCheck_popHtlc hsane hl success, fun t => ?_⟩
    rcases s.eq_or_eq_other t with rfl | rfl
    · rw [node_popHtlc, AList.lookup_erase_ne hother.symm]
    · rw [node_other_popHtlc]

/-- Induction on the calls. -/
theorem untouched_of_otherCalls (hsane : c.sanityCheck = .ok ())
    (h : Relation.ReflTransGen (OtherCall hash) c c') : Untouched hash c c' := by
  induction h with
  | refl => exact ⟨.refl c, hsane, fun _ => rfl⟩
  | tail _ hcall ih =>
    have hlast := hcall.untouched ih.sane
    exact ⟨ih.terms.trans hlast.terms, hlast.sane, fun s => (hlast.entry s).trans (ih.entry s)⟩

/-- What a call can do to a channel that passes its sanity check. -/
structure Atomic (c : SimulatedChannel) (sender : PublicKey) (hash : PaymentHash) (htlc : Htlc)
    (success : Bool) : Prop where
  addFailed : ∀ err c', c.addHtlc sender hash htlc = (.error err, c') → c' = c
  addRefused : ∀ fwdErr c', c.addHtlc sender hash htlc = (.ok (.error fwdErr), c') → c' = c
  removeFailed : ∀ err c', c.removeHtlc sender hash success = (.error err, c') → c' = c
  added : ∀ index c', c.addHtlc sender hash htlc = (.ok (.ok index), c') →
    ∃ s, c.sideOf sender = some s ∧ Added c s hash htlc index c'
  removed : ∀ e c', c.removeHtlc sender hash success = (.ok e, c') →
    ∃ s, c.sideOf sender = some s ∧ (c.node s).inFlight.lookup hash = some e ∧
      Settled c s hash e.1.amountMsat success c'
  addedThenRemoved : ∀ index c₁ c₂, c.addHtlc sender hash htlc = (.ok (.ok index), c₁) →
    Relation.ReflTransGen (OtherCall hash) c₁ c₂ →
    ∃ s c₃, c.sideOf sender = some s ∧
      c₂.removeHtlc sender hash success = (.ok (htlc, index), c₃) ∧
      Settled c₂ s hash htlc.amountMsat success c₃

/-- **Channel operations are atomic.** -/
theorem operations_atomic (hsane : c.sanityCheck = .ok ()) (sender : PublicKey) (hash : PaymentHash)
    (htlc : Htlc) (success : Bool) : c.Atomic sender hash htlc success := by
  refine ⟨fun err c' h => eq_of_addHtlc h (by simp), fun fwdErr c' h => eq_of_addHtlc h (by simp),
    fun err c' h => ?_, fun index c' h => ?_, fun e c' h => ?_, fun index c₁ c₂ h hcalls => ?_⟩
  · rcases removeHtlc_sane hsane sender hash success with ⟨err', heq⟩ | ⟨s, e, -, -, heq⟩
    · rw [heq] at h
      exact (Prod.mk.inj h).2.symm
    · rw [heq] at h
      cases h
  · obtain ⟨s, hs, hacc, rfl, rfl⟩ := addHtlc_ok h
    exact ⟨s, hs, added_pushHtlc hacc⟩
  · obtain ⟨s, hs, hl, rfl⟩ := removeHtlc_ok hsane h
    exact ⟨s, hs, hl, settled_popHtlc hl success⟩
  -- the entry made by the addition is what the removal finds
  · obtain ⟨s, hs, hacc, rfl, rfl⟩ := addHtlc_ok h
    have hsame := untouched_of_otherCalls (sanityCheck_pushHtlc hsane hacc.fresh htlc) hcalls
    have hl : (c₂.node s).inFlight.lookup hash = some (htlc, (c.node s).index) := by
      rw [hsame.entry s]
      exact (added_pushHtlc hacc).entry
    have hs₂ : c₂.sideOf sender = some s :=
      (hsame.terms.sideOf sender).trans (((sameTerms_pushHtlc c s hash htlc).sideOf sender).trans hs)
    refine ⟨s, _, hs, ?_, settled_popHtlc hl success⟩
    rw [removeHtlc_of_lookup hs₂ hl, sanityCheck_popHtlc hsame.sane hl]
    rfl

/-- Alice adds an HTLC and it is settled. -/
theorem operations_atomic_aliceBob : aliceBob.Atomic alice ⟨1⟩ ⟨20000, 80⟩ true :=
  operations_atomic (by decide) alice ⟨1⟩ ⟨20000, 80⟩ true

/-! ## Wrap-around -/

/-- One call of an operation, whatever it returns. -/
inductive Call (c : SimulatedChannel) : SimulatedChannel → Prop where
  | add (sender : PublicKey) (hash : PaymentHash) (htlc : Htlc) :
      Call c (c.addHtlc sender hash htlc).2
  | remove (sender : PublicKey) (hash : PaymentHash) (success : Bool) :
      Call c (c.removeHtlc sender hash success).2

/-- The funds of the channel are its capacity, exactly, and no HTLC is empty. -/
structure Exact (c : SimulatedChannel) : Prop where
  funds : c.exactBalance = c.capacityMsat.toNat
  nonzero : ∀ s hash e, (c.node s).inFlight.lookup hash = some e → e.1.amountMsat ≠ 0

/-- The exact sum is the capacity, which is a `u64`. -/
theorem Exact.fits (h : c.Exact) : c.exactBalance < 2 ^ 64 := h.funds ▸ c.capacityMsat.toNat_lt

/-- Every call of a channel keeps its sum exact. -/
theorem Exact.call (h : c.Exact) (hcall : Call c c') : c'.Exact := by
  cases hcall with
  | add sender hash htlc =>
    rcases c.addHtlc_cases sender hash htlc with ⟨err, heq, -⟩ | ⟨fwdErr, heq⟩ | ⟨s, -, hacc, heq⟩
    · rwa [heq]
    · rwa [heq]
    · rw [heq]
      refine ⟨?_, fun t k e hk => ?_⟩
      · rw [exactBalance_pushHtlc hacc.fresh hacc.balance,
          (sameTerms_pushHtlc c s hash htlc).capacityMsat, h.funds]
      · rcases s.eq_or_eq_other t with rfl | rfl
        · simp only [node_pushHtlc] at hk
          rcases Table.lookup_insert_cases hk with ⟨-, rfl⟩ | ⟨-, hk⟩
          · exact hacc.nonzero
          · exact h.nonzero t k e hk
        · rw [node_other_pushHtlc] at hk
          exact h.nonzero s.other k e hk
  | remove sender hash success =>
    rcases c.removeHtlc_cases sender hash success with ⟨err, heq, -⟩ | ⟨s, e, -, hl, heq⟩
    · rwa [heq]
    · rw [heq]
      refine ⟨?_, fun t k e' hk => ?_⟩
      · rw [exactBalance_popHtlc hl h.fits, (sameTerms_popHtlc c s hash _ success).capacityMsat,
          h.funds]
      · rcases s.eq_or_eq_other t with rfl | rfl
        · simp only [node_popHtlc] at hk
          by_cases hkh : k = hash
          · rw [hkh, AList.lookup_erase] at hk
            cases hk
          · rw [AList.lookup_erase_ne hkh] at hk
            exact h.nonzero t k e' hk
        · simp only [node_other_popHtlc] at hk
          exact h.nonzero s.other k e' hk

/-- A new channel whose two balances are its capacity. -/
theorem exact_of_balances (hidle : ∀ s, (c.node s).inFlight = ∅)
    (hbalances : c.node1.localBalanceMsat.toNat + c.node2.localBalanceMsat.toNat
      = c.capacityMsat.toNat) : c.Exact := by
  have hnone : ∀ s, (c.node s).exactInFlight = 0 := fun s => by
    rw [ChannelState.exactInFlight, hidle s]
    rfl
  refine ⟨?_, fun s hash e he => ?_⟩
  · have h1 : c.node1.exactInFlight = 0 := hnone .one
    have h2 : c.node2.exactInFlight = 0 := hnone .two
    rw [exactBalance, h1, h2]
    omega
  · rw [hidle s, AList.lookup_empty] at he
    cases he

/-- The checks of `check_outgoing_addition` with unbounded integers. -/
def ChecksExactly (st : ChannelState) (htlc : Htlc) (counterpartyPolicy : ChannelPolicy) : Prop :=
  htlc.amountMsat.toNat ≤ st.policy.maxHtlcSizeMsat.toNat ∧
  st.policy.minHtlcSizeMsat.toNat ≤ htlc.amountMsat.toNat ∧
  st.inFlight.size + 1 ≤ counterpartyPolicy.maxHtlcCount.toNat ∧
  st.exactInFlight + htlc.amountMsat.toNat ≤ counterpartyPolicy.maxInFlightMsat.toNat ∧
  htlc.amountMsat.toNat ≤ st.localBalanceMsat.toNat ∧ htlc.cltvExpiry.toNat ≤ 500000000

/-- The sums of the sanity check and the changes of a balance are those of unbounded integers, and so
is every decision on a new HTLC. An HTLC of amount zero, which `add_htlc` refuses before it asks,
is counted right unless there are `2^64 - 1` others. -/
structure WrapFree (c : SimulatedChannel) : Prop where
  inFlight : ∀ s, (c.node s).inFlightTotal.toNat = (c.node s).exactInFlight
  sideTotal : ∀ s, ((c.node s).localBalanceMsat + (c.node s).inFlightTotal).toNat
    = (c.node s).localBalanceMsat.toNat + (c.node s).exactInFlight
  balance : c.balance.toNat = c.exactBalance
  decrement : ∀ sender hash htlc index c', c.addHtlc sender hash htlc = (.ok (.ok index), c') →
    ∃ s, c.sideOf sender = some s ∧
      (c'.node s).localBalanceMsat.toNat + htlc.amountMsat.toNat
        = (c.node s).localBalanceMsat.toNat
  increment : ∀ sender hash success e c', c.removeHtlc sender hash success = (.ok e, c') →
    ∃ s, c.sideOf sender = some s ∧
      (c'.node (payee s success)).localBalanceMsat.toNat
        = (c.node (payee s success)).localBalanceMsat.toNat + e.1.amountMsat.toNat
  decision : ∀ s htlc policy, htlc.amountMsat ≠ 0 ∨ (c.node s).inFlight.size + 1 < 2 ^ 64 →
    ((c.node s).checkOutgoingAddition htlc policy = .ok () ↔ ChecksExactly (c.node s) htlc policy)
  accepted : ∀ sender hash htlc, (∃ index c', c.addHtlc sender hash htlc = (.ok (.ok index), c')) ↔
    htlc.amountMsat ≠ 0 ∧ ∃ s, c.sideOf sender = some s ∧ hash ∉ (c.node s).inFlight ∧
      ChecksExactly (c.node s) htlc (c.node s.other).policy

/-- So what one side has and has in flight does not overflow. -/
theorem Exact.side_le (h : c.Exact) (s : Side) :
    (c.node s).localBalanceMsat.toNat + (c.node s).exactInFlight < 2 ^ 64 := by
  have hfits := h.fits
  rw [exactBalance_eq c s] at hfits
  omega

/-- The total that is computed for what is in flight is the exact one. -/
theorem Exact.inFlight (h : c.Exact) (s : Side) :
    (c.node s).inFlightTotal.toNat = (c.node s).exactInFlight := by
  have hside := h.side_le s
  rw [toNat_inFlightTotal, Nat.mod_eq_of_lt (by omega)]

/-- The sum of a side is the exact one. -/
theorem Exact.sideTotal (h : c.Exact) (s : Side) :
    ((c.node s).localBalanceMsat + (c.node s).inFlightTotal).toNat
      = (c.node s).localBalanceMsat.toNat + (c.node s).exactInFlight := by
  rw [UInt64.toNat_add, h.inFlight s, Nat.mod_eq_of_lt (h.side_le s)]

/-- The sum of the channel is the exact one. -/
theorem Exact.balance_eq (h : c.Exact) : c.balance.toNat = c.exactBalance := by
  have hfits := h.fits
  have h1 := h.sideTotal .one
  have h2 := h.sideTotal .two
  unfold balance
  show ((c.node .one).localBalanceMsat + (c.node .one).inFlightTotal +
    ((c.node .two).localBalanceMsat + (c.node .two).inFlightTotal)).toNat = c.exactBalance
  rw [exactBalance_eq c .one] at hfits ⊢
  rw [UInt64.toNat_add, h1, h2]
  exact Nat.mod_eq_of_lt hfits

/-- An exact channel passes its check. -/
theorem Exact.sane (h : c.Exact) : c.sanityCheck = .ok () := by
  rw [sanityCheck_eq_ok, ← UInt64.toNat_inj, h.balance_eq, h.funds]

/-- The balance check makes up for the two sums before it: an amount within the balance fits beside
the HTLCs in flight, if the balance does. -/
theorem checkOutgoingAddition_iff_exactly {st : ChannelState} {htlc : Htlc} {policy : ChannelPolicy}
    (hside : st.localBalanceMsat.toNat + st.exactInFlight < 2 ^ 64)
    (hsize : htlc.amountMsat.toNat ≤ st.localBalanceMsat.toNat → st.inFlight.size + 1 < 2 ^ 64) :
    st.checkOutgoingAddition htlc policy = .ok () ↔ ChecksExactly st htlc policy := by
  have hone : (1 : UInt64).toNat = 1 := rfl
  have hmax : (500000000 : UInt32).toNat = 500000000 := rfl
  have hsum : htlc.amountMsat.toNat ≤ st.localBalanceMsat.toNat →
      (st.inFlightTotal + htlc.amountMsat).toNat = st.exactInFlight + htlc.amountMsat.toNat := by
    intro hle
    rw [UInt64.toNat_add, toNat_inFlightTotal]
    omega
  have hnumber : htlc.amountMsat.toNat ≤ st.localBalanceMsat.toNat →
      (UInt64.ofNat st.inFlight.size + 1).toNat = st.inFlight.size + 1 := by
    intro hle
    have hfit := hsize hle
    rw [UInt64.toNat_add, UInt64.toNat_ofNat', hone]
    omega
  rw [checkOutgoingAddition_eq_ok]
  unfold ChecksExactly
  simp only [UInt64.le_iff_toNat_le, UInt32.le_iff_toNat_le, hmax]
  constructor
  · rintro ⟨hmaxSize, hminSize, hnum, htot, hbal, hexp⟩
    rw [hnumber hbal] at hnum
    rw [hsum hbal] at htot
    exact ⟨hmaxSize, hminSize, hnum, htot, hbal, hexp⟩
  · rintro ⟨hmaxSize, hminSize, hnum, htot, hbal, hexp⟩
    rw [hnumber hbal, hsum hbal]
    exact ⟨hmaxSize, hminSize, hnum, htot, hbal, hexp⟩

/-- The checks of an HTLC decide as they would on natural numbers. -/
theorem Exact.decision (h : c.Exact) (s : Side) (htlc : Htlc) (policy : ChannelPolicy)
    (hcount : htlc.amountMsat ≠ 0 ∨ (c.node s).inFlight.size + 1 < 2 ^ 64) :
    (c.node s).checkOutgoingAddition htlc policy = .ok () ↔
      ChecksExactly (c.node s) htlc policy := by
  have hside := h.side_le s
  have hsize := size_le_exactInFlight (h.nonzero s)
  refine checkOutgoingAddition_iff_exactly hside fun hle => ?_
  rcases hcount with hne | hfit
  · have hpos : 0 < htlc.amountMsat.toNat :=
      Nat.pos_of_ne_zero fun h0 => hne (UInt64.toNat_inj.mp h0)
    omega
  · exact hfit

/-- On a side of a channel that passes its sanity check, `add_htlc` accepts what passes its checks. -/
theorem addHtlc_accepts {sender : PublicKey} (hsane : c.sanityCheck = .ok ())
    (hs : c.sideOf sender = some s) (hamt : htlc.amountMsat ≠ 0)
    (hcheck : (c.node s).checkOutgoingAddition htlc (c.node s.other).policy = .ok ())
    (hfresh : hash ∉ (c.node s).inFlight) :
    c.addHtlc sender hash htlc = (.ok (.ok (c.node s).index), c.pushHtlc s hash htlc) := by
  rw [addHtlc_of_sideOf hs hash hamt hsane]
  unfold ChannelState.addOutgoingHtlc
  rw [hcheck]
  simp only [if_neg hfresh]
  rfl

/-- There it refuses what does not. -/
theorem addHtlc_refuses {sender : PublicKey} (hsane : c.sanityCheck = .ok ())
    (hs : c.sideOf sender = some s) (hamt : htlc.amountMsat ≠ 0)
    (hcheck : (c.node s).checkOutgoingAddition htlc (c.node s.other).policy ≠ .ok ())
    (hash : PaymentHash) :
    ∃ fwdErr, c.addHtlc sender hash htlc = (.ok (.error fwdErr), c) := by
  rw [addHtlc_of_sideOf hs hash hamt hsane]
  unfold ChannelState.addOutgoingHtlc
  cases hres : (c.node s).checkOutgoingAddition htlc (c.node s.other).policy with
  | error fwdErr => exact ⟨fwdErr, by simp⟩
  | ok u => exact absurd hres hcheck

/-- An HTLC is accepted exactly if it passes the checks on natural numbers. -/
theorem Exact.accepted (h : c.Exact) (sender : PublicKey) (hash : PaymentHash) (htlc : Htlc) :
    (∃ index c', c.addHtlc sender hash htlc = (.ok (.ok index), c')) ↔
      htlc.amountMsat ≠ 0 ∧ ∃ s, c.sideOf sender = some s ∧ hash ∉ (c.node s).inFlight ∧
        ChecksExactly (c.node s) htlc (c.node s.other).policy := by
  constructor
  · rintro ⟨index, c', heq⟩
    obtain ⟨s, hs, hacc, -, -⟩ := addHtlc_ok heq
    refine ⟨hacc.nonzero, s, hs, hacc.fresh, ?_⟩
    apply (h.decision s htlc _ (.inl hacc.nonzero)).mp
    exact checkOutgoingAddition_eq_ok.mpr
      ⟨hacc.le_max, hacc.min_le, hacc.count, hacc.total, hacc.balance, hacc.expiry⟩
  · rintro ⟨hamt, s, hs, hfresh, hexact⟩
    have hcheck := (h.decision s htlc _ (.inl hamt)).mpr hexact
    exact ⟨_, _, addHtlc_accepts h.sane hs hamt hcheck hfresh⟩

/-- No sum of an exact channel wraps around. -/
theorem Exact.wrapFree (h : c.Exact) : c.WrapFree := by
  refine ⟨h.inFlight, h.sideTotal, h.balance_eq, ?_, ?_, h.decision, h.accepted⟩
  · intro sender hash htlc index c' heq
    obtain ⟨s, hs, hacc, -, rfl⟩ := addHtlc_ok heq
    exact ⟨s, hs, (added_pushHtlc hacc).balance⟩
  · intro sender hash success e c' heq
    obtain ⟨s, hs, hl, rfl⟩ := removeHtlc_ok h.sane heq
    exact ⟨s, hs, (settled_popHtlc hl success).exact h.fits⟩

/-- Any calls keep the sum exact. -/
theorem Exact.calls (h : c.Exact) (hcalls : Relation.ReflTransGen Call c c') : c'.Exact := by
  induction hcalls with
  | refl => exact h
  | tail _ hcall ih => exact ih.call hcall

/-- **Wrap-around changes no decision.** -/
theorem wrapping_harmless (hidle : ∀ s, (c.node s).inFlight = ∅)
    (hbalances : c.node1.localBalanceMsat.toNat + c.node2.localBalanceMsat.toNat
      = c.capacityMsat.toNat)
    (hcalls : Relation.ReflTransGen Call c c') : c'.WrapFree :=
  ((exact_of_balances hidle hbalances).calls hcalls).wrapFree

/-- The channel of Alice and Bob with an HTLC added. -/
theorem wrapping_harmless_aliceBob : (aliceBob.addHtlc alice ⟨1⟩ ⟨20000, 80⟩).2.WrapFree :=
  wrapping_harmless (fun s => by cases s <;> rfl) (by decide) (.single (.add alice ⟨1⟩ ⟨20000, 80⟩))

end SimulatedChannel
end SimLn
