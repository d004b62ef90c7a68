import SimLn.Channel.Sides
import SimLn.Lib.Lists
import Mathlib.Tactic.Ring
import Mathlib.Tactic.Linarith

/-!
# SimLn — what channel operations preserve

* `SameTerms`: capacity, short channel id and policies never change.
* `balance`: the sum that `sanityCheck` compares with the capacity, in `u64` arithmetic. Adding
  and removing preserve it whatever the numbers are.
* `exactBalance`: the same sum over the naturals, preserved whenever it fits in `u64`. While it
  does, no balance wraps.
* `WithinLimits`: the limits that both parties set on one direction of the channel.
-/

namespace SimLn

open Lib
open scoped UInt64.CommRing

/-- The sum of the HTLCs in flight on one side, over the naturals. -/
def ChannelState.exactInFlight (st : ChannelState) : Nat :=
  st.inFlight.total fun h => h.1.amountMsat.toNat

namespace SimulatedChannel

/-- `d` is `c` at a later time: the same channel under the same policies. -/
structure SameTerms (c d : SimulatedChannel) : Prop where
  capacityMsat : d.capacityMsat = c.capacityMsat
  shortChannelId : d.shortChannelId = c.shortChannelId
  policy : ∀ s, (d.node s).policy = (c.node s).policy

theorem SameTerms.refl (c : SimulatedChannel) : SameTerms c c := ⟨rfl, rfl, fun _ => rfl⟩

theorem SameTerms.trans {c d e : SimulatedChannel} (h : SameTerms c d) (h' : SameTerms d e) :
    SameTerms c e :=
  ⟨h'.1.trans h.1, h'.2.trans h.2, fun s => (h'.3 s).trans (h.3 s)⟩

/-- The terms of a channel decide which node has which side. -/
theorem SameTerms.sideOf {c d : SimulatedChannel} (h : SameTerms c d) (pubkey : PublicKey) :
    d.sideOf pubkey = c.sideOf pubkey :=
  sideOf_congr (h.policy .one) (h.policy .two) pubkey

/-! ## The two sides after an operation -/

section Sides

variable (c : SimulatedChannel) (s : Side) (hash : PaymentHash)

@[simp] theorem node_pushHtlc (htlc : Htlc) :
    (c.pushHtlc s hash htlc).node s =
      { c.node s with
        index := (c.node s).index + 1
        localBalanceMsat := (c.node s).localBalanceMsat - htlc.amountMsat
        inFlight := (c.node s).inFlight.insert hash (htlc, (c.node s).index) } := by
  simp [pushHtlc]

@[simp] theorem node_other_pushHtlc (htlc : Htlc) :
    (c.pushHtlc s hash htlc).node s.other = c.node s.other := by
  simp [pushHtlc]

@[simp] theorem node_popHtlc (amt : UInt64) (success : Bool) :
    (c.popHtlc s hash amt success).node s =
      { c.node s with
        localBalanceMsat := if success then (c.node s).localBalanceMsat
          else (c.node s).localBalanceMsat + amt
        inFlight := (c.node s).inFlight.erase hash } := by
  cases success <;> simp [popHtlc, ChannelState.settleOutgoingHtlc]

@[simp] theorem node_other_popHtlc (amt : UInt64) (success : Bool) :
    (c.popHtlc s hash amt success).node s.other =
      { c.node s.other with
        localBalanceMsat := if success then (c.node s.other).localBalanceMsat + amt
          else (c.node s.other).localBalanceMsat } := by
  cases success <;> simp [popHtlc, ChannelState.settleIncomingHtlc]

/-- Adding an HTLC keeps the terms of the channel. -/
theorem sameTerms_pushHtlc (htlc : Htlc) : SameTerms c (c.pushHtlc s hash htlc) := by
  refine ⟨by simp [pushHtlc], by simp [pushHtlc], fun t => ?_⟩
  rcases s.eq_or_eq_other t with rfl | rfl <;> simp

/-- Removing an HTLC keeps the terms of the channel. -/
theorem sameTerms_popHtlc (amt : UInt64) (success : Bool) :
    SameTerms c (c.popHtlc s hash amt success) := by
  refine ⟨by simp [popHtlc], by simp [popHtlc], fun t => ?_⟩
  rcases s.eq_or_eq_other t with rfl | rfl <;> simp

end Sides

/-! ## The balance that the sanity check reads -/

def balance (c : SimulatedChannel) : UInt64 :=
  c.node1.localBalanceMsat + c.node1.inFlightTotal +
    (c.node2.localBalanceMsat + c.node2.inFlightTotal)

/-- A channel is sane if its funds, summed in `u64`, are its capacity. -/
theorem sanityCheck_eq_ok {c : SimulatedChannel} :
    c.sanityCheck = .ok () ↔ c.balance = c.capacityMsat := by
  unfold sanityCheck balance
  by_cases h : c.node1.localBalanceMsat + c.node1.inFlightTotal +
      (c.node2.localBalanceMsat + c.node2.inFlightTotal) = c.capacityMsat <;> simp [h]

/-- The balance read from either side first. -/
theorem balance_eq (c : SimulatedChannel) (s : Side) :
    c.balance = (c.node s).localBalanceMsat + (c.node s).inFlightTotal +
      ((c.node s.other).localBalanceMsat + (c.node s.other).inFlightTotal) := by
  cases s with
  | one => rfl
  | two => exact add_comm _ _

/-- An HTLC more is its amount more in flight. -/
theorem inFlightTotal_insert {st : ChannelState} {hash : PaymentHash} (e : Htlc × UInt64)
    (h : hash ∉ st.inFlight) :
    Table.total (fun h => h.1.amountMsat) (st.inFlight.insert hash e)
      = e.1.amountMsat + st.inFlightTotal :=
  Table.total_insert _ e h

/-- An HTLC less is its amount less in flight. -/
theorem inFlightTotal_erase {st : ChannelState} {hash : PaymentHash} {e : Htlc × UInt64}
    (h : st.inFlight.lookup hash = some e) :
    st.inFlightTotal
      = e.1.amountMsat + Table.total (fun h => h.1.amountMsat) (st.inFlight.erase hash) :=
  (Table.total_erase (fun h : Htlc × UInt64 => h.1.amountMsat) h).symm

/-- Adding an HTLC moves its amount within the channel. -/
theorem balance_pushHtlc {c : SimulatedChannel} {s : Side} {hash : PaymentHash} (htlc : Htlc)
    (h : hash ∉ (c.node s).inFlight) : (c.pushHtlc s hash htlc).balance = c.balance := by
  rw [balance_eq _ s, balance_eq c s]
  simp only [node_pushHtlc, node_other_pushHtlc, ChannelState.inFlightTotal]
  rw [inFlightTotal_insert _ h, ChannelState.inFlightTotal]
  ring

/-- Removing an HTLC moves its amount within the channel. -/
theorem balance_popHtlc {c : SimulatedChannel} {s : Side} {hash : PaymentHash} {e : Htlc × UInt64}
    (h : (c.node s).inFlight.lookup hash = some e) (success : Bool) :
    (c.popHtlc s hash e.1.amountMsat success).balance = c.balance := by
  rw [balance_eq _ s, balance_eq c s, inFlightTotal_erase h]
  simp only [node_popHtlc, node_other_popHtlc, ChannelState.inFlightTotal]
  cases success
  · simp only [Bool.false_eq_true, if_false]
    ring
  · simp only [if_true]
    ring

/-! ## The exact balance -/

/-- `balance` over the naturals. -/
def exactBalance (c : SimulatedChannel) : Nat :=
  c.node1.localBalanceMsat.toNat + c.node1.exactInFlight +
    (c.node2.localBalanceMsat.toNat + c.node2.exactInFlight)

/-- The exact sum, seen from either side. -/
theorem exactBalance_eq (c : SimulatedChannel) (s : Side) :
    c.exactBalance = (c.node s).localBalanceMsat.toNat + (c.node s).exactInFlight +
      ((c.node s.other).localBalanceMsat.toNat + (c.node s.other).exactInFlight) := by
  cases s with
  | one => rfl
  | two => exact Nat.add_comm _ _

/-- An HTLC more is its amount more in flight, exactly. -/
theorem exactInFlight_insert {st : ChannelState} {hash : PaymentHash} (e : Htlc × UInt64)
    (h : hash ∉ st.inFlight) :
    Table.total (fun h => h.1.amountMsat.toNat) (st.inFlight.insert hash e)
      = e.1.amountMsat.toNat + st.exactInFlight :=
  Table.total_insert _ e h

/-- An HTLC less is its amount less in flight, exactly. -/
theorem exactInFlight_erase {st : ChannelState} {hash : PaymentHash} {e : Htlc × UInt64}
    (h : st.inFlight.lookup hash = some e) :
    st.exactInFlight = e.1.amountMsat.toNat +
      Table.total (fun h => h.1.amountMsat.toNat) (st.inFlight.erase hash) :=
  (Table.total_erase (fun h : Htlc × UInt64 => h.1.amountMsat.toNat) h).symm

/-- The wrapping total is the exact one modulo `2^64`. -/
theorem toNat_inFlightTotal (st : ChannelState) :
    st.inFlightTotal.toNat = st.exactInFlight % 2 ^ 64 := by
  unfold ChannelState.inFlightTotal ChannelState.exactInFlight Table.total
  rw [toNat_sum, List.map_map]
  rfl

/-- Adding takes from the balance exactly what goes in flight. -/
theorem exactBalance_pushHtlc {c : SimulatedChannel} {s : Side} {hash : PaymentHash} {htlc : Htlc}
    (h : hash ∉ (c.node s).inFlight) (hbal : htlc.amountMsat ≤ (c.node s).localBalanceMsat) :
    (c.pushHtlc s hash htlc).exactBalance = c.exactBalance := by
  have hsub := UInt64.toNat_sub_of_le _ _ hbal
  have hle := UInt64.le_iff_toNat_le.mp hbal
  rw [exactBalance_eq _ s, exactBalance_eq c s]
  simp only [node_pushHtlc, node_other_pushHtlc, ChannelState.exactInFlight]
  simp only [exactInFlight_insert _ h, ChannelState.exactInFlight, hsub]
  omega

/-- Settling credits exactly what was in flight, as long as the channel's funds fit in `u64`. -/
theorem exactBalance_popHtlc {c : SimulatedChannel} {s : Side} {hash : PaymentHash}
    {e : Htlc × UInt64} (h : (c.node s).inFlight.lookup hash = some e)
    (hfit : c.exactBalance < 2 ^ 64) (success : Bool) :
    (c.popHtlc s hash e.1.amountMsat success).exactBalance = c.exactBalance := by
  rw [exactBalance_eq c s, exactInFlight_erase h] at hfit ⊢
  rw [exactBalance_eq _ s]
  simp only [node_popHtlc, node_other_popHtlc, ChannelState.exactInFlight]
  cases success
  · simp only [Bool.false_eq_true, if_false, UInt64.toNat_add]
    rw [Nat.mod_eq_of_lt (by omega)]
    omega
  · simp only [if_true, UInt64.toNat_add]
    rw [Nat.mod_eq_of_lt (by omega)]
    omega

/-! ## Limits -/

/-- The limits on the HTLCs in flight from side `s`: the receiver's on their number and total, the
sender's on the size of each. -/
structure WithinLimits (c : SimulatedChannel) (s : Side) : Prop where
  count : (c.node s).inFlight.size ≤ (c.node s.other).policy.maxHtlcCount.toNat
  total : (c.node s).exactInFlight ≤ (c.node s.other).policy.maxInFlightMsat.toNat
  htlcs : ∀ hash e, (c.node s).inFlight.lookup hash = some e →
    e.1.amountMsat ≠ 0 ∧
    (c.node s).policy.minHtlcSizeMsat ≤ e.1.amountMsat ∧
    e.1.amountMsat ≤ (c.node s).policy.maxHtlcSizeMsat ∧
    e.1.cltvExpiry ≤ 500000000

/-- A channel whose funds stay within its capacity and whose two directions keep their limits. -/
structure Bounded (c : SimulatedChannel) : Prop where
  funds : c.exactBalance ≤ c.capacityMsat.toNat
  limits : ∀ s, c.WithinLimits s

/-- A bounded channel has no more than its capacity. -/
theorem Bounded.fits {c : SimulatedChannel} (h : c.Bounded) : c.exactBalance < 2 ^ 64 :=
  Nat.lt_of_le_of_lt h.funds c.capacityMsat.toNat_lt

/-- Non-zero HTLCs are no more than what they add up to. -/
theorem size_le_exactInFlight {st : ChannelState}
    (h : ∀ hash e, st.inFlight.lookup hash = some e → e.1.amountMsat ≠ 0) :
    st.inFlight.size ≤ st.exactInFlight := by
  have hall : ∀ e ∈ st.inFlight.entries, 1 ≤ e.2.1.amountMsat.toNat := by
    intro e he
    have hne := h e.1 e.2 (AList.mem_lookup_iff.mpr he)
    rcases Nat.eq_zero_or_pos e.2.1.amountMsat.toNat with h0 | hpos
    · exact absurd (UInt64.toNat_inj.mp h0) hne
    · exact hpos
  unfold Table.size ChannelState.exactInFlight Table.total
  revert hall
  generalize st.inFlight.entries = es
  intro hall
  induction es with
  | nil => simp
  | cons e es ih =>
    have h1 := hall e (by simp)
    have h2 := ih fun e' he' => hall e' (by simp [he'])
    simp only [List.length_cons, List.map_cons, List.sum_cons] at h2 ⊢
    omega

/-- An accepted HTLC keeps every limit: the checks it passed are the limits after it, and none of
the sums they read has wrapped. -/
theorem Bounded.pushHtlc {c : SimulatedChannel} {s : Side} {hash : PaymentHash} {htlc : Htlc}
    (h : c.Bounded) (hacc : c.Accepts s hash htlc) : (c.pushHtlc s hash htlc).Bounded := by
  have hfits := h.fits
  have hbal := UInt64.le_iff_toNat_le.mp hacc.balance
  have hsize := size_le_exactInFlight fun k e hk => ((h.limits s).htlcs k e hk).1
  rw [exactBalance_eq c s] at hfits
  have hcount : (c.node s).inFlight.size + 1 ≤ (c.node s.other).policy.maxHtlcCount.toNat := by
    have hpos : 0 < htlc.amountMsat.toNat := by
      rcases Nat.eq_zero_or_pos htlc.amountMsat.toNat with h0 | hpos
      · exact absurd (UInt64.toNat_inj.mp h0) hacc.nonzero
      · exact hpos
    have hc := UInt64.le_iff_toNat_le.mp hacc.count
    rw [UInt64.toNat_add, UInt64.toNat_ofNat', show (1 : UInt64).toNat = 1 from rfl] at hc
    omega
  have htotal : htlc.amountMsat.toNat + (c.node s).exactInFlight
      ≤ (c.node s.other).policy.maxInFlightMsat.toNat := by
    have ht := UInt64.le_iff_toNat_le.mp hacc.total
    rw [UInt64.toNat_add, toNat_inFlightTotal, Nat.mod_eq_of_lt (by omega),
      Nat.mod_eq_of_lt (by omega)] at ht
    omega
  refine ⟨?_, fun t => ?_⟩
  · rw [exactBalance_pushHtlc hacc.fresh hacc.balance,
      (sameTerms_pushHtlc c s hash htlc).capacityMsat]
    exact h.funds
  · rcases s.eq_or_eq_other t with rfl | rfl
    · refine ⟨?_, ?_, fun k e hk => ?_⟩
      · simpa [Table.size_insert _ hacc.fresh] using hcount
      · simpa [ChannelState.exactInFlight, exactInFlight_insert _ hacc.fresh] using htotal
      · simp only [node_pushHtlc] at hk ⊢
        rcases Table.lookup_insert_cases hk with ⟨-, rfl⟩ | ⟨-, hk⟩
        · exact ⟨hacc.nonzero, hacc.min_le, hacc.le_max, hacc.expiry⟩
        · exact (h.limits t).htlcs k e hk
    · have hl := h.limits s.other
      exact ⟨by simpa using hl.count, by simpa using hl.total,
        fun k e hk => by simpa using hl.htlcs k e (by simpa using hk)⟩

/-- Resolving an HTLC keeps every limit. -/
theorem Bounded.popHtlc {c : SimulatedChannel} {s : Side} {hash : PaymentHash} {e : Htlc × UInt64}
    (h : c.Bounded) (hl : (c.node s).inFlight.lookup hash = some e) (success : Bool) :
    (c.popHtlc s hash e.1.amountMsat success).Bounded := by
  refine ⟨?_, fun t => ?_⟩
  · rw [exactBalance_popHtlc hl h.fits, (sameTerms_popHtlc c s hash _ success).capacityMsat]
    exact h.funds
  · rcases s.eq_or_eq_other t with rfl | rfl
    · have hlim := h.limits t
      refine ⟨?_, ?_, fun k e' hk => ?_⟩
      · have hcount := hlim.count
        rw [← Table.size_erase hl] at hcount
        simp only [node_popHtlc, node_other_popHtlc]
        omega
      · have htotal := hlim.total
        rw [exactInFlight_erase hl] at htotal
        simp only [node_popHtlc, node_other_popHtlc, ChannelState.exactInFlight]
        omega
      · simp only [node_popHtlc] at hk ⊢
        by_cases hkh : k = hash
        · subst hkh
          rw [AList.lookup_erase] at hk
          cases hk
        · rw [AList.lookup_erase_ne hkh] at hk
          exact hlim.htlcs k e' hk
    · have hlim := h.limits s.other
      exact ⟨by simpa using hlim.count, by simpa [ChannelState.exactInFlight] using hlim.total,
        fun k e' hk => by simpa using hlim.htlcs k e' (by simpa using hk)⟩

end SimulatedChannel
end SimLn
