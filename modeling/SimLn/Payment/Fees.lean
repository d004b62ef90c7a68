import SimLn.Payment.Store
import SimLn.Payment.Control
import Mathlib.Algebra.Order.BigOperators.Group.List

/-!
# SimLn — what a forwarding node is left with

`check_htlc_forward` checks the fee and the delta that a hop states, in exact arithmetic. The HTLCs
themselves carry sums over the rest of the path, taken modulo `2^64` and `2^32`. The two agree at a
hop exactly when neither sum wraps around there (`compensated_iff_noWrap`).
-/

namespace SimLn

open Lib

/-! ## The forward check, in exact arithmetic -/

/-- What a policy asks for forwarding an HTLC: the difference between what comes in and what goes
out covers the fee and the delta. -/
structure Compensated (policy : ChannelPolicy) (incoming outgoing : Htlc) : Prop where
  amount : outgoing.amountMsat.toNat + policy.baseFee.toNat +
    outgoing.amountMsat.toNat * policy.feeRateProp.toNat / 1000000 ≤ incoming.amountMsat.toNat
  cltv : outgoing.cltvExpiry.toNat + policy.cltvExpiryDelta.toNat ≤ incoming.cltvExpiry.toNat

/-- The forward check reads nothing that changes. -/
theorem SimulatedChannel.SameTerms.checkHtlcForward {c d : SimulatedChannel} (h : c.SameTerms d)
    {pubkey : PublicKey} {s : Side} (hs : c.sideOf pubkey = some s) (delta : UInt32)
    (amt fee : UInt64) :
    d.checkHtlcForward pubkey delta amt fee = c.checkHtlcForward pubkey delta amt fee := by
  rw [checkHtlcForward_eq hs, checkHtlcForward_eq ((h.sideOf pubkey).trans hs)]
  simp only [ChannelState.checkHtlcForward, h.policy s]

/-! ## Wrapping sums -/

namespace PropagatePaymentRequest

/-- `amountAt` over the naturals. -/
def exactAmount (req : PropagatePaymentRequest) (i : Nat) : Nat :=
  ((req.route.hops.drop i).map (·.feeMsat.toNat)).sum

/-- `cltvAt` over the naturals. -/
def exactCltv (req : PropagatePaymentRequest) (i : Nat) : Nat :=
  ((req.route.hops.drop i).map (·.cltvExpiryDelta.toNat)).sum

/-- Adding what hop `i` receives wraps neither sum around. -/
structure NoWrap (req : PropagatePaymentRequest) (i : Nat) : Prop where
  amount : req.exactAmount i / 2 ^ 64 = req.exactAmount (i + 1) / 2 ^ 64
  cltv : req.exactCltv i / 2 ^ 32 = req.exactCltv (i + 1) / 2 ^ 32

variable {req : PropagatePaymentRequest}

/-- A hop carries its own fee and what the next one carries. -/
theorem exactAmount_eq {i : Nat} {hop : RouteHop} (h : req.route.hops[i]? = some hop) :
    req.exactAmount i = hop.feeMsat.toNat + req.exactAmount (i + 1) := by
  rw [exactAmount, drop_eq_cons h, List.map_cons, List.sum_cons, exactAmount]

/-- A hop's expiry is its own delta and the next one's expiry. -/
theorem exactCltv_eq {i : Nat} {hop : RouteHop} (h : req.route.hops[i]? = some hop) :
    req.exactCltv i = hop.cltvExpiryDelta.toNat + req.exactCltv (i + 1) := by
  rw [exactCltv, drop_eq_cons h, List.map_cons, List.sum_cons, exactCltv]

/-- The amount of a hop is the exact one, wrapped at 64 bits. -/
theorem toNat_amountAt (req : PropagatePaymentRequest) (i : Nat) :
    (req.amountAt i).toNat = req.exactAmount i % 2 ^ 64 := by
  unfold amountAt exactAmount
  rw [toNat_sum, List.map_map]
  rfl

/-- The expiry of a hop is the exact one, wrapped at 32 bits. -/
theorem toNat_cltvAt (req : PropagatePaymentRequest) (i : Nat) :
    (req.cltvAt i).toNat = req.exactCltv i % 2 ^ 32 := by
  unfold cltvAt exactCltv
  induction req.route.hops.drop i with
  | nil => rfl
  | cons hop rest ih =>
    simp only [List.map_cons, List.sum_cons, UInt32.toNat_add, ih]
    omega

/-- No hop carries more than the first. -/
theorem exactAmount_le (req : PropagatePaymentRequest) (i : Nat) :
    req.exactAmount i ≤ req.exactAmount 0 := by
  unfold exactAmount
  exact ((List.drop_sublist i _).map _).sum_le_sum fun _ _ => Nat.zero_le _

/-- No hop expires later than the first. -/
theorem exactCltv_le (req : PropagatePaymentRequest) (i : Nat) :
    req.exactCltv i ≤ req.exactCltv 0 := by
  unfold exactCltv
  exact ((List.drop_sublist i _).map _).sum_le_sum fun _ _ => Nat.zero_le _

/-- Every HTLC carries at least what the last hop receives. -/
theorem finalValueMsat_le {i : Nat} (hi : i < req.route.hops.length) :
    req.route.finalValueMsat.toNat ≤ req.exactAmount i := by
  have hne : req.route.hops.drop i ≠ [] := by simp [hi]
  have hmem : req.route.hops.getLast req.route.hops_ne ∈ req.route.hops.drop i := by
    rw [← List.getLast_drop hne]
    exact List.getLast_mem hne
  unfold exactAmount
  exact List.single_le_sum (fun _ _ => Nat.zero_le _) _ (List.mem_map_of_mem hmem)

/-- A path whose exact totals fit wraps nowhere. -/
theorem noWrap_of_fits (hamount : req.exactAmount 0 < 2 ^ 64) (hcltv : req.exactCltv 0 < 2 ^ 32)
    (i : Nat) : req.NoWrap i := by
  have hamount' : ∀ j, req.exactAmount j / 2 ^ 64 = 0 := fun j =>
    Nat.div_eq_of_lt (Nat.lt_of_le_of_lt (req.exactAmount_le j) hamount)
  have hcltv' : ∀ j, req.exactCltv j / 2 ^ 32 = 0 := fun j =>
    Nat.div_eq_of_lt (Nat.lt_of_le_of_lt (req.exactCltv_le j) hcltv)
  exact ⟨by rw [hamount', hamount'], by rw [hcltv', hcltv']⟩

/-- Given that the hop states enough, the stored sums leave enough exactly when they do not
wrap. -/
theorem compensated_iff {policy : ChannelPolicy} {i : Nat} {hop : RouteHop}
    (hhop : req.route.hops[i]? = some hop)
    (hdelta : policy.cltvExpiryDelta.toNat ≤ hop.cltvExpiryDelta.toNat)
    (hfee : policy.baseFee.toNat +
      (req.amountAt (i + 1)).toNat * policy.feeRateProp.toNat / 1000000 ≤ hop.feeMsat.toNat) :
    Compensated policy (req.htlcAt i) (req.htlcAt (i + 1)) ↔ req.NoWrap i := by
  have hamount := toNat_amountAt req i
  have hamount' := toNat_amountAt req (i + 1)
  have hcltv := toNat_cltvAt req i
  have hcltv' := toNat_cltvAt req (i + 1)
  rw [exactAmount_eq hhop] at hamount
  rw [exactCltv_eq hhop] at hcltv
  have hlt := hop.feeMsat.toNat_lt
  have hlt' := hop.cltvExpiryDelta.toNat_lt
  generalize hprop : (req.amountAt (i + 1)).toNat * policy.feeRateProp.toNat / 1000000 = prop
    at hfee
  constructor
  · rintro ⟨ha, hc⟩
    simp only [htlcAt] at ha hc
    rw [hprop] at ha
    refine ⟨?_, ?_⟩
    · rw [exactAmount_eq hhop]
      omega
    · rw [exactCltv_eq hhop]
      omega
  · rintro ⟨ha, hc⟩
    rw [exactAmount_eq hhop] at ha
    rw [exactCltv_eq hhop] at hc
    refine ⟨?_, ?_⟩
    · simp only [htlcAt]
      rw [hprop]
      omega
    · simp only [htlcAt]
      omega

end PropagatePaymentRequest

/-! ## What has been checked in a run -/

/-- The node after hop `i` can forward over the channel of hop `i + 1`, if that channel exists. -/
def ForwardOk (channels : Channels) (req : PropagatePaymentRequest) (i : Nat) : Prop :=
  ∀ hop next c, req.route.hops[i]? = some hop → req.route.hops[i + 1]? = some next →
    channels.lookup next.scid = some c →
    c.checkHtlcForward hop.pubkey hop.cltvExpiryDelta (req.amountAt (i + 1)) hop.feeMsat =
      .ok (.ok ())

def Phase.isAdding : Phase → Bool
  | .adding _ | .intercepting _ _ => true
  | _ => false

/-- The network has the channel that `x` was added to, with the node that sent it. -/
def Located (channels : Channels) (x : HopHtlc) (c : SimulatedChannel) (s : Side) : Prop :=
  channels.lookup x.ref.channelId = some c ∧ c.sideOf x.sender = some s

/-- The checks behind the HTLCs of a payment: every hop but the last added has passed its forward
check, and so has the last while the payment still goes on. -/
structure Checked (channels : Channels) (req : PropagatePaymentRequest) (past : List Event)
    (phase : Phase) : Prop where
  control : Control req past phase
  located : ∀ x ∈ added past, ∃ c s, Located channels x c s
  forward : ∀ i, i + 1 < (added past).length ∨ (i < (added past).length ∧ phase.isAdding = true) →
    ForwardOk channels req i

/-- A step adds no HTLC and does not resume adding, or it adds the HTLC of its hop and goes on
adding only after the forward check. -/
theorem Step.forward_cases {req : PropagatePaymentRequest} {channels channels' : Channels}
    {phase phase' : Phase} {es : List Event}
    (h : Step req channels phase es channels' phase') :
    (added es = [] ∧ (phase'.isAdding = true → phase.isAdding = true)) ∨
    (∃ loop hop x, phase = .adding loop ∧ req.route.hops[loop.i]? = some hop ∧ added es = [x] ∧
      (phase'.isAdding = true → checkForward req loop hop channels' = .ok (.ok ()))) := by
  cases h.transition with
  | forwardCritical hhop hpush hcheck => exact Or.inr ⟨_, _, _, rfl, hhop, rfl, nofun⟩
  | forwardRefused hhop hpush hcheck => exact Or.inr ⟨_, _, _, rfl, hhop, rfl, nofun⟩
  | @added _ loop hop index _ _ hhop hpush hcheck =>
    refine Or.inr ⟨loop, hop, loop.offer hop index, rfl, hhop, ?_, fun _ => hcheck⟩
    rw [← List.singleton_append, added_append, added_map_intercepted]
    rfl
  | forwarded hhop hlt => exact Or.inl ⟨rfl, fun _ => rfl⟩
  | addCritical | addRefusedFirst | addRefused | interceptCritical | interceptRefusedFirst
  | interceptRefused | received | removeCritical | removedInsane | removed | notifyCritical
  | notified | removeNext | removedAll => exact Or.inl ⟨rfl, nofun⟩

/-- The forward check made in the loop is the one of the hop, on the network it started with. -/
theorem forwardOk_of_check {req : PropagatePaymentRequest} {loop : AddLoop} {hop : RouteHop}
    {channels channels' : Channels} (hat : loop.At req)
    (hhop : req.route.hops[loop.i]? = some hop) (hnet : SameNetwork channels channels')
    (hcheck : checkForward req loop hop channels' = .ok (.ok ())) :
    ForwardOk channels req loop.i := by
  intro hop' next c hhop' hnext hc
  obtain rfl := Option.some.inj (hhop.symm.trans hhop')
  obtain ⟨c', hc', hterms⟩ := hnet.lookup hc
  have hlater : (loop.next hop ∅).At req :=
    hat.next hhop (List.getElem?_eq_some_iff.mp hnext).1
  have hamount : loop.outgoingAmount - hop.feeMsat = req.amountAt (loop.i + 1) := hlater.amount
  simp only [checkForward, hnext, hc', hamount] at hcheck
  -- a successful check has found the node on the channel
  cases hs : c.sideOf hop.pubkey with
  | none =>
    have hs' := (hterms.sideOf hop.pubkey).trans hs
    unfold SimulatedChannel.checkHtlcForward at hcheck
    cases hn : c'.getNode hop.pubkey with
    | error err =>
      rw [hn] at hcheck
      cases hcheck
    | ok st =>
      obtain ⟨s, hs'', -⟩ := SimulatedChannel.getNode_eq_ok.mp hn
      rw [hs'] at hs''
      cases hs''
  | some s => rwa [hterms.checkHtlcForward hs] at hcheck

/-- A step keeps the forward checks behind the HTLCs of its payment. -/
theorem Step.checked {req : PropagatePaymentRequest} {channels₀ channels channels' : Channels}
    {phase phase' : Phase} {past es : List Event} (h : Step req channels phase es channels' phase')
    (hnet : SameNetwork channels₀ channels) (hc : Checked channels₀ req past phase) :
    Checked channels₀ req (past ++ es) phase' := by
  have hnet' := h.channelsStep.sameNetwork hnet
  refine ⟨h.control hc.control, fun x hx => ?_, fun i hi => ?_⟩
  · rw [added_append] at hx
    rcases List.mem_append.mp hx with hx | hx
    · exact hc.located x hx
    · cases h.moved with
      | pushed hpush hadded _ =>
        rw [hadded, List.mem_singleton] at hx
        obtain ⟨c₀, hc₀, hterms⟩ := hnet.lookup' hpush.found
        exact ⟨c₀, _, hx ▸ hc₀, hx ▸ (hterms.sideOf _).symm.trans hpush.side⟩
      | nothing _ hadded _ | popped _ hadded _ | insane _ _ hadded _ _ =>
        rw [hadded] at hx
        cases hx
  · rw [added_append] at hi
    rcases h.forward_cases with ⟨hadded, hadding⟩ | ⟨loop, hop, x, rfl, hhop, hadded, hadding⟩
    · rw [hadded, List.append_nil] at hi
      exact hc.forward i (hi.imp_right fun hi => ⟨hi.1, hadding hi.2⟩)
    · rw [hadded, List.length_append, List.length_singleton] at hi
      obtain ⟨hat, hlen, -⟩ := hc.control.phase
      rcases Nat.lt_or_ge i (added past).length with hlt | hge
      · exact hc.forward i (Or.inr ⟨hlt, rfl⟩)
      · obtain ⟨hi', hgoes⟩ : i < (added past).length + 1 ∧ phase'.isAdding = true := by
          rcases hi with hi | hi
          · omega
          · exact hi
        obtain rfl : i = loop.i := by omega
        exact forwardOk_of_check hat hhop hnet' (hadding hgoes)

section Runs

variable {ι : Type} [DecidableEq ι] {reqs : ι → PropagatePaymentRequest} {channels : Channels}
  {w : World ι Channels Phase} {trace : List (ι × Event)}

/-- In every run the forward checks are behind the HTLCs of every payment. -/
theorem run_checked (h : PaymentRun reqs channels trace w) (k : ι) :
    Checked channels (reqs k) (eventsOf k trace) (w.proc k) := by
  have hinv := h.owned_invariant
    (I := fun k chs past phase => SameNetwork channels chs ∧ Checked channels (reqs k) past phase)
    (fun k => ⟨.refl _, control_start _, by simp [added], by simp [added]⟩)
    (fun k chs phase es chs' phase' past hs hI =>
      ⟨(Step.channelsStep hs).sameNetwork hI.1, Step.checked hs hI.1 hI.2⟩)
    (fun j k chs phase es chs' phase' past q _ hs hI =>
      ⟨(Step.channelsStep hs).sameNetwork hI.1, hI.2⟩)
  exact (hinv k).2

/-- **What a forwarding node is left with.** Whenever a payment has added the HTLCs of two
consecutive hops, the node between them, which sends the second, is left with the fee and the delta
of its policy on that channel exactly when the sums that the HTLCs carry do not wrap at this hop. -/
theorem compensated_iff_noWrap (h : PaymentRun reqs channels trace w) {k : ι} {x y : HopHtlc}
    (hx : (k, .htlcAdded x) ∈ trace) (hy : (k, .htlcAdded y) ∈ trace) (hsucc : y.hop = x.hop + 1) :
    ∃ c s hop, channels.lookup y.ref.channelId = some c ∧ c.sideOf y.sender = some s ∧
      (reqs k).route.hops[x.hop]? = some hop ∧ y.sender = hop.pubkey ∧
      (Compensated (c.node s).policy x.htlc y.htlc ↔ (reqs k).NoWrap x.hop) := by
  obtain ⟨hcontrol, hlocated, hforward⟩ := run_checked h k
  have hx' := hcontrol.getElem?_added (mem_added.mpr (mem_eventsOf.mpr hx))
  have hy' := hcontrol.getElem?_added (mem_added.mpr (mem_eventsOf.mpr hy))
  rw [hsucc] at hy'
  obtain ⟨⟨-, -, hop, hhop, -⟩, hxhtlc⟩ := hcontrol.log.addedAt _ _ hx'
  obtain ⟨⟨-, hsender, next, hnext, hscid⟩, hyhtlc⟩ := hcontrol.log.addedAt _ _ hy'
  obtain ⟨c, s, hc, hs⟩ := hlocated y (mem_added.mpr (mem_eventsOf.mpr hy))
  have hpubkey : y.sender = hop.pubkey :=
    hsender.trans (PropagatePaymentRequest.sender_succ hhop)
  refine ⟨c, s, hop, hc, hs, hhop, hpubkey, ?_⟩
  have hlt := (List.getElem?_eq_some_iff.mp hy').1
  have hok := hforward x.hop (Or.inl hlt) hop next c hhop hnext (hscid ▸ hc)
  rw [← hpubkey, SimulatedChannel.checkHtlcForward_eq hs] at hok
  obtain ⟨hdelta, -, hfee⟩ := ChannelState.checkHtlcForward_eq_ok.mp hok
  rw [hxhtlc, hyhtlc]
  exact PropagatePaymentRequest.compensated_iff hhop hdelta hfee

/-- The first three steps of the payment from Alice to Carol add both of its HTLCs. -/
theorem aliceToCarol_adds : ∃ w, PaymentRun (fun _ : Unit => aliceToCarol ⟨1⟩) threeNodes
    [((), .htlcAdded ⟨0, alice, ⟨⟨700⟩, 0⟩, ⟨20030, 58⟩⟩),
      ((), .htlcAdded ⟨1, bob, ⟨⟨800⟩, 0⟩, ⟨20000, 18⟩⟩)] w := by
  have h1 : PaymentRun (fun _ : Unit => aliceToCarol ⟨1⟩) threeNodes _ _ :=
    PaymentRun.step .refl () (.add rfl)
  have h2 := h1.step () (.intercept [] none rfl rfl)
  exact ⟨_, h2.step () (.add rfl)⟩

theorem compensated_iff_noWrap_aliceToCarol :
    Compensated (samplePolicy bob) ⟨20030, 58⟩ ⟨20000, 18⟩ := by
  obtain ⟨w, hrun⟩ := aliceToCarol_adds
  obtain ⟨c, s, hop, hc, hs, hhop, hpubkey, hiff⟩ :=
    compensated_iff_noWrap hrun (.head _) (.tail _ (.head _)) rfl
  obtain rfl : bobCarol = c := Option.some.inj hc
  obtain rfl : Side.one = s := Option.some.inj hs
  exact hiff.mpr (PropagatePaymentRequest.noWrap_of_fits (by decide) (by decide) 0)

/-- A payment that offers Bob a fee of `2^64 - 10` msat for forwarding 1000 msat. -/
def wrappingPayment : PropagatePaymentRequest :=
  { source := alice
    route := ⟨[⟨bob, 700, 18446744073709551606, 40⟩, ⟨carol, 800, 1000, 18⟩], by simp⟩
    paymentHash := ⟨1⟩
    interceptors := []
    customRecords := ∅ }

/-- The sums wrap, and Bob is handed 990 msat, ten less than he sends on. -/
theorem wrappingPayment_not_compensated :
    ∃ w, PaymentRun (fun _ : Unit => wrappingPayment) threeNodes
      [((), .htlcAdded ⟨0, alice, ⟨⟨700⟩, 0⟩, ⟨990, 58⟩⟩),
        ((), .htlcAdded ⟨1, bob, ⟨⟨800⟩, 0⟩, ⟨1000, 18⟩⟩)] w ∧
      ¬ Compensated (samplePolicy bob) ⟨990, 58⟩ ⟨1000, 18⟩ := by
  have h1 : PaymentRun (fun _ : Unit => wrappingPayment) threeNodes _ _ :=
    PaymentRun.step .refl () (.add rfl)
  have h2 := h1.step () (.intercept [] none rfl rfl)
  exact ⟨_, h2.step () (.add rfl), fun h => absurd h.amount (by decide)⟩

end Runs

end SimLn
