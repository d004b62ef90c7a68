import SimLn.Payment.Holding
import Mathlib.Algebra.BigOperators.Fin
import Mathlib.Tactic.Abel

/-!
# SimLn — what payments do to balances

A balance is its initial value plus what every payment has moved in and out of it (`flow`). This
holds of the `u64` value whatever the numbers are, and of the number itself while the channel's
funds fit in `u64`; a `Reading` is either of the two. Once a payment has finished, its flow is what
its path says if it succeeded, and zero if it failed. So the final balances are determined by the
payments that succeeded (`final_balances`).
-/

namespace SimLn

open Lib
open scoped UInt64.CommRing

/-! ## Reading a balance -/

/-- A way to read `u64` amounts in which adding and removing HTLCs is exact, on the channels that
`Fits`. -/
structure Reading (R : Type) [AddCommGroup R] where
  val : UInt64 → R
  Fits : SimulatedChannel → Prop
  fits_step : ∀ {hash c c'}, ChannelStep hash c c' → Fits c → Fits c'
  val_sub : ∀ {a b : UInt64}, b ≤ a → val (a - b) = val a - val b
  val_credit : ∀ {c : SimulatedChannel} {s : Side} {hash : PaymentHash} {e : Htlc × UInt64},
    Fits c → (c.node s).inFlight.lookup hash = some e → ∀ t,
    val ((c.node t).localBalanceMsat + e.1.amountMsat)
      = val (c.node t).localBalanceMsat + val e.1.amountMsat

/-- The value itself, in the wrapping arithmetic of `u64`. -/
def Reading.wrapping : Reading UInt64 where
  val a := a
  Fits _ := True
  fits_step _ _ := trivial
  val_sub _ := rfl
  val_credit _ _ _ := rfl

/-- The number, on channels whose funds fit in `u64`. -/
def Reading.exact : Reading ℤ where
  val a := a.toNat
  Fits c := c.exactBalance < 2 ^ 64
  fits_step hstep hfit := by
    rw [hstep.exactBalance hfit]
    exact hfit
  val_sub hle := by
    have hle' := UInt64.le_iff_toNat_le.mp hle
    rw [UInt64.toNat_sub_of_le _ _ hle]
    omega
  val_credit {c s hash e} hfit hentry t := by
    have hbalance := SimulatedChannel.exactBalance_eq c s
    have hentry' := SimulatedChannel.exactInFlight_erase hentry
    -- what is in flight is part of the funds, so returning it cannot overflow
    have hle : (c.node t).localBalanceMsat.toNat + e.1.amountMsat.toNat ≤ c.exactBalance := by
      rcases s.eq_or_eq_other t with rfl | rfl <;> omega
    rw [UInt64.toNat_add, Nat.mod_eq_of_lt (by omega)]
    push_cast
    rfl

variable {R : Type} [AddCommGroup R] (V : Reading R) (channels₀ : Channels)

def Place.opposite (p : Place) : Place := (p.1, p.2.other)

/-- What adding `x` takes from the balance at `p`. -/
def debit (p : Place) (x : HopHtlc) : R :=
  if x.place channels₀ = some p then V.val x.htlc.amountMsat else 0

/-- What removing `x` gives to the balance at `p`: the receiver's if it succeeded, the sender's if
it failed. -/
def credit (p : Place) (x : HopHtlc × Bool) : R :=
  if x.1.place channels₀ = some (if x.2 then p.opposite else p) then V.val x.1.htlc.amountMsat
  else 0

/-- What a payment has moved in and out of the balance at `p`. -/
def flow (p : Place) (past : List Event) : R :=
  ((removed past).map (credit V channels₀ p)).sum - ((added past).map (debit V channels₀ p)).sum

variable {V channels₀}

/-- What flows over two stretches of a run is what flows over each. -/
theorem flow_append (p : Place) (past es : List Event) :
    flow V channels₀ p (past ++ es) = flow V channels₀ p past + flow V channels₀ p es := by
  simp only [flow, added_append, removed_append, List.map_append, List.sum_append]
  abel

/-! ## One step -/

section Step

variable {req : PropagatePaymentRequest} {channels channels' : Channels} {phase phase' : Phase}
  {es : List Event} {c c' : SimulatedChannel} {p : Place} {hash : PaymentHash} {x : HopHtlc}
  {d : SimulatedChannel} {s : Side}

/-- Adding an HTLC debits its sender's place and no other. -/
theorem Pushed.balance (hpush : Pushed hash x d s channels channels')
    (hplace : x.place channels₀ = some (x.ref.channelId, s)) (hc : channels.lookup p.1 = some c)
    (hc' : channels'.lookup p.1 = some c') :
    V.val (c'.node p.2).localBalanceMsat
      = V.val (c.node p.2).localBalanceMsat - debit V channels₀ p x := by
  obtain ⟨scid, t⟩ := p
  rw [hpush.result] at hc'
  rcases Table.lookup_insert_cases hc' with ⟨rfl, rfl⟩ | ⟨hid, hc'⟩
  · obtain rfl := Option.some.inj (hpush.found.symm.trans hc)
    rcases s.eq_or_eq_other t with rfl | rfl
    · rw [debit, if_pos hplace, SimulatedChannel.node_pushHtlc]
      exact V.val_sub hpush.accepts.balance
    · rw [debit, if_neg (by simp [hplace]), SimulatedChannel.node_other_pushHtlc, sub_zero]
  · -- another channel
    obtain rfl := Option.some.inj (hc.symm.trans hc')
    rw [debit, if_neg (by simp [hplace, Ne.symm hid]), sub_zero]

/-- Removing an HTLC credits the side it is owed to and no other. -/
theorem Popped.balance {success : Bool} (hpop : Popped hash x success d s channels channels')
    (hplace : x.place channels₀ = some (x.ref.channelId, s)) (hc : channels.lookup p.1 = some c)
    (hc' : channels'.lookup p.1 = some c') (hfit : V.Fits c) :
    V.val (c'.node p.2).localBalanceMsat
      = V.val (c.node p.2).localBalanceMsat + credit V channels₀ p (x, success) := by
  obtain ⟨scid, t⟩ := p
  rw [hpop.result] at hc'
  rcases Table.lookup_insert_cases hc' with ⟨rfl, rfl⟩ | ⟨hid, hc'⟩
  · obtain rfl := Option.some.inj (hpop.found.symm.trans hc)
    have hcredit := V.val_credit hfit hpop.entry t
    rcases s.eq_or_eq_other t with rfl | rfl
    · -- the sender's side
      cases success
      · rw [credit, if_pos (by simpa using hplace), SimulatedChannel.node_popHtlc]
        exact hcredit
      · rw [credit, if_neg (by simp [hplace, Place.opposite]), SimulatedChannel.node_popHtlc,
          add_zero]
        rfl
    · -- the receiver's side
      cases success
      · rw [credit, if_neg (by simp [hplace]), SimulatedChannel.node_other_popHtlc, add_zero]
        rfl
      · rw [credit, if_pos (by simp [hplace, Place.opposite]),
          SimulatedChannel.node_other_popHtlc]
        exact hcredit
  · -- another channel
    obtain rfl := Option.some.inj (hc.symm.trans hc')
    rw [credit, if_neg (by cases success <;> simp [hplace, Place.opposite, Ne.symm hid]), add_zero]

/-- A step changes a balance by its flow. -/
theorem Exchanged.balance (hs : Exchanged req channels es channels')
    (hnet : SameNetwork channels₀ channels) (hc : channels.lookup p.1 = some c)
    (hc' : channels'.lookup p.1 = some c') (hfit : V.Fits c) :
    V.val (c'.node p.2).localBalanceMsat
      = V.val (c.node p.2).localBalanceMsat + flow V channels₀ p es := by
  cases hs with
  | nothing hsame hadded hremoved =>
    rw [hsame p.1] at hc'
    obtain rfl := Option.some.inj (hc.symm.trans hc')
    simp [flow, hadded, hremoved]
  | pushed hpush hadded hremoved =>
    have hplace := (hnet.place _).symm.trans hpush.place
    simp [flow, hadded, hremoved, hpush.balance hplace hc hc', sub_eq_add_neg]
  | popped hpop hadded hremoved =>
    have hplace := (hnet.place _).symm.trans hpop.place
    simp [flow, hadded, hremoved, hpop.balance hplace hc hc' hfit]

end Step

/-! ## Runs -/

section Runs

variable {ι : Type} [DecidableEq ι] {reqs : ι → PropagatePaymentRequest} {channels : Channels}
  {w : World ι Channels Phase} {trace : List (ι × Event)}

/-- A channel whose sum fits the reading at the start fits it in every state of a run. -/
theorem run_fits (h : PaymentRun reqs channels trace w) {scid : ShortChannelID}
    {c₀ c : SimulatedChannel} (hc₀ : channels.lookup scid = some c₀)
    (hc : w.shared.lookup scid = some c) (hfit : V.Fits c₀) : V.Fits c := by
  have hinv := channel_invariant h
    (P := fun scid' d => ∀ d₀, channels.lookup scid' = some d₀ → V.Fits d₀ → V.Fits d)
    (fun scid' hash d d' hstep ih d₀ hd₀ hfit => V.fits_step hstep (ih d₀ hd₀ hfit))
    (fun scid' d hd d₀ hd₀ hfit => by
      obtain rfl := Option.some.inj (hd.symm.trans hd₀)
      exact hfit)
  exact hinv scid c hc c₀ hc₀ hfit

/-- The events of one more step are those of the process that took it. -/
theorem eventsOf_tail (trace : List (ι × Event)) (es : List Event) (k j : ι) :
    eventsOf j (trace ++ es.map (Prod.mk k)) = eventsOf j trace ++ if j = k then es else [] := by
  rw [eventsOf_append]
  by_cases hj : j = k
  · rw [hj, eventsOf_map_self, if_pos rfl]
  · rw [eventsOf_map_of_ne (Ne.symm hj), if_neg hj]

theorem flow_nil (p : Place) : flow V channels₀ p [] = 0 := by
  simp [flow, added, removed]

/-- A balance is its initial value plus the flow of every payment. Induction on the run. -/
theorem run_balance [Fintype ι] (h : PaymentRun reqs channels trace w) {scid : ShortChannelID}
    {c₀ c : SimulatedChannel} (hc₀ : channels.lookup scid = some c₀)
    (hc : w.shared.lookup scid = some c) (hfit : V.Fits c₀) (s : Side) :
    V.val (c.node s).localBalanceMsat = V.val (c₀.node s).localBalanceMsat
      + ∑ k, flow V channels (scid, s) (eventsOf k trace) := by
  induction h generalizing c with
  | refl =>
    obtain rfl := Option.some.inj (hc₀.symm.trans hc)
    simp [flow_nil]
  | @tail trace w k es shared next hrun hstep ih =>
    have hnet := run_sameNetwork hrun
    obtain ⟨d, hd, -⟩ := hnet.lookup hc₀
    have ih' := ih hd
    have hexchanged := Step.exchanged hstep (run_control hrun k) ((run_holding hrun).sane k)
    have hbalance := hexchanged.balance (p := (scid, s)) hnet hd hc (run_fits hrun hc₀ hd hfit)
    -- only the payment that took the step has moved anything
    have hflow : ∀ j, flow V channels (scid, s) (eventsOf j (trace ++ es.map (Prod.mk k)))
        = flow V channels (scid, s) (eventsOf j trace)
          + if j = k then flow V channels (scid, s) es else 0 := by
      intro j
      rw [eventsOf_tail, flow_append]
      by_cases hj : j = k
      · rw [if_pos hj, if_pos hj]
      · rw [if_neg hj, if_neg hj, flow_nil]
    simp only [hflow, Finset.sum_add_distrib, Finset.sum_ite_eq', Finset.mem_univ, if_true]
    rw [hbalance, ih', add_assoc]
    rfl

/-! ## What a finished payment has moved -/

variable {req : PropagatePaymentRequest} {past : List Event} {phase : Phase}

/-- What has been removed is what was added, backwards. -/
theorem Owned.removed_eq {channels : Channels} (h : Owned channels₀ req channels past phase)
    (hall : (removed past).length = (added past).length) :
    (removed past).map Prod.fst = (added past).reverse := by
  rw [h.control.log.removed_eq h.removes, hall, List.take_of_length_le (by simp)]

/-- The flow of a payment that has removed everything it added, all with the same success. -/
theorem flow_eq (hrev : (removed past).map Prod.fst = (added past).reverse) {success : Bool}
    (hflags : ∀ x ∈ removed past, x.2 = success) (p : Place) :
    flow V channels₀ p past
      = ((added past).map fun x => credit V channels₀ p (x, success)).sum
        - ((added past).map (debit V channels₀ p)).sum := by
  have hcredit : (removed past).map (credit V channels₀ p)
      = ((removed past).map Prod.fst).map fun x => credit V channels₀ p (x, success) := by
    rw [List.map_map]
    refine List.map_congr_left fun x hx => ?_
    rw [Function.comp_apply, ← hflags x hx]
  rw [flow, hcredit, hrev, List.map_reverse, List.sum_reverse]

/-- A failed payment has moved nothing. -/
theorem flow_failed (hrev : (removed past).map Prod.fst = (added past).reverse)
    (hflags : ∀ x ∈ removed past, x.2 = false) (p : Place) : flow V channels₀ p past = 0 := by
  rw [flow_eq hrev hflags]
  exact sub_self _

/-- The HTLC of hop `i` of the path goes from `p`: over that channel, sent by the node of that
side. -/
def Sends (req : PropagatePaymentRequest) (channels : Channels) (i : Nat) (p : Place) : Prop :=
  (req.route.hops[i]?).map (·.scid) = some p.1 ∧
    (channels.lookup p.1).bind (·.sideOf (req.sender i)) = some p.2

instance (req : PropagatePaymentRequest) (channels : Channels) (i : Nat) (p : Place) :
    Decidable (Sends req channels i p) := inferInstanceAs (Decidable (_ ∧ _))

/-- The HTLC amounts of the hops of the path that go from `p`. -/
def sent (V : Reading R) (channels : Channels) (p : Place) (req : PropagatePaymentRequest) : R :=
  ∑ i ∈ Finset.range req.route.hops.length,
    if Sends req channels i p then V.val (req.amountAt i) else 0

/-- The HTLC amounts of the hops of the path that arrive at `p`. -/
def received (V : Reading R) (channels : Channels) (p : Place) (req : PropagatePaymentRequest) : R :=
  sent V channels p.opposite req

/-- A hop's HTLC has its place at the channel side that the route sends it from. -/
theorem place_eq_some_iff_sends {x : HopHtlc} {i : Nat} (hon : x.On req i) (p : Place) :
    x.place channels₀ = some p ↔ Sends req channels₀ i p := by
  obtain ⟨hop, hhop, hid⟩ := hon.channel
  rw [place_eq_some, Sends, hhop, Option.map_some, Option.some.injEq, hid, hon.sender,
    Option.bind_eq_some_iff]

/-- What the HTLCs of a fully added path take from `p`. -/
theorem Log.sum_debit (h : Log req past)
    (hall : (added past).length = req.route.hops.length) (p : Place) :
    ((added past).map (debit V channels₀ p)).sum = sent V channels₀ p req := by
  rw [sent, ← hall, Finset.sum_range, ← List.sum_ofFn]
  congr 1
  refine List.ext_getElem (by simp) fun i hi hi' => ?_
  have hlt : i < (added past).length := by simpa using hi
  obtain ⟨hon, hhtlc⟩ := h.addedAt i _ (List.getElem?_eq_getElem hlt)
  rw [List.getElem_map, List.getElem_ofFn, debit, hhtlc]
  simp only [place_eq_some_iff_sends hon]
  rfl

/-- A successful payment has moved the amount of each hop from its sender to its receiver. -/
theorem Log.flow_succeeded (h : Log req past)
    (hadded : (added past).length = req.route.hops.length)
    (hrev : (removed past).map Prod.fst = (added past).reverse)
    (hflags : ∀ x ∈ removed past, x.2 = true) (p : Place) :
    flow V channels₀ p past = received V channels₀ p req - sent V channels₀ p req := by
  have hcredit : ∀ x : HopHtlc, credit V channels₀ p (x, true) = debit V channels₀ p.opposite x :=
    fun _ => rfl
  rw [flow_eq hrev hflags, received, ← h.sum_debit hadded p.opposite, ← h.sum_debit hadded p]
  simp only [hcredit]

def Phase.succeeded : Phase → Bool
  | .finished result => result.paymentOutcome = .success
  | _ => false

/-- What a payment that has removed all it added has moved, by its result alone. -/
theorem Reported.flow_eq {result : PaymentResult} (h : Reported req past result)
    (hlog : Log req past) (hrev : (removed past).map Prod.fst = (added past).reverse) (p : Place) :
    flow V channels₀ p past = if (Phase.finished result).succeeded then
      received V channels₀ p req - sent V channels₀ p req else 0 := by
  cases h with
  | unknown _ hremoved _ =>
    rw [flow_failed hrev (by simp [hremoved])]
    rfl
  | success hadded hflags _ _ =>
    rw [hlog.flow_succeeded hadded hrev hflags]
    rfl
  | failure hflags _ =>
    rw [flow_failed hrev hflags]
    rfl

/-- A finished payment holds nothing. -/
theorem Owned.held_finished {channels : Channels} {result : PaymentResult}
    (h : Owned channels₀ req channels past (.finished result)) (hok : ¬ HasCritical past) :
    held past = [] := by
  have hreported : Reported req past result := h.control.phase
  rw [held, (hreported.of_not_critical hok).1, Nat.sub_self, List.take_zero]

/-- No HTLC is in flight. -/
def Idle (channels : Channels) : Prop :=
  ∀ scid c s, channels.lookup scid = some c → (c.node s).inFlight = ∅

omit [DecidableEq ι] in
/-- Over idle channels every payment hash is free. -/
theorem Idle.hashesFree (h : Idle channels) (reqs : ι → PropagatePaymentRequest) :
    HashesFree reqs channels := by
  intro k scid c s hc
  rw [h scid c s hc]
  exact AList.notMem_empty _

/-- Whatever is in flight belongs to one of the payments. -/
theorem run_entry_hash (hidle : Idle channels) (h : PaymentRun reqs channels trace w) {p : Place}
    {hash : PaymentHash} {e : Htlc × UInt64} (he : entryAt w.shared p hash = some e) :
    ∃ k, (reqs k).paymentHash = hash := by
  refine h.shared_invariant (P := fun chs : Channels => ∀ p hash e, entryAt chs p hash = some e →
    ∃ k, (reqs k).paymentHash = hash) ?_ ?_ p hash e he
  · intro p hash e he
    obtain ⟨c, hc, hentry⟩ := Option.bind_eq_some_iff.mp he
    rw [hidle p.1 c p.2 hc] at hentry
    cases hentry
  · intro k chs phase es chs' phase' hs ih p hash e he
    by_cases hk : (reqs k).paymentHash = hash
    · exact ⟨k, hk⟩
    -- a step with another hash does not touch this entry
    · have hother : ∀ p', (p, hash) ≠ (p', (reqs k).paymentHash) := by
        intro p' heq
        exact hk (Prod.mk.inj heq).2.symm
      refine ih p hash e ?_
      cases Step.moved hs with
      | nothing hsame _ _ => rwa [← hsame.entryAt]
      | pushed hpush _ _ => rwa [← hpush.frame (hother _)]
      | popped hpop _ _ => rwa [← hpop.frame (hother _)]
      | insane hpop _ _ _ _ => rwa [← hpop.frame (hother _)]

/-- Once all payments have finished, what is left of their flows is what the successful ones have
sent and received. -/
theorem sum_flow_finished [Fintype ι] (hidle : Idle channels)
    (hdistinct : Function.Injective fun k => (reqs k).paymentHash)
    (h : PaymentRun reqs channels trace w) (hok : ∀ k e, (k, e) ∈ trace → e.isCritical = false)
    (hfinished : ∀ k, ∃ result, w.proc k = .finished result) (p : Place) :
    ∑ k, flow V channels p (eventsOf k trace)
      = (∑ k, if (w.proc k).succeeded then received V channels p (reqs k) else 0)
        - ∑ k, if (w.proc k).succeeded then sent V channels p (reqs k) else 0 := by
  rw [← Finset.sum_sub_distrib]
  refine Finset.sum_congr rfl fun k _ => ?_
  obtain ⟨result, hresult⟩ := hfinished k
  have howned := run_owned (hidle.hashesFree reqs) hdistinct h k
  have hcritical : ¬ HasCritical (eventsOf k trace) := by
    rintro ⟨e, he, hcritical⟩
    rw [hok k e (mem_eventsOf.mp he)] at hcritical
    cases hcritical
  rw [hresult] at howned ⊢
  have hreported : Reported (reqs k) _ result := howned.control.phase
  rw [hreported.flow_eq howned.control.log
    (howned.removed_eq (hreported.of_not_critical hcritical).1)]
  split <;> simp

/-- **Final balances.** Payments with distinct hashes run over an idle network in any order, without
a critical error, until all have finished. Then the network is idle again, and each balance is its
initial value without the HTLC amounts that the successful payments sent from it and with those
that they received there: in `u64` arithmetic, and exactly where the channel's funds fit in `u64`. -/
theorem final_balances [Fintype ι] (hidle : Idle channels)
    (hdistinct : Function.Injective fun k => (reqs k).paymentHash)
    (h : PaymentRun reqs channels trace w) (hok : ∀ k e, (k, e) ∈ trace → e.isCritical = false)
    (hfinished : ∀ k, ∃ result, w.proc k = .finished result) :
    Idle w.shared ∧
    ∀ scid c, w.shared.lookup scid = some c → ∃ c₀, channels.lookup scid = some c₀ ∧ ∀ s,
      (c.node s).localBalanceMsat = (c₀.node s).localBalanceMsat
        - (∑ k, if (w.proc k).succeeded then sent .wrapping channels (scid, s) (reqs k) else 0)
        + (∑ k, if (w.proc k).succeeded then received .wrapping channels (scid, s) (reqs k)
          else 0) ∧
      (c₀.exactBalance < 2 ^ 64 →
        ((c.node s).localBalanceMsat.toNat : ℤ) = (c₀.node s).localBalanceMsat.toNat
          - (∑ k, if (w.proc k).succeeded then sent .exact channels (scid, s) (reqs k) else 0)
          + (∑ k, if (w.proc k).succeeded then received .exact channels (scid, s) (reqs k)
            else 0)) := by
  constructor
  · intro scid c s hc
    refine Table.eq_empty_of_lookup fun hash => ?_
    by_contra hne
    obtain ⟨e, he⟩ := Option.ne_none_iff_exists'.mp hne
    have hentry : entryAt w.shared (scid, s) hash = some e := by
      rw [entryAt, hc]
      exact he
    obtain ⟨k, rfl⟩ := run_entry_hash hidle h hentry
    have howned := run_owned (hidle.hashesFree reqs) hdistinct h k
    obtain ⟨x, hx, -⟩ := howned.held_of_entry hentry
    obtain ⟨result, hresult⟩ := hfinished k
    rw [hresult] at howned
    have hsafe : ¬ HasCritical (eventsOf k trace) := by
      intro hcritical
      obtain ⟨e, he, hcritical⟩ := hcritical
      rw [hok k e (mem_eventsOf.mp he)] at hcritical
      cases hcritical
    rw [howned.held_finished hsafe] at hx
    cases hx
  · intro scid c hc
    obtain ⟨c₀, hc₀, -⟩ := (run_sameNetwork h).lookup' hc
    refine ⟨c₀, hc₀, fun s => ⟨?_, fun hfit => ?_⟩⟩
    · have hbalance := run_balance (V := .wrapping) h hc₀ hc trivial s
      rw [sum_flow_finished hidle hdistinct h hok hfinished] at hbalance
      rw [sub_add_eq_add_sub, add_sub_assoc]
      exact hbalance
    · have hbalance := run_balance (V := .exact) h hc₀ hc hfit s
      rw [sum_flow_finished hidle hdistinct h hok hfinished] at hbalance
      rw [sub_add_eq_add_sub, add_sub_assoc]
      exact hbalance

/-- Alice's payment to Carol, next to one to Bob that is larger than their channel allows. -/
def mixedPayments : Bool → PropagatePaymentRequest
  | true => aliceToCarol ⟨1⟩
  | false => { aliceToCarol ⟨2⟩ with route := ⟨[⟨bob, 700, 60000, 18⟩], by simp⟩ }

theorem mixedPayments_run : ∃ w, PaymentRun mixedPayments threeNodes
    [(true, .htlcAdded ⟨0, alice, ⟨⟨700⟩, 0⟩, ⟨20030, 58⟩⟩),
      (false, .addRefused 0 (.moreThanMaximum 60000 50000)),
      (false, .reported ⟨0, .indexFailure 0⟩),
      (true, .htlcAdded ⟨1, bob, ⟨⟨800⟩, 0⟩, ⟨20000, 18⟩⟩),
      (true, .htlcRemoved ⟨1, bob, ⟨⟨800⟩, 0⟩, ⟨20000, 18⟩⟩ true),
      (true, .htlcRemoved ⟨0, alice, ⟨⟨700⟩, 0⟩, ⟨20030, 58⟩⟩ true),
      (true, .reported ⟨1, .success⟩)] w ∧
    w.proc true = .finished ⟨1, .success⟩ ∧ w.proc false = .finished ⟨0, .indexFailure 0⟩ := by
  have h1 : PaymentRun mixedPayments threeNodes _ _ := PaymentRun.step .refl true (.add rfl)
  have h2 := h1.step false (.add rfl)
  have h3 := h2.step true (.intercept [] none rfl rfl)
  have h4 := h3.step true (.add rfl)
  have h5 := h4.step true (.intercept [] none rfl rfl)
  have h6 := h5.step true (.remove rfl)
  have h7 := h6.step true (.advance rfl)
  have h8 := h7.step true (.remove rfl)
  exact ⟨_, h8.step true (.advance rfl), rfl, rfl⟩

/-- Two payments of one network: one delivered, one refused, and every channel idle again. -/
theorem final_balances_mixedPayments :
    ∃ trace w, PaymentRun mixedPayments threeNodes trace w ∧
      (w.proc true).succeeded = true ∧ (w.proc false).succeeded = false ∧ Idle w.shared := by
  obtain ⟨w, hrun, htrue, hfalse⟩ := mixedPayments_run
  have hdistinct : Function.Injective fun k => (mixedPayments k).paymentHash := by
    intro a b hab
    cases a <;> cases b <;> first | rfl | exact absurd hab (by decide)
  have hfinished : ∀ k, ∃ result, w.proc k = .finished result := by
    intro k
    cases k
    · exact ⟨_, hfalse⟩
    · exact ⟨_, htrue⟩
  refine ⟨_, w, hrun, by rw [htrue]; rfl, by rw [hfalse]; rfl,
    (final_balances threeNodes_inFlight hdistinct hrun (fun k e he => ?_) hfinished).1⟩
  simp only [List.mem_cons, Prod.mk.injEq, List.not_mem_nil, or_false] at he
  rcases he with ⟨-, rfl⟩ | ⟨-, rfl⟩ | ⟨-, rfl⟩ | ⟨-, rfl⟩ | ⟨-, rfl⟩ | ⟨-, rfl⟩ | ⟨-, rfl⟩ <;> rfl

end Runs

end SimLn
