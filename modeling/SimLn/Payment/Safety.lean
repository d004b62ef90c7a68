import SimLn.Payment.Outcome
import SimLn.Payment.Progress
import SimLn.Payment.Funds
import SimLn.Channel.Operations

/-!
# SimLn — what can stop the simulation

A critical error of a payment shuts the simulation down. The channels have many to return, but not to
payments over routes that fit the network (`WellRouted`): on sane channels and under distinct hashes,
whatever the other payments do meanwhile, an HTLC is found where it was added, and every other error is
a refusal. So only an interceptor can shut the simulation down (`only_interceptors_stop`), and unless
one does, the payments leave an idle network behind (`run_settled`).

The crux is the place of the next HTLC. It is free because the payment holds HTLCs at the places of the
hops before only (`Owned.entries`), and those are other places.
-/

namespace SimLn

open Lib

/-! ## Routes that fit the network -/

/-- Each hop of the route goes from a place in the network of its own, carries something, and its fee
can be computed. -/
structure WellRouted (channels : Channels) (req : PropagatePaymentRequest) : Prop where
  sends : ∀ i < req.route.hops.length, ∃ p, Sends req channels i p
  once : ∀ i j p, Sends req channels i p → Sends req channels j p → i = j
  amount : ∀ i < req.route.hops.length, req.amountAt i ≠ 0
  fee : ∀ i p c, Sends req channels i p → channels.lookup p.1 = some c →
    FeeFits (c.node p.2).policy (req.amountAt i)

theorem sends_iff {req : PropagatePaymentRequest} {channels : Channels} {i : Nat} {p : Place} :
    Sends req channels i p ↔ ∃ hop c, req.route.hops[i]? = some hop ∧ hop.scid = p.1 ∧
      channels.lookup p.1 = some c ∧ c.sideOf (req.sender i) = some p.2 := by
  simp only [Sends, Option.map_eq_some_iff, Option.bind_eq_some_iff]
  constructor
  · rintro ⟨⟨hop, hhop, hid⟩, c, hc, hside⟩
    exact ⟨hop, c, hhop, hid, hc, hside⟩
  · rintro ⟨hop, c, hhop, hid, hc, hside⟩
    exact ⟨⟨hop, hhop, hid⟩, c, hc, hside⟩

/-- The hop, found in the network at a later time. -/
theorem WellRouted.found {channels₀ channels : Channels} {req : PropagatePaymentRequest} {i : Nat}
    {hop : RouteHop} (h : WellRouted channels₀ req) (hnet : SameNetwork channels₀ channels)
    (hhop : req.route.hops[i]? = some hop) :
    ∃ c s, channels.lookup hop.scid = some c ∧ c.sideOf (req.sender i) = some s ∧
      Sends req channels₀ i (hop.scid, s) ∧ FeeFits (c.node s).policy (req.amountAt i) := by
  obtain ⟨⟨scid, s⟩, hp⟩ := h.sends i (List.getElem?_eq_some_iff.mp hhop).1
  obtain ⟨hop', c₀, hhop', rfl, hc₀, hside⟩ := sends_iff.mp hp
  obtain rfl := Option.some.inj (hhop.symm.trans hhop')
  obtain ⟨c, hc, hterms⟩ := hnet.lookup hc₀
  refine ⟨c, s, hc, (hterms.sideOf _).trans hside, hp, ?_⟩
  rw [hterms.policy s]
  exact h.fee i _ c₀ hp hc₀

/-- The route from Alice over Bob to Carol has two hops. -/
theorem sends_aliceToCarol {hash : PaymentHash} {i : Nat} {p : Place}
    (h : Sends (aliceToCarol hash) threeNodes i p) :
    (i = 0 ∧ p = (⟨700⟩, .one)) ∨ (i = 1 ∧ p = (⟨800⟩, .one)) := by
  obtain ⟨hop, c, hhop, hid, hc, hside⟩ := sends_iff.mp h
  obtain ⟨scid, s⟩ := p
  match i, hhop with
  | 0, hhop =>
    obtain rfl := Option.some.inj hhop
    obtain rfl : (⟨700⟩ : ShortChannelID) = scid := hid
    obtain rfl := Option.some.inj ((show threeNodes.lookup ⟨700⟩ = some aliceBob from rfl).symm.trans hc)
    obtain rfl := Option.some.inj ((show aliceBob.sideOf alice = some .one from rfl).symm.trans hside)
    exact .inl ⟨rfl, rfl⟩
  | 1, hhop =>
    obtain rfl := Option.some.inj hhop
    obtain rfl : (⟨800⟩ : ShortChannelID) = scid := hid
    obtain rfl := Option.some.inj ((show threeNodes.lookup ⟨800⟩ = some bobCarol from rfl).symm.trans hc)
    obtain rfl := Option.some.inj ((show bobCarol.sideOf bob = some .one from rfl).symm.trans hside)
    exact .inr ⟨rfl, rfl⟩

theorem aliceToCarol_wellRouted (hash : PaymentHash) :
    WellRouted threeNodes (aliceToCarol hash) := by
  refine ⟨fun i hi => ?_, fun i j p hi hj => ?_, fun i hi => ?_, fun i p c hp hc => ?_⟩
  · match i, hi with
    | 0, _ => exact ⟨(⟨700⟩, .one), rfl, rfl⟩
    | 1, _ => exact ⟨(⟨800⟩, .one), rfl, rfl⟩
  · rcases sends_aliceToCarol hi with ⟨rfl, rfl⟩ | ⟨rfl, rfl⟩
    · rcases sends_aliceToCarol hj with ⟨rfl, -⟩ | ⟨-, hp⟩
      · rfl
      · exact absurd hp (by decide)
    · rcases sends_aliceToCarol hj with ⟨-, hp⟩ | ⟨rfl, -⟩
      · exact absurd hp (by decide)
      · rfl
  · match i, hi with
    | 0, _ => exact of_decide_eq_true rfl
    | 1, _ => exact of_decide_eq_true rfl
  · rcases sends_aliceToCarol hp with ⟨rfl, rfl⟩ | ⟨rfl, rfl⟩
    · obtain rfl := Option.some.inj ((show threeNodes.lookup ⟨700⟩ = some aliceBob from rfl).symm.trans hc)
      rw [show (aliceToCarol hash).amountAt 0 = 20030 from rfl]
      exact ⟨by decide, by decide⟩
    · obtain rfl := Option.some.inj ((show threeNodes.lookup ⟨800⟩ = some bobCarol from rfl).symm.trans hc)
      rw [show (aliceToCarol hash).amountAt 1 = 20000 from rfl]
      exact ⟨by decide, by decide⟩

/-! ## No channel operation fails critically -/

section Step

variable {channels₀ channels channels' : Channels} {req : PropagatePaymentRequest}
  {past es : List Event} {phase phase' : Phase} {loop : AddLoop} {hop : RouteHop}
  {c : SimulatedChannel} {s : Side}

/-- The next channel can be asked what it takes to forward. -/
theorem checkForward_answers (hrouted : WellRouted channels₀ req)
    (hnet : SameNetwork channels₀ channels) (hat : loop.At req)
    (hhop : req.route.hops[loop.i]? = some hop) :
    ∃ res, checkForward req loop hop channels = .ok res := by
  unfold checkForward
  cases hnext : req.route.hops[loop.i + 1]? with
  | none => exact ⟨_, rfl⟩
  | some next =>
    obtain ⟨c, s, hc, hside, -, hfits⟩ := hrouted.found hnet hnext
    have hlater : (loop.next hop ∅).At req :=
      hat.next hhop (List.getElem?_eq_some_iff.mp hnext).1
    have hamount : loop.outgoingAmount - hop.feeMsat = req.amountAt (loop.i + 1) := hlater.amount
    rw [PropagatePaymentRequest.sender_succ hhop] at hside
    simp only [hc, SimulatedChannel.checkHtlcForward_eq hside, hamount]
    exact ChannelState.checkHtlcForward_of_fits hfits _ _

/-- A sane channel that does not hold the payment's hash yet takes the HTLC or refuses it. -/
theorem addHop_no_channelError (hfound : channels.lookup hop.scid = some c)
    (hside : c.sideOf loop.outgoingNode = some s) (hsane : c.sanityCheck = .ok ())
    (hamt : loop.outgoingAmount ≠ 0) (hfresh : req.paymentHash ∉ (c.node s).inFlight)
    (hforward : ∃ res, checkForward req loop hop (channels.insert hop.scid
      (c.pushHtlc s req.paymentHash ⟨loop.outgoingAmount, loop.outgoingCltv⟩)) = .ok res)
    (i : Nat) (err : CriticalError) :
    .channelError i err ∉ (addHop req loop hop channels).1 := by
  by_cases hcheck : (c.node s).checkOutgoingAddition ⟨loop.outgoingAmount, loop.outgoingCltv⟩
      (c.node s.other).policy = .ok ()
  · have hadd := SimulatedChannel.addHtlc_accepts hsane hside hamt hcheck hfresh
    obtain ⟨res, hres⟩ := hforward
    -- the forward check does not read the failure index
    have hres' : checkForward req { loop with failIdx := some loop.i } hop (channels.insert hop.scid
        (c.pushHtlc s req.paymentHash ⟨loop.outgoingAmount, loop.outgoingCltv⟩)) = .ok res := hres
    simp only [addHop, hfound, hadd, hres']
    cases res with
    | ok u => simp
    | error fwdErr => simp [addsDone]
  · obtain ⟨fwdErr, hadd⟩ :=
      SimulatedChannel.addHtlc_refuses hsane hside hamt hcheck req.paymentHash
    simp only [addHop, hfound, hadd]
    cases loop.failIdx with
    | none => simp [addsDone]
    | some idx => simp [addsDone]

/-- The place of the next HTLC is free: the payment holds HTLCs of the hops before only. -/
theorem Owned.free (h : Owned channels₀ req channels past (.adding loop))
    (hrouted : WellRouted channels₀ req) {p : Place} (hp : Sends req channels₀ loop.i p) :
    entryAt channels p req.paymentHash = none := by
  by_contra hne
  obtain ⟨e, he⟩ := Option.ne_none_iff_exists'.mp hne
  obtain ⟨x, hx, hplace, -⟩ := h.held_of_entry he
  obtain ⟨-, hlength, -⟩ := h.control.phase
  have hget := h.control.getElem?_added (mem_held hx)
  have hlt := (List.getElem?_eq_some_iff.mp hget).1
  obtain ⟨hon, -⟩ := h.control.log.addedAt x.hop x hget
  have hsame := hrouted.once _ _ p ((place_eq_some_iff_sends hon p).mp hplace) hp
  omega

/-- The HTLC of the hop that `remove_htlcs` has come to is found there. -/
theorem Owned.found_removing {loop : RemoveLoop}
    (h : Owned channels₀ req channels past (.removing loop))
    (hhop : req.route.hops[loop.i]? = some hop) :
    ∃ c s e, channels.lookup hop.scid = some c ∧ c.sideOf (req.sender loop.i) = some s ∧
      (c.node s).inFlight.lookup req.paymentHash = some e := by
  have hat : loop.At req past (loop.i + 1) := h.control.phase
  have hleft := hat.left
  have hlt : loop.i < (held past).length := by
    rw [held, List.length_take]
    omega
  have hget := List.getElem?_eq_getElem hlt
  generalize (held past)[loop.i] = x at hget
  have hheld : x ∈ held past := List.mem_of_getElem? hget
  rw [held, List.getElem?_take_of_lt (by omega)] at hget
  obtain ⟨hon, -⟩ := h.control.log.addedAt loop.i x hget
  obtain ⟨p, hp⟩ := h.located x (mem_held hheld)
  have hentry := (h.entry_iff (mem_held hheld) hp).mpr hheld
  obtain ⟨hid, c, hc, hside⟩ := place_eq_some.mp ((h.net.place x).trans hp)
  obtain ⟨hop', hhop', hscid⟩ := hon.channel
  obtain rfl := Option.some.inj (hhop.symm.trans hhop')
  rw [entryAt, hc] at hentry
  exact ⟨c, p.2, _, by rw [← hscid, hid, hc], hon.sender ▸ hside, hentry⟩

/-- Over sane channels a well-routed payment's step is never a channel's critical error. -/
theorem Step.no_channelError (hs : Step req channels phase es channels' phase')
    (hrouted : WellRouted channels₀ req) (hsane : AllSane channels)
    (h : Owned channels₀ req channels past phase) (i : Nat) (err : CriticalError) :
    .channelError i err ∉ es := by
  cases phase with
  | adding loop =>
    cases hs with
    | @add _ hop hhop =>
      obtain ⟨hat, -⟩ := h.control.phase
      obtain ⟨c, s, hc, hside, hplace, -⟩ := hrouted.found h.net hhop
      have hfree := h.free hrouted hplace
      rw [entryAt, hc] at hfree
      rw [← hat.node] at hside
      have hpushed := SimulatedChannel.sameTerms_pushHtlc c s req.paymentHash
        ⟨loop.outgoingAmount, loop.outgoingCltv⟩
      refine addHop_no_channelError hc hside (hsane _ c hc) ?_ (AList.lookup_eq_none.mp hfree) ?_ i
        err
      · rw [hat.amount]
        exact hrouted.amount loop.i hat.lt
      · refine checkForward_answers hrouted (fun scid => ?_) hat hhop
        by_cases hscid : scid = hop.scid
        · obtain ⟨c₀, hc₀, hterms⟩ := h.net.lookup' hc
          rw [hscid, AList.lookup_insert, hc₀]
          exact .some (hterms.trans hpushed)
        · rw [AList.lookup_insert_ne hscid]
          exact h.net scid
  | removing loop =>
    cases hs with
    | @remove _ hop hhop =>
      obtain ⟨c, s, e, hc, hside, hentry⟩ := h.found_removing hhop
      have hremove := SimulatedChannel.removeHtlc_of_lookup hside hentry loop.success
      rw [SimulatedChannel.sanityCheck_popHtlc (hsane _ c hc) hentry] at hremove
      simp [removeHop, hc, hremove, Except.map]
  | intercepting loop request =>
    cases hs.transition with
    | interceptCritical | interceptRefusedFirst | interceptRefused | forwarded | received => simp
  | notifying loop resolution next =>
    cases hs.transition with
    | notifyCritical | notified | removeNext | removedAll => simp
  | finished result => cases hs

end Step

/-! ## Runs -/

section Runs

variable {ι : Type} [DecidableEq ι] {reqs : ι → PropagatePaymentRequest} {channels : Channels}
  {w : World ι Channels Phase} {trace : List (ι × Event)}

/-- Induction on the run. -/
theorem run_no_channelError (hsane : AllSane channels) (hfree : HashesFree reqs channels)
    (hdistinct : Function.Injective fun k => (reqs k).paymentHash)
    (hrouted : ∀ k, WellRouted channels (reqs k)) (h : PaymentRun reqs channels trace w) (k : ι)
    (i : Nat) (err : CriticalError) : (k, .channelError i err) ∉ trace := by
  induction h with
  | refl => simp
  | @tail trace w j es shared next hrun hstep ih =>
    intro hmem
    rcases List.mem_append.mp hmem with hmem | hmem
    · exact ih hmem
    · obtain ⟨e, he, heq⟩ := List.mem_map.mp hmem
      obtain ⟨rfl, rfl⟩ := Prod.mk.inj heq
      exact Step.no_channelError hstep (hrouted j) (run_allSane hsane hrun).1
        (run_owned hfree hdistinct hrun j) i err he

/-- An interceptor of payment `k` has failed critically. -/
def InterceptorFailed (trace : List (ι × Event)) (k : ι) : Prop :=
  ∃ i err, (k, .interceptError i err) ∈ trace ∨ (k, .notifyError i err) ∈ trace

/-- A critical error of a well-routed payment is an interceptor's. -/
theorem run_interceptorFailed (hsane : AllSane channels) (hfree : HashesFree reqs channels)
    (hdistinct : Function.Injective fun k => (reqs k).paymentHash)
    (hrouted : ∀ k, WellRouted channels (reqs k)) (h : PaymentRun reqs channels trace w) {k : ι}
    (hcritical : HasCritical (eventsOf k trace)) : InterceptorFailed trace k := by
  obtain ⟨e, he, hcritical⟩ := hcritical
  have hmem := mem_eventsOf.mp he
  cases e with
  | channelError i err =>
    exact absurd hmem (run_no_channelError hsane hfree hdistinct hrouted h k i err)
  | interceptError i err => exact ⟨i, err, .inl hmem⟩
  | notifyError i err => exact ⟨i, err, .inr hmem⟩
  | _ => cases hcritical

theorem threeNodes_allSane : AllSane threeNodes := by
  obtain ⟨g, hg, hchannels⟩ := new_threeNodes
  exact hchannels ▸ (allSane_new_iff threeNodes_built hg).mpr (by decide)

/-- An HTLC in flight belongs to a payment that is still running, unless that payment has met a critical
error. -/
theorem run_entry_unfinished (hidle : Idle channels)
    (hdistinct : Function.Injective fun k => (reqs k).paymentHash)
    (h : PaymentRun reqs channels trace w) (hok : ∀ k, ¬ HasCritical (eventsOf k trace)) {p : Place}
    {hash : PaymentHash} {e : Htlc × UInt64} (he : entryAt w.shared p hash = some e) :
    ∃ k, (reqs k).paymentHash = hash ∧ ∀ result, w.proc k ≠ .finished result := by
  obtain ⟨k, rfl⟩ := run_entry_hash hidle h he
  refine ⟨k, rfl, fun result hfinished => ?_⟩
  have howned := run_owned (hidle.hashesFree reqs) hdistinct h k
  obtain ⟨x, hx, -⟩ := howned.held_of_entry he
  rw [hfinished] at howned
  rw [howned.held_finished (hok k)] at hx
  cases hx

/-- The payments have all finished, each at its receiver or at a hop that failed it, and no HTLC is left
in a channel that is sane still. -/
structure Settled (w : World ι Channels Phase) : Prop where
  result : ∀ k, w.proc k = .finished ⟨1, .success⟩ ∨
    ∃ idx, w.proc k = .finished ⟨0, .indexFailure idx⟩
  idle : Idle w.shared
  sane : AllSane w.shared

/-- Payments that have all ended without a critical error have left an idle network idle. -/
theorem run_settled (hidle : Idle channels) (hsane : AllSane channels)
    (hdistinct : Function.Injective fun k => (reqs k).paymentHash)
    (h : PaymentRun reqs channels trace w) (hok : ∀ k, ¬ HasCritical (eventsOf k trace))
    (hfinished : ∀ k, ∃ result, w.proc k = .finished result) : Settled w := by
  refine ⟨fun k => ?_, fun scid c s hc => ?_, (run_allSane hsane h).1⟩
  · obtain ⟨result, hresult⟩ := hfinished k
    have hcontrol := run_control h k
    rw [hresult] at hcontrol ⊢
    have hreported : Reported (reqs k) (eventsOf k trace) result := hcontrol.phase
    cases hreported with
    | unknown hcritical => exact absurd hcritical (hok k)
    | success => exact .inl rfl
    | failure => exact .inr ⟨_, rfl⟩
  · refine Table.eq_empty_of_lookup fun hash => ?_
    by_contra hne
    obtain ⟨e, he⟩ := Option.ne_none_iff_exists'.mp hne
    have hentry : entryAt w.shared (scid, s) hash = some e := by
      rw [entryAt, hc]
      exact he
    obtain ⟨k, -, hrunning⟩ := run_entry_unfinished hidle hdistinct h hok hentry
    obtain ⟨result, hresult⟩ := hfinished k
    exact hrunning result hresult

end Runs

end SimLn
