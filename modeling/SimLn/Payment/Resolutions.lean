import SimLn.Payment.Interception

/-!
# SimLn — the resolutions of HTLCs

The two invariants of the calls, put together in every run: each HTLC that was added is resolved
once, last hop first (`resolved_once`). A resolution gives the outgoing channel of the request when
the HTLC has gone on over that channel (`outgoing_agrees_iff`), and there has been a request unless
the forward check failed (`resolved_intercepted_iff`).
-/

namespace SimLn

open Lib

section Runs

variable {ι : Type} [DecidableEq ι] {reqs : ι → PropagatePaymentRequest} {channels : Channels}
  {w : World ι Channels Phase} {trace : List (ι × Event)} {req : PropagatePaymentRequest}
  {past : List Event} {phase : Phase} {n : Nat}

/-! ## The calls in a run -/

theorem run_calls (h : PaymentRun reqs channels trace w) (k : ι) :
    Asked (reqs k) (eventsOf k trace) (w.proc k) ∧
      Notified (reqs k) (eventsOf k trace) (w.proc k) := by
  have hinv := h.local_invariant
    (I := fun k past phase => Control (reqs k) past phase ∧ Asked (reqs k) past phase ∧
      Notified (reqs k) past phase)
    (fun k => ⟨control_start (reqs k), asked_start (reqs k), notified_start (reqs k)⟩)
    fun _ _ _ _ _ _ _ hs ⟨hc, hasked, hnotified⟩ =>
      ⟨Step.control hs hc, Step.asked hs hc hasked, Step.notified hs hc hnotified⟩
  exact (hinv k).2

/-- In every run, what a payment has removed is the end of what it added, backwards. -/
theorem run_removed_eq (h : PaymentRun reqs channels trace w) (k : ι) :
    (removed (eventsOf k trace)).map Prod.fst
      = (added (eventsOf k trace)).reverse.take (removed (eventsOf k trace)).length :=
  (run_control h k).log.removed_eq ((run_holding h).removes k)

/-- The notices given so far are the first of those owed for the removed HTLCs. -/
theorem Notified.isPrefix (h : Notified req past phase) (hc : Control req past phase) :
    resolutions past <+: notices req past (removed past) := by
  cases phase with
  | adding loop | intercepting loop request =>
    have hnone : resolutions past = [] := h.notified
    rw [hnone]
    exact List.nil_prefix
  | removing loop =>
    rw [h.notified.1]
  | notifying loop resolution next => exact Notifying.isPrefix h.notified
  | finished result => exact h.notified.1

/-- The HTLCs of a payment are those of distinct hops, in order. -/
theorem Log.pairwise_hop (h : Log req past) :
    (added past).Pairwise fun x y => x.hop < y.hop := by
  rw [List.pairwise_iff_getElem]
  intro i j hi hj hlt
  rw [(h.addedAt i _ (List.getElem?_eq_getElem hi)).1.hop,
    (h.addedAt j _ (List.getElem?_eq_getElem hj)).1.hop]
  exact hlt

/-- `request` is the one in which interceptor `n` was asked about `x`: interceptors are asked about
HTLCs in the order in which these are added. -/
def RequestedFor (n : Nat) (past : List Event) (x : HopHtlc) (request : InterceptRequest) : Prop :=
  ∃ i : Nat, (added past)[i]? = some x ∧ (eventsOf n (requests past))[i]? = some request

/-- `resolution` is the one in which interceptor `n` was notified of `x`: they are notified of HTLCs
in the order in which these are removed. -/
def ResolvedFor (n : Nat) (past : List Event) (x : HopHtlc) (resolution : InterceptResolution) :
    Prop :=
  ∃ j : Nat, ((removed past)[j]?).map Prod.fst = some x ∧
    (eventsOf n (resolutions past))[j]? = some resolution

/-- A request for an HTLC asks about it. -/
theorem Asked.asks (h : Asked req past phase) {x : HopHtlc} {request : InterceptRequest}
    (hfor : RequestedFor n past x request) :
    Asks req x request ∧ n < req.interceptors.length := by
  obtain ⟨asked, habout, -⟩ := h
  obtain ⟨i, hx, hrequest⟩ := hfor
  have hn : n < req.interceptors.length := by
    have hmem := mem_eventsOf.mp (List.mem_of_getElem? hrequest)
    rw [habout.requests] at hmem
    exact (mem_callAll.mp hmem).1
  rw [habout.requests, eventsOf_callAll hn, List.getElem?_map, Option.map_eq_some_iff] at hrequest
  obtain ⟨a, ha, rfl⟩ := hrequest
  have hfst : (asked.map Prod.fst)[i]? = some a.1 := by rw [List.getElem?_map, ha, Option.map_some]
  obtain rfl : a.1 = x := by
    rw [getElem?_of_isPrefix habout.added hfst] at hx
    exact Option.some.inj hx
  exact ⟨habout.asks a (List.mem_of_getElem? ha), hn⟩

/-! ## Exactly one resolution -/

/-- **One resolution for each HTLC.** A payment that ran without a critical error has notified
every interceptor by the time it reports its result: once of each HTLC that it added, the last
first, with the reference under which it was added, the node that it arrived at and the success of
the payment. -/
theorem resolved_once (h : PaymentRun reqs channels trace w) {k : ι} {result : PaymentResult}
    (hfinished : w.proc k = .finished result)
    (hok : ∀ e, (k, e) ∈ trace → e.isCritical = false) :
    ∃ before, eventsOf k trace = before ++ [.reported result] ∧
      (added before).Pairwise (fun x y => x.hop < y.hop) ∧
      (resolutions before).map
          (fun r => (r.1, r.2.forwardingNode, r.2.incomingHtlc, r.2.success))
        = callAll (reqs k).interceptors.length
          (fun x => ((reqs k).sender (x.hop + 1), x.ref,
            decide (result.paymentOutcome = .success))) (added before).reverse ∧
      ∀ n x request, RequestedFor n before x request →
        request.forwardingNode = (reqs k).sender (x.hop + 1) ∧ request.incomingHtlc = x.ref := by
  obtain ⟨before, hbefore⟩ := run_reported h hfinished
  have hcritical : ¬ HasCritical (eventsOf k trace) := by
    rintro ⟨e, he, hcritical⟩
    rw [hok e (mem_eventsOf.mp he)] at hcritical
    cases hcritical
  have hcontrol := run_control h k
  obtain ⟨hasked, hnotified⟩ := run_calls h k
  have hremoved := run_removed_eq h k
  rw [hfinished] at hcontrol hnotified
  have hreported : Reported (reqs k) _ result := hcontrol.phase
  obtain ⟨hall, hflags⟩ := hreported.of_not_critical hcritical
  have hresolutions := hnotified.notified.2 hcritical
  -- all that was added has been removed, last first
  rw [hall, List.take_of_length_le (by simp)] at hremoved
  -- the result itself is no HTLC and no call
  have hadded : added (eventsOf k trace) = added before := by simp [hbefore, added, Event.added?]
  have hcalls : resolutions (eventsOf k trace) = resolutions before := by
    simp [hbefore, resolutions, Event.resolved?]
  have hrequests : requests (eventsOf k trace) = requests before := by
    simp [hbefore, requests, Event.intercepted?]
  refine ⟨before, hbefore, hadded ▸ hcontrol.log.pairwise_hop, ?_, fun n x request hfor => ?_⟩
  · rw [← hcalls, hresolutions, ← hadded, ← hremoved, callAll_map]
    refine (map_callAll _ _ 
      (fun r : InterceptResolution => (r.forwardingNode, r.incomingHtlc, r.success)) _).trans ?_
    refine callAll_congr fun x hx => ?_
    show ((reqs k).sender (x.1.hop + 1), x.1.ref, x.2) = _
    rw [hflags x hx]
  · have hfor' : RequestedFor n (eventsOf k trace) x request := by
      rw [RequestedFor, hadded, hrequests]
      exact hfor
    have hasks := (hasked.asks hfor').1
    exact ⟨hasks.forwardingNode, hasks.incomingHtlc⟩

/-- A payment over two hops that one interceptor watches. -/
def watchedPayment : PropagatePaymentRequest :=
  { aliceToCarol ⟨1⟩ with interceptors := [⟨"watcher"⟩] }

/-- The watcher lets the payment pass. -/
theorem watchedPayment_run :
    ∃ trace w, PaymentRun (fun _ : Unit => watchedPayment) threeNodes trace w ∧
      w.proc () = .finished ⟨1, .success⟩ ∧ (trace.all fun e => !e.2.isCritical) = true ∧
      ∃ x request resolution, x.hop = 0 ∧ RequestedFor 0 (eventsOf () trace) x request ∧
        ResolvedFor 0 (eventsOf () trace) x resolution := by
  have h1 : PaymentRun (fun _ : Unit => watchedPayment) threeNodes _ _ :=
    PaymentRun.step .refl () (.add rfl)
  have h2 := h1.step () (.intercept [.ok (.ok (.ok ∅))] none rfl rfl)
  have h3 := h2.step () (.add rfl)
  have h4 := h3.step () (.intercept [.ok (.ok (.ok ∅))] none rfl rfl)
  have h5 := h4.step () (.remove rfl)
  have h6 := h5.step () (.notify (.ok ()) Nat.one_pos)
  have h7 := h6.step () (.advance rfl)
  have h8 := h7.step () (.remove rfl)
  have h9 := h8.step () (.notify (.ok ()) Nat.one_pos)
  exact ⟨_, _, h9.step () (.advance rfl), rfl, rfl, _, _, _, rfl, ⟨0, rfl, rfl⟩, ⟨1, rfl, rfl⟩⟩

theorem resolved_once_watchedPayment :
    ∃ trace w before, PaymentRun (fun _ : Unit => watchedPayment) threeNodes trace w ∧
      eventsOf () trace = before ++ [.reported ⟨1, .success⟩] ∧
      (resolutions before).map
          (fun r => (r.1, r.2.forwardingNode, r.2.incomingHtlc, r.2.success))
        = callAll 1 (fun x => (watchedPayment.sender (x.hop + 1), x.ref, true))
          (added before).reverse := by
  obtain ⟨trace, w, hrun, hfinished, hok, -⟩ := watchedPayment_run
  obtain ⟨before, hbefore, -, hresolutions, -⟩ := resolved_once hrun hfinished fun e he => by
    simpa using List.all_eq_true.mp hok _ he
  exact ⟨trace, w, before, hrun, hbefore, hresolutions⟩

/-! ## The outgoing channel -/

/-- A resolution of an HTLC is the notice of its removal. -/
theorem Notified.resolution_eq (h : Notified req past phase) (hc : Control req past phase)
    {x : HopHtlc} {resolution : InterceptResolution} (hfor : ResolvedFor n past x resolution) :
    ∃ success, resolution = notice req (added past).length (x, success) := by
  obtain ⟨j, hx, hresolution⟩ := hfor
  have hpre := h.isPrefix hc
  have hn : n < req.interceptors.length := by
    have hmem := hpre.subset (mem_eventsOf.mp (List.mem_of_getElem? hresolution))
    exact (mem_callAll.mp hmem).1
  have hget := getElem?_of_isPrefix (hpre.filterMap _) hresolution
  change (eventsOf n (notices req past (removed past)))[j]? = some resolution at hget
  rw [notices, eventsOf_callAll hn, List.getElem?_map] at hget
  cases hj : (removed past)[j]? with
  | none => simp [hj] at hx
  | some r =>
    rw [hj] at hx hget
    obtain rfl := Option.some.inj hx
    exact ⟨r.2, (Option.some.inj hget).symm⟩

/-- The HTLCs added are those of the route's first hops. -/
theorem Log.exists_hop_iff (h : Log req past) (i : Nat) :
    (∃ y ∈ added past, y.hop = i) ↔ i < (added past).length := by
  constructor
  · rintro ⟨y, hy, rfl⟩
    obtain ⟨j, hj⟩ := List.mem_iff_getElem?.mp hy
    rw [(h.addedAt j y hj).1.hop]
    exact (List.getElem?_eq_some_iff.mp hj).1
  · intro hlt
    exact ⟨_, List.getElem_mem hlt, (h.addedAt i _ (List.getElem?_eq_getElem hlt)).1.hop⟩

/-- No more HTLCs are added than the path has hops. -/
theorem Log.added_le (h : Log req past) : (added past).length ≤ req.route.hops.length := by
  by_contra hgt
  have hlt : req.route.hops.length < (added past).length := by omega
  obtain ⟨hop, hhop, -⟩ := (h.addedAt _ _ (List.getElem?_eq_getElem hlt)).1.channel
  rw [List.getElem?_eq_none (le_refl _)] at hhop
  cases hhop

/-- **When request and resolution agree.** An interceptor that was asked about an HTLC is told of its
resolution with the same node and reference. It is told the same outgoing channel, which there is
for every node but the receiver, exactly when the HTLC of the next hop was added or there is no
next hop. -/
theorem outgoing_agrees_iff (h : PaymentRun reqs channels trace w) {k : ι} {x : HopHtlc}
    {request : InterceptRequest} {resolution : InterceptResolution}
    (hrequest : RequestedFor n (eventsOf k trace) x request)
    (hresolution : ResolvedFor n (eventsOf k trace) x resolution) :
    resolution.forwardingNode = request.forwardingNode ∧
      resolution.incomingHtlc = request.incomingHtlc ∧
      ((resolution.outgoingChannelId = request.outgoingChannelId ∧
          (resolution.outgoingChannelId = none ↔ x.hop + 1 = (reqs k).route.hops.length)) ↔
        (∃ y ∈ added (eventsOf k trace), y.hop = x.hop + 1) ∨
          x.hop + 1 = (reqs k).route.hops.length) := by
  have hcontrol := run_control h k
  obtain ⟨hasked, hnotified⟩ := run_calls h k
  have hasks := (hasked.asks hrequest).1
  obtain ⟨success, rfl⟩ := hnotified.resolution_eq hcontrol hresolution
  refine ⟨hasks.forwardingNode.symm, hasks.incomingHtlc.symm, ?_⟩
  rw [hcontrol.log.exists_hop_iff, hasks.outgoingChannelId]
  have hle := hcontrol.log.added_le
  -- the resolution goes by how many HTLCs were added, the request by the route
  have hx : x.hop < (added (eventsOf k trace)).length := by
    obtain ⟨i, hi, -⟩ := hrequest
    exact (hcontrol.log.exists_hop_iff _).mp ⟨x, List.mem_of_getElem? hi, rfl⟩
  simp only [notice, outgoingAt]
  by_cases hlt : x.hop + 1 < (added (eventsOf k trace)).length
  · have hne : x.hop + 1 ≠ (reqs k).route.hops.length := by omega
    -- the HTLC went on over the next channel, as it was asked
    rw [if_pos hlt, List.getElem?_eq_getElem (by omega)]
    simp [hlt, hne]
  · rw [if_neg hlt]
    by_cases hlast : x.hop + 1 = (reqs k).route.hops.length
    -- the receiver has no next channel
    · rw [List.getElem?_eq_none (by omega)]
      simp [hlast]
    · -- the payment failed at a hop that has a next one
      rw [List.getElem?_eq_getElem (by omega)]
      simp [hlt, hlast]

theorem outgoing_agrees_iff_watchedPayment :
    ∃ trace w x request resolution,
      PaymentRun (fun _ : Unit => watchedPayment) threeNodes trace w ∧
      RequestedFor 0 (eventsOf () trace) x request ∧
      ResolvedFor 0 (eventsOf () trace) x resolution ∧ x.hop = 0 ∧
      resolution.incomingHtlc = request.incomingHtlc := by
  obtain ⟨trace, w, hrun, -, -, x, request, resolution, hx, hrequest, hresolution⟩ :=
    watchedPayment_run
  have hagrees := outgoing_agrees_iff hrun hrequest hresolution
  exact ⟨trace, w, x, request, resolution, hrun, hrequest, hresolution, hx, hagrees.2.1⟩

/-- The watcher, asked whether Bob may forward over channel 800, refuses. It is then told that Bob
received the HTLC that failed. -/
theorem watchedPayment_refused_outgoing :
    ∃ trace w x request resolution,
      PaymentRun (fun _ : Unit => watchedPayment) threeNodes trace w ∧
      w.proc () = .finished ⟨0, .indexFailure 0⟩ ∧
      RequestedFor 0 (eventsOf () trace) x request ∧
      ResolvedFor 0 (eventsOf () trace) x resolution ∧
      request.outgoingChannelId = some ⟨800⟩ ∧ resolution.outgoingChannelId = none ∧
      resolution.forwardingNode = bob := by
  have h1 : PaymentRun (fun _ : Unit => watchedPayment) threeNodes _ _ :=
    PaymentRun.step .refl () (.add rfl)
  have h2 := h1.step () (.intercept [.ok (.ok (.error (.interceptorError "no")))] none rfl rfl)
  have h3 := h2.step () (.remove rfl)
  have h4 := h3.step () (.notify (.ok ()) Nat.one_pos)
  exact ⟨_, _, _, _, _, h4.step () (.advance rfl), rfl, ⟨0, rfl, rfl⟩, ⟨0, rfl, rfl⟩, rfl, rfl, rfl⟩

/-! ## The request before the resolution -/

/-- Nothing is added or asked once the first interceptor has been notified. -/
theorem Notified.before_resolved {pre post : List Event} {resolution : InterceptResolution}
    (h : Notified req (pre ++ .resolved n resolution :: post) phase) :
    added (pre ++ .resolved n resolution :: post) = added pre ∧
      requests (pre ++ .resolved n resolution :: post) = requests pre := by
  have horder := (List.pairwise_cons.mp (List.pairwise_append.mp h.order).2.1).1
  have hpost : ∀ e ∈ post, e.added? = none ∧ e.intercepted? = none := fun e he =>
    horder e he (by simp [Event.resolved?])
  constructor
  · rw [added_append, added, added, List.filterMap_cons,
      List.filterMap_eq_nil_iff.mpr fun e he => (hpost e he).1]
    exact List.append_nil _
  · rw [requests_append, requests, requests, List.filterMap_cons,
      List.filterMap_eq_nil_iff.mpr fun e he => (hpost e he).2]
    exact List.append_nil _

/-- A payment that has removed an HTLC does not end with an unknown outcome. -/
theorem Control.not_unknown (hc : Control req past phase) (hremoved : removed past ≠ []) :
    phase ≠ .finished ⟨0, .unknown⟩ := by
  rintro rfl
  cases hc.phase with
  | unknown _ hnone _ => exact hremoved hnone

/-- The interceptors have been asked about an HTLC exactly if its forward check did not refuse
it. -/
theorem Asked.requested_iff (h : Asked req past phase) (hc : Control req past phase)
    (hphase : phase ≠ .finished ⟨0, .unknown⟩) (hn : n < req.interceptors.length) {x : HopHtlc}
    (hx : x ∈ added past) :
    (∃ request, RequestedFor n past x request) ↔ ∀ err, Event.forwardRefused x.hop err ∉ past := by
  obtain ⟨asked, habout, hall⟩ := h
  have hat := hc.getElem?_added hx
  have hlt : x.hop < (added past).length := (List.getElem?_eq_some_iff.mp hat).1
  have hget : ∀ i : Nat, (eventsOf n (requests past))[i]? = (asked.map Prod.snd)[i]? := by
    intro i
    rw [habout.requests, eventsOf_callAll hn]
  constructor
  · rintro ⟨request, i, hi, hrequest⟩ err hmem
    -- the hop that was refused is the last one added, and was not asked about
    have hlast : x.hop + 1 = (added past).length := (hc.log.refusedAt _ hmem _ rfl).1
    have hi' : x.hop = i := (hc.log.addedAt i x hi).1.hop
    rw [hget, List.getElem?_map, Option.map_eq_some_iff] at hrequest
    obtain ⟨a, ha, -⟩ := hrequest
    have hasked := (List.getElem?_eq_some_iff.mp ha).1
    rcases hall hphase with ⟨-, hnone⟩ | ⟨hcount, -⟩
    · exact hnone _ _ hmem
    · omega
  · intro hnone
    have hasked : x.hop < asked.length := by
      rcases hall hphase with ⟨hcount, -⟩ | ⟨hcount, err, hmem⟩
      · omega
      · by_contra hge
        obtain heq : x.hop = asked.length := by omega
        exact hnone err (heq ▸ hmem)
    refine ⟨asked[x.hop].2, x.hop, hat, ?_⟩
    rw [hget, List.getElem?_map, List.getElem?_eq_getElem hasked]
    rfl

/-- **When a resolution follows a request.** Whenever an interceptor is notified, it is of an HTLC
that the payment has added, with the reference of that HTLC and the node it arrived at. The
interceptor has been asked about this HTLC before, under the same names, exactly if the HTLC was
not refused by the forward check of its hop. -/
theorem resolved_intercepted_iff (h : PaymentRun reqs channels trace w) {k : ι}
    {resolution : InterceptResolution} {pre post : List (ι × Event)}
    (htrace : trace = pre ++ (k, .resolved n resolution) :: post) :
    ∃ x ∈ added (eventsOf k pre),
      resolution.forwardingNode = (reqs k).sender (x.hop + 1) ∧ resolution.incomingHtlc = x.ref ∧
      ((∃ request, RequestedFor n (eventsOf k pre) x request ∧
          request.forwardingNode = resolution.forwardingNode ∧
          request.incomingHtlc = resolution.incomingHtlc) ↔
        ∀ err, (k, .forwardRefused x.hop err) ∉ trace) := by
  have hcontrol := run_control h k
  obtain ⟨hasked, hnotified⟩ := run_calls h k
  have hpast : eventsOf k trace = eventsOf k pre ++ .resolved n resolution :: eventsOf k post := by
    rw [htrace, eventsOf_append, eventsOf_cons, if_pos rfl]
  have hmem : (n, resolution) ∈ resolutions (eventsOf k trace) := by
    rw [hpast, resolutions_append]
    exact List.mem_append_right _ (.head _)
  obtain ⟨hn, ⟨x, success⟩, hx, rfl⟩ := mem_callAll.mp ((hnotified.isPrefix hcontrol).subset hmem)
  have hadded := (run_holding h).removes k x success hx
  have hphase := hcontrol.not_unknown (List.ne_nil_of_mem hx)
  have hbefore : added (eventsOf k trace) = added (eventsOf k pre) ∧
      requests (eventsOf k trace) = requests (eventsOf k pre) := by
    rw [hpast] at hnotified ⊢
    exact hnotified.before_resolved
  have hiff := hasked.requested_iff hcontrol hphase hn hadded
  -- nothing that matters has come after the notification
  have hfor : ∀ request, RequestedFor n (eventsOf k pre) x request ↔
      RequestedFor n (eventsOf k trace) x request := by
    intro request
    rw [RequestedFor, RequestedFor, hbefore.1, hbefore.2]
  refine ⟨x, hbefore.1 ▸ hadded, rfl, rfl, ?_⟩
  constructor
  · rintro ⟨request, hrequest, -, -⟩ err hrefused
    exact hiff.mp ⟨request, (hfor request).mp hrequest⟩ err (mem_eventsOf.mpr hrefused)
  · intro hnone
    obtain ⟨request, hrequest⟩ := hiff.mpr fun err hrefused => hnone err (mem_eventsOf.mp hrefused)
    have hasks := (hasked.asks hrequest).1
    exact ⟨request, (hfor request).mpr hrequest, hasks.forwardingNode, hasks.incomingHtlc⟩

/-- A payment that offers Bob no fee, watched by one interceptor. -/
def watchedStingyPayment : PropagatePaymentRequest :=
  { watchedPayment with
    route := ⟨[⟨bob, 700, 0, 40⟩, ⟨carol, 800, 20000, 18⟩], List.cons_ne_nil _ _⟩ }

/-- Bob's forward check fails the payment, and the watcher hears of an HTLC that it has never been
asked about. -/
theorem watchedStingyPayment_run :
    ∃ w resolution pre post, PaymentRun (fun _ : Unit => watchedStingyPayment) threeNodes
        (pre ++ ((), .resolved 0 resolution) :: post) w ∧
      requests (eventsOf () pre) = [] ∧
      ((), .forwardRefused 0 (.insufficientFee 0 10 1000 30)) ∈ pre := by
  have h1 : PaymentRun (fun _ : Unit => watchedStingyPayment) threeNodes _ _ :=
    PaymentRun.step .refl () (.add rfl)
  have h2 := h1.step () (.remove rfl)
  have h3 := h2.step () (.notify (.ok ()) Nat.one_pos)
  exact ⟨_, _, _, [], h3, rfl, .tail _ (.head _)⟩

theorem resolved_intercepted_iff_watchedStingyPayment :
    ∃ w resolution pre post, PaymentRun (fun _ : Unit => watchedStingyPayment) threeNodes
        (pre ++ ((), .resolved 0 resolution) :: post) w ∧
      ∃ x ∈ added (eventsOf () pre), resolution.incomingHtlc = x.ref := by
  obtain ⟨w, resolution, pre, post, hrun, -⟩ := watchedStingyPayment_run
  obtain ⟨x, hx, -, href, -⟩ := resolved_intercepted_iff hrun rfl
  exact ⟨w, resolution, pre, post, hrun, x, hx, href⟩

theorem watchedStingyPayment_not_intercepted :
    ∃ w resolution pre post, PaymentRun (fun _ : Unit => watchedStingyPayment) threeNodes
        (pre ++ ((), .resolved 0 resolution) :: post) w ∧
      ∀ request, ((), .intercepted 0 request) ∉ pre := by
  obtain ⟨w, resolution, pre, post, hrun, hnone, -⟩ := watchedStingyPayment_run
  refine ⟨w, resolution, pre, post, hrun, fun request hmem => ?_⟩
  have hcall : (0, request) ∈ requests (eventsOf () pre) :=
    List.mem_filterMap.mpr ⟨_, mem_eventsOf.mpr hmem, rfl⟩
  rw [hnone] at hcall
  cases hcall

end Runs

end SimLn
