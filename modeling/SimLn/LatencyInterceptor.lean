import SimLn.Payment.Earnings

/-!
# SimLn — the latency interceptor

The interceptor that the simulator ships with holds every HTLC up for a random time and then lets it
pass. `Step` leaves the answers of interceptors open; `ImplementedStep` takes them from an
implementation of the trait, here from that of the latency interceptor.

A payment that is held up does what it would do otherwise, later: each run with latency interceptors
has a run without any that does the same to the channels and reports the same, and the other way round
(`latency_only_delays`). What differs are the calls of the interceptors, and the custom records, which
do not get past a hop with an interceptor that attaches none. No channel looks at these. Nor do latency
interceptors fail, so that with them payments over routes that fit the network always settle
(`latency_settles`).

`Delayed` relates the two payments. A notification is a step of the delayed payment alone, so that it
may be several steps behind when the other takes the one at the end of an iteration.
-/

namespace SimLn

open Lib

/-! ## Implementations of the trait -/

/-- An implementation of the `Interceptor` trait: the answers that its calls may return. -/
structure InterceptorImpl where
  interceptHtlc : InterceptRequest → InterceptResult → Prop
  notifyResolution : InterceptResolution → Except CriticalError Unit → Prop

/-- The answers to a request, in the order in which the interceptors complete. -/
def Answered (impl : Interceptor → InterceptorImpl) (interceptors : List Interceptor)
    (request : InterceptRequest) (answers : List (Except String InterceptResult)) : Prop :=
  ∃ results, List.Forall₂ (fun i result => (impl i).interceptHtlc request result) interceptors
    results ∧ answers.Perm (results.map .ok)

/-- A step of the task whose interceptors are implemented by `impl`. -/
inductive ImplementedStep (impl : Interceptor → InterceptorImpl) (req : PropagatePaymentRequest) :
    Channels → Phase → List Event → Channels → Phase → Prop where
  | add {channels : Channels} {loop : AddLoop} {hop : RouteHop}
      (hhop : req.route.hops[loop.i]? = some hop) :
      ImplementedStep impl req channels (.adding loop) (addHop req loop hop channels).1
        (addHop req loop hop channels).2.1 (addHop req loop hop channels).2.2
  | intercept {channels : Channels} {loop : AddLoop} {request : InterceptRequest} {hop : RouteHop}
      (answers : List (Except String InterceptResult)) (shutdown : Option Nat)
      (hhop : req.route.hops[loop.i]? = some hop)
      (hanswers : Answered impl req.interceptors request answers) :
      ImplementedStep impl req channels (.intercepting loop request)
        (interceptHop req loop hop request answers shutdown).1 channels
        (interceptHop req loop hop request answers shutdown).2
  | remove {channels : Channels} {loop : RemoveLoop} {hop : RouteHop}
      (hhop : req.route.hops[loop.i]? = some hop) :
      ImplementedStep impl req channels (.removing loop) (removeHop req loop hop channels).1
        (removeHop req loop hop channels).2.1 (removeHop req loop hop channels).2.2
  | notify {channels : Channels} {loop : RemoveLoop} {resolution : InterceptResolution}
      {next : Nat} {interceptor : Interceptor} (answer : Except CriticalError Unit)
      (hnext : req.interceptors[next]? = some interceptor)
      (hanswer : (impl interceptor).notifyResolution resolution answer) :
      ImplementedStep impl req channels (.notifying loop resolution next)
        (notifyInterceptor loop resolution next answer).1 channels
        (notifyInterceptor loop resolution next answer).2
  | advance {channels : Channels} {loop : RemoveLoop} {resolution : InterceptResolution}
      {hop : RouteHop} (hhop : req.route.hops[loop.i]? = some hop) :
      ImplementedStep impl req channels (.notifying loop resolution req.interceptors.length)
        (removeNext loop hop).1 channels (removeNext loop hop).2

/-- Payments propagating over one network, with interceptors implemented by `impl`. -/
def implementedPayments {ι : Type} (impl : Interceptor → InterceptorImpl)
    (reqs : ι → PropagatePaymentRequest) : System ι Channels Phase Event where
  step k channels phase events channels' phase' :=
    ImplementedStep impl (reqs k) channels phase events channels' phase'

/-- The default `notify_resolution` of the trait does nothing. -/
def notifyNothing (_ : InterceptResolution) (answer : Except CriticalError Unit) : Prop :=
  answer = .ok ()

namespace LatencyIntercepor

/-- What the wait of `intercept_htlc` ends with. -/
inductive Wakeup where
  | shutdown
  | slept
  deriving DecidableEq, Repr

/-- Introduces a random sleep time on the HTLC. -/
def interceptHtlc : Wakeup → InterceptResult
  | .shutdown => .ok (.ok ∅)
  | .slept => .ok (.ok ∅)

def impl : InterceptorImpl where
  interceptHtlc _ result := ∃ wakeup, result = interceptHtlc wakeup
  notifyResolution := notifyNothing

end LatencyIntercepor

section Step

variable {impl : Interceptor → InterceptorImpl} {req : PropagatePaymentRequest}
  {channels channels' : Channels} {phase phase' : Phase} {es : List Event}

/-- A step with interceptors that compute their answers is a step of the payment. -/
theorem ImplementedStep.step (hs : ImplementedStep impl req channels phase es channels' phase') :
    Step req channels phase es channels' phase' := by
  cases hs with
  | add hhop => exact .add hhop
  | intercept answers shutdown hhop hanswers =>
    obtain ⟨results, hresults, hperm⟩ := hanswers
    refine .intercept answers shutdown hhop ?_
    rw [hperm.length_eq, List.length_map, hresults.length_eq]
  | remove hhop => exact .remove hhop
  | notify answer hnext hanswer => exact .notify answer (List.getElem?_eq_some_iff.mp hnext).1
  | advance hhop => exact .advance hhop

/-! ## The answers of latency interceptors -/

/-- All interceptors are latency interceptors. -/
def latency (_ : Interceptor) : InterceptorImpl := LatencyIntercepor.impl

/-- A latency interceptor accepts every HTLC and attaches nothing to it. -/
theorem eq_of_answered_latency {interceptors : List Interceptor} {request : InterceptRequest}
    {answers : List (Except String InterceptResult)}
    (h : Answered latency interceptors request answers) :
    ∀ answer ∈ answers, answer = .ok (.ok (.ok ∅)) := by
  obtain ⟨results, hresults, hperm⟩ := h
  intro answer hanswer
  obtain ⟨result, hresult, rfl⟩ := List.mem_map.mp (hperm.mem_iff.mp hanswer)
  obtain ⟨interceptor, -, wakeup, rfl⟩ := exists_of_mem_forall₂ hresults hresult
  cases wakeup with
  | shutdown => rfl
  | slept => rfl

/-- Nothing is attached and nothing refused, whenever the shutdown signal comes. Induction on the
answers. -/
theorem collectAnswers_latency {answers : List (Except String InterceptResult)}
    (h : ∀ answer ∈ answers, answer = .ok (.ok (.ok ∅))) (shutdown : Option Nat)
    (attached : CustomRecords) :
    collectAnswers answers shutdown attached none = .ok (.ok attached) := by
  induction answers generalizing shutdown with
  | nil => rw [collectAnswers, collectAnswers.finish]
  | cons answer rest ih =>
    obtain rfl := h answer (.head _)
    have ih' := ih fun answer hanswer => h answer (.tail _ hanswer)
    match shutdown with
    | some 0 => rw [collectAnswers, collectAnswers.finish]
    | some (n + 1) => exact ih' (some n)
    | none => exact ih' none

/-- The HTLC goes on. -/
theorem handleInterceptedHtlc_latency {interceptors : List Interceptor} {request : InterceptRequest}
    {answers : List (Except String InterceptResult)}
    (h : Answered latency interceptors request answers) (shutdown : Option Nat) :
    ∃ records, handleInterceptedHtlc request interceptors answers shutdown = .ok (.ok records) := by
  cases interceptors with
  | nil => exact ⟨_, rfl⟩
  | cons interceptor rest => exact ⟨_, collectAnswers_latency (eq_of_answered_latency h) shutdown ∅⟩

/-! ## The payment without interceptors -/

/-- The same payment, with no interceptors. -/
def PropagatePaymentRequest.undelayed (req : PropagatePaymentRequest) : PropagatePaymentRequest :=
  { req with interceptors := [] }

/-- What an event says but for the calls of interceptors. -/
def Event.essential : Event → Option Event
  | .intercepted _ _ => none
  | .resolved _ _ => none
  | e => some e

/-- Where the delayed payment stands when the other stands at the second phase. -/
inductive Delayed (req : PropagatePaymentRequest) : Phase → Phase → Prop where
  | adding (loop : AddLoop) (records : CustomRecords) :
      Delayed req (.adding loop) (.adding { loop with incomingCustomRecords := records })
  | intercepting (loop : AddLoop) (records : CustomRecords) (request request' : InterceptRequest) :
      Delayed req (.intercepting loop request)
        (.intercepting { loop with incomingCustomRecords := records } request')
  | removing (loop : RemoveLoop) : Delayed req (.removing loop) (.removing loop)
  | notifying (loop : RemoveLoop) (resolution : InterceptResolution) {next : Nat}
      (hnext : next ≤ req.interceptors.length) :
      Delayed req (.notifying loop resolution next) (.notifying loop resolution 0)
  | finished (result : PaymentResult) : Delayed req (.finished result) (.finished result)

/-- The two payments do the same to the channels, emit the same but for the calls, and come to phases
that are related. -/
structure AlikeUndelayed (req : PropagatePaymentRequest)
    (delayed other : List Event × Channels × Phase) : Prop where
  channels : other.2.1 = delayed.2.1
  phase : Delayed req delayed.2.2 other.2.2
  events : other.1.filterMap Event.essential = delayed.1.filterMap Event.essential

/-- Once `add_htlcs` has returned, the two go on alike. -/
theorem alike_addsDone (req : PropagatePaymentRequest) (es : List Event) (channels : Channels)
    (result : Except CriticalError (Except (Option Nat) Unit)) :
    AlikeUndelayed req (es ++ (addsDone req result).1, channels, (addsDone req result).2)
      (es ++ (addsDone req.undelayed result).1, channels, (addsDone req.undelayed result).2) := by
  match result with
  | .ok (.ok ()) => exact ⟨rfl, .removing _, rfl⟩
  | .ok (.error (some idx)) => exact ⟨rfl, .removing _, rfl⟩
  | .ok (.error none) => exact ⟨rfl, .finished _, rfl⟩
  | .error err => exact ⟨rfl, .finished _, rfl⟩

/-- The calls of interceptors are not essential. -/
theorem essential_intercepted (n : Nat) (request : InterceptRequest) :
    ((List.range n).map (Event.intercepted · request)).filterMap Event.essential = [] := by
  simp [List.filterMap_eq_nil_iff, Event.essential]

/-- A hop is added the same way with and without latency, whatever records travel with it. -/
theorem addHop_alike (req : PropagatePaymentRequest) (loop : AddLoop) (records : CustomRecords)
    (hop : RouteHop) (channels : Channels) :
    AlikeUndelayed req (addHop req loop hop channels)
      (addHop req.undelayed { loop with incomingCustomRecords := records } hop channels) := by
  -- neither check reads the interceptors or the records
  have hcheck : ∀ idx chs, checkForward req.undelayed
      { { loop with incomingCustomRecords := records } with failIdx := idx } hop chs
      = checkForward req { loop with failIdx := idx } hop chs := fun _ _ => rfl
  have hadd : ∀ c : SimulatedChannel, c.addHtlc loop.outgoingNode req.undelayed.paymentHash
      ⟨loop.outgoingAmount, loop.outgoingCltv⟩ = c.addHtlc loop.outgoingNode req.paymentHash
      ⟨loop.outgoingAmount, loop.outgoingCltv⟩ := fun _ => rfl
  cases hc : channels.lookup hop.scid with
  | none =>
    simp only [addHop, hc]
    exact alike_addsDone req [_] _ _
  | some c =>
    simp only [addHop, hc, hadd]
    generalize c.addHtlc loop.outgoingNode req.paymentHash
      ⟨loop.outgoingAmount, loop.outgoingCltv⟩ = added
    rcases added with ⟨err | fwdErr | index, c'⟩
    · exact alike_addsDone req [_] _ _
    · exact alike_addsDone req [_] _ _
    · simp only [hcheck]
      generalize checkForward req { loop with failIdx := some loop.i } hop
        (channels.insert hop.scid c') = check
      rcases check with err | fwdErr | accepted
      · exact alike_addsDone req [_, _] _ _
      · exact alike_addsDone req [_, _] _ _
      · refine ⟨rfl, .intercepting _ records _ _, ?_⟩
        simp only [List.filterMap_cons, Event.essential, essential_intercepted]

/-- The latency interceptors' answers let the hop pass, as having no interceptor does. -/
theorem interceptHop_alike (loop : AddLoop) (hop : RouteHop) (records : CustomRecords)
    {request : InterceptRequest} (request' : InterceptRequest)
    {answers : List (Except String InterceptResult)}
    (h : Answered latency req.interceptors request answers) (shutdown shutdown' : Option Nat)
    (channels : Channels) :
    AlikeUndelayed req ((interceptHop req loop hop request answers shutdown).1, channels,
        (interceptHop req loop hop request answers shutdown).2)
      ((interceptHop req.undelayed { loop with incomingCustomRecords := records } hop request' []
          shutdown').1, channels,
        (interceptHop req.undelayed { loop with incomingCustomRecords := records } hop request' []
          shutdown').2) := by
  obtain ⟨attached, hattached⟩ := handleInterceptedHtlc_latency h shutdown
  have hundelayed : handleInterceptedHtlc request' req.undelayed.interceptors [] shutdown'
      = .ok (.ok request'.incomingCustomRecords) := rfl
  have hlength : req.undelayed.route.hops.length = req.route.hops.length := rfl
  simp only [interceptHop, hattached, hundelayed, hlength]
  by_cases hlt : loop.i + 1 < req.route.hops.length
  · simp only [if_pos hlt]
    exact ⟨rfl, .adding _ _, rfl⟩
  · simp only [if_neg hlt]
    exact alike_addsDone req [] channels (.ok (.ok ()))

/-- A hop is removed the same way with and without latency. -/
theorem removeHop_alike (req : PropagatePaymentRequest) (loop : RemoveLoop) (hop : RouteHop)
    (channels : Channels) :
    AlikeUndelayed req (removeHop req loop hop channels)
      (removeHop req.undelayed loop hop channels) := by
  have hremove : ∀ c : SimulatedChannel, c.removeHtlc (req.undelayed.sender loop.i)
      req.undelayed.paymentHash loop.success
      = c.removeHtlc (req.sender loop.i) req.paymentHash loop.success := fun _ => rfl
  cases hc : channels.lookup hop.scid with
  | none =>
    simp only [removeHop, hc]
    exact ⟨rfl, .finished _, rfl⟩
  | some c =>
    simp only [removeHop, hc, hremove]
    generalize c.removeHtlc (req.sender loop.i) req.paymentHash loop.success = removed
    rcases removed with ⟨err | ⟨htlc, index⟩, c'⟩
    · exact ⟨rfl, .finished _, rfl⟩
    · exact ⟨rfl, .notifying _ _ (Nat.zero_le _), rfl⟩

/-- The removal loop goes on the same way with and without latency. -/
theorem removeNext_alike (req : PropagatePaymentRequest) (loop : RemoveLoop) (hop : RouteHop)
    (channels : Channels) :
    AlikeUndelayed req ((removeNext loop hop).1, channels, (removeNext loop hop).2)
      ((removeNext loop hop).1, channels, (removeNext loop hop).2) := by
  unfold removeNext
  cases loop.i with
  | zero => exact ⟨rfl, .finished _, rfl⟩
  | succ i => exact ⟨rfl, .removing _, rfl⟩

/-! ## One step -/

variable {ι : Type} {reqs : ι → PropagatePaymentRequest} {k : ι} {other other' : Phase}

/-- The other payment takes the same step, or none while an interceptor is notified. -/
theorem ImplementedStep.undelayed
    (hs : ImplementedStep latency (reqs k) channels phase es channels' phase')
    (hdelayed : Delayed (reqs k) phase other) : ∃ es' other',
      (payments fun k => (reqs k).undelayed).Alone k channels other es' channels' other' ∧
        Delayed (reqs k) phase' other' ∧
        es'.filterMap Event.essential = es.filterMap Event.essential := by
  cases hs with
  | @add loop hop hhop =>
    cases hdelayed with
    | adding _ records =>
      have halike := addHop_alike (reqs k) loop records hop channels
      rw [← halike.channels]
      exact ⟨_, _, .single (.add hhop), halike.phase, halike.events⟩
  | @intercept loop request hop answers shutdown hhop hanswers =>
    cases hdelayed with
    | intercepting _ records _ request' =>
      have halike := interceptHop_alike loop hop records request' hanswers shutdown none channels
      exact ⟨_, _, .single (.intercept [] none hhop rfl), halike.phase, halike.events⟩
  | @remove loop hop hhop =>
    cases hdelayed with
    | removing =>
      have halike := removeHop_alike (reqs k) loop hop channels
      rw [← halike.channels]
      exact ⟨_, _, .single (.remove hhop), halike.phase, halike.events⟩
  | notify answer hnext hanswer =>
    cases hdelayed with
    | notifying loop resolution _ =>
      obtain rfl : answer = .ok () := hanswer
      exact ⟨_, _, .refl, .notifying _ _ (List.getElem?_eq_some_iff.mp hnext).1, rfl⟩
  | @advance loop resolution hop hhop =>
    cases hdelayed with
    | notifying _ _ _ =>
      have halike := removeNext_alike (reqs k) loop hop channels
      exact ⟨_, _, .single (.advance hhop), halike.phase, halike.events⟩

/-- The interceptors that are left are notified, one after the other. Induction on their number. -/
theorem alone_notify (reqs : ι → PropagatePaymentRequest) (k : ι) (loop : RemoveLoop)
    (resolution : InterceptResolution) {left next : Nat}
    (hleft : next + left = (reqs k).interceptors.length) (channels : Channels) :
    ∃ es, (implementedPayments latency reqs).Alone k channels (.notifying loop resolution next) es
        channels (.notifying loop resolution (reqs k).interceptors.length) ∧
      es.filterMap Event.essential = [] := by
  induction left generalizing next with
  | zero =>
    obtain rfl : next = (reqs k).interceptors.length := hleft
    exact ⟨[], .refl, rfl⟩
  | succ left ih =>
    have hleft' : next + 1 + left = (reqs k).interceptors.length := by omega
    obtain ⟨es, halone, hes⟩ := ih hleft'
    have hlt : next < (reqs k).interceptors.length := by omega
    have hnotify : (implementedPayments latency reqs).step k channels
        (.notifying loop resolution next) [.resolved next resolution] channels
        (.notifying loop resolution (next + 1)) :=
      .notify (.ok ()) (List.getElem?_eq_getElem hlt) rfl
    refine ⟨[.resolved next resolution] ++ es, halone.head hnotify, ?_⟩
    rw [List.filterMap_append, hes]
    rfl

/-- Latency interceptors can answer. -/
theorem answered_latency (interceptors : List Interceptor) (request : InterceptRequest) :
    Answered latency interceptors request
      (interceptors.map fun _ => .ok (LatencyIntercepor.interceptHtlc .slept)) := by
  refine ⟨interceptors.map fun _ => LatencyIntercepor.interceptHtlc .slept, ?_, by simp⟩
  rw [List.forall₂_map_right_iff]
  exact List.forall₂_same.mpr fun _ _ => ⟨.slept, rfl⟩

/-- The delayed payment takes the same step, after the notifications that it is behind with. -/
theorem Step.delayed
    (hs : Step (reqs k).undelayed channels other es channels' other')
    (hdelayed : Delayed (reqs k) phase other) : ∃ es' phase',
      (implementedPayments latency reqs).Alone k channels phase es' channels' phase' ∧
        Delayed (reqs k) phase' other' ∧
        es'.filterMap Event.essential = es.filterMap Event.essential := by
  cases hdelayed with
  | adding loop records =>
    cases hs with
    | @add _ hop hhop =>
      have halike := addHop_alike (reqs k) loop records hop channels
      rw [halike.channels]
      exact ⟨_, _, .single (.add hhop), halike.phase, halike.events.symm⟩
  | intercepting loop records request request' =>
    cases hs with
    | @intercept _ _ hop answers shutdown hhop hlength =>
      obtain rfl := List.length_eq_zero_iff.mp hlength
      have hanswered := answered_latency (reqs k).interceptors request
      have halike := interceptHop_alike loop hop records request' hanswered none shutdown channels
      exact ⟨_, _, .single (.intercept _ none hhop hanswered), halike.phase, halike.events.symm⟩
  | removing loop =>
    cases hs with
    | @remove _ hop hhop =>
      have halike := removeHop_alike (reqs k) loop hop channels
      rw [halike.channels]
      exact ⟨_, _, .single (.remove hhop), halike.phase, halike.events.symm⟩
  | @notifying loop resolution next hnext =>
    cases hs with
    | notify answer hlt => exact absurd hlt (Nat.not_lt_zero _)
    | @advance _ _ hop hhop =>
      obtain ⟨es', halone, hes'⟩ :=
        alone_notify reqs k loop resolution (Nat.add_sub_cancel' hnext) channels
      have halike := removeNext_alike (reqs k) loop hop channels
      refine ⟨_, _, halone.tail (.advance hhop), halike.phase, ?_⟩
      rw [List.filterMap_append, hes', List.nil_append]
  | finished result => cases hs

end Step

/-! ## Runs -/

/-- A payment and its undelayed one start alike. -/
theorem delayed_start (req : PropagatePaymentRequest) :
    Delayed req req.start req.undelayed.start :=
  .adding _ _

/-- Both have ended or neither has, with one result. -/
theorem Delayed.finished_iff {req : PropagatePaymentRequest} {phase other : Phase}
    (h : Delayed req phase other) (result : PaymentResult) :
    phase = .finished result ↔ other = .finished result := by
  cases h with
  | adding | intercepting | removing | notifying => simp
  | finished r => exact Iff.rfl

section Runs

variable {ι : Type} [DecidableEq ι]

/-- The two runs have done the same to the channels, their payments have finished with the same results,
and they have emitted the same but for the calls of interceptors. -/
structure SameButDelayed (trace trace' : List (ι × Event)) (w w' : World ι Channels Phase) :
    Prop where
  channels : w'.shared = w.shared
  results : ∀ k result, w.proc k = .finished result ↔ w'.proc k = .finished result
  events : observed (fun _ => Event.essential) trace'
    = observed (fun _ => Event.essential) trace

/-- A run with an implementation is one of those with whatever answers. -/
theorem PaymentRun.of_implemented {impl : Interceptor → InterceptorImpl}
    {reqs : ι → PropagatePaymentRequest} {channels : Channels} {trace : List (ι × Event)}
    {w : World ι Channels Phase}
    (h : (implementedPayments impl reqs).Run (dispatched reqs channels) trace w) :
    PaymentRun reqs channels trace w :=
  h.mono fun _ _ _ _ _ _ hs => ImplementedStep.step hs

/-- **Latency only delays.** Whatever payments with latency interceptors do, they do without interceptors
too, and the other way round: with the same effect on the channels, the same results and the same
events, but for the calls. -/
theorem latency_only_delays (reqs : ι → PropagatePaymentRequest) (channels : Channels) :
    (∀ trace w, (implementedPayments latency reqs).Run (dispatched reqs channels) trace w →
      ∃ trace' w', PaymentRun (fun k => (reqs k).undelayed) channels trace' w' ∧
        SameButDelayed trace trace' w w') ∧
    (∀ trace' w', PaymentRun (fun k => (reqs k).undelayed) channels trace' w' →
      ∃ trace w, (implementedPayments latency reqs).Run (dispatched reqs channels) trace w ∧
        SameButDelayed trace trace' w w') := by
  constructor
  · intro trace w hrun
    obtain ⟨trace', w', hrun', hshared, hdelayed, hobserved⟩ := hrun.simulated
      (payments fun k => (reqs k).undelayed) (fun k => Delayed (reqs k)) (fun _ => Event.essential)
      (fun _ => Event.essential) (dispatched (fun k => (reqs k).undelayed) channels) rfl
      (fun k => delayed_start (reqs k))
      fun k _ _ _ _ _ _ hs hdelayed => ImplementedStep.undelayed hs hdelayed
    exact ⟨trace', w', hrun', hshared, fun k result => (hdelayed k).finished_iff result, hobserved⟩
  · intro trace' w' hrun'
    obtain ⟨trace, w, hrun, hshared, hdelayed, hobserved⟩ := hrun'.simulated
      (implementedPayments latency reqs) (fun k other phase => Delayed (reqs k) phase other)
      (fun _ => Event.essential) (fun _ => Event.essential) (dispatched reqs channels) rfl
      (fun k => delayed_start (reqs k)) fun k _ _ _ _ _ _ hs hdelayed => Step.delayed hs hdelayed
    exact ⟨trace, w, hrun, hshared.symm, fun k result => (hdelayed k).finished_iff result,
      hobserved.symm⟩

/-! ## Settling -/

variable {reqs : ι → PropagatePaymentRequest} {channels : Channels} {trace : List (ι × Event)}
  {w : World ι Channels Phase}

/-- No latency interceptor fails. -/
theorem ImplementedStep.no_failure {req : PropagatePaymentRequest} {channels channels' : Channels}
    {phase phase' : Phase} {es : List Event}
    (hs : ImplementedStep latency req channels phase es channels' phase') (i : Nat)
    (err : CriticalError) : .interceptError i err ∉ es ∧ .notifyError i err ∉ es := by
  cases phase with
  | adding loop =>
    cases hs.step.transition with
    | addCritical | addRefusedFirst | addRefused | forwardCritical | forwardRefused | added => simp
  | intercepting loop request =>
    cases hs with
    | intercept answers shutdown hhop hanswers =>
      obtain ⟨attached, hattached⟩ := handleInterceptedHtlc_latency hanswers shutdown
      simp only [interceptHop, hattached]
      split
      · simp
      · simp [addsDone]
  | removing loop =>
    cases hs.step.transition with
    | removeCritical | removedInsane | removed => simp
  | notifying loop resolution next =>
    cases hs with
    | notify answer hnext hanswer =>
      obtain rfl : answer = .ok () := hanswer
      simp [notifyInterceptor]
    | advance hhop =>
      unfold removeNext
      cases loop.i with
      | zero => simp [removesDone]
      | succ j => simp
  | finished result => cases hs

/-- Those of the payment are the only critical errors that are left. -/
theorem run_not_critical (hsane : AllSane channels) (hfree : HashesFree reqs channels)
    (hdistinct : Function.Injective fun k => (reqs k).paymentHash)
    (hrouted : ∀ k, WellRouted channels (reqs k))
    (h : (implementedPayments latency reqs).Run (dispatched reqs channels) trace w) (k : ι) :
    ¬ HasCritical (eventsOf k trace) := by
  intro hcritical
  obtain ⟨i, err, hfailed⟩ :=
    run_interceptorFailed hsane hfree hdistinct hrouted (PaymentRun.of_implemented h) hcritical
  have hnone := h.local_invariant
    (I := fun _ past _ => .interceptError i err ∉ past ∧ .notifyError i err ∉ past)
    (fun _ => ⟨List.not_mem_nil, List.not_mem_nil⟩) fun _ _ _ _ _ _ past hs ih => by
      obtain ⟨hintercept, hnotify⟩ := ImplementedStep.no_failure hs i err
      simp only [List.mem_append, not_or]
      exact ⟨⟨ih.1, hintercept⟩, ih.2, hnotify⟩
  rcases hfailed with hmem | hmem
  · exact (hnone k).1 (mem_eventsOf.mpr hmem)
  · exact (hnone k).2 (mem_eventsOf.mpr hmem)

/-- A payment under latency interceptors that has not ended can always take a step. -/
theorem latency_exists_step {req : PropagatePaymentRequest} {phase : Phase} {past : List Event}
    (hc : Control req past phase) (hwithin : phase.NotifiesWithin req) (channels : Channels) :
    (∃ result, phase = .finished result) ∨
      ∃ es channels' phase', ImplementedStep latency req channels phase es channels' phase' := by
  rcases hc.exists_step hwithin channels with hfinished | ⟨es, channels', phase', hs⟩
  · exact .inl hfinished
  · cases hs with
    | add hhop => exact .inr ⟨_, _, _, .add hhop⟩
    | @intercept loop request hop answers shutdown hhop hanswers =>
      exact .inr ⟨_, _, _, .intercept _ none hhop (answered_latency req.interceptors request)⟩
    | remove hhop => exact .inr ⟨_, _, _, .remove hhop⟩
    | notify answer hnext =>
      exact .inr ⟨_, _, _, .notify (.ok ()) (List.getElem?_eq_getElem hnext) rfl⟩
    | advance hhop => exact .inr ⟨_, _, _, .advance hhop⟩

/-- **Simulated payments settle.** Finitely many payments, without interceptors or with latency
interceptors, under distinct hashes and over connected routes that fit a sane and idle network. Whatever
the order of their steps, all of them come to their end: each has reached its receiver or has failed at a
hop, the network is sane and idle again, and every node has earned what the successful payments say. -/
theorem latency_settles [Fintype ι] (hidle : Idle channels) (hsane : AllSane channels)
    (hdistinct : Function.Injective fun k => (reqs k).paymentHash)
    (hrouted : ∀ k, WellRouted channels (reqs k)) (hconnected : ∀ k, Connected channels (reqs k)) :
    (implementedPayments latency reqs).Inevitably
      (fun w => Settled w ∧ ∀ pubkey, wealth .wrapping w.shared pubkey
        = wealth .wrapping channels pubkey
          + ∑ k, if (w.proc k).succeeded then earned .wrapping (reqs k) pubkey else 0)
      (dispatched reqs channels) := by
  have hinevitably : (implementedPayments latency reqs).Inevitably
      (fun w => (∃ trace, (implementedPayments latency reqs).Run (dispatched reqs channels) trace w) ∧
        ∀ k, ∃ result, w.proc k = .finished result) (dispatched reqs channels) := by
    refine System.inevitably_all
      (fun w => ∃ trace, (implementedPayments latency reqs).Run (dispatched reqs channels) trace w)
      (fun _ phase => ∃ result, phase = .finished result)
      (fun k phase => Phase.workLeft (reqs k) phase) (fun w k hw => ?_)
      (fun w k es s p hw hs => ?_) ⟨[], .refl⟩
    · obtain ⟨trace, hrun⟩ := hw
      have hrun' := PaymentRun.of_implemented hrun
      exact latency_exists_step (run_control hrun' k) (run_notifiesWithin hrun' k) w.shared
    · obtain ⟨trace, hrun⟩ := hw
      have hrun' := PaymentRun.of_implemented hrun
      exact ⟨⟨_, hrun.tail hs⟩,
        Step.workLeft_lt (ImplementedStep.step hs) (run_control hrun' k)⟩
  refine hinevitably.mono fun w hw => ?_
  obtain ⟨⟨trace, hrun⟩, hfinished⟩ := hw
  have hrun' := PaymentRun.of_implemented hrun
  have hok := run_not_critical hsane (hidle.hashesFree reqs) hdistinct hrouted hrun
  refine ⟨run_settled hidle hsane hdistinct hrun' hok hfinished, fun pubkey => ?_⟩
  refine run_wealth_finished hidle hdistinct hrun' (fun k e he => ?_) hfinished hconnected
    (fun _ _ _ => trivial) (fun k _ => additive_wrapping (reqs k)) pubkey
  by_contra hcritical
  exact hok k ⟨e, mem_eventsOf.mpr he, eq_true_of_ne_false hcritical⟩

/-- A payment from Alice to Carol that is held up at each hop. -/
def delayedPayment (k : Bool) : PropagatePaymentRequest :=
  { aliceToCarol ⟨if k then 1 else 2⟩ with interceptors := [⟨"Latency Interceptor"⟩] }

theorem latency_settles_delayedPayment :
    (implementedPayments latency delayedPayment).Inevitably
      (fun w => Settled w ∧ ∀ pubkey, wealth .wrapping w.shared pubkey
        = wealth .wrapping threeNodes pubkey
          + ∑ k, if (w.proc k).succeeded then earned .wrapping (delayedPayment k) pubkey else 0)
      (dispatched delayedPayment threeNodes) := by
  refine latency_settles threeNodes_inFlight threeNodes_allSane (fun a b hab => ?_) (fun k => ?_)
    fun k => ?_
  · cases a <;> cases b <;> first | rfl | exact absurd hab (by decide)
  · obtain ⟨hsends, honce, hamount, hfee⟩ :=
      aliceToCarol_wellRouted (if k then (⟨1⟩ : PaymentHash) else ⟨2⟩)
    exact ⟨hsends, honce, hamount, hfee⟩
  · exact aliceToCarol_connected (if k then ⟨1⟩ else ⟨2⟩)

end Runs

end SimLn
