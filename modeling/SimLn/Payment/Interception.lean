import SimLn.Payment.Holding
import SimLn.Lib.Lists

/-!
# SimLn — what interceptors are asked and told

The calls that a payment makes to its interceptors are read off its log like its HTLCs: `requests`
are the HTLCs intercepted, `resolutions` the notifications. Two invariants say what they are:

* each HTLC that was added is put to every interceptor, but for one that the node it arrived at
  could not forward (`Asked`);
* each HTLC that was removed is reported to every interceptor, one hop after the other, unless a
  critical error cuts this short (`Notified`).

A request looks ahead along the path, a resolution back along the hops removed; the two agree on
the outgoing channel unless the payment failed at the hop (`outgoing_agrees_iff`).
-/

namespace SimLn

open Lib

/-! ## The calls of a payment -/

def Event.intercepted? : Event → Option (Nat × InterceptRequest)
  | .intercepted interceptor request => some (interceptor, request)
  | _ => none

def Event.resolved? : Event → Option (Nat × InterceptResolution)
  | .resolved interceptor resolution => some (interceptor, resolution)
  | _ => none

/-- The requests made, each with the interceptor that it went to. -/
def requests (past : List Event) : List (Nat × InterceptRequest) :=
  past.filterMap Event.intercepted?

/-- The notifications made, each with the interceptor that it went to. -/
def resolutions (past : List Event) : List (Nat × InterceptResolution) :=
  past.filterMap Event.resolved?

@[simp] theorem requests_append (past es : List Event) :
    requests (past ++ es) = requests past ++ requests es := List.filterMap_append

@[simp] theorem resolutions_append (past es : List Event) :
    resolutions (past ++ es) = resolutions past ++ resolutions es := List.filterMap_append

/-- One call to each of `count` interceptors for each element of a list. -/
def callAll {α β : Type} (count : Nat) (call : α → β) (l : List α) : List (Nat × β) :=
  l.flatMap fun a => (List.range count).map fun n => (n, call a)

@[simp] theorem callAll_nil {α β : Type} (count : Nat) (call : α → β) :
    callAll count call [] = [] := rfl

/-- The calls for two lists are those for the one and then those for the other. -/
theorem callAll_append {α β : Type} (count : Nat) (call : α → β) (l l' : List α) :
    callAll count call (l ++ l') = callAll count call l ++ callAll count call l' :=
  List.flatMap_append

/-- One item is handed to each of the `count` interceptors in turn. -/
theorem callAll_singleton {α β : Type} (count : Nat) (call : α → β) (a : α) :
    callAll count call [a] = (List.range count).map fun n => (n, call a) := by
  simp [callAll]

theorem callAll_map {α β γ : Type} (count : Nat) (call : β → γ) (f : α → β) (l : List α) :
    callAll count call (l.map f) = callAll count (fun a => call (f a)) l :=
  List.flatMap_map _ _ _

theorem map_callAll {α β γ : Type} (count : Nat) (call : α → β) (f : β → γ) (l : List α) :
    (callAll count call l).map (fun c => (c.1, f c.2)) = callAll count (fun a => f (call a)) l := by
  simp [callAll, List.map_flatMap, Function.comp_def]

/-- Calls that are the same for every element are the same. -/
theorem callAll_congr {α β : Type} {count : Nat} {call call' : α → β} {l : List α}
    (h : ∀ a ∈ l, call a = call' a) : callAll count call l = callAll count call' l :=
  List.flatMap_congr fun a ha => by rw [h a ha]

/-- One call to each interceptor reaches each of them once. Induction on their number. -/
theorem eventsOf_range {β : Type} (n count : Nat) (b : β) :
    eventsOf n ((List.range count).map fun i => (i, b)) = if n < count then [b] else [] := by
  induction count with
  | zero => rfl
  | succ count ih =>
    rw [List.range_succ, List.map_append, eventsOf_append, ih, List.map_singleton, eventsOf_cons,
      eventsOf_nil]
    rcases Nat.lt_trichotomy n count with hlt | rfl | hgt
    · rw [if_pos hlt, if_neg (by omega), if_pos (by omega), List.append_nil]
    · rw [if_neg (by omega), if_pos rfl, if_pos (by omega), List.nil_append]
    · rw [if_neg (by omega), if_neg (by omega), if_neg (by omega), List.append_nil]

/-- Each interceptor gets every call once, in order. -/
theorem eventsOf_callAll {α β : Type} {count n : Nat} (hn : n < count) (call : α → β)
    (l : List α) : eventsOf n (callAll count call l) = l.map call := by
  induction l with
  | nil => rfl
  | cons a l ih =>
    rw [← List.singleton_append, callAll_append, eventsOf_append, ih, callAll_singleton,
      eventsOf_range, if_pos hn]
    rfl

/-- Who gets a call is one of the interceptors. -/
theorem mem_callAll {α β : Type} {count n : Nat} {call : α → β} {l : List α} {b : β} :
    (n, b) ∈ callAll count call l ↔ n < count ∧ ∃ a ∈ l, call a = b := by
  simp only [callAll, List.mem_flatMap, List.mem_map, List.mem_range, Prod.mk.injEq]
  constructor
  · rintro ⟨a, ha, m, hm, rfl, rfl⟩
    exact ⟨hm, a, ha, rfl⟩
  · rintro ⟨hn, a, ha, rfl⟩
    exact ⟨a, ha, n, hn, rfl, rfl⟩

variable {req : PropagatePaymentRequest} {past es : List Event}

/-! ## The requests -/

/-- `request` asks about the HTLC `x` that has arrived at its hop, and looks ahead to the next. -/
structure Asks (req : PropagatePaymentRequest) (x : HopHtlc) (request : InterceptRequest) :
    Prop where
  forwardingNode : request.forwardingNode = req.sender (x.hop + 1)
  incomingHtlc : request.incomingHtlc = x.ref
  outgoingChannelId : request.outgoingChannelId = (req.route.hops[x.hop + 1]?).map (·.scid)

/-- The HTLCs that interceptors have been asked about are the first that were added, in order. -/
structure AskedAbout (req : PropagatePaymentRequest) (past : List Event)
    (asked : List (HopHtlc × InterceptRequest)) : Prop where
  requests : SimLn.requests past = callAll req.interceptors.length Prod.snd asked
  added : asked.map Prod.fst <+: SimLn.added past
  asks : ∀ a ∈ asked, Asks req a.1 a.2

/-- Only an HTLC that could not be forwarded is missing from `count` that were asked about. -/
def AllButRefused (past : List Event) (count : Nat) : Prop :=
  (count = (added past).length ∧ ∀ hop err, Event.forwardRefused hop err ∉ past) ∨
    (count + 1 = (added past).length ∧ ∃ err, Event.forwardRefused count err ∈ past)

/-- The invariant of the requests. A payment that ends with an unknown outcome may have stopped
anywhere. -/
def Asked (req : PropagatePaymentRequest) (past : List Event) (phase : Phase) : Prop :=
  ∃ asked, AskedAbout req past asked ∧
    (phase ≠ .finished ⟨0, .unknown⟩ → AllButRefused past asked.length)

/-- A payment that has not taken a step has asked nobody. -/
theorem asked_start (req : PropagatePaymentRequest) : Asked req [] req.start :=
  ⟨[], ⟨rfl, List.nil_prefix, by simp⟩, fun _ => .inl ⟨rfl, by simp⟩⟩

/-- A stretch without a refusal has no refused forward. -/
theorem Unrefused.not_forwardRefused (h : Unrefused past) (hop : Nat) (err : ForwardingError) :
    Event.forwardRefused hop err ∉ past := fun hmem => by
  have := h _ hmem
  cases this

/-- Events that are no requests and move no HTLC. -/
theorem AskedAbout.silent {asked : List (HopHtlc × InterceptRequest)}
    (h : AskedAbout req past asked) (hrequests : SimLn.requests es = [])
    (hadded : SimLn.added es = []) : AskedAbout req (past ++ es) asked :=
  ⟨by rw [requests_append, hrequests, List.append_nil, h.requests],
    by rw [added_append, hadded, List.append_nil]; exact h.added, h.asks⟩

/-- Without another HTLC nobody else has to be asked. -/
theorem AllButRefused.silent {count : Nat} (h : AllButRefused past count)
    (hadded : added es = []) (hrefused : ∀ hop err, Event.forwardRefused hop err ∉ es) :
    AllButRefused (past ++ es) count := by
  have hadded' : added (past ++ es) = added past := by simp [hadded]
  rcases h with ⟨hcount, hnone⟩ | ⟨hcount, err, hmem⟩
  · refine .inl ⟨by rw [hadded', hcount], fun hop err hmem => ?_⟩
    rcases List.mem_append.mp hmem with hmem | hmem
    · exact hnone hop err hmem
    · exact hrefused hop err hmem
  · exact .inr ⟨by rw [hadded', hcount], err, List.mem_append_left _ hmem⟩

/-- Events that neither add an HTLC nor ask about one change nothing. -/
theorem Asked.silent {phase phase' : Phase} (h : Asked req past phase)
    (hphase : phase ≠ .finished ⟨0, .unknown⟩) (hrequests : requests es = [])
    (hadded : added es = []) (hrefused : ∀ hop err, Event.forwardRefused hop err ∉ es) :
    Asked req (past ++ es) phase' := by
  obtain ⟨asked, habout, hall⟩ := h
  exact ⟨asked, habout.silent hrequests hadded, fun _ => (hall hphase).silent hadded hrefused⟩

/-- The request for an HTLC says what the hop is. -/
theorem asks_interceptRequest {loop : AddLoop} {hop : RouteHop} {index : UInt64}
    (hhop : req.route.hops[loop.i]? = some hop) :
    Asks req (loop.offer hop index) (interceptRequest req loop hop index) :=
  ⟨(PropagatePaymentRequest.sender_succ hhop).symm, rfl, rfl⟩

/-- Every interceptor is sent the same request. -/
theorem requests_map_intercepted (count : Nat) (request : InterceptRequest) :
    requests ((List.range count).map (Event.intercepted · request))
      = (List.range count).map fun n => (n, request) := by
  simp [requests, List.filterMap_map, Function.comp_def, Event.intercepted?]

/-- The HTLC of the loop's hop is added, without being asked about. -/
theorem AskedAbout.offer {asked : List (HopHtlc × InterceptRequest)} {x : HopHtlc}
    (h : AskedAbout req past asked) (hrequests : SimLn.requests es = [])
    (hadded : SimLn.added es = [x]) : AskedAbout req (past ++ es) asked := by
  refine ⟨by rw [requests_append, hrequests, List.append_nil, h.requests], ?_, h.asks⟩
  rw [added_append, hadded]
  exact h.added.trans (List.prefix_append _ _)

/-- The HTLC of the loop's hop is added, and all interceptors are asked about it. -/
theorem AskedAbout.ask {asked : List (HopHtlc × InterceptRequest)} {x : HopHtlc}
    {request : InterceptRequest} (h : AskedAbout req past asked)
    (hall : asked.length = (SimLn.added past).length) (hasks : Asks req x request)
    (hrequests : SimLn.requests es = (List.range req.interceptors.length).map fun n => (n, request))
    (hadded : SimLn.added es = [x]) : AskedAbout req (past ++ es) (asked ++ [(x, request)]) := by
  have heq : asked.map Prod.fst = SimLn.added past :=
    h.added.eq_of_length (by rw [List.length_map, hall])
  refine ⟨?_, ?_, fun a ha => ?_⟩
  · rw [requests_append, hrequests, h.requests, callAll_append, callAll_singleton]
  · rw [added_append, hadded, List.map_append, heq]
    exact List.prefix_rfl
  · rcases List.mem_append.mp ha with ha | ha
    · exact h.asks a ha
    · rw [List.mem_singleton.mp ha]
      exact hasks

/-- While HTLCs are being added, all that were added have been asked about. -/
theorem AllButRefused.length_eq {count : Nat} (h : AllButRefused past count)
    (hunrefused : Unrefused past) : count = (added past).length := by
  rcases h with ⟨hcount, -⟩ | ⟨-, err, hmem⟩
  · exact hcount
  · exact absurd hmem (hunrefused.not_forwardRefused _ _)

/-- One case for each way a step can go. Only the last of `add_htlcs` asks. -/
theorem Step.asked {channels channels' : Channels} {phase phase' : Phase}
    (hs : Step req channels phase es channels' phase') (hc : Control req past phase)
    (h : Asked req past phase) : Asked req (past ++ es) phase' := by
  cases hs.transition with
  | @forwardCritical _ loop hop index _ _ err hhop hpush hcheck =>
    obtain ⟨asked, habout, hall⟩ := h
    exact ⟨asked, habout.offer rfl rfl, by simp⟩
  | @forwardRefused _ loop hop index _ _ err hhop hpush hcheck =>
    obtain ⟨asked, habout, hall⟩ := h
    obtain ⟨-, hlen, -, hunrefused, -⟩ := hc.phase
    have hcount := (hall (by simp)).length_eq hunrefused
    -- added and refused before anyone is asked: the one HTLC too many
    refine ⟨asked, habout.offer rfl rfl, fun _ => .inr ⟨?_, err, ?_⟩⟩
    · rw [added_append, List.length_append, hcount]
      rfl
    · rw [hcount, hlen]
      exact List.mem_append_right _ (by simp)
  | @added _ loop hop index _ _ hhop hpush hcheck =>
    obtain ⟨asked, habout, hall⟩ := h
    obtain ⟨-, hlen, -, hunrefused, -⟩ := hc.phase
    have hcount := (hall (by simp)).length_eq hunrefused
    have hadded : SimLn.added (.htlcAdded (loop.offer hop index) ::
        (List.range req.interceptors.length).map
          (Event.intercepted · (interceptRequest req loop hop index)))
        = [loop.offer hop index] := by
      rw [← List.singleton_append, added_append, added_map_intercepted]
      rfl
    -- all interceptors are asked about the HTLC that was just added
    refine ⟨_, habout.ask hcount (asks_interceptRequest hhop) ?_ hadded, fun _ => .inl ⟨?_, ?_⟩⟩
    · rw [← List.singleton_append, requests_append, requests_map_intercepted]
      rfl
    · rw [added_append, hadded, List.length_append, List.length_append, hcount]
      rfl
    · intro n err hmem
      rcases List.mem_append.mp hmem with hmem | hmem
      · exact hunrefused.not_forwardRefused n err hmem
      · simp at hmem
  | addCritical | addRefusedFirst | addRefused | interceptCritical | interceptRefusedFirst
  | interceptRefused | forwarded | received | removeCritical | removedInsane | removed
  | notifyCritical | notified | removeNext | removedAll =>
    exact h.silent (by simp) rfl rfl (by simp)

/-! ## The notifications -/

/-- The channel over which the HTLC of hop `i` has gone on, when those of the first `count` hops were
added. -/
def outgoingAt (req : PropagatePaymentRequest) (count i : Nat) : Option ShortChannelID :=
  if i + 1 < count then (req.route.hops[i + 1]?).map (·.scid) else none

/-- What interceptors are told of an HTLC that was removed, when `count` HTLCs had been added. -/
def notice (req : PropagatePaymentRequest) (count : Nat) (x : HopHtlc × Bool) :
    InterceptResolution :=
  { forwardingNode := req.sender (x.1.hop + 1)
    incomingHtlc := x.1.ref
    outgoingChannelId := outgoingAt req count x.1.hop
    success := x.2 }

/-- The notifications of a list of HTLCs that were removed. -/
def notices (req : PropagatePaymentRequest) (past : List Event) (l : List (HopHtlc × Bool)) :
    List (Nat × InterceptResolution) :=
  callAll req.interceptors.length (notice req (added past).length) l

/-- The first `next` interceptors have been notified of the last HTLC that was removed, and all of
them of those before. -/
structure Notifying (req : PropagatePaymentRequest) (past : List Event) (loop : RemoveLoop)
    (resolution : InterceptResolution) (next : Nat) : Prop where
  le : next ≤ req.interceptors.length
  last : ∃ before x, removed past = before ++ [x] ∧ x.1.hop = loop.i ∧
    resolution = notice req (added past).length x ∧
    resolutions past = notices req past before ++ (List.range next).map fun n => (n, resolution)

def NotifiedAt (req : PropagatePaymentRequest) (past : List Event) : Phase → Prop
  | .adding _ | .intercepting _ _ => resolutions past = []
  | .removing loop => resolutions past = notices req past (removed past) ∧
      loop.outgoingChannelId = outgoingAt req (added past).length loop.i
  | .notifying loop resolution next => Notifying req past loop resolution next
  | .finished _ => resolutions past <+: notices req past (removed past) ∧
      (¬ HasCritical past → resolutions past = notices req past (removed past))

/-- The invariant of the notifications: they come after everything that was added and asked. -/
structure Notified (req : PropagatePaymentRequest) (past : List Event) (phase : Phase) : Prop where
  order : past.Pairwise fun e f => e.resolved? ≠ none → f.added? = none ∧ f.intercepted? = none
  notified : NotifiedAt req past phase

/-- A payment that has not taken a step has notified nobody. -/
theorem notified_start (req : PropagatePaymentRequest) : Notified req [] req.start := ⟨.nil, rfl⟩

/-- Nobody is notified by events of which none is a notice. -/
theorem resolutions_eq_nil : resolutions es = [] ↔ ∀ e ∈ es, e.resolved? = none :=
  List.filterMap_eq_nil_iff

/-- Before the first notification everything is in order. -/
theorem order_of_none (h : resolutions past = []) :
    past.Pairwise fun e f => e.resolved? ≠ none → f.added? = none ∧ f.intercepted? = none :=
  List.pairwise_of_forall_mem_list fun e he _ _ hne => absurd (resolutions_eq_nil.mp h e he) hne

/-- Notices stay behind all adding and asking. -/
theorem order_append
    (h : past.Pairwise fun e f => e.resolved? ≠ none → f.added? = none ∧ f.intercepted? = none)
    (hes : ∀ e ∈ es, e.added? = none ∧ e.intercepted? = none) :
    (past ++ es).Pairwise fun e f => e.resolved? ≠ none → f.added? = none ∧ f.intercepted? = none := by
  rw [List.pairwise_append]
  refine ⟨h, ?_, fun _ _ f hf _ => hes f hf⟩
  exact List.pairwise_of_forall_mem_list fun _ _ f hf _ => hes f hf

/-- `remove_htlcs` starts, or the payment ends, before anything has been removed. -/
theorem Notified.of_none {phase : Phase} (hc : Control req past phase)
    (hresolutions : resolutions past = []) (hremoved : removed past = [])
    (hphase : (∃ idx success, phase = startRemoving idx success) ∨ ∃ result, phase = .finished result) :
    Notified req past phase := by
  refine ⟨order_of_none hresolutions, ?_⟩
  have hnone : resolutions past = notices req past (removed past) := by
    rw [hresolutions, hremoved]
    rfl
  rcases hphase with ⟨idx, success, rfl⟩ | ⟨result, rfl⟩
  · have hat : RemoveLoop.At _ req past _ := hc.phase
    refine ⟨hnone, ?_⟩
    show none = outgoingAt req (added past).length idx
    -- the HTLC of the failure index is the last added, so there is none after it
    rw [outgoingAt, if_neg]
    exact fun hlt => absurd hat.added (by simp; omega)
  · exact ⟨hnone ▸ List.prefix_rfl, fun _ => hnone⟩

/-- The notices that are due depend on how many HTLCs have been added. -/
theorem notices_congr {past' : List Event} (h : (added past').length = (added past).length)
    (l : List (HopHtlc × Bool)) : notices req past' l = notices req past l := by
  rw [notices, notices, h]

/-- All interceptors have been notified. -/
theorem Notifying.resolutions_eq {loop : RemoveLoop} {resolution : InterceptResolution}
    (h : Notifying req past loop resolution req.interceptors.length) :
    resolutions past = notices req past (removed past) := by
  obtain ⟨before, x, hremoved, -, rfl, hresolutions⟩ := h.last
  rw [hresolutions, hremoved]
  simp only [notices, callAll_append, callAll_singleton]

/-- The notices so far are the first of those that are due. -/
theorem Notifying.isPrefix {loop : RemoveLoop} {resolution : InterceptResolution} {next : Nat}
    (h : Notifying req past loop resolution next) :
    resolutions past <+: notices req past (removed past) := by
  obtain ⟨before, x, hremoved, -, rfl, hresolutions⟩ := h.last
  rw [hresolutions, hremoved]
  simp only [notices, callAll_append, callAll_singleton]
  rw [List.prefix_append_right_inj, ← Nat.min_eq_left h.le, ← List.take_range]
  exact (List.take_prefix _ _).map _

/-- One more interceptor is notified. -/
theorem Notifying.notify {loop : RemoveLoop} {resolution : InterceptResolution} {next : Nat}
    (h : Notifying req past loop resolution next) (hnext : next < req.interceptors.length)
    (hresolutions : resolutions es = [(next, resolution)]) (hadded : added es = [])
    (hremoved : removed es = []) : Notifying req (past ++ es) loop resolution (next + 1) := by
  have hadded' : added (past ++ es) = added past := by simp [hadded]
  have hremoved' : removed (past ++ es) = removed past := by simp [hremoved]
  obtain ⟨before, x, hlast, hhop, hresolution, hpast⟩ := h.last
  refine ⟨hnext, before, x, hremoved'.trans hlast, hhop, by rw [hadded', hresolution], ?_⟩
  rw [resolutions_append, hpast, hresolutions, List.range_succ, List.map_append, List.append_assoc,
    notices_congr (by rw [hadded'])]
  rfl

/-- The payment ends, and is told of it the same way whatever ended it. -/
theorem Notified.finish {result : PaymentResult}
    (horder : past.Pairwise fun e f => e.resolved? ≠ none → f.added? = none ∧ f.intercepted? = none)
    (heq : resolutions past = notices req past (removed past)) (hresolutions : resolutions es = [])
    (hes : ∀ e ∈ es, e.added? = none ∧ e.intercepted? = none) (hremoved : removed es = []) :
    Notified req (past ++ es) (.finished result) := by
  have hadded : added es = [] := List.filterMap_eq_nil_iff.mpr fun e he => (hes e he).1
  have hnotices : notices req (past ++ es) (removed past) = notices req past (removed past) :=
    notices_congr (by rw [added_append, hadded, List.append_nil]) _
  have heq' : resolutions (past ++ es) = notices req (past ++ es) (removed (past ++ es)) := by
    rw [resolutions_append, hresolutions, List.append_nil, heq, removed_append, hremoved,
      List.append_nil, hnotices]
  exact ⟨order_append horder hes, heq' ▸ List.prefix_rfl, fun _ => heq'⟩

/-- The HTLC of the loop's hop has been removed. -/
theorem Notifying.first {loop : RemoveLoop} {hop : RouteHop} {x : HopHtlc}
    (hat : resolutions past = notices req past (removed past))
    (hout : loop.outgoingChannelId = outgoingAt req (added past).length loop.i)
    (hhop : req.route.hops[loop.i]? = some hop) (hx : x.hop = loop.i) :
    Notifying req (past ++ [.htlcRemoved x loop.success]) loop
      { forwardingNode := hop.pubkey
        incomingHtlc := x.ref
        outgoingChannelId := loop.outgoingChannelId
        success := loop.success } 0 := by
  have hadded : added (past ++ [.htlcRemoved x loop.success]) = added past := by
    rw [added_append]
    exact List.append_nil _
  refine ⟨Nat.zero_le _, removed past, (x, loop.success), removed_append _ _, hx, ?_, ?_⟩
  · rw [hadded, notice, hx, PropagatePaymentRequest.sender_succ hhop, hout]
  · rw [resolutions_append, hat, notices_congr (by rw [hadded])]
    rfl

/-- One case for each way a step can go. Nothing has been removed before `remove_htlcs` starts; from
there on the notifications follow what is removed. -/
theorem Step.notified {channels channels' : Channels} {phase phase' : Phase}
    (hs : Step req channels phase es channels' phase') (hc : Control req past phase)
    (h : Notified req past phase) : Notified req (past ++ es) phase' := by
  have hc' := hs.control hc
  obtain ⟨horder, hat⟩ := h
  cases hs.transition with
  | addCritical | addRefusedFirst | forwardCritical | interceptCritical | interceptRefusedFirst
  | addRefused | forwardRefused | interceptRefused | received =>
    obtain ⟨-, -, hremoved, -⟩ := hc.phase
    have hnone : resolutions past = [] := hat
    refine .of_none hc' ?_ ?_ ?_
    · rw [resolutions_append, hnone]
      rfl
    · rw [removed_append, hremoved]
      rfl
    · first | exact .inr ⟨_, rfl⟩ | exact .inl ⟨_, _, rfl⟩
  | added hhop hpush hcheck =>
    have hnone : resolutions past = [] := hat
    refine ⟨order_of_none ?_, ?_⟩
    all_goals
      show resolutions (past ++ _) = []
      rw [resolutions_append, hnone]
      exact resolutions_eq_nil.mpr (by simp [Event.resolved?])
  | forwarded hhop hlt =>
    have hnone : resolutions past = [] := hat
    rw [List.append_nil]
    exact ⟨horder, hnone⟩
  | removeCritical | removedInsane =>
    exact .finish horder hat.1 rfl (by simp [Event.added?, Event.intercepted?]) rfl
  | @removed _ loop hop htlc index _ _ hhop hpop =>
    exact ⟨order_append horder (by simp [Event.added?, Event.intercepted?]),
      Notifying.first (x := ⟨loop.i, req.sender loop.i, ⟨hop.scid, index⟩, htlc⟩) hat.1 hat.2 hhop rfl⟩
  | @notifyCritical loop resolution next err hnext =>
    -- the interceptor that failed has been notified all the same
    have hlast : Notifying req (past ++ [.resolved next resolution, .notifyError loop.i err,
        .shutdownTriggered, .reported loop.result]) loop resolution (next + 1) :=
      Notifying.notify hat hnext rfl rfl rfl
    refine ⟨order_append horder (by simp [Event.added?, Event.intercepted?]), hlast.isPrefix,
      fun hok => absurd ?_ hok⟩
    exact ⟨.notifyError loop.i err, by simp, rfl⟩
  | notified hnext =>
    exact ⟨order_append horder (by simp [Event.added?, Event.intercepted?]),
      Notifying.notify hat hnext rfl rfl rfl⟩
  | @removeNext loop _ hop i hhop hi =>
    have hleft : RemoveLoop.At loop req past loop.i := hc.phase
    rw [List.append_nil]
    refine ⟨horder, Notifying.resolutions_eq hat, ?_⟩
    -- the hop before looks back at the channel whose HTLC has just been removed
    show some hop.scid = outgoingAt req (SimLn.added past).length i
    rw [outgoingAt, if_pos, ← hi, hhop]
    · rfl
    · have hle := hleft.le
      rw [hleft.added]
      omega
  | removedAll hi =>
    exact .finish horder (Notifying.resolutions_eq hat) rfl
      (by simp [Event.added?, Event.intercepted?]) rfl

end SimLn
