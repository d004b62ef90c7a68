import SimLn.Payment.Answers
import SimLn.Payment.Resolutions

/-!
# SimLn — how an HTLC is handed from request to request

The interceptors see a payment as a list of requests, one for each hop that it has come over. What
the requests say fits together, whatever other payments do in the meantime:

* each request is about the HTLC that was added at its hop, and names what the path has the node do
  with it (`RequestAt`);
* the HTLC that one request announces for the next channel is the one that the next request finds
  there (`HandsOn`), with the custom records that the interceptors attached to it (`Attached`).

The invariant that carries this (`Handed`) is about one payment. Only `intercept` steps touch the
records, so that the others are read off `Transition`.
-/

namespace SimLn

open Lib

/-! ## From one request to the next -/

/-- The records that go on with an HTLC once the interceptors have answered `request`: without
interceptors those it came with, otherwise those that they returned and nothing else. After a
shutdown signal only the answers that were read count. -/
inductive Attached (interceptors : List Interceptor) (request : InterceptRequest) :
    CustomRecords → Prop where
  | unchanged (hnone : interceptors = []) :
      Attached interceptors request request.incomingCustomRecords
  | merged {records : CustomRecords} (hne : interceptors ≠ []) (answers : List Answer)
      (shutdown : Option Nat) (hanswers : answers.length = interceptors.length)
      (haccept : ∀ a ∈ answersRead answers shutdown, ∃ returned, a = .ok (.ok (.ok returned)))
      (hunion : Table.IsUnion records (recordsOf (answersRead answers shutdown))) :
      Attached interceptors request records

/-- What a request about the HTLC of hop `i` says, whatever its index and records. -/
structure RequestAt (req : PropagatePaymentRequest) (i : Nat) (request : InterceptRequest) :
    Prop where
  paymentHash : request.paymentHash = req.paymentHash
  node : ∃ hop, req.route.hops[i]? = some hop ∧ request.forwardingNode = hop.pubkey ∧
    request.incomingHtlc.channelId = hop.scid
  outgoingChannelId : request.outgoingChannelId = (req.route.hops[i + 1]?).map (·.scid)
  incomingAmount : request.incomingAmountMsat = req.amountAt i
  outgoingAmount : request.outgoingAmountMsat = req.amountAt (i + 1)
  incomingExpiry : request.incomingExpiryHeight = req.cltvAt i
  outgoingExpiry : request.outgoingExpiryHeight = req.cltvAt (i + 1)

/-- The HTLC that `request` lets pass arrives as `next` says. -/
structure HandsOn (interceptors : List Interceptor) (request next : InterceptRequest) : Prop where
  channel : request.outgoingChannelId = some next.incomingHtlc.channelId
  amount : request.outgoingAmountMsat = next.incomingAmountMsat
  expiry : request.outgoingExpiryHeight = next.incomingExpiryHeight
  records : Attached interceptors request next.incomingCustomRecords

variable {req : PropagatePaymentRequest} {past es : List Event}

theorem RequestAt.handsOn {i : Nat} {request next : InterceptRequest}
    (h : RequestAt req i request) (hnext : RequestAt req (i + 1) next)
    (hrecords : Attached req.interceptors request next.incomingCustomRecords) :
    HandsOn req.interceptors request next := by
  obtain ⟨hop, hhop, -, hchannel⟩ := hnext.node
  refine ⟨?_, ?_, ?_, hrecords⟩
  · rw [h.outgoingChannelId, hhop, hchannel]
    rfl
  · rw [h.outgoingAmount, hnext.incomingAmount]
  · rw [h.outgoingExpiry, hnext.incomingExpiry]

open scoped UInt64.CommRing UInt32.CommRing in
theorem AddLoop.At.requestAt {loop : AddLoop} {hop : RouteHop} (h : loop.At req)
    (hhop : req.route.hops[loop.i]? = some hop) (index : UInt64) :
    RequestAt req loop.i (interceptRequest req loop hop index) := by
  refine ⟨rfl, ⟨hop, hhop, rfl, rfl⟩, rfl, h.amount, ?_, h.cltv, ?_⟩
  · show loop.outgoingAmount - hop.feeMsat = req.amountAt (loop.i + 1)
    rw [h.amount, PropagatePaymentRequest.amountAt_eq hhop]
    ring
  · show loop.outgoingCltv - hop.cltvExpiryDelta = req.cltvAt (loop.i + 1)
    rw [h.cltv, PropagatePaymentRequest.cltvAt_eq hhop]
    ring

/-- What `handle_intercepted_htlc` returns when the HTLC may pass. -/
theorem attached_of_handle {request : InterceptRequest} {interceptors : List Interceptor}
    {answers : List Answer} {shutdown : Option Nat} {records : CustomRecords}
    (hanswers : answers.length = interceptors.length)
    (h : handleInterceptedHtlc request interceptors answers shutdown = .ok (.ok records)) :
    Attached interceptors request records := by
  by_cases hne : interceptors = []
  · subst hne
    obtain rfl : request.incomingCustomRecords = records := Except.ok.inj (Except.ok.inj h)
    exact .unchanged rfl
  · have hread := handleInterceptedHtlc_outcome request hne answers shutdown
    rw [h] at hread
    cases hread with
    | merged hnone haccept hunion =>
      refine .merged hne answers shutdown hanswers (fun a ha => ?_) hunion
      -- an answer is a failure, a refusal or a list of records
      match a with
      | .error msg => exact absurd (.inl ⟨_, ha, .inl ⟨msg, rfl⟩⟩) hnone
      | .ok (.error err) => exact absurd (.inl ⟨_, ha, .inr ⟨err, rfl⟩⟩) hnone
      | .ok (.ok (.error fwdErr)) => exact absurd ⟨fwdErr, rfl⟩ (haccept _ ha)
      | .ok (.ok (.ok returned)) => exact ⟨returned, rfl⟩

/-- The only step from a request back to `add_htlcs` takes the records along. -/
theorem Step.attached {channels channels' : Channels} {loop next : AddLoop}
    {request : InterceptRequest}
    (hs : Step req channels (.intercepting loop request) es channels' (.adding next)) :
    Attached req.interceptors request next.incomingCustomRecords := by
  generalize hphase : Phase.adding next = phase' at hs
  cases hs with
  | intercept answers shutdown hhop hanswers =>
    simp only [interceptHop] at hphase
    split at hphase
    · cases hphase
    · simp only [addsDone] at hphase
      split at hphase <;> cases hphase
    · next records hok =>
      split at hphase
      · obtain rfl := Phase.adding.inj hphase
        exact attached_of_handle hanswers hok
      · cases hphase

/-! ## The requests of a payment -/

/-- The records that come with the HTLC after `asked`. -/
def Fed (req : PropagatePaymentRequest) (asked : List InterceptRequest) (records : CustomRecords) :
    Prop :=
  match asked.getLast? with
  | none => records = req.customRecords
  | some request => Attached req.interceptors request records

/-- `asked` are the requests of a payment, first to last. -/
structure HandedOn (req : PropagatePaymentRequest) (past : List Event)
    (asked : List InterceptRequest) : Prop where
  requests : SimLn.requests past = callAll req.interceptors.length id asked
  htlcs : asked.map (fun r => (r.incomingHtlc, r.incomingAmountMsat, r.incomingExpiryHeight)) <+:
    (added past).map fun x => (x.ref, x.htlc.amountMsat, x.htlc.cltvExpiry)
  requestAt : ∀ i request, asked[i]? = some request → RequestAt req i request
  first : ∀ request ∈ asked.head?, request.incomingCustomRecords = req.customRecords
  chain : asked.IsChain (HandsOn req.interceptors)

/-- Events that ask nothing leave the requests as they are. -/
theorem HandedOn.silent {asked : List InterceptRequest} (h : HandedOn req past asked)
    (hrequests : SimLn.requests es = []) : HandedOn req (past ++ es) asked := by
  refine ⟨?_, ?_, h.requestAt, h.first, h.chain⟩
  · rw [requests_append, hrequests, List.append_nil, h.requests]
  · rw [added_append, List.map_append]
    exact h.htlcs.trans (List.prefix_append _ _)

theorem Fed.first {asked : List InterceptRequest} {request : InterceptRequest}
    (h : Fed req asked request.incomingCustomRecords)
    (hfirst : ∀ r ∈ asked.head?, r.incomingCustomRecords = req.customRecords) :
    ∀ r ∈ (asked ++ [request]).head?, r.incomingCustomRecords = req.customRecords := by
  cases asked with
  | nil =>
    intro r hr
    obtain rfl := Option.some.inj hr
    exact h
  | cons r asked => exact hfirst

/-- The HTLC of hop `loop.i` is added, and all interceptors are asked about it. -/
theorem HandedOn.ask {asked : List InterceptRequest} {loop : AddLoop} {hop : RouteHop}
    {index : UInt64} (h : HandedOn req past asked) (hat : loop.At req)
    (hhop : req.route.hops[loop.i]? = some hop) (hadded : (added past).length = loop.i)
    (hlen : asked.length = loop.i) (hfed : Fed req asked loop.incomingCustomRecords) :
    HandedOn req (past ++ .htlcAdded (loop.offer hop index) ::
        (List.range req.interceptors.length).map
          (Event.intercepted · (interceptRequest req loop hop index)))
      (asked ++ [interceptRequest req loop hop index]) := by
  have hrequest := hat.requestAt hhop index
  refine ⟨?_, ?_, fun i r hr => ?_, Fed.first hfed h.first, ?_⟩
  · rw [← List.singleton_append, requests_append, requests_append, requests_map_intercepted,
      h.requests, callAll_append, callAll_singleton]
    rfl
  · -- all that were added before have been asked about
    have heq := h.htlcs.eq_of_length (by rw [List.length_map, List.length_map, hlen, hadded])
    have hoffered : added (.htlcAdded (loop.offer hop index) ::
        (List.range req.interceptors.length).map
          (Event.intercepted · (interceptRequest req loop hop index)))
        = [loop.offer hop index] := by
      rw [← List.singleton_append, added_append, added_map_intercepted]
      rfl
    rw [added_append, hoffered, List.map_append, List.map_append, heq]
    exact List.prefix_rfl
  · rcases getElem?_concat hr with hr | ⟨rfl, rfl⟩
    · exact h.requestAt i r hr
    · rwa [hlen]
  · refine h.chain.append (.singleton _) fun last hlast next hnext => ?_
    obtain rfl := Option.some.inj hnext
    obtain ⟨i, hi⟩ : ∃ i, asked.length = i + 1 :=
      Nat.exists_eq_succ_of_ne_zero (by rintro h0; simp [List.length_eq_zero_iff.mp h0] at hlast)
    have hget : asked[i]? = some last := by
      rw [List.getLast?_eq_getElem?, hi] at hlast
      exact hlast
    rw [← hlen, hi] at hrequest
    refine (h.requestAt i last hget).handsOn hrequest ?_
    rw [Fed, hlast] at hfed
    exact hfed

section Runs

variable {ι : Type} [DecidableEq ι] {reqs : ι → PropagatePaymentRequest} {channels : Channels}
  {w : World ι Channels Phase} {trace : List (ι × Event)}

end Runs

end SimLn
