import SimLn.Payment.Resolutions

/-!
# SimLn — the references of HTLCs

An interceptor knows an HTLC by its channel and its index. The index comes from a counter of the side
that adds it, and both sides of a channel count from zero: two HTLCs that cross a channel in opposite
directions bear one reference. As long as each channel is used in one direction, no two HTLCs do.
-/

namespace SimLn

open Lib

variable {ι : Type} {reqs : ι → PropagatePaymentRequest} {req : PropagatePaymentRequest}
  {channels channels' : Channels} {phase phase' : Phase} {es : List Event}
  {trace : List (ι × Event)} {w : World ι Channels Phase}

/-! ## What a step does to the counters -/

/-- A channel at a later time, without an HTLC added in between. -/
structure CountersKept (c c' : SimulatedChannel) : Prop where
  terms : c.SameTerms c'
  index : ∀ s, (c'.node s).index = (c.node s).index

theorem CountersKept.refl (c : SimulatedChannel) : CountersKept c c := ⟨.refl c, fun _ => rfl⟩

/-- Removing an HTLC counts nothing. -/
theorem countersKept_popHtlc (c : SimulatedChannel) (s : Side) (hash : PaymentHash) (amt : UInt64)
    (success : Bool) : CountersKept c (c.popHtlc s hash amt success) := by
  refine ⟨c.sameTerms_popHtlc s hash amt success, fun t => ?_⟩
  rcases s.eq_or_eq_other t with rfl | rfl <;> simp

/-- `channels'` has the channels of `channels`, without an HTLC added in between. -/
def SameCounters (channels channels' : Channels) : Prop :=
  ∀ scid, Option.Rel CountersKept (channels.lookup scid) (channels'.lookup scid)

/-- Where the channels stay the same, so do their counters. -/
theorem SameChannels.sameCounters (h : SameChannels channels channels') :
    SameCounters channels channels' := by
  intro scid
  rw [h scid]
  cases channels.lookup scid with
  | none => exact .none
  | some c => exact .some (.refl c)

/-- A step that removes an HTLC keeps all counters. -/
theorem Popped.sameCounters {hash : PaymentHash} {x : HopHtlc} {success : Bool}
    {c : SimulatedChannel} {s : Side} (h : Popped hash x success c s channels channels') :
    SameCounters channels channels' := by
  intro scid
  rw [h.result]
  by_cases hscid : scid = x.ref.channelId
  · rw [hscid, AList.lookup_insert, h.found]
    exact .some (countersKept_popHtlc ..)
  · rw [AList.lookup_insert_ne hscid]
    cases channels.lookup scid with
    | none => exact .none
    | some c => exact .some (.refl c)

/-- A channel keeps its place and its counters. -/
theorem SameCounters.lookup (h : SameCounters channels channels') {scid : ShortChannelID}
    {c : SimulatedChannel} (hc : channels.lookup scid = some c) :
    ∃ c', channels'.lookup scid = some c' ∧ CountersKept c c' :=
  exists_of_rel_some (hc ▸ h scid)

/-- A channel that is there was there before, with the counters it has. -/
theorem SameCounters.lookup' (h : SameCounters channels channels') {scid : ShortChannelID}
    {c' : SimulatedChannel} (hc : channels'.lookup scid = some c') :
    ∃ c, channels.lookup scid = some c ∧ CountersKept c c' :=
  exists_of_some_rel (hc ▸ h scid)

/-- A step adds no HTLC and leaves all counters alone, or it adds the one that its loop offers. -/
theorem Step.numbering (h : Step req channels phase es channels' phase') :
    (SameCounters channels channels' ∧ ∀ x, Event.htlcAdded x ∉ es) ∨
    (∃ loop hop index c s, phase = .adding loop ∧ req.route.hops[loop.i]? = some hop ∧
      Pushed req.paymentHash (loop.offer hop index) c s channels channels' ∧
      ∀ x, Event.htlcAdded x ∈ es ↔ x = loop.offer hop index) := by
  cases h.transition with
  | addCritical hhop hsame | addRefusedFirst hhop hsame | addRefused hhop hsame
  | removeCritical hhop hsame => exact .inl ⟨hsame.sameCounters, by simp⟩
  | removedInsane hhop hpop | removed hhop hpop => exact .inl ⟨hpop.sameCounters, by simp⟩
  | forwardCritical hhop hpush | forwardRefused hhop hpush | added hhop hpush =>
    exact .inr ⟨_, _, _, _, _, rfl, hhop, hpush, by simp⟩
  | interceptCritical | interceptRefusedFirst | interceptRefused | forwarded | received
  | notifyCritical | notified | removeNext | removedAll =>
    exact .inl ⟨(SameChannels.refl _).sameCounters, by simp⟩

/-! ## One direction -/

/-- If the task is about to offer an HTLC to a side of a channel, the other side has not added any,
and the counter of its own has not reached its end. -/
def OffersOneWay (req : PropagatePaymentRequest) (channels : Channels) (phase : Phase) : Prop :=
  ∀ loop hop c s, phase = .adding loop → req.route.hops[loop.i]? = some hop →
    channels.lookup hop.scid = some c → c.sideOf loop.outgoingNode = some s →
    (c.node s.other).index = 0 ∧ (c.node s).index.toNat + 1 < 2 ^ 64

/-- `payments` as long as each channel is used in one direction. -/
def oneWayPayments (reqs : ι → PropagatePaymentRequest) : System ι Channels Phase Event where
  step k channels phase es channels' phase' :=
    Step (reqs k) channels phase es channels' phase' ∧ OffersOneWay (reqs k) channels phase

/-- A run in which channels are used one way is a run. -/
theorem paymentRun_of_oneWay [DecidableEq ι]
    (h : (oneWayPayments reqs).Run (dispatched reqs channels) trace w) :
    PaymentRun reqs channels trace w := by
  induction h with
  | refl => exact .refl
  | tail _ hstep ih => exact ih.tail hstep.1

/-- The HTLCs added so far have references of their own: each channel that has any of them counts on
one side only, and its counter is ahead of them. -/
structure Numbered (trace : List (ι × Event)) (channels : Channels) : Prop where
  unique : ∀ k x k' x', (k, .htlcAdded x) ∈ trace → (k', .htlcAdded x') ∈ trace → x.ref = x'.ref →
    k = k' ∧ x = x'
  counted : ∀ k x, (k, .htlcAdded x) ∈ trace → ∃ c s, channels.lookup x.ref.channelId = some c ∧
    (c.node s.other).index = 0 ∧ x.ref.index.toNat < (c.node s).index.toNat

/-- An event of a longer trace is one of before, or one of the step. -/
theorem mem_append_step {k k' : ι} {e : Event} :
    (k', e) ∈ trace ++ es.map (Prod.mk k) ↔ (k', e) ∈ trace ∨ (k' = k ∧ e ∈ es) := by
  rw [List.mem_append, List.mem_map]
  constructor
  · rintro (h | ⟨e', he', heq⟩)
    · exact .inl h
    · obtain ⟨rfl, rfl⟩ := Prod.mk.inj heq
      exact .inr ⟨rfl, he'⟩
  · rintro (h | ⟨rfl, he⟩)
    · exact .inl h
    · exact .inr ⟨e, he, rfl⟩

/-- What the channel of a new HTLC counts afterwards. -/
theorem Pushed.lookup {hash : PaymentHash} {x : HopHtlc} {c : SimulatedChannel} {s : Side}
    (h : Pushed hash x c s channels channels') (scid : ShortChannelID) :
    channels'.lookup scid = if scid = x.ref.channelId then some (c.pushHtlc s hash x.htlc)
      else channels.lookup scid := by
  rw [h.result]
  by_cases hscid : scid = x.ref.channelId
  · rw [if_pos hscid, hscid, AList.lookup_insert]
  · rw [if_neg hscid, AList.lookup_insert_ne hscid]

/-- An HTLC already added on the channel of a new one has been added on the same side, before it. -/
theorem Numbered.before {hash : PaymentHash} {x : HopHtlc} {c : SimulatedChannel} {s : Side}
    (h : Numbered trace channels) (hpush : Pushed hash x c s channels channels')
    (hother : (c.node s.other).index = 0) {k : ι} {y : HopHtlc} (hy : (k, .htlcAdded y) ∈ trace)
    (hchannel : y.ref.channelId = x.ref.channelId) : y.ref.index.toNat < x.ref.index.toNat := by
  obtain ⟨c', t, hc', hzero, hlt⟩ := h.counted k y hy
  rw [hchannel, hpush.found] at hc'
  obtain rfl := Option.some.inj hc'
  rcases s.eq_or_eq_other t with rfl | rfl
  · rwa [hpush.index]
  · rw [hother] at hlt
    exact absurd hlt (Nat.not_lt_zero _)

/-- An HTLC that is added to a side whose other side has not counted any gets a number of its own. -/
theorem Numbered.push {hash : PaymentHash} {x : HopHtlc} {c : SimulatedChannel} {s : Side} {k : ι}
    (h : Numbered trace channels) (hpush : Pushed hash x c s channels channels')
    (hother : (c.node s.other).index = 0) (hroom : (c.node s).index.toNat + 1 < 2 ^ 64)
    (hes : ∀ y, Event.htlcAdded y ∈ es ↔ y = x) :
    Numbered (trace ++ es.map (Prod.mk k)) channels' := by
  have hnext : ((c.node s).index + 1).toNat = (c.node s).index.toNat + 1 := by
    rw [UInt64.toNat_add, show (1 : UInt64).toNat = 1 from rfl, Nat.mod_eq_of_lt hroom]
  constructor
  · intro j y j' y' hy hy' href
    rcases mem_append_step.mp hy with hold | ⟨rfl, hnew⟩
    · rcases mem_append_step.mp hy' with hold' | ⟨rfl, hnew'⟩
      · exact h.unique j y j' y' hold hold' href
      · obtain rfl := (hes y').mp hnew'
        have hlt := h.before hpush hother hold (by rw [href])
        rw [href] at hlt
        exact absurd hlt (Nat.lt_irrefl _)
    · obtain rfl := (hes y).mp hnew
      rcases mem_append_step.mp hy' with hold' | ⟨rfl, hnew'⟩
      · have hlt := h.before hpush hother hold' (by rw [href])
        rw [href] at hlt
        exact absurd hlt (Nat.lt_irrefl _)
      · exact ⟨rfl, ((hes y').mp hnew').symm⟩
  · intro j y hy
    have hlookup := hpush.lookup y.ref.channelId
    by_cases hchannel : y.ref.channelId = x.ref.channelId
    · rw [if_pos hchannel] at hlookup
      refine ⟨_, s, hlookup, by simpa using hother, ?_⟩
      have hcounter : ((c.pushHtlc s hash x.htlc).node s).index = (c.node s).index + 1 := by simp
      rw [hcounter, hnext, ← hpush.index]
      rcases mem_append_step.mp hy with hold | ⟨rfl, hnew⟩
      · exact Nat.lt_succ_of_lt (h.before hpush hother hold hchannel)
      · rw [(hes y).mp hnew]
        exact Nat.lt_succ_self _
    · rw [if_neg hchannel] at hlookup
      rcases mem_append_step.mp hy with hold | ⟨rfl, hnew⟩
      · obtain ⟨c', t, hc', hcounted⟩ := h.counted j y hold
        exact ⟨c', t, hlookup.trans hc', hcounted⟩
      · exact absurd (congrArg (·.ref.channelId) ((hes y).mp hnew)) hchannel

/-- Without a new HTLC the numbers stay right. -/
theorem Numbered.sameCounters {k : ι} (h : Numbered trace channels)
    (hsame : SameCounters channels channels') (hes : ∀ x, Event.htlcAdded x ∉ es) :
    Numbered (trace ++ es.map (Prod.mk k)) channels' := by
  have hold : ∀ j x, (j, Event.htlcAdded x) ∈ trace ++ es.map (Prod.mk k) →
      (j, Event.htlcAdded x) ∈ trace := fun j x hx =>
    (mem_append_step.mp hx).resolve_right fun hnew => hes x hnew.2
  refine ⟨fun j x j' x' hx hx' => h.unique j x j' x' (hold j x hx) (hold j' x' hx'), ?_⟩
  intro j x hx
  obtain ⟨c, s, hc, hother, hlt⟩ := h.counted j x (hold j x hx)
  obtain ⟨c', hc', hkept⟩ := hsame.lookup hc
  exact ⟨c', s, hc', by rw [hkept.index, hother], by rwa [hkept.index]⟩

/-- Induction on the run. -/
theorem oneWay_numbered [DecidableEq ι]
    (h : (oneWayPayments reqs).Run (dispatched reqs channels) trace w) :
    Numbered trace w.shared := by
  induction h with
  | refl => exact ⟨by simp, by simp⟩
  | tail _ hstep ih =>
    obtain ⟨hstep, honeWay⟩ := hstep
    rcases hstep.numbering with ⟨hsame, hnone⟩ | ⟨loop, hop, index, c, s, hphase, hhop, hpush, hes⟩
    · exact ih.sameCounters hsame hnone
    · obtain ⟨hother, hroom⟩ := honeWay loop hop c s hphase hhop hpush.found hpush.side
      exact ih.push hpush hother hroom hes

/-! ## Both directions -/

/-- The first HTLC of each side that has counted any: its index is zero. -/
def FirstAdded (trace : List (ι × Event)) (channels : Channels) : Prop :=
  ∀ scid c s, channels.lookup scid = some c → (c.node s).index ≠ 0 →
    ∃ k x, (k, .htlcAdded x) ∈ trace ∧ x.ref = ⟨scid, 0⟩ ∧ c.sideOf x.sender = some s

/-- Without counting, what has been added first stays so. -/
theorem FirstAdded.sameCounters {k : ι} (h : FirstAdded trace channels)
    (hsame : SameCounters channels channels') :
    FirstAdded (trace ++ es.map (Prod.mk k)) channels' := by
  intro scid c' s hc' hne
  obtain ⟨c, hc, hkept⟩ := hsame.lookup' hc'
  rw [hkept.index] at hne
  obtain ⟨j, x, hx, href, hside⟩ := h scid c s hc hne
  exact ⟨j, x, List.mem_append_left _ hx, href, (hkept.terms.sideOf x.sender).trans hside⟩

/-- An HTLC that is added has been counted, and is the first where nothing was. -/
theorem FirstAdded.push {hash : PaymentHash} {x : HopHtlc} {c : SimulatedChannel} {s : Side} {k : ι}
    (h : FirstAdded trace channels) (hpush : Pushed hash x c s channels channels')
    (hes : Event.htlcAdded x ∈ es) : FirstAdded (trace ++ es.map (Prod.mk k)) channels' := by
  intro scid c' t hc' hne
  rw [hpush.lookup scid] at hc'
  by_cases hscid : scid = x.ref.channelId
  · rw [if_pos hscid] at hc'
    obtain rfl := Option.some.inj hc'
    have hsideOf := (c.sameTerms_pushHtlc s hash x.htlc).sideOf
    -- the new HTLC is the first of its side, or there has been one before
    by_cases hfirst : (c.node t).index = 0
    · have hts : t = s := by
        rcases s.eq_or_eq_other t with rfl | rfl
        · rfl
        · rw [SimulatedChannel.node_other_pushHtlc] at hne
          exact absurd hfirst hne
      refine ⟨k, x, mem_append_step.mpr (.inr ⟨rfl, hes⟩), ?_, ?_⟩
      · have hindex : x.ref.index = 0 := by rw [hpush.index, ← hts, hfirst]
        rw [hscid, ← hindex]
      · rw [hsideOf, hts]
        exact hpush.side
    · obtain ⟨j, y, hy, href, hside⟩ := h scid c t (hscid ▸ hpush.found) hfirst
      exact ⟨j, y, List.mem_append_left _ hy, href, (hsideOf y.sender).trans hside⟩
  · rw [if_neg hscid] at hc'
    obtain ⟨j, y, hy, href, hside⟩ := h scid c' t hc' hne
    exact ⟨j, y, List.mem_append_left _ hy, href, hside⟩

/-- No channel has counted an HTLC yet. -/
def Uncounted (channels : Channels) : Prop :=
  ∀ scid c s, channels.lookup scid = some c → (c.node s).index = 0

/-- In every run from new channels, a side that has counted has added an HTLC with index 0. -/
theorem run_firstAdded [DecidableEq ι] (hnew : Uncounted channels)
    (h : PaymentRun reqs channels trace w) : FirstAdded trace w.shared := by
  induction h with
  | refl => exact fun scid c s hc hne => absurd (hnew scid c s hc) hne
  | tail _ hstep ih =>
    rcases Step.numbering hstep with ⟨hsame, -⟩ | ⟨loop, hop, index, c, s, -, -, hpush, hes⟩
    · exact ih.sameCounters hsame
    · exact ih.push hpush ((hes _).mpr rfl)

/-! ## Uniqueness -/

/-- No two HTLCs are put to interceptors under one reference. A payment adds one HTLC for a hop at
most, so that it and the HTLC say which it is. -/
def UniqueRefs [DecidableEq ι] (trace : List (ι × Event)) : Prop :=
  ∀ k n x request k' n' x' request', RequestedFor n (eventsOf k trace) x request →
    RequestedFor n' (eventsOf k' trace) x' request' →
    request.incomingHtlc = request'.incomingHtlc → k = k' ∧ x = x'

/-- An interceptor is asked about an HTLC that has been added. -/
theorem RequestedFor.mem_trace [DecidableEq ι] {k : ι} {n : Nat} {x : HopHtlc}
    {request : InterceptRequest} (h : RequestedFor n (eventsOf k trace) x request) :
    (k, .htlcAdded x) ∈ trace := by
  obtain ⟨i, hx, -⟩ := h
  exact mem_eventsOf.mp (mem_added.mp (List.mem_of_getElem? hx))

/-- **References are unique while each channel is used in one direction.** Once HTLCs have been added
in both directions of a channel, two of them bear one reference. -/
theorem references_unique [DecidableEq ι] (reqs : ι → PropagatePaymentRequest)
    (channels : Channels) (trace : List (ι × Event)) (w : World ι Channels Phase) :
    ((oneWayPayments reqs).Run (dispatched reqs channels) trace w → UniqueRefs trace) ∧
    (Uncounted channels → PaymentRun reqs channels trace w →
      ∀ scid c, w.shared.lookup scid = some c → c.node1.index ≠ 0 → c.node2.index ≠ 0 →
        ∃ k x k' x', (k, .htlcAdded x) ∈ trace ∧ (k', .htlcAdded x') ∈ trace ∧ x.ref = x'.ref ∧
          ¬ (k = k' ∧ x = x')) := by
  constructor
  · intro h k n x request k' n' x' request' hfor hfor' href
    have hrun := paymentRun_of_oneWay h
    have hasks := ((run_calls hrun k).1.asks hfor).1
    have hasks' := ((run_calls hrun k').1.asks hfor').1
    apply (oneWay_numbered h).unique k x k' x' hfor.mem_trace hfor'.mem_trace
    rw [← hasks.incomingHtlc, href, hasks'.incomingHtlc]
  · intro hnew h scid c hc h1 h2
    have hfirst := run_firstAdded hnew h
    obtain ⟨k, x, hx, href, hside⟩ := hfirst scid c .one hc h1
    obtain ⟨k', x', hx', href', hside'⟩ := hfirst scid c .two hc h2
    refine ⟨k, x, k', x', hx, hx', href.trans href'.symm, ?_⟩
    rintro ⟨-, rfl⟩
    rw [hside] at hside'
    cases hside'

/-- Two payments from Alice to Bob, both watched. -/
def sameWayPayments : Bool → PropagatePaymentRequest
  | true => { watchedPayment with route := ⟨[⟨bob, 700, 20000, 18⟩], by simp⟩ }
  | false => { watchedPayment with
      paymentHash := ⟨2⟩
      route := ⟨[⟨bob, 700, 20000, 18⟩], by simp⟩ }

/-- One more step, of a payment that uses its channel one way. -/
theorem OneWayRun.step [DecidableEq ι] {shared : Channels} {next : Phase}
    (h : (oneWayPayments reqs).Run (dispatched reqs channels) trace w) (k : ι)
    (hs : Step (reqs k) w.shared (w.proc k) es shared next)
    (hone : OffersOneWay (reqs k) w.shared (w.proc k)) :
    (oneWayPayments reqs).Run (dispatched reqs channels) (trace ++ es.map (Prod.mk k))
      ⟨shared, Function.update w.proc k next⟩ :=
  h.tail ⟨hs, hone⟩

/-- Only a task that is about to add an HTLC has to mind the direction. -/
theorem offersOneWay_of_not_adding (h : ∀ loop, phase ≠ .adding loop) :
    OffersOneWay req channels phase :=
  fun loop _ _ _ hphase => absurd hphase (h loop)

/-- Alice offers an HTLC for Bob to the side of the channel that is hers. -/
theorem sameWay_offers {index : UInt64} {c : SimulatedChannel} {loop : AddLoop}
    (hloop : loop.i = 0 ∧ loop.outgoingNode = alice)
    (hchannel : channels.lookup ⟨700⟩ = some c) (hside : c.sideOf alice = some .one)
    (hone : (c.node .one).index = index) (hother : (c.node .two).index = 0)
    (hroom : index.toNat + 1 < 2 ^ 64) (k : Bool) :
    OffersOneWay (sameWayPayments k) channels (.adding loop) := by
  intro loop' hop c' s hphase hhop hc hs
  obtain rfl := Phase.adding.inj hphase
  have hscid : hop.scid = ⟨700⟩ := by
    rw [hloop.1] at hhop
    cases k <;> exact (congrArg RouteHop.scid (Option.some.inj hhop)).symm
  rw [hscid, hchannel] at hc
  obtain rfl := Option.some.inj hc
  rw [hloop.2, hside] at hs
  obtain rfl := Option.some.inj hs
  exact ⟨hother, hone ▸ hroom⟩

/-- The second payment starts when the first one has been settled. -/
theorem references_unique_sameWayPayments : ∃ trace w x y request request',
    (oneWayPayments sameWayPayments).Run (dispatched sameWayPayments threeNodes) trace w ∧
      RequestedFor 0 (eventsOf true trace) x request ∧ request.incomingHtlc = ⟨⟨700⟩, 0⟩ ∧
      RequestedFor 0 (eventsOf false trace) y request' ∧ request'.incomingHtlc = ⟨⟨700⟩, 1⟩ ∧
      UniqueRefs trace := by
  have h1 : (oneWayPayments sameWayPayments).Run (dispatched sameWayPayments threeNodes) _ _ :=
    OneWayRun.step .refl true (.add rfl)
      (sameWay_offers ⟨rfl, rfl⟩ rfl rfl rfl rfl (by decide) true)
  have h2 := OneWayRun.step h1 true (.intercept [.ok (.ok (.ok ∅))] none rfl rfl)
    (offersOneWay_of_not_adding fun _ h => nomatch h)
  have h3 := OneWayRun.step h2 true (.remove rfl) (offersOneWay_of_not_adding fun _ h => nomatch h)
  have h4 := OneWayRun.step h3 true (.notify (.ok ()) Nat.one_pos)
    (offersOneWay_of_not_adding fun _ h => nomatch h)
  have h5 := OneWayRun.step h4 true (.advance rfl) (offersOneWay_of_not_adding fun _ h => nomatch h)
  have h6 := OneWayRun.step h5 false (.add rfl)
    (sameWay_offers ⟨rfl, rfl⟩ rfl rfl rfl rfl (by decide) false)
  exact ⟨_, _, _, _, _, _, h6, ⟨0, rfl, rfl⟩, rfl, ⟨0, rfl, rfl⟩, rfl,
    (references_unique _ _ _ _).1 h6⟩

/-- A payment from Alice to Bob and one from Bob to Alice, both watched. -/
def crossingPayments : Bool → PropagatePaymentRequest
  | true => { watchedPayment with route := ⟨[⟨bob, 700, 20000, 18⟩], by simp⟩ }
  | false => { watchedPayment with
      source := bob
      paymentHash := ⟨2⟩
      route := ⟨[⟨alice, 700, 20000, 18⟩], by simp⟩ }

/-- Two payments in opposite directions over one channel have one reference. -/
theorem crossingPayments_share :
    ∃ trace w, PaymentRun crossingPayments threeNodes trace w ∧ ¬ UniqueRefs trace := by
  have h1 : PaymentRun crossingPayments threeNodes _ _ := PaymentRun.step .refl true (.add rfl)
  have h2 := h1.step false (.add rfl)
  refine ⟨_, _, h2, fun hunique => ?_⟩
  have hsame := hunique true 0 _ _ false 0 _ _ ⟨0, rfl, rfl⟩ ⟨0, rfl, rfl⟩ rfl
  exact absurd hsame.1 (by decide)

end SimLn
