import SimLn.Payment.Store
import SimLn.Payment.Control

/-!
# SimLn — the HTLCs that a payment owns

When no two payments share a hash, and no channel starts out with an HTLC under one of them, the
entries under a payment's hash are its own, whatever the others do: they are the HTLCs that it has
added and not yet removed (`Owned.entries`). Since it removes the last added first, these are the
HTLCs of an initial segment of its path (`in_flight_prefix`).
-/

namespace SimLn

open Lib

/-! ## Entries by place -/

/-- One side of one channel: where an HTLC is in flight from. -/
abbrev Place := ShortChannelID × Side

/-- The HTLC in flight at a place under a hash. -/
def entryAt (channels : Channels) (p : Place) (hash : PaymentHash) : Option (Htlc × UInt64) :=
  (channels.lookup p.1).bind fun c => (c.node p.2).inFlight.lookup hash

/-- The place that `x` goes to: the side of its sender. -/
def HopHtlc.place (x : HopHtlc) (channels : Channels) : Option Place :=
  (channels.lookup x.ref.channelId).bind fun c =>
    (c.sideOf x.sender).map fun s => (x.ref.channelId, s)

/-- An HTLC is where its reference and its sender put it. -/
theorem place_eq_some {channels : Channels} {x : HopHtlc} {p : Place} :
    x.place channels = some p ↔ x.ref.channelId = p.1 ∧
      ∃ c, channels.lookup p.1 = some c ∧ c.sideOf x.sender = some p.2 := by
  simp only [HopHtlc.place, Option.bind_eq_some_iff, Option.map_eq_some_iff]
  constructor
  · rintro ⟨c, hc, s, hs, rfl⟩
    exact ⟨rfl, c, hc, hs⟩
  · rintro ⟨hid, c, hc, hs⟩
    exact ⟨c, hid ▸ hc, p.2, hs, by rw [hid]⟩

/-- Places depend on the network alone. -/
theorem SameNetwork.place {channels channels' : Channels} (h : SameNetwork channels channels')
    (x : HopHtlc) : x.place channels' = x.place channels := by
  unfold HopHtlc.place
  have hrel := h x.ref.channelId
  generalize channels.lookup x.ref.channelId = a at hrel ⊢
  generalize channels'.lookup x.ref.channelId = b at hrel ⊢
  cases hrel with
  | none => rfl
  | some hterms => simp only [Option.bind_some, hterms.sideOf]

/-- Entries depend on the channels alone. -/
theorem SameChannels.entryAt {channels channels' : Channels} (h : SameChannels channels channels')
    (p : Place) (hash : PaymentHash) : entryAt channels' p hash = entryAt channels p hash := by
  rw [SimLn.entryAt, h p.1, SimLn.entryAt]

/-- The entries of one channel do not depend on another. -/
theorem entryAt_insert_of_ne {channels : Channels} {scid : ShortChannelID} {c : SimulatedChannel}
    {p : Place} (h : p.1 ≠ scid) (hash : PaymentHash) :
    entryAt (channels.insert scid c) p hash = entryAt channels p hash := by
  rw [entryAt, AList.lookup_insert_ne h, entryAt]

/-- Replacing a channel by one with the same HTLCs, but for one side and hash. -/
theorem entryAt_insert {channels : Channels} {scid : ShortChannelID} {c c' : SimulatedChannel}
    {s : Side} {hash : PaymentHash} (hc : channels.lookup scid = some c)
    (hframe : ∀ t hash', (t, hash') ≠ (s, hash) →
      (c'.node t).inFlight.lookup hash' = (c.node t).inFlight.lookup hash')
    (p : Place) (hash' : PaymentHash) (hne : (p, hash') ≠ ((scid, s), hash)) :
    entryAt (channels.insert scid c') p hash' = entryAt channels p hash' := by
  by_cases hp : p.1 = scid
  · rw [entryAt, entryAt, hp, AList.lookup_insert, hc]
    refine hframe p.2 hash' fun heq => hne ?_
    obtain ⟨h1, h2⟩ := Prod.mk.inj heq
    rw [← hp, ← h1, h2]
  · exact entryAt_insert_of_ne hp hash'

/-- An HTLC is added at its place. -/
theorem Pushed.place {hash : PaymentHash} {x : HopHtlc} {c : SimulatedChannel} {s : Side}
    {channels channels' : Channels} (h : Pushed hash x c s channels channels') :
    x.place channels = some (x.ref.channelId, s) :=
  place_eq_some.mpr ⟨rfl, c, h.found, h.side⟩

/-- An HTLC is removed from its place. -/
theorem Popped.place {hash : PaymentHash} {x : HopHtlc} {success : Bool} {c : SimulatedChannel}
    {s : Side} {channels channels' : Channels} (h : Popped hash x success c s channels channels') :
    x.place channels = some (x.ref.channelId, s) :=
  place_eq_some.mpr ⟨rfl, c, h.found, h.side⟩

/-- Before it is added, there is no entry of the payment at its place. -/
theorem Pushed.fresh {hash : PaymentHash} {x : HopHtlc} {c : SimulatedChannel} {s : Side}
    {channels channels' : Channels} (h : Pushed hash x c s channels channels') :
    entryAt channels (x.ref.channelId, s) hash = none := by
  rw [entryAt, h.found]
  exact AList.lookup_eq_none.mpr h.accepts.fresh

/-- After that its entry has the HTLC and the index of its reference. -/
theorem Pushed.entry {hash : PaymentHash} {x : HopHtlc} {c : SimulatedChannel} {s : Side}
    {channels channels' : Channels} (h : Pushed hash x c s channels channels') :
    entryAt channels' (x.ref.channelId, s) hash = some (x.htlc, x.ref.index) := by
  rw [entryAt, h.result, AList.lookup_insert, h.index]
  simp only [Option.bind_some, SimulatedChannel.node_pushHtlc]
  exact AList.lookup_insert _

/-- Adding touches no other entry. -/
theorem Pushed.frame {hash : PaymentHash} {x : HopHtlc} {c : SimulatedChannel} {s : Side}
    {channels channels' : Channels} (h : Pushed hash x c s channels channels') {p : Place}
    {hash' : PaymentHash} (hne : (p, hash') ≠ ((x.ref.channelId, s), hash)) :
    entryAt channels' p hash' = entryAt channels p hash' := by
  rw [h.result]
  refine entryAt_insert (s := s) h.found (fun t hash'' hne' => ?_) p hash' hne
  rcases s.eq_or_eq_other t with rfl | rfl
  · rw [SimulatedChannel.node_pushHtlc]
    exact AList.lookup_insert_ne fun heq => hne' (by rw [heq])
  · rw [SimulatedChannel.node_other_pushHtlc]

/-- An HTLC is removed as it was added. -/
theorem Popped.entryAt {hash : PaymentHash} {x : HopHtlc} {success : Bool} {c : SimulatedChannel}
    {s : Side} {channels channels' : Channels} (h : Popped hash x success c s channels channels') :
    SimLn.entryAt channels (x.ref.channelId, s) hash = some (x.htlc, x.ref.index) := by
  rw [SimLn.entryAt, h.found]
  exact h.entry

/-- After that there is no entry of the payment at its place. -/
theorem Popped.gone {hash : PaymentHash} {x : HopHtlc} {success : Bool} {c : SimulatedChannel}
    {s : Side} {channels channels' : Channels} (h : Popped hash x success c s channels channels') :
    SimLn.entryAt channels' (x.ref.channelId, s) hash = none := by
  rw [SimLn.entryAt, h.result, AList.lookup_insert]
  simp only [Option.bind_some, SimulatedChannel.node_popHtlc]
  exact AList.lookup_erase _ _

/-- Removing touches no other entry. -/
theorem Popped.frame {hash : PaymentHash} {x : HopHtlc} {success : Bool} {c : SimulatedChannel}
    {s : Side} {channels channels' : Channels} (h : Popped hash x success c s channels channels')
    {p : Place} {hash' : PaymentHash} (hne : (p, hash') ≠ ((x.ref.channelId, s), hash)) :
    SimLn.entryAt channels' p hash' = SimLn.entryAt channels p hash' := by
  rw [h.result]
  refine entryAt_insert (s := s) h.found (fun t hash'' hne' => ?_) p hash' hne
  rcases s.eq_or_eq_other t with rfl | rfl
  · rw [SimulatedChannel.node_popHtlc]
    exact AList.lookup_erase_ne fun heq => hne' (by rw [heq])
  · rw [SimulatedChannel.node_other_popHtlc]

/-! ## What a payment owns -/

/-- The HTLCs that a payment has added and not removed. -/
def held (past : List Event) : List HopHtlc :=
  (added past).take ((added past).length - (removed past).length)

/-- What is held has been added. -/
theorem mem_held {past : List Event} {x : HopHtlc} (h : x ∈ held past) : x ∈ added past :=
  List.mem_of_mem_take h

/-- Without adding or removing the same HTLCs are held. -/
theorem held_of_silent {past es : List Event} (hadded : added es = []) (hremoved : removed es = []) :
    held (past ++ es) = held past := by
  simp [held, hadded, hremoved]

/-- Until the first removal, what is added is held. -/
theorem held_of_added {past es : List Event} {x : HopHtlc} (hnone : removed past = [])
    (hadded : added es = [x]) (hremoved : removed es = []) :
    held (past ++ es) = held past ++ [x] := by
  simp [held, hnone, hadded, hremoved]

/-- Removing takes the last HTLC held, which is the one that was added at its hop. -/
theorem held_of_removed {past : List Event} (es : List Event) {x : HopHtlc} {success : Bool} {i : Nat}
    (hadded : added es = []) (hremoved : removed es = [(x, success)])
    (hi : i + (removed past).length + 1 = (added past).length) :
    ∃ y, (added past)[i]? = some y ∧ held past = held (past ++ es) ++ [y] := by
  have hlt : i < (added past).length := by omega
  refine ⟨(added past)[i], List.getElem?_eq_getElem hlt, ?_⟩
  have hlast : (added past).length - (removed past).length = i + 1 := by omega
  have hlast' : (added (past ++ es)).length - (removed (past ++ es)).length = i := by
    rw [added_append, hadded, removed_append, hremoved, List.length_append, List.length_append]
    simp only [List.length_nil, List.length_singleton]
    omega
  rw [held, held, hlast, hlast', added_append, hadded, List.append_nil]
  exact List.take_succ_eq_append_getElem hlt

/-- The ownership invariant of a payment, over the channels `channels₀` that it started with. -/
structure Owned (channels₀ : Channels) (req : PropagatePaymentRequest) (channels : Channels)
    (past : List Event) (phase : Phase) : Prop where
  net : SameNetwork channels₀ channels
  control : Control req past phase
  located : ∀ x ∈ added past, ∃ p, x.place channels₀ = some p
  /-- No two HTLCs of the payment go to the same place. -/
  distinct : ((added past).map (·.place channels₀)).Nodup
  /-- The entries under the payment's hash are the HTLCs that it holds. -/
  entries : ∀ p e, entryAt channels p req.paymentHash = some e ↔
    ∃ x ∈ held past, x.place channels₀ = some p ∧ e = (x.htlc, x.ref.index)
  /-- It removes what it added. -/
  removes : ∀ x success, (x, success) ∈ removed past → x ∈ added past
  /-- The channels that it has used pass their sanity check. -/
  sane : ∀ x ∈ added past, ∀ c, channels.lookup x.ref.channelId = some c → c.sanityCheck = .ok ()

variable {channels₀ channels channels' : Channels} {req : PropagatePaymentRequest}
  {past es : List Event} {phase phase' : Phase}

/-- Sane channels stay sane. -/
theorem ChannelsStep.sane {hash : PaymentHash} (h : ChannelsStep hash channels channels')
    {scid : ShortChannelID}
    (hsane : ∀ c, channels.lookup scid = some c → c.sanityCheck = .ok ()) (c' : SimulatedChannel)
    (hc' : channels'.lookup scid = some c') : c'.sanityCheck = .ok () := by
  have hrel := h scid
  rw [hc'] at hrel
  generalize hc : channels.lookup scid = opt at hrel
  cases hrel with
  | some hstep => exact hstep.sanityCheck (hsane _ hc)

/-- The payment of another hash leaves all of it alone. -/
theorem Owned.stable {other : PropagatePaymentRequest} {q q' : Phase}
    (h : Owned channels₀ req channels past phase) (hne : other.paymentHash ≠ req.paymentHash)
    (hs : Step other channels q es channels' q') : Owned channels₀ req channels' past phase := by
  have hframe : ∀ p, entryAt channels' p req.paymentHash = entryAt channels p req.paymentHash := by
    intro p
    have hother : ∀ p', (p, req.paymentHash) ≠ (p', other.paymentHash) := by
      intro p' heq
      exact hne (Prod.mk.inj heq).2.symm
    cases hs.moved with
    | nothing hsame _ _ => exact hsame.entryAt p _
    | pushed hpush _ _ => exact hpush.frame (hother _)
    | popped hpop _ _ => exact hpop.frame (hother _)
    | insane hpop _ _ _ _ => exact hpop.frame (hother _)
  refine ⟨hs.channelsStep.sameNetwork h.net, h.control, h.located, h.distinct, fun p e => ?_, h.removes,
    fun x hx => hs.channelsStep.sane (h.sane x hx)⟩
  rw [hframe p]
  exact h.entries p e

/-- An HTLC of the payment that is found in a channel is one that it holds. -/
theorem Owned.held_of_entry (h : Owned channels₀ req channels past phase) {p : Place}
    {e : Htlc × UInt64} (he : entryAt channels p req.paymentHash = some e) :
    ∃ x ∈ held past, x.place channels₀ = some p ∧ e = (x.htlc, x.ref.index) :=
  (h.entries p e).mp he

/-- A step that moves no HTLC. -/
theorem Owned.silent (h : Owned channels₀ req channels past phase)
    (hs : Step req channels phase es channels' phase') (hsame : SameChannels channels channels')
    (hadded : added es = []) (hremoved : removed es = []) :
    Owned channels₀ req channels' (past ++ es) phase' := by
  have hadded' : added (past ++ es) = added past := by simp [hadded]
  have hremoved' : removed (past ++ es) = removed past := by simp [hremoved]
  refine ⟨hs.channelsStep.sameNetwork h.net, hs.control h.control, ?_, ?_, fun p e => ?_, ?_, ?_⟩
  · rw [hadded']
    exact h.located
  · rw [hadded']
    exact h.distinct
  · rw [hsame.entryAt, held_of_silent hadded hremoved]
    exact h.entries p e
  · rw [hadded', hremoved']
    exact h.removes
  · rw [hadded']
    exact fun x hx => hs.channelsStep.sane (h.sane x hx)

/-- A payment adds nothing once it has removed something. -/
theorem Log.nothing_removed {x : HopHtlc} (h : Log req (past ++ es)) (hx : x ∈ added es) :
    removed past = [] := by
  by_contra hne
  obtain ⟨⟨y, b⟩, hy⟩ := List.exists_mem_of_ne_nil _ hne
  have horder := (List.pairwise_append.mp h.order).2.2 _ (mem_removed.mp hy) _ (mem_added.mp hx)
  cases horder (by simp [Event.removed?])

/-- Adding an HTLC gives the payment one more entry. -/
theorem Owned.push {x : HopHtlc} {c : SimulatedChannel} {s : Side}
    (h : Owned channels₀ req channels past phase)
    (hs : Step req channels phase es channels' phase')
    (hpush : Pushed req.paymentHash x c s channels channels') (hadded : added es = [x])
    (hremoved : removed es = []) : Owned channels₀ req channels' (past ++ es) phase' := by
  have hcontrol := hs.control h.control
  have hnone : removed past = [] := hcontrol.log.nothing_removed (x := x) (by simp [hadded])
  have hheld : held past = added past := by simp [held, hnone]
  have hplace : x.place channels₀ = some (x.ref.channelId, s) :=
    (h.net.place x).symm.trans hpush.place
  -- the place was free, so none of the HTLCs held is there
  have hfree : ∀ y ∈ added past, y.place channels₀ ≠ some (x.ref.channelId, s) := by
    intro y hy hyp
    have hentry := (h.entries _ _).mpr ⟨y, hheld ▸ hy, hyp, rfl⟩
    rw [hpush.fresh] at hentry
    cases hentry
  refine ⟨hs.channelsStep.sameNetwork h.net, hcontrol, ?_, ?_, fun p e => ?_, ?_, ?_⟩
  · rw [added_append, hadded]
    intro y hy
    rcases List.mem_append.mp hy with hy | hy
    · exact h.located y hy
    · exact ⟨_, List.mem_singleton.mp hy ▸ hplace⟩
  · rw [added_append, hadded, List.map_append, List.nodup_append]
    refine ⟨h.distinct, List.nodup_singleton _, fun a ha b hb hab => ?_⟩
    obtain ⟨y, hy, rfl⟩ := List.mem_map.mp ha
    rw [List.map_singleton, List.mem_singleton] at hb
    exact hfree y hy (by rw [hab, hb, hplace])
  · rw [held_of_added hnone hadded hremoved]
    by_cases hp : p = (x.ref.channelId, s)
    · rw [hp, hpush.entry]
      constructor
      · intro he
        exact ⟨x, by simp, hplace, (Option.some.inj he).symm⟩
      · rintro ⟨y, hy, hyp, rfl⟩
        rcases List.mem_append.mp hy with hy | hy
        · exact absurd hyp (hfree y (mem_held hy))
        · rw [List.mem_singleton.mp hy]
    · rw [hpush.frame fun heq => hp (Prod.mk.inj heq).1, h.entries p e]
      constructor
      · rintro ⟨y, hy, hrest⟩
        exact ⟨y, List.mem_append_left _ hy, hrest⟩
      · rintro ⟨y, hy, hyp, he⟩
        rcases List.mem_append.mp hy with hy | hy
        · exact ⟨y, hy, hyp, he⟩
        · rw [List.mem_singleton.mp hy, hplace] at hyp
          exact absurd (Option.some.inj hyp).symm hp
  · rw [removed_append, hnone, hremoved]
    simp
  · rw [added_append, hadded]
    intro y hy
    rcases List.mem_append.mp hy with hy | hy
    · exact hs.channelsStep.sane (h.sane y hy)
    · rw [List.mem_singleton.mp hy]
      refine hs.channelsStep.sane fun d hd => ?_
      obtain rfl := Option.some.inj (hpush.found.symm.trans hd)
      exact hpush.accepts.sane

/-- The place of a hop's HTLC depends on the hop alone. -/
theorem HopHtlc.On.place_eq {x y : HopHtlc} {i : Nat} (hx : x.On req i) (hy : y.On req i)
    (channels : Channels) : x.place channels = y.place channels := by
  obtain ⟨hop, hhop, hxid⟩ := hx.channel
  obtain ⟨hop', hhop', hyid⟩ := hy.channel
  obtain rfl := Option.some.inj (hhop.symm.trans hhop')
  rw [HopHtlc.place, HopHtlc.place, hxid, hyid, hx.sender, hy.sender]

/-- No two of the HTLCs held are at one place. -/
theorem Owned.nodup_held (h : Owned channels₀ req channels past phase) :
    ((held past).map (·.place channels₀)).Nodup :=
  ((List.take_sublist _ _).map _).nodup h.distinct

/-- Removing the last HTLC held takes its entry away. -/
theorem Owned.pop {x : HopHtlc} {success : Bool} {c : SimulatedChannel} {s : Side}
    (h : Owned channels₀ req channels past phase)
    (hs : Step req channels phase es channels' phase')
    (hpop : Popped req.paymentHash x success c s channels channels') (hadded : added es = [])
    (hremoved : removed es = [(x, success)]) : Owned channels₀ req channels' (past ++ es) phase' := by
  have hcontrol := hs.control h.control
  have hadded' : added (past ++ es) = added past := by simp [hadded]
  have hplace : x.place channels₀ = some (x.ref.channelId, s) :=
    (h.net.place x).symm.trans hpop.place
  obtain ⟨i, hi, hxon⟩ := hcontrol.log.removedAt (removed past).length x success (by simp [hremoved])
  rw [hadded'] at hi
  obtain ⟨y, hy, hheld⟩ := held_of_removed es hadded hremoved hi
  obtain ⟨hyon, -⟩ := h.control.log.addedAt i y hy
  have hyplace : y.place channels₀ = some (x.ref.channelId, s) :=
    (hyon.place_eq hxon channels₀).trans hplace
  -- what was found at the place is the HTLC that was added there
  have hentry := (h.entries _ _).mpr ⟨y, by simp [hheld], hyplace, rfl⟩
  rw [hpop.entryAt] at hentry
  obtain ⟨hhtlc, hindex⟩ := Prod.mk.inj (Option.some.inj hentry)
  have hid : x.ref.channelId = y.ref.channelId := (place_eq_some.mp hyplace).1.symm
  have hxy : x = y := by
    ext1
    · rw [hxon.hop, hyon.hop]
    · rw [hxon.sender, hyon.sender]
    · exact HtlcRef.ext hid hindex
    · exact hhtlc
  have hnodup := h.nodup_held
  rw [hheld, List.map_append, List.nodup_append] at hnodup
  refine ⟨hs.channelsStep.sameNetwork h.net, hcontrol, ?_, ?_, fun p e => ?_, ?_, ?_⟩
  · rw [hadded']
    exact h.located
  · rw [hadded']
    exact h.distinct
  · by_cases hp : p = (x.ref.channelId, s)
    · rw [hp, hpop.gone]
      constructor
      · intro he
        cases he
      · rintro ⟨z, hz, hzp, -⟩
        exact (hnodup.2.2 _ (List.mem_map_of_mem hz) (some p) (by simp [hyplace, hp])
          (by rw [hzp, hp])).elim
    · rw [hpop.frame fun heq => hp (Prod.mk.inj heq).1, h.entries p e, hheld]
      constructor
      · rintro ⟨z, hz, hzp, he⟩
        rcases List.mem_append.mp hz with hz | hz
        · exact ⟨z, hz, hzp, he⟩
        · rw [List.mem_singleton.mp hz, hyplace] at hzp
          exact absurd (Option.some.inj hzp).symm hp
      · rintro ⟨z, hz, hrest⟩
        exact ⟨z, List.mem_append_left _ hz, hrest⟩
  · rw [hadded', removed_append, hremoved]
    intro z b hz
    rcases List.mem_append.mp hz with hz | hz
    · exact h.removes z b hz
    · obtain ⟨rfl, rfl⟩ := Prod.mk.inj (List.mem_singleton.mp hz)
      exact hxy ▸ List.mem_of_getElem? hy
  · rw [hadded']
    exact fun z hz => hs.channelsStep.sane (h.sane z hz)

/-- Every step of a payment keeps its entries in step with its events. -/
theorem Step.owned (hs : Step req channels phase es channels' phase')
    (h : Owned channels₀ req channels past phase) :
    Owned channels₀ req channels' (past ++ es) phase' := by
  cases hs.moved with
  | nothing hsame hadded hremoved => exact h.silent hs hsame hadded hremoved
  | pushed hpush hadded hremoved => exact h.push hs hpush hadded hremoved
  | popped hpop hadded hremoved => exact h.pop hs hpop hadded hremoved
  | insane hpop hinsane _ _ _ =>
    -- the channel passed its sanity check when the HTLC was added
    obtain ⟨z, hz, hzp, -⟩ := h.held_of_entry hpop.entryAt
    have hid := (place_eq_some.mp hzp).1
    exact absurd (h.sane z (mem_held hz) _ (hid ▸ hpop.found)) hinsane

/-- An HTLC that a payment has added is in flight at its place exactly while it is held. -/
theorem Owned.entry_iff (h : Owned channels₀ req channels past phase) {x : HopHtlc}
    (hx : x ∈ added past) {p : Place} (hp : x.place channels₀ = some p) :
    entryAt channels p req.paymentHash = some (x.htlc, x.ref.index) ↔ x ∈ held past := by
  constructor
  · intro hentry
    obtain ⟨y, hy, hyp, -⟩ := h.held_of_entry hentry
    have hxy : y = x :=
      List.inj_on_of_nodup_map h.distinct (mem_held hy) hx (hyp.trans hp.symm)
    exact hxy ▸ hy
  · intro hheld
    exact (h.entries p _).mpr ⟨x, hheld, hp, rfl⟩

/-- Those are the HTLCs of the first hops. -/
theorem Owned.mem_held_iff (h : Owned channels₀ req channels past phase) {x : HopHtlc}
    (hx : x ∈ added past) : x ∈ held past ↔ x.hop < (held past).length := by
  have hget : (added past)[x.hop]? = some x := h.control.getElem?_added hx
  constructor
  · intro hheld
    obtain ⟨j, hj⟩ := List.mem_iff_getElem?.mp hheld
    have hjlt := (List.getElem?_eq_some_iff.mp hj).1
    rw [held, List.getElem?_take_of_lt (by simp [held] at hjlt; omega)] at hj
    obtain ⟨hon, -⟩ := h.control.log.addedAt j x hj
    rwa [hon.hop]
  · intro hlt
    have hlen : x.hop < (added past).length - (removed past).length := by
      rw [held, List.length_take] at hlt
      omega
    refine List.mem_of_getElem? (i := x.hop) ?_
    rw [held, List.getElem?_take_of_lt hlen, hget]

/-! ## Runs of payments with distinct hashes -/

section Runs

variable {ι : Type} [DecidableEq ι] {reqs : ι → PropagatePaymentRequest}
  {w : World ι Channels Phase} {trace : List (ι × Event)}

/-- No channel has an HTLC in flight under the hash of one of the payments. -/
def HashesFree (reqs : ι → PropagatePaymentRequest) (channels : Channels) : Prop :=
  ∀ k scid c s, channels.lookup scid = some c → (reqs k).paymentHash ∉ (c.node s).inFlight

/-- So it is in every run: no other payment touches the entries of this one. -/
theorem run_owned (hfree : HashesFree reqs channels)
    (hdistinct : Function.Injective fun k => (reqs k).paymentHash)
    (h : PaymentRun reqs channels trace w) (k : ι) :
    Owned channels (reqs k) w.shared (eventsOf k trace) (w.proc k) := by
  refine h.owned_invariant (I := fun k chs past phase => Owned channels (reqs k) chs past phase)
    (fun k => ?_) (fun k chs phase es chs' phase' past hs hI => Step.owned hs hI)
    (fun j k chs phase es chs' phase' past q hne hs hI => hI.stable ?_ hs) k
  · refine ⟨.refl _, control_start _, by simp [added], by simp [added], fun p e => ?_, by simp [removed],
      by simp [added]⟩
    have hnone : entryAt channels p (reqs k).paymentHash = none := by
      cases hc : channels.lookup p.1 with
      | none => rw [entryAt, hc, Option.bind_none]
      | some c =>
        rw [entryAt, hc, Option.bind_some]
        exact AList.lookup_eq_none.mpr (hfree k p.1 c p.2 hc)
    simp [dispatched, hnone, held, added]
  · exact fun heq => hne (hdistinct heq.symm)

/-- The HTLC that payment `k` added at hop `i` is in flight: the channel that it was added to holds
it on the side of its sender, under the payment's hash and with the index it was given. -/
def HopInFlight (reqs : ι → PropagatePaymentRequest) (trace : List (ι × Event))
    (w : World ι Channels Phase) (k : ι) (i : Nat) : Prop :=
  ∃ x c s, (k, .htlcAdded x) ∈ trace ∧ x.hop = i ∧ w.shared.lookup x.ref.channelId = some c ∧
    c.sideOf x.sender = some s ∧
    (c.node s).inFlight.lookup (reqs k).paymentHash = some (x.htlc, x.ref.index)

/-- The hops in flight are the first ones, as many as HTLCs are held. -/
theorem hopInFlight_iff {k : ι}
    (h : Owned channels (reqs k) w.shared (eventsOf k trace) (w.proc k)) (i : Nat) :
    HopInFlight reqs trace w k i ↔ i < (held (eventsOf k trace)).length := by
  constructor
  · rintro ⟨x, c, s, hx, rfl, hc, hs, hentry⟩
    have hadded : x ∈ added (eventsOf k trace) := mem_added.mpr (mem_eventsOf.mpr hx)
    have hplace : x.place channels = some (x.ref.channelId, s) :=
      (h.net.place x).symm.trans (place_eq_some.mpr ⟨rfl, c, hc, hs⟩)
    refine (h.mem_held_iff hadded).mp ((h.entry_iff hadded hplace).mp ?_)
    rw [entryAt, hc]
    exact hentry
  · intro hlt
    have hx := List.getElem?_eq_getElem hlt
    generalize (held (eventsOf k trace))[i] = x at hx
    have hheld : x ∈ held (eventsOf k trace) := List.mem_of_getElem? hx
    have hadded := mem_held hheld
    obtain ⟨p, hp⟩ := h.located x hadded
    have hentry := (h.entry_iff hadded hp).mpr hheld
    obtain ⟨hid, c, hc, hs⟩ := place_eq_some.mp ((h.net.place x).trans hp)
    have hget : (added (eventsOf k trace))[i]? = some x := by
      rw [held, List.length_take] at hlt
      rw [held, List.getElem?_take_of_lt (by omega)] at hx
      exact hx
    rw [entryAt, hc] at hentry
    exact ⟨x, c, p.2, mem_eventsOf.mp (mem_added.mp hadded), (h.control.log.addedAt i x hget).1.hop,
      hid ▸ hc, hs, hentry⟩

/-- A payment removes the HTLC of a hop only after that of the next hop, if it has added one. -/
theorem Owned.removed_before (h : Owned channels₀ req channels past phase) {pre post : List Event}
    {x y : HopHtlc} {success : Bool} (hpast : past = pre ++ .htlcRemoved x success :: post)
    (hy : y ∈ added past) (hsucc : y.hop = x.hop + 1) :
    ∃ success', .htlcRemoved y success' ∈ pre := by
  have hremoved : removed past = removed pre ++ (x, success) :: removed post := by
    rw [hpast, removed_append]
    rfl
  have hx := h.control.log.removedAt (removed pre).length x success (by simp [hremoved])
  obtain ⟨i, hi, hxon⟩ := hx
  have hyget := h.control.getElem?_added hy
  have hylt := (List.getElem?_eq_some_iff.mp hyget).1
  have hihop := hxon.hop
  -- the HTLC of the next hop is the one removed just before
  have hpos : (removed pre).length - 1 < (removed pre).length := by omega
  obtain ⟨⟨z, b⟩, hz⟩ : ∃ z, (removed pre)[(removed pre).length - 1]? = some z :=
    ⟨_, List.getElem?_eq_getElem hpos⟩
  obtain ⟨j, hj, hzon⟩ := h.control.log.removedAt ((removed pre).length - 1) z b (by
    rw [hremoved, List.getElem?_append_left hpos, hz])
  have hzmem : (z, b) ∈ removed pre := List.mem_of_getElem? hz
  have hzget := h.control.getElem?_added (h.removes z b (by
    rw [hremoved]
    exact List.mem_append_left _ hzmem))
  have hjhop := hzon.hop
  have hzy : z.hop = y.hop := by omega
  rw [hzy, hyget] at hzget
  obtain rfl := Option.some.inj hzget
  exact ⟨b, mem_removed.mp hzmem⟩

/-- **The HTLCs of a payment form a prefix of its path**, in every state that payments with distinct
hashes can reach. So no node has an outgoing HTLC in flight without the incoming one; nothing else
is in flight under the hash; and no HTLC is removed before the one after it. -/
theorem in_flight_prefix (hfree : HashesFree reqs channels)
    (hdistinct : Function.Injective fun k => (reqs k).paymentHash)
    (h : PaymentRun reqs channels trace w) (k : ι) :
    (∃ m, ∀ i, HopInFlight reqs trace w k i ↔ i < m) ∧
    (∀ i, HopInFlight reqs trace w k (i + 1) → HopInFlight reqs trace w k i) ∧
    (∀ scid c s e, w.shared.lookup scid = some c →
      (c.node s).inFlight.lookup (reqs k).paymentHash = some e →
      ∃ x, (k, .htlcAdded x) ∈ trace ∧ HopInFlight reqs trace w k x.hop ∧
        x.ref.channelId = scid ∧ c.sideOf x.sender = some s ∧ e = (x.htlc, x.ref.index)) ∧
    (∀ pre post x y success, trace = pre ++ (k, .htlcRemoved x success) :: post →
      (k, .htlcAdded y) ∈ trace → y.hop = x.hop + 1 →
      ∃ success', (k, .htlcRemoved y success') ∈ pre) := by
  have howned := run_owned hfree hdistinct h k
  have hiff := hopInFlight_iff howned
  refine ⟨⟨_, hiff⟩, fun i hi => ?_, ?_, ?_⟩
  · rw [hiff] at hi ⊢
    omega
  · intro scid c s e hc he
    obtain ⟨x, hheld, hplace, rfl⟩ := howned.held_of_entry (p := (scid, s)) (e := e) (by
      rw [entryAt, hc]
      exact he)
    obtain ⟨hid, d, hd, hs⟩ := place_eq_some.mp ((howned.net.place x).trans hplace)
    obtain rfl := Option.some.inj (hc.symm.trans hd)
    have hadded := mem_held hheld
    exact ⟨x, mem_eventsOf.mp (mem_added.mp hadded),
      (hiff x.hop).mpr ((howned.mem_held_iff hadded).mp hheld), hid, hs, rfl⟩
  · intro pre post x y success htrace hy hsucc
    have hpast : eventsOf k trace
        = eventsOf k pre ++ .htlcRemoved x success :: eventsOf k post := by
      rw [htrace, eventsOf_append]
      simp [eventsOf]
    obtain ⟨success', hmem⟩ := howned.removed_before hpast
      (mem_added.mpr (mem_eventsOf.mpr hy)) hsucc
    exact ⟨success', mem_eventsOf.mp hmem⟩

/-- Two payments of Alice's to Carol, under different hashes. -/
def twoPayments (k : Bool) : PropagatePaymentRequest := aliceToCarol ⟨if k then 1 else 2⟩

theorem twoPayments_distinct : Function.Injective fun k => (twoPayments k).paymentHash := by
  intro a b hab
  cases a <;> cases b <;> first | rfl | exact absurd hab (by decide)

theorem twoPayments_free : HashesFree twoPayments threeNodes := by
  intro k scid c s hc hmem
  rw [threeNodes_inFlight scid c s hc] at hmem
  exact AList.notMem_empty _ hmem

/-- Two payments over one channel, each with its first HTLC in flight. -/
theorem in_flight_prefix_twoPayments :
    ∃ trace w, PaymentRun twoPayments threeNodes trace w ∧
      (true, .htlcAdded ⟨0, alice, ⟨⟨700⟩, 0⟩, ⟨20030, 58⟩⟩) ∈ trace ∧
      (false, .htlcAdded ⟨0, alice, ⟨⟨700⟩, 1⟩, ⟨20030, 58⟩⟩) ∈ trace ∧
      ∃ m, ∀ i, HopInFlight twoPayments trace w true i ↔ i < m := by
  have h1 : PaymentRun twoPayments threeNodes _ _ := PaymentRun.step .refl true (.add rfl)
  have h2 := h1.step false (.add rfl)
  have hfirst := in_flight_prefix twoPayments_free twoPayments_distinct h2 true
  exact ⟨_, _, h2, .head _, .tail _ (.head _), hfirst.1⟩

end Runs

end SimLn
