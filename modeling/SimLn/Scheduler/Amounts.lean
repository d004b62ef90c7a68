import SimLn.Scheduler.Drawn
import SimLn.Scheduler.Skips

/-!
# SimLn — amounts of zero

Validation draws one amount of each activity and refuses a zero. From a range that begins at zero the
draw may be something else, and the run may draw zero after all; or the draw may be zero, and an
activity is refused that another attempt accepts (`acceptedNeverZero_iff`).
-/

namespace SimLn

open Lib

/-- Accepted activities never draw an amount of zero, neither a generator in any state nor a run,
and random numbers do not decide which activities are accepted. -/
structure AcceptedNeverZero (nodes : Table PublicKey NodeInfo) (activity : List ActivityDefinition) :
    Prop where
  draws : ∀ {γ : Type} (rng : ThreadRng γ) (g g' : γ),
    validateActivity rng nodes activity g = .ok g' →
      ∀ kit ∈ activityExecutors rng activity, ∀ capacity g₁ amount g₂,
        kit.paymentGenerator.paymentAmount capacity g₁ = .ok (amount, g₂) → amount ≠ 0
  queued : ∀ {γ : Type} (rng : ThreadRng γ) (g g' : γ),
    validateActivity rng nodes activity g = .ok g' →
      ∀ start log₀ p clock log s,
        setupPaymentEvents (activityExecutors rng activity) start g' = .ok (log₀, p) →
        ClockedRun clock nodes ⟨p, start⟩ log s → ∀ e ∈ s.producer.heap.toList, e.amount ≠ 0
  accepted : ∀ {γ γ' : Type} (rng : ThreadRng γ) (rng' : ThreadRng γ') (g : γ) (g' : γ'),
    (∃ r, validateActivity rng nodes activity g = .ok r) ↔
      ∃ r, validateActivity rng' nodes activity g' = .ok r

/-- Validation refuses the flow whatever is drawn. -/
def RejectedAlways (nodes : Table PublicKey NodeInfo) (flow : ActivityDefinition) : Prop :=
  flow.amountMsat = .fixed 0 ∨ flow.amountMsat = .range 0 1 ∨ flow.source.pubkey ∉ nodes ∨
    flow.destination.features.keysend = false

/-! ## One draw -/

section Draw

variable {γ : Type} {rng : ThreadRng γ} {nodes : Table PublicKey NodeInfo} {flow : ActivityDefinition}

theorem range_of_deserialize {min max : UInt64}
    (h : (ValueOrRange.range min max).deserialize = .ok (.range min max)) : min < max := by
  unfold ValueOrRange.deserialize at h
  split at h
  next heq => cases heq
  next x y heq =>
    obtain ⟨rfl, rfl⟩ := ValueOrRange.range.inj heq
    split at h
    · cases h
    next hlt => exact UInt64.not_le.mp hlt

/-- An amount of the file that some draw does not refuse: a range from zero holds more than zero. -/
theorem amount_cases (hfile : flow.amountMsat.deserialize = .ok flow.amountMsat)
    (hrejected : ¬ RejectedAlways nodes flow) :
    (∃ x, flow.amountMsat = .fixed x ∧ x ≠ 0) ∨
      ∃ min max, flow.amountMsat = .range min max ∧ min < max ∧ (min = 0 → 1 < max) := by
  unfold RejectedAlways at hrejected
  push Not at hrejected
  obtain ⟨hfixed, hzeroOne, -, -⟩ := hrejected
  cases hamount : flow.amountMsat with
  | fixed x =>
    refine .inl ⟨x, rfl, fun hx => hfixed ?_⟩
    rw [hamount, hx]
  | range min max =>
    rw [hamount] at hfile
    have hlt := range_of_deserialize hfile
    refine .inr ⟨min, max, rfl, hlt, fun hmin => ?_⟩
    have hne : max ≠ 1 := by
      intro hmax
      apply hzeroOne
      rw [hamount, hmin, hmax]
    subst hmin
    rw [UInt64.lt_iff_toNat_lt, UInt64.toNat_zero] at hlt
    rw [UInt64.lt_iff_toNat_lt, UInt64.toNat_one]
    have hne' : max.toNat ≠ 1 := fun h => hne (UInt64.toNat_inj.mp h)
    omega

/-- An amount whose range does not begin at zero, or holds nothing else, is zero always or never. -/
theorem value_ne_zero (hfile : flow.amountMsat.deserialize = .ok flow.amountMsat)
    (hrange : ∀ max, flow.amountMsat = .range 0 max → max ≤ 1) (hrejected : ¬ RejectedAlways nodes flow)
    (g : γ) : (flow.amountMsat.value rng.genRangeU64 g).1 ≠ 0 := by
  obtain ⟨x, hamount, hx⟩ | ⟨min, max, hamount, hlt, hmax⟩ := amount_cases hfile hrejected
  · rw [hamount]
    exact hx
  · have hmin : min ≠ 0 := by
      intro hmin
      rw [hmin] at hamount
      exact UInt64.not_lt.mpr (hrange max hamount) (hmax hmin)
    obtain ⟨hle, -⟩ := rng.genRangeU64_mem g hlt
    rw [hamount]
    intro hzero
    have hsample : (rng.genRangeU64 min max g).1 = 0 := hzero
    rw [hsample, UInt64.le_iff_toNat_le, UInt64.toNat_zero] at hle
    apply hmin
    apply UInt64.toNat_inj.mp
    rw [UInt64.toNat_zero]
    omega

theorem not_ok_of_rejectedAlways (h : RejectedAlways nodes flow) (g g' : γ) :
    validatePaymentFlow rng nodes g flow ≠ .ok g' := by
  intro hok
  obtain ⟨hamount, hsource, hkeysend⟩ := validatePaymentFlow_ok hok
  rcases h with hfixed | hzeroOne | hmissing | hunable
  · rw [hfixed] at hamount
    exact hamount rfl
  · rw [hzeroOne] at hamount
    obtain ⟨-, hlt⟩ := rng.genRangeU64_mem g (show (0 : UInt64) < 1 by decide)
    apply hamount
    apply UInt64.toNat_inj.mp
    rw [UInt64.lt_iff_toNat_lt, UInt64.toNat_one] at hlt
    rw [UInt64.toNat_zero]
    show (rng.genRangeU64 0 1 g).1.toNat = 0
    omega
  · exact hmissing hsource
  · rw [hunable] at hkeysend
    cases hkeysend

theorem exists_ok_of_value_ne_zero (h : ¬ RejectedAlways nodes flow) (g : γ)
    (hamount : (flow.amountMsat.value rng.genRangeU64 g).1 ≠ 0) :
    ∃ g', validatePaymentFlow rng nodes g flow = .ok g' := by
  unfold RejectedAlways at h
  push Not at h
  obtain ⟨-, -, hsource, hkeysend⟩ := h
  unfold validatePaymentFlow
  dsimp only
  rw [if_neg hamount, if_neg (not_not.mpr hsource), if_neg (by simpa using hkeysend)]
  exact ⟨_, rfl⟩

end Draw

/-! ## All activities -/

section Activities

variable {γ : Type} {rng : ThreadRng γ} {nodes : Table PublicKey NodeInfo}
  {activity : List ActivityDefinition}

theorem validateActivity_of_mem {flow : ActivityDefinition} (hflow : flow ∈ activity) (g : γ) :
    validateActivity rng nodes activity g = activity.foldlM (validatePaymentFlow rng nodes) g := by
  cases activity with
  | nil => cases hflow
  | cons first rest => rfl

/-- Without activities nothing is drawn. -/
theorem validateActivity_nil_ok_iff {γ' : Type} (rng : ThreadRng γ) (rng' : ThreadRng γ') (g : γ)
    (g' : γ') : (∃ r, validateActivity rng nodes [] g = .ok r) ↔
      ∃ r, validateActivity rng' nodes [] g' = .ok r := by
  unfold validateActivity
  split
  · simp
  · cases nodes.entries.find? (!·.2.features.keysend) with
    | none => simp [pure, Except.pure]
    | some node => simp

/-- A list with a flow that is always rejected is not accepted. -/
theorem not_ok_of_mem_rejectedAlways {flow : ActivityDefinition} (hflow : flow ∈ activity)
    (hrejected : RejectedAlways nodes flow) (g g' : γ) :
    validateActivity rng nodes activity g ≠ .ok g' := by
  intro hok
  obtain ⟨g₁, g₂, hvalid⟩ := validateActivity_ok hok flow hflow
  exact not_ok_of_rejectedAlways hrejected g₁ g₂ hvalid

/-- Without ranges that may come to zero, a list is accepted if no flow of it is always rejected. -/
theorem validateActivity_ok_iff {flow : ActivityDefinition} (hflow : flow ∈ activity)
    (hamounts : ∀ flow ∈ activity, ¬ RejectedAlways nodes flow →
      ∀ g : γ, (flow.amountMsat.value rng.genRangeU64 g).1 ≠ 0) (g : γ) :
    (∃ r, validateActivity rng nodes activity g = .ok r) ↔
      ∀ flow ∈ activity, ¬ RejectedAlways nodes flow := by
  constructor
  · rintro ⟨r, hok⟩ other hother hrejected
    exact not_ok_of_mem_rejectedAlways hother hrejected g r hok
  · intro hnone
    rw [validateActivity_of_mem hflow]
    apply foldlM_ok_of_forall
    intro other hother g₁
    have hother' := hnone other hother
    exact exists_ok_of_value_ne_zero hother' g₁ (hamounts other hother hother' g₁)

section Kept

variable (hfile : ∀ flow ∈ activity, flow.amountMsat.deserialize = .ok flow.amountMsat)
  (hcond : (∃ flow ∈ activity, RejectedAlways nodes flow) ∨
    ∀ flow ∈ activity, ∀ max, flow.amountMsat = .range 0 max → max ≤ 1)

include hfile hcond

theorem value_ne_zero_of_accepted {g g' : γ} (hok : validateActivity rng nodes activity g = .ok g')
    {flow : ActivityDefinition} (hflow : flow ∈ activity) (g₁ : γ) :
    (flow.amountMsat.value rng.genRangeU64 g₁).1 ≠ 0 := by
  have hnone : ∀ other ∈ activity, ¬ RejectedAlways nodes other := fun other hother hrejected =>
    not_ok_of_mem_rejectedAlways hother hrejected g g' hok
  rcases hcond with ⟨other, hother, hrejected⟩ | hranges
  · exact absurd hrejected (hnone other hother)
  · exact value_ne_zero (hfile flow hflow) (hranges flow hflow) (hnone flow hflow) g₁

/-- Random numbers do not decide: a flow is rejected in any case, or no draw that matters is zero. -/
theorem accepted_iff_accepted {γ' : Type} (rng : ThreadRng γ) (rng' : ThreadRng γ') (g : γ) (g' : γ') :
    (∃ r, validateActivity rng nodes activity g = .ok r) ↔
      ∃ r, validateActivity rng' nodes activity g' = .ok r := by
  rcases hcond with ⟨other, hother, hrejected⟩ | hranges
  · have hnone : ∀ {γ : Type} (rng : ThreadRng γ) (g : γ),
        ¬ ∃ r, validateActivity rng nodes activity g = .ok r := by
      intro γ rng g hok
      obtain ⟨r, hok⟩ := hok
      exact not_ok_of_mem_rejectedAlways hother hrejected g r hok
    exact iff_of_false (hnone rng g) (hnone rng' g')
  · have hamounts : ∀ {γ : Type} (rng : ThreadRng γ), ∀ flow ∈ activity, ¬ RejectedAlways nodes flow →
        ∀ g : γ, (flow.amountMsat.value rng.genRangeU64 g).1 ≠ 0 := fun rng flow hflow hrejected =>
      value_ne_zero (hfile flow hflow) (hranges flow hflow) hrejected
    cases hactivity : activity with
    | nil => exact validateActivity_nil_ok_iff rng rng' g g'
    | cons first rest =>
      have hfirst : first ∈ activity := by simp [hactivity]
      rw [← hactivity, validateActivity_ok_iff hfirst (hamounts rng),
        validateActivity_ok_iff hfirst (hamounts rng')]

end Kept

end Activities

/-! ## When zero is kept out -/

/-- Random numbers that are always the highest possible. -/
def highestRng : ThreadRng Unit where
  genRangeU16 lo hi g := ((alternatingRng.genRangeU16 lo hi true).1, g)
  genRangeU64 lo hi g := ((alternatingRng.genRangeU64 lo hi true).1, g)
  genRangeU16_mem _ h := alternatingRng.genRangeU16_mem true h
  genRangeU64_mem _ h := alternatingRng.genRangeU64_mem true h

/-- The highest value of an amount that may be other than zero is. -/
theorem highest_ne_zero {nodes : Table PublicKey NodeInfo} {flow : ActivityDefinition}
    (hfile : flow.amountMsat.deserialize = .ok flow.amountMsat)
    (hrejected : ¬ RejectedAlways nodes flow) :
    (flow.amountMsat.value highestRng.genRangeU64 ()).1 ≠ 0 := by
  obtain ⟨x, hamount, hx⟩ | ⟨min, max, hamount, hlt, hmax⟩ := amount_cases hfile hrejected
  · rw [hamount]
    exact hx
  · rw [hamount]
    intro hzero
    have hhighest : max - 1 = 0 := hzero
    have hone : max = 1 := by
      rw [← UInt64.sub_add_cancel max 1, hhighest]
      rfl
    subst hone
    have hmin : min = 0 := by
      apply UInt64.toNat_inj.mp
      rw [UInt64.lt_iff_toNat_lt, UInt64.toNat_one] at hlt
      rw [UInt64.toNat_zero]
      omega
    exact UInt64.lt_irrefl 1 (hmax hmin)

/-- **What is accepted never pays zero** exactly if some flow is refused in any case or no range
holds zero and something else. -/
theorem acceptedNeverZero_iff (nodes : Table PublicKey NodeInfo) {activity : List ActivityDefinition}
    (hfile : ∀ flow ∈ activity, flow.amountMsat.deserialize = .ok flow.amountMsat) :
    AcceptedNeverZero nodes activity ↔
      (∃ flow ∈ activity, RejectedAlways nodes flow) ∨
        ∀ flow ∈ activity, ∀ max, flow.amountMsat = .range 0 max → max ≤ 1 := by
  constructor
  · intro h
    by_contra hcond
    push Not at hcond
    obtain ⟨hrejected, flow, hflow, max, hamount, hmax⟩ := hcond
    -- the highest draws are accepted, the lowest one of this flow is zero
    have hhighest : ∀ other ∈ activity, ¬ RejectedAlways nodes other →
        ∀ g, (other.amountMsat.value highestRng.genRangeU64 g).1 ≠ 0 :=
      fun other hother hother' _ => highest_ne_zero (hfile other hother) hother'
    have haccepted := (validateActivity_ok_iff hflow hhighest ()).mpr hrejected
    obtain ⟨r, hok⟩ := (h.accepted highestRng lowestRng () ()).mp haccepted
    obtain ⟨g₁, g₂, hvalid⟩ := validateActivity_ok hok flow hflow
    have hzero := (validatePaymentFlow_ok hvalid).1
    rw [hamount] at hzero
    exact hzero rfl
  · intro hcond
    refine ⟨?_, ?_, accepted_iff_accepted hfile hcond⟩
    · intro γ rng g g' hok kit hkit capacity g₁ amount g₂ hdraw
      obtain ⟨flow, hflow, rfl⟩ := mem_activityExecutors.mp hkit
      cases capacity with
      | some c => cases hdraw
      | none =>
        obtain ⟨rfl, -⟩ := Prod.mk.inj (Except.ok.inj hdraw)
        exact value_ne_zero_of_accepted hfile hcond hok hflow g₁
    · intro γ rng g g' hok start log₀ p clock log s hsetup hrun e he
      obtain ⟨kit, hkit, -, hpays⟩ := (drawn_run hsetup hrun).queued e he
      obtain ⟨flow, hflow, rfl⟩ := mem_activityExecutors.mp hkit
      obtain ⟨-, g₁, hdraw⟩ := own_of_pays hpays
      rw [hdraw]
      exact value_ne_zero_of_accepted hfile hcond hok hflow g₁

/-! ## Ranges from zero and from one -/

theorem acceptedNeverZero_from_one :
    AcceptedNeverZero sampleNodes [{ rangeActivity with amountMsat := .range 1 2000 }] := by
  refine (acceptedNeverZero_iff sampleNodes fun flow hflow => ?_).mpr (.inr fun flow hflow max hmax => ?_)
  · obtain rfl := List.mem_singleton.mp hflow
    rfl
  · obtain rfl := List.mem_singleton.mp hflow
    exact absurd (ValueOrRange.range.inj hmax).1 (by decide)

/-- A range from zero is accepted with the highest draw and refused with the lowest one. Once
accepted, its first payment is of amount zero. -/
theorem not_acceptedNeverZero_from_zero :
    rangeActivity.amountMsat.deserialize = .ok rangeActivity.amountMsat ∧
      (∃ g log p e, validateActivity alternatingRng sampleNodes [rangeActivity] true = .ok g ∧
        setupPaymentEvents (activityExecutors alternatingRng [rangeActivity]) 0 g = .ok (log, p) ∧
        e ∈ p.heap.toList ∧ e.amount = 0) ∧
      (∃ e, validateActivity alternatingRng sampleNodes [rangeActivity] false = .error e) ∧
      ¬ AcceptedNeverZero sampleNodes [rangeActivity] := by
  have hdrawn : ∃ g log p e,
      validateActivity alternatingRng sampleNodes [rangeActivity] true = .ok g ∧
      setupPaymentEvents (activityExecutors alternatingRng [rangeActivity]) 0 g = .ok (log, p) ∧
      p.heap.toList = [e] ∧ e.amount = 0 := ⟨false, _, _, _, rfl, rfl, rfl, rfl⟩
  obtain ⟨g, log, p, e, hvalid, hsetup, hheap, hzero⟩ := hdrawn
  have hmem : e ∈ p.heap.toList := by
    rw [hheap]
    exact List.mem_singleton_self e
  refine ⟨rfl, ⟨g, log, p, e, hvalid, hsetup, hmem, hzero⟩, ⟨_, rfl⟩, fun h => ?_⟩
  exact h.queued alternatingRng true g hvalid 0 log p .exact [] _ hsetup (.refl _) e hmem hzero

end SimLn
