import FeedAnalyzer.CreditRouting
import Mathlib.Data.Prod.Lex
import Mathlib.Data.String.Basic
import Mathlib.Tactic.Ring

/-!
# The estimates of the structure learner

A group of enough samples of one edge becomes one estimate.  `estimate_edges` and
`estimate_correlation_edges` differ only in what a sample is grouped by and how its return
is oriented.  Arithmetic is exact.
-/

namespace Credibility

open Feed Transact Prediction List

/-- What an estimator uses of a sample. -/
structure Observation (K : Type) where
  key : K
  value : Rat
  isAbnormal : Bool

/-- The settings, as `LearningSettings` admits them. -/
structure EstimatorSettings where
  deadband : Rat
  minSamples : Nat
  abnormalMinSamples : Nat := 2
  deadband_nonneg : 0 ≤ deadband

structure Estimate (K : Type) where
  key : K
  direction : Direction
  weight : Rat
  confidence : Rat
  alpha : Rat
  beta : Rat
  sampleCount : Nat

variable {K T : Type} (settings : EstimatorSettings) (k : K) (group : List (Observation K))

namespace EstimatorSettings

def effectiveMin : Nat :=
  if group.any Observation.isAbnormal then min settings.abnormalMinSamples settings.minSamples
  else settings.minSamples

def direction (mean : Rat) : Direction :=
  if settings.deadband < mean then .up else if mean < -settings.deadband then .down else .neutral

end EstimatorSettings

def mean : Rat := (group.map Observation.value).sum / group.length

def agrees : Direction → Rat → Bool
  | .up, value => 0 < value
  | .down, value => value < 0
  | .neutral, _ => false

def agreeing (direction : Direction) : Nat :=
  group.countP fun observation => agrees direction observation.value

/-- The estimate of one group; a 5% mean move has the weight 1. -/
def groupEstimate : Option (Estimate K) :=
  if group.length < settings.effectiveMin group then none
  else
    let direction := settings.direction (mean group)
    some {
      key := k
      direction := direction
      weight := min 1 (|mean group| / (1 / 20))
      confidence := agreeing group direction / group.length
      alpha := agreeing group direction + 1
      beta := (group.length - agreeing group direction) + 1
      sampleCount := group.length }

variable {settings k group}

theorem groupEstimate_perm {group' : List (Observation K)} (hperm : group.Perm group') :
    groupEstimate settings k group' = groupEstimate settings k group := by
  have hmean : mean group' = mean group := by
    rw [mean, mean, hperm.length_eq, (hperm.map Observation.value).sum_eq]
  have hagreeing : agreeing group' = agreeing group := funext fun _ => (hperm.countP_eq _).symm
  have hmin : settings.effectiveMin group' = settings.effectiveMin group := by
    rw [EstimatorSettings.effectiveMin, EstimatorSettings.effectiveMin, hperm.any_eq]
  rw [groupEstimate, groupEstimate, hmean, hagreeing, hmin, hperm.length_eq]

def Observation.negated (observation : Observation K) : Observation K :=
  { observation with value := -observation.value }

theorem mean_negated : mean (group.map Observation.negated) = -mean group := by
  have hsum : (group.map fun observation => -observation.value).sum =
      -(group.map Observation.value).sum := by
    rw [sum_neg, map_map]
    rfl
  rw [mean, mean, map_map, length_map, ← neg_div, ← hsum]
  rfl

/-- The same estimate with its direction turned around. -/
def Estimate.swapped (e : Estimate K) : Estimate K := { e with direction := flip e.direction }

theorem groupEstimate_negated : groupEstimate settings k (group.map Observation.negated) =
    (groupEstimate settings k group).map Estimate.swapped := by
  have hdirection : settings.direction (-mean group) = flip (settings.direction (mean group)) := by
    have hband := settings.deadband_nonneg
    unfold EstimatorSettings.direction
    split_ifs <;> first | rfl | (exfalso; linarith)
  have hagreeing : ∀ direction, agreeing (group.map Observation.negated) (flip direction) =
      agreeing group direction := by
    intro direction
    rw [agreeing, agreeing, countP_map]
    cases direction <;> simp [Function.comp_def, Observation.negated, agrees,
      Prediction.flip]
  have hmin : settings.effectiveMin (group.map Observation.negated) =
      settings.effectiveMin group := by
    rw [EstimatorSettings.effectiveMin, EstimatorSettings.effectiveMin, any_map]
    rfl
  simp only [groupEstimate, mean_negated, hmin, length_map, hdirection, hagreeing, abs_neg]
  split_ifs <;> rfl

theorem exists_pos_of_mean_pos (hpos : 0 < mean group) :
    ∃ observation ∈ group, 0 < observation.value := by
  have hsum : 0 < (group.map Observation.value).sum := by
    by_contra hneg
    exact absurd hpos (not_lt.mpr
      (div_nonpos_of_nonpos_of_nonneg (not_lt.mp hneg) (Nat.cast_nonneg _)))
  exact exists_lt_of_sum_lt (fun _ => 0) _ (by simpa using hsum)

structure Estimate.Sound (e : Estimate K) (group : List (Observation K)) : Prop where
  supported : e.direction ≠ .neutral →
    ∃ observation ∈ group, agrees e.direction observation.value = true
  weight : 0 ≤ e.weight ∧ e.weight ≤ 1
  confidence : 0 ≤ e.confidence ∧ e.confidence ≤ 1
  counts : e.alpha + e.beta = e.sampleCount + 2

/-- A mean beyond the deadband has a return on its side. -/
theorem exists_agreeing (hdirection : settings.direction (mean group) ≠ .neutral) :
    ∃ observation ∈ group, agrees (settings.direction (mean group)) observation.value := by
  have hband := settings.deadband_nonneg
  unfold EstimatorSettings.direction at hdirection ⊢
  split_ifs at hdirection ⊢ with hup hdown
  · obtain ⟨observation, hmem, hpos⟩ := exists_pos_of_mean_pos (hband.trans_lt hup)
    exact ⟨observation, hmem, decide_eq_true hpos⟩
  · have hneg : 0 < mean (group.map Observation.negated) := by
      rw [mean_negated]
      linarith
    obtain ⟨_, hnegated, hpos⟩ := exists_pos_of_mean_pos hneg
    obtain ⟨observation, hmem, rfl⟩ := mem_map.mp hnegated
    exact ⟨observation, hmem, decide_eq_true (neg_pos.mp hpos)⟩
  · exact absurd rfl hdirection

variable {e : Estimate K}

theorem groupEstimate_eq_some (hsome : groupEstimate settings k group = some e) :
    e.key = k ∧ e.Sound group := by
  unfold groupEstimate at hsome
  split at hsome
  · cases hsome
  · cases hsome
    have hcount : agreeing group (settings.direction (mean group)) ≤ group.length :=
      countP_le_length
    refine ⟨rfl, exists_agreeing, ⟨?_, min_le_left _ _⟩, ⟨by positivity, ?_⟩, ?_⟩
    · exact le_min zero_le_one (by positivity)
    · exact div_le_one_of_le₀ (by exact_mod_cast hcount) (by positivity)
    · ring

variable (settings k) [DecidableEq K] [LinearOrder T] (rank : K → T)
  (observations : List (Observation K))

/-- The samples of one group. -/
def groupOf : List (Observation K) := observations.filter fun observation => observation.key = k

/-- The estimates of all groups, sorted by the texts of their keys. -/
def estimate : List (Estimate K) :=
  ((observations.map Observation.key).eraseDups.filterMap fun k =>
    groupEstimate settings k (groupOf k observations)).insertionSort
      fun e e' => rank e.key ≤ rank e'.key

variable {settings k rank observations}

theorem mem_estimate (he : e ∈ estimate settings rank observations) :
    groupEstimate settings e.key (groupOf e.key observations) = some e := by
  rw [estimate, mem_insertionSort, mem_filterMap] at he
  obtain ⟨k, _, hsome⟩ := he
  rwa [(groupEstimate_eq_some hsome).1]

/-- The order of the samples does not matter: the estimates are sorted by their
keys, and those differ. -/
theorem estimate_perm (hrank : Function.Injective rank) {observations' : List (Observation K)}
    (hperm : observations.Perm observations') :
    estimate settings rank observations' = estimate settings rank observations := by
  have hgroup : ∀ k, groupEstimate settings k (groupOf k observations') =
      groupEstimate settings k (groupOf k observations) :=
    fun k => groupEstimate_perm (hperm.filter _)
  refine Perm.eq_of_pairwise ?_ (pairwise_insertionSort _ _) (pairwise_insertionSort _ _) ?_
  · intro e e' he he' hle hge
    have hkey : e.key = e'.key := hrank (le_antisymm hle hge)
    have hsome := mem_estimate he
    rw [hgroup, hkey, mem_estimate he'] at hsome
    exact (Option.some.inj hsome).symm
  · have hkeys : (observations'.map Observation.key).eraseDups.Perm
        (observations.map Observation.key).eraseDups :=
      (perm_ext_iff_of_nodup (nodup_eraseDups _) (nodup_eraseDups _)).mpr fun k => by
        rw [mem_eraseDups, mem_eraseDups, (hperm.map _).mem_iff]
    refine (perm_insertionSort _ _).trans (Perm.trans ?_ (perm_insertionSort _ _).symm)
    simp only [hgroup]
    exact hkeys.filterMap _

theorem estimate_negated :
    estimate settings rank (observations.map Observation.negated) =
      (estimate settings rank observations).map Estimate.swapped := by
  have hgroup : ∀ k, groupEstimate settings k (groupOf k (observations.map Observation.negated)) =
      (groupEstimate settings k (groupOf k observations)).map Estimate.swapped := by
    intro k
    rw [groupOf, filter_map]
    exact groupEstimate_negated
  unfold estimate
  rw [map_insertionSort (r := fun e e' : Estimate K => rank e.key ≤ rank e'.key)
    (s := fun e e' => rank e.key ≤ rank e'.key) _ _ fun _ _ _ _ => Iff.rfl, map_filterMap, map_map]
  simp only [hgroup]
  rfl

structure Sample (reg : Registry) where
  factor : EventType
  condition : Option ConditionCode
  polarity : EventPolarity
  asset : AssetId reg
  actualReturn : Rat
  isAbnormal : Bool := false

variable {reg : Registry}

namespace Sample

/-- A resolution is the negation of its factor. -/
def signedReturn (sample : Sample reg) : Rat :=
  if sample.polarity = .resolution then -sample.actualReturn else sample.actualReturn

def observation (sample : Sample reg) :
    Observation (EventType × Option ConditionCode × AssetId reg) :=
  ⟨(sample.factor, sample.condition, sample.asset), sample.signedReturn, sample.isAbnormal⟩

/-- The opposite polarity with the negated return. -/
def opposite (sample : Sample reg) : Sample reg :=
  { sample with
    polarity := match sample.polarity with
      | .occurrence => .resolution
      | .resolution => .occurrence
    actualReturn := -sample.actualReturn }

def negated (sample : Sample reg) : Sample reg :=
  { sample with actualReturn := -sample.actualReturn }

theorem observation_opposite (sample : Sample reg) :
    sample.opposite.observation = sample.observation := by
  unfold observation signedReturn opposite
  cases sample.polarity <;> simp

theorem observation_negated (sample : Sample reg) :
    sample.negated.observation = sample.observation.negated := by
  unfold observation signedReturn negated Observation.negated
  cases sample.polarity <;> simp

end Sample

/-- The sort key of an estimate. -/
def edgeRank (key : EventType × Option ConditionCode × AssetId reg) : String ×ₗ String ×ₗ String :=
  toLex (key.1.value, toLex ((key.2.1.map ConditionCode.value).getD "", key.2.2.value))

variable (settings)

def estimateEdges (samples : List (Sample reg)) :
    List (Estimate (EventType × Option ConditionCode × AssetId reg)) :=
  estimate settings edgeRank (samples.map Sample.observation)

theorem edgeRank_injective : Function.Injective (@edgeRank reg) := by
  rintro ⟨factor, condition, asset⟩ ⟨factor', condition', asset'⟩ heq
  obtain ⟨hfactor, hrest⟩ := Prod.ext_iff.mp (toLex.injective heq)
  obtain ⟨hcondition, hasset⟩ := Prod.ext_iff.mp (toLex.injective hrest)
  have hfactor := congrArg parseEventType hfactor
  rw [parseEventType_value, parseEventType_value] at hfactor
  cases hfactor
  cases Subtype.ext hasset
  have hread : ∀ code : Option ConditionCode,
      parseCondition ((code.map ConditionCode.value).getD "") = code := by
    intro code
    cases code with
    | none => decide
    | some code => exact parseCondition_value code
  rw [← hread condition, ← hread condition']
  exact congrArg (fun text => (factor, parseCondition text, asset)) hcondition

/-- **The estimates' symmetries.**  The order of the samples and the polarity of a return do
not matter; negated returns turn the directions around and nothing else; and each estimate
is supported, with a weight and a confidence in the unit interval and its counts over the
prior. -/
theorem estimates_symmetric (samples : List (Sample reg)) :
    (∀ samples', samples.Perm samples' →
        estimateEdges settings samples' = estimateEdges settings samples) ∧
      (∀ before sample after, samples = before ++ sample :: after →
        estimateEdges settings (before ++ sample.opposite :: after) =
          estimateEdges settings samples) ∧
      estimateEdges settings (samples.map Sample.negated) =
        (estimateEdges settings samples).map Estimate.swapped ∧
      ∀ e ∈ estimateEdges settings samples,
        e.Sound (groupOf e.key (samples.map Sample.observation)) := by
  refine ⟨?_, ?_, ?_, fun e he => (groupEstimate_eq_some (mem_estimate he)).2⟩
  · exact fun samples' hperm => estimate_perm edgeRank_injective (hperm.map _)
  · rintro before sample after rfl
    unfold estimateEdges
    rw [map_append, map_append, map_cons, map_cons, sample.observation_opposite]
  · rw [estimateEdges, estimateEdges, ← estimate_negated, map_map, map_map]
    exact congrArg _ (map_congr_left fun sample _ => sample.observation_negated)

end Credibility
