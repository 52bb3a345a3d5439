import FeedAnalyzer.PredictionDecision
import Mathlib.Tactic.FieldSimp
import Mathlib.Tactic.Ring

/-!
# Laws of the decision

What `decide` makes of the edges depends on the forces only.  The one place where up
and down are not alike is a net force of zero with a deadband of zero.
-/

namespace Prediction

open Feed List

variable {reg : Registry}

/-- A decision without the account of how it was made. -/
structure Stance where
  direction : Direction
  magnitude : Magnitude
  confidence : Confidence
  deriving DecidableEq

def Decision.stance (d : Decision) : Stance := ⟨d.direction, d.magnitude, d.confidence⟩

/-- The edges that push up or down. -/
def directionalEdges (edges : List (FiringEdge reg)) (polarities : Polarities)
    (elevated : Bool) : List (FiringEdge reg × Direction) :=
  (effectiveEdges edges polarities elevated).filter fun pair => pair.2 ≠ .neutral

/-- The edges whose weights make the magnitude. -/
def agreeingEdges (direction : Direction) (directional : List (FiringEdge reg × Direction)) :
    List (FiringEdge reg × Direction) :=
  if direction = .neutral then directional
  else directional.filter fun pair => pair.2 = direction

theorem agreeingEdges_ne_nil {direction : Direction}
    {directional : List (FiringEdge reg × Direction)} (hsome : directional ≠ [])
    (hagrees : direction = .neutral ∨ ∃ pair ∈ directional, pair.2 = direction) :
    agreeingEdges direction directional ≠ [] := by
  unfold agreeingEdges
  split
  · exact hsome
  · next hdirection =>
    obtain ⟨pair, hpair, hpush⟩ := hagrees.resolve_left hdirection
    exact ne_nil_of_mem (mem_filter.mpr ⟨hpair, decide_eq_true hpush⟩)

def averageWeight (agreeing : List (FiringEdge reg × Direction)) : Rat :=
  (agreeing.map (fun pair => pair.1.weight)).sum / agreeing.length

def judge (policy : DecisionPolicy) (directional : List (FiringEdge reg × Direction)) :
    Except DecisionError (Option Stance) :=
  let f := forces directional
  let agreeing := agreeingEdges (f.direction policy) directional
  if directional = [] then .ok none
  else if agreeing = [] then .error (.zeroDivision "division by zero")
  else .ok (some
    ⟨f.direction policy, magnitudeOf policy (averageWeight agreeing), f.confidence policy⟩)

variable {policy : DecisionPolicy} {assetId : AssetId reg} {edges : List (FiringEdge reg)}
  {polarities : Polarities} {elevated : Bool} {directional : List (FiringEdge reg × Direction)}

theorem decide_stance :
    (decide policy assetId edges polarities elevated).map (Option.map Decision.stance) =
      judge policy (directionalEdges edges polarities elevated) := by
  unfold decide judge directionalEdges agreeingEdges
  dsimp only
  split
  · rfl
  · rw [apply_ite (Except.map _)]
    rfl

theorem decide_eq_ok_iff (assetId : AssetId reg) {stance : Option Stance} :
    (∃ result, decide policy assetId edges polarities elevated = .ok result ∧
      result.map Decision.stance = stance) ↔
      judge policy (directionalEdges edges polarities elevated) = .ok stance := by
  rw [← @decide_stance _ _ assetId]
  cases decide policy assetId edges polarities elevated <;> simp [Except.map]

variable {f g : Forces} {directional' : List (FiringEdge reg × Direction)} {x y : Rat}
  {stance : Stance} {pair : FiringEdge reg × Direction}

theorem Forces.ext (hnet : f.net = g.net) (htotal : f.total = g.total) : f = g := by
  cases g
  subst hnet htotal
  rfl

theorem forces_concat (pair : FiringEdge reg × Direction) :
    forces (directional ++ [pair]) = (forces directional).add pair.1 pair.2 :=
  foldl_append

theorem forces_perm (hperm : directional'.Perm directional) :
    forces directional' = forces directional := by
  refine hperm.foldl_eq' (fun a _ b _ f => Forces.ext ?_ ?_) _
  · simp only [Forces.add]
    ring
  · simp only [Forces.add]
    ring

/-- The order of evidence is immaterial. -/
theorem judge_perm (hperm : directional'.Perm directional) :
    judge policy directional' = judge policy directional := by
  have hagreeing : ∀ direction, (agreeingEdges direction directional').Perm
      (agreeingEdges direction directional) := by
    intro direction
    unfold agreeingEdges
    split
    · exact hperm
    · exact hperm.filter _
  have hempty : ∀ {xs ys : List (FiringEdge reg × Direction)}, xs.Perm ys →
      (xs = [] ↔ ys = []) := by
    intro xs ys hxs
    rw [← length_eq_zero_iff, ← length_eq_zero_iff, hxs.length_eq]
  have haverage : ∀ direction, averageWeight (agreeingEdges direction directional') =
      averageWeight (agreeingEdges direction directional) := by
    intro direction
    unfold averageWeight
    rw [((hagreeing direction).map _).sum_eq, (hagreeing direction).length_eq]
  simp only [judge, forces_perm hperm, haverage, hempty hperm, hempty (hagreeing _)]

theorem round4_mono (hle : x ≤ y) : round4 x ≤ round4 y := by
  have hround := roundHalfEven_mono (x := x * 10000) (y := y * 10000) (by linarith)
  have hcast : (roundHalfEven (x * 10000) : Rat) ≤ roundHalfEven (y * 10000) := by
    exact_mod_cast hround
  unfold round4
  linarith

theorem forces_bounded (directional : List (FiringEdge reg × Direction)) :
    max (forces directional).net (-(forces directional).net) ≤ (forces directional).total := by
  induction directional using reverseRecOn with
  | nil => simp [forces]
  | append_singleton directional pair ih =>
    have hstrength := pair.1.strength_nonneg
    obtain ⟨hup, hdown⟩ := max_le_iff.mp ih
    rw [forces_concat, max_le_iff]
    simp only [Forces.add]
    split_ifs <;> constructor <;> linarith

theorem Forces.evidence (policy : DecisionPolicy) (hbounded : max f.net (-f.net) ≤ f.total) :
    f.consensus * f.mass policy = max f.net (-f.net) / (f.total + policy.evidenceHalfpoint) := by
  have hhalf := policy.halfpoint_pos
  unfold consensus mass
  split
  · next htotal =>
    field_simp
  · next hnone =>
    have hnet : max f.net (-f.net) = 0 := by
      obtain ⟨hup, hdown⟩ := max_le_iff.mp hbounded
      have hzero : f.net = 0 := by linarith
      simp [hzero]
    rw [hnet, zero_div, zero_mul]

/-- More force the way the net force goes never lowers the confidence. -/
theorem confidence_mono {strength : Rat} (hstrength : 0 ≤ strength)
    (hf : max f.net (-f.net) ≤ f.total) (hg : max g.net (-g.net) ≤ g.total)
    (hnet : max g.net (-g.net) = max f.net (-f.net) + strength)
    (htotal : g.total = f.total + strength) :
    (f.confidence policy).1 ≤ (g.confidence policy).1 := by
  have hhalf := policy.halfpoint_pos
  have hnonneg := f.total_nonneg
  refine round4_mono (min_le_min le_rfl ?_)
  rw [Forces.evidence policy hf, Forces.evidence policy hg, hnet, htotal,
    div_le_div_iff₀ (by linarith) (by linarith)]
  nlinarith

/-- A decision other than neutral is confident enough, and goes the way of the
net force; a balance counts as down. -/
theorem Forces.direction_cases (hdirection : f.direction policy ≠ .neutral) :
    ¬ (f.confidence policy).1 < policy.deadband ∧
      (0 < f.net ∧ f.direction policy = .up ∨ f.net ≤ 0 ∧ f.direction policy = .down) := by
  unfold Forces.direction at hdirection ⊢
  by_cases hlow : (f.confidence policy).1 < policy.deadband
  · exact absurd (if_pos hlow) hdirection
  · refine ⟨hlow, ?_⟩
    rw [if_neg hlow]
    by_cases hup : 0 < f.net
    · exact Or.inl ⟨hup, if_pos hup⟩
    · exact Or.inr ⟨not_lt.mp hup, if_neg hup⟩

theorem judge_eq_some (hjudge : judge policy directional = .ok (some stance)) :
    stance.direction = (forces directional).direction policy ∧
      stance.confidence = (forces directional).confidence policy := by
  unfold judge at hjudge
  dsimp only at hjudge
  split at hjudge
  · cases hjudge
  · split at hjudge
    · cases hjudge
    · cases hjudge
      exact ⟨rfl, rfl⟩

theorem judge_ne_none (hsome : directional ≠ []) : judge policy directional ≠ .ok none := by
  intro hjudge
  rw [judge, if_neg hsome] at hjudge
  split at hjudge <;> cases hjudge

/-- Agreeing evidence adds confidence. -/
theorem direction_add (hdirection : (forces directional).direction policy ≠ .neutral)
    (hagrees : pair.2 = (forces directional).direction policy) :
    (forces (directional ++ [pair])).direction policy = (forces directional).direction policy ∧
      ((forces directional).confidence policy).1 ≤
        ((forces (directional ++ [pair])).confidence policy).1 := by
  obtain ⟨hconfident, hsign⟩ := Forces.direction_cases hdirection
  have hstrength := pair.1.strength_nonneg
  have hadd := @forces_concat _ directional pair
  have hmono : max (forces (directional ++ [pair])).net (-(forces (directional ++ [pair])).net) =
      max (forces directional).net (-(forces directional).net) + pair.1.strength →
      ((forces directional).confidence policy).1 ≤
        ((forces (directional ++ [pair])).confidence policy).1 := fun hnet =>
    confidence_mono hstrength (forces_bounded _) (forces_bounded _) hnet (by rw [hadd]; rfl)
  rcases hsign with ⟨hup, hd⟩ | ⟨hdown, hd⟩
  · have hnet : (forces (directional ++ [pair])).net =
        (forces directional).net + pair.1.strength := by
      simp [hadd, Forces.add, hagrees, hd]
    have hhigher := hmono (by
      rw [hnet, max_eq_left (by linarith), max_eq_left (by linarith)])
    refine ⟨?_, hhigher⟩
    rw [hd, Forces.direction, if_neg (by linarith), if_pos (by linarith)]
  · have hnet : (forces (directional ++ [pair])).net =
        (forces directional).net - pair.1.strength := by
      simp [hadd, Forces.add, hagrees, hd, sub_eq_add_neg]
    have hhigher := hmono (by
      rw [hnet, max_eq_right (by linarith), max_eq_right (by linarith)]
      ring)
    refine ⟨?_, hhigher⟩
    rw [hd, Forces.direction, if_neg (by linarith), if_neg (by linarith)]

theorem judge_agreeing (hjudge : judge policy directional = .ok (some stance))
    (hdirection : stance.direction ≠ .neutral) (hagrees : pair.2 = stance.direction) :
    ∃ stance', judge policy (directional ++ [pair]) = .ok (some stance') ∧
      stance'.direction = stance.direction ∧ stance.confidence.1 ≤ stance'.confidence.1 := by
  obtain ⟨hd, hc⟩ := judge_eq_some hjudge
  rw [hd] at hdirection hagrees
  obtain ⟨hsame, hhigher⟩ := direction_add hdirection hagrees
  have hsome : agreeingEdges ((forces (directional ++ [pair])).direction policy)
      (directional ++ [pair]) ≠ [] :=
    agreeingEdges_ne_nil (by simp) (Or.inr ⟨pair, by simp, hagrees.trans hsame.symm⟩)
  refine ⟨_, (if_neg (by simp)).trans (if_neg hsome), ?_, ?_⟩
  · rw [hd]
    exact hsame
  · rw [hc]
    exact hhigher

theorem directionalEdges_cons (elevated : Bool) (edges : List (FiringEdge reg))
    {edge : FiringEdge reg} (hdirection : effectiveDirection edge polarities ≠ .neutral) :
    directionalEdges (edge :: edges) polarities elevated =
        directionalEdges edges polarities elevated ∨
      directionalEdges (edge :: edges) polarities elevated =
        (edge, effectiveDirection edge polarities) ::
          directionalEdges edges polarities elevated := by
  have hcases : resolvedDirection edge polarities elevated = none ∨
      resolvedDirection edge polarities elevated = some (effectiveDirection edge polarities) := by
    unfold resolvedDirection
    dsimp only
    split
    · exact Or.inl rfl
    · exact Or.inr rfl
  unfold directionalEdges effectiveEdges
  rcases hcases with hdropped | hcounts
  · left
    simp [hdropped]
  · right
    simp [hcounts, hdirection]

/-- **What the edges say, however they come.**  Direction, magnitude and confidence do not
depend on the order of the edges; the confidence is between 0 and 1; and one more edge that
agrees keeps the direction and never lowers the confidence. -/
theorem decide_weighs_evidence (policy : DecisionPolicy) (assetId : AssetId reg)
    (edges : List (FiringEdge reg)) (polarities : Polarities) (elevated : Bool) :
    (∀ edges', edges'.Perm edges →
      (decide policy assetId edges' polarities elevated).map (Option.map Decision.stance) =
        (decide policy assetId edges polarities elevated).map (Option.map Decision.stance)) ∧
    ∀ d, decide policy assetId edges polarities elevated = .ok (some d) →
      (0 ≤ d.confidence.1 ∧ d.confidence.1 ≤ 1) ∧
      ∀ edge, d.direction ≠ .neutral → effectiveDirection edge polarities = d.direction →
        ∃ d', decide policy assetId (edge :: edges) polarities elevated = .ok (some d') ∧
          d'.direction = d.direction ∧ d.confidence.1 ≤ d'.confidence.1 := by
  constructor
  · intro edges' hperm
    rw [decide_stance, decide_stance]
    exact judge_perm ((hperm.filterMap _).filter _)
  · intro d hdecide
    refine ⟨d.confidence.2, fun edge hdirection hagrees => ?_⟩
    have hjudge := (decide_eq_ok_iff assetId).mp ⟨some d, hdecide, rfl⟩
    have hmore : ∃ stance', judge policy (directionalEdges (edge :: edges) polarities elevated) =
        .ok (some stance') ∧ stance'.direction = d.direction ∧
          d.confidence.1 ≤ stance'.confidence.1 := by
      rcases directionalEdges_cons elevated edges (hagrees ▸ hdirection) with hdropped | hcounts
      · exact ⟨d.stance, hdropped ▸ hjudge, rfl, le_rfl⟩
      · rw [hcounts, judge_perm (perm_append_singleton _ _).symm]
        exact judge_agreeing hjudge hdirection hagrees
    obtain ⟨stance', hstance, hsame, hhigher⟩ := hmore
    obtain ⟨result, hresult, hmap⟩ := (decide_eq_ok_iff assetId).mpr hstance
    obtain ⟨d', rfl, rfl⟩ := Option.map_eq_some_iff.mp hmap
    exact ⟨d', hresult, hsame, hhigher⟩

def FiringEdge.flipped (edge : FiringEdge reg) : FiringEdge reg :=
  { edge with direction := flip edge.direction }

/-- The edge and its push, turned around. -/
def mirror (pair : FiringEdge reg × Direction) : FiringEdge reg × Direction :=
  (pair.1.flipped, flip pair.2)

def Stance.mirror (stance : Stance) : Stance := { stance with direction := flip stance.direction }

def Forces.mirror (f : Forces) : Forces := { f with net := -f.net }

@[simp] theorem flip_flip (direction : Direction) : flip (flip direction) = direction := by
  cases direction <;> rfl

theorem flip_eq_iff {d d' : Direction} : flip d = d' ↔ d = flip d' :=
  ⟨fun h => by rw [← h, flip_flip], fun h => by rw [h, flip_flip]⟩

/-- The strength of the edges that push one way. -/
def strengthTowards (direction : Direction) (directional : List (FiringEdge reg × Direction)) :
    Rat :=
  ((directional.filter (fun pair => pair.2 = direction)).map (fun pair => pair.1.strength)).sum

/-- No edge pushes, or one way is stronger, or the deadband keeps a balance neutral. -/
def Clear (policy : DecisionPolicy) (directional : List (FiringEdge reg × Direction)) : Prop :=
  directional = [] ∨ 0 < policy.deadband ∨
    strengthTowards .up directional ≠ strengthTowards .down directional

theorem forces_net (hpush : ∀ pair ∈ directional, pair.2 ≠ .neutral) : (forces directional).net =
      strengthTowards .up directional - strengthTowards .down directional := by
  induction directional using reverseRecOn with
  | nil => simp [forces, strengthTowards]
  | append_singleton directional pair ih =>
    have hrest := ih fun p hp => hpush p (mem_append_left _ hp)
    have hpair := hpush pair (by simp)
    rw [forces_concat]
    unfold strengthTowards at hrest ⊢
    cases hdirection : pair.2 with
    | neutral => exact absurd hdirection hpair
    | up =>
      simp [Forces.add, hdirection, hrest]
      ring
    | down =>
      simp [Forces.add, hdirection, hrest]
      ring

theorem clear_cases (hclear : Clear policy directional)
    (hpush : ∀ pair ∈ directional, pair.2 ≠ .neutral) :
    directional = [] ∨ 0 < policy.deadband ∨ (forces directional).net ≠ 0 := by
  rcases hclear with hnone | hdeadband | huneven
  · exact Or.inl hnone
  · exact Or.inr (Or.inl hdeadband)
  · exact Or.inr (Or.inr (by rwa [forces_net hpush, sub_ne_zero]))

theorem forces_mirror (hpush : ∀ pair ∈ directional, pair.2 ≠ .neutral) :
    forces (directional.map mirror) = (forces directional).mirror := by
  induction directional using reverseRecOn with
  | nil => exact Forces.ext (by simp [forces, Forces.mirror]) rfl
  | append_singleton directional pair ih =>
    have hpair := hpush pair (by simp)
    rw [map_append, map_singleton, forces_concat, forces_concat,
      ih fun p hp => hpush p (mem_append_left _ hp)]
    refine Forces.ext ?_ rfl
    show -(forces directional).net + (if flip pair.2 = .up then 1 else -1) * pair.1.strength =
      -((forces directional).net + (if pair.2 = .up then 1 else -1) * pair.1.strength)
    cases hdirection : pair.2 with
    | neutral => exact absurd hdirection hpair
    | up =>
      simp [flip]
      ring
    | down =>
      simp [flip]
      ring

theorem Forces.confidence_mirror (f : Forces) :
    f.mirror.confidence policy = f.confidence policy := by
  have hconsensus : f.mirror.consensus = f.consensus := by
    simp only [consensus, Forces.mirror, neg_neg, max_comm]
  exact Subtype.ext (by simp only [confidence, hconsensus]; rfl)

theorem Forces.direction_of_balanced (hdeadband : ¬ 0 < policy.deadband) (hnet : f.net = 0) :
    f.direction policy = .down := by
  rw [direction, confidence_of_balanced policy hnet, if_neg hdeadband, if_neg (by rw [hnet]; simp)]

theorem Forces.direction_mirror (hclear : 0 < policy.deadband ∨ f.net ≠ 0) :
    f.mirror.direction policy = flip (f.direction policy) := by
  unfold direction
  rw [confidence_mirror]
  by_cases hlow : (f.confidence policy).1 < policy.deadband
  · rw [if_pos hlow, if_pos hlow]
    rfl
  · rw [if_neg hlow, if_neg hlow]
    have hnet : f.net ≠ 0 := by
      rcases hclear with hdeadband | hnet
      · intro hzero
        rw [confidence_of_balanced policy hzero] at hlow
        exact hlow hdeadband
      · exact hnet
    show (if 0 < -f.net then Direction.up else .down) = flip (if 0 < f.net then .up else .down)
    rcases lt_or_gt_of_ne hnet with hneg | hpos
    · rw [if_pos (by linarith), if_neg (by linarith)]
      rfl
    · rw [if_neg (by linarith), if_pos hpos]
      rfl

/-- Mirrored evidence mirrors the verdict. -/
theorem judge_mirror (hpush : ∀ pair ∈ directional, pair.2 ≠ .neutral)
    (hclear : Clear policy directional) :
    judge policy (directional.map mirror) =
      (judge policy directional).map (Option.map Stance.mirror) := by
  rcases clear_cases hclear hpush with rfl | hclear
  · rfl
  have hagreeing : ∀ d, agreeingEdges (flip d) (directional.map mirror) =
      (agreeingEdges d directional).map mirror := by
    intro d
    unfold agreeingEdges
    have hneutral : flip d = .neutral ↔ d = .neutral := flip_eq_iff
    simp only [hneutral]
    split
    · rfl
    · rw [filter_map]
      refine congrArg (map mirror) (filter_congr fun pair _ => ?_)
      simp [mirror, flip_eq_iff]
  have haverage : ∀ agreeing : List (FiringEdge reg × Direction),
      averageWeight (agreeing.map mirror) = averageWeight agreeing := by
    intro agreeing
    simp [averageWeight, Function.comp_def, mirror, FiringEdge.flipped]
  unfold judge
  dsimp only
  rw [forces_mirror hpush, Forces.direction_mirror hclear, Forces.confidence_mirror, hagreeing,
    haverage]
  simp only [map_eq_nil_iff]
  split
  · rfl
  · split <;> rfl

/-- Without a way to tell them apart, both ways end down. -/
theorem unclear_down (hunclear : ¬ Clear policy directional)
    (hpush : ∀ pair ∈ directional, pair.2 ≠ .neutral) :
    directional ≠ [] ∧ (forces directional).direction policy = .down ∧
      (forces (directional.map mirror)).direction policy = .down := by
  simp only [Clear, not_or, not_not] at hunclear
  obtain ⟨hsome, hdeadband, heven⟩ := hunclear
  have hnet : (forces directional).net = 0 := by rw [forces_net hpush, heven, sub_self]
  refine ⟨hsome, Forces.direction_of_balanced hdeadband hnet, ?_⟩
  rw [forces_mirror hpush]
  exact Forces.direction_of_balanced hdeadband (by simp [Forces.mirror, hnet])

/-- An average is taken unless nothing agrees with the direction. -/
theorem judge_isOk_iff (hpush : ∀ pair ∈ directional, pair.2 ≠ .neutral) :
    (∃ result, judge policy directional = .ok result) ↔
      Clear policy directional ∨ ∃ pair ∈ directional, pair.2 = .down := by
  constructor
  · rintro ⟨result, hjudge⟩
    by_contra hnot
    obtain ⟨hunclear, hup⟩ := not_or.mp hnot
    obtain ⟨hsome, hdown, _⟩ := unclear_down hunclear hpush
    have hnone : agreeingEdges ((forces directional).direction policy) directional = [] := by
      rw [hdown, agreeingEdges, if_neg (by simp)]
      exact filter_eq_nil_iff.mpr fun pair hpair heq =>
        hup ⟨pair, hpair, of_decide_eq_true heq⟩
    cases ((if_neg hsome).trans (if_pos hnone)).symm.trans hjudge
  · intro hcond
    by_cases hunclear : Clear policy directional
    · rcases clear_cases hunclear hpush with hnone | hclear
      · exact ⟨none, if_pos hnone⟩
      by_cases hsome : directional = []
      · exact ⟨none, if_pos hsome⟩
      refine ⟨_, (if_neg hsome).trans (if_neg (agreeingEdges_ne_nil hsome ?_))⟩
      by_cases hneutral : (forces directional).direction policy = .neutral
      · exact Or.inl hneutral
      · exact Or.inr (exists_agreeing hclear hpush hneutral)
    · obtain ⟨pair, hpair, hdown⟩ := hcond.resolve_left hunclear
      obtain ⟨hsome, hdirection, _⟩ := unclear_down hunclear hpush
      exact ⟨_, (if_neg hsome).trans (if_neg (agreeingEdges_ne_nil hsome
        (Or.inr ⟨pair, hpair, hdown.trans hdirection.symm⟩)))⟩

section

variable (hoccurred : ∀ edge ∈ edges, isResolution edge polarities = false)

include hoccurred

theorem effectiveEdges_occurred :
    effectiveEdges edges polarities elevated = edges.map (fun edge => (edge, edge.direction)) := by
  rw [← filterMap_eq_map]
  refine filterMap_congr fun edge hedge => ?_
  simp [resolvedDirection, effectiveDirection, hoccurred edge hedge]

theorem directionalEdges_flipped :
    directionalEdges (edges.map FiringEdge.flipped) polarities elevated =
      (directionalEdges edges polarities elevated).map mirror := by
  have hflipped : ∀ edge ∈ edges.map FiringEdge.flipped, isResolution edge polarities = false := by
    intro edge hedge
    obtain ⟨e, he, rfl⟩ := mem_map.mp hedge
    exact hoccurred e he
  have hneutral : ∀ d, flip d = .neutral ↔ d = .neutral := fun d => flip_eq_iff
  unfold directionalEdges
  rw [effectiveEdges_occurred hoccurred, effectiveEdges_occurred hflipped, map_map,
    filter_map, filter_map, map_map]
  refine congrArg (map _) (filter_congr fun edge _ => ?_)
  simp [FiringEdge.flipped, hneutral]

end

/-- **Up and down are alike, but for a balance.**  `decide` returns unless the forces
balance, the deadband is 0 and no edge pushes down; and turning all edges around turns the
stance around exactly when the forces do not balance or the deadband keeps a balance
neutral. -/
theorem decide_symmetric_iff (policy : DecisionPolicy) (assetId : AssetId reg)
    (edges : List (FiringEdge reg)) (polarities : Polarities) (elevated : Bool) :
    ((∃ result, decide policy assetId edges polarities elevated = .ok result) ↔
      Clear policy (directionalEdges edges polarities elevated) ∨
        ∃ pair ∈ directionalEdges edges polarities elevated, pair.2 = .down) ∧
    ((∀ edge ∈ edges, isResolution edge polarities = false) →
      ((∃ result result', decide policy assetId edges polarities elevated = .ok result ∧
        decide policy assetId (edges.map FiringEdge.flipped) polarities elevated = .ok result' ∧
        result'.map Decision.stance = result.map (fun d => d.stance.mirror)) ↔
          Clear policy (directionalEdges edges polarities elevated))) := by
  have hpush : ∀ pair ∈ directionalEdges edges polarities elevated, pair.2 ≠ .neutral :=
    fun pair hpair => by simpa using (mem_filter.mp hpair).2
  constructor
  · rw [← judge_isOk_iff hpush, ← @decide_stance _ _ assetId]
    cases decide policy assetId edges polarities elevated <;> simp [Except.map]
  · intro hoccurred
    have hmirror := fun stance => @decide_eq_ok_iff _ policy (edges.map FiringEdge.flipped)
      polarities elevated assetId stance
    simp only [directionalEdges_flipped hoccurred] at hmirror
    constructor
    · rintro ⟨result, result', hresult, hresult', hturned⟩
      have hjudge := (decide_eq_ok_iff assetId).mp ⟨result, hresult, rfl⟩
      have hjudge' := (hmirror _).mp ⟨result', hresult', rfl⟩
      by_contra hunclear
      obtain ⟨hsome, hdown, hdown'⟩ := unclear_down hunclear hpush
      cases result with
      | none => exact judge_ne_none hsome hjudge
      | some d =>
        rw [hturned] at hjudge'
        have hd := (judge_eq_some hjudge).1.trans hdown
        have hd' := (judge_eq_some hjudge').1.trans hdown'
        change flip d.stance.direction = .down at hd'
        rw [hd] at hd'
        cases hd'
    · intro hclear
      obtain ⟨stance, hstance⟩ := (judge_isOk_iff hpush).mpr (Or.inl hclear)
      obtain ⟨result, hresult, rfl⟩ := (decide_eq_ok_iff assetId).mpr hstance
      obtain ⟨result', hresult', hturned⟩ := (hmirror _).mpr
        ((judge_mirror hpush hclear).trans (congrArg (Except.map _) hstance))
      exact ⟨result, result', hresult, hresult', by simpa [Function.comp_def] using hturned⟩

/-- With a deadband of 0, an up and a down of one strength are down, also turned around; and
an edge of weight 0 divides by zero. -/
theorem balance_is_down :
    ((decide { deadband := 0 } gold [goldEdge .up, goldEdge .down] [] false).map
        (Option.map Decision.direction) = .ok (some .down) ∧
      (decide { deadband := 0 } gold [goldEdge .down, goldEdge .up] [] false).map
        (Option.map Decision.direction) = .ok (some .down)) ∧
    decide { deadband := 0 } gold
      [{ goldEdge .up with weight := 0, weight_range := by decide +kernel }] [] false =
        .error (.zeroDivision "division by zero") := by
  decide +kernel

end Prediction
