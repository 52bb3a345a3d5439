import FeedAnalyzer.Binary64
import FeedAnalyzer.Messages
import Mathlib.Algebra.Order.Field.Rat
import Mathlib.Tactic.Linarith
import Mathlib.Tactic.Positivity

/-!
# The graph-only decision

Each firing edge is a signed force: its sign comes from the edge's direction, turned
around when its factor has resolved, and its strength from weight and reliability.
`decide` sums the forces into a direction, a confidence and a magnitude, exactly.
-/

namespace Prediction

open Feed List

variable {x : Rat}

/-- Rounding to a number of decimal places stays between 0 and 1. -/
private theorem rounded_mem {scale : Nat} (hscale : 0 < scale) (h0 : 0 ≤ x) (h1 : x ≤ 1) :
    0 ≤ (roundHalfEven (x * scale) : Rat) / scale ∧
      (roundHalfEven (x * scale) : Rat) / scale ≤ 1 := by
  have hpos : (0 : Rat) < scale := by exact_mod_cast hscale
  have hmem := roundHalfEven_mem (x := x * scale) (b := scale)
    (by positivity) (by push_cast; nlinarith)
  have hlow : (0 : Rat) ≤ roundHalfEven (x * scale) := by exact_mod_cast hmem.1
  have hhigh : (roundHalfEven (x * scale) : Rat) ≤ scale := by exact_mod_cast hmem.2
  constructor
  · positivity
  · rw [div_le_one hpos]
    exact hhigh

/-- `round(x, 4)`. -/
def round4 (x : Rat) : Rat := (roundHalfEven (x * 10000) : Rat) / 10000

theorem round4_mem (h0 : 0 ≤ x) (h1 : x ≤ 1) : 0 ≤ round4 x ∧ round4 x ≤ 1 := by
  have hmem := rounded_mem (show 0 < 10000 by decide) h0 h1
  rwa [Nat.cast_ofNat] at hmem

/-- `round(x, 6)`. -/
def round6 (x : Rat) : Rat := (roundHalfEven (x * 1000000) : Rat) / 1000000

theorem round6_mem (h0 : 0 ≤ x) (h1 : x ≤ 1) : 0 ≤ round6 x ∧ round6 x ≤ 1 := by
  have hmem := rounded_mem (show 0 < 1000000 by decide) h0 h1
  rwa [Nat.cast_ofNat] at hmem

/-- `f"{x:.2f}"` of a non-negative number. -/
def fixed2 (x : Rat) : String :=
  let cents := (roundHalfEven (x * 100)).toNat
  toString (cents / 100) ++ "." ++ toString (cents / 10 % 10) ++ toString (cents % 10)

variable {reg : Registry}

/-- A causal edge that fired, or a correlation edge in its shape. -/
structure FiringEdge (reg : Registry) where
  factorId : Option EventType := none
  assetId : AssetId reg
  direction : Direction
  weight : Rat
  alpha : Rat
  beta : Rat
  condition : Option ConditionCode := none
  inheritedFrom : Option String := none
  correlationSourceId : Option (AssetId reg) := none
  weight_range : 0 ≤ weight ∧ weight ≤ 1
  alpha_pos : 0 < alpha
  beta_pos : 0 < beta

namespace FiringEdge

variable (edge : FiringEdge reg)

/-- The id that credit is assigned to: a group's for an inherited edge. -/
def edgeId : String :=
  let target := (edge.inheritedFrom.filter (· ≠ "")).getD edge.assetId.value
  let source :=
    match edge.factorId, edge.correlationSourceId with
    | none, some upstream => upstream.value
    | some factor, _ => factor.value
    | none, none => "CORRELATION"
  match edge.condition with
  | none => source ++ "->" ++ target
  | some condition => source ++ "|" ++ condition.value ++ "->" ++ target

/-- The mean of the edge's Beta counts. -/
def reliability : Rat := edge.alpha / (edge.alpha + edge.beta)

theorem reliability_mem : 0 ≤ edge.reliability ∧ edge.reliability ≤ 1 := by
  have halpha := edge.alpha_pos
  have hbeta := edge.beta_pos
  unfold reliability
  constructor
  · positivity
  · rw [div_le_one (by linarith)]
    linarith

def strength : Rat := edge.weight * edge.reliability

theorem strength_nonneg : 0 ≤ edge.strength := by
  exact mul_nonneg edge.weight_range.1 edge.reliability_mem.1

end FiringEdge

abbrev Polarities : Type := List (EventType × EventPolarity)

def flip : Direction → Direction
  | .up => .down
  | .down => .up
  | .neutral => .neutral

/-- Whether the edge's factor resolved; a propagated edge has none. -/
def isResolution (edge : FiringEdge reg) (polarities : Polarities) : Bool :=
  match edge.factorId with
  | none => false
  | some factor => polarities.lookup factor = some .resolution

def effectiveDirection (edge : FiringEdge reg) (polarities : Polarities) : Direction :=
  if isResolution edge polarities then flip edge.direction else edge.direction

/-- A resolution pushes down only when the price is elevated. -/
def resolvedDirection (edge : FiringEdge reg) (polarities : Polarities) (elevated : Bool) :
    Option Direction :=
  let direction := effectiveDirection edge polarities
  if isResolution edge polarities ∧ direction = .down ∧ elevated = false then none
  else some direction

structure DecisionPolicy where
  deadband : Rat := 15 / 100
  smallMax : Rat := 40 / 100
  mediumMax : Rat := 70 / 100
  evidenceHalfpoint : Rat := 1 / 2
  halfpoint_pos : 0 < evidenceHalfpoint := by decide +kernel

structure Decision where
  direction : Direction
  magnitude : Magnitude
  confidence : Confidence
  rationale : String
  contributingEdges : List ContributingEdge
  contributingFactors : List EventType
  deriving DecidableEq

/-- The forces of one asset: their signed sum and their sum. -/
structure Forces where
  net : Rat
  total : Rat
  total_nonneg : 0 ≤ total

def Forces.add (f : Forces) (edge : FiringEdge reg) (direction : Direction) : Forces where
  net := f.net + (if direction = .up then 1 else -1) * edge.strength
  total := f.total + edge.strength
  total_nonneg := add_nonneg f.total_nonneg edge.strength_nonneg

def forces (directional : List (FiringEdge reg × Direction)) : Forces :=
  directional.foldl (fun f pair => f.add pair.1 pair.2) ⟨0, 0, le_refl 0⟩

namespace Forces

variable (f : Forces) (policy : DecisionPolicy)

/-- Agreement: 1 when nothing opposes. -/
def consensus : Rat := if 0 < f.total then max f.net (-f.net) / f.total else 0

/-- How much evidence there is at all. -/
def mass : Rat := if 0 < f.total then f.total / (f.total + policy.evidenceHalfpoint) else 0

theorem consensus_nonneg : 0 ≤ f.consensus := by
  unfold consensus
  split
  · next htotal =>
    have habs : 0 ≤ max f.net (-f.net) := by
      rcases le_total 0 f.net with hpos | hneg
      · exact le_trans hpos (le_max_left _ _)
      · exact le_trans (by linarith) (le_max_right _ _)
    exact div_nonneg habs (le_of_lt htotal)
  · exact le_refl 0

theorem mass_nonneg : 0 ≤ f.mass policy := by
  have hhalf := policy.halfpoint_pos
  unfold mass
  split
  · positivity
  · exact le_refl 0

def confidence : Confidence :=
  ⟨round4 (min 1 (f.consensus * f.mass policy)),
    round4_mem (le_min zero_le_one (mul_nonneg f.consensus_nonneg (f.mass_nonneg policy)))
      (min_le_left _ _)⟩

def direction : Direction :=
  if (f.confidence policy).1 < policy.deadband then .neutral
  else if 0 < f.net then .up
  else .down

end Forces

def magnitudeOf (policy : DecisionPolicy) (avgWeight : Rat) : Magnitude :=
  if avgWeight < policy.smallMax then .small
  else if avgWeight < policy.mediumMax then .medium
  else .large

def contributingEdge (edge : FiringEdge reg) (direction : Direction) : ContributingEdge where
  edgeId := stripWhitespace edge.edgeId
  direction := direction
  currentWeight := round6 edge.reliability
  influenceWeight := edge.weight
  path := stripWhitespace edge.edgeId
  current_range := round6_mem edge.reliability_mem.1 edge.reliability_mem.2
  influence_range := edge.weight_range

def factorLabel (edge : FiringEdge reg) : String :=
  (edge.factorId.map EventType.value).getD "CORRELATION"

def arrow : Direction → String
  | .up => "↑"
  | .down => "↓"
  | .neutral => "→"

/-- The text of a decision, cut at 2000 characters. -/
def rationale (assetId : AssetId reg) (direction : Direction) (magnitude : Magnitude)
    (confidence : Rat) (edges : List (FiringEdge reg × Direction)) : String :=
  let parts := edges.map (fun pair =>
    factorLabel pair.1 ++ arrow pair.2 ++ fixed2 pair.1.weight)
  let text := assetId.value ++ " " ++ direction.value ++ " (" ++ magnitude.value ++ ", conf " ++
    fixed2 confidence ++ ") from " ++ toString edges.length ++ " causal edge(s): " ++
    ", ".intercalate parts
  String.ofList (text.toList.take 2000)

/-- The edges that count, with the direction they push in. -/
def effectiveEdges (edges : List (FiringEdge reg)) (polarities : Polarities) (elevated : Bool) :
    List (FiringEdge reg × Direction) :=
  edges.filterMap (fun edge =>
    (resolvedDirection edge polarities elevated).map (fun direction => (edge, direction)))

inductive DecisionError where
  | zeroDivision (message : String)
  deriving DecidableEq

/-- One decision from the firing edges, or `none` when no edge pushes.  With a deadband of 0
and weights of 0 the average weight divides by zero. -/
def decide (policy : DecisionPolicy) (assetId : AssetId reg) (edges : List (FiringEdge reg))
    (polarities : Polarities) (elevated : Bool) : Except DecisionError (Option Decision) :=
  let effective := effectiveEdges edges polarities elevated
  let directional := effective.filter (fun pair => pair.2 ≠ .neutral)
  if directional = [] then .ok none
  else
    let f := forces directional
    let direction := f.direction policy
    let agreeing :=
      if direction = .neutral then directional
      else directional.filter (fun pair => pair.2 = direction)
    if agreeing = [] then .error (.zeroDivision "division by zero")
    else
      let avgWeight := (agreeing.map (fun pair => pair.1.weight)).sum / agreeing.length
      let magnitude := magnitudeOf policy avgWeight
      .ok (some
        { direction := direction
          magnitude := magnitude
          confidence := f.confidence policy
          rationale := rationale assetId direction magnitude (f.confidence policy).1 effective
          contributingEdges := effective.map (fun pair => contributingEdge pair.1 pair.2)
          contributingFactors := effective.filterMap (fun pair => pair.1.factorId) })

variable {directional : List (FiringEdge reg × Direction)}

/-- Without an edge that pushes up, the net force is not positive. -/
theorem forces_net_nonpos (hdown : ∀ pair ∈ directional, pair.2 ≠ .up) :
    (forces directional).net ≤ 0 := by
  refine foldlRecOn (motive := fun f : Forces => f.net ≤ 0) directional _ (le_refl 0)
    fun f hf pair hpair => ?_
  have hstrength := pair.1.strength_nonneg
  simp only [Forces.add, if_neg (hdown pair hpair)]
  linarith

/-- Without an edge that pushes down, it is not negative. -/
theorem forces_net_nonneg (hup : ∀ pair ∈ directional, pair.2 = .up) :
    0 ≤ (forces directional).net := by
  refine foldlRecOn (motive := fun f : Forces => 0 ≤ f.net) directional _ (le_refl 0)
    fun f hf pair hpair => ?_
  have hstrength := pair.1.strength_nonneg
  simp only [Forces.add, if_pos (hup pair hpair)]
  linarith

theorem Forces.confidence_of_balanced {f : Forces} (policy : DecisionPolicy) (hnet : f.net = 0) :
    (f.confidence policy).1 = 0 := by
  have hconsensus : f.consensus = 0 := by
    unfold consensus
    simp [hnet]
  simp only [confidence, hconsensus, zero_mul]
  decide +kernel

variable {policy : DecisionPolicy}

/-- A direction other than neutral has an edge that agrees, unless a balance is let through.
-/
theorem exists_agreeing (hclear : 0 < policy.deadband ∨ (forces directional).net ≠ 0)
    (hdirectional : ∀ pair ∈ directional, pair.2 ≠ .neutral)
    (hdirection : (forces directional).direction policy ≠ .neutral) :
    ∃ pair ∈ directional, pair.2 = (forces directional).direction policy := by
  have hconfident : ¬ ((forces directional).confidence policy).1 < policy.deadband := by
    intro hlow
    exact hdirection (if_pos hlow)
  have hnet : (forces directional).net ≠ 0 := by
    rcases hclear with hdeadband | hnet
    · intro hzero
      apply hconfident
      rw [Forces.confidence_of_balanced policy hzero]
      exact hdeadband
    · exact hnet
  by_contra hnone
  push Not at hnone
  unfold Forces.direction at hnone
  rw [if_neg hconfident] at hnone
  by_cases hup : 0 < (forces directional).net
  · rw [if_pos hup] at hnone
    exact absurd (forces_net_nonpos hnone) (not_le.mpr hup)
  · rw [if_neg hup] at hnone
    have hallUp : ∀ pair ∈ directional, pair.2 = .up := by
      intro pair hpair
      have hnotNeutral := hdirectional pair hpair
      have hnotDown := hnone pair hpair
      cases hdir : pair.2 with
      | up => rfl
      | down => exact absurd hdir hnotDown
      | neutral => exact absurd hdir hnotNeutral
    exact hnet (le_antisymm (not_lt.mp hup) (forces_net_nonneg hallUp))

theorem decide_ne_error (hdeadband : 0 < policy.deadband) (assetId : AssetId reg)
    (edges : List (FiringEdge reg)) (polarities : Polarities) (elevated : Bool) (e : DecisionError) :
    decide policy assetId edges polarities elevated ≠ .error e := by
  intro herror
  unfold decide at herror
  dsimp only at herror
  split at herror
  · cases herror
  next hsome =>
    split at herror
    · cases herror
    next hdirection =>
      split at herror
      next hagreeing =>
        obtain ⟨pair, hpair, hagree⟩ := exists_agreeing (Or.inl hdeadband)
          (fun pair hpair => by simpa using (mem_filter.mp hpair).2) hdirection
        exact filter_eq_nil_iff.mp hagreeing pair hpair (decide_eq_true hagree)
      · cases herror

def goldEdge (direction : Direction) : FiringEdge goldRegistry where
  factorId := some .sanctions
  assetId := gold
  direction := direction
  weight := 1
  alpha := 1
  beta := 1
  weight_range := by decide +kernel
  alpha_pos := by decide +kernel
  beta_pos := by decide +kernel

end Prediction
