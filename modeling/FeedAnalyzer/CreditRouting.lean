import FeedAnalyzer.CreditEffects
import FeedAnalyzer.PredictionPipeline

/-!
# Credit reaches the relationships that fired

Prediction writes the relationship behind a fired edge as a text, and Credibility
reads it back.  Over an accepted registry it is read back as the relationship it was
written for, so a scored message moves the relationships that fired.
-/

namespace Credibility

open Feed Transact CausalGraph Prediction List Table Graph

variable {text : String}

theorem parseEventType_value (factor : EventType) : parseEventType factor.value = some factor := by
  cases factor <;> decide

variable (condition : ConditionCode)

theorem parseCondition_value : parseCondition condition.value = some condition := by
  cases condition <;> decide

theorem event_word (factor : EventType) : isWord asciiText factor.value := by
  cases factor <;> decide +kernel

theorem condition_word : isWord asciiText condition.value := by
  cases condition <;> decide +kernel

variable {py : PythonText} {c : Char} {R : Type}

theorem separator_not_mem (hword : isWord py text) (hc : c ∈ ['-', '|']) : c ∉ text.toList := by
  have hne : c ≠ '_' := by
    intro heq
    subst heq
    exact absurd hc (by decide)
  apply not_mem_of_isWord hword hne
  apply py.isAlnum_separator
  simp only [mem_cons, not_mem_nil, or_false] at hc ⊢
  exact hc.imp_right Or.inr

/-- A text without white space in it. -/
def Solid (text : String) : Prop :=
  text.toList ≠ [] ∧ ∀ c ∈ text.toList, isWhiteSpace c = false

theorem solid_of_isWord (hword : isWord py text) : Solid text := by
  constructor
  · intro hempty
    unfold isWord at hword
    rw [hempty] at hword
    cases hword
  · intro c hc
    by_contra hspace
    rw [Bool.not_eq_false] at hspace
    have hne : c ≠ '_' := by
      intro heq
      subst heq
      exact absurd hspace (by decide)
    exact not_mem_of_isWord hword hne (py.isAlnum_space c hspace) hc

theorem Solid.ne_empty (hsolid : Solid text) : text ≠ "" := by
  intro hempty
  rw [hempty] at hsolid
  exact hsolid.1 rfl

theorem dash_not_mem (hword : isWord py text) (condition : ConditionCode) :
    '-' ∉ (text ++ "|" ++ condition.value).toList := by
  have htext := separator_not_mem hword (show '-' ∈ ['-', '|'] by decide)
  have hcode := separator_not_mem (condition_word condition) (show '-' ∈ ['-', '|'] by decide)
  simp [htext, hcode]

theorem partitionAt_join {separator left : String} {rest : List Char}
    (hseparator : separator.toList = c :: rest) (hleft : c ∉ left.toList) (right : String) :
    partitionAt separator (left ++ separator ++ right) = (left, true, right) := by
  have htext : (left ++ separator ++ right).toList = left.toList ++ c :: rest ++ right.toList := by
    simp [hseparator]
  unfold partitionAt
  rw [htext, hseparator, Text.partition_join hleft]
  simp

theorem partitionAt_no_bar (htext : '|' ∉ text.toList) :
    partitionAt "|" text = (text, false, "") := by
  unfold partitionAt
  rw [show "|".toList = ['|'] from by decide, Text.partition_whole htext]
  simp

namespace CredibilityPipeline

variable (P : CredibilityPipeline) (factor : EventType) (condition : Option ConditionCode)

/-- **The causal id is read back**: a factor, a condition and a target that the
registry knows. -/
theorem causalKey_text (target : Target) (hne : target.id ≠ "")
    (htarget : ∀ edgeId, ∃ parsed, parseEdgeId.target P.loaded edgeId factor condition target.id =
      .ok (factor, condition, parsed) ∧ P.targetNode parsed = target) :
    P.causalKey (EdgeKey.causes factor condition target).text =
      .ok (.causes factor condition target) := by
  obtain ⟨parsed, hparsed, hnode⟩ :=
    htarget (EdgeKey.causes factor condition target).text
  have hvalue := (solid_of_isWord (event_word factor)).ne_empty
  have hparse : parseEdgeId P.loaded (EdgeKey.causes factor condition target).text =
      .ok (factor, condition, parsed) := by
    cases condition with
    | none =>
      have harrow : partitionAt "->" (EdgeKey.causes factor none target).text =
          (factor.value, true, target.id) :=
        partitionAt_join rfl (separator_not_mem (event_word factor) (by decide)) _
      unfold parseEdgeId
      rw [harrow]
      dsimp only
      rw [if_neg (by simp [hvalue, hne]),
        partitionAt_no_bar (separator_not_mem (event_word factor) (by decide))]
      rw [parseEventType_value]
      exact hparsed
    | some condition =>
      have harrow : partitionAt "->" (EdgeKey.causes factor (some condition) target).text =
          (factor.value ++ "|" ++ condition.value, true, target.id) :=
        partitionAt_join rfl (dash_not_mem (event_word factor) condition) _
      unfold parseEdgeId
      rw [harrow]
      dsimp only
      rw [if_neg (by simp [hne]),
        partitionAt_join rfl (separator_not_mem (event_word factor) (by decide))]
      rw [parseEventType_value, parseCondition_value]
      exact hparsed
  unfold causalKey
  rw [hparse]
  dsimp only
  rw [hnode]

theorem causalKey_asset (assetId : AssetId P.reg) (hne : assetId.value ≠ "") :
    P.causalKey (keyText factor.value condition assetId.value) =
      .ok (.causes factor condition (.asset assetId.value)) := by
  apply P.causalKey_text factor condition (.asset assetId.value) hne
  intro edgeId
  refine ⟨.asset assetId, ?_, rfl⟩
  show parseEdgeId.target P.loaded edgeId factor condition assetId.value = _
  unfold parseEdgeId.target
  rw [AssetId.parse_value]

theorem causalKey_group {group : String} (hne : group ≠ "")
    (hnotAsset : P.reg.isKnownAsset group = false) (hknown : P.loaded.groups.has group) :
    P.causalKey (keyText factor.value condition group) =
      .ok (.causes factor condition (.group group)) := by
  apply P.causalKey_text factor condition (.group group) hne
  intro edgeId
  refine ⟨.group group, ?_, rfl⟩
  obtain ⟨e, herror⟩ := AssetId.parse_eq_error_iff.mpr hnotAsset
  show parseEdgeId.target P.loaded edgeId factor condition group = _
  unfold parseEdgeId.target
  rw [herror]
  rw [if_pos hknown]

/-- **The correlation id is read back.** -/
theorem parseCorrelationEdgeId_text {source target : AssetId P.reg} {condition : ConditionCode}
    (hsource : isWord py source.value)
    (hcondition : condition ∈ [ConditionCode.upstreamUp, .upstreamDown]) :
    parseCorrelationEdgeId P.reg (EdgeKey.correlates source.value condition target.value).text =
      .ok (some (source, condition, target)) := by
  have harrow : partitionAt "->" (EdgeKey.correlates source.value condition target.value).text =
      (source.value ++ "|" ++ condition.value, true, target.value) :=
    partitionAt_join rfl (dash_not_mem hsource condition) _
  unfold parseCorrelationEdgeId
  rw [harrow]
  dsimp only
  rw [if_neg (by decide), partitionAt_join rfl (separator_not_mem hsource (by decide))]
  rw [parseCondition_value]
  dsimp only
  rw [if_pos ⟨rfl, hcondition⟩, AssetId.parse_value, AssetId.parse_value]

end CredibilityPipeline

/-- The text of a key has no white space around it when its ends have none. -/
theorem strip_keyText {source target : String} (condition : Option ConditionCode)
    (hsource : Solid source) (htarget : target ≠ "")
    (hlast : ∀ c, target.toList.getLast? = some c → isWhiteSpace c = false) :
    stripWhitespace (keyText source condition target) = keyText source condition target := by
  have hne : target.toList ≠ [] := by
    intro hempty
    exact htarget (String.toList_injective hempty)
  have hstrip : Text.strip isWhiteSpace (keyText source condition target).toList =
      (keyText source condition target).toList := by
    apply Text.strip_of_ends
    · intro c hc
      rw [toList_keyText, append_assoc, append_assoc, head?_append_of_ne_nil _ hsource.1] at hc
      exact hsource.2 c (mem_of_head? hc)
    · intro c hc
      rw [toList_keyText, getLast?_append_of_ne_nil _ hne] at hc
      exact hlast c hc
  unfold stripWhitespace
  rw [hstrip]
  exact String.ofList_toList

theorem last_of_solid (hsolid : Solid text) :
    ∀ c, text.toList.getLast? = some c → isWhiteSpace c = false := by
  intro c hc
  exact hsolid.2 c (mem_of_getLast? hc)

theorem last_of_stripped (hstripped : stripWhitespace text = text) :
    ∀ c, text.toList.getLast? = some c → isWhiteSpace c = false := by
  intro c hc
  obtain ⟨back, hback⟩ := getLast?_eq_some_iff.mp hc
  have hlist := congrArg String.toList hstripped
  unfold stripWhitespace at hlist
  rw [String.toList_ofList, hback] at hlist
  exact Text.isSpace_last_of_strip hlist

section Fired

variable {known : Registry}

def firedKey (edge : FiringEdge known) : EdgeKey :=
  match edge.factorId with
  | some factor =>
    .causes factor edge.condition (match edge.inheritedFrom with
        | some group => .group group
        | none => .asset edge.assetId.value)
  | none =>
    .correlates ((edge.correlationSourceId.map AssetId.value).getD "")
      (edge.condition.getD .upstreamUp) edge.assetId.value

/-- A propagated edge: two assets and an upstream condition. -/
structure PropagatedEdge (edge : FiringEdge known) : Prop where
  no_factor : edge.factorId = none
  not_inherited : edge.inheritedFrom = none
  source : ∃ upstream, edge.correlationSourceId = some upstream
  upstream : ∃ condition ∈ [ConditionCode.upstreamUp, .upstreamDown],
    edge.condition = some condition

end Fired

/-- A direct edge: a factor, and an asset or a group of the registry. -/
structure DirectEdge (loaded : LoadedRegistry) (edge : FiringEdge loaded.registry) : Prop where
  factor : ∃ event, edge.factorId = some event
  group_known : ∀ group, edge.inheritedFrom = some group → loaded.groups.has group = true

namespace CredibilityPipeline

variable {P : CredibilityPipeline} {py : PythonText} {edge : FiringEdge P.reg}

section Reported

variable (hwell : P.loaded.WellFormed py)
  (htrim : ∀ group ∈ P.loaded.groups, stripWhitespace group.groupId = group.groupId)

include hwell

include htrim in
/-- **A direct edge is read back** as the relationship it fired from. -/
theorem causalKey_of_direct (hdirect : DirectEdge P.loaded edge) (direction : Direction) :
    P.causalKey (contributingEdge edge direction).edgeId = .ok (firedKey edge) := by
  obtain ⟨factor, hfactor⟩ := hdirect.factor
  show P.causalKey (stripWhitespace edge.edgeId) = _
  cases hinherited : edge.inheritedFrom with
  | none =>
    have hkey : firedKey edge = .causes factor edge.condition (.asset edge.assetId.value) := by
      simp [firedKey, hfactor, hinherited]
    have hid : edge.edgeId = keyText factor.value edge.condition edge.assetId.value := by
      cases hcondition : edge.condition <;>
        simp [FiringEdge.edgeId, hfactor, hinherited, hcondition, keyText]
    have hsolid := solid_of_isWord (hwell.assetId_word edge.assetId)
    have hne := hsolid.ne_empty
    rw [hkey, hid, strip_keyText edge.condition (solid_of_isWord (event_word factor)) hne (last_of_solid hsolid)]
    exact P.causalKey_asset factor edge.condition edge.assetId hne
  | some group =>
    have hknown := hdirect.group_known group hinherited
    obtain ⟨row, hrow, rfl⟩ := has_eq_true_iff.mp hknown
    have hne := hwell.group_ne row hrow
    have hkey : firedKey edge = .causes factor edge.condition (.group row.groupId) := by
      simp [firedKey, hfactor, hinherited]
    have hid : edge.edgeId = keyText factor.value edge.condition row.groupId := by
      cases hcondition : edge.condition <;>
        simp [FiringEdge.edgeId, hfactor, hinherited, hcondition, keyText, Option.filter, hne]
    rw [hkey, hid,
      strip_keyText edge.condition (solid_of_isWord (event_word factor)) hne (last_of_stripped (htrim row hrow))]
    have hnotAsset : P.reg.isKnownAsset row.groupId = false := by
      rw [P.loaded.isKnownAsset_eq]
      exact hwell.group_not_asset row hrow
    exact P.causalKey_group factor edge.condition hne hnotAsset hknown

/-- **A propagated edge is read back** as the correlation it fired from. -/
theorem parseCorrelation_of_propagated (hpropagated : PropagatedEdge edge) (direction : Direction) :
    ∃ parsed,
      parseCorrelationEdgeId P.reg (contributingEdge edge direction).edgeId = .ok (some parsed) ∧
        P.correlationKey parsed = firedKey edge := by
  obtain ⟨source, hsource⟩ := hpropagated.source
  obtain ⟨condition, hupstream, hcondition⟩ := hpropagated.upstream
  have hsourceWord := hwell.assetId_word source
  have htargetSolid := solid_of_isWord (hwell.assetId_word edge.assetId)
  have hne := htargetSolid.ne_empty
  refine ⟨(source, condition, edge.assetId), ?_, ?_⟩
  · show parseCorrelationEdgeId P.reg (stripWhitespace edge.edgeId) = _
    have hid : edge.edgeId = (EdgeKey.correlates source.value condition edge.assetId.value).text := by
      simp [FiringEdge.edgeId, hpropagated.no_factor, hsource, hcondition,
        hpropagated.not_inherited, EdgeKey.text, keyText]
    rw [hid]
    have hstrip := strip_keyText (some condition) (solid_of_isWord hsourceWord) hne
      (last_of_solid htargetSolid)
    rw [show (EdgeKey.correlates source.value condition edge.assetId.value).text =
      keyText source.value (some condition) edge.assetId.value from rfl, hstrip]
    exact P.parseCorrelationEdgeId_text hsourceWord hupstream
  · simp [correlationKey, firedKey, hpropagated.no_factor, hsource, hcondition]

variable {pairs : List (FiringEdge P.reg × Direction)}

include htrim in
theorem directKeys_of_fired (hdirect : ∀ pair ∈ pairs, DirectEdge P.loaded pair.1) :
    P.directKeys (pairs.map (fun pair => contributingEdge pair.1 pair.2)) =
      (pairs.map (fun pair => firedKey pair.1), none) := by
  induction pairs with
  | nil => rfl
  | cons pair rest ih =>
    have hkey := causalKey_of_direct hwell htrim (hdirect pair mem_cons_self) pair.2
    have hrest := ih fun later hlater => hdirect later (mem_cons_of_mem pair hlater)
    rw [map_cons, directKeys, hkey]
    rw [hrest]
    rfl

theorem correlationEdges_of_fired (hpropagated : ∀ pair ∈ pairs, PropagatedEdge pair.1) :
    ∃ parsed,
      P.correlationEdges (pairs.map (fun pair => contributingEdge pair.1 pair.2)) = .ok parsed ∧
        parsed.map Prod.fst = pairs.map (fun pair => contributingEdge pair.1 pair.2) ∧
          parsed.map (fun entry => P.correlationKey entry.2) =
            pairs.map (fun pair => firedKey pair.1) := by
  induction pairs with
  | nil => exact ⟨[], rfl, rfl, rfl⟩
  | cons pair rest ih =>
    obtain ⟨triple, hparse, hkey⟩ :=
      parseCorrelation_of_propagated hwell (hpropagated pair mem_cons_self) pair.2
    obtain ⟨parsed, hparsed, hedges, hkeys⟩ :=
      ih fun later hlater => hpropagated later (mem_cons_of_mem pair hlater)
    refine ⟨(contributingEdge pair.1 pair.2, triple) :: parsed, ?_, ?_, ?_⟩
    · rw [map_cons, correlationEdges, hparse]
      rw [hparsed]
    · rw [map_cons, map_cons, hedges]
    · rw [map_cons, map_cons, hkeys, hkey]

/-- A decision's message reports what fired, in order, each under its own text. -/
structure Reported (P : CredibilityPipeline) (pairs : List (FiringEdge P.reg × Direction))
    (message : P.Scored) : Prop where
  plan : P.plan message = ⟨pairs.map (fun pair => firedKey pair.1), message.contributingEdges, none⟩
  text : ∀ pair ∈ pairs, (contributingEdge pair.1 pair.2).edgeId = (firedKey pair.1).text
  text_inj : ∀ pair ∈ pairs, ∀ pair' ∈ pairs,
    (firedKey pair.1).text = (firedKey pair'.1).text → firedKey pair.1 = firedKey pair'.1

variable {message : P.Scored}

include htrim in
theorem reported_of_direct (hdirect : ∀ pair ∈ pairs, DirectEdge P.loaded pair.1)
    (hedges : message.contributingEdges = pairs.map (fun pair => contributingEdge pair.1 pair.2))
    (hchain : message.propagationChain = []) : P.Reported pairs message := by
  have htext : ∀ pair ∈ pairs, (contributingEdge pair.1 pair.2).edgeId = (firedKey pair.1).text :=
    fun pair hpair => text_of_causalKey
      (causalKey_of_direct hwell htrim (hdirect pair hpair) pair.2)
  refine ⟨?_, htext, ?_⟩
  · unfold plan
    rw [if_pos (by rw [hchain]; rfl), hedges, directKeys_of_fired hwell htrim hdirect]
  · intro pair hpair pair' hpair' hsame
    have hkey := causalKey_of_direct hwell htrim (hdirect pair hpair) pair.2
    have hkey' := causalKey_of_direct hwell htrim (hdirect pair' hpair') pair'.2
    rw [htext pair hpair, hsame, ← htext pair' hpair', hkey'] at hkey
    exact (Except.ok.inj hkey).symm

theorem reported_of_propagated (hpropagated : ∀ pair ∈ pairs, PropagatedEdge pair.1)
    (hedges : message.contributingEdges = pairs.map (fun pair => contributingEdge pair.1 pair.2))
    (hchain : message.propagationChain ≠ []) : P.Reported pairs message := by
  have htext : ∀ pair ∈ pairs,
      (contributingEdge pair.1 pair.2).edgeId = (firedKey pair.1).text := by
    intro pair hpair
    obtain ⟨parsed, hparse, hkey⟩ :=
      parseCorrelation_of_propagated hwell (hpropagated pair hpair) pair.2
    rw [← hkey]
    exact text_of_parseCorrelationEdgeId hparse
  refine ⟨?_, htext, ?_⟩
  · obtain ⟨parsed, hparsed, hfirst, hkeys⟩ := correlationEdges_of_fired hwell hpropagated
    have hnonempty : ¬ message.propagationChain.isEmpty := by
      rw [List.isEmpty_iff]
      exact hchain
    unfold plan
    rw [if_neg hnonempty, hedges, hparsed]
    dsimp only
    rw [hfirst, hkeys]
  · intro pair hpair pair' hpair' hsame
    obtain ⟨parsed, hparse, hkey⟩ :=
      parseCorrelation_of_propagated hwell (hpropagated pair hpair) pair.2
    obtain ⟨parsed', hparse', hkey'⟩ :=
      parseCorrelation_of_propagated hwell (hpropagated pair' hpair') pair'.2
    rw [htext pair hpair, hsame, ← htext pair' hpair', hparse'] at hparse
    rw [← hkey, ← hkey', Option.some.inj (Except.ok.inj hparse)]

end Reported

end CredibilityPipeline

/-- The influence share of an edge among those that fired. -/
def influenceShare {known : Registry} (fired : List (FiringEdge known)) (edge : FiringEdge known) :
    Rat :=
  let total := floatSum (fired.map FiringEdge.weight)
  if total ≤ 0 then Binary64.round (1 / (fired.length : Rat))
  else Binary64.round (edge.weight / total)

variable {rows : List R}

theorem lookup_of_nodup {name : R → String} (value : R → Rat) {row : R}
    (hnodup : (rows.map name).Nodup) (hrow : row ∈ rows) :
    (rows.map (fun r => (name r, value r))).lookup (name row) = some (value row) := by
  induction rows with
  | nil => cases hrow
  | cons first rest ih =>
    rw [map_cons, nodup_cons] at hnodup
    rw [map_cons, lookup_cons]
    rcases mem_cons.mp hrow with rfl | hlater
    · rw [beq_self_eq_true]
    · have hne : name row ≠ name first := by
        intro heq
        exact hnodup.1 (heq ▸ mem_map_of_mem hlater)
      rw [beq_false_of_ne hne]
      exact ih hnodup.2 hlater

/-- Of an id that occurs once, the credit is the share of its edge. -/
theorem creditOf_of_nodup {edges : List ContributingEdge} {edge : ContributingEdge}
    (hnodup : (edges.map ContributingEdge.edgeId).Nodup) (hedge : edge ∈ edges) :
    creditOf edges edge.edgeId =
      if floatSum (edges.map ContributingEdge.influenceWeight) ≤ 0 then
        Binary64.round (1 / (edges.length : Rat))
      else Binary64.round
        (edge.influenceWeight / floatSum (edges.map ContributingEdge.influenceWeight)) := by
  have hids : (edges.reverse.map ContributingEdge.edgeId).Nodup := by
    rw [map_reverse, nodup_reverse]
    exact hnodup
  have hedge' : edge ∈ edges.reverse := mem_reverse.mpr hedge
  unfold creditOf computeProportionalCredits
  dsimp only
  split
  · rw [lookup_of_nodup (fun _ => Binary64.round (1 / (edges.length : Rat))) hids hedge']
    rfl
  · rw [lookup_of_nodup (fun edge => Binary64.round (edge.influenceWeight / _)) hids hedge']
    rfl

namespace CredibilityPipeline

variable {P : CredibilityPipeline} {pairs : List (FiringEdge P.reg × Direction)}
  {message : P.Scored}

/-- The credit is the influence share. -/
theorem Reported.credit (hreported : P.Reported pairs message) (hedges : message.contributingEdges =
      pairs.map (fun pair => contributingEdge pair.1 pair.2))
    (hnodup : (pairs.map (fun pair => firedKey pair.1)).Nodup)
    {pair : FiringEdge P.reg × Direction} (hpair : pair ∈ pairs) :
    creditOf message.contributingEdges (firedKey pair.1).text =
      influenceShare (pairs.map Prod.fst) pair.1 := by
  have hids : (message.contributingEdges.map ContributingEdge.edgeId).Nodup := by
    rw [hedges, List.map_map]
    apply Nodup.map_on ?_ hnodup.of_map
    intro x hx y hy hsame
    have hkey := hreported.text_inj x hx y hy
      (by rw [← hreported.text x hx, ← hreported.text y hy]; exact hsame)
    exact inj_on_of_nodup_map hnodup hx hy hkey
  have hmem : contributingEdge pair.1 pair.2 ∈ message.contributingEdges := by
    rw [hedges]
    exact mem_map_of_mem hpair
  have hweights : message.contributingEdges.map ContributingEdge.influenceWeight =
      (pairs.map Prod.fst).map FiringEdge.weight := by
    rw [hedges, List.map_map, List.map_map]
    rfl
  have hlength : message.contributingEdges.length = (pairs.map Prod.fst).length := by
    rw [hedges, length_map, length_map]
  rw [← hreported.text pair hpair, creditOf_of_nodup hids hmem, hweights, hlength]
  rfl

/-- A key named once moves once. -/
theorem moveAt_of_nodup {isCorrect : Bool} {edges : List ContributingEdge} {keys : List EdgeKey}
    (hnodup : keys.Nodup) {key : EdgeKey} (hkey : key ∈ keys) (weight : Confidence) :
    moveAt key (keys.map (P.creditMove isCorrect edges)) weight =
      P.moved isCorrect (creditOf edges key.text) weight := by
  induction keys with
  | nil => cases hkey
  | cons key' rest ih =>
    rw [nodup_cons] at hnodup
    rw [moveAt_credit_cons]
    by_cases hfirst : key' = key
    · subst hfirst
      rw [if_pos rfl]
      apply moveAt_of_not_mem
      rw [map_fst_creditMove]
      exact hnodup.1
    · rw [if_neg hfirst]
      exact ih hnodup.2 ((mem_cons.mp hkey).resolve_left (fun heq => hfirst heq.symm))

end CredibilityPipeline

def GroupsKnown (loaded : LoadedRegistry) (graph : Graph) : Prop :=
  ∀ pair ∈ graph.memberOf, loaded.groups.has pair.2 = true

/-- At most one value for each row, and that one under the row's own name, makes
distinct names. -/
theorem nodup_of_rows {X Y : Type} {f : R → List X} {h : X → Y} {g : R → Y}
    (hrows : ∀ r ∈ rows, ((f r).map h).Sublist [g r]) (hnodup : (rows.map g).Nodup) :
    ((rows.flatMap f).map h).Nodup := by
  have hsublist : ((rows.flatMap f).map h).Sublist (rows.map g) := by
    clear hnodup
    induction rows with
    | nil => exact Sublist.refl []
    | cons r rest ih =>
      rw [flatMap_cons, map_append, map_cons]
      exact (hrows r mem_cons_self).append (ih (fun r' hr' => hrows r' (mem_cons_of_mem r hr')))
  exact hsublist.nodup hnodup

section Graphs

variable {known : Registry} {graph : Graph} {factor : EventType} {assetId : AssetId known}
  {conditions : Option (List ConditionCode)}

/-- A firing edge has a row. -/
theorem mem_getFiringEdges {edge : FiringEdge known}
    (hedge : edge ∈ graph.getFiringEdges factor assetId conditions) :
    edge.factorId = some factor ∧
      (∀ group, edge.inheritedFrom = some group → (assetId.value, group) ∈ graph.memberOf) ∧
        ∃ row ∈ graph.edges, row.key = firedKey edge := by
  rcases mem_append.mp hedge with hown | hgroup
  · obtain ⟨row, hrow, hfires⟩ := mem_filterMap.mp hown
    split at hfires
    next factor' condition id hkey =>
      split at hfires
      next hmatch =>
        cases hfires
        refine ⟨rfl, ?_, row, hrow, ?_⟩
        · intro group hnone
          cases hnone
        · rw [hkey, hmatch.1, hmatch.2.1]
          rfl
      · cases hfires
    · cases hfires
  · unfold groupEdges at hgroup
    split at hgroup
    · obtain ⟨row, hrow, hfires⟩ := mem_flatMap.mp hgroup
      split at hfires
      next factor' condition id hkey =>
        split at hfires
        next hmatch =>
          rw [Option.mem_toList] at hfires
          obtain ⟨pair, hfind, rfl⟩ := Option.map_eq_some_iff.mp hfires
          obtain ⟨hpair, hsame⟩ := find?_eq_some_iff.mp hfind
          refine ⟨rfl, ?_, row, hrow, ?_⟩
          · intro group hinherited
            cases hinherited
            exact hsame ▸ hpair
          · rw [hkey, hmatch.1]
            rfl
        · cases hfires
      · cases hfires
    · cases hgroup

/-- The edges that fire for an asset and a factor come from different
relationships. -/
theorem nodup_getFiringEdges :
    ((graph.getFiringEdges factor assetId conditions).map firedKey).Nodup := by
  have hown : ((graph.ownEdges factor assetId conditions).map firedKey).Nodup := by
    unfold ownEdges
    rw [filterMap_eq_flatMap_toList]
    apply nodup_of_rows ?_ graph.edges.nodup
    intro row _
    split
    · next factor' condition id hkey =>
      split
      · next hmatch =>
        rw [hkey, hmatch.1, hmatch.2.1]
        exact Sublist.refl _
      · exact nil_sublist _
    · exact nil_sublist _
  unfold getFiringEdges groupEdges
  split
  next hnone =>
    rw [hnone, nil_append]
    apply nodup_of_rows ?_ graph.edges.nodup
    intro row _
    split
    · next factor' condition id hkey =>
      split
      · next hmatch =>
        cases graph.memberOf.find? (assetId.value, id) with
        | none => exact nil_sublist _
        | some pair =>
          rw [hkey, hmatch.1]
          exact Sublist.refl _
      · exact nil_sublist _
    · exact nil_sublist _
  · rw [append_nil]
    exact hown

end Graphs

section Firings

variable {known : Registry}

theorem weight_range (row : GraphEdge) : 0 ≤ row.weight.1 ∧ row.weight.1 ≤ 1 :=
  row.weight.2

def correlationInto (graph : Graph) (source target : AssetId known) (condition : ConditionCode) :
    Option (FiringEdge known) :=
  (graph.edges.find? (.correlates source.value condition target.value)).map (fun row =>
    PredictionPipeline.asFiringEdge source condition
      { targetAssetId := target
        direction := row.direction
        weight := row.weight.1
        alpha := row.alpha
        beta := row.beta
        weight_range := weight_range row
        alpha_pos := row.alpha_pos
        beta_pos := row.beta_pos })

/-- An asset with the conditions of each factor, or a target with the upstream assets that
reach it. -/
inductive Firing (known : Registry) where
  | direct (assetId : AssetId known) (gates : List (EventType × List ConditionCode))
      (distinct : (gates.map Prod.fst).Nodup)
  | propagated (target : AssetId known) (sources : List (AssetId known × ConditionCode))
      (distinct : sources.Nodup)
      (upstream : ∀ source ∈ sources, source.2 ∈ [ConditionCode.upstreamUp, .upstreamDown])

namespace Firing

def assetId : Firing known → AssetId known
  | .direct assetId _ _ => assetId
  | .propagated target _ _ _ => target

def isDirect : Firing known → Bool
  | .direct _ _ _ => true
  | .propagated _ _ _ _ => false

def edges (graph : Graph) : Firing known → List (FiringEdge known)
  | .direct assetId gates _ =>
    gates.flatMap fun gate => graph.getFiringEdges gate.1 assetId (some gate.2)
  | .propagated target sources _ _ =>
    sources.filterMap fun source => correlationInto graph source.1 target source.2

/-- **Everything that fires for one decision comes from a relationship of its
own.** -/
theorem nodup_edges (firing : Firing known) (graph : Graph) :
    ((firing.edges graph).map firedKey).Nodup := by
  cases firing with
  | direct assetId gates distinct =>
    show ((gates.flatMap _).map firedKey).Nodup
    rw [map_flatMap, nodup_flatMap]
    refine ⟨fun gate _ => nodup_getFiringEdges, ?_⟩
    apply (pairwise_map.mp distinct).imp
    intro gate gate' hne key hkey hkey'
    obtain ⟨edge, hedge, rfl⟩ := mem_map.mp hkey
    obtain ⟨edge', hedge', hsame⟩ := mem_map.mp hkey'
    apply hne
    unfold firedKey at hsame
    rw [(mem_getFiringEdges hedge).1, (mem_getFiringEdges hedge').1] at hsame
    exact (EdgeKey.causes.inj hsame).1.symm
  | propagated target sources distinct upstream =>
    show ((sources.filterMap _).map firedKey).Nodup
    rw [filterMap_eq_flatMap_toList]
    apply nodup_of_rows (g := fun source => EdgeKey.correlates source.1.value source.2 target.value)
    · intro source _
      unfold correlationInto
      cases graph.edges.find? (.correlates source.1.value source.2 target.value) with
      | none => exact nil_sublist _
      | some row => exact Sublist.refl _
    · apply distinct.map
      intro source source' hsame
      obtain ⟨hvalue, hcondition, _⟩ := EdgeKey.correlates.inj hsame
      exact Prod.ext (Subtype.ext hvalue) hcondition

end Firing

end Firings

namespace CredibilityPipeline

variable {P : CredibilityPipeline} {py : PythonText}

/-- Where the groups are those of the registry, no reading goes astray. -/
theorem not_stray (hwell : P.loaded.WellFormed py)
    (htrim : ∀ group ∈ P.loaded.groups, stripWhitespace group.groupId = group.groupId)
    {graph : Graph} (hgroups : GroupsKnown P.loaded graph) (key : EdgeKey) :
    ¬ Stray P.reg graph key := by
  rintro ⟨hmissing, factor, condition, assetId, rfl, hreported⟩
  obtain ⟨edge, hedge, htext⟩ := mem_map.mp hreported
  obtain ⟨hfactor, hmember, row, hrow, hkey⟩ := mem_getFiringEdges hedge
  have hdirect : DirectEdge P.loaded edge :=
    ⟨⟨factor, hfactor⟩, fun group hinherited => hgroups _ (hmember group hinherited)⟩
  -- the text is read back as the key of the row, and as the missing key
  have hsolid := solid_of_isWord (hwell.assetId_word assetId)
  have hne := hsolid.ne_empty
  have hstrip := strip_keyText condition (solid_of_isWord (event_word factor)) hne (last_of_solid hsolid)
  have hread := causalKey_of_direct hwell htrim hdirect .up
  rw [show (contributingEdge edge .up).edgeId = stripWhitespace edge.edgeId from rfl, htext,
    show (EdgeKey.causes factor condition (.asset assetId.value)).text =
      keyText factor.value condition assetId.value from rfl, hstrip,
    P.causalKey_asset factor condition assetId hne] at hread
  have hnone := has_eq_false_iff.mp (countsOf_eq_none_iff.mp hmissing)
  exact hnone row hrow (hkey.trans (Except.ok.inj hread).symm)

end CredibilityPipeline

section Decisions

variable {known : Registry} {edges : List (FiringEdge known)} {polarities : Polarities}
  {elevated : Bool}

/-- A decision cites its effective edges. -/
theorem contributingEdges_of_decide {policy : DecisionPolicy} {assetId : AssetId known}
    {decision : Decision}
    (hdecision : Prediction.decide policy assetId edges polarities elevated = .ok (some decision)) :
    decision.contributingEdges = (effectiveEdges edges polarities elevated).map
        (fun pair => contributingEdge pair.1 pair.2) ∧
      decision.contributingFactors =
        (effectiveEdges edges polarities elevated).filterMap (fun pair => pair.1.factorId) ∧
      effectiveEdges edges polarities elevated ≠ [] := by
  unfold Prediction.decide at hdecision
  dsimp only at hdecision
  split at hdecision
  · cases hdecision
  next hsome =>
    have hne : effectiveEdges edges polarities elevated ≠ [] := fun hnil => hsome (by simp [hnil])
    split at hdecision
    · cases hdecision
      exact ⟨rfl, rfl, hne⟩
    · split at hdecision
      · cases hdecision
      · cases hdecision
        exact ⟨rfl, rfl, hne⟩

theorem effectiveEdges_sublist :
    ((effectiveEdges edges polarities elevated).map Prod.fst).Sublist edges := by
  induction edges with
  | nil => exact Sublist.refl []
  | cons edge rest ih =>
    unfold effectiveEdges at ih ⊢
    rw [filterMap_cons]
    cases resolvedDirection edge polarities elevated with
    | none => exact ih.cons edge
    | some direction => exact ih.cons_cons edge

end Decisions

open CredibilityPipeline

def groupUnderSanctions (groupId : String) : EdgeKey := .causes .sanctions none (.group groupId)

/-- A graph in which sanctions move a group, and gold is its member. -/
def groupGraph (groupId : String) : Graph where
  edges := (∅ : Table GraphEdge.key).insertNew (relationship (groupUnderSanctions groupId))
  memberOf := (∅ : Table (id : String × String → String × String)).insertNew ("GOLD", groupId)

def metalsGraph : Graph := groupGraph "PRECIOUS_METALS"

def groupStore (groupId : String) : Store := { sanctionsStore with graph := groupGraph groupId }

/-- Gold fires with sanctions, under no condition. -/
def goldFiring : Firing metalsPipeline.reg :=
  .direct (metal "GOLD" gold_known) [(.sanctions, [])] (by decide)

private theorem eq_ok_some_of_isSome {ε α : Type} {x : Except ε (Option α)}
    (hsome : (x.toOption.bind id).isSome) : x = .ok (some ((x.toOption.bind id).get hsome)) := by
  cases x with
  | error e => cases hsome
  | ok a =>
    cases a with
    | none => cases hsome
    | some a => rfl

def defaultPolicy : DecisionPolicy := { halfpoint_pos := rat_half_pos }

/-- What is decided about gold. -/
def goldDecides (groupId : String) : Except DecisionError (Option Decision) :=
  Prediction.decide defaultPolicy goldFiring.assetId (goldFiring.edges (groupGraph groupId)) [] false

theorem goldDecision_made : ((goldDecides "PRECIOUS_METALS").toOption.bind id).isSome := by
  decide +kernel

def goldDecision : Decision :=
  ((goldDecides "PRECIOUS_METALS").toOption.bind id).get goldDecision_made

theorem groupsKnown_metals : GroupsKnown metals (groupGraph "PRECIOUS_METALS") := by
  have hknown : (groupGraph "PRECIOUS_METALS").memberOf.rows.all (fun pair => metals.groups.has pair.2) := by
    decide +kernel
  exact all_eq_true.mp hknown

theorem trimmed_metals :
    ∀ group ∈ metals.groups, stripWhitespace group.groupId = group.groupId := by
  have htrimmed : metals.groups.rows.all
      (fun group => stripWhitespace group.groupId = group.groupId) := by
    decide +kernel
  intro group hgroup
  exact of_decide_eq_true (all_eq_true.mp htrimmed group hgroup)

theorem retiredDecision_made : ((goldDecides "OLD_METALS").toOption.bind id).isSome := by
  decide +kernel

end Credibility
