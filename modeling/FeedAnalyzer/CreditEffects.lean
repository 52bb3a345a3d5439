import FeedAnalyzer.CredibilityPipeline

/-!
# What a scored prediction does to the graph

The plan of a message is the list of the keys its ids name, up to the first id that
does not parse.  `Crediting` says what a procedure that still has moves to make looks
like, and from it follow complete and undisturbed runs.
-/

namespace Credibility

open Feed Transact CausalGraph Prediction Proc List Store Graph

variable {text : String} {key : EdgeKey}

variable {sep left right : String} {factor : EventType} {condition : ConditionCode} {key : EdgeKey}
  {w : Answer} {c : Call reg} {weight : Confidence} {move : Move} {predictionId : Uuid}

theorem eq_of_partitionAt {found : Bool} (hcut : partitionAt sep text = (left, found, right)) :
    text = if found then left ++ sep ++ right else left := by
  have hwhole := Text.eq_of_partition sep.toList text.toList
  cases hcut
  apply String.toList_injective
  refine hwhole.trans ?_
  split
  · simp
  · simp

theorem value_of_find? {A : Type} {value : A → String} {xs : List A} {x : A}
    (hfind : xs.find? (fun x => value x = text) = some x) : value x = text := by
  simpa using find?_some hfind

namespace CredibilityPipeline

variable (P : CredibilityPipeline) {edgeId : String}

def causalKey (edgeId : String) : Except CredibilityError EdgeKey :=
  match parseEdgeId P.loaded edgeId with
  | .error e => .error e
  | .ok (factor, condition, target) => .ok (.causes factor condition (P.targetNode target))

variable {P} {target : ParsedTarget P.reg}

theorem target_eq_ok {factor' : EventType} {condition condition' : Option ConditionCode}
    {targetStr : String} (hok : parseEdgeId.target P.loaded edgeId factor condition targetStr =
      .ok (factor', condition', target)) :
    factor' = factor ∧ condition' = condition ∧ (P.targetNode target).id = targetStr := by
  unfold parseEdgeId.target at hok
  split at hok
  · next assetId hparse =>
    cases hok
    exact ⟨rfl, rfl, AssetId.parse_eq_ok_iff.mp hparse⟩
  · split at hok
    · cases hok
      exact ⟨rfl, rfl, rfl⟩
    · cases hok

/-- **A causal id that parses is the text of its key.** -/
theorem text_of_parseEdgeId {condition : Option ConditionCode}
    (hok : parseEdgeId P.loaded edgeId = .ok (factor, condition, target)) :
    edgeId = (EdgeKey.causes factor condition (P.targetNode target)).text := by
  rcases harrow : partitionAt "->" edgeId with ⟨left, _ | _, targetStr⟩
  · simp [parseEdgeId, harrow] at hok
  rcases hbar : partitionAt "|" left with ⟨factorStr, condSep, conditionStr⟩
  simp only [parseEdgeId, harrow, hbar] at hok
  rw [eq_of_partitionAt harrow, eq_of_partitionAt hbar]
  split at hok
  · cases hok
  split at hok
  next hfactor =>
    obtain ⟨rfl, rfl, htarget⟩ := target_eq_ok hok
    rw [← value_of_find? hfactor, ← htarget]
    rfl
  next hfactor hcondition =>
    obtain ⟨rfl, rfl, htarget⟩ := target_eq_ok hok
    rw [← value_of_find? hfactor, ← value_of_find? hcondition, ← htarget]
    rfl
  · cases hok

theorem text_of_causalKey (hkey : P.causalKey edgeId = .ok key) : edgeId = key.text := by
  unfold causalKey at hkey
  split at hkey
  · cases hkey
  next hparse =>
    cases hkey
    exact text_of_parseEdgeId hparse

/-- **A correlation id that parses is the text of its key.** -/
theorem text_of_parseCorrelationEdgeId {source target : AssetId P.reg}
    (hok : parseCorrelationEdgeId P.reg edgeId = .ok (some (source, condition, target))) :
    edgeId = (EdgeKey.correlates source.value condition target.value).text := by
  rcases harrow : partitionAt "->" edgeId with ⟨left, _ | _, targetStr⟩
  · simp [parseCorrelationEdgeId, harrow] at hok
  rcases hbar : partitionAt "|" left with ⟨sourceStr, condSep, conditionStr⟩
  simp only [parseCorrelationEdgeId, harrow, hbar, reduceCtorEq, if_false] at hok
  rw [eq_of_partitionAt harrow, eq_of_partitionAt hbar]
  split at hok
  next condition' hcondition =>
    split at hok
    next hupstream =>
      split at hok
      next source' target' hsource htarget =>
        cases hok
        rw [hupstream.1, ← AssetId.parse_eq_ok_iff.mp hsource,
          ← AssetId.parse_eq_ok_iff.mp htarget, ← value_of_find? hcondition]
        rfl
      · cases hok
    · cases hok
  · cases hok

/-- The relationships a message credits, in order, the edges that share the step, and the
error of the first invalid id. -/
structure CreditPlan where
  keys : List EdgeKey
  edges : List ContributingEdge
  invalid : Option CredibilityError

variable (P)

/-- The keys of the ids before the first invalid one. -/
def directKeys : List ContributingEdge → List EdgeKey × Option CredibilityError
  | [] => ([], none)
  | edge :: rest =>
    match P.causalKey edge.edgeId with
    | .error e => ([], some e)
    | .ok key => (key :: (directKeys rest).1, (directKeys rest).2)

def correlationKey (parsed : AssetId P.reg × ConditionCode × AssetId P.reg) : EdgeKey :=
  .correlates parsed.1.value parsed.2.1 parsed.2.2.value

def plan (message : P.Scored) : CreditPlan :=
  if message.propagationChain.isEmpty then
    { keys := (P.directKeys message.contributingEdges).1
      edges := message.contributingEdges
      invalid := (P.directKeys message.contributingEdges).2 }
  else
    match P.correlationEdges message.contributingEdges with
    | .error e => ⟨[], [], some e⟩
    | .ok parsed => ⟨parsed.map (fun pair => P.correlationKey pair.2), parsed.map Prod.fst, none⟩

/-- The move of one relationship: its share of one step. -/
def creditMove (isCorrect : Bool) (edges : List ContributingEdge) (key : EdgeKey) : Graph.Move :=
  (key, P.moved isCorrect (creditOf edges key.text))

theorem map_fst_creditMove (isCorrect : Bool) (edges : List ContributingEdge)
    (keys : List EdgeKey) : (keys.map (P.creditMove isCorrect edges)).map Prod.fst = keys := by
  rw [List.map_map]
  exact map_id keys

theorem moveAt_credit_cons (isCorrect : Bool) (edges : List ContributingEdge)
    (key key' : EdgeKey) (rest : List EdgeKey) (weight : Confidence) :
    moveAt key ((key' :: rest).map (P.creditMove isCorrect edges)) weight =
      moveAt key (rest.map (P.creditMove isCorrect edges))
        (if key' = key then P.moved isCorrect (creditOf edges key'.text) weight else weight) :=
  rfl

def moves (message : P.Scored) : List Graph.Move :=
  (P.plan message).keys.map (P.creditMove message.isCorrect (P.plan message).edges)

end CredibilityPipeline

structure Call.ReadsGraph (c : Call reg) : Prop where
  done : ∀ s, ∃ a, handle {} c s = (.ok a, s)
  raised : ∀ w s, w ≠ {} → ∃ text, handle w c s = (.error (.graphTransport text), s)

/-- The call writes a weight; a missing relationship raises. -/
structure Call.WritesWeight (c : Call reg) (key : EdgeKey) (weight : Confidence) : Prop where
  done : ∀ s : Store, s.graph.countsOf key ≠ none →
    ∃ a, handle {} c s = (.ok a, { s with graph := s.graph.setWeight key weight })
  raised : ∀ w (s : Store), w ≠ {} ∨ s.graph.countsOf key = none →
    ∃ text, handle w c s = (.error (.graphTransport text), s)

namespace CredibilityPipeline

variable (P : CredibilityPipeline)

/-- What is left writes a weight next, and then satisfies `Next`. -/
def Writing (key : EdgeKey) (weight : Confidence) (Next : Service P.reg Bool → Prop)
    (p : Service P.reg Bool) : Prop :=
  ∃ (c : Call P.reg) (f : c.Ret → Service P.reg Bool),
    p = (ask c).bind f ∧ c.WritesWeight key weight ∧ ∀ a, Next (f a)

/-- The moves are made one after another, each by a read and a write, and then `Tail` holds.
-/
def Crediting (Tail : Service P.reg Bool → Prop) : List Graph.Move → Service P.reg Bool → Prop
  | [], p => Tail p
  | move :: rest, p =>
    ∃ (c : Call P.reg) (f : c.Ret → Service P.reg Bool),
      p = (ask c).bind f ∧ c.ReadsGraph ∧ ∀ (s : Store) a, handle {} c s = (.ok a, s) →
          (s.graph.countsOf move.1 = none ∧ ¬ Graph.Stray P.reg s.graph move.1 ∧
            Crediting Tail rest (f a)) ∨
          ∃ counts, (s.graph.countsOf move.1 = some counts ∨ Graph.Stray P.reg s.graph move.1) ∧
              P.Writing move.1 (move.2 counts.weight) (Crediting Tail rest) (f a)

end CredibilityPipeline

theorem Call.readsGraph_of {read : Store → c.Ret}
    (hread : ∀ w s, handle w c s = commit w.graphError (fun s => .ok (read s, s)) s) :
    c.ReadsGraph where
  done := fun s => ⟨read s, hread {} s⟩
  raised := by
    rintro ⟨_ | text⟩ s hw
    · exact absurd rfl hw
    · exact ⟨text, hread _ s⟩

variable {s : Store}

theorem Store.writeWeight_of_found (weight : Confidence) (missing : String)
    (hfound : s.graph.countsOf key ≠ none) :
    s.writeWeight key weight missing =
      .ok ((), { s with graph := s.graph.setWeight key weight }) := by
  have hhas : s.graph.edges.has key := by
    rw [ne_eq, countsOf_eq_none_iff] at hfound
    exact Bool.not_eq_false _ ▸ hfound
  unfold writeWeight updateWeight
  rw [if_pos hhas]

variable {missing : String} {s' : Store}

theorem commit_writeWeight_raised (hfail : w ≠ {} ∨ s.graph.countsOf key = none) :
    ∃ text, commit w.graphError (writeWeight key weight missing) s =
      (.error (.graphTransport text), s) := by
  rcases w with ⟨_ | text⟩
  · refine ⟨missing, ?_⟩
    have hmissing := hfail.resolve_left fun hne => hne rfl
    show commit none _ s = _
    unfold commit
    rw [writeWeight, updateWeight, if_neg (by simp [countsOf_eq_none_iff.mp hmissing])]
  · exact ⟨text, rfl⟩

theorem commit_writeWeight_done (hfound : s.graph.countsOf key ≠ none) :
    commit (Answer.graphError {}) (writeWeight key weight missing) s =
      (.ok (), { s with graph := s.graph.setWeight key weight }) := by
  show commit none _ s = _
  unfold commit
  rw [writeWeight_of_found weight missing hfound]

theorem Call.writesWeight_edge (factor : EventType) (target : Target)
    (condition : Option ConditionCode) (weight : Confidence) :
    (Call.updateEdgeWeight factor target condition weight : Call reg).WritesWeight
      (.causes factor condition target) weight where
  done := fun _ hfound => ⟨(), commit_writeWeight_done hfound⟩
  raised := fun _ _ hfail => commit_writeWeight_raised hfail

theorem Call.writesWeight_correlation (source target : AssetId reg) (condition : ConditionCode)
    (weight : Confidence) :
    (Call.updateCorrelationWeight source target condition weight).WritesWeight
      (.correlates source.value condition target.value) weight where
  done := fun _ hfound => ⟨(), commit_writeWeight_done hfound⟩
  raised := fun _ _ hfail => commit_writeWeight_raised hfail

namespace CredibilityPipeline

variable (P : CredibilityPipeline) {edgeId : String}

/-- The counts of an edge that fires. -/
def countsOf {reg : Registry} (e : FiringEdge reg) : EdgeCounts :=
  ⟨e.alpha, e.beta, ⟨e.weight, e.weight_range⟩⟩

def ownState (s : Store) (factor : EventType) (assetId : AssetId P.reg) (edgeId : String) :
    Option EdgeCounts :=
  ((s.graph.getFiringEdges factor assetId none).find? (fun e => e.edgeId = edgeId)).map countsOf

/-- **The full business key reads the right relationship**, or a stray one. -/
theorem ownState_cases (s : Store) (factor : EventType) (condition : Option ConditionCode)
    (assetId : AssetId P.reg) :
    (P.ownState s factor assetId (EdgeKey.causes factor condition (.asset assetId.value)).text =
        s.graph.countsOf (.causes factor condition (.asset assetId.value)) ∧
      ¬ Stray P.reg s.graph (.causes factor condition (.asset assetId.value))) ∨
    (Stray P.reg s.graph (.causes factor condition (.asset assetId.value)) ∧
      ∃ counts, P.ownState s factor assetId
        (EdgeKey.causes factor condition (.asset assetId.value)).text = some counts) := by
  cases hcounts : s.graph.countsOf (.causes factor condition (.asset assetId.value)) with
  | some counts =>
    obtain ⟨row, hfind, rfl⟩ := Option.map_eq_some_iff.mp hcounts
    obtain ⟨hrow, hkey⟩ := Table.find?_eq_some_iff.mp hfind
    left
    constructor
    · unfold ownState
      rw [find?_getFiringEdges hrow hkey]
      rfl
    · intro hstray
      rw [hstray.1] at hcounts
      cases hcounts
  | none =>
    cases hfound : (s.graph.getFiringEdges factor assetId none).find?
        (fun e => e.edgeId = (EdgeKey.causes factor condition (.asset assetId.value)).text) with
    | none =>
      left
      constructor
      · unfold ownState
        rw [hfound]
        rfl
      · rintro ⟨_, factor', condition', assetId', hkey, hreported⟩
        obtain ⟨rfl, _, htarget⟩ := EdgeKey.causes.inj hkey
        obtain rfl : assetId = assetId' := Subtype.ext (Target.asset.inj htarget)
        obtain ⟨edge, hedge, htext⟩ := mem_map.mp hreported
        exact find?_eq_none.mp hfound edge hedge (decide_eq_true htext)
    | some edge =>
      right
      have hmatch := find?_some hfound
      have htext := of_decide_eq_true hmatch
      refine ⟨⟨hcounts, factor, condition, assetId, rfl, ?_⟩,
        ⟨edge.alpha, edge.beta, ⟨edge.weight, edge.weight_range⟩⟩, ?_⟩
      · exact mem_map.mpr ⟨edge, mem_of_find?_eq_some hfound, htext⟩
      · unfold ownState
        rw [hfound]
        rfl

variable {P} {Tail : Service P.reg Bool → Prop}

def creditTurn (c : Call P.reg) (state : c.Ret → Option EdgeCounts)
    (write : Confidence → Call P.reg) (move : Confidence → Confidence)
    (report : EdgeCounts → WeightUpdate) : Service P.reg (Option WeightUpdate) :=
  (ask c).bind (fun a =>
    match state a with
    | none => .ret none
    | some counts =>
      (ask (write (move counts.weight))).bind (fun _ => .ret (some (report counts))))

variable {rest : List Move} {K : Option WeightUpdate → Service P.reg Bool}
  {edges : List ContributingEdge}

/-- One read and one write. -/
theorem crediting_turn {c : Call P.reg} {state : c.Ret → Option EdgeCounts}
    {write : Confidence → Call P.reg} {report : EdgeCounts → WeightUpdate} (hread : c.ReadsGraph)
    (hstate : ∀ (s : Store) a, handle {} c s = (.ok a, s) →
      (state a = s.graph.countsOf move.1 ∧ ¬ Stray P.reg s.graph move.1) ∨
      (Stray P.reg s.graph move.1 ∧ ∃ counts, state a = some counts))
    (hwrite : ∀ weight, (write weight).WritesWeight move.1 weight)
    (hrest : ∀ update, P.Crediting Tail rest (K update)) :
    P.Crediting Tail (move :: rest) ((creditTurn c state write move.2 report).bind K) := by
  refine ⟨c, _, bind_assoc _ _ _, hread, ?_⟩
  intro s a hanswer
  cases hstate' : state a with
  | none =>
    left
    rcases hstate s a hanswer with ⟨hcounts, hstray⟩ | ⟨_, counts, hcounts⟩
    · exact ⟨hcounts ▸ hstate', hstray, hrest none⟩
    · rw [hcounts] at hstate'
      cases hstate'
  | some counts =>
    right
    refine ⟨counts, ?_, write (move.2 counts.weight), fun _ => K (some (report counts)), ?_,
      hwrite _, fun _ => hrest _⟩
    · rcases hstate s a hanswer with ⟨hcounts, _⟩ | ⟨hstray, _⟩
      · exact Or.inl (hcounts ▸ hstate')
      · exact Or.inr hstray
    · exact bind_assoc _ _ _

variable (P) (isCorrect : Bool)

/-- A turn of the loop over causal edges, at an asset's own edge. -/
theorem updateEdge_asset {condition : Option ConditionCode} {assetId : AssetId P.reg} (credit : Rat)
    (hparse : parseEdgeId P.loaded edgeId = .ok (factor, condition, .asset assetId)) :
    P.updateEdge isCorrect credit edgeId = creditTurn (.getFiringEdges factor assetId)
        (fun firing => (firing.find? (fun e => e.edgeId = edgeId)).map
          (fun e => ⟨e.alpha, e.beta, ⟨e.weight, e.weight_range⟩⟩))
        (.updateEdgeWeight factor (.asset assetId.value) condition) (P.moved isCorrect credit)
        (fun counts => edgeUpdate edgeId counts (P.moved isCorrect credit counts.weight)) := by
  unfold updateEdge creditTurn
  rw [hparse]
  exact bind_assoc _ _ _

theorem updateEdge_group {condition : Option ConditionCode} {groupId : String} (credit : Rat)
    (hparse : parseEdgeId P.loaded edgeId = .ok (factor, condition, .group groupId)) :
    P.updateEdge isCorrect credit edgeId =
      creditTurn (.getGroupEdgeCounts factor groupId condition) id
        (.updateEdgeWeight factor (.group groupId) condition) (P.moved isCorrect credit)
        (fun counts => edgeUpdate edgeId counts (P.moved isCorrect credit counts.weight)) := by
  unfold updateEdge creditTurn
  rw [hparse]
  rfl

/-- A turn of the loop over causal edges credits the relationship its id
names. -/
theorem crediting_updateEdge {isCorrect : Bool} (hkey : P.causalKey edgeId = .ok key)
    (hrest : ∀ update, P.Crediting Tail rest (K update)) :
    P.Crediting Tail (P.creditMove isCorrect edges key :: rest)
      ((P.updateEdge isCorrect (creditOf edges edgeId) edgeId).bind K) := by
  unfold causalKey at hkey
  split at hkey
  · cases hkey
  next factor condition target hparse =>
    cases hkey
    have htext := text_of_parseEdgeId hparse
    cases target with
    | asset assetId =>
      rw [P.updateEdge_asset isCorrect _ hparse]
      unfold creditMove
      rw [← htext]
      refine crediting_turn (Call.readsGraph_of (fun _ _ => rfl)) ?_
        (Call.writesWeight_edge factor (.asset assetId.value) condition) hrest
      intro s a hanswer
      cases hanswer
      have hstate := P.ownState_cases s factor condition assetId
      rw [show (EdgeKey.causes factor condition (.asset assetId.value)).text = edgeId from
        htext.symm] at hstate
      exact hstate
    | group groupId =>
      rw [P.updateEdge_group isCorrect _ hparse]
      unfold creditMove
      rw [← htext]
      refine crediting_turn (Call.readsGraph_of (fun _ _ => rfl)) ?_
        (Call.writesWeight_edge factor (.group groupId) condition) hrest
      intro s a hanswer
      cases hanswer
      exact Or.inl ⟨rfl, by rintro ⟨_, _, _, _, ⟨⟩, _⟩⟩

variable {k : List WeightUpdate → Service P.reg Bool}

/-- The direct loop credits its keys. -/
theorem crediting_updateEdgeLoop (edges : List ContributingEdge) {rest : List ContributingEdge}
    (hraise : ∀ e, (P.directKeys rest).2 = some e → Tail (.fail e))
    (hend : (P.directKeys rest).2 = none → ∀ updates, Tail (k updates))
    (updates : List WeightUpdate) :
    P.Crediting Tail ((P.directKeys rest).1.map (P.creditMove isCorrect edges))
      ((P.updateEdgeLoop isCorrect edges rest updates).bind k) := by
  induction rest generalizing updates with
  | nil => exact hend rfl updates
  | cons edge rest ih =>
    cases hkey : P.causalKey edge.edgeId with
    | error e =>
      have hkeys : P.directKeys (edge :: rest) = ([], some e) := by
        simp only [directKeys, hkey]
      have hfail : P.updateEdge isCorrect (creditOf edges edge.edgeId) edge.edgeId = .fail e := by
        cases hparse : parseEdgeId P.loaded edge.edgeId with
        | error e' =>
          simp only [causalKey, hparse] at hkey
          cases hkey
          simp only [updateEdge, hparse]
        | ok parsed =>
          simp only [causalKey, hparse] at hkey
          cases hkey
      rw [hkeys]
      show Tail (((P.updateEdge isCorrect (creditOf edges edge.edgeId) edge.edgeId).bind _).bind k)
      rw [hfail]
      exact hraise e (congrArg Prod.snd hkeys)
    | ok key =>
      have hkeys : P.directKeys (edge :: rest) =
          (key :: (P.directKeys rest).1, (P.directKeys rest).2) := by
        simp only [directKeys, hkey]
      rw [hkeys] at hraise hend ⊢
      show P.Crediting _ (P.creditMove isCorrect edges key :: _)
        (((P.updateEdge isCorrect (creditOf edges edge.edgeId) edge.edgeId).bind _).bind k)
      rw [bind_assoc]
      exact P.crediting_updateEdge hkey fun update => ih hraise hend _

theorem updateCorrelationEdge_eq (source target : AssetId P.reg) (condition : ConditionCode)
    (credit : Rat) (isCorrect : Bool) :
    P.updateCorrelationEdge source target condition credit isCorrect =
      creditTurn (.getCorrelationEdgeCounts source target condition) id
        (.updateCorrelationWeight source target condition) (P.moved isCorrect credit)
        (fun counts => edgeUpdate (EdgeKey.correlates source.value condition target.value).text
          counts (P.moved isCorrect credit counts.weight)) := by
  show (ask _).bind _ = (ask _).bind _
  congr 1
  funext counts
  cases counts <;> rfl

/-- The other loop credits its keys. -/
theorem crediting_updateCorrelationLoop (edges : List ContributingEdge)
    {rest : List (ContributingEdge × AssetId P.reg × ConditionCode × AssetId P.reg)}
    (hrest : ∀ pair ∈ rest, pair.1.edgeId = (P.correlationKey pair.2).text)
    (hend : ∀ updates, Tail (k updates)) (updates : List WeightUpdate) :
    P.Crediting Tail (rest.map (fun pair => P.creditMove isCorrect edges (P.correlationKey pair.2)))
      ((P.updateCorrelationLoop isCorrect edges rest updates).bind k) := by
  induction rest generalizing updates with
  | nil => exact hend updates
  | cons pair rest ih =>
    obtain ⟨edge, source, condition, target⟩ := pair
    have htext : edge.edgeId = (P.correlationKey (source, condition, target)).text :=
      hrest _ mem_cons_self
    have hlater := ih fun pair hpair => hrest pair (mem_cons_of_mem _ hpair)
    show P.Crediting _ (P.creditMove isCorrect edges _ :: _)
      (((P.updateCorrelationEdge source target condition (creditOf edges edge.edgeId)
        isCorrect).bind _).bind k)
    rw [bind_assoc, htext, P.updateCorrelationEdge_eq]
    refine crediting_turn (Call.readsGraph_of (fun _ _ => rfl)) ?_
      (Call.writesWeight_correlation source target condition) fun update => hlater _
    intro s a hanswer
    cases hanswer
    exact Or.inl ⟨rfl, by rintro ⟨_, _, _, _, ⟨⟩, _⟩⟩

/-- The parsed correlation edges are edges of the message, and their ids the
texts of their keys. -/
theorem text_of_correlationEdges
    {parsed : List (ContributingEdge × AssetId P.reg × ConditionCode × AssetId P.reg)}
    (hparsed : P.correlationEdges edges = .ok parsed) :
    ∀ pair ∈ parsed, pair.1 ∈ edges ∧ pair.1.edgeId = (P.correlationKey pair.2).text := by
  induction edges generalizing parsed with
  | nil =>
    cases hparsed
    intro pair hpair
    cases hpair
  | cons edge rest ih =>
    unfold correlationEdges at hparsed
    split at hparsed
    · cases hparsed
    · intro pair hpair
      obtain ⟨hmem, htext⟩ := ih hparsed pair hpair
      exact ⟨mem_cons_of_mem edge hmem, htext⟩
    next triple htriple =>
      split at hparsed
      · cases hparsed
      next later hlater =>
        cases hparsed
        intro pair hpair
        rcases mem_cons.mp hpair with rfl | hpair'
        · exact ⟨mem_cons_self, text_of_parseCorrelationEdgeId htriple⟩
        · obtain ⟨hmem, htext⟩ := ih hlater pair hpair'
          exact ⟨mem_cons_of_mem edge hmem, htext⟩

/-- What is left once the edges are done. -/
def record (message : P.Scored) (edgeUpdates : List WeightUpdate) : Service P.reg Bool :=
  (P.updateSources message).bind (fun sourceUpdates =>
    ask (.commitUpdates message.predictionId (edgeUpdates ++ sourceUpdates)))

/-- Sources are read, and then the guard row is claimed. -/
inductive Recording (predictionId : Uuid) : Service P.reg Bool → Prop
  | read {p : Service P.reg Bool} (sourceId : String)
      (f : Option (Rat × Rat) → Service P.reg Bool)
      (hp : p = (ask (.getSourceState sourceId)).bind f)
      (hnext : ∀ a, Recording predictionId (f a)) : Recording predictionId p
  | guard {p : Service P.reg Bool} (updates : List WeightUpdate)
      (hp : p = ask (.commitUpdates predictionId updates)) : Recording predictionId p

theorem recording_updateSourceLoop (predictionId : Uuid) (edgeUpdates : List WeightUpdate)
    (credits : List (String × Rat)) (updates : List WeightUpdate) :
    P.Recording predictionId ((P.updateSourceLoop isCorrect credits updates).bind
      (fun sourceUpdates => ask (.commitUpdates predictionId (edgeUpdates ++ sourceUpdates)))) := by
  induction credits generalizing updates with
  | nil => exact .guard _ rfl
  | cons pair rest ih =>
    obtain ⟨sourceId, credit⟩ := pair
    exact .read sourceId _ (bind_assoc _ _ _) fun a => ih _

/-- At the first invalid id, or by recording what was done. -/
def Outcome (message : P.Scored) (p : Service P.reg Bool) : Prop :=
  match (P.plan message).invalid with
  | some e => p = .fail e
  | none => P.Recording message.predictionId p

/-- **Applying an outcome makes the moves of the message**, and then stops at
the first invalid id or records what was done. -/
theorem crediting_applyOutcome (message : P.Scored) :
    P.Crediting (P.Outcome message) (P.moves message) (P.applyOutcome message) := by
  have hshape : P.applyOutcome message = (P.updateEdges message).bind (P.record message) := rfl
  have hrecord : ∀ updates, P.Recording message.predictionId (P.record message updates) :=
    fun updates => P.recording_updateSourceLoop _ _ updates _ []
  have hraise : ∀ e, (P.plan message).invalid = some e → P.Outcome message (.fail e) := by
    intro e hinvalid
    unfold Outcome
    rw [hinvalid]
  have hend : (P.plan message).invalid = none →
      ∀ updates, P.Outcome message (P.record message updates) := by
    intro hvalid updates
    unfold Outcome
    rw [hvalid]
    exact hrecord updates
  rw [hshape]
  unfold plan at hraise hend
  unfold updateEdges moves plan
  by_cases hdirect : message.propagationChain.isEmpty
  · rw [if_pos hdirect] at hraise hend
    rw [if_pos hdirect, if_pos hdirect]
    exact P.crediting_updateEdgeLoop message.isCorrect message.contributingEdges hraise hend []
  · rw [if_neg hdirect] at hraise hend
    rw [if_neg hdirect, if_neg hdirect]
    unfold updateCorrelationEdges
    cases hparsed : P.correlationEdges message.contributingEdges with
    | error e =>
      rw [hparsed] at hraise
      exact hraise e rfl
    | ok parsed =>
      rw [hparsed] at hend
      rw [List.map_map]
      exact P.crediting_updateCorrelationLoop message.isCorrect (parsed.map Prod.fst)
        (fun pair hpair => (P.text_of_correlationEdges hparsed pair hpair).2) (hend rfl) []

end CredibilityPipeline

/-- A complete run past a reading call is a run of what is left, or a failure
of the graph. -/
theorem Call.ReadsGraph.ends {f : c.Ret → Service reg Bool} (hread : c.ReadsGraph)
    {r : Except CredibilityError Bool} (hends : ((ask c).bind f).Ends handle s r s') :
    (∃ text, r = .error (.graphTransport text)) ∨
      ∃ a, handle {} c s = (.ok a, s) ∧ (f a).Ends handle s r s' := by
  obtain ⟨w, hrest⟩ := hends
  by_cases hw : w = {}
  · subst hw
    obtain ⟨a, hok⟩ := hread.done s
    rw [hok] at hrest
    exact Or.inr ⟨a, hok, hrest⟩
  · obtain ⟨text, hraised⟩ := hread.raised w s hw
    rw [hraised] at hrest
    exact Or.inl ⟨text, hrest.1⟩

namespace CredibilityPipeline

variable {P : CredibilityPipeline} {Tail : Service P.reg Bool → Prop}
  {p : Service P.reg Bool}
  {s s' : Store} {r : Except CredibilityError Bool}

theorem Writing.ends (hp : P.Writing key weight Tail p) (hends : p.Ends handle s r s') :
    (∃ text, r = .error (.graphTransport text)) ∨ (s.graph.countsOf key ≠ none ∧
        ∃ q, Tail q ∧ q.Ends handle { s with graph := s.graph.setWeight key weight } r s') := by
  obtain ⟨c, f, rfl, hwrite, hnext⟩ := hp
  obtain ⟨w, hrest⟩ := hends
  by_cases hfail : w ≠ {} ∨ s.graph.countsOf key = none
  · obtain ⟨text, hraised⟩ := hwrite.raised w s hfail
    rw [hraised] at hrest
    exact Or.inl ⟨text, hrest.1⟩
  · push Not at hfail
    obtain ⟨rfl, hfound⟩ := hfail
    obtain ⟨a, hok⟩ := hwrite.done s hfound
    rw [hok] at hrest
    exact Or.inr ⟨hfound, f a, hnext a, hrest⟩

variable {graph : Graph} {moves : List Move}

/-- Writing the moved weight of a relationship that was read makes its move. -/
theorem moveAll_cons_of_found {counts : EdgeCounts} (hcounts : graph.countsOf move.1 = some counts)
    (rest : List Move) :
    (graph.setWeight move.1 (move.2 counts.weight)).moveAll rest = graph.moveAll (move :: rest) := by
  rw [setWeight_eq_mapWeight hcounts]
  rfl

theorem moveAll_cons_of_missing (hmissing : graph.countsOf move.1 = none) (rest : List Move) :
    graph.moveAll rest = graph.moveAll (move :: rest) := by
  show _ = (graph.mapWeight move.1 move.2).moveAll rest
  rw [mapWeight_of_missing hmissing]

/-- **A complete run makes all its moves**, or ends with a failure of the
graph. -/
theorem Crediting.ends (hp : P.Crediting Tail moves p) (hends : p.Ends handle s r s') :
    (∃ text, r = .error (.graphTransport text)) ∨
      ∃ q, Tail q ∧ q.Ends handle { s with graph := s.graph.moveAll moves } r s' := by
  induction moves generalizing p s with
  | nil => exact Or.inr ⟨p, hp, hends⟩
  | cons move rest ih =>
    obtain ⟨c, f, rfl, hread, hnext⟩ := hp
    rcases hread.ends hends with htransport | ⟨a, hanswer, hlater⟩
    · exact Or.inl htransport
    · rcases hnext s a hanswer with ⟨hmissing, _, hrest⟩ | ⟨counts, hcounts, hwriting⟩
      · rw [← moveAll_cons_of_missing hmissing]
        exact ih hrest hlater
      · rcases hwriting.ends hlater with htransport | ⟨hfound, q, hq, hqends⟩
        · exact Or.inl htransport
        · have hread' : s.graph.countsOf move.1 = some counts :=
            hcounts.resolve_right fun hstray => hfound hstray.1
          rw [← moveAll_cons_of_found hread']
          exact ih hq hqends

/-- **An undisturbed run makes all its moves**, and goes on to its tail. -/
theorem Crediting.finish (hp : P.Crediting Tail moves p)
    (hstray : ∀ move ∈ moves, ¬ Stray P.reg s.graph move.1) :
    ∃ q, Tail q ∧
      p.finish handle {} s = q.finish handle {} { s with graph := s.graph.moveAll moves } := by
  induction moves generalizing p s with
  | nil => exact ⟨p, hp, rfl⟩
  | cons move rest ih =>
    obtain ⟨c, f, rfl, hread, hnext⟩ := hp
    have hlaterStray : ∀ move ∈ rest, ¬ Stray P.reg s.graph move.1 :=
      fun move hmove => hstray move (mem_cons_of_mem _ hmove)
    obtain ⟨a, hanswer⟩ := hread.done s
    have hreads : ((ask c).bind f).finish handle {} s = (f a).finish handle {} s := by
      rw [finish_perform (congrArg Prod.fst hanswer), hanswer]
    rw [hreads]
    rcases hnext s a hanswer with ⟨hmissing, _, hrest⟩ | ⟨counts, hcounts, hwriting⟩
    · rw [← moveAll_cons_of_missing hmissing]
      exact ih hrest hlaterStray
    · have hfound : s.graph.countsOf move.1 = some counts :=
        hcounts.resolve_right (hstray move mem_cons_self)
      obtain ⟨c', f', hwrites, hwrite, hafter⟩ := hwriting
      obtain ⟨a', hdone⟩ := hwrite.done s (by rw [hfound]; exact Option.some_ne_none counts)
      rw [hwrites, finish_perform (congrArg Prod.fst hdone), hdone, ← moveAll_cons_of_found hfound]
      refine ih (hafter a') ?_
      intro later hlater
      rw [setWeight_eq_mapWeight hfound, stray_mapWeight]
      exact hlaterStray later hlater

end CredibilityPipeline

/-- The guard row is claimed; the graph and the statuses are as before. -/
structure Store.Claimed (predictionId : Uuid) (s s' : Store) : Prop where
  graph : s'.graph = s.graph
  processed : s'.processedPredictions = s.processedPredictions.insertNew predictionId
  statuses : s'.predictionStatuses = s.predictionStatuses

theorem Store.Claimed.applyUpdates (hclaimed : Store.Claimed predictionId s s')
    (updates : List WeightUpdate) :
    Store.Claimed predictionId s (updates.foldl (applyUpdate predictionId) s') := by
  refine foldlRecOn (motive := Store.Claimed predictionId s) updates _ hclaimed
    fun s' hclaimed update _ => ?_
  unfold applyUpdate
  by_cases hsource : update.entityType = .source
  · simp only [hsource, if_true]
    exact ⟨hclaimed.graph, hclaimed.processed, hclaimed.statuses⟩
  · simp only [hsource, if_false]
    exact ⟨hclaimed.graph, hclaimed.processed, hclaimed.statuses⟩

theorem Store.claimed_commitUpdates (updates : List WeightUpdate)
    (hnew : s.processedPredictions.has predictionId = false) :
    ∃ s', s.commitUpdates predictionId updates = (true, s') ∧ Store.Claimed predictionId s s' := by
  have hclaim : Store.Claimed predictionId s
      { s with processedPredictions := s.processedPredictions.insertNew predictionId } :=
    ⟨rfl, rfl, rfl⟩
  refine ⟨_, ?_, hclaim.applyUpdates updates⟩
  unfold commitUpdates
  rw [hnew, if_neg Bool.false_ne_true]

namespace CredibilityPipeline

variable {P : CredibilityPipeline} {p : Service P.reg Bool}
  {s s' : Store} {r : Except CredibilityError Bool} {predictionId : Uuid}

/-- Recording raises nothing but a failure of the database. -/
theorem Recording.ends (hp : P.Recording predictionId p) (hends : p.Ends handle s r s') :
    (∃ b, r = .ok b) ∨ ∃ text, r = .error (.database text) := by
  induction hp generalizing s with
  | read sourceId f hp hnext ih =>
    subst hp
    obtain ⟨⟨_ | text⟩, hrest⟩ := hends
    · exact ih _ hrest
    · exact Or.inr ⟨text, hrest.1⟩
  | guard updates hp =>
    subst hp
    obtain ⟨⟨_ | text⟩, hrest⟩ := hends
    · exact Or.inl ⟨_, hrest.1⟩
    · exact Or.inr ⟨text, hrest.1⟩

theorem Recording.finish (hp : P.Recording predictionId p)
    (hnew : s.processedPredictions.has predictionId = false) :
    ∃ s', p.finish handle {} s = (.ok true, s') ∧ Store.Claimed predictionId s s' := by
  induction hp with
  | read sourceId f hp hnext ih =>
    subst hp
    exact ih (s.getSourceState sourceId)
  | guard updates hp =>
    subst hp
    obtain ⟨s', hcommit, hclaimed⟩ := claimed_commitUpdates updates hnew
    refine ⟨s', ?_, hclaimed⟩
    show ((Except.ok (s.commitUpdates predictionId updates).1 : Except CredibilityError Bool),
      (s.commitUpdates predictionId updates).2) = _
    rw [hcommit]

variable {message : P.Scored}

/-- An undisturbed call on a prediction that was processed changes nothing. -/
theorem process_of_processed (hprocessed : s.processedPredictions.has message.predictionId) :
    (P.process message).finish handle {} s = (.ok false, s) := by
  show ((ask (.alreadyProcessed message.predictionId)).bind _).finish handle {} s = _
  rw [finish_perform (show _ = Except.ok true from congrArg Except.ok hprocessed)]
  rfl

section

variable (hnew : s.processedPredictions.has message.predictionId = false)

include hnew

section

variable (hstands : s.predictionStatuses message.predictionId ≠ some .withdrawn)

include hstands

theorem process_of_new :
    (P.process message).finish handle {} s = (P.applyOutcome message).finish handle {} s := by
  show ((ask (.alreadyProcessed message.predictionId)).bind _).finish handle {} s = _
  rw [finish_perform (show _ = Except.ok false from congrArg Except.ok hnew)]
  show ((ask (.predictionStatus message.predictionId)).bind _).finish handle {} s = _
  rw [finish_perform rfl, if_neg hstands]
  rfl

/-- **What an undisturbed call does**: the moves of the message, and the guard
row. -/
theorem process_finish (hvalid : (P.plan message).invalid = none)
    (hstray : ∀ move ∈ P.moves message, ¬ Stray P.reg s.graph move.1) :
    ∃ s', (P.process message).finish handle {} s = (.ok true, s') ∧
      Store.Claimed message.predictionId
        { s with graph := s.graph.moveAll (P.moves message) } s' := by
  obtain ⟨q, hq, hfinish⟩ := (P.crediting_applyOutcome message).finish hstray
  unfold Outcome at hq
  rw [hvalid] at hq
  obtain ⟨s', hdone, hclaimed⟩ :=
    hq.finish (s := { s with graph := s.graph.moveAll (P.moves message) }) hnew
  exact ⟨s', by rw [process_of_new hnew hstands, hfinish, hdone], hclaimed⟩

end

end

end CredibilityPipeline

end Credibility
