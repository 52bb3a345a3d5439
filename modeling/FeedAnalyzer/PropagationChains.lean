import FeedAnalyzer.ConformingProc
import FeedAnalyzer.PredictionCalls

/-!
# Propagation chains

A propagated prediction carries the hops that led to it, one for each edge that reached
an asset.  Where several assets of one level reach the same target, only one of their
chains is kept (`converging_chain`).  So a chain is connected exactly when each of its
assets is reached from one source (`chain_connected_iff`).
-/

namespace Prediction

open Feed Transact Calendar PredictionPipeline List Call

variable {reg : Registry}

/-- Each hop starts at the direct asset or at the target of an earlier hop. -/
def Connected : List (AssetId reg) → Chain reg → Prop
  | _, [] => True
  | known, hop :: rest => hop.sourceAssetId ∈ known ∧ Connected (hop.targetAssetId :: known) rest

instance decidableConnected : ∀ (known : List (AssetId reg)) (chain : Chain reg),
    Decidable (Connected known chain)
  | _, [] => isTrue trivial
  | known, hop :: rest =>
    have := decidableConnected (hop.targetAssetId :: known) rest
    inferInstanceAs (Decidable (hop.sourceAssetId ∈ known ∧ Connected _ rest))

/-- No asset of the chain is reached from two sources. -/
def OneSource (chain : Chain reg) : Prop :=
  ∀ hop ∈ chain, ∀ hop' ∈ chain, hop.targetAssetId = hop'.targetAssetId →
    hop.sourceAssetId = hop'.sourceAssetId

variable {chain : Chain reg} {target root : AssetId reg}

/-- More hops to a new asset start at assets that are known by then. -/
theorem connected_append_iff {known : List (AssetId reg)} {later : Chain reg}
    (htarget : ∀ hop ∈ later, hop.targetAssetId = target)
    (hsource : ∀ hop ∈ later, hop.sourceAssetId ≠ target) :
    Connected known (chain ++ later) ↔ Connected known chain ∧ ∀ hop ∈ later,
      hop.sourceAssetId ∈ known ∨ ∃ earlier ∈ chain, earlier.targetAssetId = hop.sourceAssetId := by
  induction chain generalizing known with
  | nil =>
    induction later generalizing known with
    | nil => simp [Connected]
    | cons hop rest ih =>
      obtain ⟨hhop, hrest⟩ := forall_mem_cons.mp htarget
      obtain ⟨_, hapart⟩ := forall_mem_cons.mp hsource
      have hknown : ∀ next ∈ rest, next.sourceAssetId ∈ hop.targetAssetId :: known ↔
          next.sourceAssetId ∈ known := fun next hnext => by
        rw [hhop, mem_cons, or_iff_right (hapart next hnext)]
      simp only [nil_append, Connected, forall_mem_cons, not_mem_nil, false_and, exists_false,
        or_false, true_and] at ih ⊢
      rw [ih hrest hapart]
      exact and_congr_right fun _ => forall₂_congr hknown
  | cons first rest ih =>
    simp only [cons_append, Connected, ih, and_assoc, mem_cons, exists_eq_or_imp]
    refine and_congr_right fun _ => and_congr_right fun _ => forall₂_congr fun hop _ => ?_
    rw [eq_comm, or_assoc, or_left_comm]

/-- Chains to different assets have one source each exactly when both have. -/
theorem oneSource_append_iff {later : Chain reg} (hapart : ∀ hop ∈ chain, ∀ hop' ∈ later,
    hop.targetAssetId ≠ hop'.targetAssetId) :
    OneSource (chain ++ later) ↔ OneSource chain ∧ OneSource later := by
  simp only [OneSource, forall_mem_append]
  constructor
  · exact fun h => ⟨fun hop hhop => (h.1 hop hhop).1, fun hop hhop => (h.2 hop hhop).2⟩
  · rintro ⟨hchain, hlater⟩
    exact ⟨fun hop hhop => ⟨hchain hop hhop, fun hop' hhop' hsame =>
        absurd hsame (hapart hop hhop hop' hhop')⟩,
      fun hop hhop => ⟨fun hop' hhop' hsame => absurd hsame.symm (hapart hop' hhop' hop hhop),
        hlater hop hhop⟩⟩

/-- A chain to an asset of a level; `before` was visited earlier. -/
structure Traced (root : AssetId reg) (before : List (AssetId reg)) (asset : AssetId reg)
    (chain : Chain reg) : Prop where
  fresh : asset ∉ before
  ends : chain.getLast?.map PropagationHop.targetAssetId = some asset
  within : ∀ hop ∈ chain, hop.targetAssetId ∈ before ∨ hop.targetAssetId = asset
  connected_iff : Connected [root] chain ↔ OneSource chain

/-- A new asset is known to a chain only as its end. -/
theorem Traced.knows_iff {before : List (AssetId reg)} {asset source : AssetId reg}
    (htraced : Traced root before asset chain) (hroot : root ∈ before) (hfresh : source ∉ before) :
    (source ∈ [root] ∨ ∃ earlier ∈ chain, earlier.targetAssetId = source) ↔ source = asset := by
  constructor
  · rintro (hsame | ⟨earlier, hearlier, hsame⟩)
    · exact absurd (mem_singleton.mp hsame ▸ hroot) hfresh
    · exact hsame ▸ (htraced.within earlier hearlier).resolve_left (hsame ▸ hfresh)
  · intro hsame
    obtain ⟨last, hlast, hends⟩ := Option.map_eq_some_iff.mp htraced.ends
    exact Or.inr ⟨last, mem_of_getLast? hlast, hends.trans hsame.symm⟩

/-- The longest chain is one of the arrivals' and no arrival's is longer. -/
theorem longestChain_spec (arrivals : List (Arrival reg)) :
    (longestChain arrivals = [] ∨ ∃ a ∈ arrivals, longestChain arrivals = a.chain) ∧
      ∀ a ∈ arrivals, a.chain.length ≤ (longestChain arrivals).length := by
  suffices hfold : ∀ longest, ∃ result, arrivals.foldl (fun longest arrival =>
      if longest.length < arrival.chain.length then arrival.chain else longest) longest = result ∧
        (result = longest ∨ ∃ a ∈ arrivals, result = a.chain) ∧
        longest.length ≤ result.length ∧ ∀ a ∈ arrivals, a.chain.length ≤ result.length by
    obtain ⟨_, rfl, hfrom, _, hall⟩ := hfold []
    exact ⟨hfrom, hall⟩
  induction arrivals with
  | nil => exact fun longest => ⟨longest, rfl, Or.inl rfl, Nat.le_refl _,
      fun a ha => absurd ha not_mem_nil⟩
  | cons first rest ih =>
    intro longest
    obtain ⟨result, hresult, hfrom, hle, hall⟩ := ih (if longest.length < first.chain.length
      then first.chain else longest)
    refine ⟨result, hresult, ?_, ?_, forall_mem_cons.mpr ⟨?_, hall⟩⟩
    · rcases hfrom with hkept | ⟨a, ha, hsame⟩
      · split at hkept
        · exact Or.inr ⟨first, mem_cons_self, hkept⟩
        · exact Or.inl hkept
      · exact Or.inr ⟨a, mem_cons_of_mem _ ha, hsame⟩
    · split at hle <;> omega
    · split at hle <;> omega

theorem exists_longestChain {arrivals : List (Arrival reg)} (hne : arrivals ≠ []) :
    ∃ a ∈ arrivals, longestChain arrivals = a.chain := by
  obtain ⟨hfrom, hlongest⟩ := longestChain_spec arrivals
  rcases hfrom with hnil | hkept
  · obtain ⟨a, ha⟩ := exists_mem_of_ne_nil arrivals hne
    have hle := hlongest a ha
    rw [hnil] at hle ⊢
    exact ⟨a, ha, (eq_nil_of_length_eq_zero (Nat.le_zero.mp hle)).symm⟩
  · exact hkept

theorem ends_hops (direction : Direction) {arrivals : List (Arrival reg)} (hne : arrivals ≠ []) :
    (chain ++ hops target direction arrivals).getLast?.map PropagationHop.targetAssetId =
      some target := by
  have hhops : hops target direction arrivals ≠ [] := by simpa [hops] using hne
  rw [getLast?_append_of_ne_nil _ hhops, getLast?_eq_some_getLast hhops]
  obtain ⟨a, _, hlast⟩ := mem_map.mp (getLast_mem hhops)
  rw [← hlast]
  rfl

/-- The first level: every arrival is from the direct asset. -/
theorem traced_of_root {before : List (AssetId reg)} (direction : Direction)
    {arrivals : List (Arrival reg)} (hne : arrivals ≠ []) (htarget : target ∉ before)
    (hroot : root ∈ before) (harrivals : ∀ a ∈ arrivals, a.source = root ∧ a.chain = []) :
    Traced root before target (longestChain arrivals ++ hops target direction arrivals) := by
  obtain ⟨kept, hkept, hlongest⟩ := exists_longestChain hne
  have hnone := hlongest.trans (harrivals kept hkept).2
  have hsources : ∀ hop ∈ hops target direction arrivals,
      hop.targetAssetId = target ∧ hop.sourceAssetId = root := by
    simp only [hops, forall_mem_map, true_and]
    exact fun a ha => (harrivals a ha).1
  refine ⟨htarget, ends_hops direction hne, ?_, iff_of_true ?_ ?_⟩ <;> rw [hnone, nil_append]
  · exact fun hop hhop => Or.inr (hsources hop hhop).1
  · have hother : ∀ hop ∈ hops target direction arrivals, hop.sourceAssetId ≠ target :=
      fun hop hhop hsame => htarget (hsame ▸ (hsources hop hhop).2 ▸ hroot)
    rw [← nil_append (hops target direction arrivals),
      connected_append_iff (fun hop hhop => (hsources hop hhop).1) hother]
    exact ⟨trivial, fun hop hhop => Or.inl (mem_singleton.mpr (hsources hop hhop).2)⟩
  · exact fun hop hhop hop' hhop' _ => (hsources hop hhop).2.trans (hsources hop' hhop').2.symm

/-- **A target of a later level.**  The sources are new assets of the level before, so
that the kept chain knows none of them but its own. -/
theorem traced_of_arrivals {before visited : List (AssetId reg)} (direction : Direction)
    {arrivals : List (Arrival reg)} (hne : arrivals ≠ []) (hroot : root ∈ before)
    (hbefore : before ⊆ visited) (htarget : target ∉ visited)
    (harrivals : ∀ a ∈ arrivals, a.source ∈ visited ∧ Traced root before a.source a.chain) :
    Traced root visited target (longestChain arrivals ++ hops target direction arrivals) := by
  obtain ⟨kept, hkept, hlongest⟩ := exists_longestChain hne
  have htraced := (harrivals kept hkept).2
  have hold : ∀ hop ∈ kept.chain, hop.targetAssetId ∈ visited := fun hop hhop =>
    (htraced.within hop hhop).elim (fun hin => hbefore hin)
      (fun hsame => hsame ▸ (harrivals kept hkept).1)
  have hnew : ∀ hop ∈ hops target direction arrivals, hop.targetAssetId = target := by
    simp [hops]
  have hother : ∀ hop ∈ hops target direction arrivals, hop.sourceAssetId ≠ target := by
    simp only [hops, forall_mem_map]
    exact fun a ha hsame => htarget (hsame ▸ (harrivals a ha).1)
  have hone : OneSource (hops target direction arrivals) ↔
      ∀ a ∈ arrivals, a.source = kept.source := by
    simp only [OneSource, hops, forall_mem_map, forall_const]
    exact ⟨fun h a ha => h a ha kept hkept, fun h a ha a' ha' => (h a ha).trans (h a' ha').symm⟩
  refine ⟨htarget, ends_hops direction hne, ?_, ?_⟩ <;> rw [hlongest]
  · exact forall_mem_append.mpr ⟨fun hop hhop => Or.inl (hold hop hhop),
      fun hop hhop => Or.inr (hnew hop hhop)⟩
  · rw [connected_append_iff hnew hother, htraced.connected_iff, oneSource_append_iff, hone]
    · refine and_congr_right fun _ => ?_
      simp only [hops, forall_mem_map]
      exact forall₂_congr fun a ha => htraced.knows_iff hroot (harrivals a ha).2.fresh
    · exact fun hop hhop hop' hhop' hsame =>
        htarget (hnew hop' hhop' ▸ hsame ▸ hold hop hhop)

/-- A stored chain ends at its asset, and is connected exactly when each of its assets has
one source. -/
def Call.StoresTraced (root : AssetId reg) : Call reg → Prop
  | .storePredictionWithOutbox message _ _ =>
    message.propagationChain.getLast?.map PropagationHop.targetAssetId = some message.assetId ∧
      (Connected [root] message.propagationChain ↔ OneSource message.propagationChain)
  | _ => True

/-- What reaches the targets of a level: its assets, with their chains. -/
def Arrived (visited : List (AssetId reg)) (pass : List (PassEntry reg))
    (inbound : Inbound reg) : Prop :=
  ∀ entry ∈ inbound, entry.1 ∉ visited ∧ entry.2 ≠ [] ∧ ∀ a ∈ entry.2,
    ∃ e ∈ pass, e.assetId = a.source ∧ e.chain = a.chain

variable {visited before : List (AssetId reg)} {pass : List (PassEntry reg)}
  {inbound : Inbound reg} {Adm : (c : Call reg) → Except PredictionError c.Ret → Prop}

theorem addArrival_arrived {arrival : Arrival reg} (htarget : target ∉ visited)
    (hentry : ∃ e ∈ pass, e.assetId = arrival.source ∧ e.chain = arrival.chain)
    (harrived : Arrived visited pass inbound) :
    Arrived visited pass (addArrival target arrival inbound) := by
  induction inbound with
  | nil =>
    refine forall_mem_singleton.mpr ⟨htarget, cons_ne_nil _ _, ?_⟩
    exact forall_mem_singleton.mpr hentry
  | cons first rest ih =>
    obtain ⟨hfirst, hrest⟩ := forall_mem_cons.mp harrived
    unfold addArrival
    split
    · refine forall_mem_cons.mpr ⟨⟨hfirst.1, by simp, ?_⟩, hrest⟩
      exact forall_mem_append.mpr ⟨hfirst.2.2, forall_mem_singleton.mpr hentry⟩
    · exact forall_mem_cons.mpr ⟨hfirst, ih hrest⟩

/-- Gathering a level stores nothing, and all that it gathers is from the level. -/
theorem collectInbound_conforms (visited : List (AssetId reg)) {entries : List (PassEntry reg)}
    (hsub : ∀ e ∈ entries, e ∈ pass) (harrived : Arrived visited pass inbound) :
    (collectInbound visited entries inbound).Conforms Adm (StoresTraced root)
      (Arrived visited pass) := by
  induction entries generalizing inbound with
  | nil => exact harrived
  | cons entry rest ih =>
    obtain ⟨hentry, hrest⟩ := forall_mem_cons.mp hsub
    have hread : ((ask (.getCorrelationEdges entry.assetId (upstreamCondition entry.direction))
        |>.catchWith skipGraphError) : Service reg _).Conforms Adm (StoresTraced root)
          (fun _ => True) := by
      refine ⟨trivial, fun r _ => ?_⟩
      cases r with
      | ok edges => trivial
      | error e => cases e <;> trivial
    refine hread.bind fun edges _ => ih hrest ?_
    induction edges generalizing inbound with
    | nil => exact harrived
    | cons edge later ihedges =>
      refine ihedges ?_
      beta_reduce
      split
      · exact harrived
      · next hnew => exact addArrival_arrived hnew ⟨entry, hentry, rfl, rfl⟩ harrived

namespace PredictionPipeline

variable (P : PredictionPipeline) (record : ContextRecord reg) (now : Int)
  (events : List ContextEvent)

theorem storePrediction_conforms (decision : Decision) (depth : Nat)
    (htraced : Traced root before record.assetId chain) :
    (P.storePrediction record decision now events depth chain).Conforms Adm
      (StoresTraced root) (fun _ => True) := by
  have hreads : ∀ c : Call reg, c.writes = false → ¬ ¬ c.StoresTraced root := by
    intro c hc
    cases c <;> first | exact not_not.mpr trivial | cases hc
  exact (storePrediction_avoids hreads (fun _ _ => not_not.mpr
    ⟨htraced.ends, htraced.connected_iff⟩)).conforms fun _ => not_not.mp

/-- The targets of a level are stored with traced chains. -/
theorem decideTargets_conforms {targets : List (AssetId reg)} (depth : Nat)
    (hinbound : ∀ entry ∈ inbound, entry.1 ∈ targets ∧ ∀ direction,
      Traced root visited entry.1 (longestChain entry.2 ++ hops entry.1 direction entry.2))
    {stored : List (PassEntry reg)}
    (hstored : ∀ e ∈ stored, e.assetId ∈ targets ∧ Traced root visited e.assetId e.chain) :
    (P.decideTargets record now events depth inbound stored).Conforms Adm (StoresTraced root)
      (fun stored => ∀ e ∈ stored, e.assetId ∈ targets ∧
        Traced root visited e.assetId e.chain) := by
  induction inbound generalizing stored with
  | nil => exact hstored
  | cons entry rest ih =>
    obtain ⟨⟨hin, htraced⟩, hrest⟩ := forall_mem_cons.mp hinbound
    unfold decideTargets
    split
    · trivial
    · exact ih hrest hstored
    · next decision _ =>
      split
      · exact ih hrest hstored
      refine (P.storePrediction_conforms (proxyRecord record entry.1) now events decision depth
        (htraced decision.direction)).bind fun done _ => ?_
      split
      · refine ih hrest (forall_mem_append.mpr ⟨hstored, ?_⟩)
        exact forall_mem_singleton.mpr ⟨hin, htraced decision.direction⟩
      · exact ih hrest hstored

/-- **The levels.**  The first is the direct asset; later ones have traced chains, with new
ends. -/
theorem propagateLevels_conforms (left depth produced : Nat) (hroot : root ∈ before)
    (hbefore : before ⊆ visited) (hpass : ∀ e ∈ pass, e.assetId ∈ visited)
    (hlevel : (∀ e ∈ pass, e.assetId = root ∧ e.chain = []) ∨
      ∀ e ∈ pass, Traced root before e.assetId e.chain) :
    (P.propagateLevels record now events left depth pass visited produced).Conforms Adm
      (StoresTraced root) (fun _ => True) := by
  induction left generalizing depth pass before visited produced with
  | zero => trivial
  | succ left ih =>
    unfold propagateLevels
    split
    · trivial
    have hnone : Arrived visited pass [] := fun e he => absurd he not_mem_nil
    refine (collectInbound_conforms visited (fun _ => id) hnone).bind fun inbound harrived => ?_
    have hinbound : ∀ entry ∈ inbound, entry.1 ∈ inbound.map Prod.fst ∧ ∀ direction,
        Traced root visited entry.1
          (longestChain entry.2 ++ hops entry.1 direction entry.2) := by
      intro entry hentry
      obtain ⟨hnew, hne, hfrom⟩ := harrived entry hentry
      refine ⟨mem_map_of_mem hentry, fun direction => ?_⟩
      rcases hlevel with hdirect | htraced
      · refine traced_of_root direction hne hnew (hbefore hroot) fun a ha => ?_
        obtain ⟨e, he, hsource, hchain⟩ := hfrom a ha
        exact hsource ▸ hchain ▸ hdirect e he
      · refine traced_of_arrivals direction hne hroot hbefore hnew fun a ha => ?_
        obtain ⟨e, he, hsource, hchain⟩ := hfrom a ha
        exact hsource ▸ hchain ▸ ⟨hpass e he, htraced e he⟩
    refine (P.decideTargets_conforms record now events (depth + 1) hinbound
      fun e he => absurd he not_mem_nil).bind fun stored hstored => ?_
    exact ih (depth + 1) _ (hbefore hroot) (subset_append_left _ _)
      (fun e he => mem_append_right _ (hstored e he).1) (Or.inr fun e he => (hstored e he).2)

/-- **Chains of propagated predictions.**  Whatever the graph and the answers are, every
chain that propagation stores ends at its asset, and is connected from the direct asset
exactly when no asset of it is reached from two sources. -/
theorem chain_connected_iff (directAssets : List (AssetId reg)) (d : Deferred reg) :
    (P.propagateRecord now directAssets d).Conforms (fun _ _ => True)
      (Call.StoresTraced d.record.assetId) (fun _ => True) := by
  unfold propagateRecord
  split
  · trivial
  · have hroot : d.record.assetId ∈ [d.record.assetId] := mem_singleton_self _
    exact P.propagateLevels_conforms d.record now d.events _ 0 0 hroot
      (cons_subset_cons _ (nil_subset _)) (forall_mem_singleton.mpr mem_cons_self)
      (Or.inl (forall_mem_singleton.mpr ⟨rfl, rfl⟩))

end PredictionPipeline

def metalsRegistry : Registry where
  registryVersion := "v1"
  assets := (((goldRegistry.assets.insertNew { goldEntry with assetId := "SILVER" }).insertNew
    { goldEntry with assetId := "COPPER" }).insertNew { goldEntry with assetId := "PLATINUM" })

def rising (target : AssetId metalsRegistry) : CorrelationEdge metalsRegistry where
  targetAssetId := target
  direction := .up
  weight := 1
  alpha := 1
  beta := 1
  weight_range := one_range
  alpha_pos := rat_one_pos
  beta_pos := rat_one_pos

/-- Gold moves silver and copper, and both move platinum. -/
def forkedEdges (source : AssetId metalsRegistry) : List (CorrelationEdge metalsRegistry) :=
  if source.value = "GOLD" then
    [rising ⟨"SILVER", by decide⟩, rising ⟨"COPPER", by decide⟩]
  else if source.value = "PLATINUM" then []
  else [rising ⟨"PLATINUM", by decide⟩]

/-- Answer from a correlation graph, with numbered predictions. -/
def handleCorrelated (tz : TimeZones) : Handler (Surroundings reg) (Store reg)
    (AssetId reg → List (CorrelationEdge reg)) PredictionError :=
  fun w c s => handle tz
    { stamp := ⟨s.outbox.rows.length, s.outbox.rows.length, s.outbox.rows.length⟩
      correlations := match c with
        | .getCorrelationEdges source _ => w source
        | _ => [] } c s

def goldRises : Deferred metalsRegistry where
  record := ⟨1, ⟨"GOLD", by decide⟩, 1, 0, 15 * microsPerMinute, .predicting⟩
  decision := ⟨.up, .large, ⟨1, one_range⟩, "", [], []⟩
  events := [⟨1, .sanctions, 0, .occurrence, []⟩]

/-- The tables with the context of gold. -/
def goldPredicting : Store metalsRegistry :=
  { (∅ : Store metalsRegistry) with
    contexts := (∅ : Table ContextRow.contextId).insertNew
      ⟨1, "GOLD", 0, 15 * microsPerMinute, 1, .predicting, 0⟩
    version_nodup := by decide }

/-- The predictions stored when gold's rise is propagated. -/
def forkedOutbox : List (PredictionMade metalsRegistry) :=
  ((utcPipeline.propagateRecord 0 [] goldRises).finish (handleCorrelated utcOnly) forkedEdges
    goldPredicting).2.outbox.rows.map OutboxRow.payload

/-- Platinum is reached through silver and copper, and its chain says nothing of
how copper was reached. -/
theorem converging_chain :
    forkedOutbox.map (fun message => message.propagationChain.map (fun hop =>
        (hop.sourceAssetId.value, hop.targetAssetId.value))) =
      [[("GOLD", "SILVER")], [("GOLD", "COPPER")],
        [("GOLD", "SILVER"), ("SILVER", "PLATINUM"), ("COPPER", "PLATINUM")]] ∧
      ∃ message ∈ forkedOutbox, ¬ Connected [goldRises.record.assetId] message.propagationChain := by
  decide +kernel

end Prediction
