import FeedAnalyzer.ContextClosing
import FeedAnalyzer.ContextEdges
import FeedAnalyzer.ContextVersions
import FeedAnalyzer.GuidedRun

/-!
# The events that a prediction cites

A prediction cites the events whose type is the factor of an edge that counted, or all of
them.  A claimed context takes no more events, so the members that a sweep loads are the
members for good, whatever runs beside it.
-/

namespace Prediction

open Feed Transact Calendar CausalGraph PredictionPipeline Proc List Store Table

variable {reg : Registry}

/-- The id of an edge up to the condition or the arrow. -/
def factorText (edge : ContributingEdge) : List Char :=
  edge.edgeId.toList.takeWhile (fun c => c ≠ '|' ∧ c ≠ '-')

theorem factorText_contributingEdge {edge : FiringEdge reg} {factor : EventType}
    (hfactor : edge.factorId = some factor) (direction : Direction) :
    factorText (contributingEdge edge direction) = factor.value.toList := by
  have hid : ∃ c rest, (c = '|' ∨ c = '-') ∧
      edge.edgeId.toList = factor.value.toList ++ c :: rest := by
    cases hcondition : edge.condition with
    | none => exact ⟨'-', _, Or.inr rfl, by simp [FiringEdge.edgeId, hfactor, hcondition]; rfl⟩
    | some condition =>
      exact ⟨'|', _, Or.inl rfl, by simp [FiringEdge.edgeId, hfactor, hcondition]; rfl⟩
  obtain ⟨c, rest, hc, htext⟩ := hid
  have hword := Credibility.event_word factor
  have hsolid := Credibility.solid_of_isWord hword
  have hspace : isWhiteSpace c = false := by rcases hc with rfl | rfl <;> decide
  obtain ⟨rest', hstrip⟩ : ∃ rest', Text.strip isWhiteSpace (factor.value.toList ++ c :: rest) =
      factor.value.toList ++ c :: rest' :=
    Text.exists_strip_append hsolid.1 (fun d hd => hsolid.2 d (mem_of_head? hd)) hspace
  have hkept : ∀ d ∈ factor.value.toList, Decidable.decide (d ≠ '|' ∧ d ≠ '-') := by
    intro d hd
    refine decide_eq_true ⟨?_, ?_⟩ <;> rintro rfl
    · exact Credibility.separator_not_mem hword (by decide) hd
    · exact Credibility.separator_not_mem hword (by decide) hd
  show takeWhile _ (stripWhitespace edge.edgeId).toList = _
  rw [stripWhitespace, String.toList_ofList, htext, hstrip, takeWhile_append_of_pos hkept]
  rcases hc with rfl | rfl <;> simp

def FiredBy (events : List ContextEvent) (edges : List (FiringEdge reg)) : Prop :=
  ∀ edge ∈ edges, ∃ event ∈ events, edge.factorId = some event.eventType

/-- A message cites members, and a direct one exactly those whose type is the factor of a
listed edge. -/
def Cited (members : List ContextEvent) (message : PredictionMade reg) : Prop :=
  message.eventIds ≠ [] ∧
    (∀ eventId ∈ message.eventIds, ∃ event ∈ members, event.eventId = eventId) ∧
    (message.propagationDepth = 0 → ∀ event ∈ members, event.eventId ∈ message.eventIds ↔
      ∃ edge ∈ message.contributingEdges, factorText edge = event.eventType.value.toList)

/-- The events of a context are told apart by their ids. -/
def Distinct (events : List ContextEvent) : Prop :=
  ∀ event ∈ events, ∀ event' ∈ events, event.eventId = event'.eventId → event = event'

theorem contributingEvents_subset (decision : Decision) {events : List ContextEvent}
    (hne : events ≠ []) : contributingEvents decision events ≠ [] ∧
      ∀ event ∈ contributingEvents decision events, event ∈ events := by
  unfold contributingEvents
  dsimp only
  split
  · exact ⟨hne, fun _ => id⟩
  · next hsome => exact ⟨fun hnil => hsome (Or.inr hnil), fun event hevent =>
    (mem_filter.mp hevent).1⟩

variable {edges : List (FiringEdge reg)}

section Citing

variable {record : ContextRecord reg} {decision : Decision} {now : Int}
  {events members : List ContextEvent} {depth : Nat} {chain : Chain reg}
  {supersedes : Option Uuid} {stamp : PredictionStamp}

theorem cited_of_propagated (hne : events ≠ []) (hsame : ∀ event, event ∈ events ↔ event ∈ members)
    (hdepth : 0 < depth) :
    Cited members (predictionMade record decision now events depth chain supersedes stamp) := by
  obtain ⟨hsome, hsubset⟩ := contributingEvents_subset decision hne
  refine ⟨by simpa [predictionMade] using hsome, ?_, fun hzero => absurd hzero (Nat.ne_of_gt hdepth)⟩
  intro eventId heventId
  obtain ⟨event, hevent, rfl⟩ := mem_map.mp heventId
  exact ⟨event, (hsame event).mp (hsubset event hevent), rfl⟩

/-- A direct prediction cites members. -/
theorem cited_of_direct {policy : DecisionPolicy} {polarities : Polarities} {elevated : Bool}
    (hdecision : Prediction.decide policy record.assetId edges polarities elevated =
      .ok (some decision)) (hfired : FiredBy events edges)
    (hsame : ∀ event, event ∈ events ↔ event ∈ members) (hdistinct : Distinct members) :
    Cited members (predictionMade record decision now events depth chain supersedes stamp) := by
  obtain ⟨hedges, hfactors, hsome⟩ := Credibility.contributingEdges_of_decide hdecision
  have hfactor : ∀ pair ∈ effectiveEdges edges polarities elevated,
      ∃ event ∈ events, pair.1.factorId = some event.eventType := fun pair hpair =>
    hfired pair.1 (Credibility.effectiveEdges_sublist.subset (mem_map_of_mem hpair))
  obtain ⟨pair, hpair⟩ := exists_mem_of_ne_nil _ hsome
  obtain ⟨event₀, hevent₀, hpair₀⟩ := hfactor pair hpair
  have hmem₀ : event₀.eventType ∈ decision.contributingFactors := by
    rw [hfactors]
    exact mem_filterMap.mpr ⟨pair, hpair, hpair₀⟩
  -- the filter does not empty the list
  have hcontributing : contributingEvents decision events =
      events.filter (fun event => event.eventType ∈ decision.contributingFactors) := by
    refine if_neg ?_
    rintro (hnil | hnil)
    · rw [hnil] at hmem₀
      cases hmem₀
    · have hkept : event₀ ∈ events.filter (fun event =>
          event.eventType ∈ decision.contributingFactors) :=
        mem_filter.mpr ⟨hevent₀, decide_eq_true hmem₀⟩
      rw [hnil] at hkept
      cases hkept
  have hlisted : ∀ eventType : EventType, eventType ∈ decision.contributingFactors ↔
      ∃ edge ∈ decision.contributingEdges, factorText edge = eventType.value.toList := by
    intro eventType
    rw [hfactors, hedges]
    constructor
    · intro hmem
      obtain ⟨pair, hpair, hid⟩ := mem_filterMap.mp hmem
      exact ⟨_, mem_map_of_mem hpair, factorText_contributingEdge hid pair.2⟩
    · rintro ⟨edge, hedge, htext⟩
      obtain ⟨pair, hpair, rfl⟩ := mem_map.mp hedge
      obtain ⟨event, _, hid⟩ := hfactor pair hpair
      rw [factorText_contributingEdge hid] at htext
      have hparsed := congrArg Credibility.parseEventType (String.toList_injective htext)
      rw [Credibility.parseEventType_value, Credibility.parseEventType_value] at hparsed
      exact mem_filterMap.mpr ⟨pair, hpair, hid.trans hparsed⟩
  obtain ⟨hne, hsubset⟩ := contributingEvents_subset decision (ne_nil_of_mem hevent₀)
  refine ⟨by simpa [predictionMade] using hne, ?_, fun _ event hevent => ?_⟩
  · intro eventId heventId
    obtain ⟨event, hevent, rfl⟩ := mem_map.mp heventId
    exact ⟨event, (hsame event).mp (hsubset event hevent), rfl⟩
  · refine Iff.trans ?_ (hlisted event.eventType)
    show event.eventId ∈ (contributingEvents decision events).map ContextEvent.eventId ↔ _
    rw [hcontributing, mem_map]
    constructor
    · rintro ⟨event', hevent', hid⟩
      obtain ⟨hmem, htype⟩ := mem_filter.mp hevent'
      obtain rfl := hdistinct event' ((hsame event').mp hmem) event hevent hid
      exact of_decide_eq_true htype
    · intro htype
      exact ⟨event, mem_filter.mpr ⟨(hsame event).mpr hevent, decide_eq_true htype⟩, rfl⟩

end Citing

namespace Store

variable {s s' : Store reg} {contextId : Uuid} {event : ContextEvent}

theorem membersOf_insertMember {target : Uuid} (hne : contextId ≠ target)
    (hok : s.insertMember target event = .ok s') :
    s'.membersOf contextId = s.membersOf contextId := by
  obtain ⟨_, _, hmembers, _⟩ := insertMember_eq_ok hok
  unfold membersOf
  rw [hmembers]
  cases hhas : s.members.has (MemberRow.key ⟨target, event⟩) with
  | true => rw [insertNew_of_has hhas]
  | false =>
    rw [rows_insertNew_of_fresh hhas, filter_append]
    simp [Ne.symm hne]

theorem membersOf_assignEvent {fresh : Uuid} {assetId : AssetId reg} {windowStart windowEnd : Int}
    {u : Unit} (hclosed : s.Closed contextId)
    (hok : s.assignEvent fresh assetId event windowStart windowEnd = .ok (u, s')) :
    s'.membersOf contextId = s.membersOf contextId := by
  obtain ⟨target, s₁, hopening, hmember⟩ := assignEvent_eq_ok hok
  obtain ⟨state, hstate, hnot⟩ := hclosed
  have hne : contextId ≠ target := by
    rintro rfl
    rcases hopening.joins_or_supersedes with
      ⟨latest, hlatest, hjoinable, rfl, _⟩ | ⟨new, rfl, _, _, hsup, _⟩
    · rw [stateOf_of_mem hlatest.1] at hstate
      cases hstate
      rw [hnot] at hjoinable
      cases hjoinable
    · cases (has_of_stateOf hstate).symm.trans hsup.fresh
  rw [membersOf_insertMember hne hmember]
  cases hopening with
  | joined hlatest hjoinable => rfl
  | started hnone hinsert => rw [membersOf, (insertContext_eq_ok hinsert).1, membersOf]
  | @succeeded latest s₂ _ hlatest hclosed hinsert hcarry =>
    refine foldlM_ok_invariant (P := fun t : Store reg =>
      t.membersOf contextId = s.membersOf contextId)
      (fun t event t' hinsert ht => (membersOf_insertMember hne hinsert).trans ht) ?_ hcarry
    rw [membersOf, (insertContext_eq_ok hinsert).1, membersOf]

theorem distinct_membersOf (s : Store reg) (contextId : Uuid) : Distinct (s.membersOf contextId) := by
  intro event hevent event' hevent' hid
  obtain ⟨row, hrow, rfl⟩ := mem_map.mp hevent
  obtain ⟨row', hrow', rfl⟩ := mem_map.mp hevent'
  obtain ⟨hrow, hcontext⟩ := mem_filter.mp hrow
  obtain ⟨hrow', hcontext'⟩ := mem_filter.mp hrow'
  have hkey : row.key = row'.key := Prod.ext
    ((of_decide_eq_true hcontext).trans (of_decide_eq_true hcontext').symm) hid
  rw [eq_of_key hrow hrow' hkey]

/-- Closed contexts stay closed, with the members they have. -/
def Settled (s s' : Store reg) : Prop :=
  ∀ contextId, s.Closed contextId →
    s'.Closed contextId ∧ s'.membersOf contextId = s.membersOf contextId

def Cites (s : Store reg) (message : PredictionMade reg) : Prop :=
  s.Closed message.contextId ∧ Cited (s.membersOf message.contextId) message

theorem Cites.later {message : PredictionMade reg} (hsettled : s.Settled s')
    (hcites : s.Cites message) : s'.Cites message := by
  obtain ⟨hclosed, hmembers⟩ := hsettled _ hcites.1
  exact ⟨hclosed, hmembers.symm ▸ hcites.2⟩

/-- **The invariant.**  Every message cites its context's members. -/
structure Evidenced (s : Store reg) : Prop where
  versioned : s.Versioned
  cites : ∀ row ∈ s.outbox, s.Cites row.payload

theorem Evidenced.membersOf_ne_nil (hs : s.Evidenced) (hclosed : s.Closed contextId) :
    s.membersOf contextId ≠ [] := by
  obtain ⟨state, hstate, _⟩ := hclosed
  obtain ⟨eventId, hhas⟩ := hs.versioned.peopled contextId (has_of_stateOf hstate)
  obtain ⟨row, hrow, hkey⟩ := has_eq_true_iff.mp hhas
  exact ne_nil_of_mem (mem_map_of_mem (mem_filter.mpr
    ⟨hrow, decide_eq_true (congrArg Prod.fst hkey)⟩))

end Store

def Call.Sound (s : Store reg) : Call reg → Prop
  | .setContextState _ state => state.joinable = false
  | .storePredictionWithOutbox message _ _ => s.Cites message
  | _ => True

variable {c : Call reg} (tz : TimeZones)

section Step

variable {s s' : Store reg} (w : Answer reg)

theorem handle_cases (c : Call reg) (s : Store reg) :
    (handle tz w c s).2 = s ∨ (∃ fresh assetId event windowStart windowEnd u,
        s.assignEvent fresh assetId event windowStart windowEnd = .ok (u, (handle tz w c s).2)) ∨
      (∃ p state, (handle tz w c s).2 = s.setStateWhere p state) ∨
      ∃ message key withdraws stored, c = .storePredictionWithOutbox message key withdraws ∧
        s.storePredictionWithOutbox message key withdraws = .ok (stored, (handle tz w c s).2) := by
  cases hanswer : (handle tz w c s).1 with
  | error e => exact Or.inl (handle_eq_error hanswer)
  | ok a =>
    cases c with
    | assignEvent assetId event windowStart windowEnd =>
      exact Or.inr (Or.inl ⟨_, _, _, _, _, a, (commit_eq_ok hanswer).2⟩)
    | claimReadyContexts now graceMinutes =>
      obtain ⟨p, hset⟩ := (claimReadyContexts_eq_ok (commit_eq_ok hanswer).2).2.2.2.2.2
      exact Or.inr (Or.inr (Or.inl ⟨p, .predicting, hset⟩))
    | setContextState target state =>
      have hset := (Prod.mk.inj (Except.ok.inj (commit_eq_ok hanswer).2)).2
      exact Or.inr (Or.inr (Or.inl ⟨_, state, hset.symm⟩))
    | storePredictionWithOutbox message key withdraws =>
      exact Or.inr (Or.inr (Or.inr ⟨_, _, _, a, rfl, (commit_eq_ok hanswer).2⟩))
    | _ => exact Or.inl (handle_frame tz w _ s rfl)

theorem handle_settled (hc : c.Sound s) : s.Settled (handle tz w c s).2 := by
  intro contextId hclosed
  have hopens : ¬ c.Reopens := by
    cases c with
    | setContextState target state => exact fun hjoinable => by cases hc.symm.trans hjoinable
    | _ => exact id
  refine ⟨handle_closed tz w c s hopens hclosed, ?_⟩
  rcases handle_cases tz w c s with hsame | ⟨_, _, _, _, _, _, hok⟩ | ⟨p, state, hset⟩ |
    ⟨_, _, _, _, _, hok⟩
  · rw [hsame]
  · exact membersOf_assignEvent hclosed hok
  · rw [hset]
    rfl
  · rw [membersOf, (storePredictionWithOutbox_eq_ok hok).2.1, membersOf]

/-- A sound call keeps the evidence. -/
theorem handle_evidenced (hc : c.Sound s) (hs : s.Evidenced) : (handle tz w c s).2.Evidenced := by
  have hsettles : c.settles := by
    cases c with
    | setContextState target state =>
      have hjoinable : state.joinable = false := hc
      simp [Call.settles, hjoinable]
    | _ => rfl
  have hsettled := handle_settled tz w hc
  refine ⟨versioned_operation tz w hsettles hs.versioned, ?_⟩
  have hold : ∀ row ∈ (handle tz w c s).2.outbox, row ∈ s.outbox ∨ s.Cites row.payload := by
    intro row hrow
    rcases handle_cases tz w c s with hsame | ⟨_, _, _, _, _, _, hok⟩ | ⟨p, state, hset⟩ |
      ⟨message, key, withdraws, stored, rfl, hok⟩
    · exact Or.inl (hsame ▸ hrow)
    · exact Or.inl ((assignEvent_opensOnly hok).2.outbox ▸ hrow)
    · rw [hset] at hrow
      exact Or.inl hrow
    · refine ((storePredictionWithOutbox_eq_ok hok).2.2.1 row hrow).imp_right fun hpayload => ?_
      rw [hpayload]
      exact hc
  intro row hrow
  rcases hold row hrow with hmem | hcites
  · exact (hs.cites row hmem).later hsettled
  · exact hcites.later hsettled

end Step

/-- What the others may have done meanwhile. -/
def Store.Meanwhile (s s' : Store reg) : Prop := s'.Evidenced ∧ s.Settled s'

variable {s s' : Store reg}

theorem Store.Meanwhile.trans {s'' : Store reg} (h : s.Meanwhile s') (h' : s'.Meanwhile s'') :
    s.Meanwhile s'' := by
  refine ⟨h'.1, fun contextId hclosed => ?_⟩
  obtain ⟨hclosed', hmembers⟩ := h.2 contextId hclosed
  obtain ⟨hclosed'', hmembers'⟩ := h'.2 contextId hclosed'
  exact ⟨hclosed'', hmembers'.trans hmembers⟩

theorem Store.Meanwhile.refl (hs : s.Evidenced) : s.Meanwhile s :=
  ⟨hs, fun _ hclosed => ⟨hclosed, rfl⟩⟩

theorem Store.Meanwhile.step (h : s.Meanwhile s') (tz : TimeZones) (w : Graph × Answer reg)
    (hc : c.Sound s') : s.Meanwhile (handleOver tz w c s').2 :=
  h.trans ⟨handle_evidenced tz _ hc h.1, handle_settled tz _ hc⟩

/-- A procedure whose calls are sound, and whose result satisfies `R`; its facts are about
`s₀`. -/
def Guides {α : Type} (tz : TimeZones) (s₀ : Store reg) (R : α → Prop)
    (p : Service reg α) (s : Store reg) : Prop :=
  p.Guided (handleOver tz) Store.Meanwhile (fun c s => c.Sound s)
    (fun r s' => s₀.Meanwhile s' ∧ ∀ a, r = .ok a → R a) s

def Call.WorkOn (contextId : Uuid) (members : List ContextEvent) : Call reg → Prop
  | .setContextState _ state => state.joinable = false
  | .storePredictionWithOutbox message _ _ => message.contextId = contextId ∧ Cited members message
  | _ => True

theorem workOn_of_reads {contextId : Uuid} {members : List ContextEvent} (c : Call reg)
    (hc : c.writes = false) : ¬ ¬ c.WorkOn contextId members := by
  cases c <;> first | exact not_not.mpr trivial | cases hc

/-- The events of a decision are the members of its context. -/
def Store.Holds (s : Store reg) (contextId : Uuid) (events : List ContextEvent) : Prop :=
  s.Closed contextId ∧ ∀ event, event ∈ events ↔ event ∈ s.membersOf contextId

section Guided

variable {α β : Type} {tz : TimeZones} {s₀ s : Store reg} {R : α → Prop} {R' : β → Prop}
  {p : Service reg α} {contextId : Uuid} {a : α}

section

variable (hs : s₀.Meanwhile s)

include hs

theorem guides_ret (ha : R a) : Guides tz s₀ R (.ret a) s :=
  ⟨hs, fun _ h => Except.ok.inj h ▸ ha⟩

theorem guides_fail (e : PredictionError) : Guides tz s₀ R (.fail e) s :=
  ⟨hs, nofun⟩

omit hs in
theorem Guides.bind {f : α → Service reg β} (hp : Guides tz s₀ R p s)
    (hf : ∀ a s', s₀.Meanwhile s' → R a → Guides tz s₀ R' (f a) s') :
    Guides tz s₀ R' (p.bind f) s :=
  Guided.bind hp (fun a s' h => hf a s' h.1 (h.2 a rfl)) fun _ _ h => ⟨h.1, nofun⟩

theorem guides_ask {f : c.Ret → Service reg β} (hc : ∀ s', s₀.Meanwhile s' → c.Sound s')
    (hf : ∀ w s' a, s₀.Meanwhile s' → (handleOver tz w c s').1 = .ok a →
      s₀.Meanwhile (handleOver tz w c s').2 → Guides tz s₀ R' (f a) (handleOver tz w c s').2) :
    Guides tz s₀ R' ((ask c).bind f) s := by
  refine guided_perform (fun s' h => hc s' (hs.trans h)) ?_ ?_
  · intro s' w a h hanswer
    have hs' := hs.trans h
    exact hf w s' a hs' hanswer (hs'.step tz w (hc s' hs'))
  · intro s' w e h _
    have hs' := hs.trans h
    exact ⟨hs'.step tz w (hc s' hs'), nofun⟩

omit hs in
theorem guides_of_work (hclosed : s₀.Closed contextId)
    (hp : p.Avoids (fun c : Call reg => ¬ c.WorkOn contextId (s₀.membersOf contextId)))
    (hs : s₀.Meanwhile s) : Guides tz s₀ (fun _ => True) p s := by
  have hsound : ∀ (c : Call reg) (s : Store reg),
      ¬ ¬ c.WorkOn contextId (s₀.membersOf contextId) → s₀.Meanwhile s → c.Sound s := by
    intro c s hwork hs
    rw [not_not] at hwork
    cases c with
    | setContextState target state => exact hwork
    | storePredictionWithOutbox message key withdraws =>
      obtain ⟨rfl, hcited⟩ := hwork
      exact Cites.later hs.2 ⟨hclosed, hcited⟩
    | _ => trivial
  refine (guided_of_avoids hp (fun s s' h hk => hk.trans h) hsound ?_
    hs).mono fun r s' hs' => ⟨hs', fun _ _ => trivial⟩
  intro w c s' hwork hk
  exact hk.step tz w (hsound c s' hwork hk)

theorem guides_set {state : ContextState} (hstate : state.joinable = false) (ha : R a) :
    Guides tz s₀ R ((ask (.setContextState contextId state)).bind fun _ => .ret a) s :=
  guides_ask hs (fun _ _ => hstate) fun _ _ _ _ _ hs' => guides_ret hs' ha

end

end Guided

namespace PredictionPipeline

variable {P : PredictionPipeline} {s₀ s : Store reg} {record : ContextRecord reg} {now : Int}
  {events : List ContextEvent} {st : SweepState reg}

theorem firingEdges_guides (assetId : AssetId reg) (elevated : Bool)
    {types : List (EventType × List ConditionCode)}
    (htypes : ∀ entry ∈ types, ∃ event ∈ events, event.eventType = entry.1)
    (hedges : FiredBy events edges) (hs : s₀.Meanwhile s) :
    Guides tz s₀ (FiredBy events) (firingEdges assetId elevated types edges) s := by
  induction types generalizing edges s with
  | nil => exact guides_ret hs hedges
  | cons entry rest ih =>
    refine guides_ask hs (fun _ _ => trivial) fun w s' fired _ hanswer hs' => ?_
    refine ih (fun e he => htypes e (mem_cons_of_mem _ he)) ?_ hs'
    intro edge hedge
    rcases mem_append.mp hedge with hold | hnew
    · exact hedges edge hold
    · have hfired := (Prod.mk.inj (Except.ok.inj (commit_eq_ok hanswer).2)).1
      rw [← hfired] at hnew
      obtain ⟨event, hevent, htype⟩ := htypes entry mem_cons_self
      exact ⟨event, hevent, htype ▸ (Credibility.mem_getFiringEdges hnew).1⟩

theorem edgesOrDefer_guides (elevated : Bool) (hclosed : s₀.Closed record.contextId)
    (hs : s₀.Meanwhile s) :
    Guides P.tz s₀ (fun found => ∀ edges, found = some edges → FiredBy events edges)
      (P.edgesOrDefer record events elevated) s := by
  have htypes : ∀ entry ∈ conditionsByType events, ∃ event ∈ events, event.eventType = entry.1 := by
    intro entry hentry
    obtain ⟨t, ht, rfl⟩ := mem_map.mp hentry
    exact mem_map.mp (mem_eraseDups.mp ht)
  have hgathered : Guides P.tz s₀ (fun found => ∀ edges, found = some edges → FiredBy events edges)
      ((firingEdges record.assetId elevated (conditionsByType events) []).bind
        fun edges => .ret (some edges)) s := by
    refine (firingEdges_guides P.tz record.assetId elevated htypes ?_ hs).bind ?_
    · exact fun edge hedge => absurd hedge not_mem_nil
    · exact fun edges s' hs' hfired => guides_ret hs' fun _ hsame => Option.some.inj hsame ▸ hfired
  refine Guided.catchWith hgathered (fun found s' hfound => hfound) ?_
  · rintro e s' ⟨hs', _⟩
    cases e with
    | graph message =>
      refine (guides_of_work hclosed (capture_avoids workOn_of_reads _) hs').bind
        fun _ s'' hs'' _ => guides_set hs'' rfl nofun
    | _ => exact guides_fail hs' _

/-- The waiting decisions carry the members of their contexts. -/
def SweepState.Held (s : Store reg) (st : SweepState reg) : Prop :=
  ∀ d ∈ st.deferred, s.Holds d.record.contextId d.events

theorem closeInferred_guides (elevated : Bool) (hholds : s₀.Holds record.contextId events)
    (hfired : FiredBy events edges) (hst : st.Held s₀) (hs : s₀.Meanwhile s) :
    Guides P.tz s₀ (SweepState.Held s₀) (P.closeInferred record now events elevated edges st) s := by
  have hcapture : ∀ s, s₀.Meanwhile s → Guides P.tz s₀ (fun _ => True)
      (P.capture record.contextId : Service reg Unit) s :=
    fun s hs => guides_of_work hholds.1 (capture_avoids workOn_of_reads _) hs
  unfold closeInferred
  split
  · exact guides_fail hs _
  · exact (hcapture s hs).bind fun _ s' hs' _ => guides_set hs' rfl hst
  · next decision hdecision =>
    refine (hcapture s hs).bind fun _ s' hs' _ => ?_
    have hstore : Guides P.tz s₀ (fun _ => True)
        (P.storePrediction record decision now events 0 []) s' := by
      refine guides_of_work hholds.1 (storePrediction_avoids workOn_of_reads fun _ _ => ?_) hs'
      exact not_not.mpr ⟨rfl, cited_of_direct hdecision hfired hholds.2
        (s₀.distinct_membersOf record.contextId)⟩
    refine hstore.bind fun stored s'' hs'' _ => ?_
    dsimp only
    split
    · exact guides_set hs'' rfl hst
    · refine guides_ret hs'' fun d hd => ?_
      rcases mem_append.mp hd with hold | hnew
      · exact hst d hold
      · rw [mem_singleton.mp hnew]
        exact hholds

theorem closeRecord_guides (hclosed : s₀.Closed record.contextId) (hst : st.Held s₀)
    (hs : s₀.Meanwhile s) :
    Guides P.tz s₀ (SweepState.Held s₀) (P.closeRecord now record st) s := by
  refine guides_ask hs (fun _ _ => trivial) fun w s₁ events hs₁ hload hs₁' => ?_
  have hholds : s₀.Holds record.contextId events := by
    refine ⟨hclosed, fun event => ?_⟩
    have hevents := (Prod.mk.inj (Except.ok.inj (commit_eq_ok hload).2)).1
    rw [← (hs₁.2 _ hclosed).2, ← hevents, mem_map, membersOf, mem_map]
    refine exists_congr fun row => and_congr_left fun _ => ?_
    rw [mem_selectOrdered_iff, mem_filter]
  refine guides_ask hs₁' (fun _ _ => trivial) fun w' s₂ closes _ _ hs₂ => ?_
  refine (edgesOrDefer_guides _ hclosed hs₂).bind fun found s₃ hs₃ hfired => ?_
  cases found with
  | none => exact guides_ret hs₃ hst
  | some edges => exact closeInferred_guides _ hholds (hfired edges rfl) hst hs₃

theorem closeRecords_guides {records : List (ContextRecord reg)}
    (hclosed : ∀ record ∈ records, s₀.Closed record.contextId) (hst : st.Held s₀)
    (hs : s₀.Meanwhile s) :
    Guides P.tz s₀ (SweepState.Held s₀) (P.closeRecords now records st) s := by
  induction records generalizing st s with
  | nil => exact guides_ret hs hst
  | cons record rest ih =>
    refine (closeRecord_guides (hclosed record mem_cons_self) hst hs).bind ?_
    exact fun st' s' hs' hst' => ih (fun r hr => hclosed r (mem_cons_of_mem _ hr)) hst' hs'

theorem propagateDeferred_guides (hs₀ : s₀.Evidenced) (directAssets : List (AssetId reg))
    {ds : List (Deferred reg)} (hds : ∀ d ∈ ds, s₀.Holds d.record.contextId d.events)
    (produced : Nat) (hs : s₀.Meanwhile s) :
    Guides P.tz s₀ (fun _ => True) (P.propagateDeferred now directAssets ds produced) s := by
  induction ds generalizing produced s with
  | nil => exact guides_ret hs trivial
  | cons d rest ih =>
    obtain ⟨hclosed, hevents⟩ := hds d mem_cons_self
    have hne : d.events ≠ [] := by
      obtain ⟨event, hevent⟩ := exists_mem_of_ne_nil _ (hs₀.membersOf_ne_nil hclosed)
      exact ne_nil_of_mem ((hevents event).mpr hevent)
    have hrecord : Guides P.tz s₀ (fun _ => True) (P.propagateRecord now directAssets d) s := by
      refine guides_of_work hclosed ?_ hs
      unfold propagateRecord
      split
      · trivial
      · exact propagateLevels_avoids workOn_of_reads (fun _ _ _ _ _ _ hdepth =>
          not_not.mpr ⟨rfl, cited_of_propagated hne hevents hdepth⟩) _ _ _ _ _
    refine hrecord.bind fun stored s' hs' _ => ?_
    refine guides_ask hs' (fun _ _ => rfl) fun _ _ _ _ _ hs'' => ?_
    exact ih (fun d' hd' => hds d' (mem_cons_of_mem _ hd')) _ hs''

/-- Every job makes sound calls. -/
theorem perform_guided (P : PredictionPipeline) (job : Job reg) (hs : s.Evidenced) :
    (P.perform job).Guided (handleOver P.tz) Store.Meanwhile
      (fun c s => c.Sound s) (fun _ _ => True) s := by
  cases job with
  | event message =>
    have hsound : ∀ (c : Call reg) (s : Store reg), ¬ ¬ c.OfEvent → c.Sound s := by
      intro c s hevent
      cases c <;> first | trivial | exact (hevent id).elim
    refine (guided_of_avoids (event_calls P message)
      (fun _ _ h hk => hk.trans h) (fun c s hc _ => hsound c s hc) ?_
      (Store.Meanwhile.refl hs)).mono fun _ _ _ => trivial
    exact fun w c s' hc hk => hk.step P.tz w (hsound c s' hc)
  | closeSweep =>
    refine guided_perform (fun _ _ => trivial) ?_ fun _ _ _ _ _ => trivial
    intro s₁ w now hs₁ _
    refine guided_perform (fun _ _ => trivial) ?_ fun _ _ _ _ _ => trivial
    intro s₂ w' claimed hs₂ hclaim
    have hstep := hs₂.step P.tz w' (c := .claimReadyContexts now P.settings.closeGraceMinutes)
      trivial
    have hclosed : ∀ record ∈ claimed, (handleOver P.tz w' (.claimReadyContexts now
        P.settings.closeGraceMinutes) s₂).2.Closed record.contextId := by
      intro record hrecord
      have hstate := (claimReadyContexts_eq_ok (commit_eq_ok hclaim).2).2.2.1 record.contextId
      exact ⟨.predicting, hstate.trans (if_pos (mem_map_of_mem hrecord)), rfl⟩
    have hs₃ := Store.Meanwhile.refl hstep.1
    have hsweep : Guides P.tz _ (fun _ => True) (P.closeClaimed now claimed) _ :=
      (closeRecords_guides hclosed (fun d hd => absurd hd not_mem_nil) hs₃).bind
        fun st s' hs' hst => propagateDeferred_guides hstep.1 _ hst _ hs'
    exact hsweep.mono fun _ _ _ => trivial

end PredictionPipeline

/-- **Predictions cite the events behind them.**  In every run, interleaved and cut off at
will, over a graph that may change, every stored message cites at least one event, members
of its context only, and if it is direct exactly those whose type is the factor of an edge
it lists. -/
theorem predictions_cite_members (P : PredictionPipeline)
    (acts : Nat → Action (Job reg) (Graph × Answer reg)) (n : Nat) :
    ∀ row ∈ (configAt (handleOver P.tz) P.perform ⟨∅, []⟩ acts n).store.outbox,
      Cited ((configAt (handleOver P.tz) P.perform ⟨∅, []⟩ acts n).store.membersOf
        row.payload.contextId) row.payload := by
  have hempty : (∅ : Store reg).Evidenced :=
    ⟨⟨⟨nofun, nofun, nofun, nofun⟩, fun _ hhas => by cases hhas⟩, nofun⟩
  have hstep : ∀ w c (s : Store reg), s.Evidenced → Call.Sound s c →
      (handleOver P.tz w c s).2.Evidenced ∧ s.Meanwhile (handleOver P.tz w c s).2 := by
    intro w c s hs hc
    have hafter := (Store.Meanwhile.refl hs).step P.tz w hc
    exact ⟨hafter.1, hafter⟩
  have hinv : (configAt (handleOver P.tz) P.perform ⟨∅, []⟩ acts n).store.Evidenced :=
    (guided_run (I := Surroundings reg) (R := Store.Meanwhile) (C := fun c s => c.Sound s)
      (V := Evidenced) (fun _ _ _ => Store.Meanwhile.trans) rfl hempty
      (fun job s hs => P.perform_guided job hs) (fun _ => Store.Meanwhile.refl) hstep n).1
  exact fun row hrow => (hinv.cites row hrow).2

/-- An event of gold, and a sweep that closes its context. -/
def evidenceActs (k : Nat) : Action (Job goldRegistry) (Graph × Answer goldRegistry) :=
  let w := (Credibility.metalsGraph, { now := 20 * microsPerMinute, contextId := 1 })
  if k = 0 then .spawn (.event (goldEvent 1 0))
  else if k = 1 then .spawn .closeSweep
  else if k < 5 then .run 0 w
  else .run 1 w

/-- The sweep stores a prediction, and it cites the event. -/
theorem gold_prediction_cites :
    ∃ row ∈ (configAt (handleOver utcOnly) utcPipeline.perform ⟨∅, []⟩ evidenceActs 25).store.outbox,
      Cited ((configAt (handleOver utcOnly) utcPipeline.perform ⟨∅, []⟩ evidenceActs 25).store.membersOf
        row.payload.contextId) row.payload := by
  have hstored : (configAt (handleOver utcOnly) utcPipeline.perform ⟨∅, []⟩ evidenceActs
      25).store.outbox.rows ≠ [] := by decide +kernel
  obtain ⟨row, hrow⟩ := exists_mem_of_ne_nil _ hstored
  exact ⟨row, hrow, predictions_cite_members utcPipeline evidenceActs 25 row hrow⟩

end Prediction
