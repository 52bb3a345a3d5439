import FeedAnalyzer.CompleteRun
import FeedAnalyzer.SourceAdapters

/-!
# The ingestion pipeline

A poll asks one source after the other for its articles, stores them, and relays the
outbox.  Only `AdapterError` is caught around a fetch, so a poll reaches all of its
sources and the outbox exactly if no source lets another exception through.
-/

namespace Ingestion

open Transact Proc List Option

inductive CircuitState where
  | closed | opened | halfOpen
  deriving DecidableEq

structure CircuitBreaker where
  failureThreshold : Int := 5
  resetTimeoutSeconds : Rat := 60
  name : String := "circuit"
  state : CircuitState := .closed
  failures : Int := 0
  openedAt : Rat := 0

namespace CircuitBreaker

/-- Whether a call may proceed; a circuit that has cooled down becomes half open. -/
def allowsRequest (now : Rat) (b : CircuitBreaker) : Bool × CircuitBreaker :=
  if b.state = .opened then
    if b.resetTimeoutSeconds ≤ now - b.openedAt then (true, { b with state := .halfOpen })
    else (false, b)
  else (true, b)

def recordSuccess (b : CircuitBreaker) : CircuitBreaker :=
  { b with failures := 0, state := .closed }

def recordFailure (now : Rat) (b : CircuitBreaker) : CircuitBreaker :=
  let b := { b with failures := b.failures + 1 }
  if b.state = .halfOpen ∨ b.failureThreshold ≤ b.failures then
    { b with state := .opened, openedAt := now }
  else b

end CircuitBreaker

/-- The adapters of the service, and any other one. -/
inductive SourceAdapter where
  | rss (source : RssSource)
  | freeNewsApi (adapter : FreeNewsApiAdapter)
  | custom (sourceId : String)

/-- What the providers answer, or what a custom one does. -/
structure Provider where
  feed : FeedReply
  search : Reply (List (Option Item))
  details : Nat → Reply Detail
  custom : Except Raised (List RawArticle)

namespace SourceAdapter

def sourceId : SourceAdapter → String
  | .rss source => source.sourceId
  | .freeNewsApi _ => "freenewsapi"
  | .custom sourceId => sourceId

def fetch (py : Python) (data : Provider) : SourceAdapter → Except Raised (List RawArticle)
  | .rss source => RssAdapter.fetch py source data.feed
  | .freeNewsApi adapter => adapter.fetch py data.search data.details
  | .custom _ => data.custom

/-- The adapter raises something else than `AdapterError`. -/
def Escapes (py : Python) (data : Provider) : SourceAdapter → Prop
  | .rss _ => RssAdapter.Escapes data.feed
  | .freeNewsApi _ => FreeNewsApiAdapter.Escapes py data.search data.details
  | .custom _ => ∃ e, data.custom = .error (.foreign e)

/-- What an adapter does not catch. -/
theorem fetch_foreign_iff (py : Python) (data : Provider) (adapter : SourceAdapter) :
    (∃ e, adapter.fetch py data = .error (.foreign e)) ↔ adapter.Escapes py data := by
  cases adapter with
  | rss source => exact RssAdapter.fetch_foreign_iff py source data.feed
  | freeNewsApi adapter =>
    exact FreeNewsApiAdapter.fetch_foreign_iff py adapter data.details data.search
  | custom sourceId => exact Iff.rfl

end SourceAdapter

structure ResilientAdapter where
  adapter : SourceAdapter
  breaker : CircuitBreaker

namespace ResilientAdapter

/-- `ResilientAdapter.fetch`; `failedAt` is the clock of a failure. -/
def fetch (py : Python) (now failedAt : Rat) (data : Provider) (r : ResilientAdapter) :
    Except Raised (List RawArticle) × ResilientAdapter :=
  let (allowed, breaker) := r.breaker.allowsRequest now
  if allowed then
    match r.adapter.fetch py data with
    | .ok articles => (.ok articles, { r with breaker := breaker.recordSuccess })
    | .error e =>
      if e.isAdapterError then (.error e, { r with breaker := breaker.recordFailure failedAt })
      else (.error e, { r with breaker := breaker })
  else
    (.error (.circuitOpenError s!"circuit open for source '{r.adapter.sourceId}'; skipping fetch"),
      { r with breaker := breaker })

/-- The request is let through, and the adapter raises something else than `AdapterError`.
-/
def Escapes (py : Python) (now : Rat) (data : Provider) (r : ResilientAdapter) : Prop :=
  (r.breaker.allowsRequest now).1 = true ∧ r.adapter.Escapes py data

/-- The breaker catches no more. -/
theorem fetch_foreign_iff (py : Python) (now failedAt : Rat) (data : Provider)
    (r : ResilientAdapter) :
    (∃ e, (r.fetch py now failedAt data).1 = .error (.foreign e)) ↔ r.Escapes py now data := by
  unfold fetch Escapes
  rw [← SourceAdapter.fetch_foreign_iff]
  cases r.breaker.allowsRequest now with
  | mk allowed breaker =>
    cases allowed with
    | false => simp
    | true =>
      simp only [if_true, true_and]
      cases r.adapter.fetch py data with
      | ok articles => simp
      | error e =>
        dsimp only
        split
        · rfl
        · rfl

end ResilientAdapter

def wrapWithBreakers (adapters : List SourceAdapter) (failureThreshold : Int)
    (resetTimeoutSeconds : Rat) : List ResilientAdapter :=
  adapters.map fun adapter =>
    ⟨adapter, { failureThreshold, resetTimeoutSeconds, name := adapter.sourceId }⟩

/-- Some text in any case. -/
def startsWithText (text start : List Char) : Bool :=
  start.isPrefixOf (text.map Char.toLower)

/-- `_HTML_PAGE`: a document type or a root element first. -/
def isHtmlPage (body : List Char) : Bool :=
  let text := body.dropWhile Feed.isWhiteSpace
  let text := if text.head? = some '\uFEFF' then text.tail else text
  let doctype := "<!doctype".toList
  let root := "<html".toList
  (startsWithText text doctype && ((text.drop doctype.length).head?.any Feed.isWhiteSpace &&
        startsWithText ((text.drop doctype.length).dropWhile Feed.isWhiteSpace) "html".toList)) ||
    (startsWithText text root &&
      (text.drop root.length).head?.any fun c => Feed.isWhiteSpace c || c = '>')

def stripHtmlPage (body : String) : String :=
  if isHtmlPage (body.toList.take 200) then "" else body

/-- The calls of a poll; an article is given by its source and its place. -/
inductive Call where
  | fetch (source : Nat)
  | fetchBody (source place : Nat) (url : String)
  | storeNewArticle (source place : Nat) (raw : RawArticle) (body : String) (maxBodyChars : Nat)
  | publishPending
  deriving DecidableEq

/-- Articles, a body, whether the article was new, and how many messages were published. -/
abbrev Call.Ret : Call → Type
  | .fetch _ => List RawArticle
  | .fetchBody _ _ _ => String
  | .storeNewArticle _ _ _ _ _ => Bool
  | .publishPending => Nat

abbrev Poll : Interface := ⟨Call, Call.Ret⟩

/-- The surroundings of a poll. -/
structure World where
  py : Python
  now : Nat → Rat
  failedAt : Nat → Rat
  provider : Nat → Provider
  body : Nat → Nat → Except PyError String
  store : Nat → Nat → Except PyError Bool
  publish : Except PyError Nat

/-- What an adapter answers to a poll, and the adapter afterwards. -/
def World.fetch (w : World) (source : Nat) (r : ResilientAdapter) :
    Except Raised (List RawArticle) × ResilientAdapter :=
  r.fetch w.py (w.now source) (w.failedAt source) (w.provider source)

/-- How the calls act on the adapters. -/
def handle : Handler Poll (List ResilientAdapter) World Raised
  | w, .fetch source, adapters =>
    match adapters[source]? with
    | some r => ((w.fetch source r).1, adapters.set source (w.fetch source r).2)
    | none => (.error (.foreign (.other "IndexError")), adapters)
  | w, .fetchBody source place _, adapters => ((w.body source place).mapError .foreign, adapters)
  | w, .storeNewArticle source place _ _ _, adapters =>
    ((w.store source place).mapError .foreign, adapters)
  | w, .publishPending, adapters => (w.publish.mapError .foreign, adapters)

structure PollResult where
  correlationId : Nat
  perSourceCounts : List (String × Nat)
  published : Nat

/-- `counts[source_id] = n`. -/
def setCount (sourceId : String) (n : Nat) (counts : List (String × Nat)) : List (String × Nat) :=
  if counts.any (fun c => c.1 = sourceId) then
    counts.map fun c => if c.1 = sourceId then (sourceId, n) else c
  else counts ++ [(sourceId, n)]

structure IngestionPipeline where
  bodyFetcher : Bool := true
  bodyFetchEnabled : Bool := true
  maxBodyChars : Nat := 2000

namespace IngestionPipeline

def resolveBody (p : IngestionPipeline) (source place : Nat) (raw : RawArticle) :
    Proc Poll Raised String :=
  if !p.bodyFetcher || !p.bodyFetchEnabled then .ret raw.summary
  else
    Proc.catchWith (fun _ => .ret raw.summary) do
      let fetched ← Proc.perform (I := Poll) (.fetchBody source place raw.url)
      let clean := stripHtmlPage fetched
      if clean = "" then return raw.summary
      return clean

/-- `_fetch_bodies`: each task has its own answer. -/
def fetchBodies (p : IngestionPipeline) (source : Nat) :
    Nat → List RawArticle → Proc Poll Raised (List (RawArticle × String))
  | _, [] => .ret []
  | place, raw :: rest => do
    let body ← p.resolveBody source place raw
    let others ← p.fetchBodies source (place + 1) rest
    return (raw, body) :: others

/-- The loop over the articles of a source. -/
def storeAll (p : IngestionPipeline) (source : Nat) :
    Nat → List (RawArticle × String) → Nat → Proc Poll Raised Nat
  | _, [], stored => .ret stored
  | place, (raw, body) :: rest, stored => do
    let message ← Proc.catchWith (fun _ => .ret false)
      (Proc.perform (I := Poll) (.storeNewArticle source place raw body p.maxBodyChars))
    p.storeAll source (place + 1) rest (if message then stored + 1 else stored)

/-- `adapter.fetch()` in its `try`: `none` after an `AdapterError`. -/
def fetchSource (source : Nat) : Proc Poll Raised (Option (List RawArticle)) :=
  Proc.catchWith (fun e => if e.isAdapterError then .ret none else .fail e) do
    let raws ← Proc.perform (I := Poll) (.fetch source)
    return some raws

/-- The loop over the sources. -/
def pollAll (p : IngestionPipeline) :
    Nat → List String → List (String × Nat) → Proc Poll Raised (List (String × Nat))
  | _, [], counts => .ret counts
  | source, sourceId :: rest, counts => do
    let fetched ← fetchSource source
    match fetched with
    | none => p.pollAll (source + 1) rest (setCount sourceId 0 counts)
    | some raws => do
      let bodies ← p.fetchBodies source 0 raws
      let stored ← p.storeAll source 0 bodies 0
      p.pollAll (source + 1) rest (setCount sourceId stored counts)

def runOnce (p : IngestionPipeline) (sourceIds : List String) (pollId : Nat) :
    Proc Poll Raised PollResult := do
  let counts ← p.pollAll 0 sourceIds []
  let published ← Proc.perform (I := Poll) .publishPending
  return ⟨pollId, counts, published⟩

def bodyOf (p : IngestionPipeline) (w : World) (source place : Nat) (raw : RawArticle) : String :=
  if !p.bodyFetcher || !p.bodyFetchEnabled then raw.summary
  else
    match w.body source place with
    | .error _ => raw.summary
    | .ok fetched => if stripHtmlPage fetched = "" then raw.summary else stripHtmlPage fetched

/-- Every source is asked, every article is given to the store, and the outbox is relayed.
-/
structure Isolated (p : IngestionPipeline) (w : World) (adapters : List ResilientAdapter)
    (calls : List Call) : Prop where
  fetched : ∀ source, source < adapters.length → Call.fetch source ∈ calls
  stored : ∀ source r raws, adapters[source]? = some r → (w.fetch source r).1 = .ok raws →
    ∀ place raw, raws[place]? = some raw →
      Call.storeNewArticle source place raw (p.bodyOf w source place raw) p.maxBodyChars ∈ calls
  relayed : Call.publishPending ∈ calls

section Bodies

variable (p : IngestionPipeline) (w : World) (source : Nat) (place : Nat)

theorem reads_resolveBody (raw : RawArticle) :
    Reads handle w (p.resolveBody source place raw) (.ok (p.bodyOf w source place raw)) := by
  unfold resolveBody bodyOf
  split
  · exact reads_ret raw.summary
  · intro adapters
    cases hbody : w.body source place with
    | error e =>
      have hcall : handle w (.fetchBody source place raw.url) adapters =
          (.error (.foreign e), adapters) := by
        simp [handle, hbody, Except.mapError]
      apply finish_catch_error
      exact finish_bind_error (by rw [finish_call]; exact hcall)
    | ok fetched =>
      have hcall : handle w (.fetchBody source place raw.url) adapters =
          (.ok fetched, adapters) := by
        simp [handle, hbody, Except.mapError]
      apply finish_catch_ok
      rw [bind_eq, finish_bind_ok (by rw [finish_call]; exact hcall)]
      dsimp only
      split
      · rfl
      · rfl

def bodiesOf : Nat → List RawArticle → List (RawArticle × String)
  | _, [] => []
  | place, raw :: rest => (raw, p.bodyOf w source place raw) :: bodiesOf (place + 1) rest

theorem reads_fetchBodies (raws : List RawArticle) :
    Reads handle w (p.fetchBodies source place raws) (.ok (p.bodiesOf w source place raws)) := by
  induction raws generalizing place with
  | nil => exact reads_ret []
  | cons raw rest ih =>
    intro adapters
    rw [fetchBodies, bind_eq, finish_bind_ok (reads_resolveBody p w source place raw adapters),
      bind_eq, finish_bind_ok (ih (place + 1) adapters)]
    rfl

theorem bodiesOf_getElem? (place k : Nat) (raws : List RawArticle) :
    (p.bodiesOf w source place raws)[k]? =
      (raws[k]?).map fun raw => (raw, p.bodyOf w source (place + k) raw) := by
  induction raws generalizing place k with
  | nil => simp [bodiesOf]
  | cons raw rest ih =>
    cases k with
    | zero => simp [bodiesOf]
    | succ k =>
      rw [bodiesOf, List.getElem?_cons_succ, List.getElem?_cons_succ, ih]
      have hplace : place + 1 + k = place + (k + 1) := by omega
      rw [hplace]

/-- An article that the store takes, or that is passed over. -/
theorem reads_store (raw : RawArticle) (body : String) : Reads handle w
      (Proc.catchWith (fun _ => .ret false) (Proc.perform (I := Poll)
        (.storeNewArticle source place raw body p.maxBodyChars)) : Proc Poll Raised Bool)
      (.ok ((w.store source place).toOption.getD false)) := by
  intro adapters
  cases hstore : w.store source place with
  | error e =>
    apply finish_catch_error (e := .foreign e)
    rw [finish_call]
    simp [handle, hstore, Except.mapError]
  | ok message =>
    apply finish_catch_ok
    rw [finish_call]
    simp [handle, hstore, Except.mapError, Except.toOption]

theorem reads_storeAll (place stored : Nat) (bodies : List (RawArticle × String)) :
    ∃ n, Reads handle w (p.storeAll source place bodies stored) (.ok n) := by
  induction bodies generalizing place stored with
  | nil => exact ⟨stored, reads_ret stored⟩
  | cons first rest ih =>
    obtain ⟨raw, body⟩ := first
    obtain ⟨n, hn⟩ := ih (place + 1)
      (if (w.store source place).toOption.getD false then stored + 1 else stored)
    refine ⟨n, fun adapters => ?_⟩
    rw [storeAll, bind_eq, finish_bind_ok (reads_store p w source place raw body adapters)]
    exact hn adapters

theorem storeAll_calls (place stored : Nat) (bodies : List (RawArticle × String))
    (adapters : List ResilientAdapter) {k : Nat} {raw : RawArticle} {body : String}
    (hget : bodies[k]? = some (raw, body)) :
    Call.storeNewArticle source (place + k) raw body p.maxBodyChars ∈
      (p.storeAll source place bodies stored).calls handle w adapters := by
  induction bodies generalizing place stored k with
  | nil => simp at hget
  | cons first rest ih =>
    obtain ⟨raw', body'⟩ := first
    rw [storeAll, bind_eq, calls_bind_ok (reads_store p w source place raw' body' adapters)]
    cases k with
    | zero =>
      cases hget
      exact mem_append_left _ mem_cons_self
    | succ k =>
      have hplace : place + (k + 1) = place + 1 + k := by omega
      rw [hplace]
      exact mem_append_right _ (ih (place + 1) _ hget)

end Bodies

section Sources

variable {p : IngestionPipeline} {w : World} {source : Nat} {adapters : List ResilientAdapter}
  {r : ResilientAdapter}

section

variable (hget : adapters[source]? = some r)

include hget

theorem handle_fetch : handle w (.fetch source) adapters =
      ((w.fetch source r).1, adapters.set source (w.fetch source r).2) := by
  simp [handle, hget]

/-- A source that answers, or raises `AdapterError`. -/
theorem finish_fetchSource (hescape : ¬ r.Escapes w.py (w.now source) (w.provider source)) :
    (fetchSource source).finish handle w adapters =
      (.ok (w.fetch source r).1.toOption, adapters.set source (w.fetch source r).2) := by
  unfold fetchSource
  rw [← r.fetch_foreign_iff _ _ (w.failedAt source)] at hescape
  cases hfetch : (w.fetch source r).1 with
  | ok raws =>
    apply finish_catch_ok
    have hcall := handle_fetch (w := w) hget
    rw [hfetch] at hcall
    rw [bind_eq, finish_bind_ok (by rw [finish_call]; exact hcall)]
    rfl
  | error e =>
    have hcall := handle_fetch (w := w) hget
    rw [hfetch] at hcall
    have hadapter : e.isAdapterError := by
      cases e with
      | adapterError | circuitOpenError => rfl
      | foreign e => exact absurd ⟨e, hfetch⟩ hescape
    rw [bind_eq, finish_catch_error
      (finish_bind_error (by rw [finish_call]; exact hcall)), if_pos hadapter]
    rfl

theorem finish_fetchSource_escapes (hescape : r.Escapes w.py (w.now source) (w.provider source)) :
    ∃ e, (fetchSource source).finish handle w adapters =
      (.error (.foreign e), adapters.set source (w.fetch source r).2) := by
  rw [← r.fetch_foreign_iff _ _ (w.failedAt source)] at hescape
  obtain ⟨e, he⟩ := hescape
  have hcall := handle_fetch (w := w) hget
  have hfetch : (w.fetch source r).1 = .error (.foreign e) := he
  rw [hfetch] at hcall
  refine ⟨e, ?_⟩
  unfold fetchSource
  rw [bind_eq, finish_catch_error (finish_bind_error (by rw [finish_call]; exact hcall))]
  rfl

end

theorem fetchSource_calls : Call.fetch source ∈ (fetchSource source).calls handle w adapters := by
  apply mem_calls_catchWith
  exact mem_cons_self

variable (p)

/-- **One source that does not escape** is asked, its articles are stored, and the loop goes
on. -/
theorem pollAll_cons (hget : adapters[source]? = some r)
    (hescape : ¬ r.Escapes w.py (w.now source) (w.provider source)) (sourceId : String)
    (rest : List String) (counts : List (String × Nat)) :
    ∃ counts' front, (p.pollAll source (sourceId :: rest) counts).finish handle w adapters =
        (p.pollAll (source + 1) rest counts').finish handle w
          (adapters.set source (w.fetch source r).2) ∧
      (p.pollAll source (sourceId :: rest) counts).calls handle w adapters =
        front ++ (p.pollAll (source + 1) rest counts').calls handle w
          (adapters.set source (w.fetch source r).2) ∧
      Call.fetch source ∈ front ∧
      ∀ raws, (w.fetch source r).1 = .ok raws → ∀ place raw, raws[place]? = some raw →
        Call.storeNewArticle source place raw (p.bodyOf w source place raw) p.maxBodyChars ∈
          front := by
  have hsource := finish_fetchSource hget hescape
  rw [pollAll, bind_eq, finish_bind_ok hsource, calls_bind_ok hsource]
  cases hfetch : (w.fetch source r).1 with
  | error e =>
    exact ⟨setCount sourceId 0 counts, _, rfl, rfl, fetchSource_calls, by simp⟩
  | ok raws =>
    obtain ⟨n, hstored⟩ := reads_storeAll p w source 0 0 (p.bodiesOf w source 0 raws)
    have hbodies := reads_fetchBodies p w source 0 raws
    dsimp only [Except.toOption]
    rw [bind_eq, finish_bind_ok (hbodies _), calls_bind_ok (hbodies _),
      bind_eq, finish_bind_ok (hstored _), calls_bind_ok (hstored _),
      ← append_assoc, ← append_assoc]
    refine ⟨setCount sourceId n counts, _, rfl, rfl, ?_, ?_⟩
    · exact mem_append_left _ (mem_append_left _ fetchSource_calls)
    · rintro _ ⟨⟩ place raw hraw
      apply mem_append_right
      have hbody := bodiesOf_getElem? p w source 0 place raws
      rw [hraw, map_some, Nat.zero_add] at hbody
      have hcall := storeAll_calls p w source 0 0 _ (adapters.set source (w.fetch source r).2) hbody
      rw [Nat.zero_add] at hcall
      exact hcall

variable {start : List ResilientAdapter}

/-- Every source is polled and stored. -/
theorem pollAll_reaches (hnone : ∀ (i : Nat) (r : ResilientAdapter), start[i]? = some r →
      ¬ r.Escapes w.py (w.now i) (w.provider i)) (source : Nat) (ids : List String)
    (counts : List (String × Nat)) (adapters : List ResilientAdapter)
    (hlength : source + ids.length = start.length)
    (hsame : ∀ i, source ≤ i → adapters[i]? = start[i]?) :
    (∃ result after, (p.pollAll source ids counts).finish handle w adapters = (.ok result, after)) ∧
    (∀ i, source ≤ i → i < start.length →
      Call.fetch i ∈ (p.pollAll source ids counts).calls handle w adapters) ∧
    (∀ i r raws, source ≤ i → start[i]? = some r → (w.fetch i r).1 = .ok raws →
      ∀ place raw, raws[place]? = some raw →
        Call.storeNewArticle i place raw (p.bodyOf w i place raw) p.maxBodyChars ∈
          (p.pollAll source ids counts).calls handle w adapters) := by
  induction ids generalizing source counts adapters with
  | nil =>
    simp only [length_nil, Nat.add_zero] at hlength
    refine ⟨⟨counts, adapters, rfl⟩, fun i hi hlt => ?_, fun i r raws hi hget => ?_⟩
    · omega
    · have hlt := (List.getElem?_eq_some_iff.mp hget).1
      omega
  | cons sourceId rest ih =>
    rw [length_cons] at hlength
    have hlt : source < start.length := by omega
    have hget : start[source]? = some start[source] := List.getElem?_eq_getElem hlt
    have hnow : adapters[source]? = some start[source] := by
      rw [hsame source (le_refl _), hget]
    obtain ⟨counts', front, hfinish, hcalls, hfetched, hstored⟩ :=
      pollAll_cons p hnow (hnone source _ hget) sourceId rest counts
    have hafter : ∀ i, source + 1 ≤ i →
        (adapters.set source (w.fetch source start[source]).2)[i]? = start[i]? := by
      intro i hi
      rw [List.getElem?_set_ne (by omega)]
      exact hsame i (by omega)
    obtain ⟨hok, hfetches, hstores⟩ := ih (source + 1) counts' _ (by omega) hafter
    rw [hfinish, hcalls]
    refine ⟨hok, fun i hi hbound => ?_, fun i r raws hi hr hraws place raw hraw => ?_⟩
    · rcases Nat.eq_or_lt_of_le hi with rfl | hlater
      · exact mem_append_left _ hfetched
      · exact mem_append_right _ (hfetches i hlater hbound)
    · rcases Nat.eq_or_lt_of_le hi with rfl | hlater
      · have heq : start[source] = r := by
          rw [hget] at hr
          exact some.inj hr
        rw [← heq] at hraws
        exact mem_append_left _ (hstored raws hraws place raw hraw)
      · exact mem_append_right _ (hstores i r raws hlater hr hraws place raw hraw)

/-- A foreign exception ends the poll. -/
theorem pollAll_escapes {i : Nat} (hget : start[i]? = some r)
    (hescape : r.Escapes w.py (w.now i) (w.provider i)) (source : Nat) (ids : List String)
    (counts : List (String × Nat)) (adapters : List ResilientAdapter) (hi : source ≤ i)
    (hlength : source + ids.length = start.length)
    (hsame : ∀ i, source ≤ i → adapters[i]? = start[i]?) :
    ∃ e after, (p.pollAll source ids counts).finish handle w adapters = (.error e, after) := by
  have hbound := (List.getElem?_eq_some_iff.mp hget).1
  induction ids generalizing source counts adapters with
  | nil =>
    simp only [length_nil, Nat.add_zero] at hlength
    omega
  | cons sourceId rest ih =>
    rw [length_cons] at hlength
    have hlt : source < start.length := by omega
    have hnow : adapters[source]? = some start[source] := by
      rw [hsame source (le_refl _), List.getElem?_eq_getElem hlt]
    by_cases hfirst : start[source].Escapes w.py (w.now source) (w.provider source)
    · obtain ⟨e, he⟩ := finish_fetchSource_escapes hnow hfirst
      exact ⟨_, _, finish_bind_error he⟩
    · obtain ⟨counts', front, hfinish, _, _, _⟩ :=
        pollAll_cons p hnow hfirst sourceId rest counts
      have hne : source ≠ i := by
        rintro rfl
        rw [List.getElem?_eq_getElem hlt] at hget
        rw [some.inj hget] at hfirst
        exact hfirst hescape
      rw [hfinish]
      apply ih (source + 1) counts' _ (by omega) (by omega)
      intro j hj
      rw [List.getElem?_set_ne (by omega)]
      exact hsame j (by omega)

/-- The procedure does not relay the outbox, whatever the answers. -/
def Quiet {α : Type} (proc : Proc Poll Raised α) : Prop :=
  proc.Conforms (fun _ _ => True) (fun c : Call => c ≠ .publishPending) (fun _ => True)

theorem quiet_fetchSource (source : Nat) : Quiet (fetchSource source) := by
  apply Conforms.catchWith
  · exact conforms_perform (by simp) fun _ _ => trivial
  · intro e
    split <;> trivial

theorem quiet_resolveBody (source place : Nat) (raw : RawArticle) :
    Quiet (p.resolveBody source place raw) := by
  unfold resolveBody
  split
  · trivial
  · apply Conforms.catchWith
    · apply conforms_perform (by simp)
      intro fetched _
      dsimp only
      split <;> trivial
    · intro e
      trivial

theorem quiet_fetchBodies (source place : Nat) (raws : List RawArticle) :
    Quiet (p.fetchBodies source place raws) := by
  induction raws generalizing place with
  | nil => trivial
  | cons raw rest ih =>
    apply (quiet_resolveBody p source place raw).bind
    intro body _
    exact (ih (place + 1)).bind fun _ _ => trivial

theorem quiet_storeAll (source place stored : Nat)
    (bodies : List (RawArticle × String)) : Quiet (p.storeAll source place bodies stored) := by
  induction bodies generalizing place stored with
  | nil => trivial
  | cons first rest ih =>
    have hstore : Quiet (Proc.catchWith (fun _ => .ret false) (Proc.perform (I := Poll)
        (.storeNewArticle source place first.1 first.2 p.maxBodyChars))) := by
      apply Conforms.catchWith
      · constructor
        · intro h
          cases h
        · intro answer _
          cases answer <;> trivial
      · intro e
        trivial
    exact hstore.bind fun message _ => ih (place + 1) _

theorem quiet_pollAll (source : Nat) (ids : List String)
    (counts : List (String × Nat)) : Quiet (p.pollAll source ids counts) := by
  induction ids generalizing source counts with
  | nil => trivial
  | cons sourceId rest ih =>
    apply (quiet_fetchSource source).bind
    intro fetched _
    cases fetched with
    | none => exact ih (source + 1) _
    | some raws =>
      apply (quiet_fetchBodies p source 0 raws).bind
      intro bodies _
      exact (quiet_storeAll p source 0 0 bodies).bind fun _ _ => ih (source + 1) _

end Sources

/-- **Which polls are isolated.**  A poll asks all of its sources, stores the articles of
those that answer, and relays the outbox, exactly if no source that is let through has a
provider that makes its adapter raise something else than `AdapterError`. -/
theorem runOnce_isolated_iff (p : IngestionPipeline) (w : World)
    (adapters : List ResilientAdapter) (pollId : Nat) :
    p.Isolated w adapters
        ((p.runOnce (adapters.map fun r => r.adapter.sourceId) pollId).calls handle w adapters) ↔
      ∀ (source : Nat) (r : ResilientAdapter), adapters[source]? = some r →
        (r.breaker.allowsRequest (w.now source)).1 = true →
          ¬ r.adapter.Escapes w.py (w.provider source) := by
  have hlength : 0 + (adapters.map fun r => r.adapter.sourceId).length = adapters.length := by simp
  constructor
  · intro hisolated source r hget hallowed hescape
    obtain ⟨e, after, hrun⟩ := pollAll_escapes p hget ⟨hallowed, hescape⟩ 0 _ [] adapters
      (Nat.zero_le _) hlength fun _ _ => rfl
    have hrelayed := hisolated.relayed
    rw [runOnce, bind_eq, calls_bind_error hrun] at hrelayed
    exact (quiet_pollAll p 0 _ []).mem_calls (fun _ _ => trivial) hrelayed rfl
  · intro hnone
    obtain ⟨⟨counts, after, hrun⟩, hfetched, hstored⟩ := pollAll_reaches p
      (fun source r hget hescape => hnone source r hget hescape.1 hescape.2) 0 _ [] adapters
      hlength fun _ _ => rfl
    rw [runOnce, bind_eq, calls_bind_ok hrun]
    constructor
    · intro source hsource
      exact mem_append_left _ (hfetched source (Nat.zero_le _) hsource)
    · intro source r raws hget hraws place raw hraw
      exact mem_append_left _ (hstored source r raws (Nat.zero_le _) hget hraws place raw hraw)
    · apply mem_append_right
      apply mem_calls_bind
      exact mem_cons_self

end IngestionPipeline

/-- The first day of `datetime`, an hour ahead of UTC. -/
def firstDay : Stamp := ⟨⟨0, by decide, by decide⟩, some (3600 * 1000000)⟩

def firstDayPython : Python where
  fromisoformat text := if text = "0001-01-01T00:00:00+01:00" then some firstDay else none
  offsetAt _ := 0
  httpUrl _ := true
  isalpha := Char.isAlpha
  upper c := [c.toUpper]
  lower c := [c.toLower]

/-- One item, with that date. -/
def firstDayProvider : Provider where
  feed := .response 200 (.ok [])
  search := .response 200 (.ok [some ⟨"a1", "Gold rises", "0001-01-01T00:00:00+01:00"⟩])
  details _ := .response 200
    (.ok ⟨"https://news.example/a1", "", "", none, none, "Gold rises.", ""⟩)
  custom := .ok []

/-- FreeNewsApi first, then a feed. -/
def twoSources : List ResilientAdapter :=
  wrapWithBreakers [.freeNewsApi {}, .rss ⟨"di", "https://www.di.se/rss", "sv", "SE"⟩] 5 60

def firstDayWorld : World where
  py := firstDayPython
  now _ := 0
  failedAt _ := 0
  provider _ := firstDayProvider
  body _ _ := .ok ""
  store _ _ := .ok true
  publish := .ok 0

/-- The date cannot be moved into UTC: the poll ends there, the feed is not asked, and
the outbox is not relayed. -/
theorem first_day_ends_poll : ¬ IngestionPipeline.Isolated {} firstDayWorld twoSources
      ((IngestionPipeline.runOnce {} (twoSources.map fun r => r.adapter.sourceId) 0).calls handle
        firstDayWorld twoSources) ∧
    (IngestionPipeline.runOnce {} (twoSources.map fun r => r.adapter.sourceId) 0).calls handle
      firstDayWorld twoSources = [.fetch 0] := by
  have hcalls : (IngestionPipeline.runOnce {} (twoSources.map fun r => r.adapter.sourceId) 0).calls
      handle firstDayWorld twoSources = [.fetch 0] := by
    decide +kernel
  refine ⟨fun hisolated => ?_, hcalls⟩
  have hrelayed := hisolated.relayed
  rw [hcalls] at hrelayed
  simp at hrelayed

end Ingestion
