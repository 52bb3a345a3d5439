import Mathlib.Algebra.GroupWithZero.Nat
import FeedAnalyzer.CacheKeys

/-!
# The LLM gateway and its cache

`complete_structured` answers a request from the cache or asks the provider.  Where no
component of the cache key contains a bar, everything the cache holds under a key has
passed the schema of the requests with that key.
-/

namespace Llm

open List

variable {J : Type}

/-- `ProviderLLMResponse`. -/
structure Response (J : Type) where
  content : J
  provider : Text
  model : Text
  inputTokens : Nat
  outputTokens : Nat
  latencyMs : Nat
  responseHash : Text

/-- `LLMResult` of a request that succeeded. -/
structure Result (J : Type) extends Response J where
  promptVersion : Text
  contextHash : Text
  attemptCount : Nat
  cacheHit : Bool

/-- What a call of the provider raises. -/
inductive ProviderError where
  | transport | malformedOutput | other (name : String)

inductive LlmError where
  | configuration
  | raised (e : ProviderError)
  | malformedOutput (attempts : Nat)

/-- The settings, the adapter they select, and the JSON library. -/
structure LLMGateway (J : Type) where
  hash : Hashing J
  dumpsMessages : List (Text × Text) → Text
  checkSchema : J → Bool
  validates : J → J → Bool
  providerName : Option Text
  model : Text
  maxInputTokens : Nat
  malformedOutputRetries : Nat
  cacheEnabled : Bool
  provider_plain : ∀ name ∈ providerName, '|' ∉ name
  model_plain : '|' ∉ model

/-- The arguments of `complete_structured` that it reads. -/
structure Request (J : Type) where
  task : Text
  promptVersion : Text
  messages : List (Text × Text)
  outputSchema : J
  cacheKey : Option Text
  task_plain : '|' ∉ task
  version_plain : '|' ∉ promptVersion
  key_plain : ∀ key ∈ cacheKey, '|' ∉ key

abbrev Cache (J : Type) : Type := Text → Option (Response J)

namespace LLMGateway

variable (G : LLMGateway J)

def estimateTokens (messages : List (Text × Text)) : Nat :=
  (messages.map fun m => m.2.length).sum / 4

/-- `cache_key or _context_hash(messages)`. -/
def contextHash (request : Request J) : Text :=
  match request.cacheKey with
  | some (c :: key) => c :: key
  | _ => G.hash.sha256 (G.dumpsMessages request.messages)

def identity (name : Text) (request : Request J) : Identity J where
  provider := name
  model := G.model
  task := request.task
  promptVersion := request.promptVersion
  outputSchema := request.outputSchema
  contextHash := G.contextHash request

/-- The answers of the provider, one for each attempt. -/
abbrev Answers (J : Type) : Type := Nat → Except ProviderError (Response J)

/-- The loop over the attempts, with the number of those made. -/
def attempts (request : Request J) (answers : Answers J) :
    Nat → Nat → Except LlmError (Response J) × Nat
  | 0, attempt => (.error (.malformedOutput attempt), attempt)
  | left + 1, attempt =>
    match answers attempt with
    | .error .malformedOutput => attempts request answers left (attempt + 1)
    | .error e => (.error (.raised e), attempt + 1)
    | .ok response =>
      if G.validates request.outputSchema response.content then (.ok response, attempt + 1)
      else attempts request answers left (attempt + 1)

/-- `complete_structured`: the result, the provider's calls, and the cache. -/
def completeStructured (request : Request J) (answers : Answers J) (cache : Cache J) :
    Except LlmError (Result J) × Nat × Cache J :=
  match G.providerName with
  | none => (.error .configuration, 0, cache)
  | some name =>
    if G.checkSchema request.outputSchema = false ∨
        G.maxInputTokens < estimateTokens request.messages then (.error .configuration, 0, cache)
    else
      let key := (G.identity name request).buildCacheKey G.hash
      let result := fun (r : Response J) n hit =>
        (⟨r, request.promptVersion, G.contextHash request, n, hit⟩ : Result J)
      match if G.cacheEnabled then cache key else none with
      | some cached => (.ok (result cached 0 true), 0, cache)
      | none =>
        match G.attempts request answers (1 + G.malformedOutputRetries) 0 with
        | (.error e, n) => (.error e, n, cache)
        | (.ok response, n) =>
          (.ok (result response n false), n,
            if G.cacheEnabled then Function.update cache key (some response) else cache)

/-- The cache after one more call, and after several. -/
def cacheNext (cache : Cache J) (call : Request J × Answers J) : Cache J :=
  (G.completeStructured call.1 call.2 cache).2.2

def cacheAfter (calls : List (Request J × Answers J)) : Cache J :=
  calls.foldl G.cacheNext fun _ => none

variable {G} {request : Request J} {answers : Answers J} {cache : Cache J} {name : Text}

theorem identity_plain (hname : name ∈ G.providerName) (request : Request J) :
    (G.identity name request).Plain G.hash := by
  have hcontext : '|' ∉ G.contextHash request := by
    unfold contextHash
    split
    · next hkey => exact request.key_plain _ hkey
    · exact G.hash.digits _
  simp only [Identity.Plain, Identity.components, identity, forall_mem_cons]
  exact ⟨G.provider_plain _ hname, G.model_plain, request.task_plain, request.version_plain,
    G.hash.digits _, hcontext, forall_mem_nil _⟩

theorem attempts_spec (request : Request J) (answers : Answers J) (left attempt : Nat) :
    (G.attempts request answers left attempt).2 ≤ attempt + left ∧
    ∀ response, (G.attempts request answers left attempt).1 = .ok response →
      G.validates request.outputSchema response.content := by
  induction left generalizing attempt with
  | zero => exact ⟨Nat.le_refl _, nofun⟩
  | succ left ih =>
    have hrest := ih (attempt + 1)
    grind [attempts]

/-- What is cached has passed the schemas of its requests. -/
def Valid (G : LLMGateway J) (cache : Cache J) : Prop :=
  ∀ (a : Identity J) (response : Response J), a.Plain G.hash →
    cache (a.buildCacheKey G.hash) = some response →
    G.validates a.outputSchema response.content = true

/-- **What a call does**: it fails, or it returns a response that was cached under its key
or has passed its schema, and is cached from then on. -/
theorem completeStructured_cases (request : Request J) (answers : Answers J) (cache : Cache J) :
    ∃ n ≤ 1 + G.malformedOutputRetries,
      (∃ e, G.completeStructured request answers cache = (.error e, n, cache)) ∨
      ∃ name ∈ G.providerName, ∃ (result : Result J) (cache' : Cache J),
        G.completeStructured request answers cache = (.ok result, n, cache') ∧
        let key := (G.identity name request).buildCacheKey G.hash
        (cache key = some result.toResponse ∨
          G.validates request.outputSchema result.content) ∧
        (∀ k, cache' k = cache k ∨ k = key ∧ cache' k = some result.toResponse) ∧
        (G.cacheEnabled → cache' key = some result.toResponse) := by
  cases hname : G.providerName with
  | none => exact ⟨0, Nat.zero_le _, Or.inl ⟨.configuration, by simp [completeStructured, hname]⟩⟩
  | some name =>
    obtain ⟨hbound, hvalid⟩ := G.attempts_spec request answers (1 + G.malformedOutputRetries) 0
    unfold completeStructured
    simp only [hname]
    split
    · exact ⟨0, Nat.zero_le _, Or.inl ⟨_, rfl⟩⟩
    · split
      · next cached hcached =>
        have hfound : cache ((G.identity name request).buildCacheKey G.hash) = some cached := by
          grind
        exact ⟨0, Nat.zero_le _, Or.inr ⟨name, rfl, _, _, rfl, Or.inl hfound,
          fun _ => Or.inl rfl, fun _ => hfound⟩⟩
      · split
        · next e n hattempts => exact ⟨n, by grind, Or.inl ⟨e, rfl⟩⟩
        · next response n hattempts =>
          have hpassed := hvalid response (congrArg Prod.fst hattempts)
          refine ⟨n, by grind, Or.inr ⟨name, rfl, _, _, rfl, Or.inr hpassed, ?_⟩⟩
          grind [Function.update_apply]

theorem Valid.call (h : G.Valid cache) (request : Request J) (answers : Answers J) :
    G.Valid (G.cacheNext cache (request, answers)) ∧
    ∀ result, (G.completeStructured request answers cache).1 = .ok result →
      G.validates request.outputSchema result.content := by
  unfold cacheNext
  obtain ⟨n, -, ⟨e, heq⟩ | ⟨name, hname, result, cache', heq, hsource, hkept, -⟩⟩ :=
    G.completeStructured_cases request answers cache
  · exact heq ▸ ⟨h, nofun⟩
  · have hplain := identity_plain hname request
    have hpassed := hsource.elim (h _ _ hplain) id
    rw [heq]
    refine ⟨fun a response ha hfound => ?_, by rintro _ ⟨⟩; exact hpassed⟩
    rcases hkept (a.buildCacheKey G.hash) with hold | ⟨hkey, hnew⟩
    · exact h a response ha (hold ▸ hfound)
    · cases Identity.eq_of_key_eq ha hplain hkey
      cases hnew.symm.trans hfound
      exact hpassed

variable (calls : List (Request J × Answers J))

theorem valid_cacheAfter : G.Valid (G.cacheAfter calls) :=
  foldlRecOn (motive := G.Valid) calls _ nofun fun _ h call _ => (h.call call.1 call.2).1

/-- A response stays in the cache. -/
theorem kept_foldl {key : Text} (h : cache key ≠ none) :
    calls.foldl G.cacheNext cache key ≠ none := by
  refine foldlRecOn (motive := fun cache : Cache J => cache key ≠ none) calls _ h
    fun cache h call _ => ?_
  rw [cacheNext]
  obtain ⟨n, -, ⟨e, heq⟩ | ⟨name, hname, result, cache', heq, -, hkept, -⟩⟩ :=
    G.completeStructured_cases call.1 call.2 cache
  · rwa [heq]
  · rcases hkept key with hold | ⟨-, hnew⟩
    · simpa [heq, hold] using h
    · simp [heq, hnew]

/-- A request whose key is in the cache is answered from there. -/
theorem no_calls_of_cached (henabled : G.cacheEnabled) (hname : G.providerName = some name)
    (hcached : cache ((G.identity name request).buildCacheKey G.hash) ≠ none) :
    (G.completeStructured request answers cache).2.1 = 0 := by
  obtain ⟨response, hresponse⟩ := Option.ne_none_iff_exists'.mp hcached
  unfold completeStructured
  simp only [hname, henabled, if_true, hresponse]
  split <;> rfl

/-- **Structured calls.**  After any calls, what a call returns passes its own schema, the
provider is called at most `1 + malformed_output_retries` times and, with the cache enabled,
not at all for a request that has succeeded before. -/
theorem structured_calls (G : LLMGateway J) (calls : List (Request J × Answers J))
    (request : Request J) (answers : Answers J) :
    (∀ result, (G.completeStructured request answers (G.cacheAfter calls)).1 = .ok result →
      G.validates request.outputSchema result.content = true) ∧
    (G.completeStructured request answers (G.cacheAfter calls)).2.1 ≤
      1 + G.malformedOutputRetries ∧
    (G.cacheEnabled = true → ∀ before earlier after result,
      calls = before ++ (request, earlier) :: after →
      (G.completeStructured request earlier (G.cacheAfter before)).1 = .ok result →
      (G.completeStructured request answers (G.cacheAfter calls)).2.1 = 0) := by
  refine ⟨((valid_cacheAfter calls).call request answers).2, ?_, ?_⟩
  · obtain ⟨n, hn, ⟨e, heq⟩ | ⟨name, hname, result, cache', heq, -⟩⟩ :=
      G.completeStructured_cases request answers (G.cacheAfter calls)
    · exact heq ▸ hn
    · exact heq ▸ hn
  · rintro henabled before earlier after result rfl hok
    obtain ⟨n, -, ⟨e, heq⟩ | ⟨name, hname, result', cache', heq, -, -, hstored⟩⟩ :=
      G.completeStructured_cases request earlier (G.cacheAfter before)
    · rw [heq] at hok
      cases hok
    · refine no_calls_of_cached henabled hname ?_
      have hcached : G.cacheNext (G.cacheAfter before) (request, earlier)
          ((G.identity name request).buildCacheKey G.hash) ≠ none := by
        simp [cacheNext, heq, hstored henabled]
      rw [cacheAfter, foldl_append]
      exact kept_foldl after hcached

/-- Without the cache a request that has succeeded is sent again. -/
theorem disabled_cache_calls_again :
    let G : LLMGateway Unit := ⟨plainHashing, fun _ => [], fun _ => true, fun _ _ => true,
      some ['p'], ['m'], 6000, 1, false, by decide, by decide⟩
    let request : Request Unit := ⟨['t'], ['v'], [], (), none, by decide, by decide, nofun⟩
    let answers : Answers Unit := fun _ => .ok ⟨(), ['p'], ['m'], 1, 1, 1, ['r']⟩
    (G.completeStructured request answers (G.cacheAfter [])).1.isOk ∧
    (G.completeStructured request answers (G.cacheAfter [(request, answers)])).2.1 = 1 := by
  decide

end LLMGateway

end Llm
