import Mathlib.Data.List.Basic
import Mathlib.Logic.Function.Basic

/-!
# Cache keys of the LLM gateway

The cache key of a request joins its components with bars and hashes them, so two
requests share a key exactly if their components, cut at every bar, are the same.
-/

namespace Llm

open List

abbrev Text : Type := List Char

/-- `json.dumps(…, sort_keys=True)` and `hexdigest()`, whose digits are no bars. -/
structure Hashing (J : Type) where
  dumps : J → Text
  sha256 : Text → Text
  dumps_injective : Function.Injective dumps
  sha256_injective : Function.Injective sha256
  digits : ∀ text, '|' ∉ sha256 text

theorem flatMap_mark_injective :
    Function.Injective fun text : Text => text.flatMap fun c => if c = '|' then ['0'] else ['1', c] := by
  intro text
  induction text with
  | nil => intro text'; cases text' <;> grind
  | cons c text ih => intro text'; cases text' <;> grind

/-- A hash that only writes bars as something else. -/
def plainHashing : Hashing Unit where
  dumps _ := []
  sha256 text := text.flatMap fun c => if c = '|' then ['0'] else ['1', c]
  dumps_injective _ _ _ := rfl
  sha256_injective := flatMap_mark_injective
  digits text := by grind

variable {J : Type}

/-- What a response is cached for. -/
structure Identity (J : Type) where
  provider : Text
  model : Text
  task : Text
  promptVersion : Text
  outputSchema : J
  contextHash : Text

namespace Identity

variable (hash : Hashing J)

def components (a : Identity J) : List Text :=
  [a.provider, a.model, a.task, a.promptVersion, hash.sha256 (hash.dumps a.outputSchema),
    a.contextHash]

def buildCacheKey (a : Identity J) : Text :=
  hash.sha256 (['|'].intercalate (a.components hash))

/-- What lies between the bars of the components. -/
def pieces (a : Identity J) : List Text := (a.components hash).flatMap (splitOn '|')

/-- No component contains a bar. -/
def Plain (a : Identity J) : Prop := ∀ text ∈ a.components hash, '|' ∉ text

variable {hash} {a b : Identity J}

theorem splitOn_intercalate_flatMap {texts : List Text} (hne : texts ≠ []) :
    splitOn '|' (['|'].intercalate texts) = texts.flatMap (splitOn '|') := by
  induction texts with
  | nil => exact absurd rfl hne
  | cons text rest ih =>
    cases rest with
    | nil => simp [intercalate]
    | cons next rest =>
      have hjoin : ['|'].intercalate (text :: next :: rest) =
          text ++ '|' :: ['|'].intercalate (next :: rest) := by simp [intercalate]
      rw [hjoin, flatMap_cons, ← ih (cons_ne_nil _ _)]
      exact splitOnP_append_cons _ _ (by simp)

theorem buildCacheKey_eq_iff :
    a.buildCacheKey hash = b.buildCacheKey hash ↔ a.pieces hash = b.pieces hash := by
  have hpieces : ∀ c : Identity J,
      c.pieces hash = splitOn '|' (['|'].intercalate (c.components hash)) :=
    fun c => (splitOn_intercalate_flatMap (cons_ne_nil _ _)).symm
  have hinjective : Function.Injective (splitOn '|') :=
    Function.LeftInverse.injective fun _ => intercalate_splitOn '|'
  rw [hpieces, hpieces, hinjective.eq_iff]
  exact hash.sha256_injective.eq_iff

theorem eq_of_key_eq (ha : a.Plain hash) (hb : b.Plain hash)
    (hkey : a.buildCacheKey hash = b.buildCacheKey hash) : a = b := by
  have hjoin := hash.sha256_injective hkey
  have hcomponents := congrArg (splitOn '|') hjoin
  rw [splitOn_intercalate '|' ha (cons_ne_nil _ _), splitOn_intercalate '|' hb (cons_ne_nil _ _)]
    at hcomponents
  simp only [components, cons.injEq, and_true] at hcomponents
  obtain ⟨hprovider, hmodel, htask, hversion, hschema, hcontext⟩ := hcomponents
  have hschema := hash.dumps_injective (hash.sha256_injective hschema)
  cases a
  cases b
  simp_all

/-- **Different requests have different keys** exactly if their pieces differ, as they
do where no component contains a bar. -/
theorem keys_differ_iff (hash : Hashing J) (a b : Identity J) :
    ((a ≠ b → a.buildCacheKey hash ≠ b.buildCacheKey hash) ↔
      (a = b ∨ a.pieces hash ≠ b.pieces hash)) ∧
    (a.Plain hash → b.Plain hash → a ≠ b → a.pieces hash ≠ b.pieces hash) := by
  refine ⟨?_, fun ha hb hne hpieces => ?_⟩
  · rw [ne_eq (a.buildCacheKey hash), buildCacheKey_eq_iff]
    tauto
  · exact hne (eq_of_key_eq ha hb (buildCacheKey_eq_iff.mpr hpieces))

/-- The bar moves from the model into the provider. -/
theorem shifted_bar_shares_key :
    let a : Identity Unit := ⟨"a|b".toList, ['c'], ['t'], ['v'], (), ['h']⟩
    let b : Identity Unit := ⟨['a'], "b|c".toList, ['t'], ['v'], (), ['h']⟩
    a.provider ≠ b.provider ∧ a.buildCacheKey plainHashing = b.buildCacheKey plainHashing := by
  decide

end Identity

end Llm
