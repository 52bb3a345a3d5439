import Mathlib.Data.List.Infix
import FeedAnalyzer.RegistryLoader

/-!
# Company keywords

`parse_registry` compares keywords as they are written, and the matcher replaces
punctuation by blanks first.  So a text can name two companies by one keyword
exactly if two assets have keywords with the same normal form.
-/

namespace Feed

open Transact List Table

section Matcher

variable (py : PythonText)

def normalise (text : String) : List Char :=
  text.toList.map fun c =>
    -- `\w` and `\s`, which takes the four separators of ASCII as white space
    if py.isAlnum c || c = '_' || isWhiteSpace c || 28 ≤ c.toNat && c.toNat ≤ 31 then c else ' '

def haystack (text : String) : List Char := ' ' :: normalise py (py.lower text) ++ [' ']

def suffixes : List String := ["", "s", "es", "er", "ar", "et", "en", "ing"]

def keywordPresent (haystack : List Char) (keyword : String) : Bool :=
  let keyword := normalise py keyword
  if ' ' ∈ keyword then keyword <:+: haystack
  else suffixes.any fun suffix => ' ' :: keyword ++ suffix.toList ++ [' '] <:+: haystack

def DeclaredAsset.hits (haystack : List Char) (entry : DeclaredAsset) : List String :=
  entry.keywords.filter (keywordPresent py haystack)

def companyMatches (loaded : LoadedRegistry) (haystack : List Char) : List String × List String :=
  let found := loaded.assets.rows.filter fun entry => !(entry.hits py haystack).isEmpty
  (found.map (·.assetId), found.flatMap (·.hits py haystack))

/-- No two assets are matched through keywords of one normal form. -/
def LoadedRegistry.Unambiguous (loaded : LoadedRegistry) (text : String) : Prop :=
  ∀ a ∈ loaded.assets, ∀ b ∈ loaded.assets, a.assetId ≠ b.assetId →
    ∀ k ∈ a.hits py (haystack py text), ∀ l ∈ b.hits py (haystack py text),
      normalise py k ≠ normalise py l

end Matcher

variable {py : PythonText}

/-- The keywords of an asset are in lower case. -/
theorem buildAsset_lowered {raw : Json} {groupId : String} {entry : DeclaredAsset}
    (hok : buildAsset py raw groupId = .ok entry) :
    ∀ k ∈ entry.keywords, ∃ text, k = py.lower text := by
  unfold buildAsset at hok
  split at hok
  · obtain ⟨_, _, hok⟩ := bind_eq_ok hok
    obtain ⟨_, _, hok⟩ := bind_eq_ok hok
    obtain ⟨_, _, hok⟩ := bind_eq_ok hok
    obtain ⟨_, _, hok⟩ := bind_eq_ok hok
    obtain ⟨_, _, hok⟩ := bind_eq_ok hok
    obtain ⟨keywords, hkeywords, hok⟩ := bind_eq_ok hok
    cases hok
    intro k hk
    unfold parseKeywords at hkeywords
    split at hkeywords
    · cases hkeywords
      cases hk
    · obtain ⟨item, -, hitem⟩ := exists_of_mapM_ok hkeywords hk
      unfold keyword at hitem
      split at hitem
      · split at hitem
        · cases hitem
          exact ⟨_, rfl⟩
        · cases hitem
      · cases hitem
    · cases hkeywords
  · cases hok

/-- The text of a keyword names it. -/
theorem keywordPresent_self {text : String} :
    keywordPresent py (haystack py text) (py.lower text) := by
  simp only [keywordPresent, haystack]
  split
  · exact decide_eq_true ⟨[' '], [' '], rfl⟩
  · exact any_eq_true.mpr ⟨"", by decide, by simp⟩

/-- **Company keywords are unambiguous in every text exactly if those of different
assets have different normal forms.** -/
theorem unambiguous_iff {payload : Json} {loaded : LoadedRegistry}
    (hok : parseRegistry py payload = .ok loaded) :
    (∀ text, loaded.Unambiguous py text) ↔
      ∀ a ∈ loaded.assets, ∀ b ∈ loaded.assets, a.assetId ≠ b.assetId →
        ∀ k ∈ a.keywords, ∀ l ∈ b.keywords, normalise py k ≠ normalise py l := by
  constructor
  · intro hall a ha b hb hne k hk l hl hsame
    obtain ⟨text, rfl⟩ := (parseRegistry_forall buildAsset_lowered hok).1 a ha k hk
    have hpresent : keywordPresent py (haystack py text) (py.lower text) :=
      keywordPresent_self
    refine hall text a ha b hb hne _ (mem_filter.mpr ⟨hk, hpresent⟩) l (mem_filter.mpr ⟨hl, ?_⟩)
      hsame
    simpa only [keywordPresent, hsame] using hpresent
  · intro hdistinct text a ha b hb hne k hk l hl
    exact hdistinct a ha b hb hne k (mem_of_mem_filter hk) l (mem_of_mem_filter hl)

def withKeyword (keyword : String) : Json → Json
  | .obj fields => .obj (("keywords", .arr [.str keyword]) :: fields)
  | value => value

def saabDocument (first second : String) : Json :=
  .obj [("registry_version", .str "1"), ("rollover_policy", .str "front"), ("groups", .arr [
      .obj [("group_id", .str "DEFENCE"), ("display_name", .str "Defence"),
        ("assets", .arr [withKeyword first (metalDocument "SAAB_B" "Saab"),
          withKeyword second (metalDocument "SAAB_OTC" "Saab OTC")])]])]

theorem distinct_listings_accepted :
    (parseRegistry asciiText (saabDocument "saab-b" "saabf")).toOption.isSome := by
  decide +kernel

theorem distinct_listings_unambiguous : LoadedRegistry.Unambiguous asciiText
    ((parseRegistry asciiText (saabDocument "saab-b" "saabf")).toOption.get
      distinct_listings_accepted) "Saab B rises" :=
  (unambiguous_iff (eq_ok_of_isSome distinct_listings_accepted)).mpr (by decide +kernel) _

/-- The two spellings are different keywords to the loader, and the same to the
matcher. -/
theorem hyphenated_keyword_ambiguous :
    ∃ loaded, parseRegistry asciiText (saabDocument "saab-b" "saab b") = .ok loaded ∧
      companyMatches asciiText loaded (haystack asciiText "Saab B rises") =
        (["SAAB_B", "SAAB_OTC"], ["saab-b", "saab b"]) ∧
      ¬ loaded.Unambiguous asciiText "Saab B rises" := by
  refine ⟨_, eq_ok_of_isSome (by decide +kernel), by decide +kernel, ?_⟩
  unfold LoadedRegistry.Unambiguous
  decide +kernel

end Feed
