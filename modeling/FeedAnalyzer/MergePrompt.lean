import Mathlib.Data.List.Infix
import FeedAnalyzer.CleansingPipeline

/-!
# The prompt of a merge

`LlmMerger._build_messages` puts the titles of a cluster between `<SOURCES>` and
`</SOURCES>`, and `assess_text` rejects a title with anything like a tag in it.  So the
closing delimiter occurs once, behind the titles.
-/

namespace Cleansing

open Feed List

/-- What `assess_text` uses besides its own pattern for tags. -/
structure TitleChecks where
  /-- `clean_text`. -/
  clean : String → String
  /-- A replacement character or half of a surrogate pair. -/
  damaged : String → Bool
  isBad : String → Bool
  /-- `function\s*\(|var\s+\w+\s*=`. -/
  script : String → Bool
  boilerplate : String → Bool
  isAlpha : Char → Bool

/-- `<[/!]?[a-zA-Z][^>]*>` matches here. -/
def tagHere : List Char → Bool
  | '<' :: '/' :: c :: rest => c.isAlpha && rest.contains '>'
  | '<' :: '!' :: c :: rest => c.isAlpha && rest.contains '>'
  | '<' :: c :: rest => c.isAlpha && rest.contains '>'
  | _ => false

/-- `assess_text(value, title=True).usable`: a title is one span. -/
def TitleChecks.usableTitle (checks : TitleChecks) (value : String) : String :=
  let clean := checks.clean value
  if clean = "" then ""
  else if checks.damaged clean then ""
  else if checks.isBad clean then ""
  else if clean.toList.tails.any tagHere || checks.script clean then ""
  else if checks.boilerplate clean then ""
  else if !clean.toList.any checks.isAlpha then ""
  else clean

/-- A pipeline that assesses its titles. -/
def CleansingPipeline.assessing {reg : Registry} (P : CleansingPipeline reg)
    (checks : TitleChecks) : CleansingPipeline reg :=
  { P with text := { P.text with usableTitle := checks.usableTitle } }

def delimiter : List Char := ['<', '/', 'S', 'O', 'U', 'R', 'C', 'E', 'S', '>']

def request : List Char :=
  ("\nProduce canonical_summary and the actor/action/object if unambiguous " ++
    "(use null when unclear), plus a short resolution note.").toList

structure LlmMerger where
  maxExcerpts : Nat
  excerptChars : Nat

namespace LlmMerger

variable (M : LlmMerger)

def sourceLine (row : MemberRow × Nat) : List Char :=
  "[SOURCE ".toList ++ (toString row.2).toList ++ "] ".toList ++
    row.1.title.toList.take M.excerptChars

/-- The user message of `_build_messages` down to its last title. -/
def sources (record : ClusterRow) (articles : List MemberRow) : List Char :=
  "Canonical event type: ".toList ++ record.eventType.value.toList ++ ['.'] ++ '\n' ::
    ("<SOURCES>".toList ++ '\n' ::
      ['\n'].intercalate (((articles.take M.maxExcerpts).zipIdx 1).map M.sourceLine))

def userMessage (record : ClusterRow) (articles : List MemberRow) : List Char :=
  M.sources record articles ++ '\n' :: (delimiter ++ request)

end LlmMerger

section Delimiter

variable {C : Type} {d before after x y : List C} {c : C}

/-- A text without line breaks that occurs in two lines occurs in one of them. -/
theorem occurs_line (hc : c ∉ d) (h : before ++ d ++ after = x ++ c :: y) :
    d <:+: x ∨ ∃ front, before = x ++ c :: front ∧ y = front ++ d ++ after := by
  rcases append_eq_append_iff.mp h with ⟨rest, rfl, -⟩ | ⟨rest, hfront, hy⟩
  · exact Or.inl ⟨before, rest, rfl⟩
  cases rest with
  | nil => exact Or.inl ⟨before, [], by simpa using hfront⟩
  | cons c' rest =>
    obtain ⟨rfl, rfl⟩ := cons.inj hy
    rcases append_eq_append_iff.mp hfront with ⟨tail, -, rfl⟩ | ⟨front, rfl, hrest⟩
    · exact absurd (mem_append_right tail mem_cons_self) hc
    cases front with
    | nil => exact absurd (hrest ▸ mem_cons_self : c ∈ [] ++ d) hc
    | cons c' front =>
      obtain ⟨rfl, rfl⟩ := cons.inj hrest
      exact Or.inr ⟨front, rfl, rfl⟩

theorem not_occurs_line (hc : c ∉ d) (hx : ¬ d <:+: x) (hy : ¬ d <:+: y) :
    ¬ d <:+: x ++ c :: y := by
  rintro ⟨before, after, h⟩
  rcases occurs_line hc h with hin | ⟨front, -, rfl⟩
  · exact hx hin
  · exact hy ⟨front, after, rfl⟩

theorem not_occurs_lines (hne : d ≠ []) (hc : c ∉ d) {lines : List (List C)}
    (hlines : ∀ line ∈ lines, ¬ d <:+: line) : ¬ d <:+: [c].intercalate lines := by
  match lines with
  | [] => simpa [intercalate] using hne
  | [line] => simpa [intercalate] using hlines
  | line :: next :: rest =>
    have hrest := not_occurs_lines hne hc fun l hl => hlines l (mem_cons_of_mem line hl)
    simpa [intercalate] using not_occurs_line hc (hlines line mem_cons_self) hrest

/-- Nothing of an occurrence lies in front of its first character. -/
theorem not_occurs_behind (hc : c ∉ x) (hy : ¬ c :: d <:+: y) : ¬ c :: d <:+: x ++ y := by
  rintro ⟨before, after, h⟩
  rw [append_assoc] at h
  rcases append_eq_append_iff.mp h with ⟨rest, rfl, hrest⟩ | ⟨front, -, rfl⟩
  · cases rest with
    | nil => exact hy ⟨[], after, hrest⟩
    | cons c' rest =>
      obtain ⟨rfl, -⟩ := cons.inj hrest
      exact hc (by simp)
  · exact hy ⟨front, after, by simp⟩

end Delimiter

theorem not_occurs_usableTitle (checks : TitleChecks) (value : String) :
    ¬ delimiter <:+: (checks.usableTitle value).toList := by
  have hcases : checks.usableTitle value = "" ∨
      (checks.clean value).toList.tails.any tagHere = false ∧
        checks.usableTitle value = checks.clean value := by
    unfold TitleChecks.usableTitle
    grind
  intro hin
  rcases hcases with hnone | ⟨hfree, hclean⟩
  · rw [hnone] at hin
    exact absurd hin (by decide)
  · rw [hclean] at hin
    obtain ⟨before, after, h⟩ := hin
    have hmem : delimiter ++ after ∈ (checks.clean value).toList.tails :=
      (mem_tails _ _).mpr ⟨before, by simpa using h⟩
    simpa [delimiter, tagHere] using any_eq_false.mp hfree _ hmem

theorem LlmMerger.not_occurs_sources (M : LlmMerger) (record : ClusterRow)
    {articles : List MemberRow} (htitles : ∀ row ∈ articles, ¬ delimiter <:+: row.title.toList) :
    ¬ delimiter <:+: M.sources record articles := by
  refine not_occurs_line (by decide) ?_ (not_occurs_line (by decide) (by decide) ?_)
  · intro hin
    have hmem := hin.subset (show '<' ∈ delimiter by decide)
    revert hmem
    cases record.eventType <;> decide
  · refine not_occurs_lines (by decide) (by decide) fun line hline => ?_
    obtain ⟨row, hrow, rfl⟩ := mem_map.mp hline
    refine not_occurs_behind ?_ fun hin => ?_
    · have hdigits : '<' ∉ Nat.toDigits 10 row.2 := fun hmem =>
        absurd (Nat.isDigit_of_mem_toDigits (by decide) (by decide) hmem) (by decide)
      simpa using hdigits
    · have hrow := mem_of_mem_take (fst_mem_of_mem_zipIdx hrow)
      exact htitles row.1 hrow (hin.trans ( take_prefix _ _).isInfix)

/-- **The closing delimiter stands once**, behind the titles, whatever was sent as their
titles. -/
theorem sources_closed_once {reg : Registry} (M : LlmMerger) (checks : TitleChecks)
    (P : CleansingPipeline reg) (record : ClusterRow) (messages : List ArticleIngested)
    (before after : List Char) :
    let articles := messages.map fun message =>
      Store.memberRow record.clusterId ((P.assessing checks).usableFacts message)
    M.userMessage record articles = before ++ delimiter ++ after ↔
      before = M.sources record articles ++ ['\n'] ∧ after = request := by
  intro articles
  have htitles : ∀ row ∈ articles, ¬ delimiter <:+: row.title.toList := by
    intro row hrow
    obtain ⟨message, -, rfl⟩ := mem_map.mp hrow
    show ¬ delimiter <:+:
      (if checks.usableTitle message.title = "" then "[unusable title]" else _).toList
    split
    · decide
    · exact not_occurs_usableTitle checks message.title
  constructor
  · intro h
    rcases occurs_line (by decide) h.symm with hin | ⟨front, rfl, hrest⟩
    · exact absurd hin (M.not_occurs_sources record htitles)
    cases front with
    | nil =>
      rw [nil_append] at hrest
      exact ⟨rfl, (append_cancel_left hrest).symm⟩
    | cons c front =>
      have hlater : delimiter <:+: (delimiter ++ request).tail :=
        ⟨front, after, by rw [hrest]; rfl⟩
      exact absurd hlater (by decide +kernel)
  · rintro ⟨hbefore, hafter⟩
    simp only [hbefore, hafter, LlmMerger.userMessage, append_assoc, cons_append,
      nil_append]

end Cleansing
