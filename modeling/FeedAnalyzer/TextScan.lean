import Mathlib.Data.List.Basic

/-!
# Splitting and stripping text

`partition` cuts a text at the first occurrence of a separator, and `strip` drops the
spaces around it.
-/

namespace Text

variable {C : Type} [DecidableEq C] {isSpace : C → Bool}

/-- Cut at the first occurrence of `sep`. -/
def partition (sep : List C) : List C → List C × Bool × List C
  | [] => ([], false, [])
  | c :: rest =>
    if sep.isPrefixOf (c :: rest) then ([], true, (c :: rest).drop sep.length)
    else
      let cut := partition sep rest
      (c :: cut.1, cut.2)

variable {d : C} {text : List C}

/-- **The cut undoes the join.** -/
theorem partition_join {ds before : List C} (hbefore : d ∉ before) (after : List C) :
    partition (d :: ds) (before ++ (d :: ds) ++ after) = (before, true, after) := by
  induction before with
  | nil =>
    have hfirst : (d :: ds).isPrefixOf (d :: (ds ++ after)) := by
      simp [List.isPrefixOf_iff_prefix]
    simp [partition, hfirst]
  | cons c rest ih =>
    have hne : d ≠ c := fun heq => hbefore (heq ▸ List.mem_cons_self)
    have hlater : d ∉ rest := fun hmem => hbefore (List.mem_cons_of_mem c hmem)
    have hrest := ih hlater
    simp only [List.cons_append] at hrest ⊢
    rw [partition, hrest]
    simp [List.isPrefixOf, hne]

theorem partition_whole (htext : d ∉ text) (ds : List C) :
    partition (d :: ds) text = (text, false, []) := by
  induction text with
  | nil => rfl
  | cons c rest ih =>
    have hne : d ≠ c := fun heq => htext (heq ▸ List.mem_cons_self)
    have hlater : d ∉ rest := fun hmem => htext (List.mem_cons_of_mem c hmem)
    rw [partition, ih hlater]
    simp [List.isPrefixOf, hne]

theorem eq_of_partition (sep text : List C) : text = (partition sep text).1 ++
      (if (partition sep text).2.1 then sep ++ (partition sep text).2.2 else []) := by
  induction text with
  | nil => rfl
  | cons c rest ih =>
    unfold partition
    by_cases hfirst : sep.isPrefixOf (c :: rest)
    · obtain ⟨after, hafter⟩ := List.isPrefixOf_iff_prefix.mp hfirst
      simp only [hfirst, if_true, List.nil_append]
      rw [← hafter, List.drop_left]
    · simp only [hfirst, if_false, Bool.false_eq_true, List.cons_append]
      exact congrArg (c :: ·) ih

omit [DecidableEq C] in
/-- Drop the spaces at both ends. -/
def strip (isSpace : C → Bool) (text : List C) : List C :=
  (((text.dropWhile isSpace).reverse).dropWhile isSpace).reverse

omit [DecidableEq C] in
theorem dropWhile_eq_self (hfirst : ∀ c, text.head? = some c → isSpace c = false) :
    text.dropWhile isSpace = text := by
  cases text with
  | nil => rfl
  | cons c rest => exact List.dropWhile_cons_of_neg (by simp [hfirst c rfl])

omit [DecidableEq C] in
/-- A text that neither starts nor ends with a space is left whole. -/
theorem strip_of_ends {text : List C} (hfirst : ∀ c, text.head? = some c → isSpace c = false)
    (hlast : ∀ c, text.getLast? = some c → isSpace c = false) : strip isSpace text = text := by
  have hback : ∀ c, text.reverse.head? = some c → isSpace c = false := by
    intro c hc
    rw [List.head?_reverse] at hc
    exact hlast c hc
  unfold strip
  rw [dropWhile_eq_self hfirst, dropWhile_eq_self hback, List.reverse_reverse]

omit [DecidableEq C] in
/-- What precedes a character that is no space is left whole. -/
theorem exists_strip_append {front rest : List C} {c : C} (hne : front ≠ [])
    (hfirst : ∀ c, front.head? = some c → isSpace c = false) (hc : isSpace c = false) :
    ∃ rest', strip isSpace (front ++ c :: rest) = front ++ c :: rest' := by
  refine ⟨(rest.reverse.dropWhile isSpace).reverse, ?_⟩
  have hfront : (front ++ c :: rest).dropWhile isSpace = front ++ c :: rest := by
    apply dropWhile_eq_self
    rw [List.head?_append_of_ne_nil front hne]
    exact hfirst
  unfold strip
  rw [hfront, List.reverse_append, List.reverse_cons, List.append_assoc, List.dropWhile_append]
  cases hrest : rest.reverse.dropWhile isSpace <;> simp [hc]

omit [DecidableEq C] in
/-- A text that `strip` leaves whole does not end with a space. -/
theorem isSpace_last_of_strip {last : C} {back : List C}
    (hwhole : strip isSpace (back ++ [last]) = back ++ [last]) : isSpace last = false := by
  by_contra hspace
  rw [Bool.not_eq_false] at hspace
  have hlength := congrArg List.length hwhole
  unfold strip at hlength
  rw [List.length_reverse] at hlength
  have hfront : ((back ++ [last]).dropWhile isSpace).length ≤ (back ++ [last]).length :=
    (List.dropWhile_sublist _).length_le
  cases hdrop : (back ++ [last]).dropWhile isSpace with
  | nil => simp [hdrop] at hlength
  | cons c rest =>
    obtain ⟨skipped, hskipped⟩ := List.dropWhile_suffix isSpace
    have hlast : ((back ++ [last]).dropWhile isSpace).reverse.head? = some last := by
      have hne : (back ++ [last]).dropWhile isSpace ≠ [] := by rw [hdrop]; exact List.cons_ne_nil _ _
      rw [List.head?_reverse]
      have hend := congrArg List.getLast? hskipped
      rw [List.getLast?_append_of_ne_nil _ hne] at hend
      rw [hend]
      simp
    cases hreverse : ((back ++ [last]).dropWhile isSpace).reverse with
    | nil => rw [hreverse] at hlast; cases hlast
    | cons c' rest' =>
      rw [hreverse] at hlast hlength
      cases hlast
      rw [List.dropWhile_cons_of_pos hspace] at hlength
      have hshort : (rest'.dropWhile isSpace).length ≤ rest'.length :=
        (List.dropWhile_sublist _).length_le
      have hcount := congrArg List.length hreverse
      rw [List.length_reverse, List.length_cons] at hcount
      omega

end Text
