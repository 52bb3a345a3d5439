import Mathlib.Data.List.Nodup
import Mathlib.Data.List.Sort
import Mathlib.Data.Prod.Lex

/-!
# Keyed tables

A table is a list of rows whose primary key is unique, by construction.  The operations
are the statements a repository sends; `SELECT … ORDER BY … LIMIT` breaks ties as it likes.
-/

namespace Transact

section Columns

variable {R X : Type}

/-- A new row whose value in a unique column is new keeps the column unique. -/
private theorem nodup_map_snoc {g : R → X} {rows : List R} {r : R} (hnodup : (rows.map g).Nodup)
    (hfresh : ∀ r' ∈ rows, g r' ≠ g r) : ((rows ++ [r]).map g).Nodup := by
  rw [List.map_append, List.nodup_append]
  refine ⟨hnodup, by simp, ?_⟩
  intro x hx x' hx' heq
  obtain ⟨r', hr', rfl⟩ := List.mem_map.mp hx
  simp only [List.map_cons, List.map_nil, List.mem_singleton] at hx'
  exact hfresh r' hr' (heq.trans hx')

private theorem map_updated {g : R → X} (p : R → Bool) {f : R → R} (hg : ∀ r, g (f r) = g r)
    (rows : List R) : (rows.map (fun r => if p r then f r else r)).map g = rows.map g := by
  rw [List.map_map]
  apply List.map_congr_left
  intro r _
  by_cases hp : p r <;> simp [hp, hg]

end Columns

/-- Rows under a primary key. -/
structure Table {R K : Type} (key : R → K) where
  rows : List R
  nodup : (rows.map key).Nodup

variable {X : Type} {n : Nat}

namespace Table

variable {R K : Type} {key : R → K}
  {t : Table key} {r r' : R} {k : K} {p : R → Bool} {rows : List R} {f : R → R}
  {hf : ∀ r, key (f r) = key r}

instance : Membership R (Table key) where
  mem t r := r ∈ t.rows

@[simp] theorem mem_rows : r ∈ t.rows ↔ r ∈ t := Iff.rfl

instance : EmptyCollection (Table key) where
  emptyCollection := ⟨[], List.nodup_nil⟩

@[simp] theorem not_mem_empty (r : R) : r ∉ (∅ : Table key) := List.not_mem_nil

theorem eq_of_key (hr : r ∈ t) (hr' : r' ∈ t) (hkey : key r = key r') : r = r' :=
  List.inj_on_of_nodup_map t.nodup hr hr' hkey

variable [DecidableEq K]

/-- The row of a key. -/
def find? (t : Table key) (k : K) : Option R :=
  t.rows.find? (fun r => key r = k)

theorem find?_eq_some_iff : t.find? k = some r ↔ r ∈ t ∧ key r = k := by
  constructor
  · intro hfind
    exact ⟨List.mem_of_find?_eq_some hfind, by simpa using List.find?_some hfind⟩
  · rintro ⟨hr, rfl⟩
    cases hfind : t.find? (key r) with
    | none =>
      have := List.find?_eq_none.mp hfind r hr
      simp at this
    | some r' =>
      have hr' : r' ∈ t := List.mem_of_find?_eq_some hfind
      have hkey : key r' = key r := by simpa using List.find?_some hfind
      rw [eq_of_key hr' hr hkey]

theorem find?_eq_none_iff : t.find? k = none ↔ ∀ r ∈ t, key r ≠ k := by
  simp [find?, List.find?_eq_none]

/-- Some row has the key `k`. -/
def has (t : Table key) (k : K) : Bool :=
  t.rows.any (fun r => key r = k)

theorem has_eq_true_iff : t.has k ↔ ∃ r ∈ t, key r = k := by
  simp [has]

theorem has_eq_false_iff : t.has k = false ↔ ∀ r ∈ t, key r ≠ k := by
  simp [has]

theorem countP_key (t : Table key) (k : K) :
    t.rows.countP (fun r => key r = k) = if t.has k then 1 else 0 := by
  have hcount : t.rows.countP (fun r => key r = k) = (t.rows.map key).count k := by
    rw [List.count, List.countP_map]
    rfl
  have hmem : k ∈ t.rows.map key ↔ t.has k := by
    rw [has_eq_true_iff, List.mem_map]
    rfl
  rw [hcount, List.Nodup.count t.nodup]
  simp only [hmem]

/-- `INSERT … ON CONFLICT (key) DO NOTHING`. -/
def insertNew (t : Table key) (r : R) : Table key :=
  if h : t.has (key r) = true then t
  else
    { rows := t.rows ++ [r]
      nodup := nodup_map_snoc t.nodup (has_eq_false_iff.mp (Bool.eq_false_iff.mpr h)) }

theorem insertNew_of_has (h : t.has (key r)) : t.insertNew r = t := by
  simp [insertNew, h]

theorem rows_insertNew_of_fresh (h : t.has (key r) = false) :
    (t.insertNew r).rows = t.rows ++ [r] := by
  simp [insertNew, h]

theorem mem_insertNew_of_fresh (h : t.has (key r) = false) :
    r' ∈ t.insertNew r ↔ r' ∈ t ∨ r' = r := by
  rw [← mem_rows, rows_insertNew_of_fresh h]
  simp

theorem mem_insertNew : r' ∈ t.insertNew r ↔ r' ∈ t ∨ (t.has (key r) = false ∧ r' = r) := by
  cases h : t.has (key r) with
  | true => simp [insertNew_of_has h]
  | false => simp [mem_insertNew_of_fresh h]

theorem mem_insertNew_of_mem (hr' : r' ∈ t) : r' ∈ t.insertNew r :=
  mem_insertNew.mpr (Or.inl hr')

/-- After an insertion the key is there, whether or not the row went in. -/
theorem has_insertNew_self (t : Table key) (r : R) : (t.insertNew r).has (key r) := by
  cases h : t.has (key r) with
  | true => rw [insertNew_of_has h]; exact h
  | false =>
    exact has_eq_true_iff.mpr ⟨r, (mem_insertNew_of_fresh h).mpr (Or.inr rfl), rfl⟩

theorem has_insertNew_of_has (h : t.has k) : (t.insertNew r).has k := by
  obtain ⟨r', hr', hk⟩ := has_eq_true_iff.mp h
  exact has_eq_true_iff.mpr ⟨r', mem_insertNew_of_mem hr', hk⟩

theorem has_insertNew (t : Table key) (r : R) (k : K) :
    (t.insertNew r).has k = (t.has k || decide (key r = k)) := by
  cases h : t.has (key r) with
  | true =>
    rw [insertNew_of_has h]
    by_cases hk : key r = k
    · simp [← hk, h]
    · simp [hk]
  | false => simp [has, rows_insertNew_of_fresh h]

/-- A second unique column stays unique when the new row's value is new. -/
theorem nodup_map_insertNew {g : R → X} (hnodup : (t.rows.map g).Nodup)
    (hfresh : ∀ r' ∈ t, g r' ≠ g r) : ((t.insertNew r).rows.map g).Nodup := by
  cases h : t.has (key r) with
  | true => rw [insertNew_of_has h]; exact hnodup
  | false => rw [rows_insertNew_of_fresh h]; exact nodup_map_snoc hnodup hfresh

/-- A query that the new row does not answer sees no insertion. -/
theorem filter_insertNew (t : Table key) (hp : p r = false) :
    (t.insertNew r).rows.filter p = t.rows.filter p := by
  cases h : t.has (key r) with
  | true => rw [insertNew_of_has h]
  | false => simp [rows_insertNew_of_fresh h, hp]

/-- An insertion adds its row to what a key finds, unless the key was there. -/
theorem find?_insertNew (t : Table key) (r : R) (k : K) : (t.insertNew r).find? k =
      (t.find? k).or (if key r = k then some r else none) := by
  cases h : t.has (key r) with
  | true =>
    rw [insertNew_of_has h]
    by_cases hk : key r = k
    · obtain ⟨r', hr', hkey⟩ := has_eq_true_iff.mp h
      have hfind : t.find? k = some r' := find?_eq_some_iff.mpr ⟨hr', hkey.trans hk⟩
      simp [hfind]
    · simp [hk]
  | false =>
    rw [find?, rows_insertNew_of_fresh h, List.find?_append]
    congr 1
    by_cases hk : key r = k <;> simp [hk]

/-- Assignment of a dictionary: in the place of its key, or at the end. -/
def put (t : Table key) (r : R) : Table key :=
  if t.has (key r) = true then
    { rows := t.rows.map (fun r' => if key r' = key r then r else r')
      nodup := by
        have hkeys : (t.rows.map (fun r' => if key r' = key r then r else r')).map key =
            t.rows.map key := by
          rw [List.map_map]
          refine List.map_congr_left fun r' _ => ?_
          by_cases hkey : key r' = key r <;> simp [hkey]
        rw [hkeys]
        exact t.nodup }
  else t.insertNew r

theorem mem_put : r' ∈ t.put r ↔ r' = r ∨ (r' ∈ t ∧ key r' ≠ key r) := by
  unfold put
  split
  · next hhas =>
    obtain ⟨old, hold, hkey⟩ := has_eq_true_iff.mp hhas
    rw [← mem_rows, List.mem_map]
    constructor
    · rintro ⟨r₀, hr₀, rfl⟩
      by_cases hr : key r₀ = key r
      · exact Or.inl (by simp [hr])
      · exact Or.inr (by simpa [hr] using hr₀)
    · rintro (rfl | ⟨hmem, hne⟩)
      · exact ⟨old, hold, by simp [hkey]⟩
      · exact ⟨r', hmem, by simp [hne]⟩
  · next hfresh =>
    have hfresh' := Bool.eq_false_iff.mpr hfresh
    rw [mem_insertNew_of_fresh hfresh']
    constructor
    · rintro (hmem | rfl)
      · exact Or.inr ⟨hmem, has_eq_false_iff.mp hfresh' r' hmem⟩
      · exact Or.inl rfl
    · rintro (rfl | ⟨hmem, _⟩)
      · exact Or.inr rfl
      · exact Or.inl hmem

theorem find?_put (t : Table key) (r : R) (k : K) :
    (t.put r).find? k = if key r = k then some r else t.find? k := by
  by_cases hk : key r = k
  · rw [if_pos hk, find?_eq_some_iff]
    exact ⟨mem_put.mpr (Or.inl rfl), hk⟩
  · rw [if_neg hk]
    cases hfind : t.find? k with
    | none =>
      rw [find?_eq_none_iff] at hfind ⊢
      intro r' hr'
      rcases mem_put.mp hr' with rfl | ⟨hmem, _⟩
      · exact hk
      · exact hfind r' hmem
    | some old =>
      rw [find?_eq_some_iff] at hfind ⊢
      refine ⟨mem_put.mpr (Or.inr ⟨hfind.1, ?_⟩), hfind.2⟩
      intro hsame
      exact hk (hsame.symm.trans hfind.2)

/-- Assignments one after the other. -/
def putAll (t : Table key) (rows : List R) : Table key := rows.foldl put t

theorem find?_putAll_congr {t' : Table key} (h : ∀ k, t.find? k = t'.find? k) (rows : List R)
    (k : K) : (t.putAll rows).find? k = (t'.putAll rows).find? k := by
  induction rows generalizing t t' with
  | nil => exact h k
  | cons r rows ih =>
    apply ih
    intro k'
    rw [find?_put, find?_put, h k']

omit [DecidableEq K] in
/-- `UPDATE … SET … WHERE p`, not of the key. -/
def updateWhere (t : Table key) (p : R → Bool) (f : R → R)
    (hf : ∀ r, key (f r) = key r) : Table key where
  rows := t.rows.map (fun r => if p r then f r else r)
  nodup := by
    rw [map_updated p hf]
    exact t.nodup

omit [DecidableEq K] in
theorem map_rows_updateWhere {g : R → X} (t : Table key) (p : R → Bool)
    (hf : ∀ r, key (f r) = key r) (hg : ∀ r, g (f r) = g r) :
    (t.updateWhere p f hf).rows.map g = t.rows.map g :=
  map_updated p hg t.rows

omit [DecidableEq K] in
theorem updateWhere_of_forall_not (t : Table key) (hp : ∀ r ∈ t, p r = false) :
    t.updateWhere p f hf = t := by
  have hrows : t.rows.map (fun r => if p r then f r else r) = t.rows := by
    conv_rhs => rw [← List.map_id t.rows]
    exact List.map_congr_left fun r hr => by simp [hp r hr]
  cases t
  simpa [updateWhere] using hrows

omit [DecidableEq K] in
theorem updateWhere_congr {g : R → R} (t : Table key) (hf : ∀ r, key (f r) = key r)
    (hg : ∀ r, key (g r) = key r) (hfg : ∀ r ∈ t, p r → f r = g r) :
    t.updateWhere p f hf = t.updateWhere p g hg := by
  have hrows : t.rows.map (fun r => if p r then f r else r) =
      t.rows.map (fun r => if p r then g r else r) := by
    refine List.map_congr_left fun r hr => ?_
    by_cases hp : p r
    · simp [hp, hfg r hr hp]
    · simp [hp]
  simpa [updateWhere] using hrows

omit [DecidableEq K] in
/-- Two updates one after the other that meet different rows are one. -/
theorem updateWhere_updateWhere {q : R → Bool} (t : Table key) (hf : ∀ r, key (f r) = key r)
    (hapart : ∀ r ∈ t, p r → q (f r) = false) :
    (t.updateWhere p f hf).updateWhere q f hf = t.updateWhere (fun r => p r || q r) f hf := by
  have hrows : (t.rows.map (fun r => if p r then f r else r)).map
      (fun r => if q r then f r else r) =
      t.rows.map (fun r => if (p r || q r) then f r else r) := by
    rw [List.map_map]
    refine List.map_congr_left fun r hr => ?_
    by_cases hp : p r
    · simp [hp, hapart r hr hp]
    · simp [hp]
  simpa [updateWhere] using hrows

omit [DecidableEq K] in
theorem mem_updateWhere : r ∈ t.updateWhere p f hf ↔ ∃ r₀ ∈ t, (if p r₀ then f r₀ else r₀) = r := by
  rw [← mem_rows]
  simp [updateWhere]

omit [DecidableEq K] in
/-- A row outside the `WHERE` clause is kept. -/
theorem mem_updateWhere_of_not (hr : r ∈ t) (hp : p r = false) : r ∈ t.updateWhere p f hf :=
  mem_updateWhere.mpr ⟨r, hr, by simp [hp]⟩

omit [DecidableEq K] in
theorem mem_updateWhere_of (hr : r ∈ t) (hp : p r) : f r ∈ t.updateWhere p f hf :=
  mem_updateWhere.mpr ⟨r, hr, by simp [hp]⟩

@[simp] theorem has_updateWhere (t : Table key) (p : R → Bool) (f : R → R)
    (hf : ∀ r, key (f r) = key r) (k : K) : (t.updateWhere p f hf).has k = t.has k := by
  simp only [has, updateWhere, List.any_map]
  congr 1
  funext r
  by_cases hp : p r <;> simp [hp, hf]

theorem find?_updateWhere (t : Table key) (p : R → Bool) (f : R → R)
    (hf : ∀ r, key (f r) = key r) (k : K) :
    (t.updateWhere p f hf).find? k = (t.find? k).map (fun r => if p r then f r else r) := by
  simp only [find?, updateWhere, List.find?_map]
  congr 2
  funext r
  by_cases hp : p r <;> simp [hp, hf]

theorem find?_updateWhere_of_not (hf : ∀ r, key (f r) = key r)
    (hp : ∀ r ∈ t, key r = k → p r = false) : (t.updateWhere p f hf).find? k = t.find? k := by
  rw [find?_updateWhere]
  cases hfind : t.find? k with
  | none => rfl
  | some r =>
    obtain ⟨hr, hk⟩ := find?_eq_some_iff.mp hfind
    simp [hp r hr hk]

/-- `DELETE … WHERE`. -/
def deleteWhere (t : Table key) (p : R → Bool) : Table key where
  rows := t.rows.filter (fun r => !p r)
  nodup := t.nodup.sublist (List.filter_sublist.map key)

section Column

variable {X : Type} {g : R → X} {x : X} {t : Table key}

theorem column_of_mem {r : R} (hr : r ∈ t) : (t.find? (key r)).map g = some (g r) := by
  rw [find?_eq_some_iff.mpr ⟨hr, rfl⟩]
  rfl

theorem column_update_other (t : Table key) (p : R → Bool) {f : R → R}
    (hf : ∀ r, key (f r) = key r) (hg : ∀ r, g (f r) = g r) (k : K) :
    ((t.updateWhere p f hf).find? k).map g = (t.find? k).map g := by
  rw [find?_updateWhere, Option.map_map]
  congr 1
  funext r
  by_cases hp : p r <;> simp [hp, hg]

theorem column_updateKey (t : Table key) {f : R → R} (hf : ∀ r, key (f r) = key r)
    (hx : ∀ r, g (f r) = x) (target k : K) :
    ((t.updateWhere (fun r => key r = target) f hf).find? k).map g =
      if k = target then ((t.find? k).map g).map (fun _ => x) else (t.find? k).map g := by
  rw [find?_updateWhere]
  cases hfind : t.find? k with
  | none => simp
  | some r =>
    have hkey : key r = k := (find?_eq_some_iff.mp hfind).2
    by_cases htarget : k = target <;> simp [hkey, htarget, hx]

/-- A column after a batch update. -/
theorem column_updateBatch {batch : List R} (hbatch : ∀ r ∈ batch, r ∈ t) {f : R → R}
    (hf : ∀ r, key (f r) = key r) (hx : ∀ r, g (f r) = x) (k : K) :
    ((t.updateWhere (fun r => batch.any (fun b => key b = key r)) f hf).find? k).map g =
      if k ∈ batch.map key then some x else (t.find? k).map g := by
  rw [find?_updateWhere]
  by_cases hmem : k ∈ batch.map key
  · obtain ⟨b, hb, rfl⟩ := List.mem_map.mp hmem
    have hany : batch.any (fun c => key c = key b) :=
      List.any_eq_true.mpr ⟨b, hb, by simp⟩
    rw [find?_eq_some_iff.mpr ⟨hbatch b hb, rfl⟩, if_pos hmem]
    simp only [Option.map_some, hany, if_true, hx]
  · rw [if_neg hmem]
    cases hfind : t.find? k with
    | none => rfl
    | some r =>
      have hkey : key r = k := (find?_eq_some_iff.mp hfind).2
      have hany : batch.any (fun b => key b = key r) = false := by
        rw [List.any_eq_false]
        intro b hb heq
        exact hmem (List.mem_map.mpr ⟨b, hb, by simpa [hkey] using heq⟩)
      simp only [Option.map_some, hany, if_false, Bool.false_eq_true]

theorem column_insertNew {r : R} (hfresh : t.has (key r) = false) (k : K) :
    ((t.insertNew r).find? k).map g =
      if k = key r then some (g r) else (t.find? k).map g := by
  rw [find?_insertNew]
  by_cases hk : k = key r
  · have hnone : t.find? (key r) = none :=
      find?_eq_none_iff.mpr (has_eq_false_iff.mp hfresh)
    simp [hk, hnone]
  · have hk' : ¬ key r = k := fun h => hk h.symm
    simp [hk, hk']

end Column

end Table

section Reading

variable {R X Y ε : Type} {f : R → Except ε X} {rows : List R} {xs : List X}

/-- Reading rows back one by one: the first one is read, then the rest. -/
theorem mapM_cons_eq_ok {r : R} (hok : (r :: rows).mapM f = .ok xs) :
    ∃ x rest, f r = .ok x ∧ rows.mapM f = .ok rest ∧ xs = x :: rest := by
  rw [List.mapM_cons] at hok
  cases hr : f r with
  | error e => simp [hr, bind, Except.bind] at hok
  | ok x =>
    cases hrest : rows.mapM f with
    | error e => simp [hr, hrest, bind, Except.bind] at hok
    | ok rest =>
      simp only [hr, hrest, bind, Except.bind, pure, Except.pure, Except.ok.injEq] at hok
      exact ⟨x, rest, rfl, rfl, hok.symm⟩

theorem exists_of_mapM_ok (hok : rows.mapM f = .ok xs) {x : X} (hx : x ∈ xs) :
    ∃ r ∈ rows, f r = .ok x := by
  induction rows generalizing xs with
  | nil =>
    cases hok
    cases hx
  | cons r rows ih =>
    obtain ⟨y, rest, hr, hrest, rfl⟩ := mapM_cons_eq_ok hok
    rcases List.mem_cons.mp hx with rfl | hx
    · exact ⟨r, List.mem_cons_self, hr⟩
    · obtain ⟨r', hr', hread⟩ := ih hrest hx
      exact ⟨r', List.mem_cons_of_mem r hr', hread⟩

/-- What each reading keeps of its row, the list of readings keeps. -/
theorem map_of_mapM_ok {g : X → Y} {g' : R → Y} (hg : ∀ r x, f r = .ok x → g x = g' r)
    (hok : rows.mapM f = .ok xs) : xs.map g = rows.map g' := by
  induction rows generalizing xs with
  | nil =>
    cases hok
    rfl
  | cons r rows ih =>
    obtain ⟨x, rest, hr, hrest, rfl⟩ := mapM_cons_eq_ok hok
    rw [List.map_cons, List.map_cons, hg r x hr, ih hrest]

theorem mapM_ok_of_forall (hall : ∀ r ∈ rows, ∃ x, f r = .ok x) : ∃ xs, rows.mapM f = .ok xs := by
  induction rows with
  | nil => exact ⟨[], rfl⟩
  | cons r rows ih =>
    obtain ⟨x, hx⟩ := hall r List.mem_cons_self
    obtain ⟨xs, hxs⟩ := ih fun r' hr' => hall r' (List.mem_cons_of_mem r hr')
    refine ⟨x :: xs, ?_⟩
    rw [List.mapM_cons, hx, hxs]
    rfl

theorem mapM_error_of_mem {r : R} {e : ε} (hr : r ∈ rows) (herror : f r = .error e) :
    ∃ e', rows.mapM f = .error e' := by
  induction rows with
  | nil => cases hr
  | cons r' rows ih =>
    rw [List.mapM_cons]
    cases hr' : f r' with
    | error e' => exact ⟨e', rfl⟩
    | ok x =>
      rcases List.mem_cons.mp hr with rfl | hmem
      · rw [herror] at hr'
        cases hr'
      · obtain ⟨e', hrest⟩ := ih hmem
        exact ⟨e', by simp [hrest, bind, Except.bind]⟩

theorem foldlM_ok_invariant {σ : Type} {P : σ → Prop} {turn : σ → R → Except ε σ}
    (hturn : ∀ s r s', turn s r = .ok s' → P s → P s') {s s' : σ} (hs : P s)
    (hok : rows.foldlM turn s = .ok s') : P s' := by
  induction rows generalizing s with
  | nil =>
    cases hok
    exact hs
  | cons r rows ih =>
    rw [List.foldlM_cons] at hok
    cases hfirst : turn s r with
    | error e => simp [hfirst, bind, Except.bind] at hok
    | ok s₁ =>
      simp only [hfirst, bind, Except.bind] at hok
      exact ih (hturn s r s₁ hfirst hs) hok

end Reading

section Ordering

variable {R K : Type} [LT K] [DecidableLT K] [DecidableEq K]
  {p : R → Bool} {rank : R → K} {tie : R → Nat} {rows : List R}

/-- `SELECT … WHERE p ORDER BY rank LIMIT n`; the database orders equal ranks by `tie`. -/
def selectOrdered (p : R → Bool) (rank : R → K) (tie : R → Nat) (n : Nat)
    (rows : List R) : List R :=
  ((rows.filter p).insertionSort
    (fun a b => rank a < rank b ∨ (rank a = rank b ∧ tie a ≤ tie b))).take n

theorem mem_of_mem_selectOrdered {r : R} (hr : r ∈ selectOrdered p rank tie n rows) :
    r ∈ rows ∧ p r := by
  have hsorted := List.mem_of_mem_take hr
  rw [List.mem_insertionSort] at hsorted
  exact List.mem_filter.mp hsorted

/-- A query without a limit returns all the rows that it asks for. -/
theorem mem_selectOrdered_iff {r : R} :
    r ∈ selectOrdered p rank tie rows.length rows ↔ r ∈ rows ∧ p r := by
  unfold selectOrdered
  rw [List.take_of_length_le]
  · rw [List.mem_insertionSort, List.mem_filter]
  · rw [List.length_insertionSort]
    exact List.length_filter_le p rows

theorem nodup_map_selectOrdered {g : R → X} (hnodup : (rows.map g).Nodup) :
    ((selectOrdered p rank tie n rows).map g).Nodup := by
  have hfilter : ((rows.filter p).map g).Nodup :=
    hnodup.sublist (List.filter_sublist.map g)
  have hsorted := ((List.perm_insertionSort
    (fun a b => rank a < rank b ∨ (rank a = rank b ∧ tie a ≤ tie b))
    (rows.filter p)).map g).nodup_iff.mpr hfilter
  exact hsorted.sublist ((List.take_sublist n _).map g)

theorem selectOrdered_ne_nil {r : R} (hr : r ∈ rows) (hp : p r) (hn : 0 < n) :
    selectOrdered p rank tie n rows ≠ [] := by
  intro hnil
  have hmem : r ∈ rows.filter p := List.mem_filter.mpr ⟨hr, hp⟩
  rcases List.take_eq_nil_iff.mp hnil with hzero | hsorted
  · omega
  · rw [← List.mem_insertionSort
      (fun a b => rank a < rank b ∨ (rank a = rank b ∧ tie a ≤ tie b)), hsorted] at hmem
    cases hmem

end Ordering

section LaterRows

variable {R : Type} {r : R → R → Prop} [DecidableRel r] {back : List R}

private theorem orderedInsert_append_of_le {a : R} {front : List R} (hback : ∀ b ∈ back, r a b) :
    (front ++ back).orderedInsert r a = front.orderedInsert r a ++ back := by
  induction front with
  | nil =>
    cases back with
    | nil => rfl
    | cons b back => simp [hback b List.mem_cons_self]
  | cons c front ih =>
    by_cases hc : r a c
    · simp [hc]
    · simp [hc, ih]

private theorem orderedInsert_append_of_not_le {a : R} {front : List R}
    (hfront : ∀ b ∈ front, ¬ r a b) :
    (front ++ back).orderedInsert r a = front ++ back.orderedInsert r a := by
  induction front with
  | nil => rfl
  | cons c front ih =>
    have hc := hfront c List.mem_cons_self
    simp [hc, ih fun b hb => hfront b (List.mem_cons_of_mem c hb)]

/-- Rows that a wider condition adds behind all the others are sorted behind
them. -/
theorem insertionSort_filter_append {p p' : R → Bool} {rows : List R}
    (hwider : ∀ a ∈ rows, p a → p' a)
    (hlater : ∀ a ∈ rows, ∀ b ∈ rows, p a → p b = false → p' b → r a b ∧ ¬ r b a) :
    (rows.filter p').insertionSort r = (rows.filter p).insertionSort r ++
      (rows.filter (fun a => p' a && !p a)).insertionSort r := by
  induction rows with
  | nil => rfl
  | cons a rows ih =>
    have hrest := ih (fun b hb => hwider b (List.mem_cons_of_mem a hb))
      fun b hb c hc => hlater b (List.mem_cons_of_mem a hb) c (List.mem_cons_of_mem a hc)
    have ha := List.mem_cons_self (a := a) (l := rows)
    cases hp : p a with
    | true =>
      have hp' := hwider a ha hp
      simp only [List.filter_cons, hp, hp', Bool.not_true, Bool.and_false, if_true,
        List.insertionSort_cons, Bool.false_eq_true, if_false, hrest]
      apply orderedInsert_append_of_le
      intro b hb
      rw [List.mem_insertionSort, List.mem_filter, Bool.and_eq_true, Bool.not_eq_true'] at hb
      exact (hlater a ha b (List.mem_cons_of_mem a hb.1) hp hb.2.2 hb.2.1).1
    | false =>
      cases hp' : p' a with
      | false => simpa [List.filter_cons, hp, hp'] using hrest
      | true =>
        simp only [List.filter_cons, hp, hp', Bool.not_false, Bool.and_true, if_true,
          List.insertionSort_cons, Bool.false_eq_true, if_false, hrest]
        apply orderedInsert_append_of_not_le
        intro b hb
        rw [List.mem_insertionSort, List.mem_filter] at hb
        exact (hlater b (List.mem_cons_of_mem a hb.1) a ha hb.2 hp hp').2

end LaterRows

/-- A query that is widened by rows of a higher rank still returns what it
returned. -/
theorem mem_selectOrdered_of_later {R K : Type} [LinearOrder K] {p p' : R → Bool} {rank : R → K}
    {tie : R → Nat} {rows : List R} {a : R} (hwider : ∀ a ∈ rows, p a → p' a)
    (hlater : ∀ a ∈ rows, ∀ b ∈ rows, p a → p b = false → p' b → rank a < rank b)
    (ha : a ∈ selectOrdered p rank tie n rows) : a ∈ selectOrdered p' rank tie n rows := by
  unfold selectOrdered at ha ⊢
  rw [insertionSort_filter_append hwider]
  · rw [List.take_append]
    exact List.mem_append_left _ ha
  · intro a ha b hb hpa hpb hpb'
    have hlt := hlater a ha b hb hpa hpb hpb'
    refine ⟨Or.inl hlt, ?_⟩
    rintro (hgt | ⟨heq, _⟩)
    · exact absurd hlt (lt_asymm hgt)
    · exact absurd hlt (by rw [heq]; exact lt_irrefl _)

section Head

variable {R K : Type} [LinearOrder K] {p : R → Bool} {rank : R → K} {tie : R → Nat} {rows : List R}

/-- A query takes the first of the rows that it asks for, in their order. -/
private theorem selectOrdered_spec (p : R → Bool) (rank : R → K) (tie : R → Nat) (rows : List R) :
    ∃ sorted : List R, (∀ n, selectOrdered p rank tie n rows = sorted.take n) ∧
      (∀ r, r ∈ sorted ↔ r ∈ rows ∧ p r) ∧
      sorted.Pairwise (fun a b => rank a < rank b ∨ (rank a = rank b ∧ tie a ≤ tie b)) := by
  have hlex : ∀ a b : R, (rank a < rank b ∨ (rank a = rank b ∧ tie a ≤ tie b)) ↔
      toLex (rank a, tie a) ≤ toLex (rank b, tie b) :=
    fun a b => by rw [Prod.Lex.toLex_le_toLex]
  have htotal : Std.Total (fun a b : R => rank a < rank b ∨ (rank a = rank b ∧ tie a ≤ tie b)) :=
    ⟨fun a b => by simpa only [hlex] using le_total _ _⟩
  have htrans : IsTrans R (fun a b => rank a < rank b ∨ (rank a = rank b ∧ tie a ≤ tie b)) :=
    ⟨fun a b c => by simpa only [hlex] using le_trans⟩
  refine ⟨_, fun _ => rfl, fun r => ?_, List.pairwise_insertionSort _ _⟩
  rw [List.mem_insertionSort, List.mem_filter]

/-- A query that leaves a row out is full, of rows that come no later. -/
theorem selectOrdered_full {r : R} (hr : r ∈ rows) (hp : p r)
    (hout : r ∉ selectOrdered p rank tie n rows) :
    (selectOrdered p rank tie n rows).length = n ∧
      ∀ x ∈ selectOrdered p rank tie n rows, rank x ≤ rank r := by
  obtain ⟨sorted, htake, hmem, hsorted⟩ := selectOrdered_spec p rank tie rows
  have hr := (hmem r).mpr ⟨hr, hp⟩
  rw [htake] at hout ⊢
  rw [← List.take_append_drop n sorted] at hsorted hr
  have hdrop : r ∈ sorted.drop n := (List.mem_append.mp hr).resolve_left hout
  constructor
  · have hlength := List.length_pos_of_mem hdrop
    rw [List.length_drop] at hlength
    rw [List.length_take]
    omega
  · intro x hx
    rcases (List.pairwise_append.mp hsorted).2.2 x hx r hdrop with hlt | ⟨heq, _⟩
    · exact le_of_lt hlt
    · exact le_of_eq heq

/-- What comes before a row of the first rows of a query is among these rows. -/
theorem mem_front_of_before {front : List R} {r x : R}
    (hfront : front <+: selectOrdered p rank tie n rows) (hr : r ∈ front) (hx : x ∈ rows) (hp : p x)
    (hbefore : rank x < rank r ∨ (rank x = rank r ∧ tie x < tie r)) : x ∈ front := by
  obtain ⟨sorted, htake, hmem, hsorted⟩ := selectOrdered_spec p rank tie rows
  have hx := (hmem x).mpr ⟨hx, hp⟩
  rw [htake] at hfront
  obtain ⟨back, hback⟩ := hfront.trans ( List.take_prefix n sorted)
  rw [← hback] at hsorted hx
  rcases List.mem_append.mp hx with hin | hlater
  · exact hin
  · rcases (List.pairwise_append.mp hsorted).2.2 r hr x hlater with hlt | ⟨heq, htie⟩
    · rcases hbefore with hgt | ⟨heq, _⟩
      · exact absurd hlt (lt_asymm hgt)
      · exact absurd hlt (by rw [heq]; exact lt_irrefl _)
    · rcases hbefore with hgt | ⟨_, htie'⟩
      · exact absurd hgt (by rw [heq]; exact lt_irrefl _)
      · omega

theorem head?_selectOrdered {r : R} (hr : (selectOrdered p rank tie 1 rows).head? = some r) :
    r ∈ rows ∧ p r ∧ ∀ r' ∈ rows, p r' → rank r ≤ rank r' := by
  obtain ⟨sorted, htake, hmem, hsorted⟩ := selectOrdered_spec p rank tie rows
  rw [htake] at hr
  cases sorted with
  | nil => cases hr
  | cons first rest =>
    obtain rfl : first = r := Option.some.inj hr
    obtain ⟨hr, hp⟩ := (hmem first).mp List.mem_cons_self
    refine ⟨hr, hp, fun r' hr' hp' => ?_⟩
    rcases List.mem_cons.mp ((hmem r').mpr ⟨hr', hp'⟩) with rfl | hrest
    · exact le_refl _
    · rcases (List.pairwise_cons.mp hsorted).1 r' hrest with hlt | ⟨heq, _⟩
      · exact le_of_lt hlt
      · exact le_of_eq heq

theorem head?_selectOrdered_eq_none (hnone : (selectOrdered p rank tie 1 rows).head? = none)
    {r : R} (hr : r ∈ rows) : p r = false := by
  cases hp : p r with
  | false => rfl
  | true =>
    have hempty := List.head?_eq_none_iff.mp hnone
    exact absurd hempty (selectOrdered_ne_nil hr hp (by decide))

end Head

section Distinct

variable {R : Type} [BEq R] [LawfulBEq R]

theorem nodup_eraseDups : ∀ rows : List R, rows.eraseDups.Nodup
  | [] => by simp
  | r :: rows => by
    rw [List.eraseDups_cons, List.nodup_cons]
    exact ⟨by simp, nodup_eraseDups (rows.filter fun r' => !r' == r)⟩
termination_by rows => rows.length
decreasing_by exact Nat.lt_succ_of_le (List.length_filter_le _ _)

theorem eraseDups_of_nodup {rows : List R} (hnodup : rows.Nodup) : rows.eraseDups = rows := by
  induction rows with
  | nil => rfl
  | cons r rows ih =>
    obtain ⟨hr, hrows⟩ := List.nodup_cons.mp hnodup
    have hall : rows.filter (fun r' => !r' == r) = rows := by
      refine List.filter_eq_self.mpr fun r' hr' => ?_
      have hne : r' ≠ r := fun heq => hr (heq ▸ hr')
      simp [hne]
    rw [List.eraseDups_cons, hall, ih hrows]

end Distinct

section Counting

variable {R K : Type} {key : R → K} {update : R → R}

/-- Updates that take rows out of a selection leave no more of them. -/
theorem countP_map_le {p : R → Bool} (hupdate : ∀ r, p (update r) → p r)
    (rows : List R) : (rows.map update).countP p ≤ rows.countP p := by
  rw [List.countP_map]
  exact List.countP_mono_left fun r _ hr => hupdate r hr

theorem countP_map_of_forall {p : R → Bool} {rows : List R}
    (hupdate : ∀ r ∈ rows, p (update r) = p r) : (rows.map update).countP p = rows.countP p := by
  rw [List.countP_map]
  exact List.countP_congr fun r hr => by simp [hupdate r hr]

/-- An update of one row that takes it out of a selection. -/
theorem countP_map_out {p : R → Bool} {rows : List R} {r : R} (hnodup : (rows.map key).Nodup)
    (hr : r ∈ rows) (hother : ∀ r' ∈ rows, key r' ≠ key r → update r' = r') (hin : p r)
    (hout : p (update r) = false) : (rows.map update).countP p + 1 = rows.countP p := by
  induction rows with
  | nil => cases hr
  | cons first rest ih =>
    obtain ⟨hfirst, hrest⟩ := List.nodup_cons.mp hnodup
    rcases List.mem_cons.mp hr with rfl | hr
    · have hsame : ∀ r' ∈ rest, p (update r') = p r' := by
        intro r' hr'
        rw [hother r' (List.mem_cons_of_mem _ hr')]
        intro heq
        exact hfirst (heq ▸ List.mem_map_of_mem hr')
      have hcount := countP_map_of_forall hsame
      simp only [List.map_cons, List.countP_cons, hin, hout, hcount]
      simp
    · have hne : key first ≠ key r := fun heq => hfirst (heq ▸ List.mem_map_of_mem hr)
      have hcount := ih hrest hr fun r' hr' => hother r' (List.mem_cons_of_mem _ hr')
      simp only [List.map_cons, List.countP_cons, hother first List.mem_cons_self hne]
      omega

end Counting

end Transact
