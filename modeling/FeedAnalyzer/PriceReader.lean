import FeedAnalyzer.Binary64
import FeedAnalyzer.Messages

/-!
# The price gate's reader

`PriceReader` is meant never to raise into the close sweep.  It handles `httpx.HTTPError`
around the request and `InvalidOperation` around the parsing of one close; a body that is
no JSON, and what the mean, the product and the comparisons signal, lie outside both.

`Decimal` is Python's, under the default context: 28 digits, with traps for invalid
operations and overflows.
-/

namespace Prediction

open Feed

/-- A `Decimal`, up to the sign of a zero and the payload of a NaN. -/
inductive Decimal where
  | finite (x : ℚ)
  | infinity (negative : Bool)
  | nan (signalling : Bool)
deriving DecidableEq

/-- The signals that are trapped; no division here is by zero. -/
inductive Signal where
  | invalidOperation
  | overflow
deriving DecidableEq

namespace Decimal

def emax : ℕ := 999999

/-- The exponent of the last of the 28 digits around `x`. -/
def exponent (x : ℚ) : ℤ := max (Int.log 10 |x|) (-emax) - 27

/-- The decimal nearest to `x`, a tie to the even one. -/
def roundDigits (x : ℚ) : ℚ := roundHalfEven (x / 10 ^ exponent x) * 10 ^ exponent x

/-- The rounded number is below the overflow threshold. -/
def InRange (x : ℚ) : Prop := |roundDigits x| < 10 ^ (emax + 1)

instance (x : ℚ) : Decidable (InRange x) := inferInstanceAs (Decidable (_ < _))

/-- The result of an operation on finite numbers. -/
def finalize (x : ℚ) : Except Signal Decimal :=
  if InRange x then .ok (.finite (roundDigits x)) else .error .overflow

def add : Decimal → Decimal → Except Signal Decimal
  | .nan true, _ | _, .nan true => .error .invalidOperation
  | .nan false, _ | _, .nan false => .ok (.nan false)
  | .infinity a, .infinity b => if a = b then .ok (.infinity a) else .error .invalidOperation
  | .infinity a, .finite _ | .finite _, .infinity a => .ok (.infinity a)
  | .finite x, .finite y => finalize (x + y)

def mul : Decimal → Decimal → Except Signal Decimal
  | .nan true, _ | _, .nan true => .error .invalidOperation
  | .nan false, _ | _, .nan false => .ok (.nan false)
  | .infinity a, .infinity b => .ok (.infinity (a != b))
  | .infinity a, .finite x | .finite x, .infinity a =>
    if x = 0 then .error .invalidOperation else .ok (.infinity (a != (x < 0 : Bool)))
  | .finite x, .finite y => finalize (x * y)

/-- `a <= b`, which signals for every NaN. -/
def le : Decimal → Decimal → Except Signal Bool
  | .nan _, _ | _, .nan _ => .error .invalidOperation
  | .infinity a, .infinity b => .ok (a || !b)
  | .infinity a, .finite _ => .ok a
  | .finite _, .infinity b => .ok (!b)
  | .finite x, .finite y => .ok (x ≤ y)

def value? : Decimal → Option ℚ
  | .finite x => some x
  | _ => none

def average (values : List ℚ) : ℚ := values.sum / values.length

/-- `statistics.mean`: the exact mean, rounded, or the sum of the numbers that are not
finite. -/
def mean (xs : List Decimal) : Except Signal Decimal :=
  match xs.filter (fun x => x.value? = none) with
  | [] => finalize (average (xs.filterMap value?))
  | specials => specials.foldlM add (.finite 0)

/-- The zeros of Unicode's decimal digits. -/
def zeros : List ℕ :=
  [0x30, 0x660, 0x6f0, 0x7c0, 0x966, 0x9e6, 0xa66, 0xae6, 0xb66, 0xbe6, 0xc66, 0xce6, 0xd66, 0xde6,
    0xe50, 0xed0, 0xf20, 0x1040, 0x1090, 0x17e0, 0x1810, 0x1946, 0x19d0, 0x1a80, 0x1a90, 0x1b50,
    0x1bb0, 0x1c40, 0x1c50, 0xa620, 0xa8d0, 0xa900, 0xa9d0, 0xa9f0, 0xaa50, 0xabf0, 0xff10, 0x104a0,
    0x10d30, 0x11066, 0x110f0, 0x11136, 0x111d0, 0x112f0, 0x11450, 0x114d0, 0x11650, 0x116c0,
    0x11730, 0x118e0, 0x11950, 0x11c50, 0x11d50, 0x11da0, 0x11f50, 0x16a60, 0x16ac0, 0x16b50,
    0x1d7ce, 0x1d7d8, 0x1d7e2, 0x1d7ec, 0x1d7f6, 0x1e140, 0x1e2f0, 0x1e4f0, 0x1e950, 0x1fbf0]

def isSpace (c : Char) : Bool := isWhiteSpace c || (28 ≤ c.toNat && c.toNat ≤ 31)

/-- One character: a digit, or an ASCII character in lower case. -/
def plainChar (c : Char) : Option Char :=
  match zeros.find? (fun first => first ≤ c.toNat ∧ c.toNat < first + 10) with
  | some first => some (Nat.digitChar (c.toNat - first))
  | none => if 0 < c.toNat ∧ c.toNat < 128 then some c.toLower else none

def digits? (text : List Char) : Option ℕ :=
  if text ≠ [] ∧ text.all Char.isDigit then
    some (text.foldl (fun n c => 10 * n + (c.toNat - 48)) 0)
  else none

def splitSign : List Char → Bool × List Char
  | '-' :: rest => (true, rest)
  | '+' :: rest => (false, rest)
  | text => (false, text)

/-- A number with an optional point and exponent. -/
def number? (text : List Char) : Option ℚ := do
  let (mantissa, scaled, power) := Text.partition ['e'] text
  let (whole, _, fraction) := Text.partition ['.'] mantissa
  let coefficient ← digits? (whole ++ fraction)
  let (negative, power) := splitSign power
  let power ← if scaled then digits? power else some 0
  let lowest : ℤ := (if negative then -(power : ℤ) else power) - fraction.length
  if -1999999999999999997 ≤ lowest ∧ lowest + Nat.log 10 coefficient ≤ 999999999999999999 then
    some (coefficient * 10 ^ lowest)
  else none

/-- `Decimal(text)`, with `none` for `InvalidOperation`. -/
def ofText (text : String) : Option Decimal := do
  let plain ← ((Text.strip isSpace text.toList).filter (· ≠ '_')).mapM plainChar
  let (negative, body) := splitSign plain
  let isNan (name : List Char) : Bool := name.isPrefixOf body &&
    (body.drop name.length).all Char.isDigit
  if body ∈ ["inf".toList, "infinity".toList] then some (.infinity negative)
  else if isNan "nan".toList then some (.nan false)
  else if isNan "snan".toList then some (.nan true)
  else (number? body).map fun x => .finite (if negative then -x else x)

end Decimal

/-- A float is given by the number that its `str` writes. -/
inductive JsonValue where
  | null
  | bool (b : Bool)
  | int (n : ℤ)
  | float (x : ℚ)
  | infinity (negative : Bool)
  | nan
  | string (text : String)
  | list (items : List JsonValue)
  | dict (fields : List (String × JsonValue))

/-- `UnicodeDecodeError`, `JSONDecodeError`, the `ValueError` of an integer with more than
4300 digits, or `RecursionError`. -/
inductive JsonError where
  | unicode
  | decode
  | intDigits
  | recursion
deriving DecidableEq

/-- An `httpx.HTTPError`, or a response with what its body decodes to. -/
inductive HttpAnswer where
  | failed
  | response (status : ℕ) (json : Except JsonError JsonValue)

inductive ReadError where
  | httpError
  | json (e : JsonError)
  | decimal (signal : Signal)
deriving DecidableEq

/-- `price_elevated_threshold_pct` is a float that is not negative. -/
structure PriceReader where
  threshold : Decimal
  threshold_float : threshold = .infinity false ∨
    ∃ t, 0 ≤ t ∧ t ≤ 10 ^ 309 ∧ threshold = .finite t

/-- `Decimal(str(value))`; the `str` of no other value is a number. -/
def decimalOf : JsonValue → Option Decimal
  | .int n => some (.finite n)
  | .float x => some (.finite x)
  | .infinity negative => some (.infinity negative)
  | .nan => some (.nan false)
  | .string text => Decimal.ofText text
  | _ => none

/-- One item; `KeyError` and `InvalidOperation` are handled alike. -/
def parseClose : JsonValue → Option Decimal
  | .dict fields => (fields.lookup "close").bind decimalOf
  | _ => none

def parseCloses : JsonValue → List Decimal
  | .dict fields =>
    match fields.lookup "closes" with
    | some (.list items) => (items.mapM parseClose).getD []
    | _ => []
  | _ => []

/-- The calls inside the `try`. -/
def fetch : HttpAnswer → Except ReadError JsonValue
  | .failed => .error .httpError
  | .response status json => if status / 100 = 2 then json.mapError .json else .error .httpError

def readCloses (answer : HttpAnswer) : Except ReadError (List Decimal) :=
  match fetch answer with
  | .ok payload => .ok (parseCloses payload)
  | .error .httpError => .ok []
  | .error e => .error e

def isPriceAvailable (answer : HttpAnswer) : Except ReadError Bool := do
  return 1 ≤ (← readCloses answer).length

namespace PriceReader

variable (reader : PriceReader)

/-- `baseline_mean * (Decimal(1) + self._threshold)`. -/
def bound (baselineMean : Decimal) : Except Signal Decimal := do
  baselineMean.mul (← (Decimal.finite 1).add reader.threshold)

/-- The tests that follow the mean. -/
def exceeds (latest baselineMean : Decimal) : Except Signal Bool := do
  if ← baselineMean.le (.finite 0) then return false
  -- `latest > bound`
  return !(← latest.le (← reader.bound baselineMean))

def compare : List Decimal → Except Signal Bool
  | latest :: prior :: earlier => do reader.exceeds latest (← Decimal.mean (prior :: earlier))
  | _ => .ok false

def isElevated (answer : HttpAnswer) : Except ReadError Bool := do
  (reader.compare (← readCloses answer)).mapError .decimal

end PriceReader

namespace Decimal

variable {x : ℚ}

/-- A number from `1` to a power of ten stays there. -/
theorem roundDigits_mem {n : ℕ} (hone : 1 ≤ x) (hx : x ≤ 10 ^ n) :
    0 < roundDigits x ∧ roundDigits x ≤ 10 ^ n := by
  have hpos : 0 < x := by linarith
  have hlow := Int.zpow_log_le_self (b := 10) (by norm_num) hpos
  have hlog : 0 ≤ Int.log 10 x := by
    have hmono := Int.log_mono_right (b := 10) one_pos hone
    rwa [Int.log_one_right] at hmono
  have hexp : exponent x = Int.log 10 x - 27 := by
    unfold exponent emax
    rw [abs_of_pos hpos]
    omega
  have hle : Int.log 10 x ≤ n := by
    have hmono := Int.log_mono_right (b := 10) hpos hx
    have hpow := Int.log_zpow (R := ℚ) (b := 10) (by norm_num) n
    push_cast [zpow_natCast] at hpow
    rwa [hpow] at hmono
  have hunit : (0 : ℚ) < 10 ^ exponent x := zpow_pos (by norm_num) _
  obtain ⟨k, hk⟩ := Int.le.dest (show exponent x ≤ n by omega)
  have hscaled : x / 10 ^ exponent x ≤ ((10 ^ k : ℤ) : ℚ) := by
    rw [div_le_iff₀ hunit]
    push_cast
    rw [← zpow_natCast, ← zpow_add₀ (by norm_num), add_comm, hk, zpow_natCast]
    exact hx
  have hbits : ((1 : ℤ) : ℚ) ≤ x / 10 ^ exponent x := by
    rw [le_div_iff₀ hunit, Int.cast_one, one_mul]
    refine le_trans (zpow_le_zpow_right₀ (by norm_num) ?_) hlow
    omega
  obtain ⟨hfrom, hto⟩ := roundHalfEven_mem hbits hscaled
  constructor
  · exact mul_pos (by exact_mod_cast hfrom) hunit
  · calc roundDigits x ≤ 10 ^ k * 10 ^ exponent x :=
          mul_le_mul_of_nonneg_right (by exact_mod_cast hto) hunit.le
      _ = 10 ^ n := by
          rw [← zpow_natCast, ← zpow_add₀ (by norm_num), add_comm, hk, zpow_natCast]

/-- The mean and the sums can be ordered: no exception, and no NaN. -/
def Ordered (result : Except Signal Decimal) (m : Decimal) : Prop :=
  result = .ok m ∧ ∀ signalling, m ≠ .nan signalling

theorem add_nan (y : Decimal) : (nan false).add y = .ok (.nan false) ∨
    (nan false).add y = .error .invalidOperation := by
  rcases y with x | a | (_ | _) <;> simp [add]

/-- A NaN stays one, or raises. -/
theorem not_ordered_of_nan (xs : List Decimal) (m : Decimal) :
    ¬ Ordered (xs.foldlM add (.nan false)) m := by
  induction xs with
  | nil => exact fun h => h.2 false (Except.ok.inj h.1).symm
  | cons y rest ih =>
    rw [List.foldlM_cons]
    rcases add_nan y with hadd | hadd <;> rw [hadd]
    · exact ih
    · exact fun h => nomatch h.1

/-- Only the same infinity can be added to an infinity. -/
theorem ordered_infinity_iff {xs : List Decimal} (hspecial : ∀ y ∈ xs, y.value? = none)
    (negative : Bool) (m : Decimal) : Ordered (xs.foldlM add (.infinity negative)) m ↔
      m = .infinity negative ∧ ∀ y ∈ xs, y = .infinity negative := by
  induction xs with
  | nil =>
    constructor
    · exact fun h => ⟨(Except.ok.inj h.1).symm, nofun⟩
    · rintro ⟨rfl, -⟩
      exact ⟨rfl, nofun⟩
  | cons y rest ih =>
    obtain ⟨hy, hrest⟩ := List.forall_mem_cons.mp hspecial
    rw [List.foldlM_cons, List.forall_mem_cons]
    rcases y with x | a | (_ | _)
    · cases hy
    · by_cases hsame : negative = a
      · subst hsame
        simp only [add, if_true, true_and]
        exact ih hrest
      · simp only [add, if_neg hsame, Ordered]
        exact iff_of_false (fun h => nomatch h.1) fun h => hsame (infinity.inj h.2.1).symm
    · exact iff_of_false (not_ordered_of_nan rest m) fun h => nomatch h.2.1
    · exact iff_of_false (fun h => nomatch h.1) fun h => nomatch h.2.1

/-- The sum of numbers that are not finite. -/
theorem ordered_specials_iff {y : Decimal} {rest : List Decimal}
    (hspecial : ∀ z ∈ y :: rest, z.value? = none) (m : Decimal) :
    Ordered ((y :: rest).foldlM add (.finite 0)) m ↔ ∃ negative,
      (∀ z ∈ y :: rest, z = .infinity negative) ∧ m = .infinity negative := by
  obtain ⟨hy, hrest⟩ := List.forall_mem_cons.mp hspecial
  simp only [List.foldlM_cons, List.forall_mem_cons]
  rcases y with x | a | (_ | _)
  · cases hy
  · simp only [infinity.injEq, and_assoc, exists_eq_left']
    exact (ordered_infinity_iff hrest a m).trans and_comm
  · exact iff_of_false (not_ordered_of_nan rest m) fun ⟨_, h⟩ => nomatch h.1.1
  · exact iff_of_false (fun h => nomatch h.1) fun ⟨_, h⟩ => nomatch h.1.1

theorem ordered_finalize_iff (x : ℚ) (m : Decimal) :
    Ordered (finalize x) m ↔ InRange x ∧ m = .finite (roundDigits x) := by
  unfold finalize
  split
  · next hrange =>
    constructor
    · exact fun h => ⟨hrange, (Except.ok.inj h.1).symm⟩
    · rintro ⟨-, rfl⟩
      exact ⟨rfl, nofun⟩
  · next hrange => exact iff_of_false (fun h => nomatch h.1) fun h => hrange h.1

theorem map_filterMap_value? {xs : List Decimal} (hfinite : ∀ y ∈ xs, y.value? ≠ none) :
    (xs.filterMap value?).map finite = xs := by
  induction xs with
  | nil => rfl
  | cons y rest ih =>
    obtain ⟨hy, hrest⟩ := List.forall_mem_cons.mp hfinite
    cases y with
    | finite x => exact congrArg (finite x :: ·) (ih hrest)
    | _ => exact absurd rfl hy

/-- **When a mean can be ordered.**  The numbers are finite and their mean does not
overflow, or some are infinite, and all of these with one sign. -/
theorem ordered_mean_iff (xs : List Decimal) (m : Decimal) : Ordered (mean xs) m ↔
    (∃ values : List ℚ, xs = values.map .finite ∧ InRange (average values) ∧
      m = .finite (roundDigits (average values))) ∨
    ∃ negative, .infinity negative ∈ xs ∧
      (∀ y ∈ xs, y.value? = none → y = .infinity negative) ∧ m = .infinity negative := by
  have hmem : ∀ y, y ∈ xs.filter (fun y => y.value? = none) ↔ y ∈ xs ∧ y.value? = none := by simp
  unfold mean
  cases hspecials : xs.filter (fun y => y.value? = none) with
  | nil =>
    rw [hspecials] at hmem
    have hfinite : ∀ y ∈ xs, y.value? ≠ none := fun y hy hnone =>
      List.not_mem_nil ((hmem y).mpr ⟨hy, hnone⟩)
    have hvalues : ∀ values : List ℚ, xs = values.map .finite ↔ values = xs.filterMap value? := by
      intro values
      constructor
      · rintro rfl
        simp [List.filterMap_map, Function.comp_def, value?]
      · rintro rfl
        exact (map_filterMap_value? hfinite).symm
    have hinfinity : ∀ negative, .infinity negative ∉ xs := fun negative hin => hfinite _ hin rfl
    simp only [hvalues, exists_eq_left, hinfinity, false_and, exists_false, or_false]
    exact ordered_finalize_iff _ m
  | cons y rest =>
    rw [hspecials] at hmem
    obtain ⟨hy, hnone⟩ := (hmem y).mp List.mem_cons_self
    have hfinite : ∀ values : List ℚ, xs ≠ values.map .finite := by
      rintro values rfl
      obtain ⟨x, _, rfl⟩ := List.mem_map.mp hy
      cases hnone
    simp only [hfinite, false_and, exists_false, false_or]
    refine (ordered_specials_iff (fun z hz => ((hmem z).mp hz).2) m).trans
      (exists_congr fun negative => ?_)
    constructor
    · rintro ⟨hall, hm⟩
      exact ⟨hall y List.mem_cons_self ▸ hy, fun z hz hspecial =>
        hall z ((hmem z).mpr ⟨hz, hspecial⟩), hm⟩
    · rintro ⟨_, hall, hm⟩
      exact ⟨fun z hz => hall z ((hmem z).mp hz).1 ((hmem z).mp hz).2, hm⟩

end Decimal

namespace PriceReader

open Decimal

variable (reader : PriceReader)

/-- The earlier closes are finite with a mean that does not overflow, or all that are not
are the same infinity.  Where the mean is positive, the latest is no NaN, and the bound does
not overflow. -/
def Comparable : List Decimal → Prop
  | latest :: prior :: earlier =>
    (∃ values : List ℚ, prior :: earlier = values.map .finite ∧ InRange (average values) ∧
      (0 < roundDigits (average values) → (∀ signalling, latest ≠ .nan signalling) ∧
        ∀ t, reader.threshold = .finite t →
          InRange (roundDigits (average values) * roundDigits (1 + t)))) ∨
    ∃ negative, .infinity negative ∈ prior :: earlier ∧
      (∀ y ∈ prior :: earlier, y.value? = none → y = .infinity negative) ∧
      (negative = false → ∀ signalling, latest ≠ .nan signalling)
  | _ => True

/-- `Decimal(1) + threshold` is a positive number or infinite. -/
theorem factor_eq : (reader.threshold = .infinity false ∧
      (finite 1).add reader.threshold = .ok (.infinity false)) ∨
    ∃ t, reader.threshold = .finite t ∧ 0 < roundDigits (1 + t) ∧
      (finite 1).add reader.threshold = .ok (.finite (roundDigits (1 + t))) := by
  rcases reader.threshold_float with hthreshold | ⟨t, hnonneg, hle, hthreshold⟩
  · exact Or.inl ⟨hthreshold, by rw [hthreshold]; rfl⟩
  · have hpow : (1 : ℚ) + t ≤ 10 ^ 310 := by
      calc 1 + t ≤ 10 ^ 309 + 10 ^ 309 := add_le_add (one_le_pow₀ (by norm_num)) hle
        _ = 10 ^ 309 * 2 := (mul_two _).symm
        _ ≤ 10 ^ 309 * 10 := mul_le_mul_of_nonneg_left (by norm_num) (by positivity)
        _ = 10 ^ 310 := (pow_succ _ _).symm
    obtain ⟨hpos, hround⟩ := roundDigits_mem (le_add_of_nonneg_right hnonneg) hpow
    have hrange : InRange (1 + t) := by
      unfold InRange
      rw [abs_of_pos hpos]
      exact hround.trans_lt (pow_lt_pow_right₀ (by norm_num) (by decide))
    refine Or.inr ⟨t, hthreshold, hpos, ?_⟩
    rw [hthreshold]
    exact if_pos hrange

variable {latest : Decimal}

/-- Where the mean is positive, the bound and the latest close have to be ordered. -/
theorem exceeds_positive_iff {m : Decimal} (hpos : m.le (.finite 0) = .ok false) :
    (∃ elevated, reader.exceeds latest m = .ok elevated) ↔
      (∀ signalling, latest ≠ .nan signalling) ∧ ∃ b, Ordered (reader.bound m) b := by
  unfold exceeds Ordered
  rw [hpos]
  cases hbound : reader.bound m with
  | error signal => simp [Bind.bind, Except.bind]
  | ok b =>
    cases b <;> cases latest <;> simp [Bind.bind, Except.bind, pure, Except.pure, le, le_or_gt]

theorem bound_infinity : reader.bound (.infinity false) = .ok (.infinity false) := by
  unfold bound
  rcases reader.factor_eq with ⟨_, hfactor⟩ | ⟨t, _, hpos, hfactor⟩ <;> rw [hfactor]
  · rfl
  · simp [Bind.bind, Except.bind, mul, hpos.ne', hpos.not_gt]

theorem ordered_bound_iff {x : ℚ} (hx : 0 < x) : (∃ b, Ordered (reader.bound (.finite x)) b) ↔
    ∀ t, reader.threshold = .finite t → InRange (x * roundDigits (1 + t)) := by
  unfold bound
  rcases reader.factor_eq with ⟨hthreshold, hfactor⟩ | ⟨t, hthreshold, hpos, hfactor⟩ <;>
    rw [hfactor, hthreshold]
  · refine iff_of_true ⟨.infinity false, ?_, nofun⟩ nofun
    simp [Bind.bind, Except.bind, mul, hx.ne', hx.not_gt]
  · have hbound := ordered_finalize_iff (x * roundDigits (1 + t))
    constructor
    · rintro ⟨b, hb⟩ t' ht'
      exact finite.inj ht' ▸ ((hbound b).mp hb).1
    · exact fun hrange => ⟨_, (hbound _).mpr ⟨hrange t rfl, rfl⟩⟩

/-- A NaN as the mean raises in the first test. -/
theorem exceeds_nan (signalling : Bool) :
    reader.exceeds latest (.nan signalling) = .error .invalidOperation := rfl

theorem exceeds_infinity_iff (negative : Bool) :
    (∃ elevated, reader.exceeds latest (.infinity negative) = .ok elevated) ↔
      (negative = false → ∀ signalling, latest ≠ .nan signalling) := by
  cases negative with
  | true => exact iff_of_true ⟨false, rfl⟩ nofun
  | false =>
    rw [reader.exceeds_positive_iff rfl, reader.bound_infinity]
    exact ⟨fun h _ => h.1, fun h => ⟨h rfl, _, rfl, nofun⟩⟩

theorem exceeds_finite_iff (x : ℚ) :
    (∃ elevated, reader.exceeds latest (.finite x) = .ok elevated) ↔
      (0 < x → (∀ signalling, latest ≠ .nan signalling) ∧
        ∀ t, reader.threshold = .finite t → InRange (x * roundDigits (1 + t))) := by
  rcases lt_or_ge 0 x with hpos | hle
  · have htest : (finite x).le (.finite 0) = .ok false := by simp [le, hpos]
    rw [reader.exceeds_positive_iff htest, reader.ordered_bound_iff hpos]
    exact (imp_iff_right hpos).symm
  · refine iff_of_true ⟨false, ?_⟩ fun hpos => absurd hpos hle.not_gt
    simp [exceeds, le, hle, Bind.bind, Except.bind, pure, Except.pure]

/-- The comparison returns exactly if the closes can be compared. -/
theorem compare_returns_iff (closes : List Decimal) :
    (∃ elevated, reader.compare closes = .ok elevated) ↔ reader.Comparable closes := by
  match closes with
  | [] | [_] => exact iff_of_true ⟨false, rfl⟩ trivial
  | latest :: prior :: earlier =>
    have hmean : (∃ elevated, reader.compare (latest :: prior :: earlier) = .ok elevated) ↔
        ∃ m, Ordered (mean (prior :: earlier)) m ∧
          ∃ elevated, reader.exceeds latest m = .ok elevated := by
      change (∃ elevated, (mean (prior :: earlier)).bind (reader.exceeds latest) = _) ↔ _
      cases mean (prior :: earlier) with
      | error signal => exact iff_of_false (fun ⟨_, h⟩ => nomatch h) fun ⟨_, h, _⟩ => nomatch h.1
      | ok m =>
        constructor
        · rintro ⟨elevated, helevated⟩
          refine ⟨m, ⟨rfl, ?_⟩, elevated, helevated⟩
          rintro signalling rfl
          cases (reader.exceeds_nan signalling).symm.trans helevated
        · rintro ⟨m', ⟨hm, _⟩, helevated⟩
          exact Except.ok.inj hm ▸ helevated
    rw [hmean]
    simp only [ordered_mean_iff, Comparable]
    constructor
    · rintro ⟨m, ⟨values, hvalues, hrange, rfl⟩ | ⟨negative, hin, hall, rfl⟩, helevated⟩
      · exact Or.inl ⟨values, hvalues, hrange, (reader.exceeds_finite_iff _).mp helevated⟩
      · exact Or.inr ⟨negative, hin, hall, (reader.exceeds_infinity_iff _).mp helevated⟩
    · rintro (⟨values, hvalues, hrange, hbound⟩ | ⟨negative, hin, hall, hbound⟩)
      · exact ⟨_, Or.inl ⟨values, hvalues, hrange, rfl⟩, (reader.exceeds_finite_iff _).mpr hbound⟩
      · exact ⟨_, Or.inr ⟨negative, hin, hall, rfl⟩, (reader.exceeds_infinity_iff _).mpr hbound⟩

/-- **When the price gate returns.**  Both questions are answered by a boolean
exactly if the request fails or is refused, or its body is JSON whose closes can
be compared. -/
theorem gate_returns_iff (answer : HttpAnswer) :
    ((∃ elevated, reader.isElevated answer = .ok elevated) ∧
        ∃ available, isPriceAvailable answer = .ok available) ↔
      ∀ status json, answer = .response status json → status / 100 = 2 →
        ∃ payload, json = .ok payload ∧ reader.Comparable (parseCloses payload) := by
  unfold isElevated isPriceAvailable readCloses
  cases answer with
  | failed => exact iff_of_true ⟨⟨false, rfl⟩, false, rfl⟩ nofun
  | response status json =>
    by_cases hstatus : status / 100 = 2
    · cases json with
      | error e => simp [fetch, hstatus, Except.mapError, Bind.bind, Except.bind]
      | ok payload =>
        simp only [fetch, hstatus, if_true, Except.mapError, Bind.bind, Except.bind, pure,
          Except.pure, ← compare_returns_iff]
        cases hcompare : reader.compare (parseCloses payload) <;> simp [hstatus, hcompare]
    · simp [fetch, hstatus, compare, Bind.bind, Except.bind, pure, Except.pure, Except.mapError]

theorem hundredth_float : Decimal.finite (1 / 100) = .infinity false ∨
    ∃ t, 0 ≤ t ∧ t ≤ 10 ^ 309 ∧ Decimal.finite (1 / 100) = .finite t :=
  Or.inr ⟨_, by norm_num, le_trans (by norm_num) (one_le_pow₀ (by norm_num)), rfl⟩

/-- The default threshold, one per cent. -/
def standard : PriceReader := ⟨.finite (1 / 100), hundredth_float⟩

/-- **The gate raises into the sweep** for a baseline close that is NaN, and for an
empty body, which is no JSON. -/
theorem nan_close_raises :
    standard.isElevated (.response 200 (.ok (.dict [("closes", .list
        [.dict [("close", .int 1)], .dict [("close", .nan)]])]))) =
      .error (.decimal .invalidOperation) ∧
    standard.isElevated (.response 200 (.error .decode)) = .error (.json .decode) :=
  ⟨rfl, rfl⟩

end PriceReader

end Prediction
