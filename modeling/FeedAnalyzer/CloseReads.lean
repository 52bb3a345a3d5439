import FeedAnalyzer.MarketDataStore
import FeedAnalyzer.PredictionPipeline
import Mathlib.Data.String.Basic

/-!
# The reads of the close observations

`close_observations` keeps one row for each asset, session and registry version.
Neither the price gate nor the volatility chooses among the versions.
-/

namespace MarketData

open Feed Transact

/-- `max(MIN_RECENT_SESSIONS, min(sessions, MAX_RECENT_SESSIONS))`. -/
def boundedSessions (sessions : Int) : Nat := (max 1 (min sessions 250)).toNat

/-- The rows of `get_recent_closes`; those of one session come in any order. -/
def recentRows (tie : CloseRow → Nat) (assetId : String) (sessions : Int) (rows : List CloseRow) :
    List CloseRow :=
  ((rows.filter fun row => row.assetId = assetId).insertionSort fun row row' =>
    row'.observation.session < row.observation.session ∨
      row.observation.session = row'.observation.session ∧ tie row ≤ tie row').take
    (boundedSessions sessions)

def getRecentCloses (tie : CloseRow → Nat) (assetId : String) (sessions : Int)
    (rows : List CloseRow) : List (Int × Rat) :=
  (recentRows tie assetId sessions rows).map fun row =>
    (row.observation.session, row.observation.close)

/-- The closes of `_VOLATILITY_QUERY`. -/
def volatilityCloses (assetId : String) (cutoff : Int) (rows : List CloseRow) : List Rat :=
  ((rows.filter fun row => row.assetId = assetId ∧ cutoff ≤ row.observation.session).insertionSort
    fun row row' => row.observation.session < row'.observation.session ∨
      row.observation.session = row'.observation.session ∧
        row'.observation.registryVersion ≤ row.observation.registryVersion).map
    fun row => row.observation.close

/-- No row of the same asset and session has a higher registry version. -/
def Newest (rows : List CloseRow) (row : CloseRow) : Prop :=
  ∀ other ∈ rows, other.assetId = row.assetId →
    other.observation.session = row.observation.session →
      other.observation.registryVersion ≤ row.observation.registryVersion

instance (rows : List CloseRow) (row : CloseRow) : Decidable (Newest rows row) :=
  inferInstanceAs (Decidable (∀ other ∈ rows, _ → _ → _))

/-- The rows of the highest registry versions. -/
def newest (rows : List CloseRow) : List CloseRow := rows.filter fun row => Newest rows row

/-- No session of the asset was observed under two versions. -/
def OneVersion (assetId : String) (rows : List CloseRow) : Prop :=
  ∀ row ∈ rows, ∀ other ∈ rows, row.assetId = assetId → other.assetId = assetId →
    row.observation.session = other.observation.session → row = other

theorem filter_newest (p : CloseRow → Bool) (rows : List CloseRow) :
    (newest rows).filter p = (rows.filter p).filter fun row => Newest rows row :=
  List.filter_comm _ _ _

/-- With one version for each session, a read of the asset's rows is of the newest. -/
theorem OneVersion.filter_newest {assetId : String} {rows : List CloseRow}
    (hone : OneVersion assetId rows) {p : CloseRow → Bool} (hp : ∀ row, p row → row.assetId = assetId) :
    (newest rows).filter p = rows.filter p := by
  rw [MarketData.filter_newest, List.filter_eq_self]
  intro row hrow
  obtain ⟨hmem, hrow⟩ := List.mem_filter.mp hrow
  refine decide_eq_true fun other hother hasset hsession => ?_
  rw [hone other hother row hmem (hasset.trans (hp row hrow)) (hp row hrow) hsession]

/-- **When the reads have one close per session.**  The volatility reads the closes of
the highest registry versions, and so ignores every older row, exactly if no session of
the asset was observed under two versions; and then so does the gate. -/
theorem reads_newest_iff (closeObservations : Table CloseRow.key) (assetId : String) :
    ((∀ cutoff, volatilityCloses assetId cutoff closeObservations.rows =
        volatilityCloses assetId cutoff (newest closeObservations.rows)) ↔
      OneVersion assetId closeObservations.rows) ∧
    (OneVersion assetId closeObservations.rows → ∀ tie sessions,
      getRecentCloses tie assetId sessions closeObservations.rows =
        getRecentCloses tie assetId sessions (newest closeObservations.rows)) := by
  refine ⟨⟨fun hreads row hrow other hother hasset hasset' hsession => ?_,
    fun hone cutoff => ?_⟩, fun hone tie sessions => ?_⟩
  · -- since the session as many closes are read as there are newest rows
    have hlength := congrArg List.length (hreads row.observation.session)
    simp only [volatilityCloses, List.length_map, List.length_insertionSort, filter_newest]
      at hlength
    have hnewest := List.length_filter_eq_length_iff.mp hlength.symm
    simp only [List.mem_filter, decide_eq_true_eq] at hnewest
    have hle := hnewest row ⟨hrow, hasset, le_rfl⟩ other hother (hasset'.trans hasset.symm)
      hsession.symm
    have hge := hnewest other ⟨hother, hasset', hsession.le⟩ row hrow (hasset.trans hasset'.symm)
      hsession
    exact closeObservations.eq_of_key hrow hother
      (Prod.ext (hasset.trans hasset'.symm) (Prod.ext hsession (le_antisymm hge hle)))
  · unfold volatilityCloses
    rw [hone.filter_newest fun row hrow => (of_decide_eq_true hrow).1]
  · unfold getRecentCloses recentRows
    rw [hone.filter_newest fun row hrow => of_decide_eq_true hrow]

def goldClose (session : Int) (registryVersion : String) (close : Rat) (hpos : 0 < close) :
    CloseRow :=
  ⟨"GOLD", ⟨session, close, none, 0, "yfinance", "GC=F", .providerDailyClose, false,
    registryVersion, none, none, hpos, no_sample⟩⟩

/-- From 100 to 102; an older version has 110 for the first session. -/
def twoVersions : List CloseRow :=
  [goldClose 2 "2" 102 (by norm_num), goldClose 1 "2" 100 (by norm_num),
    goldClose 1 "1" 110 (by norm_num)]

/-- The older row turns the answer of the price gate around. -/
theorem older_version_hides_rise : Prediction.isElevated (1 / 100)
        ((getRecentCloses (fun _ => 0) "GOLD" 11 (newest twoVersions)).map Prod.snd) = true ∧
      Prediction.isElevated (1 / 100)
        ((getRecentCloses (fun _ => 0) "GOLD" 11 twoVersions).map Prod.snd) = false := by
  decide +kernel

end MarketData
