import FeedAnalyzer.Messages

/-!
# Source adapters

An adapter raises `AdapterError` when its provider cannot be reached, and skips an entry
that is malformed, as far as it catches what this raises.  The RSS adapter catches only
`ValidationError` around an entry's date; FreeNewsApi catches `ValueError`, but not the
`OverflowError` of a date or the `RecursionError` of nested JSON.  `fetch_foreign_iff` says
for which answers a fetch ends with an exception that is no `AdapterError`.
-/

namespace Ingestion

open Feed Option

/-- Exceptions that are no `AdapterError`. -/
inductive PyError where
  | valueError (message : String)
  | overflowError (message : String)
  | other (name : String)
  deriving DecidableEq

/-- `CircuitOpenError` is a subclass of `AdapterError`. -/
inductive Raised where
  | adapterError (message : String)
  | circuitOpenError (message : String)
  | foreign (e : PyError)
  deriving DecidableEq

/-- `isinstance(exc, AdapterError)`. -/
def Raised.isAdapterError : Raised → Bool
  | .adapterError _ => true
  | .circuitOpenError _ => true
  | .foreign _ => false

/-- The microseconds from 0001-01-01 up to the end of 9999-12-31. -/
def instants : Int := 3652059 * 86400 * 1000000

/-- A `datetime` in UTC, in microseconds from 0001-01-01 to 9999-12-31. -/
structure Datetime where
  instant : Int
  lower : 0 ≤ instant
  upper : instant < instants
  deriving DecidableEq

/-- The date of an instant, if there is one. -/
def Datetime.of? (instant : Int) : Option Datetime :=
  if h : 0 ≤ instant ∧ instant < instants then some ⟨instant, h.1, h.2⟩ else none

theorem Datetime.of?_eq_none_iff {instant : Int} :
    Datetime.of? instant = none ↔ instant < 0 ∨ instants ≤ instant := by
  unfold Datetime.of?
  split
  · simp only [reduceCtorEq, false_iff]
    omega
  · simp only [true_iff]
    omega

/-- The wall clock, and the offset if the text has one. -/
structure Stamp where
  wall : Datetime
  offset : Option Int

/-- `datetime.fromisoformat`, the offset of the system's zone at a second of UTC, the check
of a URL, and the letters of Unicode with their cases. -/
structure Python where
  fromisoformat : String → Option Stamp
  offsetAt : Int → Int
  httpUrl : String → Bool
  isalpha : Char → Bool
  upper : Char → List Char
  lower : Char → List Char

namespace Python

variable (py : Python)

/-- What the system's clock shows at a second of UTC. -/
def localTime (u : Int) : Option Int :=
  let wall := u + py.offsetAt u
  if 0 ≤ wall ∧ wall < instants / 1000000 then some wall else none

/-- The second of UTC at which the clock shows `t`.  The offset of a day before decides
between two, so that the first day has none. -/
def localToSeconds (t : Int) : Option Int := do
  let a := (← py.localTime t) - t
  let t1 ← py.localTime (t - a)
  let b ← if t1 = t then do return (← py.localTime (t - a - 86400)) - (t - a - 86400)
    else some (t1 - (t - a))
  if t1 = t ∧ a = b then return t - a
  let t2 ← py.localTime (t - b)
  return if t2 = t then t - b else if t1 = t then t - a else max (t - a) (t - b)

/-- The offset of a stamp.  One without is taken as local time. -/
def utcoffset (stamp : Stamp) : Option Int :=
  match stamp.offset with
  | some offset => some offset
  | none => do return py.offsetAt (← py.localToSeconds (stamp.wall.instant / 1000000)) * 1000000

/-- `.astimezone(UTC)`. -/
def astimezone (stamp : Stamp) : Except PyError Datetime :=
  match py.utcoffset stamp with
  | none => .error (.valueError "year is out of range")
  | some offset =>
    match Datetime.of? (stamp.wall.instant - offset) with
    | some date => .ok date
    | none => .error (.overflowError "date value out of range")

end Python

structure StructTime where
  year : Int
  month : Int
  day : Int
  hour : Int
  minute : Int
  second : Int

def daysBeforeMonth (year month : Int) : Int :=
  let leap := year % 4 = 0 ∧ (year % 100 ≠ 0 ∨ year % 400 = 0)
  let days := [0, 31, 59, 90, 120, 151, 181, 212, 243, 273, 304, 334].getD (month - 1).toNat 0
  if month > 2 ∧ leap then days + 1 else days

def daysBeforeYear (year : Int) : Int :=
  let y := year - 1
  y * 365 + y / 4 - y / 100 + y / 400

/-- The instant that the fields of a `struct_time` describe. -/
def StructTime.instant (t : StructTime) : Int :=
  let days := daysBeforeYear t.year + daysBeforeMonth t.year t.month + (t.day - 1)
  (((days * 24 + t.hour) * 60 + t.minute) * 60 + t.second) * 1000000

/-- `date(year, month, 1)` exists. -/
def StructTime.hasMonth (t : StructTime) : Bool :=
  decide (1 ≤ t.year ∧ t.year ≤ 9999 ∧ 1 ≤ t.month ∧ t.month ≤ 12)

/-- `_struct_time_to_utc`: `calendar.timegm`, then `datetime.fromtimestamp`. -/
def structTimeToUtc (t : StructTime) : Except PyError Datetime :=
  if t.hasMonth then
    match Datetime.of? t.instant with
    | some date => .ok date
    | none => .error (.valueError "year is out of range")
  else .error (.valueError "year or month is out of range")

structure RawArticle where
  sourceId : String
  url : String
  title : String
  summary : String
  publishedAt : Datetime
  language : String
  country : String
  deriving DecidableEq

/-- `str.strip`, with the separators of ASCII. -/
def strip (text : String) : String :=
  String.ofList (Text.strip (fun c => isWhiteSpace c || decide (28 ≤ c.toNat ∧ c.toNat ≤ 31))
    text.toList)

/-- Two letters that pass a check, as in the patterns of the codes. -/
def isCode (letter : Char → Bool) (text : String) : Bool :=
  text.toList.length == 2 && text.toList.all letter

/-- `RawArticle(…)`, which strips texts and raises `ValidationError`. -/
def RawArticle.validate (py : Python) (raw : RawArticle) : Option RawArticle :=
  let stripped : RawArticle :=
    { raw with
        sourceId := stripWhitespace raw.sourceId
        url := stripWhitespace raw.url
        title := stripWhitespace raw.title
        summary := stripWhitespace raw.summary
        language := stripWhitespace raw.language
        country := stripWhitespace raw.country }
  if stripped.sourceId ≠ "" ∧ py.httpUrl stripped.url ∧ stripped.title ≠ "" ∧
      isCode (fun c => decide ('a' ≤ c ∧ c ≤ 'z')) stripped.language ∧
      isCode (fun c => decide ('A' ≤ c ∧ c ≤ 'Z')) stripped.country then
    some stripped
  else none

structure RssSource where
  sourceId : String
  feedUrl : String
  language : String
  country : String

/-- An entry of a feed.  A missing text is empty. -/
structure Entry where
  link : String
  title : String
  summary : String
  publishedParsed : Option StructTime
  updatedParsed : Option StructTime

/-- An `httpx.HTTPError`, another exception, or a response, with what `feedparser.parse`
makes of it. -/
inductive FeedReply where
  | httpError (message : String)
  | raises (e : PyError)
  | response (status : Nat) (parsed : Except PyError (List Entry))

namespace RssAdapter

variable (py : Python)

/-- The date of an entry. -/
def published (entry : Entry) : Option StructTime :=
  entry.publishedParsed.or entry.updatedParsed

def entryToArticle (source : RssSource) (entry : Entry) : Except PyError (Option RawArticle) :=
  match published entry with
  | none => .ok none
  | some date =>
    if entry.link = "" ∨ entry.title = "" then .ok none
    else do
      let publishedAt ← structTimeToUtc date
      return RawArticle.validate py
        { sourceId := source.sourceId
          url := entry.link
          title := entry.title
          summary := entry.summary
          publishedAt := publishedAt
          language := source.language
          country := source.country }

/-- The articles of the entries, up to the first that raises. -/
def entriesToArticles (source : RssSource) :
    List Entry → List RawArticle → Except PyError (List RawArticle)
  | [], articles => .ok articles
  | entry :: rest, articles =>
    match entryToArticle py source entry with
    | .error e => .error e
    | .ok none => entriesToArticles source rest articles
    | .ok (some article) => entriesToArticles source rest (articles ++ [article])

def fetch (source : RssSource) : FeedReply → Except Raised (List RawArticle)
  | .httpError message =>
    .error (.adapterError s!"rss fetch failed for {source.sourceId}: {message}")
  | .raises e => .error (.foreign e)
  | .response status parsed =>
    if 200 ≤ status ∧ status < 300 then
      match parsed with
      | .error e => .error (.foreign e)
      | .ok entries =>
        match entriesToArticles py source entries [] with
        | .ok articles => .ok articles
        | .error e => .error (.foreign e)
    else .error (.adapterError s!"rss fetch failed for {source.sourceId}: HTTP {status}")

/-- A converted entry whose date `datetime` does not have. -/
def Undatable (entry : Entry) : Prop :=
  entry.link ≠ "" ∧ entry.title ≠ "" ∧ ∃ date, published entry = some date ∧
    (date.hasMonth = true → date.instant < 0 ∨ instants ≤ date.instant)

/-- The adapter raises something else than `AdapterError`. -/
def Escapes : FeedReply → Prop
  | .httpError _ => False
  | .raises _ => True
  | .response status parsed =>
    200 ≤ status ∧ status < 300 ∧
      ∀ entries, parsed = .ok entries → ∃ entry ∈ entries, Undatable entry

theorem structTimeToUtc_eq_error_iff (t : StructTime) : (∃ e, structTimeToUtc t = .error e) ↔
      (t.hasMonth → t.instant < 0 ∨ instants ≤ t.instant) := by
  unfold structTimeToUtc
  rw [← Datetime.of?_eq_none_iff]
  cases t.hasMonth with
  | false => simp
  | true =>
    cases hdate : Datetime.of? t.instant with
    | _ => simp

variable (source : RssSource)

/-- When an entry raises. -/
theorem entryToArticle_eq_error_iff (entry : Entry) :
    (∃ e, entryToArticle py source entry = .error e) ↔ Undatable entry := by
  unfold entryToArticle Undatable
  cases hdate : published entry with
  | none => simp
  | some date =>
    dsimp only
    by_cases hblank : entry.link = "" ∨ entry.title = ""
    · rcases hblank with hlink | htitle
      · simp [hlink]
      · simp [htitle]
    · rw [not_or] at hblank
      have hconvert := structTimeToUtc_eq_error_iff date
      simp only [some.injEq, exists_eq_left', hblank, ne_eq, not_false_eq_true, true_and]
      rw [← hconvert]
      cases structTimeToUtc date with
      | ok publishedAt => simp [bind, Except.bind, pure, Except.pure]
      | error e => simp [bind, Except.bind]

theorem entriesToArticles_eq_error_iff (entries : List Entry) (articles : List RawArticle) :
    (∃ e, entriesToArticles py source entries articles = .error e) ↔
      ∃ entry ∈ entries, Undatable entry := by
  induction entries generalizing articles with
  | nil => simp [entriesToArticles]
  | cons entry rest ih =>
    have hfirst := entryToArticle_eq_error_iff py source entry
    have hsplit : (∃ e ∈ entry :: rest, Undatable e) ↔
        Undatable entry ∨ ∃ e ∈ rest, Undatable e := by
      simp
    rw [entriesToArticles, hsplit, ← hfirst]
    cases hentry : entryToArticle py source entry with
    | error e => simp
    | ok article =>
      have hnone : ¬ ∃ e, (Except.ok article : Except PyError (Option RawArticle)) = .error e := by
        simp
      cases article with
      | none => simpa [hnone] using ih articles
      | some article => simpa [hnone] using ih (articles ++ [article])

/-- **When the RSS adapter lets an exception through.** -/
theorem fetch_foreign_iff (reply : FeedReply) :
    (∃ e, fetch py source reply = .error (.foreign e)) ↔ Escapes reply := by
  cases reply with
  | httpError | raises => simp [fetch, Escapes]
  | response status parsed =>
    unfold fetch Escapes
    dsimp only
    by_cases hstatus : 200 ≤ status ∧ status < 300
    · simp only [hstatus, true_and]
      cases parsed with
      | error e => simp
      | ok entries =>
        have hentries := entriesToArticles_eq_error_iff py source entries []
        simp only [Except.ok.injEq, forall_eq']
        rw [← hentries]
        cases entriesToArticles py source entries [] with
        | _ => simp
    · rw [if_neg hstatus]
      constructor
      · rintro ⟨e, he⟩
        cases he
      · intro h
        exact absurd ⟨h.1, h.2.1⟩ hstatus

end RssAdapter

/-- A timeout, another `httpx.HTTPError`, another exception, or a response, with what
`response.json()` makes of it. -/
inductive Reply (B : Type) where
  | timeout (message : String)
  | httpError (message : String)
  | raises (e : PyError)
  | response (status : Nat) (json : Except PyError B)

/-- An item of the list, with the text `str(value or "")` of each value. -/
structure Item where
  uuid : String
  title : String
  publishedAt : String

/-- `none` stands for codes that are no list. -/
structure Detail where
  originalUrl : String
  title : String
  publishedAt : String
  languages : Option (List String)
  countries : Option (List String)
  body : String
  incipit : String

structure FreeNewsApiAdapter where
  language : String := "en"
  defaultCountry : String := "US"

/-- `a or b`. -/
def orElse (a b : String) : String :=
  if a = "" then b else a

def firstIso2 (py : Python) (values : Option (List String)) (upper : Bool) : Option String :=
  match values with
  | some (value :: _) =>
    let token := (strip value).toList.take 2
    if token.length = 2 ∧ token.all py.isalpha then
      some (String.ofList (token.flatMap (if upper then py.upper else py.lower)))
    else none
  | _ => none

namespace FreeNewsApiAdapter

def requestJson {B : Type} : Reply B → Except Raised B
  | .timeout message => .error (.adapterError s!"freenewsapi request timeout: {message}")
  | .httpError message => .error (.adapterError s!"freenewsapi transport error: {message}")
  | .raises e => .error (.foreign e)
  | .response status json =>
    if status = 429 then .error (.adapterError "freenewsapi rate-limited (HTTP 429)")
    else if status = 401 then
      .error (.adapterError "freenewsapi rejected the API key (HTTP 401)")
    else if 400 ≤ status then .error (.adapterError s!"freenewsapi returned HTTP {status}")
    else
      match json with
      | .ok data => .ok data
      | .error (.valueError message) =>
        .error (.adapterError s!"freenewsapi returned non-JSON: {message}")
      | .error e => .error (.foreign e)

/-- The URL, the title and the date of an article. -/
def urlOf (detail : Detail) : String := strip detail.originalUrl

def titleOf (item : Item) (detail : Detail) : String := strip (orElse item.title detail.title)

def publishedOf (item : Item) (detail : Detail) : String :=
  strip (orElse item.publishedAt detail.publishedAt)

/-- `.replace("Z", "+00:00")`. -/
def withOffset (text : String) : String :=
  String.ofList (text.toList.flatMap fun c => if c = 'Z' then "+00:00".toList else [c])

/-- `_to_article`: a date that cannot be read is skipped, an instant out of range raises. -/
def toArticle (py : Python) (adapter : FreeNewsApiAdapter)
    (item : Item) (detail : Detail) : Except PyError (Option RawArticle) :=
  if urlOf detail = "" ∨ titleOf item detail = "" ∨ publishedOf item detail = "" then .ok none
  else
    match py.fromisoformat (withOffset (publishedOf item detail)) with
    | none => .ok none
    | some stamp =>
      match py.astimezone stamp with
      | .error (.valueError _) => .ok none
      | .error e => .error e
      | .ok publishedAt => .ok (RawArticle.validate py
          { sourceId := "freenewsapi"
            url := urlOf detail
            title := titleOf item detail
            summary := strip (orElse detail.body detail.incipit)
            publishedAt := publishedAt
            language := (firstIso2 py detail.languages false).getD adapter.language
            country := (firstIso2 py detail.countries true).getD adapter.defaultCountry })

/-- The articles of the items; `details k` answers for item `k`. -/
def itemsToArticles (py : Python) (adapter : FreeNewsApiAdapter) (details : Nat → Reply Detail) :
    Nat → List Item → List RawArticle → Except Raised (List RawArticle)
  | _, [], articles => .ok articles
  | k, item :: rest, articles =>
    if strip item.uuid = "" then
      itemsToArticles py adapter details (k + 1) rest articles
    else do
      let detail ← requestJson (details k)
      match toArticle py adapter item detail with
      | .error e => .error (.foreign e)
      | .ok none => itemsToArticles py adapter details (k + 1) rest articles
      | .ok (some article) =>
        itemsToArticles py adapter details (k + 1) rest (articles ++ [article])

/-- `FreeNewsApiAdapter.fetch`; values of the list may be no objects. -/
def fetch (py : Python) (adapter : FreeNewsApiAdapter) (search : Reply (List (Option Item)))
    (details : Nat → Reply Detail) : Except Raised (List RawArticle) := do
  let items ← requestJson search
  itemsToArticles py adapter details 0 (items.filterMap id) []

/-- The object that an answer carries. -/
def answer {B : Type} : Reply B → Option B
  | .response status json => if status < 400 then json.toOption else none
  | _ => none

/-- `_request_json` does not catch it. -/
def isUncaught : PyError → Bool
  | .valueError _ => false
  | _ => true

/-- The exception that an answer makes the adapter let through. -/
def escaping {B : Type} : Reply B → Option PyError
  | .raises e => some e
  | .response status (.error e) => if status < 400 ∧ isUncaught e then some e else none
  | _ => none

/-- A readable date with an instant that `datetime` does not have. -/
def Unmovable (py : Python) (item : Item) (detail : Detail) : Prop :=
  urlOf detail ≠ "" ∧ titleOf item detail ≠ "" ∧ publishedOf item detail ≠ "" ∧
    ∃ stamp, py.fromisoformat (withOffset (publishedOf item detail)) = some stamp ∧
      ∃ offset, py.utcoffset stamp = some offset ∧
        (stamp.wall.instant - offset < 0 ∨ instants ≤ stamp.wall.instant - offset)

/-- An item is reached whose details make the adapter raise something else than
`AdapterError`. -/
def ItemsEscape (py : Python) (details : Nat → Reply Detail) (items : List Item) : Prop :=
  ∃ n item, items[n]? = some item ∧ strip item.uuid ≠ "" ∧
    (∀ j earlier, j < n → items[j]? = some earlier → strip earlier.uuid ≠ "" →
      (answer (details j)).isSome) ∧
    ((escaping (details n)).isSome ∨ ∃ detail, answer (details n) = some detail ∧
      Unmovable py item detail)

/-- The adapter raises something else than `AdapterError`. -/
def Escapes (py : Python) (search : Reply (List (Option Item))) (details : Nat → Reply Detail) :
    Prop :=
  (escaping search).isSome ∨
    ∃ items, answer search = some items ∧ ItemsEscape py details (items.filterMap id)

section Escapes

variable (py : Python) (adapter : FreeNewsApiAdapter) (details : Nat → Reply Detail)

/-- What `requestJson` makes of an answer. -/
theorem requestJson_cases {B : Type} (reply : Reply B) :
    (∃ data, answer reply = some data ∧ escaping reply = none ∧ requestJson reply = .ok data) ∨
    (∃ e, answer reply = none ∧ escaping reply = some e ∧
      requestJson reply = .error (.foreign e)) ∨
    (answer reply = none ∧ escaping reply = none ∧
      ∃ message, requestJson reply = .error (.adapterError message)) := by
  cases reply with
  | timeout | httpError => exact Or.inr (Or.inr ⟨rfl, rfl, _, rfl⟩)
  | raises e => exact Or.inr (Or.inl ⟨e, rfl, rfl, rfl⟩)
  | response status json =>
    by_cases hstatus : status < 400
    · have hrate : status ≠ 429 := by omega
      have hkey : status ≠ 401 := by omega
      have hfine : ¬ 400 ≤ status := by omega
      cases json with
      | ok data =>
        left
        simp [answer, escaping, requestJson, hrate, hkey, hfine, hstatus, Except.toOption]
      | error e =>
        right
        cases e <;> simp [answer, escaping, requestJson, hrate, hkey, hfine, hstatus, isUncaught,
          Except.toOption]
    · right; right
      refine ⟨by simp [answer, hstatus], by cases json <;> simp [escaping, hstatus], ?_⟩
      unfold requestJson
      dsimp only
      split
      · exact ⟨_, rfl⟩
      · split
        · exact ⟨_, rfl⟩
        · rw [if_pos (Nat.le_of_not_lt hstatus)]
          exact ⟨_, rfl⟩

/-- When an item raises. -/
theorem toArticle_eq_error_iff (item : Item) (detail : Detail) :
    (∃ e, toArticle py adapter item detail = .error e) ↔ Unmovable py item detail := by
  unfold toArticle Unmovable
  by_cases hblank : urlOf detail = "" ∨ titleOf item detail = "" ∨ publishedOf item detail = ""
  · rw [if_pos hblank]
    constructor
    · rintro ⟨e, he⟩
      cases he
    · rintro ⟨hurl, htitle, hpublished, _⟩
      simp [hurl, htitle, hpublished] at hblank
  · simp only [not_or] at hblank
    simp only [ne_eq, hblank, not_false_eq_true, true_and]
    cases py.fromisoformat (withOffset (publishedOf item detail)) with
    | none => simp
    | some stamp =>
      simp only [some.injEq, exists_eq_left', ← Datetime.of?_eq_none_iff]
      unfold Python.astimezone
      cases py.utcoffset stamp with
      | none => simp
      | some offset =>
        simp only [some.injEq, exists_eq_left']
        cases hdate : Datetime.of? (stamp.wall.instant - offset) with
        | _ => simp

/-- The first item escapes, or it is got over and a later one does. -/
theorem itemsEscape_cons {item : Item} {rest : List Item} : ItemsEscape py details (item :: rest) ↔
      (strip item.uuid ≠ "" ∧ ((escaping (details 0)).isSome ∨
        ∃ detail, answer (details 0) = some detail ∧ Unmovable py item detail)) ∨
      ((strip item.uuid ≠ "" → (answer (details 0)).isSome) ∧
        ItemsEscape py (fun j => details (j + 1)) rest) := by
  constructor
  · rintro ⟨n, later, hlater, huuid, hearlier, hescape⟩
    cases n with
    | zero =>
      cases hlater
      exact Or.inl ⟨huuid, hescape⟩
    | succ n =>
      refine Or.inr ⟨hearlier 0 item (Nat.succ_pos n) rfl, n, later, hlater, huuid, ?_, hescape⟩
      intro j earlier hj hget
      exact hearlier (j + 1) earlier (Nat.succ_lt_succ hj) hget
  · rintro (⟨huuid, hescape⟩ | ⟨hfirst, n, later, hlater, huuid, hearlier, hescape⟩)
    · refine ⟨0, item, rfl, huuid, ?_, hescape⟩
      intro j _ hj
      exact absurd hj (Nat.not_lt_zero j)
    · refine ⟨n + 1, later, hlater, huuid, ?_, hescape⟩
      intro j earlier hj hget hblank
      cases j with
      | zero =>
        cases hget
        exact hfirst hblank
      | succ j => exact hearlier j earlier (Nat.lt_of_succ_lt_succ hj) hget hblank

theorem itemsToArticles_foreign_iff (k : Nat) (items : List Item) (articles : List RawArticle) :
    (∃ e, itemsToArticles py adapter details k items articles = .error (.foreign e)) ↔
      ItemsEscape py (fun j => details (k + j)) items := by
  induction items generalizing k articles with
  | nil => simp [itemsToArticles, ItemsEscape]
  | cons item rest ih =>
    have hshift : (fun j => details (k + (j + 1))) = fun j => details (k + 1 + j) := by
      funext j
      rw [Nat.add_right_comm, Nat.add_assoc]
    rw [itemsToArticles, itemsEscape_cons, hshift]
    by_cases huuid : strip item.uuid = ""
    · rw [if_pos huuid, ih]
      simp [huuid]
    · simp only [ne_eq, huuid, not_false_eq_true, true_and, forall_const, Nat.add_zero]
      rcases requestJson_cases (details k) with ⟨detail, hanswer, hescaping, hrequest⟩ |
        ⟨e, hanswer, hescaping, hrequest⟩ | ⟨hanswer, hescaping, message, hrequest⟩
      · have hfirst := toArticle_eq_error_iff py adapter item detail
        simp only [hrequest, hanswer, hescaping, bind, Except.bind, isSome_none,
          Bool.false_eq_true, false_or, some.injEq, exists_eq_left', isSome_some, true_and]
        rw [← hfirst]
        cases harticle : toArticle py adapter item detail with
        | error e => simp
        | ok article =>
          cases article with
          | none => simpa using ih (k + 1) articles
          | some article => simpa using ih (k + 1) (articles ++ [article])
      · simp [hrequest, hescaping, bind, Except.bind]
      · simp [hrequest, hescaping, hanswer, bind, Except.bind]

/-- **When the FreeNewsApi adapter lets an exception through.** -/
theorem fetch_foreign_iff (search : Reply (List (Option Item))) :
    (∃ e, fetch py adapter search details = .error (.foreign e)) ↔ Escapes py search details := by
  unfold fetch Escapes
  rcases requestJson_cases search with ⟨items, hanswer, hescaping, hrequest⟩ |
    ⟨e, hanswer, hescaping, hrequest⟩ | ⟨hanswer, hescaping, message, hrequest⟩
  · have hitems := itemsToArticles_foreign_iff py adapter details 0 (items.filterMap id) []
    simp only [Nat.zero_add] at hitems
    simp only [hrequest, hanswer, hescaping, bind, Except.bind, isSome_none, Bool.false_eq_true,
      false_or, some.injEq, exists_eq_left']
    exact hitems
  · simp [hrequest, hescaping, bind, Except.bind]
  · simp [hrequest, hescaping, hanswer, bind, Except.bind]

end Escapes

end FreeNewsApiAdapter

end Ingestion
