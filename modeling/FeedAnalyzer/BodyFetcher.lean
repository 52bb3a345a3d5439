import Mathlib.Algebra.Group.Nat.Defs
import FeedAnalyzer.CompleteRun
import FeedAnalyzer.TextScan

/-!
# The body fetcher

The fetcher resolves the host of a URL before each request, redirects included, and
refuses it when one of the addresses is not public.  The HTTP client resolves the
host again when it connects, and `neverConnectsBlocked_iff` says that this is the
only way to an address that is not public.

Addresses, URLs and text encodings are parameters.
-/

namespace Ingestion

open Transact Proc List Option

/-- What the fetcher uses of `ipaddress`, for addresses in `A`. -/
structure Ipaddress (A : Type) where
  /-- `ip_address(text)`, where it does not raise. -/
  ipAddress : String → Option A
  isPrivate : A → Bool
  isLoopback : A → Bool
  isLinkLocal : A → Bool
  isMulticast : A → Bool
  isReserved : A → Bool
  isUnspecified : A → Bool

/-- What the fetcher reads of a URL. -/
structure Url where
  scheme : String
  host : String
  target : String := "/"

/-- URLs of the HTTP client; `none` where it raises `InvalidURL`. -/
structure Urls where
  url : String → Option Url
  join : Url → String → Option Url

abbrev Bytes := List UInt8

/-- What the fetcher uses of `codecs`. -/
structure Codecs where
  /-- `codecs.lookup(name)`: whether it is a text encoding, or a `LookupError`. -/
  isTextEncoding : String → Option Bool
  /-- An incremental decoder with strict errors; `none` where it raises. -/
  decode : String → Bytes → Bool → Option String

/-- `SsrfBlockedError`s, `BodyFetchError`s, and what the libraries raise. -/
inductive FetchError where
  | schemeNotPermitted (scheme : String)
  | noHost
  | cannotResolve (host : String) (reason : String)
  | didNotResolve (host : String)
  | notPublic
  | missingLocation
  | contentTypeNotPermitted (contentType : String)
  | undecodable
  | tooManyRedirects (limit : Nat)
  | timedOut
  | gaierror (reason : String)
  | timeoutError
  | invalidUrl
  | valueError
  | httpError
deriving DecidableEq

/-- `cutShort` is what reading on raises after the chunks. -/
structure Response where
  isRedirect : Bool := false
  location : Option String := none
  isError : Bool := false
  contentType : String := ""
  encoding : Option String := none
  chunks : List Bytes := []
  cutShort : Option FetchError := none

/-- The `Location` header, where it is not empty. -/
def Response.leadsTo (response : Response) : Option String :=
  response.location.filter (· ≠ "")

/-- The fetcher's own lookup of a host, and a request of the client. -/
inductive Web where
  | getaddrinfo (host : String)
  | stream (url : Url)

/-- The answers to them. -/
abbrev Web.Ret : Web → Type
  | .getaddrinfo _ => List String
  | .stream _ => Response

abbrev Internet : Interface := ⟨Web, Web.Ret⟩

variable {A : Type}

/-- `_ip_is_blocked`. -/
def Ipaddress.isBlocked (L : Ipaddress A) (ip : A) : Bool :=
  L.isPrivate ip || L.isLoopback ip || L.isLinkLocal ip || L.isMulticast ip || L.isReserved ip ||
    L.isUnspecified ip

def allowedSchemes : List String := ["http", "https"]

def allowedContentTypes : List String := ["text/html", "application/xhtml+xml", "text/plain"]

def byteOrderMarks : List (Bytes × String) :=
  [([0xFF, 0xFE, 0, 0], "utf-32"), ([0, 0, 0xFE, 0xFF], "utf-32"), ([0xEF, 0xBB, 0xBF], "utf-8-sig"),
    ([0xFF, 0xFE], "utf-16"), ([0xFE, 0xFF], "utf-16")]

/-- `decode_body`: a byte order mark, then the declared encoding, then UTF-8. -/
def decodeBody (C : Codecs) (data : Bytes) (encoding : Option String) (truncated : Bool) :
    Except FetchError String :=
  let marked := (byteOrderMarks.find? (fun mark => mark.1.isPrefixOf data)).map (·.2)
  let declared := (encoding.filter (· ≠ "")).getD "utf-8"
  let candidates := [marked.getD declared, "utf-8"]
  match candidates.findSome? (fun name =>
    if C.isTextEncoding name = some true then C.decode name data (!truncated) else none) with
  | some text => .ok text
  | none => .error .undecodable

/-- The parameters of a fetcher. -/
structure BodyFetcher where
  maxBytes : Nat
  maxRedirects : Nat
  allowedContentTypes : List String := Ingestion.allowedContentTypes

/-- `str.split("%", 1)[0]`: drop the zone of an IPv6 address. -/
def dropZone (raw : String) : String :=
  String.ofList (Text.partition ['%'] raw.toList).1

/-- `str.split(";", 1)[0].strip().lower()`. -/
def mediaType (header : String) : String :=
  String.ofList
    ((Text.strip Char.isWhitespace (Text.partition [';'] header.toList).1).map Char.toLower)

def resolveHostIps (L : Ipaddress A) (host : String) : Proc Internet FetchError (List A) := do
  let infos ← (Proc.perform (I := Internet) (.getaddrinfo host)).catchWith (fun e =>
    match e with
    | .gaierror reason => .fail (.cannotResolve host reason)
    | e => .fail e)
  match infos.mapM (fun raw => L.ipAddress (dropZone raw)) with
  | some ips => return ips
  | none => .fail .valueError

/-- Refuse a host without an address, or with one that is not public. -/
def requirePublic (L : Ipaddress A) (host : String) (ips : List A) :
    Proc Internet FetchError Unit :=
  if ips.isEmpty then .fail (.didNotResolve host)
  else if ips.any L.isBlocked then .fail .notPublic
  else return ()

def validatePublicUrl (L : Ipaddress A) (url : Url) : Proc Internet FetchError Unit :=
  if url.scheme ∉ allowedSchemes then .fail (.schemeNotPermitted url.scheme)
  else if url.host = "" then .fail .noHost
  else
    match L.ipAddress url.host with
    | some literal => requirePublic L url.host [literal]
    | none => (resolveHostIps L url.host).bind (requirePublic L url.host)

namespace BodyFetcher

variable (F : BodyFetcher) (L : Ipaddress A) (U : Urls) (C : Codecs)

/-- Read chunks until the limit is reached. -/
def readChunks (cutShort : Option FetchError) : List Bytes → Bytes → Nat →
    Except FetchError (Bytes × Nat)
  | [], data, total =>
    match cutShort with
    | some e => .error e
    | none => .ok (data, total)
  | chunk :: rest, data, total =>
    let data := data ++ chunk.take (F.maxBytes - total)
    let total := total + chunk.length
    if F.maxBytes ≤ total then .ok (data, total)
    else readChunks cutShort rest data total

def body (response : Response) : Except FetchError String := do
  if response.isError then
    throw .httpError
  let contentType := mediaType response.contentType
  if contentType ≠ "" ∧ contentType ∉ F.allowedContentTypes then
    throw (.contentTypeNotPermitted contentType)
  let (data, total) ← F.readChunks response.cutShort response.chunks [] 0
  decodeBody C (data.take F.maxBytes) response.encoding (F.maxBytes ≤ total)

/-- The loop of `_fetch`, with the number of requests that are left. -/
def hops : Nat → Url → Proc Internet FetchError String
  | 0, _ => .fail (.tooManyRedirects F.maxRedirects)
  | n+1, current => do
    validatePublicUrl L current
    let response ← Proc.perform (I := Internet) (.stream current)
    if response.isRedirect then
      match response.leadsTo with
      | none => .fail .missingLocation
      | some location =>
        match U.join current location with
        | some next => hops n next
        | none => .fail .invalidUrl
    else
      match F.body C response with
      | .ok text => return text
      | .error e => .fail e

/-- `fetch`: the loop under a timeout, which may come at every call. -/
def fetch (url : String) : Proc Internet FetchError String :=
  let loop : Proc Internet FetchError String :=
    match U.url url with
    | some current => F.hops L U C (F.maxRedirects + 1) current
    | none => .fail .invalidUrl
  loop.catchWith (fun e =>
    match e with
    | .timeoutError => .fail .timedOut
    | e => .fail e)

end BodyFetcher

/-- The fetcher's lookup, the addresses that the client tries, and the response. -/
structure Hop (A : Type) where
  lookup : Except FetchError (List String)
  connects : List A
  response : Except FetchError Response

/-- The requests that were made, and the addresses connected to. -/
structure Trace (A : Type) where
  requests : Nat := 0
  opened : List A := []

/-- A literal address is taken as it is, a name is looked up. -/
def Hop.opens (L : Ipaddress A) (hop : Hop A) (url : Url) : List A :=
  match L.ipAddress url.host with
  | some literal => [literal]
  | none => hop.connects

def Trace.request (L : Ipaddress A) (trace : Trace A) (hop : Hop A) (url : Url) : Trace A :=
  ⟨trace.requests + 1, trace.opened ++ hop.opens L url⟩

def network (L : Ipaddress A) : Handler Internet (Trace A) (Nat → Hop A) FetchError
  | answers, .getaddrinfo _, trace => ((answers trace.requests).lookup, trace)
  | answers, .stream url, trace =>
    ((answers trace.requests).response, trace.request L (answers trace.requests) url)

variable (F : BodyFetcher) (L : Ipaddress A) (U : Urls) (C : Codecs)

/-- **No blocked address.**  No connection leads to an address that `_ip_is_blocked`
rejects. -/
def NeverConnectsBlocked (answers : Nat → Hop A) (url : String) : Prop :=
  ∀ ip ∈ ((F.fetch L U C url).finish (network L) answers {}).2.opened, L.isBlocked ip = false

/-- Where a response leads to. -/
def Hop.redirect (hop : Hop A) (current : Url) : Option Url :=
  match hop.response with
  | .ok response =>
    if response.isRedirect then
      response.leadsTo.bind (U.join current)
    else none
  | .error _ => none

/-- The URL of the `i`-th request, following the redirects. -/
def redirected (answers : Nat → Hop A) (first : Url) : Nat → Option Url
  | 0 => some first
  | i+1 => ((answers 0).redirect U first).bind (fun next =>
    redirected (fun j => answers (j+1)) next i)

/-- The lookup finds addresses, all of them public. -/
def ResolvesPublic (lookup : Except FetchError (List String)) : Prop :=
  ∃ infos, lookup = .ok infos ∧ ∃ ips, infos.mapM (fun raw => L.ipAddress (dropZone raw)) = some ips ∧
    ips ≠ [] ∧ ∀ ip ∈ ips, L.isBlocked ip = false

def PassesCheck (url : Url) (lookup : Except FetchError (List String)) : Prop :=
  url.scheme ∈ allowedSchemes ∧ url.host ≠ "" ∧
    match L.ipAddress url.host with
    | some literal => L.isBlocked literal = false
    | none => ResolvesPublic L lookup

/-- **The name keeps its addresses.**  A host name that has passed its check, among the
first `n` requests, leads the client to no blocked address. -/
def KeepsAddresses (n : Nat) (answers : Nat → Hop A) (first : Url) : Prop :=
  ∀ i < n, ∀ url, redirected U answers first i = some url →
    (∀ j ≤ i, ∀ url', redirected U answers first j = some url' →
      PassesCheck L url' (answers j).lookup) →
    L.ipAddress url.host = none → ∀ ip ∈ (answers i).connects, L.isBlocked ip = false

variable {F L U C} (answers : Nat → Hop A) (trace : Trace A)

theorem finish_requirePublic (host : String) (ips : List A) :
    (ips ≠ [] ∧ (∀ ip ∈ ips, L.isBlocked ip = false) ∧
      (requirePublic L host ips).finish (network L) answers trace = (.ok (), trace)) ∨
    (¬ (ips ≠ [] ∧ ∀ ip ∈ ips, L.isBlocked ip = false) ∧
      ∃ e, (requirePublic L host ips).finish (network L) answers trace = (.error e, trace)) := by
  unfold requirePublic
  cases ips with
  | nil => exact Or.inr ⟨fun h => h.1 rfl, _, rfl⟩
  | cons ip rest =>
    cases hany : (ip :: rest).any L.isBlocked with
    | true =>
      refine Or.inr ⟨fun h => ?_, _, rfl⟩
      obtain ⟨bad, hbad, hblocked⟩ := any_eq_true.mp hany
      rw [h.2 bad hbad] at hblocked
      cases hblocked
    | false =>
      refine Or.inl ⟨by simp, ?_, rfl⟩
      simpa using hany

theorem finish_resolveHostIps (host : String) :
    (∃ infos ips, (answers trace.requests).lookup = .ok infos ∧
      infos.mapM (fun raw => L.ipAddress (dropZone raw)) = some ips ∧
      (resolveHostIps L host).finish (network L) answers trace = (.ok ips, trace)) ∨
    ((∀ infos ips, (answers trace.requests).lookup = .ok infos →
      infos.mapM (fun raw => L.ipAddress (dropZone raw)) ≠ some ips) ∧
      ∃ e, (resolveHostIps L host).finish (network L) answers trace = (.error e, trace)) := by
  unfold resolveHostIps
  rw [bind_eq]
  have hcall := finish_call (h := network L) (w := answers) (.getaddrinfo host) trace
  cases hlookup : (answers trace.requests).lookup with
  | error e =>
    have hraises : (Proc.perform (I := Internet) (.getaddrinfo host) :
        Proc Internet FetchError (List String)).finish
        (network L) answers trace = (.error e, trace) := hcall.trans (by simp [network, hlookup])
    refine Or.inr ⟨fun infos ips h => (by cases h), ?_⟩
    cases e with
    | gaierror reason =>
      exact ⟨_, finish_bind_error (finish_catch_error hraises)⟩
    | _ => exact ⟨_, finish_bind_error (finish_catch_error hraises)⟩
  | ok infos =>
    have hanswers : (Proc.perform (I := Internet) (.getaddrinfo host) :
        Proc Internet FetchError (List String)).finish
        (network L) answers trace = (.ok infos, trace) := hcall.trans (by simp [network, hlookup])
    rw [finish_bind_ok (finish_catch_ok hanswers)]
    cases hips : infos.mapM (fun raw => L.ipAddress (dropZone raw)) with
    | some ips => exact Or.inl ⟨infos, ips, rfl, hips, rfl⟩
    | none =>
      refine Or.inr ⟨fun infos' ips h => ?_, _, rfl⟩
      cases h
      simp [hips]

/-- The check leaves the network alone, and passes as `PassesCheck` says. -/
theorem finish_validatePublicUrl (url : Url) :
    (PassesCheck L url (answers trace.requests).lookup ∧
      (validatePublicUrl L url).finish (network L) answers trace = (.ok (), trace)) ∨
    (¬ PassesCheck L url (answers trace.requests).lookup ∧
      ∃ e, (validatePublicUrl L url).finish (network L) answers trace = (.error e, trace)) := by
  unfold validatePublicUrl PassesCheck
  by_cases hscheme : url.scheme ∈ allowedSchemes
  · by_cases hhost : url.host = ""
    · refine Or.inr ⟨fun h => h.2.1 hhost, .noHost, ?_⟩
      simp [hscheme, hhost, Proc.finish]
    · simp only [hscheme, hhost, not_true_eq_false, if_false, true_and, ne_eq, not_false_eq_true]
      cases hliteral : L.ipAddress url.host with
      | some literal =>
        rcases finish_requirePublic answers trace url.host [literal] with
          ⟨_, hpublic, hrun⟩ | ⟨hnot, herror⟩
        · exact Or.inl ⟨hpublic literal (mem_singleton_self literal), hrun⟩
        · refine Or.inr ⟨fun hpublic => hnot ⟨by simp, ?_⟩, herror⟩
          simpa using hpublic
      | none =>
        rcases finish_resolveHostIps answers trace url.host with
          ⟨infos, ips, hlookup, hips, hrun⟩ | ⟨hnone, e, hrun⟩
        · rw [finish_bind_ok hrun]
          rcases finish_requirePublic answers trace url.host ips with
            ⟨hne, hpublic, hrun'⟩ | ⟨hnot, herror⟩
          · exact Or.inl ⟨⟨infos, hlookup, ips, hips, hne, hpublic⟩, hrun'⟩
          · refine Or.inr ⟨?_, herror⟩
            rintro ⟨infos', hlookup', ips', hips', hne, hpublic⟩
            rw [hlookup] at hlookup'
            cases hlookup'
            rw [hips] at hips'
            cases hips'
            exact hnot ⟨hne, hpublic⟩
        · rw [finish_bind_error hrun]
          refine Or.inr ⟨?_, e, rfl⟩
          rintro ⟨infos, hlookup, ips, hips, _⟩
          exact hnone infos ips hlookup hips
  · refine Or.inr ⟨fun h => hscheme h.1, .schemeNotPermitted url.scheme, ?_⟩
    simp [hscheme, Proc.finish]

/-- After the first URL has passed, the condition is about its connections and,
after a redirect, about the rest. -/
theorem keepsAddresses_succ {n : Nat} {answers : Nat → Hop A} {url : Url}
    (hpasses : PassesCheck L url (answers 0).lookup) :
    KeepsAddresses L U (n+1) answers url ↔
      (∀ ip ∈ (answers 0).opens L url, L.isBlocked ip = false) ∧
        ∀ next, (answers 0).redirect U url = some next →
          KeepsAddresses L U n (fun j => answers (j+1)) next := by
  constructor
  · intro hkeeps
    constructor
    · intro ip hip
      unfold Hop.opens at hip
      cases hliteral : L.ipAddress url.host with
      | some literal =>
        obtain ⟨_, _, hpublic⟩ := hpasses
        rw [hliteral] at hip hpublic
        obtain rfl : ip = literal := by simpa using hip
        exact hpublic
      | none =>
        rw [hliteral] at hip
        refine hkeeps 0 (Nat.succ_pos n) url rfl ?_ hliteral ip hip
        intro j hj url' hurl'
        obtain rfl : j = 0 := Nat.le_zero.mp hj
        cases hurl'
        exact hpasses
    · intro next hnext i hi url' hurl' hchecked hname
      have hstep : ∀ j, redirected U answers url (j+1) =
          redirected U (fun j => answers (j+1)) next j := by
        intro j
        rw [redirected, hnext, bind_some]
      refine hkeeps (i+1) (by omega) url' ((hstep i).trans hurl') ?_ hname
      intro j hj url'' hurl''
      cases j with
      | zero =>
        cases hurl''
        exact hpasses
      | succ j =>
        rw [hstep] at hurl''
        exact hchecked j (by omega) url'' hurl''
  · rintro ⟨hopens, hrest⟩ i hi url' hurl' hchecked hname
    cases i with
    | zero =>
      cases hurl'
      unfold Hop.opens at hopens
      rw [hname] at hopens
      exact hopens
    | succ i =>
      obtain ⟨next, hnext, hlater⟩ := bind_eq_some_iff.mp hurl'
      refine hrest next hnext i (by omega) url' hlater ?_ hname
      intro j hj url'' hurl''
      apply hchecked (j+1) (by omega) url''
      rw [redirected, hnext, bind_some]
      exact hurl''

/-- After a request, the loop goes on where the response leads to, or ends. -/
theorem opened_after_stream (n : Nat) (answers : Nat → Hop A) (trace : Trace A) (url : Url)
    (hrun : (validatePublicUrl L url).finish (network L) answers trace = (.ok (), trace)) :
    ((F.hops L U C (n+1) url).finish (network L) answers trace).2 =
      match (answers trace.requests).redirect U url with
      | some next => ((F.hops L U C n next).finish (network L) answers
          (trace.request L (answers trace.requests) url)).2
      | none => trace.request L (answers trace.requests) url := by
  rw [BodyFetcher.hops, bind_eq, finish_bind_ok hrun, bind_eq]
  have hcall := finish_call (h := network L) (w := answers) (.stream url) trace
  unfold Hop.redirect
  cases hresponse : (answers trace.requests).response with
  | error e =>
    have hraises : (Proc.perform (I := Internet) (.stream url) :
        Proc Internet FetchError Response).finish
        (network L) answers trace = (.error e, trace.request L (answers trace.requests) url) :=
      hcall.trans (by simp only [network, hresponse])
    rw [finish_bind_error hraises]
  | ok response =>
    have hanswers : (Proc.perform (I := Internet) (.stream url) :
        Proc Internet FetchError Response).finish
        (network L) answers trace = (.ok response, trace.request L (answers trace.requests) url) :=
      hcall.trans (by simp only [network, hresponse])
    rw [finish_bind_ok hanswers]
    cases hredirect : response.isRedirect with
    | true =>
      cases hlocation : response.leadsTo with
      | none => simp [hredirect, hlocation, Proc.finish]
      | some location =>
        cases hjoin : U.join url location with
        | none => simp [hredirect, hlocation, hjoin, Proc.finish]
        | some next => simp [hredirect, hlocation, hjoin]
    | false =>
      cases F.body C response with
      | _ => simp [hredirect, Proc.finish]

/-- The loop connects to public addresses exactly when the names keep theirs. -/
theorem hops_public_iff (n : Nat) (answers : Nat → Hop A) (trace : Trace A) (url : Url) :
    (∀ ip ∈ ((F.hops L U C n url).finish (network L) answers trace).2.opened,
      L.isBlocked ip = false) ↔
    (∀ ip ∈ trace.opened, L.isBlocked ip = false) ∧
      KeepsAddresses L U n (fun j => answers (trace.requests + j)) url := by
  induction n generalizing trace url with
  | zero =>
    have htrivial : KeepsAddresses L U 0 (fun j => answers (trace.requests + j)) url :=
      fun i hi => absurd hi (Nat.not_lt_zero i)
    exact ⟨fun h => ⟨h, htrivial⟩, fun h => h.1⟩
  | succ n ih =>
    rcases finish_validatePublicUrl answers trace url with
      ⟨hpasses, hrun⟩ | ⟨hfails, e, hrun⟩
    · have hpasses' : PassesCheck L url ((fun j => answers (trace.requests + j)) 0).lookup :=
        hpasses
      rw [opened_after_stream n answers trace url hrun, keepsAddresses_succ hpasses']
      have hshift : ∀ k, (fun j => answers (k + (j+1))) = fun j => answers (k + 1 + j) := by
        intro k
        funext j
        congr 1
        omega
      simp only [Nat.add_zero, hshift]
      cases hnext : (answers trace.requests).redirect U url with
      | none =>
        simp only [Trace.request, forall_mem_append, reduceCtorEq, false_imp_iff,
          implies_true, and_true]
      | some next =>
        rw [ih]
        simp only [Trace.request, forall_mem_append, some.injEq, forall_eq', and_assoc]
    · have hnothing : (F.hops L U C (n+1) url).finish (network L) answers trace =
          (.error e, trace) := by
        rw [BodyFetcher.hops, bind_eq, finish_bind_error hrun]
      rw [hnothing]
      refine ⟨fun h => ⟨h, ?_⟩, fun h => h.1⟩
      intro i _ url' _ hchecked
      exact absurd (hchecked 0 (Nat.zero_le i) url rfl) hfails

/-- **When no connection leads to a blocked address.**  For every URL, all redirects and all
lookups: exactly when every host name that has passed its check keeps to public addresses in
the client's own lookup. -/
theorem neverConnectsBlocked_iff (F : BodyFetcher) (L : Ipaddress A) (U : Urls) (C : Codecs)
    (answers : Nat → Hop A) (url : String) :
    NeverConnectsBlocked F L U C answers url ↔
      ∀ first, U.url url = some first → KeepsAddresses L U (F.maxRedirects + 1) answers first := by
  unfold NeverConnectsBlocked
  have htrace : ∀ loop : Proc Internet FetchError String, ((loop.catchWith (fun e => match e with
        | .timeoutError => .fail .timedOut
        | e => .fail e)).finish (network L) answers {}).2 = (loop.finish (network L) answers {}).2 := by
    intro loop
    apply finish_catch_rule (Q := fun result => result.2 = (loop.finish (network L) answers {}).2)
    · intro text after hrun
      rw [hrun]
    · intro e after hrun
      rw [hrun]
      cases e <;> rfl
  unfold BodyFetcher.fetch
  rw [htrace]
  cases hfirst : U.url url with
  | none => simp [Proc.finish]
  | some first =>
    rw [hops_public_iff]
    simp

/-- The IPv4 address with these octets. -/
def quad (a b c d : Nat) : Nat :=
  ((a * 256 + b) * 256 + c) * 256 + d

/-- Four decimal octets. -/
def ipv4Address (text : String) : Option Nat :=
  match (text.toList.splitOn '.').mapM (fun octet =>
    if octet ≠ [] ∧ octet.length ≤ 3 ∧ octet.all Char.isDigit = true then
      some (octet.foldl (fun n c => 10 * n + (c.toNat - 48)) 0)
    else none) with
  | some [a, b, c, d] => if a < 256 ∧ b < 256 ∧ c < 256 ∧ d < 256 then some (quad a b c d) else none
  | _ => none

def inNetwork (base bits ip : Nat) : Bool :=
  ip / 2 ^ (32 - bits) = base / 2 ^ (32 - bits)

/-- IPv4 with the networks of the standard library. -/
def ipv4 : Ipaddress Nat where
  ipAddress := ipv4Address
  isPrivate ip :=
    ([(quad 0 0 0 0, 8), (quad 10 0 0 0, 8), (quad 127 0 0 0, 8), (quad 169 254 0 0, 16),
      (quad 172 16 0 0, 12), (quad 192 0 0 0, 24), (quad 192 0 0 170, 31), (quad 192 0 2 0, 24),
      (quad 192 168 0 0, 16), (quad 198 18 0 0, 15), (quad 198 51 100 0, 24),
      (quad 203 0 113 0, 24), (quad 240 0 0 0, 4), (quad 255 255 255 255, 32)].any
        (fun net => inNetwork net.1 net.2 ip)) &&
      ip != quad 192 0 0 9 && ip != quad 192 0 0 10
  isLoopback := inNetwork (quad 127 0 0 0) 8
  isLinkLocal := inNetwork (quad 169 254 0 0) 16
  isMulticast := inNetwork (quad 224 0 0 0) 4
  isReserved := inNetwork (quad 240 0 0 0) 4
  isUnspecified ip := ip = 0

/-- Absolute URLs without a port. -/
def absoluteUrl (text : String) : Option Url :=
  match Text.partition "://".toList text.toList with
  | (scheme, true, rest) =>
    let host := (Text.partition ['/'] rest).1
    some ⟨String.ofList scheme, String.ofList host, String.ofList (rest.drop host.length)⟩
  | _ => none

def absoluteUrls : Urls where
  url := absoluteUrl
  join _ location := absoluteUrl location

/-- Every encoding reads bytes as characters. -/
def latin : Codecs where
  isTextEncoding _ := some true
  decode _ data _ := some (String.ofList (data.map (fun byte => Char.ofNat byte.toNat)))

/-- Public for the fetcher's lookup, private for the client's. -/
def rebound : Nat → Hop Nat := fun _ =>
  { lookup := .ok ["93.184.216.34"]
    connects := [quad 10 0 0 5]
    response := .ok { contentType := "text/plain", chunks := [[104, 105]] } }

/-- **A name that changes its address.**  The URL passes its check, the client connects to a
private address, and its answer is returned as the body. -/
theorem rebinding_reaches_private :
    let F : BodyFetcher := { maxBytes := 8000, maxRedirects := 3 }
    let run := (F.fetch ipv4 absoluteUrls latin "http://news.example/story").finish (network ipv4)
      rebound {}
    run.1 = .ok "hi" ∧ run.2.opened = [quad 10 0 0 5] ∧ ipv4.isBlocked (quad 10 0 0 5) ∧
      ¬ NeverConnectsBlocked F ipv4 absoluteUrls latin rebound "http://news.example/story" := by
  intro F run
  have hopened : run.2.opened = [quad 10 0 0 5] := by decide +kernel
  have hblocked : ipv4.isBlocked (quad 10 0 0 5) := by decide
  refine ⟨by decide +kernel, hopened, hblocked, ?_⟩
  intro hnever
  have hpublic := hnever (quad 10 0 0 5) (by rw [show _ = [quad 10 0 0 5] from hopened]; simp)
  cases hpublic

end Ingestion
