import ChromeyCache.Manager.Headers
import ChromeyCache.Manager.Key

/-! # The local store adapter: `put_hybrid_cache` and `get_cached_url`

A response record, the request and response shapes handed to `CachePolicy::new`, and the two entry
points over the local store `CACACHE_MANAGER`. The crates these call (`http::Uri` parsing,
`Url::parse`, `Method::from_bytes`, `CachePolicy::new`, base64) are the fields of `Crates`; the
store is a state `σ` with the `put` and `get` of `LocalStore`. A `url::Url` is modelled by its
serialisation, which is what `Url` equality compares.

* `putHybridCache_of_parse`: a response whose URL parses is put once, under the given key, with a
  policy computed from `hybridPair`, whose request side carries the *response* headers and whose
  response side the *request* headers;
* `getCachedUrl_eq_some`: a body is read back only from a fresh entry stored under the key of
  `(target, GET, auth)`;
* `getCachedUrl_putHybridCache`: over a lawful store, a page put under the key of
  `(target, GET, auth)` by a successful put reads back as its body while its policy is fresh;
* `getCachedUrl_putHybridCache_isolated`: over a store whose writes touch only their key, a page
  put for `(target, auth)` changes nothing `get_cached_url` serves for the same target with other
  credentials, or for another target with the same credentials.
-/

namespace ChromeyCache.Manager.Hybrid

open ChromeyCache.Manager.Headers ChromeyCache.Manager.Key

/-- `HttpVersion`, and `http_cache::HttpVersion`, which `put_hybrid_cache` maps it to
constructor by constructor. -/
inductive HttpVersion
  | http09 | http10 | http11 | h2 | h3
  deriving DecidableEq, Repr

/-- `HttpResponse`: the record of a fetch. The header map is its entries in iteration order. -/
structure HttpResponse where
  body : List UInt8
  headers : List (String × String)
  status : UInt16
  url : String
  version : HttpVersion
  deriving DecidableEq, Repr

/-- `http_cache_reqwest::HttpResponse`, the record the store keeps. -/
structure CachedResponse where
  url : String
  body : List UInt8
  headers : List (String × String)
  version : HttpVersion
  status : UInt16
  deriving DecidableEq, Repr

/-- `HttpRequestLike`, the request side of `CachePolicy::new`. -/
structure HttpRequestLike (Uri : Type) where
  uri : Uri
  method : String
  headers : HeaderMap

/-- `HttpResponseLike`, the response side of `CachePolicy::new`. -/
structure HttpResponseLike where
  status : Nat
  headers : HeaderMap

/-- The crates the cache calls. -/
structure Crates (Uri Policy : Type) where
  /-- `str::parse::<http::Uri>`. -/
  parseUri : String → Except String Uri
  /-- `Url::parse`, into the serialisation of the parsed URL. -/
  parseUrl : String → Except String String
  /-- `Url::host_str`. -/
  hostStr : String → Option String
  /-- `Method::from_bytes`. -/
  methodFromBytes : String → Option String
  /-- `CachePolicy::new`. -/
  policyNew : HttpRequestLike Uri → HttpResponseLike → Policy
  /-- `general_purpose::STANDARD.encode`. -/
  encode : List UInt8 → String
  /-- `general_purpose::STANDARD.decode`. -/
  decode : String → Except String (List UInt8)

/-- What `CACACHE_MANAGER.get` gives within a bounded wait. -/
inductive Lookup (Policy : Type)
  | timedOut
  | failed (err : String)
  | miss
  | hit (response : CachedResponse) (policy : Policy)

/-- The local store `CACACHE_MANAGER`, a state `σ`. -/
structure LocalStore (σ Policy : Type) where
  put : σ → String → CachedResponse → Policy → σ × Except String Unit
  get : σ → String → Lookup Policy
  isStale : Policy → Nat → Bool

/-- Crates to evaluate the model with: URIs and URLs are their strings, and bytes travel as
Latin-1 characters. -/
def latin1Crates : Crates String Unit where
  parseUri := .ok
  parseUrl := .ok
  hostStr _ := none
  methodFromBytes := some
  policyNew _ _ := ()
  encode b := ⟨b.map fun x => Char.ofNat x.toNat⟩
  decode s := .ok (s.data.map fun ch => ch.toNat.toUInt8)

/-- A store that keeps the list of its writes and serves the latest, always fresh. -/
def logStore : LocalStore (List (String × CachedResponse)) Unit where
  put s k r _ := (s ++ [(k, r)], .ok ())
  get s k := match s.reverse.find? (·.1 == k) with
    | some (_, r) => .hit r ()
    | none => .miss
  isStale _ _ := false

/-- `StatusCode::from_u16(status).unwrap_or(StatusCode::EXPECTATION_FAILED)`. -/
def statusFromU16 (status : UInt16) : Nat :=
  if 100 ≤ status.toNat ∧ status.toNat < 1000 then status.toNat else 417

variable {Uri Policy σ : Type}

/-- The request and response `put_hybrid_cache` builds for `CachePolicy::new` once the URL has
parsed as `u`. -/
def hybridPair (c : Crates Uri Policy) (hs : HeaderSyntax) (u : Uri) (httpResponse : HttpResponse)
    (method : String) (httpRequestHeaders : List (String × String)) :
    HttpRequestLike Uri × HttpResponseLike :=
  ({ uri := u
     method := (c.methodFromBytes method).getD "GET"
     headers := convertHeaders hs httpResponse.headers },
   { status := statusFromU16 httpResponse.status
     headers := convertHeaders hs httpRequestHeaders })

/-- The record `put_hybrid_cache` stores. -/
def HttpResponse.toCached (r : HttpResponse) : CachedResponse :=
  ⟨r.url, r.body, r.headers, r.version, r.status⟩

/-- `put_hybrid_cache`: the store after the write; the result of the put is dropped. -/
def putHybridCache (c : Crates Uri Policy) (hs : HeaderSyntax) (st : LocalStore σ Policy) (s : σ)
    (cacheKey : String) (httpResponse : HttpResponse) (method : String)
    (httpRequestHeaders : List (String × String)) : σ :=
  match c.parseUri httpResponse.url with
  | .ok u =>
    let (req, res) := hybridPair c hs u httpResponse method httpRequestHeaders
    (st.put s cacheKey httpResponse.toCached (c.policyNew req res)).1
  | .error _ => s

theorem putHybridCache_of_parse (c : Crates Uri Policy) (hs : HeaderSyntax)
    (st : LocalStore σ Policy) (s : σ) (k : String) (r : HttpResponse) (m : String)
    (q : List (String × String)) {u : Uri} (hu : c.parseUri r.url = .ok u) :
    putHybridCache c hs st s k r m q =
      (st.put s k r.toCached (c.policyNew (hybridPair c hs u r m q).1
        (hybridPair c hs u r m q).2)).1 := by
  simp [putHybridCache, hu]

theorem putHybridCache_of_error (c : Crates Uri Policy) (hs : HeaderSyntax)
    (st : LocalStore σ Policy) (s : σ) (k : String) (r : HttpResponse) (m : String)
    (q : List (String × String)) {e : String} (he : c.parseUri r.url = .error e) :
    putHybridCache c hs st s k r m q = s := by
  simp [putHybridCache, he]

/-- `get_cached_url`, reading the store at the wall-clock time `now`. -/
def getCachedUrl (st : LocalStore σ Policy) (s : σ) (now : Nat) (targetUrl : String)
    (authOpt : Option String) : Option (List UInt8) :=
  match st.get s (createCacheKeyRaw targetUrl none authOpt) with
  | .hit httpResponse cachePolicy =>
    if !st.isStale cachePolicy now then some httpResponse.body else none
  | _ => none

theorem getCachedUrl_eq_some {st : LocalStore σ Policy} {s : σ} {now : Nat} {target : String}
    {auth : Option String} {body : List UInt8} :
    getCachedUrl st s now target auth = some body ↔
      ∃ r p, st.get s (createCacheKeyRaw target none auth) = .hit r p ∧
        st.isStale p now = false ∧ r.body = body := by
  unfold getCachedUrl
  split <;> simp_all [and_assoc]

/-- The store serves back what a successful put stored under the key. -/
def LocalStore.Lawful (st : LocalStore σ Policy) : Prop :=
  ∀ s k r p, (st.put s k r p).2 = .ok () → st.get (st.put s k r p).1 k = .hit r p

theorem logStore_lawful : logStore.Lawful := by
  intro s k r p _
  simp [logStore]

/-- A write under one key leaves what every other key reads. -/
def LocalStore.Separated (st : LocalStore σ Policy) : Prop :=
  ∀ s k r p k', k' ≠ k → st.get (st.put s k r p).1 k' = st.get s k'

theorem logStore_separated : logStore.Separated := by
  intro s k r p k' hk
  simp [logStore, List.find?_cons, Ne.symm hk]

/-- A page `put_hybrid_cache` stores under the key of `(target, GET, auth)` is what
`get_cached_url` serves back while its policy is fresh. -/
theorem getCachedUrl_putHybridCache {c : Crates Uri Policy} {hs : HeaderSyntax}
    {st : LocalStore σ Policy} (hlaw : st.Lawful) (s : σ) (now : Nat) (target : String)
    (auth : Option String) (r : HttpResponse) (m : String) (q : List (String × String)) {u : Uri}
    (hu : c.parseUri r.url = .ok u)
    (hok : (st.put s (createCacheKeyRaw target none auth) r.toCached
      (c.policyNew (hybridPair c hs u r m q).1 (hybridPair c hs u r m q).2)).2 = .ok ())
    (hfresh : st.isStale (c.policyNew (hybridPair c hs u r m q).1
      (hybridPair c hs u r m q).2) now = false) :
    getCachedUrl st (putHybridCache c hs st s (createCacheKeyRaw target none auth) r m q) now
      target auth = some r.body := by
  rw [putHybridCache_of_parse c hs st s _ r m q hu, getCachedUrl_eq_some]
  exact ⟨_, _, hlaw _ _ _ _ hok, hfresh, rfl⟩

theorem getCachedUrl_putHybridCache_example :
    latin1Crates.parseUri "https://a/" = .ok "https://a/" ∧
      getCachedUrl logStore
        (putHybridCache latin1Crates httpSyntax logStore [] (createCacheKeyRaw "https://a/" none none)
          ⟨[104, 105], [], 200, "https://a/", .h2⟩ "GET" []) 0 "https://a/" none = some [104, 105] :=
  ⟨rfl, getCachedUrl_putHybridCache logStore_lawful [] 0 "https://a/" none
    ⟨[104, 105], [], 200, "https://a/", .h2⟩ "GET" [] rfl rfl rfl⟩

/-- A put under another key leaves what `get_cached_url` serves. -/
theorem getCachedUrl_putHybridCache_of_ne {c : Crates Uri Policy} {hs : HeaderSyntax}
    {st : LocalStore σ Policy} (hsep : st.Separated) (s : σ) (now : Nat) {k : String}
    (r : HttpResponse) (m : String) (q : List (String × String)) {target : String}
    {auth : Option String} (hk : createCacheKeyRaw target none auth ≠ k) :
    getCachedUrl st (putHybridCache c hs st s k r m q) now target auth =
      getCachedUrl st s now target auth := by
  unfold putHybridCache
  split
  · unfold getCachedUrl
    rw [hsep _ _ _ _ _ hk]
  · rfl

/-- A page stored for `(target, auth)` is never served for the same target with other
credentials, or with none, nor for another target with the same credentials. -/
theorem getCachedUrl_putHybridCache_isolated {c : Crates Uri Policy} {hs : HeaderSyntax}
    {st : LocalStore σ Policy} (hsep : st.Separated) (s : σ) (now : Nat)
    (target target' : String) (auth auth' : Option String) (r : HttpResponse) (m : String)
    (q : List (String × String))
    (hdiff : target = target' ∧ auth ≠ auth' ∨ target ≠ target' ∧ auth = auth') :
    getCachedUrl st (putHybridCache c hs st s (createCacheKeyRaw target none auth) r m q) now
        target' auth' = getCachedUrl st s now target' auth' := by
  refine getCachedUrl_putHybridCache_of_ne hsep s now r m q fun h => ?_
  rcases hdiff with ⟨rfl, ha⟩ | ⟨ht, rfl⟩
  · exact ha (createCacheKeyRaw_auth_cancel h).symm
  · exact ht (createCacheKeyRaw_uri_cancel h).symm

theorem getCachedUrl_putHybridCache_isolated_token :
    logStore.Separated ∧
      ("https://a/" = "https://a/" ∧ (none : Option String) ≠ some "t" ∨
        "https://a/" ≠ "https://a/" ∧ (none : Option String) = some "t") ∧
      getCachedUrl logStore
          (putHybridCache latin1Crates httpSyntax logStore []
            (createCacheKeyRaw "https://a/" none none) ⟨[104, 105], [], 200, "https://a/", .h2⟩
            "GET" []) 0 "https://a/" (some "t") =
        getCachedUrl logStore [] 0 "https://a/" (some "t") :=
  ⟨logStore_separated, .inl ⟨rfl, by decide⟩,
    getCachedUrl_putHybridCache_isolated logStore_separated [] 0 "https://a/" "https://a/" none
      (some "t") ⟨[104, 105], [], 200, "https://a/", .h2⟩ "GET" [] (.inl ⟨rfl, by decide⟩)⟩

end ChromeyCache.Manager.Hybrid
