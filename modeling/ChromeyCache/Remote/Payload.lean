import ChromeyCache.Manager.Hybrid

/-! # The remote wire shape: `dump_to_remote_cache` and `seed_payload_into_local_cache`

`dump_to_remote_cache` builds a `HybridCachePayload` from a response and posts it to
`{base}/cache/index`; `seed_payload_into_local_cache` turns a payload that came back into a store
write. The POST itself and its outcome, which is only logged, are not modelled: the push is the
request it sends (`PostRequest`).

* `hybridPair_eq_swap`: the remote-seed path hands `CachePolicy::new` the request headers on the
  request side and the response headers on the response side, the local write path the same pair
  with the two header maps exchanged; `hybridPair_ne_seedPair` is an input where the two differ;
* `seedRequest_eq_error_iff`: a seed fails before the put exactly on a bad body, a URL that is not
  an `http::Uri` or one that is not a `url::Url`, with the message of each, and then leaves the
  store as it was (`seedPayloadIntoLocalCache_of_error`);
* `seedPayloadIntoLocalCache_dumpPayload`: a dumped payload, returned unchanged, is seeded as one
  put of the original body, URL, status and headers under the original key, as HTTP/1.1.
-/

namespace ChromeyCache.Remote.Payload

open ChromeyCache.Manager.Headers ChromeyCache.Manager.Hybrid

/-- `HybridCachePayload`. -/
structure HybridCachePayload where
  websiteKey : Option String
  resourceKey : String
  url : String
  method : String
  status : UInt16
  requestHeaders : List (String × String)
  responseHeaders : List (String × String)
  bodyBase64 : String
  deriving DecidableEq, Repr

/-- The POST `dump_to_remote_cache` sends: endpoint, JSON body and the `x-cache-site` header. -/
structure PostRequest where
  endpoint : String
  payload : HybridCachePayload
  xCacheSite : String
  deriving DecidableEq, Repr

/-- `u8::is_ascii_whitespace`. -/
def isAsciiWhitespace (c : Char) : Bool :=
  c == ' ' || c == '\t' || c == '\n' || c.toNat == 12 || c == '\r'

/-- `str::trim_ascii`. -/
def trimAscii (s : String) : String :=
  ⟨((s.data.dropWhile isAsciiWhitespace).reverse.dropWhile isAsciiWhitespace).reverse⟩

/-- The base URL both `dump_to_remote_cache` and `get_cache_site` resolve: the configured
`HYBRID_CACHE_ENDPOINT` unless an override other than `"true"` is given. -/
def resolveBaseUrl (hybridCacheEndpoint : String) : Option String → String
  | some remote => if remote != "true" then trimAscii remote else hybridCacheEndpoint
  | none => hybridCacheEndpoint

variable {Uri Policy σ : Type}

/-- The payload `dump_to_remote_cache` builds. -/
def dumpPayload (c : Crates Uri Policy) (cacheKey : String) (httpResponse : HttpResponse)
    (method : String) (httpRequestHeaders : List (String × String)) : HybridCachePayload where
  websiteKey := c.hostStr httpResponse.url
  resourceKey := cacheKey
  url := httpResponse.url
  method := method
  status := httpResponse.status
  requestHeaders := httpRequestHeaders
  responseHeaders := httpResponse.headers
  bodyBase64 := c.encode httpResponse.body

/-- `dump_to_remote_cache`: the request it posts. -/
def dumpToRemoteCache (c : Crates Uri Policy) (hs : HeaderSyntax) (hybridCacheEndpoint : String)
    (cacheKey cacheSite : String) (httpResponse : HttpResponse) (method : String)
    (httpRequestHeaders : List (String × String)) (dumpRemote : Option String) : PostRequest where
  endpoint := resolveBaseUrl hybridCacheEndpoint dumpRemote ++ "/cache/index"
  payload := dumpPayload c cacheKey httpResponse method httpRequestHeaders
  xCacheSite := (headerValueFromStr hs cacheSite).getD ""

/-- The request and response `seed_payload_into_local_cache` builds for `CachePolicy::new` once
the URL has parsed as `uri`. -/
def seedPair (c : Crates Uri Policy) (hs : HeaderSyntax) (uri : Uri)
    (payload : HybridCachePayload) : HttpRequestLike Uri × HttpResponseLike :=
  ({ uri := uri
     method := (c.methodFromBytes payload.method).getD "GET"
     headers := convertHeaders hs payload.requestHeaders },
   { status := statusFromU16 payload.status
     headers := convertHeaders hs payload.responseHeaders })

/-- The put `seed_payload_into_local_cache` issues, or the error it stops at before any put:
bad base64, a URL that is not an `http::Uri`, a URL that is not a `url::Url`. -/
def seedRequest (c : Crates Uri Policy) (hs : HeaderSyntax) (payload : HybridCachePayload) :
    Except String (String × CachedResponse × Policy) := do
  let body ← (c.decode payload.bodyBase64).mapError fun e =>
    "invalid base64 body for " ++ payload.resourceKey ++ ": " ++ e
  let uri ← (c.parseUri payload.url).mapError fun e =>
    "invalid URI for " ++ payload.url ++ ": " ++ e
  let (req, res) := seedPair c hs uri payload
  let policy := c.policyNew req res
  let url ← (c.parseUrl payload.url).mapError fun e =>
    "invalid Url for " ++ payload.url ++ ": " ++ e
  pure (payload.resourceKey,
    ⟨url, body, payload.responseHeaders, .http11, payload.status⟩, policy)

/-- The error of a failed store write. -/
def putFailed (key e : String) : String := "CACACHE_MANAGER.put failed for " ++ key ++ ": " ++ e

/-- `seed_payload_into_local_cache`: the store after it, and its result. -/
def seedPayloadIntoLocalCache (c : Crates Uri Policy) (hs : HeaderSyntax)
    (st : LocalStore σ Policy) (payload : HybridCachePayload) (s : σ) :
    σ × Except String Unit :=
  match seedRequest c hs payload with
  | .error e => (s, .error e)
  | .ok (key, httpRes, policy) =>
    let (s', putResult) := st.put s key httpRes policy
    (s', putResult.mapError (putFailed key))

/-! ## What a seed does -/

theorem seedRequest_eq_ok {c : Crates Uri Policy} {hs : HeaderSyntax} {p : HybridCachePayload}
    {body : List UInt8} {uri : Uri} {url : String} (hb : c.decode p.bodyBase64 = .ok body)
    (hu : c.parseUri p.url = .ok uri) (hl : c.parseUrl p.url = .ok url) :
    seedRequest c hs p = .ok (p.resourceKey, ⟨url, body, p.responseHeaders, .http11, p.status⟩,
      c.policyNew (seedPair c hs uri p).1 (seedPair c hs uri p).2) := by
  simp [seedRequest, hb, hu, hl, Except.mapError, bind, Except.bind, pure, Except.pure]

/-- A seed stops before the put exactly when one of its three checks fails, and its error names
the check and the value it read: the `resource_key` for the body, the URL for the two parses. -/
theorem seedRequest_eq_error_iff {c : Crates Uri Policy} {hs : HeaderSyntax}
    {p : HybridCachePayload} {e : String} :
    seedRequest c hs p = .error e ↔
      (∃ e', c.decode p.bodyBase64 = .error e' ∧
        e = "invalid base64 body for " ++ p.resourceKey ++ ": " ++ e') ∨
      (∃ body e', c.decode p.bodyBase64 = .ok body ∧ c.parseUri p.url = .error e' ∧
        e = "invalid URI for " ++ p.url ++ ": " ++ e') ∨
      (∃ body uri e', c.decode p.bodyBase64 = .ok body ∧ c.parseUri p.url = .ok uri ∧
        c.parseUrl p.url = .error e' ∧ e = "invalid Url for " ++ p.url ++ ": " ++ e') := by
  rcases hb : c.decode p.bodyBase64 with e' | body
  · simp [seedRequest, hb, Except.mapError, bind, Except.bind, eq_comm]
  rcases hu : c.parseUri p.url with e' | uri
  · simp [seedRequest, hb, hu, Except.mapError, bind, Except.bind, eq_comm]
  rcases hl : c.parseUrl p.url with e' | url <;>
    simp [seedRequest, hb, hu, hl, Except.mapError, bind, Except.bind, pure, Except.pure, eq_comm]

theorem seedPayloadIntoLocalCache_of_ok {c : Crates Uri Policy} {hs : HeaderSyntax}
    (st : LocalStore σ Policy) {p : HybridCachePayload} (s : σ) {key : String}
    {r : CachedResponse} {policy : Policy} (h : seedRequest c hs p = .ok (key, r, policy)) :
    seedPayloadIntoLocalCache c hs st p s =
      ((st.put s key r policy).1, (st.put s key r policy).2.mapError (putFailed key)) := by
  simp [seedPayloadIntoLocalCache, h]

theorem seedPayloadIntoLocalCache_of_error {c : Crates Uri Policy} {hs : HeaderSyntax}
    (st : LocalStore σ Policy) {p : HybridCachePayload} (s : σ) {e : String}
    (h : seedRequest c hs p = .error e) : seedPayloadIntoLocalCache c hs st p s = (s, .error e) := by
  simp [seedPayloadIntoLocalCache, h]

/-! ## The two paths to `CachePolicy::new` -/

/-- The local write path builds the remote-seed pair with its two header maps exchanged. -/
theorem hybridPair_eq_swap (c : Crates Uri Policy) (hs : HeaderSyntax) (u : Uri) (k : String)
    (r : HttpResponse) (m : String) (q : List (String × String)) :
    hybridPair c hs u r m q =
      ({ (seedPair c hs u (dumpPayload c k r m q)).1 with
          headers := (seedPair c hs u (dumpPayload c k r m q)).2.headers },
       { (seedPair c hs u (dumpPayload c k r m q)).2 with
          headers := (seedPair c hs u (dumpPayload c k r m q)).1.headers }) := rfl

/-- A response carrying `cache-control: no-store`, fetched with no request headers. -/
def noStoreResponse : HttpResponse :=
  ⟨[], [("cache-control", "no-store")], 200, "https://example.com/", .http11⟩

theorem hybridPair_ne_seedPair (c : Crates Uri Policy) (u : Uri) (k : String) :
    (hybridPair c httpSyntax u noStoreResponse "GET" []).1.headers.entries ≠
      (seedPair c httpSyntax u (dumpPayload c k noStoreResponse "GET" [])).1.headers.entries := by
  show (convertHeaders httpSyntax noStoreResponse.headers).entries ≠
    (convertHeaders httpSyntax []).entries
  decide

/-! ## The round trip through the remote server -/

/-- A payload built by `dump_to_remote_cache` and returned unchanged is seeded as one put, under
the original key, of the original body, URL, status and headers, as HTTP/1.1; the seed succeeds
exactly when that put does. -/
theorem seedPayloadIntoLocalCache_dumpPayload (c : Crates Uri Policy) (hs : HeaderSyntax)
    (st : LocalStore σ Policy) (s : σ) (endpoint k site : String) (r : HttpResponse) (m : String)
    (q : List (String × String)) (remote : Option String) {u : Uri}
    (hdec : c.decode (c.encode r.body) = .ok r.body) (huri : c.parseUri r.url = .ok u)
    (hurl : c.parseUrl r.url = .ok r.url) :
    let payload := (dumpToRemoteCache c hs endpoint k site r m q remote).payload
    let record : CachedResponse := ⟨r.url, r.body, r.headers, .http11, r.status⟩
    let policy := c.policyNew (seedPair c hs u payload).1 (seedPair c hs u payload).2
    seedPayloadIntoLocalCache c hs st payload s =
      ((st.put s k record policy).1, (st.put s k record policy).2.mapError (putFailed k)) :=
  seedPayloadIntoLocalCache_of_ok st s (seedRequest_eq_ok hdec huri hurl)

theorem seedPayloadIntoLocalCache_dumpPayload_hi :
    latin1Crates.decode (latin1Crates.encode [104, 105]) = .ok [104, 105] ∧
      latin1Crates.parseUri "https://a/" = .ok "https://a/" ∧
      latin1Crates.parseUrl "https://a/" = .ok "https://a/" ∧
      seedPayloadIntoLocalCache latin1Crates httpSyntax logStore
          (dumpToRemoteCache latin1Crates httpSyntax "http://127.0.0.1:8080" "GET:https://a/" "a"
            ⟨[104, 105], [], 200, "https://a/", .h2⟩ "GET" [] none).payload [] =
        ([("GET:https://a/", ⟨"https://a/", [104, 105], [], .http11, 200⟩)], .ok ()) :=
  ⟨rfl, rfl, rfl, seedPayloadIntoLocalCache_dumpPayload latin1Crates httpSyntax logStore []
    "http://127.0.0.1:8080" "GET:https://a/" "a" ⟨[104, 105], [], 200, "https://a/", .h2⟩ "GET" []
    none rfl rfl rfl⟩

end ChromeyCache.Remote.Payload
