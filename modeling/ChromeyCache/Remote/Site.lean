import ChromeyCache.Remote.Payload

/-! # Pulling a site: `get_cache_site`

`get_cache_site` GETs `{base}/cache/site/{key}` and seeds every payload of the answer into the
local store. The GET is a function from the endpoint to its outcome, the JSON decoding of the
body a function into a payload list; the store is any `LocalStore`.

* `seedAll_eq_foldl`: the seeding loop is the store's `put`, in list order, of the payloads
  `seedRequest` accepts; a rejected payload or a failed put leaves the rest untouched;
* `getCacheSite_eq_foldl_sitePut`: on a transport error, a non-2xx status or a body that is not a
  payload list nothing is put; otherwise exactly the payloads whose body decodes and whose URL
  parses as an `http::Uri` and a `url::Url` are put, each under its own `resource_key`;
* `getCachedUrl_getCacheSite`: over a store whose writes succeed and touch only their key, after
  the pull `get_cached_url` serves each page from the last payload seeded under its key;
* `getCachedUrl_getCacheSite_dump`: a page dumped under the key of `(target, GET, auth)` and
  answered back by the server is, once pulled, what `get_cached_url` serves for `target`.
-/

namespace ChromeyCache.Remote.Site

open ChromeyCache.Manager.Headers ChromeyCache.Manager.Key ChromeyCache.Manager.Hybrid
open ChromeyCache.Remote.Payload

variable {Uri Policy σ Body : Type}

/-- `StatusCode::is_success`. -/
def isSuccess (status : UInt16) : Bool := 200 ≤ status.toNat && status.toNat < 300

/-- The loop of `get_cache_site`: seed each payload, log a failure and go on. -/
def seedAll (c : Crates Uri Policy) (hs : HeaderSyntax) (st : LocalStore σ Policy) :
    List HybridCachePayload → σ → σ
  | [], s => s
  | payload :: payloads, s => seedAll c hs st payloads (seedPayloadIntoLocalCache c hs st payload s).1

/-- The endpoint `get_cache_site` GETs. -/
def siteEndpoint (hybridCacheEndpoint targetUrl : String) (auth remote : Option String) : String :=
  resolveBaseUrl hybridCacheEndpoint remote ++ "/cache/site/" ++ createCacheKeyRaw targetUrl none auth

/-- `get_cache_site`: the store after the pull. -/
def getCacheSite (c : Crates Uri Policy) (hs : HeaderSyntax) (st : LocalStore σ Policy)
    (hybridCacheEndpoint : String) (fetch : String → Except String (UInt16 × Body))
    (parseJson : Body → Except String (List HybridCachePayload)) (targetUrl : String)
    (auth remote : Option String) (s : σ) : σ :=
  match fetch (siteEndpoint hybridCacheEndpoint targetUrl auth remote) with
  | .error _ => s
  | .ok (status, body) =>
    if !isSuccess status then s
    else match parseJson body with
      | .error _ => s
      | .ok payloads => seedAll c hs st payloads s

/-- Apply the store's `put` to each call in turn, dropping its result. -/
def putEach (st : LocalStore σ Policy) (calls : List (String × CachedResponse × Policy)) (s : σ) :
    σ :=
  calls.foldl (fun s call => (st.put s call.1 call.2.1 call.2.2).1) s

theorem seedAll_eq_foldl (c : Crates Uri Policy) (hs : HeaderSyntax) (st : LocalStore σ Policy) :
    ∀ (ps : List HybridCachePayload) (s : σ),
      seedAll c hs st ps s = putEach st (ps.filterMap fun p => (seedRequest c hs p).toOption) s
  | [], _ => rfl
  | p :: ps, s => by
    cases h : seedRequest c hs p with
    | error e =>
      simp [seedAll, seedPayloadIntoLocalCache_of_error st s h, seedAll_eq_foldl c hs st ps, h,
        Except.toOption]
    | ok call =>
      obtain ⟨key, r, policy⟩ := call
      simp [seedAll, seedPayloadIntoLocalCache_of_ok st s h, seedAll_eq_foldl c hs st ps, h,
        Except.toOption, putEach]

/-- The put the seeding of one payload makes: when its body decodes and its URL parses as an
`http::Uri` and as a `url::Url`, its decoded body under its own `resource_key`, with the policy
built from the request and response pair of `seed_payload_into_local_cache`. -/
def sitePut (c : Crates Uri Policy) (hs : HeaderSyntax) (p : HybridCachePayload) :
    Option (String × CachedResponse × Policy) :=
  match c.decode p.bodyBase64, c.parseUri p.url, c.parseUrl p.url with
  | .ok body, .ok uri, .ok url =>
    some (p.resourceKey, ⟨url, body, p.responseHeaders, .http11, p.status⟩,
      c.policyNew (seedPair c hs uri p).1 (seedPair c hs uri p).2)
  | _, _, _ => none

theorem seedRequest_toOption (c : Crates Uri Policy) (hs : HeaderSyntax) (p : HybridCachePayload) :
    (seedRequest c hs p).toOption = sitePut c hs p := by
  cases hb : c.decode p.bodyBase64 <;> cases hu : c.parseUri p.url <;>
    cases hl : c.parseUrl p.url <;>
    simp [sitePut, seedRequest, hb, hu, hl, Except.mapError, bind, Except.bind, pure, Except.pure,
      Except.toOption]

theorem getCacheSite_eq_foldl_sitePut (c : Crates Uri Policy) (hs : HeaderSyntax)
    (st : LocalStore σ Policy) (endpoint : String) (fetch : String → Except String (UInt16 × Body))
    (parseJson : Body → Except String (List HybridCachePayload)) (target : String)
    (auth remote : Option String) (s : σ) :
    getCacheSite c hs st endpoint fetch parseJson target auth remote s =
      match fetch (siteEndpoint endpoint target auth remote) with
      | .ok (status, body) =>
        match isSuccess status, parseJson body with
        | true, .ok ps => putEach st (ps.filterMap (sitePut c hs)) s
        | _, _ => s
      | .error _ => s := by
  unfold getCacheSite
  rcases fetch (siteEndpoint endpoint target auth remote) with _ | ⟨status, body⟩
  · rfl
  · cases hok : isSuccess status <;> cases hjson : parseJson body <;>
      simp [hok, hjson, seedAll_eq_foldl, seedRequest_toOption]

/-! ## What a pull leaves in the store -/

/-- Over a store whose writes succeed, serve back what they stored and touch no other key, a run
of puts leaves each key reading its last put, or what it read before if none is under it. -/
theorem get_putEach {st : LocalStore σ Policy} (hlaw : st.Lawful) (hsep : st.Separated)
    (hok : ∀ s k r p, (st.put s k r p).2 = .ok ()) (key : String) :
    ∀ (calls : List (String × CachedResponse × Policy)) (s : σ),
      st.get (putEach st calls s) key =
        match calls.reverse.find? (·.1 == key) with
        | some (_, r, p) => .hit r p
        | none => st.get s key
  | [], _ => rfl
  | (k, r, p) :: calls, s => by
    have hput : st.get (st.put s k r p).1 key = if k = key then .hit r p else st.get s key := by
      split
      · subst k
        exact hlaw s _ r p (hok s _ r p)
      · exact hsep s k r p key (Ne.symm ‹_›)
    rw [show putEach st ((k, r, p) :: calls) s = putEach st calls (st.put s k r p).1 from rfl,
      get_putEach hlaw hsep hok key calls, List.reverse_cons, List.find?_append, hput]
    cases calls.reverse.find? (·.1 == key) <;> by_cases hk : k = key <;> simp [hk]

/-- After `get_cache_site` seeds the payloads of a 2xx answer, `get_cached_url` serves each page
from the last payload seeded under its key, if that payload's policy is fresh, and reads as before
when no payload was seeded under it. -/
theorem getCachedUrl_getCacheSite {c : Crates Uri Policy} {hs : HeaderSyntax}
    {st : LocalStore σ Policy} (hlaw : st.Lawful) (hsep : st.Separated)
    (hok : ∀ s k r p, (st.put s k r p).2 = .ok ()) {endpoint site : String}
    {fetch : String → Except String (UInt16 × Body)}
    {parseJson : Body → Except String (List HybridCachePayload)} {auth remote : Option String}
    {status : UInt16} {body : Body} {ps : List HybridCachePayload}
    (hfetch : fetch (siteEndpoint endpoint site auth remote) = .ok (status, body))
    (hsucc : isSuccess status = true) (hjson : parseJson body = .ok ps) (s : σ) (now : Nat)
    (target : String) (auth' : Option String) :
    getCachedUrl st (getCacheSite c hs st endpoint fetch parseJson site auth remote s) now target
        auth' =
      match ((ps.filterMap fun p => (seedRequest c hs p).toOption).reverse.find?
          (·.1 == createCacheKeyRaw target none auth')) with
      | some (_, r, p) => if st.isStale p now then none else some r.body
      | none => getCachedUrl st s now target auth' := by
  simp only [getCacheSite, hfetch, hsucc, hjson, Bool.not_true, Bool.false_eq_true, if_false,
    seedAll_eq_foldl]
  unfold getCachedUrl
  rw [get_putEach hlaw hsep hok]
  cases hf : (ps.filterMap fun p => (seedRequest c hs p).toOption).reverse.find?
      (·.1 == createCacheKeyRaw target none auth') with
  | none => simp only [hf]
  | some call =>
    obtain ⟨_, r, p⟩ := call
    cases hst : st.isStale p now <;> simp [hf, hst]

/-- Two payloads for `https://a/` under one key: `hi`, then `yo`. -/
def hiThenYo : List HybridCachePayload :=
  [dumpPayload latin1Crates "GET:https://a/" ⟨[104, 105], [], 200, "https://a/", .h2⟩ "GET" [],
   dumpPayload latin1Crates "GET:https://a/" ⟨[121, 111], [], 200, "https://a/", .h2⟩ "GET" []]

theorem getCachedUrl_getCacheSite_hiThenYo :
    isSuccess 200 = true ∧
      getCachedUrl logStore
          (getCacheSite latin1Crates httpSyntax logStore "http://127.0.0.1:8080"
            (fun _ => .ok (200, ())) (fun _ => .ok hiThenYo) "a" none none [])
          0 "https://a/" none = some [121, 111] :=
  ⟨rfl, by
    apply Eq.trans (getCachedUrl_getCacheSite logStore_lawful logStore_separated
      (fun _ _ _ _ => rfl) _ _ _ [] 0 "https://a/" none)
    all_goals first | rfl | skip
    rfl⟩

/-! ## The round trip through the remote cache -/

/-- A page dumped under the key of `(target, GET, auth)` and answered back by the remote server
as the site's only payload is served by `get_cached_url` once `get_cache_site` has pulled it,
when its put succeeds and its policy is fresh. -/
theorem getCachedUrl_getCacheSite_dump {c : Crates Uri Policy} {hs : HeaderSyntax}
    {st : LocalStore σ Policy} (hlaw : st.Lawful) (r : HttpResponse)
    {endpoint endpoint' site target m : String} {fetch : String → Except String (UInt16 × Body)}
    {parseJson : Body → Except String (List HybridCachePayload)}
    {auth remote remote' : Option String} {s : σ} {now : Nat} {q : List (String × String)} {u : Uri}
    {status : UInt16} {body : Body}
    (hdec : c.decode (c.encode r.body) = .ok r.body) (huri : c.parseUri r.url = .ok u)
    (hurl : c.parseUrl r.url = .ok r.url)
    (hfetch : fetch (siteEndpoint endpoint target auth remote) = .ok (status, body))
    (hsucc : isSuccess status = true)
    (hjson : parseJson body = .ok
      [(dumpToRemoteCache c hs endpoint' (createCacheKeyRaw target none auth) site r m q
        remote').payload]) :
    let payload := (dumpToRemoteCache c hs endpoint' (createCacheKeyRaw target none auth) site r m
      q remote').payload
    let policy := c.policyNew (seedPair c hs u payload).1 (seedPair c hs u payload).2
    (st.put s (createCacheKeyRaw target none auth) ⟨r.url, r.body, r.headers, .http11, r.status⟩
      policy).2 = .ok () → st.isStale policy now = false →
    getCachedUrl st (getCacheSite c hs st endpoint fetch parseJson target auth remote s) now
      target auth = some r.body := by
  intro payload policy hput hfresh
  have hseed : seedRequest c hs payload = .ok (createCacheKeyRaw target none auth,
      ⟨r.url, r.body, r.headers, .http11, r.status⟩, policy) := seedRequest_eq_ok hdec huri hurl
  have hsite : getCacheSite c hs st endpoint fetch parseJson target auth remote s =
      (st.put s (createCacheKeyRaw target none auth) ⟨r.url, r.body, r.headers, .http11, r.status⟩
        policy).1 := by
    simp only [getCacheSite, hfetch, hsucc, hjson, Bool.not_true, Bool.false_eq_true, if_false,
      seedAll, seedPayloadIntoLocalCache_of_ok st s hseed]
  rw [hsite, getCachedUrl_eq_some]
  exact ⟨_, _, hlaw _ _ _ _ hput, hfresh, rfl⟩

/-- A page `hi` of `https://a/`, dumped under its key. -/
def hiDump : PostRequest :=
  dumpToRemoteCache latin1Crates httpSyntax "http://127.0.0.1:8080"
    (createCacheKeyRaw "https://a/" none none) "a" ⟨[104, 105], [], 200, "https://a/", .h2⟩ "GET" []
    none

theorem getCachedUrl_getCacheSite_dump_hi :
    latin1Crates.decode (latin1Crates.encode [104, 105]) = .ok [104, 105] ∧ isSuccess 200 = true ∧
      getCachedUrl logStore
          (getCacheSite latin1Crates httpSyntax logStore "http://127.0.0.1:8080"
            (fun _ => .ok (200, ())) (fun _ => .ok [hiDump.payload]) "https://a/" none none [])
          0 "https://a/" none = some [104, 105] :=
  ⟨rfl, rfl, by
    apply getCachedUrl_getCacheSite_dump logStore_lawful ⟨[104, 105], [], 200, "https://a/", .h2⟩
    all_goals rfl⟩

end ChromeyCache.Remote.Site
