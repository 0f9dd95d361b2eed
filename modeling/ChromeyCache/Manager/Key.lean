import Mathlib.Data.List.Basic

/-! # Cache keys: `create_cache_key_raw`

The key is `method:uri`, or `method:uri:auth` when a token is given, with the method defaulting to
`GET`. The segments are joined by `:` and nothing in them is escaped.

* `createCacheKeyRaw_injective_each`: with two components fixed, the key determines the third, so
  the same URI with other credentials, or with none, never shares a key;
* `createCacheKeyRaw_not_injective`: triples that differ in two components can share a key,
  `("a:b", none, none)` and `("a", none, some "b")`;
* `createCacheKeyRaw_injective_of_colon_free`: when neither method nor token holds a `:` and both
  triples carry a token or neither does, the key determines the whole triple.
-/

namespace ChromeyCache.Manager.Key

/-- `create_cache_key_raw`. -/
def createCacheKeyRaw (uri : String) (overrideMethod auth : Option String) : String :=
  match auth with
  | some authentication => overrideMethod.getD "GET" ++ ":" ++ uri ++ ":" ++ authentication
  | none => overrideMethod.getD "GET" ++ ":" ++ uri

/-- The characters the token adds after the URI. -/
def authSuffix : Option String → List Char
  | some t => ':' :: t.data
  | none => []

theorem data_createCacheKeyRaw (uri : String) (m a : Option String) :
    (createCacheKeyRaw uri m a).data = (m.getD "GET").data ++ ':' :: (uri.data ++ authSuffix a) := by
  cases a <;> simp [createCacheKeyRaw, authSuffix, String.data_append]

theorem authSuffix_injective : Function.Injective authSuffix
  | some _, some _, h => by simpa [authSuffix, String.ext_iff] using h
  | some _, none, h => by simp [authSuffix] at h
  | none, some _, h => by simp [authSuffix] at h
  | none, none, _ => rfl

theorem createCacheKeyRaw_uri_cancel {u u' : String} {m a : Option String}
    (h : createCacheKeyRaw u m a = createCacheKeyRaw u' m a) : u = u' := by
  simp only [String.ext_iff, data_createCacheKeyRaw] at h
  exact String.ext (List.append_cancel_right (List.cons_injective (List.append_cancel_left h)))

theorem createCacheKeyRaw_auth_cancel {u : String} {m a a' : Option String}
    (h : createCacheKeyRaw u m a = createCacheKeyRaw u m a') : a = a' := by
  simp only [String.ext_iff, data_createCacheKeyRaw] at h
  exact authSuffix_injective
    (List.append_cancel_left (List.cons_injective (List.append_cancel_left h)))

/-- Changing one component of the triple, the other two fixed, changes the key. -/
theorem createCacheKeyRaw_injective_each (u u' : String) (m m' a a' : Option String) :
    (createCacheKeyRaw u m a = createCacheKeyRaw u' m a → u = u') ∧
      (createCacheKeyRaw u m a = createCacheKeyRaw u m' a → m.getD "GET" = m'.getD "GET") ∧
      (createCacheKeyRaw u m a = createCacheKeyRaw u m a' → a = a') := by
  simp only [String.ext_iff, data_createCacheKeyRaw]
  refine ⟨fun h => ?_, fun h => ?_, fun h => ?_⟩
  · exact List.append_cancel_right (List.cons_injective (List.append_cancel_left h))
  · exact List.append_cancel_right h
  · exact authSuffix_injective
      (List.append_cancel_left (List.cons_injective (List.append_cancel_left h)))

theorem createCacheKeyRaw_not_injective :
    ¬ ∀ (u₁ u₂ : String) (m₁ m₂ a₁ a₂ : Option String),
      createCacheKeyRaw u₁ m₁ a₁ = createCacheKeyRaw u₂ m₂ a₂ →
        u₁ = u₂ ∧ m₁.getD "GET" = m₂.getD "GET" ∧ a₁ = a₂ := fun h =>
  absurd (h "a:b" "a" none none none (some "b") (by decide)).1 (by decide)

/-! ## Keys without a separator inside -/

/-- Splitting at the first `:` of two lists whose heads hold none. -/
theorem append_colon_cancel {x y r s : List Char} (hx : ':' ∉ x) (hy : ':' ∉ y)
    (h : x ++ ':' :: r = y ++ ':' :: s) : x = y ∧ r = s := by
  induction x generalizing y with
  | nil =>
    cases y with
    | nil => simpa using h
    | cons c y => simp only [List.nil_append, List.cons_append, List.cons.injEq] at h
                  exact absurd (h.1 ▸ List.mem_cons_self c y) hy
  | cons c x ih =>
    cases y with
    | nil => simp only [List.nil_append, List.cons_append, List.cons.injEq] at h
             exact absurd (h.1 ▸ List.mem_cons_self c x) hx
    | cons d y =>
      simp only [List.cons_append, List.cons.injEq] at h
      obtain ⟨rfl, h⟩ := h
      obtain ⟨rfl, rfl⟩ := ih (fun h' => hx (List.mem_cons_of_mem _ h'))
        (fun h' => hy (List.mem_cons_of_mem _ h')) h
      exact ⟨rfl, rfl⟩

/-- Splitting at the last `:` of two lists whose tails hold none. -/
theorem colon_append_cancel {x y r s : List Char} (hr : ':' ∉ r) (hs : ':' ∉ s)
    (h : x ++ ':' :: r = y ++ ':' :: s) : x = y ∧ r = s := by
  have h' : r.reverse ++ ':' :: x.reverse = s.reverse ++ ':' :: y.reverse := by
    simpa using congrArg List.reverse h
  obtain ⟨h1, h2⟩ := append_colon_cancel (by simpa using hr) (by simpa using hs) h'
  exact ⟨List.reverse_injective h2, List.reverse_injective h1⟩

/-- When neither method nor token holds a `:`, and both triples carry a token or neither does,
the key determines the triple. -/
theorem createCacheKeyRaw_injective_of_colon_free {u₁ u₂ : String} {m₁ m₂ a₁ a₂ : Option String}
    (hm₁ : ':' ∉ (m₁.getD "GET").data) (hm₂ : ':' ∉ (m₂.getD "GET").data)
    (ha₁ : ∀ t ∈ a₁, ':' ∉ t.data) (ha₂ : ∀ t ∈ a₂, ':' ∉ t.data) (hsome : a₁.isSome = a₂.isSome)
    (h : createCacheKeyRaw u₁ m₁ a₁ = createCacheKeyRaw u₂ m₂ a₂) :
    u₁ = u₂ ∧ m₁.getD "GET" = m₂.getD "GET" ∧ a₁ = a₂ := by
  rw [String.ext_iff, data_createCacheKeyRaw, data_createCacheKeyRaw] at h
  obtain ⟨hm, hrest⟩ := append_colon_cancel hm₁ hm₂ h
  rcases a₁ with _ | t₁ <;> rcases a₂ with _ | t₂
  · exact ⟨String.ext_iff.mpr (by simpa [authSuffix] using hrest), String.ext_iff.mpr hm, rfl⟩
  · simp at hsome
  · simp at hsome
  · obtain ⟨hu, ht⟩ := colon_append_cancel (ha₁ _ rfl) (ha₂ _ rfl) hrest
    exact ⟨String.ext_iff.mpr hu, String.ext_iff.mpr hm, by rw [String.ext_iff.mpr ht]⟩

theorem createCacheKeyRaw_injective_of_colon_free_token :
    ':' ∉ ("GET" : String).data ∧ (∀ t ∈ some "token", ':' ∉ t.data) ∧
      (createCacheKeyRaw "https://a:8080/" none (some "token") =
          createCacheKeyRaw "https://a:8080/" none (some "token") →
        "https://a:8080/" = "https://a:8080/" ∧ (none : Option String).getD "GET" = "GET" ∧
          some "token" = some "token") :=
  ⟨by decide, by simp, createCacheKeyRaw_injective_of_colon_free (by decide) (by decide)
    (by simp) (by simp) rfl⟩

end ChromeyCache.Manager.Key
