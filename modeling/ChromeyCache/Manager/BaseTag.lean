import Mathlib.Data.List.Basic

/-! # The base-tag handlers of `rewrite_base_tag`

The three element handlers of `rewrite_base_tag` (`base`, `head`, `html`) and the end-tag handlers
the `head` and `html` handlers register, driven by the events the tokenizer sends. The flags
`base_tag_inserted` and `already_present` are `OnceLock`s the element handlers share by
reference. Each end-tag handler captures `base_tag_inserted.clone()`: a copy of the flag taken
when its element opens, which is the only flag it reads and sets. End-tag handlers fire at the
close of their own element, the innermost open one of its name.

* `baseTagInserted_feed`, `alreadyPresent_feed`: the outer flags are set by the first base whose
  `href` is absolute and by nothing else;
* `no_base_token_of_not_absolute`: without such a base every base element is removed;
* `wellPlaced_feed_init`: on every event stream, each inserted tag carries the given URL and stands
  right before the end tag it was inserted for, `</head>` or `</html>`;
* `feed_mergeText_view`: the handlers read text only through its bytes between the other events,
  so merging or cutting text events (`mergeText`) changes neither the flags nor the bytes of the
  buffer;
* `feed_html_head_inserts_twice`: in `<html><head>…</head>…</html>` both end-tag handlers see an
  unset copy, so two base elements are inserted; `feed_html_only_inserts_once`: without `head`
  one is, right before `</html>`.
-/

namespace ChromeyCache.Manager.BaseTag

/-- What the handlers see of a tokenizer event. -/
inductive Kind
  | base (href : Option String)
  | headStart
  | headEnd
  | htmlStart
  | htmlEnd
  | other
  deriving DecidableEq, Repr

/-- A tokenizer event and the bytes of its token. -/
structure Event where
  kind : Kind
  raw : List UInt8
  deriving DecidableEq, Repr

/-- A piece of the rewritten buffer. -/
inductive Piece
  /-- A token passed through. -/
  | token (e : Event)
  /-- `<base href="{url}">`, inserted before `</head>`. -/
  | baseTag (url : String)
  /-- `<head><base href="{url}"></head>`, inserted before `</html>`. -/
  | headBaseTag (url : String)
  deriving DecidableEq, Repr

/-- The bytes a piece writes into the buffer. -/
def Piece.bytes : Piece → List UInt8
  | .token e => e.raw
  | .baseTag url => ("<base href=\"" ++ url ++ "\">").toUTF8.toList
  | .headBaseTag url => ("<head><base href=\"" ++ url ++ "\"></head>").toUTF8.toList

/-- The piece holds a base element. -/
def Piece.isBase : Piece → Bool
  | .token ⟨.base _, _⟩ => true
  | .token _ => false
  | .baseTag _ | .headBaseTag _ => true

/-- `attr.starts_with("http://") || attr.starts_with("https://")`. -/
def isAbsolute (href : String) : Bool :=
  "http://".data.isPrefixOf href.data || "https://".data.isPrefixOf href.data

/-- The event is a base element whose `href` is absolute. -/
def Event.isAbsoluteBase (e : Event) : Bool :=
  match e.kind with
  | .base (some attr) => isAbsolute attr
  | _ => false

/-- The state of the handlers: the two outer flags, the copies of `base_tag_inserted` held by the
end-tag handlers of the open `head` and `html` elements (innermost first), and the buffer. -/
structure Rw where
  baseTagInserted : Bool
  alreadyPresent : Bool
  headEnds : List Bool
  htmlEnds : List Bool
  out : List Piece
  deriving DecidableEq, Repr

/-- Before the first event. -/
def Rw.init : Rw := ⟨false, false, [], [], []⟩

/-- The `base` handler: before any base is marked, an absolute base is kept and sets both flags,
any other base is removed. -/
def onBase (rw : Rw) (e : Event) (href : Option String) : Rw :=
  if !rw.baseTagInserted then
    match href with
    | some attr =>
      if isAbsolute attr then
        { rw with baseTagInserted := true, alreadyPresent := true, out := rw.out ++ [.token e] }
      else rw
    | none => rw
  else { rw with out := rw.out ++ [.token e] }

/-- The end-tag handler of an open element, with its copy of the flag: it inserts `ins` before
the end tag when the copy is unset. -/
def onEnd (copy : Bool) (ins : Piece) (e : Event) : List Piece :=
  (if !copy then [ins] else []) ++ [.token e]

/-- One event through the handlers. -/
def onEvent (baseUrl : Option String) (rw : Rw) (e : Event) : Rw :=
  match e.kind with
  | .base href => onBase rw e href
  | .headStart => { rw with headEnds := rw.baseTagInserted :: rw.headEnds, out := rw.out ++ [.token e] }
  | .htmlStart => { rw with htmlEnds := rw.baseTagInserted :: rw.htmlEnds, out := rw.out ++ [.token e] }
  | .headEnd =>
    match rw.headEnds with
    | copy :: rest =>
      { rw with headEnds := rest, out := rw.out ++ onEnd copy (.baseTag (baseUrl.getD "")) e }
    | [] => { rw with out := rw.out ++ [.token e] }
  | .htmlEnd =>
    match rw.htmlEnds with
    | copy :: rest =>
      { rw with htmlEnds := rest, out := rw.out ++ onEnd copy (.headBaseTag (baseUrl.getD "")) e }
    | [] => { rw with out := rw.out ++ [.token e] }
  | .other => { rw with out := rw.out ++ [.token e] }

/-- A batch of events through the handlers. -/
def feed (baseUrl : Option String) (rw : Rw) (evs : List Event) : Rw := evs.foldl (onEvent baseUrl) rw

@[simp] theorem feed_nil (b : Option String) (rw : Rw) : feed b rw [] = rw := rfl

theorem feed_cons (b : Option String) (rw : Rw) (e : Event) (evs : List Event) :
    feed b rw (e :: evs) = feed b (onEvent b rw e) evs := rfl

theorem feed_append (b : Option String) (rw : Rw) (evs evs' : List Event) :
    feed b rw (evs ++ evs') = feed b (feed b rw evs) evs' := List.foldl_append _ _ _ _

/-! ## The outer flags -/

/-- One event sets `base_tag_inserted` exactly when it is an absolute base. -/
theorem baseTagInserted_onEvent (b : Option String) (rw : Rw) (e : Event) :
    (onEvent b rw e).baseTagInserted = (rw.baseTagInserted || e.isAbsoluteBase) := by
  rcases e with ⟨k, raw⟩
  cases k with
  | base href =>
    simp only [onEvent, onBase, Event.isAbsoluteBase]
    cases hb : rw.baseTagInserted <;> rcases href with _ | attr <;> simp [hb]
    split <;> simp_all
  | headEnd | htmlEnd => simp only [onEvent]; split <;> simp [Event.isAbsoluteBase]
  | _ => simp [onEvent, Event.isAbsoluteBase]

/-- `already_present` is set together with `base_tag_inserted`, and by nothing else. -/
theorem alreadyPresent_onEvent (b : Option String) (rw : Rw) (e : Event)
    (h : rw.alreadyPresent = rw.baseTagInserted) :
    (onEvent b rw e).alreadyPresent = (onEvent b rw e).baseTagInserted := by
  rcases e with ⟨k, raw⟩
  cases k with
  | base href =>
    simp only [onEvent, onBase]
    split
    · rcases href with _ | attr
      · exact h
      · simp only; split
        · rfl
        · exact h
    · exact h
  | headEnd | htmlEnd => simp only [onEvent]; split <;> exact h
  | _ => exact h

theorem baseTagInserted_feed (b : Option String) :
    ∀ (rw : Rw) (evs : List Event),
      (feed b rw evs).baseTagInserted = (rw.baseTagInserted || evs.any Event.isAbsoluteBase)
  | _, [] => by simp
  | rw, e :: evs => by
    rw [feed_cons, baseTagInserted_feed b _ evs, baseTagInserted_onEvent, List.any_cons,
      Bool.or_assoc]

theorem alreadyPresent_feed (b : Option String) :
    ∀ (rw : Rw) (evs : List Event), rw.alreadyPresent = rw.baseTagInserted →
      (feed b rw evs).alreadyPresent = (feed b rw evs).baseTagInserted
  | _, [], h => h
  | rw, e :: evs, h => alreadyPresent_feed b _ evs (alreadyPresent_onEvent b rw e h)

/-- From the start, `already_present` is set exactly when an absolute base has been seen. -/
theorem alreadyPresent_feed_init (b : Option String) (evs : List Event) :
    (feed b Rw.init evs).alreadyPresent = evs.any Event.isAbsoluteBase := by
  rw [alreadyPresent_feed b _ _ rfl, baseTagInserted_feed]
  rfl

/-! ## Removed bases -/

/-- The piece is a base element of the input. -/
def Piece.isBaseToken : Piece → Bool
  | .token ⟨.base _, _⟩ => true
  | _ => false

/-- An end-tag handler writes its insertion and the end tag, neither a base of the input. -/
theorem onEnd_no_base_token {copy : Bool} {ins : Piece} {e : Event}
    (hins : ins.isBaseToken = false) (he : (Piece.token e).isBaseToken = false) :
    ∀ p ∈ onEnd copy ins e, p.isBaseToken = false := by
  cases copy <;> simp [onEnd, hins, he]

/-- While no base is marked, an event that is not an absolute base writes no base token. -/
theorem onEvent_no_base_token (b : Option String) (rw : Rw) (e : Event)
    (hi : rw.baseTagInserted = false) (he : e.isAbsoluteBase = false)
    (hout : ∀ p ∈ rw.out, p.isBaseToken = false) :
    (onEvent b rw e).baseTagInserted = false ∧ ∀ p ∈ (onEvent b rw e).out, p.isBaseToken = false := by
  refine ⟨by simp [baseTagInserted_onEvent, hi, he], ?_⟩
  rcases e with ⟨k, raw⟩
  cases k with
  | base href =>
    rcases href with _ | attr
    · simpa [onEvent, onBase, hi] using hout
    · simp only [Event.isAbsoluteBase] at he
      simpa [onEvent, onBase, hi, he] using hout
  | headEnd | htmlEnd =>
    simp only [onEvent]
    split <;> simp only [List.forall_mem_append, List.forall_mem_singleton]
    exacts [⟨hout, onEnd_no_base_token rfl rfl⟩, ⟨hout, rfl⟩]
  | _ =>
    simp only [onEvent, List.forall_mem_append, List.forall_mem_singleton]
    exact ⟨hout, rfl⟩

/-- A document without an absolute base loses every base element it has. -/
theorem no_base_token_of_not_absolute (b : Option String) (evs : List Event)
    (h : evs.any Event.isAbsoluteBase = false) :
    ∀ p ∈ (feed b Rw.init evs).out, p.isBaseToken = false := by
  suffices ∀ (rw : Rw) (evs : List Event), rw.baseTagInserted = false →
      evs.any Event.isAbsoluteBase = false → (∀ p ∈ rw.out, p.isBaseToken = false) →
      ∀ p ∈ (feed b rw evs).out, p.isBaseToken = false from this _ _ rfl h (by simp [Rw.init])
  intro rw evs
  induction evs generalizing rw with
  | nil => exact fun _ _ hout => hout
  | cons e evs ih =>
    intro hi he hout
    simp only [List.any_cons, Bool.or_eq_false_iff] at he
    obtain ⟨hi', hout'⟩ := onEvent_no_base_token b rw e hi he.1 hout
    exact ih _ hi' he.2 hout'

theorem no_base_token_of_relative :
    [(⟨.base (some "/static/"), []⟩ : Event)].any Event.isAbsoluteBase = false ∧
      ∀ p ∈ (feed none Rw.init [⟨.base (some "/static/"), []⟩]).out, p.isBaseToken = false :=
  ⟨by decide, no_base_token_of_not_absolute none _ (by decide)⟩

/-! ## Where the tags go -/

/-- The next piece is the token of an end tag of kind `k`. -/
def endsNext (k : Kind) : List Piece → Bool
  | .token e :: _ => e.kind == k
  | _ => false

/-- Every inserted tag of the buffer carries `url` and stands right before the end tag it was
inserted for: a base tag before `</head>`, a head with a base tag before `</html>`. -/
def wellPlaced (url : String) : List Piece → Bool
  | [] => true
  | .token _ :: ps => wellPlaced url ps
  | .baseTag u :: ps => u == url && endsNext .headEnd ps && wellPlaced url ps
  | .headBaseTag u :: ps => u == url && endsNext .htmlEnd ps && wellPlaced url ps

theorem endsNext_append {k : Kind} {xs : List Piece} (ys : List Piece) (h : endsNext k xs = true) :
    endsNext k (xs ++ ys) = true := by
  match xs, h with
  | .token _ :: _, h => exact h

theorem wellPlaced_append {url : String} {ys : List Piece} :
    ∀ xs : List Piece, wellPlaced url xs = true → wellPlaced url ys = true →
      wellPlaced url (xs ++ ys) = true
  | [], _, hy => hy
  | .token _ :: ps, h, hy => wellPlaced_append ps h hy
  | .baseTag _ :: ps, h, hy | .headBaseTag _ :: ps, h, hy => by
    simp only [wellPlaced, Bool.and_eq_true] at h ⊢
    exact ⟨⟨h.1.1, endsNext_append ys h.1.2⟩, wellPlaced_append ps h.2 hy⟩

theorem wellPlaced_onEvent (b : Option String) (rw : Rw) (e : Event)
    (h : wellPlaced (b.getD "") rw.out = true) :
    wellPlaced (b.getD "") (onEvent b rw e).out = true := by
  rcases e with ⟨k, raw⟩
  cases k with
  | base href =>
    simp only [onEvent, onBase]
    split
    · rcases href with _ | attr
      · exact h
      · simp only; split
        · exact wellPlaced_append _ h rfl
        · exact h
    · exact wellPlaced_append _ h rfl
  | headEnd | htmlEnd =>
    simp only [onEvent]
    split
    · rename_i copy _ _
      exact wellPlaced_append _ h (by cases copy <;> simp [onEnd, wellPlaced, endsNext])
    · exact wellPlaced_append _ h rfl
  | _ => exact wellPlaced_append _ h rfl

theorem wellPlaced_feed (b : Option String) :
    ∀ (rw : Rw) (evs : List Event), wellPlaced (b.getD "") rw.out = true →
      wellPlaced (b.getD "") (feed b rw evs).out = true
  | _, [], h => h
  | rw, e :: evs, h => wellPlaced_feed b _ evs (wellPlaced_onEvent b rw e h)

theorem wellPlaced_feed_init (b : Option String) (evs : List Event) :
    wellPlaced (b.getD "") (feed b Rw.init evs).out = true :=
  wellPlaced_feed b Rw.init evs rfl

/-! ## Text cut anywhere -/

/-- What the result of `rewrite_base_tag` reads of the handlers' state: the flags, the copies held
by open elements, and the bytes of the buffer. -/
def Rw.view (rw : Rw) : Rw × List UInt8 := ({ rw with out := [] }, rw.out.flatMap Piece.bytes)

/-- The handlers only append to the buffer, and what they append does not depend on it. -/
theorem onEvent_frame (b : Option String) (rw : Rw) (e : Event) :
    onEvent b rw e = { onEvent b { rw with out := [] } e with
      out := rw.out ++ (onEvent b { rw with out := [] } e).out } := by
  rcases e with ⟨k, raw⟩
  cases k with
  | base href =>
    simp only [onEvent, onBase]
    split
    · rcases href with _ | attr
      · simp
      · simp only; split <;> simp
    · simp
  | headEnd | htmlEnd => simp only [onEvent]; split <;> simp
  | _ => simp [onEvent]

theorem onEvent_view {rw rw' : Rw} (h : rw.view = rw'.view) (b : Option String) (e : Event) :
    (onEvent b rw e).view = (onEvent b rw' e).view := by
  simp only [Rw.view, Prod.mk.injEq] at h
  rw [onEvent_frame b rw, onEvent_frame b rw', h.1]
  simp [Rw.view, h.2]

theorem feed_view (b : Option String) : ∀ {rw rw' : Rw} (evs : List Event), rw.view = rw'.view →
    (feed b rw evs).view = (feed b rw' evs).view
  | _, _, [], h => h
  | _, _, e :: evs, h => feed_view b evs (onEvent_view h b e)

/-- Text bytes put before an event stream: merged into a text event at its head, left out when
empty. -/
def consText (r : List UInt8) : List Event → List Event
  | [] => if r = [] then [] else [⟨.other, r⟩]
  | e :: es =>
    if e.kind = .other then ⟨.other, r ++ e.raw⟩ :: es
    else if r = [] then e :: es else ⟨.other, r⟩ :: e :: es

/-- The event stream with each run of adjacent text events merged into one and empty text left
out: what stays of it wherever the tokenizer cut the text. -/
def mergeText : List Event → List Event
  | [] => []
  | e :: es => if e.kind = .other then consText e.raw (mergeText es) else e :: mergeText es

/-- Two text events write the bytes of one. -/
theorem view_text_text (b : Option String) (rw : Rw) (r r' : List UInt8) :
    (onEvent b (onEvent b rw ⟨.other, r⟩) ⟨.other, r'⟩).view =
      (onEvent b rw ⟨.other, r ++ r'⟩).view := by
  simp [onEvent, Rw.view, Piece.bytes]

/-- Empty text writes nothing. -/
theorem view_text_nil (b : Option String) (rw : Rw) : (onEvent b rw ⟨.other, []⟩).view = rw.view := by
  simp [onEvent, Rw.view, Piece.bytes]

theorem feed_consText_view (b : Option String) (rw : Rw) (r : List UInt8) (es : List Event) :
    (feed b rw (consText r es)).view = (feed b (onEvent b rw ⟨.other, r⟩) es).view := by
  rcases es with _ | ⟨⟨k, r'⟩, es⟩
  · by_cases hr : r = []
    · simp only [consText, hr, if_true, feed_nil, view_text_nil]
    · simp only [consText, hr, if_false]
      rfl
  · by_cases hk : k = .other
    · subst hk
      simp only [consText, if_true, feed_cons]
      exact feed_view b es (view_text_text b rw r r').symm
    · by_cases hr : r = []
      · simp only [consText, hk, hr, if_false, if_true, feed_cons]
        exact feed_view b es (onEvent_view (view_text_nil b rw).symm b _)
      · simp only [consText, hk, hr, if_false]
        rfl

/-- The handlers' result depends on the text only through its bytes between the other events:
merging or cutting text events changes neither the flags nor the bytes of the buffer. -/
theorem feed_mergeText_view (b : Option String) :
    ∀ (rw : Rw) (evs : List Event), (feed b rw (mergeText evs)).view = (feed b rw evs).view
  | _, [] => rfl
  | rw, ⟨k, r⟩ :: es => by
    by_cases hk : k = .other
    · subst hk
      simp only [mergeText, if_true]
      exact (feed_consText_view b rw r _).trans (feed_mergeText_view b _ es)
    · simp only [mergeText, hk, if_false, feed_cons]
      exact feed_mergeText_view b _ es

/-! ## Two insertions -/

/-- Tokens other than `base`, `head` and `html` pass through. -/
theorem feed_other (b : Option String) :
    ∀ (rw : Rw) (raws : List (List UInt8)),
      feed b rw (raws.map (⟨.other, ·⟩)) = { rw with out := rw.out ++ raws.map (.token ⟨.other, ·⟩) }
  | _, [] => by simp
  | rw, r :: raws => by
    simp only [List.map_cons, feed_cons, feed_other b _ raws]
    simp [onEvent]

/-- In `<html><head>…</head>…</html>` the end-tag handler of `head` and that of `html` each hold a
copy of the flag taken before any insertion, so both insert: the buffer has two base elements. -/
theorem feed_html_head_inserts_twice (b : Option String) (html head headEnd htmlEnd : List UInt8)
    (inHead inBody : List (List UInt8)) :
    ((feed b Rw.init (⟨.htmlStart, html⟩ :: ⟨.headStart, head⟩ :: inHead.map (⟨.other, ·⟩) ++
      ⟨.headEnd, headEnd⟩ :: inBody.map (⟨.other, ·⟩) ++ [⟨.htmlEnd, htmlEnd⟩])).out.filter
        Piece.isBase) = [.baseTag (b.getD ""), .headBaseTag (b.getD "")] := by
  simp only [List.cons_append, feed_cons, feed_append, feed_other]
  simp [onEvent, Rw.init, onEnd, Piece.isBase, List.filter_append, List.filter_map,
    Function.comp_def]

/-- A document with no `head` gets one `<head><base href="…"></head>`, right before `</html>`. -/
theorem feed_html_only_inserts_once (b : Option String) (html htmlEnd : List UInt8)
    (inBody : List (List UInt8)) :
    ((feed b Rw.init (⟨.htmlStart, html⟩ :: inBody.map (⟨.other, ·⟩) ++
      [⟨.htmlEnd, htmlEnd⟩])).out.filter Piece.isBase) = [.headBaseTag (b.getD "")] ∧
      wellPlaced (b.getD "") (feed b Rw.init (⟨.htmlStart, html⟩ :: inBody.map (⟨.other, ·⟩) ++
        [⟨.htmlEnd, htmlEnd⟩])).out = true := by
  refine ⟨?_, wellPlaced_feed_init b _⟩
  simp only [List.cons_append, feed_cons, feed_append, feed_other]
  simp [onEvent, Rw.init, onEnd, Piece.isBase, List.filter_append, List.filter_map,
    Function.comp_def]

end ChromeyCache.Manager.BaseTag
