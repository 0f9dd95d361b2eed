import ChromeyCache.Manager.Rewrite

/-! # What the base-tag handlers change

The handlers of `rewrite_base_tag` edit the token stream in two ways only: the `base` handler
removes base elements (`el.remove()`), and the end-tag handlers of `head` and `html` write a base
tag before the end tag (`end.before(..)`). Every other token passes through, in order.

* `feed_init_tokens`: without the inserted tags, the buffer is the input with exactly the base
  elements that come before the first absolute base removed (`removeBases`);
* `feed_init_insertions`: the inserted tags, together with the unset copies of the flag still held
  by open elements, number the `head` and `html` elements opened before the first absolute base:
  each of those gets one tag when it closes, and no element opened later gets any;
* `rewriteBaseTag_of_not_absolute`: when no absolute base is delivered, `rewrite_base_tag` hands
  `auto_encode_bytes` a buffer that holds every delivered token but the base elements, in order,
  and at most one inserted tag per `head` or `html` element, each placed as `wellPlaced` says.
-/

namespace ChromeyCache.Manager.Edits

open ChromeyCache.Manager.BaseTag ChromeyCache.Manager.Rewrite

/-- The event is a base element. -/
def isBaseEvent (e : Event) : Bool :=
  match e.kind with
  | .base _ => true
  | _ => false

/-- The event opens a `head` or an `html` element. -/
def opensElement (e : Event) : Bool :=
  match e.kind with
  | .headStart | .htmlStart => true
  | _ => false

/-- The piece is a tag an end-tag handler inserted. -/
def isInsertion : Piece → Bool
  | .token _ => false
  | .baseTag _ | .headBaseTag _ => true

/-- The input with the base elements before the first absolute base removed. -/
def removeBases : List Event → List Event
  | [] => []
  | e :: es =>
    if e.isAbsoluteBase then e :: es
    else if isBaseEvent e then removeBases es else e :: removeBases es

/-- The copies of `base_tag_inserted` that open elements hold unset. -/
def unsetCopies (rw : Rw) : Nat := (rw.headEnds ++ rw.htmlEnds).count false

theorem opensElement_of_isAbsoluteBase {e : Event} (h : e.isAbsoluteBase = true) :
    opensElement e = false := by
  rcases e with ⟨_ | _ | _ | _ | _ | _, _⟩ <;> simp_all [Event.isAbsoluteBase, opensElement]

/-! ## The tokens -/

/-- One event: its token is written unless it is a base removed while no base is marked. -/
theorem onEvent_tokens (b : Option String) (rw : Rw) (e : Event) :
    (onEvent b rw e).out.filter (!isInsertion ·) =
      rw.out.filter (!isInsertion ·) ++
        if !rw.baseTagInserted && isBaseEvent e && !e.isAbsoluteBase then [] else [.token e] := by
  rcases e with ⟨k, raw⟩
  cases k with
  | base href =>
    simp only [onEvent, onBase, isBaseEvent, Event.isAbsoluteBase]
    cases hb : rw.baseTagInserted <;> rcases href with _ | attr <;>
      simp [hb, List.filter_append, isInsertion]
    split <;> simp_all [List.filter_append, isInsertion]
  | headEnd | htmlEnd =>
    simp only [onEvent]
    split <;> cases rw.baseTagInserted <;>
      simp [List.filter_append, onEnd, isInsertion, isBaseEvent]
  | _ => simp [onEvent, List.filter_append, isInsertion, isBaseEvent]

theorem feed_tokens (b : Option String) : ∀ (rw : Rw) (evs : List Event),
    (feed b rw evs).out.filter (!isInsertion ·) =
      rw.out.filter (!isInsertion ·) ++
        (if rw.baseTagInserted then evs else removeBases evs).map .token
  | rw, [] => by cases rw.baseTagInserted <;> simp [removeBases]
  | rw, e :: evs => by
    rw [feed_cons, feed_tokens b _ evs, onEvent_tokens, baseTagInserted_onEvent]
    cases hi : rw.baseTagInserted <;> cases ha : e.isAbsoluteBase <;>
      cases hb : isBaseEvent e <;> simp [removeBases, ha, hb]

/-- Without the inserted tags, the buffer is the input with the base elements before the first
absolute base removed: nothing else is dropped, added or reordered. -/
theorem feed_init_tokens (b : Option String) (evs : List Event) :
    (feed b Rw.init evs).out.filter (!isInsertion ·) = (removeBases evs).map .token := by
  simpa [Rw.init] using feed_tokens b Rw.init evs

/-! ## The insertions -/

/-- One event: an open element's unset copy becomes an insertion when it closes, and an element
opened while no base is marked adds one unset copy. -/
theorem onEvent_insertions (b : Option String) (rw : Rw) (e : Event) :
    ((onEvent b rw e).out.filter isInsertion).length + unsetCopies (onEvent b rw e) =
      (rw.out.filter isInsertion).length + unsetCopies rw +
        if !rw.baseTagInserted && opensElement e then 1 else 0 := by
  rcases e with ⟨k, raw⟩
  cases k with
  | base href =>
    simp only [onEvent, onBase, opensElement]
    split
    · rcases href with _ | attr
      · simp
      · simp only; split <;> simp [List.filter_append, isInsertion, unsetCopies]
    · simp [List.filter_append, isInsertion, unsetCopies]
  | headEnd | htmlEnd =>
    simp only [onEvent, opensElement]
    split
    · rename_i copy rest hs
      cases copy <;> simp [hs, List.filter_append, onEnd, isInsertion, unsetCopies]
      omega
    · simp [List.filter_append, isInsertion, unsetCopies]
  | headStart | htmlStart =>
    cases hb : rw.baseTagInserted <;>
      simp [hb, onEvent, opensElement, List.filter_append, isInsertion, unsetCopies]
    omega
  | other => simp [onEvent, opensElement, List.filter_append, isInsertion, unsetCopies]

theorem feed_insertions (b : Option String) : ∀ (rw : Rw) (evs : List Event),
    ((feed b rw evs).out.filter isInsertion).length + unsetCopies (feed b rw evs) =
      (rw.out.filter isInsertion).length + unsetCopies rw +
        if rw.baseTagInserted then 0
        else ((evs.takeWhile (!·.isAbsoluteBase)).filter opensElement).length
  | rw, [] => by cases rw.baseTagInserted <;> simp
  | rw, e :: evs => by
    rw [feed_cons, feed_insertions b _ evs, onEvent_insertions, baseTagInserted_onEvent]
    cases hi : rw.baseTagInserted <;> cases ha : e.isAbsoluteBase
    · cases ho : opensElement e <;> simp [ha, ho, List.filter_cons]
      omega
    · simp [ha, opensElement_of_isAbsoluteBase ha]
    all_goals simp

/-- The inserted tags and the unset copies still held by open elements number the `head` and
`html` elements opened before the first absolute base. -/
theorem feed_init_insertions (b : Option String) (evs : List Event) :
    ((feed b Rw.init evs).out.filter isInsertion).length + unsetCopies (feed b Rw.init evs) =
      ((evs.takeWhile (!·.isAbsoluteBase)).filter opensElement).length := by
  simpa [Rw.init, unsetCopies] using feed_insertions b Rw.init evs

/-! ## The result of `rewrite_base_tag` without an absolute base -/

theorem removeBases_of_not_absolute :
    ∀ evs : List Event, evs.any Event.isAbsoluteBase = false →
      removeBases evs = evs.filter (!isBaseEvent ·)
  | [], _ => rfl
  | e :: es, h => by
    simp only [List.any_cons, Bool.or_eq_false_iff] at h
    cases hb : isBaseEvent e <;>
      simp [removeBases, h.1, hb, List.filter_cons, removeBases_of_not_absolute es h.2]

variable {τ : Type}

/-- Without an absolute base, the document is rebuilt by `auto_encode_bytes` from every delivered
token but the base elements, in order, with at most one base tag per `head` or `html` element,
each for the given URL and right before the end tag it was inserted for. -/
theorem rewriteBaseTag_of_not_absolute (tz : Tokenizer τ) (ae : List UInt8 → RString) (n : Nat)
    (html : List UInt8) (b : Option String) (hne : html ≠ [])
    (habs : (tz.delivered tz.init (chunks n html)).any Event.isAbsoluteBase = false) :
    ∃ out : List Piece, rewriteBaseTag tz ae n html b = ae (out.flatMap Piece.bytes) ∧
      wellPlaced (b.getD "") out = true ∧
      out.filter (!isInsertion ·) =
        ((tz.delivered tz.init (chunks n html)).filter (!isBaseEvent ·)).map .token ∧
      (out.filter isInsertion).length ≤
        ((tz.delivered tz.init (chunks n html)).filter opensElement).length := by
  set evs := tz.delivered tz.init (chunks n html)
  have hne' : html.isEmpty = false := by simpa using hne
  have htake : evs.takeWhile (!·.isAbsoluteBase) = evs :=
    List.takeWhile_eq_self_iff.mpr fun e he => by simpa using List.any_eq_false.mp habs e he
  refine ⟨(feed b Rw.init evs).out, ?_, wellPlaced_feed_init b evs, ?_, ?_⟩
  · rw [rewriteBaseTag_eq, rewriteWhole]
    simp [hne', alreadyPresent_feed_init, habs, evs]
  · simpa [Rw.init, removeBases_of_not_absolute evs habs] using feed_tokens b Rw.init evs
  · have h := feed_insertions b Rw.init evs
    rw [htake, show (Rw.init.out.filter isInsertion).length + unsetCopies Rw.init = 0 from rfl,
      show Rw.init.baseTagInserted = false from rfl, if_neg Bool.false_ne_true] at h
    omega

/-- The bytes of an ASCII text. -/
def ascii (text : String) : List UInt8 := text.data.map fun c => c.toNat.toUInt8

/-- The document `<head><base href="/x"></head>`. -/
def relativeBaseDoc : List UInt8 := ascii "<head><base href=\"/x\"></head>"

/-- A tokenizer that reports the head, the relative base and the end of the head of
`relativeBaseDoc` when it ends. -/
def relativeBaseHead : Tokenizer Unit where
  init := ()
  write _ _ := ([], some ())
  finish _ := [⟨.headStart, ascii "<head>"⟩, ⟨.base (some "/x"), ascii "<base href=\"/x\">"⟩,
    ⟨.headEnd, ascii "</head>"⟩]

theorem rewriteBaseTag_of_not_absolute_relative :
    relativeBaseDoc ≠ [] ∧
      (relativeBaseHead.delivered () (chunks 16384 relativeBaseDoc)).any
        Event.isAbsoluteBase = false ∧
      ∃ out : List Piece,
        rewriteBaseTag relativeBaseHead (fun _ => RString.empty) 16384 relativeBaseDoc
            (some "https://example.com/") = RString.empty ∧
          wellPlaced "https://example.com/" out = true ∧
          out.filter (!isInsertion ·) =
            ((relativeBaseHead.delivered () (chunks 16384 relativeBaseDoc)).filter
              (!isBaseEvent ·)).map .token ∧
          (out.filter isInsertion).length ≤
            ((relativeBaseHead.delivered () (chunks 16384 relativeBaseDoc)).filter
              opensElement).length :=
  ⟨by decide, by decide, rewriteBaseTag_of_not_absolute relativeBaseHead _ 16384 relativeBaseDoc
    (some "https://example.com/") (by decide) (by decide)⟩

end ChromeyCache.Manager.Edits
