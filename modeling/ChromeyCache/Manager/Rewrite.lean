import ChromeyCache.Manager.BaseTag

/-! # The chunk loop of `rewrite_base_tag`

`rewrite_base_tag` feeds the document to the rewriter in chunks of `STREAMING_CHUNK_SIZE` bytes,
stops before a write once `already_present` is set and after a write that fails, calls `end()`
unless a write failed, and returns either the original bytes through `std::str::from_utf8` or the
buffer through `auto_encode_bytes`. The tokenizer of `lol_html` is a state machine (`Tokenizer`)
whose writes deliver events to the handlers of `BaseTag`; a Rust string is its UTF-8 bytes
(`RString`).

* `finalState_alreadyPresent`, `finalState_eq_feed`: the early-exit loop ends with the flag of the
  handlers run on every event delivered before the first failed write, and with their whole state
  when that flag is unset;
* `rewriteBaseTag_of_absolute`: once an absolute base is delivered the result is the input
  itself when it is valid UTF-8 and the empty string otherwise;
* `rewriteBaseTag_chunking`: chunkings whose writes all succeed and deliver the same `base`,
  `head` and `html` events with the same text between them, however the text is cut, give the
  same result: that of the handlers run on the whole stream with no early exit.
-/

namespace ChromeyCache.Manager.Rewrite

open ChromeyCache.Manager.BaseTag

/-! ## Rust strings -/

/-- A continuation byte, `0x80..=0xBF`. -/
def isCont (b : UInt8) : Bool := 0x80 ≤ b && b ≤ 0xBF

/-- The second byte of a sequence led by `b0`, with the narrower ranges after `E0`, `ED`, `F0`
and `F4` that exclude overlong forms, surrogates and code points above `U+10FFFF`. -/
def secondOk (b0 b1 : UInt8) : Bool :=
  if b0 = 0xE0 then 0xA0 ≤ b1 && b1 ≤ 0xBF
  else if b0 = 0xED then 0x80 ≤ b1 && b1 ≤ 0x9F
  else if b0 = 0xF0 then 0x90 ≤ b1 && b1 ≤ 0xBF
  else if b0 = 0xF4 then 0x80 ≤ b1 && b1 ≤ 0x8F
  else isCont b1

/-- The validation of `std::str::from_utf8`. -/
def utf8Valid : List UInt8 → Bool
  | [] => true
  | b0 :: bs =>
    if b0 < 0x80 then utf8Valid bs
    else match bs with
      | b1 :: bs1 =>
        if 0xC2 ≤ b0 && b0 ≤ 0xDF then isCont b1 && utf8Valid bs1
        else match bs1 with
          | b2 :: bs2 =>
            if 0xE0 ≤ b0 && b0 ≤ 0xEF then secondOk b0 b1 && isCont b2 && utf8Valid bs2
            else match bs2 with
              | b3 :: bs3 =>
                0xF0 ≤ b0 && b0 ≤ 0xF4 && secondOk b0 b1 && isCont b2 && isCont b3 &&
                  utf8Valid bs3
              | [] => false
          | [] => false
      | [] => false

/-- A Rust `String`: bytes that are valid UTF-8. -/
structure RString where
  bytes : List UInt8
  valid : utf8Valid bytes = true

/-- `String::default()`. -/
def RString.empty : RString := ⟨[], rfl⟩

/-- `std::str::from_utf8`. -/
def fromUtf8 (bs : List UInt8) : Option RString :=
  if h : utf8Valid bs = true then some ⟨bs, h⟩ else none

theorem bytes_fromUtf8_getD (bs : List UInt8) :
    ((fromUtf8 bs).getD RString.empty).bytes = if utf8Valid bs then bs else [] := by
  unfold fromUtf8
  split <;> simp_all [RString.empty]

/-! ## The tokenizer and the chunks -/

/-- `STREAMING_CHUNK_SIZE`: the parsed value of the variable, raised to two thirds of the default
of `16384`, or the default. -/
def streamingChunkSize (env : Option Nat) : Nat :=
  let defaultStreamingChunkSize := 8192 * 2
  let minStreamingChunkSize := defaultStreamingChunkSize * 2 / 3
  match env with
  | some val => if val < minStreamingChunkSize then minStreamingChunkSize else val
  | none => defaultStreamingChunkSize

/-- `html.chunks(n)`, with the number of chunks bounded by the length. -/
def chunksFuel (n : Nat) : Nat → List UInt8 → List (List UInt8)
  | 0, _ => []
  | fuel + 1, bs => if bs.isEmpty then [] else bs.take n :: chunksFuel n fuel (bs.drop n)

/-- `html.chunks(n)`. -/
def chunks (n : Nat) (bs : List UInt8) : List (List UInt8) := chunksFuel n bs.length bs

/-- With enough fuel, the chunks are non-empty, at most `n` long, and make up the input. -/
theorem chunksFuel_spec {n : Nat} (hn : 0 < n) :
    ∀ (fuel : Nat) (bs : List UInt8), bs.length ≤ fuel →
      (chunksFuel n fuel bs).flatten = bs ∧ ∀ c ∈ chunksFuel n fuel bs, c ≠ [] ∧ c.length ≤ n
  | 0, bs, h => by simp [chunksFuel, List.eq_nil_of_length_eq_zero (Nat.le_zero.mp h)]
  | fuel + 1, bs, h => by
    rcases bs with _ | ⟨b, bs⟩
    · simp [chunksFuel]
    · obtain ⟨hflat, hall⟩ := chunksFuel_spec hn fuel ((b :: bs).drop n)
        (by simp only [List.length_drop, List.length_cons] at h ⊢; omega)
      refine ⟨by simp [chunksFuel, hflat], ?_⟩
      simp only [chunksFuel, List.isEmpty_cons, Bool.false_eq_true, if_false, List.mem_cons,
        forall_eq_or_imp]
      refine ⟨⟨?_, List.length_take_le _ _⟩, hall⟩
      obtain ⟨m, rfl⟩ := Nat.exists_eq_add_of_lt hn
      simp

theorem streamingChunkSize_pos (env : Option Nat) : 0 < streamingChunkSize env := by
  cases env with
  | none => decide
  | some val => simp only [streamingChunkSize]; split <;> omega

/-- Whatever `STREAMING_CHUNK_SIZE` is set to, `html.chunks(*STREAMING_CHUNK_SIZE)` never takes a
chunk size of `0` (on which it would panic): it cuts the document into non-empty chunks of at
most that size which make up the whole document, in order. -/
theorem chunks_streamingChunkSize (env : Option Nat) (html : List UInt8) :
    (chunks (streamingChunkSize env) html).flatten = html ∧
      ∀ c ∈ chunks (streamingChunkSize env) html, c ≠ [] ∧ c.length ≤ streamingChunkSize env :=
  chunksFuel_spec (streamingChunkSize_pos env) _ html le_rfl

/-- The tokenizer of `lol_html`: a write delivers events to the handlers and gives the next state,
or none when it fails; `finish` is `end()`, whose failure is dropped. -/
structure Tokenizer (τ : Type) where
  init : τ
  write : τ → List UInt8 → List Event × Option τ
  finish : τ → List Event

variable {τ : Type}

/-- The events delivered when every chunk is written until the first failed write, and `end()`
is called if none fails. -/
def Tokenizer.delivered (tz : Tokenizer τ) : τ → List (List UInt8) → List Event
  | t, [] => tz.finish t
  | t, chunk :: rest =>
    match tz.write t chunk with
    | (evs, some t') => evs ++ tz.delivered t' rest
    | (evs, none) => evs

/-- The events of a run in which no write fails; none if one does. -/
def Tokenizer.events (tz : Tokenizer τ) : τ → List (List UInt8) → Option (List Event)
  | t, [] => some (tz.finish t)
  | t, chunk :: rest =>
    match tz.write t chunk with
    | (evs, some t') => (evs ++ ·) <$> tz.events t' rest
    | (_, none) => none

theorem Tokenizer.delivered_of_events (tz : Tokenizer τ) :
    ∀ (t : τ) (cs : List (List UInt8)) (evs : List Event), tz.events t cs = some evs →
      tz.delivered t cs = evs
  | t, [], evs, h => by simpa [Tokenizer.events, Tokenizer.delivered] using h
  | t, c :: cs, evs, h => by
    simp only [Tokenizer.events, Tokenizer.delivered] at h ⊢
    rcases hw : tz.write t c with ⟨evs₁, _ | t'⟩ <;> rw [hw] at h
    · cases h
    · obtain ⟨evs₂, h₂, rfl⟩ := Option.map_eq_some'.mp h
      simp only [tz.delivered_of_events t' cs evs₂ h₂]

/-! ## The loop -/

/-- The `while let` loop: stop before a write once `already_present` is set, and after a failed
write; the tokenizer state, the handlers' state and `wrote_error`. -/
def writeLoop (tz : Tokenizer τ) (baseUrl : Option String) :
    τ → Rw → List (List UInt8) → τ × Rw × Bool
  | t, rw, [] => (t, rw, false)
  | t, rw, chunk :: rest =>
    if rw.alreadyPresent then (t, rw, false)
    else
      match tz.write t chunk with
      | (evs, some t') => writeLoop tz baseUrl t' (feed baseUrl rw evs) rest
      | (evs, none) => (t, feed baseUrl rw evs, true)

/-- The handlers' state once the loop is over and `end()` has run unless a write failed. -/
def finalState (tz : Tokenizer τ) (baseUrl : Option String) (t : τ) (rw : Rw)
    (cs : List (List UInt8)) : Rw :=
  match writeLoop tz baseUrl t rw cs with
  | (t', rw', false) => feed baseUrl rw' (tz.finish t')
  | (_, rw', true) => rw'

/-- `rewrite_base_tag`, with `auto_encoder::auto_encode_bytes` given and `chunkSize` for
`*STREAMING_CHUNK_SIZE`. -/
def rewriteBaseTag (tz : Tokenizer τ) (autoEncodeBytes : List UInt8 → RString) (chunkSize : Nat)
    (html : List UInt8) (baseUrl : Option String) : RString :=
  if html.isEmpty then RString.empty
  else
    let rw := finalState tz baseUrl tz.init Rw.init (chunks chunkSize html)
    if rw.alreadyPresent then (fromUtf8 html).getD RString.empty
    else autoEncodeBytes (rw.out.flatMap Piece.bytes)

/-! ## The early exit changes nothing -/

theorem alreadyPresent_onEvent_mono (b : Option String) (rw : Rw) (e : Event)
    (h : rw.alreadyPresent = true) : (onEvent b rw e).alreadyPresent = true := by
  rcases e with ⟨k, raw⟩
  cases k with
  | base href =>
    simp only [onEvent, onBase]
    split
    · rcases href with _ | attr
      · exact h
      · simp only; split <;> simp [h]
    · exact h
  | headEnd | htmlEnd => simp only [onEvent]; split <;> exact h
  | _ => exact h

theorem alreadyPresent_feed_mono (b : Option String) :
    ∀ (rw : Rw) (evs : List Event), rw.alreadyPresent = true → (feed b rw evs).alreadyPresent = true
  | _, [], h => h
  | rw, e :: evs, h => alreadyPresent_feed_mono b _ evs (alreadyPresent_onEvent_mono b rw e h)

/-- The loop ends with the flag the handlers reach on all delivered events. -/
theorem finalState_alreadyPresent (tz : Tokenizer τ) (b : Option String) :
    ∀ (t : τ) (rw : Rw) (cs : List (List UInt8)),
      (finalState tz b t rw cs).alreadyPresent = (feed b rw (tz.delivered t cs)).alreadyPresent
  | t, rw, [] => rfl
  | t, rw, c :: cs => by
    by_cases hp : rw.alreadyPresent = true
    · simp only [finalState, writeLoop, hp, if_true]
      rw [alreadyPresent_feed_mono b _ _ hp, alreadyPresent_feed_mono b _ _ hp]
    · rcases hw : tz.write t c with ⟨evs, _ | t'⟩
      · simp [finalState, writeLoop, Tokenizer.delivered, hp, hw]
      · have ih := finalState_alreadyPresent tz b t' (feed b rw evs) cs
        simp only [finalState, writeLoop, Tokenizer.delivered, hp, hw] at ih ⊢
        simpa [feed_append] using ih

/-- While the flag stays unset the loop is the handlers run on all delivered events. -/
theorem finalState_eq_feed (tz : Tokenizer τ) (b : Option String) :
    ∀ (t : τ) (rw : Rw) (cs : List (List UInt8)),
      (feed b rw (tz.delivered t cs)).alreadyPresent = false →
        finalState tz b t rw cs = feed b rw (tz.delivered t cs)
  | t, rw, [], _ => rfl
  | t, rw, c :: cs, h => by
    by_cases hp : rw.alreadyPresent = true
    · rw [alreadyPresent_feed_mono b _ _ hp] at h
      cases h
    · rcases hw : tz.write t c with ⟨evs, _ | t'⟩
      · simp [finalState, writeLoop, Tokenizer.delivered, hp, hw]
      · have h' : (feed b (feed b rw evs) (tz.delivered t' cs)).alreadyPresent = false := by
          simpa [Tokenizer.delivered, hw, feed_append] using h
        have ih := finalState_eq_feed tz b t' (feed b rw evs) cs h'
        simp only [finalState, writeLoop, Tokenizer.delivered, hp, hw] at ih ⊢
        simpa [feed_append] using ih

/-- The handlers run on a whole event stream with no early exit, then the choice of result. -/
def rewriteWhole (autoEncodeBytes : List UInt8 → RString) (html : List UInt8)
    (baseUrl : Option String) (evs : List Event) : RString :=
  if html.isEmpty then RString.empty
  else
    let rw := feed baseUrl Rw.init evs
    if rw.alreadyPresent then (fromUtf8 html).getD RString.empty
    else autoEncodeBytes (rw.out.flatMap Piece.bytes)

/-- `rewrite_base_tag` is the whole run on the events delivered on its chunking. -/
theorem rewriteBaseTag_eq (tz : Tokenizer τ) (ae : List UInt8 → RString) (n : Nat)
    (html : List UInt8) (b : Option String) :
    rewriteBaseTag tz ae n html b = rewriteWhole ae html b (tz.delivered tz.init (chunks n html)) := by
  simp only [rewriteBaseTag, rewriteWhole, finalState_alreadyPresent]
  split
  · rfl
  · split
    · rfl
    · rename_i h
      rw [finalState_eq_feed tz b _ _ _ (by simpa using h)]

/-- Once an absolute base is delivered before any write fails, the result is the input itself
when it is valid UTF-8, and the empty string otherwise. -/
theorem rewriteBaseTag_of_absolute (tz : Tokenizer τ) (ae : List UInt8 → RString) (n : Nat)
    (html : List UInt8) (b : Option String) (hne : html ≠ [])
    (habs : (tz.delivered tz.init (chunks n html)).any Event.isAbsoluteBase = true) :
    (rewriteBaseTag tz ae n html b).bytes = if utf8Valid html then html else [] := by
  have hne' : html.isEmpty = false := by simpa using hne
  rw [rewriteBaseTag_eq, rewriteWhole]
  simp only [hne', alreadyPresent_feed_init, habs, if_true, Bool.false_eq_true, if_false]
  exact bytes_fromUtf8_getD html

/-- The whole run reads the text of the stream only through its bytes between the other events. -/
theorem rewriteWhole_mergeText (ae : List UInt8 → RString) (html : List UInt8) (b : Option String)
    (evs : List Event) : rewriteWhole ae html b (mergeText evs) = rewriteWhole ae html b evs := by
  have h := feed_mergeText_view b Rw.init evs
  simp only [Rw.view, Prod.mk.injEq, Rw.mk.injEq] at h
  simp only [rewriteWhole, h.1.2.1, h.2]

/-- Two chunkings whose writes all succeed and deliver the same `base`, `head` and `html` events,
in the same order and with the same text between them however it is cut, both give the result of
running the handlers with no early exit on the stream with its text merged. -/
theorem rewriteBaseTag_chunking (tz : Tokenizer τ) (ae : List UInt8 → RString) (c₁ c₂ : Nat)
    (html : List UInt8) (b : Option String) {evs₁ evs₂ : List Event}
    (h₁ : tz.events tz.init (chunks c₁ html) = some evs₁)
    (h₂ : tz.events tz.init (chunks c₂ html) = some evs₂)
    (hm : mergeText evs₁ = mergeText evs₂) :
    rewriteBaseTag tz ae c₁ html b = rewriteWhole ae html b (mergeText evs₁) ∧
      rewriteBaseTag tz ae c₂ html b = rewriteWhole ae html b (mergeText evs₁) := by
  rw [rewriteBaseTag_eq, rewriteBaseTag_eq, tz.delivered_of_events _ _ _ h₁,
    tz.delivered_of_events _ _ _ h₂, ← rewriteWhole_mergeText ae html b evs₂, ← hm,
    rewriteWhole_mergeText]
  exact ⟨rfl, rfl⟩

/-- A tokenizer that sends each chunk it is written as one text event, as `lol_html` flushes the
text of each chunk. -/
def textTokenizer : Tokenizer Unit where
  init := ()
  write _ chunk := ([⟨.other, chunk⟩], some ())
  finish _ := []

/-- The document `hello`. -/
def hello : List UInt8 := [104, 101, 108, 108, 111]

theorem rewriteBaseTag_chunking_text :
    textTokenizer.events () (chunks 2 hello) =
        some [⟨.other, [104, 101]⟩, ⟨.other, [108, 108]⟩, ⟨.other, [111]⟩] ∧
      textTokenizer.events () (chunks 3 hello) =
        some [⟨.other, [104, 101, 108]⟩, ⟨.other, [108, 111]⟩] ∧
      mergeText [⟨.other, [104, 101]⟩, ⟨.other, [108, 108]⟩, ⟨.other, [111]⟩] =
        mergeText [⟨.other, [104, 101, 108]⟩, ⟨.other, [108, 111]⟩] ∧
      (rewriteBaseTag textTokenizer (fun _ => RString.empty) 2 hello none =
          rewriteWhole (fun _ => RString.empty) hello none
            (mergeText [⟨.other, [104, 101]⟩, ⟨.other, [108, 108]⟩, ⟨.other, [111]⟩]) ∧
        rewriteBaseTag textTokenizer (fun _ => RString.empty) 3 hello none =
          rewriteWhole (fun _ => RString.empty) hello none
            (mergeText [⟨.other, [104, 101]⟩, ⟨.other, [108, 108]⟩, ⟨.other, [111]⟩])) :=
  ⟨rfl, rfl, by decide, rewriteBaseTag_chunking textTokenizer _ 2 3 hello none rfl rfl (by decide)⟩

/-- A tokenizer that reports `<base href="https://example.com/">` among the events of its first
write. -/
def absoluteBaseFirst : Tokenizer Unit where
  init := ()
  write _ _ := ([⟨.base (some "https://example.com/"), []⟩], some ())
  finish _ := []

/-- The document `<base href="https://example.com/">` followed by the byte `0xFF`, which is not
UTF-8. -/
def absoluteBaseLatin1 : List UInt8 :=
  "<base href=\"https://example.com/\">".data.map (fun c => c.toNat.toUInt8) ++ [0xFF]

theorem rewriteBaseTag_absolute_invalid_utf8_empty :
    ¬ ∀ (τ : Type) (tz : Tokenizer τ) (ae : List UInt8 → RString) (n : Nat) (html : List UInt8)
      (b : Option String), html ≠ [] →
        (tz.delivered tz.init (chunks n html)).any Event.isAbsoluteBase = true →
        (utf8Valid html = true → (rewriteBaseTag tz ae n html b).bytes = html) ∧
        (utf8Valid html = false → (rewriteBaseTag tz ae n html b).bytes ≠ []) := fun h =>
  (h Unit absoluteBaseFirst (fun _ => RString.empty) 16384 absoluteBaseLatin1 none (by decide)
    (by decide)).2 (by decide) (by decide)

theorem rewriteBaseTag_of_absolute_latin1 :
    absoluteBaseLatin1 ≠ [] ∧
      (absoluteBaseFirst.delivered () (chunks 16384 absoluteBaseLatin1)).any
        Event.isAbsoluteBase = true ∧
      (rewriteBaseTag absoluteBaseFirst (fun _ => RString.empty) 16384 absoluteBaseLatin1
        none).bytes = if utf8Valid absoluteBaseLatin1 then absoluteBaseLatin1 else [] :=
  ⟨by decide, by decide, rewriteBaseTag_of_absolute absoluteBaseFirst _ 16384 absoluteBaseLatin1
    none (by decide) (by decide)⟩

end ChromeyCache.Manager.Rewrite
