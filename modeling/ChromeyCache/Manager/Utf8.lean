import ChromeyCache.Manager.Rewrite
import Mathlib.Algebra.Group.Nat.Basic

/-! # `std::str::from_utf8` accepts exactly the encoded strings

Once the page already carries an absolute base, `rewrite_base_tag` hands its bytes back through
`std::str::from_utf8`, and `utf8Valid` is that validation, written from the byte ranges of the
UTF-8 table. Here it is checked against an encoder written independently, Lean's
`String.utf8EncodeChar`: every byte the encoder writes is computed as a number (`toNat_lead2`,
`toNat_cont`, ...), each of the four sequence lengths is accepted on its ranges, and each accepted
sequence is the encoding of the code point its bits spell.

* `utf8Valid_utf8EncodeChar_append`: the bytes of one character are read as one sequence, whatever
  follows them;
* `exists_utf8EncodeChar_append`: an accepted sequence starts with the bytes of one character;
* `utf8Valid_iff_toUTF8`: the accepted byte sequences are exactly the UTF-8 encodings of strings;
* `rewriteBaseTag_eq_self_iff`: once an absolute base is delivered, `rewrite_base_tag` returns a
  non-empty document unchanged exactly when it is the encoding of a string.
-/

namespace ChromeyCache.Manager.Utf8

open ChromeyCache.Manager.BaseTag ChromeyCache.Manager.Rewrite

/-! ## Bytes as numbers -/

theorem uint8_lt_iff {a b : UInt8} : a < b ↔ a.toNat < b.toNat := Iff.rfl

theorem uint8_le_iff {a b : UInt8} : a ≤ b ↔ a.toNat ≤ b.toNat := Iff.rfl

theorem uint8_eq_iff {a b : UInt8} : a = b ↔ a.toNat = b.toNat := ⟨congrArg _, UInt8.toNat.inj⟩

theorem uint32_le_iff {a b : UInt32} : a ≤ b ↔ a.toNat ≤ b.toNat := Iff.rfl

theorem toNat_toUInt8 (x : UInt32) : x.toUInt8.toNat = x.toNat % 2 ^ 8 := by
  simp [UInt32.toUInt8, UInt8.toNat, UInt8.ofNat, BitVec.toNat_ofNat]

theorem toNat_shiftRight (v s : UInt32) (hs : s.toNat < 32) :
    (v >>> s).toNat = v.toNat / 2 ^ s.toNat := by
  show (v.toBitVec >>> (s % 32).toBitVec).toNat = _
  have hmod : (s % 32).toNat = s.toNat := by
    show (s.toBitVec % (32 : UInt32).toBitVec).toNat = _
    rw [BitVec.toNat_umod]
    exact Nat.mod_eq_of_lt hs
  rw [BitVec.ushiftRight_eq', BitVec.toNat_ushiftRight, Nat.shiftRight_eq_div_pow]
  exact congrArg (_ / 2 ^ ·) hmod

/-- The low `k` bits of `x` under the marker `l`, which sits above them. -/
theorem toNat_mask (x : UInt32) (m l : UInt8) (k : Nat) (hk : k ≤ 8) (hm : m.toNat = 2 ^ k - 1)
    (hl : ∀ a < 2 ^ k, a ||| l.toNat = a + l.toNat) :
    (x.toUInt8 &&& m ||| l).toNat = x.toNat % 2 ^ k + l.toNat := by
  show ((x.toUInt8 &&& m).toBitVec ||| l.toBitVec).toNat = _
  rw [BitVec.toNat_or]
  show (x.toUInt8.toNat &&& m.toNat) ||| l.toNat = _
  rw [hm, Nat.and_pow_two_sub_one_eq_mod, toNat_toUInt8,
    Nat.mod_mod_of_dvd _ (Nat.pow_dvd_pow 2 hk)]
  exact hl _ (Nat.mod_lt _ (Nat.two_pow_pos k))

/-! ## The bytes the encoder writes

The encoder reads the code point in groups of six bits, `v / 64 / 64 / ...`; a code point written
in the same base, `((p0 * 64 + p1) * 64 + p2) * 64 + p3`, gives its groups back (`div_horner`,
`mod_horner`). -/

theorem toNat_shiftRight_six (v : UInt32) : (v >>> 6).toNat = v.toNat / 64 :=
  toNat_shiftRight v 6 (by decide)

theorem toNat_shiftRight_twelve (v : UInt32) : (v >>> 12).toNat = v.toNat / 64 / 64 := by
  rw [toNat_shiftRight v 12 (by decide), Nat.div_div_eq_div_mul]; rfl

theorem toNat_lead2 (v : UInt32) :
    ((v >>> 6).toUInt8 &&& 0x1f ||| 0xc0).toNat = v.toNat / 64 % 32 + 0xC0 := by
  rw [toNat_mask _ 0x1f 0xc0 5 (by decide) rfl (by decide), toNat_shiftRight_six]; rfl

theorem toNat_lead3 (v : UInt32) :
    ((v >>> 12).toUInt8 &&& 0x0f ||| 0xe0).toNat = v.toNat / 64 / 64 % 16 + 0xE0 := by
  rw [toNat_mask _ 0x0f 0xe0 4 (by decide) rfl (by decide), toNat_shiftRight_twelve]; rfl

theorem toNat_lead4 (v : UInt32) :
    ((v >>> 18).toUInt8 &&& 0x07 ||| 0xf0).toNat = v.toNat / 64 / 64 / 64 % 8 + 0xF0 := by
  rw [toNat_mask _ 0x07 0xf0 3 (by decide) rfl (by decide), toNat_shiftRight v 18 (by decide),
    Nat.div_div_eq_div_mul, Nat.div_div_eq_div_mul]; rfl

theorem toNat_cont (x : UInt32) : (x.toUInt8 &&& 0x3f ||| 0x80).toNat = x.toNat % 64 + 0x80 :=
  toNat_mask _ _ _ 6 (by decide) rfl (by decide)

theorem div_horner (x : Nat) {d : Nat} (hd : d < 64) : (x * 64 + d) / 64 = x := by omega

theorem mod_horner (x : Nat) {d : Nat} (hd : d < 64) : (x * 64 + d) % 64 = d := by omega

/-! ## The validation on its ranges -/

theorem isCont_iff {b : UInt8} : isCont b = true ↔ 0x80 ≤ b.toNat ∧ b.toNat ≤ 0xBF := by
  simp only [isCont, uint8_le_iff, UInt8.reduceToNat, Bool.and_eq_true, decide_eq_true_eq]

theorem secondOk_iff {b0 b1 : UInt8} :
    secondOk b0 b1 = true ↔ isCont b1 = true ∧ (b0.toNat = 0xE0 → 0xA0 ≤ b1.toNat) ∧
      (b0.toNat = 0xED → b1.toNat ≤ 0x9F) ∧ (b0.toNat = 0xF0 → 0x90 ≤ b1.toNat) ∧
      (b0.toNat = 0xF4 → b1.toNat ≤ 0x8F) := by
  simp only [secondOk, uint8_eq_iff, uint8_le_iff, UInt8.reduceToNat]
  split_ifs <;> simp only [isCont_iff, Bool.and_eq_true, decide_eq_true_eq] <;> omega

theorem utf8Valid_one {b : UInt8} (h : b.toNat < 0x80) (bs : List UInt8) :
    utf8Valid (b :: bs) = utf8Valid bs := by
  rw [utf8Valid.eq_def]
  exact if_pos h

theorem utf8Valid_two {b0 b1 : UInt8} (h0 : 0xC2 ≤ b0.toNat ∧ b0.toNat ≤ 0xDF)
    (h1 : isCont b1 = true) (bs : List UInt8) : utf8Valid (b0 :: b1 :: bs) = utf8Valid bs := by
  rw [utf8Valid.eq_def]
  simp only [uint8_lt_iff, uint8_le_iff, UInt8.reduceToNat, Bool.and_eq_true, decide_eq_true_eq,
    h1, Bool.true_and]
  rw [if_neg (by omega), if_pos h0]

theorem utf8Valid_three {b0 b1 b2 : UInt8} (h0 : 0xE0 ≤ b0.toNat ∧ b0.toNat ≤ 0xEF)
    (h1 : secondOk b0 b1 = true) (h2 : isCont b2 = true) (bs : List UInt8) :
    utf8Valid (b0 :: b1 :: b2 :: bs) = utf8Valid bs := by
  rw [utf8Valid.eq_def]
  simp only [uint8_lt_iff, uint8_le_iff, UInt8.reduceToNat, Bool.and_eq_true, decide_eq_true_eq,
    h1, h2, Bool.true_and]
  rw [if_neg (by omega), if_neg (by omega), if_pos h0]

theorem utf8Valid_four {b0 b1 b2 b3 : UInt8} (h0 : 0xF0 ≤ b0.toNat ∧ b0.toNat ≤ 0xF4)
    (h1 : secondOk b0 b1 = true) (h2 : isCont b2 = true) (h3 : isCont b3 = true)
    (bs : List UInt8) : utf8Valid (b0 :: b1 :: b2 :: b3 :: bs) = utf8Valid bs := by
  rw [utf8Valid.eq_def]
  simp only [uint8_lt_iff, uint8_le_iff, UInt8.reduceToNat, Bool.and_eq_true, decide_eq_true_eq,
    h1, h2, h3, Bool.and_true]
  rw [if_neg (by omega), if_neg (by omega), if_neg (by omega)]
  simp only [h0.1, h0.2, decide_True, Bool.true_and]

/-- What an accepted sequence starts with: one of the four lengths, on its ranges. -/
theorem utf8Valid_cons_cases {b0 : UInt8} {bs : List UInt8} (h : utf8Valid (b0 :: bs) = true) :
    (b0.toNat < 0x80 ∧ utf8Valid bs = true) ∨
    (∃ b1 bs1, bs = b1 :: bs1 ∧ (0xC2 ≤ b0.toNat ∧ b0.toNat ≤ 0xDF) ∧ isCont b1 = true ∧
      utf8Valid bs1 = true) ∨
    (∃ b1 b2 bs2, bs = b1 :: b2 :: bs2 ∧ (0xE0 ≤ b0.toNat ∧ b0.toNat ≤ 0xEF) ∧
      secondOk b0 b1 = true ∧ isCont b2 = true ∧ utf8Valid bs2 = true) ∨
    (∃ b1 b2 b3 bs3, bs = b1 :: b2 :: b3 :: bs3 ∧ (0xF0 ≤ b0.toNat ∧ b0.toNat ≤ 0xF4) ∧
      secondOk b0 b1 = true ∧ isCont b2 = true ∧ isCont b3 = true ∧ utf8Valid bs3 = true) := by
  rw [utf8Valid.eq_def] at h
  simp only [uint8_lt_iff, uint8_le_iff, Bool.and_eq_true, decide_eq_true_eq,
    UInt8.reduceToNat] at h
  split_ifs at h with h0 h1 h2
  · exact .inl ⟨h0, h⟩
  · obtain _ | ⟨b1, bs1⟩ := bs <;> simp only [Bool.and_eq_true, Bool.false_eq_true] at h
    exact .inr (.inl ⟨b1, bs1, rfl, h1, h⟩)
  · obtain _ | ⟨b1, _ | ⟨b2, bs2⟩⟩ := bs
      <;> simp only [Bool.and_eq_true, Bool.false_eq_true] at h
    exact .inr (.inr (.inl ⟨b1, b2, bs2, rfl, h2, h.1.1, h.1.2, h.2⟩))
  · obtain _ | ⟨b1, _ | ⟨b2, _ | ⟨b3, bs3⟩⟩⟩ := bs
      <;> simp only [Bool.and_eq_true, decide_eq_true_eq, Bool.false_eq_true] at h
    obtain ⟨⟨⟨⟨⟨h3, h4⟩, h5⟩, h6⟩, h7⟩, h8⟩ := h
    exact .inr (.inr (.inr ⟨b1, b2, b3, bs3, rfl, ⟨h3, h4⟩, h5, h6, h7, h8⟩))

/-! ## Every encoded string is valid -/

/-- The bytes of one character are one accepted sequence: its lead byte is in the range of its
length, surrogates never occur and the narrow second-byte ranges hold. -/
theorem utf8Valid_utf8EncodeChar_append (c : Char) (rest : List UInt8) :
    utf8Valid (String.utf8EncodeChar c ++ rest) = utf8Valid rest := by
  have hc : c.val.toNat < 0xd800 ∨ 0xdfff < c.val.toNat ∧ c.val.toNat < 0x110000 := c.valid
  simp only [String.utf8EncodeChar, uint32_le_iff, UInt32.reduceToNat]
  split_ifs with h1 h2 h3 <;> simp only [List.cons_append, List.nil_append]
  · exact utf8Valid_one (by rw [toNat_toUInt8]; omega) rest
  · rw [utf8Valid_two (by rw [toNat_lead2]; omega) (by rw [isCont_iff, toNat_cont]; omega)]
  · rw [utf8Valid_three (by rw [toNat_lead3]; omega)
      (by rw [secondOk_iff, isCont_iff, toNat_cont, toNat_lead3, toNat_shiftRight_six]; omega)
      (by rw [isCont_iff, toNat_cont]; omega)]
  · rw [utf8Valid_four (by rw [toNat_lead4]; omega)
      (by rw [secondOk_iff, isCont_iff, toNat_cont, toNat_lead4, toNat_shiftRight_twelve]; omega)
      (by rw [isCont_iff, toNat_cont, toNat_shiftRight_six]; omega)
      (by rw [isCont_iff, toNat_cont]; omega)]

theorem utf8Valid_flatMap_utf8EncodeChar :
    ∀ cs : List Char, utf8Valid (cs.flatMap String.utf8EncodeChar) = true
  | [] => rfl
  | c :: cs => by
    rw [List.flatMap_cons, utf8Valid_utf8EncodeChar_append]
    exact utf8Valid_flatMap_utf8EncodeChar cs

/-- The UTF-8 encoding of every string is valid. -/
theorem utf8Valid_toUTF8 (s : String) : utf8Valid s.toUTF8.data.toList = true :=
  utf8Valid_flatMap_utf8EncodeChar s.data

/-! ## Every accepted sequence is an encoded string -/

theorem exists_char_val (v : Nat) (h : v.isValidChar) : ∃ c : Char, c.val.toNat = v :=
  ⟨Char.ofNatAux v h, rfl⟩

/-- The six bits a continuation byte carries. -/
theorem exists_payload {b : UInt8} (h : isCont b = true) : ∃ p < 64, b.toNat = p + 0x80 := by
  rw [isCont_iff] at h
  exact ⟨b.toNat - 0x80, by omega, by omega⟩

theorem utf8EncodeChar_of_one {b : UInt8} (h : b.toNat < 0x80) :
    ∃ c : Char, String.utf8EncodeChar c = [b] := by
  obtain ⟨c, hc⟩ := exists_char_val b.toNat (.inl (by omega))
  refine ⟨c, ?_⟩
  simp only [String.utf8EncodeChar, uint32_le_iff, UInt32.reduceToNat, hc]
  rw [if_pos (by omega)]
  simp only [List.cons.injEq, uint8_eq_iff, toNat_toUInt8, hc, and_true]
  omega

theorem utf8EncodeChar_of_two {b0 b1 : UInt8} (h0 : 0xC2 ≤ b0.toNat ∧ b0.toNat ≤ 0xDF)
    (h1 : isCont b1 = true) : ∃ c : Char, String.utf8EncodeChar c = [b0, b1] := by
  obtain ⟨p0, e0⟩ : ∃ p, b0.toNat = p + 0xC0 := ⟨_, (Nat.sub_add_cancel (by omega)).symm⟩
  obtain ⟨p1, hp1, e1⟩ := exists_payload h1
  rw [e0] at h0
  obtain ⟨c, hc⟩ := exists_char_val (p0 * 64 + p1) (.inl (by omega))
  refine ⟨c, ?_⟩
  simp only [String.utf8EncodeChar, uint32_le_iff, UInt32.reduceToNat, hc]
  rw [if_neg (by omega), if_pos (by omega)]
  simp only [List.cons.injEq, uint8_eq_iff, toNat_lead2, toNat_cont, hc, div_horner _ hp1,
    mod_horner _ hp1, e0, e1, and_true]
  omega

theorem utf8EncodeChar_of_three {b0 b1 b2 : UInt8} (h0 : 0xE0 ≤ b0.toNat ∧ b0.toNat ≤ 0xEF)
    (h1 : secondOk b0 b1 = true) (h2 : isCont b2 = true) :
    ∃ c : Char, String.utf8EncodeChar c = [b0, b1, b2] := by
  obtain ⟨h1, hE0, hED, -, -⟩ := secondOk_iff.mp h1
  obtain ⟨p0, e0⟩ : ∃ p, b0.toNat = p + 0xE0 := ⟨_, (Nat.sub_add_cancel h0.1).symm⟩
  obtain ⟨p1, hp1, e1⟩ := exists_payload h1
  obtain ⟨p2, hp2, e2⟩ := exists_payload h2
  rw [e0, e1] at hE0 hED
  rw [e0] at h0
  obtain ⟨c, hc⟩ := exists_char_val ((p0 * 64 + p1) * 64 + p2) (by omega)
  refine ⟨c, ?_⟩
  simp only [String.utf8EncodeChar, uint32_le_iff, UInt32.reduceToNat, hc]
  rw [if_neg (by omega), if_neg (by omega), if_pos (by omega)]
  simp only [List.cons.injEq, uint8_eq_iff, toNat_lead3, toNat_cont, toNat_shiftRight_six, hc,
    div_horner _ hp2, div_horner _ hp1, mod_horner _ hp2, mod_horner _ hp1, e0, e1, e2, and_true]
  omega

theorem utf8EncodeChar_of_four {b0 b1 b2 b3 : UInt8} (h0 : 0xF0 ≤ b0.toNat ∧ b0.toNat ≤ 0xF4)
    (h1 : secondOk b0 b1 = true) (h2 : isCont b2 = true) (h3 : isCont b3 = true) :
    ∃ c : Char, String.utf8EncodeChar c = [b0, b1, b2, b3] := by
  obtain ⟨h1, -, -, hF0, hF4⟩ := secondOk_iff.mp h1
  obtain ⟨p0, e0⟩ : ∃ p, b0.toNat = p + 0xF0 := ⟨_, (Nat.sub_add_cancel h0.1).symm⟩
  obtain ⟨p1, hp1, e1⟩ := exists_payload h1
  obtain ⟨p2, hp2, e2⟩ := exists_payload h2
  obtain ⟨p3, hp3, e3⟩ := exists_payload h3
  rw [e0, e1] at hF0 hF4
  rw [e0] at h0
  obtain ⟨c, hc⟩ := exists_char_val (((p0 * 64 + p1) * 64 + p2) * 64 + p3) (.inr (by omega))
  refine ⟨c, ?_⟩
  simp only [String.utf8EncodeChar, uint32_le_iff, UInt32.reduceToNat, hc]
  rw [if_neg (by omega), if_neg (by omega), if_neg (by omega)]
  simp only [List.cons.injEq, uint8_eq_iff, toNat_lead4, toNat_cont, toNat_shiftRight_six,
    toNat_shiftRight_twelve, hc, div_horner _ hp3, div_horner _ hp2, div_horner _ hp1,
    mod_horner _ hp3, mod_horner _ hp2, mod_horner _ hp1, e0, e1, e2, e3, and_true]
  omega

/-- An accepted sequence starts with the bytes of one character, and the rest is accepted. -/
theorem exists_utf8EncodeChar_append {b0 : UInt8} {bs : List UInt8}
    (h : utf8Valid (b0 :: bs) = true) :
    ∃ c rest, b0 :: bs = String.utf8EncodeChar c ++ rest ∧ utf8Valid rest = true := by
  rcases utf8Valid_cons_cases h with ⟨h0, h⟩ | ⟨b1, bs1, rfl, h0, h1, h⟩ |
      ⟨b1, b2, bs2, rfl, h0, h1, h2, h⟩ | ⟨b1, b2, b3, bs3, rfl, h0, h1, h2, h3, h⟩
  · obtain ⟨c, hc⟩ := utf8EncodeChar_of_one h0
    exact ⟨c, bs, by rw [hc]; rfl, h⟩
  · obtain ⟨c, hc⟩ := utf8EncodeChar_of_two h0 h1
    exact ⟨c, bs1, by rw [hc]; rfl, h⟩
  · obtain ⟨c, hc⟩ := utf8EncodeChar_of_three h0 h1 h2
    exact ⟨c, bs2, by rw [hc]; rfl, h⟩
  · obtain ⟨c, hc⟩ := utf8EncodeChar_of_four h0 h1 h2 h3
    exact ⟨c, bs3, by rw [hc]; rfl, h⟩

theorem exists_flatMap_of_utf8Valid :
    ∀ bs : List UInt8, utf8Valid bs = true → ∃ cs : List Char, cs.flatMap String.utf8EncodeChar = bs
  | [], _ => ⟨[], rfl⟩
  | b0 :: bs, h =>
    let ⟨c, rest, he, hr⟩ := exists_utf8EncodeChar_append h
    have : rest.length < bs.length + 1 := by
      have := congrArg List.length he
      simp only [List.length_cons, List.length_append, String.length_utf8EncodeChar] at this
      have := c.utf8Size_pos
      omega
    let ⟨cs, hcs⟩ := exists_flatMap_of_utf8Valid rest hr
    ⟨c :: cs, by rw [List.flatMap_cons, hcs, he]⟩
termination_by bs => bs.length

theorem exists_toUTF8_of_utf8Valid {bs : List UInt8} (h : utf8Valid bs = true) :
    ∃ s : String, s.toUTF8.data.toList = bs :=
  let ⟨cs, hcs⟩ := exists_flatMap_of_utf8Valid bs h
  ⟨⟨cs⟩, hcs⟩

/-- The validation of `std::str::from_utf8` accepts exactly the UTF-8 encodings of strings. -/
theorem utf8Valid_iff_toUTF8 (bs : List UInt8) :
    utf8Valid bs = true ↔ ∃ s : String, s.toUTF8.data.toList = bs :=
  ⟨exists_toUTF8_of_utf8Valid, fun ⟨s, hs⟩ => hs ▸ utf8Valid_toUTF8 s⟩

/-! ## The document handed back -/

variable {τ : Type}

/-- Once an absolute base is delivered, `rewrite_base_tag` returns a non-empty document unchanged
exactly when it is the UTF-8 encoding of a string; otherwise it returns the empty string. -/
theorem rewriteBaseTag_eq_self_iff (tz : Tokenizer τ) (ae : List UInt8 → RString) (n : Nat)
    (html : List UInt8) (b : Option String) (hne : html ≠ [])
    (habs : (tz.delivered tz.init (chunks n html)).any Event.isAbsoluteBase = true) :
    (rewriteBaseTag tz ae n html b).bytes = html ↔ ∃ s : String, s.toUTF8.data.toList = html := by
  have hne' : html.isEmpty = false := by simpa using hne
  rw [rewriteBaseTag_eq]
  simp only [rewriteWhole, hne', alreadyPresent_feed_init, habs, if_true, Bool.false_eq_true,
    if_false, bytes_fromUtf8_getD]
  split
  · exact iff_of_true rfl (exists_toUTF8_of_utf8Valid ‹_›)
  · exact iff_of_false (fun h => hne h.symm) fun ⟨s, hs⟩ => ‹¬_› (hs ▸ utf8Valid_toUTF8 s)

theorem rewriteBaseTag_eq_self_iff_hi :
    [104, 105] ≠ [] ∧
      (absoluteBaseFirst.delivered () (chunks 16384 [104, 105])).any Event.isAbsoluteBase = true ∧
      ((rewriteBaseTag absoluteBaseFirst (fun _ => RString.empty) 16384 [104, 105] none).bytes =
          [104, 105] ↔ ∃ s : String, s.toUTF8.data.toList = [104, 105]) :=
  ⟨by decide, rfl, rewriteBaseTag_eq_self_iff absoluteBaseFirst _ 16384 [104, 105] none
    (by decide) rfl⟩

end ChromeyCache.Manager.Utf8
