import Mathlib.Data.List.Forall2
import Mathlib.Data.List.TakeWhile
import Mathlib.Tactic.SplitIfs
import ApiDelta.Text.CodePoints.Lemmas
import ApiDelta.Text.Utf8

/-!
The octets of a text are decoded to its characters. A character takes a leading octet and, past U+007F,
octets in the ranges that the leading one announces; the decoder adds their bits up to the code point.
The narrower second ranges shut out nothing that is ever encoded: overlong forms, surrogates, and code
points past the last.
-/
namespace ApiDelta.Text.Utf8

open CodePoints

/-- What a leading octet announces, by its number. -/
theorem continuations?_eq (lead : UInt8) : continuations? lead =
    if 0xC2 ≤ lead.toNat ∧ lead.toNat ≤ 0xDF then some [(0x80, 0xBF)]
    else if lead.toNat = 0xE0 then some [(0xA0, 0xBF), (0x80, 0xBF)]
    else if lead.toNat = 0xED then some [(0x80, 0x9F), (0x80, 0xBF)]
    else if 0xE1 ≤ lead.toNat ∧ lead.toNat ≤ 0xEF then some [(0x80, 0xBF), (0x80, 0xBF)]
    else if lead.toNat = 0xF0 then some [(0x90, 0xBF), (0x80, 0xBF), (0x80, 0xBF)]
    else if 0xF1 ≤ lead.toNat ∧ lead.toNat ≤ 0xF3 then some [(0x80, 0xBF), (0x80, 0xBF), (0x80, 0xBF)]
    else if lead.toNat = 0xF4 then some [(0x80, 0x8F), (0x80, 0xBF), (0x80, 0xBF)]
    else none := by
  simp only [continuations?, UInt8.le_iff_toNat_le, ← UInt8.toNat_inj]
  rfl

theorem not_lt_of_continuations? {lead : UInt8} {expected : List (UInt8 × UInt8)}
    (known : continuations? lead = some expected) : ¬lead < 0x80 := by
  intro ascii
  have bound : lead.toNat < 0x80 := UInt8.lt_iff_toNat_lt.mp ascii
  have unknown : continuations? lead = none := by
    rw [continuations?_eq]
    split_ifs <;> first | rfl | omega
  rw [unknown] at known
  cases known

/-! ## Sequences of octets -/

/-- An octet within a range. -/
def Within (range : UInt8 × UInt8) (octet : UInt8) : Prop :=
  range.1 ≤ octet ∧ octet ≤ range.2

/-- The code point so far, after some more octets of a sequence. -/
def extend (code : Nat) (octets : List UInt8) : Nat :=
  octets.foldl (fun code octet => code * 64 + octet.toNat % 64) code

section Sequences

variable {lead octet : UInt8} {range : UInt8 × UInt8} {ranges : List (UInt8 × UInt8)}
  {octets : List UInt8}

/-- A sequence that has begun is decoded if each octet lies in its range. -/
theorem decodeFrom_partial (within : Within range octet)
    (others : List.Forall₂ Within ranges octets) (pos taken code : Nat) (done : List Char)
    (rest : List UInt8) :
    decodeFrom pos done (some ⟨lead, taken, code, range :: ranges⟩) (octet :: octets ++ rest) =
      decodeFrom (pos + (octet :: octets).length) (Char.ofNat (extend code (octet :: octets)) :: done)
        none rest := by
  induction others generalizing range octet pos taken code with
  | nil =>
    rw [List.cons_append, decodeFrom]
    simp only [show range.1 ≤ octet ∧ octet ≤ range.2 from within, and_self, if_true]
    rfl
  | @cons next octet' ranges octets within' others ih =>
    rw [List.cons_append, decodeFrom]
    simp only [show range.1 ≤ octet ∧ octet ≤ range.2 from within, and_self, if_true,
      List.isEmpty_cons, Bool.false_eq_true, if_false]
    have place : pos + 1 + (octet' :: octets).length = pos + (octet :: octet' :: octets).length := by
      simp only [List.length_cons]
      omega
    rw [ih within', place]
    rfl

/-- A whole sequence is decoded if each octet lies in the range that the first one announces. -/
theorem decodeFrom_sequence (known : continuations? lead = some (range :: ranges))
    (within : Within range octet) (others : List.Forall₂ Within ranges octets) {code : Nat}
    (bits : extend (leadBits lead (range :: ranges).length) (octet :: octets) = code) (pos : Nat)
    (done : List Char) (rest : List UInt8) :
    decodeFrom pos done none (lead :: octet :: octets ++ rest) =
      decodeFrom (pos + (lead :: octet :: octets).length) (Char.ofNat code :: done) none rest := by
  have place : pos + 1 + (octet :: octets).length = pos + (lead :: octet :: octets).length := by
    simp only [List.length_cons]
    omega
  rw [List.cons_append, decodeFrom, if_neg (not_lt_of_continuations? known), known]
  simp only
  rw [decodeFrom_partial within others, bits, place]

end Sequences

/-! ## Characters -/

theorem toNat_ofNat_of_lt {n : Nat} (byte : n < 256) : (UInt8.ofNat n).toNat = n :=
  UInt8.toNat_ofNat_of_lt' byte

theorem within_ofNat {low high : UInt8} {n : Nat} (above : low.toNat ≤ n) (below : n ≤ high.toNat) :
    Within (low, high) (UInt8.ofNat n) := by
  have byte : n < 256 := Nat.lt_of_le_of_lt below high.toNat_lt
  rw [Within, UInt8.le_iff_toNat_le, UInt8.le_iff_toNat_le, toNat_ofNat_of_lt byte]
  exact ⟨above, below⟩

/-- A later octet with the six bits of a number. -/
theorem within_trail (n : Nat) : Within (0x80, 0xBF) (UInt8.ofNat (n % 64 + 128)) :=
  within_ofNat (Nat.le_add_left ..) (by show n % 64 + 128 ≤ 191; omega)

theorem extend_trail (code n : Nat) (octets : List UInt8) :
    extend code (UInt8.ofNat (n % 64 + 128) :: octets) = extend (code * 64 + n % 64) octets := by
  have bits : (UInt8.ofNat (n % 64 + 128)).toNat % 64 = n % 64 := by
    rw [toNat_ofNat_of_lt (by omega)]
    omega
  rw [extend, List.foldl_cons, bits]
  rfl

theorem decodeFrom_ascii {c : Char} (ascii : c.toNat ≤ 127) (pos : Nat) (done : List Char)
    (rest : List UInt8) : decodeFrom pos done none (UInt8.ofNat c.toNat :: rest) =
      decodeFrom (pos + 1) (c :: done) none rest := by
  have same : (UInt8.ofNat c.toNat).toNat = c.toNat := toNat_ofNat_of_lt (by omega)
  have low : UInt8.ofNat c.toNat < 0x80 := by
    rw [UInt8.lt_iff_toNat_lt, same]
    exact Nat.lt_succ_of_le ascii
  rw [decodeFrom, if_pos low, same, Char.ofNat_toNat]

theorem extend_nil (code : Nat) : extend code [] = code :=
  rfl

section Lengths

variable {v : Nat} (pos : Nat) (done : List Char) (rest : List UInt8)

theorem decodeFrom_two (low : 127 < v) (high : v ≤ 2047) :
    decodeFrom pos done none
        ([UInt8.ofNat (v / 64 % 32 + 192), UInt8.ofNat (v % 64 + 128)] ++ rest) =
      decodeFrom (pos + 2) (Char.ofNat v :: done) none rest := by
  have number : (UInt8.ofNat (v / 64 % 32 + 192)).toNat = v / 64 % 32 + 192 :=
    toNat_ofNat_of_lt (by omega)
  have announced : continuations? (UInt8.ofNat (v / 64 % 32 + 192)) = some [(0x80, 0xBF)] := by
    rw [continuations?_eq, number, if_pos (by omega)]
  refine decodeFrom_sequence announced (within_trail _) .nil ?_ pos done rest
  rw [extend_trail, extend_nil, leadBits, number]
  show (v / 64 % 32 + 192) % 32 * 64 + v % 64 = v
  omega

/-- The first of three octets announces a range that the second one lies in: a narrower one after
0xE0 and after 0xED. -/
theorem announced_three (low : 2047 < v) (high : v ≤ 65535) (proper : ¬(0xD800 ≤ v ∧ v < 0xE000)) :
    ∃ range, continuations? (UInt8.ofNat (v / 4096 % 16 + 224)) = some [range, (0x80, 0xBF)] ∧
      Within range (UInt8.ofNat (v / 64 % 64 + 128)) := by
  have number : (UInt8.ofNat (v / 4096 % 16 + 224)).toNat = v / 4096 % 16 + 224 :=
    toNat_ofNat_of_lt (by omega)
  rw [continuations?_eq, number, if_neg (by omega)]
  split_ifs with first surrogates others
  · exact ⟨_, rfl, within_ofNat (by show 160 ≤ _; omega) (by show _ ≤ 191; omega)⟩
  · exact ⟨_, rfl, within_ofNat (by show 128 ≤ _; omega) (by show _ ≤ 159; omega)⟩
  · exact ⟨_, rfl, within_trail _⟩
  all_goals omega

theorem decodeFrom_three (low : 2047 < v) (high : v ≤ 65535) (proper : ¬(0xD800 ≤ v ∧ v < 0xE000)) :
    decodeFrom pos done none ([UInt8.ofNat (v / 4096 % 16 + 224), UInt8.ofNat (v / 64 % 64 + 128),
        UInt8.ofNat (v % 64 + 128)] ++ rest) =
      decodeFrom (pos + 3) (Char.ofNat v :: done) none rest := by
  have number : (UInt8.ofNat (v / 4096 % 16 + 224)).toNat = v / 4096 % 16 + 224 :=
    toNat_ofNat_of_lt (by omega)
  obtain ⟨range, announced, within⟩ := announced_three low high proper
  refine decodeFrom_sequence announced within (.cons (within_trail _) .nil) ?_ pos done rest
  rw [extend_trail, extend_trail, extend_nil, leadBits, number]
  show ((v / 4096 % 16 + 224) % 16 * 64 + v / 64 % 64) * 64 + v % 64 = v
  omega

/-- The first of four octets announces a range that the second one lies in: a narrower one after
0xF0 and after 0xF4. -/
theorem announced_four (low : 65535 < v) (high : v < 0x110000) :
    ∃ range, continuations? (UInt8.ofNat (v / 262144 % 8 + 240)) =
        some [range, (0x80, 0xBF), (0x80, 0xBF)] ∧
      Within range (UInt8.ofNat (v / 4096 % 64 + 128)) := by
  have number : (UInt8.ofNat (v / 262144 % 8 + 240)).toNat = v / 262144 % 8 + 240 :=
    toNat_ofNat_of_lt (by omega)
  rw [continuations?_eq, number, if_neg (by omega), if_neg (by omega), if_neg (by omega),
    if_neg (by omega)]
  split_ifs with first middle last
  · exact ⟨_, rfl, within_ofNat (by show 144 ≤ _; omega) (by show _ ≤ 191; omega)⟩
  · exact ⟨_, rfl, within_trail _⟩
  · exact ⟨_, rfl, within_ofNat (by show 128 ≤ _; omega) (by show _ ≤ 143; omega)⟩
  all_goals omega

theorem decodeFrom_four (low : 65535 < v) (high : v < 0x110000) :
    decodeFrom pos done none ([UInt8.ofNat (v / 262144 % 8 + 240),
        UInt8.ofNat (v / 4096 % 64 + 128), UInt8.ofNat (v / 64 % 64 + 128),
        UInt8.ofNat (v % 64 + 128)] ++ rest) =
      decodeFrom (pos + 4) (Char.ofNat v :: done) none rest := by
  have number : (UInt8.ofNat (v / 262144 % 8 + 240)).toNat = v / 262144 % 8 + 240 :=
    toNat_ofNat_of_lt (by omega)
  obtain ⟨range, announced, within⟩ := announced_four low high
  refine decodeFrom_sequence announced within (.cons (within_trail _) (.cons (within_trail _) .nil))
    ?_ pos done rest
  rw [extend_trail, extend_trail, extend_trail, extend_nil, leadBits, number]
  show (((v / 262144 % 8 + 240) % 8 * 64 + v / 4096 % 64) * 64 + v / 64 % 64) * 64 + v % 64 = v
  omega

end Lengths

/-- Whatever a character is encoded by is decoded to it. -/
theorem decodeFrom_utf8EncodeChar (c : Char) (pos : Nat) (done : List Char) (rest : List UInt8) :
    decodeFrom pos done none (String.utf8EncodeChar c ++ rest) =
      decodeFrom (pos + (String.utf8EncodeChar c).length) (c :: done) none rest := by
  have value : c.val.toNat = c.toNat := rfl
  have valid : c.toNat.isValidChar := c.valid
  unfold Nat.isValidChar at valid
  unfold String.utf8EncodeChar
  simp only [value]
  split_ifs with one two three
  · exact decodeFrom_ascii one pos done rest
  · rw [decodeFrom_two pos done rest (by omega) two, Char.ofNat_toNat]
    rfl
  · rw [decodeFrom_three pos done rest (by omega) three (by omega), Char.ofNat_toNat]
    rfl
  · rw [decodeFrom_four pos done rest (by omega) (by omega), Char.ofNat_toNat]
    rfl

/-- The octets of some characters are decoded to them. -/
theorem decodeFrom_flatMap (chars : List Char) (pos : Nat) (done : List Char) :
    decodeFrom pos done none (chars.flatMap String.utf8EncodeChar) = .ok (done.reverse ++ chars) := by
  induction chars generalizing pos done with
  | nil => rw [List.flatMap_nil, decodeFrom, List.append_nil]
  | cons c chars ih =>
    rw [List.flatMap_cons, decodeFrom_utf8EncodeChar, ih, List.reverse_cons, List.append_assoc]
    rfl

/-! ## Texts -/

theorem toList_loop_eq (octets : ByteArray) (i : Nat) (before : List UInt8) :
    ByteArray.toList.loop octets i before = before.reverse ++ octets.data.toList.drop i := by
  fun_induction ByteArray.toList.loop octets i before with
  | case1 i before bound ih =>
    have within : i < octets.data.toList.length := by simpa using bound
    have head : octets.get! i = octets.data.toList[i] := by
      cases octets
      exact getElem!_pos _ i bound
    rw [ih, List.drop_eq_getElem_cons within, head, List.reverse_cons, List.append_assoc]
    rfl
  | case2 i before bound =>
    rw [List.drop_eq_nil_of_le (by simpa using bound), List.append_nil]

theorem toList_toUTF8 (chars : List Char) :
    (String.ofList chars).toUTF8.toList = chars.flatMap String.utf8EncodeChar := by
  rw [String.toUTF8_eq_toByteArray, String.toByteArray_ofList, List.utf8Encode, ByteArray.toList,
    toList_loop_eq, List.toList_data_toByteArray]
  rfl

/-- A text without surrogates is encoded, and the octets are decoded to its characters. -/
theorem encode_decode {text : String} (formed : isWellFormed text) :
    ∃ octets, encode text = .ok octets ∧ decode octets = .ok ((codePoints text).map Char.ofNat) := by
  have taken := unencodable?_isSurrogate_eq_none_iff.mpr formed
  refine ⟨((codePoints text).map Char.ofNat).flatMap String.utf8EncodeChar, ?_, ?_⟩
  · rw [encode, taken, toList_toUTF8]
  · exact decodeFrom_flatMap _ 0 []

/-- Only texts without surrogates are encoded. -/
theorem isWellFormed_of_encode {text : String} {octets : List UInt8}
    (encoded : encode text = .ok octets) : isWellFormed text := by
  unfold encode at encoded
  split at encoded
  · cases encoded
  · rename_i taken
    exact unencodable?_isSurrogate_eq_none_iff.mp taken

/-- Octets that encode a text are decoded to its characters. -/
theorem decode_of_encode {text : String} {octets : List UInt8} (encoded : encode text = .ok octets) :
    decode octets = .ok ((codePoints text).map Char.ofNat) := by
  obtain ⟨_, encoded', decoded⟩ := encode_decode (isWellFormed_of_encode encoded)
  cases encoded.symm.trans encoded'
  exact decoded

end ApiDelta.Text.Utf8
