import ApiDelta.Text.CodePoints

/-!
Packing loses nothing: a text has the code points that it was made of (`codePoints_ofCodePoints`), and
each string is the text of the code points that it holds (`ofCodePoints_codePoints`). Both rest on the
observation that neither packing nor unpacking changes whether a stand-in comes next.
-/
namespace ApiDelta.Text.CodePoints

theorem isSurrogate_iff {code : Nat} : isSurrogate code ↔ 0xD800 ≤ code ∧ code < 0xE000 :=
  decide_eq_true_iff

theorem isCodePoint_iff {code : Nat} : isCodePoint code ↔ code < 0x110000 :=
  decide_eq_true_iff

theorem isStandIn_iff {code : Nat} : isStandIn code ↔ 0x10F800 ≤ code ∧ code < 0x110000 :=
  decide_eq_true_iff

theorem toNat_ofNat {code : Nat} (bound : isCodePoint code) (proper : ¬isSurrogate code) :
    (Char.ofNat code).toNat = code := by
  rw [isCodePoint_iff] at bound
  rw [isSurrogate_iff] at proper
  have valid : code.isValidChar := by
    unfold Nat.isValidChar
    omega
  rw [Char.ofNat, dif_pos valid]
  rfl

theorem not_isSurrogate_toNat (c : Char) : ¬isSurrogate c.toNat := by
  have valid : c.toNat.isValidChar := c.valid
  rw [isSurrogate_iff]
  unfold Nat.isValidChar at valid
  omega

theorem toNat_standIn {code : Nat} (surrogate : isSurrogate code) :
    (standIn code).toNat = firstStandIn + (code - 0xD800) := by
  rw [isSurrogate_iff] at surrogate
  apply toNat_ofNat
  · rw [isCodePoint_iff]
    unfold firstStandIn
    omega
  · rw [isSurrogate_iff]
    unfold firstStandIn
    omega

theorem isStandIn_standIn {code : Nat} (surrogate : isSurrogate code) :
    isStandIn (standIn code).toNat := by
  rw [toNat_standIn surrogate, isStandIn_iff]
  rw [isSurrogate_iff] at surrogate
  unfold firstStandIn
  omega

theorem toNat_mark : mark.toNat = markCode := by decide

theorem toNat_spacer : spacer.toNat = spacerCode := by decide

theorem eq_mark_iff {c : Char} : c = mark ↔ c.toNat = markCode := by
  rw [← toNat_mark, Char.toNat_inj]

/-- What comes before the spacers meets no stand-in. -/
theorem meetsStandIn_of_low {code : Nat} (rest : List Nat) (low : code < spacerCode) :
    meetsStandIn (code :: rest) = false := by
  unfold spacerCode at low
  have notStandIn : isStandIn code = false := by
    rw [Bool.eq_false_iff, Ne, isStandIn_iff]
    omega
  have notSpacer : (code == spacerCode) = false := by
    rw [beq_eq_false_iff_ne]
    unfold spacerCode
    omega
  rw [meetsStandIn, notStandIn, notSpacer]
  rfl

theorem toNat_ofNat_of_large {code : Nat} (large : ¬isCodePoint code) :
    (Char.ofNat code).toNat = 0 := by
  rw [isCodePoint_iff] at large
  have invalid : ¬code.isValidChar := by
    unfold Nat.isValidChar
    omega
  rw [Char.ofNat, dif_neg invalid]
  rfl

theorem meetsStandIn_of_large {code : Nat} (rest : List Nat) (large : ¬isCodePoint code) :
    meetsStandIn (code :: rest) = false := by
  rw [isCodePoint_iff] at large
  have notStandIn : isStandIn code = false := by
    rw [Bool.eq_false_iff, Ne, isStandIn_iff]
    omega
  have notSpacer : (code == spacerCode) = false := by
    rw [beq_eq_false_iff_ne]
    unfold spacerCode
    omega
  rw [meetsStandIn, notStandIn, notSpacer]
  rfl

theorem lt_spacerCode_of_isSurrogate {code : Nat} (surrogate : isSurrogate code) :
    code < spacerCode := by
  rw [isSurrogate_iff] at surrogate
  unfold spacerCode
  omega

theorem markCode_lt_spacerCode : markCode < spacerCode := by decide

theorem pack_cons (code : Nat) (rest : List Nat) : pack (code :: rest) = hold code (pack rest) :=
  rfl

theorem unpack_cons (c : Char) (rest : List Char) : unpack (c :: rest) = put c (unpack rest) :=
  rfl

theorem put_of_ne {c : Char} (different : c ≠ mark) (codes : List Nat) :
    put c codes = c.toNat :: codes :=
  if_neg different

theorem put_mark (codes : List Nat) : put mark codes = putMark codes :=
  if_pos rfl

/-- Characters among which there is no mark hold themselves. -/
theorem unpack_of_forall_ne {chars : List Char} (free : ∀ c ∈ chars, c ≠ mark) :
    unpack chars = chars.map Char.toNat := by
  induction chars with
  | nil => rfl
  | cons c rest ih =>
    obtain ⟨different, free⟩ := List.forall_mem_cons.mp free
    rw [unpack_cons, ih free, put_of_ne different, List.map_cons]

theorem isSurrogate_of_isStandIn {code : Nat} (stands : isStandIn code) :
    isSurrogate (code - firstStandIn + 0xD800) := by
  rw [isStandIn_iff] at stands
  rw [isSurrogate_iff]
  unfold firstStandIn
  omega

theorem standIn_of_isStandIn {code : Nat} (stands : isStandIn code) :
    standIn (code - firstStandIn + 0xD800) = Char.ofNat code := by
  rw [isStandIn_iff] at stands
  rw [standIn, show firstStandIn + (code - firstStandIn + 0xD800 - 0xD800) = code by
    unfold firstStandIn; omega]

/-- Packing does not change whether a stand-in comes next. -/
theorem meetsStandIn_pack (codes : List Nat) :
    meetsStandIn ((pack codes).map Char.toNat) = meetsStandIn codes := by
  induction codes with
  | nil => rfl
  | cons code rest ih =>
    rw [pack_cons, hold]
    split
    next surrogate =>
      rw [List.map_cons, toNat_mark, meetsStandIn_of_low _ markCode_lt_spacerCode,
        meetsStandIn_of_low _ (lt_spacerCode_of_isSurrogate surrogate)]
    next proper =>
      split
      next marked =>
        rw [List.map_cons, toNat_mark, marked.1, meetsStandIn_of_low _ markCode_lt_spacerCode,
          meetsStandIn_of_low _ markCode_lt_spacerCode]
      next =>
        by_cases bound : isCodePoint code
        · rw [List.map_cons, toNat_ofNat bound proper, meetsStandIn, meetsStandIn, ih]
        · rw [List.map_cons, toNat_ofNat_of_large bound, meetsStandIn_of_low _ (by decide),
            meetsStandIn_of_large _ bound]

/-- A mark meets no stand-in itself, whatever becomes of it. -/
theorem meetsStandIn_putMark (codes : List Nat) : meetsStandIn (putMark codes) = false := by
  unfold putMark
  split
  next => exact meetsStandIn_of_low _ markCode_lt_spacerCode
  next =>
    split
    next stands =>
      exact meetsStandIn_of_low _ (lt_spacerCode_of_isSurrogate (isSurrogate_of_isStandIn stands))
    next => split <;> exact meetsStandIn_of_low _ markCode_lt_spacerCode

/-- Unpacking does not change whether a stand-in comes next. -/
theorem meetsStandIn_unpack (chars : List Char) :
    meetsStandIn (unpack chars) = meetsStandIn (chars.map Char.toNat) := by
  induction chars with
  | nil => rfl
  | cons c rest ih =>
    rw [unpack_cons, List.map_cons]
    by_cases marked : c = mark
    · rw [marked, put_mark, meetsStandIn_putMark, toNat_mark,
        meetsStandIn_of_low _ markCode_lt_spacerCode]
    · rw [put_of_ne marked, meetsStandIn, meetsStandIn, ih]

/-- A mark stays what it is where no stand-in comes next. -/
theorem putMark_of_free {codes : List Nat} (free : ¬meetsStandIn codes) :
    putMark codes = markCode :: codes := by
  unfold putMark
  split
  next => rfl
  next code rest =>
    rw [meetsStandIn, Bool.or_eq_true, Bool.and_eq_true, beq_iff_eq, not_or] at free
    rw [if_neg free.1, if_neg free.2]

theorem isStandIn_toNat_spacer : ¬isStandIn spacer.toNat := by decide

/-- What a packed text holds is what was packed. -/
theorem unpack_pack {codes : List Nat} (bound : ∀ code ∈ codes, isCodePoint code) :
    unpack (pack codes) = codes := by
  induction codes with
  | nil => rfl
  | cons code rest ih =>
    have ih := ih fun code member => bound code (List.mem_cons_of_mem _ member)
    have meets := meetsStandIn_unpack (pack rest)
    rw [ih] at meets
    rw [pack_cons, hold]
    split
    next surrogate =>
      have stands := isStandIn_standIn surrogate
      have different : standIn code ≠ mark := fun same => absurd stands (by rw [same]; decide)
      rw [unpack_cons, unpack_cons, put_of_ne different, put_mark, ih, putMark, if_pos stands,
        toNat_standIn surrogate]
      rw [isSurrogate_iff] at surrogate
      rw [show firstStandIn + (code - 0xD800) - firstStandIn + 0xD800 = code by omega]
    next proper =>
      split
      next held =>
        have different : spacer ≠ mark := by decide
        rw [unpack_cons, unpack_cons, put_of_ne different, put_mark, ih, putMark,
          if_neg isStandIn_toNat_spacer, if_pos ⟨toNat_spacer, meets.trans held.2⟩, held.1]
      next free =>
        have same : (Char.ofNat code).toNat = code :=
          toNat_ofNat (bound code (List.mem_cons_self ..)) proper
        rw [unpack_cons, ih]
        by_cases marked : code = markCode
        · rw [marked]
          exact (put_mark rest).trans (putMark_of_free fun found => free ⟨marked, meets ▸ found⟩)
        · rw [put_of_ne (by rw [Ne, eq_mark_iff, same]; exact marked), same]

/-- A mark before some code points is a mark before the characters that hold them. -/
theorem pack_putMark (codes : List Nat) : pack (putMark codes) = mark :: pack codes := by
  unfold putMark
  split
  next => rfl
  next code rest =>
    have meets := meetsStandIn_pack rest
    split
    next stands =>
      have proper : ¬isSurrogate code := fun surrogate => by
        rw [isSurrogate_iff] at surrogate
        rw [isStandIn_iff] at stands
        omega
      have different : ¬(code = markCode ∧ meetsStandIn ((pack rest).map Char.toNat)) :=
        fun found => by
          rw [found.1] at stands
          exact absurd stands (by decide)
      rw [pack_cons, hold, if_pos (isSurrogate_of_isStandIn stands), standIn_of_isStandIn stands,
        pack_cons, hold, if_neg proper, if_neg different]
    next =>
      have proper : ¬isSurrogate markCode := by decide
      split
      next spaced =>
        have different : ¬isSurrogate code := by rw [spaced.1]; decide
        have unmarked : ¬(code = markCode ∧ meetsStandIn ((pack rest).map Char.toNat)) :=
          fun found => absurd (spaced.1.symm.trans found.1) (by decide)
        rw [pack_cons, hold, if_neg proper, if_pos ⟨rfl, meets.trans spaced.2⟩, pack_cons, hold,
          if_neg different, if_neg unmarked, spaced.1]
        rfl
      next =>
        have free : ¬(markCode = markCode ∧
            meetsStandIn ((pack (code :: rest)).map Char.toNat)) := by
          rw [meetsStandIn_pack, meetsStandIn, Bool.or_eq_true, Bool.and_eq_true, beq_iff_eq]
          rintro ⟨-, stands | spaced⟩ <;> contradiction
        rw [pack_cons, hold, if_neg proper, if_neg free]
        rfl

/-- Every string holds some code points, and no other string holds them. -/
theorem pack_unpack (chars : List Char) : pack (unpack chars) = chars := by
  induction chars with
  | nil => rfl
  | cons c rest ih =>
    rw [unpack_cons]
    by_cases marked : c = mark
    · rw [marked, put_mark, pack_putMark, ih]
    · have free : ¬(c.toNat = markCode ∧ meetsStandIn (rest.map Char.toNat)) := fun found =>
        marked (eq_mark_iff.mpr found.1)
      rw [put_of_ne marked, pack_cons, hold, if_neg (not_isSurrogate_toNat c), ih, if_neg free,
        Char.ofNat_toNat]

/-- What a string holds are code points. -/
theorem isCodePoint_of_mem_unpack {chars : List Char} {code : Nat} (member : code ∈ unpack chars) :
    isCodePoint code := by
  induction chars generalizing code with
  | nil => cases member
  | cons c rest ih =>
    rw [unpack_cons] at member
    by_cases marked : c = mark
    · rw [marked, put_mark] at member
      unfold putMark at member
      split at member
      next => rw [List.mem_singleton.mp member]; decide
      next first tail shape =>
        rw [shape] at ih
        split at member
        next stands =>
          rcases List.mem_cons.mp member with rfl | later
          · have surrogate := isSurrogate_of_isStandIn stands
            rw [isSurrogate_iff] at surrogate
            rw [isCodePoint_iff]
            omega
          · exact ih (List.mem_cons_of_mem _ later)
        next =>
          split at member
          next =>
            rcases List.mem_cons.mp member with rfl | later
            · decide
            · exact ih (List.mem_cons_of_mem _ later)
          next =>
            rcases List.mem_cons.mp member with rfl | later
            · decide
            · exact ih later
    · rw [put_of_ne marked] at member
      rcases List.mem_cons.mp member with rfl | later
      · have valid : c.toNat.isValidChar := c.valid
        unfold Nat.isValidChar at valid
        rw [isCodePoint_iff]
        omega
      · exact ih later

end ApiDelta.Text.CodePoints

namespace ApiDelta.Text

open CodePoints

theorem ofCodePoints_codePoints (text : String) : ofCodePoints (codePoints text) = text := by
  rw [ofCodePoints, codePoints, pack_unpack, String.ofList_toList]

/-- A text without a mark holds characters only. -/
theorem isWellFormed_of_forall_ne {text : String} (free : ∀ c ∈ text.toList, c ≠ mark) :
    isWellFormed text := by
  rw [isWellFormed, codePoints, unpack_of_forall_ne free, Bool.not_eq_true', List.any_eq_false]
  intro code member
  obtain ⟨c, _, rfl⟩ := List.mem_map.mp member
  exact not_isSurrogate_toNat c

theorem codePoints_ofCodePoints {codes : List Nat} (bound : ∀ code ∈ codes, isCodePoint code) :
    codePoints (ofCodePoints codes) = codes := by
  rw [codePoints, ofCodePoints, String.toList_ofList, unpack_pack bound]

end ApiDelta.Text
