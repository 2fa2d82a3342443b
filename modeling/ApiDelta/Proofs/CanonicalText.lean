import ApiDelta.Failure
import ApiDelta.Proofs.JsonReading
import ApiDelta.Proofs.Utf8RoundTrip

/-!
The canonical text is a normal form. Two values have the same text exactly if they are the same up to
the order of keys, and a file with the text of a value holds that value, but for the order of keys.
That different values differ in their texts needs no argument of its own: each is read back from its
text.
-/
namespace ApiDelta.Json

open Text.CodePoints

/-! ## The code points of a text -/

theorem isCharacter_of_mem_plainCodes {chars : List Char} :
    ∀ code ∈ plainCodes chars, IsCharacter code := by
  intro code member
  obtain ⟨c, -, rfl⟩ := List.mem_map.mp member
  have valid : c.toNat.isValidChar := c.valid
  refine ⟨?_, not_isSurrogate_toNat c⟩
  unfold Nat.isValidChar at valid
  rw [isCodePoint_iff]
  omega

theorem isCharacter_of_mem_append {codes codes' : List Nat} (first : ∀ code ∈ codes, IsCharacter code)
    (second : ∀ code ∈ codes', IsCharacter code) : ∀ code ∈ codes ++ codes', IsCharacter code :=
  fun code member => (List.mem_append.mp member).elim (first code) (second code)

theorem isCharacter_of_mem_escapeCode {code : Nat} (character : IsCharacter code) :
    ∀ part ∈ escapeCode code, IsCharacter part := by
  unfold escapeCode
  split_ifs
  iterate 7 exact isCharacter_of_mem_plainCodes
  · exact isCharacter_of_mem_append isCharacter_of_mem_plainCodes isCharacter_of_mem_plainCodes
  · exact fun part member => List.mem_singleton.mp member ▸ character

theorem isCharacter_of_mem_stringCodes {text : String} (formed : Text.isWellFormed text) :
    ∀ code ∈ stringCodes text, IsCharacter code := by
  have inside : ∀ code ∈ (Text.codePoints text).flatMap escapeCode, IsCharacter code := by
    intro part member
    obtain ⟨code, held, found⟩ := List.mem_flatMap.mp member
    exact isCharacter_of_mem_escapeCode (isCharacter_of_mem_codePoints formed code held) part found
  exact isCharacter_of_mem_append
    (isCharacter_of_mem_append isCharacter_of_mem_plainCodes inside) isCharacter_of_mem_plainCodes

theorem isCharacter_of_mem_commaSeparated {parts : List (List Nat)}
    (each : ∀ part ∈ parts, ∀ code ∈ part, IsCharacter code) :
    ∀ code ∈ commaSeparated parts, IsCharacter code := by
  induction parts with
  | nil => exact fun code member => absurd member List.not_mem_nil
  | cons part parts ih =>
    have first := each part (List.mem_cons_self ..)
    have others := ih fun one member => each one (List.mem_cons_of_mem _ member)
    cases parts with
    | nil => rwa [commaSeparated, List.intercalate_singleton]
    | cons next parts =>
      rw [commaSeparated, List.intercalate_cons_cons]
      exact isCharacter_of_mem_append
        (isCharacter_of_mem_append first isCharacter_of_mem_plainCodes) others

/-- A text is made of characters. -/
theorem Proper.isCharacter_of_mem {value : Json} (proper : Proper value) :
    ∀ code ∈ canonicalCodes value, IsCharacter code := by
  induction proper with
  | null => exact isCharacter_of_mem_plainCodes
  | bool value => cases value <;> exact isCharacter_of_mem_plainCodes
  | int value =>
    exact isCharacter_of_mem_append isCharacter_of_mem_plainCodes isCharacter_of_mem_plainCodes
  | text formed => exact isCharacter_of_mem_stringCodes formed
  | @array items _ ih =>
    have inside : ∀ code ∈ commaSeparated (items.map canonicalCodes), IsCharacter code :=
      isCharacter_of_mem_commaSeparated (List.forall_mem_map.mpr ih)
    rw [canonicalCodes_array]
    exact isCharacter_of_mem_append
      (isCharacter_of_mem_append isCharacter_of_mem_plainCodes inside) isCharacter_of_mem_plainCodes
  | @object fields _ formed _ ih =>
    have field : ∀ field ∈ byKey fields, ∀ code ∈ fieldText field, IsCharacter code := by
      intro field member
      have held := (byKey_perm fields).subset member
      exact isCharacter_of_mem_append (isCharacter_of_mem_append
        (isCharacter_of_mem_stringCodes (formed field held)) isCharacter_of_mem_plainCodes)
        (ih field held)
    have inside : ∀ code ∈ commaSeparated ((byKey fields).map fieldText), IsCharacter code :=
      isCharacter_of_mem_commaSeparated (List.forall_mem_map.mpr field)
    rw [canonicalCodes_object]
    exact isCharacter_of_mem_append
      (isCharacter_of_mem_append isCharacter_of_mem_plainCodes inside) isCharacter_of_mem_plainCodes

theorem Proper.codePoints_canonicalText {value : Json} (proper : Proper value) :
    Text.codePoints (canonicalText value) = canonicalCodes value :=
  Text.codePoints_ofCodePoints fun code member => (proper.isCharacter_of_mem code member).1

theorem Proper.isWellFormed_canonicalText {value : Json} (proper : Proper value) :
    Text.isWellFormed (canonicalText value) := by
  rw [Text.isWellFormed, proper.codePoints_canonicalText, Bool.not_eq_true', List.any_eq_false]
  exact fun code member => (proper.isCharacter_of_mem code member).2

/-! ## A normal form -/

/-- Values with one text are the same: reading it gives both back. -/
theorem Proper.same_of_canonicalText_eq {a b : Json} (proper : Proper a) (proper' : Proper b)
    (texts : canonicalText a = canonicalText b) : Same a b := by
  have codes : canonicalCodes a = canonicalCodes b := by
    rw [← proper.codePoints_canonicalText, ← proper'.codePoints_canonicalText, texts]
  have read := proper.read_canonicalChars
  rw [canonicalChars, codes] at read
  have arranged : a.arranged = b.arranged :=
    Except.ok.inj (read.symm.trans proper'.read_canonicalChars)
  exact (arranged ▸ proper.same_arranged).trans proper'.same_arranged.symm

/-- A file with the text of a value holds the value with its keys in order. -/
theorem Proper.jsonOfOctets_eq {value : Json} (proper : Proper value) : ∃ octets,
    Text.Utf8.encode (canonicalText value) = .ok octets ∧ jsonOfOctets octets = .ok value.arranged := by
  obtain ⟨octets, encoded, decoded⟩ := Text.Utf8.encode_decode proper.isWellFormed_canonicalText
  refine ⟨octets, encoded, ?_⟩
  rw [proper.codePoints_canonicalText] at decoded
  rw [jsonOfOctets, decoded]
  simp only
  rw [show read ((canonicalCodes value).map Char.ofNat) = _ from proper.read_canonicalChars]

/-- **The canonical text is faithful.** It tells values apart exactly up to the order of their keys, a
file with it holds the value that it is the text of, up to that order, and the value in the file has the
same text. -/
theorem canonical_text_is_faithful :
    (∀ a b : Json, Proper a → Proper b → (canonicalText a = canonicalText b ↔ Same a b)) ∧
      ∀ a : Json, Proper a → ∃ octets b, Text.Utf8.encode (canonicalText a) = .ok octets ∧
        jsonOfOctets octets = .ok b ∧ Same b a ∧ canonicalText b = canonicalText a := by
  constructor
  · intro a b proper proper'
    constructor
    · exact proper.same_of_canonicalText_eq proper'
    · exact fun same => congrArg Text.ofCodePoints (same.canonicalCodes_eq proper)
  · intro a proper
    obtain ⟨octets, encoded, held⟩ := proper.jsonOfOctets_eq
    have codes := proper.same_arranged.canonicalCodes_eq proper
    exact ⟨octets, a.arranged, encoded, held, proper.same_arranged.symm,
      congrArg Text.ofCodePoints codes.symm⟩

/-- Two objects with their keys in different orders, and two values that a text without quotes would
not tell apart. -/
theorem canonical_text_is_faithful_orders :
    let marked : Json := .text "\"≠\"\n"
    let inner : Json := .object [("y", .array [.int (-12), .null]), ("x", marked)]
    let inner' : Json := .object [("x", marked), ("y", .array [.int (-12), .null])]
    let a : Json := .object [("b", inner), ("a", .bool true)]
    let b : Json := .object [("a", .bool true), ("b", inner')]
    (Proper a ∧ Proper b) ∧ canonicalText a = canonicalText b ∧
      canonicalText (.int 1) ≠ canonicalText (.text "1") ∧
      ∃ octets c, Text.Utf8.encode (canonicalText a) = .ok octets ∧ jsonOfOctets octets = .ok c ∧
        Same c a ∧ canonicalText c = canonicalText a := by
  intro marked inner inner' a b
  have items : Proper (.array [.int (-12), .null]) := .array (by simp [Proper.int, Proper.null])
  have text : Proper marked := .text (by decide)
  have properInner : Proper inner := .object (by decide) (by decide) (by simp [items, text])
  have properInner' : Proper inner' := .object (by decide) (by decide) (by simp [items, text])
  have proper : Proper a := .object (by decide) (by decide) (by simp [properInner, Proper.bool])
  have proper' : Proper b := .object (by decide) (by decide) (by simp [properInner', Proper.bool])
  have swapped : ∀ key key' x x' y y', key ≠ key' → Same x x' → Same y y' →
      Same (.object [(key, x), (key', y)]) (.object [(key', y'), (key, x')]) := by
    intro key key' x x' y y' different first second
    refine .object (.swap ..) fun name value value' here there => ?_
    simp only [List.mem_cons, List.not_mem_nil, or_false, Prod.mk.injEq] at here there
    rcases here with ⟨rfl, rfl⟩ | ⟨rfl, rfl⟩ <;> rcases there with ⟨named, rfl⟩ | ⟨named, rfl⟩
    · exact absurd named different
    · exact first
    · exact second
    · exact absurd named.symm different
  have sameInner : Same inner inner' := swapped _ _ _ _ _ _ (by decide) (.refl _) (.refl _)
  have same : Same a b := swapped _ _ _ _ _ _ (by decide) sameInner (.refl _)
  have apart : ¬Same (.int 1) (.text "1") := by
    rintro ⟨⟩
  exact ⟨⟨proper, proper'⟩, (canonical_text_is_faithful.1 a b proper proper').mpr same,
    fun texts => apart ((canonical_text_is_faithful.1 _ _ (.int 1) (.text (by decide))).mp texts),
    canonical_text_is_faithful.2 a proper⟩

end ApiDelta.Json
