import ApiDelta.Proofs.DecimalNumerals
import ApiDelta.Proofs.EntryPoints
import ApiDelta.Proofs.VersionGrammar

/-!
Version texts in their written form. In ASCII a number has one numeral, so that what a version is written
as is read back, and a text made of ASCII numerals and labels is what its version is written as. The
reader also takes decimal digits of other scripts behind the first digit of a number; it is these digits
alone that a text can be accepted with and yet not be in the documented form.
-/
namespace ApiDelta

namespace Text

theorem not_isBlank_of_bounds {c : Char} (bounds : 0x21 ≤ c.toNat ∧ c.toNat < 0x7F) :
    isBlank c = false := by
  simp only [isBlank, isWhiteSpace, Bool.or_eq_false_iff, Bool.and_eq_false_iff,
    decide_eq_false_iff_not, beq_eq_false_iff_ne]
  omega

end Text

namespace Version

/-! ## Numerals in ASCII -/

section Numerals

variable {digits : List Char} {n : Nat}

/-- A digit is the notation of its value. -/
theorem toDigits_of_isAsciiDigit {c : Char} (ascii : Text.isAsciiDigit c) :
    Nat.toDigits 10 (c.toNat - 0x30) = [c] := by
  have bounds := Text.isAsciiDigit_iff.mp ascii
  have small : c.toNat - 0x30 < 10 := by omega
  have same : (c.toNat - 0x30).digitChar = c := by
    apply Char.toNat_inj.mp
    rw [Nat.toNat_digitChar_of_lt_ten small]
    omega
  rw [Nat.toDigits_of_lt_base small, same]

/-- Digits that are read behind a number stand behind its own digits. -/
theorem toDigits_foldlM {value : Nat} (positive : 0 < value) (ascii : ∀ c ∈ digits, Text.isAsciiDigit c)
    (read : digits.foldlM (fun value c => (Text.decimalValue? c).map (value * 10 + ·)) value = some n) :
    Nat.toDigits 10 n = Nat.toDigits 10 value ++ digits := by
  induction digits generalizing value with
  | nil =>
    cases read
    rw [List.append_nil]
  | cons c digits ih =>
    obtain ⟨digit, later⟩ := List.forall_mem_cons.mp ascii
    have bounds := Text.isAsciiDigit_iff.mp digit
    have appended : Nat.toDigits 10 (value * 10 + (c.toNat - 0x30)) = Nat.toDigits 10 value ++ [c] := by
      rw [← toDigits_of_isAsciiDigit digit,
        Nat.toDigits_append_toDigits (by decide) positive (by omega), Nat.mul_comm]
    have further : 0 < value * 10 + (c.toNat - 0x30) := by omega
    rw [List.foldlM_cons, Text.decimalValue?_of_isAsciiDigit digit] at read
    rw [ih further later read, appended, List.append_assoc, List.singleton_append]

/-- In ASCII, a number has one numeral. -/
theorem IsNumeral.toDigits_eq (numeral : IsNumeral Text.isAsciiDigit digits)
    (denotes : Text.decimalNumber? digits = some n) : Nat.toDigits 10 n = digits := by
  cases numeral with
  | zero =>
    cases denotes
    exact Nat.toDigits_zero 10
  | @positive first rest lead nonzero further =>
    have bounds := Text.isAsciiDigit_iff.mp lead
    have apart : first.toNat ≠ 0x30 := fun same => nonzero (Char.toNat_inj.mp same)
    rw [Text.decimalNumber?, List.foldlM_cons, Text.decimalValue?_of_isAsciiDigit lead, Option.map_some,
      Nat.zero_mul, Nat.zero_add] at denotes
    have positive : 0 < first.toNat - 0x30 := by omega
    rw [toDigits_foldlM positive further denotes, toDigits_of_isAsciiDigit lead, List.singleton_append]

theorem isNumeral_toDigits (n : Nat) : IsNumeral Text.isAsciiDigit (Nat.toDigits 10 n) := by
  have ascii : ∀ c ∈ Nat.toDigits 10 n, Text.isAsciiDigit c := fun _ => Json.isAsciiDigit_of_mem_toDigits
  rcases Nat.eq_zero_or_pos n with rfl | positive
  · rw [Nat.toDigits_zero]
    exact .zero
  · obtain ⟨first, rest, shape, nonzero⟩ := Json.toDigits_eq_cons_of_pos positive
    rw [shape] at ascii ⊢
    obtain ⟨lead, further⟩ := List.forall_mem_cons.mp ascii
    exact .positive lead nonzero further

theorem decimalNumber?_toDigits (n : Nat) : Text.decimalNumber? (Nat.toDigits 10 n) = some n := by
  have numeral := isNumeral_toDigits n
  obtain ⟨m, denotes⟩ := numeral.widen.exists_value
  have same : m = n := by
    rw [← Nat.ofDigitChars_ten_toDigits (n := m), numeral.toDigits_eq denotes,
      Nat.ofDigitChars_ten_toDigits]
  rw [denotes, same]

/-- A numeral without digits of other scripts is one of ASCII. -/
theorem IsNumeral.narrow (numeral : IsNumeral Text.isDecimal digits)
    (ascii : ∀ c ∈ digits, Text.isDecimal c → Text.isAsciiDigit c) :
    IsNumeral Text.isAsciiDigit digits := by
  cases numeral with
  | zero => exact .zero
  | positive lead nonzero further =>
    exact .positive lead nonzero fun c member =>
      ascii c (List.mem_cons_of_mem _ member) (further c member)

end Numerals

/-! ## The written form -/

/-- The labels of a version are lists of identifiers. -/
structure IsLabelled (v : Version) : Prop where
  pre : ∀ label ∈ v.pre, IsLabel label.toList
  build : ∀ label ∈ v.build, IsLabel label.toList

/-- The parts that a version is written with. -/
def written (v : Version) : Parts where
  major := Nat.toDigits 10 v.major
  minor := Nat.toDigits 10 v.minor
  patch := Nat.toDigits 10 v.patch
  pre := v.pre.map String.toList
  build := v.build.map String.toList

section Written

variable {v : Version} {parts : Parts} {digit : Char → Bool}

theorem IsLabel.ne_nil {label : List Char} (isLabel : IsLabel label) : label ≠ [] := by
  rintro rfl
  exact absurd (isIdentifierList_iff.mpr isLabel) (by decide)

theorem toList_mark {sign : String} {c : Char} (single : sign.toList = [c]) {label : Option String}
    (labelled : ∀ chars ∈ label, IsLabel chars.toList) :
    (text.mark sign label).toList = signed c (label.map String.toList) := by
  cases label with
  | none => rfl
  | some label =>
    have filled : label ≠ "" := by
      rintro rfl
      exact (labelled _ rfl).ne_nil rfl
    rw [text.mark, if_neg filled, String.toList_append, single]
    rfl

theorem toList_text (labelled : v.IsLabelled) : v.text.toList = v.written.chars := by
  have pre : (text.mark "-" v.pre).toList = signed '-' (v.pre.map String.toList) :=
    toList_mark rfl labelled.pre
  have build : (text.mark "+" v.build).toList = signed '+' (v.build.map String.toList) :=
    toList_mark rfl labelled.build
  have point : (toString ".").toList = ['.'] := rfl
  simp [text, pre, build, point, Parts.chars, written]

theorem written_sound (labelled : v.IsLabelled) : v.written.Sound Text.isAsciiDigit where
  major := isNumeral_toDigits v.major
  minor := isNumeral_toDigits v.minor
  patch := isNumeral_toDigits v.patch
  pre := by
    rintro _ member
    obtain ⟨label, held, rfl⟩ := Option.map_eq_some_iff.mp member
    exact labelled.pre label held
  build := by
    rintro _ member
    obtain ⟨label, held, rfl⟩ := Option.map_eq_some_iff.mp member
    exact labelled.build label held

theorem written_denotes (v : Version) : v.written.Denotes v where
  major := decimalNumber?_toDigits v.major
  minor := decimalNumber?_toDigits v.minor
  patch := decimalNumber?_toDigits v.patch
  pre := by simp [written, Function.comp_def]
  build := by simp [written, Function.comp_def]

/-- In ASCII, the parts that denote a version are the ones that it is written with. -/
theorem Parts.Sound.eq_written (sound : parts.Sound Text.isAsciiDigit) (denotes : parts.Denotes v) :
    parts = v.written := by
  obtain ⟨major, minor, patch, pre, build⟩ := parts
  have majorSame := sound.major.toDigits_eq denotes.major
  have minorSame := sound.minor.toDigits_eq denotes.minor
  have patchSame := sound.patch.toDigits_eq denotes.patch
  simp [written, majorSame, minorSame, patchSame, denotes.pre, denotes.build, Function.comp_def]

/-- What a text with sound parts denotes is labelled. -/
theorem Parts.Denotes.isLabelled (denotes : parts.Denotes v) (sound : parts.Sound digit) :
    v.IsLabelled := by
  constructor
  · rw [denotes.pre]
    rintro _ member
    obtain ⟨label, held, rfl⟩ := Option.map_eq_some_iff.mp member
    rw [String.toList_ofList]
    exact sound.pre label held
  · rw [denotes.build]
    rintro _ member
    obtain ⟨label, held, rfl⟩ := Option.map_eq_some_iff.mp member
    rw [String.toList_ofList]
    exact sound.build label held

/-- Sound parts denote a version. -/
theorem Parts.Sound.exists_version (sound : parts.Sound Text.isDecimal) : ∃ v, parts.Denotes v := by
  obtain ⟨major, majorValue⟩ := sound.major.exists_value
  obtain ⟨minor, minorValue⟩ := sound.minor.exists_value
  obtain ⟨patch, patchValue⟩ := sound.patch.exists_value
  exact ⟨⟨major, minor, patch, _, _⟩, majorValue, minorValue, patchValue, rfl, rfl⟩

theorem Parts.Sound.widen (sound : parts.Sound Text.isAsciiDigit) : parts.Sound Text.isDecimal :=
  ⟨sound.major.widen, sound.minor.widen, sound.patch.widen, sound.pre, sound.build⟩

end Written

/-! ## What surrounds a version -/

section Surroundings

variable {v : Version} {parts : Parts} {digit : Char → Bool} {text : String}

theorem isIdentifierChar_of_isAsciiDigit {c : Char} (ascii : Text.isAsciiDigit c) :
    isIdentifierChar c := by
  have bounds := Text.isAsciiDigit_iff.mp ascii
  have digit : c.isDigit = true := by
    simp only [Char.isDigit, ge_iff_le, UInt32.le_iff_toNat_le, Bool.and_eq_true, decide_eq_true_eq]
    exact bounds
  simp [isIdentifierChar, Char.isAlphanum, digit]

theorem IsNumeral.mem {digits : List Char} (numeral : IsNumeral digit digits) {c : Char}
    (member : c ∈ digits) : digit c ∨ isIdentifierChar c := by
  cases numeral with
  | zero =>
    obtain rfl := List.mem_singleton.mp member
    exact .inr rfl
  | positive lead nonzero further =>
    rcases List.mem_cons.mp member with rfl | later
    · exact .inr (isIdentifierChar_of_isAsciiDigit lead)
    · exact .inl (further c later)

/-- What a version text holds besides digits. -/
theorem Parts.Sound.mem_chars (sound : parts.Sound digit) {c : Char} (member : c ∈ parts.chars) :
    digit c ∨ c = '.' ∨ c = '+' ∨ isIdentifierChar c := by
  have signs {sign : Char} {label : Option (List Char)} (isLabel : ∀ chars ∈ label, IsLabel chars)
      (member : c ∈ signed sign label) : c = sign ∨ c = '.' ∨ isIdentifierChar c := by
    cases label with
    | none => cases member
    | some chars => exact (List.mem_cons.mp member).imp_right (isLabel chars rfl).mem
  simp only [chars, List.mem_append, List.mem_cons] at member
  rcases member with major | point | minor | point | patch | pre | build
  · have inside := sound.major.mem major
    tauto
  · tauto
  · have inside := sound.minor.mem minor
    tauto
  · tauto
  · have inside := sound.patch.mem patch
    tauto
  · rcases signs sound.pre pre with rfl | inside
    · exact .inr (.inr (.inr rfl))
    · tauto
  · have inside := signs sound.build build
    tauto

theorem bounds_of_isIdentifierChar {c : Char} (inside : isIdentifierChar c) :
    0x21 ≤ c.toNat ∧ c.toNat < 0x7F := by
  have classes : ((decide (65 ≤ c.val ∧ c.val ≤ 90) ||
      (decide (97 ≤ c.val) && decide (c.val ≤ 122))) ||
      (decide (48 ≤ c.val) && decide (c.val ≤ 57))) || decide (c = '-') := inside
  simp only [UInt32.le_iff_toNat_le, Bool.or_eq_true, Bool.and_eq_true, decide_eq_true_eq] at classes
  change (((65 ≤ c.toNat ∧ c.toNat ≤ 90) ∨ (97 ≤ c.toNat ∧ c.toNat ≤ 122)) ∨
    (48 ≤ c.toNat ∧ c.toNat ≤ 57)) ∨ c = '-' at classes
  rcases classes with letterOrDigit | rfl
  · omega
  · decide

/-- In ASCII, a version text holds visible characters only. -/
theorem Parts.Sound.bounds (sound : parts.Sound Text.isAsciiDigit) {c : Char} (member : c ∈ parts.chars) :
    0x21 ≤ c.toNat ∧ c.toNat < 0x7F := by
  rcases sound.mem_chars member with digit | rfl | rfl | inside
  · have bounds := Text.isAsciiDigit_iff.mp digit
    omega
  · decide
  · decide
  · exact bounds_of_isIdentifierChar inside

/-- Where a version text has no digits of other scripts, its numerals have none. -/
theorem Parts.Sound.narrow (sound : parts.Sound Text.isDecimal)
    (ascii : ∀ c ∈ parts.chars, Text.isDecimal c → Text.isAsciiDigit c) :
    parts.Sound Text.isAsciiDigit where
  major := sound.major.narrow fun c member => ascii c (by simp [chars, member])
  minor := sound.minor.narrow fun c member => ascii c (by simp [chars, member])
  patch := sound.patch.narrow fun c member => ascii c (by simp [chars, member])
  pre := sound.pre
  build := sound.build

/-- A version text begins with a digit, and so not with the letter that may stand before it. -/
theorem Parts.Sound.skipLetter_chars (sound : parts.Sound digit) : skipLetter parts.chars = parts.chars := by
  have begins : ∃ first rest, parts.major = first :: rest ∧ Text.isAsciiDigit first := by
    generalize shape : parts.major = major
    cases shape ▸ sound.major with
    | zero => exact ⟨'0', [], rfl, rfl⟩
    | positive lead _ _ => exact ⟨_, _, rfl, lead⟩
  obtain ⟨first, rest, shape, lead⟩ := begins
  rw [chars, shape, List.cons_append, skipLetter]
  rintro rest' same
  cases same
  cases lead

/-- A text is read as a version exactly if it is, between blanks and perhaps behind the letter, made of
sound parts that denote the version. -/
theorem parse?_eq_some_iff : parse? text = some v ↔
    ∃ parts : Parts, parts.Sound Text.isDecimal ∧ parts.Denotes v ∧
      (Text.trim Text.isBlank text.toList = parts.chars ∨
        Text.trim Text.isBlank text.toList = 'v' :: parts.chars) := by
  rw [parse?, readCore?_eq_some_iff]
  constructor
  · rintro ⟨parts, sound, denotes, same⟩
    refine ⟨parts, sound, denotes, ?_⟩
    unfold skipLetter at same
    split at same
    · rename_i shape
      exact .inr (shape.trans (congrArg _ same))
    · exact .inl same
  · rintro ⟨parts, sound, denotes, same | same⟩
    · exact ⟨parts, sound, denotes, by rw [same, sound.skipLetter_chars]⟩
    · exact ⟨parts, sound, denotes, by rw [same, skipLetter]⟩

/-- In ASCII, sound parts put together are read as what they denote. -/
theorem parse?_chars (sound : parts.Sound Text.isAsciiDigit) (denotes : parts.Denotes v) :
    parse? (String.ofList parts.chars) = some v := by
  have trimmed : Text.trim Text.isBlank parts.chars = parts.chars :=
    Text.trim_eq_self fun c member => Text.not_isBlank_of_bounds (sound.bounds member)
  exact parse?_eq_some_iff.mpr ⟨parts, sound.widen, denotes, .inl (by rw [String.toList_ofList, trimmed])⟩

end Surroundings

/-! ## Results -/

/-- **Reading and writing are inverse to each other.** The version that a text denotes is read back from
what it is written as. A text of three ASCII numerals, perhaps with a pre-release and build metadata, is
read as the version with these numbers and exactly these labels, and that version is written as the text. -/
theorem reading_inverts_writing :
    (∀ t v, parse? t = some v → parse? v.text = some v) ∧
      ∀ parts : Parts, parts.Sound Text.isAsciiDigit →
        ∃ v, parse? (String.ofList parts.chars) = some v ∧ parts.Denotes v ∧
          v.text = String.ofList parts.chars := by
  constructor
  · intro t v read
    obtain ⟨parts, sound, denotes, _⟩ := parse?_eq_some_iff.mp read
    have labelled := denotes.isLabelled sound
    rw [← String.ofList_toList (s := v.text), toList_text labelled]
    exact parse?_chars (written_sound labelled) (written_denotes v)
  · intro parts sound
    obtain ⟨v, denotes⟩ := sound.widen.exists_version
    have same := toList_text (denotes.isLabelled sound)
    rw [← sound.eq_written denotes] at same
    exact ⟨v, parse?_chars sound denotes, denotes, by rw [← same, String.ofList_toList]⟩

/-- A version with a letter before it and one with hyphens in both labels. -/
theorem reading_inverts_writing_hyphens :
    parse? "v2.0.3" = some ⟨2, 0, 3, none, none⟩ ∧
      parse? (text ⟨2, 0, 3, none, none⟩) = some ⟨2, 0, 3, none, none⟩ ∧
      ∃ v, parse? "1.12.0--rc-1+b.-5" = some v ∧ v.pre = some "-rc-1" ∧ v.build = some "b.-5" ∧
        v.text = "1.12.0--rc-1+b.-5" := by
  have read : parse? "v2.0.3" = some ⟨2, 0, 3, none, none⟩ := by decide
  refine ⟨read, reading_inverts_writing.1 _ _ read, ?_⟩
  have sound : (Parts.mk ['1'] ['1', '2'] ['0'] (some "-rc-1".toList) (some "b.-5".toList)).Sound
      Text.isAsciiDigit := by
    have twelve : IsNumeral Text.isAsciiDigit ['1', '2'] :=
      .positive rfl (by decide) (List.forall_mem_singleton.mpr rfl)
    refine ⟨.positive rfl (by decide) (by simp), twelve, .zero, ?_, ?_⟩
    · rintro _ ⟨⟩
      exact isIdentifierList_iff.mp (by decide)
    · rintro _ ⟨⟩
      exact isIdentifierList_iff.mp (by decide)
  obtain ⟨v, read, denotes, same⟩ := reading_inverts_writing.2 _ sound
  exact ⟨v, read, denotes.pre, denotes.build, same⟩

/-- Between blanks and perhaps behind the letter, the text is what some version with proper labels is
written as. -/
def IsDocumented (t : String) : Prop :=
  ∃ v : Version, v.IsLabelled ∧ (Text.trim Text.isBlank t.toList = v.text.toList ∨
    Text.trim Text.isBlank t.toList = 'v' :: v.text.toList)

theorem isDocumented_iff {t : String} : IsDocumented t ↔ (∃ v, parse? t = some v) ∧
    ∀ c ∈ Text.trim Text.isBlank t.toList, Text.isDecimal c → Text.isAsciiDigit c := by
  constructor
  · rintro ⟨v, labelled, shape⟩
    have sound := written_sound labelled
    rw [toList_text labelled] at shape
    refine ⟨⟨v, parse?_eq_some_iff.mpr ⟨_, sound.widen, written_denotes v, shape⟩⟩, ?_⟩
    have ascii : ∀ c ∈ v.written.chars, Text.isDecimal c → Text.isAsciiDigit c := fun c member decimal =>
      have bounds := sound.bounds member
      Text.isAsciiDigit_of_isDecimal decimal (by omega)
    rcases shape with same | same
    · rwa [same]
    · rw [same]
      exact List.forall_mem_cons.mpr ⟨by decide, ascii⟩
  · rintro ⟨⟨v, read⟩, ascii⟩
    obtain ⟨parts, sound, denotes, shape⟩ := parse?_eq_some_iff.mp read
    have narrow : parts.Sound Text.isAsciiDigit := by
      refine sound.narrow fun c member => ascii c ?_
      rcases shape with same | same
      · rwa [same]
      · rw [same]
        exact List.mem_cons_of_mem _ member
    obtain rfl := narrow.eq_written denotes
    have labelled := denotes.isLabelled sound
    exact ⟨v, labelled, by rwa [toList_text labelled]⟩

/-- **What is accepted.** A text is accepted exactly if, between blanks and perhaps behind the letter, it
is made of three numerals and perhaps labels; the first digit of a numeral is one of ASCII, and the
others are decimal digits of any script. The texts in the documented form are those among them without
decimal digits of other scripts. Every other text is refused for being no version. -/
theorem accepted_forms (t : String) :
    ((∃ v, parse? t = some v) ↔ ∃ parts : Parts, parts.Sound Text.isDecimal ∧
      (Text.trim Text.isBlank t.toList = parts.chars ∨
        Text.trim Text.isBlank t.toList = 'v' :: parts.chars)) ∧
    (IsDocumented t ↔ (∃ v, parse? t = some v) ∧
      ∀ c ∈ Text.trim Text.isBlank t.toList, Text.isDecimal c → Text.isAsciiDigit c) ∧
    (Release.readVersion t = .error (.invalidVersion t) ↔ ¬∃ v, parse? t = some v) := by
  refine ⟨?_, isDocumented_iff, ?_⟩
  · constructor
    · rintro ⟨v, read⟩
      obtain ⟨parts, sound, _, shape⟩ := parse?_eq_some_iff.mp read
      exact ⟨parts, sound, shape⟩
    · rintro ⟨parts, sound, shape⟩
      obtain ⟨v, denotes⟩ := sound.exists_version
      exact ⟨v, parse?_eq_some_iff.mpr ⟨parts, sound, denotes, shape⟩⟩
  · unfold Release.readVersion
    cases parse? t <;> simp

/-- An Arabic-Indic digit behind the first digit of a number is read, though no version is written with
it. -/
theorem wide_digits_are_accepted :
    parse? "1١.0.0" = some ⟨11, 0, 0, none, none⟩ ∧ ¬IsDocumented "1١.0.0" := by
  refine ⟨by decide, fun documented => ?_⟩
  have ascii := (isDocumented_iff.mp documented).2 '١' (by decide)
  exact absurd (ascii (by decide)) (by decide)

end Version

end ApiDelta
