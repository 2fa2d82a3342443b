import Mathlib.Data.List.TakeWhile
import ApiDelta.Version.Basic

/-!
The grammar of version texts, told without the reader: three numerals with points between them, then
perhaps a pre-release and perhaps build metadata. The reader accepts what the grammar describes and
nothing else. A text can be taken apart in one way only, since a numeral is followed by no digit, and the
first plus sign ends a pre-release, for no identifier holds one. The hyphens in a label are characters
of its identifiers: only the one right behind the numerals is a sign.
-/
namespace ApiDelta.Version

/-- A zero alone, or an ASCII digit from 1 to 9 and further digits. Which characters count as further
digits is left open. -/
inductive IsNumeral (digit : Char → Bool) : List Char → Prop where
  | zero : IsNumeral digit ['0']
  | positive {first : Char} {rest : List Char} (lead : Text.isAsciiDigit first) (nonzero : first ≠ '0')
      (further : ∀ c ∈ rest, digit c) : IsNumeral digit (first :: rest)

/-- Identifiers with points between them. None is empty, and none holds other characters than ASCII
letters, ASCII digits and hyphens. -/
def IsLabel (label : List Char) : Prop :=
  ∃ identifiers : List (List Char), identifiers ≠ [] ∧
    (∀ identifier ∈ identifiers, identifier ≠ [] ∧ ∀ c ∈ identifier, isIdentifierChar c) ∧
    label = ['.'].intercalate identifiers

/-- The parts of a version text, without the points and signs between them. -/
structure Parts where
  major : List Char
  minor : List Char
  patch : List Char
  pre : Option (List Char)
  build : Option (List Char)

/-- A label behind its sign, if there is one. -/
def signed (sign : Char) : Option (List Char) → List Char
  | none => []
  | some label => sign :: label

namespace Parts

variable (parts : Parts)

/-- The parts put together. -/
def chars : List Char :=
  parts.major ++ '.' :: (parts.minor ++ '.' :: (parts.patch ++
    (signed '-' parts.pre ++ signed '+' parts.build)))

/-- Each part has its form. -/
structure Sound (digit : Char → Bool) : Prop where
  major : IsNumeral digit parts.major
  minor : IsNumeral digit parts.minor
  patch : IsNumeral digit parts.patch
  pre : ∀ label ∈ parts.pre, IsLabel label
  build : ∀ label ∈ parts.build, IsLabel label

/-- The version has the values of the numerals, and exactly the labels. -/
structure Denotes (v : Version) : Prop where
  major : Text.decimalNumber? parts.major = some v.major
  minor : Text.decimalNumber? parts.minor = some v.minor
  patch : Text.decimalNumber? parts.patch = some v.patch
  pre : v.pre = parts.pre.map String.ofList
  build : v.build = parts.build.map String.ofList

end Parts

/-! ## Numerals -/

section Numerals

variable {digit : Char → Bool} {digits chars rest : List Char} {n : Nat}

theorem IsNumeral.widen (numeral : IsNumeral Text.isAsciiDigit digits) :
    IsNumeral Text.isDecimal digits := by
  cases numeral with
  | zero => exact .zero
  | positive lead nonzero further =>
    exact .positive lead nonzero fun c member => Text.isDecimal_of_isAsciiDigit (further c member)

theorem IsNumeral.isDecimal (numeral : IsNumeral Text.isDecimal digits) :
    ∀ c ∈ digits, Text.isDecimal c := by
  cases numeral with
  | zero => simp [Text.isDecimal_of_isAsciiDigit (c := '0') rfl]
  | positive lead _ further =>
    exact List.forall_mem_cons.mpr ⟨Text.isDecimal_of_isAsciiDigit lead, further⟩

/-- A numeral has a value. -/
theorem IsNumeral.exists_value (numeral : IsNumeral Text.isDecimal digits) :
    ∃ n, Text.decimalNumber? digits = some n :=
  Option.isSome_iff_exists.mp ((Text.decimalNumber?_isSome digits).mpr numeral.isDecimal)

/-- A numeral is read up to its end. -/
theorem readNumber?_append (numeral : IsNumeral Text.isDecimal digits)
    (denotes : Text.decimalNumber? digits = some n) (ends : ∀ c ∈ rest.head?, ¬Text.isDecimal c) :
    readNumber? (digits ++ rest) = some (n, rest) := by
  cases numeral with
  | zero =>
    cases denotes
    rfl
  | @positive first further lead nonzero digits =>
    have none : rest.takeWhile Text.isDecimal = [] ∧ rest.dropWhile Text.isDecimal = rest := by
      cases rest with
      | nil => exact ⟨rfl, rfl⟩
      | cons c rest =>
        have other := ends c rfl
        exact ⟨List.takeWhile_cons_of_neg other, List.dropWhile_cons_of_neg other⟩
    have bounds := Text.isAsciiDigit_iff.mp lead
    have one : '1'.toNat ≤ first.toNat := by
      have apart : first.toNat ≠ 0x30 := fun same => nonzero (Char.toNat_inj.mp same)
      have one : '1'.toNat = 0x31 := rfl
      omega
    rw [List.cons_append, readNumber?, if_pos ⟨one, bounds.2⟩]
    · simp only [List.takeWhile_append_of_pos digits, List.dropWhile_append_of_pos digits, none.1, none.2,
        List.append_nil, denotes, Option.map_some]
    · exact nonzero

/-- What is read as a number is a numeral. -/
theorem exists_of_readNumber? (read : readNumber? chars = some (n, rest)) :
    ∃ digits, IsNumeral Text.isDecimal digits ∧ Text.decimalNumber? digits = some n ∧
      chars = digits ++ rest := by
  unfold readNumber? at read
  split at read
  · cases read
    exact ⟨['0'], .zero, rfl, rfl⟩
  · rename_i first further nonzero
    split at read
    · rename_i bounds
      obtain ⟨value, denotes, same⟩ := Option.map_eq_some_iff.mp read
      cases same
      have lead : Text.isAsciiDigit first := by
        have one : '1'.toNat = 0x31 := rfl
        have nine : '9'.toNat = 0x39 := rfl
        rw [Text.isAsciiDigit_iff]
        omega
      refine ⟨_, .positive lead (fun zero => nonzero zero) fun c => List.mem_takeWhile_imp, denotes, ?_⟩
      rw [List.cons_append, List.takeWhile_append_dropWhile]
    · cases read
  · cases read

theorem skipPoint?_eq_some_iff : skipPoint? chars = some rest ↔ chars = '.' :: rest := by
  unfold skipPoint?
  split
  · simp
  · rename_i other
    simpa using other rest

end Numerals

/-! ## Labels -/

section Labels

variable {chars label : List Char} {pre build : Option String}

theorem isIdentifierList_iff : isIdentifierList label ↔ IsLabel label := by
  rw [isIdentifierList, List.all_eq_true]
  constructor
  · intro checked
    refine ⟨label.splitOn '.', List.splitOn_ne_nil '.' label, fun identifier member => ?_,
      (List.intercalate_splitOn '.').symm⟩
    simpa using checked identifier member
  · rintro ⟨identifiers, some, checked, rfl⟩
    have whole : ∀ identifier ∈ identifiers, '.' ∉ identifier := by
      intro identifier member point
      cases (checked identifier member).2 '.' point
    rw [List.splitOn_intercalate '.' whole some]
    intro identifier member
    simpa using checked identifier member

theorem mem_intercalate {sign c : Char} {pieces : List (List Char)}
    (member : c ∈ [sign].intercalate pieces) : c = sign ∨ ∃ piece ∈ pieces, c ∈ piece := by
  induction pieces with
  | nil => cases member
  | cons piece pieces ih =>
    cases pieces with
    | nil =>
      rw [List.intercalate_singleton] at member
      exact .inr ⟨piece, List.mem_cons_self, member⟩
    | cons next pieces =>
      rw [List.intercalate_cons_cons, List.mem_append, List.mem_append, List.mem_singleton] at member
      rcases member with (here | same) | later
      · exact .inr ⟨piece, List.mem_cons_self, here⟩
      · exact .inl same
      · exact (ih later).imp_right fun ⟨piece, among, inside⟩ =>
          ⟨piece, List.mem_cons_of_mem _ among, inside⟩

/-- A label holds points and the characters of its identifiers. -/
theorem IsLabel.mem (isLabel : IsLabel label) {c : Char} (member : c ∈ label) :
    c = '.' ∨ isIdentifierChar c := by
  obtain ⟨identifiers, _, checked, rfl⟩ := isLabel
  exact (mem_intercalate member).imp_right fun ⟨identifier, among, inside⟩ =>
    (checked identifier among).2 c inside

/-- No label holds the sign of build metadata. -/
theorem IsLabel.no_plus (isLabel : IsLabel label) : ∀ c ∈ label, decide (c ≠ '+') = true := by
  rintro c member
  rw [decide_eq_true_iff]
  rintro rfl
  rcases isLabel.mem member with point | inside
  · cases point
  · cases inside

theorem readBuild?_eq_some_iff : readBuild? chars = some build ↔
    ∃ label, (∀ chars ∈ label, IsLabel chars) ∧ chars = signed '+' label ∧
      build = label.map String.ofList := by
  constructor
  · intro read
    unfold readBuild? at read
    split at read
    · cases read
      exact ⟨none, nofun, rfl, rfl⟩
    · rename_i label
      split at read
      · rename_i checked
        cases read
        refine ⟨some label, ?_, rfl, rfl⟩
        rintro _ ⟨⟩
        exact isIdentifierList_iff.mp checked
      · cases read
    · cases read
  · rintro ⟨label, isLabel, rfl, rfl⟩
    cases label with
    | none => rfl
    | some label => exact if_pos (isIdentifierList_iff.mpr (isLabel label rfl))

/-- What a plus sign begins, or nothing, is no pre-release. -/
theorem readLabels?_signed (label : Option (List Char)) :
    readLabels? (signed '+' label) = (readBuild? (signed '+' label)).map fun build => (none, build) := by
  cases label <;> rfl

/-- The first plus sign ends a pre-release. -/
theorem span_label (isLabel : IsLabel label) (other : Option (List Char)) :
    (label ++ signed '+' other).takeWhile (· ≠ '+') = label ∧
      (label ++ signed '+' other).dropWhile (· ≠ '+') = signed '+' other := by
  have ends : (signed '+' other).takeWhile (· ≠ '+') = [] ∧
      (signed '+' other).dropWhile (· ≠ '+') = signed '+' other := by
    cases other <;> exact ⟨rfl, rfl⟩
  rw [List.takeWhile_append_of_pos isLabel.no_plus, List.dropWhile_append_of_pos isLabel.no_plus, ends.1,
    ends.2, List.append_nil]
  exact ⟨rfl, rfl⟩

theorem readLabels?_eq_some_iff : readLabels? chars = some (pre, build) ↔
    ∃ label label', (∀ chars ∈ label, IsLabel chars) ∧ (∀ chars ∈ label', IsLabel chars) ∧
      chars = signed '-' label ++ signed '+' label' ∧
      pre = label.map String.ofList ∧ build = label'.map String.ofList := by
  constructor
  · intro read
    unfold readLabels? at read
    split at read
    · rename_i rest
      simp only at read
      split at read
      · rename_i checked
        obtain ⟨build, readBuild, same⟩ := Option.map_eq_some_iff.mp read
        cases same
        obtain ⟨label', isLabel, shape, rfl⟩ := readBuild?_eq_some_iff.mp readBuild
        refine ⟨some (rest.takeWhile (· ≠ '+')), label', ?_, isLabel, ?_, rfl, rfl⟩
        · rintro _ ⟨⟩
          exact isIdentifierList_iff.mp checked
        · rw [← shape, signed, List.cons_append, List.takeWhile_append_dropWhile]
      · cases read
    · obtain ⟨build, readBuild, same⟩ := Option.map_eq_some_iff.mp read
      cases same
      obtain ⟨label', isLabel, rfl, rfl⟩ := readBuild?_eq_some_iff.mp readBuild
      exact ⟨none, label', nofun, isLabel, rfl, rfl, rfl⟩
  · rintro ⟨label, label', isLabel, isLabel', rfl, rfl, rfl⟩
    have readBuild : readBuild? (signed '+' label') = some (label'.map String.ofList) :=
      readBuild?_eq_some_iff.mpr ⟨label', isLabel', rfl, rfl⟩
    cases label with
    | none => rw [signed, List.nil_append, readLabels?_signed, readBuild, Option.map_some, Option.map_none]
    | some label =>
      obtain ⟨taken, left⟩ := span_label (isLabel label rfl) label'
      rw [signed, List.cons_append, readLabels?]
      simp only [taken, left]
      rw [if_pos (isIdentifierList_iff.mpr (isLabel label rfl)), readBuild, Option.map_some,
        Option.map_some]

end Labels

/-! ## Versions -/

/-- **The reader accepts the grammar.** A text is read as a version exactly if it is made of parts that
have their form and denote that version. -/
theorem readCore?_eq_some_iff {chars : List Char} {v : Version} : readCore? chars = some v ↔
    ∃ parts : Parts, parts.Sound Text.isDecimal ∧ parts.Denotes v ∧ chars = parts.chars := by
  constructor
  · intro read
    simp only [readCore?, Option.bind_eq_bind, Option.bind_eq_some_iff, Prod.exists,
      skipPoint?_eq_some_iff, Option.pure_def, Option.some.injEq] at read
    obtain ⟨major, _, readMajor, _, rfl, minor, _, readMinor, _, rfl, patch, rest, readPatch, pre, build,
      readLabels, rfl⟩ := read
    obtain ⟨majorDigits, majorForm, majorValue, rfl⟩ := exists_of_readNumber? readMajor
    obtain ⟨minorDigits, minorForm, minorValue, rfl⟩ := exists_of_readNumber? readMinor
    obtain ⟨patchDigits, patchForm, patchValue, rfl⟩ := exists_of_readNumber? readPatch
    obtain ⟨label, label', isLabel, isLabel', rfl, rfl, rfl⟩ := readLabels?_eq_some_iff.mp readLabels
    exact ⟨⟨majorDigits, minorDigits, patchDigits, label, label'⟩,
      ⟨majorForm, minorForm, patchForm, isLabel, isLabel'⟩,
      ⟨majorValue, minorValue, patchValue, rfl, rfl⟩, rfl⟩
  · rintro ⟨⟨major, minor, patch, pre, build⟩, sound, denotes, rfl⟩
    have point (rest : List Char) : ∀ c ∈ ('.' :: rest).head?, ¬Text.isDecimal c := by
      rintro _ ⟨⟩
      decide
    have ends : ∀ c ∈ (signed '-' pre ++ signed '+' build).head?, ¬Text.isDecimal c := by
      cases pre <;> cases build <;> rintro _ ⟨⟩ <;> decide
    have labels : readLabels? (signed '-' pre ++ signed '+' build) = some (v.pre, v.build) :=
      readLabels?_eq_some_iff.mpr ⟨pre, build, sound.pre, sound.build, rfl, denotes.pre, denotes.build⟩
    simp only [readCore?, Parts.chars, readNumber?_append sound.major denotes.major (point _),
      readNumber?_append sound.minor denotes.minor (point _),
      readNumber?_append sound.patch denotes.patch ends, skipPoint?, labels, Option.bind_eq_bind,
      Option.bind_some, Option.pure_def]

end ApiDelta.Version
