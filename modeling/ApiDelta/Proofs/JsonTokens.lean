import Mathlib.Tactic.SplitIfs
import ApiDelta.Json.Canonical
import ApiDelta.Json.Reader
import ApiDelta.Text.CodePoints.Lemmas

/-!
The strings and whole numbers of a canonical text are read back. A string ends at its own quote, because
no character inside it is left unescaped that could end it; a number ends where its digits do, so that
what follows it has to be told from a digit, a point and an exponent mark.
-/
namespace ApiDelta.Json

open Text.CodePoints

/-- A code point that is a character. -/
def IsCharacter (code : Nat) : Prop :=
  isCodePoint code ∧ ¬isSurrogate code

/-- The characters with the given code points. -/
def spelled (codes : List Nat) : List Char :=
  codes.map Char.ofNat

theorem spelled_append (codes codes' : List Nat) :
    spelled (codes ++ codes') = spelled codes ++ spelled codes' :=
  List.map_append

theorem spelled_plainCodes (chars : List Char) : spelled (plainCodes chars) = chars := by
  rw [spelled, plainCodes, List.map_map]
  exact (List.map_congr_left fun c _ => Char.ofNat_toNat c).trans (List.map_id chars)

theorem spelled_wordCodes (word : String) : spelled (wordCodes word) = word.toList :=
  spelled_plainCodes _

/-! ## Strings -/

theorem readCodes_simple (letter meant : Char) (known : simpleEscape? letter = some meant)
    (opening : List Char) (done : List Nat) (rest : List Char) :
    readCodes opening done ('\\' :: letter :: rest) =
      readCodes opening (meant.toNat :: done) rest := by
  have notCode : letter ≠ 'u' := by
    rintro rfl
    cases known
  rw [readCodes, known]
  all_goals simp [notCode]

theorem readCodes_digits {digits : List Char} {code : Nat} (four : digits.length = 4)
    (meant : hexNumber? digits = some code) (opening : List Char) (done : List Nat) (next : Char)
    (rest : List Char) :
    readCodes opening done ('\\' :: 'u' :: (digits ++ next :: rest)) =
      readCodes opening (code :: done) (next :: rest) := by
  match digits, four with
  | [a, b, c, d], _ =>
    simp only [List.cons_append, List.nil_append]
    rw [readCodes, meant]

/-- A control character is written with four digits that give its code back. -/
theorem hexDigits_of_control : ∀ code < 0x20, (Text.hexDigits 4 code).length = 4 ∧
    hexNumber? (Text.hexDigits 4 code) = some code := by
  decide

theorem readCodes_plain {c : Char} (notQuote : c ≠ '"') (notEscape : c ≠ '\\')
    (printable : ¬c.toNat < 0x20) (opening : List Char) (done : List Nat) (rest : List Char) :
    readCodes opening done (c :: rest) = readCodes opening (c.toNat :: done) rest := by
  rw [readCodes, if_neg printable]
  all_goals simp [notQuote, notEscape]

/-- One code point of a string is read back. Something has to follow it: the reader takes the four
digits of a code only if the text goes on after them. -/
theorem readCodes_escapeCode {code : Nat} (character : IsCharacter code)
    (opening : List Char) (done : List Nat) (next : Char) (rest : List Char) :
    readCodes opening done (spelled (escapeCode code) ++ next :: rest) =
      readCodes opening (code :: done) (next :: rest) := by
  unfold escapeCode
  split_ifs with quote escape line carriage tab back feed control
  · subst quote
    exact readCodes_simple '"' '"' rfl ..
  · subst escape
    exact readCodes_simple '\\' '\\' rfl ..
  · subst line
    exact readCodes_simple 'n' '\n' rfl ..
  · subst carriage
    exact readCodes_simple 'r' '\r' rfl ..
  · subst tab
    exact readCodes_simple 't' '\t' rfl ..
  · subst back
    exact readCodes_simple 'b' '\x08' rfl ..
  · subst feed
    exact readCodes_simple 'f' '\x0c' rfl ..
  · rw [spelled_append, spelled_wordCodes, spelled_plainCodes]
    obtain ⟨four, meant⟩ := hexDigits_of_control code control
    exact readCodes_digits four meant ..
  · have same : (Char.ofNat code).toNat = code := toNat_ofNat character.1 character.2
    have apart : ∀ c : Char, code ≠ c.toNat → Char.ofNat code ≠ c := fun c differs equal =>
      differs (same.symm.trans (congrArg Char.toNat equal))
    have read := readCodes_plain (apart '"' quote) (apart '\\' escape) (same.symm ▸ control)
      opening done (next :: rest)
    rwa [same] at read

/-- The code points of a string are read back up to its quote. -/
theorem readCodes_flatMap_escapeCode {codes : List Nat}
    (characters : ∀ code ∈ codes, IsCharacter code) (opening : List Char) (done : List Nat)
    (rest : List Char) :
    readCodes opening done (spelled (codes.flatMap escapeCode) ++ '"' :: rest) =
      .ok (done.reverse ++ codes, rest) := by
  induction codes generalizing done with
  | nil => simp [spelled, readCodes]
  | cons code codes ih =>
    obtain ⟨character, characters⟩ := List.forall_mem_cons.mp characters
    -- What follows the code point is never empty: it is another one, or the quote.
    obtain ⟨next, more, follows⟩ : ∃ next more,
        spelled (codes.flatMap escapeCode) ++ '"' :: rest = next :: more :=
      List.exists_cons_of_ne_nil (by simp)
    rw [List.flatMap_cons, spelled_append, List.append_assoc, follows,
      readCodes_escapeCode character, ← follows, ih characters]
    simp

/-- No pair is joined where there is no surrogate. -/
theorem joinSurrogates_eq_self {codes : List Nat} (proper : ∀ code ∈ codes, ¬isSurrogate code) :
    joinSurrogates codes = codes := by
  induction codes using joinSurrogates.induct with
  | case1 high low rest pair ih =>
    have notHigh := proper high (List.mem_cons_self ..)
    rw [isSurrogate_iff] at notHigh
    simp only [isHighSurrogate, Bool.and_eq_true, decide_eq_true_eq] at pair
    omega
  | case2 high low rest pair ih =>
    rw [joinSurrogates, if_neg pair, ih fun code member => proper code (List.mem_cons_of_mem _ member)]
  | case3 codes short =>
    rw [joinSurrogates]
    exact short

theorem isCharacter_of_mem_codePoints {text : String} (formed : Text.isWellFormed text) :
    ∀ code ∈ Text.codePoints text, IsCharacter code := by
  have proper : ∀ code ∈ Text.codePoints text, ¬isSurrogate code := by
    simpa [Text.isWellFormed] using formed
  exact fun code member => ⟨isCodePoint_of_mem_unpack member, proper code member⟩

/-- A string is read back. -/
theorem readString_stringCodes {text : String} (formed : Text.isWellFormed text)
    (opening rest : List Char) :
    readString opening (spelled ((Text.codePoints text).flatMap escapeCode) ++ '"' :: rest) =
      .ok (text, rest) := by
  have characters := isCharacter_of_mem_codePoints formed
  have read := readCodes_flatMap_escapeCode characters opening [] rest
  rw [readString, read]
  show Except.ok _ = _
  simp only [List.reverse_nil, List.nil_append]
  rw [joinSurrogates_eq_self fun code member => (characters code member).2,
    Text.ofCodePoints_codePoints]

/-! ## Whole numbers -/

/-- What may follow a value: nothing, or the character that ends it. -/
def Closes (rest : List Char) : Prop :=
  ∀ c ∈ rest.head?, c = ',' ∨ c = ']' ∨ c = '\x7d'

theorem isAsciiDigit_of_mem_toDigits {n : Nat} {c : Char} (member : c ∈ Nat.toDigits 10 n) :
    Text.isAsciiDigit c := by
  have digit := Nat.isDigit_of_mem_toDigits (by decide) (by decide) member
  simp only [Char.isDigit, Bool.and_eq_true, decide_eq_true_eq] at digit
  exact Text.isAsciiDigit_iff.mpr digit

/-- The digits of a positive number do not begin with a zero. -/
theorem toDigits_eq_cons_of_pos {n : Nat} (positive : 0 < n) :
    ∃ c digits, Nat.toDigits 10 n = c :: digits ∧ c ≠ '0' := by
  induction n using Nat.strongRecOn with
  | ind n ih =>
    by_cases small : n < 10
    · refine ⟨n.digitChar, [], Nat.toDigits_of_lt_base small, ?_⟩
      have apart : ∀ m < 10, 0 < m → m.digitChar ≠ '0' := by decide
      exact apart n small positive
    · obtain ⟨c, digits, shape, nonzero⟩ := ih (n / 10) (by omega) (by omega)
      refine ⟨c, digits ++ [(n % 10).digitChar], ?_, nonzero⟩
      rw [Nat.toDigits_of_base_le (by decide) (by omega), shape, List.cons_append]

theorem Closes.not_digit {rest : List Char} (closes : Closes rest) :
    rest.takeWhile Text.isAsciiDigit = [] ∧ rest.dropWhile Text.isAsciiDigit = rest := by
  match rest with
  | [] => exact ⟨rfl, rfl⟩
  | c :: more => rcases closes c rfl with rfl | rfl | rfl <;> exact ⟨rfl, rfl⟩

theorem Closes.readFraction_eq {rest : List Char} (closes : Closes rest) :
    readFraction rest = (none, rest) := by
  match rest with
  | [] => rfl
  | c :: more => rcases closes c rfl with rfl | rfl | rfl <;> rfl

theorem Closes.readPower_eq {rest : List Char} (closes : Closes rest) :
    readPower rest = (none, rest) := by
  match rest with
  | [] => rfl
  | c :: more => rcases closes c rfl with rfl | rfl | rfl <;> rfl

theorem readWhole?_toDigits (n : Nat) {rest : List Char} (closes : Closes rest) :
    readWhole? (Nat.toDigits 10 n ++ rest) = some (Nat.toDigits 10 n, rest) := by
  rcases Nat.eq_zero_or_pos n with rfl | positive
  · rw [Nat.toDigits_zero]
    rfl
  · have digits : ∀ c ∈ Nat.toDigits 10 n, Text.isAsciiDigit c :=
      fun c => isAsciiDigit_of_mem_toDigits
    have span : spanDigits (Nat.toDigits 10 n ++ rest) = (Nat.toDigits 10 n, rest) := by
      rw [spanDigits, List.takeWhile_append_of_pos digits, List.dropWhile_append_of_pos digits,
        closes.not_digit.1, closes.not_digit.2, List.append_nil]
    obtain ⟨c, more, shape, nonzero⟩ := toDigits_eq_cons_of_pos positive
    rw [shape] at span ⊢
    rw [List.cons_append] at span ⊢
    rw [readWhole?, span]
    · rfl
    · simpa using nonzero

/-- The digits of a number begin with one, and so neither with a sign nor with what begins another
value. -/
theorem toDigits_eq_cons (n : Nat) :
    ∃ c digits, Nat.toDigits 10 n = c :: digits ∧ Text.isAsciiDigit c := by
  obtain ⟨c, digits, shape⟩ := List.exists_cons_of_ne_nil (Nat.toDigits_ne_nil (n := n) (b := 10))
  refine ⟨c, digits, shape, isAsciiDigit_of_mem_toDigits (n := n) ?_⟩
  rw [shape]
  exact List.mem_cons_self ..

/-- A whole number is read back. -/
theorem readNumber_intCodes (value : Int) {rest : List Char} (closes : Closes rest) :
    readNumber (spelled (intCodes value) ++ rest) = .ok (.int value, rest) := by
  rw [intCodes, spelled_append, spelled_wordCodes, spelled_plainCodes, List.append_assoc]
  have whole := readWhole?_toDigits value.natAbs closes
  by_cases negative : value < 0
  · have magnitude : -(value.natAbs : Int) = value := by omega
    rw [if_pos negative]
    show readNumber ('-' :: (Nat.toDigits 10 value.natAbs ++ rest)) = _
    simp only [readNumber, whole, closes.readFraction_eq, closes.readPower_eq,
      Nat.ofDigitChars_ten_toDigits, if_true, magnitude]
  · have magnitude : (value.natAbs : Int) = value := by omega
    rw [if_neg negative]
    show readNumber (Nat.toDigits 10 value.natAbs ++ rest) = _
    obtain ⟨c, digits, shape, digit⟩ := toDigits_eq_cons value.natAbs
    have digitsValue : Nat.ofDigitChars 10 (c :: digits) 0 = value.natAbs := by
      rw [← shape, Nat.ofDigitChars_ten_toDigits]
    have unsigned : ∀ more, c :: (digits ++ rest) = '-' :: more → False := by
      intro more same
      rw [(List.cons.inj same).1] at digit
      cases digit
    rw [shape, List.cons_append] at whole ⊢
    simp only [readNumber, whole, closes.readFraction_eq, closes.readPower_eq, digitsValue,
      Bool.false_eq_true, if_false, magnitude]

end ApiDelta.Json
