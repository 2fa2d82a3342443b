/-!
Digits, in ASCII and beyond. A decimal digit of any script has a value from 0 to 9; a few more characters
(superscripts, circled and Ethiopic digits) are digits without being decimal ones, so that a text of
digits need not be readable as a number.
-/
namespace ApiDelta.Text

/-- One of the ten digits that formats know. -/
def isAsciiDigit (c : Char) : Bool :=
  '0'.toNat ≤ c.toNat && c.toNat ≤ '9'.toNat

theorem isAsciiDigit_iff {c : Char} : isAsciiDigit c ↔ 0x30 ≤ c.toNat ∧ c.toNat ≤ 0x39 := by
  rw [isAsciiDigit, Bool.and_eq_true, decide_eq_true_iff, decide_eq_true_iff]
  rfl

/-- The zero of every script with decimal digits; its nine successors are the digits 1 to 9. -/
def decimalZeros : List Nat := [
  0x30, 0x660, 0x6F0, 0x7C0, 0x966, 0x9E6, 0xA66, 0xAE6, 0xB66, 0xBE6, 0xC66, 0xCE6, 0xD66,
  0xDE6, 0xE50, 0xED0, 0xF20, 0x1040, 0x1090, 0x17E0, 0x1810, 0x1946, 0x19D0, 0x1A80, 0x1A90,
  0x1B50, 0x1BB0, 0x1C40, 0x1C50, 0xA620, 0xA8D0, 0xA900, 0xA9D0, 0xA9F0, 0xAA50, 0xABF0,
  0xFF10, 0x104A0, 0x10D30, 0x11066, 0x110F0, 0x11136, 0x111D0, 0x112F0, 0x11450, 0x114D0,
  0x11650, 0x116C0, 0x11730, 0x118E0, 0x11950, 0x11C50, 0x11D50, 0x11DA0, 0x16A60, 0x16AC0,
  0x16B50, 0x1D7CE, 0x1D7D8, 0x1D7E2, 0x1D7EC, 0x1D7F6, 0x1E140, 0x1E2F0, 0x1E950, 0x1FBF0]

/-- Digits that take no part in decimal notation. -/
def otherDigits : List (Nat × Nat) := [
  (0xB2, 0xB3), (0xB9, 0xB9), (0x1369, 0x1371), (0x19DA, 0x19DA), (0x2070, 0x2070),
  (0x2074, 0x2079), (0x2080, 0x2089), (0x2460, 0x2468), (0x2474, 0x247C), (0x2488, 0x2490),
  (0x24EA, 0x24EA), (0x24F5, 0x24FD), (0x24FF, 0x24FF), (0x2776, 0x277E), (0x2780, 0x2788),
  (0x278A, 0x2792), (0x10A40, 0x10A43), (0x10E60, 0x10E68), (0x11052, 0x1105A),
  (0x1F100, 0x1F10A)]

/-- The value of a decimal digit. -/
def decimalValue? (c : Char) : Option Nat :=
  (decimalZeros.find? fun start => start ≤ c.toNat && c.toNat < start + 10).map (c.toNat - ·)

def isDecimal (c : Char) : Bool :=
  (decimalValue? c).isSome

/-- A digit, decimal or not. -/
def isDigit (c : Char) : Bool :=
  isDecimal c || otherDigits.any fun range => range.1 ≤ c.toNat && c.toNat ≤ range.2

/-- The number that a text of decimal digits denotes, or nothing if another character is among
them. -/
def decimalNumber? (text : List Char) : Option Nat :=
  text.foldlM (fun value c => (decimalValue? c).map (value * 10 + ·)) 0

theorem decimalNumber?_isSome (text : List Char) :
    (decimalNumber? text).isSome ↔ ∀ c ∈ text, isDecimal c := by
  unfold decimalNumber?
  generalize 0 = value
  induction text generalizing value with
  | nil => simp
  | cons c rest ih =>
    rw [List.foldlM_cons, List.forall_mem_cons, isDecimal]
    cases decimalValue? c with
    | none => simp
    | some digit => simpa using ih (value * 10 + digit)

theorem decimalValue?_of_isAsciiDigit {c : Char} (ascii : isAsciiDigit c) :
    decimalValue? c = some (c.toNat - 0x30) := by
  have within : (decide (0x30 ≤ c.toNat) && decide (c.toNat < 0x30 + 10)) = true := by
    rw [Bool.and_eq_true, decide_eq_true_iff, decide_eq_true_iff]
    exact (isAsciiDigit_iff.mp ascii).imp_right Nat.lt_succ_of_le
  have found : decimalZeros.find? (fun start => start ≤ c.toNat && c.toNat < start + 10) =
      some 0x30 := List.find?_cons_of_pos within
  rw [decimalValue?, found, Option.map_some]

theorem isDecimal_of_isAsciiDigit {c : Char} (ascii : isAsciiDigit c) : isDecimal c := by
  rw [isDecimal, decimalValue?_of_isAsciiDigit ascii, Option.isSome_some]

/-- In ASCII, the decimal digits are the ten that formats know. -/
theorem isAsciiDigit_of_isDecimal {c : Char} (decimal : isDecimal c) (ascii : c.toNat < 0x80) :
    isAsciiDigit c := by
  rw [isDecimal, decimalValue?, Option.isSome_map] at decimal
  obtain ⟨start, member, within⟩ := List.find?_isSome.mp decimal
  simp only [Bool.and_eq_true, decide_eq_true_eq] at within
  have others : ∀ start ∈ decimalZeros, start < 0x80 → start = 0x30 := by decide
  obtain rfl := others start member (by omega)
  exact isAsciiDigit_iff.mpr ⟨within.1, Nat.le_of_lt_succ within.2⟩

end ApiDelta.Text
