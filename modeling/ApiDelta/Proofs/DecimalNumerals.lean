import Mathlib.Algebra.Group.Nat.Defs
import Mathlib.Data.List.TakeWhile
import ApiDelta.Number.Numeral
import ApiDelta.Proofs.JsonTokens

/-!
Whole numbers in decimal notation. A number that some text denotes is short: its own decimal notation has
no more characters than a plain form may have, since whatever else stands in the text says nothing. A
short number is read back from its decimal notation.
-/
namespace ApiDelta

namespace Text

theorem trim_eq_self {drop : Char → Bool} {text : List Char} (kept : ∀ c ∈ text, drop c = false) :
    trim drop text = text := by
  have stays : ∀ chars : List Char, (∀ c ∈ chars, drop c = false) → chars.dropWhile drop = chars :=
    fun chars kept => List.dropWhile_eq_self_iff.mpr fun bound =>
      Bool.eq_false_iff.mp (kept _ (List.getElem_mem bound))
  unfold trim
  rw [stays text kept, stays text.reverse fun c member => kept c (List.mem_reverse.mp member),
    List.reverse_reverse]

end Text

namespace Numeral

open Text (isAsciiDigit)

/-- A character of decimal notation. -/
def IsDecimalChar (c : Char) : Prop :=
  c = '-' ∨ isAsciiDigit c

theorem IsDecimalChar.bounds {c : Char} (decimal : IsDecimalChar c) :
    c.toNat = 0x2D ∨ 0x30 ≤ c.toNat ∧ c.toNat ≤ 0x39 := by
  rcases decimal with rfl | digit
  · exact .inl rfl
  · exact .inr (Text.isAsciiDigit_iff.mp digit)

theorem IsDecimalChar.ne {c d : Char} (decimal : IsDecimalChar c)
    (other : d.toNat ≠ 0x2D ∧ (d.toNat < 0x30 ∨ 0x39 < d.toNat)) : c ≠ d := by
  rintro rfl
  have bounds := decimal.bounds
  omega

/-- The decimal notation of a number. -/
def decimal (n : Int) : List Char :=
  if n < 0 then '-' :: Nat.toDigits 10 n.natAbs else Nat.toDigits 10 n.natAbs

theorem toList_toString (n : Int) : (toString n).toList = decimal n := by
  rw [Int.toString_eq_repr, Int.repr_eq_if, decimal]
  by_cases negative : n < 0
  · have magnitude : (-n).toNat = n.natAbs := by omega
    rw [if_neg (by omega), if_pos negative, magnitude, String.toList_append, Nat.toList_repr]
    rfl
  · have magnitude : n.toNat = n.natAbs := by omega
    rw [if_pos (by omega), if_neg negative, magnitude, Nat.toList_repr]

theorem isDecimalChar_of_mem {n : Int} {c : Char} (member : c ∈ decimal n) : IsDecimalChar c := by
  have digits : c ∈ Nat.toDigits 10 n.natAbs → IsDecimalChar c := fun member =>
    .inr (Json.isAsciiDigit_of_mem_toDigits member)
  unfold decimal at member
  split at member
  · rcases List.mem_cons.mp member with rfl | member
    · exact .inl rfl
    · exact digits member
  · exact digits member

/-! ## What is plain stays as it is -/

theorem withoutPlus?_eq {input : List Char} (plain : ∀ c ∈ input, IsDecimalChar c) :
    withoutPlus? input = some input := by
  cases input with
  | nil => rfl
  | cons c rest =>
    have unsigned : c ≠ '+' := (plain c List.mem_cons_self).ne (by decide)
    unfold withoutPlus?
    split
    · rename_i same
      exact absurd (List.cons.inj same).1 unsigned
    · rename_i same
      exact absurd (List.cons.inj same).1 unsigned
    · rfl

theorem withoutFraction_eq {input : List Char} (plain : ∀ c ∈ input, IsDecimalChar c) :
    withoutFraction input = input := by
  have whole : input.dropWhile (fun c => decide (c ≠ '.')) = [] :=
    List.dropWhile_eq_nil_iff.mpr fun c member => decide_eq_true ((plain c member).ne (by decide))
  rw [withoutFraction, whole]

theorem withoutUnderscores_eq {input : List Char} (plain : ∀ c ∈ input, IsDecimalChar c) :
    withoutUnderscores input = input := by
  have kept : input.filter (fun c => decide (c ≠ '_')) = input :=
    List.filter_eq_self.mpr fun c member => decide_eq_true ((plain c member).ne (by decide))
  rw [withoutUnderscores, kept, ite_self]

/-- Decimal notation has no padding: a zero stands at its head only if it is all there is. -/
theorem withoutPadding?_decimal (n : Int) : withoutPadding? (decimal n) = some (decimal n) := by
  unfold decimal
  by_cases negative : n < 0
  · rw [if_pos negative]
    rfl
  · rw [if_neg negative]
    rcases Nat.eq_zero_or_pos n.natAbs with zero | positive
    · rw [zero, Nat.toDigits_zero]
      rfl
    · obtain ⟨c, digits, shape, nonzero⟩ := Json.toDigits_eq_cons_of_pos positive
      have digit : isAsciiDigit c := Json.isAsciiDigit_of_mem_toDigits (n := n.natAbs) (by
        rw [shape]
        exact List.mem_cons_self)
      rw [shape, withoutPadding?, if_neg nonzero, if_pos (.inr digit)]

theorem plain?_decimal (n : Int) : plain? (decimal n) = some (decimal n) := by
  have plain : ∀ c ∈ decimal n, IsDecimalChar c := fun c => isDecimalChar_of_mem
  have solid : ∀ c ∈ decimal n, Text.isWhiteSpace c = false := by
    intro c member
    have bounds := (plain c member).bounds
    simp only [Text.isWhiteSpace, Bool.or_eq_false_iff, Bool.and_eq_false_iff, decide_eq_false_iff_not,
      beq_eq_false_iff_ne]
    omega
  rw [plain?, Text.trim_eq_self solid, withoutPlus?_eq plain]
  show (withoutPadding? (decimal n)).map _ = _
  rw [withoutPadding?_decimal, Option.map_some, withoutFraction_eq plain, withoutUnderscores_eq plain]

/-! ## Reading -/

theorem magnitude_eq_ok_iff {width n : Nat} {digits : List Char} :
    magnitude width digits = .ok n ↔ width + digits.length ≤ longest ∧ digits ≠ [] ∧
      (∀ c ∈ digits, isAsciiDigit c) ∧ n = Nat.ofDigitChars 10 digits 0 := by
  unfold magnitude
  by_cases all : ∀ c ∈ digits, isAsciiDigit c
  · rw [List.takeWhile_eq_self_iff.mpr all]
    by_cases long : width + digits.length > longest
    · rw [if_pos long]
      simp only [reduceCtorEq, false_iff]
      omega
    · rw [if_neg long]
      cases digits with
      | nil => simp
      | cons c rest =>
        have checked : (c :: rest).all isAsciiDigit = true := List.all_eq_true.mpr all
        simp only [List.isEmpty_cons, checked, Bool.not_true, Bool.or_false, Bool.false_eq_true,
          if_false, Except.ok.injEq, ne_eq, reduceCtorEq, not_false_eq_true, true_and]
        exact ⟨fun same => ⟨by omega, all, same.symm⟩, fun facts => facts.2.2.symm⟩
  · have checked : digits.all isAsciiDigit = false :=
      Bool.eq_false_iff.mpr fun checked => all (List.all_eq_true.mp checked)
    simp only [checked, all, Bool.not_false, Bool.or_true, if_true, false_and, and_false, iff_false]
    split <;> simp

theorem ofDigitChars_lt {digits : List Char} (all : ∀ c ∈ digits, isAsciiDigit c) :
    Nat.ofDigitChars 10 digits 0 < 10 ^ digits.length := by
  induction digits with
  | nil => decide
  | cons c rest ih =>
    have below := ih fun c member => all c (List.mem_cons_of_mem _ member)
    have digit := Text.isAsciiDigit_iff.mp (all c List.mem_cons_self)
    have small : c.toNat - '0'.toNat ≤ 9 := by
      have zero : '0'.toNat = 0x30 := rfl
      omega
    have leading : 10 ^ rest.length * (c.toNat - '0'.toNat) ≤ 10 ^ rest.length * 9 :=
      Nat.mul_le_mul_left _ small
    rw [Nat.ofDigitChars_cons, Nat.ofDigitChars_eq_ofDigitChars_zero, List.length_cons, Nat.pow_succ,
      Nat.mul_zero, Nat.zero_add]
    omega

/-- Whatever a number is written as, its digits alone are no more. -/
theorem length_toDigits_le {digits : List Char} (some : digits ≠ [])
    (all : ∀ c ∈ digits, isAsciiDigit c) :
    (Nat.toDigits 10 (Nat.ofDigitChars 10 digits 0)).length ≤ digits.length :=
  (Nat.length_toDigits_le_iff (by decide) (List.length_pos_iff.mpr some)).mpr (ofDigitChars_lt all)

theorem ofPlain_minus_eq_ok_iff {digits : List Char} {n : Int} :
    ofPlain ('-' :: digits) = .ok n ↔ ∃ m : Nat, magnitude 1 digits = .ok m ∧ -(m : Int) = n := by
  rw [ofPlain]
  cases magnitude 1 digits with
  | error refusal => exact ⟨nofun, nofun⟩
  | ok m => simp [Except.map, bind, Except.bind, pure, Except.pure]

theorem ofPlain_eq_ok_iff {form : List Char} {n : Int} (unsigned : ∀ rest, form = '-' :: rest → False) :
    ofPlain form = .ok n ↔ ∃ m : Nat, magnitude 0 form = .ok m ∧ (m : Int) = n := by
  rw [ofPlain]
  · cases magnitude 0 form with
    | error refusal => exact ⟨nofun, nofun⟩
    | ok m => simp [Except.map, bind, Except.bind, pure, Except.pure]
  · exact unsigned

theorem decimal_natCast (m : Nat) : decimal m = Nat.toDigits 10 m := by
  rw [decimal, if_neg (Int.not_lt.mpr (Int.natCast_nonneg m)), Int.natAbs_natCast]

theorem length_decimal_neg_le (m : Nat) : (decimal (-(m : Int))).length ≤ 1 + (Nat.toDigits 10 m).length := by
  rw [decimal, Int.natAbs_neg, Int.natAbs_natCast]
  split
  · rw [List.length_cons, Nat.add_comm]
  · exact Nat.le_add_left ..

/-- A number that a text denotes has a short decimal notation. -/
theorem length_decimal_le {input : List Char} {n : Int} (denotes : read input = .ok n) :
    (decimal n).length ≤ longest := by
  unfold read at denotes
  split at denotes
  · rename_i form _
    by_cases signed : ∃ digits, form = '-' :: digits
    · obtain ⟨digits, rfl⟩ := signed
      obtain ⟨m, measured, rfl⟩ := ofPlain_minus_eq_ok_iff.mp denotes
      obtain ⟨bound, some, all, rfl⟩ := magnitude_eq_ok_iff.mp measured
      exact (length_decimal_neg_le _).trans
        ((Nat.add_le_add_left (length_toDigits_le some all) 1).trans bound)
    · obtain ⟨m, measured, rfl⟩ :=
        (ofPlain_eq_ok_iff fun rest same => signed ⟨rest, same⟩).mp denotes
      obtain ⟨bound, some, all, rfl⟩ := magnitude_eq_ok_iff.mp measured
      rw [decimal_natCast]
      exact (length_toDigits_le some all).trans ((Nat.le_add_left ..).trans bound)
  · cases denotes

theorem magnitude_toDigits {width m : Nat} (bound : width + (Nat.toDigits 10 m).length ≤ longest) :
    magnitude width (Nat.toDigits 10 m) = .ok m :=
  magnitude_eq_ok_iff.mpr ⟨bound, Nat.toDigits_ne_nil, fun _ => Json.isAsciiDigit_of_mem_toDigits,
    Nat.ofDigitChars_ten_toDigits.symm⟩

theorem ofPlain_decimal {n : Int} (short : (decimal n).length ≤ longest) :
    ofPlain (decimal n) = .ok n := by
  by_cases negative : n < 0
  · rw [decimal, if_pos negative, List.length_cons, Nat.add_comm] at short
    rw [decimal, if_pos negative, ofPlain_minus_eq_ok_iff]
    exact ⟨n.natAbs, magnitude_toDigits short, by omega⟩
  · rw [decimal, if_neg negative] at short ⊢
    obtain ⟨c, digits, shape, digit⟩ := Json.toDigits_eq_cons n.natAbs
    rw [ofPlain_eq_ok_iff]
    · exact ⟨n.natAbs, magnitude_toDigits ((Nat.zero_add _).le.trans short), by omega⟩
    · intro rest same
      rw [(List.cons.inj (shape.symm.trans same)).1] at digit
      cases digit

/-- A short number is read back from its decimal notation. -/
theorem read_decimal {n : Int} (short : (decimal n).length ≤ longest) : read (decimal n) = .ok n := by
  rw [read, plain?_decimal]
  exact ofPlain_decimal short

end Numeral

end ApiDelta
