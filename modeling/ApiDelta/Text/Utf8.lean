import ApiDelta.Text.Charset
import ApiDelta.Text.CodePoints.Lemmas

/-!
UTF-8 octets to characters, and texts to octets. A refusal of octets names those that no sequence can
begin with: one octet that starts nothing, or the longest beginning of a sequence before the octet, or
the end, that breaks it off. A text is refused for the first surrogates in it, which no octets encode.
-/
namespace ApiDelta.Text.Utf8

open CodePoints

inductive Reason
  | invalidStart
  | invalidContinuation
  | unexpectedEnd
  deriving DecidableEq, Repr

/-- Where decoding stopped: `count` octets from position `start` on, the first of them `octet`. -/
structure Refusal where
  start : Nat
  count : Nat
  octet : UInt8
  reason : Reason
  deriving DecidableEq, Repr

def Reason.message : Reason → String
  | .invalidStart => "invalid start byte"
  | .invalidContinuation => "invalid continuation byte"
  | .unexpectedEnd => "unexpected end of data"

def Refusal.message (r : Refusal) : String :=
  let place :=
    if r.count = 1 then
      let digits := Nat.toDigits 16 r.octet.toNat
      let padded := String.ofList (List.replicate (2 - digits.length) '0' ++ digits)
      s!"byte 0x{padded} in position {r.start}"
    else s!"bytes in position {r.start}-{r.start + r.count - 1}"
  s!"'utf-8' codec can't decode {place}: {r.reason.message}"

/-- The range that each later octet of a sequence must lie in, told from its first octet. The
narrower second ranges keep out overlong forms, surrogates and code points past U+10FFFF. -/
def continuations? (lead : UInt8) : Option (List (UInt8 × UInt8)) :=
  if 0xC2 ≤ lead ∧ lead ≤ 0xDF then some [(0x80, 0xBF)]
  else if lead = 0xE0 then some [(0xA0, 0xBF), (0x80, 0xBF)]
  else if lead = 0xED then some [(0x80, 0x9F), (0x80, 0xBF)]
  else if 0xE1 ≤ lead ∧ lead ≤ 0xEF then some [(0x80, 0xBF), (0x80, 0xBF)]
  else if lead = 0xF0 then some [(0x90, 0xBF), (0x80, 0xBF), (0x80, 0xBF)]
  else if 0xF1 ≤ lead ∧ lead ≤ 0xF3 then some [(0x80, 0xBF), (0x80, 0xBF), (0x80, 0xBF)]
  else if lead = 0xF4 then some [(0x80, 0x8F), (0x80, 0xBF), (0x80, 0xBF)]
  else none

/-- The bits that a leading octet contributes, given how many octets follow it. -/
def leadBits (lead : UInt8) (following : Nat) : Nat :=
  lead.toNat % Nat.pow 2 (6 - following)

/-- A sequence that has begun but not ended: its first octet, the octets taken so far, the code
point so far, and the ranges still to be met. -/
structure Partial where
  lead : UInt8
  taken : Nat
  code : Nat
  expected : List (UInt8 × UInt8)

/-- Decodes from position `pos` on, after the characters `done` (the latest first), with a sequence
possibly begun before that position. -/
def decodeFrom (pos : Nat) (done : List Char) :
    Option Partial → List UInt8 → Except Refusal (List Char)
  | none, [] => .ok done.reverse
  | some p, [] => .error ⟨pos - p.taken, p.taken, p.lead, .unexpectedEnd⟩
  | none, octet :: rest =>
    if octet < 0x80 then
      decodeFrom (pos + 1) (Char.ofNat octet.toNat :: done) none rest
    else
      match continuations? octet with
      | none => .error ⟨pos, 1, octet, .invalidStart⟩
      | some expected =>
        decodeFrom (pos + 1) done (some ⟨octet, 1, leadBits octet expected.length, expected⟩) rest
  | some p, octet :: rest =>
    match p.expected with
    | [] => .error ⟨pos - p.taken, p.taken, p.lead, .invalidContinuation⟩
    | (low, high) :: later =>
      if low ≤ octet ∧ octet ≤ high then
        let code := p.code * 64 + octet.toNat % 64
        if later.isEmpty then
          decodeFrom (pos + 1) (Char.ofNat code :: done) none rest
        else
          decodeFrom (pos + 1) done (some ⟨p.lead, p.taken + 1, code, later⟩) rest
      else .error ⟨pos - p.taken, p.taken, p.lead, .invalidContinuation⟩

/-- The characters that a sequence of octets encodes. -/
def decode (octets : List UInt8) : Except Refusal (List Char) :=
  decodeFrom 0 [] none octets

/-- The refusal of a text for its first code point that is barred. It covers all surrogates from there
on, barred or not. -/
def unencodable? (barred : Nat → Bool) (text : String) : Option Unencodable :=
  let codes := codePoints text
  (codes.find? barred).map fun code => {
    encoding := "utf-8"
    start := (codes.takeWhile fun code => !barred code).length
    count := ((codes.dropWhile fun code => !barred code).takeWhile isSurrogate).length
    code := code
    reason := "surrogates not allowed" }

theorem unencodable?_eq_none_iff {barred : Nat → Bool} {text : String} :
    unencodable? barred text = none ↔ ∀ code ∈ codePoints text, ¬barred code :=
  Option.map_eq_none_iff.trans List.find?_eq_none

/-- With all surrogates barred, what is left are the texts that hold characters only. -/
theorem unencodable?_isSurrogate_eq_none_iff {text : String} :
    unencodable? isSurrogate text = none ↔ isWellFormed text := by
  rw [unencodable?_eq_none_iff, isWellFormed, Bool.not_eq_true', List.any_eq_false]

/-- The octets of a text. -/
def encode (text : String) : Except Unencodable (List UInt8) :=
  match unencodable? isSurrogate text with
  | some refusal => .error refusal
  | none => .ok (String.ofList ((codePoints text).map Char.ofNat)).toUTF8.toList

theorem ne_mark_of_isAscii {text : String} (ascii : isAscii text) : ∀ c ∈ text.toList, c ≠ mark := by
  intro c member
  have low : c.toNat < 0x80 := by simpa using List.all_eq_true.mp ascii c member
  rw [Ne, eq_mark_iff]
  unfold markCode
  omega

/-- A channel on which texts are encoded in UTF-8. -/
def charset : Charset where
  refusal? := unencodable? isSurrogate
  takes_ascii _ ascii :=
    unencodable?_isSurrogate_eq_none_iff.mpr (isWellFormed_of_forall_ne (ne_mark_of_isAscii ascii))

end ApiDelta.Text.Utf8
