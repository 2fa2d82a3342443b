import ApiDelta.Text.Utf8

/-!
Names as the file system has them: octets, none of them zero. A name is encoded in UTF-8, except that a
surrogate from U+DC80 to U+DCFF stands for a single octet, so that names which are not UTF-8 can be
spelled, too. No other surrogate has octets. Texts that are encoded alike are names of the same file.
-/
namespace ApiDelta.Files

open Text Text.CodePoints

/-- Whether a code point stands for an octet of its own. -/
def isOctet (code : Nat) : Bool :=
  decide (0xDC80 ≤ code ∧ code < 0xDD00)

/-- The octets of a name. -/
def octets (name : String) : List UInt8 :=
  (codePoints name).flatMap fun code =>
    if isOctet code then [UInt8.ofNat (code - 0xDC00)] else String.utf8EncodeChar (Char.ofNat code)

/-- Why no file can have a name. -/
inductive NameFault
  | unencodable (refusal : Unencodable)
  | null
  deriving DecidableEq, Repr

def NameFault.message : NameFault → String
  | .unencodable refusal => refusal.message
  | .null => "embedded null byte"

/-- What is wrong with a name, if no file can have it. It is encoded before its octets are looked at. -/
def nameFault? (name : String) : Option NameFault :=
  match Utf8.unencodable? (fun code => isSurrogate code && !isOctet code) name with
  | some refusal => some (.unencodable refusal)
  | none => if (codePoints name).contains 0 then some .null else none

/-- A name without U+0000, and without surrogates but those that stand for an octet. -/
def IsName (name : String) : Prop :=
  ∀ code ∈ codePoints name, code ≠ 0 ∧ (isSurrogate code → isOctet code)

theorem nameFault?_eq_none_iff {name : String} : nameFault? name = none ↔ IsName name := by
  have encodable : Utf8.unencodable? (fun code => isSurrogate code && !isOctet code) name = none ↔
      ∀ code ∈ codePoints name, isSurrogate code → isOctet code := by
    rw [Utf8.unencodable?_eq_none_iff]
    simp
  unfold nameFault?
  split
  · rename_i refusal refused
    refine ⟨nofun, fun named => ?_⟩
    rw [encodable.mpr fun code member => (named code member).2] at refused
    cases refused
  · rename_i taken
    have surrogates := encodable.mp taken
    constructor
    · intro free code member
      refine ⟨?_, surrogates code member⟩
      rintro rfl
      simp [member] at free
    · intro named
      have free : 0 ∉ codePoints name := fun member => (named 0 member).1 rfl
      simp [free]

example : nameFault? (ofCodePoints [0x61, 0xD800]) =
    some (.unencodable ⟨"utf-8", 1, 1, 0xD800, "surrogates not allowed"⟩) := by decide

end ApiDelta.Files
