import ApiDelta.Text.Quoted

/-!
Encodings, as texts meet them. An encoding need not have octets for every code point, and refuses a text
for the first that it has none for. All encodings have octets for the characters of ASCII. What is
written piece by piece gets as far as the first piece that is refused.
-/
namespace ApiDelta.Text

/-- What an encoding has no octets for: `count` code points from position `start` on, the first of them
`code`. -/
structure Unencodable where
  encoding : String
  start : Nat
  count : Nat
  code : Nat
  reason : String
  deriving DecidableEq, Repr

def Unencodable.message (u : Unencodable) : String :=
  let place :=
    if u.count = 1 then
      let escape := String.ofList (escapeCode u.code)
      s!"character '{escape}' in position {u.start}"
    else s!"characters in position {u.start}-{u.start + u.count - 1}"
  s!"'{u.encoding}' codec can't encode {place}: {u.reason}"

def isAscii (text : String) : Bool :=
  text.toList.all fun c => c.toNat < 0x80

/-- An encoding, told by the texts that it refuses. -/
structure Charset where
  refusal? : String → Option Unencodable
  takes_ascii : ∀ text, isAscii text → refusal? text = none

/-- Writes texts one after the other, up to the first that is refused. What has been written by then
stays written. -/
def Charset.write (charset : Charset) : List String → String × Option Unencodable
  | [] => ("", none)
  | text :: rest =>
    match charset.refusal? text with
    | some refusal => ("", some refusal)
    | none =>
      let (written, refusal?) := charset.write rest
      (text ++ written, refusal?)

end ApiDelta.Text
