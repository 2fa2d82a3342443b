import ApiDelta.Failure
import ApiDelta.Tree.Plan
import ApiDelta.Version.Advice

/-!
Notices: what the program tells about its work besides its answer. Each has a level, the part of the
program it comes from, and a message. A computation that may fail keeps the notices it gave before it
failed.
-/
namespace ApiDelta

inductive Level
  | debug
  | info
  | warning
  | error
  deriving DecidableEq, Repr

namespace Level

def label : Level → String
  | .debug => "DEBUG"
  | .info => "INFO"
  | .warning => "WARNING"
  | .error => "ERROR"

/-- Higher levels are more urgent. -/
def rank : Level → Nat
  | .debug => 10
  | .info => 20
  | .warning => 30
  | .error => 40

end Level

inductive Notice
  | loaded (path : String) (octets : Nat)
  | skipped (skipped : Tree.Skipped)
  | flattened (items : Nat) (crate : String) (reached total : Nat)
  | compared (old new : Nat) (summary : Summary)
  | dropped (part : Version.Dropped)
  | advised (crate : String) (changes : Nat) (current proposed : Version)
  deriving DecidableEq, Repr

namespace Notice

def level : Notice → Level
  | .dropped _ => .warning
  | .advised .. => .info
  | _ => .debug

/-- The part of the program that speaks. -/
def speaker : Notice → String
  | .loaded .. => "apibreak._internal.io.tree_loader"
  | .skipped _ => "apibreak.kernel.translate"
  | .flattened .. => "apibreak.kernel.translate"
  | .compared .. => "apibreak.kernel.compare"
  | .dropped _ => "apibreak.kernel.version"
  | .advised .. => "apibreak.api"

def summaryText (s : Summary) : String :=
  let counts := s.toFields.map fun (name, count) => s!"'{name}': {count}"
  "\x7b" ++ String.intercalate ", " counts ++ "\x7d"

def message : Notice → String
  | .loaded path octets => s!"loaded API tree {path} ({octets} bytes)"
  | .skipped what => what.message
  | .flattened items crate reached total =>
    s!"translated {items} public items from crate {Text.quoted crate} " ++
      s!"({reached} of {total} raw items reached)"
  | .compared old new summary =>
    s!"compared {old} old and {new} new items: {summaryText summary}"
  | .dropped part => part.message
  | .advised crate changes current proposed =>
    s!"{crate}: {changes} changes, {current.text} -> {proposed.text}"

def line (notice : Notice) : String :=
  s!"{notice.level.label} {notice.speaker}: {notice.message}"

end Notice

/-- A computation that may fail, with the notices it gave in order. -/
structure Told (α : Type) where
  notices : List Notice
  outcome : Except Failure α

namespace Told

variable {α β : Type}

def bind (first : Told α) (next : α → Told β) : Told β :=
  match first.outcome with
  | .error failure => ⟨first.notices, .error failure⟩
  | .ok value =>
    let second := next value
    ⟨first.notices ++ second.notices, second.outcome⟩

instance : Monad Told where
  pure value := ⟨[], .ok value⟩
  bind := bind

def fail (failure : Failure) : Told α :=
  ⟨[], .error failure⟩

def tell (notice : Notice) : Told Unit :=
  ⟨[notice], .ok ()⟩

def tellAll (notices : List Notice) : Told Unit :=
  ⟨notices, .ok ()⟩

end Told

end ApiDelta
