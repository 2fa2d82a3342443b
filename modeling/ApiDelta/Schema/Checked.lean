import ApiDelta.Schema.Fault

/-!
Checking collects faults instead of stopping at the first: two checks side by side yield both results,
or the faults of both in order. That is why `Checked` is an applicative functor and not a monad.
-/
namespace ApiDelta.Schema

inductive Checked (α : Type) where
  | sound (value : α)
  | faulty (faults : List Fault)
  deriving DecidableEq, Repr

namespace Checked

variable {α β : Type}

def map (f : α → β) : Checked α → Checked β
  | .sound value => .sound (f value)
  | .faulty faults => .faulty faults

/-- Applies a checked function to a checked argument; the faults of the function come first. -/
def apply : Checked (α → β) → Checked α → Checked β
  | .sound f, .sound value => .sound (f value)
  | .sound _, .faulty faults => .faulty faults
  | .faulty faults, .sound _ => .faulty faults
  | .faulty faults, .faulty more => .faulty (faults ++ more)

instance : Applicative Checked where
  pure := .sound
  map := map
  seq f value := apply f (value ())

/-- A check that depends on the result of another is made only if that one is sound. -/
def andThen (check : α → Checked β) : Checked α → Checked β
  | .sound value => check value
  | .faulty faults => .faulty faults

/-- Moves the faults one step further in. -/
def under (step : Step) : Checked α → Checked α
  | .sound value => .sound value
  | .faulty faults => .faulty (faults.map (Fault.under step))

def fault (reason : Reason) : Checked α :=
  .faulty [Fault.here reason]

/-- Checks every element of a list, giving each the step that leads to it. -/
def all (step : Nat → Step) (check : α → Checked β) (start : Nat) : List α → Checked (List β)
  | [] => .sound []
  | x :: rest => apply (map List.cons ((check x).under (step start))) (all step check (start + 1) rest)

end Checked

end ApiDelta.Schema
