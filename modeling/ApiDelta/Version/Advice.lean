import ApiDelta.Delta.Diagnosis
import ApiDelta.Version.Basic

/-!
Which version comes next. Breaking changes call for the next major version, additions for the next
minor one, and anything else for the next patch. The components after the one that is raised start
again at zero; a pre-release and build metadata are dropped, with a warning if there was anything to
drop.
-/
namespace ApiDelta

inductive Bump
  | major
  | minor
  | patch
  deriving DecidableEq, Repr

def Bump.label : Bump → String
  | .major => "major"
  | .minor => "minor"
  | .patch => "patch"

/-- The component that a diagnosis calls to raise. -/
def Diagnosis.bump (d : Diagnosis) : Bump :=
  if d.isBreaking then .major else if d.containsAdditions then .minor else .patch

namespace Version

def raise (v : Version) : Bump → Version
  | .major => { major := v.major + 1, minor := 0, patch := 0 }
  | .minor => { major := v.major, minor := v.minor + 1, patch := 0 }
  | .patch => { major := v.major, minor := v.minor, patch := v.patch + 1 }

/-- The version proposed after the given changes. -/
def next (v : Version) (d : Diagnosis) : Version :=
  v.raise d.bump

/-- The parts of a version that its successor drops. -/
inductive Dropped
  | pre (text : String)
  | build (text : String)
  deriving DecidableEq, Repr

def Dropped.message : Dropped → String
  | .pre text => s!"pre-release identifiers are not handled; dropping {Text.quoted text}"
  | .build text => s!"build metadata is not handled; dropping {Text.quoted text}"

/-- What is dropped, the pre-release first. -/
def dropped (v : Version) : List Dropped :=
  part .pre v.pre ++ part .build v.build
where
  part (make : String → Dropped) : Option String → List Dropped
  | none => []
  | some text => if text = "" then [] else [make text]

end Version

end ApiDelta
