import ApiDelta.CommandLine.Run

/-!
The program. What a run may look at is fetched first, then the command line is run on it as a value,
and last the files that the outcome has and the file system has not are written. Everything that is
decided is decided in between.
-/
namespace ApiDelta.Program

/-- What is found at a place of the file system, if anything can be read there. -/
def fetch (place : Files.Place) : IO (Option Files.Node) := do
  let file := (← IO.currentDir) / place.text
  if ← file.isDir then return some .directory
  match ← (IO.FS.readBinFile file).toBaseIO with
  | .ok content => return some (.file content.toList)
  | .error _ => return none

/-- The variables in a listing of the environment, in which each ends with a zero. -/
def variablesIn (listing : List UInt8) : List (String × String) :=
  (listing.splitOn 0).filterMap fun octets =>
    match Text.Utf8.decode octets with
    | .ok text => some (String.ofList (text.takeWhile (· ≠ '=')),
        String.ofList ((text.dropWhile (· ≠ '=')).drop 1))
    | .error _ => none

/-- The environment as the system lists it, since settings do not mind the case of a name. Where there
is no listing, the usual names are asked for. -/
def environment : IO (List (String × String)) := do
  match ← (IO.FS.readBinFile "/proc/self/environ").toBaseIO with
  | .ok listing => return variablesIn listing.toList
  | .error _ =>
    Settings.keys.filterMapM fun key => do
      let name := (Settings.variableMark ++ key).toUpper
      return (← IO.getEnv name).map (name, ·)

/-- What a run of a command line can see. -/
def world (words : List String) : IO CommandLine.World := do
  let directory := Files.Path.ofText (← IO.currentDir).toString
  let working := directory.resolved .root
  let nodes ← (CommandLine.places working words).filterMapM fun place => do
    return (← fetch place).map (place, ·)
  return ⟨⟨working, nodes⟩, ← environment, Text.Utf8.charset⟩

/-- Writes what the outcome added to the files, directories before what they hold. -/
def commit (before after : Files.Store) : IO Unit := do
  for (place, node) in after.nodes.reverse do
    if before.nodes.lookup place ≠ some node then
      let file := (← IO.currentDir) / place.text
      match node with
      | .directory => IO.FS.createDirAll file
      | .file content => IO.FS.writeBinFile file ⟨content.toArray⟩

/-- Prints a line on standard error, surrogates as escapes. -/
def complain (line : String) : IO Unit :=
  IO.eprintln (Text.printed line)

/-- Prints what an outcome says. -/
def report (outcome : CommandLine.Outcome) : IO Unit := do
  for line in outcome.stderr do
    complain line.text
    for detail in line.details do
      complain ("  " ++ detail)
  IO.print (Text.printed outcome.stdout)

end ApiDelta.Program

def main (args : List String) : IO UInt32 := do
  let world ← ApiDelta.Program.world args
  let outcome := ApiDelta.CommandLine.run world args
  try
    ApiDelta.Program.commit world.files outcome.files
    ApiDelta.Program.report outcome
    return outcome.exit.toUInt32
  catch trouble =>
    IO.eprintln s!"Unexpected error: {trouble}"
    return ApiDelta.CommandLine.exitBreaking.toUInt32
