import ComputeRelay.CommandLine.Run
import Std.Time

/-! The program. It opens no connections of its own: every request is written to standard error as
one line of JSON, and what came of it is read from standard input as another. -/

namespace ComputeRelay.CommandLine

/-- The line that hands a request over. -/
def requestLine (request : HttpRequest) (limitMs : Option Nat) : String :=
  (Json.object [("url", .string request.url.toText), ("body", .string request.body),
    ("limitMs", limitMs.elim .null .ofNat)]).compact

/-- What a line says came of a request: a status with a body in hexadecimal digits and perhaps a
length, or a failure, or that the time ran out. -/
def readOutcome (line : String) : HttpOutcome :=
  let outcome : Option HttpOutcome := do
    let v ← Json.parse? line
    match v.member? "status" with
    | some status =>
      return .reply {
        status := ← status.nat64?
        declaredLength := (v.member? "length").bind Json.nat64?
        chunks := [← (v.member? "body").bind Json.bytes?]
        isComplete := ((v.member? "complete").bind Json.bool?).getD true }
    | none =>
      match v.member? "failed" with
      | some detail => return .failed (← detail.text?)
      | none => return .timedOut
  outcome.getD (.failed "no reply")

/-- All names that a file of environment variables may look up or set. -/
def namesIn (text : String) : List String :=
  let words := text.splitToList fun c => !EnvFile.isKeyChar c
  let alphanumeric := text.splitToList fun c => !EnvFile.isNameChar c
  let braced := (text.splitOn "\x7b").filterMap fun s => (s.splitOn "\x7d").head?
  words ++ alphanumeric ++ braced

def succeeds (action : IO Unit) : IO Bool :=
  try
    action
    return true
  catch _ => return false

def readText (path : String) : IO (Option String) :=
  try some <$> IO.FS.readFile path
  catch _ => return none

/-- The nearest file of environment variables: in a directory or one of those it stands in. -/
def findEnvFile : (fuel : Nat) → (directory : String) → IO (Option String)
  | 0, _ => return none
  | fuel + 1, directory => do
    match ← readText (directory ++ "/.env") with
    | some text => return some text
    | none =>
      match parentOf directory with
      | some parent => findEnvFile fuel parent
      | none => return none

def machine : Host IO where
  readText
  readEnvFile := do
    let directory ← IO.currentDir
    findEnvFile 4096 directory.toString
  exists? path := succeeds do discard (IO.FS.realPath path)
  makeDirectories path := succeeds (IO.FS.createDirAll path)
  writeText path text := succeeds (IO.FS.writeFile path text)
  rename source target := succeeds (IO.FS.rename source target)
  timestamp := do
    let time ← Std.Time.Timestamp.now
    return (Std.Time.DateTime.ofTimestamp time .UTC).toISO8601String
  post request limitMs := do
    let start ← IO.monoMsNow
    IO.eprintln (requestLine request limitMs)
    let line ← (← IO.getStdin).getLine
    return (readOutcome line, (← IO.monoMsNow) - start)

/-- The variables that a run may look at. -/
def environment (names : List String) : IO Environment :=
  names.foldlM
    (fun env name => do
      match ← IO.getEnv name with
      | some value => return Table.insert env name value
      | none => return env)
    []

end ComputeRelay.CommandLine

open ComputeRelay.CommandLine in
def main (args : List String) : IO UInt32 := do
  let text := (← machine.readEnvFile).getD ""
  let env ← environment (optionSpecs.filterMap (·.environmentName) ++ namesIn text)
  let ending ← run machine args env
  if let some output := ending.output then IO.println output
  if let some failure := ending.failure then IO.eprintln ("Error: " ++ failure)
  return ending.exitCode.toUInt32
