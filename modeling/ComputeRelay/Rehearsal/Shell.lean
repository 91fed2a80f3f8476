import ComputeRelay.CommandLine.Run
import ComputeRelay.Rehearsal.Server

/-! Running the command line in a directory of scripted files, against scripted servers. -/

namespace ComputeRelay.Rehearsal

/-- A path from the current directory, part by part. -/
abbrev PathParts := List String

structure Shell where
  files : Table PathParts String := []
  directories : List PathParts := [[]]
  servers : List Server := []

namespace Shell

/-- The parts of a path, without its dots; `none` when it leads out of the current directory. -/
def parts? (path : String) : Option PathParts :=
  if path.isEmpty || path.startsWith "/" then none
  else
    (path.splitOn "/").foldlM
      (fun (parts : PathParts) part =>
        if part == "" || part == "." then some parts
        else if part == ".." then if parts.isEmpty then none else some parts.dropLast
        else some (parts ++ [part]))
      []

def ancestors (parts : PathParts) : List PathParts :=
  (List.range parts.length).map parts.take

def hasDirectory (s : Shell) (parts : PathParts) : Bool := s.directories.contains parts

/-- Puts a file into the directory, with the directories it stands in. -/
def addFile (s : Shell) (path text : String) : Shell :=
  match parts? path with
  | none => s
  | some parts =>
    { s with
      files := Table.insert s.files parts text
      directories := s.directories ++
        (ancestors parts).filter fun parent => !s.hasDirectory parent }

def readText (s : Shell) (path : String) : Option String := do
  Table.get? s.files (← parts? path)

def pathExists (s : Shell) (path : String) : Bool :=
  match parts? path with
  | none => false
  | some parts => s.hasDirectory parts || Table.contains s.files parts

def makeDirectories (s : Shell) (path : String) : Bool × Shell :=
  match parts? path with
  | none => (false, s)
  | some parts =>
    let all := ancestors parts ++ [parts]
    if all.any (Table.contains s.files) then (false, s)
    else (true, { s with directories := s.directories ++ all.filter fun d => !s.hasDirectory d })

def writeText (s : Shell) (path text : String) : Bool × Shell :=
  match parts? path with
  | none => (false, s)
  | some parts =>
    if s.hasDirectory parts || !s.hasDirectory parts.dropLast then (false, s)
    else (true, { s with files := Table.insert s.files parts text })

def rename (s : Shell) (source target : String) : Bool × Shell :=
  match parts? source, parts? target with
  | some source, some target =>
    match Table.get? s.files source with
    | some text =>
      if s.hasDirectory target || !s.hasDirectory target.dropLast then (false, s)
      else (true, { s with files := Table.insert (Table.erase s.files source) target text })
    | none => (false, s)
  | _, _ => (false, s)

def post (s : Shell) (request : HttpRequest) (limitMs : Option Nat) :
    (HttpOutcome × Nat) × Shell :=
  let (result, servers) := Rehearsal.post s.servers request limitMs
  (result, { s with servers })

def host : CommandLine.Host (StateM Shell) where
  readText path := return (← get).readText path
  readEnvFile := return (← get).readText ".env"
  exists? path := return (← get).pathExists path
  makeDirectories path := modifyGet fun s => s.makeDirectories path
  writeText path text := modifyGet fun s => s.writeText path text
  rename source target := modifyGet fun s => s.rename source target
  timestamp := return "unknown"
  post request limitMs := modifyGet fun s => s.post request limitMs

def run (s : Shell) (args : List String) (env : Environment) : CommandLine.Ending × Shell :=
  (CommandLine.run host args env).run s

end Shell

end ComputeRelay.Rehearsal
