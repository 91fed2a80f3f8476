import ComputeRelay.Table
import ComputeRelay.Text

/-! Files of environment variables: one assignment a line, with quotes, escapes, comments, and the
values of other variables after a dollar sign. -/

namespace ComputeRelay

abbrev Environment := Table String String

namespace EnvFile

def isKeyStart (c : Char) : Bool := ('a' ≤ c && c ≤ 'z') || ('A' ≤ c && c ≤ 'Z') || c == '_'

def isKeyChar (c : Char) : Bool := isKeyStart c || ('0' ≤ c && c ≤ '9') || c == '.'

def isNameChar (c : Char) : Bool := c.isAlphanum

/-- Where the reading of a value stands. -/
inductive Mode
  | text
  | singleQuoted
  | escaped
  /-- In the name of a variable. -/
  | name (reversed : List Char)
  /-- In the name of a variable that stands in braces. -/
  | bracedName (reversed : List Char)
  /-- Behind the value, where only a comment may follow. -/
  | ended

structure Reading where
  mode : Mode := .text
  doubleQuoted : Bool := false
  /-- The value so far, its last character first. -/
  output : List Char := []

def Reading.push (r : Reading) (c : Char) : Reading := { r with output := c :: r.output }

/-- Appends the value of a variable, which is empty when it is not set. -/
def Reading.insert (r : Reading) (env : Environment) (reversed : List Char) : Reading :=
  let value := (Table.get? env (String.ofList reversed.reverse)).getD ""
  { r with mode := .text, output := value.toList.reverse ++ r.output }

/-- Reads one character of unquoted or double-quoted text. -/
def Reading.readText (r : Reading) (c : Char) : Reading :=
  if c == '$' then { r with mode := .name [] }
  else if c == '\\' then { r with mode := .escaped }
  else if r.doubleQuoted then
    if c == '"' then { r with doubleQuoted := false } else r.push c
  else if c == '\'' then { r with mode := .singleQuoted }
  else if c == '"' then { r with doubleQuoted := true }
  else if c == ' ' || c == '\t' then { r with mode := .ended }
  else r.push c

/-- Reads a value up to its end; `none` when it is malformed. -/
def readValue? (env : Environment) : List Char → Reading → Option String
  | [], r =>
    let finished (r : Reading) : Option String :=
      if r.doubleQuoted then none else some (String.ofList r.output.reverse)
    match r.mode with
    | .singleQuoted => none
    | .bracedName _ => none
    | .name reversed => finished (r.insert env reversed)
    | _ => finished r
  | c :: cs, r =>
    match r.mode with
    | .ended =>
      if c == ' ' || c == '\t' then readValue? env cs r
      else if c == '#' then some (String.ofList r.output.reverse)
      else none
    | .escaped =>
      let r := { r with mode := .text }
      if ['\\', '\'', '"', '$', ' '].contains c then readValue? env cs (r.push c)
      else if c == 'n' then readValue? env cs (r.push '\n')
      else none
    | .singleQuoted =>
      readValue? env cs (if c == '\'' then { r with mode := .text } else r.push c)
    | .name reversed =>
      if isNameChar c then readValue? env cs { r with mode := .name (c :: reversed) }
      else if c == '\x7b' && reversed.isEmpty then
        readValue? env cs { r with mode := .bracedName [] }
      else
        let r := r.insert env reversed
        readValue? env cs (if c == '$' then { r with mode := .name [] } else r.push c)
    | .bracedName reversed =>
      readValue? env cs
        (if c == '\x7d' then r.insert env reversed
          else { r with mode := .bracedName (c :: reversed) })
    | .text => readValue? env cs (r.readText c)

def readKey? (cs : List Char) : Option (String × List Char) :=
  if cs.head?.any isKeyStart then
    let (key, rest) := cs.span isKeyChar
    some (String.ofList key, rest.dropWhile isBlank)
  else none

/-- What a line assigns: `none` when it is malformed, and nothing when it is empty or a comment. -/
def readLine? (env : Environment) (line : List Char) : Option (Option (String × String)) := do
  let cs := trimBlanks line
  if cs.isEmpty || cs.head? == some '#' then return none
  let (key, rest) ← readKey? cs
  let (key, rest) ←
    if key == "export" && rest.head? != some '=' then readKey? rest else some (key, rest)
  let '=' :: rest := rest | none
  let rest := rest.dropWhile isBlank
  if rest.isEmpty || rest.head? == some '#' then return some (key, "")
  return some (key, ← readValue? env rest {})

/-- Adds what the lines assign, up to the first malformed one. A variable that is set keeps its
value. -/
def loadLines : List String → Environment → Environment
  | [], env => env
  | line :: rest, env =>
    match readLine? env line.toList with
    | none => env
    | some none => loadLines rest env
    | some (some (key, value)) =>
      loadLines rest (if Table.contains env key then env else Table.insert env key value)

def load (text : String) (env : Environment) : Environment := loadLines (text.splitOn "\n") env

end EnvFile

end ComputeRelay
