import ComputeRelay.CommandLine.Arguments
import ComputeRelay.Relay.Network

/-! Running the command line. It looks up a registration, or takes an operation through the relay
and reports what became of it. -/

namespace ComputeRelay.CommandLine

def usage : String :=
  "Usage: compute-relay [OPTIONS] <COMMAND>

Commands:
  resolve --account <ADDRESS>       Print an account's current registration
  estimate --op <FILE> [--out <FILE>]
                                    Take an operation through the relay and report the result

Options:
  --config <FILE>                   Configuration; replaces the five options that follow
  --rpc-url <URL>
  --chain-id <NUMBER>
  --entry-point <ADDRESS>
  --helper <ADDRESS>
  --system-account <ADDRESS>
  --sys-privkey-path <FILE>         File with the key of the system account's signer
  --sys-privkey <HEX>               That key itself
  --request-timeout-ms <NUMBER>
  --offchain-timeout-ms <NUMBER>
  --flat-fee-gas <NUMBER>"

/-- What a run uses of the machine: files, the time, and the network. Writing answers whether it
succeeded. -/
structure Host (m : Type → Type) where
  /-- A file's text; `none` when it cannot be read as text. -/
  readText : (path : String) → m (Option String)
  /-- The text of the file of environment variables, if there is one. -/
  readEnvFile : m (Option String)
  exists? : (path : String) → m Bool
  makeDirectories : (path : String) → m Bool
  writeText : (path text : String) → m Bool
  rename : (source target : String) → m Bool
  /-- The time of day, for the report. -/
  timestamp : m String
  post : Post m

structure Ending where
  exitCode : UInt8
  output : Option String := none
  failure : Option String := none
deriving DecidableEq, Repr

/-- Drops separators and single dots at the end of a reversed path. -/
def trimPathEnd : List Char → List Char
  | '/' :: c :: rest => trimPathEnd (c :: rest)
  | '.' :: '/' :: rest => trimPathEnd ('/' :: rest)
  | cs => cs
termination_by cs => cs.length

/-- The directory that a path stands in; empty for the current one. -/
def parentOf (path : String) : Option String :=
  match trimPathEnd path.toList.reverse with
  | [] => none
  | ['/'] => none
  | cs => some (String.ofList (trimPathEnd (cs.dropWhile (· != '/'))).reverse)

/-- The configuration that the options make, on top of a configuration file's or alone. -/
def Options.override (o : Options) (config : Config) : Config :=
  let config := { config with
    requestTimeoutMs := o.requestTimeoutMs.getD config.requestTimeoutMs }
  let config := { config with
    service := { config.service with
      timeoutMs := o.serviceTimeoutMs.getD config.service.timeoutMs } }
  { config with fees := ⟨o.flatFeeGas.getD config.fees.flatFeeGas⟩ }

/-- The configuration without a file. The command line gives all of its parts. -/
def Options.config? (o : Options) : Option Config := do
  return {
    chainId := ← o.chainId
    nodeUrl := ← o.nodeUrl
    entryPoint := ← o.entryPoint
    helper := ← o.helper
    systemAccount := ← o.systemAccount }

/-- The report of an operation's way through the relay. -/
def report (config : Config) (sender : Address) (time : String) (result : Result) : Json :=
  let outcome := match result with
    | .passthrough op => [("outcome", .string "passthrough"), ("ops", .array [op.toJson])]
    | .paired pair fee lifecycle =>
      [("outcome", .string "paired"), ("requestId", .ofHash pair.requestId),
        ("fallback", pair.fallback.elim .null ErrorCode.toJson),
        ("lifecycle", .array (lifecycle.history.map RequestState.toJson)), ("fee", fee.toJson),
        ("totalGasLimit", .ofWord pair.served.totalGasLimit),
        ("ops", .array (pair.operations.map Operation.toJson))]
    | .rejected e =>
      [("outcome", .string "rejected"), ("class", .string e.errorClass.name),
        ("error", .object [("code", .number (toString e.rpcCode)), ("message", .string e.message)])]
    | .released _ => []
  .object (outcome ++ [("sender", Json.ofAddress sender), ("chainId", .ofUInt64 config.chainId),
    ("estimatedAt", .string time)])

section

variable {m : Type → Type} [Monad m]

def orFail (message : String) : Option α → ExceptT String m α
  | some a => return a
  | none => throw message

def check (message : String) (succeeded : Bool) : ExceptT String m Unit :=
  if succeeded then return () else throw message

def ofExcept (describe : ε → String) : Except ε α → ExceptT String m α
  | .ok a => return a
  | .error e => throw (describe e)

def loadConfig (host : Host m) (o : Options) : ExceptT String m Config := do
  let config ← match o.config with
    | some path =>
      let text ← orFail ("failed reading " ++ path) (← host.readText path)
      orFail ("failed parsing config in " ++ path) ((Json.parse? text).bind Config.ofJson?)
    | none => orFail "missing options (or pass --config)" o.config?
  let config := o.override config
  ofExcept ConfigError.message config.validate
  return config

def loadSigner (host : Host m) (o : Options) : ExceptT String m Signer := do
  let key ← match o.keyPath, o.key with
    | some path, _ => orFail ("failed reading " ++ path) (← host.readText path)
    | none, some key => pure key
    | none, none =>
      throw ("missing system signer key: provide --sys-privkey-path or --sys-privkey " ++
        "(or set SYS_PRIVKEY_PATH/SYS_PRIVKEY)")
  ofExcept SignerError.message (SigningKey.signerOfHex (trimmed key))

/-- Writes a file so that it is never seen half written: under another name first. -/
def writeWhole (host : Host m) (path text : String) : ExceptT String m Unit := do
  let parent := (parentOf path).getD "."
  if !parent.isEmpty then
    if !(← host.exists? parent) then
      check ("failed creating directory " ++ parent) (← host.makeDirectories parent)
  let draft := path ++ ".tmp"
  check ("failed writing temp file " ++ draft) (← host.writeText draft text)
  check ("failed replacing " ++ path) (← host.rename draft path)

/-- Carries out a command; answers what is to be printed. -/
def execute (host : Host m) (invocation : Invocation) : ExceptT String m (Option String) := do
  let config ← loadConfig host invocation.options
  let signer ← loadSigner host invocation.options
  let node ← ofExcept ConfigError.message config.nodeAddress
  let relay ← ofExcept ConfigError.message (Relay.create config signer)
  let net : Network m := { config, node, post := host.post }
  match invocation.command with
  | .resolve account =>
    match ← ((net.resolve account).run.run' {} : m _) with
    | none => throw "node transport: no reply"
    | some result =>
      let registration ← ofExcept Rejection.message result
      return some (registration.toJson.pretty 0)
  | .estimate path out =>
    let text ← orFail ("failed reading " ++ path) (← host.readText path)
    let op ← orFail ("failed parsing operation in " ++ path)
      ((Json.parse? text).bind Operation.ofJson?)
    let time ← host.timestamp
    let (_, result) ← ((net.process relay op).run' {} : m _)
    let result ← orFail "the operation did not come to an end" result
    let text := (report config op.sender time result).pretty 0
    match out with
    | none => return some text
    | some path =>
      writeWhole host path text
      return none

/-- Runs the command line with the variables of the environment and those of its file. -/
def run (host : Host m) (args : List String) (env : Environment) : m Ending := do
  let env := match ← host.readEnvFile with
    | some text => EnvFile.load text env
    | none => env
  match parse args env with
  | .help => return { exitCode := 0, output := some usage }
  | .invalid => return { exitCode := 2, failure := some usage }
  | .run invocation =>
    match ← (execute host invocation).run with
    | .ok output => return { exitCode := 0, output }
    | .error failure => return { exitCode := 1, failure := some failure }

end

end ComputeRelay.CommandLine
