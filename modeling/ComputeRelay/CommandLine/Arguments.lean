import ComputeRelay.CommandLine.EnvFile
import ComputeRelay.Json.Scalar

/-! The arguments of the command line: options, each of which an environment variable can stand in
for, and the command with options of its own. -/

namespace ComputeRelay.CommandLine

/-- What the text of an option has to be. -/
inductive ValueKind
  | text
  | path
  | number
  | address
deriving DecidableEq, Repr

structure OptionSpec where
  name : String
  kind : ValueKind
  /-- The environment variable that is read when the option is not given. -/
  environmentName : Option String := none
deriving DecidableEq, Repr

def address? (s : String) : Option Address :=
  ((Bytes.ofHex? s).filter (·.length = 20)).map Address.ofBytes

def number? (s : String) : Option UInt64 :=
  match s.toList with
  | '+' :: cs => uint64? (String.ofList cs)
  | _ => uint64? s

def ValueKind.accepts (kind : ValueKind) (s : String) : Bool :=
  match kind with
  | .text => true
  | .path => !s.isEmpty
  | .number => (number? s).isSome
  | .address => (address? s).isSome

/-- The texts of the options given. -/
abbrev Values := Table String String

/-- How the arguments of one level end. -/
inductive Scan
  | help
  | invalid
  | done (values : Values)
  /-- A command, the option before it that is still to be checked, and the arguments behind it. -/
  | command (name : String) (values : Values) (pending : Option (OptionSpec × String))
    (rest : List String)

/-- Takes an option's text; `none` when it is malformed or the option was given before. -/
def take? (values : Values) : Option (OptionSpec × String) → Option Values
  | none => some values
  | some (spec, text) =>
    if Table.contains values spec.name || !spec.kind.accepts text then none
    else some (Table.insert values spec.name text)

/-- The name of a long option, and what is attached to it with an equals sign. -/
def splitLong (cs : List Char) : String × Option String :=
  let (name, rest) := cs.span (· != '=')
  (String.ofList name,
    match rest with
    | [] => none
    | _ :: attached => some (String.ofList attached))

def isFlag (arg : String) : Bool :=
  match arg.toList with
  | '-' :: _ :: _ => true
  | _ => false

/-- Reads the arguments of one level. An option is checked when the next one is met. -/
def scan (specs : List OptionSpec) (commands : List String) :
    List String → Values → Option (OptionSpec × String) → Scan
  | [], values, pending =>
    match take? values pending with
    | some values => .done values
    | none => .invalid
  | arg :: rest, values, pending =>
    match arg.toList with
    | ['-', '-'] =>
      match rest, take? values pending with
      | [], some values => .done values
      | _, _ => .invalid
    | '-' :: '-' :: long =>
      match take? values pending with
      | none => .invalid
      | some values =>
        match splitLong long, rest with
        | ("help", none), _ => .help
        | (name, attached), rest =>
          if name == "version" && attached.isNone && !commands.isEmpty then .help
          else
            match specs.find? (·.name == name), attached, rest with
            | none, _, _ => .invalid
            | some spec, some text, rest =>
              match take? values (some (spec, text)) with
              | some values => scan specs commands rest values none
              | none => .invalid
            | some _, none, [] => .invalid
            | some spec, none, text :: rest =>
              if isFlag text then .invalid
              else scan specs commands rest values (some (spec, text))
    | '-' :: short :: _ =>
      if (take? values pending).isSome && (short == 'h' || (short == 'V' && !commands.isEmpty)) then
        .help
      else .invalid
    | _ =>
      if commands.contains arg then .command arg values pending rest
      else if arg == "help" && !commands.isEmpty then
        match rest with
        | [] => .help
        | [name] => if commands.contains name || name == "help" then .help else .invalid
        | _ => .invalid
      else .invalid

structure Options where
  config : Option String := none
  nodeUrl : Option String := none
  chainId : Option UInt64 := none
  entryPoint : Option Address := none
  helper : Option Address := none
  systemAccount : Option Address := none
  keyPath : Option String := none
  key : Option String := none
  requestTimeoutMs : Option UInt64 := none
  serviceTimeoutMs : Option UInt64 := none
  flatFeeGas : Option UInt64 := none
deriving DecidableEq, Repr

inductive Command
  | resolve (account : Address)
  | estimate (op : String) (out : Option String)
deriving DecidableEq, Repr

structure Invocation where
  options : Options
  command : Command
deriving DecidableEq, Repr

inductive Parsed
  | help
  | invalid
  | run (invocation : Invocation)
deriving DecidableEq, Repr

def optionSpecs : List OptionSpec :=
  [⟨"config", .path, some "HC_CONFIG"⟩, ⟨"rpc-url", .text, some "RPC_URL"⟩,
    ⟨"chain-id", .number, some "CHAIN_ID"⟩, ⟨"entry-point", .address, some "ENTRY_POINTS"⟩,
    ⟨"helper", .address, some "HC_HELPER_ADDR"⟩,
    ⟨"system-account", .address, some "HC_SYS_ACCOUNT"⟩,
    ⟨"sys-privkey-path", .path, some "SYS_PRIVKEY_PATH"⟩,
    ⟨"sys-privkey", .text, some "SYS_PRIVKEY"⟩,
    ⟨"request-timeout-ms", .number, some "HC_REQUEST_TIMEOUT_MS"⟩,
    ⟨"offchain-timeout-ms", .number, some "HC_OFFCHAIN_TIMEOUT_MS"⟩,
    ⟨"flat-fee-gas", .number, some "HC_FLAT_FEE_GAS"⟩]

def commandSpecs : String → List OptionSpec
  | "resolve" => [⟨"account", .address, none⟩]
  | _ => [⟨"op", .path, none⟩, ⟨"out", .path, none⟩]

/-- Adds the environment's texts of the options that are not given. -/
def fromEnvironment? (env : Environment) (specs : List OptionSpec) (values : Values) :
    Option Values :=
  specs.foldlM
    (fun values spec =>
      match spec.environmentName.bind (Table.get? env) with
      | some text =>
        if Table.contains values spec.name then some values else take? values (some (spec, text))
      | none => some values)
    values

def Options.ofValues (values : Values) : Options :=
  let text := Table.get? values
  { config := text "config"
    nodeUrl := text "rpc-url"
    chainId := (text "chain-id").bind number?
    entryPoint := (text "entry-point").bind address?
    helper := (text "helper").bind address?
    systemAccount := (text "system-account").bind address?
    keyPath := text "sys-privkey-path"
    key := text "sys-privkey"
    requestTimeoutMs := (text "request-timeout-ms").bind number?
    serviceTimeoutMs := (text "offchain-timeout-ms").bind number?
    flatFeeGas := (text "flat-fee-gas").bind number? }

/-- Without a configuration file, the options have to say what it would. The key comes from one
source at most. -/
def Options.isComplete (o : Options) : Bool :=
  (o.config.isSome || (o.nodeUrl.isSome && o.chainId.isSome && o.entryPoint.isSome &&
    o.helper.isSome && o.systemAccount.isSome)) && !(o.keyPath.isSome && o.key.isSome)

def Command.ofValues? (name : String) (values : Values) : Option Command :=
  match name with
  | "resolve" => do return .resolve (← (Table.get? values "account").bind address?)
  | "estimate" => do return .estimate (← Table.get? values "op") (Table.get? values "out")
  | _ => none

def parse (args : List String) (env : Environment) : Parsed :=
  match scan optionSpecs ["resolve", "estimate"] args [] none with
  | .help => .help
  | .invalid => .invalid
  | .done _ => .invalid
  | .command name values pending rest =>
    match scan (commandSpecs name) [] rest [] none with
    | .help => .help
    | .invalid => .invalid
    | .command _ _ _ _ => .invalid
    | .done own =>
      let invocation := do
        let values ← fromEnvironment? env optionSpecs (← take? values pending)
        let options := Options.ofValues values
        guard options.isComplete
        return ⟨options, ← Command.ofValues? name own⟩
      match invocation with
      | some invocation => .run invocation
      | none => .invalid

end ComputeRelay.CommandLine
