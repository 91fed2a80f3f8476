import ComputeRelay.Checksum
import ComputeRelay.Lifecycle
import ComputeRelay.Request

/-! What can go wrong, cause by cause, and the text of each cause. -/

namespace ComputeRelay

inductive ConfigError
  | invalid (detail : String)
  | pattern (detail : String)
  | httpClient (detail : String)
deriving DecidableEq, Repr

def ConfigError.message : ConfigError → String
  | .invalid detail => "invalid configuration: " ++ detail
  | .pattern detail => "invalid pattern: " ++ detail
  | .httpClient detail => "http client: " ++ detail

inductive LedgerError
  | transport (detail : String)
  | decode (detail : String)
deriving DecidableEq, Repr

def LedgerError.message : LedgerError → String
  | .transport detail => "node transport: " ++ detail
  | .decode detail => "node returned undecodable data: " ++ detail

inductive SignerError
  | invalidKey
  | signing (detail : String)
deriving DecidableEq, Repr

def SignerError.message : SignerError → String
  | .invalidKey => "invalid signing key"
  | .signing detail => "signing failed: " ++ detail

/-- A marker that names no usable request. -/
inductive MarkerError
  | undecodable (detail : String)
  | zeroAccount
  | missingSelector
  | requestIdMismatch (embedded derived : Hash)
deriving DecidableEq, Repr

def MarkerError.message : MarkerError → String
  | .undecodable detail => "marker payload is undecodable: " ++ detail
  | .zeroAccount => "marker names the zero account"
  | .missingSelector => "call parameters carry no function selector"
  | .requestIdMismatch embedded derived =>
    "marker request id " ++ embedded.toHex ++ " does not match derived id " ++ derived.toHex

inductive RegistryError
  | notRegistered (account : Address) (reason : String)
  | ledger (e : LedgerError)
deriving DecidableEq, Repr

def notRegisteredText (account : Address) (reason : String) : String :=
  "account " ++ account.checksummed ++ " is not registered: " ++ reason

def RegistryError.message : RegistryError → String
  | .notRegistered account reason => notRegisteredText account reason
  | .ledger e => e.message

/-- A failed off-chain call. Another attempt may succeed. -/
inductive ServiceError
  | timeout
  | unreachable (detail : String)
  | malformed (detail : String)
deriving DecidableEq, Repr

namespace ServiceError

def message : ServiceError → String
  | .timeout => "off-chain call timed out"
  | .unreachable detail => "off-chain endpoint unreachable: " ++ detail
  | .malformed detail => "off-chain response malformed: " ++ detail

/-- The code of the response that stands in for the missing one. -/
def code : ServiceError → ErrorCode
  | .timeout => .timeout
  | .unreachable _ => .unreachable
  | .malformed _ => .malformed

def reason : ServiceError → FailureReason
  | .timeout => .timeout
  | .unreachable _ => .unreachable
  | .malformed _ => .malformed

end ServiceError

/-- A response that its registered signer does not stand for. -/
inductive ResponseError
  | signerMismatch (expected recovered : Address)
  | signatureInvalid (detail : String)
  | parameterMismatch (detail : String)
deriving DecidableEq, Repr

def ResponseError.message : ResponseError → String
  | .signerMismatch expected recovered =>
    "response signed by " ++ recovered.checksummed ++ ", expected " ++ expected.checksummed
  | .signatureInvalid detail => "response signature invalid: " ++ detail
  | .parameterMismatch detail => "response parameters mismatch: " ++ detail

/-- A cache write that could not be prepared. -/
inductive WriteError
  | simulationFailed (detail : String)
  | duplicateRequest (requestId : Hash)
  | signer (e : SignerError)
  | ledger (e : LedgerError)
deriving DecidableEq, Repr

def WriteError.message : WriteError → String
  | .simulationFailed detail => "injected operation simulation failed: " ++ detail
  | .duplicateRequest requestId =>
    "request " ++ requestId.toHex ++ " already has a cache entry or a pending write"
  | .signer e => e.message
  | .ledger e => e.message

/-- An operation that could not be priced anew. -/
inductive RepriceError
  | simulationFailed (detail : String)
  | stillPending (requestId : Hash)
  | overflow
deriving DecidableEq, Repr

def RepriceError.message : RepriceError → String
  | .simulationFailed detail => "re-simulation failed: " ++ detail
  | .stillPending requestId =>
    "request " ++ requestId.toHex ++ " is still unresolved after population"
  | .overflow => "gas estimate overflows"

/-- A signed operation that cannot replace the one that a pair serves. -/
inductive AttachError
  | unknownOperation (sender : Address) (nonce : Word)
  | mismatch (detail : String)
deriving DecidableEq, Repr

def AttachError.message : AttachError → String
  | .unknownOperation sender nonce =>
    "no pending pair for sender " ++ sender.checksummed ++ " nonce " ++ nonce.toDecimal
  | .mismatch detail => "signed operation does not match its pending pair: " ++ detail

/-- A pair or a bundle that breaks the order of cache writes. -/
inductive OrderError
  | invalidPair (detail : String)
  | servedMissing (position : Nat)
  | notACacheWrite (position : Nat)
  | unpaired (position : Nat)
  | nonceOrder (position : Nat)
deriving DecidableEq, Repr

def OrderError.message : OrderError → String
  | .invalidPair detail => "invalid pair: " ++ detail
  | .servedMissing position =>
    "cache write at " ++ toString position ++ " is not followed by its original operation"
  | .notACacheWrite position =>
    "operation at " ++ toString position ++ " is not a cache write from the system account"
  | .unpaired position =>
    "cache write at " ++ toString position ++ " is not part of a recorded pair"
  | .nonceOrder position =>
    "cache write at " ++ toString position ++ " does not carry the next system nonce"

/-- Whether to give up, to try again, or to look for a fault. -/
inductive ErrorClass
  | configuration
  | transient
  | integrity
  | internal
deriving DecidableEq, Repr

def ErrorClass.name : ErrorClass → String
  | .configuration => "Configuration"
  | .transient => "Transient"
  | .integrity => "Integrity"
  | .internal => "Internal"

/-- What ends a request without a pair. -/
inductive Rejection
  | marker (e : MarkerError)
  | notRegistered (account : Address) (reason : String)
  | response (e : ResponseError)
  | write (e : WriteError)
  | reprice (e : RepriceError)
  | timeout (stage : RequestState)
  | ledger (e : LedgerError)
  | signer (e : SignerError)
  | lifecycle (e : TransitionError)
  | order (e : OrderError)
  | attach (e : AttachError)
deriving DecidableEq, Repr

namespace Rejection

def ofRegistry : RegistryError → Rejection
  | .notRegistered account reason => .notRegistered account reason
  | .ledger e => .ledger e

def message : Rejection → String
  | .marker e => e.message
  | .notRegistered account reason => notRegisteredText account reason
  | .response e => e.message
  | .write e => e.message
  | .reprice e => e.message
  | .timeout stage => "request timed out while " ++ stage.describe
  | .ledger e => e.message
  | .signer e => e.message
  | .lifecycle e => e.message
  | .order e => e.message
  | .attach e => e.message

def errorClass : Rejection → ErrorClass
  | .marker _ => .configuration
  | .notRegistered _ _ => .configuration
  | .attach _ => .configuration
  | .timeout _ => .transient
  | .ledger _ => .transient
  | .response _ => .integrity
  | .write (.duplicateRequest _) => .integrity
  | .write (.ledger _) => .transient
  | .write _ => .internal
  | .reprice _ => .internal
  | .signer _ => .internal
  | .lifecycle _ => .internal
  | .order _ => .internal

/-- The reason recorded in the lifecycle of the request. -/
def reason : Rejection → FailureReason
  | .marker _ => .detection
  | .notRegistered _ _ => .notRegistered
  | .response (.signerMismatch _ _) => .signerMismatch
  | .response (.signatureInvalid _) => .signatureInvalid
  | .response (.parameterMismatch _) => .parameterMismatch
  | .write (.duplicateRequest _) => .duplicateRequest
  | .write _ => .simulationFailed
  | .reprice _ => .reestimation
  | .timeout _ => .timeout
  | .ledger _ => .internal
  | .signer _ => .internal
  | .lifecycle _ => .internal
  | .order _ => .internal
  | .attach _ => .internal

/-- The error number reported to whoever submitted the operation. -/
def rpcCode : Rejection → Int
  | .notRegistered _ _ => -32602
  | .attach _ => -32602
  | e => if e.errorClass = .internal then -32603 else -32500

end Rejection

end ComputeRelay
