import HisiRfCore.WifiTypes

/-!
# Diagnostics of public errors

The stable names of stages, trace kinds, codes and actions, the bounded trace, the
diagnostic view of an error and the text it is written as. Output is appended to
what the sink already holds. Only an entry past the slots of a trace would panic.
-/

namespace HisiRfCore.WifiTypes

/-- Stable machine-readable stage name. -/
def DiagnosticStage.asStr : DiagnosticStage → String
  | .initialise => "initialize"
  | .controlPlane => "control_plane"
  | .connect => "connect"
  | .scan => "scan"
  | .authenticate => "authenticate"
  | .associate => "associate"
  | .sae => "sae"
  | .eapol => "eapol"
  | .pmf => "pmf"
  | .disconnect => "disconnect"
  | .runtime => "runtime"
  | .operation => "operation"
  | .backend => "backend"

/-- Stable machine-readable trace field name. -/
def DiagnosticTraceKind.asStr : DiagnosticTraceKind → String
  | .backendStatus => "backend_status"
  | .vendorStatus => "vendor_status"
  | .ieeeStatus => "ieee_status"
  | .hostapStatus => "hostap_status"
  | .disconnectReason => "disconnect_reason"
  | .supplicantContext => "supplicant_context"
  | .driverContext => "driver_context"
  | .runtimeCode => "runtime_code"
  | .resourceRequired => "resource_required"
  | .resourceAvailable => "resource_available"
  | .resourceOwner => "resource_owner"
  | .largestContiguous => "largest_contiguous"

/-- Number of retained entries. -/
def DiagnosticTrace.length (trace : DiagnosticTrace) : ℕ := trace.len.toNat

/-- Whether additional entries were dropped at the fixed limit. -/
def DiagnosticTrace.isTruncated (trace : DiagnosticTrace) : Bool := trace.truncated

/-- Entry by index; a length past the slots would make the access panic. -/
def DiagnosticTrace.get (trace : DiagnosticTrace) (index : ℕ) :
    Option (Option DiagnosticTraceEntry) :=
  if index < trace.length then trace.entries[index]? else some none

/-- Keep a value in the next free slot, or only remember that there was none. -/
def DiagnosticTrace.push (trace : DiagnosticTrace) (kind : DiagnosticTraceKind) (value : UInt32) :
    DiagnosticTrace :=
  if h : trace.len.toNat < diagnosticTraceCapacity then
    ⟨trace.entries.set trace.len.toNat (some ⟨kind, value⟩) h, trace.len + 1, trace.truncated⟩
  else { trace with truncated := true }

/-- Attach the protocol stage known by the backend. -/
def BackendError.withStage (error : BackendError) (stage : DiagnosticStage) : BackendError :=
  { error with stage := stage }

/-- Attach the backend or profile revision. -/
def BackendError.withProfileRevision (error : BackendError) (revision : String) : BackendError :=
  { error with profileRevision := some revision }

/-- Append one bounded numeric trace entry. -/
def BackendError.withTrace (error : BackendError) (kind : DiagnosticTraceKind) (value : UInt32) :
    BackendError :=
  { error with trace := error.trace.push kind value }

end HisiRfCore.WifiTypes

namespace HisiRfCore.Diagnostics

open WifiTypes

/-- Versioned machine-readable diagnostic schema. -/
def diagnosticSchema : String := "hisi-rf-error/v3"

/-- Stable identity for a public failure. -/
inductive DiagnosticCode
  | alreadyInitialized | backendInitialize | backendBusy | operationTimeout | backendTimeout
  | operationCancelled | resourceUnavailable | unsupportedSecurity | connectionFailed
  | backendOther | protocol
  deriving DecidableEq

/-- Stable identifier used by output and tooling. -/
def DiagnosticCode.asStr : DiagnosticCode → String
  | .alreadyInitialized => "radio.already_initialized"
  | .backendInitialize => "backend.initialize"
  | .backendBusy => "backend.busy"
  | .operationTimeout => "operation.timeout"
  | .backendTimeout => "backend.timeout"
  | .operationCancelled => "operation.cancelled"
  | .resourceUnavailable => "resource.unavailable"
  | .unsupportedSecurity => "wifi.unsupported_security"
  | .connectionFailed => "wifi.connection_failed"
  | .backendOther => "backend.other"
  | .protocol => "radio.protocol"

/-- Action a caller or operator can take after a failure. -/
inductive RecoveryAction
  | useExistingController | reinitialise | waitAndRetry | retryOperation | provideResources
  | selectSupportedSecurity | inspectNetworkAndRetry | inspectBackendCode | recreateController
  deriving DecidableEq

/-- Stable machine-readable action name. -/
def RecoveryAction.asStr : RecoveryAction → String
  | .useExistingController => "use_existing_controller"
  | .reinitialise => "reinitialize"
  | .waitAndRetry => "wait_and_retry"
  | .retryOperation => "retry_operation"
  | .provideResources => "provide_resources"
  | .selectSupportedSecurity => "select_supported_security"
  | .inspectNetworkAndRetry => "inspect_network_and_retry"
  | .inspectBackendCode => "inspect_backend_code"
  | .recreateController => "recreate_controller"

/-- Diagnostic view of a public error. -/
structure Diagnostic where
  /-- Stable error identity. -/
  code : DiagnosticCode
  /-- Stable operation stage. -/
  stage : DiagnosticStage
  /-- Recommended next action. -/
  action : RecoveryAction
  /-- Chip or backend code, when the failure came from a backend. -/
  backendCode : Option UInt32
  /-- Backend or profile revision that produced the failure. -/
  profileRevision : Option String
  /-- Bounded numeric backend trace. -/
  trace : DiagnosticTrace
  deriving DecidableEq

/-- Stable documentation fragment. -/
def Diagnostic.docsAnchor (d : Diagnostic) : String :=
  match d.code with
  | .alreadyInitialized => "errors-radio-already-initialized"
  | .backendInitialize => "errors-backend-initialize"
  | .backendBusy => "errors-backend-busy"
  | .operationTimeout => "errors-operation-timeout"
  | .backendTimeout => "errors-backend-timeout"
  | .operationCancelled => "errors-operation-cancelled"
  | .resourceUnavailable => "errors-resource-unavailable"
  | .unsupportedSecurity => "errors-wifi-unsupported-security"
  | .connectionFailed => "errors-wifi-connection-failed"
  | .backendOther => "errors-backend-other"
  | .protocol => "errors-radio-protocol"

end HisiRfCore.Diagnostics

namespace HisiRfCore.WifiTypes

open Diagnostics

/-- Diagnostic of a backend error, whose class gives its code and action. -/
def BackendError.diagnostic (error : BackendError) : Diagnostic :=
  let (code, action) := match error.errorClass with
    | .initialise => (DiagnosticCode.backendInitialize, RecoveryAction.reinitialise)
    | .busy => (.backendBusy, .waitAndRetry)
    | .operationTimeout => (.operationTimeout, .retryOperation)
    | .backendTimeout => (.backendTimeout, .retryOperation)
    | .cancelled => (.operationCancelled, .retryOperation)
    | .resourceUnavailable => (.resourceUnavailable, .provideResources)
    | .unsupportedSecurity => (.unsupportedSecurity, .selectSupportedSecurity)
    | .connect => (.connectionFailed, .inspectNetworkAndRetry)
    | .other => (.backendOther, .inspectBackendCode)
  ⟨code, error.stage, action, some error.code, error.profileRevision, error.trace⟩

/-- Diagnostic of a public error. -/
def Error.diagnostic : Error → Diagnostic
  | .alreadyInitialized =>
    ⟨.alreadyInitialized, .controlPlane, .useExistingController, none, none, .new⟩
  | .backend error => error.diagnostic
  | .protocol => ⟨.protocol, .controlPlane, .recreateController, none, none, .new⟩

end HisiRfCore.WifiTypes

namespace HisiRfCore.Diagnostics

open WifiTypes

/-- Characters received by a sink. -/
abbrev Text := List Char

/-- Characters with no printed form: both control blocks and the one between them. -/
def isControl (character : Char) : Bool :=
  character.toNat < 0x20 || (0x7f ≤ character.toNat && character.toNat < 0xa0)

/-- Lower-case hexadecimal text of at least four digits. -/
def hexadecimal (n : ℕ) : Text := (Nat.toDigits 16 n).leftpad 4 '0'

/-- Text written for one character of a string. -/
def escaped (character : Char) : Text :=
  if character = '"' then "\\\"".toList
  else if character = '\\' then "\\\\".toList
  else if character = '\n' then "\\n".toList
  else if character = '\r' then "\\r".toList
  else if character = '\t' then "\\t".toList
  else if isControl character then "\\u".toList ++ hexadecimal character.toNat
  else [character]

/-- Write a string between quotation marks, one character after another. -/
def writeJsonString (output : Text) (value : String) : Text :=
  value.toList.foldl (fun output character => output ++ escaped character)
    (output ++ "\"".toList) ++ "\"".toList

/-- Write a number in decimal. -/
def writeNumber (output : Text) (value : UInt32) : Text := output ++ Nat.toDigits 10 value.toNat

/-- Write one trace entry after its separator. -/
def writeEntry (trace : DiagnosticTrace) (output : Text) (index : ℕ) : Option Text := do
  let output := if index ≠ 0 then output ++ ",".toList else output
  let entry ← (← trace.get index)
  let output := output ++ "\x7b\"kind\":\"".toList ++ entry.kind.asStr.toList ++
    "\",\"value\":".toList
  pure (writeNumber output entry.value ++ "\x7d".toList)

/-- Write one deterministic object. -/
def Diagnostic.writeJson (d : Diagnostic) (output : Text) : Option Text := do
  let output := output ++ "\x7b\"schema\":\"".toList ++ diagnosticSchema.toList ++
    "\",\"code\":\"".toList ++ d.code.asStr.toList ++ "\",\"stage\":\"".toList ++
    d.stage.asStr.toList ++ "\",\"action\":\"".toList ++ d.action.asStr.toList ++
    "\",\"backend_code\":".toList
  let output := match d.backendCode with
    | some code => writeNumber output code
    | none => output ++ "null".toList
  let output := output ++ ",\"profile_revision\":".toList
  let output := match d.profileRevision with
    | some revision => writeJsonString output revision
    | none => output ++ "null".toList
  let output := output ++ ",\"trace\":[".toList
  let output ← (List.range d.trace.length).foldlM (writeEntry d.trace) output
  pure (output ++ "],\"trace_truncated\":".toList ++
    (if d.trace.isTruncated then "true" else "false").toList ++ ",\"docs\":\"".toList ++
    d.docsAnchor.toList ++ "\"\x7d".toList)

end HisiRfCore.Diagnostics
