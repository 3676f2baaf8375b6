import HisiRfCore.SliceCopy

/-!
# Data carried by the Wi-Fi control plane

Requests, results, errors and events, with the fields the source gives them.
Fixed-size arrays are vectors. Timeouts and link-layer identities keep their
constructor's check as a proof field, so a rejected value cannot be built.
-/

namespace HisiRfCore.WifiTypes

open SliceCopy

/-- Entries of the runner-owned scan buffer. -/
abbrev maxScanResults : ℕ := 32

/-- Capacity of an SSID in bytes. -/
abbrev ssidCapacity : ℕ := 32

/-- Capacity of a passphrase in bytes. -/
abbrev passphraseCapacity : ℕ := 63

/-- Maximum number of trace entries retained by one error. -/
abbrev diagnosticTraceCapacity : ℕ := 4

/-- Six-byte link-layer address. -/
abbrev MacAddress := Vector UInt8 6

/-- Non-zero end-to-end timeout for one protocol operation. -/
structure OperationTimeout where
  /-- Timeout in milliseconds. -/
  asMillis : UInt32
  /-- The constructor rejects zero. -/
  nonzero : asMillis ≠ 0
  deriving DecidableEq

/-- Non-zero timeout for a bounded backend or vendor lifecycle call. -/
structure BackendTimeout where
  /-- Timeout in milliseconds. -/
  asMillis : UInt32
  /-- The constructor rejects zero. -/
  nonzero : asMillis ≠ 0
  deriving DecidableEq

/-- Wi-Fi control-plane defaults. -/
structure WifiConfig where
  /-- Backend lifecycle timeout for radio initialization. -/
  initializeTimeout : BackendTimeout
  /-- Backend lifecycle timeout for disconnect cleanup. -/
  disconnectTimeout : BackendTimeout
  deriving DecidableEq

/-- Timeouts of a runner that is given none. -/
def WifiConfig.default : WifiConfig := ⟨⟨30000, by decide⟩, ⟨10000, by decide⟩⟩

/-- Union of the six bytes, zero only for the zero address. -/
def anyNonzero (address : MacAddress) : UInt8 :=
  address[0] ||| address[1] ||| address[2] ||| address[3] ||| address[4] ||| address[5]

/-- Non-zero unicast station address published by an initialized backend. -/
structure WifiL2Capabilities where
  /-- Station MAC address of this radio instance. -/
  stationMacAddress : MacAddress
  /-- Some byte is non-zero and the group bit of the first byte is clear. -/
  unicast : ¬ (anyNonzero stationMacAddress = 0 ∨ stationMacAddress[0] &&& 1 ≠ 0)
  deriving DecidableEq

/-- Validate a non-zero unicast station MAC address. -/
def WifiL2Capabilities.tryNew (address : MacAddress) : Option WifiL2Capabilities :=
  if h : anyNonzero address = 0 ∨ address[0] &&& 1 ≠ 0 then none else some ⟨address, h⟩

/-- Validated IEEE 802.11 SSID in a zero-padded buffer. -/
structure Ssid where
  /-- Fixed buffer; bytes past the length are padding. -/
  bytes : Vector UInt8 ssidCapacity
  /-- Number of meaningful bytes. -/
  len : UInt8
  deriving DecidableEq

/-- Validate and copy a non-empty SSID of at most 32 bytes. -/
def Ssid.tryFromBytes (value : List UInt8) : Option Ssid :=
  if h : value.isEmpty = true ∨ ssidCapacity < value.length then none
  else some ⟨padded 0 value (by omega), UInt8.ofNat value.length⟩

/-- The exact SSID bytes. -/
def Ssid.asBytes (ssid : Ssid) : Option (List UInt8) := sliceTo ssid.bytes ssid.len.toNat

/-- Owned passphrase in a zero-padded buffer. -/
structure Passphrase where
  /-- Fixed buffer; bytes past the length are padding. -/
  bytes : Vector UInt8 passphraseCapacity
  /-- Number of meaningful bytes. -/
  len : UInt8
  deriving DecidableEq

/-- Validate and copy a passphrase by its length and its bytes. -/
def Passphrase.tryFromAscii (value : List UInt8) : Option Passphrase :=
  if h : ¬ (8 ≤ value.length ∧ value.length ≤ passphraseCapacity) ∨
      value.any (fun byte => byte < 32 || byte == 127) = true then none
  else some ⟨padded 0 value (by omega), UInt8.ofNat value.length⟩

/-- Bytes handed to a backend call. -/
def Passphrase.exposeSecret (passphrase : Passphrase) : Option (List UInt8) :=
  sliceTo passphrase.bytes passphrase.len.toNat

/-- Link-layer security discovered during scan. -/
inductive Security
  | opened | wpa2Personal | wpa3Personal | wpa2Wpa3PersonalTransition | otherProtected
  deriving DecidableEq

/-- SAE password-element derivation policy. -/
inductive SaePwe
  | huntAndPeck | hashToElement | both
  deriving DecidableEq

/-- Personal-mode security selected for one station connection. -/
inductive PersonalSecurity
  | wpa2
  | wpa3 (saePwe : SaePwe)
  deriving DecidableEq

/-- One chip-neutral bounded scan result. -/
structure ScanResult where
  /-- Advertised SSID. -/
  ssid : Ssid
  /-- Basic service set identifier. -/
  bssid : MacAddress
  /-- Center frequency in MHz. -/
  frequencyMhz : UInt16
  /-- Signal strength in dBm. -/
  rssiDbm : Int16
  /-- Link-layer security class. -/
  security : Security
  /-- Primary channel when known, otherwise zero. -/
  channel : UInt8
  deriving DecidableEq

/-- Empty entry for fixed scan buffers. -/
def ScanResult.empty : ScanResult :=
  ⟨⟨Vector.replicate _ 0, 0⟩, Vector.replicate _ 0, 0, 0, .opened, 0⟩

/-- Bounded station scan request. -/
structure ScanConfig where
  /-- End-to-end scan timeout enforced by the protocol backend. -/
  operationTimeout : OperationTimeout
  deriving DecidableEq

/-- Result count for a scan buffer; the count is whatever the backend reports. -/
structure ScanOutcome where
  /-- Entries reported. -/
  count : ℕ
  /-- At least one result did not fit. -/
  truncated : Bool
  deriving DecidableEq

/-- Validated station connection request. -/
structure StationConfig where
  /-- SSID selected by the application. -/
  ssid : Ssid
  /-- BSSID selected by the preceding scan. -/
  bssid : MacAddress
  /-- Primary channel selected by the preceding scan. -/
  channel : UInt8
  /-- Passphrase moved into the request. -/
  passphrase : Passphrase
  /-- Personal-mode security consumed by the backend. -/
  security : PersonalSecurity
  /-- End-to-end association and authorization timeout. -/
  operationTimeout : OperationTimeout
  deriving DecidableEq

/-- Successful station association. -/
structure ConnectionInfo where
  /-- Associated BSSID. -/
  bssid : MacAddress
  /-- Associated center frequency in MHz. -/
  frequencyMhz : UInt16
  deriving DecidableEq

/-- Stable stage at which a failure was reported. -/
inductive DiagnosticStage
  | initialise | controlPlane | connect | scan | authenticate | associate | sae | eapol | pmf
  | disconnect | runtime | operation | backend
  deriving DecidableEq

/-- Stable identity for one bounded backend trace value. -/
inductive DiagnosticTraceKind
  | backendStatus | vendorStatus | ieeeStatus | hostapStatus | disconnectReason
  | supplicantContext | driverContext | runtimeCode | resourceRequired | resourceAvailable
  | resourceOwner | largestContiguous
  deriving DecidableEq

/-- One numeric backend trace entry. -/
structure DiagnosticTraceEntry where
  /-- Stable identity of this value. -/
  kind : DiagnosticTraceKind
  /-- Lossless numeric value. -/
  value : UInt32
  deriving DecidableEq

/-- Fixed-capacity trace attached to one backend error. -/
structure DiagnosticTrace where
  /-- Retained entries, a prefix of the slots. -/
  entries : Vector (Option DiagnosticTraceEntry) diagnosticTraceCapacity
  /-- Number of retained entries. -/
  len : UInt8
  /-- Whether entries were dropped at the fixed limit. -/
  truncated : Bool
  deriving DecidableEq

/-- Create an empty trace. -/
def DiagnosticTrace.new : DiagnosticTrace := ⟨Vector.replicate _ none, 0, false⟩

/-- Stable class for backend-specific failures. -/
inductive BackendErrorClass
  | initialise | busy | operationTimeout | backendTimeout | cancelled | resourceUnavailable
  | unsupportedSecurity | connect | other
  deriving DecidableEq

/-- Backend error with a stable class and lossless chip-specific context. -/
structure BackendError where
  /-- Stable failure class. -/
  errorClass : BackendErrorClass
  /-- Lossless chip or backend code. -/
  code : UInt32
  /-- Protocol stage known by the backend. -/
  stage : DiagnosticStage
  /-- Immutable backend or profile revision. -/
  profileRevision : Option String
  /-- Bounded numeric trace. -/
  trace : DiagnosticTrace
  deriving DecidableEq

/-- Create an error whose stage is the default of its class. -/
def BackendError.new (cls : BackendErrorClass) (code : UInt32) : BackendError :=
  let stage := match cls with
    | .initialise => DiagnosticStage.initialise
    | .unsupportedSecurity | .connect => .connect
    | .busy | .operationTimeout | .cancelled => .operation
    | .backendTimeout => .backend
    | .resourceUnavailable => .runtime
    | .other => .backend
  ⟨cls, code, stage, none, .new⟩

/-- Failure to establish or use the radio control plane. -/
inductive Error
  | alreadyInitialized
  | backend (error : BackendError)
  | protocol
  deriving DecidableEq

/-- State transitions emitted by the runner. -/
inductive WifiEvent
  | initialized
  | scanCompleted (count : ℕ) (truncated : Bool)
  | connected (info : ConnectionInfo)
  | disconnected (reason : UInt16)
  | failed (error : BackendError)
  deriving DecidableEq

/-- Control request with the owned data the backend needs. -/
inductive CommandKind
  | initialise
  | scan (config : ScanConfig)
  | connect (config : StationConfig)
  | disconnect
  deriving DecidableEq

/-- Sequenced command in the control channel. -/
structure Command where
  /-- Sequence allocated by the controller. -/
  sequence : UInt32
  /-- Requested operation. -/
  kind : CommandKind
  deriving DecidableEq

/-- Typed result carried by a completion. -/
inductive CompletionKind
  | initialise (result : Except BackendError Unit)
  | scan (result : Except BackendError ScanOutcome)
  | connect (result : Except BackendError ConnectionInfo)
  | disconnect (result : Except BackendError Unit)
  | protocol
  deriving DecidableEq

/-- Sequenced result in the completion signal. -/
structure Completion where
  /-- Sequence of the command it answers. -/
  sequence : UInt32
  /-- Result of that command. -/
  kind : CompletionKind
  deriving DecidableEq

/-- Discriminant shared by commands, requests and completions. -/
inductive CommandKindTag
  | initialise | scan | connect | disconnect
  deriving DecidableEq

/-- Discriminant of a command. -/
def CommandKindTag.fromCommand : CommandKind → CommandKindTag
  | .initialise => .initialise
  | .scan _ => .scan
  | .connect _ => .connect
  | .disconnect => .disconnect

/-- Failed completion of the given kind. -/
def CommandKindTag.failed (error : BackendError) : CommandKindTag → CompletionKind
  | .initialise => .initialise (.error error)
  | .scan => .scan (.error error)
  | .connect => .connect (.error error)
  | .disconnect => .disconnect (.error error)

/-- Discriminant of a completion; a protocol failure has none. -/
def CompletionKind.tag : CompletionKind → Option CommandKindTag
  | .initialise _ => some .initialise
  | .scan _ => some .scan
  | .connect _ => some .connect
  | .disconnect _ => some .disconnect
  | .protocol => none

/-- A failed completion keeps the kind of its command. -/
@[simp] theorem failed_tag (error : BackendError) (kind : CommandKindTag) :
    (kind.failed error).tag = some kind := by
  cases kind <;> rfl

/-- Runner-owned scan buffer. -/
abbrev ScanBuffer := Vector ScanResult maxScanResults

end HisiRfCore.WifiTypes
