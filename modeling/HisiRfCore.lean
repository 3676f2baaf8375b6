import HisiRfCore.InputOutputMachine
import HisiRfCore.StateBorrow
import HisiRfCore.NonZeroCounter
import HisiRfCore.BoundedChannel
import HisiRfCore.WifiTypes
import HisiRfCore.IncrementalContract
import HisiRfCore.CommandArbitration
import HisiRfCore.RunnerState
import HisiRfCore.BackendDriver
import HisiRfCore.DriverCoherence
import HisiRfCore.DriverCalls
import HisiRfCore.DriverOwnership
import HisiRfCore.BackendTrace
import HisiRfCore.BackendContract
import HisiRfCore.DriverCancellation
import HisiRfCore.RadioStorage
import HisiRfCore.AsyncControl
import HisiRfCore.ServiceProtocol
import HisiRfCore.ServiceDelivery
import HisiRfCore.BlockingRunner
import HisiRfCore.BlockingService
import HisiRfCore.BlockingCancellation
import HisiRfCore.BlockingAbandonment
import HisiRfCore.IncrementalFacade
import HisiRfCore.IncrementalInterleaving
import HisiRfCore.IncrementalService
import HisiRfCore.CancellationCapacity
import HisiRfCore.CompletionDelivery
import HisiRfCore.CancellationForwarding
import HisiRfCore.FacadeCancellation
import HisiRfCore.LedgerAgreement
import HisiRfCore.AwaitedCalls
import HisiRfCore.BlockingOutcomes
import HisiRfCore.IncrementalOutcomes
import HisiRfCore.RunnerAgreement
import HisiRfCore.CommandTransport
import HisiRfCore.EventPublication
import HisiRfCore.EventTransport
import HisiRfCore.LifecycleControl
import HisiRfCore.LifecycleStages
import HisiRfCore.LifecycleCalls
import HisiRfCore.LifecycleRequests
import HisiRfCore.LifecycleInterleaving
import HisiRfCore.LifecycleStranding
import HisiRfCore.LifecycleOverwrites
import HisiRfCore.DriverErrors
import HisiRfCore.IncrementalWait
import HisiRfCore.WaitReadiness
import HisiRfCore.FairSelection
import HisiRfCore.RunnerCalls
import HisiRfCore.RunnerWaits
import HisiRfCore.KeyedHistory
import HisiRfCore.OperationStages
import HisiRfCore.WaitAgreement
import HisiRfCore.BluetoothAddresses
import HisiRfCore.NetworkCredentials
import HisiRfCore.ScanDelivery
import HisiRfCore.RejectedCalls
import HisiRfCore.CapabilityPublication
import HisiRfCore.JsonGrammar
import HisiRfCore.JsonReader
import HisiRfCore.Diagnostics
import HisiRfCore.JsonWriter
import HisiRfCore.ErrorBuilding
import HisiRfCore.DiagnosticJson
import HisiRfCore.ArbiterOwnership
import HisiRfCore.IdentityPeriod
import HisiRfCore.IdentityAllocators
import HisiRfCore.RunnerTelemetry
import HisiRfCore.TelemetryAccount
import HisiRfCore.TelemetryBalance
import HisiRfCore.RelaxedWords
import HisiRfCore.TelemetrySnapshot
import HisiRfCore.CommandProgress
import HisiRfCore.BackgroundPolls
import HisiRfCore.CommandDialogues
import HisiRfCore.BackendEffort
import HisiRfCore.WaitLoop
import HisiRfCore.BlockingProgress
import HisiRfCore.CallReturn
import HisiRfCore.AttributeDatabases
import HisiRfCore.DeviceRequests
import HisiRfCore.ForwardSimulation
import HisiRfCore.ServiceRefinement
import HisiRfCore.TransportDialogue
