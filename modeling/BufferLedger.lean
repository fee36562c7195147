import BufferLedger.Api.Address
import BufferLedger.Api.Answer
import BufferLedger.Api.Collection
import BufferLedger.Api.Connection
import BufferLedger.Api.Server
import BufferLedger.Application
import BufferLedger.CommandLine
import BufferLedger.Json.Printer
import BufferLedger.Main
import BufferLedger.Pipeline
import BufferLedger.Settings
import BufferLedger.Supervisor
import BufferLedger.Version
import BufferLedger.Watch.Rehearsal
import BufferLedger.Work.Queue
import BufferLedger.Yaml.Document
import BufferLedger.Proofs.Calls
import BufferLedger.Proofs.ListDiff
import BufferLedger.Proofs.EngineRun
import BufferLedger.Proofs.Replacement
import BufferLedger.Proofs.CallLog
import BufferLedger.Proofs.PodEnd
import BufferLedger.Proofs.PodWatch
import BufferLedger.Proofs.ServerHistory
import BufferLedger.Proofs.ServerMirror
import BufferLedger.Proofs.PipelineRun
import BufferLedger.Proofs.ReleaseSafety
import BufferLedger.Proofs.Outlook
import BufferLedger.Proofs.Grant
import BufferLedger.Proofs.StandingReservation
import BufferLedger.Proofs.Revocation
import BufferLedger.Proofs.Schedules
import BufferLedger.Proofs.Outage
import BufferLedger.Proofs.EntryOrigin
import BufferLedger.Proofs.Isolation
import BufferLedger.Proofs.Rearrangement
import BufferLedger.Proofs.BufferTotals
import BufferLedger.Proofs.FirstList
import BufferLedger.Proofs.ColdStart
import BufferLedger.Proofs.MachineDecoding
import BufferLedger.Proofs.Stretch
import BufferLedger.Proofs.Stopping
import BufferLedger.Proofs.StatusFlags
import BufferLedger.Proofs.RelistRequests
import BufferLedger.Proofs.Conversation
import BufferLedger.Proofs.Patience
import BufferLedger.Proofs.FiniteNumbers
import BufferLedger.Proofs.MachineCodec
import BufferLedger.Proofs.Narrowing
import BufferLedger.Proofs.Nesting
import BufferLedger.Proofs.RetryDelays
import BufferLedger.Proofs.Acceptance
import BufferLedger.Proofs.Rounding
import BufferLedger.Proofs.Digits
import BufferLedger.Proofs.MemoryQuantities
import BufferLedger.Proofs.RoundingError
import BufferLedger.Proofs.CpuQuantities
import BufferLedger.Proofs.Supervision
import BufferLedger.Proofs.Conduct
