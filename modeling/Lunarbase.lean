import Lunarbase.Support.Outcome
import Lunarbase.Support.Word
import Lunarbase.Support.Digits
import Lunarbase.Support.Valuation
import Lunarbase.Math.Arithmetic
import Lunarbase.Math.Slot0
import Lunarbase.Math.State
import Lunarbase.Math.Fees
import Lunarbase.Math.Quote
import Lunarbase.Math.Value
import Lunarbase.TypeScript.Arithmetic
import Lunarbase.TypeScript.Quote
import Lunarbase.TypeScript.Agreement
import Lunarbase.TypeScript.QuoteAgreement
import Lunarbase.Client.Model
import Lunarbase.Client.Abi
import Lunarbase.Client.Reducer
import Lunarbase.Support.HashChain
import Lunarbase.Client.Correction
import Lunarbase.Client.Journal
import Lunarbase.Support.Effect
import Lunarbase.Client.Engine
import Lunarbase.Client.Indexer
import Lunarbase.Support.Run
import Lunarbase.Support.Rollback
import Lunarbase.Support.Undo
import Lunarbase.Client.Window
import Lunarbase.Client.Acceptance
import Lunarbase.Client.Transitions
import Lunarbase.Client.History
import Lunarbase.Support.Keccak
import Lunarbase.Client.Reference
import Lunarbase.Client.Envelope
import Lunarbase.Client.Cursors
import Lunarbase.Client.Rollback
import Lunarbase.Client.ExactlyOnce
import Lunarbase.Client.FailClosed
import Lunarbase.Client.Stages
import Lunarbase.Client.JournalOps
import Lunarbase.Client.Finality
import Lunarbase.Support.Lease
import Lunarbase.Client.Availability
import Lunarbase.Client.RecoveryStage
import Lunarbase.Client.Runtime
import Lunarbase.Client.Outstanding
import Lunarbase.Client.Discontinuity
import Lunarbase.Support.LuaNumber
import Lunarbase.Support.Items
import Lunarbase.EventWorker.Event
import Lunarbase.EventWorker.Store
import Lunarbase.EventWorker.Correct
import Lunarbase.EventWorker.Journal
import Lunarbase.EventWorker.Lifecycle
import Lunarbase.EventWorker.Branches
import Lunarbase.EventWorker.Canonical
import Lunarbase.EventWorker.Committed
import Lunarbase.EventWorker.Chain
import Lunarbase.EventWorker.Window
import Lunarbase.Monad.Lifecycle
import Lunarbase.Monad.Steps
import Lunarbase.Monad.Places
import Lunarbase.Monad.Finality
import Lunarbase.Monad.Ledger
import Lunarbase.Monad.Publication
import Lunarbase.Monad.Normalizer
import Lunarbase.TypeScript.Reducer
import Lunarbase.TypeScript.Journal
import Lunarbase.TypeScript.Correction
import Lunarbase.TypeScript.Engine
import Lunarbase.TypeScript.Window
import Lunarbase.TypeScript.History
import Lunarbase.TypeScript.Rollback
import Lunarbase.TypeScript.ExactlyOnce
import Lunarbase.Client.Quotable
import Lunarbase.Client.Retry
import Lunarbase.Math.Monotone
import Lunarbase.Client.Checkpoint
import Lunarbase.Indexer.Checkpoint
import Lunarbase.EventWorker.Bookkeeping
import Lunarbase.Math.Codec
import Lunarbase.Math.Update
import Lunarbase.TypeScript.Slot0
import Lunarbase.Math.Priced
import Lunarbase.Math.Share
import Lunarbase.Math.Total
import Lunarbase.Client.Frame
import Lunarbase.Client.Requirement
import Lunarbase.Client.Reorder
import Lunarbase.Support.RetryLoop
import Lunarbase.Client.Races
import Lunarbase.EventWorker.Readiness
import Lunarbase.EventWorker.ReadyLease
import Lunarbase.EventWorker.Commands
import Lunarbase.Client.Paging
import Lunarbase.Monad.Native
import Lunarbase.EventWorker.Identity
import Lunarbase.Client.PartnerFees
import Lunarbase.Client.SourceQueue
