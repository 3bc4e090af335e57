import Lunarbase.Client.Model
import Mathlib.Data.Finmap

/-!
# Monad — Lifecycle

The proposal lifecycle of the Monad source (`lifecycle.rs`, `lifecycle/reorg.rs`,
`lifecycle/output.rs`): raw execution records come in, and heads, logs and reorganizations of the
proposals that consensus works through come out.

A record is taken after its ABI decoding.  Every handler returns the state it leaves together with
its result, also when it fails.
-/

namespace Lunarbase.Monad

open Function

open Client (Commitment SourceError ChainCursor)

/-! ### Execution events -/

inductive MonadDeliveryMode where
  | realtime
  | blockOrdered
  | finalized
  deriving DecidableEq, Repr

structure ExecutionHead where
  sequence : Nat
  blockNumber : Nat
  blockHash : Option B256
  parentHash : Option B256
  commitment : Commitment
  deriving DecidableEq, Repr

structure ExecutionLog where
  sequence : Nat
  sourceSubIndex : Nat
  blockNumber : Nat
  blockHash : Option B256
  transactionIndex : Nat
  logIndex : Nat
  address : Address
  topics : List B256
  data : List UInt8
  removed : Bool
  commitment : Commitment
  deriving DecidableEq, Repr

inductive ExecutionEvent where
  | head (head : ExecutionHead)
  | log (log : ExecutionLog)
  | reorg (oldHead newHead : ExecutionHead)
  | gap (cursor : Option ChainCursor) (reason : String)
  deriving DecidableEq, Repr

/-- `materialize_log`: with a sequence the log is stamped as an item of that record. -/
def materializeLog (log : ExecutionLog) (sequence : Option Nat) (blockHash : B256)
    (commitment : Commitment) (removed : Bool) : ExecutionLog :=
  let stamped := match sequence with
    | some sequence => { log with sequence := sequence, sourceSubIndex := log.logIndex }
    | none => log
  { stamped with blockHash := some blockHash, commitment := commitment, removed := removed }

/-! ### State -/

structure LifecycleLimits where
  maxProposals : Nat
  maxLogs : Nat
  maxBytes : Nat
  deriving DecidableEq, Repr

/-- The proposal whose execution has not ended. -/
structure ActiveProposal where
  id : B256
  blockNumber : Nat
  parentHash : B256
  nextLogIndex : Nat
  logs : List ExecutionLog
  logBytes : Nat
  publishedCommitment : Option Commitment
  deriving DecidableEq, Repr

inductive ProposalState where
  | proposed
  | voted
  | finalized
  deriving DecidableEq, Repr

structure Proposal where
  blockNumber : Nat
  blockHash : B256
  parentHash : B256
  lastSequence : Nat
  state : ProposalState
  logs : List ExecutionLog
  logBytes : Nat
  publishedCommitment : Option Commitment
  deriving DecidableEq, Repr

structure ProposalLifecycle where
  delivery : MonadDeliveryMode
  emitRemovedLogs : Bool
  limits : LifecycleLimits
  synchronized : Bool
  active : Option ActiveProposal
  proposals : Finmap fun _ : B256 => Proposal
  byHeight : Nat → Option (List B256)
  published : Nat → Option B256
  pendingLogs : Nat
  pendingBytes : Nat

def ProposalLifecycle.new (delivery : MonadDeliveryMode) (emitRemovedLogs : Bool)
    (limits : LifecycleLimits) : ProposalLifecycle where
  delivery := delivery
  emitRemovedLogs := emitRemovedLogs
  limits := limits
  synchronized := false
  active := none
  proposals := ∅
  byHeight _ := none
  published _ := none
  pendingLogs := 0
  pendingBytes := 0

/-- A decoded record. -/
inductive LifecycleInput where
  | start (id : B256) (blockNumber : Nat) (parentHash : B256)
  | finish (blockHash : B256)
  | qc (id : B256) (blockNumber : Nat)
  | finalized (id : B256) (blockNumber : Nat)
  | verified (blockNumber : Nat)
  | fatal
  | reject
  | skippedLog
  | log (transactionIndex sourceSubIndex : Nat) (address : Address) (topics : List B256)
      (data : List UInt8)
  | ignore
  deriving DecidableEq, Repr

structure Record where
  sequence : Nat
  blockNumber : Option Nat
  input : LifecycleInput
  deriving DecidableEq, Repr

abbrev Outcome := ProposalLifecycle × Except SourceError (List ExecutionEvent)

def gapError {α : Type} (reason : String) : Except SourceError α := .error (.gap reason)

namespace ProposalLifecycle

/-! ### Switching branches -/

/-- The events that take the branch published at a height back.  The proposal that is still
executing is not among the stored ones. -/
def switchBranch (s : ProposalLifecycle) (sequence : Nat) (id : B256) (blockNumber : Nat)
    (blockHash parentHash : Option B256) (commitment : Commitment) : List ExecutionEvent :=
  match s.published blockNumber with
  | none => []
  | some previousId =>
    if previousId = id then []
    else match s.proposals.lookup previousId with
      | none => []
      | some previous =>
        let shown := previous.publishedCommitment.getD .realtime
        (if s.emitRemovedLogs then
          previous.logs.map fun log =>
            .log (materializeLog log (some sequence) previous.blockHash shown true)
          else []) ++
        [.reorg
          ⟨previous.lastSequence, blockNumber, some previous.blockHash, some previous.parentHash,
            shown⟩
          ⟨sequence, blockNumber, blockHash, parentHash, commitment⟩]

def removeProposal (s : ProposalLifecycle) (id : B256) : ProposalLifecycle :=
  match s.proposals.lookup id with
  | none => s
  | some proposal =>
    { s with
      proposals := s.proposals.erase id
      pendingLogs := s.pendingLogs - proposal.logs.length
      pendingBytes := s.pendingBytes - proposal.logBytes }

/-- A stored proposal is published: the branch is switched, its logs are applied if they were not
or if the branch changed, and they are kept only as long as they may have to be removed. -/
def publish (s : ProposalLifecycle) (sequence : Nat) (id : B256) (commitment : Commitment) :
    Outcome :=
  match s.proposals.lookup id with
  | none => (s, gapError "Monad lifecycle update references an unknown proposal")
  | some proposal =>
    let branchChanged := s.published proposal.blockNumber ≠ some id
    let switched := s.switchBranch sequence id proposal.blockNumber (some proposal.blockHash)
      (some proposal.parentHash) commitment
    let shouldApply := proposal.publishedCommitment.isNone ∨ branchChanged
    let retain := s.emitRemovedLogs ∧ commitment ≠ .finalized
    let applied := if shouldApply then
        proposal.logs.map fun log =>
          .log (materializeLog log none proposal.blockHash commitment false)
      else []
    let kept := if retain then proposal else { proposal with logs := [], logBytes := 0 }
    let head := ⟨sequence, proposal.blockNumber, some proposal.blockHash,
      some proposal.parentHash, commitment⟩
    ({ s with
        proposals := s.proposals.insert id
          { kept with lastSequence := sequence, publishedCommitment := some commitment }
        published := update s.published proposal.blockNumber (some id)
        pendingLogs := if retain then s.pendingLogs else s.pendingLogs - proposal.logs.length
        pendingBytes := if retain then s.pendingBytes else s.pendingBytes - proposal.logBytes },
      .ok (switched ++ applied ++ [.head head]))

/-! ### Handlers -/

def start (s : ProposalLifecycle) (sequence : Nat) (id : B256) (blockNumber : Nat)
    (parentHash : B256) : Outcome :=
  if s.active.isSome then
    (s, gapError "Monad started a proposal before the previous execution ended")
  else if s.limits.maxProposals ≤ s.proposals.keys.card then
    (s, gapError "Monad pending proposal budget exceeded")
  else if s.delivery = .realtime then
    ({ s with
        published := update s.published blockNumber (some id)
        active := some ⟨id, blockNumber, parentHash, 0, [], 0, some .realtime⟩ },
      .ok (s.switchBranch sequence id blockNumber none (some parentHash) .realtime ++
        [.head ⟨sequence, blockNumber, none, some parentHash, .realtime⟩]))
  else
    ({ s with active := some ⟨id, blockNumber, parentHash, 0, [], 0, none⟩ }, .ok [])

/-- The index of the next log of the active proposal, which is taken. -/
def nextLogIndex (s : ProposalLifecycle) (recordBlock : Option Nat) :
    ProposalLifecycle × Except SourceError (ActiveProposal × Nat) :=
  match s.active with
  | none => (s, gapError "Monad log arrived outside an active proposal")
  | some active =>
    if recordBlock ≠ some active.blockNumber then
      (s, gapError "Monad log block number disagrees with its active proposal")
    else if 2 ^ 32 ≤ active.nextLogIndex + 1 then (s, gapError "Monad block log index overflow")
    else
      let counted := { active with nextLogIndex := active.nextLogIndex + 1 }
      ({ s with active := some counted }, .ok (counted, active.nextLogIndex))

def log (s : ProposalLifecycle) (sequence : Nat) (recordBlock : Option Nat)
    (transactionIndex sourceSubIndex : Nat) (address : Address) (topics : List B256)
    (data : List UInt8) : Outcome :=
  match s.nextLogIndex recordBlock with
  | (s, .error e) => (s, .error e)
  | (s, .ok (active, logIndex)) =>
    let log : ExecutionLog :=
      { sequence, sourceSubIndex, blockNumber := active.blockNumber, blockHash := none,
        transactionIndex, logIndex, address, topics, data, removed := false,
        commitment := active.publishedCommitment.getD .realtime }
    if s.delivery = .realtime ∧ ¬ s.emitRemovedLogs then (s, .ok [.log log])
    else
      let bytes := data.length + topics.length * 32
      if s.limits.maxLogs ≤ s.pendingLogs ∨ s.limits.maxBytes < s.pendingBytes + bytes then
        (s, gapError "Monad pending log memory budget exceeded")
      else
        ({ s with
            active := some { active with
              logs := active.logs ++ [log], logBytes := active.logBytes + bytes }
            pendingLogs := s.pendingLogs + 1
            pendingBytes := s.pendingBytes + bytes },
          .ok (if s.delivery = .realtime then [.log log] else []))

/-- The handler of `End`. -/
def finish (s : ProposalLifecycle) (sequence : Nat) (recordBlock : Option Nat)
    (blockHash : B256) : Outcome :=
  match s.active with
  | none => (s, gapError "Monad block end arrived without an active proposal")
  | some active =>
    let s := { s with active := none }
    if recordBlock ≠ some active.blockNumber then
      (s, gapError "Monad block end disagrees with its active proposal")
    else if (s.proposals.lookup active.id).isSome then
      (s, gapError "Monad completed the same proposal twice")
    else
      let s := { s with
        proposals := s.proposals.insert active.id
          { blockNumber := active.blockNumber
            blockHash := blockHash
            parentHash := active.parentHash
            lastSequence := sequence
            state := .proposed
            logs := active.logs.map fun (log : ExecutionLog) =>
              { log with blockHash := some blockHash }
            logBytes := active.logBytes
            publishedCommitment := active.publishedCommitment }
        byHeight := update s.byHeight active.blockNumber
          (some ((s.byHeight active.blockNumber).getD [] ++ [active.id])) }
      match s.delivery with
      | .blockOrdered => s.publish sequence active.id .canonical
      | .realtime =>
        (s, .ok [.head ⟨sequence, active.blockNumber, some blockHash, some active.parentHash,
          active.publishedCommitment.getD .realtime⟩])
      | .finalized => (s, .ok [])

def qc (s : ProposalLifecycle) (sequence : Nat) (id : B256) (blockNumber : Nat) : Outcome :=
  match s.proposals.lookup id with
  | none => (s, .ok [])
  | some proposal =>
    if proposal.blockNumber ≠ blockNumber then
      (s, gapError "Monad QC proposal identity mismatch")
    else if proposal.state ≠ .proposed then (s, .ok [])
    else
      let s := { s with
        proposals := s.proposals.insert id
          { proposal with state := .voted, lastSequence := sequence } }
      if s.delivery = .finalized then (s, .ok []) else s.publish sequence id .canonical

/-- The other proposals of a finalized height are dropped. -/
def abandonOthers (s : ProposalLifecycle) (id : B256) (blockNumber : Nat) (candidates : List B256) :
    ProposalLifecycle :=
  let s := { s with byHeight := update s.byHeight blockNumber (some [id]) }
  let s := (candidates.filter fun candidate => candidate ≠ id).foldl removeProposal s
  { s with published := update s.published blockNumber (some id) }

/-- The handler of `Finalized`. -/
def finalize (s : ProposalLifecycle) (sequence : Nat) (id : B256) (blockNumber : Nat) : Outcome :=
  match s.proposals.lookup id with
  | none => (s, .ok [])
  | some proposal =>
    if proposal.blockNumber ≠ blockNumber ∨ proposal.state = .finalized then
      (s, gapError "Monad finalized proposal lifecycle is inconsistent")
    else
      let s := { s with
        proposals := s.proposals.insert id
          { proposal with state := .finalized, lastSequence := sequence } }
      match s.publish sequence id .finalized with
      | (s, .error e) => (s, .error e)
      | (s, .ok output) =>
        match s.byHeight blockNumber with
        | none => (s, gapError "Monad finalized height has no proposals")
        | some candidates => (s.abandonOthers id blockNumber candidates, .ok output)

def verified (s : ProposalLifecycle) (sequence : Nat) (blockNumber : Nat) : Outcome :=
  match s.byHeight blockNumber with
  | none => (s, .ok [])
  | some candidates =>
    let s := { s with byHeight := update s.byHeight blockNumber none }
    match candidates with
    | [id] =>
      match s.proposals.lookup id with
      | none => (s, gapError "Monad verified proposal is missing")
      | some proposal =>
        if proposal.state ≠ .finalized then
          (s, gapError "Monad verified a proposal before finalization")
        else
          let s := s.removeProposal id
          ({ s with published := update s.published blockNumber none },
            .ok [.head ⟨sequence, proposal.blockNumber, some proposal.blockHash,
              some proposal.parentHash, .finalized⟩])
    | _ => (s, gapError "Monad verified height has competing proposals")

def handle (s : ProposalLifecycle) (record : Record) : Outcome :=
  match record.input with
  | .start id blockNumber parentHash => s.start record.sequence id blockNumber parentHash
  | .finish blockHash => s.finish record.sequence record.blockNumber blockHash
  | .qc id blockNumber => s.qc record.sequence id blockNumber
  | .finalized id blockNumber => s.finalize record.sequence id blockNumber
  | .verified blockNumber => s.verified record.sequence blockNumber
  | .fatal => (s, gapError "Monad execution ring reported a dropped record")
  | .reject => (s, gapError "Monad execution rejected an active proposal")
  | .skippedLog =>
    match s.nextLogIndex record.blockNumber with
    | (s, .error e) => (s, .error e)
    | (s, .ok _) => (s, .ok [])
  | .log transactionIndex sourceSubIndex address topics data =>
    s.log record.sequence record.blockNumber transactionIndex sourceSubIndex address topics data
  | .ignore => (s, .ok [])

/-- Before the first start nothing is handled. -/
def process (s : ProposalLifecycle) (record : Record) : Outcome :=
  if s.synchronized then s.handle record
  else match record.input with
    | .fatal => (s, gapError "Monad execution ring reported a dropped record")
    | .start _ _ _ => { s with synchronized := true }.handle record
    | _ => (s, .ok [])

end ProposalLifecycle

end Lunarbase.Monad
