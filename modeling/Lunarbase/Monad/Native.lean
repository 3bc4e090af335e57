import Lunarbase.Monad.Normalizer

/-!
# Monad — Native

The native source: updates of the commit-state block builder become execution events
(`native/lifecycle.rs`).  A finalizing update retracts every abandoned block: its logs are removed
under the update's sequence, each with its index in the block, and a reorganization follows.  The
indices start again with every block, so the retractions pass the normalizer exactly when the
indices of the matching logs ascend through the abandoned blocks (`retractions_pass_iff`).
-/

namespace Lunarbase.Monad

open Client (Commitment SourceError ChainUpdate)
open MonadExecutionNormalizer List Except

structure ContractFilter where
  address : Address
  topics : List B256

structure NativeLog where
  address : Address
  topic : List B256
  data : List UInt8

structure ExecutedBlock where
  chainId : Nat
  blockNumber : Nat
  blockHash : B256
  parentHash : B256
  /-- The logs of each transaction. -/
  txns : List (List NativeLog)

inductive BlockCommitState where
  | proposed
  | voted
  | finalized
  | verified
  deriving DecidableEq, Repr

structure CommitStateBlockUpdate where
  block : ExecutedBlock
  state : BlockCommitState
  abandoned : List ExecutedBlock

def ContractFilter.accepts (filter : ContractFilter) (log : NativeLog) : Bool :=
  decide (log.address = filter.address) &&
    (filter.topics.isEmpty || log.topic.head?.any fun topic => filter.topics.contains topic)

namespace ExecutedBlock

/-- The logs of a block with the index of their transaction. -/
def logs (block : ExecutedBlock) : List (Nat × NativeLog) :=
  block.txns.zipIdx.flatMap fun (logs, transactionIndex) => logs.map (transactionIndex, ·)

def executionLog (block : ExecutedBlock) (sequence : Nat) (commitment : Commitment)
    (removed : Bool) (logIndex transactionIndex : Nat) (log : NativeLog) : ExecutionLog where
  sequence := sequence
  sourceSubIndex := logIndex
  blockNumber := block.blockNumber
  blockHash := some block.blockHash
  transactionIndex := transactionIndex
  logIndex := logIndex
  address := log.address
  topics := log.topic
  data := log.data
  removed := removed
  commitment := commitment

/-- The loop of `block_logs`, from the log with the given index on. -/
def logLoop (block : ExecutedBlock) (sequence : Nat) (commitment : Commitment) (removed : Bool)
    (filter : ContractFilter) (logIndex : Nat) :
    List (Nat × NativeLog) → Except SourceError (List ExecutionEvent)
  | [] => .ok []
  | (transactionIndex, log) :: rest =>
    if 2 ^ 32 ≤ logIndex + 1 then gapError "Monad block log index exceeds uint32"
    else if ¬ filter.accepts log then
      block.logLoop sequence commitment removed filter (logIndex + 1) rest
    else if 2 ^ 32 ≤ transactionIndex then gapError "Monad transaction index exceeds uint32"
    else do
      let output ← block.logLoop sequence commitment removed filter (logIndex + 1) rest
      .ok (.log (block.executionLog sequence commitment removed logIndex transactionIndex log) ::
        output)

def blockLogs (block : ExecutedBlock) (sequence : Nat) (commitment : Commitment) (removed : Bool)
    (filter : ContractFilter) : Except SourceError (List ExecutionEvent) :=
  block.logLoop sequence commitment removed filter 0 block.logs

def blockHead (block : ExecutedBlock) (sequence : Nat) (commitment : Commitment) : ExecutionHead :=
  ⟨sequence, block.blockNumber, some block.blockHash, some block.parentHash, commitment⟩

def validateChain (block : ExecutedBlock) (chainId : Nat) : Except SourceError Unit :=
  if block.chainId = chainId then .ok () else .error .networkMismatch

end ExecutedBlock

def commitmentOf : BlockCommitState → Commitment
  | .finalized | .verified => .finalized
  | .proposed | .voted => .canonical

/-- The loop over the abandoned blocks. -/
def retract (block : ExecutedBlock) (sequence chainId : Nat) (filter : ContractFilter) :
    List ExecutedBlock → Except SourceError (List ExecutionEvent)
  | [] => .ok []
  | abandoned :: rest => do
    let () ← abandoned.validateChain chainId
    let logs ← abandoned.blockLogs sequence .canonical true filter
    let output ← retract block sequence chainId filter rest
    .ok (logs ++ .reorg (abandoned.blockHead sequence .canonical)
      (block.blockHead sequence .finalized) :: output)

def convertUpdate (update : CommitStateBlockUpdate) (sequence : Nat) (delivery : MonadDeliveryMode)
    (emitRemovedLogs : Bool) (chainId : Nat) (filter : ContractFilter) :
    Except SourceError (List ExecutionEvent) := do
  let () ← update.block.validateChain chainId
  let commitment := commitmentOf update.state
  let retracted ← (if emitRemovedLogs ∧ delivery ≠ .finalized ∧ update.state = .finalized then
      retract update.block sequence chainId filter update.abandoned
    else .ok [])
  let logs ← (if delivery = .blockOrdered ∧ update.state = .proposed ∨
        delivery = .finalized ∧ update.state = .finalized then
      update.block.blockLogs sequence commitment false filter
    else .ok [])
  let publishHead : Bool := match delivery with
    | .realtime => false
    | .blockOrdered => true
    | .finalized => decide (update.state = .finalized ∨ update.state = .verified)
  .ok (retracted ++ logs ++
    if publishHead then [.head (update.block.blockHead sequence commitment)] else [])

/-! ### What is retracted -/

/-- The matching logs of a block, each with its transaction and its index in the block. -/
def ExecutedBlock.matching (block : ExecutedBlock) (filter : ContractFilter) :
    List ((Nat × NativeLog) × Nat) :=
  block.logs.zipIdx.filter fun entry => filter.accepts entry.1.2

/-- The events that retract one block. -/
def ExecutedBlock.retraction (abandoned block : ExecutedBlock) (sequence : Nat)
    (filter : ContractFilter) : List ExecutionEvent :=
  ((abandoned.matching filter).map fun entry =>
      .log (abandoned.executionLog sequence .canonical true entry.2 entry.1.1 entry.1.2)) ++
    [.reorg (abandoned.blockHead sequence .canonical) (block.blockHead sequence .finalized)]

variable {block : ExecutedBlock} {sequence chainId : Nat} {filter : ContractFilter}
  {out : List ExecutionEvent}

theorem ExecutedBlock.logLoop_eq_ok {commitment : Commitment} {removed : Bool} {logIndex : Nat}
    {entries : List (Nat × NativeLog)}
    (h : block.logLoop sequence commitment removed filter logIndex entries = .ok out) :
    out = ((entries.zipIdx logIndex).filter fun entry => filter.accepts entry.1.2).map fun entry =>
      .log (block.executionLog sequence commitment removed entry.2 entry.1.1 entry.1.2) := by
  induction entries generalizing logIndex out with
  | nil =>
    cases h
    rfl
  | cons entry rest ih =>
    obtain ⟨-, h⟩ := ite_error_eq_ok.mp h
    rw [zipIdx_cons]
    split at h
    next haccepts => simpa [haccepts] using ih h
    next haccepts =>
      obtain ⟨-, h⟩ := ite_error_eq_ok.mp h
      obtain ⟨output, hrest, h⟩ := bind_eq_ok.mp h
      cases h
      simp [not_not.mp haccepts, ih hrest]

theorem retract_eq_ok {abandoned : List ExecutedBlock}
    (h : retract block sequence chainId filter abandoned = .ok out) :
    out = abandoned.flatMap fun old => old.retraction block sequence filter := by
  induction abandoned generalizing out with
  | nil =>
    cases h
    rfl
  | cons old rest ih =>
    obtain ⟨⟨⟩, -, h⟩ := bind_eq_ok.mp h
    obtain ⟨logs, hlogs, h⟩ := bind_eq_ok.mp h
    obtain ⟨output, hrest, h⟩ := bind_eq_ok.mp h
    cases h
    rw [ExecutedBlock.logLoop_eq_ok hlogs, ih hrest]
    simp [ExecutedBlock.retraction, ExecutedBlock.matching]

/-! ### What the normalizer lets pass -/

theorem MonadSequenceTracker.below_of_observeSparse {t t' : MonadSequenceTracker}
    {log : ExecutionLog} (h : t.observeSparse log.sequence log.sourceSubIndex = .ok (t', true)) :
    t' = ⟨some log.sequence, log.sourceSubIndex⟩ ∧ t.Below log := by
  unfold observeSparse at h
  split at h
  next hnone =>
    cases h
    exact ⟨rfl, fun last hlast => nomatch hnone.symm.trans hlast⟩
  next last hlast =>
    unfold Below
    rw [hlast]
    split_ifs at h with hlow hsame heq
    · cases h
    · cases h
    · cases h
      exact ⟨by rw [hlast, heq], fun _ hsome => by cases hsome; omega⟩
    · cases h
      exact ⟨rfl, fun _ hsome => by cases hsome; omega⟩

theorem length_normalizeStream_le (n : MonadExecutionNormalizer) (events : List ExecutionEvent) :
    (n.normalizeStream events).length ≤ events.length := by
  induction events generalizing n with
  | nil => exact le_rfl
  | cons event rest ih =>
    unfold normalizeStream
    split
    · exact Nat.succ_le_succ (ih _)
    · exact (ih _).trans (Nat.le_succ _)
    · exact Nat.succ_le_succ (Nat.zero_le _)

/-- Events that all pass have ascending logs. -/
theorem ascending_of_normalizeStream {events : List ExecutionEvent} (hfree : GapFree events)
    {n : MonadExecutionNormalizer}
    (h : n.normalizeStream events = events.map (updateOf n.chainId)) :
    (logsIn events).Pairwise ExecutionLog.Before ∧ ∀ log ∈ logsIn events, n.tracker.Below log := by
  induction events generalizing n with
  | nil => exact ⟨.nil, fun _ hin => nomatch hin⟩
  | cons event rest ih =>
    have hrest : GapFree rest := fun cursor reason hin =>
      hfree cursor reason (mem_cons_of_mem _ hin)
    cases event with
    | head head | reorg oldHead newHead => exact ih hrest (List.cons.inj h).2
    | gap cursor reason => exact absurd mem_cons_self (hfree cursor reason)
    | log log =>
      simp only [normalizeStream, MonadExecutionNormalizer.normalize, normalizeLog, map_cons,
        updateOf] at h
      cases hseen : n.tracker.observeSparse log.sequence log.sourceSubIndex with
      | error e => simp [hseen] at h
      | ok seen =>
        obtain ⟨tracker, passes⟩ := seen
        cases passes with
        | false =>
          have hlength := length_normalizeStream_le n rest
          simp only [hseen] at h
          rw [h] at hlength
          simp at hlength
        | true =>
          simp only [hseen] at h
          obtain ⟨rfl, hbelow⟩ := MonadSequenceTracker.below_of_observeSparse hseen
          obtain ⟨hascending, hlater⟩ := ih hrest (List.cons.inj h).2
          refine ⟨pairwise_cons.mpr ⟨fun later hin => hlater later hin _ rfl, hascending⟩,
            forall_mem_cons.mpr ⟨hbelow, fun later hin last hlast => ?_⟩⟩
          have := hbelow last hlast
          have := hlater later hin _ rfl
          simp only at this
          omega

/-- The matching logs of the abandoned blocks, block after block. -/
def retracted (filter : ContractFilter) (abandoned : List ExecutedBlock) :
    List (ExecutedBlock × (Nat × NativeLog) × Nat) :=
  abandoned.flatMap fun old => (old.matching filter).map (old, ·)

/-- The condition: their block-wide indices ascend, also from block to block. -/
def Ascends (filter : ContractFilter) (abandoned : List ExecutedBlock) : Prop :=
  (retracted filter abandoned).Pairwise fun a b => a.2.2 < b.2.2

/-- What a finalizing update has to tell: every abandoned block is taken back, log by log and then
by its reorganization. -/
def CommitStateBlockUpdate.retractions (update : CommitStateBlockUpdate) (sequence : Nat)
    (delivery : MonadDeliveryMode) (filter : ContractFilter) : List ExecutionEvent :=
  (update.abandoned.flatMap fun old => old.retraction update.block sequence filter) ++
    if delivery = .blockOrdered then [.head (update.block.blockHead sequence .finalized)] else []

section

variable {update : CommitStateBlockUpdate} {delivery : MonadDeliveryMode}

theorem convertUpdate_eq_ok (hdelivery : delivery ≠ .finalized) (hstate : update.state = .finalized)
    (h : convertUpdate update sequence delivery true chainId filter = .ok out) :
    out = update.retractions sequence delivery filter := by
  obtain ⟨⟨⟩, -, h⟩ := bind_eq_ok.mp h
  obtain ⟨retracted, hretracted, h⟩ := bind_eq_ok.mp h
  rw [if_pos ⟨rfl, hdelivery, hstate⟩] at hretracted
  obtain ⟨logs, hlogs, h⟩ := bind_eq_ok.mp h
  rw [if_neg (by simp [hstate, hdelivery])] at hlogs
  cases hlogs
  cases h
  rw [retract_eq_ok hretracted, CommitStateBlockUpdate.retractions, hstate]
  cases delivery with
  | finalized => exact absurd rfl hdelivery
  | realtime | blockOrdered => simp [commitmentOf]

theorem logsIn_retractions :
    logsIn (update.retractions sequence delivery filter) =
      (retracted filter update.abandoned).map fun (old, (transactionIndex, log), index) =>
        old.executionLog sequence .canonical true index transactionIndex log := by
  have hhead : logsIn (if delivery = .blockOrdered then
      [.head (update.block.blockHead sequence .finalized)] else []) = [] := by
    split <;> rfl
  rw [CommitStateBlockUpdate.retractions, logsIn_append, hhead, append_nil]
  simp [logsIn, retracted, filterMap_flatMap, map_flatMap, ExecutedBlock.retraction,
    filterMap_append, filterMap_map, Function.comp_def]

theorem gapFree_retractions : GapFree (update.retractions sequence delivery filter) := by
  intro cursor reason
  simp only [CommitStateBlockUpdate.retractions, ExecutedBlock.retraction]
  split <;> simp

/-- **The retractions of a finalizing update** pass the normalizer, log by log and each block's
before its reorganization, exactly when the indices of their logs ascend. -/
theorem retractions_pass_iff (hdelivery : delivery ≠ .finalized)
    (hstate : update.state = .finalized)
    (h : convertUpdate update sequence delivery true chainId filter = .ok out)
    (n : MonadExecutionNormalizer) (hearlier : ∀ last ∈ n.tracker.lastSequence, last < sequence) :
    n.normalizeStream out = (update.retractions sequence delivery filter).map (updateOf n.chainId) ↔
      Ascends filter update.abandoned := by
  rw [convertUpdate_eq_ok hdelivery hstate h]
  have hascends : (logsIn (update.retractions sequence delivery filter)).Pairwise
      ExecutionLog.Before ↔ Ascends filter update.abandoned := by
    rw [logsIn_retractions, pairwise_map, Ascends]
    simp [ExecutionLog.Before, ExecutedBlock.executionLog]
  constructor
  · exact fun hpass => hascends.mp (ascending_of_normalizeStream gapFree_retractions hpass).1
  refine fun hindices => n.normalizeStream_of_ascending (hascends.mpr hindices)
    fun log hin last hlast => .inl ?_
  rw [logsIn_retractions] at hin
  obtain ⟨entry, -, rfl⟩ := mem_map.mp hin
  exact hearlier last hlast

end

/-- A block of chain one with one transaction that has logged `count` times. -/
def loggedBlock (blockNumber : Nat) (hash : B256) (count : Nat) : ExecutedBlock :=
  ⟨1, blockNumber, hash, 0, [List.replicate count ⟨7, [], []⟩]⟩

/-- Block four is finalized and the given ones are abandoned. -/
def finalizing (abandoned : List ExecutedBlock) : CommitStateBlockUpdate :=
  ⟨loggedBlock 4 1 0, .finalized, abandoned⟩

/-- Two abandoned blocks; the matching log of the second stands behind one of another contract. -/
def ascendingBlocks : List ExecutedBlock :=
  [loggedBlock 4 2 1, { loggedBlock 5 3 0 with txns := [[⟨8, [], []⟩, ⟨7, [], []⟩]] }]

theorem retractions_pass_ascending :
    (retracted ⟨7, []⟩ ascendingBlocks).length = 2 ∧
      (new 1).normalizeStream ((finalizing ascendingBlocks).retractions 9 .realtime ⟨7, []⟩) =
        ((finalizing ascendingBlocks).retractions 9 .realtime ⟨7, []⟩).map (updateOf 1) :=
  ⟨by decide +kernel, (retractions_pass_iff (by decide) rfl
    (show convertUpdate _ _ _ _ 1 _ = .ok _ from rfl) (new 1) fun _ h => nomatch h).mpr
    (by unfold Ascends; decide +kernel)⟩

/-- Two abandoned blocks with one log each: the normalizer takes the removal of the second log for
a repetition of the first. -/
theorem second_retraction_lost :
    convertUpdate (finalizing [loggedBlock 4 2 1, loggedBlock 5 3 1]) 9 .realtime true 1 ⟨7, []⟩ =
        .ok ((finalizing [loggedBlock 4 2 1, loggedBlock 5 3 1]).retractions 9 .realtime ⟨7, []⟩) ∧
      (retracted ⟨7, []⟩ [loggedBlock 4 2 1, loggedBlock 5 3 1]).length = 2 ∧
      ((new 1).normalizeStream
        ((finalizing [loggedBlock 4 2 1, loggedBlock 5 3 1]).retractions 9 .realtime
          ⟨7, []⟩)).countP (fun | .log _ => true | _ => false) = 1 :=
  ⟨rfl, by decide +kernel, by decide +kernel⟩

end Lunarbase.Monad
