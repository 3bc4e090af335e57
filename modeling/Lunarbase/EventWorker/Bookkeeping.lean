import Lunarbase.Client.Envelope
import Lunarbase.EventWorker.Canonical
import Lunarbase.Support.Tally

/-!
# EventWorker — Bookkeeping

Four things the store keeps about a log: its records in the stream, its entry in `log-state`, its
reference in the list of its block, and its share of the usage counters (`Store.Consistent`).  Two
scripts maintain them, one log at a time or a whole branch at once.

They stay consistent as long as a correction names each block of the old branch once and each
replacement log once, and the revisions are short enough for a Lua number to print them
(`durable_records_consistent`).  A branch that names a block twice reverts its logs twice
(`block_named_twice_reverted_twice`).
-/

namespace Lunarbase.EventWorker

open Client (BlockRef ContractLog)
open List Function Nat CorrectionBlock

/-! ### Records and states -/

/-- The operation of a revision: the odd ones apply. -/
def operationOf (revision : Nat) : Text :=
  if revision % 2 = 1 then "applied".toList else "reverted".toList

/-- A record gives a log its revision. -/
structure StreamEntry.Gives (entry : StreamEntry) (revision : Nat) : Prop where
  recordType : entry.field "recordType" = some "log".toList
  operation : entry.field "operation" = some (operationOf revision)
  lifecycleRevision : entry.field "lifecycleRevision" = some (decimal revision)

/-- A state says what a record says. -/
structure LogState.Repeats (state : LogState) (entry : StreamEntry) : Prop where
  streamId : entry.id = state.streamId
  operation : entry.field "operation" = some state.operation
  lifecycleRevision : entry.field "lifecycleRevision" = some (decimal state.revision)
  recordId : entry.field "recordId" = some state.recordId
  blockHash : entry.field "blockHash" = some state.blockHash

namespace Store

variable {s : Store}

/-- The lifecycle records of a log, in the order of the stream. -/
def records (s : Store) (logicalLogId : Text) : List StreamEntry :=
  s.stream.filter fun entry => entry.field "logicalLogId" = some logicalLogId

/-- The records of a log have the revisions 1, 2, 3 and so on, and its state is the last of
them. -/
structure Chronicle (s : Store) (logicalLogId : Text) : Prop where
  revisions : ∀ (i : Nat) (entry : StreamEntry), (s.records logicalLogId)[i]? = some entry →
    entry.Gives (i + 1)
  last : Option.Rel LogState.Repeats (s.logState logicalLogId) (s.records logicalLogId).getLast?

variable {logicalLogId other : Text} {s' : Store} {state : LogState} {plan : Plan}
  {c : ReorgCorrection} {w : Worker}

theorem Chronicle.congr (h : s.Chronicle logicalLogId)
    (hrecords : s'.records logicalLogId = s.records logicalLogId)
    (hstate : s'.logState logicalLogId = s.logState logicalLogId) : s'.Chronicle logicalLogId where
  revisions := hrecords ▸ h.revisions
  last := by
    rw [hrecords, hstate]
    exact h.last

theorem records_congr (h : s'.stream = s.stream) :
    s'.records logicalLogId = s.records logicalLogId := by
  rw [records, h, records]

theorem records_xadd (s : Store) (recordType operation : String) (recordId : Text)
    (fields : List (String × Text)) (logicalLogId : Text) :
    (s.xadd recordType operation recordId fields).records logicalLogId = s.records logicalLogId ++
      if fields.lookup "logicalLogId" = some logicalLogId then
        [s.appended recordType operation recordId fields]
      else [] :=
  filter_xadd ..

/-- A record of one log is none of another. -/
theorem records_xadd_of_ne (s : Store) (recordType operation : String) (recordId : Text)
    {fields : List (String × Text)} (hname : fields.lookup "logicalLogId" = some logicalLogId)
    (hother : other ≠ logicalLogId) :
    (s.xadd recordType operation recordId fields).records other = s.records other := by
  have hne : some logicalLogId ≠ some other := fun hsome => hother (Option.some.inj hsome).symm
  rw [records_xadd, hname, if_neg hne, append_nil]

section

variable (h : s.Chronicle logicalLogId)

include h

/-- The revision of a log is the number of its records. -/
theorem Chronicle.revision_eq (hstate : s.logState logicalLogId = some state) :
    state.revision = (s.records logicalLogId).length ∧
      state.operation = operationOf state.revision := by
  have hlast := h.last
  rw [hstate] at hlast
  cases hentry : (s.records logicalLogId).getLast? with
  | none =>
    rw [hentry] at hlast
    cases hlast
  | some entry =>
    rw [hentry] at hlast
    obtain ⟨hrepeats⟩ := hlast
    rw [getLast?_eq_getElem?] at hentry
    have hpositive : 0 < (s.records logicalLogId).length := by
      by_contra hempty
      rw [length_eq_zero_iff.mp (Nat.eq_zero_of_not_pos hempty)] at hentry
      cases hentry
    have hgives := h.revisions _ entry hentry
    rw [Nat.sub_add_cancel hpositive] at hgives
    have hrevision : state.revision = (s.records logicalLogId).length :=
      decimal_injective (Option.some.inj
        (hrepeats.lifecycleRevision.symm.trans hgives.lifecycleRevision))
    refine ⟨hrevision, ?_⟩
    rw [hrevision]
    exact Option.some.inj (hrepeats.operation.symm.trans hgives.operation)

/-- A log is active when its number of records is odd. -/
theorem Chronicle.active_eq (hstate : s.logState logicalLogId = some state) :
    state.active = decide ((s.records logicalLogId).length % 2 = 1) := by
  obtain ⟨hrevision, hoperation⟩ := h.revision_eq hstate
  rw [hrevision, LogState.operation, operationOf] at hoperation
  cases hactive : state.active with
  | true =>
    rw [hactive, if_pos rfl] at hoperation
    split at hoperation
    next hodd => rw [decide_eq_true hodd]
    · cases hoperation
  | false =>
    rw [hactive, if_neg (by decide)] at hoperation
    split at hoperation
    · cases hoperation
    next heven => rw [decide_eq_false heven]

theorem Chronicle.records_eq_nil (hstate : s.logState logicalLogId = none) :
    s.records logicalLogId = [] := by
  have hlast := h.last
  rw [hstate] at hlast
  cases hentry : (s.records logicalLogId).getLast? with
  | none => exact getLast?_eq_none_iff.mp hentry
  | some entry =>
    rw [hentry] at hlast
    cases hlast

theorem Chronicle.nextRevision_eq (hshort : (s.records logicalLogId).length + 1 < 10 ^ 14) :
    s.nextRevision logicalLogId = (s.records logicalLogId).length + 1 := by
  unfold nextRevision
  cases hstate : s.logState logicalLogId with
  | none => rw [h.records_eq_nil hstate]; rfl
  | some state =>
    dsimp only
    rw [(h.revision_eq hstate).1, Lua.reread_of_lt (by omega), Lua.toDouble_of_lt (by omega)]

/-- An idle log has an even number of records. -/
theorem Chronicle.even_of_idle (hidle : (s.logState logicalLogId).any (·.active) = false) :
    (s.records logicalLogId).length % 2 = 0 := by
  cases hstate : s.logState logicalLogId with
  | none => rw [h.records_eq_nil hstate]; rfl
  | some state =>
    rw [hstate, Option.any_some, h.active_eq hstate] at hidle
    have hodd := of_decide_eq_false hidle
    omega

theorem Chronicle.odd_of_active (hactive : (s.logState logicalLogId).any (·.active) = true) :
    (s.records logicalLogId).length % 2 = 1 := by
  cases hstate : s.logState logicalLogId with
  | none => rw [hstate] at hactive; cases hactive
  | some state =>
    rw [hstate, Option.any_some, h.active_eq hstate] at hactive
    exact of_decide_eq_true hactive

end

/-- What the store keeps under the id of a log. -/
def logView (s : Store) (logicalLogId : Text) : Option LogState × List StreamEntry :=
  (s.logState logicalLogId, s.records logicalLogId)

/-- The log is active or not, and its next revision can be printed. -/
def Writable (active : Bool) (view : Option LogState × List StreamEntry) : Prop :=
  view.1.any (·.active) = active ∧ view.2.length + 1 < 10 ^ 14

section

variable (h : ∀ logicalLogId, s.Chronicle logicalLogId)

include h

/-- A record of a log together with the state it leads to. -/
theorem chronicle_record {operation : String} (recordId blockHash : Text)
    (rest : List (String × Text)) (active : Bool)
    (hactive : active = decide (((s.records logicalLogId).length + 1) % 2 = 1))
    (hshort : (s.records logicalLogId).length + 1 < 10 ^ 14)
    (hoperation : operation.toList = if active then "applied".toList else "reverted".toList)
    (hstream : s'.stream = (s.xadd "log" operation recordId ([("logicalLogId", logicalLogId),
      ("blockHash", blockHash),
      ("lifecycleRevision", Lua.tostring (s.nextRevision logicalLogId))] ++ rest)).stream)
    (hstate : s'.logState = update s.logState logicalLogId
      (some ⟨active, s.nextRevision logicalLogId, recordId, s.nextId, blockHash⟩))
    (other : Text) : s'.Chronicle other := by
  by_cases hother : other = logicalLogId
  · subst hother
    have hrecords := s.records_xadd "log" operation recordId
      ([("logicalLogId", other), ("blockHash", blockHash),
        ("lifecycleRevision", Lua.tostring (s.nextRevision other))] ++ rest) other
    rw [← records_congr hstream, if_pos (by rfl)] at hrecords
    have hrevision := (h other).nextRevision_eq hshort
    have htext : Lua.tostring (s.nextRevision other) = decimal ((s.records other).length + 1) := by
      rw [hrevision, Lua.tostring_of_lt hshort]
      rfl
    have hoperationOf : operation.toList = operationOf ((s.records other).length + 1) := by
      rw [hoperation, hactive, operationOf]
      simp only [decide_eq_true_eq]
    refine ⟨fun i entry hentry => ?_, ?_⟩
    · rw [hrecords] at hentry
      rcases lt_or_ge i (s.records other).length with hlt | hge
      · rw [getElem?_append_left hlt] at hentry
        exact (h other).revisions i entry hentry
      -- the new record is the last one
      rw [getElem?_append_right hge, getElem?_singleton] at hentry
      split at hentry
      next hzero =>
        cases hentry
        obtain rfl : i = (s.records other).length := by omega
        exact ⟨rfl, congrArg some hoperationOf, congrArg some htext⟩
      · cases hentry
    · rw [hrecords, hstate, update_self, getLast?_append_of_ne_nil _ (by simp)]
      have hrevisionText : Lua.tostring (s.nextRevision other) = decimal (s.nextRevision other) :=
        by rw [htext, hrevision]
      exact .some ⟨rfl, congrArg some hoperation, congrArg some hrevisionText, rfl, rfl⟩
  · refine (h other).congr ((records_congr hstream).trans ?_) ?_
    · exact s.records_xadd_of_ne "log" operation recordId rfl hother
    · rw [hstate, update_of_ne hother]

variable {event : DurableEvent}

theorem chronicle_journalEvent (hwritable : Writable false (s.logView event.logicalLogId))
    (extra : List (String × Text)) (other : Text) :
    (s.journalEvent event extra).Chronicle other := by
  have heven := (h event.logicalLogId).even_of_idle hwritable.1
  refine chronicle_record h event.recordId event.blockHash (extra ++ event.fields) true ?_
    hwritable.2 rfl ?_ ?_ other
  · rw [eq_comm, decide_eq_true_eq]
    omega
  · rfl
  · rfl

theorem chronicle_revertLog {log : OldLog} (hwritable : Writable true (s.logView log.logicalLogId))
    (reorgId other : Text) : (revertLog reorgId s log).Chronicle other := by
  have hodd := (h log.logicalLogId).odd_of_active hwritable.1
  unfold revertLog
  split
  · exact h other
  next source hsource =>
    refine chronicle_record h log.recordId log.blockHash
      (("reorgId", reorgId) :: source.fields.filter fun field => repeatedField field.1) false ?_
      hwritable.2 rfl ?_ ?_ other
    · rw [eq_comm, decide_eq_false_iff_not]
      omega
    · rfl
    · rfl

end

variable (reorgId : Text)

theorem logView_revertLog (s : Store) (log : OldLog) (hother : other ≠ log.logicalLogId) :
    (revertLog reorgId s log).logView other = s.logView other := by
  unfold revertLog
  split
  · rfl
  exact Prod.ext (update_of_ne hother _ _)
    (s.records_xadd_of_ne "log" "reverted" log.recordId rfl hother)

theorem logView_journalEvent (s : Store) (event : DurableEvent) (extra : List (String × Text))
    (hother : other ≠ event.logicalLogId) :
    (s.journalEvent event extra).logView other = s.logView other :=
  Prod.ext (update_of_ne hother _ _)
    (s.records_xadd_of_ne "log" "applied" event.recordId rfl hother)

variable {logs : List OldLog}

theorem chronicle_foldl_revertLog (h : ∀ logicalLogId, s.Chronicle logicalLogId) (reorgId : Text)
    (hnodup : (logs.map OldLog.logicalLogId).Nodup)
    (hlogs : ∀ log ∈ logs, Writable true (s.logView log.logicalLogId)) (other : Text) :
    (logs.foldl (revertLog reorgId) s).Chronicle other :=
  foldl_of_distinct (P := fun s => ∀ other, Chronicle s other)
    (Q := fun _ view => Writable true view) (fun s log _ => logView_revertLog reorgId s log)
    (fun _ _ h hlog => chronicle_revertLog h hlog reorgId) hnodup h hlogs other

/-! ### References and counters -/

/-- The four structures tell the same story.  The list of a block holds exactly its active logs,
each once, and the counters are those of all the lists. -/
structure Consistent (s : Store) : Prop where
  chronicles : ∀ logicalLogId, s.Chronicle logicalLogId
  listed : ∀ hash reference, reference ∈ s.blockLogs hash →
    ∃ state, s.logState reference.logicalLogId = some state ∧ state.active = true ∧
      state.blockHash = hash ∧ state.recordId = reference.recordId ∧
      state.streamId = reference.streamId
  referenced : s.Referenced
  once : ∀ hash, ((s.blockLogs hash).map LogReference.logicalLogId).Nodup
  count : Tally (fun references : List LogReference => (references.length : ℤ)) s.blockLogs
    s.usage.logReferences
  bytes : Tally (fun references : List LogReference =>
    ((references.map LogReference.bytes).sum : ℤ)) s.blockLogs s.usage.logReferenceBytes

theorem Consistent.initial (fingerprint : Text) : (Store.initial fingerprint).Consistent where
  chronicles _ := ⟨fun _ _ h => (by cases h), .none⟩
  listed _ _ h := nomatch h
  referenced _ _ h := nomatch h
  once _ := nodup_nil
  count := .of_weightless fun _ => rfl
  bytes := .of_weightless fun _ => rfl

/-- The parts of the store that these structures are. -/
def books (s : Store) := (s.records, s.logState, s.blockLogs, s.usage.logReferences,
  s.usage.logReferenceBytes)

theorem logView_of_books (hsame : s'.books = s.books) (logicalLogId : Text) :
    s'.logView logicalLogId = s.logView logicalLogId :=
  congrArg (fun books => (books.2.1 logicalLogId, books.1 logicalLogId)) hsame

theorem Consistent.congr (h : s.Consistent) (hsame : s'.books = s.books) : s'.Consistent := by
  simp only [books, Prod.mk.injEq] at hsame
  obtain ⟨hrecords, hstate, hlists, hcount, hbytes⟩ := hsame
  refine ⟨fun logicalLogId => ?_, ?_, ?_, hlists ▸ h.once, ?_, ?_⟩
  · exact (h.chronicles logicalLogId).congr (congrFun hrecords _) (congrFun hstate _)
  · rw [hlists, hstate]
    exact h.listed
  · unfold Referenced
    rw [hlists, hstate]
    exact h.referenced
  · rw [hlists, hcount]
    exact h.count
  · rw [hlists, hbytes]
    exact h.bytes

theorem books_control (s : Store) (hfields : plan.controlFields.lookup "logicalLogId" = none)
    (operation : String) (recordId : Text) :
    (s.control plan operation recordId).books = s.books := by
  refine congrArg (fun records => (records, s.books.2)) (funext fun logicalLogId => ?_)
  refine (s.records_xadd "reorg" operation recordId plan.controlFields logicalLogId).trans ?_
  rw [hfields, if_neg (by simp), append_nil]

theorem books_installHead (s : Store) (head : DurableHead) :
    (s.installHead head).books = s.books := by
  unfold installHead storeHeader
  split
  · rfl
  · rfl

/-! ### A log is journaled -/

/-- A listed log is active, so an idle one is in no list. -/
theorem Consistent.ne_of_idle (h : s.Consistent)
    (hidle : (s.logState logicalLogId).any (·.active) = false) {hash : Text}
    {reference : LogReference} (hmem : reference ∈ s.blockLogs hash) :
    reference.logicalLogId ≠ logicalLogId := by
  rintro rfl
  obtain ⟨state, hstate, hactive, -⟩ := h.listed hash reference hmem
  rw [hstate, Option.any_some, hactive] at hidle
  cases hidle

theorem Consistent.journalEvent (h : s.Consistent)
    (hwritable : Writable false (s.logView event.logicalLogId)) (extra : List (String × Text)) :
    (s.journalEvent event extra).Consistent where
  chronicles := chronicle_journalEvent h.chronicles hwritable extra
  listed := by
    intro hash reference hmem
    change reference ∈ update s.blockLogs event.blockHash _ hash at hmem
    change ∃ state, update s.logState event.logicalLogId _ _ = some state ∧ _
    have hkept : reference ∈ s.blockLogs hash →
        ∃ state, update s.logState event.logicalLogId
            (some ⟨true, s.nextRevision event.logicalLogId, event.recordId, s.nextId,
              event.blockHash⟩) reference.logicalLogId = some state ∧
          state.active = true ∧ state.blockHash = hash ∧ state.recordId = reference.recordId ∧
          state.streamId = reference.streamId := by
      intro hold
      rw [update_of_ne (h.ne_of_idle hwritable.1 hold)]
      exact h.listed hash reference hold
    by_cases hblock : hash = event.blockHash
    · subst hblock
      rw [update_self] at hmem
      rcases mem_append.mp hmem with hold | hnew
      · exact hkept hold
      rw [mem_singleton.mp hnew, update_self]
      exact ⟨_, rfl, rfl, rfl, rfl, rfl⟩
    · rw [update_of_ne hblock] at hmem
      exact hkept hmem
  referenced := h.referenced.journalEvent event extra
  once := by
    intro hash
    change (map _ (update s.blockLogs event.blockHash _ hash)).Nodup
    by_cases hblock : hash = event.blockHash
    · rw [hblock, update_self, map_append, nodup_append]
      refine ⟨h.once event.blockHash, nodup_singleton _, ?_⟩
      intro name hname other hother
      obtain ⟨reference, hmem, rfl⟩ := mem_map.mp hname
      rw [mem_singleton.mp hother]
      exact h.ne_of_idle hwritable.1 hmem
    · rw [update_of_ne hblock]
      exact h.once hash
  count := by
    have hcount := h.count.update event.blockHash (s.blockLogs event.blockHash ++
      [⟨event.cursorOrder, event.logicalLogId, event.recordId, s.nextId⟩])
    rw [length_append, cast_add, ← add_assoc, sub_add_cancel] at hcount
    exact hcount
  bytes := by
    have hbytes := h.bytes.update event.blockHash (s.blockLogs event.blockHash ++
      [⟨event.cursorOrder, event.logicalLogId, event.recordId, s.nextId⟩])
    rw [map_append, List.sum_append, cast_add, ← add_assoc, sub_add_cancel] at hbytes
    exact hbytes

/-! ### A branch is reverted -/

theorem foldl_revertLog_lists (logs : List OldLog) (s : Store) :
    (logs.foldl (revertLog reorgId) s).blockLogs = s.blockLogs ∧
      (logs.foldl (revertLog reorgId) s).usage = s.usage := by
  refine foldlRecOn
    (motive := fun s' : Store => s'.blockLogs = s.blockLogs ∧ s'.usage = s.usage) logs _ ⟨rfl, rfl⟩
    fun s' hs' log _ => ?_
  unfold revertLog
  split
  · exact hs'
  · exact hs'

theorem foldl_revertLog_of_ne (hne : ∀ log ∈ logs, log.logicalLogId ≠ logicalLogId) :
    (logs.foldl (revertLog reorgId) s).logView logicalLogId = s.logView logicalLogId := by
  induction logs generalizing s with
  | nil => rfl
  | cons log rest ih =>
    obtain ⟨hfirst, hrest⟩ := forall_mem_cons.mp hne
    exact (ih hrest).trans (s.logView_revertLog reorgId log hfirst.symm)

theorem foldl_removeBlock_lists (blocks : List CorrectionBlock) (s : Store) (hash : Text) :
    (blocks.foldl removeBlock s).blockLogs hash =
        if hash ∈ blocks.map blockHash then [] else s.blockLogs hash := by
  induction blocks generalizing s with
  | nil => rfl
  | cons block rest ih =>
    rw [foldl_cons, ih (s.removeBlock block), map_cons]
    by_cases hhash : hash = block.blockHash
    · subst hhash
      simp [removeBlock]
    · simp [removeBlock, hhash]

theorem releaseReferences_usage (s : Store) {count bytes : Nat} (hnone : count = 0 → bytes = 0) :
    (s.releaseReferences count bytes).usage.logReferences = s.usage.logReferences - count ∧
      (s.releaseReferences count bytes).usage.logReferenceBytes =
        s.usage.logReferenceBytes - bytes := by
  unfold releaseReferences
  split
  · exact ⟨rfl, rfl⟩
  next hzero =>
    have hcount := Nat.eq_zero_of_not_pos hzero
    rw [hnone hcount, hcount]
    simp

theorem exists_of_mem_materializeOldLogs {keccak256 : List UInt8 → B256} {log : OldLog}
    (hlog : log ∈ s.materializeOldLogs keccak256 c) :
    ∃ block ∈ c.oldBlocks, ∃ reference ∈ s.blockLogs block.blockHash,
      reference.logicalLogId = log.logicalLogId := by
  obtain ⟨block, hblock, hlog⟩ := mem_flatMap.mp hlog
  obtain ⟨reference, hreference, rfl⟩ := mem_map.mp hlog
  exact ⟨block, mem_reverse.mp hblock, reference, mem_reverse.mp hreference, rfl⟩

/-- Logs of different blocks are different. -/
theorem Consistent.block_eq (h : s.Consistent) {hash hash' : Text}
    {reference reference' : LogReference} (hmem : reference ∈ s.blockLogs hash)
    (hmem' : reference' ∈ s.blockLogs hash')
    (hname : reference.logicalLogId = reference'.logicalLogId) : hash = hash' := by
  obtain ⟨state, hstate, -, hblock, -⟩ := h.listed hash reference hmem
  obtain ⟨state', hstate', -, hblock', -⟩ := h.listed hash' reference' hmem'
  rw [hname, hstate'] at hstate
  rw [← hblock, ← hblock', Option.some.inj hstate]

theorem Consistent.oldLogs_nodup (h : s.Consistent) (keccak256 : List UInt8 → B256)
    (hblocks : (c.oldBlocks.map blockHash).Nodup) :
    ((s.materializeOldLogs keccak256 c).map OldLog.logicalLogId).Nodup := by
  have hids : (s.materializeOldLogs keccak256 c).map OldLog.logicalLogId =
      c.oldBlocks.reverse.flatMap fun block =>
        ((s.blockLogs block.blockHash).map LogReference.logicalLogId).reverse := by
    simp only [materializeOldLogs, map_flatMap, map_map, map_reverse]
    rfl
  rw [hids, nodup_flatMap]
  refine ⟨fun block _ => nodup_reverse.mpr (h.once block.blockHash), ?_⟩
  rw [pairwise_reverse]
  refine (pairwise_map.mp hblocks).imp fun {block block'} hne => ?_
  intro name hname' hname
  obtain ⟨reference, hmem, rfl⟩ := mem_map.mp (mem_reverse.mp hname)
  obtain ⟨reference', hmem', hsame⟩ := mem_map.mp (mem_reverse.mp hname')
  exact hne (h.block_eq hmem hmem' hsame.symm)

/-- The references of the old branch, by block. -/
theorem sum_references (s : Store) (c : ReorgCorrection) (weight : LogReference → Nat) :
    (((s.references c).map weight).sum : ℤ) = ((c.oldBlocks.map blockHash).map fun hash =>
        ((((s.blockLogs hash).map weight).sum : Nat) : ℤ)).sum := by
  unfold references
  induction c.oldBlocks with
  | nil => rfl
  | cons block rest ih =>
    rw [flatMap_cons, map_append, List.sum_append, cast_add, ih]
    rfl

theorem revertBranch_logs (s : Store) (plan : Plan) :
    (s.revertBranch plan).stream = (plan.oldLogs.foldl (revertLog plan.reorgId) s).stream ∧
      (s.revertBranch plan).logState =
        (plan.oldLogs.foldl (revertLog plan.reorgId) s).logState := by
  obtain ⟨_, _, _, hreverted⟩ := s.revertBranch_eq plan
  rw [hreverted]
  exact ⟨rfl, rfl⟩

theorem revertBranch_blockLogs (s : Store) (plan : Plan) (hash : Text) :
    (s.revertBranch plan).blockLogs hash =
      if hash ∈ plan.oldBlocks.map blockHash then [] else s.blockLogs hash := by
  unfold revertBranch
  rw [releaseReferences_eq]
  refine (foldl_removeBlock_lists _ _ _).trans ?_
  rw [(foldl_revertLog_lists _ _ _).1]

theorem revertBranch_usage (s : Store)
    (hnone : plan.removedReferenceCount = 0 → plan.removedReferenceBytes = 0) :
    (s.revertBranch plan).usage.logReferences = s.usage.logReferences - plan.removedReferenceCount ∧
      (s.revertBranch plan).usage.logReferenceBytes =
        s.usage.logReferenceBytes - plan.removedReferenceBytes := by
  obtain ⟨_, _, hremoved⟩ :=
    foldl_removeBlock_eq plan.oldBlocks (plan.oldLogs.foldl (revertLog plan.reorgId) s)
  rw [← (foldl_revertLog_lists plan.reorgId plan.oldLogs s).2, revertBranch, hremoved]
  exact releaseReferences_usage _ hnone

/-- A log is active after its branch has been reverted if it was before and belongs to no block of
the branch. -/
theorem Consistent.revertBranch_active (h : s.Consistent) (hplanned : s.Planned w c plan)
    (hentries : ∀ log ∈ plan.oldLogs, (s.entry log.sourceStreamId).isSome = true)
    (hactive : state.active = true) :
    (s.revertBranch plan).logState logicalLogId = some state ↔
      s.logState logicalLogId = some state ∧ state.blockHash ∉ plan.oldBlocks.map blockHash := by
  rw [(s.revertBranch_logs plan).2]
  constructor
  · intro hstate
    obtain ⟨hbefore, hother⟩ := foldl_revertLog_active _ _ hentries hstate hactive
    refine ⟨hbefore, fun hblock => ?_⟩
    obtain ⟨block, hblock, heq⟩ := mem_map.mp hblock
    -- a log of an old block is referenced there, so the plan reverts it
    obtain ⟨reference, hreference, hname⟩ := h.referenced logicalLogId state hbefore hactive
    rw [← heq] at hreference
    obtain ⟨log, hlog, hlogName⟩ := mem_materializeOldLogs w.keccak256
      (hplanned.oldBlocks ▸ hblock) hreference
    exact hother log (hplanned.oldLogs ▸ hlog) (hlogName.trans hname)
  · rintro ⟨hbefore, hblock⟩
    refine (congrArg Prod.fst (foldl_revertLog_of_ne plan.reorgId ?_)).trans hbefore
    · rintro log hlog rfl
      rw [hplanned.oldLogs] at hlog
      obtain ⟨block, hold, reference, hreference, hname⟩ := exists_of_mem_materializeOldLogs hlog
      obtain ⟨state', hstate', -, hblock', -⟩ := h.listed _ reference hreference
      rw [hname, hbefore] at hstate'
      obtain rfl := Option.some.inj hstate'
      rw [hplanned.oldBlocks, hblock'] at hblock
      exact hblock (mem_map_of_mem hold)

/-- **Reverting a branch leaves the books consistent.**  Its logs are reverted one by one, its lists
go at once, and the counters lose what the lists held. -/
theorem Consistent.revertBranch (h : s.Consistent) (hplanned : s.Planned w c plan)
    (hblocks : (c.oldBlocks.map blockHash).Nodup)
    (hentries : ∀ log ∈ plan.oldLogs, (s.entry log.sourceStreamId).isSome = true)
    (hlogs : ∀ log ∈ plan.oldLogs, Writable true (s.logView log.logicalLogId)) :
    (s.revertBranch plan).Consistent := by
  obtain ⟨hstream, hstate⟩ := s.revertBranch_logs plan
  have hlists := s.revertBranch_blockLogs plan
  have hnone : plan.removedReferenceCount = 0 → plan.removedReferenceBytes = 0 := by
    rw [hplanned.removedCount, hplanned.removedBytes]
    intro hempty
    rw [length_eq_zero_iff.mp hempty]
    rfl
  obtain ⟨hcount, hbytes⟩ := s.revertBranch_usage hnone
  have hactive : ∀ {logicalLogId state}, state.active = true →
      ((s.revertBranch plan).logState logicalLogId = some state ↔ _) :=
    h.revertBranch_active hplanned hentries
  have hcleared : ∀ hash ∈ c.oldBlocks.map blockHash,
      (s.revertBranch plan).blockLogs hash = [] := by
    intro hash hhash
    rw [hlists, hplanned.oldBlocks, if_pos hhash]
  have hkept : ∀ hash ∉ c.oldBlocks.map blockHash,
      (s.revertBranch plan).blockLogs hash = s.blockLogs hash := by
    intro hash hhash
    rw [hlists, hplanned.oldBlocks, if_neg hhash]
  refine ⟨fun logicalLogId => ?_, fun hash reference hmem => ?_,
    fun logicalLogId state hafter hon => ?_, fun hash => ?_, ?_, ?_⟩
  · refine (chronicle_foldl_revertLog h.chronicles plan.reorgId ?_ hlogs logicalLogId).congr
      (records_congr hstream) (congrFun hstate logicalLogId)
    rw [hplanned.oldLogs]
    exact h.oldLogs_nodup w.keccak256 hblocks
  · have hhash : hash ∉ plan.oldBlocks.map blockHash := by
      intro hold
      rw [hlists, if_pos hold] at hmem
      cases hmem
    rw [hlists, if_neg hhash] at hmem
    obtain ⟨state, hbefore, hon, rfl, hrest⟩ := h.listed hash reference hmem
    exact ⟨state, (hactive hon).mpr ⟨hbefore, hhash⟩, hon, rfl, hrest⟩
  · obtain ⟨hbefore, hhash⟩ := (hactive hon).mp hafter
    rw [hlists, if_neg hhash]
    exact h.referenced logicalLogId state hbefore hon
  · rw [hlists]
    split
    · exact nodup_nil
    · exact h.once hash
  · have htally := h.count.clear hblocks (fun hash hhash => by rw [hcleared hash hhash]; rfl) hkept
    rw [hcount, hplanned.removedCount]
    have hsum := s.sum_references c fun _ => 1
    simp only [map_const', sum_replicate, smul_eq_mul, mul_one] at hsum
    rw [hsum]
    exact htally
  · have htally := h.bytes.clear hblocks (fun hash hhash => by rw [hcleared hash hhash]; rfl) hkept
    rw [hbytes, hplanned.removedBytes, s.sum_references c LogReference.bytes]
    exact htally

/-! ### Whole runs -/

theorem length_records_le (s : Store) (logicalLogId : Text) :
    (s.records logicalLogId).length ≤ s.stream.length :=
  length_filter_le _ _

theorem books_foldl_installHead (heads : List DurableHead) (s : Store) :
    (heads.foldl installHead s).books = s.books :=
  foldlRecOn (motive := fun s' : Store => s'.books = s.books) heads _ rfl fun s' hs' head _ =>
    (s'.books_installHead head).trans hs'

theorem Consistent.foldl_applyEvent (h : s.Consistent) (reorgId : Text)
    {events : List DurableEvent} (hnodup : (events.map DurableEvent.logicalLogId).Nodup)
    (hevents : ∀ event ∈ events, Writable false (s.logView event.logicalLogId)) :
    (events.foldl (applyEvent reorgId) s).Consistent :=
  foldl_of_distinct (P := Consistent) (Q := fun _ view => Writable false view)
    (fun s event _ => s.logView_journalEvent event [("reorgId", reorgId)])
    (fun _ _ h hevent => h.journalEvent hevent _) hnodup h hevents

theorem Consistent.commit (h : s.Consistent) (hplanned : s.Planned w c plan)
    (hchecked : s.Checked plan) (hshort : s.stream.length + 1 < 10 ^ 14)
    (hblocks : (c.oldBlocks.map blockHash).Nodup)
    (hevents : (c.newEvents.map DurableEvent.logicalLogId).Nodup) :
    (s.commit plan).1.Consistent := by
  have hlength : ∀ logicalLogId, (s.records logicalLogId).length + 1 < 10 ^ 14 := fun _ =>
    lt_of_le_of_lt (succ_le_succ (s.length_records_le _)) hshort
  let begun := { s with reorgManifest := true }.control plan "begin" plan.beginRecordId
  have hsame : begun.books = s.books :=
    books_control { s with reorgManifest := true } hplanned.controlFields "begin" plan.beginRecordId
  have hplannedBegun : begun.Planned w c plan := { hplanned with }
  have hold : ∀ log ∈ plan.oldLogs, (s.logState log.logicalLogId).any (·.active) = true := by
    intro log hlog
    obtain ⟨-, state, hstate, hactive⟩ := hchecked.oldLogs log hlog
    rw [hstate, Option.any_some, hactive]
  have hreverted : (begun.revertBranch plan).Consistent := by
    refine (h.congr hsame).revertBranch hplannedBegun hblocks (fun log hlog => ?_)
      fun log hlog => ?_
    · obtain ⟨source, hsource⟩ := Option.isSome_iff_exists.mp (hchecked.oldLogs log hlog).1
      exact Option.isSome_iff_exists.mpr ⟨source, entry_xadd_of_some hsource⟩
    · rw [logView_of_books hsame]
      exact ⟨hold log hlog, hlength log.logicalLogId⟩
  have hswitched : (s.switched plan).Consistent :=
    hreverted.congr (books_foldl_installHead plan.newHeads _)
  have happlied := hswitched.foldl_applyEvent plan.reorgId (hplanned.newEvents ▸ hevents)
    fun event hevent => ?_
  · have htip : ((plan.newEvents.foldl (applyEvent plan.reorgId) (s.switched plan)).setTip
        plan).Consistent := happlied.congr rfl
    exact (htip.congr
      (books_control _ hplanned.controlFields "commit" plan.commitRecordId)).congr rfl
  -- a log to be applied is idle, so it is none of the reverted ones
  have hidle := hchecked.newEvents event hevent
  have hne : ∀ log ∈ plan.oldLogs, log.logicalLogId ≠ event.logicalLogId := by
    intro log hlog heq
    have hactive := hold log hlog
    rw [heq, hidle] at hactive
    cases hactive
  obtain ⟨hstream, hstate⟩ := begun.revertBranch_logs plan
  have hview : (s.switched plan).logView event.logicalLogId = s.logView event.logicalLogId :=
    calc (s.switched plan).logView event.logicalLogId
        = (begun.revertBranch plan).logView event.logicalLogId :=
          logView_of_books (books_foldl_installHead plan.newHeads _) _
      _ = (plan.oldLogs.foldl (revertLog plan.reorgId) begun).logView event.logicalLogId :=
          Prod.ext (congrFun hstate _) (records_congr hstream)
      _ = begun.logView event.logicalLogId := foldl_revertLog_of_ne plan.reorgId hne
      _ = s.logView event.logicalLogId := logView_of_books hsame _
  rw [hview]
  exact ⟨hidle, hlength event.logicalLogId⟩

end Store

/-- The id under which a log is journaled. -/
def logIdOf (w : Worker) (log : ContractLog) : Option Text :=
  (DurableEvent.fromLog w.keccak256 log).toOption.map DurableEvent.logicalLogId

/-- A correction names each block of the old branch once, and each replacement log once. -/
def Call.NamesOnce (w : Worker) : Call → Prop
  | .correct resolution _ logs _ _ _ =>
    (resolution.oldBranch.map (·.cursor.blockHash)).Nodup ∧ (logs.map (logIdOf w)).Nodup
  | _ => True

instance (w : Worker) : DecidablePred (Call.NamesOnce w)
  | .head _ => inferInstanceAs (Decidable True)
  | .event _ => inferInstanceAs (Decidable True)
  | .correct .. => inferInstanceAs (Decidable (_ ∧ _))

/-- What a call has to meet: it names things once, and a revision still fits the fourteen digits of
a Lua number. -/
def Store.Unambiguous (w : Worker) (s : Store) (call : Call) : Prop :=
  s.stream.length + 1 < 10 ^ 14 ∧ call.NamesOnce w

instance (w : Worker) (s : Store) (call : Call) : Decidable (s.Unambiguous w call) :=
  inferInstanceAs (Decidable (_ ∧ _))

namespace Store

variable {s : Store} {w : Worker} {resolution : ForkResolution} {c : ReorgCorrection}
  {logs : List ContractLog} {core : Address}

theorem oldBlocks_nodup (hcorrected : Corrected w resolution logs core c)
    (hnodup : (resolution.oldBranch.map (·.cursor.blockHash)).Nodup) :
    (c.oldBlocks.map blockHash).Nodup := by
  refine hcorrected.oldBlocks.nodup_map ?_ hnodup
  rintro block _ block' _ ⟨hash, hhash, rfl⟩ ⟨hash', hhash', rfl⟩ heq
  rw [hhash, hhash', hashText_injective heq]

theorem newEvents_nodup (hcorrected : Corrected w resolution logs core c)
    (hnodup : (logs.map (logIdOf w)).Nodup) :
    (c.newEvents.map DurableEvent.logicalLogId).Nodup := by
  refine hcorrected.newEvents.nodup_map ?_ hnodup
  rintro log _ log' _ ⟨_, original, -, -, horiginal, rfl⟩ ⟨_, original', -, -, horiginal', rfl⟩ heq
  rw [logIdOf, logIdOf, horiginal, horiginal']
  exact congrArg some heq

theorem Consistent.perform (h : s.Consistent) {call : Call} (hcall : s.Unambiguous w call) :
    (s.perform w call).Consistent := by
  obtain ⟨hshort, hnames⟩ := hcall
  rcases s.perform_cases w call with hsame | ⟨block, head, promote, -, -, -, -, _, hwrite⟩ |
    ⟨log, event, -, -, -, -, hidle, -, _, _, hwrite⟩ |
    ⟨resolution, _, logs, _, _, _, c, plan, rfl, hc, hplanned, hchecked, -, hwrite⟩
  · rwa [hsame]
  · rw [hwrite, writeHead_eq]
    exact h.congr (s.books_installHead head)
  · rw [hwrite]
    have hlength := lt_of_le_of_lt (succ_le_succ (s.length_records_le event.logicalLogId)) hshort
    exact (h.journalEvent ⟨hidle, hlength⟩ []).congr rfl
  · have hcorrected := ReorgCorrection.new_eq_ok hc
    rw [hwrite]
    exact h.commit hplanned hchecked hshort (oldBlocks_nodup hcorrected hnames.1)
      (newEvents_nodup hcorrected hnames.2)

end Store

/-- **The durable records of a log form a consistent history**, in every store reached by calls that
name each block and each log once.  The corrections of a source that pass validation do so for
blocks. -/
theorem durable_records_consistent (w : Worker) {s : Store}
    (hrun : Run (Store.perform w) (Store.Unambiguous w) (Store.initial w.fingerprint) s) :
    s.Consistent ∧ ∀ (env : Client.Platform) (c : Client.ChainCorrection), c.validate env = .ok () →
      (c.oldBranch.map (·.cursor.blockHash)).Nodup ∧
        (c.newBranch.map (·.cursor.blockHash)).Nodup := by
  refine ⟨?_, fun env c => Client.ChainCorrection.hashes_nodup_of_validate⟩
  exact hrun.invariant (.initial w.fingerprint) fun _ _ h hcall => h.perform hcall

theorem durable_records_consistent_returning :
    (returningStore 4).Consistent ∧
      ∃ logicalLogId, ((returningStore 4).records logicalLogId).map (·.field "operation") =
        [some "applied".toList, some "reverted".toList] := by
  have hrun : Run (Store.perform smallWorker)
      (fun s call => decide (s.Unambiguous smallWorker call) = true)
      (Store.initial smallWorker.fingerprint) (returningStore 4) :=
    Run.ofList (fun s call => decide (Store.Unambiguous smallWorker s call)) .refl
      (by decide +kernel)
  have hconsistent := durable_records_consistent smallWorker
    (hrun.weaken fun _ _ hcall => of_decide_eq_true hcall)
  exact ⟨hconsistent.1, (logIdOf smallWorker (secondLog 0xa2)).getD [], by decide +kernel⟩

/-! ### A branch that names a block twice -/

/-- A block 3 with the hash of its parent. -/
def repeatedBlock : BlockRef := blockOf 3 0xb2 0xb2 .canonical

/-- To a branch that names its block twice. -/
def toRepeated : ForkResolution where
  commonAncestor := rootBlock
  oldTip := secondBlock 0xa2
  newTip := repeatedBlock
  oldBranch := [secondBlock 0xa2]
  newBranch := [secondBlock 0xb2, repeatedBlock]
  oldLinked := linked_secondBlock 0xa2
  newLinked := ⟨rfl, rfl, rfl, rfl, rfl⟩

/-- And back to the finalized block. -/
def fromRepeated : ForkResolution where
  commonAncestor := rootBlock
  oldTip := repeatedBlock
  newTip := rootBlock
  oldBranch := [secondBlock 0xb2, repeatedBlock]
  newBranch := []
  oldLinked := ⟨rfl, rfl, rfl, rfl, rfl⟩
  newLinked := rfl

def repeatedStore : Store :=
  [Call.head rootBlock, .head (secondBlock 0xa2),
    .correct toRepeated rootBlock [secondLog 0xb2] 0xc0 ampleLimits ⟨0, 0⟩,
    .correct fromRepeated rootBlock [] 0xc0 ampleLimits ⟨0, 0⟩].foldl
      (Store.perform smallWorker) (.initial smallWorker.fingerprint)

/-- **A block that a branch names twice has its logs reverted twice**, and the counters go below
zero. -/
theorem block_named_twice_reverted_twice :
    ∃ (w : Worker) (s : Store) (logicalLogId : Text),
      Run (Store.perform w) (fun _ _ => True) (Store.initial w.fingerprint) s ∧
      (s.records logicalLogId).map (·.field "operation") =
        [some "applied".toList, some "reverted".toList, some "reverted".toList] ∧
      s.usage.logReferences = -1 :=
  ⟨smallWorker, repeatedStore, (logIdOf smallWorker (secondLog 0xb2)).getD [], Run.foldl .refl _,
    by decide +kernel, by decide +kernel⟩

end Lunarbase.EventWorker
