import Lunarbase.EventWorker.Lifecycle
import Lunarbase.Support.Items
import Lunarbase.Support.Update

/-!
# EventWorker — Branches

What a committed correction leaves of the store: the canonical heights are those of before without
the old branch and with the new one (`commit_height`), and a log is active if it belongs to the new
branch or was active before and belongs to no block of the old one (`commit_active`).

For the second it takes that the log references of a block are complete (`Store.Logged`, an
invariant of every run): every active log stands in the list of its block, and its record in the
stream carries its height.
-/

namespace Lunarbase.EventWorker

open Client (BlockRef ContractLog)
open List Except DurableHead Function

namespace Store

variable {s : Store} {recordType operation : String} {recordId : Text}
  {fields : List (String × Text)}

/-! ### The stream -/

/-- The ids in the stream are those given out so far. -/
def Numbered (s : Store) : Prop := ∀ entry ∈ s.stream, entry.id < s.nextId

theorem Numbered.xadd (h : s.Numbered) :
    (s.xadd recordType operation recordId fields).Numbered := by
  intro entry hentry
  have hlength : (s.xadd recordType operation recordId fields).nextId = s.nextId + 1 := by
    simp [nextId, Store.xadd]
  rw [hlength]
  rcases mem_append.mp hentry with hold | hnew
  · exact (h entry hold).trans (Nat.lt_succ_self _)
  rw [mem_singleton.mp hnew]
  exact Nat.lt_succ_self _

theorem entry_xadd_of_some {id : StreamId} {entry : StreamEntry} (h : s.entry id = some entry) :
    (s.xadd recordType operation recordId fields).entry id = some entry := by
  unfold Store.entry Store.xadd
  rw [find?_append]
  unfold Store.entry at h
  rw [h]
  rfl

theorem Numbered.entry_nextId (h : s.Numbered) :
    (s.xadd recordType operation recordId fields).entry s.nextId =
      some (s.appended recordType operation recordId fields) := by
  have hnone : s.stream.find? (·.id = s.nextId) = none := by
    refine find?_eq_none.mpr fun entry hentry => ?_
    simpa using (h entry hentry).ne
  unfold Store.entry Store.xadd
  rw [find?_append, hnone]
  simp [appended]

/-- The height in the record through which a log is active. -/
def journaledHeight (s : Store) (state : LogState) : Option Text :=
  (s.entry state.streamId).bind (·.field "blockNumber")

variable {height logicalLogId hash key : Text} {state : LogState} {heads : List DurableHead}
  {head : DurableHead} {header : HeaderEnvelope} {plan : Plan} {c : ReorgCorrection} {w : Worker}

theorem journaledHeight_xadd_of_some (h : s.journaledHeight state = some height) :
    (s.xadd recordType operation recordId fields).journaledHeight state = some height := by
  obtain ⟨entry, hentry, hfield⟩ := Option.bind_eq_some_iff.mp h
  exact Option.bind_eq_some_iff.mpr ⟨entry, entry_xadd_of_some hentry, hfield⟩

/-! ### References -/

/-- Every active log stands in the list of its block. -/
def Referenced (s : Store) : Prop :=
  ∀ logicalLogId state, s.logState logicalLogId = some state → state.active = true →
    ∃ reference ∈ s.blockLogs state.blockHash, reference.logicalLogId = logicalLogId

/-- Every active log stands in the list of its block, and its record carries its height. -/
structure Logged (s : Store) : Prop where
  numbered : s.Numbered
  referenced : s.Referenced
  heighted : ∀ logicalLogId state, s.logState logicalLogId = some state → state.active = true →
    ∃ number, s.journaledHeight state = some (decimal number)

theorem Referenced.journalEvent (h : s.Referenced) (event : DurableEvent)
    (extra : List (String × Text)) : (s.journalEvent event extra).Referenced := by
  intro logicalLogId state hstate hactive
  change ∃ reference ∈ Function.update s.blockLogs event.blockHash _ state.blockHash, _
  rcases update_some_eq_some.mp hstate with ⟨rfl, rfl⟩ | ⟨-, hold⟩
  · rw [update_self]
    exact ⟨_, mem_append_right _ (mem_singleton_self _), rfl⟩
  obtain ⟨reference, hmem, hname⟩ := h logicalLogId state hold hactive
  refine ⟨reference, ?_, hname⟩
  by_cases hblock : state.blockHash = event.blockHash
  · rw [hblock, update_self]
    exact mem_append_left _ (hblock ▸ hmem)
  · rwa [update_of_ne hblock]

theorem Logged.congr (h : s.Logged) {s' : Store} (hstream : s'.stream = s.stream)
    (hstate : s'.logState = s.logState) (hlogs : s'.blockLogs = s.blockLogs) : s'.Logged where
  numbered := by
    unfold Numbered nextId
    rw [hstream]
    exact h.numbered
  referenced := by
    unfold Referenced
    rw [hstate, hlogs]
    exact h.referenced
  heighted := by
    unfold journaledHeight Store.entry
    rw [hstate, hstream]
    exact h.heighted

theorem Logged.control (h : s.Logged) (plan : Plan) (operation : String) (recordId : Text) :
    (s.control plan operation recordId).Logged where
  numbered := h.numbered.xadd
  referenced := h.referenced
  heighted logicalLogId state hstate hactive := by
    obtain ⟨number, hnumber⟩ := h.heighted logicalLogId state hstate hactive
    exact ⟨number, journaledHeight_xadd_of_some hnumber⟩

theorem Logged.journalEvent (h : s.Logged) {event : DurableEvent} {extra : List (String × Text)}
    {number : Nat}
    (hheight : (extra ++ event.fields).lookup "blockNumber" = some (decimal number)) :
    (s.journalEvent event extra).Logged where
  numbered := h.numbered.xadd
  referenced := h.referenced.journalEvent event extra
  heighted := by
    intro logicalLogId state hstate hactive
    rcases update_some_eq_some.mp hstate with ⟨rfl, rfl⟩ | ⟨-, hold⟩
    · refine ⟨number, Option.bind_eq_some_iff.mpr ⟨_, h.numbered.entry_nextId, ?_⟩⟩
      exact hheight
    · obtain ⟨number', hnumber⟩ := h.heighted logicalLogId state hold hactive
      exact ⟨number', journaledHeight_xadd_of_some hnumber⟩

theorem Logged.revertLog (h : s.Logged) (reorgId : Text) (log : OldLog) :
    (revertLog reorgId s log).Logged := by
  unfold Store.revertLog
  split
  · exact h
  have hothers : ∀ logicalLogId state, Function.update s.logState log.logicalLogId
      (some ⟨false, s.nextRevision log.logicalLogId, log.recordId, s.nextId, log.blockHash⟩)
        logicalLogId = some state → state.active = true →
      s.logState logicalLogId = some state := by
    intro logicalLogId state hstate hactive
    rcases update_some_eq_some.mp hstate with ⟨-, rfl⟩ | ⟨-, hold⟩
    · cases hactive
    · exact hold
  refine ⟨h.numbered.xadd, fun logicalLogId state hstate hactive => ?_,
    fun logicalLogId state hstate hactive => ?_⟩
  · exact h.referenced logicalLogId state (hothers _ _ hstate hactive) hactive
  obtain ⟨number, hnumber⟩ :=
    h.heighted logicalLogId state (hothers _ _ hstate hactive) hactive
  exact ⟨number, journaledHeight_xadd_of_some hnumber⟩

variable {block : CorrectionBlock}

/-- A block is removed once none of its logs is active. -/
theorem Logged.removeBlock (h : s.Logged)
    (hgone : ∀ logicalLogId state, s.logState logicalLogId = some state → state.active = true →
      state.blockHash ≠ block.blockHash) : (s.removeBlock block).Logged where
  numbered := h.numbered
  referenced := by
    intro logicalLogId state hstate hactive
    change ∃ reference ∈ Function.update s.blockLogs block.blockHash [] state.blockHash, _
    rw [update_of_ne (hgone logicalLogId state hstate hactive)]
    exact h.referenced logicalLogId state hstate hactive
  heighted := h.heighted

/-! ### Reverting a branch -/

variable (reorgId : Text)

/-- A log that is active after the reversals was active before, and is none of the reverted. -/
theorem foldl_revertLog_active (logs : List OldLog)
    (hentries : ∀ log ∈ logs, (s.entry log.sourceStreamId).isSome = true)
    (hstate : (logs.foldl (revertLog reorgId) s).logState logicalLogId = some state)
    (hactive : state.active = true) :
    s.logState logicalLogId = some state ∧ ∀ log ∈ logs, log.logicalLogId ≠ logicalLogId := by
  induction logs generalizing s with
  | nil => exact ⟨hstate, fun log hlog => nomatch hlog⟩
  | cons log rest ih =>
    obtain ⟨source, hsource⟩ :=
      Option.isSome_iff_exists.mp (hentries log mem_cons_self)
    have hlater : ∀ log' ∈ rest, ((revertLog reorgId s log).entry log'.sourceStreamId).isSome =
        true := by
      intro log' hlog'
      obtain ⟨source', hsource'⟩ :=
        Option.isSome_iff_exists.mp (hentries log' (mem_cons_of_mem _ hlog'))
      unfold revertLog
      rw [hsource]
      exact Option.isSome_iff_exists.mpr ⟨source', entry_xadd_of_some hsource'⟩
    obtain ⟨hbefore, hnone⟩ := ih hlater hstate
    unfold revertLog at hbefore
    rw [hsource] at hbefore
    rcases update_some_eq_some.mp hbefore with ⟨-, rfl⟩ | ⟨hid, hbefore⟩
    · cases hactive
    · exact ⟨hbefore, forall_mem_cons.mpr ⟨Ne.symm hid, hnone⟩⟩

/-! ### Applying a branch -/

theorem journaledHeight_foldl_applyEvent (h : s.journaledHeight state = some height)
    (reorgId : Text) (events : List DurableEvent) :
    (events.foldl (applyEvent reorgId) s).journaledHeight state = some height :=
  foldlRecOn (motive := fun s : Store => s.journaledHeight state = some height) events _ h
    fun _ hs' _ _ => journaledHeight_xadd_of_some hs'

/-- A log of the new branch is active, through a record with its height; the state of any other
log is as before. -/
theorem foldl_applyEvent_cases (hnumbered : s.Numbered) (reorgId : Text)
    (events : List DurableEvent)
    (hstate : (events.foldl (applyEvent reorgId) s).logState logicalLogId = some state) :
    s.logState logicalLogId = some state ∨
      ∃ event ∈ events, event.logicalLogId = logicalLogId ∧ state.active = true ∧
        state.blockHash = event.blockHash ∧
        ∀ height, event.fields.lookup "blockNumber" = some height →
          (events.foldl (applyEvent reorgId) s).journaledHeight state = some height := by
  induction events generalizing s with
  | nil => exact .inl hstate
  | cons event rest ih =>
    have hnext : (applyEvent reorgId s event).Numbered := hnumbered.xadd
    rcases ih hnext hstate with hbefore | ⟨event', hmem, hrest⟩
    · rcases update_some_eq_some.mp hbefore with ⟨rfl, rfl⟩ | ⟨-, hbefore⟩
      · refine .inr ⟨event, mem_cons_self, rfl, rfl, rfl, fun height hheight => ?_⟩
        refine journaledHeight_foldl_applyEvent ?_ reorgId rest
        exact Option.bind_eq_some_iff.mpr ⟨_, hnumbered.entry_nextId, hheight⟩
      · exact .inl hbefore
    · exact .inr ⟨event', mem_cons_of_mem _ hmem, hrest⟩

theorem foldl_applyEvent_active (events : List DurableEvent)
    (h : (∃ event ∈ events, event.logicalLogId = logicalLogId) ∨
      (s.logState logicalLogId).any (·.active) = true) :
    ((events.foldl (applyEvent reorgId) s).logState logicalLogId).any (·.active) = true := by
  induction events generalizing s with
  | nil =>
    rcases h with ⟨event, hmem, -⟩ | hactive
    · cases hmem
    · exact hactive
  | cons event rest ih =>
    refine ih ?_
    change _ ∨ (Function.update s.logState event.logicalLogId _ logicalLogId).any _ = true
    by_cases hid : logicalLogId = event.logicalLogId
    · refine .inr ?_
      rw [hid, update_self]
      rfl
    rw [update_of_ne hid]
    rcases h with ⟨event', hmem, hname⟩ | hactive
    · rcases mem_cons.mp hmem with rfl | hrest
      · exact absurd hname.symm hid
      · exact .inl ⟨event', hrest, hname⟩
    · exact .inr hactive

variable (blocks : List CorrectionBlock)

theorem foldl_removeBlock_height :
    (blocks.foldl removeBlock s).canonicalHeight key = some hash ↔
      (∀ block ∈ blocks, block.blockNumber ≠ key) ∧ s.canonicalHeight key = some hash := by
  induction blocks generalizing s with
  | nil => simp
  | cons block rest ih =>
    rw [foldl_cons, ih, forall_mem_cons, removeBlock, update_none_eq_some]
    exact ⟨fun ⟨hrest, hne, h⟩ => ⟨⟨Ne.symm hne, hrest⟩, h⟩,
      fun ⟨⟨hne, hrest⟩, h⟩ => ⟨hrest, Ne.symm hne, h⟩⟩

theorem foldl_installHead_height (h : (heads.foldl installHead s).canonicalHeight key = some hash) :
    (∃ head ∈ heads, head.blockNumber = key ∧ head.blockHash = hash) ∨
      (∀ head ∈ heads, head.blockNumber ≠ key) ∧ s.canonicalHeight key = some hash := by
  induction heads generalizing s with
  | nil => exact .inr ⟨fun head hhead => absurd hhead not_mem_nil, h⟩
  | cons head rest ih =>
    rcases ih h with ⟨head', hmem, hhead'⟩ | ⟨hrest, hbefore⟩
    · exact .inl ⟨head', mem_cons_of_mem _ hmem, hhead'⟩
    rw [installHead_eq] at hbefore
    rcases update_some_eq_some.mp hbefore with ⟨rfl, rfl⟩ | ⟨hkey, hbefore⟩
    · exact .inl ⟨head, mem_cons_self, rfl, rfl⟩
    · exact .inr ⟨forall_mem_cons.mpr ⟨Ne.symm hkey, hrest⟩, hbefore⟩

theorem foldl_installHead_of_ne (h : ∀ head ∈ heads, head.blockNumber ≠ key) :
    (heads.foldl installHead s).canonicalHeight key = s.canonicalHeight key := by
  induction heads generalizing s with
  | nil => rfl
  | cons head rest ih =>
    obtain ⟨hne, hrest⟩ := forall_mem_cons.mp h
    rw [foldl_cons, ih hrest, installHead_eq]
    exact update_of_ne (Ne.symm hne) _ _

/-- The blocks of a branch of different heights are all mapped. -/
theorem foldl_installHead_mapped (hnodup : (heads.map blockNumber).Nodup) (hmem : head ∈ heads) :
    (heads.foldl installHead s).canonicalHeight head.blockNumber = some head.blockHash := by
  induction heads generalizing s with
  | nil => cases hmem
  | cons first rest ih =>
    obtain ⟨hfirst, hrest⟩ := nodup_cons.mp hnodup
    rcases mem_cons.mp hmem with rfl | hin
    · -- no later block of the branch has this height
      have hlater : ∀ head' ∈ rest, head'.blockNumber ≠ head.blockNumber :=
        fun head' hhead' heq => hfirst (heq ▸ mem_map_of_mem hhead')
      rw [foldl_cons, foldl_installHead_of_ne hlater, installHead_eq]
      exact update_self ..
    · exact ih hrest hin

theorem storeHeader_headers (h : (s.storeHeader head).headers hash = some header) :
    s.headers hash = some header ∨ hash = head.blockHash ∧ header = head.headerJson := by
  unfold storeHeader at h
  split at h
  · exact .inl h
  rcases update_some_eq_some.mp h with ⟨hhash, hheader⟩ | ⟨-, hbefore⟩
  · exact .inr ⟨hhash, hheader.symm⟩
  · exact .inl hbefore

theorem storeHeader_of_some (h : s.headers hash = some header) (head : DurableHead) :
    (s.storeHeader head).headers hash = some header := by
  unfold storeHeader
  split
  · exact h
  next hnone =>
    refine update_some_eq_some.mpr (.inr ⟨?_, h⟩)
    rintro rfl
    cases hnone.symm.trans h

/-- Afterwards the header of the head is there, unless another one was. -/
theorem storeHeader_self
    (h : ∀ header, s.headers head.blockHash = some header → header = head.headerJson) :
    (s.storeHeader head).headers head.blockHash = some head.headerJson := by
  unfold storeHeader
  split
  next header hsome => rw [hsome, h header hsome]
  · exact update_self ..

theorem foldl_installHead_headers (h : (heads.foldl installHead s).headers hash = some header) :
    s.headers hash = some header ∨
      ∃ head ∈ heads, head.blockHash = hash ∧ head.headerJson = header := by
  induction heads generalizing s with
  | nil => exact .inl h
  | cons head rest ih =>
    rcases ih h with hbefore | ⟨head', hmem, hhead'⟩
    · rcases storeHeader_headers hbefore with hkept | ⟨hhash, hheader⟩
      · exact .inl hkept
      · exact .inr ⟨head, mem_cons_self, hhash.symm, hheader.symm⟩
    · exact .inr ⟨head', mem_cons_of_mem _ hmem, hhead'⟩

theorem foldl_installHead_of_some (h : s.headers hash = some header) (heads : List DurableHead) :
    (heads.foldl installHead s).headers hash = some header :=
  foldlRecOn (motive := fun s : Store => s.headers hash = some header) heads _ h
    fun _ hs' head _ => storeHeader_of_some hs' head

/-- The headers of a branch of different hashes are all stored. -/
theorem foldl_installHead_stored (hnodup : (heads.map blockHash).Nodup)
    (hidentity : ∀ head ∈ heads, ∀ header, s.headers head.blockHash = some header →
      header = head.headerJson) (hmem : head ∈ heads) :
    (heads.foldl installHead s).headers head.blockHash = some head.headerJson := by
  induction heads generalizing s with
  | nil => cases hmem
  | cons first rest ih =>
    obtain ⟨hfirst, hrest⟩ := nodup_cons.mp hnodup
    obtain ⟨hself, hothers⟩ := forall_mem_cons.mp hidentity
    rcases mem_cons.mp hmem with rfl | hin
    · exact foldl_installHead_of_some (s := s.installHead head) (storeHeader_self hself) rest
    refine ih hrest (fun head' hhead' header hheader => ?_) hin
    rcases storeHeader_headers hheader with hbefore | ⟨hhash, -⟩
    · exact hothers head' hhead' header hbefore
    · exact absurd (hhash ▸ mem_map_of_mem hhead') hfirst

/-! ### The whole correction -/

/-- The parts of the store that reverting and journaling logs leave alone. -/
structure SameChain (s s' : Store) : Prop where
  fingerprint : s'.fingerprint = s.fingerprint
  headers : s'.headers = s.headers
  canonicalHeight : s'.canonicalHeight = s.canonicalHeight
  canonicalHead : s'.canonicalHead = s.canonicalHead
  finalizedHead : s'.finalizedHead = s.finalizedHead

theorem SameChain.trans {s₁ s₂ s₃ : Store} (h : SameChain s₁ s₂) (h' : SameChain s₂ s₃) :
    SameChain s₁ s₃ :=
  ⟨h'.fingerprint.trans h.fingerprint, h'.headers.trans h.headers,
    h'.canonicalHeight.trans h.canonicalHeight, h'.canonicalHead.trans h.canonicalHead,
    h'.finalizedHead.trans h.finalizedHead⟩

theorem SameChain.foldl {α : Type} {f : Store → α → Store} (hf : ∀ s a, SameChain s (f s a))
    (items : List α) (s : Store) : SameChain s (items.foldl f s) :=
  foldlRecOn items _ ⟨rfl, rfl, rfl, rfl, rfl⟩ fun s' hs' item _ => hs'.trans (hf s' item)

theorem sameChain_revertLog (s : Store) (log : OldLog) : SameChain s (revertLog reorgId s log) := by
  unfold revertLog
  split
  · exact ⟨rfl, rfl, rfl, rfl, rfl⟩
  · exact ⟨rfl, rfl, rfl, rfl, rfl⟩

theorem sameChain_applyEvent (s : Store) (event : DurableEvent) :
    SameChain s (applyEvent reorgId s event) := ⟨rfl, rfl, rfl, rfl, rfl⟩

section

variable (s : Store) (plan : Plan)

/-- The store when the correction has begun. -/
abbrev begun : Store :=
  { s with reorgManifest := true }.control plan "begin" plan.beginRecordId

/-- The store when the old branch is out and the new blocks are in. -/
def switched : Store := plan.newHeads.foldl installHead ((s.begun plan).revertBranch plan)

theorem commit_eq :
    (s.commit plan).1 =
      { ((plan.newEvents.foldl (applyEvent plan.reorgId) (s.switched plan)).setTip plan).control
          plan
          "commit" plan.commitRecordId with reorgManifest := false } := rfl

theorem commit_canonicalHeight :
    (s.commit plan).1.canonicalHeight = (s.switched plan).canonicalHeight :=
  (SameChain.foldl (sameChain_applyEvent _) _ _).canonicalHeight

theorem commit_headers : (s.commit plan).1.headers = (s.switched plan).headers :=
  (SameChain.foldl (sameChain_applyEvent _) _ _).headers

theorem releaseReferences_eq (count bytes : Nat) :
    s.releaseReferences count bytes =
      { s with usage := (s.releaseReferences count bytes).usage } := by
  unfold releaseReferences
  split
  · rfl
  · rfl

/-- The heads of a branch change the chain and the counters only. -/
theorem foldl_installHead_eq (heads : List DurableHead) :
    ∃ headers canonicalHeight usage, heads.foldl installHead s =
      { s with headers := headers, canonicalHeight := canonicalHeight, usage := usage } := by
  induction heads generalizing s with
  | nil => exact ⟨_, _, _, rfl⟩
  | cons head rest ih =>
    obtain ⟨_, _, _, hrest⟩ := ih (s.installHead head)
    rw [foldl_cons, hrest, installHead_eq]
    exact ⟨_, _, _, rfl⟩

theorem foldl_removeBlock_eq :
    ∃ canonicalHeight blockLogs, blocks.foldl removeBlock s =
      { s with canonicalHeight := canonicalHeight, blockLogs := blockLogs } := by
  induction blocks generalizing s with
  | nil => exact ⟨_, _, rfl⟩
  | cons block rest ih =>
    obtain ⟨_, _, hrest⟩ := ih (s.removeBlock block)
    rw [foldl_cons, hrest]
    exact ⟨_, _, rfl⟩

/-- Beside the logs, the old branch takes its heights, its lists and its share of the counters. -/
theorem revertBranch_eq :
    ∃ canonicalHeight blockLogs usage, s.revertBranch plan =
      { plan.oldLogs.foldl (revertLog plan.reorgId) s with
        canonicalHeight := canonicalHeight, blockLogs := blockLogs, usage := usage } := by
  unfold revertBranch
  obtain ⟨_, _, hremoved⟩ :=
    foldl_removeBlock_eq plan.oldBlocks (plan.oldLogs.foldl (revertLog plan.reorgId) s)
  rw [releaseReferences_eq, hremoved]
  exact ⟨_, _, _, rfl⟩

theorem switched_eq :
    ∃ headers canonicalHeight blockLogs usage, s.switched plan =
      { plan.oldLogs.foldl (revertLog plan.reorgId) (s.begun plan) with
        headers := headers, canonicalHeight := canonicalHeight, blockLogs := blockLogs,
        usage := usage } := by
  unfold switched
  obtain ⟨_, _, _, hreverted⟩ := (s.begun plan).revertBranch_eq plan
  obtain ⟨_, _, _, hinstalled⟩ := foldl_installHead_eq _ plan.newHeads
  rw [hinstalled, hreverted]
  exact ⟨_, _, _, _, rfl⟩

theorem commit_fixed :
    (s.commit plan).1.fingerprint = s.fingerprint ∧
      (s.commit plan).1.finalizedHead = s.finalizedHead := by
  have happlied := SameChain.foldl (sameChain_applyEvent plan.reorgId) plan.newEvents
    (s.switched plan)
  have hreverted := SameChain.foldl (sameChain_revertLog plan.reorgId) plan.oldLogs (s.begun plan)
  obtain ⟨_, _, _, _, hswitched⟩ := s.switched_eq plan
  rw [hswitched] at happlied
  rw [commit_eq, hswitched]
  exact ⟨happlied.fingerprint.trans hreverted.fingerprint,
    happlied.finalizedHead.trans hreverted.finalizedHead⟩

theorem revertBranch_headers : (s.revertBranch plan).headers = s.headers := by
  obtain ⟨_, _, _, hreverted⟩ := s.revertBranch_eq plan
  rw [hreverted]
  exact (SameChain.foldl (sameChain_revertLog _) _ _).headers

end

theorem revertBranch_height :
    (s.revertBranch plan).canonicalHeight key = some hash ↔
      (∀ block ∈ plan.oldBlocks, block.blockNumber ≠ key) ∧ s.canonicalHeight key = some hash := by
  unfold revertBranch
  rw [releaseReferences_eq]
  refine (foldl_removeBlock_height _).trans ?_
  rw [(SameChain.foldl (sameChain_revertLog _) _ _).canonicalHeight]

/-- A height is mapped to a block of the new branch, or as before when neither branch has it. -/
theorem commit_height (h : (s.commit plan).1.canonicalHeight key = some hash) :
    (∃ head ∈ plan.newHeads, head.blockNumber = key ∧ head.blockHash = hash) ∨
      (∀ head ∈ plan.newHeads, head.blockNumber ≠ key) ∧
        (∀ block ∈ plan.oldBlocks, block.blockNumber ≠ key) ∧
        s.canonicalHeight key = some hash := by
  rw [commit_canonicalHeight] at h
  rcases foldl_installHead_height h with hnew | ⟨hnew, hbefore⟩
  · exact .inl hnew
  have hreverted := revertBranch_height.mp hbefore
  exact .inr ⟨hnew, hreverted⟩

/-- A header is one of before or one of the new branch. -/
theorem commit_header (h : (s.commit plan).1.headers hash = some header) :
    s.headers hash = some header ∨
      ∃ head ∈ plan.newHeads, head.blockHash = hash ∧ head.headerJson = header := by
  rw [commit_headers] at h
  rcases foldl_installHead_headers h with hbefore | hnew
  · rw [revertBranch_headers] at hbefore
    exact .inl hbefore
  · exact .inr hnew

theorem commit_header_of_some (h : s.headers hash = some header) (plan : Plan) :
    (s.commit plan).1.headers hash = some header := by
  rw [commit_headers]
  refine foldl_installHead_of_some ?_ plan.newHeads
  rw [revertBranch_headers]
  exact h

theorem commit_mapped (hnodup : (plan.newHeads.map blockNumber).Nodup)
    (hmem : head ∈ plan.newHeads) :
    (s.commit plan).1.canonicalHeight head.blockNumber = some head.blockHash := by
  rw [commit_canonicalHeight]
  exact foldl_installHead_mapped hnodup hmem

theorem commit_stored (hnodup : (plan.newHeads.map blockHash).Nodup)
    (hchecked : s.Checked plan) (hmem : head ∈ plan.newHeads) :
    (s.commit plan).1.headers head.blockHash = some head.headerJson := by
  rw [commit_headers]
  refine foldl_installHead_stored hnodup (fun head' hhead' header hheader => ?_) hmem
  rw [revertBranch_headers] at hheader
  exact hchecked.newHeads head' hhead' header hheader

theorem commit_height_of_some (hnew : ∀ head ∈ plan.newHeads, head.blockNumber ≠ key)
    (hold : ∀ block ∈ plan.oldBlocks, block.blockNumber ≠ key)
    (h : s.canonicalHeight key = some hash) :
    (s.commit plan).1.canonicalHeight key = some hash := by
  rw [commit_canonicalHeight]
  refine (foldl_installHead_of_ne hnew).trans ?_
  exact revertBranch_height.mpr ⟨hold, h⟩

/-! ### The logs of a correction -/

theorem Logged.foldl_removeBlock (h : s.Logged) (blocks : List CorrectionBlock)
    (hgone : ∀ logicalLogId state, s.logState logicalLogId = some state → state.active = true →
      ∀ block ∈ blocks, state.blockHash ≠ block.blockHash) :
    (blocks.foldl Store.removeBlock s).Logged := by
  induction blocks generalizing s with
  | nil => exact h
  | cons block rest ih =>
    have hfirst : (s.removeBlock block).Logged := h.removeBlock fun logicalLogId state hstate
      hactive => hgone logicalLogId state hstate hactive block mem_cons_self
    exact ih hfirst fun logicalLogId state hstate hactive block' hblock' =>
      hgone logicalLogId state hstate hactive block' (mem_cons_of_mem _ hblock')

theorem mem_materializeOldLogs (keccak256 : List UInt8 → B256) {reference : LogReference}
    (hblock : block ∈ c.oldBlocks) (hreference : reference ∈ s.blockLogs block.blockHash) :
    ∃ log ∈ s.materializeOldLogs keccak256 c, log.logicalLogId = reference.logicalLogId :=
  ⟨_, mem_flatMap.mpr ⟨block, mem_reverse.mpr hblock,
    mem_map_of_mem (mem_reverse.mpr hreference)⟩, rfl⟩

/-- The records of before stay in the stream. -/
theorem journaledHeight_commit (h : s.journaledHeight state = some height) (plan : Plan) :
    (s.commit plan).1.journaledHeight state = some height := by
  have hbegun : (s.begun plan).journaledHeight state = some height :=
    journaledHeight_xadd_of_some h
  have hswitched : (s.switched plan).journaledHeight state = some height := by
    obtain ⟨_, _, _, _, hswitched⟩ := s.switched_eq plan
    rw [hswitched]
    refine foldlRecOn (motive := fun s : Store => s.journaledHeight state = some height)
      plan.oldLogs _ hbegun fun s' h' log _ => ?_
    unfold revertLog
    split
    · exact h'
    · exact journaledHeight_xadd_of_some h'
  exact journaledHeight_xadd_of_some
    (journaledHeight_foldl_applyEvent hswitched plan.reorgId plan.newEvents)

section

variable (hlogged : s.Logged) (hplanned : s.Planned w c plan) (hchecked : s.Checked plan)

include hlogged hplanned hchecked

/-- The logs that are active once the old branch is out: those of other blocks. -/
theorem reverted_active
    (hstate : (plan.oldLogs.foldl (revertLog plan.reorgId) (s.begun plan)).logState logicalLogId =
      some state) (hactive : state.active = true) :
    s.logState logicalLogId = some state ∧
      ∀ block ∈ plan.oldBlocks, state.blockHash ≠ block.blockHash := by
  have hentries : ∀ log ∈ plan.oldLogs,
      ((s.begun plan).entry log.sourceStreamId).isSome = true := by
    intro log hlog
    obtain ⟨source, hsource⟩ := Option.isSome_iff_exists.mp (hchecked.oldLogs log hlog).1
    exact Option.isSome_iff_exists.mpr ⟨source, entry_xadd_of_some hsource⟩
  obtain ⟨hbefore, hother⟩ := foldl_revertLog_active _ _ hentries hstate hactive
  refine ⟨hbefore, fun block hblock heq => ?_⟩
  -- a log of an old block is referenced there, so the plan reverts it
  obtain ⟨reference, hreference, hname⟩ := hlogged.referenced logicalLogId state hbefore hactive
  rw [heq] at hreference
  obtain ⟨log, hlog, hlogName⟩ := mem_materializeOldLogs w.keccak256
    (hplanned.oldBlocks ▸ hblock) hreference
  exact hother log (hplanned.oldLogs ▸ hlog) (hlogName.trans hname)

theorem Logged.switched : (s.switched plan).Logged := by
  have hmanifest : { s with reorgManifest := true }.Logged := hlogged.congr rfl rfl rfl
  have hbegun := hmanifest.control plan "begin" plan.beginRecordId
  have hreverted := foldlRecOn (motive := Logged) plan.oldLogs (Store.revertLog plan.reorgId)
    hbegun fun _ h log _ => h.revertLog _ log
  have hremoved := hreverted.foldl_removeBlock plan.oldBlocks
    fun logicalLogId state hstate hactive =>
      (reverted_active hlogged hplanned hchecked hstate hactive).2
  unfold Store.switched revertBranch
  obtain ⟨_, _, _, hinstalled⟩ := foldl_installHead_eq _ plan.newHeads
  rw [hinstalled, releaseReferences_eq]
  exact hremoved.congr rfl rfl rfl

/-- The active logs after a correction: those of the new branch, and those that were active before
and belong to no block of the old one. -/
theorem commit_active (hstate : (s.commit plan).1.logState logicalLogId = some state)
    (hactive : state.active = true) :
    (s.logState logicalLogId = some state ∧
        ∀ block ∈ plan.oldBlocks, state.blockHash ≠ block.blockHash) ∨
      ∃ event ∈ plan.newEvents, event.logicalLogId = logicalLogId ∧
        state.blockHash = event.blockHash ∧
        ∀ height, event.fields.lookup "blockNumber" = some height →
          (s.commit plan).1.journaledHeight state = some height := by
  rcases foldl_applyEvent_cases (hlogged.switched hplanned hchecked).numbered plan.reorgId
    plan.newEvents hstate with hbefore | ⟨event, hevent, hname, -, hblock, hheight⟩
  · obtain ⟨_, _, _, _, hswitched⟩ := s.switched_eq plan
    rw [hswitched] at hbefore
    exact .inl (reverted_active hlogged hplanned hchecked hbefore hactive)
  · refine .inr ⟨event, hevent, hname, hblock, fun height hlookup => ?_⟩
    exact journaledHeight_xadd_of_some (hheight height hlookup)

theorem Logged.commit (hheights : ∀ event ∈ plan.newEvents, ∃ number,
      event.fields.lookup "blockNumber" = some (decimal number)) : (s.commit plan).1.Logged := by
  have happlied : (plan.newEvents.foldl (applyEvent plan.reorgId) (s.switched plan)).Logged := by
    refine foldlRecOn (motive := Logged) plan.newEvents _ (hlogged.switched hplanned hchecked)
      fun s' h event hevent => ?_
    obtain ⟨number, hnumber⟩ := hheights event hevent
    have hlookup : ([("reorgId", plan.reorgId)] ++ event.fields).lookup "blockNumber" =
        some (decimal number) := hnumber
    exact h.journalEvent hlookup
  have htip : ((plan.newEvents.foldl (applyEvent plan.reorgId) (s.switched plan)).setTip
      plan).Logged := happlied.congr rfl rfl rfl
  exact (htip.control plan "commit" plan.commitRecordId).congr rfl rfl rfl

end

end Store

/-! ### What a correction is made of -/

/-- The parts of a correction come from the resolved branches and the replacement logs. -/
structure Corrected (w : Worker) (resolution : ForkResolution) (logs : List ContractLog)
    (core : Address) (c : ReorgCorrection) : Prop where
  ancestor : c.ancestor = resolution.commonAncestor
  oldTip : c.oldTip = resolution.oldTip
  newTip : c.newTip = resolution.newTip
  oldBlocks : List.Forall₂ (fun block old => ∃ hash, block.cursor.blockHash = some hash ∧
    old = ⟨hashText hash, decimal block.cursor.blockNumber⟩) resolution.oldBranch c.oldBlocks
  newHeads : List.Forall₂ (fun block head => fromBlock block = .ok head)
    resolution.newBranch c.newHeads
  newEvents : List.Forall₂ (fun (log : ContractLog) event => ∃ hash original,
    log.cursor.blockHash = some hash ∧
    (∃ block ∈ resolution.newBranch, block.cursor.blockNumber = log.cursor.blockNumber ∧
      block.cursor.blockHash = some hash) ∧
    DurableEvent.fromLog w.keccak256 log = .ok original ∧
    event = { original with
        recordId :=
          lifecycleRecordId w.keccak256 original.logicalLogId c.reorgId "applied".toList })
    logs c.newEvents
  cursorJson : c.cursorJson =
    encodeCursor (ReorgCorrection.recoveryCursor resolution.newTip) (addressText core)
  cursorOrder : c.cursorOrder = cursorOrder (ReorgCorrection.recoveryCursor resolution.newTip)

variable {block ancestor : BlockRef} {branch : List BlockRef}

theorem requiredHash_eq_ok {hash : B256} :
    requiredHash block = .ok hash ↔ block.cursor.blockHash = some hash :=
  ofOption_eq_ok

variable {logs : List ContractLog}

theorem replacementEvents_eq_ok {w : Worker} {reorgId : Text} {allowed : List (Nat × B256)}
    {previousOrder : Option (List Nat)} {events : List DurableEvent}
    (h : replacementEvents w.keccak256 reorgId allowed previousOrder logs = .ok events) :
    List.Forall₂ (fun (log : ContractLog) event => ∃ hash original,
      log.cursor.blockHash = some hash ∧ (log.cursor.blockNumber, hash) ∈ allowed ∧
      DurableEvent.fromLog w.keccak256 log = .ok original ∧
      event = { original with
          recordId :=
            lifecycleRecordId w.keccak256 original.logicalLogId reorgId "applied".toList })
      logs events := by
  induction logs generalizing previousOrder events with
  | nil =>
    cases h
    exact .nil
  | cons log rest ih =>
    obtain ⟨hash, hhash, h⟩ := bind_eq_ok.mp h
    split at h
    · cases h
    next hlookup =>
      split at h
      · cases h
      obtain ⟨original, horiginal, h⟩ := bind_eq_ok.mp h
      obtain ⟨others, hothers, h⟩ := bind_eq_ok.mp h
      cases h
      refine .cons ⟨hash, original, ofOption_eq_ok.mp hhash, ?_, horiginal, rfl⟩ (ih hothers)
      exact mem_reverse.mp (mem_of_lookup_eq_some (not_not.mp hlookup))

theorem ReorgCorrection.new_eq_ok {w : Worker} {resolution : ForkResolution}
    {finalized : BlockRef} {core : Address} {c : ReorgCorrection}
    (h : ReorgCorrection.new w.keccak256 resolution finalized logs core = .ok c) :
    Corrected w resolution logs core c := by
  obtain ⟨_, -, h⟩ := bind_eq_ok.mp h
  obtain ⟨_, -, h⟩ := bind_eq_ok.mp h
  obtain ⟨_, -, h⟩ := bind_eq_ok.mp h
  obtain ⟨_, -, h⟩ := bind_eq_ok.mp h
  obtain ⟨allowed, hallowed, h⟩ := bind_eq_ok.mp h
  obtain ⟨newEvents, hevents, h⟩ := bind_eq_ok.mp h
  obtain ⟨newHeads, hheads, h⟩ := bind_eq_ok.mp h
  obtain ⟨oldBlocks, holds, h⟩ := bind_eq_ok.mp h
  cases h
  refine ⟨rfl, rfl, rfl, ?_, mapM_eq_ok.mp hheads, ?_, rfl, rfl⟩
  · refine (mapM_eq_ok.mp holds).imp fun block old hold => ?_
    obtain ⟨hash, hhash, hold⟩ := bind_eq_ok.mp hold
    exact ⟨hash, requiredHash_eq_ok.mp hhash, (Except.ok.inj hold).symm⟩
  refine (replacementEvents_eq_ok hevents).imp ?_
  rintro log event ⟨hash, original, hhash, hin, horiginal, hevent⟩
  refine ⟨hash, original, hhash, ?_, horiginal, hevent⟩
  obtain ⟨block, hblock, hpair⟩ :=
    List.Forall₂.exists_of_mem_right (mapM_eq_ok.mp hallowed) hin
  obtain ⟨hash', hhash', hpair⟩ := bind_eq_ok.mp hpair
  obtain ⟨hnumber, hsame⟩ := Prod.mk.inj (Except.ok.inj hpair)
  exact ⟨block, hblock, hnumber, hsame ▸ requiredHash_eq_ok.mp hhash'⟩

section

variable {top : BlockRef} (h : Linked ancestor branch top)

include h

theorem Linked.chain : Client.Linked ancestor branch := by
  induction branch generalizing ancestor with
  | nil => exact HashChain.Linked.nil ancestor
  | cons first rest ih => exact HashChain.linked_cons.mpr ⟨⟨h.1, h.2.1⟩, ih h.2.2⟩

theorem Linked.above (hblock : block ∈ branch) :
    ancestor.cursor.blockNumber < block.cursor.blockNumber :=
  (h.chain.height_mem hblock).1

theorem Linked.pairwise :
    branch.Pairwise fun lower upper => lower.cursor.blockNumber < upper.cursor.blockNumber := by
  rw [← pairwise_map (f := fun block : BlockRef => block.cursor.blockNumber), h.chain.heights]
  exact pairwise_lt_range'

theorem Linked.tip : top = ancestor ∧ branch = [] ∨ top ∈ branch := by
  induction branch generalizing ancestor with
  | nil => exact .inl ⟨h, rfl⟩
  | cons first rest ih =>
    rcases ih h.2.2 with ⟨rfl, -⟩ | hrest
    · exact .inr mem_cons_self
    · exact .inr (mem_cons_of_mem _ hrest)

theorem Linked.tip_number :
    top.cursor.blockNumber = ancestor.cursor.blockNumber + branch.length := by
  induction branch generalizing ancestor with
  | nil => exact congrArg (·.cursor.blockNumber) h
  | cons first rest ih =>
    rw [ih h.2.2, h.1, length_cons]
    omega

theorem Linked.le_tip (hblock : block ∈ branch) :
    block.cursor.blockNumber ≤ top.cursor.blockNumber :=
  (h.chain.height_mem hblock).2.trans_eq h.tip_number.symm

/-- A linked branch has a block at every height above its ancestor. -/
theorem Linked.exists_block {number : Nat}
    (hlow : ancestor.cursor.blockNumber < number) (hhigh : number ≤ top.cursor.blockNumber) :
    ∃ block ∈ branch, block.cursor.blockNumber = number := by
  refine mem_map.mp (h.chain.heights ▸ mem_range'_1.mpr ⟨hlow, ?_⟩)
  rw [h.tip_number] at hhigh
  omega

theorem Linked.parent (hblock : block ∈ branch) :
    (block.cursor.blockNumber = ancestor.cursor.blockNumber + 1 ∧
        block.parentHash = ancestor.cursor.blockHash) ∨
      ∃ below ∈ branch, block.cursor.blockNumber = below.cursor.blockNumber + 1 ∧
        block.parentHash = below.cursor.blockHash :=
  h.chain.exists_parent hblock

end

namespace Corrected

variable {w : Worker} {resolution : ForkResolution} {logs : List ContractLog} {core : Address}
  {c : ReorgCorrection} (h : Corrected w resolution logs core c)

include h

theorem oldBlocks_numbers {key : Text} :
    (∀ block ∈ c.oldBlocks, block.blockNumber ≠ key) ↔
      ∀ block ∈ resolution.oldBranch, decimal block.cursor.blockNumber ≠ key := by
  have hnumbers : resolution.oldBranch.map (fun block => decimal block.cursor.blockNumber) =
      c.oldBlocks.map CorrectionBlock.blockNumber := by
    refine h.oldBlocks.map_eq ?_
    rintro block _ ⟨_, -, rfl⟩
    rfl
  rw [← forall_mem_map (P := (· ≠ key)), ← hnumbers, forall_mem_map]

theorem newHeads_numbers {key : Text} :
    (∀ head ∈ c.newHeads, head.blockNumber ≠ key) ↔
      ∀ block ∈ resolution.newBranch, decimal block.cursor.blockNumber ≠ key := by
  have hnumbers : resolution.newBranch.map (fun block => decimal block.cursor.blockNumber) =
      c.newHeads.map blockNumber := by
    refine h.newHeads.map_eq fun block head hhead => ?_
    obtain ⟨_, _, -, -, -, rfl⟩ := fromBlock_eq_ok hhead
    rfl
  rw [← forall_mem_map (P := (· ≠ key)), ← hnumbers, forall_mem_map]

theorem heads_nodup : (c.newHeads.map blockNumber).Nodup := by
  refine h.newHeads.nodup_map (f := fun block => block.cursor.blockNumber)
    (fun block head block' head' hhead hhead' heq => ?_)
    (pairwise_map.mpr (resolution.newLinked.pairwise.imp fun hlt => hlt.ne))
  obtain ⟨_, _, -, -, -, rfl⟩ := fromBlock_eq_ok hhead
  obtain ⟨_, _, -, -, -, rfl⟩ := fromBlock_eq_ok hhead'
  exact decimal_injective heq

/-- The head of a block of the new branch. -/
theorem exists_head (hblock : block ∈ resolution.newBranch) :
    ∃ head ∈ c.newHeads, head.blockNumber = decimal block.cursor.blockNumber ∧
      ∃ hash, block.cursor.blockHash = some hash ∧ head.blockHash = hashText hash := by
  obtain ⟨head, hhead, hfrom⟩ := h.newHeads.exists_of_mem_left hblock
  obtain ⟨hash, parent, hhash, -, -, rfl⟩ := fromBlock_eq_ok hfrom
  exact ⟨_, hhead, rfl, hash, hhash, rfl⟩

/-- A replacement log lies in a block of the new branch, at its height. -/
theorem event_block {event : DurableEvent} (hevent : event ∈ c.newEvents) :
    ∃ head ∈ c.newHeads, event.fields.lookup "blockNumber" = some head.blockNumber ∧
      event.blockHash = head.blockHash := by
  obtain ⟨log, -, hash, original, hhash, ⟨block, hblock, hnumber, hblockHash⟩, horiginal, rfl⟩ :=
    h.newEvents.exists_of_mem_right hevent
  obtain ⟨head, hhead, hheight, hash', hhash', hheadHash⟩ := h.exists_head hblock
  obtain ⟨hash'', hhash'', hevent', -, hlookup⟩ := DurableEvent.fromLog_eq_ok horiginal
  obtain rfl : hash' = hash := Option.some.inj (hhash'.symm.trans hblockHash)
  obtain rfl : hash'' = hash' := Option.some.inj (hhash''.symm.trans hhash)
  refine ⟨head, hhead, ?_, hevent'.trans hheadHash.symm⟩
  rw [hheight, hnumber]
  exact hlookup

end Corrected

end Lunarbase.EventWorker
