import Lunarbase.EventWorker.Branches

/-!
# EventWorker — Canonical

Which logs the journal turns away.  The head path writes a height in decimal; the guard of
`append_event` looks it up under the first twenty characters of the cursor order, where the height
is padded with zeros.  The two texts are the same only from `10 ^ 19` on (`padded_eq_decimal`,
`padded_ne_decimal`), so below the guard finds nothing and the log of any block passes
(`noncanonical_log_guard`).

A log can also be there before its height is mapped: neither a head nor a correction looks at the
active logs of the heights it maps.  With both excluded every active log belongs to the canonical
block of its height (`Store.OnCanonical`).
-/

namespace Lunarbase.EventWorker

open Client (BlockRef ContractLog)
open DurableHead Option Bool DurableEvent

namespace Store

variable {s : Store} {w : Worker}

/-! ### Keys of the index -/

/-- What every call leaves: the deployment, no unfinished correction, and heights in decimal. -/
structure Based (w : Worker) (s : Store) : Prop where
  fingerprint : s.fingerprint = some w.fingerprint
  manifest : s.reorgManifest = false
  decimals : ∀ key hash, s.canonicalHeight key = some hash → ∃ number, key = decimal number
  logged : s.Logged

theorem Based.initial (w : Worker) : Based w (Store.initial w.fingerprint) where
  fingerprint := rfl
  manifest := rfl
  decimals _ _ h := nomatch h
  logged :=
    { numbered := nofun
      referenced := nofun
      heighted := nofun }

theorem Based.perform (h : Based w s) (call : Call) : Based w (s.perform w call) := by
  rcases s.perform_cases w call with hsame | ⟨block, head, promote, -, hhead, -, -, _, hwrite⟩ |
    ⟨log, event, -, hevent, -, -, -, -, _, _, hwrite⟩ |
    ⟨resolution, _, logs, _, _, _, c, plan, -, hc, hplanned, hchecked, -, hwrite⟩
  · rwa [hsame]
  · rw [hwrite, writeHead_eq, installHead_eq]
    refine ⟨h.fingerprint, h.manifest, fun key hash hkey => ?_, h.logged.congr rfl rfl rfl⟩
    rcases update_some_eq_some.mp hkey with ⟨rfl, -⟩ | ⟨-, hbefore⟩
    · obtain ⟨_, _, -, -, -, rfl⟩ := fromBlock_eq_ok hhead
      exact ⟨_, rfl⟩
    · exact h.decimals key hash hbefore
  · obtain ⟨-, -, -, -, hlookup⟩ := fromLog_eq_ok hevent
    rw [hwrite]
    have hfields : ([] ++ event.fields).lookup "blockNumber" =
        some (decimal log.cursor.blockNumber) := hlookup
    exact ⟨h.fingerprint, h.manifest, h.decimals, (h.logged.journalEvent hfields).congr rfl rfl rfl⟩
  · have hcorrected := ReorgCorrection.new_eq_ok hc
    rw [hwrite]
    refine ⟨(s.commit_fixed plan).1.trans h.fingerprint, rfl, fun key hash hkey => ?_,
      h.logged.commit hplanned hchecked fun event hevent => ?_⟩
    · rcases commit_height hkey with ⟨head, hhead, rfl, -⟩ | ⟨-, -, hbefore⟩
      · obtain ⟨block, -, hblock⟩ :=
          hcorrected.newHeads.exists_of_mem_right (hplanned.newHeads ▸ hhead)
        obtain ⟨_, _, -, -, -, rfl⟩ := fromBlock_eq_ok hblock
        exact ⟨_, rfl⟩
      · exact h.decimals key hash hbefore
    · obtain ⟨log, -, _, original, -, -, horiginal, rfl⟩ :=
        hcorrected.newEvents.exists_of_mem_right (hplanned.newEvents ▸ hevent)
      obtain ⟨-, -, -, -, hlookup⟩ := fromLog_eq_ok horiginal
      exact ⟨_, hlookup⟩

theorem based_of_run {guard : Store → Call → Prop}
    (hrun : Run (Store.perform w) guard (Store.initial w.fingerprint) s) : Based w s :=
  hrun.invariant (.initial w) fun _ call h _ => h.perform call

/-! ### The guard -/

def nonCanonical {α : Type} : Except StoreError α :=
  journalError "LUNARBASE_LOG_ON_NONCANONICAL_BLOCK"

variable {event : DurableEvent}

/-- The guard finds the block that is mapped at the height of a log exactly from `10 ^ 19` on. -/
theorem Based.appendEvent_nonCanonical_iff (h : Based w s) {log : ContractLog}
    (hevent : fromLog w.keccak256 log = .ok event) (hu64 : log.cursor.blockNumber < 2 ^ 64)
    {hash : Text} (hmapped : s.canonicalHeight (decimal log.cursor.blockNumber) = some hash)
    (hother : hash ≠ event.blockHash) :
    s.appendEvent w.fingerprint event = (s, nonCanonical) ↔
      10 ^ 19 ≤ log.cursor.blockNumber ∧ s.recordIds event.recordId = none := by
  obtain ⟨-, -, -, horder, -⟩ := fromLog_eq_ok hevent
  have hkey : event.cursorOrder.take 20 = padded 20 log.cursor.blockNumber := by
    rw [horder, take_cursorOrder]
  unfold appendEvent
  rw [if_neg (not_not.mpr h.fingerprint), if_neg (by rw [h.manifest]; exact false_ne_true), hkey]
  cases hrecord : s.recordIds event.recordId with
  | some id =>
    refine iff_of_false (fun heq => ?_) fun hand => nomatch hand.2
    cases heq
  | none =>
    refine Iff.trans ?_ (and_iff_left rfl).symm
    by_cases hlow : log.cursor.blockNumber < 10 ^ 19
    · -- no height is written under the padded text
      have hnone : s.canonicalHeight (padded 20 log.cursor.blockNumber) = none := by
        cases hfound : s.canonicalHeight (padded 20 log.cursor.blockNumber) with
        | none => rfl
        | some hash' =>
          obtain ⟨number, hnumber⟩ := h.decimals _ _ hfound
          exact absurd hnumber (padded_ne_decimal hlow number)
      refine iff_of_false (fun heq => ?_) (not_le.mpr hlow)
      dsimp only at heq
      rw [hnone, any_none, if_neg Bool.false_ne_true] at heq
      split at heq
      · have htexts := (Prod.mk.inj heq).2
        simp [journalError, nonCanonical] at htexts
      · cases (Prod.mk.inj heq).2
    · have hhigh := not_lt.mp hlow
      refine iff_of_true ?_ hhigh
      rw [padded_eq_decimal hhigh hu64, hmapped, any_some, if_pos (decide_eq_true hother)]
      rfl

/-! ### Active logs and the index -/

/-- Every active log belongs to the canonical block of its height, or its height is unmapped. -/
def OnCanonical (s : Store) : Prop :=
  ∀ logicalLogId state, s.logState logicalLogId = some state → state.active = true →
    ∃ number, s.journaledHeight state = some (decimal number) ∧
      ∀ hash, s.canonicalHeight (decimal number) = some hash → hash = state.blockHash

/-- A call that, if it is accepted, makes no active log non-canonical: an event of a height below
`10 ^ 19` is not on another block than the mapped one, and a height that a head or a correction maps
has no active log of another block, but for the logs the correction itself reverts. -/
def Sound (w : Worker) (s : Store) (call : Call) : Prop :=
  s.perform w call ≠ s → match call with
  | .head block => ∀ head, DurableHead.fromBlock block = .ok head →
      ∀ logicalLogId state, s.logState logicalLogId = some state → state.active = true →
        s.journaledHeight state = some head.blockNumber → state.blockHash = head.blockHash
  | .event log => log.cursor.blockNumber < 2 ^ 64 ∧
      ∀ event, fromLog w.keccak256 log = .ok event → log.cursor.blockNumber < 10 ^ 19 → ∀ hash,
          s.canonicalHeight (decimal log.cursor.blockNumber) = some hash → hash = event.blockHash
  | .correct resolution finalized logs core _ _ =>
    ∀ c, ReorgCorrection.new w.keccak256 resolution finalized logs core = .ok c →
      ∀ logicalLogId state, s.logState logicalLogId = some state → state.active = true →
        ∀ head ∈ c.newHeads, s.journaledHeight state = some head.blockNumber →
          state.blockHash = head.blockHash ∨
            ∃ block ∈ c.oldBlocks, state.blockHash = block.blockHash

theorem OnCanonical.writeHead (h : s.OnCanonical) {head : DurableHead}
    (hsound : ∀ logicalLogId state, s.logState logicalLogId = some state → state.active = true →
      s.journaledHeight state = some head.blockNumber → state.blockHash = head.blockHash)
    (promote : Bool) : (s.writeHead head promote).OnCanonical := by
  rw [writeHead_eq, installHead_eq]
  intro logicalLogId state hentry hactive
  obtain ⟨number, hnumber, hmapped⟩ := h logicalLogId state hentry hactive
  refine ⟨number, hnumber, fun hash hhash => ?_⟩
  rcases update_some_eq_some.mp hhash with ⟨heq, rfl⟩ | ⟨-, hbefore⟩
  · exact (hsound logicalLogId state hentry hactive (heq ▸ hnumber)).symm
  · exact hmapped hash hbefore

theorem OnCanonical.journalEvent (h : s.OnCanonical) (hnumbered : s.Numbered) {number : Nat}
    (hlookup : event.fields.lookup "blockNumber" = some (decimal number))
    (hsound : ∀ hash, s.canonicalHeight (decimal number) = some hash → hash = event.blockHash) :
    (s.journalEvent event []).OnCanonical := by
  intro logicalLogId state hentry hactive
  rcases update_some_eq_some.mp hentry with ⟨rfl, rfl⟩ | ⟨-, hbefore⟩
  · refine ⟨number, bind_eq_some_iff.mpr ⟨_, hnumbered.entry_nextId, hlookup⟩, ?_⟩
    exact hsound
  · obtain ⟨number', hnumber', hmapped⟩ := h logicalLogId state hbefore hactive
    exact ⟨number', journaledHeight_xadd_of_some hnumber', hmapped⟩

theorem OnCanonical.commit (h : s.OnCanonical) (hlogged : s.Logged) {resolution : ForkResolution}
    {logs : List ContractLog} {core : Address} {c : ReorgCorrection} {plan : Plan}
    (hcorrected : Corrected w resolution logs core c) (hplanned : s.Planned w c plan)
    (hchecked : s.Checked plan)
    (hsound : ∀ logicalLogId state, s.logState logicalLogId = some state → state.active = true →
      ∀ head ∈ c.newHeads, s.journaledHeight state = some head.blockNumber →
        state.blockHash = head.blockHash ∨
          ∃ block ∈ c.oldBlocks, state.blockHash = block.blockHash) :
    (s.commit plan).1.OnCanonical := by
  intro logicalLogId state hentry hactive
  rcases commit_active hlogged hplanned hchecked hentry hactive with
    ⟨hbefore, hold⟩ | ⟨event, hevent, -, hblock, hheight⟩
  · obtain ⟨number, hnumber, hmapped⟩ := h logicalLogId state hbefore hactive
    refine ⟨number, journaledHeight_commit hnumber plan, fun hash hhash => ?_⟩
    rcases commit_height hhash with ⟨head, hhead, hkey, rfl⟩ | ⟨-, -, hunchanged⟩
    · rcases hsound logicalLogId state hbefore hactive head (hplanned.newHeads ▸ hhead)
        (hkey ▸ hnumber) with hsame | ⟨block, hblock, hrevert⟩
      · exact hsame.symm
      · exact absurd hrevert (hold block (hplanned.oldBlocks ▸ hblock))
    · exact hmapped hash hunchanged
  -- a replacement log: its block is in the new branch and mapped at its height
  obtain ⟨head, hhead, hlookup, hhash⟩ :=
    hcorrected.event_block (hplanned.newEvents ▸ hevent)
  obtain ⟨block, -, hfrom⟩ := hcorrected.newHeads.exists_of_mem_right hhead
  have hnodup : (plan.newHeads.map DurableHead.blockNumber).Nodup :=
    hplanned.newHeads ▸ hcorrected.heads_nodup
  have hmapped := commit_mapped (s := s) hnodup (hplanned.newHeads ▸ hhead)
  obtain ⟨_, _, -, -, -, rfl⟩ := fromBlock_eq_ok hfrom
  refine ⟨block.cursor.blockNumber, hheight _ hlookup, fun hash hfound => ?_⟩
  rw [hblock, hhash]
  exact Option.some.inj (hfound.symm.trans hmapped)

theorem OnCanonical.perform (hbased : Based w s) (h : s.OnCanonical) {call : Call}
    (hsound : Sound w s call) : (s.perform w call).OnCanonical := by
  by_cases hrefused : s.perform w call = s
  · rwa [hrefused]
  replace hsound := hsound hrefused
  rcases (s.perform_cases w call).resolve_left hrefused with
    ⟨block, head, promote, rfl, hhead, -, -, _, hwrite⟩ |
    ⟨log, event, rfl, hevent, -, hguard, -, -, _, _, hwrite⟩ |
    ⟨resolution, finalized, logs, core, limits, charge, c, plan, rfl, hc, hplanned, hchecked, -,
      hwrite⟩
  · rw [hwrite]
    exact h.writeHead (hsound head hhead) promote
  · obtain ⟨-, -, -, horder, hlookup⟩ := fromLog_eq_ok hevent
    rw [hwrite]
    refine h.journalEvent hbased.logged.numbered hlookup fun hash hmapped => ?_
    by_cases hlow : log.cursor.blockNumber < 10 ^ 19
    · exact hsound.2 event hevent hlow hash hmapped
    -- here the guard of the script has compared the hashes
    rw [horder, take_cursorOrder, padded_eq_decimal (not_lt.mp hlow) hsound.1, hmapped,
      any_some] at hguard
    exact not_not.mp (of_decide_eq_false hguard)
  · rw [hwrite]
    exact h.commit hbased.logged (ReorgCorrection.new_eq_ok hc) hplanned hchecked (hsound c hc)

theorem onCanonical_of_run
    (hrun : Run (Store.perform w) (Sound w) (Store.initial w.fingerprint) s) :
    Based w s ∧ s.OnCanonical :=
  hrun.invariant (P := fun s => Based w s ∧ s.OnCanonical) ⟨.initial w, nofun⟩
    fun _ call h hsound => ⟨h.1.perform call, h.2.perform h.1 hsound⟩

end Store

/-- **When a non-canonical log is turned away.**  In every store a worker can reach, an event whose
height is mapped to another block is refused exactly if its height has twenty digits and its record
is not journaled yet; and along every run of sound calls each active log belongs to the canonical
block of its height, or the height is unmapped. -/
theorem noncanonical_log_guard (w : Worker) (s : Store) :
    (Run (Store.perform w) (fun _ _ => True) (Store.initial w.fingerprint) s →
      ∀ (log : ContractLog) (event : DurableEvent) (hash : Text),
        fromLog w.keccak256 log = .ok event → log.cursor.blockNumber < 2 ^ 64 →
        s.canonicalHeight (decimal log.cursor.blockNumber) = some hash → hash ≠ event.blockHash →
        (s.appendEvent w.fingerprint event = (s, Store.nonCanonical) ↔
          10 ^ 19 ≤ log.cursor.blockNumber ∧ s.recordIds event.recordId = none)) ∧
    (Run (Store.perform w) (Store.Sound w) (Store.initial w.fingerprint) s → s.OnCanonical) := by
  refine ⟨fun hrun log event hash hevent hu64 hmapped hother => ?_, fun hrun => ?_⟩
  · exact (Store.based_of_run hrun).appendEvent_nonCanonical_iff hevent hu64 hmapped hother
  · exact (Store.onCanonical_of_run hrun).2

/-! ### At the two ends -/

/-- A block whose height has twenty digits. -/
def tallBlock (hash : B256) : BlockRef := blockOf (10 ^ 19) hash 0xa0 .finalized

def tallLog (hash : B256) : ContractLog :=
  { secondLog hash with
    cursor := { (tallBlock hash).cursor with transactionIndex := some 0, logIndex := some 0 } }

/-- A block of that height, with its log. -/
def tallStore : Store :=
  ((Store.initial smallWorker.fingerprint).perform smallWorker (.head (tallBlock 0xa1))).perform
    smallWorker (.event (tallLog 0xa1))

theorem run_tallStore : Run (Store.perform smallWorker) (Store.Sound smallWorker)
    (Store.initial smallWorker.fingerprint) tallStore := by
  refine .more (.more .refl ?_) ?_
  · intro _ head _ logicalLogId state hstate
    cases hstate
  · exact fun _ => ⟨by decide, fun event _ hlow => nomatch hlow⟩

theorem noncanonical_log_guard_tall :
    tallStore.OnCanonical ∧ ∃ event, fromLog smallWorker.keccak256 (tallLog 0xb1) = .ok event ∧
        tallStore.appendEvent smallWorker.fingerprint event = (tallStore, Store.nonCanonical) := by
  have htest : (fromLog smallWorker.keccak256 (tallLog 0xb1)).toOption.any
      (fun event => decide (tallStore.canonicalHeight (decimal (10 ^ 19)) =
            some (hashText 0xa1) ∧ hashText 0xa1 ≠ event.blockHash) &&
          (tallStore.recordIds event.recordId).isNone) = true := by
    decide +kernel
  cases hevent : fromLog smallWorker.keccak256 (tallLog 0xb1) with
  | error message =>
    rw [hevent] at htest
    cases htest
  | ok event =>
    rw [hevent] at htest
    obtain ⟨hmapped, hnew⟩ := and_eq_true_iff.mp htest
    obtain ⟨hmapped, hother⟩ := of_decide_eq_true hmapped
    refine ⟨(noncanonical_log_guard smallWorker tallStore).2 run_tallStore, event, rfl, ?_⟩
    refine ((noncanonical_log_guard smallWorker tallStore).1
      (run_tallStore.weaken fun _ _ _ => trivial) (tallLog 0xb1) event _ hevent (by decide) hmapped
      hother).mpr ⟨le_rfl, isNone_iff_eq_none.mp hnew⟩

/-- **A log of another block enters the journal.**  Block 2 is mapped to one hash; a log of a block
2 with another hash is accepted, and is active beside the canonical block of its height. -/
theorem log_of_unmapped_block_journaled :
    ∃ (w : Worker) (s s' : Store) (log : ContractLog) (event : DurableEvent) (hash : Text)
      (outcome : AppendOutcome),
      Run (Store.perform w) (fun _ _ => True) (Store.initial w.fingerprint) s ∧
      fromLog w.keccak256 log = .ok event ∧ log.cursor.blockNumber < 2 ^ 64 ∧
      s.canonicalHeight (decimal log.cursor.blockNumber) = some hash ∧ hash ≠ event.blockHash ∧
      s.appendEvent w.fingerprint event = (s', .ok outcome) ∧ ¬ s'.OnCanonical := by
  have haccepted : acceptedWith smallWorker (returningStore 2) (secondLog 0xb2) (fun event s' =>
        decide ((returningStore 2).canonicalHeight (decimal 2) = some (hashText 0xa2) ∧
          hashText 0xa2 ≠ event.blockHash ∧
            s'.canonicalHeight (decimal 2) = some (hashText 0xa2)) &&
          (s'.logState event.logicalLogId).any fun state => state.active &&
            decide (state.blockHash = event.blockHash ∧
              s'.journaledHeight state = some (decimal 2))) = true := by
    decide +kernel
  obtain ⟨event, s', outcome, hevent, happend, htest⟩ := exists_of_takenWith haccepted
  obtain ⟨hmaps, hlog⟩ := and_eq_true_iff.mp htest
  obtain ⟨hmapped, hother, hmapped'⟩ := of_decide_eq_true hmaps
  refine ⟨smallWorker, returningStore 2, s', secondLog 0xb2, event, _, outcome,
    run_returningStore 2, hevent, by decide, hmapped, hother, happend, fun hcanonical => ?_⟩
  obtain ⟨state, hstate, hlog⟩ := (any_eq_true _ _).mp hlog
  obtain ⟨hactive, hfacts⟩ := and_eq_true_iff.mp hlog
  obtain ⟨hblock, hheight⟩ := of_decide_eq_true hfacts
  obtain ⟨number, hnumber, honly⟩ := hcanonical event.logicalLogId state hstate hactive
  rw [← Option.some.inj (hheight.symm.trans hnumber)] at honly
  exact hother ((honly _ hmapped').trans hblock)

end Lunarbase.EventWorker
