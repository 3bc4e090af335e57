import Lunarbase.EventWorker.Canonical

/-!
# EventWorker — Committed

What a correction that reports success has brought about (`Store.InEffect`).

A correction that commits is in effect, whatever was there before (`commit_inEffect`).  The script
answers a correction whose commit record exists without looking further.  That is right for a retry
while nothing but extensions of the new branch came in between (`InEffect.perform`), and it is
wrong when the same two branches come up again: the id of a correction is a hash of its content,
so in a chain that flaps from A to B, back to A and to B again the last correction is taken for the
first one (`flap_reported_but_not_in_effect`).
-/

namespace Lunarbase.EventWorker

open Client (BlockRef ContractLog)
open List Store DurableHead ReorgCorrection Option

def ForkResolution.blocks (resolution : ForkResolution) : List BlockRef :=
  resolution.commonAncestor :: (resolution.oldBranch ++ resolution.newBranch)

/-- The blocks whose heights a call gives. -/
def Call.blocks : Call → List BlockRef
  | .head block => [block]
  | .event _ => []
  | .correct resolution _ _ _ _ _ => resolution.blocks

/-- The blocks have the heights that `number` gives their hashes. -/
def NumberedBy (number : B256 → Nat) (blocks : List BlockRef) : Prop :=
  ∀ block ∈ blocks, ∀ hash, block.cursor.blockHash = some hash →
    block.cursor.blockNumber = number hash

theorem Linked.numbered_tip {number : B256 → Nat} {ancestor top : BlockRef}
    {branch blocks : List BlockRef} (h : Linked ancestor branch top)
    (hnumber : NumberedBy number blocks) (hblocks : ancestor :: branch ⊆ blocks) {hash : B256}
    (hhash : top.cursor.blockHash = some hash) : top.cursor.blockNumber = number hash := by
  refine hnumber top (hblocks ?_) hash hhash
  rcases h.tip with ⟨rfl, -⟩ | hmem
  · exact mem_cons_self
  · exact mem_cons_of_mem _ hmem

namespace Store

variable {s : Store} {w : Worker} {number : B256 → Nat}

/-! ### The canonical head is the highest -/

/-- No mapped height is above the canonical head. -/
structure Tipped (number : B256 → Nat) (s : Store) : Prop where
  named : ∀ canonicalHead, s.canonicalHead = some canonicalHead →
    ∃ tip, canonicalHead = hashText tip
  headers : ∀ hash header, s.headers (hashText hash) = some header →
    header.blockNumber = number hash
  below : ∀ key hash, s.canonicalHeight key = some hash → ∃ tip height,
    s.canonicalHead = some (hashText tip) ∧ key = decimal height ∧ height ≤ number tip

theorem Tipped.initial (number : B256 → Nat) (fingerprint : Text) :
    Tipped number (Store.initial fingerprint) where
  named _ h := nomatch h
  headers _ _ h := nomatch h
  below _ _ h := nomatch h

theorem Tipped.writeHead (h : Tipped number s) {block : BlockRef} {head : DurableHead}
    {promote : Bool} (hhead : fromBlock block = .ok head)
    (hnumber : ∀ hash, block.cursor.blockHash = some hash → block.cursor.blockNumber = number hash)
    (hchecked : s.HeadChecked head promote) : Tipped number (s.writeHead head promote) := by
  obtain ⟨hash, parent, hhash, -, -, rfl⟩ := fromBlock_eq_ok hhead
  rw [writeHead_eq, installHead_eq]
  refine ⟨fun canonicalHead hcanonical => ?_, fun hash' header hheader => ?_,
    fun key hash' hkey => ?_⟩
  · split at hcanonical
    · exact ⟨hash, (some.inj hcanonical).symm⟩
    · exact h.named canonicalHead hcanonical
  · rcases storeHeader_headers hheader with hbefore | ⟨heq, rfl⟩
    · exact h.headers hash' header hbefore
    rw [hashText_injective heq]
    exact hnumber hash hhash
  · cases promote with
    | true =>
      refine ⟨hash, ?_⟩
      rcases update_some_eq_some.mp hkey with ⟨heq, -⟩ | ⟨-, hbefore⟩
      · exact ⟨_, rfl, heq, (hnumber hash hhash).le⟩
      obtain ⟨tip, height, htip, hname, hle⟩ := h.below key hash' hbefore
      refine ⟨height, rfl, hname, ?_⟩
      rcases promotesHead_eq_true hchecked.promotes with hnone | hsame |
        ⟨canonicalHead, header, hcanonical, hheader, hlt, -⟩
      · cases htip.symm.trans hnone
      · rw [← hashText_injective (some.inj (htip.symm.trans hsame))]
        exact hle
      cases htip.symm.trans hcanonical
      rw [decimal, Lua.tonumber_toDigits, h.headers tip header hheader] at hlt
      rw [← hnumber hash hhash]
      exact hle.trans (Lua.lt_of_toDouble_lt hlt).le
    | false =>
      rcases update_some_eq_some.mp hkey with ⟨heq, -⟩ | ⟨-, hbefore⟩
      · obtain ⟨canonicalHead, header, hcanonical, hheader, hlt⟩ :=
          promotesHead_eq_false hchecked.promotes
        obtain ⟨tip, rfl⟩ := h.named canonicalHead hcanonical
        rw [decimal, Lua.tonumber_toDigits, h.headers tip header hheader] at hlt
        exact ⟨tip, _, hcanonical, heq, (Lua.lt_of_toDouble_lt hlt).le⟩
      · exact h.below key hash' hbefore

variable {c : ReorgCorrection} {core : Address} {plan : Plan} {s' : Store}
  {resolution : ForkResolution} {logs : List ContractLog}

section

variable (h : Tipped number s) (hcorrected : Corrected w resolution logs core c)
  (hplanned : s.Planned w c plan) (hchecked : s.Checked plan)
  (hnumber : NumberedBy number resolution.blocks)

include h hcorrected hplanned hchecked hnumber

/-- After a correction no height above the new tip is mapped. -/
theorem Tipped.commit_below {key hash : Text}
    (hkey : (s.commit plan).1.canonicalHeight key = some hash) :
    ∃ height, key = decimal height ∧ height ≤ resolution.newTip.cursor.blockNumber := by
  rcases commit_height hkey with ⟨head, hhead, rfl, -⟩ | ⟨-, hold, hbefore⟩
  · obtain ⟨block, hblock, hfrom⟩ :=
      hcorrected.newHeads.exists_of_mem_right (hplanned.newHeads ▸ hhead)
    obtain ⟨_, _, -, -, -, rfl⟩ := fromBlock_eq_ok hfrom
    exact ⟨_, rfl, resolution.newLinked.le_tip hblock⟩
  -- the height was mapped before and is not in the old branch, so it is at most the ancestor's
  obtain ⟨tip, height, htip, rfl, hle⟩ := h.below key hash hbefore
  refine ⟨height, rfl, ?_⟩
  obtain ⟨oldTip, holdTip, htext⟩ := hplanned.oldTip
  rw [hcorrected.oldTip] at holdTip
  rw [hchecked.canonicalHead, htext] at htip
  obtain rfl := hashText_injective (some.inj htip)
  rw [← resolution.oldLinked.numbered_tip hnumber
    (cons_subset_cons _ (subset_append_left _ _)) holdTip] at hle
  rw [resolution.newLinked.tip_number]
  refine le_trans ?_ (Nat.le_add_right _ _)
  by_contra hgt
  obtain ⟨block, hblock, hheight⟩ := resolution.oldLinked.exists_block (not_le.mp hgt) hle
  rw [hplanned.oldBlocks] at hold
  exact hcorrected.oldBlocks_numbers.mp hold block hblock (congrArg decimal hheight)

theorem Tipped.commit : Tipped number (s.commit plan).1 := by
  obtain ⟨newTip, hnewTip, htext⟩ := hplanned.newTip
  rw [hcorrected.newTip] at hnewTip
  refine ⟨fun canonicalHead hcanonical => ?_, fun hash header hheader => ?_,
    fun key hash hkey => ?_⟩
  · exact ⟨newTip, (some.inj hcanonical).symm.trans htext⟩
  · rcases commit_header hheader with hbefore | ⟨head, hhead, hhash, rfl⟩
    · exact h.headers hash header hbefore
    obtain ⟨block, hblock, hfrom⟩ :=
      hcorrected.newHeads.exists_of_mem_right (hplanned.newHeads ▸ hhead)
    obtain ⟨hash', _, hhash', -, -, rfl⟩ := fromBlock_eq_ok hfrom
    rw [← hashText_injective hhash]
    exact hnumber block (mem_cons_of_mem _ (mem_append_right _ hblock)) hash' hhash'
  · obtain ⟨height, hname, hle⟩ := h.commit_below hcorrected hplanned hchecked hnumber hkey
    refine ⟨newTip, height, congrArg some htext, hname, ?_⟩
    rw [← resolution.newLinked.numbered_tip hnumber
      (cons_subset_cons _ (subset_append_right _ _)) hnewTip]
    exact hle

end

theorem Tipped.perform (h : Tipped number s) {call : Call}
    (hnumber : NumberedBy number call.blocks) : Tipped number (s.perform w call) := by
  rcases s.perform_cases w call with hsame |
    ⟨block, head, promote, rfl, hhead, hcheck, -, _, hwrite⟩ |
    ⟨log, event, rfl, -, -, -, -, -, _, _, hwrite⟩ |
    ⟨resolution, _, logs, _, _, _, c, plan, rfl, hc, hplanned, hchecked, -, hwrite⟩
  · rwa [hsame]
  · have hwritten := h.writeHead hhead (hnumber block (mem_singleton_self _))
      (checkHead_eq_ok hcheck)
    rw [hwrite]
    exact ⟨hwritten.named, hwritten.headers, hwritten.below⟩
  · rw [hwrite]
    exact ⟨h.named, h.headers, h.below⟩
  · rw [hwrite]
    exact h.commit (new_eq_ok hc) hplanned hchecked hnumber

/-! ### In effect -/

/-- The block `hash` extends the block `base`, through the stored headers. -/
inductive Extends (s : Store) (base : Text) : Text → Prop
  | refl : Extends s base base
  | child {hash : Text} {header : HeaderEnvelope}
      (hparent : Extends s base (hashText header.parentHash))
      (hheader : s.headers hash = some header) : Extends s base hash

theorem Extends.mono {base hash : Text} (h : s.Extends base hash)
    (hheaders : ∀ hash header, s.headers hash = some header → s'.headers hash = some header) :
    s'.Extends base hash := by
  induction h with
  | refl => exact .refl
  | child _ hheader ih => exact .child ih (hheaders _ _ hheader)

/-- A log of an old block that is not in the new branch. -/
def Replaced (resolution : ForkResolution) (blockHash : Text) : Prop :=
  (∃ block ∈ resolution.oldBranch, ∃ hash, block.cursor.blockHash = some hash ∧
      blockHash = hashText hash) ∧
    ∀ block ∈ resolution.newBranch, ∀ hash, block.cursor.blockHash = some hash →
      blockHash ≠ hashText hash

/-- The correction has taken effect: the blocks of the new branch are mapped, the canonical head
extends its tip, no log of a replaced block is active, and every replacement log is. -/
structure InEffect (w : Worker) (resolution : ForkResolution) (logs : List ContractLog)
    (s : Store) : Prop where
  mapped : ∀ block ∈ resolution.newBranch, ∀ hash, block.cursor.blockHash = some hash →
    s.canonicalHeight (decimal block.cursor.blockNumber) = some (hashText hash)
  head : ∃ tip canonicalHead, resolution.newTip.cursor.blockHash = some tip ∧
    s.canonicalHead = some canonicalHead ∧ s.Extends (hashText tip) canonicalHead
  reverted : ∀ logicalLogId state, s.logState logicalLogId = some state → state.active = true →
    ¬ Replaced resolution state.blockHash
  applied : ∀ log ∈ logs, ∀ event, DurableEvent.fromLog w.keccak256 log = .ok event →
    (s.logState event.logicalLogId).any (·.active) = true

/-- What a fresh commit adds: the canonical head is the new tip itself, nothing above it is mapped,
and the cursor is after every log of the new tip. -/
structure AtTip (resolution : ForkResolution) (core : Address) (s : Store) : Prop where
  head : ∃ tip, resolution.newTip.cursor.blockHash = some tip ∧
    s.canonicalHead = some (hashText tip)
  below : ∀ key hash, s.canonicalHeight key = some hash →
    ∃ height, key = decimal height ∧ height ≤ resolution.newTip.cursor.blockNumber
  cursor : s.cursor = some (encodeCursor (recoveryCursor resolution.newTip) (addressText core))
  cursorOrder : s.cursorOrder = some (EventWorker.cursorOrder (recoveryCursor resolution.newTip))

theorem commit_inEffect (hlogged : s.Logged)
    (hcorrected : Corrected w resolution logs core c) (hplanned : s.Planned w c plan)
    (hchecked : s.Checked plan) : InEffect w resolution logs (s.commit plan).1 := by
  have hnodup : (plan.newHeads.map blockNumber).Nodup :=
    hplanned.newHeads ▸ hcorrected.heads_nodup
  refine ⟨fun block hblock hash hhash => ?_, ?_,
    fun logicalLogId state hstate hactive hreplaced => ?_,
    fun log hlog event hevent => ?_⟩
  · obtain ⟨head, hhead, hheight, hash', hhash', htext⟩ := hcorrected.exists_head hblock
    obtain rfl : hash' = hash := some.inj (hhash'.symm.trans hhash)
    rw [← hheight, ← htext]
    exact commit_mapped hnodup (hplanned.newHeads ▸ hhead)
  · obtain ⟨tip, htip, htext⟩ := hplanned.newTip
    exact ⟨tip, _, hcorrected.newTip ▸ htip, congrArg some htext, .refl⟩
  · obtain ⟨⟨block, hblock, hash, hhash, htext⟩, hnew⟩ := hreplaced
    rcases commit_active hlogged hplanned hchecked hstate hactive with
      ⟨-, hold⟩ | ⟨event, hevent, -, hevents, -⟩
    · obtain ⟨old, hmem, hash', hhash', rfl⟩ := hcorrected.oldBlocks.exists_of_mem_left hblock
      obtain rfl : hash' = hash := some.inj (hhash'.symm.trans hhash)
      exact hold _ (hplanned.oldBlocks ▸ hmem) htext
    obtain ⟨head, hhead, -, hsame⟩ := hcorrected.event_block (hplanned.newEvents ▸ hevent)
    obtain ⟨block', hblock', hfrom⟩ := hcorrected.newHeads.exists_of_mem_right hhead
    obtain ⟨hash', _, hhash', -, -, rfl⟩ := fromBlock_eq_ok hfrom
    exact hnew block' hblock' hash' hhash' (hevents.trans hsame)
  · obtain ⟨event', hevent', _, original, -, -, horiginal, rfl⟩ :=
      hcorrected.newEvents.exists_of_mem_left hlog
    obtain rfl : original = event := Except.ok.inj (horiginal.symm.trans hevent)
    rw [← hplanned.newEvents] at hevent'
    exact foldl_applyEvent_active plan.reorgId plan.newEvents (.inl ⟨_, hevent', rfl⟩)

theorem Tipped.commit_atTip (h : Tipped number s) {finalized : BlockRef}
    (hc : new w.keccak256 resolution finalized logs core = .ok c)
    (hplanned : s.Planned w c plan) (hchecked : s.Checked plan)
    (hnumber : NumberedBy number resolution.blocks) : AtTip resolution core (s.commit plan).1 := by
  have hcorrected := new_eq_ok hc
  obtain ⟨tip, htip, htext⟩ := hplanned.newTip
  refine ⟨⟨tip, hcorrected.newTip ▸ htip, congrArg some htext⟩, fun key hash hkey => ?_, ?_, ?_⟩
  · exact h.commit_below hcorrected hplanned hchecked hnumber hkey
  · exact congrArg some (hplanned.cursorJson.trans hcorrected.cursorJson)
  · exact congrArg some (hplanned.cursorOrder.trans hcorrected.cursorOrder)

/-! ### Since the commit -/

/-- A call that leaves a correction in effect: if it is accepted, it is a head that is not above the
canonical head or its child, or a log of a block that was not replaced. -/
def Calm (w : Worker) (resolution : ForkResolution) (s : Store) (call : Call) : Prop :=
  s.perform w call ≠ s → match call with
  | .head block => ∀ head canonicalHead, fromBlock block = .ok head →
      s.canonicalHead = some canonicalHead → s.promotesHead head = .ok true →
      head.blockHash = canonicalHead ∨ head.parentHash = canonicalHead
  | .event log => ∀ event, DurableEvent.fromLog w.keccak256 log = .ok event →
      ¬ Replaced resolution event.blockHash
  | .correct .. => False

section

variable (h : InEffect w resolution logs s)

include h

theorem InEffect.writeHead {block : BlockRef} {head : DurableHead} {promote : Bool}
    (hhead : fromBlock block = .ok head) (hchecked : s.HeadChecked head promote)
    (hcalm : ∀ canonicalHead, s.canonicalHead = some canonicalHead → promote = true →
      head.blockHash = canonicalHead ∨ head.parentHash = canonicalHead) :
    InEffect w resolution logs (s.writeHead head promote) := by
  rw [writeHead_eq, installHead_eq]
  refine ⟨fun block' hblock hash hhash => ?_, ?_, h.reverted, h.applied⟩
  · -- a height that is mapped keeps its block
    have hmapped := h.mapped block' hblock hash hhash
    refine update_some_eq_some.mpr ?_
    by_cases heq : decimal block'.cursor.blockNumber = head.blockNumber
    · exact .inl ⟨heq, (hchecked.height _ (heq ▸ hmapped)).symm⟩
    · exact .inr ⟨heq, hmapped⟩
  obtain ⟨tip, canonicalHead, htip, hcanonical, hextends⟩ := h.head
  have hkept : ∀ {s' : Store}, s'.headers = (s.storeHeader head).headers →
      s'.Extends (hashText tip) canonicalHead := fun hheaders =>
    hextends.mono fun _ _ hheader => hheaders ▸ storeHeader_of_some hheader head
  refine ⟨tip, ?_⟩
  cases promote with
  | false => exact ⟨canonicalHead, htip, hcanonical, hkept rfl⟩
  | true =>
    refine ⟨head.blockHash, htip, rfl, ?_⟩
    rcases hcalm canonicalHead hcanonical rfl with hsame | hchild
    · rw [hsame]
      exact hkept rfl
    have hparent : hashText head.headerJson.parentHash = canonicalHead := by
      obtain ⟨_, _, -, -, -, rfl⟩ := fromBlock_eq_ok hhead
      exact hchild
    refine .child ?_ (storeHeader_self hchecked.identity)
    rw [hparent]
    exact hkept rfl

theorem InEffect.journalEvent {event : DurableEvent}
    (hcalm : ¬ Replaced resolution event.blockHash) :
    InEffect w resolution logs (s.journalEvent event []) := by
  refine ⟨h.mapped, ?_, fun logicalLogId state hstate hactive => ?_,
    fun log hlog other hother => ?_⟩
  · obtain ⟨tip, canonicalHead, htip, hcanonical, hextends⟩ := h.head
    exact ⟨tip, canonicalHead, htip, hcanonical, hextends.mono fun _ _ hheader => hheader⟩
  · rcases update_some_eq_some.mp hstate with ⟨-, rfl⟩ | ⟨-, hbefore⟩
    · exact hcalm
    · exact h.reverted logicalLogId state hbefore hactive
  change (Function.update s.logState event.logicalLogId _ other.logicalLogId).any _ = true
  by_cases hid : other.logicalLogId = event.logicalLogId
  · rw [hid, Function.update_self]
    rfl
  · rw [Function.update_of_ne hid]
    exact h.applied log hlog other hother

/-- The fields that `InEffect` does not read. -/
theorem InEffect.congr (hheight : s'.canonicalHeight = s.canonicalHeight)
    (hhead : s'.canonicalHead = s.canonicalHead) (hheaders : s'.headers = s.headers)
    (hstate : s'.logState = s.logState) : InEffect w resolution logs s' := by
  obtain ⟨tip, canonicalHead, htip, hcanonical, hextends⟩ := h.head
  refine ⟨hheight ▸ h.mapped, ⟨tip, canonicalHead, htip, hhead ▸ hcanonical, ?_⟩,
    hstate ▸ h.reverted, hstate ▸ h.applied⟩
  exact hextends.mono fun _ _ hheader => hheaders ▸ hheader

theorem InEffect.perform {call : Call}
    (hcalm : Calm w resolution s call) : InEffect w resolution logs (s.perform w call) := by
  by_cases hrefused : s.perform w call = s
  · rwa [hrefused]
  replace hcalm := hcalm hrefused
  rcases (s.perform_cases w call).resolve_left hrefused with
    ⟨block, head, promote, rfl, hhead, hcheck, -, _, hwrite⟩ |
    ⟨log, event, rfl, hevent, -, -, -, -, _, _, hwrite⟩ | ⟨_, _, _, _, _, _, _, _, rfl, -⟩
  · have hchecked := checkHead_eq_ok hcheck
    have hwritten := h.writeHead hhead hchecked fun canonicalHead hcanonical hpromote =>
      hcalm head canonicalHead hhead hcanonical (hpromote ▸ hchecked.promotes)
    rw [hwrite]
    exact hwritten.congr rfl rfl rfl rfl
  · rw [hwrite]
    exact (h.journalEvent (hcalm event hevent)).congr rfl rfl rfl rfl
  · exact hcalm.elim

end

/-- A correction returns `Ok` because it commits, or because its commit record is there. -/
theorem correct_eq_ok {limits : CorrectionLimits} {charge : CorrectionCharge}
    {outcome : CorrectionOutcome}
    (h : s.correct w.keccak256 w.fingerprint limits charge c = (s', .ok outcome)) :
    (s.recordIds c.commitRecordId ≠ none ∧ s' = s ∧ outcome.appended = false) ∨
      ∃ plan, s.Planned w c plan ∧ s.Checked plan ∧ s' = (s.commit plan).1 := by
  rcases s.correct_cases w limits charge c with ⟨_, herror⟩ | ⟨_, hthere, happended, hsame⟩ |
    ⟨plan, hplanned, hchecked, -, hwrite⟩
  · cases (Prod.mk.inj (h.symm.trans herror)).2
  · obtain ⟨rfl, houtcome⟩ := Prod.mk.inj (h.symm.trans hsame)
    exact .inl ⟨hthere, rfl, Except.ok.inj houtcome ▸ happended⟩
  · exact .inr ⟨plan, hplanned, hchecked, (Prod.mk.inj (h.symm.trans hwrite)).1⟩

theorem tipped_of_run (hrun : Run (Store.perform w) (fun _ call => NumberedBy number call.blocks)
      (Store.initial w.fingerprint) s) : Tipped number s :=
  hrun.invariant (.initial number w.fingerprint) fun _ _ h hnumber => h.perform hnumber

/-- The correction was committed, and only calm calls came since. -/
def LastCommitted (w : Worker) (resolution : ForkResolution) (c : ReorgCorrection) (s : Store) :
    Prop :=
  ∃ s₀ s₁ limits charge outcome,
    Run (Store.perform w) (fun _ _ => True) (Store.initial w.fingerprint) s₀ ∧
    s₀.recordIds c.commitRecordId = none ∧
    s₀.correct w.keccak256 w.fingerprint limits charge c = (s₁, .ok outcome) ∧
    Run (Store.perform w) (Calm w resolution) s₁ s

end Store

/-- **A correction that reports success is in effect**, if it is new or the last one committed: in
every store a worker can reach by calls that agree on the heights of the blocks, a correction that
returns `Ok` has taken effect when its commit record is not there yet, and then its new tip is the
highest block; and also when it repeats a correction since whose commit only calm calls came. -/
theorem successful_correction_in_effect (w : Worker) (number : B256 → Nat) {s : Store}
    (hrun : Run (Store.perform w) (fun _ call => NumberedBy number call.blocks)
      (Store.initial w.fingerprint) s) {resolution : ForkResolution} {finalized : BlockRef}
    {logs : List ContractLog} {core : Address} {c : ReorgCorrection}
    (hc : new w.keccak256 resolution finalized logs core = .ok c)
    (hnumber : NumberedBy number resolution.blocks) {limits : CorrectionLimits}
    {charge : CorrectionCharge} {s' : Store} {outcome : CorrectionOutcome}
    (hok : s.correct w.keccak256 w.fingerprint limits charge c = (s', .ok outcome))
    (hcondition : s.recordIds c.commitRecordId = none ∨ s.LastCommitted w resolution c) :
    s'.InEffect w resolution logs ∧ (outcome.appended = true → s'.AtTip resolution core) := by
  have hcorrected := new_eq_ok hc
  rcases correct_eq_ok hok with ⟨hthere, rfl, houtcome⟩ | ⟨plan, hplanned, hchecked, rfl⟩
  · -- a duplicate: the correction has been in effect since its commit
    refine ⟨?_, fun happended => absurd happended (houtcome ▸ Bool.false_ne_true)⟩
    rcases hcondition with hnew | ⟨s₀, s₁, _, _, _, hrun₀, hnew, hcommit, hsince⟩
    · exact absurd hnew hthere
    rcases correct_eq_ok hcommit with ⟨hthere₀, -, -⟩ | ⟨plan, hplanned, hchecked, rfl⟩
    · exact absurd hnew hthere₀
    exact hsince.invariant
      (commit_inEffect (based_of_run hrun₀).logged hcorrected hplanned hchecked)
      fun _ _ h hcalm => h.perform hcalm
  · refine ⟨commit_inEffect (based_of_run hrun).logged hcorrected hplanned hchecked, ?_⟩
    exact fun _ => (tipped_of_run hrun).commit_atTip hc hplanned hchecked hnumber

/-! ### A chain that flaps -/

/-- One block 2 takes the place of another. -/
def replaceSecond (old new : B256) : ForkResolution where
  commonAncestor := rootBlock
  oldTip := secondBlock old
  newTip := secondBlock new
  oldBranch := [secondBlock old]
  newBranch := [secondBlock new]
  oldLinked := linked_secondBlock old
  newLinked := linked_secondBlock new

/-- The correction is accepted. -/
def correctedWith (w : Worker) (s : Store) (resolution : ForkResolution)
    (test : ReorgCorrection → Store → Bool) : Bool :=
  takenWith (new w.keccak256 resolution rootBlock [] 0xc0)
    (s.correct w.keccak256 w.fingerprint ampleLimits ⟨0, 0⟩) test

/-- The heights of these blocks. -/
def smallNumber (hash : B256) : Nat := if hash = 0xa1 then 1 else 2

theorem numberedBy_small {blocks : List BlockRef}
    (h : ∀ block ∈ blocks, block = rootBlock ∨ ∃ hash, hash ≠ 0xa1 ∧ block = secondBlock hash) :
    NumberedBy smallNumber blocks := by
  intro block hblock hash hhash
  rcases h block hblock with rfl | ⟨hash', hne, rfl⟩
  · rw [← some.inj hhash]
    rfl
  · rw [← some.inj hhash, smallNumber, if_neg hne]
    rfl

theorem successful_correction_in_effect_fresh :
    ∃ c s' outcome,
      (returningStore 2).correct smallWorker.keccak256 smallWorker.fingerprint ampleLimits
          ⟨0, 0⟩ c = (s', .ok outcome) ∧
      s'.InEffect smallWorker (replaceSecond 0xa2 0xb2) [] := by
  have hok : correctedWith smallWorker (returningStore 2) (replaceSecond 0xa2 0xb2)
      (fun c _ => ((returningStore 2).recordIds c.commitRecordId).isNone) = true := by
    decide +kernel
  obtain ⟨c, s', outcome, hc, hcorrect, hnew⟩ := exists_of_takenWith hok
  have hroot : NumberedBy smallNumber (Call.head rootBlock).blocks :=
    numberedBy_small fun block hblock => .inl (mem_singleton.mp hblock)
  have hsecond : NumberedBy smallNumber (Call.head (secondBlock 0xa2)).blocks :=
    numberedBy_small fun block hblock =>
      .inr ⟨0xa2, by decide, mem_singleton.mp hblock⟩
  have hblocks : NumberedBy smallNumber (replaceSecond 0xa2 0xb2).blocks := by
    refine numberedBy_small fun block hblock => ?_
    rcases mem_cons.mp hblock with rfl | hbranches
    · exact .inl rfl
    rcases mem_cons.mp hbranches with rfl | hnewBranch
    · exact .inr ⟨0xa2, by decide, rfl⟩
    · exact .inr ⟨0xb2, by decide, mem_singleton.mp hnewBranch⟩
  refine ⟨c, s', outcome, hcorrect, ?_⟩
  exact (successful_correction_in_effect smallWorker smallNumber
    (.more (.more .refl hroot) hsecond) hc hblocks hcorrect
    (.inl (isNone_iff_eq_none.mp hnew))).1

/-- From A to B and back to A. -/
def flappedStore : Store :=
  ((returningStore 2).perform smallWorker
    (.correct (replaceSecond 0xa2 0xb2) rootBlock [] 0xc0 ampleLimits ⟨0, 0⟩)).perform smallWorker
    (.correct (replaceSecond 0xb2 0xa2) rootBlock [] 0xc0 ampleLimits ⟨0, 0⟩)

/-- **The correction of a flapping chain is reported and not carried out.**  The chain goes from A
to B, back to A, and to B again: the last correction returns `Ok`, and A stays mapped and
canonical. -/
theorem flap_reported_but_not_in_effect :
    ∃ (w : Worker) (s s' : Store) (resolution : ForkResolution) (finalized : BlockRef)
      (logs : List ContractLog) (core : Address) (c : ReorgCorrection) (limits : CorrectionLimits)
      (charge : CorrectionCharge) (outcome : CorrectionOutcome),
      Run (Store.perform w) (fun _ _ => True) (Store.initial w.fingerprint) s ∧
      new w.keccak256 resolution finalized logs core = .ok c ∧
      s.correct w.keccak256 w.fingerprint limits charge c = (s', .ok outcome) ∧
      ¬ s'.InEffect w resolution logs := by
  have hok : correctedWith smallWorker flappedStore (replaceSecond 0xa2 0xb2)
      (fun _ s' => decide (s'.canonicalHeight (decimal 2) ≠ some (hashText 0xb2))) = true := by
    decide +kernel
  obtain ⟨c, s', outcome, hc, hcorrect, htest⟩ := exists_of_takenWith hok
  refine ⟨smallWorker, flappedStore, s', replaceSecond 0xa2 0xb2, rootBlock, [], 0xc0, c,
    ampleLimits, ⟨0, 0⟩, outcome,
    .more (.more (run_returningStore 2) trivial) trivial, hc, hcorrect,
    fun heffect => ?_⟩
  exact of_decide_eq_true htest (heffect.mapped (secondBlock 0xb2) mem_cons_self 0xb2 rfl)

end Lunarbase.EventWorker
