import Lunarbase.Monad.Places
import Lunarbase.Support.Run
import Mathlib.Data.Multiset.AddSub

/-!
# Monad — Ledger

The books beside the lifecycle: which proposal was shown last at each height, what each proposal has
logged, and what has been applied and removed.

`Audited` says that the books agree with the lifecycle.  It is kept, and the events are those of one
switch, when a proposal is shown (`Audited.show`, `Audited.consistent_of_show`), in particular when
a stored one is published (`Audited.publish`); the other rules are for records that show nothing
new.
-/

namespace Lunarbase.Monad

open Client (Commitment SourceError)
open List Function Finmap ExecutionLog ProposalLifecycle

/-! ### The account of a height -/

/-- What a log says, apart from the record and the block it was seen in. -/
structure LogContent where
  blockNumber : Nat
  transactionIndex : Nat
  logIndex : Nat
  address : Address
  topics : List B256
  data : List UInt8
  deriving DecidableEq, Repr

def ExecutionLog.content (log : ExecutionLog) : LogContent :=
  ⟨log.blockNumber, log.transactionIndex, log.logIndex, log.address, log.topics, log.data⟩

/-- The logs of a height among some events, applied or removed ones. -/
def logsOf (removed : Bool) (height : Nat) (out : List ExecutionEvent) : Multiset LogContent :=
  out.filterMap fun
    | .log log =>
      if log.removed = removed ∧ log.blockNumber = height then some log.content else none
    | _ => none

theorem logsOf_append (removed : Bool) (height : Nat) (before after : List ExecutionEvent) :
    logsOf removed height (before ++ after) =
      logsOf removed height before + logsOf removed height after := by
  unfold logsOf
  rw [filterMap_append]
  rfl

/-- Logs of one kind and one height. -/
theorem logsOf_logs {logs : List ExecutionLog} {kind : Bool} {blockNumber : Nat}
    (h : ∀ log ∈ logs, log.removed = kind ∧ log.blockNumber = blockNumber) (removed : Bool)
    (height : Nat) :
    logsOf removed height (logs.map .log) =
      if kind = removed ∧ blockNumber = height then ↑(logs.map content) else 0 := by
  unfold logsOf
  induction logs with
  | nil => simp
  | cons log rest ih =>
    have hrest := ih fun log hlog => h log (mem_cons_of_mem _ hlog)
    obtain ⟨hkind, hnumber⟩ := h log mem_cons_self
    rw [map_cons, filterMap_cons]
    dsimp only
    rw [hkind, hnumber]
    split at hrest
    next hboth =>
      rw [if_pos hboth, if_pos hboth]
      rw [map_cons, ← Multiset.cons_coe, ← Multiset.cons_coe, hrest]
    next hboth =>
      rw [if_neg hboth, if_neg hboth]
      exact hrest

@[simp]
theorem content_materializeLog (log : ExecutionLog) (sequence : Option Nat) (blockHash : B256)
    (commitment : Commitment) (removed : Bool) :
    (materializeLog log sequence blockHash commitment removed).content = log.content := by
  cases sequence <;> rfl

/-! ### The ledger -/

structure Ledger where
  lifecycle : ProposalLifecycle
  shown : Nat → Option B256
  executed : B256 → Option (Multiset LogContent)
  applied : Nat → Multiset LogContent
  removed : Nat → Multiset LogContent

def Ledger.start (s : ProposalLifecycle) : Ledger :=
  ⟨s, fun _ => none, fun _ => none, fun _ => 0, fun _ => 0⟩

/-- What the proposals have logged after an accepted record. -/
def Ledger.executes (l : Ledger) (record : Record) : B256 → Option (Multiset LogContent) :=
  match record.input with
  | .start id _ _ => update l.executed id (some 0)
  | .log transactionIndex sourceSubIndex address topics data =>
    match l.lifecycle.synchronized, l.lifecycle.active with
    | true, some active =>
      update l.executed active.id ((l.executed active.id).map
        ((active.logOf record.sequence transactionIndex sourceSubIndex address topics data).content
          ::ₘ ·))
    | _, _ => l.executed
  | _ => l.executed

/-- The proposal shown last stays on the books when its height is verified. -/
def Ledger.shows (l : Ledger) (s' : ProposalLifecycle) (height : Nat) : Option B256 :=
  (s'.published height).or (l.shown height)

/-- The books after a record that led to `s'` and emitted `out`. -/
def Ledger.book (l : Ledger) (s' : ProposalLifecycle)
    (executed : B256 → Option (Multiset LogContent)) (out : List ExecutionEvent) : Ledger where
  lifecycle := s'
  shown := l.shows s'
  executed := executed
  applied height := l.applied height + logsOf false height out
  removed height := l.removed height + logsOf true height out

/-- Only accepted records are followed. -/
def Ledger.step (l : Ledger) (record : Record) : Ledger :=
  match l.lifecycle.process record with
  | (s', .ok out) => l.book s' (l.executes record) out
  | (_, .error _) => l

/-- What the proposal shown at a height has logged. -/
def Ledger.account (l : Ledger) (height : Nat) : Multiset LogContent :=
  ((l.shown height).bind l.executed).getD 0

variable {height : Nat}

theorem Ledger.account_of_none {l : Ledger} (h : l.shown height = none) : l.account height = 0 := by
  unfold Ledger.account
  rw [h]
  rfl

variable {contents : Multiset LogContent}

theorem Ledger.account_of_shown {l : Ledger} {id : B256} (h : l.shown height = some id)
    (hexecuted : l.executed id = some contents) : l.account height = contents := by
  unfold Ledger.account
  rw [h, Option.bind_some, hexecuted]
  rfl

theorem Ledger.account_congr {l l' : Ledger} (hshown : l'.shown height = l.shown height)
    (hexecuted : ∀ id, l.shown height = some id → l'.executed id = l.executed id) :
    l'.account height = l.account height := by
  unfold Ledger.account
  rw [hshown]
  cases hs : l.shown height with
  | none => rfl
  | some id => exact congrArg (Option.getD · 0) (hexecuted id hs)

/-! ### The condition -/

/-- A proposal can be put in the place of the one shown at a height: that one is published still,
and it is the same one or a complete one that is not final. -/
def Ledger.Replaceable (l : Ledger) (height : Nat) (id : B256) : Prop :=
  ∀ previousId, l.shown height = some previousId → l.lifecycle.published height = some previousId ∧
      (previousId ≠ id → ∃ previous, l.lifecycle.proposals.lookup previousId = some previous ∧
        previous.state ≠ .finalized)

def Ledger.Accepts (l : Ledger) (record : Record) : Prop :=
  ∃ s' out, l.lifecycle.process record = (s', .ok out)

/-- The records of the condition: accepted ones, where a proposal is started once and whatever may
publish finds a proposal that can be replaced. -/
def Ledger.Admits (l : Ledger) (record : Record) : Prop :=
  l.Accepts record ∧ match record.input with
    | .start id blockNumber _ =>
      l.executed id = none ∧ (l.lifecycle.delivery = .realtime → l.Replaceable blockNumber id)
    | .finish _ => l.lifecycle.delivery = .blockOrdered →
      ∀ active, l.lifecycle.active = some active → l.Replaceable active.blockNumber active.id
    | .qc id _ => ∀ proposal, l.lifecycle.proposals.lookup id = some proposal →
      proposal.state = .proposed → l.Replaceable proposal.blockNumber id
    | .finalized id _ => ∀ proposal, l.lifecycle.proposals.lookup id = some proposal →
      l.Replaceable proposal.blockNumber id
    | _ => True

/-! ### The property -/

/-- The head under which a proposal is announced: that of a complete one, or the one of the
proposal that starts. -/
def Ledger.Announces (l : Ledger) (sequence : Nat) (id : B256) (head : ExecutionHead) : Prop :=
  (∃ proposal, l.lifecycle.proposals.lookup id = some proposal ∧
    head = proposal.oldHead head.blockNumber) ∨
  ∃ active, l.lifecycle.active = some active ∧ active.id = id ∧
    head = ⟨sequence, head.blockNumber, none, some active.parentHash, .realtime⟩

/-- With removals on, what is applied and not removed is what the shown proposal has logged. -/
def Ledger.Balanced (l : Ledger) : Prop :=
  l.lifecycle.emitRemovedLogs = true →
    ∀ height, l.applied height = l.removed height + l.account height

/-- The events of a record that changes the ledger from `l` to `l'`. -/
structure Consistent (l l' : Ledger) (sequence : Nat) (out : List ExecutionEvent) : Prop where
  /-- Another proposal is shown: one reorganization, after the removed logs of the old proposal and
  before the applied ones of the new. -/
  change : ∀ height previousId id, l.shown height = some previousId → l'.shown height = some id →
    previousId ≠ id → ∃ (previous : Proposal) (removed applied : List ExecutionLog)
      (head : ExecutionHead),
      l.lifecycle.proposals.lookup previousId = some previous ∧ l'.Announces sequence id head ∧
      head.blockNumber = height ∧
      (∀ log ∈ removed, log.removed = true ∧ log.blockNumber = height) ∧
      (∀ log ∈ applied, log.removed = false ∧ log.blockNumber = height) ∧
      out = removed.map .log ++ .reorg (previous.oldHead height) head ::
        (applied.map .log ++ [.head head])
  /-- There are no other reorganizations. -/
  reorgs : ∀ oldHead newHead, .reorg oldHead newHead ∈ out → ∃ previousId id, previousId ≠ id ∧
    l.shown oldHead.blockNumber = some previousId ∧ l'.shown oldHead.blockNumber = some id
  /-- An applied log is one of the proposal that is shown, a removed log one of the proposal that
  was. -/
  logs : ∀ log, .log log ∈ out → ∃ id contents,
    (if log.removed then l.shown else l'.shown) log.blockNumber = some id ∧
      l'.executed id = some contents ∧ log.content ∈ contents
  balance : l'.Balanced

/-! ### What the ledger keeps -/

/-- The books agree with the lifecycle. -/
structure Audited (l : Ledger) : Prop where
  placed : ProposalLifecycle.Placed l.lifecycle fun _ _ _ => True
  shown : ∀ height id, l.lifecycle.published height = some id → l.shown height = some id
  known : ∀ height id, l.shown height = some id → ∃ contents, l.executed id = some contents
  stored : ∀ id proposal, l.lifecycle.proposals.lookup id = some proposal →
    ∃ contents, l.executed id = some contents ∧ (∀ log ∈ proposal.logs, log.content ∈ contents) ∧
      (l.lifecycle.emitRemovedLogs = true → proposal.state ≠ .finalized →
        contents = ↑(proposal.logs.map content))
  told : ∀ height id proposal, l.shown height = some id →
    l.lifecycle.proposals.lookup id = some proposal → proposal.publishedCommitment ≠ none
  final : ∀ id proposal, l.lifecycle.proposals.lookup id = some proposal →
    proposal.state = .finalized → l.shown proposal.blockNumber = some id
  active : ∀ active, l.lifecycle.active = some active →
    ∃ contents, l.executed active.id = some contents ∧
      (∀ log ∈ active.logs, log.content ∈ contents) ∧
      (l.lifecycle.emitRemovedLogs = true → contents = ↑(active.logs.map content))
  realtime : ∀ active, l.lifecycle.active = some active → l.lifecycle.delivery = .realtime →
    l.lifecycle.published active.blockNumber = some active.id ∧ active.publishedCommitment ≠ none ∧
      ∀ height, l.shown height = some active.id → height = active.blockNumber
  hidden : ∀ active, l.lifecycle.active = some active → l.lifecycle.delivery ≠ .realtime →
    ∀ height, l.shown height ≠ some active.id

/-- The books still agree after a record, and its events were consistent. -/
abbrev Ledger.Books (l l' : Ledger) (sequence : Nat) (out : List ExecutionEvent) : Prop :=
  Audited l' ∧ Consistent l l' sequence out

variable {l : Ledger} {s' : ProposalLifecycle} {executed' : B256 → Option (Multiset LogContent)}
  {out : List ExecutionEvent} {sequence blockNumber : Nat} {id : B256}

theorem Audited.initial (delivery : MonadDeliveryMode) (emitRemovedLogs : Bool)
    (limits : LifecycleLimits) : Audited (Ledger.start (.new delivery emitRemovedLogs limits)) where
  placed := .initial delivery emitRemovedLogs limits _
  shown _ _ h := nomatch h
  known _ _ h := nomatch h
  stored _ _ h := nomatch h
  told _ _ _ h := nomatch h
  final _ _ h := nomatch h
  active _ h := nomatch h
  realtime _ h := nomatch h
  hidden _ h := nomatch h

/-- Nothing new is published. -/
theorem shows_of_published (h : ∀ height id, s'.published height = some id →
    l.shown height = some id) : l.shows s' = l.shown := by
  funext height
  unfold Ledger.shows
  cases hpublished : s'.published height with
  | none => rfl
  | some id => exact (h height id hpublished).symm

section

variable (h : Audited l)

include h

theorem Audited.shows_update
    (hpublished : s'.published = update l.lifecycle.published blockNumber (some id)) :
    l.shows s' = update l.shown blockNumber (some id) := by
  funext height
  unfold Ledger.shows
  rw [hpublished]
  by_cases hheight : height = blockNumber
  · rw [hheight, update_self, update_self]
    rfl
  · rw [update_of_ne hheight, update_of_ne hheight]
    exact congrFun (shows_of_published h.shown) height

section

variable (hrep : l.Replaceable blockNumber id)

include hrep

/-- What the executing proposal shows in realtime cannot be replaced by another one. -/
theorem Audited.active_elsewhere
    {active : ActiveProposal} (hactive : l.lifecycle.active = some active) (hne : active.id ≠ id)
    (hrealtime : l.lifecycle.delivery = .realtime) : active.blockNumber ≠ blockNumber := by
  rintro rfl
  obtain ⟨hpublished, _, _⟩ := h.realtime active hactive hrealtime
  obtain ⟨_, hcomplete⟩ := hrep active.id (h.shown _ _ hpublished)
  obtain ⟨_, hstored, _⟩ := hcomplete hne
  cases (h.placed.active active hactive).1.symm.trans hstored

/-- A switch at a height announces the removed logs of the proposal that was shown there. -/
theorem Audited.switch (sequence : Nat) (blockHash parentHash : Option B256)
    (commitment : Commitment) :
    ((l.shown blockNumber = none ∨ l.shown blockNumber = some id) ∧
        l.lifecycle.switchBranch sequence id blockNumber blockHash parentHash commitment = []) ∨
      ∃ (previousId : B256) (previous : Proposal) (contents : Multiset LogContent)
        (removed : List ExecutionLog),
        l.shown blockNumber = some previousId ∧ previousId ≠ id ∧
        l.lifecycle.proposals.lookup previousId = some previous ∧
        l.executed previousId = some contents ∧
        (∀ log ∈ removed, log.removed = true ∧ log.blockNumber = blockNumber ∧
          log.content ∈ contents) ∧
        (l.lifecycle.emitRemovedLogs = true → ↑(removed.map content) = contents) ∧
        l.lifecycle.switchBranch sequence id blockNumber blockHash parentHash commitment =
          removed.map .log ++ [.reorg (previous.oldHead blockNumber)
            ⟨sequence, blockNumber, blockHash, parentHash, commitment⟩] := by
  cases hshown : l.shown blockNumber with
  | none =>
    refine .inl ⟨.inl rfl, switchBranch_of_none ?_ ..⟩
    cases hpublished : l.lifecycle.published blockNumber with
    | none => rfl
    | some other => cases hshown.symm.trans (h.shown _ _ hpublished)
  | some previousId =>
    obtain ⟨hpublished, hcomplete⟩ := hrep previousId hshown
    by_cases hne : previousId = id
    · subst hne
      exact .inl ⟨.inr rfl, switchBranch_self hpublished ..⟩
    obtain ⟨previous, hstored, hstate⟩ := hcomplete hne
    obtain ⟨contents, hexecuted, hmem, hwhole⟩ := h.stored previousId previous hstored
    refine .inr ⟨previousId, previous, contents,
      if l.lifecycle.emitRemovedLogs then previous.logs.map fun log =>
        materializeLog log (some sequence) previous.blockHash
          (previous.publishedCommitment.getD .realtime) true else [],
      rfl, hne, hstored, hexecuted, fun log hlog => ?_, fun hemit => ?_, ?_⟩
    · split at hlog
      · obtain ⟨before, hbefore, rfl⟩ := mem_map.mp hlog
        exact ⟨rfl, h.placed.logsPlaced.published _ _ _ hpublished hstored before hbefore,
          hmem before hbefore⟩
      · cases hlog
    · rw [if_pos hemit, map_map, hwhole hemit hstate]
      exact congrArg _ (map_congr_left fun log _ => content_materializeLog ..)
    · rw [switchBranch_of_published hpublished hne hstored, removals]
      split
      · rw [map_map]
        rfl
      · rfl

/-- With removals on, a switch removes all that the proposal shown before has logged. -/
theorem Audited.logsOf_switch (sequence : Nat) (blockHash parentHash : Option B256)
    (commitment : Commitment) (height : Nat) :
    logsOf false height
        (l.lifecycle.switchBranch sequence id blockNumber blockHash parentHash commitment) = 0 ∧
      (l.lifecycle.emitRemovedLogs = true → logsOf true height
          (l.lifecycle.switchBranch sequence id blockNumber blockHash parentHash commitment) =
        if blockNumber = height ∧ l.shown blockNumber ≠ some id then l.account blockNumber
          else 0) := by
  rcases h.switch hrep sequence blockHash parentHash commitment with ⟨hsame, hevents⟩ |
    ⟨previousId, _, contents, removed, hs, hne, _, hexecuted, hremoved, hwhole, hevents⟩
  · rw [hevents]
    refine ⟨rfl, fun _ => ?_⟩
    rcases hsame with hnone | hid
    · rw [Ledger.account_of_none hnone, ite_self]
      rfl
    · rw [if_neg fun hboth => hboth.2 hid]
      rfl
  have hkinds : ∀ log ∈ removed, log.removed = true ∧ log.blockNumber = blockNumber :=
    fun log hlog => ⟨(hremoved log hlog).1, (hremoved log hlog).2.1⟩
  have hother : l.shown blockNumber ≠ some id := fun hid =>
    hne (Option.some.inj (hs.symm.trans hid))
  rw [hevents, logsOf_append, logsOf_append, logsOf_logs hkinds, logsOf_logs hkinds]
  refine ⟨?_, fun hemit => ?_⟩
  · rfl
  rw [hwhole hemit, Ledger.account_of_shown hs hexecuted]
  simp only [true_and, ne_eq, hother, not_false_eq_true, and_true]
  exact Multiset.add_zero _

variable {commitment : Commitment}

/-- A switch emits removed logs of the proposal that was shown, and a reorganization. -/
theorem Audited.mem_switch {blockHash parentHash : Option B256} {event : ExecutionEvent}
    (hin : event ∈
      l.lifecycle.switchBranch sequence id blockNumber blockHash parentHash commitment) :
    ∃ previousId contents, l.shown blockNumber = some previousId ∧ previousId ≠ id ∧
      l.executed previousId = some contents ∧
      ((∃ log, event = .log log ∧ log.removed = true ∧ log.blockNumber = blockNumber ∧
        log.content ∈ contents) ∨
      ∃ oldHead newHead, event = .reorg oldHead newHead ∧ oldHead.blockNumber = blockNumber) := by
  rcases h.switch hrep sequence blockHash parentHash commitment with ⟨_, hevents⟩ |
    ⟨previousId, previous, contents, removed, hs, hne, _, hexecuted, hremoved, _, hevents⟩
  · rw [hevents] at hin
    cases hin
  rw [hevents] at hin
  refine ⟨previousId, contents, hs, hne, hexecuted, ?_⟩
  rcases mem_append.mp hin with hlog | hreorg
  · obtain ⟨log, hmem, rfl⟩ := mem_map.mp hlog
    exact .inl ⟨log, rfl, hremoved log hmem⟩
  · exact .inr ⟨_, _, mem_singleton.mp hreorg, rfl⟩

end

/-! ### A proposal is shown -/

section

variable (hemit : s'.emitRemovedLogs = l.lifecycle.emitRemovedLogs)
  (hexecuted : ∀ other, other ≠ id → executed' other = l.executed other)
  (hcontents : executed' id = some contents)

include hemit hexecuted hcontents

section

variable (hplaced : ProposalLifecycle.Placed s' fun _ _ _ => True)
  (hdelivery : s'.delivery = l.lifecycle.delivery)
  (hothers : ∀ other proposal, s'.proposals.lookup other = some proposal → other ≠ id →
    l.lifecycle.proposals.lookup other = some proposal)

include hplaced hdelivery hothers

/-- The books are carried over where one proposal is touched: the others stay as they were or are
dropped, and what was shown of them stays shown. -/
theorem Audited.touch {shown' : Nat → Option B256} (hshows : l.shows s' = shown')
    (hshown : ∀ height other, other ≠ id → shown' height = some other →
      l.shown height = some other)
    (hfinal : ∀ other proposal, other ≠ id → l.lifecycle.proposals.lookup other = some proposal →
      proposal.state = .finalized → shown' proposal.blockNumber = some other)
    (hself : ∀ proposal, s'.proposals.lookup id = some proposal →
      (∀ log ∈ proposal.logs, log.content ∈ contents) ∧
      (l.lifecycle.emitRemovedLogs = true → proposal.state ≠ .finalized →
        contents = ↑(proposal.logs.map content)) ∧
      (∀ height, shown' height = some id → proposal.publishedCommitment ≠ none) ∧
      (proposal.state = .finalized → shown' proposal.blockNumber = some id))
    (hactive : ∀ active, s'.active = some active →
      (l.lifecycle.active = some active ∧ active.id ≠ id ∧ (l.lifecycle.delivery = .realtime →
          s'.published active.blockNumber = some active.id)) ∨
      (active.id = id ∧ (∀ log ∈ active.logs, log.content ∈ contents) ∧
        (l.lifecycle.emitRemovedLogs = true → contents = ↑(active.logs.map content)) ∧
        (l.lifecycle.delivery = .realtime →
          s'.published active.blockNumber = some id ∧ active.publishedCommitment ≠ none ∧
          ∀ height, shown' height = some id → height = active.blockNumber) ∧
        (l.lifecycle.delivery ≠ .realtime → ∀ height, shown' height ≠ some id))) :
    Audited (l.book s' executed' out) := by
  subst hshows
  refine ⟨hplaced, fun height other hp => ?_, fun height other hs => ?_,
    fun other proposal hp => ?_,
    fun height other proposal hs hp => ?_, fun other proposal hp hfinalized => ?_,
    fun active ha => ?_, fun active ha hrealtime => ?_, fun active ha hmode height hs => ?_⟩
  · change (s'.published height).or _ = _
    rw [show s'.published height = some other from hp]
    rfl
  · by_cases heq : other = id
    · exact ⟨contents, heq ▸ hcontents⟩
    obtain ⟨contents', hcontents'⟩ := h.known height other (hshown height other heq hs)
    exact ⟨contents', (hexecuted other heq).trans hcontents'⟩
  · by_cases heq : other = id
    · subst heq
      obtain ⟨hmem, hwhole, _⟩ := hself proposal hp
      exact ⟨contents, hcontents, hmem, fun he => hwhole (hemit ▸ he)⟩
    · obtain ⟨contents', hcontents', hmem, hwhole⟩ := h.stored other proposal (hothers _ _ hp heq)
      exact ⟨contents', (hexecuted other heq).trans hcontents', hmem, fun he => hwhole (hemit ▸ he)⟩
  · by_cases heq : other = id
    · subst heq
      exact (hself proposal hp).2.2.1 height hs
    · exact h.told height other proposal (hshown height other heq hs) (hothers _ _ hp heq)
  · by_cases heq : other = id
    · subst heq
      exact (hself proposal hp).2.2.2 hfinalized
    · exact hfinal other proposal heq (hothers _ _ hp heq) hfinalized
  · rcases hactive active ha with ⟨hold, hne, _⟩ | ⟨rfl, hmem, hwhole, _⟩
    · obtain ⟨contents', hcontents', hmem, hwhole⟩ := h.active active hold
      exact ⟨contents', (hexecuted _ hne).trans hcontents', hmem, fun he => hwhole (hemit ▸ he)⟩
    · exact ⟨contents, hcontents, hmem, fun he => hwhole (hemit ▸ he)⟩
  · have hmode : l.lifecycle.delivery = .realtime := hdelivery ▸ hrealtime
    rcases hactive active ha with ⟨hold, hne, hp⟩ | ⟨rfl, _, _, hplace, _⟩
    · obtain ⟨_, htold, hplace⟩ := h.realtime active hold hmode
      exact ⟨hp hmode, htold, fun height hs => hplace height (hshown height _ hne hs)⟩
    · exact hplace hmode
  · have hmode' : l.lifecycle.delivery ≠ .realtime := hdelivery ▸ hmode
    rcases hactive active ha with ⟨hold, hne, _⟩ | ⟨rfl, _, _, _, hhidden⟩
    · exact h.hidden active hold hmode' height (hshown height _ hne hs)
    · exact hhidden hmode' height hs

/-- The proposals other than the one that is shown stay as they were or are dropped. -/
theorem Audited.show (hrep : l.Replaceable blockNumber id)
    (hpublished : s'.published = update l.lifecycle.published blockNumber (some id))
    (hself : ∀ proposal, s'.proposals.lookup id = some proposal →
      proposal.publishedCommitment ≠ none ∧ proposal.blockNumber = blockNumber ∧
      (∀ log ∈ proposal.logs, log.content ∈ contents) ∧
      (l.lifecycle.emitRemovedLogs = true → proposal.state ≠ .finalized →
        contents = ↑(proposal.logs.map content))) (hactive : ∀ active, s'.active = some active →
      (l.lifecycle.active = some active ∧ active.id ≠ id) ∨
      (l.lifecycle.delivery = .realtime ∧ active.id = id ∧ active.blockNumber = blockNumber ∧
        active.logs = [] ∧ contents = 0 ∧ active.publishedCommitment ≠ none ∧
        ∀ height, l.shown height ≠ some id)) : Audited (l.book s' executed' out) := by
  refine h.touch hemit hexecuted hcontents hplaced hdelivery hothers (h.shows_update hpublished)
    (fun height other hne hs => ?_) (fun other proposal hne hstored hfinal => ?_)
    (fun proposal hp => ?_) (fun active ha => ?_)
  · rcases update_some_eq_some.mp hs with ⟨-, rfl⟩ | ⟨-, hbefore⟩
    · exact absurd rfl hne
    · exact hbefore
  · have hfirst := h.final other proposal hstored hfinal
    rw [update_some_eq_some]
    refine .inr ⟨?_, hfirst⟩
    -- a final proposal cannot be replaced
    rintro rfl
    obtain ⟨previous, hprevious, hstate⟩ := (hrep other hfirst).2 hne
    cases hstored.symm.trans hprevious
    exact hstate hfinal
  · obtain ⟨htold, hnumber, hmem, hwhole⟩ := hself proposal hp
    refine ⟨hmem, hwhole, fun _ _ => htold, fun _ => ?_⟩
    rw [hnumber, update_self]
  · rcases hactive active ha with ⟨hold, hne⟩ | ⟨hmode, hid, hnumber, hlogs, hzero, htold, hfresh⟩
    · refine .inl ⟨hold, hne, fun hmode => ?_⟩
      rw [hpublished, update_some_eq_some]
      exact .inr ⟨h.active_elsewhere hrep hold hne hmode, (h.realtime active hold hmode).1⟩
    rw [hlogs, hnumber, hpublished]
    refine .inr ⟨hid, fun log hlog => absurd hlog not_mem_nil, fun _ => hzero,
      fun _ => ⟨update_self .., htold, fun height hs => ?_⟩,
      fun hother => absurd hmode hother⟩
    rcases update_some_eq_some.mp hs with ⟨heq, -⟩ | ⟨-, hbefore⟩
    · exact heq
    · exact absurd hbefore (hfresh height)

end

/-- The events of a proposal that is shown: those of the switch, some of its own logs and heads.
Where it was not shown before, it is announced by its head. -/
theorem Audited.consistent_of_show (hbalanced : l.Balanced)
    (hrep : l.Replaceable blockNumber id) (blockHash parentHash : Option B256)
    (commitment : Commitment) (applied : List ExecutionLog) (heads : List ExecutionHead)
    (hout : out =
      l.lifecycle.switchBranch sequence id blockNumber blockHash parentHash commitment ++
      applied.map .log ++ heads.map .head)
    (hpublished : s'.published = update l.lifecycle.published blockNumber (some id))
    (happlied : ∀ log ∈ applied,
      log.removed = false ∧ log.blockNumber = blockNumber ∧ log.content ∈ contents)
    (hgrows : l.lifecycle.emitRemovedLogs = true →
      contents = (if l.shown blockNumber = some id then l.account blockNumber else 0) +
        ↑(applied.map content))
    (helsewhere : ∀ height, height ≠ blockNumber → l.shown height = some id →
      executed' id = l.executed id)
    (hannounces : l.shown blockNumber = some id ∨
      heads = [⟨sequence, blockNumber, blockHash, parentHash, commitment⟩] ∧
        (l.book s' executed' out).Announces sequence id
          ⟨sequence, blockNumber, blockHash, parentHash, commitment⟩) :
    Consistent l (l.book s' executed' out) sequence out := by
  have hshown : (l.book s' executed' out).shown = update l.shown blockNumber (some id) :=
    h.shows_update hpublished
  have hself : (l.book s' executed' out).shown blockNumber = some id := by
    rw [hshown, update_self]
  have hkinds : ∀ log ∈ applied, log.removed = false ∧ log.blockNumber = blockNumber :=
    fun log hlog => ⟨(happlied log hlog).1, (happlied log hlog).2.1⟩
  have hevents : ∀ event ∈ out,
      event ∈ l.lifecycle.switchBranch sequence id blockNumber blockHash parentHash commitment ∨
        (∃ log ∈ applied, event = .log log) ∨ ∃ head, event = .head head := by
    intro event hin
    rw [hout, append_assoc] at hin
    rcases mem_append.mp hin with hswitch | hrest
    · exact .inl hswitch
    rcases mem_append.mp hrest with hlog | hhead
    · obtain ⟨log, hmem, rfl⟩ := mem_map.mp hlog
      exact .inr (.inl ⟨log, hmem, rfl⟩)
    · obtain ⟨head, -, rfl⟩ := mem_map.mp hhead
      exact .inr (.inr ⟨head, rfl⟩)
  refine ⟨fun height previousId other hs hs' hne => ?_, fun oldHead newHead hin => ?_,
    fun log hin => ?_, fun he height => ?_⟩
  · rw [hshown] at hs'
    rcases update_some_eq_some.mp hs' with ⟨rfl, rfl⟩ | ⟨-, hs'⟩
    · rcases h.switch hrep sequence blockHash parentHash commitment with ⟨hnone | hsame, _⟩ |
        ⟨previousId', previous, _, removed, hshown', _, hstored, _, hremoved, _, hevents⟩
      · cases hs.symm.trans hnone
      · exact absurd (Option.some.inj (hs.symm.trans hsame)) hne
      cases hs.symm.trans hshown'
      rcases hannounces with hsame | ⟨rfl, hannounces⟩
      · exact absurd (Option.some.inj (hs.symm.trans hsame)) hne
      refine ⟨previous, removed, applied, _, hstored, hannounces, rfl,
        fun log hlog => ⟨(hremoved log hlog).1, (hremoved log hlog).2.1⟩, hkinds, ?_⟩
      rw [hout, hevents]
      simp only [append_assoc, cons_append, nil_append, map_cons, map_nil]
    · exact absurd (Option.some.inj (hs.symm.trans hs')) hne
  · rcases hevents _ hin with hswitch | ⟨_, _, heq⟩ | ⟨_, heq⟩
    · obtain ⟨previousId, _, hs, hne, _, ⟨_, heq, _⟩ | ⟨_, _, heq, hnumber⟩⟩ :=
        h.mem_switch hrep hswitch
      · cases heq
      cases heq
      rw [hnumber]
      exact ⟨previousId, id, hne, hs, hself⟩
    · cases heq
    · cases heq
  · rcases hevents _ hin with hswitch | ⟨_, hlog, heq⟩ | ⟨_, heq⟩
    · obtain ⟨previousId, contents', hs, hne, hexecuted', ⟨_, heq, hkind, hnumber, hmem⟩ |
        ⟨_, _, heq, _⟩⟩ := h.mem_switch hrep hswitch
      · cases heq
        rw [if_pos hkind, hnumber]
        exact ⟨previousId, contents', hs, (hexecuted _ hne).trans hexecuted', hmem⟩
      · cases heq
    · cases heq
      obtain ⟨hkind, hnumber, hmem⟩ := happlied log hlog
      rw [if_neg (by rw [hkind]; exact Bool.false_ne_true), hnumber]
      exact ⟨id, contents, hself, hcontents, hmem⟩
    · cases heq
  · have he' : l.lifecycle.emitRemovedLogs = true := hemit ▸ he
    have hb := hbalanced he' height
    obtain ⟨hnone, hremoved⟩ := h.logsOf_switch hrep sequence blockHash parentHash commitment height
    have hheads : ∀ removed, logsOf removed height (heads.map .head) = 0 := by
      intro removed
      simp [logsOf, filterMap_map]
    have hfalse : logsOf false height out =
        if blockNumber = height then ↑(applied.map content) else 0 := by
      rw [hout, logsOf_append, logsOf_append, hnone, logsOf_logs hkinds, hheads, zero_add, add_zero]
      simp only [true_and]
    have htrue : logsOf true height out =
        if blockNumber = height ∧ l.shown blockNumber ≠ some id then l.account blockNumber
          else 0 := by
      rw [hout, logsOf_append, logsOf_append, hremoved he', logsOf_logs hkinds, hheads,
        if_neg fun hboth : false = true ∧ _ => Bool.false_ne_true hboth.1, add_zero, add_zero]
    change l.applied height + logsOf false height out =
      l.removed height + logsOf true height out + (l.book s' executed' out).account height
    rw [hfalse, htrue, hb]
    by_cases hheight : height = blockNumber
    · subst hheight
      rw [Ledger.account_of_shown hself hcontents, hgrows he', if_pos rfl]
      by_cases hid : l.shown height = some id
      · rw [if_pos hid, if_neg fun hboth => hboth.2 hid, add_zero, add_assoc]
      · rw [if_neg hid, if_pos ⟨rfl, hid⟩, zero_add]
    have haccount : (l.book s' executed' out).account height = l.account height := by
      refine Ledger.account_congr (by rw [hshown, update_of_ne hheight]) fun other hs => ?_
      by_cases heq : other = id
      · rw [heq]
        exact helsewhere height hheight (heq ▸ hs)
      · exact hexecuted other heq
    rw [haccount, if_neg fun heq => hheight heq.symm, if_neg fun hboth => hheight hboth.1.symm,
      add_zero, add_zero]

end

end

/-! ### Publication -/

/-- A state in which only the proposal `id` has been touched, and the active one perhaps ended. -/
structure Prepared (s s₁ : ProposalLifecycle) (id : B256) : Prop where
  published : s₁.published = s.published
  delivery : s₁.delivery = s.delivery
  emitRemovedLogs : s₁.emitRemovedLogs = s.emitRemovedLogs
  active : ∀ active, s₁.active = some active → s.active = some active
  others : ∀ other, other ≠ id → s₁.proposals.lookup other = s.proposals.lookup other

variable (s : ProposalLifecycle)

theorem Prepared.marked (id : B256) (proposal : Proposal) (state : ProposalState) (sequence : Nat) :
    Prepared s (s.marked id proposal state sequence) id :=
  ⟨rfl, rfl, rfl, fun _ h => h, fun _ hne => lookup_insert_of_ne _ hne⟩

theorem Prepared.completed (active : ActiveProposal) (sequence : Nat)
    (blockHash : B256) : Prepared s (s.completed active sequence blockHash) active.id :=
  ⟨rfl, rfl, rfl, fun _ h => absurd h (Option.some_ne_none _).symm,
    fun _ hne => lookup_insert_of_ne _ hne⟩

/-- A state in which some proposals other than `id` have been dropped. -/
structure Narrowed (s s' : ProposalLifecycle) (id : B256) : Prop where
  published : s'.published = s.published
  delivery : s'.delivery = s.delivery
  emitRemovedLogs : s'.emitRemovedLogs = s.emitRemovedLogs
  active : s'.active = s.active
  stored : ∀ other proposal, s'.proposals.lookup other = some proposal →
    s.proposals.lookup other = some proposal
  self : s'.proposals.lookup id = s.proposals.lookup id

theorem Narrowed.refl (id : B256) : Narrowed s s id :=
  ⟨rfl, rfl, rfl, rfl, fun _ _ h => h, rfl⟩

theorem Narrowed.abandonOthers {s : ProposalLifecycle} (h : s.published blockNumber = some id)
    (candidates : List B256) : Narrowed s (s.abandonOthers id blockNumber candidates) id := by
  obtain ⟨_, _, _, heq, hlookup, hkept⟩ := s.abandonOthers_frame id blockNumber candidates
  rw [heq]
  refine ⟨?_, rfl, rfl, rfl, hlookup, hkept id (.inl rfl)⟩
  rw [← h, update_eq_self]

variable {proposal : Proposal} {commitment : Commitment}

/-- A stored proposal is published. -/
theorem Audited.publish (h : Audited l) (hbalanced : l.Balanced) {s₁ s₂ : ProposalLifecycle}
    (hprepared : Prepared l.lifecycle s₁ id)
    (hstored : s₁.proposals.lookup id = some proposal) (hcontents : l.executed id = some contents)
    (hlogs : ∀ log ∈ proposal.logs, log.blockNumber = proposal.blockNumber ∧ log.content ∈ contents)
    (hwhole : l.lifecycle.emitRemovedLogs = true → contents = ↑(proposal.logs.map content))
    (htold : l.shown proposal.blockNumber = some id → proposal.publishedCommitment ≠ none)
    (hrep : l.Replaceable proposal.blockNumber id)
    (hfinal : commitment = .finalized → proposal.state = .finalized)
    (hpublish : s₁.publish sequence id commitment = (s₂, .ok out)) (hnarrowed : Narrowed s₂ s' id)
    (hplaced : ProposalLifecycle.Placed s' fun _ _ _ => True) :
    l.Books (l.book s' l.executed out) sequence out := by
  obtain ⟨proposal', hstored', hout, _, _, rfl⟩ := publish_eq_ok hpublish
  cases hstored.symm.trans hstored'
  have hshows : s'.published =
      update l.lifecycle.published proposal.blockNumber (some id) := by
    rw [hnarrowed.published, hprepared.published]
  have hself : s'.proposals.lookup id = some (s₁.publishedAs proposal sequence commitment) :=
    hnarrowed.self.trans (lookup_insert _)
  have hemit : s'.emitRemovedLogs = l.lifecycle.emitRemovedLogs :=
    hnarrowed.emitRemovedLogs.trans hprepared.emitRemovedLogs
  obtain ⟨hnumber, _, hstate, hsub⟩ := s₁.publishedAs_frame proposal sequence commitment
  refine ⟨h.show hemit (fun _ _ => rfl) hcontents hplaced
    (hnarrowed.delivery.trans hprepared.delivery) (fun other stored hfound hne => ?_) hrep hshows
    (fun stored hfound => ?_) (fun active ha => .inl ?_), ?_⟩
  · rw [← hprepared.others other hne]
    exact (lookup_insert_of_ne _ hne).symm.trans (hnarrowed.stored other stored hfound)
  · cases hself.symm.trans hfound
    refine ⟨Option.some_ne_none _, hnumber, fun log hlog => (hlogs log (hsub log hlog)).2,
      fun hremovals hopen => ?_⟩
    have hcommitment : commitment ≠ .finalized := fun hc => hopen (hstate.trans (hfinal hc))
    have hkept : (s₁.publishedAs proposal sequence commitment).logs = proposal.logs := by
      unfold publishedAs
      rw [if_pos ⟨hprepared.emitRemovedLogs.trans hremovals, hcommitment⟩]
    rw [hkept]
    exact hwhole hremovals
  · refine ⟨hprepared.active active (hnarrowed.active.symm.trans ha), ?_⟩
    rintro rfl
    cases (hplaced.active active ha).1.symm.trans hself
  · -- the logs are applied exactly when the proposal was not the one shown
    have hcondition : (proposal.publishedCommitment = none ∨
        s₁.published proposal.blockNumber ≠ some id) ↔ l.shown proposal.blockNumber ≠ some id := by
      rw [hprepared.published]
      refine ⟨?_, fun hother => .inr fun hp => hother (h.shown _ _ hp)⟩
      rintro (hnone | hother) hs
      · exact htold hs hnone
      · exact hother (hrep id hs).1
    refine h.consistent_of_show hemit (fun _ _ => rfl) hcontents hbalanced hrep
      (some proposal.blockHash) (some proposal.parentHash) commitment
      (if l.shown proposal.blockNumber ≠ some id then proposal.logs.map fun log =>
        materializeLog log none proposal.blockHash commitment false else []) [_] ?_ hshows
      (fun log hlog => ?_) (fun hremovals => ?_) (fun _ _ _ => rfl)
      (.inr ⟨rfl, .inl ⟨_, hself, ?_⟩⟩)
    · rw [hout, switchBranch_congr hprepared.published hprepared.emitRemovedLogs hprepared.others]
      by_cases hs : l.shown proposal.blockNumber = some id
      · rw [if_neg fun happly => hcondition.mp happly hs, if_neg (not_not.mpr hs)]
        rfl
      · rw [if_pos (hcondition.mpr hs), if_pos hs, map_map]
        rfl
    · split at hlog
      · obtain ⟨before, hbefore, rfl⟩ := mem_map.mp hlog
        exact ⟨rfl, hlogs before hbefore⟩
      · cases hlog
    · by_cases hs : l.shown proposal.blockNumber = some id
      · rw [if_pos hs, if_neg (not_not.mpr hs), Ledger.account_of_shown hs hcontents]
        exact (Multiset.add_zero contents).symm
      · rw [if_neg hs, if_pos hs, map_map, hwhole hremovals]
        exact (Multiset.zero_add _).symm
    · unfold publishedAs Proposal.oldHead
      split <;> rfl

/-! ### Records that show nothing new -/

/-- Only heads are emitted, and the accounts stay as they are. -/
theorem Audited.consistent_of_quiet (hbalanced : l.Balanced) (hshows : l.shows s' = l.shown)
    (hemit : s'.emitRemovedLogs = l.lifecycle.emitRemovedLogs)
    (hexecuted : ∀ height id, l.shown height = some id → executed' id = l.executed id)
    (hout : ∀ event ∈ out, ∃ head, event = .head head) :
    Consistent l (l.book s' executed' out) sequence out := by
  have hnone : ∀ removed height, logsOf removed height out = 0 := by
    intro removed height
    unfold logsOf
    rw [filterMap_eq_nil_iff.mpr]
    · rfl
    intro event hin
    obtain ⟨head, rfl⟩ := hout event hin
    rfl
  refine ⟨fun height previousId id hs hs' hne => ?_, fun oldHead newHead hin => ?_,
    fun log hin => ?_, fun he height => ?_⟩
  · change l.shows s' height = some id at hs'
    rw [hshows] at hs'
    exact absurd (Option.some.inj (hs.symm.trans hs')) hne
  · obtain ⟨_, heq⟩ := hout _ hin
    cases heq
  · obtain ⟨_, heq⟩ := hout _ hin
    cases heq
  have haccount : (l.book s' executed' out).account height = l.account height :=
    Ledger.account_congr (congrFun hshows height) (hexecuted height)
  change l.applied height + logsOf false height out = l.removed height + logsOf true height out + _
  rw [hnone, hnone, haccount, Multiset.add_zero, Multiset.add_zero]
  exact hbalanced (hemit ▸ he) height

/-- One proposal is written without being published. -/
theorem Audited.write (h : Audited l) (hbalanced : l.Balanced)
    (hplaced : ProposalLifecycle.Placed s' fun _ _ _ => True)
    (hprepared : Prepared l.lifecycle s' id) (hcontents : l.executed id = some contents)
    (hself : s'.proposals.lookup id = some proposal)
    (hmem : ∀ log ∈ proposal.logs, log.content ∈ contents)
    (hwhole : l.lifecycle.emitRemovedLogs = true → contents = ↑(proposal.logs.map content))
    (htold : ∀ height, l.shown height = some id → proposal.publishedCommitment ≠ none)
    (hopen : proposal.state ≠ .finalized) (hout : ∀ event ∈ out, ∃ head, event = .head head) :
    l.Books (l.book s' l.executed out) sequence out := by
  have hshows : l.shows s' = l.shown :=
    shows_of_published fun height id hp => h.shown height id (hprepared.published ▸ hp)
  refine ⟨h.touch hprepared.emitRemovedLogs (fun _ _ => rfl) hcontents hplaced hprepared.delivery
      (fun other stored hp hne => (hprepared.others other hne).symm.trans hp) hshows
      (fun _ _ _ hs => hs) (fun other stored _ => h.final other stored) (fun stored hp => ?_)
      fun active ha => .inl ⟨hprepared.active active ha, ?_, fun hmode => ?_⟩,
    Audited.consistent_of_quiet hbalanced hshows hprepared.emitRemovedLogs (fun _ _ _ => rfl) hout⟩
  · cases hself.symm.trans hp
    exact ⟨hmem, fun he _ => hwhole he, htold,
      fun hfinal => absurd hfinal hopen⟩
  · rintro rfl
    cases (hplaced.active active ha).1.symm.trans hself
  · rw [hprepared.published]
    exact (h.realtime active (hprepared.active active ha) hmode).1

end Lunarbase.Monad
