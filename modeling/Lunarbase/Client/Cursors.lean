import Lunarbase.Client.Envelope
import Lunarbase.Client.Transitions
import Lunarbase.Support.Run

/-!
# Client — Cursors

The two positions of the reducer: the published cursor, which heads and events move, and the
cursor of the last event.  A failed call moves neither and changes no data.  Along any run the last
event is not above the published block and, in the same block, agrees with it; only a rewind or a
bootstrap takes the published block back.

`observe_corrected_head` publishes whatever head it is given once `observe_head` has not refused
it, and `observe_head` ignores an older head.  So the order of the cursors is an obligation of its
caller; `into_corrected_core` meets it (`correction_disciplined`).
-/

namespace Lunarbase.Client

open QuoteReducer

/-! ### Failures -/

/-- **A failed call leaves the reducer as it was**, the data and both cursors. -/
theorem failed_call_changes_nothing (r : QuoteReducer) (cursor head : ChainCursor)
    (event : QuoteEvent) (e : ReducerError) :
    ((r.applyWithEffect cursor event).2 = .error e → (r.applyWithEffect cursor event).1 = r) ∧
    ((r.observeHead head).2 = .error e → (r.observeHead head).1 = r) := by
  constructor
  · intro h
    rcases hout : r.applyWithEffect cursor event with ⟨r', out⟩
    rw [hout] at h
    rcases applyWithEffect_cases hout with
      ⟨e', -, hsame⟩ | ⟨hok, -, -⟩ | ⟨data, changed, hok, -⟩
    · exact hsame
    · exact absurd (hok.symm.trans h) (by simp)
    · exact absurd (hok.symm.trans h) (by simp)
  · intro h
    exact observeHead_error (Prod.ext rfl h)

/-- The small snapshot at block 5. -/
def atFive : QuoteReducer :=
  (new smallSnapshot.state .whitelisted none).bootstrap (blockAt 5 0xb5)

/-- An event applied in block 10 after that. -/
def eventAtTen : QuoteReducer :=
  (atFive.applyWithEffect { blockAt 10 0xba with transactionIndex := some 0, logIndex := some 0 }
    (.blacklistFeeMultiplierSet 20000)).1

/-- The reserves of an unknown lane are refused, and so is a head of another chain. -/
theorem failed_call_changes_nothing_unknown :
    (eventAtTen.applyWithEffect (blockAt 11 0xbb) (.sync 0xdead 1 2)).1 = eventAtTen ∧
    (eventAtTen.observeHead { blockAt 11 0xbb with chainId := 2 }).1 = eventAtTen :=
  ⟨(failed_call_changes_nothing eventAtTen (blockAt 11 0xbb) (blockAt 11 0xbb)
      (.sync 0xdead 1 2) .unknownLane).1 (by decide +kernel),
    (failed_call_changes_nothing eventAtTen (blockAt 11 0xbb) { blockAt 11 0xbb with chainId := 2 }
      (.sync 0xdead 1 2) .chainIdMismatch).2 (by decide +kernel)⟩

/-! ### Calls -/

/-- The calls that move the cursors. -/
inductive ReducerCall where
  | bootstrap (cursor : ChainCursor)
  | observeHead (head : ChainCursor)
  | applyWithEffect (cursor : ChainCursor) (event : QuoteEvent)
  | rewindHead (head : ChainCursor)
  | observeCorrectedHead (head : ChainCursor)

def QuoteReducer.perform (r : QuoteReducer) : ReducerCall → QuoteReducer
  | .bootstrap cursor => r.bootstrap cursor
  | .observeHead head => (r.observeHead head).1
  | .applyWithEffect cursor event => (r.applyWithEffect cursor event).1
  | .rewindHead head => (r.rewindHead head).1
  | .observeCorrectedHead head => (r.observeCorrectedHead head).1

/-- The calls that may take the published block back. -/
def ReducerCall.resets : ReducerCall → Bool
  | .bootstrap _ | .rewindHead _ => true
  | .observeHead _ | .applyWithEffect _ _ | .observeCorrectedHead _ => false

/-- A published cursor that moved on: to a higher block, or in its block to a commitment that is
not weaker. -/
def Onward (before after : ChainCursor) : Prop :=
  before.blockNumber < after.blockNumber ∨
    before.blockNumber = after.blockNumber ∧ before.commitment.rank ≤ after.commitment.rank

instance (before after : ChainCursor) : Decidable (Onward before after) :=
  inferInstanceAs (Decidable (_ ∨ _ ∧ _))

theorem Onward.refl (cursor : ChainCursor) : Onward cursor cursor := .inr ⟨rfl, le_rfl⟩

/-- The obligation of a caller: a corrected head does not go back. -/
def QuoteReducer.disciplined (r : QuoteReducer) : ReducerCall → Bool
  | .observeCorrectedHead head => r.cursor.all fun published => Onward published head
  | _ => true

/-- The last event is not above the published block, and names it when it is in it. -/
def Agree (event published : ChainCursor) : Prop :=
  event.blockNumber ≤ published.blockNumber ∧ (event.blockNumber = published.blockNumber →
      event.executionBlockNumber = published.executionBlockNumber ∧
        event.blockHash = published.blockHash)

namespace QuoteReducer

def CursorsAgree (r : QuoteReducer) : Prop :=
  ∀ event, r.eventCursor = some event →
    ∃ published, r.cursor = some published ∧ Agree event published

/-! ### One step -/

/-- A head that is not stale names the block of the last event, when that is its own. -/
theorem identity_of_validateHeadAgainstEvent {event head : ChainCursor}
    {current : Option ChainCursor} (h : validateHeadAgainstEvent (some event) current head = .ok ())
    (hnumber : event.blockNumber = head.blockNumber)
    (hcurrent : ∀ published, current = some published → published.blockNumber ≤ head.blockNumber) :
    event.executionBlockNumber = head.executionBlockNumber ∧ event.blockHash = head.blockHash := by
  have hstale : ¬ current.any (fun published => head.blockNumber < published.blockNumber) := by
    cases current with
    | none => simp
    | some published => simpa using hcurrent published rfl
  simp only [validateHeadAgainstEvent, hnumber, ne_eq, not_true_eq_false, hstale, or_self,
    if_false, Bool.false_eq_true] at h
  obtain ⟨hconflict, -⟩ := Except.ite_error_eq_ok.mp h
  simp only [not_or, not_not] at hconflict
  refine ⟨hconflict.1, ?_⟩
  have hhash := hconflict.2
  cases heventHash : event.blockHash with
  | none =>
    cases hheadHash : head.blockHash with
    | none => rfl
    | some right => simp [heventHash, hheadHash] at hhash
  | some left =>
    cases hheadHash : head.blockHash with
    | none => simp [heventHash, hheadHash] at hhash
    | some right => simpa [heventHash, hheadHash] using hhash

variable (current head : ChainCursor)

theorem mergeHead_blockNumber : (mergeHead current head).blockNumber = current.blockNumber := by
  rw [mergeHead]
  split_ifs <;> rfl

theorem mergeHead_chainId : (mergeHead current head).chainId = current.chainId := by
  rw [mergeHead]
  split_ifs <;> rfl

theorem mergeHead_commitment :
    current.commitment.rank ≤ (mergeHead current head).commitment.rank := by
  rw [mergeHead]
  split_ifs with hhash hlt hseq hseq hlt hseq hseq <;> first
    | exact hlt.le
    | exact le_rfl

/-- A head with the published hash keeps the identity of the published block. -/
theorem mergeHead_identity {current head : ChainCursor} (h : current.blockHash = head.blockHash) :
    (mergeHead current head).executionBlockNumber = current.executionBlockNumber ∧
      (mergeHead current head).blockHash = current.blockHash := by
  rw [mergeHead, if_neg (not_not.mpr h)]
  split_ifs <;> exact ⟨rfl, rfl⟩

variable {r r' : QuoteReducer} {head : ChainCursor}

theorem validateHeadAgainstEvent_of_observeHead (h : r.observeHead head = (r', .ok ())) :
    validateHeadAgainstEvent r.eventCursor r.cursor head = .ok () := by
  rw [observeHead] at h
  cases hvalid : validateHeadAgainstEvent r.eventCursor r.cursor head with
  | error e => simp [hvalid] at h
  | ok u => rfl

theorem observeHead_agree (hr : r.CursorsAgree)
    (h : r.observeHead head = (r', .ok ())) : r'.CursorsAgree := by
  rcases observeHead_cases h with
    ⟨-, -, -, rfl⟩ | ⟨current, hcurrent, hsame, hpinned, rfl⟩ | ⟨habove, rfl⟩
  · exact hr
  · intro event hevent
    obtain ⟨published, hpublished, hle, hidentity⟩ := hr event hevent
    obtain rfl : current = published := Option.some.inj (hcurrent.symm.trans hpublished)
    refine ⟨_, rfl, ?_, ?_⟩
    · rwa [mergeHead_blockNumber]
    rw [mergeHead_blockNumber]
    intro hnumber
    rcases hpinned with hhash | hfree
    · obtain ⟨hexecution, hhash'⟩ := mergeHead_identity hhash
      rw [hexecution, hhash']
      exact hidentity hnumber
    · exact absurd (hnumber.trans hsame.symm) (hfree event hevent)
  · intro event hevent
    obtain ⟨published, hpublished, hle, -⟩ := hr event hevent
    have hlt : event.blockNumber < head.blockNumber := hle.trans_lt (habove published hpublished).1
    exact ⟨head, rfl, hlt.le, fun heq => absurd heq hlt.ne⟩

/-- An event names the block it is published in. -/
theorem agree_publishEvent (published : Option ChainCursor) (cursor : ChainCursor) :
    Agree cursor (publishEvent published cursor) := by
  cases published with
  | none => exact ⟨le_rfl, fun _ => ⟨rfl, rfl⟩⟩
  | some head =>
    rw [publishEvent]
    split_ifs with hbelow hsequence hsame
    · exact ⟨hbelow.le, fun heq => absurd heq hbelow.ne⟩
    · exact ⟨hbelow.le, fun heq => absurd heq hbelow.ne⟩
    · exact ⟨le_rfl, fun _ => ⟨rfl, rfl⟩⟩
    · exact ⟨le_rfl, fun _ => ⟨rfl, rfl⟩⟩

theorem onward_publishEvent (head cursor : ChainCursor) :
    Onward head (publishEvent (some head) cursor) := by
  rw [publishEvent]
  split_ifs with hbelow hsequence hsame
  · exact .inr ⟨rfl, le_rfl⟩
  · exact Onward.refl head
  · refine .inr ⟨hsame.symm, ?_⟩
    show head.commitment.rank ≤ (cursor.commitment.max head.commitment).rank
    rw [Commitment.max]
    split_ifs with hle
    · exact le_rfl
    · exact (not_le.mp hle).le
  · exact .inl (lt_of_le_of_ne (not_lt.mp hbelow) (Ne.symm hsame))

variable {call : ReducerCall} {r : QuoteReducer}

/-- **Each disciplined call keeps the cursors in agreement.** -/
theorem perform_agree (hr : r.CursorsAgree)
    (hcall : r.disciplined call = true) : (r.perform call).CursorsAgree := by
  cases call with
  | bootstrap cursor =>
    intro event hevent
    exact absurd hevent (by simp [perform, bootstrap])
  | observeHead head =>
    rcases hout : r.observeHead head with ⟨r', out⟩
    rw [perform, hout]
    cases out with
    | error e => exact observeHead_error hout ▸ hr
    | ok u => exact observeHead_agree hr hout
  | applyWithEffect cursor event =>
    rcases hout : r.applyWithEffect cursor event with ⟨r', out⟩
    rw [perform, hout]
    rcases applyWithEffect_cases hout with
      ⟨-, -, rfl⟩ | ⟨-, rfl, -⟩ | ⟨data, changed, -, -, -, rfl⟩
    · exact hr
    · exact hr
    rintro _ ⟨⟩
    exact ⟨_, rfl, agree_publishEvent r.cursor cursor⟩
  | rewindHead head =>
    rw [perform, rewindHead]
    split_ifs
    · exact hr
    intro event hevent
    cases hevent
  | observeCorrectedHead head =>
    rw [perform, observeCorrectedHead]
    rcases hout : r.observeHead head with ⟨r', out⟩
    cases out with
    | error e => exact observeHead_error hout ▸ hr
    | ok u =>
      intro event hevent
      obtain ⟨c, rfl⟩ := observeHead_ok hout
      obtain ⟨published, hpublished, hle, -⟩ := hr event hevent
      have honward : Onward published head := by simpa [disciplined, hpublished] using hcall
      have hhead : published.blockNumber ≤ head.blockNumber := honward.elim le_of_lt (·.1.le)
      have hvalid : validateHeadAgainstEvent (some event) r.cursor head = .ok () := by
        rw [← hevent]
        exact validateHeadAgainstEvent_of_observeHead hout
      refine ⟨head, rfl, hle.trans hhead, fun hnumber => ?_⟩
      refine identity_of_validateHeadAgainstEvent hvalid hnumber fun current hcurrent => ?_
      rw [hpublished] at hcurrent
      exact Option.some.inj hcurrent ▸ hhead

/-- **Only a rewind or a bootstrap takes the published block back**, or its commitment. -/
theorem perform_onward {published : ChainCursor} (hcall : r.disciplined call = true)
    (hresets : call.resets = false) (hpublished : r.cursor = some published) :
    ∃ published', (r.perform call).cursor = some published' ∧ Onward published published' := by
  have hsame : ∃ published', r.cursor = some published' ∧ Onward published published' :=
    ⟨published, hpublished, .refl published⟩
  cases call with
  | bootstrap cursor | rewindHead head => cases hresets
  | observeHead head =>
    rcases hout : r.observeHead head with ⟨r', out⟩
    rw [perform, hout]
    cases out with
    | error e => exact observeHead_error hout ▸ hsame
    | ok u =>
      rcases observeHead_cases hout with
        ⟨-, -, -, rfl⟩ | ⟨current, hcurrent, -, -, rfl⟩ | ⟨habove, rfl⟩
      · exact hsame
      · obtain rfl : current = published := Option.some.inj (hcurrent.symm.trans hpublished)
        exact ⟨_, rfl, .inr ⟨(mergeHead_blockNumber current head).symm,
          mergeHead_commitment current head⟩⟩
      · exact ⟨head, rfl, .inl (habove published hpublished).1⟩
  | applyWithEffect cursor event =>
    rcases hout : r.applyWithEffect cursor event with ⟨r', out⟩
    rw [perform, hout]
    rcases applyWithEffect_cases hout with
      ⟨-, -, rfl⟩ | ⟨-, rfl, -⟩ | ⟨data, changed, -, -, -, rfl⟩
    · exact hsame
    · exact hsame
    · exact ⟨_, rfl, hpublished ▸ onward_publishEvent published cursor⟩
  | observeCorrectedHead head =>
    rw [perform, observeCorrectedHead]
    rcases hout : r.observeHead head with ⟨r', out⟩
    cases out with
    | error e => exact observeHead_error hout ▸ hsame
    | ok u => exact ⟨head, rfl, by simpa [disciplined, hpublished] using hcall⟩

end QuoteReducer

/-! ### Corrections are disciplined -/

/-- Below the tip, or in its block with its commitment. -/
def Under (tip cursor : ChainCursor) : Prop :=
  cursor.blockNumber ≤ tip.blockNumber ∧
    (cursor.blockNumber = tip.blockNumber → cursor.commitment = tip.commitment)

variable {tip cursor : ChainCursor}

theorem Under.onward (h : Under tip cursor) : Onward cursor tip := by
  rcases h.1.lt_or_eq with hlt | heq
  · exact .inl hlt
  · exact .inr ⟨heq, (congrArg Commitment.rank (h.2 heq)).le⟩

theorem Under.publishEvent {tip head cursor : ChainCursor} (hhead : Under tip head)
    (hcursor : Under tip cursor) : Under tip (publishEvent (some head) cursor) := by
  rw [QuoteReducer.publishEvent]
  split_ifs with hbelow hsequence hsame
  · exact hhead
  · exact hhead
  · refine ⟨hcursor.1, fun htip => ?_⟩
    show cursor.commitment.max head.commitment = tip.commitment
    rw [Commitment.max, hcursor.2 htip, hhead.2 (hsame.symm.trans htip), if_pos le_rfl]
  · exact hcursor

namespace ChainCorrection

variable {env : Platform} {c : ChainCorrection}

theorem ancestor_under (h : c.validate env = .ok ()) :
    Under c.newTip.cursor c.commonAncestor.cursor := by
  obtain ⟨-, -, -, hnew, -⟩ := validate_eq_ok h
  by_cases hempty : c.newBranch = []
  · rw [hnew.empty_iff.mp hempty]
    exact ⟨le_rfl, fun _ => rfl⟩
  · have hlt := hnew.above c.newTip (hnew.tip_mem hempty)
    exact ⟨hlt.le, fun heq => absurd heq hlt.ne⟩

theorem log_under (h : c.validate env = .ok ()) {log : ContractLog}
    (hlog : log ∈ c.replacementLogs) : Under c.newTip.cursor log.cursor := by
  obtain ⟨-, -, -, hnew, -⟩ := validate_eq_ok h
  obtain ⟨block, hblock, hin, -⟩ := logs_of_validate h log hlog
  rw [Under, hin.number, hin.commitment]
  refine ⟨hnew.le_tip block hblock, fun heq => ?_⟩
  rw [hnew.linked.eq_of_height hblock (hnew.tip_mem (List.ne_nil_of_mem hblock)) heq]

end ChainCorrection

variable {bytes : ImageCost} {env : Platform}

/-- A replayed log moves the published cursor only up to the tip its block is below. -/
theorem replayLogs_under {logs : List ContractLog} {s replayed : QuoteIndexer}
    (hlogs : ∀ log ∈ logs, Under tip log.cursor)
    (hs : ∃ published, s.reducer.cursor = some published ∧ Under tip published)
    (h : s.replayLogs env bytes logs = .ok replayed) :
    ∃ published, replayed.reducer.cursor = some published ∧ Under tip published := by
  refine QuoteIndexer.replayLogs_invariant
    (P := fun t => ∃ published, t.reducer.cursor = some published ∧ Under tip published) h hs ?_
  rintro log hlog event - t t' hout ⟨published, hpublished, hunder⟩
  rcases QuoteIndexer.applyDecodedLog_cases hout with
    ⟨e, hcontra, -⟩ | ⟨-, -, -, -, rfl⟩ | ⟨new, data, changed, -, -, -, -, -, -, rfl⟩
  · cases hcontra
  · exact ⟨published, hpublished, hunder⟩
  refine ⟨_, rfl, ?_⟩
  rw [hpublished]
  exact hunder.publishEvent (hlogs log hlog)

/-- **Where a correction publishes its tip, the tip is onward.** -/
theorem correction_disciplined {s rewound replayed : QuoteIndexer} {c : ChainCorrection}
    (hvalid : c.validate env = .ok ()) (hrewound : s.rewindTo c = .ok rewound)
    (hreplayed : (rewound.recordBranch c.newBranch).replayLogs env bytes c.replacementLogs =
      .ok replayed) :
    replayed.reducer.disciplined (.observeCorrectedHead c.newTip.cursor) = true := by
  obtain ⟨restore, -, rfl⟩ := QuoteIndexer.rewindTo_eq_ok hrewound
  obtain ⟨published, hpublished, hunder⟩ := replayLogs_under
    (fun log hlog => ChainCorrection.log_under hvalid hlog)
    ⟨_, rfl, ChainCorrection.ancestor_under hvalid⟩ hreplayed
  simp [disciplined, hpublished, hunder.onward]

/-! ### Every run -/

/-- **The cursors are in order along every disciplined run**, each call other than a rewind or a
bootstrap takes the published block onward, and corrections are disciplined. -/
theorem cursors_in_order :
    (∀ (fresh : QuoteReducer) (start : ChainCursor) (r : QuoteReducer),
      Run perform (fun r call => r.disciplined call = true) (fresh.bootstrap start) r →
      r.CursorsAgree ∧
      ∀ call published, r.disciplined call = true → call.resets = false →
        r.cursor = some published →
        ∃ published', (r.perform call).cursor = some published' ∧ Onward published published') ∧
    ∀ (env : Platform) (bytes : ImageCost) (s rewound replayed : QuoteIndexer)
      (c : ChainCorrection), c.validate env = .ok () → s.rewindTo c = .ok rewound →
      (rewound.recordBranch c.newBranch).replayLogs env bytes c.replacementLogs = .ok replayed →
      replayed.reducer.disciplined (.observeCorrectedHead c.newTip.cursor) = true := by
  constructor
  · intro fresh start r hrun
    have hagree : r.CursorsAgree :=
      hrun.invariant (P := QuoteReducer.CursorsAgree)
        (fun event hevent => absurd hevent (by simp [bootstrap]))
        fun _ _ hr hcall => perform_agree hr hcall
    exact ⟨hagree, fun _ _ hcall hresets hpublished =>
      perform_onward hcall hresets hpublished⟩
  · intro env bytes s rewound replayed c hvalid hrewound hreplayed
    exact correction_disciplined hvalid hrewound hreplayed

/-- Head 6, an event in block 7, a rewind to block 5 and a corrected head 8. -/
def rewoundCalls : List ReducerCall :=
  [.observeHead (blockAt 6 0xb6),
    .applyWithEffect { blockAt 7 0xb7 with transactionIndex := some 0, logIndex := some 0 }
      (.blacklistFeeMultiplierSet 20000),
    .rewindHead (blockAt 5 0xb5), .observeCorrectedHead (blockAt 8 0xd8)]

theorem cursors_in_order_rewound :
    ∃ r : QuoteReducer, r.cursor = some (blockAt 8 0xd8) ∧ r.CursorsAgree ∧
      ∃ published, (r.perform (.observeHead (blockAt 9 0xd9))).cursor = some published ∧
        Onward (blockAt 8 0xd8) published := by
  have hrun : Run perform (fun r call => r.disciplined call = true) atFive
      (rewoundCalls.foldl perform atFive) :=
    Run.ofList disciplined .refl (by decide +kernel)
  have hcursor : (rewoundCalls.foldl perform atFive).cursor =
      some (blockAt 8 0xd8) := by decide +kernel
  obtain ⟨hagree, honward⟩ := cursors_in_order.1 _ _ _ hrun
  exact ⟨_, hcursor, hagree, honward _ _ rfl rfl hcursor⟩

/-- **An undisciplined head leaves the last event above the published block**: after an event in
block 10, block 7 is published. -/
theorem corrected_head_below_event :
    ∃ r : QuoteReducer, Run perform (fun _ _ => True) atFive r ∧
      r.cursor.map (·.blockNumber) = some 7 ∧ r.eventCursor.map (·.blockNumber) = some 10 := by
  refine ⟨eventAtTen.perform (.observeCorrectedHead (blockAt 7 0xb7)), ?_, by decide +kernel,
    by decide +kernel⟩
  exact .more (.more (i := ReducerCall.applyWithEffect _ _) .refl trivial) trivial

end Lunarbase.Client
