import Lunarbase.Client.Reorder
import Lunarbase.EventWorker.Chain
import Mathlib.Data.Char
import Mathlib.Data.List.MinMax

/-!
# EventWorker — Commands

What the store's commands leave behind, over every sequence of them.

A command that fails changes no key (`failed_command_no_effect`): the scripts test before they
write, and the one error that comes after a write asks for a finalized head without a header, which
no sequence of commands leads to.

The text of a cursor is compared in the place of the cursor (`cursorOrder_lt_iff`), so the durable
cursor is the highest position applied since the last correction (`durable_cursor_is_highest`).
-/

namespace Lunarbase.EventWorker

open Client (BlockRef ContractLog ChainCursor u64Max u32Max)
open List Option

/-- The components of the cursor are the machine's. -/
structure CursorInRange (cursor : ChainCursor) : Prop extends cursor.InRange where
  blockNumber : cursor.blockNumber ≤ u64Max

/-- Texts that begin with a padded number compare as the numbers do, and then as the rests. -/
theorem padded_append_lt_iff {len m n : Nat} {x y : Text} {u v : List Nat} (hm : m < 10 ^ len)
    (hn : n < 10 ^ len) (h : x < y ↔ u < v) :
    padded len m ++ x < padded len n ++ y ↔ m :: u < n :: v := by
  have hdigit : ∀ e < 10, ∀ d < e, Nat.digitChar d < Nat.digitChar e := by decide
  have hmono := Digits.strictMonoOn_map_padDigits (by decide) hdigit len
  have hlength : (padded len m).length = (padded len n).length := by simp [padded]
  rw [Digits.append_lt_append_iff hlength, h, cons_lt_cons_iff]
  exact or_congr (hmono.lt_iff_lt hm hn) (and_congr_left' (hmono.injOn.eq_iff hm hn))

/-- The texts of two positions compare as the positions do. -/
theorem cursorOrder_lt_iff {c d : ChainCursor} (hc : CursorInRange c) (hd : CursorInRange d) :
    cursorOrder c < cursorOrder d ↔ c.eventOrder < d.eventOrder := by
  obtain ⟨t, l, q, i, horder, ht, hl, hq, hi⟩ := hc.eventOrder
  obtain ⟨t', l', q', i', horder', ht', hl', hq', hi'⟩ := hd.eventOrder
  have hlong : ∀ n ≤ u64Max, n < 10 ^ 20 := fun n h => h.trans_lt (by decide)
  have hshort : ∀ n ≤ u32Max, n < 10 ^ 10 := fun n h => h.trans_lt (by decide)
  have hcolon : ∀ {x y : Text} {u : Prop}, (x < y ↔ u) → (':' :: x < ':' :: y ↔ u) := by
    simp
  rw [cursorOrder, cursorOrder, horder, horder']
  simp only [append_assoc, cons_append]
  have hsub := padded_append_lt_iff (x := []) (y := []) (u := []) (v := []) (hshort i hi)
    (hshort i' hi') (by simp)
  rw [append_nil, append_nil] at hsub
  have hsequence := padded_append_lt_iff (hlong q hq) (hlong q' hq') (hcolon hsub)
  have hlog := padded_append_lt_iff (hshort l hl) (hshort l' hl') (hcolon hsequence)
  have htransaction := padded_append_lt_iff (hshort t ht) (hshort t' ht') (hcolon hlog)
  exact padded_append_lt_iff (hlong _ hc.blockNumber) (hlong _ hd.blockNumber) (hcolon htransaction)

/-! ### Commands -/

namespace Store

/-- The store before anything was written to it. -/
def empty : Store := { initial [] with fingerprint := none }

/-- The metadata script writes only where there is no metadata; a mismatch is an error and changes
nothing, as a match does. -/
def initializeMetadata (s : Store) (fingerprint : Text) : Store :=
  match s.fingerprint with
  | some _ => s
  | none => { s with fingerprint := some fingerprint }

end Store

inductive Command where
  | initializeMetadata (fingerprint : Text)
  | call (w : Worker) (call : Call)

def Store.execute (s : Store) : Command → Store
  | .initializeMetadata fingerprint => s.initializeMetadata fingerprint
  | .call w call => s.perform w call

namespace Store

variable {s : Store}

theorem FinalizedStored.perform (h : s.FinalizedStored) (w : Worker) (call : Call) :
    (s.perform w call).FinalizedStored := by
  rcases s.perform_cases w call with hsame | ⟨_, head, promote, -, -, hcheck, hwrite, -⟩ |
    ⟨_, event, -, -, -, -, -, -, _, _, hwrite⟩ | ⟨_, _, _, _, _, _, _, plan, -, -, -, -, -, hwrite⟩
  · rwa [hsame]
  · rw [hwrite]
    rcases (s.writeHead head promote).promoteFinalized_eq head with heq | ⟨heq, -⟩
    · rw [heq]
      exact h.writeHead head promote
    intro hash hhash
    rw [heq] at hhash ⊢
    cases hhash
    rw [writeHead_eq]
    exact ⟨head.headerJson, storeHeader_self (checkHead_eq_ok hcheck).identity⟩
  · rw [hwrite]
    exact h
  · rw [hwrite]
    exact h.commit plan

theorem FinalizedStored.execute (h : s.FinalizedStored) (command : Command) :
    (s.execute command).FinalizedStored := by
  cases command with
  | initializeMetadata fingerprint =>
    rw [Store.execute, Store.initializeMetadata]
    split
    · exact h
    · exact h
  | call w call => exact h.perform w call

/-- The finality of a head is settled without an error where the finalized head has its header. -/
theorem FinalizedStored.promoteFinalized_ok (h : s.FinalizedStored) (head : DurableHead) :
    (s.promoteFinalized head).2 = .ok () := by
  unfold promoteFinalized
  split
  · split
    · rfl
    next finalizedHead hsome =>
      obtain ⟨header, hheader⟩ := h finalizedHead hsome
      rw [hheader]
      split
      · rfl
      dsimp only
      split
      · rfl
      · rfl
  · rfl

theorem FinalizedStored.appendHead_error (h : s.FinalizedStored) {fingerprint : Text}
    {head : DurableHead} {e : StoreError} (herror : (s.appendHead fingerprint head).2 = .error e) :
    (s.appendHead fingerprint head).1 = s := by
  unfold appendHead at herror ⊢
  split at herror
  · rfl
  next promote hcheck =>
    -- the one error after the writes asks for a finalized head without a header
    have hok := (h.writeHead head promote).promoteFinalized_ok head
    rw [Store.writeHead] at hok
    dsimp only at herror
    split at herror
    next heq =>
      rw [heq] at hok
      cases hok
    · cases herror

/-- **A command that fails has no effect**: in every store that commands lead to, a head, an event
or a correction that is answered with an error leaves every key as it was. -/
theorem failed_command_no_effect (h : Run Store.execute (fun _ _ => True) .empty s) :
    (∀ fingerprint head e, (s.appendHead fingerprint head).2 = .error e →
      (s.appendHead fingerprint head).1 = s) ∧
    (∀ fingerprint event e, (s.appendEvent fingerprint event).2 = .error e →
      (s.appendEvent fingerprint event).1 = s) ∧
    ∀ plan e, (s.correctionScript plan).2 = .error e → (s.correctionScript plan).1 = s := by
  have hstored : s.FinalizedStored :=
    h.invariant (P := FinalizedStored) (fun _ hnone => by cases hnone)
      fun _ command hs _ => hs.execute command
  refine ⟨fun _ _ _ => hstored.appendHead_error, fun fingerprint event e herror => ?_,
    fun plan e herror => ?_⟩
  · rcases s.appendEvent_cases fingerprint event with ⟨_, hsame⟩ | ⟨_, -, hsame⟩ | ⟨-, -, -, heq⟩
    · rw [hsame]
    · rw [hsame]
    rw [heq] at herror
    cases herror
  revert herror
  unfold correctionScript
  split
  · exact fun _ => rfl
  split
  · exact fun _ => rfl
  split
  · exact fun _ => rfl
  · exact fun herror => nomatch herror

/-- The root, its child and a log of the child. -/
def populated : Store :=
  ([.initializeMetadata smallWorker.fingerprint, .call smallWorker (.head rootBlock),
    .call smallWorker (.head (secondBlock 0xa2)), .call smallWorker (.event (secondLog 0xa2))] :
    List Command).foldl execute .empty

/-- A head that forks, another event for a log in effect, and a correction of a tip that is not the
head. -/
theorem failed_command_no_effect_populated :
    (∃ head, DurableHead.fromBlock (secondBlock 0xb2) = .ok head ∧
      populated.appendHead smallWorker.fingerprint head =
        (populated, journalError "LUNARBASE_FORK_REQUIRES_CORRECTION")) ∧
    (∃ event, DurableEvent.fromLog smallWorker.keccak256 { secondLog 0xa2 with topics := [0x2] } =
        .ok event ∧ populated.appendEvent smallWorker.fingerprint event =
        (populated, journalError "LUNARBASE_LOG_ALREADY_ACTIVE")) ∧
    ∃ c plan, ReorgCorrection.new smallWorker.keccak256 (rollbackSecond 0xa3) rootBlock [] 0xc0 =
        .ok c ∧ populated.makePlan smallWorker.keccak256 smallWorker.fingerprint ampleLimits ⟨0, 0⟩
        c = .ok plan ∧ populated.correctionScript plan =
        (populated, journalError "LUNARBASE_REORG_STALE_HEAD") := by
  obtain ⟨hhead, hevent, hcorrection⟩ :=
    failed_command_no_effect (s := populated) (Run.foldl .refl _)
  have hfails : ∀ {α : Type} {out : Store × Except StoreError α} {e : StoreError},
      (∀ e, out.2 = .error e → out.1 = populated) → out.2 = .error e →
      out = (populated, .error e) :=
    fun h herror => Prod.ext (h _ herror) herror
  exact ⟨⟨_, rfl, hfails (hhead _ _) (by decide +kernel)⟩,
    ⟨_, rfl, hfails (hevent _ _) (by decide +kernel)⟩,
    _, _, rfl, rfl, hfails (hcorrection _) (by decide +kernel)⟩

end Store

/-! ### The durable cursor -/

/-- The record that tells that a call was applied, and the position it brings. -/
def Call.position (w : Worker) : Call → Option (Text × CursorEnvelope)
  | .head _ => none
  | .event log =>
    match DurableEvent.fromLog w.keccak256 log with
    | .ok durable => some (durable.recordId, durable.cursorJson)
    | .error _ => none
  | .correct resolution finalized logs core _ _ =>
    match ReorgCorrection.new w.keccak256 resolution finalized logs core with
    | .ok c => some (c.commitRecordId, c.cursorJson)
    | .error _ => none

def Command.isCorrect : Command → Bool
  | .call _ (.correct ..) => true
  | _ => false

/-- The positions of the events that a command takes part in are the machine's. -/
def Command.InRange : Command → Prop
  | .call _ (.event log) => CursorInRange log.cursor
  | .call _ (.correct resolution ..) => CursorInRange resolution.newTip.cursor
  | _ => True

/-- A store with the position that the last correction set and those of the events appended
since. -/
structure Tracked where
  store : Store
  positions : List CursorEnvelope

/-- The position counts when its record is new and was written. -/
def Tracked.execute (t : Tracked) (command : Command) : Tracked where
  store := t.store.execute command
  positions :=
    match command with
    | .initializeMetadata _ => t.positions
    | .call w call =>
      match call.position w with
      | none => t.positions
      | some (recordId, position) =>
        if t.store.recordIds recordId = none ∧
            (t.store.perform w call).recordIds recordId ≠ none then
          (if command.isCorrect then [] else t.positions) ++ [position]
        else t.positions

theorem DurableEvent.fromLog_cursorJson {keccak256 : List UInt8 → B256} {log : ContractLog}
    {event : DurableEvent} (h : fromLog keccak256 log = .ok event) :
    event.cursorJson.cursor = log.cursor := by
  rw [fromLog] at h
  split at h
  · cases h
  split at h
  · cases h
  obtain ⟨_, -, h⟩ := Except.bind_eq_ok.mp h
  cases h
  rfl

namespace Tracked

variable {t : Tracked}

/-- The stored cursor is the first of the highest positions, and the stored order is its text. -/
structure Highest (t : Tracked) : Prop where
  inRange : ∀ position ∈ t.positions, CursorInRange position.cursor
  order : t.store.cursorOrder = t.store.cursor.map (cursorOrder ·.cursor)
  cursor : t.store.cursor = t.positions.argmax (·.cursor.eventOrder)

/-- A position that is appended becomes the cursor where it is above all others. -/
theorem Highest.advance (h : t.Highest) {position : CursorEnvelope}
    (hrange : CursorInRange position.cursor) {s : Store} (hcursor : s.cursor = t.store.cursor)
    (horder : s.cursorOrder = t.store.cursorOrder) :
    Highest ⟨s.advanceCursor position (cursorOrder position.cursor),
      t.positions ++ [position]⟩ := by
  have hmem : ∀ position' ∈ t.positions ++ [position], CursorInRange position'.cursor := by
    intro position' hposition
    rcases mem_append.mp hposition with hbefore | hlast
    · exact h.inRange position' hbefore
    · rwa [mem_singleton.mp hlast]
  have hargmax := argmax_concat (·.cursor.eventOrder) position t.positions
  rw [← h.cursor, ← hcursor] at hargmax
  rw [h.order, ← hcursor] at horder
  unfold Store.advanceCursor
  rw [horder]
  cases hstored : s.cursor with
  | none =>
    rw [hstored] at hargmax
    exact ⟨hmem, rfl, hargmax.symm⟩
  | some stored =>
    rw [hstored] at hargmax
    dsimp only at hargmax
    have hmax : stored ∈ t.positions.argmax (·.cursor.eventOrder) := by
      rw [← h.cursor, ← hcursor, hstored, mem_some_iff]
    have hiff := cursorOrder_lt_iff (h.inRange stored (argmax_mem hmax)) hrange
    simp only [map_some, all_some, decide_eq_true_eq, hiff]
    split
    next hlt =>
      rw [if_pos hlt] at hargmax
      exact ⟨hmem, rfl, hargmax.symm⟩
    next hle =>
      rw [if_neg hle] at hargmax
      exact ⟨hmem, by rw [horder, hstored], hstored.trans hargmax.symm⟩

theorem Highest.keep (h : t.Highest) {s : Store} (hcursor : s.cursor = t.store.cursor)
    (horder : s.cursorOrder = t.store.cursorOrder) : Highest ⟨s, t.positions⟩ :=
  ⟨h.inRange, by rw [horder, h.order, hcursor], hcursor.trans h.cursor⟩

theorem Highest.perform (h : t.Highest) (w : Worker) {call : Call}
    (hrange : (Command.call w call).InRange) : (t.execute (.call w call)).Highest := by
  rcases t.store.perform_cases w call with hsame | ⟨block, head, promote, rfl, -, -, -, _, hwrite⟩ |
    ⟨log, event, rfl, hevent, hnew, -, -, hwrite, _, _, hframe⟩ |
    ⟨resolution, finalized, logs, core, limits, charge, c, plan, rfl, hc, hplanned, -, hnew, hwrite⟩
  · have hpositions : (t.execute (.call w call)).positions = t.positions := by
      rw [Tracked.execute]
      dsimp only
      split
      · rfl
      · rw [hsame, if_neg fun hboth => hboth.2 hboth.1]
    have hkept : (t.execute (.call w call)) = t := by
      cases t
      exact congrArg₂ Tracked.mk hsame hpositions
    rwa [hkept]
  · have hfixed : (t.store.perform w (.head block)).cursor = t.store.cursor ∧
        (t.store.perform w (.head block)).cursorOrder = t.store.cursorOrder := by
      rw [hwrite, Store.writeHead_eq, Store.installHead_eq]
      exact ⟨rfl, rfl⟩
    exact h.keep hfixed.1 hfixed.2
  · obtain ⟨_, _, _, horder, _⟩ := DurableEvent.fromLog_eq_ok hevent
    have hcursor := DurableEvent.fromLog_cursorJson hevent
    have hrecorded : (t.store.perform w (.event log)).recordIds event.recordId =
        some t.store.nextId := by
      rw [hframe]
      exact Function.update_self ..
    have hstep : t.execute (.call w (.event log)) =
        ⟨(t.store.journalEvent event []).advanceCursor event.cursorJson
          (cursorOrder event.cursorJson.cursor), t.positions ++ [event.cursorJson]⟩ := by
      rw [hcursor, ← horder, ← hwrite]
      simp [Tracked.execute, Store.execute, Call.position, hevent, hnew, hrecorded,
        Command.isCorrect]
    rw [hstep]
    exact h.advance (hcursor ▸ hrange) rfl rfl
  · have hcorrected := ReorgCorrection.new_eq_ok hc
    have hrecorded : (t.store.commit plan).1.recordIds c.commitRecordId ≠ none := by
      rw [Store.commit_eq, ← hplanned.commitRecordId]
      simp [Store.control, Store.recordAs]
    have hcursor : (t.store.commit plan).1.cursor = some c.cursorJson :=
      congrArg some hplanned.cursorJson
    have horder : (t.store.commit plan).1.cursorOrder = some (cursorOrder c.cursorJson.cursor) := by
      rw [hcorrected.cursorJson]
      exact congrArg some (hplanned.cursorOrder.trans hcorrected.cursorOrder)
    have hstep : t.execute (.call w (.correct resolution finalized logs core limits charge)) =
        ⟨(t.store.commit plan).1, [c.cursorJson]⟩ := by
      rw [← hwrite] at hrecorded ⊢
      simp [Tracked.execute, Store.execute, Call.position, hc, hnew, hrecorded, Command.isCorrect]
    rw [hstep]
    refine ⟨fun position hposition => ?_, ?_, hcursor⟩
    · rw [mem_singleton.mp hposition, hcorrected.cursorJson]
      exact ⟨⟨le_rfl, le_rfl, hrange.sourceSequence, hrange.sourceSubIndex⟩, hrange.blockNumber⟩
    · rw [horder, hcursor]
      rfl

variable {command : Command}

theorem Highest.execute (h : t.Highest) (hrange : command.InRange) :
    (t.execute command).Highest := by
  cases command with
  | initializeMetadata fingerprint =>
    refine h.keep ?_ ?_ <;>
    · rw [Store.execute, Store.initializeMetadata]
      split
      · rfl
      · rfl
  | call w call => exact h.perform w hrange

/-- The cursor moves back in no step but a correction. -/
theorem Highest.le_of_step (h : t.Highest) (hrange : command.InRange)
    (hcommand : command.isCorrect = false) {stored : CursorEnvelope}
    (hstored : t.store.cursor = some stored) :
    ∃ next, (t.store.execute command).cursor = some next ∧
      stored.cursor.eventOrder ≤ next.cursor.eventOrder := by
  have hnext := (h.execute hrange).cursor
  have hsub : ∀ position ∈ t.positions, position ∈ (t.execute command).positions := by
    intro position hposition
    unfold Tracked.execute
    dsimp only
    split
    · exact hposition
    split
    · exact hposition
    split
    · rw [if_neg (by rw [hcommand]; decide)]
      exact mem_append_left _ hposition
    · exact hposition
  have hmem : stored ∈ t.positions := argmax_mem (h.cursor ▸ hstored)
  change (t.store.execute command).cursor = _ at hnext
  cases hcursor : (t.store.execute command).cursor with
  | none =>
    rw [hcursor] at hnext
    exact absurd (hsub _ hmem) (by simp [argmax_eq_none.mp hnext.symm])
  | some next =>
    rw [hcursor] at hnext
    have hle := not_lt_of_mem_argmax (hsub stored hmem) (mem_def.mpr hnext.symm)
    exact ⟨next, rfl, not_lt.mp hle⟩

end Tracked

/-- **The durable cursor is the highest position applied.**  The texts of two positions compare as
the positions do.  In every run of commands the stored cursor is the highest of the position that
the last correction set and those of the events appended since, and nothing but a correction moves
it back. -/
theorem durable_cursor_is_highest :
    (∀ c d : ChainCursor, CursorInRange c → CursorInRange d →
      (cursorOrder c < cursorOrder d ↔ c.eventOrder < d.eventOrder)) ∧
    ∀ t : Tracked, Run Tracked.execute (fun _ command => command.InRange) ⟨.empty, []⟩ t →
      t.store.cursor = t.positions.argmax (·.cursor.eventOrder) ∧
      ∀ command : Command, command.InRange → command.isCorrect = false →
        ∀ stored, t.store.cursor = some stored →
          ∃ next, (t.store.execute command).cursor = some next ∧
            stored.cursor.eventOrder ≤ next.cursor.eventOrder := by
  refine ⟨fun c d => cursorOrder_lt_iff, fun t h => ?_⟩
  have hhighest : t.Highest := by
    refine h.invariant (P := Tracked.Highest) ⟨by simp, rfl, rfl⟩ ?_
    exact fun _ command ht hrange => ht.execute hrange
  exact ⟨hhighest.cursor, fun _ hrange hcommand _ => hhighest.le_of_step hrange hcommand⟩

/-- A log in the second transaction of the block. -/
def laterLog : ContractLog :=
  { secondLog 0xa2 with cursor := { (secondLog 0xa2).cursor with transactionIndex := some 1 } }

/-- The root, its child, two logs of the child against their order, and the child rolled back. -/
def trackedCommands : List Command :=
  [.initializeMetadata smallWorker.fingerprint, .call smallWorker (.head rootBlock),
    .call smallWorker (.head (secondBlock 0xa2)), .call smallWorker (.event laterLog),
    .call smallWorker (.event (secondLog 0xa2)),
    .call smallWorker (.correct (rollbackSecond 0xa2) rootBlock [] 0xc0 ampleLimits ⟨0, 0⟩)]

def tracked (count : Nat) : Tracked :=
  (trackedCommands.take count).foldl Tracked.execute ⟨.empty, []⟩

theorem durable_cursor_is_highest_rolled_back :
    cursorOrder (secondLog 0xa2).cursor < cursorOrder laterLog.cursor ∧
    ((tracked 5).positions.map (·.cursor) = [laterLog.cursor, (secondLog 0xa2).cursor] ∧
      (tracked 5).store.cursor = (tracked 5).positions.argmax (·.cursor.eventOrder) ∧
      (tracked 5).store.cursor.map (·.cursor) = some laterLog.cursor) ∧
    ((tracked 6).store.cursor = (tracked 6).positions.argmax (·.cursor.eventOrder) ∧
      (tracked 6).store.cursor.map (·.cursor.blockNumber) = some 1) := by
  have hsecond : CursorInRange (secondLog 0xa2).cursor :=
    ⟨⟨by decide, by decide, by decide, by decide⟩, by decide⟩
  have hlater : CursorInRange laterLog.cursor :=
    ⟨⟨by decide, by decide, by decide, by decide⟩, by decide⟩
  have hroot : CursorInRange rootBlock.cursor :=
    ⟨⟨by decide, by decide, by decide, by decide⟩, by decide⟩
  have hevents : Run Tracked.execute (fun _ command => command.InRange) ⟨.empty, []⟩ (tracked 5) :=
    .more (.more (.more (.more (.more .refl trivial) trivial) trivial) hlater) hsecond
  have hrolled : Run Tracked.execute (fun _ command => command.InRange) ⟨.empty, []⟩ (tracked 6) :=
    .more hevents hroot
  obtain ⟨horder, hhighest⟩ := durable_cursor_is_highest
  exact ⟨(horder _ _ hsecond hlater).mpr (by decide), ⟨by decide +kernel,
    (hhighest _ hevents).1, by decide +kernel⟩, (hhighest _ hrolled).1, by decide +kernel⟩

end Lunarbase.EventWorker
