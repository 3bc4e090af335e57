import Lunarbase.Client.FailClosed

/-!
# Client — Stages

A call on the quote state machine is a sequence of stages: readiness is revoked or published, a
log or a head is accepted, a correction is applied or remembered, a snapshot is installed.  What a
call leaves behind, also when it fails, is where its stages lead (`Request.staged`).  So what every
stage keeps, every run of calls keeps.
-/

namespace Lunarbase.Client

open Effect (andThen onError forEach Moves moves_andThen moves_onError moves_forEach)

inductive Stage where
  | close
  | publish
  | log (bytes : ImageCost) (cursor : ChainCursor)
      (event : Option QuoteEvent)
  | head (cursor : ChainCursor)
  | correct (bytes : ImageCost) (c : ChainCorrection)
  | remember (c : ChainCorrection)
  | install (snapshot : BootstrapSnapshot)

namespace QuoteIndexer

/-- The stage succeeds in `s` and leaves `t` behind. -/
def Takes (env : Platform) (s : QuoteIndexer) (stage : Stage) (t : QuoteIndexer) : Prop :=
  match stage with
  | .close => t = s.markNotReady
  | .publish => t = s.publishReady
  | .log bytes cursor event => s.applyDecodedLog bytes cursor event = (t, .ok ())
  | .head cursor => s.applyHead cursor = (t, .ok ())
  | .correct bytes c => s.intoCorrectedCore env bytes c = .ok (t, true)
  | .remember c => s.observeCoveredCorrection env c = (t, .ok ())
  | .install snapshot =>
    s.validateSnapshot snapshot = .ok () ∧ s.installSnapshot snapshot = (t, .ok ())

/-- Stages lead from `s` to `t`. -/
def Staged (env : Platform) (s t : QuoteIndexer) : Prop := ∃ stages, Path (Takes env) s stages t

/-- Stages lead from one indexer to the other, and those that carry data are offered. -/
inductive StagedBy (env : Platform) (offers : Stage → Prop) : QuoteIndexer → QuoteIndexer → Prop
  | refl (s : QuoteIndexer) : StagedBy env offers s s
  | close (s : QuoteIndexer) : StagedBy env offers s s.markNotReady
  | publish (s : QuoteIndexer) : StagedBy env offers s s.publishReady
  | take {s t : QuoteIndexer} (stage : Stage) (h : Takes env s stage t) (hoffers : offers stage) :
      StagedBy env offers s t
  | trans (a b c : QuoteIndexer) (hab : StagedBy env offers a b) (hbc : StagedBy env offers b c) :
      StagedBy env offers a c

/-- The stages that carry data of an update whose log is read as an event. -/
inductive Offers (reads : ContractLog → Option QuoteEvent → Prop) : ChainUpdate → Stage → Prop
  | log {log : ContractLog} {event : Option QuoteEvent} (bytes : ImageCost) (h : reads log event) :
      Offers reads (.log log) (.log bytes log.cursor event)
  | head (block : BlockRef) : Offers reads (.head block) (.head block.cursor)
  | correct (bytes : ImageCost) (c : ChainCorrection) :
      Offers reads (.correction c) (.correct bytes c)
  | remember (c : ChainCorrection) : Offers reads (.correction c) (.remember c)

/-- The event the indexer itself decodes. -/
def Decodes (env : Platform) (log : ContractLog) (event : Option QuoteEvent) : Prop :=
  decodeLog env log = .ok event

variable {env : Platform} {bytes : ImageCost} {s t : QuoteIndexer}
  {offers : Stage → Prop}

/-- What every stage keeps, a sequence of stages keeps. -/
theorem Staged.invariant {P : QuoteIndexer → Prop}
    (hstage : ∀ s stage t, Takes env s stage t → P s → P t)
    (h : Staged env s t) (hs : P s) : P t := by
  obtain ⟨stages, hpath⟩ := h
  exact hpath.invariant hstage hs

theorem StagedBy.invariant {P : QuoteIndexer → Prop} (hclose : ∀ s, P s → P s.markNotReady)
    (hpublish : ∀ s, P s → P s.publishReady)
    (htake : ∀ s stage t, Takes env s stage t → offers stage → P s → P t)
    (h : StagedBy env offers s t) (hs : P s) : P t := by
  induction h with
  | refl => exact hs
  | close => exact hclose _ hs
  | publish => exact hpublish _ hs
  | take stage h hoffers => exact htake _ stage _ h hoffers hs
  | trans _ _ _ _ _ ihab ihbc => exact ihbc (ihab hs)

theorem StagedBy.staged (h : StagedBy env offers s t) : Staged env s t := by
  induction h with
  | refl s => exact ⟨[], .refl s⟩
  | close => exact ⟨[.close], .one rfl⟩
  | publish => exact ⟨[.publish], .one rfl⟩
  | take stage h => exact ⟨[stage], .one h⟩
  | trans _ _ _ _ _ ihab ihbc =>
    obtain ⟨first, hfirst⟩ := ihab
    obtain ⟨second, hsecond⟩ := ihbc
    exact ⟨first ++ second, hfirst.trans hsecond⟩

theorem staged_failClosed {α : Type} {out : Transition α} (h : Moves (StagedBy env offers) s out) :
    Moves (StagedBy env offers) s (failClosed out) :=
  moves_onError .trans .close h

theorem staged_dropResult {α : Type} {out : Transition α} (h : Moves (StagedBy env offers) s out) :
    Moves (StagedBy env offers) s (dropResult out) :=
  moves_andThen .trans h fun t _ _ => .refl t

/-! ### Live updates -/

theorem staged_applyDecodedLog (cursor : ChainCursor) (event : Option QuoteEvent)
    (hoffers : offers (.log bytes cursor event)) :
    Moves (StagedBy env offers) s (s.applyDecodedLog bytes cursor event) := by
  rcases happly : s.applyDecodedLog bytes cursor event with ⟨t, e | ⟨⟩⟩
  · rcases applyDecodedLog_cases happly with ⟨-, -, rfl⟩ | ⟨hout, -⟩ | ⟨-, -, -, hout, -⟩
    · exact .refl t
    · cases hout
    · cases hout
  · exact .take (.log bytes cursor event) happly hoffers

theorem staged_applyHead (cursor : ChainCursor) (hoffers : offers (.head cursor)) :
    Moves (StagedBy env offers) s (s.applyHead cursor) := by
  rcases happly : s.applyHead cursor with ⟨t, e | ⟨⟩⟩
  · rcases applyHead_cases happly with ⟨-, -, rfl | rfl⟩ | ⟨-, hout, -⟩
    · exact .refl t
    · exact .close s
    · cases hout
  · exact .take (.head cursor) happly hoffers

variable (update : ChainUpdate)

theorem staged_validateCoreUpdateIdentity :
    Moves (StagedBy env offers) s (s.validateCoreUpdateIdentity env update) :=
  staged_failClosed (.refl s)

section

variable (decoder : ContractLog → Option QuoteEvent)
  (hoffers : ∀ stage, Offers (fun log event => decoder log = event) update stage → offers stage)

include hoffers

theorem staged_applyValidatedUpdate :
    Moves (StagedBy env offers) s (s.applyValidatedUpdate bytes update decoder) := by
  cases update with
  | log log =>
    rw [applyValidatedUpdate]
    split_ifs
    · exact .close s
    · exact staged_failClosed (staged_applyDecodedLog _ _ (hoffers _ (.log bytes rfl)))
  | head block => exact staged_applyHead _ (hoffers _ (.head block))
  | reorg oldHead newHead | correction c | gap cursor reason => exact .close s

theorem staged_applyUpdate :
    Moves (StagedBy env offers) s (s.applyUpdate env bytes update decoder) :=
  moves_andThen .trans (staged_validateCoreUpdateIdentity update)
    fun _ _ _ => staged_applyValidatedUpdate update decoder hoffers

end

/-! ### Corrections -/

theorem staged_replaceWithCorrection (c : ChainCorrection) (hoffers : offers (.correct bytes c)) :
    Moves (StagedBy env offers) s (s.replaceWithCorrection env bytes c) := by
  rw [replaceWithCorrection]
  rcases hinto : s.intoCorrectedCore env bytes c with e | ⟨next, applied⟩
  · exact .close s
  cases applied with
  | false => exact .refl s
  | true => exact .take (.correct bytes c) hinto hoffers

theorem staged_observeCoveredCorrection (c : ChainCorrection) (hoffers : offers (.remember c)) :
    Moves (StagedBy env offers) s (s.observeCoveredCorrection env c) := by
  rcases hobserve : s.observeCoveredCorrection env c with ⟨t, e | ⟨⟩⟩
  · rcases observeCoveredCorrection_cases hobserve with ⟨-, -, rfl⟩ | ⟨hout, -⟩ | ⟨hout, -⟩
    · exact .refl t
    · cases hout
    · cases hout
  · exact .take (.remember c) hobserve hoffers

/-! ### Batches -/

section

variable (hoffers : ∀ stage, Offers (Decodes env) update stage → offers stage)

include hoffers

theorem staged_applyCoreUpdate :
    Moves (StagedBy env offers) s (s.applyCoreUpdate env bytes update) := by
  refine moves_andThen .trans (staged_validateCoreUpdateIdentity update) fun t _ _ => ?_
  cases update with
  | log log =>
    rw [applyValidatedCoreUpdate]
    split_ifs with hremoved
    · rw [applyValidatedUpdate, if_pos hremoved]
      exact .close t
    refine moves_andThen .trans (.refl t) fun t' covered _ => ?_
    split_ifs
    · exact .refl t'
    refine moves_andThen .trans (.refl t') fun _ event hdecode => ?_
    rw [applyValidatedUpdate, if_neg hremoved]
    exact staged_failClosed (staged_applyDecodedLog _ _
      (hoffers _ (.log bytes (Prod.mk.inj hdecode).2)))
  | head block => exact staged_applyHead _ (hoffers _ (.head block))
  | reorg oldHead newHead | gap cursor reason => exact .close t
  | correction c =>
    exact staged_dropResult (staged_replaceWithCorrection c (hoffers _ (.correct _ c)))

theorem staged_withNotice :
    Moves (StagedBy env offers) s
      (s.applyValidatedCoreUpdateBorrowedWithNotice env bytes update) := by
  have hupdate : Moves (StagedBy env offers) s (s.applyCoreUpdateBorrowed env bytes update) := by
    rw [applyCoreUpdateBorrowed_eq]
    exact staged_applyCoreUpdate update hoffers
  have hthen : Moves (StagedBy env offers) s (andThen (s.applyCoreUpdateBorrowed env bytes update)
      fun t _ => (t, .ok (none : Option CorrectionNotice))) :=
    moves_andThen .trans hupdate fun t _ _ => .refl t
  cases update with
  | correction c =>
    exact moves_andThen .trans (staged_replaceWithCorrection c (hoffers _ (.correct _ c)))
      fun t _ _ => .refl t
  | log log | head block | reorg oldHead newHead | gap cursor reason => exact hthen

theorem staged_skipCovered : Moves (StagedBy env offers) s (s.skipCovered env update) := by
  cases update with
  | correction c => exact staged_observeCoveredCorrection c (hoffers _ (.remember c))
  | log log | head block | reorg oldHead newHead | gap cursor reason => exact .refl s

/-- The frame both batches share, around what they do with an update that is news. -/
theorem staged_framed (start : ChainCursor) {news : QuoteIndexer → Transition PUnit}
    (hnews : ∀ t, Moves (StagedBy env offers) t (news t)) :
    Moves (StagedBy env offers) s (andThen (s.validateCoreUpdateIdentity env update) fun s _ =>
      andThen (s.coveredByStart start update) fun s covered =>
        if covered then s.skipCovered env update else news s) := by
  refine moves_andThen .trans (staged_validateCoreUpdateIdentity update) fun t _ _ => ?_
  have hstart : Moves (StagedBy env offers) t (t.coveredByStart start update) := by
    rw [coveredByStart]
    cases updateCursor update with
    | none => exact .refl t
    | some cursor =>
      dsimp only
      split_ifs
      · exact .close t
      · exact .refl t
  refine moves_andThen .trans hstart fun t' covered _ => ?_
  cases covered with
  | true => exact staged_skipCovered update hoffers
  | false => exact hnews t'

end

/-- The stages that carry data of one of the updates. -/
def OffersAny (reads : ContractLog → Option QuoteEvent → Prop) (updates : List ChainUpdate)
    (stage : Stage) : Prop := ∃ update ∈ updates, Offers reads update stage

variable (start : ChainCursor) (updates : List ChainUpdate)
  (hoffers : ∀ stage, OffersAny (Decodes env) updates stage → offers stage)

include hoffers
theorem staged_handoff :
    Moves (StagedBy env offers) s (forEach (handoffStep env bytes start) s updates) :=
  moves_forEach .refl .trans (fun update hmem _ =>
    have hupdate := fun stage h => hoffers stage ⟨update, hmem, h⟩
    staged_framed update hupdate start fun _ =>
      staged_dropResult (staged_withNotice update hupdate)) s

theorem staged_bootstrap :
    Moves (StagedBy env offers) s (forEach (bootstrapStep env bytes start) s updates) :=
  moves_forEach .refl .trans (fun update hmem _ =>
    have hupdate := fun stage h => hoffers stage ⟨update, hmem, h⟩
    staged_framed update hupdate start fun _ =>
      staged_dropResult (staged_failClosed (staged_withNotice update hupdate))) s

theorem staged_applyHandoffBorrowedOrdered :
    Moves (StagedBy env offers) s (s.applyHandoffBorrowedOrdered env bytes updates) := by
  rw [applyHandoffBorrowedOrdered]
  cases s.reducer.cursor with
  | none => exact .refl s
  | some start =>
    simp only [handoffLoop_eq]
    exact moves_andThen .trans (staged_handoff start updates hoffers) fun t _ _ => .publish t

/-! ### Snapshots -/

omit hoffers

variable {snapshot : BootstrapSnapshot}

/-- A snapshot that does not pass its checks changes nothing. -/
theorem bootstrapNormalized_of_refused {e : IndexerError}
    (h : s.validateSnapshot snapshot = .error e) (buffered : List ChainUpdate) :
    s.bootstrapNormalized env bytes snapshot buffered = (s, .error e) := by
  rw [bootstrapNormalized, bootstrapNormalizedOrdered, h]
  rfl

/-- The stages of a bootstrap after the installation of its snapshot. -/
theorem staged_buffered (hvalid : s.validateSnapshot snapshot = .ok ())
    {buffered : List ChainUpdate}
    (hoffers : ∀ stage, OffersAny (Decodes env) (sortChainUpdates buffered) stage → offers stage) :
    ∃ installed, s.installSnapshot snapshot = (installed, .ok ()) ∧
      StagedBy env offers installed (s.bootstrapNormalized env bytes snapshot buffered).1 := by
  obtain ⟨installed, hinstall, -⟩ := installSnapshot_of_valid hvalid
  refine ⟨installed, hinstall, ?_⟩
  rw [bootstrapNormalized, bootstrapNormalizedOrdered, hvalid]
  simp only [dropResult, Effect.andThen_ok, hinstall]
  have hloop := bootstrapLoop_eq env bytes snapshot.cursor installed [] (sortChainUpdates buffered)
  rw [dropResult] at hloop
  rw [hloop]
  exact moves_andThen .trans (staged_bootstrap _ _ hoffers) fun u _ _ => .publish u

theorem staged_bootstrapNormalized {buffered : List ChainUpdate}
    (hinstall : offers (.install snapshot))
    (hoffers : ∀ stage, OffersAny (Decodes env) (sortChainUpdates buffered) stage → offers stage) :
    Moves (StagedBy env offers) s (s.bootstrapNormalized env bytes snapshot buffered) := by
  cases hvalid : s.validateSnapshot snapshot with
  | error e =>
    rw [bootstrapNormalized_of_refused hvalid]
    exact .refl s
  | ok u =>
    obtain ⟨installed, htakes, hrest⟩ := staged_buffered hvalid hoffers
    exact .trans _ _ _ (.take (.install snapshot) ⟨hvalid, htakes⟩ hinstall) hrest

end QuoteIndexer

/-! ### Requests -/

open QuoteIndexer

/-- The calls that process updates, and the one that takes a decoder of its caller. -/
inductive Entry
  | call (call : Call)
  | applyUpdate (update : ChainUpdate) (decoder : ContractLog → Option QuoteEvent)

/-- An entry with what the before-images it makes are charged. -/
structure Request where
  entry : Entry
  bytes : ImageCost

def Request.perform (env : Platform) (s : QuoteIndexer) (request : Request) : Transition Unit :=
  match request.entry with
  | .call call => call.perform env request.bytes s
  | .applyUpdate update decoder => s.applyUpdate env request.bytes update decoder

/-- The indexer a request leaves behind, accepted or rejected. -/
def Request.step (env : Platform) (s : QuoteIndexer) (request : Request) : QuoteIndexer :=
  (request.perform env s).1

/-- The updates a call processes, in their order. -/
def Call.updates : Call → List ChainUpdate
  | .applyCoreUpdate update | .applyCoreUpdateBorrowed update => [update]
  | .applyCoreLogBorrowed log => [.log log]
  | .applyHandoffBorrowedOrdered buffered => buffered
  | .applyHandoff buffered | .bootstrapNormalized _ buffered => sortChainUpdates buffered

/-- The stages that carry data of the arguments. -/
inductive Entry.Brings (env : Platform) : Entry → Stage → Prop
  | update {call : Call} {stage : Stage} (h : OffersAny (Decodes env) call.updates stage) :
      Brings env (.call call) stage
  | install (snapshot : BootstrapSnapshot) (buffered : List ChainUpdate) :
      Brings env (.call (.bootstrapNormalized snapshot buffered)) (.install snapshot)
  | decoded {update : ChainUpdate} {decoder : ContractLog → Option QuoteEvent} {stage : Stage}
      (h : Offers (fun log event => decoder log = event) update stage) :
      Brings env (.applyUpdate update decoder) stage

theorem Call.staged_perform (env : Platform) (bytes : ImageCost) (s : QuoteIndexer) (call : Call) :
    Moves (StagedBy env ((Entry.call call).Brings env)) s (call.perform env bytes s) := by
  cases call with
  | applyCoreUpdate update =>
    exact staged_applyCoreUpdate update fun _ h => .update ⟨update, List.mem_cons_self, h⟩
  | applyCoreUpdateBorrowed update =>
    rw [perform, applyCoreUpdateBorrowed_eq]
    exact staged_applyCoreUpdate update fun _ h => .update ⟨update, List.mem_cons_self, h⟩
  | applyCoreLogBorrowed log =>
    rw [perform, applyCoreLogBorrowed_eq]
    exact staged_applyCoreUpdate (.log log) fun _ h => .update ⟨.log log, List.mem_cons_self, h⟩
  | applyHandoff buffered | applyHandoffBorrowedOrdered buffered =>
    exact staged_applyHandoffBorrowedOrdered _ fun _ h => .update h
  | bootstrapNormalized snapshot buffered =>
    exact staged_bootstrapNormalized (.install snapshot buffered) fun _ h => .update h

/-- **What a request leaves behind is where its stages lead**, and what they carry is of its
arguments. -/
theorem Request.stagedBy (env : Platform) (s : QuoteIndexer) (request : Request) :
    StagedBy env (request.entry.Brings env) s (request.step env s) := by
  obtain ⟨entry, bytes⟩ := request
  cases entry with
  | call call => exact call.staged_perform env bytes s
  | applyUpdate update decoder => exact staged_applyUpdate update decoder fun _ h => .decoded h

theorem Request.staged (env : Platform) (s : QuoteIndexer) (request : Request) :
    Staged env s (request.step env s) :=
  (request.stagedBy env s).staged

/-- A request whose stages all meet the guard. -/
def Request.Within (env : Platform) (guard : QuoteIndexer → Stage → Prop) (s : QuoteIndexer)
    (request : Request) : Prop :=
  ∃ stages, Path (fun s stage t => Takes env s stage t ∧ guard s stage) s stages
    (request.step env s)

/-- Along a run within the guard, what every guarded stage keeps is kept. -/
theorem Request.invariant_of_within {env : Platform} {guard : QuoteIndexer → Stage → Prop}
    {P : QuoteIndexer → Prop} {start s : QuoteIndexer}
    (hstage : ∀ s stage t, Takes env s stage t → guard s stage → P s → P t) (hstart : P start)
    (h : Run (Request.step env) (fun s request => request.Within env guard s) start s) : P s :=
  h.invariant (P := P) hstart fun _ _ hs ⟨_, hpath⟩ =>
    hpath.invariant (fun _ _ _ ⟨htakes, hguard⟩ => hstage _ _ _ htakes hguard) hs

end Lunarbase.Client
