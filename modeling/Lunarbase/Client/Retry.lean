import Lunarbase.Client.Cursors
import Lunarbase.Client.Fingerprint
import Lunarbase.Client.Quotable

/-!
# Client — Retry

A correction delivered again.  The indexer remembers the last correction by its fingerprint and
the cursor of its new tip, and takes a delivery with that fingerprint for a retry as long as the
published head covers the tip: it is a later block, or names the tip.

Covering looks at one height only.  So a retry is recognised, and what it is taken for is on the
published branch, along every history in which the tip keeps its name while it is published and a
remembered tip is one that was published.  Three kinds of stages can break this: a realtime head
that gives the published tip another hash, a bootstrap at a higher block that keeps the mark, and
a covered correction of a handoff that is remembered without a look at the branch.
-/

namespace Lunarbase.Client

open QuoteIndexer List Except Function Option QuoteReducer

/-! ### The fingerprint -/

namespace ChainCorrection

theorem delimited_beBytes (len : Nat) : Delimited (beBytes len) :=
  Delimited.of_length (length_beBytes len)

theorem delimited_hashOptionalU32 : Delimited hashOptionalU32 := by
  rw [hashOptionalU32_eq]
  exact Delimited.flagged (by decide) (delimited_beBytes 4)

/-- A block at the front of a message is delimited, and its number and hash can be read. -/
theorem hashBlock_front {block block' : BlockRef} {rest rest' : List UInt8}
    (h : hashBlock block ++ rest = hashBlock block' ++ rest') :
    beBytes 8 block.cursor.blockNumber = beBytes 8 block'.cursor.blockNumber ∧
      block.cursor.blockHash = block'.cursor.blockHash ∧ rest = rest' := by
  simp only [hashBlock, hashCursor, append_assoc] at h
  obtain ⟨-, h⟩ := delimited_beBytes 8 h
  obtain ⟨hnumber, h⟩ := delimited_beBytes 8 h
  obtain ⟨-, h⟩ := delimited_beBytes 8 h
  obtain ⟨hhash, h⟩ := reads_hashOptionalHash trivial trivial h
  obtain ⟨-, h⟩ := delimited_hashOptionalU32 h
  obtain ⟨-, h⟩ := delimited_hashOptionalU32 h
  obtain ⟨-, h⟩ := reads_hashOptionalHash trivial trivial h
  exact ⟨hnumber, hhash, h⟩

/-- **The hashed bytes determine the new tip**, its height and its hash. -/
theorem newTip_of_fingerprintBytes {c c' : ChainCorrection}
    (hc : c.newTip.cursor.blockNumber ≤ u64Max) (hc' : c'.newTip.cursor.blockNumber ≤ u64Max)
    (h : c.fingerprintBytes = c'.fingerprintBytes) :
    c.newTip.cursor.blockNumber = c'.newTip.cursor.blockNumber ∧
      c.newTip.cursor.blockHash = c'.newTip.cursor.blockHash := by
  simp only [fingerprintBytes, append_assoc] at h
  obtain ⟨-, -, h⟩ := hashBlock_front (append_cancel_left h)
  obtain ⟨-, -, h⟩ := hashBlock_front h
  obtain ⟨hnumber, hhash, -⟩ := hashBlock_front h
  refine ⟨beBytes_inj ?_ ?_ hnumber, hhash⟩
  · exact Nat.lt_of_le_of_lt hc (by decide)
  · exact Nat.lt_of_le_of_lt hc' (by decide)

end ChainCorrection

/-! ### Heads past the tip -/

/-- The published head is the tip by its identity, or a later block. -/
structure Past (tip published : ChainCursor) : Prop where
  chain : published.chainId = tip.chainId
  above : tip.blockNumber ≤ published.blockNumber
  identity : published.blockNumber = tip.blockNumber → published.blockHash = tip.blockHash ∧
      published.executionBlockNumber = tip.executionBlockNumber

theorem Past.refl (tip : ChainCursor) : Past tip tip := ⟨rfl, le_rfl, fun _ => ⟨rfl, rfl⟩⟩

theorem Onward.trans {a b c : ChainCursor} (hab : Onward a b) (hbc : Onward b c) : Onward a c := by
  rcases hab with hlt | ⟨heq, hrank⟩
  · rcases hbc with hlt' | ⟨heq', -⟩
    · exact .inl (hlt.trans hlt')
    · exact .inl (heq' ▸ hlt)
  · rcases hbc with hlt' | ⟨heq', hrank'⟩
    · exact .inl (heq ▸ hlt')
    · exact .inr ⟨heq.trans heq', hrank.trans hrank'⟩

variable {tip published : ChainCursor}

/-- Covering is being past the tip, with a commitment that is not weaker in its block. -/
theorem Past.covers (h : Past tip published) (honward : Onward tip published)
    (hhash : tip.blockHash.isSome) : snapshotSurelyCovers tip published = true := by
  obtain ⟨hash, hhash⟩ := isSome_iff_exists.mp hhash
  rcases honward with hlt | ⟨heq, hrank⟩
  · simp [snapshotSurelyCovers, snapshotCovers, h.chain, hlt]
  obtain ⟨hname, hexecution⟩ := h.identity heq.symm
  simp [snapshotSurelyCovers, snapshotCovers, h.chain, heq, hname, hexecution, hhash, hrank]

/-- At its own height, what covers a tip names it. -/
theorem Past.of_covers (h : snapshotSurelyCovers tip published = true)
    (hnumber : published.blockNumber = tip.blockNumber) : Past tip published := by
  rw [snapshotSurelyCovers, snapshotCovers] at h
  by_cases hchain : tip.chainId = published.chainId
  · simp only [hchain, hnumber, ne_eq, not_true_eq_false, if_false, lt_self_iff_false] at h
    cases htip : tip.blockHash with
    | none => simp [htip] at h
    | some left =>
      cases hpublished : published.blockHash with
      | none => simp [htip, hpublished] at h
      | some right =>
        simp only [htip, hpublished] at h
        split_ifs at h with hhash hexecution
        refine ⟨hchain.symm, hnumber.ge, fun _ => ⟨?_, hexecution.symm⟩⟩
        rw [htip, hpublished, hhash]
  · simp [hchain] at h

/-- A head that does not rename the tip keeps the published head past it. -/
theorem Past.observeHead {tip published head : ChainCursor} {r r' : QuoteReducer}
    (h : Past tip published) (hr : r.cursor = some published)
    (hname : published.blockNumber = head.blockNumber → head.blockNumber = tip.blockNumber →
      head.blockHash = tip.blockHash) (hobserve : r.observeHead head = (r', .ok ())) :
    ∃ published', r'.cursor = some published' ∧ Past tip published' := by
  rcases observeHead_cases hobserve with
    ⟨-, -, -, rfl⟩ | ⟨current, hcurrent, hsame, -, rfl⟩ | ⟨habove, rfl⟩
  · exact ⟨published, hr, h⟩
  · obtain rfl : current = published := Option.some.inj (hcurrent.symm.trans hr)
    refine ⟨_, rfl, ?_, ?_, ?_⟩
    · rw [mergeHead_chainId]
      exact h.chain
    · rw [mergeHead_blockNumber]
      exact h.above
    rw [mergeHead_blockNumber]
    intro hnumber
    obtain ⟨hhash, hexecution⟩ := h.identity hnumber
    have hkeeps : current.blockHash = head.blockHash :=
      hhash.trans (hname hsame.symm (hsame.trans hnumber)).symm
    obtain ⟨hexecution', hhash'⟩ := mergeHead_identity hkeeps
    exact ⟨hhash'.trans hhash, hexecution'.trans hexecution⟩
  · obtain ⟨hlt, hchain⟩ := habove published hr
    have hlt' : tip.blockNumber < head.blockNumber := h.above.trans_lt hlt
    exact ⟨head, rfl, hchain.symm.trans h.chain, hlt'.le, fun heq => absurd heq hlt'.ne'⟩

/-- So does an event that the published head admits. -/
theorem Past.publishEvent {tip published cursor : ChainCursor} (h : Past tip published)
    (hhash : tip.blockHash.isSome) (hcheck : checkPublished (some published) cursor = .ok ()) :
    Past tip (publishEvent (some published) cursor) := by
  obtain ⟨hchain, hvalid⟩ := ite_error_eq_ok.mp hcheck
  replace hchain := not_not.mp hchain
  rw [QuoteReducer.publishEvent]
  split_ifs with hbelow hsequence hsame
  · exact ⟨h.chain, h.above, h.identity⟩
  · exact h
  · refine ⟨hchain.symm.trans h.chain, hsame ▸ h.above, fun hnumber => ?_⟩
    obtain ⟨hname, hexecution⟩ := h.identity (hsame.symm.trans hnumber)
    -- the event names the block by the hash it is published under
    rw [← hname] at hhash
    obtain ⟨hash, hhash⟩ := isSome_iff_exists.mp hhash
    simp only [validateEventAgainstHead, hsame, ne_eq, not_true_eq_false, if_false, hhash] at hvalid
    obtain ⟨hconflict, -⟩ := ite_error_eq_ok.mp hvalid
    simp only [not_or, not_not] at hconflict
    refine ⟨?_, hconflict.1.symm.trans hexecution⟩
    rw [← hname, hhash]
    cases hevent : cursor.blockHash with
    | none => simp [hevent] at hconflict
    | some right =>
      have hright : hash = right := by simpa [hevent] using hconflict.2
      rw [hright]
  · have hlt : published.blockNumber < cursor.blockNumber :=
      lt_of_le_of_ne (not_lt.mp hbelow) (Ne.symm hsame)
    have hlt' : tip.blockNumber < cursor.blockNumber := h.above.trans_lt hlt
    exact ⟨hchain.symm.trans h.chain, hlt'.le, fun heq => absurd heq hlt'.ne'⟩

/-! ### Live updates -/

/-- The head gives the published block, which is the tip of the last correction, another hash. -/
def QuoteIndexer.renamesTip (s : QuoteIndexer) (head : ChainCursor) : Bool :=
  s.lastCorrection.any fun applied => s.reducer.cursor.any fun published =>
    decide (published.blockNumber = head.blockNumber) &&
      decide (head.blockNumber = applied.tip.blockNumber) &&
      decide (head.blockHash ≠ applied.tip.blockHash)

/-- The published head moved on from `published` and is past the tip. -/
def QuoteIndexer.PastTip (s : QuoteIndexer) (tip published : ChainCursor) : Prop :=
  ∃ published', s.reducer.cursor = some published' ∧ Past tip published' ∧
    Onward published published'

section Live

variable {bytes : ImageCost} {s t : QuoteIndexer} {cursor : ChainCursor}
  {applied : AppliedCorrection} {published : ChainCursor}

theorem pastTip_applyHead (h : s.applyHead cursor = (t, .ok ()))
    (hlast : s.lastCorrection = some applied) (hpublished : s.reducer.cursor = some published)
    (hpast : Past applied.tip published) (hname : s.renamesTip cursor = false) :
    t.lastCorrection = some applied ∧ t.deployment = s.deployment ∧
      t.PastTip applied.tip published := by
  rcases applyHead_cases h with ⟨e, hout, -⟩ | ⟨reducer, -, hobserve, rfl⟩
  · cases hout
  refine ⟨hlast, rfl, ?_⟩
  have hkeeps : published.blockNumber = cursor.blockNumber →
      cursor.blockNumber = applied.tip.blockNumber →
      cursor.blockHash = applied.tip.blockHash := by
    intro hsame htip
    simpa [renamesTip, hlast, hpublished, hsame, htip] using hname
  obtain ⟨published', hpublished', hpast'⟩ := hpast.observeHead hpublished hkeeps hobserve
  refine ⟨published', hpublished', hpast', ?_⟩
  have hmoves : ∃ published'', (s.reducer.perform (.observeHead cursor)).cursor =
      some published'' ∧ Onward published published'' :=
    perform_onward rfl rfl hpublished
  obtain ⟨published'', hpublished'', honward⟩ := hmoves
  rw [perform, hobserve] at hpublished''
  rwa [Option.some.inj (hpublished'.symm.trans hpublished'')]

/-- A log takes the mark away exactly when it changes the data. -/
theorem pastTip_applyDecodedLog {event : Option QuoteEvent}
    (h : s.applyDecodedLog bytes cursor event = (t, .ok ()))
    (hlast : s.lastCorrection = some applied) (hpublished : s.reducer.cursor = some published)
    (hpast : Past applied.tip published) (hhash : applied.tip.blockHash.isSome) :
    (t.lastCorrection = none ∧ t.reducer.data ≠ s.reducer.data ∨ t.lastCorrection = some applied) ∧
      t.deployment = s.deployment ∧ t.PastTip applied.tip published := by
  rcases applyDecodedLog_cases h with
    ⟨e, hout, -⟩ | ⟨-, -, -, -, rfl⟩ | ⟨new, data, changed, -, -, -, hadmitted, heffect, -, rfl⟩
  · cases hout
  · exact ⟨.inr hlast, rfl, published, hpublished, hpast, .refl published⟩
  refine ⟨?_, rfl, _, rfl, ?_, ?_⟩
  · cases changed with
    | false => exact .inr hlast
    | true =>
      have htold := (s.reducer.data.applyEvent_reports new).2
      rw [heffect] at htold
      exact .inl ⟨rfl, htold rfl⟩
  · rw [admitEvent, hpublished] at hadmitted
    obtain ⟨⟨⟩, hcheck, -⟩ := bind_eq_ok.mp hadmitted
    rw [hpublished]
    exact hpast.publishEvent hhash hcheck
  · rw [hpublished]
    exact onward_publishEvent published cursor

end Live

/-! ### The retry -/

/-- The update is a head or a log, accepted without a change of the data, that does not rename the
tip. -/
def QuoteIndexer.Passes (env : Platform) (s : QuoteIndexer) (update : ChainUpdate)
    (t : QuoteIndexer) : Prop :=
  (∃ bytes, s.applyCoreUpdate env bytes update = (t, .ok ())) ∧ t.reducer.data = s.reducer.data ∧
    match update with
    | .head block => s.renamesTip block.cursor = false
    | .log _ => True
    | _ => False

/-- The correction is the marked one and its tip is covered. -/
structure Retriable (env : Platform) (deployment : DeploymentConfig) (c : ChainCorrection)
    (s : QuoteIndexer) : Prop where
  deployment_eq : s.deployment = deployment
  marked : s.lastCorrection = some ⟨c.fingerprint env, c.newTip.cursor⟩
  pastTip : s.PastTip c.newTip.cursor c.newTip.cursor

variable {env : Platform} {c : ChainCorrection}

theorem ChainCorrection.newTip_hashed
    (h : c.validate env = .ok ()) : c.newTip.cursor.blockHash.isSome := by
  obtain ⟨-, -, -, hnew, -⟩ := validate_eq_ok h
  exact hnew.hashed _ (mem_of_getLast? hnew.ends)

theorem Retriable.passes {deployment : DeploymentConfig} {s t : QuoteIndexer} {update : ChainUpdate}
    (hhash : c.newTip.cursor.blockHash.isSome) (hs : Retriable env deployment c s)
    (h : s.Passes env update t) : Retriable env deployment c t := by
  obtain ⟨⟨bytes, happly⟩, hdata, hkind⟩ := h
  obtain ⟨published, hpublished, hpast, honward⟩ := hs.pastTip
  have hretriable : t.lastCorrection = some ⟨c.fingerprint env, c.newTip.cursor⟩ →
      t.deployment = s.deployment → t.PastTip c.newTip.cursor published →
      Retriable env deployment c t := by
    rintro hmarked hdeployment ⟨published', hpublished', hpast', honward'⟩
    exact ⟨hdeployment.trans hs.deployment_eq, hmarked, published', hpublished', hpast',
      honward.trans honward'⟩
  cases update with
  | head block =>
    obtain ⟨hmarked, hdeployment, hpassed⟩ :=
      pastTip_applyHead happly hs.marked hpublished hpast hkind
    exact hretriable hmarked hdeployment hpassed
  | log log =>
    rcases applyCoreUpdate_log_cases happly with
      ⟨e, hout, -⟩ | ⟨-, -, rfl⟩ | ⟨event, -, -, -, hlog⟩
    · cases hout
    · exact hs
    obtain ⟨hmark, hdeployment, hpassed⟩ :=
      pastTip_applyDecodedLog hlog hs.marked hpublished hpast hhash
    rcases hmark with ⟨-, hchanged⟩ | hmarked
    · exact absurd hdata hchanged
    · exact hretriable hmarked hdeployment hpassed
  | reorg oldHead newHead | correction c' | gap gapCursor reason => exact hkind.elim

/-- **An applied correction delivered again changes nothing**, whatever passed in between. -/
theorem retry_changes_nothing {bytes bytes' : ImageCost} {s s₁ s₂ : QuoteIndexer}
    {updates : List ChainUpdate} (h : s.intoCorrectedCore env bytes c = .ok (s₁, true))
    (hpasses : Path (Passes env) s₁ updates s₂) :
    s₂.intoCorrectedCore env bytes' c = .ok (s₂, false) := by
  obtain ⟨hvalid, -⟩ := intoCorrectedCore_eq_ok_true h
  have hhash := ChainCorrection.newTip_hashed (validate_of_forCore hvalid)
  obtain ⟨hdeployment, -, hmarked, hcursor⟩ := intoCorrectedCore_leaves h
  have hretriable : Retriable env s.deployment c s₂ :=
    hpasses.invariant (fun _ _ _ hpass hs => hs.passes hhash hpass)
      ⟨hdeployment, hmarked, c.newTip.cursor, hcursor, .refl _, .refl _⟩
  obtain ⟨published, hpublished, hpast, honward⟩ := hretriable.pastTip
  have hretry : s₂.isRetry env c = true := by
    simp [isRetry, hretriable.marked, hpublished, hpast.covers honward hhash]
  rw [validateCorrectionForCore, ← hretriable.deployment_eq] at hvalid
  rw [intoCorrectedCore, validateCorrectionForCore, hvalid, ok_bind, if_pos hretry]

/-! ### The published branch -/

/-- The hash of the block at a height of a branch. -/
def hashAt (branch : List BlockRef) (number : Nat) : Option B256 :=
  (branch.find? fun block => block.cursor.blockNumber = number).bind fun block =>
    block.cursor.blockHash

/-- An indexer with what its history published: the block at each height of the published branch,
as far as it is known, and the corrections that were applied or remembered. -/
structure Published where
  indexer : QuoteIndexer
  branch : Nat → Option B256
  corrections : List ChainCorrection

/-- The published branch after a stage that leaves `t` behind.  Of the branch of a snapshot only its
own block is known. -/
def Stage.publishes (branch : Nat → Option B256) (t : QuoteIndexer) : Stage → Nat → Option B256
  | .log _ _ _ | .head _ =>
    match t.reducer.cursor with
    | none => branch
    | some published => Function.update branch published.blockNumber published.blockHash
  | .correct _ c => fun number =>
    if number < c.commonAncestor.cursor.blockNumber then branch number
    else hashAt (c.commonAncestor :: c.newBranch) number
  | .install snapshot =>
    Function.update (fun _ => none) snapshot.cursor.blockNumber snapshot.cursor.blockHash
  | .close | .publish | .remember _ => branch

def Stage.learns : Stage → List ChainCorrection
  | .correct _ c | .remember c => [c]
  | _ => []

namespace Published

def Takes (env : Platform) (p : Published) (stage : Stage) (p' : Published) : Prop :=
  QuoteIndexer.Takes env p.indexer stage p'.indexer ∧
    p'.branch = stage.publishes p.branch p'.indexer ∧
    p'.corrections = stage.learns ++ p.corrections

/-- The tip of the last correction keeps its name while it is published, and a mark is kept or made
only for a tip that is published. -/
def Steady (s : QuoteIndexer) : Stage → Prop
  | .head cursor => s.renamesTip cursor = false
  | .remember c =>
    c.newTip.cursor.blockNumber ≤ u64Max ∧ (s.newTipPublished c = true ∨
        s.lastCorrection.any fun applied =>
          c.newTip.cursor.blockNumber ≤ applied.tip.blockNumber)
  | .install snapshot => ∀ applied, s.lastCorrection = some applied →
      snapshotSurelyCovers applied.tip snapshot.cursor = true →
      snapshot.cursor.blockNumber = applied.tip.blockNumber
  | .close | .publish | .log _ _ _ | .correct _ _ => True

/-- The request leads from `p` to `p'` by stages that meet the guard. -/
def Serves (env : Platform) (guard : QuoteIndexer → Stage → Prop) (p : Published)
    (request : Request) (p' : Published) : Prop :=
  p'.indexer = request.step env p.indexer ∧
    ∃ stages, Path (fun p stage p' => Takes env p stage p' ∧ guard p.indexer stage) p stages p'

def start (state : Math.QuoteState) (deployment : DeploymentConfig) : Published :=
  ⟨.new state deployment, fun _ => none, []⟩

/-- The block is on the published branch. -/
def Contains (p : Published) (block : ChainCursor) : Prop :=
  p.branch block.blockNumber = block.blockHash ∧
    ∃ published, p.indexer.reducer.cursor = some published ∧
      block.blockNumber ≤ published.blockNumber

/-- The mark stands for a correction of the history, whose tip is on the published branch. -/
structure Stands (env : Platform) (p : Published) (applied : AppliedCorrection)
    (c : ChainCorrection) : Prop where
  known : c ∈ p.corrections
  fits : c.newTip.cursor.blockNumber ≤ u64Max
  hashed : c.newTip.cursor.blockHash.isSome
  marks : applied = ⟨c.fingerprint env, c.newTip.cursor⟩
  branch : p.branch c.newTip.cursor.blockNumber = c.newTip.cursor.blockHash
  past : ∃ published, p.indexer.reducer.cursor = some published ∧ Past c.newTip.cursor published

def Marked (env : Platform) (p : Published) : Prop :=
  ∀ applied, p.indexer.lastCorrection = some applied → ∃ c, Stands env p applied c

/-! ### One stage -/

variable {branch : Nat → Option B256}

/-- Publishing a head past the tip leaves the tip on the branch. -/
theorem update_of_past {tip published : ChainCursor}
    (hbranch : branch tip.blockNumber = tip.blockHash) (hpast : Past tip published) :
    Function.update branch published.blockNumber published.blockHash tip.blockNumber =
      tip.blockHash := by
  by_cases hnumber : published.blockNumber = tip.blockNumber
  · rw [hnumber, update_self]
    exact (hpast.identity hnumber).1
  · rwa [update_of_ne (Ne.symm hnumber)]

variable {p p' : Published} {applied : AppliedCorrection} {c : ChainCorrection}

theorem Stands.pastTip {published : ChainCursor} (hs : Stands env p applied c)
    (hpast : p'.indexer.PastTip c.newTip.cursor published)
    (hbranch : ∀ published', p'.indexer.reducer.cursor = some published' →
      p'.branch = Function.update p.branch published'.blockNumber published'.blockHash)
    (hcorrections : p'.corrections = p.corrections) : Stands env p' applied c := by
  obtain ⟨published', hpublished', hpast', -⟩ := hpast
  have hknown : c ∈ p'.corrections := hcorrections ▸ hs.known
  refine { hs with known := hknown, branch := ?_, past := ⟨published', hpublished', hpast'⟩ }
  rw [hbranch published' hpublished']
  exact update_of_past hs.branch hpast'

/-- A valid correction puts its tip on the branch. -/
theorem publishes_newTip {t : QuoteIndexer} (h : c.validate env = .ok ()) :
    Stage.publishes branch t (.correct bytes c) c.newTip.cursor.blockNumber =
      c.newTip.cursor.blockHash := by
  obtain ⟨-, -, -, hnew, -⟩ := ChainCorrection.validate_eq_ok h
  have hmem : c.newTip ∈ c.commonAncestor :: c.newBranch := mem_of_getLast? hnew.ends
  have habove : ¬ c.newTip.cursor.blockNumber < c.commonAncestor.cursor.blockNumber := by
    rcases mem_cons.mp hmem with heq | hmem'
    · exact heq ▸ lt_irrefl _
    · exact (hnew.above c.newTip hmem').le.not_gt
  simp only [Stage.publishes, if_neg habove, hashAt]
  cases hfind : (c.commonAncestor :: c.newBranch).find? fun block =>
      block.cursor.blockNumber = c.newTip.cursor.blockNumber with
  | none =>
    have habsent := List.find?_eq_none.mp hfind c.newTip hmem
    simp at habsent
  | some block =>
    -- the heights of a branch are distinct
    have hnumber : block.cursor.blockNumber = c.newTip.cursor.blockNumber := by
      simpa using List.find?_some hfind
    have hblock : block ∈ c.commonAncestor :: c.newBranch := mem_of_find?_eq_some hfind
    rw [hnew.eq_of_height hblock hmem hnumber]
    rfl

theorem past_of_newTipPublished {s : QuoteIndexer} (h : s.newTipPublished c = true) :
    c.newTip.cursor.blockHash.isSome ∧
      ∃ published, s.reducer.cursor = some published ∧ Past c.newTip.cursor published ∧
        published.blockNumber = c.newTip.cursor.blockNumber := by
  rw [newTipPublished, Option.any_eq_true] at h
  obtain ⟨published, hpublished, h⟩ := h
  simp only [Bool.and_eq_true, beq_iff_eq] at h
  obtain ⟨⟨⟨⟨hchain, hnumber⟩, hexecution⟩, hsome⟩, hhash⟩ := h
  exact ⟨hhash ▸ hsome, published, hpublished, ⟨hchain, hnumber.ge, fun _ => ⟨hhash, hexecution⟩⟩,
    hnumber⟩

/-- The published head is the block of its height. -/
def Follows (p : Published) : Prop :=
  ∀ published, p.indexer.reducer.cursor = some published →
    p.branch published.blockNumber = published.blockHash

theorem Stands.kept (hs : Stands env p applied c)
    (hcursor : p'.indexer.reducer.cursor = p.indexer.reducer.cursor)
    (hbranch : p'.branch = p.branch) (hcorrections : p.corrections ⊆ p'.corrections) :
    Stands env p' applied c := by
  have hknown : c ∈ p'.corrections := hcorrections hs.known
  refine { hs with known := hknown, branch := ?_, past := ?_ }
  · rw [hbranch]
    exact hs.branch
  · rw [hcursor]
    exact hs.past

variable {stage : Stage}

theorem Follows.takes (hp : Follows p) (h : Takes env p stage p') : Follows p' := by
  obtain ⟨htakes, hbranch, -⟩ := h
  have hsame : p'.branch = p.branch → p'.indexer.reducer.cursor = p.indexer.reducer.cursor →
      Follows p' := by
    intro hbranch' hcursor published hpublished
    rw [hbranch']
    exact hp published (hcursor ▸ hpublished)
  intro published hpublished
  cases stage with
  | close | publish => exact hsame hbranch (htakes ▸ rfl) published hpublished
  | remember c =>
    refine hsame hbranch ?_ published hpublished
    rcases observeCoveredCorrection_cases htakes with
      ⟨e, hout, -⟩ | ⟨-, hkept⟩ | ⟨-, hmade, -⟩
    · cases hout
    · rw [hkept]
    · rw [hmade]
  | log bytes cursor event | head cursor => simp [hbranch, Stage.publishes, hpublished]
  | correct bytes c =>
    obtain ⟨hvalid, -⟩ := intoCorrectedCore_eq_ok_true htakes
    obtain ⟨-, -, -, hcursor⟩ := intoCorrectedCore_leaves htakes
    cases hcursor.symm.trans hpublished
    rw [hbranch]
    exact publishes_newTip (validate_of_forCore hvalid)
  | install snapshot =>
    rw [installSnapshot_eq_ok htakes.2] at hpublished
    cases hpublished
    simp [hbranch, Stage.publishes]

/-- **A steady stage keeps the mark on the published branch.** -/
theorem Marked.takes (hfollows : Follows p) (hp : Marked env p) (h : Takes env p stage p')
    (hsteady : Steady p.indexer stage) : Marked env p' := by
  obtain ⟨htakes, hbranch, hcorrections⟩ := h
  have hsub : p.corrections ⊆ p'.corrections := by
    rw [hcorrections]
    exact subset_append_right _ _
  intro applied hlast
  cases stage with
  | close =>
    have hclosed : p'.indexer = p.indexer.markNotReady := htakes
    rw [hclosed] at hlast
    obtain ⟨c, hs⟩ := hp applied hlast
    exact ⟨c, hs.kept (by rw [hclosed]; rfl) hbranch hsub⟩
  | publish =>
    have hopened : p'.indexer = p.indexer.publishReady := htakes
    rw [hopened] at hlast
    obtain ⟨c, hs⟩ := hp applied hlast
    exact ⟨c, hs.kept (by rw [hopened]; rfl) hbranch hsub⟩
  | log bytes cursor event =>
    -- a log keeps the mark or drops it, and makes none
    have hmark : p.indexer.lastCorrection = some applied := by
      rcases applyDecodedLog_cases htakes with
        ⟨e, hout, -⟩ | ⟨-, -, -, -, hnext⟩ | ⟨new, data, changed, -, -, -, -, -, -, hnext⟩
      · cases hout
      · rwa [hnext] at hlast
      rw [hnext] at hlast
      cases changed with
      | false => exact hlast
      | true => exact nomatch hlast
    obtain ⟨c, hs⟩ := hp applied hmark
    obtain ⟨published, hpublished, hpast⟩ := hs.past
    obtain rfl := hs.marks
    obtain ⟨-, -, hpassed⟩ :=
      pastTip_applyDecodedLog htakes hmark hpublished hpast hs.hashed
    refine ⟨c, hs.pastTip hpassed ?_ hcorrections⟩
    intro published' hpublished'
    simp [hbranch, Stage.publishes, hpublished']
  | head cursor =>
    have hkept : p'.indexer.lastCorrection = p.indexer.lastCorrection := by
      rcases applyHead_cases htakes with ⟨e, hout, -⟩ | ⟨reducer, -, -, hnext⟩
      · cases hout
      · rw [hnext]
    rw [hkept] at hlast
    obtain ⟨c, hs⟩ := hp applied hlast
    obtain ⟨published, hpublished, hpast⟩ := hs.past
    obtain rfl := hs.marks
    obtain ⟨-, -, hpassed⟩ := pastTip_applyHead htakes hlast hpublished hpast hsteady
    refine ⟨c, hs.pastTip hpassed ?_ hcorrections⟩
    intro published' hpublished'
    simp [hbranch, Stage.publishes, hpublished']
  | correct bytes c =>
    obtain ⟨hvalid, -⟩ := intoCorrectedCore_eq_ok_true htakes
    replace hvalid := validate_of_forCore hvalid
    obtain ⟨-, -, hmarked, hcursor⟩ := intoCorrectedCore_leaves htakes
    cases hmarked.symm.trans hlast
    have hknown : c ∈ p'.corrections := hcorrections ▸ mem_cons_self
    refine ⟨c, hknown, ChainCorrection.newTip_fits hvalid, ChainCorrection.newTip_hashed hvalid,
      rfl, ?_, c.newTip.cursor, hcursor, .refl _⟩
    rw [hbranch]
    exact publishes_newTip hvalid
  | remember c =>
    rcases observeCoveredCorrection_cases htakes with
      ⟨e, hout, -⟩ | ⟨-, hkept⟩ | ⟨-, hmade, hlower⟩
    · cases hout
    · rw [hkept] at hlast
      obtain ⟨c', hs⟩ := hp applied hlast
      exact ⟨c', hs.kept (by rw [hkept]) hbranch hsub⟩
    obtain ⟨hfits, htip⟩ := hsteady
    have hnone : ¬ p.indexer.lastCorrection.any fun mark =>
        c.newTip.cursor.blockNumber ≤ mark.tip.blockNumber := by
      cases hmark : p.indexer.lastCorrection with
      | none => simp
      | some mark => simpa using hlower mark hmark
    obtain ⟨hsome, published, hpublished, hpast, hnumber⟩ :=
      past_of_newTipPublished (htip.resolve_right hnone)
    rw [hmade] at hlast
    cases hlast
    have hknown : c ∈ p'.corrections := hcorrections ▸ mem_cons_self
    refine ⟨c, hknown, hfits, hsome, rfl, ?_, published, by rw [hmade]; exact hpublished, hpast⟩
    rw [hbranch, ← (hpast.identity hnumber).1, ← hnumber]
    exact hfollows published hpublished
  | install snapshot =>
    have hinstalled := installSnapshot_eq_ok htakes.2
    rw [hinstalled] at hlast
    obtain ⟨hmark, hcovers⟩ := filter_eq_some_iff.mp hlast
    have hcursor : p'.indexer.reducer.cursor = some snapshot.cursor := by rw [hinstalled]; rfl
    obtain ⟨c, hs⟩ := hp applied hmark
    have hnumber := hsteady applied hmark hcovers
    obtain rfl := hs.marks
    have hpast := Past.of_covers hcovers hnumber
    have hknown : c ∈ p'.corrections := hcorrections ▸ hs.known
    refine ⟨c, { hs with
      known := hknown, branch := ?_, past := ⟨snapshot.cursor, hcursor, hpast⟩ }⟩
    have htip : c.newTip.cursor.blockNumber = snapshot.cursor.blockNumber := hnumber.symm
    rw [hbranch, ← (hpast.identity hnumber).1, Stage.publishes, htip, update_self]

/-- The mark stands after every history of steady stages. -/
theorem marked_of_serves {state : Math.QuoteState} {deployment : DeploymentConfig}
    {requests : List Request} {p : Published}
    (h : Path (Serves env Steady) (start state deployment) requests p) :
    Follows p ∧ Marked env p := by
  refine h.invariant (P := fun p => Follows p ∧ Marked env p) ?_ ?_
  · rintro p request p' ⟨-, stages, hstages⟩ hp
    refine hstages.invariant (P := fun p => Follows p ∧ Marked env p) ?_ hp
    rintro p stage p' ⟨htakes, hsteady⟩ ⟨hfollows, hmarked⟩
    exact ⟨hfollows.takes htakes, hmarked.takes hfollows htakes hsteady⟩
  refine ⟨?_, ?_⟩
  · intro published hpublished
    exact absurd hpublished (by simp [start, QuoteIndexer.new, QuoteReducer.new])
  · intro applied hlast
    exact absurd hlast (by simp [start, QuoteIndexer.new])

end Published

/-! ### Deliveries of one correction -/

open Published

/-- A delivery without effect is a retry of the marked correction. -/
theorem intoCorrectedCore_eq_ok_false {s next : QuoteIndexer}
    (h : s.intoCorrectedCore env bytes c = .ok (next, false)) :
    next = s ∧ c.validate env = .ok () ∧
      ∃ applied, s.lastCorrection = some applied ∧ applied.fingerprint = c.fingerprint env := by
  obtain ⟨⟨⟩, hvalid, h⟩ := bind_eq_ok.mp h
  replace hvalid := validate_of_forCore hvalid
  split_ifs at h with hretry htip hexactly
  · obtain ⟨applied, hlast, hsame⟩ := (any_eq_true _ _).mp hretry
    exact ⟨(Prod.mk.inj (Except.ok.inj h)).1.symm, hvalid, applied, hlast,
      of_decide_eq_true (Bool.and_eq_true_iff.mp hsame).1⟩
  · obtain ⟨applied, hlast, hsame⟩ := (any_eq_true _ _).mp hexactly
    exact ⟨(Prod.mk.inj (Except.ok.inj h)).1.symm, hvalid, applied, hlast,
      of_decide_eq_true (Bool.and_eq_true_iff.mp hsame).1⟩
  · obtain ⟨next', -, h⟩ := bind_eq_ok.mp h
    exact absurd (congrArg Prod.snd (Except.ok.inj h)) (by simp)

/-- A correction is applied to the tip it replaces. -/
theorem oldTip_published {s next : QuoteIndexer}
    (h : s.intoCorrectedCore env bytes c = .ok (next, true)) :
    ∃ published, s.reducer.cursor = some published ∧ published.chainId = c.oldTip.cursor.chainId ∧
      published.blockNumber = c.oldTip.cursor.blockNumber ∧
      published.executionBlockNumber = c.oldTip.cursor.executionBlockNumber ∧
      published.blockHash = c.oldTip.cursor.blockHash := by
  obtain ⟨-, h⟩ := intoCorrectedCore_eq_ok_true h
  obtain ⟨rewound, replayed, hidentity, -⟩ := replaceBranch_eq_ok h
  obtain ⟨⟨⟩, -, hidentity⟩ := bind_eq_ok.mp hidentity
  cases hcursor : s.reducer.cursor with
  | none => simp [hcursor] at hidentity
  | some published =>
    simp only [hcursor] at hidentity
    obtain ⟨hsame, -⟩ := ite_error_eq_ok.mp hidentity
    simp only [not_or, not_not] at hsame
    exact ⟨published, rfl, hsame.1, hsame.2.1, hsame.2.2.1, hsame.2.2.2.2⟩

/-- **Deliveries of a correction are told apart.**  After any history of steady stages, an applied
correction that comes again, after heads and logs that pass, changes nothing; one that is taken for
a retry has its new tip on the published branch, as far as fingerprints of the history do not
collide; and one that is applied finds its old tip published. -/
theorem correction_retry_idempotent {state : Math.QuoteState} {deployment : DeploymentConfig}
    {requests : List Request} {p : Published}
    (hrun : Path (Serves env Steady) (Published.start state deployment) requests p)
    (c : ChainCorrection) (bytes : ImageCost) :
    (∀ s₁ updates s₂ bytes', p.indexer.intoCorrectedCore env bytes c = .ok (s₁, true) →
      Path (Passes env) s₁ updates s₂ → s₂.intoCorrectedCore env bytes' c = .ok (s₂, false)) ∧
    (∀ next, p.indexer.intoCorrectedCore env bytes c = .ok (next, false) →
      (∀ known ∈ p.corrections, known.fingerprint env = c.fingerprint env →
        known.fingerprintBytes = c.fingerprintBytes) →
      next = p.indexer ∧ p.Contains c.newTip.cursor) ∧
    (∀ next, p.indexer.intoCorrectedCore env bytes c = .ok (next, true) →
      ∃ published, p.indexer.reducer.cursor = some published ∧
        published.chainId = c.oldTip.cursor.chainId ∧
        published.blockNumber = c.oldTip.cursor.blockNumber ∧
        published.executionBlockNumber = c.oldTip.cursor.executionBlockNumber ∧
        published.blockHash = c.oldTip.cursor.blockHash) := by
  refine ⟨?_, ?_, fun next h => oldTip_published h⟩
  · intro s₁ updates s₂ bytes' h hpasses
    exact retry_changes_nothing h hpasses
  intro next h hcollide
  obtain ⟨hsame, hvalid, applied, hlast, hfingerprint⟩ := intoCorrectedCore_eq_ok_false h
  obtain ⟨known, hs⟩ := (marked_of_serves hrun).2 applied hlast
  obtain rfl := hs.marks
  obtain ⟨hnumber, hhash⟩ := ChainCorrection.newTip_of_fingerprintBytes hs.fits
    (ChainCorrection.newTip_fits hvalid) (hcollide known hs.known hfingerprint)
  obtain ⟨published, hpublished, hpast⟩ := hs.past
  refine ⟨hsame, ?_, published, hpublished, hnumber ▸ hpast.above⟩
  rw [← hnumber, ← hhash]
  exact hs.branch

/-! ### A retry, and a tip that is renamed -/

/-- `p` after a stage that leaves `t` behind. -/
def Published.next (p : Published) (stage : Stage) (t : QuoteIndexer) : Published :=
  ⟨t, stage.publishes p.branch t, stage.learns ++ p.corrections⟩

variable {p : Published}

theorem Published.takes_next {stage : Stage} {t : QuoteIndexer}
    (h : QuoteIndexer.Takes env p.indexer stage t) : Published.Takes env p stage (p.next stage t) :=
  ⟨h, rfl, rfl⟩

variable {guard : QuoteIndexer → Stage → Prop}

/-- A request of one stage. -/
theorem serves_next {request : Request} (stage : Stage)
    (htakes : QuoteIndexer.Takes env p.indexer stage (request.step env p.indexer))
    (hguard : guard p.indexer stage) :
    Serves env guard p request (p.next stage (request.step env p.indexer)) :=
  ⟨rfl, [stage], .one ⟨takes_next htakes, hguard⟩⟩

def headRequest (block : BlockRef) : Request := unpricedCall (.applyCoreUpdate (.head block))

/-- The snapshot at block 0, and its publication. -/
def publishedStart : Published :=
  ((Published.start smallSnapshot.state smallDeployment).next (.install smallSnapshot)
    (freshIndexer.installSnapshot smallSnapshot).1).next .publish smallStart

/-- Head 5 after that. -/
def publishedFive : Published :=
  publishedStart.next (.head (blockAt 5 0xb5))
    ((headRequest (blockRef 5 0xb5 0xb4)).step referencePlatform smallStart)

def publishedSix : Published :=
  publishedFive.next (.head (blockAt 6 0xb6))
    ((headRequest (blockRef 6 0xb6 0xb5)).step referencePlatform publishedFive.indexer)

theorem serves_publishedSix (hinstall : guard freshIndexer (.install smallSnapshot))
    (hpublish : guard (freshIndexer.installSnapshot smallSnapshot).1 .publish)
    (hfive : guard publishedStart.indexer (.head (blockAt 5 0xb5)))
    (hsix : guard publishedFive.indexer (.head (blockAt 6 0xb6))) :
    Path (Serves referencePlatform guard) (Published.start smallSnapshot.state smallDeployment)
      [unpricedCall (.bootstrapNormalized smallSnapshot []), headRequest (blockRef 5 0xb5 0xb4),
        headRequest (blockRef 6 0xb6 0xb5)] publishedSix := by
  have hsnapshot : QuoteIndexer.Takes referencePlatform freshIndexer (.install smallSnapshot)
      (freshIndexer.installSnapshot smallSnapshot).1 :=
    ⟨by decide +kernel, Prod.ext rfl (by decide +kernel)⟩
  have hready : QuoteIndexer.Takes referencePlatform (freshIndexer.installSnapshot smallSnapshot).1
      .publish smallStart := by
    show smallStart = (freshIndexer.installSnapshot smallSnapshot).1.publishReady
    decide +kernel
  have hboot : Serves referencePlatform guard (Published.start smallSnapshot.state smallDeployment)
      (unpricedCall (.bootstrapNormalized smallSnapshot [])) publishedStart := by
    refine ⟨rfl, [.install smallSnapshot, .publish], .more ⟨takes_next hsnapshot, hinstall⟩ ?_⟩
    exact .one ⟨takes_next hready, hpublish⟩
  refine .more hboot (.more (serves_next (.head (blockAt 5 0xb5)) ?_ hfive)
    (.one (serves_next (.head (blockAt 6 0xb6)) ?_ hsix)))
  · exact Prod.ext rfl (by decide +kernel)
  · exact Prod.ext rfl (by decide +kernel)

/-- The head is accepted without a change of the data. -/
def accepts (s : QuoteIndexer) (block : BlockRef) : Bool :=
  let out := s.applyCoreUpdate referencePlatform freeImages (.head block)
  decide (out.2 = .ok ()) && decide (out.1.reducer.data = s.reducer.data)

theorem eq_of_accepts {s : QuoteIndexer} {block : BlockRef} (h : accepts s block = true) :
    s.applyCoreUpdate referencePlatform freeImages (.head block) =
        ((s.applyCoreUpdate referencePlatform freeImages (.head block)).1, .ok ()) ∧
      (s.applyCoreUpdate referencePlatform freeImages (.head block)).1.reducer.data =
        s.reducer.data := by
  obtain ⟨hout, hdata⟩ := Bool.and_eq_true_iff.mp h
  exact ⟨Prod.ext rfl (of_decide_eq_true hout), of_decide_eq_true hdata⟩

theorem correction_retry_idempotent_replaced :
    ∃ s₁ s₂, publishedSix.indexer.intoCorrectedCore referencePlatform freeImages replaceSix =
        .ok (s₁, true) ∧
      s₁.applyCoreUpdate referencePlatform freeImages (.head (blockRef 7 0xd7 0xd6)) =
        (s₂, .ok ()) ∧
      s₂.intoCorrectedCore referencePlatform freeImages replaceSix = .ok (s₂, false) := by
  obtain ⟨s₁, hs₁, htest⟩ := exists_of_appliedWith
    (publishedSix.indexer.intoCorrectedCore referencePlatform freeImages replaceSix)
    (fun next => accepts next (blockRef 7 0xd7 0xd6) && !next.renamesTip (blockAt 7 0xd7))
    (by decide +kernel)
  obtain ⟨haccepts, hname⟩ := Bool.and_eq_true_iff.mp htest
  obtain ⟨hseven, hdata⟩ := eq_of_accepts haccepts
  have hkeeps : s₁.renamesTip (blockAt 7 0xd7) = false := by simpa using hname
  have hfive : publishedStart.indexer.renamesTip (blockAt 5 0xb5) = false := by decide +kernel
  have hsix : publishedFive.indexer.renamesTip (blockAt 6 0xb6) = false := by decide +kernel
  have hinstall : Steady freshIndexer (.install smallSnapshot) := by
    intro applied hlast
    cases hlast
  have hrun : Path (Serves referencePlatform Steady) _ _ publishedSix :=
    serves_publishedSix hinstall trivial hfive hsix
  refine ⟨s₁, _, hs₁, hseven, ?_⟩
  exact (correction_retry_idempotent hrun replaceSix freeImages).1 s₁
    [.head (blockRef 7 0xd7 0xd6)] _ freeImages hs₁
    (.one ⟨⟨freeImages, hseven⟩, hdata, hkeeps⟩)

/-- Block 6 again under another hash, later in the feed. -/
def renamedSix : BlockRef :=
  { blockRef 6 0xe6 0xb5 with cursor := { blockAt 6 0xe6 with sourceSequence := some 1 } }

/-- Block 6 is replaced, its replacement is renamed, and head 7 follows. -/
def publishedReplaced : Published :=
  publishedSix.next (.correct freeImages replaceSix)
    ((unpricedCall (.applyCoreUpdate (.correction replaceSix))).step referencePlatform
      publishedSix.indexer)

def publishedRenamed : Published :=
  publishedReplaced.next (.head renamedSix.cursor)
    ((headRequest renamedSix).step referencePlatform publishedReplaced.indexer)

def publishedSeven : Published :=
  publishedRenamed.next (.head (blockAt 7 0xe7))
    ((headRequest (blockRef 7 0xe7 0xe6)).step referencePlatform publishedRenamed.indexer)

/-- How a delivery ends: applied or not, or failed. -/
def ending (out : Except IndexerError (QuoteIndexer × Bool)) : Option Bool :=
  match out with
  | .ok (_, applied) => some applied
  | .error _ => none

theorem eq_of_ending (out : Except IndexerError (QuoteIndexer × Bool)) :
    (∀ applied, ending out = some applied → ∃ next, out = .ok (next, applied)) ∧
      (ending out = none → ∃ e, out = .error e) := by
  rcases out with e | ⟨next, applied⟩
  · exact ⟨fun _ h => absurd h (by simp [ending]), fun _ => ⟨e, rfl⟩⟩
  · exact ⟨fun _ h => ⟨next, by rw [Option.some.inj h]⟩, fun h => absurd h (by simp [ending])⟩

/-- **A renamed tip breaks the retry.**  The realtime feed names the replacement of block 6 by
another hash.  The correction that made it, delivered again, now fails; and after head 7 it is
taken for a retry, although block 6 of the published branch is not its new tip. -/
theorem renamed_tip_breaks_retry :
    (∃ p requests s₁ s₂ e, Path (Serves referencePlatform fun _ _ => True)
        (Published.start smallSnapshot.state smallDeployment) requests p ∧
      p.indexer.intoCorrectedCore referencePlatform freeImages replaceSix = .ok (s₁, true) ∧
      s₁.applyCoreUpdate referencePlatform freeImages (.head renamedSix) = (s₂, .ok ()) ∧
      s₂.reducer.data = s₁.reducer.data ∧
      s₂.intoCorrectedCore referencePlatform freeImages replaceSix = .error e) ∧
    ∃ p requests next, Path (Serves referencePlatform fun _ _ => True)
        (Published.start smallSnapshot.state smallDeployment) requests p ∧
      p.indexer.intoCorrectedCore referencePlatform freeImages replaceSix = .ok (next, false) ∧
      ¬ p.Contains replaceSix.newTip.cursor := by
  have hsix : Path (Serves referencePlatform fun _ _ => True) _ _ publishedSix :=
    serves_publishedSix trivial trivial trivial trivial
  obtain ⟨s₁, hs₁, htest⟩ := exists_of_appliedWith
    (publishedSix.indexer.intoCorrectedCore referencePlatform freeImages replaceSix)
    (fun next => accepts next renamedSix && decide (next = publishedReplaced.indexer))
    (by decide +kernel)
  obtain ⟨haccepts, hnext⟩ := Bool.and_eq_true_iff.mp htest
  replace hnext := of_decide_eq_true hnext
  obtain ⟨hrenamed, hdata⟩ := eq_of_accepts haccepts
  obtain ⟨e, hfails⟩ := (eq_of_ending (publishedRenamed.indexer.intoCorrectedCore
    referencePlatform freeImages replaceSix)).2 (by decide +kernel)
  obtain ⟨next, hretry⟩ := (eq_of_ending (publishedSeven.indexer.intoCorrectedCore
    referencePlatform freeImages replaceSix)).1 false (by decide +kernel)
  have hcorrect : QuoteIndexer.Takes referencePlatform publishedSix.indexer
      (.correct freeImages replaceSix) publishedReplaced.indexer := by
    rw [← hnext]
    exact hs₁
  have hreplace : Serves referencePlatform (fun _ _ => True) publishedSix
      (unpricedCall (.applyCoreUpdate (.correction replaceSix))) publishedReplaced :=
    serves_next (.correct freeImages replaceSix) hcorrect trivial
  have hrename : Serves referencePlatform (fun _ _ => True) publishedReplaced
      (headRequest renamedSix) publishedRenamed :=
    serves_next (.head renamedSix.cursor) (Prod.ext rfl (by decide +kernel)) trivial
  have hseven : Serves referencePlatform (fun _ _ => True) publishedRenamed
      (headRequest (blockRef 7 0xe7 0xe6)) publishedSeven :=
    serves_next (.head (blockAt 7 0xe7)) (Prod.ext rfl (by decide +kernel)) trivial
  refine ⟨⟨publishedSix, _, s₁, _, e, hsix, hs₁, hrenamed, hdata, ?_⟩, publishedSeven, _, next,
    hsix.trans (.more hreplace (.more hrename (.one hseven))), hretry, ?_⟩
  · rw [hnext]
    exact hfails
  rintro ⟨hbranch, -⟩
  have hsame : publishedSeven.branch 6 = some 0xe6 := by decide +kernel
  exact absurd (hsame.symm.trans hbranch) (by decide)

end Lunarbase.Client
