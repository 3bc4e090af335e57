import Lunarbase.Client.Model
import Lunarbase.Support.Digits
import Lunarbase.Support.HashChain
import Lunarbase.Support.Outcome

/-!
# Client — Correction

The envelope of an optimistic correction (`model/correction.rs`): its validation and the
fingerprint that recognises a retry.
-/

namespace Lunarbase.Client

open List Except

def maxCorrectionBranchBlocks : Nat := 128
def maxCorrectionLogs : Nat := 8192
def maxCorrectionRetainedBytes : Nat := 16 * 1024 * 1024

def requiredHash (block : BlockRef) (label : String) : Except SourceError B256 :=
  match block.cursor.blockHash with
  | some hash =>
    if hash ≠ 0 then .ok hash
    else .error (.gap ("optimistic correction " ++ label ++ " has no block hash"))
  | none => .error (.gap ("optimistic correction " ++ label ++ " has no block hash"))

def validateBlock (block : BlockRef) (chainId : Nat) (label : String) :
    Except SourceError Unit := do
  if block.cursor.chainId ≠ chainId then
    .error (.gap "optimistic correction crosses chain identities")
  else if block.cursor.transactionIndex.isSome ∨ block.cursor.logIndex.isSome then
    .error (.gap ("optimistic correction " ++ label ++ " is not block-level"))
  else do
    let _ ← requiredHash block label
    .ok ()

def sameBlockHash (left right : BlockRef) : Bool :=
  left.cursor.chainId == right.cursor.chainId &&
    left.cursor.blockNumber == right.cursor.blockNumber &&
    left.cursor.blockHash.isSome && left.cursor.blockHash == right.cursor.blockHash

def invalidBranch (label : String) : SourceError :=
  .gap ("optimistic correction " ++ label ++ " branch is not contiguous")

/-- The loop of `validate_branch`: each block extends the one before it by number and hash. -/
def validateLinks (chainId : Nat) (label : String) (parentNumber : Nat) (parentHash : B256) :
    List BlockRef → Except SourceError Unit
  | [] => .ok ()
  | block :: rest => do
    validateBlock block chainId label
    let blockHash ← requiredHash block label
    if block.cursor.chainId ≠ chainId ∨ block.cursor.blockNumber ≠ saturatingAdd parentNumber 1 ∨
        block.parentHash ≠ some parentHash then
      .error (invalidBranch label)
    else validateLinks chainId label block.cursor.blockNumber blockHash rest

def validateBranch (ancestor tip : BlockRef) (branch : List BlockRef) (label : String) :
    Except SourceError Unit := do
  let ancestorHash ← requiredHash ancestor "common ancestor"
  if branch = [] then
    if tip ≠ ancestor then .error (invalidBranch label) else .ok ()
  else if branch.length ≠ tip.cursor.blockNumber - ancestor.cursor.blockNumber ∨
      branch.getLast? ≠ some tip then
    .error (invalidBranch label)
  else
    validateLinks ancestor.cursor.chainId label ancestor.cursor.blockNumber ancestorHash branch

/-- The loop of `validate_replacement_logs`.  `branch` is what the index into the new branch has
not passed yet, `previousOrder` the position of the last log. -/
def validateLogs (chainId : Nat) (previousOrder : Option (List Nat)) (branch : List BlockRef) :
    List ContractLog → Except SourceError Unit
  | [] => .ok ()
  | log :: rest =>
    if log.removed ∨ log.cursor.chainId ≠ chainId then
      .error (.gap "optimistic correction contains an invalid replacement log")
    else if log.cursor.transactionIndex.isSome ≠ log.cursor.logIndex.isSome ∨
        (log.cursor.transactionIndex.isNone ∧ log.cursor.sourceSequence.isNone) then
      .error (.gap "optimistic correction log has no deterministic ordering identity")
    else
      match branch.dropWhile fun block => block.cursor.blockNumber < log.cursor.blockNumber with
      | [] => .error (.gap "optimistic correction log is outside its replacement branch")
      | block :: later =>
        if block.cursor.blockNumber ≠ log.cursor.blockNumber ∨ log.cursor.blockHash.isNone ∨
            log.cursor.blockHash ≠ block.cursor.blockHash ∨
            log.cursor.executionBlockNumber ≠ block.cursor.executionBlockNumber ∨
            log.cursor.commitment ≠ block.cursor.commitment then
          .error (.gap "optimistic correction log has inconsistent block identity")
        else if previousOrder.any (fun previous => log.cursor.eventOrder ≤ previous) then
          .error (.gap "optimistic correction logs are duplicate or unordered")
        else validateLogs chainId (some log.cursor.eventOrder) (block :: later) rest

namespace ChainCorrection

def blocks (c : ChainCorrection) : List BlockRef :=
  c.commonAncestor :: c.oldTip :: c.newTip :: (c.oldBranch ++ c.newBranch)

/-- Two mentions of one hash name the same block. -/
def consistentMention (left right : BlockRef) : Bool :=
  left.cursor.blockHash.isNone || right.cursor.blockHash != left.cursor.blockHash ||
    (right.cursor.chainId == left.cursor.chainId &&
      right.cursor.blockNumber == left.cursor.blockNumber &&
      right.cursor.executionBlockNumber == left.cursor.executionBlockNumber &&
      right.parentHash == left.parentHash)

def repeatedHashesConsistent : List BlockRef → Bool
  | [] => true
  | left :: rest => rest.all (consistentMention left) && repeatedHashesConsistent rest

def validateRepeatedHashes (c : ChainCorrection) : Except SourceError Unit :=
  if repeatedHashesConsistent c.blocks then .ok ()
  else .error (.gap "optimistic correction reuses a block hash with conflicting identity")

def validate (env : Platform) (c : ChainCorrection) : Except SourceError Unit :=
  let chainId := c.commonAncestor.cursor.chainId
  if maxCorrectionBranchBlocks < c.oldBranch.length ∨
      maxCorrectionBranchBlocks < c.newBranch.length ∨
      maxCorrectionLogs < c.replacementLogs.length ∨
      maxCorrectionRetainedBytes < saturatingAdd c.retainedBytes env.sizeOfChainUpdate then
    .error (.gap "optimistic correction exceeded its block, log, or byte budget")
  else if c.oldBranch.any fun block => block.cursor.commitment = .finalized then
    .error (.gap "optimistic correction cannot replace finalized blocks")
  else if chainId = 0 ∨ c.oldTip.cursor.chainId ≠ chainId ∨ c.newTip.cursor.chainId ≠ chainId then
    .error (.gap "optimistic correction crosses chain identities")
  else do
    validateBlock c.commonAncestor chainId "common ancestor"
    validateBlock c.oldTip chainId "old tip"
    validateBlock c.newTip chainId "new tip"
    if sameBlockHash c.oldTip c.newTip then
      .error (.gap "optimistic correction cannot replace a block with itself")
    else do
      c.validateRepeatedHashes
      validateBranch c.commonAncestor c.oldTip c.oldBranch "old"
      validateBranch c.commonAncestor c.newTip c.newBranch "new"
      validateLogs chainId none c.newBranch c.replacementLogs

/-! ### Fingerprint -/

/-- `to_be_bytes` at `len` bytes. -/
def beBytes (len n : Nat) : List UInt8 := (Digits.padDigits 256 len n).map UInt8.ofNat

def hashOptionalHash : Option B256 → List UInt8
  | none => [0]
  | some value => 1 :: beBytes 32 value.toNat

def hashOptionalU32 : Option Nat → List UInt8
  | none => [0]
  | some value => 1 :: beBytes 4 value

def hashCursor (c : ChainCursor) : List UInt8 :=
  beBytes 8 c.chainId ++ beBytes 8 c.blockNumber ++ beBytes 8 c.executionBlockNumber ++
    hashOptionalHash c.blockHash ++ hashOptionalU32 c.transactionIndex ++
    hashOptionalU32 c.logIndex

def hashBlock (b : BlockRef) : List UInt8 := hashCursor b.cursor ++ hashOptionalHash b.parentHash

def hashLog (l : ContractLog) : List UInt8 :=
  beBytes 20 l.address.toNat ++ hashOptionalHash l.transactionHash ++ beBytes 8 l.topics.length ++
    l.topics.flatMap (fun topic => beBytes 32 topic.toNat) ++ beBytes 8 l.data.length ++ l.data ++
    [if l.removed then 1 else 0] ++ hashCursor l.cursor

/-- The bytes the fingerprint hashes. -/
def fingerprintBytes (c : ChainCorrection) : List UInt8 :=
  "lunarbase:chain-correction:fingerprint:v1".toUTF8.toList ++ hashBlock c.commonAncestor ++
    hashBlock c.oldTip ++ hashBlock c.newTip ++ beBytes 8 c.oldBranch.length ++
    c.oldBranch.flatMap hashBlock ++ beBytes 8 c.newBranch.length ++
    c.newBranch.flatMap hashBlock ++ beBytes 8 c.replacementLogs.length ++
    c.replacementLogs.flatMap hashLog

def fingerprint (env : Platform) (c : ChainCorrection) : B256 := env.keccak256 c.fingerprintBytes

end ChainCorrection

/-! ### What validation establishes -/

variable {c c' : ChainCursor}

theorem ChainCursor.blockNumber_le_of_lt (h : c.eventOrder < c'.eventOrder) :
    c.blockNumber ≤ c'.blockNumber := by
  rcases cons_lt_cons_iff.mp h with hlt | ⟨heq, -⟩
  · exact hlt.le
  · exact heq.le

/-- An event below the block of another one is before it. -/
theorem ChainCursor.eventOrder_lt_of_blockNumber_lt
    (h : c.blockNumber < c'.blockNumber) : c.eventOrder < c'.eventOrder :=
  List.Lex.rel h

/-- Each block of `branch` is one higher than the block before it and names its hash. -/
def Linked : BlockRef → List BlockRef → Prop :=
  HashChain.Linked (fun block => block.cursor.blockNumber) (fun block => block.cursor.blockHash)
    (fun block => block.parentHash)

/-- `branch` leads from the ancestor to the tip. -/
structure BranchTo (ancestor tip : BlockRef) (branch : List BlockRef) : Prop where
  linked : Linked ancestor branch
  hashed : ∀ block ∈ ancestor :: branch, block.cursor.blockHash.isSome
  heights : branch.map (fun block => block.cursor.blockNumber) =
    List.range' (ancestor.cursor.blockNumber + 1)
      (tip.cursor.blockNumber - ancestor.cursor.blockNumber)
  ends : (ancestor :: branch).getLast? = some tip
  empty_iff : branch = [] ↔ tip = ancestor
  fits : branch ≠ [] → tip.cursor.blockNumber ≤ u64Max

/-- The log names the block by number, hash, execution number and commitment. -/
structure InBlock (log : ContractLog) (block : BlockRef) : Prop where
  number : log.cursor.blockNumber = block.cursor.blockNumber
  hash : log.cursor.blockHash = block.cursor.blockHash
  execution : log.cursor.executionBlockNumber = block.cursor.executionBlockNumber
  commitment : log.cursor.commitment = block.cursor.commitment

variable {block ancestor : BlockRef} {label : String} {chainId : Nat} {parentHash : B256}
  {branch : List BlockRef} {c : ChainCorrection} {env : Platform}

theorem requiredHash_eq_ok {hash : B256} (h : requiredHash block label = .ok hash) :
    block.cursor.blockHash = some hash := by
  rw [requiredHash] at h
  cases hhash : block.cursor.blockHash with
  | none => simp [hhash] at h
  | some hash' =>
    simp only [hhash] at h
    split_ifs at h
    rw [Except.ok.inj h]

variable {parentNumber : Nat}

/-- One round of the loop over a branch. -/
theorem validateLinks_cons {rest : List BlockRef}
    (h : validateLinks chainId label parentNumber parentHash (block :: rest) = .ok ()) :
    ∃ hash, block.cursor.blockHash = some hash ∧
      block.cursor.blockNumber = min (parentNumber + 1) u64Max ∧
      block.parentHash = some parentHash ∧
      validateLinks chainId label block.cursor.blockNumber hash rest = .ok () := by
  obtain ⟨⟨⟩, -, h⟩ := bind_eq_ok.mp h
  obtain ⟨hash, hhash, h⟩ := bind_eq_ok.mp h
  obtain ⟨hlink, h⟩ := ite_error_eq_ok.mp h
  simp only [not_or, not_not] at hlink
  exact ⟨hash, requiredHash_eq_ok hhash, hlink.2.1, hlink.2.2, h⟩

/-- Numbers count up along the loop until they saturate. -/
theorem validateLinks_last {tip : BlockRef}
    (h : validateLinks chainId label parentNumber parentHash branch = .ok ())
    (hlast : branch.getLast? = some tip) :
    tip.cursor.blockNumber = min (parentNumber + branch.length) u64Max := by
  induction branch generalizing parentNumber parentHash with
  | nil => simp at hlast
  | cons block rest ih =>
    obtain ⟨hash, -, hnumber, -, hrest⟩ := validateLinks_cons h
    cases rest with
    | nil =>
      obtain rfl : block = tip := by simpa using hlast
      simpa using hnumber
    | cons next later =>
      rw [ih hrest hlast, hnumber]
      simp only [length_cons]
      omega

/-- While they do not saturate, each block is linked to the one before it. -/
theorem validateLinks_linked {parent : BlockRef} (hhash : parent.cursor.blockHash = some parentHash)
    (hroom : parent.cursor.blockNumber + branch.length ≤ u64Max)
    (h : validateLinks chainId label parent.cursor.blockNumber parentHash branch = .ok ()) :
    Linked parent branch ∧ ∀ block ∈ branch, block.cursor.blockHash.isSome := by
  induction branch generalizing parent parentHash with
  | nil => exact ⟨HashChain.Linked.nil parent, by simp⟩
  | cons block rest ih =>
    obtain ⟨hash, hhash', hnumber, hparent, hrest⟩ := validateLinks_cons h
    rw [length_cons] at hroom
    have hnext : block.cursor.blockNumber = parent.cursor.blockNumber + 1 := by omega
    obtain ⟨hlinked, hsome⟩ := ih hhash' (by omega) hrest
    refine ⟨HashChain.linked_cons.mpr ⟨⟨hnext, hparent.trans hhash.symm⟩, hlinked⟩, ?_⟩
    intro b hb
    rcases mem_cons.mp hb with rfl | hmem
    · exact Option.isSome_of_mem hhash'
    · exact hsome b hmem

variable {tip : BlockRef}

/-- **A valid branch leads from the ancestor to its tip.** -/
theorem validateBranch_spec
    (h : validateBranch ancestor tip branch label = .ok ()) : BranchTo ancestor tip branch := by
  obtain ⟨hash, hhash, h⟩ := bind_eq_ok.mp h
  replace hhash := requiredHash_eq_ok hhash
  have hancestor : ancestor.cursor.blockHash.isSome := Option.isSome_of_mem hhash
  by_cases hempty : branch = []
  · obtain rfl : tip = ancestor := by
      rw [if_pos hempty] at h
      exact not_not.mp (ite_error_eq_ok.mp h).1
    subst hempty
    exact ⟨.nil _, by simpa using hancestor, by simp, rfl, by simp, by simp⟩
  rw [if_neg hempty] at h
  obtain ⟨hshape, h⟩ := ite_error_eq_ok.mp h
  simp only [not_or, not_not] at hshape
  obtain ⟨hlength, hlast⟩ := hshape
  have hpos : 0 < branch.length := length_pos_iff.mpr hempty
  have htip := validateLinks_last h hlast
  have hroom : ancestor.cursor.blockNumber + branch.length ≤ u64Max := by omega
  obtain ⟨hlinked, hsome⟩ := validateLinks_linked hhash hroom h
  refine ⟨hlinked, by simpa using ⟨hancestor, hsome⟩, ?_, ?_, ?_, ?_⟩
  · rw [← hlength]
    exact hlinked.heights
  · rw [List.getLast?_cons, hlast]
    rfl
  · refine ⟨fun hnil => absurd hnil hempty, ?_⟩
    rintro rfl
    omega
  · intro _
    exact htip.trans_le (min_le_right _ _)

section

variable (h : BranchTo ancestor tip branch)

include h

theorem BranchTo.above : ∀ block ∈ branch, ancestor.cursor.blockNumber < block.cursor.blockNumber :=
  fun _ hmem => (h.linked.height_mem hmem).1

theorem BranchTo.tip_mem (hne : branch ≠ []) : tip ∈ branch := by
  have hlast := h.ends
  rw [List.getLast?_cons, List.getLast?_eq_some_getLast hne] at hlast
  exact Option.some.inj hlast ▸ getLast_mem hne

theorem BranchTo.le_tip : ∀ block ∈ branch, block.cursor.blockNumber ≤ tip.cursor.blockNumber := by
  intro block hmem
  have hheight := mem_map_of_mem (f := fun block => block.cursor.blockNumber) hmem
  rw [h.heights, mem_range'_1] at hheight
  omega

/-- A height occurs once, the ancestor's included. -/
theorem BranchTo.eq_of_height {block' : BlockRef}
    (hblock : block ∈ ancestor :: branch) (hblock' : block' ∈ ancestor :: branch)
    (heq : block.cursor.blockNumber = block'.cursor.blockNumber) : block = block' := by
  rcases mem_cons.mp hblock with rfl | hmem
  · rcases mem_cons.mp hblock' with rfl | hmem'
    · rfl
    · exact absurd heq (h.above block' hmem').ne
  · rcases mem_cons.mp hblock' with rfl | hmem'
    · exact absurd heq (h.above block hmem).ne'
    · exact h.linked.eq_of_height hmem hmem' heq

end

/-- Valid replacement logs are on the branch, in strictly rising order. -/
theorem validateLogs_spec {previous : Option (List Nat)} {logs : List ContractLog}
    (h : validateLogs chainId previous branch logs = .ok ()) :
    (∀ log ∈ logs, ∃ block ∈ branch, InBlock log block) ∧
    logs.Pairwise (fun log log' => log.cursor.eventOrder < log'.cursor.eventOrder) ∧
    ∀ order, previous = some order → ∀ log ∈ logs, order < log.cursor.eventOrder := by
  induction logs generalizing previous branch with
  | nil => simp
  | cons first rest ih =>
    obtain ⟨-, h⟩ := ite_error_eq_ok.mp h
    obtain ⟨-, h⟩ := ite_error_eq_ok.mp h
    split at h
    · cases h
    next block later hdrop =>
      obtain ⟨hidentity, h⟩ := ite_error_eq_ok.mp h
      obtain ⟨horder, h⟩ := ite_error_eq_ok.mp h
      obtain ⟨hbranch, hsorted, hprevious⟩ := ih h
      have hsub : ∀ b ∈ block :: later, b ∈ branch := fun b hb =>
        (dropWhile_sublist _).subset (hdrop ▸ hb)
      have hfirst : ∀ log ∈ rest, first.cursor.eventOrder < log.cursor.eventOrder :=
        hprevious _ rfl
      refine ⟨?_, pairwise_cons.mpr ⟨hfirst, hsorted⟩, ?_⟩
      · intro log hlog
        rcases mem_cons.mp hlog with rfl | hmem
        · simp only [not_or, not_not] at hidentity
          obtain ⟨hnumber, -, hhash, hexecution, hcommitment⟩ := hidentity
          exact ⟨block, hsub block mem_cons_self, hnumber.symm, hhash, hexecution, hcommitment⟩
        · obtain ⟨b, hb, hnum⟩ := hbranch log hmem
          exact ⟨b, hsub b hb, hnum⟩
      · rintro order rfl
        have hlt : order < first.cursor.eventOrder := by
          simpa using horder
        intro log hlog
        rcases mem_cons.mp hlog with rfl | hmem
        · exact hlt
        · exact lt_trans hlt (hfirst log hmem)

section

variable (h : c.validate env = .ok ())

include h

/-- The checks a valid correction has passed. -/
theorem ChainCorrection.validate_eq_ok :
    sameBlockHash c.oldTip c.newTip = false ∧ repeatedHashesConsistent c.blocks = true ∧
    BranchTo c.commonAncestor c.oldTip c.oldBranch ∧
    BranchTo c.commonAncestor c.newTip c.newBranch ∧
    validateLogs c.commonAncestor.cursor.chainId none c.newBranch c.replacementLogs = .ok () := by
  obtain ⟨-, h⟩ := ite_error_eq_ok.mp h
  obtain ⟨-, h⟩ := ite_error_eq_ok.mp h
  obtain ⟨-, h⟩ := ite_error_eq_ok.mp h
  obtain ⟨⟨⟩, -, h⟩ := bind_eq_ok.mp h
  obtain ⟨⟨⟩, -, h⟩ := bind_eq_ok.mp h
  obtain ⟨⟨⟩, -, h⟩ := bind_eq_ok.mp h
  obtain ⟨hdiffers, h⟩ := ite_error_eq_ok.mp h
  obtain ⟨⟨⟩, hrepeated, h⟩ := bind_eq_ok.mp h
  obtain ⟨⟨⟩, hold, h⟩ := bind_eq_ok.mp h
  obtain ⟨⟨⟩, hnew, h⟩ := bind_eq_ok.mp h
  refine ⟨Bool.not_eq_true _ ▸ hdiffers, ?_, validateBranch_spec hold, validateBranch_spec hnew, h⟩
  rw [validateRepeatedHashes] at hrepeated
  by_contra hnot
  rw [if_neg hnot] at hrepeated
  cases hrepeated

/-- A valid correction does not replace a block with itself. -/
theorem ChainCorrection.validate_oldTip_ne : c.newTip ≠ c.oldTip := by
  intro htip
  obtain ⟨hdiffers, -, hold, -, -⟩ := validate_eq_ok h
  have hsome : c.oldTip.cursor.blockHash.isSome := hold.hashed _ (mem_of_getLast? hold.ends)
  simp [sameBlockHash, htip, hsome] at hdiffers

/-- The tip of a valid correction is a 64-bit position: one of the two branches is not empty. -/
theorem ChainCorrection.newTip_fits : c.newTip.cursor.blockNumber ≤ u64Max := by
  obtain ⟨-, -, hold, hnew, -⟩ := validate_eq_ok h
  by_cases hnil : c.newBranch = []
  · -- the new tip is the ancestor, which the old branch starts from
    have htip : c.newTip = c.commonAncestor := hnew.empty_iff.mp hnil
    have hne : c.oldBranch ≠ [] := by
      intro hnil'
      exact validate_oldTip_ne h (hold.empty_iff.mp hnil' ▸ htip)
    have habove := hold.above c.oldTip (hold.tip_mem hne)
    have hfits := hold.fits hne
    rw [htip]
    omega
  · exact hnew.fits hnil

/-- What the later stages use of a valid correction. -/
theorem ChainCorrection.validate_spec :
    c.commonAncestor.cursor.blockHash.isSome ∧
    (∀ block ∈ c.newBranch, c.commonAncestor.cursor.blockNumber < block.cursor.blockNumber) ∧
    (∀ log ∈ c.replacementLogs,
      ∃ block ∈ c.newBranch, block.cursor.blockNumber = log.cursor.blockNumber) ∧
    c.replacementLogs.Pairwise fun log log' => log.cursor.eventOrder < log'.cursor.eventOrder := by
  obtain ⟨-, -, -, hnew, hlogs⟩ := validate_eq_ok h
  obtain ⟨hplaced, hsorted, -⟩ := validateLogs_spec hlogs
  refine ⟨hnew.hashed _ mem_cons_self, hnew.above, ?_, hsorted⟩
  intro log hlog
  obtain ⟨block, hblock, hin⟩ := hplaced log hlog
  exact ⟨block, hblock, hin.number.symm⟩

end

end Lunarbase.Client
