import Lunarbase.EventWorker.Committed

/-!
# EventWorker — Chain

The canonical index as a chain (`Store.Chained`): every mapped height has its header, neighbouring
heights are linked by hash, and the canonical head is the highest of them.

The head script tests the link to the height below and not to the height above, the header writer
takes a zero parent hash that the reader refuses, and the correction script takes its common
ancestor unseen.  Calls that give no occasion for these (`Store.Orderly`) keep the chain
(`Chained.perform`).
-/

namespace Lunarbase.EventWorker

open Client (BlockRef ContractLog)
open DurableHead

/-- What `decode_header` asks of a header. -/
def HeaderEnvelope.Valid (chainId : Nat) (header : HeaderEnvelope) : Prop :=
  header.schemaVersion = streamSchemaVersion ∧ header.chainId = chainId ∧ header.blockHash ≠ 0 ∧
    header.parentHash ≠ 0

/-- A block of the chain whose header can be read back, with a number that a script prints. -/
structure Fits (chainId : Nat) (block : BlockRef) : Prop where
  chainId : block.cursor.chainId = chainId
  parentHash : block.parentHash ≠ some 0
  number : block.cursor.blockNumber < 10 ^ 14

theorem tonumber_decimal {number : Nat} (h : number < 10 ^ 14) :
    Lua.tonumber (decimal number) = number := by
  rw [decimal, Lua.tonumber_toDigits, Lua.toDouble_of_lt (h.trans (by decide))]

theorem parentKey_decimal {number : Nat} (h : number < 10 ^ 14) :
    Store.parentKey (decimal number) = decimal (number - 1) := by
  have hlow : number - 1 < 10 ^ 14 := by omega
  rw [Store.parentKey, tonumber_decimal h, Lua.toDouble_of_lt (hlow.trans (by decide)),
    Lua.tostring_of_lt hlow, decimal]

/-- The header that a block is stored with can be read back. -/
theorem Fits.valid {chainId : Nat} {block : BlockRef} {hash parent : B256} (h : Fits chainId block)
    (hparent : block.parentHash = some parent) (hhash : hash ≠ 0) :
    HeaderEnvelope.Valid chainId ⟨streamSchemaVersion, block.cursor.chainId,
      block.cursor.blockNumber, block.cursor.executionBlockNumber, hash, parent⟩ :=
  ⟨rfl, h.chainId, hhash, fun hzero => h.parentHash (hparent.trans (congrArg some hzero))⟩

namespace Store

variable {s : Store} {w : Worker} {chainId : Nat}

structure Chained (chainId : Nat) (s : Store) : Prop where
  stored : ∀ hash header, s.headers hash = some header →
    hash = hashText header.blockHash ∧ header.Valid chainId
  mapped : ∀ key hash, s.canonicalHeight key = some hash → ∃ header,
    s.headers hash = some header ∧ key = decimal header.blockNumber ∧ header.blockNumber < 10 ^ 14
  linked : ∀ number lower upper header, s.canonicalHeight (decimal number) = some lower →
    s.canonicalHeight (decimal (number + 1)) = some upper → s.headers upper = some header →
    hashText header.parentHash = lower
  head : ∀ hash, s.canonicalHead = some hash → ∃ header, s.headers hash = some header ∧
    s.canonicalHeight (decimal header.blockNumber) = some hash ∧
    ∀ number other, s.canonicalHeight (decimal number) = some other → number ≤ header.blockNumber
  started : s.canonicalHead = none → s.finalizedHead = none ∧ ∀ key, s.canonicalHeight key = none
  finalized : ∀ hash, s.finalizedHead = some hash → ∃ header, s.headers hash = some header

/-- A call that, if it is accepted, gives the chain no occasion to break: a head is the parent of
the block mapped above it, and a correction starts from the canonical block of the height of its
ancestor. -/
def Orderly (w : Worker) (chainId : Nat) (s : Store) (call : Call) : Prop :=
  s.perform w call ≠ s → match call with
  | .head block => Fits chainId block ∧ ∀ hash upper header, block.cursor.blockHash = some hash →
      s.canonicalHeight (decimal (block.cursor.blockNumber + 1)) = some upper →
      s.headers upper = some header → header.parentHash = hash
  | .event _ => True
  | .correct resolution _ _ _ _ _ => (∀ block ∈ resolution.newBranch, Fits chainId block) ∧
      (resolution.newBranch.map (·.cursor.blockHash)).Nodup ∧
      ∃ hash, resolution.commonAncestor.cursor.blockHash = some hash ∧
        s.canonicalHeight (decimal resolution.commonAncestor.cursor.blockNumber) =
          some (hashText hash)

theorem Chained.initial (chainId : Nat) (fingerprint : Text) :
    Chained chainId (Store.initial fingerprint) where
  stored _ _ h := nomatch h
  mapped _ _ h := nomatch h
  linked _ _ _ _ h := nomatch h
  head _ h := nomatch h
  started _ := ⟨rfl, fun _ => rfl⟩
  finalized _ h := nomatch h

variable {hash : Text} {header : HeaderEnvelope} {number : Nat}

/-- The header of the canonical head: its height is mapped to it, and is the highest. -/
theorem Chained.of_head (h : Chained chainId s) (hcanonical : s.canonicalHead = some hash)
    (hheader : s.headers hash = some header) :
    Lua.toDouble header.blockNumber = header.blockNumber ∧
      s.canonicalHeight (decimal header.blockNumber) = some hash ∧
      ∀ number other, s.canonicalHeight (decimal number) = some other →
        number ≤ header.blockNumber := by
  obtain ⟨header', hheader', hmapped, hhighest⟩ := h.head hash hcanonical
  cases hheader.symm.trans hheader'
  obtain ⟨header', hheader', -, hbound⟩ := h.mapped _ _ hmapped
  cases hheader.symm.trans hheader'
  exact ⟨Lua.toDouble_of_lt (hbound.trans (by decide)), hmapped, hhighest⟩

/-! ### Heads -/

theorem writeHead_canonicalHead_isSome {head : DurableHead} {promote : Bool}
    (h : s.promotesHead head = .ok promote) :
    ∃ hash, (s.writeHead head promote).canonicalHead = some hash := by
  rw [writeHead_eq]
  cases promote with
  | true => exact ⟨head.blockHash, rfl⟩
  | false =>
    obtain ⟨canonicalHead, -, hcanonical, -, -⟩ := promotesHead_eq_false h
    exact ⟨canonicalHead, hcanonical⟩

/-- The finalized head has its header. -/
def FinalizedStored (s : Store) : Prop :=
  ∀ hash, s.finalizedHead = some hash → ∃ header, s.headers hash = some header

theorem FinalizedStored.writeHead (h : s.FinalizedStored) (head : DurableHead) (promote : Bool) :
    (s.writeHead head promote).FinalizedStored := by
  rw [writeHead_eq, installHead_eq]
  intro hash hhash
  obtain ⟨header, hheader⟩ := h hash hhash
  exact ⟨header, storeHeader_of_some hheader head⟩

theorem FinalizedStored.commit (h : s.FinalizedStored) (plan : Plan) :
    (s.commit plan).1.FinalizedStored := by
  intro hash hhash
  rw [(s.commit_fixed plan).2] at hhash
  obtain ⟨header, hheader⟩ := h hash hhash
  exact ⟨header, commit_header_of_some hheader plan⟩

section Head

variable {block : BlockRef} {head : DurableHead} {promote : Bool}

/-- The heights after a head: its own is mapped to it, the others are as before. -/
theorem writeHead_height (hnumber : head.blockNumber = decimal block.cursor.blockNumber)
    (h : (s.writeHead head promote).canonicalHeight (decimal number) = some hash) :
    number = block.cursor.blockNumber ∧ hash = head.blockHash ∨
      number ≠ block.cursor.blockNumber ∧ s.canonicalHeight (decimal number) = some hash := by
  rw [writeHead_eq, installHead_eq, hnumber] at h
  rcases update_some_eq_some.mp h with ⟨heq, rfl⟩ | ⟨hne, hbefore⟩
  · exact .inl ⟨decimal_injective heq, rfl⟩
  · exact .inr ⟨fun heq => hne (congrArg decimal heq), hbefore⟩

theorem Chained.writeHead_linked (h : Chained chainId s) (hhead : fromBlock block = .ok head)
    (hfits : Fits chainId block) (habove : ∀ hash upper header, block.cursor.blockHash = some hash →
      s.canonicalHeight (decimal (block.cursor.blockNumber + 1)) = some upper →
      s.headers upper = some header → header.parentHash = hash)
    (hchecked : s.HeadChecked head promote) {lower upper : Text}
    (hlower : (s.writeHead head promote).canonicalHeight (decimal number) = some lower)
    (hupper : (s.writeHead head promote).canonicalHeight (decimal (number + 1)) = some upper)
    (hheader : (s.writeHead head promote).headers upper = some header) :
    hashText header.parentHash = lower := by
  obtain ⟨hash, parent, hhash, hparent, hzero, rfl⟩ := fromBlock_eq_ok hhead
  rw [writeHead_eq] at hheader
  -- a header that was mapped before is still the same one
  have hkept : ∀ number', s.canonicalHeight (decimal number') = some upper →
      s.headers upper = some header := by
    intro number' hmapped
    obtain ⟨header', hheader', -, -⟩ := h.mapped _ _ hmapped
    rw [hheader', ← hheader]
    exact (storeHeader_of_some hheader' _).symm
  rcases writeHead_height rfl hupper with ⟨hat, rfl⟩ | ⟨-, hupper⟩
  · -- the head is the upper one: the script has compared the hashes
    cases (storeHeader_self hchecked.identity).symm.trans hheader
    rcases writeHead_height rfl hlower with ⟨hat', -⟩ | ⟨-, hlower⟩
    · omega
    have hpositive : 0 < Lua.tonumber (decimal block.cursor.blockNumber) := by
      rw [tonumber_decimal hfits.number, ← hat]
      exact Nat.succ_pos _
    have hkey : parentKey (decimal block.cursor.blockNumber) = decimal number := by
      rw [parentKey_decimal hfits.number, ← hat, Nat.add_sub_cancel]
    exact (hchecked.parent hpositive lower (hkey ▸ hlower)).symm
  · rcases writeHead_height rfl hlower with ⟨rfl, rfl⟩ | ⟨-, hlower⟩
    · exact congrArg hashText (habove hash upper header hhash hupper (hkept _ hupper))
    · exact h.linked number lower upper header hlower hupper (hkept _ hupper)

theorem Chained.writeHead_head (h : Chained chainId s) (hhead : fromBlock block = .ok head)
    (hfits : Fits chainId block) (hchecked : s.HeadChecked head promote)
    (hcanonical : (s.writeHead head promote).canonicalHead = some hash) :
    ∃ header, (s.writeHead head promote).headers hash = some header ∧
      (s.writeHead head promote).canonicalHeight (decimal header.blockNumber) = some hash ∧
      ∀ number other, (s.writeHead head promote).canonicalHeight (decimal number) = some other →
        number ≤ header.blockNumber := by
  obtain ⟨_, _, _, hparent, hzero, rfl⟩ := fromBlock_eq_ok hhead
  rw [writeHead_eq, installHead_eq] at hcanonical ⊢
  cases promote with
  | true =>
    cases hcanonical
    refine ⟨_, storeHeader_self hchecked.identity, Function.update_self .., ?_⟩
    · intro number other hother
      rcases update_some_eq_some.mp hother with ⟨hkey, -⟩ | ⟨-, hother⟩
      · exact (decimal_injective hkey).le
      rcases promotesHead_eq_true hchecked.promotes with hnone | hsame |
        ⟨canonicalHead, header, hsome, hheader, hlt, -⟩
      · cases ((h.started hnone).2 _).symm.trans hother
      · obtain ⟨header, hheader, -, hhighest⟩ := h.head _ hsame
        obtain rfl := hchecked.identity header hheader
        exact hhighest number other hother
      · obtain ⟨hexact, -, hhighest⟩ := h.of_head hsome hheader
        rw [hexact, tonumber_decimal hfits.number] at hlt
        exact (hhighest number other hother).trans hlt.le
  | false =>
    obtain ⟨canonicalHead, header, hsome, hheader, hlt⟩ :=
      promotesHead_eq_false hchecked.promotes
    cases hsome.symm.trans hcanonical
    obtain ⟨hexact, hmapped, hhighest⟩ := h.of_head hsome hheader
    rw [hexact, tonumber_decimal hfits.number] at hlt
    refine ⟨header, storeHeader_of_some hheader _, ?_, fun number other hother => ?_⟩
    · exact update_some_eq_some.mpr (.inr ⟨decimal_injective.ne hlt.ne', hmapped⟩)
    rcases update_some_eq_some.mp hother with ⟨hkey, -⟩ | ⟨-, hother⟩
    · exact (decimal_injective hkey).trans_le hlt.le
    · exact hhighest number other hother

theorem Chained.writeHead (h : Chained chainId s) (hhead : fromBlock block = .ok head)
    (hfits : Fits chainId block) (habove : ∀ hash upper header, block.cursor.blockHash = some hash →
      s.canonicalHeight (decimal (block.cursor.blockNumber + 1)) = some upper →
      s.headers upper = some header → header.parentHash = hash)
    (hchecked : s.HeadChecked head promote) : Chained chainId (s.writeHead head promote) where
  stored := by
    intro hash header hheader
    obtain ⟨_, _, _, hparent, hzero, rfl⟩ := fromBlock_eq_ok hhead
    rw [writeHead_eq] at hheader
    rcases storeHeader_headers hheader with hbefore | ⟨rfl, rfl⟩
    · exact h.stored hash header hbefore
    · exact ⟨rfl, hfits.valid hparent hzero⟩
  mapped := by
    intro key hash hkey
    obtain ⟨_, _, _, _, _, rfl⟩ := fromBlock_eq_ok hhead
    rw [writeHead_eq, installHead_eq] at hkey ⊢
    rcases update_some_eq_some.mp hkey with ⟨heq, rfl⟩ | ⟨-, hbefore⟩
    · exact ⟨_, storeHeader_self hchecked.identity, heq, hfits.number⟩
    obtain ⟨header, hheader, hfacts⟩ := h.mapped key hash hbefore
    exact ⟨header, storeHeader_of_some hheader _, hfacts⟩
  linked := fun _ _ _ _ hlower hupper hheader =>
    h.writeHead_linked hhead hfits habove hchecked hlower hupper hheader
  head := fun _ hcanonical => h.writeHead_head hhead hfits hchecked hcanonical
  started := by
    intro hnone
    obtain ⟨hash, hsome⟩ := writeHead_canonicalHead_isSome hchecked.promotes
    cases hsome.symm.trans hnone
  finalized := FinalizedStored.writeHead h.finalized head promote

/-- The finalized head moves to the head that has just been written. -/
theorem Chained.promoteFinalized (h : Chained chainId (s.writeHead head promote))
    (hchecked : s.HeadChecked head promote) :
    Chained chainId ((s.writeHead head promote).promoteFinalized head).1 := by
  rcases (s.writeHead head promote).promoteFinalized_eq head with heq | ⟨heq, -⟩
  · rwa [heq]
  rw [heq]
  refine ⟨h.stored, h.mapped, h.linked, h.head, fun hnone => ?_, fun hash hfinalized => ?_⟩
  · obtain ⟨hash, hsome⟩ := writeHead_canonicalHead_isSome hchecked.promotes
    cases hsome.symm.trans hnone
  cases hfinalized
  rw [writeHead_eq]
  exact ⟨head.headerJson, storeHeader_self hchecked.identity⟩

end Head

/-! ### Corrections -/

section Correction

variable {resolution : ForkResolution} {logs : List ContractLog} {core : Address}
  {c : ReorgCorrection} {plan : Plan} {ancestorHash : B256}

/-- A correction that is carried out, from the canonical block of the height of its ancestor. -/
structure Rooted (s : Store) (w : Worker) (resolution : ForkResolution) (logs : List ContractLog)
    (core : Address) (c : ReorgCorrection) (plan : Plan) (ancestorHash : B256) : Prop where
  corrected : Corrected w resolution logs core c
  planned : s.Planned w c plan
  checked : s.Checked plan
  distinct : (resolution.newBranch.map (·.cursor.blockHash)).Nodup
  ancestor : resolution.commonAncestor.cursor.blockHash = some ancestorHash
  mapped : s.canonicalHeight (decimal resolution.commonAncestor.cursor.blockNumber) =
    some (hashText ancestorHash)

variable (hrooted : s.Rooted w resolution logs core c plan ancestorHash)

include hrooted

variable {head : DurableHead}

theorem Rooted.exists_block (hhead : head ∈ plan.newHeads) :
    ∃ block ∈ resolution.newBranch, fromBlock block = .ok head :=
  hrooted.corrected.newHeads.exists_of_mem_right (hrooted.planned.newHeads ▸ hhead)

/-- The header of every block of the new branch is stored afterwards. -/
theorem Rooted.stored (hhead : head ∈ plan.newHeads) :
    (s.commit plan).1.headers head.blockHash = some head.headerJson := by
  refine commit_stored ?_ hrooted.checked hhead
  rw [hrooted.planned.newHeads]
  refine hrooted.corrected.newHeads.nodup_map (fun block head block' head' hhead hhead' heq => ?_)
    hrooted.distinct
  obtain ⟨hash, _, hhash, -, -, rfl⟩ := fromBlock_eq_ok hhead
  obtain ⟨hash', _, hhash', -, -, rfl⟩ := fromBlock_eq_ok hhead'
  rw [hhash, hhash', hashText_injective heq]

/-- The old tip is mapped at its height. -/
theorem Rooted.oldTip_mapped :
    s.canonicalHeight (decimal resolution.oldTip.cursor.blockNumber) = some plan.oldTipHash := by
  obtain ⟨oldTip, holdTip, htext⟩ := hrooted.planned.oldTip
  rw [hrooted.corrected.oldTip] at holdTip
  rw [htext]
  rcases resolution.oldLinked.tip with ⟨heq, -⟩ | hmem
  · rw [heq] at holdTip ⊢
    cases hrooted.ancestor.symm.trans holdTip
    exact hrooted.mapped
  · obtain ⟨old, hold, hash, hhash, rfl⟩ := hrooted.corrected.oldBlocks.exists_of_mem_left hmem
    cases hhash.symm.trans holdTip
    exact hrooted.checked.oldBlocks _ (hrooted.planned.oldBlocks ▸ hold)

variable (h : Chained chainId s)

include h

/-- A mapped height after the correction: in the new branch, or at most the ancestor's. -/
theorem Chained.commit_cases
    (hnumber : (s.commit plan).1.canonicalHeight (decimal number) = some hash) :
    (∃ block ∈ resolution.newBranch, block.cursor.blockNumber = number ∧
        ∃ head ∈ plan.newHeads, fromBlock block = .ok head ∧ head.blockHash = hash) ∨
      number ≤ resolution.commonAncestor.cursor.blockNumber ∧
        s.canonicalHeight (decimal number) = some hash := by
  rcases commit_height hnumber with ⟨head, hhead, hkey, rfl⟩ | ⟨-, hold, hbefore⟩
  · obtain ⟨block, hblock, hfrom⟩ := hrooted.exists_block hhead
    refine .inl ⟨block, hblock, ?_, head, hhead, hfrom, rfl⟩
    obtain ⟨_, _, -, -, -, rfl⟩ := fromBlock_eq_ok hfrom
    exact decimal_injective hkey
  refine .inr ⟨?_, hbefore⟩
  -- it is at most the height of the old tip, and not in the old branch
  obtain ⟨header, hheader, hname, -⟩ := h.mapped _ _ hrooted.oldTip_mapped
  have hle := (h.of_head hrooted.checked.canonicalHead hheader).2.2 number hash hbefore
  rw [← decimal_injective hname] at hle
  by_contra hgt
  obtain ⟨block, hblock, hheight⟩ := resolution.oldLinked.exists_block (not_le.mp hgt) hle
  rw [hrooted.planned.oldBlocks] at hold
  exact hrooted.corrected.oldBlocks_numbers.mp hold block hblock (congrArg decimal hheight)

theorem Chained.commit_linked {lower upper : Text}
    (hlower : (s.commit plan).1.canonicalHeight (decimal number) = some lower)
    (hupper : (s.commit plan).1.canonicalHeight (decimal (number + 1)) = some upper)
    (hheader : (s.commit plan).1.headers upper = some header) :
    hashText header.parentHash = lower := by
  rcases h.commit_cases hrooted hupper with
    ⟨block, hblock, hat, head, hhead, hfrom, rfl⟩ | ⟨hle, hupper⟩
  · -- the upper block is new: its parent is the block below it in the branch
    rw [hrooted.stored hhead] at hheader
    cases hheader
    obtain ⟨_, parent, -, hparent, -, rfl⟩ := fromBlock_eq_ok hfrom
    rcases h.commit_cases hrooted hlower with
      ⟨block', hblock', hat', head', hhead', hfrom', rfl⟩ | ⟨hle, hlower⟩
    · have habove := resolution.newLinked.above hblock'
      rcases resolution.newLinked.parent hblock with ⟨hnext, -⟩ |
        ⟨below, hbelow, hnext, hlink⟩
      · omega
      obtain rfl := resolution.newLinked.chain.eq_of_height hblock' hbelow (by omega)
      obtain ⟨hash', _, hhash', -, -, rfl⟩ := fromBlock_eq_ok hfrom'
      exact congrArg hashText (Option.some.inj (hparent.symm.trans (hlink.trans hhash')))
    rcases resolution.newLinked.parent hblock with ⟨hnext, hlink⟩ |
      ⟨below, hbelow, hnext, -⟩
    · obtain rfl : resolution.commonAncestor.cursor.blockNumber = number := by omega
      rw [hrooted.mapped] at hlower
      rw [← Option.some.inj hlower]
      exact congrArg hashText (Option.some.inj (hparent.symm.trans (hlink.trans hrooted.ancestor)))
    · have habove := resolution.newLinked.above hbelow
      omega
  · rcases h.commit_cases hrooted hlower with ⟨block', hblock', hat', -⟩ | ⟨-, hlower⟩
    · have habove := resolution.newLinked.above hblock'
      omega
    obtain ⟨header', hheader', -, -⟩ := h.mapped _ _ hupper
    have hsame := commit_header_of_some hheader' plan
    cases hheader.symm.trans hsame
    exact h.linked number lower upper header hlower hupper hheader'

theorem Chained.commit_head :
    ∃ header, (s.commit plan).1.headers plan.newTipHash = some header ∧
      (s.commit plan).1.canonicalHeight (decimal header.blockNumber) = some plan.newTipHash ∧
      ∀ number other, (s.commit plan).1.canonicalHeight (decimal number) = some other →
        number ≤ header.blockNumber := by
  have hhighest : ∀ number other, (s.commit plan).1.canonicalHeight (decimal number) = some other →
      number ≤ resolution.newTip.cursor.blockNumber := by
    intro number other hother
    rcases h.commit_cases hrooted hother with ⟨block, hblock, rfl, -⟩ | ⟨hle, -⟩
    · exact resolution.newLinked.le_tip hblock
    rw [resolution.newLinked.tip_number]
    exact hle.trans (Nat.le_add_right _ _)
  obtain ⟨newTip, hnewTip, htext⟩ := hrooted.planned.newTip
  rw [hrooted.corrected.newTip] at hnewTip
  rcases resolution.newLinked.tip with ⟨htip, hempty⟩ | hmem
  · -- back to the ancestor, whose height neither branch has
    rw [htip] at hnewTip
    cases hrooted.ancestor.symm.trans hnewTip
    obtain ⟨header, hheader, hname, -⟩ := h.mapped _ _ hrooted.mapped
    rw [htip, decimal_injective hname] at hhighest
    rw [htext]
    refine ⟨header, commit_header_of_some hheader plan, ?_, hhighest⟩
    rw [← hname]
    refine commit_height_of_some ?_ ?_ hrooted.mapped
    · rw [hrooted.planned.newHeads, hrooted.corrected.newHeads_numbers, hempty]
      exact fun block hblock => nomatch hblock
    · rw [hrooted.planned.oldBlocks, hrooted.corrected.oldBlocks_numbers]
      exact fun block hblock => decimal_injective.ne (resolution.oldLinked.above hblock).ne'
  · obtain ⟨head, hhead, hfrom⟩ := hrooted.corrected.newHeads.exists_of_mem_left hmem
    have hheights : (plan.newHeads.map blockNumber).Nodup :=
      hrooted.planned.newHeads ▸ hrooted.corrected.heads_nodup
    rw [← hrooted.planned.newHeads] at hhead
    have hstored := hrooted.stored hhead
    have hheight := commit_mapped (s := s) hheights hhead
    obtain ⟨hash, _, hhash, -, -, rfl⟩ := fromBlock_eq_ok hfrom
    cases hhash.symm.trans hnewTip
    rw [htext]
    exact ⟨_, hstored, hheight, hhighest⟩

theorem Chained.commit (hfits : ∀ block ∈ resolution.newBranch, Fits chainId block) :
    Chained chainId (s.commit plan).1 where
  stored := by
    intro hash header hheader
    rcases commit_header hheader with hbefore | ⟨head, hhead, rfl, rfl⟩
    · exact h.stored hash header hbefore
    obtain ⟨block, hblock, hfrom⟩ := hrooted.exists_block hhead
    obtain ⟨_, _, -, hparent, hzero, rfl⟩ := fromBlock_eq_ok hfrom
    exact ⟨rfl, (hfits block hblock).valid hparent hzero⟩
  mapped := by
    intro key hash hkey
    rcases commit_height hkey with ⟨head, hhead, rfl, rfl⟩ | ⟨-, -, hbefore⟩
    · have hstored := hrooted.stored hhead
      obtain ⟨block, hblock, hfrom⟩ := hrooted.exists_block hhead
      obtain ⟨_, _, -, -, -, rfl⟩ := fromBlock_eq_ok hfrom
      exact ⟨_, hstored, rfl, (hfits block hblock).number⟩
    · obtain ⟨header, hheader, hfacts⟩ := h.mapped key hash hbefore
      exact ⟨header, commit_header_of_some hheader plan, hfacts⟩
  linked := fun _ _ _ _ => h.commit_linked hrooted
  head := by
    intro hash hcanonical
    obtain rfl : plan.newTipHash = hash := Option.some.inj hcanonical
    exact h.commit_head hrooted
  started := nofun
  finalized := FinalizedStored.commit h.finalized plan

end Correction

/-! ### Runs -/

theorem Chained.perform (h : Chained chainId s) {call : Call}
    (horderly : Orderly w chainId s call) : Chained chainId (s.perform w call) := by
  by_cases hrefused : s.perform w call = s
  · rwa [hrefused]
  replace horderly := horderly hrefused
  rcases (s.perform_cases w call).resolve_left hrefused with
    ⟨block, head, promote, rfl, hhead, hcheck, hwrite, -⟩ |
    ⟨log, event, rfl, -, -, -, -, -, _, _, hwrite⟩ |
    ⟨resolution, _, logs, _, _, _, c, plan, rfl, hc, hplanned, hchecked, -, hwrite⟩
  · have hchecked := checkHead_eq_ok hcheck
    rw [hwrite]
    exact (h.writeHead hhead horderly.1 horderly.2 hchecked).promoteFinalized hchecked
  · rw [hwrite]
    exact ⟨h.stored, h.mapped, h.linked, h.head, h.started, h.finalized⟩
  · obtain ⟨hfits, hnodup, ancestorHash, hancestor, hmapped⟩ := horderly
    rw [hwrite]
    exact h.commit ⟨ReorgCorrection.new_eq_ok hc, hplanned, hchecked, hnodup, hancestor, hmapped⟩
      hfits

theorem chained_of_run (hrun : Run (Store.perform w) (Orderly w chainId)
    (Store.initial w.fingerprint) s) : Chained chainId s :=
  hrun.invariant (.initial chainId w.fingerprint) fun _ _ h horderly => h.perform horderly

/-- The headers of before stay. -/
theorem perform_headers (h : s.headers hash = some header) (call : Call) :
    (s.perform w call).headers hash = some header := by
  rcases s.perform_cases w call with hsame | ⟨block, head, promote, -, -, -, -, _, hwrite⟩ |
    ⟨log, event, -, -, -, -, -, -, _, _, hwrite⟩ |
    ⟨_, _, _, _, _, _, c, plan, -, -, -, -, -, hwrite⟩
  · rwa [hsame]
  · rw [hwrite, writeHead_eq]
    exact storeHeader_of_some h head
  · rw [hwrite]
    exact h
  · rw [hwrite]
    exact commit_header_of_some h plan

/-- The height of the finalized head never falls. -/
theorem perform_finalizedHead (hfinalized : s.finalizedHead = some hash)
    (hheader : s.headers hash = some header) (call : Call) :
    ∃ hash' header', (s.perform w call).finalizedHead = some hash' ∧
      (s.perform w call).headers hash' = some header' ∧
      header.blockNumber ≤ header'.blockNumber := by
  have hkept := perform_headers (w := w) hheader call
  rcases s.perform_cases w call with hsame | ⟨block, head, promote, rfl, hhead, hcheck, hwrite, -⟩ |
    ⟨log, event, -, -, -, -, -, -, _, _, hwrite⟩ |
    ⟨_, _, _, _, _, _, c, plan, -, -, -, -, -, hwrite⟩
  · refine ⟨hash, header, ?_, hkept, le_rfl⟩
    rw [hsame]
    exact hfinalized
  · rcases (s.writeHead head promote).promoteFinalized_eq head with heq | ⟨heq, hmoves⟩
    · refine ⟨hash, header, ?_, hkept, le_rfl⟩
      rw [hwrite, heq, writeHead_eq, installHead_eq]
      exact hfinalized
    rw [writeHead_eq, installHead_eq] at hmoves
    rcases hmoves with hnone | ⟨hash', header', hsame, hheader', hlt⟩
    · cases hfinalized.symm.trans hnone
    cases hfinalized.symm.trans hsame
    cases (storeHeader_of_some hheader head).symm.trans hheader'
    rw [hwrite, heq, writeHead_eq]
    refine ⟨head.blockHash, head.headerJson, rfl, ?_, ?_⟩
    · exact storeHeader_self (checkHead_eq_ok hcheck).identity
    obtain ⟨_, _, -, -, -, rfl⟩ := fromBlock_eq_ok hhead
    rw [decimal, Lua.tonumber_toDigits] at hlt
    exact (Lua.lt_of_toDouble_lt hlt).le
  · refine ⟨hash, header, ?_, hkept, le_rfl⟩
    rw [hwrite]
    exact hfinalized
  · refine ⟨hash, header, ?_, hkept, le_rfl⟩
    rw [hwrite, (s.commit_fixed plan).2]
    exact hfinalized

end Store

end Lunarbase.EventWorker
