import Lunarbase.Client.Fingerprint
import Lunarbase.Client.Reference
import Lunarbase.EventWorker.Event

/-!
# EventWorker — Identity

What the identifiers of the durable records tell.  An identifier is the text of a digest; as long
as the hash function does not collide on the hashed messages, two identifiers are equal only for
the same inputs.  Messages of different kinds differ in their domain, or in the letter behind the
first identifier.
-/

namespace Lunarbase.EventWorker

open Client (ChainCorrection ChainCursor BlockRef ContractLog Platform referencePlatform u64Max
  u32Max)
open Client.ChainCorrection List

theorem reads_encodeId :
    Reads (fun digest => asBytes (encodeId digest)) (fun _ => True) (fun digest => digest) := by
  have hlength : ∀ digest, (asBytes (encodeId digest)).length = 69 := fun digest => by
    simp [asBytes, encodeId, hashText, hexText]
  have hdigit : ∀ d < 16, ∀ e < 16, UInt8.ofNat (Nat.digitChar d).toNat =
      UInt8.ofNat (Nat.digitChar e).toNat → d = e := by decide
  refine .of_length hlength fun a b _ _ h => BitVec.eq_of_toNat_eq ?_
  simp only [asBytes, encodeId, hashText, hexText, map_cons, map_map, List.cons.injEq,
    true_and] at h
  exact Digits.map_padDigits_inj (by decide) hdigit (a.isLt.trans_eq (by decide))
    (b.isLt.trans_eq (by decide)) h

theorem encodeId_injective : Function.Injective encodeId := fun _ _ h =>
  reads_encodeId.read_eq trivial trivial (congrArg asBytes h)

/-! ### Corrections -/

abbrev hashedBlock (b : BlockRef) :=
  (b.cursor.chainId, b.cursor.blockNumber, b.cursor.executionBlockNumber, b.cursor.blockHash,
    b.parentHash)

abbrev hashedLog (l : ContractLog) :=
  (l.address, l.cursor.chainId, l.cursor.blockNumber, l.cursor.executionBlockNumber,
    l.cursor.blockHash, l.transactionHash, l.cursor.transactionIndex, l.cursor.logIndex, l.topics,
    l.data)

/-- The resolution and its logs as a correction of the client. -/
def ForkResolution.correction (resolution : ForkResolution) (logs : List ContractLog) :
    ChainCorrection :=
  ⟨resolution.commonAncestor, resolution.oldTip, resolution.newTip, resolution.oldBranch,
    resolution.newBranch, logs, 0⟩

/-- What the identifier of a correction hashes. -/
abbrev hashedReorg (core : Address) (c : ChainCorrection) :=
  (core, hashedBlock c.commonAncestor, hashedBlock c.oldTip, hashedBlock c.newTip,
    c.oldBranch.map hashedBlock, c.newBranch.map hashedBlock, c.replacementLogs.map hashedLog)

def reorgBytes (core : Address) (c : ChainCorrection) : List UInt8 :=
  asBytes reorgIdDomain ++ beBytes 20 core.toNat ++ hashBlock c.commonAncestor ++
    hashBlock c.oldTip ++ hashBlock c.newTip ++ hashBlocks c.oldBranch ++ hashBlocks c.newBranch ++
    beBytes 8 c.replacementLogs.length ++ c.replacementLogs.flatMap hashLog

theorem reads_hashBlock : Reads hashBlock (·.cursor.Fits) hashedBlock :=
  ((reads_u64.field _ fun _ h => h.chainId).append <|
    (reads_u64.field _ fun _ h => h.blockNumber).append <|
    (reads_u64.field _ fun _ h => h.executionBlockNumber).append <|
    (reads_hashOptionalHash.field _ fun _ _ => trivial).append <|
    reads_hashOptionalHash.field _ fun _ _ => trivial).congr fun b => by
      simp only [hashBlock, append_assoc]

theorem reads_hashLog : Reads hashLog ContractLog.Fits hashedLog :=
  ((reads_address.field _ fun _ _ => trivial).append <|
    (reads_u64.field _ fun _ h => h.cursor.chainId).append <|
    (reads_u64.field _ fun _ h => h.cursor.blockNumber).append <|
    (reads_u64.field _ fun _ h => h.cursor.executionBlockNumber).append <|
    (reads_hashOptionalHash.field _ fun _ _ => trivial).append <|
    (reads_hashOptionalHash.field _ fun _ _ => trivial).append <|
    (reads_hashOptionalU32.field _ fun _ h => h.cursor.transactionIndex).append <|
    (reads_hashOptionalU32.field _ fun _ h => h.cursor.logIndex).append <|
    (reads_topics.field _ fun _ h => h.topics).append <|
    reads_data.field _ fun _ h => h.data).congr fun l => by
      simp only [hashLog, append_assoc]

theorem hashed_of_reorgBytes {core core' : Address} {c c' : ChainCorrection} (hc : c.Fits)
    (hc' : c'.Fits) (h : reorgBytes core c = reorgBytes core' c') :
    hashedReorg core c = hashedReorg core' c' := by
  simp only [reorgBytes, hashBlocks, append_assoc] at h
  obtain ⟨hcore, h⟩ := reads_address trivial trivial (append_cancel_left h)
  refine congrArg₂ Prod.mk hcore ((reads_fields reads_hashBlock reads_hashLog).read_eq hc hc' ?_)
  simpa only [append_assoc] using h

/-- **Identities of corrections are injective.**  As long as the hash function does not collide on
the hashed messages, corrections with one fingerprint agree in every hashed field, and so do
corrections of the worker with one identifier. -/
theorem correction_identities_injective (env : Platform) {messages : Set (List UInt8)}
    (hfree : messages.InjOn env.keccak256) :
    (∀ c c' : ChainCorrection, c.Fits → c'.Fits → c.fingerprintBytes ∈ messages →
        c'.fingerprintBytes ∈ messages → c.fingerprint env = c'.fingerprint env →
        c.hashed = c'.hashed) ∧
      ∀ (r r' : ForkResolution) logs logs' core core', (r.correction logs).Fits →
        (r'.correction logs').Fits → reorgBytes core (r.correction logs) ∈ messages →
        reorgBytes core' (r'.correction logs') ∈ messages →
        reorgId env.keccak256 r logs core = reorgId env.keccak256 r' logs' core' →
        hashedReorg core (r.correction logs) = hashedReorg core' (r'.correction logs') := by
  constructor
  · intro c c' hc hc' hin hin' hsame
    exact hashed_of_fingerprintBytes hc hc' (hfree hin hin' hsame)
  · intro r r' logs logs' core core' hr hr' hin hin' hsame
    exact hashed_of_reorgBytes hr hr' (hfree hin hin' (encodeId_injective hsame))

/-- The tip of a chain at block four gets a child, block five. -/
def grownBlock (number : Nat) (commitment : Client.Commitment) : BlockRef :=
  ⟨⟨1, number, number, some (0xb0 + BitVec.ofNat 256 number), none, none, none, none, commitment⟩,
    some (0xaf + BitVec.ofNat 256 number)⟩

def grown (commitment : Client.Commitment) : ChainCorrection :=
  ⟨grownBlock 4 .canonical, grownBlock 4 .canonical, grownBlock 5 commitment, [],
    [grownBlock 5 commitment], [], 0⟩

/-- A log of block five. -/
def grownLog (commitment : Client.Commitment) : ContractLog :=
  ⟨0xc0, some 9, [1], [], false, { (grownBlock 5 commitment).cursor with
    transactionIndex := some 0, logIndex := some 0 }⟩

def grownFork : ForkResolution :=
  ⟨grownBlock 4 .canonical, grownBlock 4 .canonical, grownBlock 5 .canonical, [],
    [grownBlock 5 .canonical], rfl, ⟨rfl, rfl, rfl⟩⟩

theorem fits_grown (commitment : Client.Commitment) {logs : List ContractLog}
    (hlogs : ∀ log ∈ logs, log = grownLog .canonical) (hlength : logs.length ≤ 1) :
    ChainCorrection.Fits { grown commitment with replacementLogs := logs } := by
  have hle : ∀ {n}, n.ble u64Max = true → n ≤ u64Max := Nat.le_of_ble_eq_true
  refine ⟨fun block hblock => ?_, fun log hlog => ?_, hle rfl, hle rfl, hlength.trans (hle rfl)⟩
  · have hnumber : block = grownBlock 4 .canonical ∨ block = grownBlock 5 commitment := by
      simpa [grown, blocks] using hblock
    rcases hnumber with rfl | rfl <;>
      exact ⟨hle rfl, hle rfl, hle rfl, by simp [grownBlock], by simp [grownBlock]⟩
  · rw [hlogs log hlog]
    exact ⟨⟨hle rfl, hle rfl, hle rfl, by simp [grownLog], by simp [grownLog]⟩, hle rfl, hle rfl⟩

/-- The commitment of the tip is not hashed, a replacement log is. -/
theorem correction_identities_injective_promoted :
    (grown .realtime).hashed = (grown .canonical).hashed ∧
      reorgId Keccak.keccak256 grownFork [] 0xc0 ≠
        reorgId Keccak.keccak256 grownFork [grownLog .canonical] 0xc0 := by
  have hfingerprint := (correction_identities_injective referencePlatform
    (Set.injOn_singleton _ (grown .realtime).fingerprintBytes)).1
  have hreorg := (correction_identities_injective referencePlatform (Set.injOn_pair.mpr
    fun hcollision : Keccak.keccak256 (reorgBytes 0xc0 (grownFork.correction [])) =
      Keccak.keccak256 (reorgBytes 0xc0 (grownFork.correction [grownLog .canonical])) =>
    absurd hcollision (by decide +kernel))).2
  refine ⟨hfingerprint _ _ (fits_grown _ (by simp) (by simp)) (fits_grown _ (by simp) (by simp))
    rfl rfl rfl, fun hsame => ?_⟩
  have hhashed := hreorg grownFork grownFork [] [grownLog .canonical] 0xc0 0xc0
    (fits_grown .canonical (by simp) (by simp)) (fits_grown .canonical (by simp) (by simp))
    (.inl rfl) (.inr rfl) hsame
  simp [ForkResolution.correction] at hhashed

/-- The records of a replacement log expose its commitment, which the identifier does not hash. -/
theorem reorg_id_ignores_commitment :
    ∃ a b : (List UInt8 → B256) → ReorgCorrection, ∀ keccak256,
      ReorgCorrection.new keccak256 grownFork (grownBlock 4 .canonical) [grownLog .canonical]
        0xc0 = .ok (a keccak256) ∧
      ReorgCorrection.new keccak256 grownFork (grownBlock 4 .canonical) [grownLog .finalized]
        0xc0 = .ok (b keccak256) ∧
      (a keccak256).reorgId = (b keccak256).reorgId ∧
      (a keccak256).newEvents.map (·.fields.lookup "commitment") ≠
        (b keccak256).newEvents.map (·.fields.lookup "commitment") := by
  refine ⟨_, _, fun keccak256 => ⟨rfl, rfl, rfl, ?_⟩⟩
  change [some "block-ordered".toList] ≠ [some "finalized".toList]
  decide

/-! ### Records -/

/-- What an identifier of a log or a record names; the identifiers it contains stand as their
digests. -/
inductive Named where
  | logicalLog (log : ContractLog) (identity : StableLogIdentity)
  | origin (logical : B256) (log : ContractLog)
  | lifecycle (logical reorg : B256) (operation : Text)
  | control (reorg : B256) (operation : Text)

/-- The message of a record: the identifier it is about, and the rest. -/
def recordBytes (subject : B256) (rest : List UInt8) : List UInt8 :=
  asBytes recordIdDomain ++ (asBytes (encodeId subject) ++ rest)

namespace Named

def id (keccak256 : List UInt8 → B256) : Named → Text
  | .logicalLog log identity => logicalLogId keccak256 log identity
  | .origin logical log => originRecordId keccak256 (encodeId logical) log
  | .lifecycle logical reorg operation =>
    lifecycleRecordId keccak256 (encodeId logical) (encodeId reorg) operation
  | .control reorg operation => controlRecordId keccak256 (encodeId reorg) operation

def bytes : Named → List UInt8
  | .logicalLog log identity =>
    asBytes logIdDomain ++ (beBytes 8 log.cursor.chainId ++ (beBytes 20 log.address.toNat ++
      (beBytes 32 identity.blockHash.toNat ++ (beBytes 32 identity.transactionHash.toNat ++
        (beBytes 4 identity.transactionIndex ++ beBytes 4 identity.logIndex)))))
  | .origin logical log =>
    recordBytes logical (asBytes "origin".toList ++ (beBytes 8 log.cursor.executionBlockNumber ++
      ((beBytes 8 log.topics.length ++ log.topics.flatMap fun topic => beBytes 32 topic.toNat) ++
        (beBytes 8 log.data.length ++ log.data))))
  | .lifecycle logical reorg operation =>
    recordBytes logical (asBytes (encodeId reorg) ++ asBytes operation)
  | .control reorg operation => recordBytes reorg (asBytes operation)

/-- The numbers are in range and the operation is one of the source's. -/
def Fits : Named → Prop
  | .logicalLog log identity => log.cursor.chainId ≤ u64Max ∧
    identity.transactionIndex ≤ u32Max ∧ identity.logIndex ≤ u32Max
  | .origin _ log => log.cursor.executionBlockNumber ≤ u64Max ∧ log.topics.length ≤ u64Max ∧
    log.data.length ≤ u64Max
  | .lifecycle _ _ operation => operation = "applied".toList ∨ operation = "reverted".toList
  | .control _ operation => operation = "begin".toList ∨ operation = "commit".toList

/-- The two are of one kind and agree in what is named. -/
def Same : Named → Named → Prop
  | .logicalLog l i, .logicalLog l' i' =>
    l.cursor.chainId = l'.cursor.chainId ∧ l.address = l'.address ∧ i = i'
  | .origin d l, .origin d' l' =>
    d = d' ∧ l.cursor.executionBlockNumber = l'.cursor.executionBlockNumber ∧
      l.topics = l'.topics ∧ l.data = l'.data
  | .lifecycle d r o, .lifecycle d' r' o' => d = d' ∧ r = r' ∧ o = o'
  | .control r o, .control r' o' => r = r' ∧ o = o'
  | _, _ => False

theorem id_eq (keccak256 : List UInt8 → B256) (n : Named) :
    n.id keccak256 = encodeId (keccak256 n.bytes) := by
  cases n <;> simp only [id, bytes, recordBytes, logicalLogId, originRecordId, lifecycleRecordId,
    controlRecordId, append_assoc]

end Named

variable {rest rest' : List UInt8}

theorem recordBytes_inj {d d' : B256}
    (h : recordBytes d rest = recordBytes d' rest') : d = d' ∧ rest = rest' :=
  reads_encodeId trivial trivial (append_cancel_left h)

theorem logIdDomain_ne (rest rest' : List UInt8) :
    asBytes logIdDomain ++ rest ≠ asBytes recordIdDomain ++ rest' := fun h =>
  absurd (congrArg (·[18]?) h : some (108 : UInt8) = some 114) (by decide)

/-- Records of different kinds go on differently behind the subject. -/
theorem letter_ne {d d' : B256} {letter letter' : UInt8}
    (h : recordBytes d (letter :: rest) = recordBytes d' (letter' :: rest'))
    (hne : letter ≠ letter') : False :=
  hne (List.cons.inj (recordBytes_inj h).2).1

theorem Named.same_of_bytes {a b : Named} (ha : a.Fits) (hb : b.Fits) (h : a.bytes = b.bytes) :
    a.Same b := by
  cases a with
  | logicalLog log identity =>
    cases b with
    | logicalLog log' identity' =>
      obtain ⟨hchain, h⟩ := reads_u64 ha.1 hb.1 (append_cancel_left h)
      obtain ⟨haddress, h⟩ := reads_address trivial trivial h
      obtain ⟨hblock, h⟩ := reads_hash trivial trivial h
      obtain ⟨htransaction, h⟩ := reads_hash trivial trivial h
      obtain ⟨hindex, h⟩ := reads_u32 ha.2.1 hb.2.1 h
      have hlog := reads_u32.read_eq ha.2.2 hb.2.2 h
      obtain ⟨_, _, _, _⟩ := identity
      obtain ⟨_, _, _, _⟩ := identity'
      cases hblock; cases htransaction; cases hindex; cases hlog
      exact ⟨hchain, haddress, rfl⟩
    | origin _ _ | lifecycle _ _ _ | control _ _ => exact absurd h (logIdDomain_ne _ _)
  | origin d log =>
    cases b with
    | logicalLog _ _ => exact absurd h.symm (logIdDomain_ne _ _)
    | origin d' log' =>
      obtain ⟨hsubject, h⟩ := recordBytes_inj h
      obtain ⟨hexecution, h⟩ := reads_u64 ha.1 hb.1 (append_cancel_left h)
      obtain ⟨htopics, h⟩ := reads_topics ha.2.1 hb.2.1 h
      exact ⟨hsubject, hexecution, htopics, reads_data.read_eq ha.2.2 hb.2.2 h⟩
    | lifecycle _ _ _ => exact (letter_ne h (by decide)).elim
    | control _ _ => rcases hb with rfl | rfl <;> exact (letter_ne h (by decide)).elim
  | lifecycle d r operation =>
    cases b with
    | logicalLog _ _ => exact absurd h.symm (logIdDomain_ne _ _)
    | origin _ _ => exact (letter_ne h (by decide)).elim
    | lifecycle d' r' operation' =>
      obtain ⟨hlogical, h⟩ := recordBytes_inj h
      obtain ⟨hreorg, h⟩ := reads_encodeId trivial trivial h
      refine ⟨hlogical, hreorg, ?_⟩
      rcases ha with rfl | rfl <;> rcases hb with rfl | rfl <;> revert h <;> decide
    | control _ _ => rcases hb with rfl | rfl <;> exact (letter_ne h (by decide)).elim
  | control r operation =>
    cases b with
    | logicalLog _ _ => exact absurd h.symm (logIdDomain_ne _ _)
    | origin _ _ | lifecycle _ _ _ =>
      rcases ha with rfl | rfl <;> exact (letter_ne h (by decide)).elim
    | control r' operation' =>
      obtain ⟨hreorg, h⟩ := recordBytes_inj h
      refine ⟨hreorg, ?_⟩
      rcases ha with rfl | rfl <;> rcases hb with rfl | rfl <;> revert h <;> decide

/-- **Identifiers of records never collide.**  As long as the hash function does not collide on the
two messages, equal identifiers are of one kind and name the same log, payload, correction and
operation. -/
theorem record_ids_injective {keccak256 : List UInt8 → B256} {a b : Named} (ha : a.Fits)
    (hb : b.Fits) (hfree : keccak256 a.bytes = keccak256 b.bytes → a.bytes = b.bytes)
    (h : a.id keccak256 = b.id keccak256) : a.Same b := by
  rw [a.id_eq, b.id_eq] at h
  exact Named.same_of_bytes ha hb (hfree (encodeId_injective h))

theorem record_ids_injective_phases :
    (Named.control 7 "begin".toList).id Keccak.keccak256 ≠
      (Named.control 7 "commit".toList).id Keccak.keccak256 := by
  intro h
  have hsame := record_ids_injective (a := .control 7 _) (b := .control 7 _) (.inl rfl) (.inr rfl)
    (fun hcollision => absurd hcollision (by decide +kernel)) h
  exact absurd hsame.2 (by decide)

end Lunarbase.EventWorker
