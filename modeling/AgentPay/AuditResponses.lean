import AgentPay.ClaimHeader
import AgentPay.EvidenceRuns
import AgentPay.MerkleProofs

/-!
# What an auditor is told

`session_evidence` and `evidence_proof` of `routes.rs`, and the verdict of the verifier
page on a proof. The handlers look an entry up by its number, rebuild the tree and check
their own proof before they send it; the page recomputes the root from the rendered proof
and compares it with the gateway's and with the chain's. On a store that some run of calls
leads to, the lookup finds exactly the recorded numbers and the checks never fail.

The texts of a decision are the bytes that were hashed. The database answers.
-/
namespace AgentPay.AuditResponses
open SolanaRuntime EscrowState EvidenceLog EvidenceBinding SessionStore StoreRuns EvidenceRuns
open MerkleProofs ClaimHeader Fallible
open PolicyRules (Text)
open DecimalStrings (natToString)

inductive EvidenceDenial where
  | malformedRequest
  | evidenceUnavailable
  | evidenceNotFound
  | panicked
deriving DecidableEq

/-- One entry as it is listed: hashes in hexadecimal, amounts as decimal texts. -/
structure EvidenceEntryView where
  sequenceId : Int64
  decision : List UInt8
  cumulativeAmount : Text
  nonce : Text
  prevHash : Text
  entryHash : Text
deriving DecidableEq

def entryView (e : EvidenceEntry) : EvidenceEntryView where
  sequenceId := e.sequenceId
  decision := e.decision
  cumulativeAmount := natToString e.cumulativeAmount.toNat
  nonce := natToString e.nonce.toNat
  prevHash := hex32 e.prevHash
  entryHash := hex32 e.entryHash

structure SessionEvidenceResponse where
  session : Text
  merkleRoot : Text
  entryCount : ℕ
  chainValid : Bool
  chainError : Option ChainError
  entries : List EvidenceEntryView
deriving DecidableEq

structure EvidenceProofRequest where
  session : Text
  sequenceId : Int64

structure EvidenceProofResponse where
  session : Text
  sequenceId : Int64
  decision : List UInt8
  cumulativeAmount : Text
  nonce : Text
  leafHash : Text
  merkleRoot : Text
  leafIndex : ℕ
  totalLeaves : ℕ
  proof : List NodeView
  verifiedLocally : Bool
deriving DecidableEq

section Handlers
variable (sha256 : List UInt8 → Hash) (p : Parsers) (store : Option Database)

def leavesOf (entries : List EvidenceEntry) : List Hash := entries.map EvidenceEntry.entryHash

def loadChain (session : Text) : Except EvidenceDenial (Pubkey × List EvidenceEntry) := do
  let key ← okOr (p.parsePubkey session) .malformedRequest
  let db ← okOr store .evidenceUnavailable
  let entries ← (loadEvidenceChain db key).mapError fun _ => .evidenceUnavailable
  pure (key, entries)

/-- `session_evidence`: the rows are loaded once, and the check of the chain, the root and the
list are all made from them. -/
def sessionEvidence (session : Text) : Except EvidenceDenial SessionEvidenceResponse := do
  let (key, entries) ← loadChain p store session
  let chainError := error? (verifyChain sha256 key entries)
  pure
    { session := Base58.encode key.toList
      merkleRoot := hex32 (MerkleTree.new sha256 (leavesOf entries)).root
      entryCount := entries.length
      chainValid := chainError.isNone
      chainError := chainError
      entries := entries.map entryView }

/-- `evidence_proof`. The proof is checked before it is sent, so one that does not verify is a
failure of the gateway and not an answer. -/
def evidenceProof (req : EvidenceProofRequest) : Except EvidenceDenial EvidenceProofResponse := do
  let (key, entries) ← loadChain p store req.session
  let leafIndex ← okOr (entries.findIdx? fun e => e.sequenceId = req.sequenceId) .evidenceNotFound
  let entry ← okOr entries[leafIndex]? .panicked
  let tree := MerkleTree.new sha256 (leavesOf entries)
  let found ← (proof tree leafIndex).mapError fun _ => .panicked
  let path ← okOr found .evidenceNotFound
  let verifiedLocally := verifyProof sha256 entry.entryHash path tree.root
  require (verifiedLocally = true) .evidenceUnavailable
  pure
    { session := Base58.encode key.toList
      sequenceId := entry.sequenceId
      decision := entry.decision
      cumulativeAmount := natToString entry.cumulativeAmount.toNat
      nonce := natToString entry.nonce.toNat
      leafHash := hex32 entry.entryHash
      merkleRoot := hex32 tree.root
      leafIndex := leafIndex
      totalLeaves := leafCount tree
      proof := path.map nodeView
      verifiedLocally := verifiedLocally }

/-! ### The verifier page -/

/-- The settlement as the page holds it; `none` while the chain has not been read. -/
structure OnChain where
  settled : Bool
  merkleRoot : Option Text

structure Verdict where
  valid : Bool
  anchored : Bool
  chainDisagrees : Bool
deriving DecidableEq

def chainRoot (onChain : Option OnChain) : Option Text :=
  onChain.bind fun c => if c.settled then c.merkleRoot else none

def verdict (res : EvidenceProofResponse) (onChain : Option OnChain) : Verdict :=
  let recomputed := (recomputeRoot sha256 ⟨res.leafHash, res.proof⟩).2
  let valid := decide (recomputed = res.merkleRoot)
  match chainRoot onChain with
  | none => ⟨valid, false, false⟩
  | some root => ⟨valid, valid && decide (root = recomputed), valid && decide (root ≠ recomputed)⟩

end Handlers

/-! ### What is answered -/

structure Proves (sha256 : List UInt8 → Hash) (root : Hash) (i n : ℕ) (e : EvidenceEntry)
    (res : EvidenceProofResponse) : Prop where
  number : res.sequenceId = Int64.ofNat i
  index : res.leafIndex = i ∧ res.totalLeaves = n
  content : res.decision = e.decision ∧
    res.cumulativeAmount = natToString e.cumulativeAmount.toNat ∧
    res.nonce = natToString e.nonce.toNat
  leaf : res.leafHash = hex32 e.entryHash
  root : res.merkleRoot = hex32 root
  verified : res.verifiedLocally = true
  recomputed : (recomputeRoot sha256 ⟨res.leafHash, res.proof⟩).2 = res.merkleRoot

/-- What both endpoints answer for a session, whoever asks. -/
structure Audited (sha256 : List UInt8 → Hash) (p : Parsers) (db : Database) (session : Pubkey)
    (entries : List EvidenceEntry) : Prop where
  listed : sessionEvidence sha256 p (some db) (Base58.encode session.toList) = .ok
    { session := Base58.encode session.toList
      merkleRoot := hex32 (merkleRoot sha256 (loadEvidenceLeaves db session))
      entryCount := entries.length
      chainValid := true
      chainError := none
      entries := entries.map entryView }
  proved : ∀ (i : ℕ) (h : i < entries.length), ∃ res,
    evidenceProof sha256 p (some db) ⟨Base58.encode session.toList, Int64.ofNat i⟩ = .ok res ∧
      Proves sha256 (merkleRoot sha256 (loadEvidenceLeaves db session)) i entries.length entries[i]
        res
  absent : ∀ q, (∀ i < entries.length, Int64.ofNat i ≠ q) →
    evidenceProof sha256 p (some db) ⟨Base58.encode session.toList, q⟩ = .error .evidenceNotFound

section Answers
variable {sha256 : List UInt8 → Hash} {p : Parsers} {db : Database} {session : Pubkey}
variable {entries : List EvidenceEntry}

theorem leavesOf_entry (db : Database) (session : Pubkey) :
    leavesOf ((db.evidence session).map EvidenceRow.entry) = loadEvidenceLeaves db session := by
  rw [leavesOf, List.map_map]
  rfl

theorem loadChain_eq (hp : p.Standard) (hi : Intact sha256 db) :
    loadChain p (some db) (Base58.encode session.toList) =
      .ok (session, (db.evidence session).map EvidenceRow.entry) := by
  have hparsed : okOr (p.parsePubkey (Base58.encode session.toList))
      EvidenceDenial.malformedRequest = .ok session := okOr_eq_ok.mpr (hp.pubkey session)
  have hread : (loadEvidenceChain db session).mapError (fun _ => EvidenceDenial.evidenceUnavailable)
      = .ok ((db.evidence session).map EvidenceRow.entry) := by
    rw [loadEvidenceChain_eq (hi session)]
    rfl
  rw [loadChain, hparsed, ok_bind]
  simp only [okOr, ok_bind]
  rw [hread]
  rfl

/-- The entries are numbered by their places. -/
def Numbered (entries : List EvidenceEntry) : Prop :=
  ∀ (i : ℕ) (h : i < entries.length), entries[i].sequenceId.toInt = i

theorem numbered_entries (hi : Intact sha256 db) :
    Numbered ((db.evidence session).map EvidenceRow.entry) := by
  intro i h
  have hlog : i < (db.evidence session).length := by simpa using h
  rw [List.getElem_map]
  exact (hi session).linked.numbered i hlog

theorem Numbered.sequenceId (hn : Numbered entries) {i : ℕ} (h : i < entries.length) :
    entries[i].sequenceId = Int64.ofNat i := by
  have hlt := (entries[i]).sequenceId.toInt_lt
  rw [hn i h] at hlt
  rw [← Int64.toInt_inj, hn i h, Int64.toInt_ofNat_of_lt (by omega)]

theorem findIdx_number (hn : Numbered entries) {i : ℕ} (h : i < entries.length) :
    (entries.findIdx? fun e => e.sequenceId = Int64.ofNat i) = some i := by
  rw [List.findIdx?_eq_some_iff_getElem]
  refine ⟨h, by simp [hn.sequenceId h], ?_⟩
  intro j hj
  have hne : entries[j].sequenceId ≠ entries[i].sequenceId := by
    intro he
    have hto := congrArg Int64.toInt he
    rw [hn, hn] at hto
    omega
  rw [hn.sequenceId h] at hne
  simpa using hne

theorem findIdx_absent (hn : Numbered entries) {q : Int64}
    (h : ∀ i < entries.length, Int64.ofNat i ≠ q) :
    (entries.findIdx? fun e => e.sequenceId = q) = none := by
  rw [List.findIdx?_eq_none_iff]
  intro e he
  obtain ⟨i, hi, rfl⟩ := List.getElem_of_mem he
  rw [hn.sequenceId hi]
  simpa using h i hi

theorem sessionEvidence_eq (hp : p.Standard) (hi : Intact sha256 db) :
    sessionEvidence sha256 p (some db) (Base58.encode session.toList) = .ok
      { session := Base58.encode session.toList
        merkleRoot := hex32 (merkleRoot sha256 (loadEvidenceLeaves db session))
        entryCount := ((db.evidence session).map EvidenceRow.entry).length
        chainValid := true
        chainError := none
        entries := ((db.evidence session).map EvidenceRow.entry).map entryView } := by
  rw [sessionEvidence, loadChain_eq hp hi, ok_bind]
  simp only [leavesOf_entry, (hi session).linked.chain]
  rfl

/-- The handler's own check of a proof does not fail. -/
theorem evidenceProof_eq (hp : p.Standard) (hi : Intact sha256 db) {i : ℕ}
    (h : i < ((db.evidence session).map EvidenceRow.entry).length) : ∃ res,
    evidenceProof sha256 p (some db) ⟨Base58.encode session.toList, Int64.ofNat i⟩ = .ok res ∧
      Proves sha256 (merkleRoot sha256 (loadEvidenceLeaves db session)) i
        ((db.evidence session).map EvidenceRow.entry).length
        ((db.evidence session).map EvidenceRow.entry)[i] res := by
  have hn : Numbered ((db.evidence session).map EvidenceRow.entry) := numbered_entries hi
  have hleaf : i < (leavesOf ((db.evidence session).map EvidenceRow.entry)).length := by
    rwa [leavesOf, List.length_map]
  obtain ⟨path, hpath, -, hroot⟩ := @proof_new sha256 _ i hleaf
  have hget : (leavesOf ((db.evidence session).map EvidenceRow.entry))[i] =
      (((db.evidence session).map EvidenceRow.entry)[i]).entryHash := List.getElem_map _
  rw [hget] at hroot
  have hverify : verifyProof sha256
      (((db.evidence session).map EvidenceRow.entry)[i]).entryHash path
      (MerkleTree.new sha256 (leavesOf ((db.evidence session).map EvidenceRow.entry))).root =
        true := decide_eq_true hroot
  rw [evidenceProof, loadChain_eq hp hi, ok_bind]
  simp only [findIdx_number hn h, okOr, ok_bind, List.getElem?_eq_getElem h, hpath,
    Except.mapError, hverify, require, ↓reduceIte]
  refine ⟨_, rfl, ?_⟩
  constructor
  case number => exact hn.sequenceId h
  case index => exact ⟨rfl, by rw [leafCount_new, leavesOf, List.length_map]⟩
  case content => exact ⟨rfl, rfl, rfl⟩
  case leaf => rfl
  case root => simp only [leavesOf_entry, merkleRoot]
  case verified => rfl
  case recomputed =>
    simp only
    rw [← hroot]
    exact recomputeFrom_nodeView 0 _ path

theorem evidenceProof_absent (hp : p.Standard) (hi : Intact sha256 db) {q : Int64}
    (h : ∀ i < ((db.evidence session).map EvidenceRow.entry).length, Int64.ofNat i ≠ q) :
    evidenceProof sha256 p (some db) ⟨Base58.encode session.toList, q⟩ =
      .error .evidenceNotFound := by
  rw [evidenceProof, loadChain_eq hp hi, ok_bind]
  simp only [findIdx_absent (numbered_entries hi) h, okOr, error_bind]

end Answers

/-- For every session of every reachable store the endpoints answer: the log is reported
valid, each recorded number with a proof that the browser confirms, any other with 404. -/
theorem evidence_is_audited {sha256 : List UInt8 → Hash} {p : Parsers} {db : Database}
    (hp : p.Standard) (hr : Reached sha256 db) (session : Pubkey) :
    Audited sha256 p db session ((db.evidence session).map EvidenceRow.entry) :=
  ⟨sessionEvidence_eq hp hr.intact, fun _ h => evidenceProof_eq hp hr.intact h,
    fun _ h => evidenceProof_absent hp hr.intact h⟩

/-- The third of the recorded decisions, and a number nothing has. -/
theorem evidence_is_audited_till :
    (∃ res, evidenceProof Ledger.sha256 PlainParsers.parsers
        (some (Till.play Ledger.sha256 Till.calls).2)
        ⟨Base58.encode Ledger.session.toList, 2⟩ = .ok res ∧ res.verifiedLocally = true) ∧
      evidenceProof Ledger.sha256 PlainParsers.parsers
        (some (Till.play Ledger.sha256 Till.calls).2)
        ⟨Base58.encode Ledger.session.toList, 3⟩ = .error .evidenceNotFound := by
  have hr : Reached Ledger.sha256 (Till.play Ledger.sha256 Till.calls).2 :=
    ⟨Database.empty, _, rfl, Till.play_run Ledger.sha256 Till.calls⟩
  have hlen : (((Till.play Ledger.sha256 Till.calls).2.evidence Ledger.session).map
      EvidenceRow.entry).length = 3 := by decide +kernel
  have haudit := evidence_is_audited PlainParsers.standard hr Ledger.session
  obtain ⟨res, hres, hproves⟩ := haudit.proved 2 (by omega)
  refine ⟨⟨res, hres, hproves.verified⟩, haudit.absent 3 ?_⟩
  rw [hlen]
  decide

end AgentPay.AuditResponses
