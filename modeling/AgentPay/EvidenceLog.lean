import AgentPay.GatewayClaims

/-!
# Evidence entries and the Merkle tree over them

`compute_entry_hash`, `verify_chain` and `MerkleTree` of `evidence.rs`. SHA-256 is
a parameter. A stored decision is a string, here the bytes of it. The tree keeps
all its levels, as the source does; its loop halves the level until one node is
left, here with the number of leaves as fuel, and `buildLevels_top` shows that the
fuel is never what stops it.
-/
namespace AgentPay.EvidenceLog
open SolanaRuntime EscrowState ClaimMessage Fallible

/-- `GENESIS_PREV_HASH` and `EMPTY_ROOT`. -/
def zeroHash : Hash := Vector.replicate 32 0

/-- The decisions that are recorded. Rows that somebody else wrote may hold any other text; what
can be inserted so is in `EvidenceTables`. -/
inductive Decision where
  | allowed
  | notMonotonic
  | nonceNotMonotonic
  | exceedsDeposit
  | sessionExpired
deriving DecidableEq, Repr

/-- `as_str`, as the bytes that are stored and hashed: `ALLOWED`,
`ERR_CLAIM_NOT_MONOTONIC`, `ERR_NONCE_NOT_MONOTONIC`,
`ERR_CLAIM_EXCEEDS_DEPOSIT` and `ERR_SESSION_EXPIRED`. -/
def Decision.asStr : Decision → List UInt8
  | .allowed => [65, 76, 76, 79, 87, 69, 68]
  | .notMonotonic => [69, 82, 82, 95, 67, 76, 65, 73, 77, 95, 78, 79, 84, 95, 77, 79, 78, 79, 84,
      79, 78, 73, 67]
  | .nonceNotMonotonic => [69, 82, 82, 95, 78, 79, 78, 67, 69, 95, 78, 79, 84, 95, 77, 79, 78, 79,
      84, 79, 78, 73, 67]
  | .exceedsDeposit => [69, 82, 82, 95, 67, 76, 65, 73, 77, 95, 69, 88, 67, 69, 69, 68, 83, 95, 68,
      69, 80, 79, 83, 73, 84]
  | .sessionExpired => [69, 82, 82, 95, 83, 69, 83, 83, 73, 79, 78, 95, 69, 88, 80, 73, 82, 69, 68]

section Hashing
variable (sha256 : List UInt8 → Hash)

/-- `compute_entry_hash`. SHA-256 is a parameter; the amounts are hashed as eight bytes each,
least significant first, and the decision last, without its length. -/
def computeEntryHash (prevHash : Hash) (session : Pubkey) (cumulativeAmount nonce : UInt64)
    (decision : List UInt8) : Hash :=
  sha256 (prevHash.toList ++ session.toList ++ u64LeBytes cumulativeAmount ++ u64LeBytes nonce ++
    decision)

/-- One decision as stored, enough to re-derive its hash. -/
structure EvidenceEntry where
  sequenceId : Int64
  cumulativeAmount : UInt64
  nonce : UInt64
  decision : List UInt8
  prevHash : Hash
  entryHash : Hash
deriving DecidableEq

/-- Where a log stops being a chain: a number out of turn, a link to another entry, or contents
that do not give the hash. -/
inductive ChainError where
  | sequenceGap (expected found : Int64)
  | brokenLink (sequenceId : Int64)
  | hashMismatch (sequenceId : Int64)
deriving DecidableEq

/-- The hash an entry's own contents give. -/
def EvidenceEntry.recomputed (session : Pubkey) (e : EvidenceEntry) : Hash :=
  computeEntryHash sha256 e.prevHash session e.cumulativeAmount e.nonce e.decision

/-- The loop of `verify_chain` from position `i` on; `i as i64` wraps. -/
def verifyFrom (session : Pubkey) : ℕ → Hash → List EvidenceEntry → Except ChainError Unit
  | _, _, [] => pure ()
  | i, expectedPrev, e::entries => do
    let expectedSeq := Int64.ofNat i
    require (e.sequenceId = expectedSeq) (ChainError.sequenceGap expectedSeq e.sequenceId)
    require (e.prevHash = expectedPrev) (ChainError.brokenLink e.sequenceId)
    require (e.recomputed sha256 session = e.entryHash) (ChainError.hashMismatch e.sequenceId)
    verifyFrom session (i + 1) e.entryHash entries

def verifyChain (session : Pubkey) (entries : List EvidenceEntry) : Except ChainError Unit :=
  verifyFrom sha256 session 0 zeroHash entries

def hashPair (left right : Hash) : Hash := sha256 (left.toList ++ right.toList)

/-- One round of the loop; an odd node out is paired with itself. -/
def nextLevel : List Hash → List Hash
  | [] => []
  | [x] => [hashPair sha256 x x]
  | x::y::rest => hashPair sha256 x y :: nextLevel rest

def buildLevels : ℕ → List Hash → List (List Hash)
  | 0, level => [level]
  | fuel+1, level =>
    if 1 < level.length then level :: buildLevels fuel (nextLevel sha256 level) else [level]

structure MerkleTree where
  levels : List (List Hash)
deriving DecidableEq

def MerkleTree.new (leaves : List Hash) : MerkleTree :=
  if leaves.isEmpty then ⟨[]⟩ else ⟨buildLevels sha256 leaves.length leaves⟩

def MerkleTree.root (t : MerkleTree) : Hash :=
  match t.levels.getLast? with
  | some (x::_) => x
  | _ => zeroHash

/-- The root over a list of leaves, zero for an empty log. -/
def merkleRoot (leaves : List Hash) : Hash := (MerkleTree.new sha256 leaves).root

end Hashing

section Levels
variable {sha256 : List UInt8 → Hash}

theorem length_nextLevel (level : List Hash) :
    (nextLevel sha256 level).length = (level.length + 1) / 2 := by
  induction level using nextLevel.induct with
  | case1 => rfl
  | case2 x => simp [nextLevel]
  | case3 x y rest ih =>
    simp only [nextLevel, List.length_cons, ih]
    omega

/-- The loop ends with a single node on the top level. -/
theorem buildLevels_top (fuel : ℕ) (level : List Hash) (hne : level ≠ [])
    (hfuel : level.length ≤ fuel + 1) :
    ∃ x, (buildLevels sha256 fuel level).getLast? = some [x] := by
  induction fuel generalizing level with
  | zero =>
    have hpos := List.length_pos_iff.mpr hne
    obtain ⟨x, rfl⟩ := List.length_eq_one_iff.mp (show level.length = 1 by omega)
    exact ⟨x, rfl⟩
  | succ fuel ih =>
    unfold buildLevels
    split_ifs with h
    · have hlen := @length_nextLevel sha256 level
      have hnext : nextLevel sha256 level ≠ [] := by
        intro he
        rw [he, List.length_nil] at hlen
        omega
      obtain ⟨x, hx⟩ := ih (nextLevel sha256 level) hnext (by omega)
      refine ⟨x, ?_⟩
      rw [List.getLast?_cons, hx]
      rfl
    · have hpos := List.length_pos_iff.mpr hne
      obtain ⟨x, rfl⟩ := List.length_eq_one_iff.mp (show level.length = 1 by omega)
      exact ⟨x, rfl⟩

end Levels

section Chain
variable (sha256 : List UInt8 → Hash) (session : Pubkey)

/-- The hash the entry after `entries` links to. -/
def tipHash (prev : Hash) (entries : List EvidenceEntry) : Hash :=
  (entries.getLast?.map EvidenceEntry.entryHash).getD prev

/-- What `verify_chain` asks of the entry at position `i`. -/
structure Fits (i : ℕ) (prev : Hash) (e : EvidenceEntry) : Prop where
  sequence : e.sequenceId = Int64.ofNat i
  link : e.prevHash = prev
  hash : e.recomputed sha256 session = e.entryHash

variable {sha256 session} {entries : List EvidenceEntry} {i : ℕ} {prev : Hash}

@[simp] theorem tipHash_nil : tipHash prev [] = prev := rfl

@[simp] theorem tipHash_cons {e : EvidenceEntry} :
    tipHash prev (e :: entries) = tipHash e.entryHash entries := by
  cases entries with
  | nil => rfl
  | cons e' entries => simp [tipHash, List.getLast?_cons]

theorem tipHash_take_succ {k : ℕ} (h : k < entries.length) :
    tipHash prev (entries.take (k + 1)) = entries[k].entryHash := by
  rw [List.take_succ_eq_append_getElem h, tipHash, List.getLast?_concat]
  rfl

theorem verifyFrom_cons {e : EvidenceEntry} :
    verifyFrom sha256 session i prev (e :: entries) = .ok () ↔
      Fits sha256 session i prev e ∧
        verifyFrom sha256 session (i + 1) e.entryHash entries = .ok () := by
  simp only [verifyFrom, bind_eq_ok, require_eq_ok, exists_const]
  constructor
  · intro h
    exact ⟨⟨h.1, h.2.1, h.2.2.1⟩, h.2.2.2⟩
  · intro h
    exact ⟨h.1.sequence, h.1.link, h.1.hash, h.2⟩

theorem verifyFrom_concat {e : EvidenceEntry} :
    verifyFrom sha256 session i prev (entries ++ [e]) = .ok () ↔
      verifyFrom sha256 session i prev entries = .ok () ∧
        Fits sha256 session (i + entries.length) (tipHash prev entries) e := by
  induction entries generalizing i prev with
  | nil =>
    rw [List.nil_append, verifyFrom_cons]
    exact and_comm
  | cons x entries ih =>
    rw [List.cons_append, verifyFrom_cons, verifyFrom_cons, ih, tipHash_cons, List.length_cons,
      and_assoc]
    rw [show i + 1 + entries.length = i + (entries.length + 1) by omega]

/-- A chain grows by an entry that fits behind its tip. -/
theorem verifyChain_concat {e : EvidenceEntry} :
    verifyChain sha256 session (entries ++ [e]) = .ok () ↔
      verifyChain sha256 session entries = .ok () ∧
        Fits sha256 session entries.length (tipHash zeroHash entries) e := by
  rw [verifyChain, verifyFrom_concat, Nat.zero_add]
  rfl

theorem verifyFrom_getElem (h : verifyFrom sha256 session i prev entries = .ok ()) {k : ℕ}
    (hk : k < entries.length) :
    Fits sha256 session (i + k) (tipHash prev (entries.take k)) entries[k] := by
  induction entries generalizing i prev k with
  | nil => exact absurd hk (Nat.not_lt_zero k)
  | cons e entries ih =>
    rw [verifyFrom_cons] at h
    cases k with
    | zero => exact h.1
    | succ k =>
      have hf := ih h.2 (Nat.lt_of_succ_lt_succ hk)
      rw [List.take_succ_cons, tipHash_cons, List.getElem_cons_succ]
      rwa [show i + (k + 1) = i + 1 + k by omega]

/-- Every entry of a verified chain fits at its position. -/
theorem verifyChain_getElem (h : verifyChain sha256 session entries = .ok ()) {k : ℕ}
    (hk : k < entries.length) :
    Fits sha256 session k (tipHash zeroHash (entries.take k)) entries[k] := by
  have hf := verifyFrom_getElem h hk
  rwa [Nat.zero_add] at hf

end Chain

end AgentPay.EvidenceLog
