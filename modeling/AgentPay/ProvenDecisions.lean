import AgentPay.MerkleProofs

/-!
# Only recorded decisions can be proved

A decision that verifies against the root of a verified log is an entry of that log, or
the strings hashed for the log, for the decision and along its path hold a collision or a
preimage of the zero digest. The path is the attacker's: `verify_proof` looks neither at its
length nor at the position. A path that stops early would make the decision an inner node,
and one that runs on below the leaves would make a leaf one.
-/
namespace AgentPay.ProvenDecisions
open SolanaRuntime EscrowState EvidenceLog EvidenceBinding MerkleProofs

/-- What `verify_proof` hashes for one node. -/
def climbString (current : Hash) (node : ProofNode) : List UInt8 :=
  match node.side with
  | .right => nodeString current node.hash
  | .left => nodeString node.hash current

def pathStrings (sha256 : List UInt8 → Hash) : Hash → List ProofNode → List (List UInt8)
  | _, [] => []
  | current, node::path =>
    climbString current node :: pathStrings sha256 (climb sha256 current node) path

/-- A decision as it is presented, with the hash it follows. -/
structure Decided where
  prevHash : Hash
  session : Pubkey
  cumulativeAmount : UInt64
  nonce : UInt64
  decision : List UInt8
deriving DecidableEq

def Decided.hash (sha256 : List UInt8 → Hash) (c : Decided) : Hash :=
  computeEntryHash sha256 c.prevHash c.session c.cumulativeAmount c.nonce c.decision

/-- The content of an entry of a session's log. -/
def contentOf (session : Pubkey) (e : EvidenceEntry) : Decided :=
  ⟨e.prevHash, session, e.cumulativeAmount, e.nonce, e.decision⟩

/-- The string it is hashed from; the number and the stored hash are not in it. -/
def Decided.string (c : Decided) : List UInt8 :=
  entryString c.session ⟨0, c.cumulativeAmount, c.nonce, c.decision, c.prevHash, zeroHash⟩

/-- Every string hashed to verify a log, to compute its root, and to check a decision
against it. -/
def checkedStrings (sha256 : List UInt8 → Hash) (session : Pubkey) (entries : List EvidenceEntry)
    (c : Decided) (path : List ProofNode) : List (List UInt8) :=
  c.string :: pathStrings sha256 (c.hash sha256) path ++ hashedStrings sha256 session entries

section Paths
variable {sha256 : List UInt8 → Hash} {strings : List (List UInt8)} {x root : Hash}
variable {path : List ProofNode} {level : List Hash} {depth : ℕ}

theorem climb_eq (current : Hash) (node : ProofNode) :
    climb sha256 current node = sha256 (climbString current node) := by
  rcases node with ⟨h, _ | _⟩
  · rfl
  · rfl

theorem climbString_node (current : Hash) (node : ProofNode) :
    ∃ l r, climbString current node = nodeString l r ∧ (current = l ∨ current = r) := by
  rcases node with ⟨h, _ | _⟩
  · exact ⟨h, current, rfl, .inr rfl⟩
  · exact ⟨current, h, rfl, .inl rfl⟩

theorem pathStrings_append (p q : List ProofNode) :
    pathStrings sha256 x (p ++ q) =
      pathStrings sha256 x p ++ pathStrings sha256 (p.foldl (climb sha256) x) q := by
  induction p generalizing x with
  | nil => rfl
  | cons n p ih => rw [List.cons_append, pathStrings, pathStrings, ih, List.cons_append,
      List.foldl_cons]

theorem pathStrings_take {k : ℕ} (h : pathStrings sha256 x path ⊆ strings) :
    pathStrings sha256 x (path.take k) ⊆ strings := by
  rw [← List.take_append_drop k path, pathStrings_append] at h
  exact fun s hs => h (List.mem_append_left _ hs)

/-- One node of a path, the last one of those taken. -/
theorem climb_take_succ {k : ℕ} (hk : k < path.length)
    (hsub : pathStrings sha256 x path ⊆ strings) :
    climbString ((path.take k).foldl (climb sha256) x) path[k] ∈ strings ∧
      (path.take (k + 1)).foldl (climb sha256) x =
        sha256 (climbString ((path.take k).foldl (climb sha256) x) path[k]) := by
  have htake := pathStrings_take (k := k + 1) hsub
  rw [List.take_succ_eq_append_getElem hk, pathStrings_append] at htake
  refine ⟨htake (List.mem_append_right _ List.mem_cons_self), ?_⟩
  rw [List.take_succ_eq_append_getElem hk, List.foldl_append, List.foldl_cons, List.foldl_nil,
    climb_eq]

/-- A path at least as long as the tree is deep passes through the leaf level. -/
theorem rooted_descend (hS : Sound sha256 strings) (hr : Rooted sha256 strings depth level root)
    (hsub : pathStrings sha256 x path ⊆ strings) (hpath : path.foldl (climb sha256) x = root)
    (hlong : depth ≤ path.length) :
    (path.take (path.length - depth)).foldl (climb sha256) x ∈ level := by
  induction hr with
  | top root =>
    rw [Nat.sub_zero, List.take_length, hpath]
    exact List.mem_cons_self
  | @up depth level root hlevel _ ih =>
    have hmem := ih hpath (Nat.le_of_succ_le hlong)
    have hk : path.length - (depth + 1) < path.length := by omega
    rw [show path.length - depth = path.length - (depth + 1) + 1 by omega] at hmem
    obtain ⟨hs, hdigest⟩ := climb_take_succ hk hsub
    rw [hdigest] at hmem
    obtain ⟨l, r, hl, hr, hlr, he⟩ := mem_nextLevel hmem
    obtain ⟨l', r', hnode, hside⟩ :=
      climbString_node ((path.take (path.length - (depth + 1))).foldl (climb sha256) x)
        path[path.length - (depth + 1)]
    have hstrings := hS.inj _ hs _ (hlevel hlr) he
    rw [hnode] at hstrings
    obtain ⟨rfl, rfl⟩ := nodeString_inj hstrings
    rcases hside with hside | hside
    · exact hside ▸ hl
    · exact hside ▸ hr

theorem rooted_short (hS : Sound sha256 strings) (hr : Rooted sha256 strings depth level root)
    (hsub : pathStrings sha256 x path ⊆ strings) (hpath : path.foldl (climb sha256) x = root)
    (hshort : path.length < depth) : IsNode sha256 strings x := by
  induction hr with
  | top root => exact absurd hshort (Nat.not_lt_zero _)
  | @up depth level root hlevel hr ih =>
    rcases Nat.lt_or_ge path.length depth with hlt | hge
    · exact ih hpath hlt
    · have hmem := rooted_descend hS hr hsub hpath hge
      rw [show path.length - depth = 0 by omega] at hmem
      obtain ⟨l, r, _, _, hs, he⟩ := mem_nextLevel hmem
      exact ⟨l, r, hlevel hs, he⟩

/-- Nothing climbs to the zero digest, not even from a hashed string. -/
theorem foldl_climb_ne_zero (hS : Sound sha256 strings)
    (hsub : pathStrings sha256 x path ⊆ strings) (hx : x ≠ zeroHash) :
    path.foldl (climb sha256) x ≠ zeroHash := by
  induction path generalizing x with
  | nil => exact hx
  | cons n path ih =>
    rw [pathStrings, List.cons_subset] at hsub
    refine ih hsub.2 ?_
    rw [climb_eq]
    exact hS.nonzero _ hsub.1

end Paths

section Logs
variable {sha256 : List UInt8 → Hash} {strings : List (List UInt8)} {session : Pubkey}
variable {entries : List EvidenceEntry} {c : Decided} {path : List ProofNode}

theorem hash_eq (c : Decided) : c.hash sha256 = sha256 c.string := rfl

/-- A decision that hashes to a leaf has the content of that entry. -/
theorem listed_content (hS : Sound sha256 strings) (h : Listed sha256 strings session entries)
    (hc : c.string ∈ strings) (hleaf : c.hash sha256 ∈ entries.map EvidenceEntry.entryHash) :
    ∃ e ∈ entries, contentOf session e = c := by
  obtain ⟨e, he, heq⟩ := List.mem_map.mp hleaf
  obtain ⟨k, hk, rfl⟩ := List.getElem_of_mem he
  rw [(h.entry hk).2, hash_eq] at heq
  obtain ⟨rfl, hprev, hamount, hnonce, hdec⟩ :=
    entryString_inj (hS.inj _ (h.entry hk).1 _ hc heq)
  refine ⟨entries[k], he, ?_⟩
  rw [contentOf, hprev, hamount, hnonce, hdec]

theorem listed_recorded (hS : Sound sha256 strings) (h : Listed sha256 strings session entries)
    (hc : c.string ∈ strings) (hsub : pathStrings sha256 (c.hash sha256) path ⊆ strings)
    (hroot : path.foldl (climb sha256) (c.hash sha256) =
      merkleRoot sha256 (entries.map EvidenceEntry.entryHash)) :
    ∃ e ∈ entries, contentOf session e = c := by
  by_cases hne : entries = []
  · subst hne
    exact absurd hroot (foldl_climb_ne_zero hS hsub (hS.nonzero _ hc))
  · obtain ⟨depth, hr⟩ := merkleRoot_rooted (by simpa using hne) h.tree
    have hnotNode : ¬IsNode sha256 strings (c.hash sha256) := by
      rintro ⟨l, r, hs, he⟩
      exact entryString_ne_nodeString (hS.inj _ hc _ hs he)
    rcases Nat.lt_or_ge path.length depth with hlt | hge
    · exact absurd (rooted_short hS hr hsub hroot hlt) hnotNode
    · have hleaf := rooted_descend hS hr hsub hroot hge
      rcases hk : path.length - depth with _ | k
      · rw [hk] at hleaf
        exact listed_content hS h hc hleaf
      · rw [hk] at hleaf
        have hlen : k < path.length := by omega
        obtain ⟨hs, hdigest⟩ := climb_take_succ hlen hsub
        obtain ⟨l, r, hnode, -⟩ :=
          climbString_node ((path.take k).foldl (climb sha256) (c.hash sha256)) path[k]
        rw [hnode] at hs hdigest
        exact absurd ⟨l, r, hs, hdigest⟩ (h.leaf_not_node hS hleaf)

end Logs

/-- A decision proved against the root of a verified log is one of its entries, or among the
strings hashed on the way are two with one digest or one with the zero digest. -/
theorem only_recorded_proved (sha256 : List UInt8 → Hash) (session : Pubkey)
    (entries : List EvidenceEntry) (c : Decided) (path : List ProofNode)
    (hchain : verifyChain sha256 session entries = .ok ())
    (hproof : verifyProof sha256 (c.hash sha256) path
      (MerkleTree.new sha256 (entries.map EvidenceEntry.entryHash)).root = true) :
    (∃ e ∈ entries, contentOf session e = c) ∨
      (∃ x ∈ checkedStrings sha256 session entries c path,
        ∃ y ∈ checkedStrings sha256 session entries c path, x ≠ y ∧ sha256 x = sha256 y) ∨
      ∃ x ∈ checkedStrings sha256 session entries c path, sha256 x = zeroHash := by
  by_contra hnot
  rw [not_or, not_or] at hnot
  obtain ⟨hnone, hcoll, hzero⟩ := hnot
  have hS : Sound sha256 (checkedStrings sha256 session entries c path) := by
    constructor
    · intro x hx y hy he
      by_contra hxy
      exact hcoll ⟨x, hx, y, hy, hxy, he⟩
    · intro x hx he
      exact hzero ⟨x, hx, he⟩
  have hlisted : Listed sha256 (checkedStrings sha256 session entries c path) session entries :=
    ⟨hchain, List.subset_append_right _ _⟩
  refine hnone (listed_recorded hS hlisted (List.mem_append_left _ List.mem_cons_self) ?_
    (of_decide_eq_true hproof))
  exact fun s hs => List.mem_append_left _ (List.mem_cons_of_mem _ hs)

/-! ### A refusal that is proved -/

namespace Ledger
export EvidenceBinding.Ledger (session first entries sha256)

def refusal : Decided := ⟨first, session, 100, 1, Decision.notMonotonic.asStr⟩

def path : List ProofNode := [⟨first, .left⟩, ⟨EvidenceBinding.Ledger.rightNode, .right⟩]

end Ledger

/-- The refusal is proved, and it is in the log. -/
theorem only_recorded_proved_ledger :
    verifyProof Ledger.sha256 (Ledger.refusal.hash Ledger.sha256) Ledger.path
      EvidenceBinding.Ledger.root = true ∧
    ((∃ e ∈ Ledger.entries, contentOf Ledger.session e = Ledger.refusal) ∨
      (∃ x ∈ checkedStrings Ledger.sha256 Ledger.session Ledger.entries Ledger.refusal Ledger.path,
        ∃ y ∈ checkedStrings Ledger.sha256 Ledger.session Ledger.entries Ledger.refusal Ledger.path,
          x ≠ y ∧ Ledger.sha256 x = Ledger.sha256 y) ∨
      ∃ x ∈ checkedStrings Ledger.sha256 Ledger.session Ledger.entries Ledger.refusal Ledger.path,
        Ledger.sha256 x = zeroHash) := by
  have hchain : verifyChain Ledger.sha256 Ledger.session Ledger.entries = .ok () := by
    decide +kernel
  have hroot : (MerkleTree.new Ledger.sha256 (Ledger.entries.map EvidenceEntry.entryHash)).root =
      EvidenceBinding.Ledger.root := by
    decide +kernel
  have hproof : verifyProof Ledger.sha256 (Ledger.refusal.hash Ledger.sha256) Ledger.path
      EvidenceBinding.Ledger.root = true := by
    decide +kernel
  refine ⟨hproof, only_recorded_proved Ledger.sha256 Ledger.session Ledger.entries Ledger.refusal
    Ledger.path hchain ?_⟩
  rw [hroot]
  exact hproof

end AgentPay.ProvenDecisions
