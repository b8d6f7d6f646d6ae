import AgentPay.EvidenceBinding
import AgentPay.PolicyRules
import Mathlib.Data.Nat.Log

/-!
# Merkle proofs and the two programs that check them

`MerkleTree::proof` and `verify_proof` of `evidence.rs`, the hexadecimal rendering of a
proof by the gateway, and the browser's `recomputeRoot` that checks it again. An index out
of bounds panics. WebCrypto's digest is the same parameter as the gateway's SHA-256, and
`parseInt` is modelled on whatever a slice may hold.
-/
namespace AgentPay.MerkleProofs
open SolanaRuntime EscrowState EvidenceLog EvidenceBinding PolicyRules

inductive Side where
  | left
  | right
deriving DecidableEq

structure ProofNode where
  hash : Hash
  /-- The side the sibling sits on. -/
  side : Side
deriving DecidableEq

inductive Panic where
  | indexOutOfBounds
deriving DecidableEq

section Gateway
variable (sha256 : List UInt8 → Hash)

def siblingIndex (idx : ℕ) : ℕ := if idx % 2 = 0 then idx + 1 else idx - 1

def nodeSide (idx : ℕ) : Side := if idx % 2 = 0 then .right else .left

/-- The loop of `proof`, over the levels that are left. -/
def proofFrom : List (List Hash) → ℕ → Except Panic (List ProofNode)
  | [], _ => pure []
  | level::levels, idx => do
    let own ← (level[idx]?).elim (.error .indexOutOfBounds) pure
    let rest ← proofFrom levels (idx / 2)
    pure (⟨(level[siblingIndex idx]?).getD own, nodeSide idx⟩ :: rest)

def leafCount (t : MerkleTree) : ℕ := (t.levels.head?.map List.length).getD 0

/-- `MerkleTree::proof`. An index that is in range has a sibling on every level; where the
source would index out of bounds this is a `Panic`, and it is shown not to occur. -/
def proof (t : MerkleTree) (index : ℕ) : Except Panic (Option (List ProofNode)) :=
  if leafCount t ≤ index then pure none else (proofFrom t.levels.dropLast index).map some

def climb (current : Hash) (node : ProofNode) : Hash :=
  match node.side with
  | .right => hashPair sha256 current node.hash
  | .left => hashPair sha256 node.hash current

def verifyProof (leaf : Hash) (proof : List ProofNode) (expectedRoot : Hash) : Bool :=
  decide (proof.foldl (climb sha256) leaf = expectedRoot)

end Gateway

/-! ### Hexadecimal -/

/-- `toString(16).padStart(2, "0")` of a byte, and `{:02x}`. -/
def hexByte (b : UInt8) : Text := List.leftpad 2 '0' (Nat.toDigits 16 b.toNat)

def hexBytes (bytes : List UInt8) : Text := bytes.flatMap hexByte

/-- `hex32` of `routes.rs`. -/
def hex32 (h : Hash) : Text := hexBytes h.toList

def hexDigit? (c : Char) : Option ℕ :=
  ['0', '1', '2', '3', '4', '5', '6', '7', '8', '9', 'a', 'b', 'c', 'd', 'e', 'f'].idxOf? c.toLower

/-- The white space `parseInt` skips. -/
def isSpace (c : Char) : Bool :=
  (9 ≤ c.toNat ∧ c.toNat ≤ 13) ∨ (0x2000 ≤ c.toNat ∧ c.toNat ≤ 0x200a) ∨
    c.toNat ∈ [0x20, 0xa0, 0x1680, 0x2028, 0x2029, 0x202f, 0x205f, 0x3000, 0xfeff]

/-- `0x` may stand in front in base 16. -/
def dropBase (s : Text) : Text :=
  match s with
  | a :: x :: rest => if a = '0' ∧ (x = 'x' ∨ x = 'X') then rest else s
  | _ => s

/-- The digits of `parseInt(s, 16)`, `none` for `NaN`. -/
def parseHexDigits (s : Text) : Option ℕ :=
  match (s.map hexDigit?).takeWhile Option.isSome with
  | [] => none
  | ds => some ((ds.map fun d => d.getD 0).foldl (fun n d => 16 * n + d) 0)

def parseIntHex (s : Text) : Option ℤ :=
  match s.dropWhile isSpace with
  | [] => none
  | c::rest =>
    if c = '-' then (parseHexDigits (dropBase rest)).map fun n => -(n : ℤ)
    else if c = '+' then (parseHexDigits (dropBase rest)).map fun n => (n : ℤ)
    else (parseHexDigits (dropBase (c :: rest))).map fun n => (n : ℤ)

/-- What a `Uint8Array` stores: `NaN` as zero, an integer modulo 256. -/
def toUint8 : Option ℤ → UInt8
  | none => 0
  | some n => UInt8.ofNat (n % 256).toNat

/-! ### The browser -/

section Browser
variable (sha256 : List UInt8 → Hash)

def byteAt (hex : Text) (i : ℕ) : UInt8 := toUint8 (parseIntHex ((hex.drop (i * 2)).take 2))

def sha256Hex (hexA hexB : Text) : Text :=
  let bytes := (List.range 32).map (byteAt hexA) ++ (List.range 32).map (byteAt hexB)
  hexBytes (sha256 bytes).toList

structure NodeView where
  hash : Text
  side : Text
deriving DecidableEq

structure ProofView where
  leafHash : Text
  proof : List NodeView
deriving DecidableEq

structure ProofStep where
  index : ℕ
  running : Text
  sibling : Text
  side : Text
  result : Text
deriving DecidableEq

def rightSide : Text := ['r', 'i', 'g', 'h', 't']
def leftSide : Text := ['l', 'e', 'f', 't']

def recomputeFrom : ℕ → Text → List NodeView → List ProofStep × Text
  | _, running, [] => ([], running)
  | i, running, node::proof =>
    let result := if node.side = rightSide then sha256Hex sha256 running node.hash
      else sha256Hex sha256 node.hash running
    let (steps, root) := recomputeFrom (i + 1) result proof
    (⟨i, running, node.hash, node.side, result⟩ :: steps, root)

def recomputeRoot (p : ProofView) : List ProofStep × Text :=
  recomputeFrom sha256 0 p.leafHash p.proof

/-- The rendering of a proof in the response of `evidence_proof`. -/
def nodeView (n : ProofNode) : NodeView :=
  ⟨hex32 n.hash, match n.side with
    | .left => leftSide
    | .right => rightSide⟩

def proofView (leaf : Hash) (proof : List ProofNode) : ProofView :=
  ⟨hex32 leaf, proof.map nodeView⟩

end Browser

/-! ### Reading a rendered hash -/

section Reading

theorem hexByte_spec (b : UInt8) :
    (hexByte b).length = 2 ∧ toUint8 (parseIntHex (hexByte b)) = b := by
  have hall : ∀ n : Fin 256, (hexByte (UInt8.ofNat n.val)).length = 2 ∧
      toUint8 (parseIntHex (hexByte (UInt8.ofNat n.val))) = UInt8.ofNat n.val := by decide +kernel
  have hb := hall ⟨b.toNat, b.toNat_lt⟩
  rwa [UInt8.ofNat_toNat] at hb

theorem slice_hexBytes {bytes : List UInt8} {i : ℕ} (hi : i < bytes.length) :
    ((hexBytes bytes).drop (i * 2)).take 2 = hexByte bytes[i] := by
  induction bytes generalizing i with
  | nil => exact absurd hi (Nat.not_lt_zero i)
  | cons b bytes ih =>
    have hb := (hexByte_spec b).1
    cases i with
    | zero => simp [hexBytes, hb]
    | succ i =>
      have hi' : i < bytes.length := Nat.lt_of_succ_lt_succ hi
      rw [List.getElem_cons_succ, ← ih hi', hexBytes, List.flatMap_cons,
        show (i + 1) * 2 = (hexByte b).length + i * 2 by omega, ← List.drop_drop, List.drop_left]
      rfl

theorem byteAt_hex32 (h : Hash) : (List.range 32).map (byteAt (hex32 h)) = h.toList := by
  apply List.ext_getElem
  · simp
  · intro i hi hi'
    have hb : i < h.toList.length := hi'
    rw [List.getElem_map, List.getElem_range, byteAt, hex32, slice_hexBytes hb]
    exact (hexByte_spec _).2

theorem sha256Hex_hex32 {sha256 : List UInt8 → Hash} (a b : Hash) :
    sha256Hex sha256 (hex32 a) (hex32 b) = hex32 (hashPair sha256 a b) := by
  simp only [sha256Hex, byteAt_hex32]
  rfl

/-- The browser climbs as the gateway does, on rendered hashes. -/
theorem recomputeFrom_nodeView {sha256 : List UInt8 → Hash} (i : ℕ) (leaf : Hash)
    (proof : List ProofNode) :
    (recomputeFrom sha256 i (hex32 leaf) (proof.map nodeView)).2 =
      hex32 (proof.foldl (climb sha256) leaf) := by
  induction proof generalizing i leaf with
  | nil => rfl
  | cons n proof ih =>
    have hstep : (if (nodeView n).side = rightSide then
        sha256Hex sha256 (hex32 leaf) (nodeView n).hash
        else sha256Hex sha256 (nodeView n).hash (hex32 leaf)) = hex32 (climb sha256 leaf n) := by
      rcases n with ⟨h, _ | _⟩
      · exact sha256Hex_hex32 h leaf
      · exact sha256Hex_hex32 leaf h
    rw [List.map_cons, recomputeFrom, hstep, List.foldl_cons]
    exact ih (i + 1) (climb sha256 leaf n)

end Reading

/-! ### Levels -/

section Levels
variable {sha256 : List UInt8 → Hash}

theorem siblingIndex_add_two (n : ℕ) : siblingIndex (n + 2) = siblingIndex n + 2 := by
  unfold siblingIndex
  split_ifs <;> omega

theorem nodeSide_add_two (n : ℕ) : nodeSide (n + 2) = nodeSide n := by
  unfold nodeSide
  rw [Nat.add_mod_right]

/-- The node `proof` puts down for an index of a level. -/
def nodeAt (level : List Hash) (idx : ℕ) (own : Hash) : ProofNode :=
  ⟨(level[siblingIndex idx]?).getD own, nodeSide idx⟩

/-- Building and proving pair the same two nodes, the odd last one with itself. -/
theorem nextLevel_getElem? {level : List Hash} {idx : ℕ} (h : idx < level.length) :
    (nextLevel sha256 level)[idx / 2]? =
      some (climb sha256 level[idx] (nodeAt level idx level[idx])) := by
  induction level using nextLevel.induct generalizing idx with
  | case1 => exact absurd h (Nat.not_lt_zero idx)
  | case2 x =>
    obtain rfl : idx = 0 := by simpa using h
    rfl
  | case3 x y rest ih =>
    rcases idx with _ | _ | n
    · rfl
    · rfl
    · have hn : n < rest.length := by simpa using h
      have hnode : nodeAt (x :: y :: rest) (n + 2) rest[n] = nodeAt rest n rest[n] := by
        simp only [nodeAt, siblingIndex_add_two, nodeSide_add_two, List.getElem?_cons_succ]
      rw [nextLevel, show (n + 2) / 2 = n / 2 + 1 by omega, List.getElem?_cons_succ, ih hn]
      simp only [List.getElem_cons_succ, hnode]

theorem buildLevels_ne_nil (fuel : ℕ) (level : List Hash) : buildLevels sha256 fuel level ≠ [] := by
  cases fuel with
  | zero => exact List.cons_ne_nil _ _
  | succ fuel =>
    unfold buildLevels
    split_ifs
    · exact List.cons_ne_nil _ _
    · exact List.cons_ne_nil _ _

/-- The loop has ended by itself: more rounds would change nothing. -/
theorem buildLevels_fuel (fuel more : ℕ) (level : List Hash) (h : level.length ≤ fuel + 1) :
    buildLevels sha256 (fuel + more) level = buildLevels sha256 fuel level := by
  induction fuel generalizing level with
  | zero =>
    cases more with
    | zero => rfl
    | succ more => exact if_neg (by omega)
  | succ fuel ih =>
    rw [show fuel + 1 + more = fuel + more + 1 by omega, buildLevels, buildLevels]
    split_ifs with hlen
    · rw [ih]
      rw [length_nextLevel]
      omega
    · rfl

theorem proofFrom_single {level : List Hash} {idx : ℕ} (hidx : idx < level.length)
    (h : ¬1 < level.length) : ∃ path, proofFrom [level].dropLast idx = .ok path ∧
      path.length = Nat.clog 2 level.length ∧
      [level].getLast? = some [path.foldl (climb sha256) level[idx]] := by
  obtain ⟨x, rfl⟩ := List.length_eq_one_iff.mp (show level.length = 1 by omega)
  obtain rfl : idx = 0 := by simpa using hidx
  exact ⟨[], rfl, by simp, rfl⟩

/-- The path from an index to the single node on top. -/
theorem proofFrom_buildLevels (fuel : ℕ) {level : List Hash} {idx : ℕ} (hidx : idx < level.length)
    (hfuel : level.length ≤ fuel + 1) :
    ∃ path, proofFrom (buildLevels sha256 fuel level).dropLast idx = .ok path ∧
      path.length = Nat.clog 2 level.length ∧
      (buildLevels sha256 fuel level).getLast? = some [path.foldl (climb sha256) level[idx]] := by
  induction fuel generalizing level idx with
  | zero => exact proofFrom_single hidx (by omega)
  | succ fuel ih =>
    unfold buildLevels
    split_ifs with h
    · have hlen := @length_nextLevel sha256 level
      have hup : idx / 2 < (nextLevel sha256 level).length := by omega
      obtain ⟨path, hpath, hclog, hlast⟩ := ih hup (by omega)
      have hnode : (nextLevel sha256 level)[idx / 2] =
          climb sha256 level[idx] (nodeAt level idx level[idx]) := by
        have hget := @nextLevel_getElem? sha256 level idx hidx
        rwa [List.getElem?_eq_getElem hup, Option.some.injEq] at hget
      refine ⟨nodeAt level idx level[idx] :: path, ?_, ?_, ?_⟩
      · rw [List.dropLast_cons_of_ne_nil (buildLevels_ne_nil _ _), proofFrom,
          List.getElem?_eq_getElem hidx, hpath]
        rfl
      · rw [List.length_cons, hclog, hlen, Nat.clog_of_two_le Nat.one_lt_two h]
        rfl
      · rw [List.getLast?_cons, hlast, List.foldl_cons, hnode]
        rfl
    · exact proofFrom_single hidx h

end Levels

section Trees
variable {sha256 : List UInt8 → Hash} {leaves : List Hash}

theorem levels_new (hne : leaves ≠ []) :
    (MerkleTree.new sha256 leaves).levels = buildLevels sha256 leaves.length leaves := by
  rw [MerkleTree.new, if_neg (by simpa using hne)]

theorem leafCount_new : leafCount (MerkleTree.new sha256 leaves) = leaves.length := by
  rcases leaves with _ | ⟨x, leaves⟩
  · rfl
  · rw [leafCount, levels_new (List.cons_ne_nil _ _), List.length_cons, buildLevels]
    split_ifs
    · rfl
    · rfl

theorem root_of_top {t : MerkleTree} {x : Hash} (h : t.levels.getLast? = some [x]) :
    t.root = x := by
  rw [MerkleTree.root, h]

theorem proof_new {index : ℕ} (h : index < leaves.length) :
    ∃ path, proof (MerkleTree.new sha256 leaves) index = .ok (some path) ∧
      path.length = Nat.clog 2 leaves.length ∧
      path.foldl (climb sha256) leaves[index] = (MerkleTree.new sha256 leaves).root := by
  have hne : leaves ≠ [] := List.length_pos_iff.mp (Nat.zero_lt_of_lt h)
  obtain ⟨path, hpath, hclog, hlast⟩ :=
    @proofFrom_buildLevels sha256 leaves.length leaves index h (Nat.le_succ _)
  rw [← levels_new hne] at hpath hlast
  refine ⟨path, ?_, hclog, (root_of_top hlast).symm⟩
  rw [proof, leafCount_new, if_neg (Nat.not_le.mpr h), hpath]
  rfl

end Trees

/-- Every leaf is provable, to the gateway and to the browser, and nothing else is. The fuel of
the model's tree is enough for the loop of the source, however much more is given. -/
theorem every_leaf_provable (sha256 : List UInt8 → Hash) (leaves : List Hash) :
    (leaves ≠ [] →
      (∀ more, buildLevels sha256 (leaves.length + more) leaves =
        (MerkleTree.new sha256 leaves).levels) ∧
      (MerkleTree.new sha256 leaves).levels.getLast? =
        some [(MerkleTree.new sha256 leaves).root]) ∧
    (∀ i (h : i < leaves.length), ∃ path,
      proof (MerkleTree.new sha256 leaves) i = .ok (some path) ∧
      path.length = Nat.clog 2 leaves.length ∧
      verifyProof sha256 leaves[i] path (MerkleTree.new sha256 leaves).root = true ∧
      (recomputeRoot sha256 (proofView leaves[i] path)).2 =
        hex32 (MerkleTree.new sha256 leaves).root) ∧
    ∀ i, leaves.length ≤ i → proof (MerkleTree.new sha256 leaves) i = .ok none := by
  refine ⟨?_, ?_, ?_⟩
  · intro hne
    refine ⟨?_, ?_⟩
    · intro more
      rw [levels_new hne, buildLevels_fuel _ _ _ (Nat.le_succ _)]
    · obtain ⟨x, hx⟩ := @buildLevels_top sha256 leaves.length leaves hne (Nat.le_succ _)
      rw [← levels_new hne] at hx
      rw [root_of_top hx, hx]
  · intro i h
    obtain ⟨path, hpath, hclog, hroot⟩ := @proof_new sha256 leaves i h
    refine ⟨path, hpath, hclog, decide_eq_true hroot, ?_⟩
    rw [← hroot]
    exact recomputeFrom_nodeView 0 leaves[i] path
  · intro i h
    rw [proof, leafCount_new, if_pos h]
    rfl

/-- The last of three leaves, which the leaf level pairs with itself. -/
theorem every_leaf_provable_ledger : ∃ path,
    proof (MerkleTree.new Ledger.sha256 [Ledger.first, Ledger.second, Ledger.third]) 2 =
      .ok (some path) ∧ path.length = 2 ∧
    verifyProof Ledger.sha256 Ledger.third path Ledger.root = true ∧
    (recomputeRoot Ledger.sha256 (proofView Ledger.third path)).2 = hex32 Ledger.root := by
  have hroot : (MerkleTree.new Ledger.sha256 [Ledger.first, Ledger.second, Ledger.third]).root =
      Ledger.root := by
    decide +kernel
  obtain ⟨path, hpath, hclog, hverify, hbrowser⟩ :=
    (every_leaf_provable Ledger.sha256 [Ledger.first, Ledger.second, Ledger.third]).2.1 2
      (by decide)
  rw [hroot] at hverify hbrowser
  have hlog : Nat.clog 2 3 = 2 := by decide
  exact ⟨path, hpath, hclog.trans hlog, hverify, hbrowser⟩

end AgentPay.MerkleProofs
