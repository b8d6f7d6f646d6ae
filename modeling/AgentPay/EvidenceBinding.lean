import AgentPay.EvidenceLog
import Mathlib.Data.List.Nodup

/-!
# The published root binds the log

Two verified chains of one session with the same Merkle root are equal, or the
strings hashed on their behalf hold a collision or a preimage of the zero
digest. Nothing is assumed of the hash function: `hashedStrings` lists every
string that `verify_chain` and `MerkleTree::new` hash for a log, and the two
strings are found in that list. A collision of SHA-256 exists for reasons of
counting alone, so a statement that leaves out where it is found says nothing.

The tree by itself does not bind its leaves, since an odd level repeats its last
node and a leaf is not told from an inner node by a tag. Both gaps are closed by
the chain: its hashes are pairwise different, and a string hashed for an entry
is longer than one hashed for a node.
-/
namespace AgentPay.EvidenceBinding
open SolanaRuntime EscrowState ClaimMessage EvidenceLog

section Strings

theorem length_leBytes (w n : ℕ) : (leBytes w n).length = w := by
  induction w generalizing n with
  | zero => rfl
  | succ w ih => rw [leBytes, List.length_cons, ih]

theorem leBytes_inj (w : ℕ) {m n : ℕ} (hm : m < 256 ^ w) (hn : n < 256 ^ w)
    (h : leBytes w m = leBytes w n) : m = n := by
  induction w generalizing m n with
  | zero =>
    rw [pow_zero] at hm hn
    omega
  | succ w ih =>
    rw [leBytes, leBytes, List.cons.injEq] at h
    have hlow : m % 256 = n % 256 := congrArg UInt8.toNat h.1
    have hhigh : m / 256 = n / 256 := by
      apply ih _ _ h.2
      · rw [pow_succ] at hm
        omega
      · rw [pow_succ] at hn
        omega
    omega

theorem length_u64LeBytes (x : UInt64) : (u64LeBytes x).length = 8 := length_leBytes 8 _

theorem u64LeBytes_inj {x y : UInt64} (h : u64LeBytes x = u64LeBytes y) : x = y :=
  UInt64.toNat_inj.mp (leBytes_inj 8 x.toNat_lt y.toNat_lt h)

/-- The string `compute_entry_hash` hashes for an entry. -/
def entryString (session : Pubkey) (e : EvidenceEntry) : List UInt8 :=
  e.prevHash.toList ++ session.toList ++ u64LeBytes e.cumulativeAmount ++ u64LeBytes e.nonce ++
    e.decision

/-- The string `hash_pair` hashes. -/
def nodeString (left right : Hash) : List UInt8 := left.toList ++ right.toList

/-- What is hashed to pass from a level to the one above it. -/
def levelStrings : List Hash → List (List UInt8)
  | [] => []
  | [x] => [nodeString x x]
  | x::y::rest => nodeString x y :: levelStrings rest

def treeStrings (sha256 : List UInt8 → Hash) : ℕ → List Hash → List (List UInt8)
  | 0, _ => []
  | fuel+1, level =>
    if 1 < level.length then levelStrings level ++ treeStrings sha256 fuel (nextLevel sha256 level)
    else []

/-- Every string hashed to verify a log and to compute its root. -/
def hashedStrings (sha256 : List UInt8 → Hash) (session : Pubkey) (entries : List EvidenceEntry) :
    List (List UInt8) :=
  entries.map (entryString session) ++
    treeStrings sha256 entries.length (entries.map EvidenceEntry.entryHash)

theorem length_nodeString (left right : Hash) : (nodeString left right).length = 64 := by
  simp [nodeString]

theorem nodeString_inj {l r l' r' : Hash} (h : nodeString l r = nodeString l' r') :
    l = l' ∧ r = r' := by
  have hsplit := List.append_inj h (by simp)
  exact ⟨Vector.toList_inj.mp hsplit.1, Vector.toList_inj.mp hsplit.2⟩

theorem length_entryString (session : Pubkey) (e : EvidenceEntry) :
    80 ≤ (entryString session e).length := by
  simp only [entryString, List.length_append, Vector.length_toList, length_u64LeBytes]
  omega

theorem entryString_ne_nodeString {session : Pubkey} {e : EvidenceEntry} {left right : Hash} :
    entryString session e ≠ nodeString left right := by
  intro h
  have he := length_entryString session e
  rw [h, length_nodeString] at he
  omega

/-- The fields before the decision have fixed widths, so the string determines
the entry up to its number and its stored hash. -/
theorem entryString_inj {session session' : Pubkey} {e e' : EvidenceEntry}
    (h : entryString session e = entryString session' e') :
    session = session' ∧ e.prevHash = e'.prevHash ∧ e.cumulativeAmount = e'.cumulativeAmount ∧
      e.nonce = e'.nonce ∧ e.decision = e'.decision := by
  have h₁ := List.append_inj h (by simp [length_u64LeBytes])
  have h₂ := List.append_inj h₁.1 (by simp [length_u64LeBytes])
  have h₃ := List.append_inj h₂.1 (by simp)
  have h₄ := List.append_inj h₃.1 (by simp)
  exact ⟨Vector.toList_inj.mp h₄.2, Vector.toList_inj.mp h₄.1, u64LeBytes_inj h₃.2,
    u64LeBytes_inj h₂.2, h₁.2⟩

end Strings

/-- A list of strings with no two that share a digest and none with the zero
digest. -/
structure Sound (sha256 : List UInt8 → Hash) (strings : List (List UInt8)) : Prop where
  inj : ∀ x ∈ strings, ∀ y ∈ strings, sha256 x = sha256 y → x = y
  nonzero : ∀ x ∈ strings, sha256 x ≠ zeroHash

section Levels
variable {sha256 : List UInt8 → Hash} {strings : List (List UInt8)}

theorem mem_nextLevel {level : List Hash} {y : Hash} (h : y ∈ nextLevel sha256 level) :
    ∃ l r, l ∈ level ∧ r ∈ level ∧ nodeString l r ∈ levelStrings level ∧
      y = sha256 (nodeString l r) := by
  induction level using nextLevel.induct with
  | case1 => cases h
  | case2 x =>
    rw [nextLevel, List.mem_singleton] at h
    exact ⟨x, x, List.mem_cons_self, List.mem_cons_self, List.mem_cons_self, h⟩
  | case3 a b rest ih =>
    rw [nextLevel, List.mem_cons] at h
    rcases h with h | h
    · exact ⟨a, b, List.mem_cons_self, List.mem_cons_of_mem _ List.mem_cons_self,
        List.mem_cons_self, h⟩
    · rcases ih h with ⟨l, r, hl, hr, hs, hy⟩
      exact ⟨l, r, List.mem_cons_of_mem _ (List.mem_cons_of_mem _ hl),
        List.mem_cons_of_mem _ (List.mem_cons_of_mem _ hr), List.mem_cons_of_mem _ hs, hy⟩

theorem nextLevel_nodup (hS : Sound sha256 strings) {level : List Hash} (hnodup : level.Nodup)
    (hsub : levelStrings level ⊆ strings) : (nextLevel sha256 level).Nodup := by
  induction level using nextLevel.induct with
  | case1 => exact List.nodup_nil
  | case2 x => exact List.nodup_singleton _
  | case3 a b rest ih =>
    have hrest : levelStrings rest ⊆ strings := fun s hs => hsub (List.mem_cons_of_mem _ hs)
    rw [List.nodup_cons, List.nodup_cons] at hnodup
    rw [nextLevel, List.nodup_cons]
    refine ⟨?_, ih hnodup.2.2 hrest⟩
    intro hmem
    rcases mem_nextLevel hmem with ⟨l, r, hl, _, hs, hy⟩
    have heq := hS.inj _ (hsub List.mem_cons_self) _ (hrest hs) hy
    rw [(nodeString_inj heq).1] at hnodup
    exact hnodup.1 (List.mem_cons_of_mem _ hl)

/-- Equal hashes of two pairs that are both on the list. -/
theorem Sound.pair (hS : Sound sha256 strings) {l r l' r' : Hash}
    (h : nodeString l r ∈ strings) (h' : nodeString l' r' ∈ strings)
    (he : hashPair sha256 l r = hashPair sha256 l' r') : l = l' ∧ r = r' :=
  nodeString_inj (hS.inj _ h _ h' he)

/-- Without repetitions the padding of an odd level is recognised, and a level
is determined by the one above it. -/
theorem nextLevel_inj (hS : Sound sha256 strings) {level level' : List Hash}
    (hn : level.Nodup) (hn' : level'.Nodup) (hsub : levelStrings level ⊆ strings)
    (hsub' : levelStrings level' ⊆ strings)
    (h : nextLevel sha256 level = nextLevel sha256 level') : level = level' := by
  induction level using nextLevel.induct generalizing level' with
  | case1 =>
    rcases level' with _ | ⟨x, _ | ⟨y, rest⟩⟩
    · rfl
    · cases h
    · cases h
  | case2 a =>
    rcases level' with _ | ⟨x, _ | ⟨y, rest⟩⟩
    · cases h
    · rw [nextLevel, nextLevel, List.cons.injEq] at h
      rw [(hS.pair (hsub List.mem_cons_self) (hsub' List.mem_cons_self) h.1).1]
    · rw [nextLevel, nextLevel, List.cons.injEq] at h
      have hp := hS.pair (hsub List.mem_cons_self) (hsub' List.mem_cons_self) h.1
      rw [← hp.1, ← hp.2, List.nodup_cons] at hn'
      exact absurd List.mem_cons_self hn'.1
  | case3 a b rest ih =>
    rcases level' with _ | ⟨x, _ | ⟨y, rest'⟩⟩
    · cases h
    · rw [nextLevel, nextLevel, List.cons.injEq] at h
      have hp := hS.pair (hsub List.mem_cons_self) (hsub' List.mem_cons_self) h.1
      rw [hp.1, hp.2, List.nodup_cons] at hn
      exact absurd List.mem_cons_self hn.1
    · rw [nextLevel, nextLevel, List.cons.injEq] at h
      have hp := hS.pair (hsub List.mem_cons_self) (hsub' List.mem_cons_self) h.1
      rw [List.nodup_cons, List.nodup_cons] at hn hn'
      have hrest : rest = rest' :=
        ih hn.2.2 hn'.2.2 (fun s hs => hsub (List.mem_cons_of_mem _ hs))
          (fun s hs => hsub' (List.mem_cons_of_mem _ hs)) h.2
      rw [hp.1, hp.2, hrest]

/-- A level lies `depth` rounds below a root, and everything hashed on the way up
is on the list. -/
inductive Rooted (sha256 : List UInt8 → Hash) (strings : List (List UInt8)) :
    ℕ → List Hash → Hash → Prop
  | top (x : Hash) : Rooted sha256 strings 0 [x] x
  | up {depth : ℕ} {level : List Hash} {root : Hash} : levelStrings level ⊆ strings →
      Rooted sha256 strings depth (nextLevel sha256 level) root →
      Rooted sha256 strings (depth + 1) level root

theorem buildLevels_rooted (fuel : ℕ) {level : List Hash} (hne : level ≠ [])
    (hfuel : level.length ≤ fuel + 1) (hsub : treeStrings sha256 fuel level ⊆ strings) :
    ∃ depth root, Rooted sha256 strings depth level root ∧
      (buildLevels sha256 fuel level).getLast? = some [root] := by
  have hpos := List.length_pos_iff.mpr hne
  induction fuel generalizing level with
  | zero =>
    rcases List.length_eq_one_iff.mp (show level.length = 1 by omega) with ⟨x, rfl⟩
    exact ⟨0, x, .top x, rfl⟩
  | succ fuel ih =>
    unfold buildLevels
    unfold treeStrings at hsub
    split_ifs at hsub ⊢ with h
    · have hlen := @length_nextLevel sha256 level
      have hnext : 0 < (nextLevel sha256 level).length := by omega
      rcases ih (List.length_pos_iff.mp hnext) (by omega)
        (fun s hs => hsub (List.mem_append_right _ hs)) hnext with ⟨depth, root, hr, hlast⟩
      refine ⟨depth + 1, root, .up (fun s hs => hsub (List.mem_append_left _ hs)) hr, ?_⟩
      rw [List.getLast?_cons, hlast]
      rfl
    · rcases List.length_eq_one_iff.mp (show level.length = 1 by omega) with ⟨x, rfl⟩
      exact ⟨0, x, .top x, rfl⟩

/-- A log that is not empty has its root at some depth above its leaves. -/
theorem merkleRoot_rooted {leaves : List Hash} (hne : leaves ≠ [])
    (hsub : treeStrings sha256 leaves.length leaves ⊆ strings) :
    ∃ depth, Rooted sha256 strings depth leaves (merkleRoot sha256 leaves) := by
  rcases buildLevels_rooted leaves.length hne (Nat.le_succ _) hsub with ⟨depth, root, hr, hlast⟩
  have hroot : merkleRoot sha256 leaves = root := by
    rw [merkleRoot, MerkleTree.new, if_neg (by simpa using hne), MerkleTree.root, hlast]
  exact ⟨depth, hroot ▸ hr⟩

/-- Two levels at one depth below a root are equal. -/
theorem Rooted.level_eq (hS : Sound sha256 strings) {depth : ℕ} {level level' : List Hash}
    {root : Hash} (h : Rooted sha256 strings depth level root)
    (h' : Rooted sha256 strings depth level' root) (hn : level.Nodup) (hn' : level'.Nodup) :
    level = level' := by
  induction h generalizing level' with
  | top x =>
    cases h' with
    | top => rfl
  | up hsub _ ih =>
    cases h' with
    | up hsub' h' =>
      have hup := ih h' (nextLevel_nodup hS hn hsub) (nextLevel_nodup hS hn' hsub')
      exact nextLevel_inj hS hn hn' hsub hsub' hup

def IsNode (sha256 : List UInt8 → Hash) (strings : List (List UInt8)) (x : Hash) : Prop :=
  ∃ l r, nodeString l r ∈ strings ∧ x = sha256 (nodeString l r)

/-- Some rounds up a level has turned into inner nodes. -/
theorem Rooted.ascend (hS : Sound sha256 strings) {rounds depth : ℕ} {level : List Hash}
    {root : Hash} (h : Rooted sha256 strings (depth + (rounds + 1)) level root)
    (hn : level.Nodup) :
    ∃ upper, Rooted sha256 strings depth upper root ∧ upper.Nodup ∧
      ∀ x ∈ upper, IsNode sha256 strings x := by
  induction rounds generalizing level with
  | zero =>
    cases h with
    | up hsub h =>
      refine ⟨_, h, nextLevel_nodup hS hn hsub, ?_⟩
      intro x hx
      rcases mem_nextLevel hx with ⟨l, r, _, _, hs, hy⟩
      exact ⟨l, r, hsub hs, hy⟩
  | succ rounds ih =>
    cases h with
    | up hsub h => exact ih h (nextLevel_nodup hS hn hsub)

/-- A root is a leaf of its own or the digest of a listed node string. -/
theorem Rooted.root_mem {depth : ℕ} {level : List Hash} {root : Hash}
    (h : Rooted sha256 strings depth level root) :
    root ∈ level ∨ IsNode sha256 strings root := by
  induction h with
  | top x => exact .inl List.mem_cons_self
  | up hsub _ ih =>
    rcases ih with hmem | hnode
    · rcases mem_nextLevel hmem with ⟨l, r, _, _, hs, hy⟩
      exact .inr ⟨l, r, hsub hs, hy⟩
    · exact .inr hnode

end Levels

section Chains
variable {sha256 : List UInt8 → Hash} {strings : List (List UInt8)} {session : Pubkey}
variable {entries entries' : List EvidenceEntry}

/-- A verified log all of whose hashed strings are listed. -/
structure Listed (sha256 : List UInt8 → Hash) (strings : List (List UInt8)) (session : Pubkey)
    (entries : List EvidenceEntry) : Prop where
  chain : verifyChain sha256 session entries = .ok ()
  strings : hashedStrings sha256 session entries ⊆ strings

theorem Listed.entry (h : Listed sha256 strings session entries) {k : ℕ}
    (hk : k < entries.length) :
    entryString session entries[k] ∈ strings ∧
      entries[k].entryHash = sha256 (entryString session entries[k]) := by
  constructor
  · apply h.strings
    apply List.mem_append_left
    exact List.mem_map_of_mem (List.getElem_mem hk)
  · exact (verifyChain_getElem h.chain hk).hash.symm

theorem Listed.tree (h : Listed sha256 strings session entries) :
    treeStrings sha256 (entries.map EvidenceEntry.entryHash).length
      (entries.map EvidenceEntry.entryHash) ⊆ strings := by
  rw [List.length_map]
  exact fun s hs => h.strings (List.mem_append_right _ hs)

/-- Equal stored hashes come from equal entry strings. -/
theorem Listed.entryString_eq (hS : Sound sha256 strings)
    (h : Listed sha256 strings session entries) (h' : Listed sha256 strings session entries')
    {i j : ℕ} (hi : i < entries.length) (hj : j < entries'.length)
    (he : entries[i].entryHash = entries'[j].entryHash) :
    entryString session entries[i] = entryString session entries'[j] := by
  rw [(h.entry hi).2, (h'.entry hj).2] at he
  exact hS.inj _ (h.entry hi).1 _ (h'.entry hj).1 he

/-- Two equal hashes in one chain could be followed back to the genesis value,
which is the digest of nothing that was hashed. -/
theorem Listed.entryHash_ne (hS : Sound sha256 strings)
    (h : Listed sha256 strings session entries) {i j : ℕ} (hij : i < j)
    (hj : j < entries.length) : entries[i].entryHash ≠ entries[j].entryHash := by
  induction i generalizing j with
  | zero =>
    intro he
    cases j with
    | zero => exact absurd hij (Nat.lt_irrefl 0)
    | succ j =>
      have hprev := (entryString_inj (h.entryString_eq hS h (by omega) hj he)).2.1
      rw [(verifyChain_getElem h.chain (by omega)).link, (verifyChain_getElem h.chain hj).link,
        tipHash_take_succ (by omega), List.take_zero, tipHash_nil,
        (h.entry (by omega)).2] at hprev
      exact hS.nonzero _ (h.entry (by omega)).1 hprev.symm
  | succ i ih =>
    intro he
    cases j with
    | zero => exact absurd hij (Nat.not_lt_zero _)
    | succ j =>
      have hprev := (entryString_inj (h.entryString_eq hS h (by omega) hj he)).2.1
      rw [(verifyChain_getElem h.chain (by omega)).link, (verifyChain_getElem h.chain hj).link,
        tipHash_take_succ (by omega), tipHash_take_succ (by omega)] at hprev
      exact ih (by omega) (by omega) hprev

theorem Listed.leaves_nodup (hS : Sound sha256 strings)
    (h : Listed sha256 strings session entries) :
    (entries.map EvidenceEntry.entryHash).Nodup := by
  rw [List.Nodup, List.pairwise_map, List.pairwise_iff_getElem]
  intro i j hi hj hij
  exact h.entryHash_ne hS hij hj

theorem Listed.eq_of_leaves (hS : Sound sha256 strings)
    (h : Listed sha256 strings session entries) (h' : Listed sha256 strings session entries')
    (he : entries.map EvidenceEntry.entryHash = entries'.map EvidenceEntry.entryHash) :
    entries = entries' := by
  have hlen : entries.length = entries'.length := by
    simpa using congrArg List.length he
  apply List.ext_getElem hlen
  intro k hk hk'
  have hhash : entries[k].entryHash = entries'[k].entryHash := by
    have hget := List.getElem_of_eq he (show k < (entries.map _).length by simpa using hk)
    simpa using hget
  have hfields := (entryString_inj (h.entryString_eq hS h' hk hk' hhash)).2
  have hseq := (verifyChain_getElem h.chain hk).sequence
  rw [← (verifyChain_getElem h'.chain hk').sequence] at hseq
  rcases hA : entries[k] with ⟨s, c, n, d, p, x⟩
  rcases hB : entries'[k] with ⟨s', c', n', d', p', x'⟩
  rw [hA, hB] at hhash hfields hseq
  simp only at hhash hfields hseq
  rw [hhash, hseq, hfields.1, hfields.2.1, hfields.2.2.1, hfields.2.2.2]

/-- No leaf is an inner node: entry strings are longer than node strings. -/
theorem Listed.leaf_not_node (hS : Sound sha256 strings)
    (h : Listed sha256 strings session entries) {x : Hash}
    (hx : x ∈ entries.map EvidenceEntry.entryHash) : ¬IsNode sha256 strings x := by
  rintro ⟨l, r, hs, rfl⟩
  rcases List.mem_map.mp hx with ⟨e, he, heq⟩
  rcases List.getElem_of_mem he with ⟨k, hk, rfl⟩
  rw [(h.entry hk).2] at heq
  exact entryString_ne_nodeString (hS.inj _ (h.entry hk).1 _ hs heq)

theorem Listed.root_ne_zero (hS : Sound sha256 strings)
    (h : Listed sha256 strings session entries) (hne : entries ≠ []) :
    merkleRoot sha256 (entries.map EvidenceEntry.entryHash) ≠ zeroHash := by
  rcases merkleRoot_rooted (by simpa using hne) h.tree with ⟨depth, hr⟩
  rcases hr.root_mem with hmem | ⟨l, r, hs, heq⟩
  · rcases List.mem_map.mp hmem with ⟨e, he, heq⟩
    rcases List.getElem_of_mem he with ⟨k, hk, rfl⟩
    rw [← heq, (h.entry hk).2]
    exact hS.nonzero _ (h.entry hk).1
  · rw [heq]
    exact hS.nonzero _ hs

/-- The leaves of the shallower tree cannot be inner nodes of the deeper one. -/
theorem Listed.depth_ge (hS : Sound sha256 strings)
    (h : Listed sha256 strings session entries) (h' : Listed sha256 strings session entries')
    (hne : entries ≠ []) {d d' : ℕ} {root : Hash}
    (hr : Rooted sha256 strings d (entries.map EvidenceEntry.entryHash) root)
    (hr' : Rooted sha256 strings d' (entries'.map EvidenceEntry.entryHash) root) : d' ≤ d := by
  by_contra hlt
  rcases Nat.exists_eq_add_of_lt (Nat.lt_of_not_le hlt) with ⟨rounds, rfl⟩
  rcases Rooted.ascend hS (show Rooted sha256 strings (d + (rounds + 1)) _ root from hr')
    (h'.leaves_nodup hS) with ⟨upper, hup, hn, hnode⟩
  have heq := hr.level_eq hS hup (h.leaves_nodup hS) hn
  rcases List.exists_mem_of_ne_nil entries hne with ⟨e, he⟩
  have hmem : e.entryHash ∈ entries.map EvidenceEntry.entryHash := List.mem_map_of_mem he
  exact h.leaf_not_node hS hmem (hnode _ (heq ▸ hmem))

theorem Listed.eq_of_root (hS : Sound sha256 strings)
    (h : Listed sha256 strings session entries) (h' : Listed sha256 strings session entries')
    (hroot : merkleRoot sha256 (entries.map EvidenceEntry.entryHash) =
      merkleRoot sha256 (entries'.map EvidenceEntry.entryHash)) : entries = entries' := by
  by_cases hne : entries = []
  · by_cases hne' : entries' = []
    · rw [hne, hne']
    · rw [hne] at hroot
      exact absurd hroot.symm (h'.root_ne_zero hS hne')
  · by_cases hne' : entries' = []
    · rw [hne'] at hroot
      exact absurd hroot (h.root_ne_zero hS hne)
    · rcases merkleRoot_rooted (by simpa using hne) h.tree with ⟨d, hr⟩
      rcases merkleRoot_rooted (by simpa using hne') h'.tree with ⟨d', hr'⟩
      rw [← hroot] at hr'
      have hd := Nat.le_antisymm (h'.depth_ge hS h hne' hr' hr) (h.depth_ge hS h' hne hr hr')
      subst hd
      exact h.eq_of_leaves hS h' (hr.level_eq hS hr' (h.leaves_nodup hS) (h'.leaves_nodup hS))

end Chains

/-- Two verified logs of a session with one root are equal, or among the strings
hashed for them are two with the same digest or one with the zero digest. -/
theorem merkleRoot_binds_log (sha256 : List UInt8 → Hash) (session : Pubkey)
    (a b : List EvidenceEntry) (ha : verifyChain sha256 session a = .ok ())
    (hb : verifyChain sha256 session b = .ok ())
    (hroot : (MerkleTree.new sha256 (a.map EvidenceEntry.entryHash)).root =
      (MerkleTree.new sha256 (b.map EvidenceEntry.entryHash)).root) :
    a = b ∨
      (∃ x ∈ hashedStrings sha256 session a ++ hashedStrings sha256 session b,
        ∃ y ∈ hashedStrings sha256 session a ++ hashedStrings sha256 session b,
          x ≠ y ∧ sha256 x = sha256 y) ∨
      ∃ x ∈ hashedStrings sha256 session a ++ hashedStrings sha256 session b,
        sha256 x = zeroHash := by
  by_contra hnot
  rw [not_or, not_or] at hnot
  rcases hnot with ⟨hne, hcoll, hzero⟩
  have hS : Sound sha256 (hashedStrings sha256 session a ++ hashedStrings sha256 session b) := by
    constructor
    · intro x hx y hy he
      by_contra hxy
      exact hcoll ⟨x, hx, y, hy, hxy, he⟩
    · intro x hx he
      exact hzero ⟨x, hx, he⟩
  have hA : Listed sha256 (hashedStrings sha256 session a ++ hashedStrings sha256 session b)
      session a := ⟨ha, List.subset_append_left _ _⟩
  have hB : Listed sha256 (hashedStrings sha256 session a ++ hashedStrings sha256 session b)
      session b := ⟨hb, List.subset_append_right _ _⟩
  exact hne (hA.eq_of_root hS hB hroot)

/-! ### A concrete log

Three entries, so that the leaf level is odd, with the digests SHA-256 gives. -/
namespace Ledger

def session : Pubkey := .filled 21

def first : Hash := #v[136, 73, 118, 123, 242, 41, 58, 227, 36, 45, 9, 100, 246, 186, 173, 215, 196,
  26, 94, 114, 24, 29, 204, 181, 108, 198, 154, 25, 96, 109, 40, 9]

def second : Hash := #v[74, 74, 12, 144, 108, 251, 73, 195, 73, 52, 83, 172, 68, 136, 52, 114, 43,
  18, 62, 111, 246, 209, 249, 237, 247, 66, 208, 99, 192, 138, 52, 10]

def third : Hash := #v[62, 125, 187, 244, 180, 165, 94, 121, 162, 127, 232, 125, 249, 197, 141, 155,
  159, 16, 44, 242, 175, 48, 8, 146, 55, 21, 161, 44, 67, 100, 25, 167]

def leftNode : Hash := #v[165, 26, 220, 106, 249, 106, 18, 9, 44, 68, 249, 115, 134, 44, 165, 158,
  9, 4, 79, 199, 228, 131, 50, 236, 52, 191, 160, 35, 0, 16, 206, 178]

def rightNode : Hash := #v[156, 168, 136, 23, 253, 71, 80, 42, 243, 104, 163, 145, 177, 213, 191,
  42, 154, 254, 38, 205, 78, 189, 89, 115, 109, 222, 157, 153, 237, 112, 29, 126]

def root : Hash := #v[231, 214, 125, 230, 220, 12, 202, 253, 128, 80, 185, 249, 120, 165, 155, 217,
  118, 112, 171, 165, 217, 234, 92, 199, 25, 123, 156, 104, 252, 154, 189, 50]

def entries : List EvidenceEntry :=
  [⟨0, 100, 1, Decision.allowed.asStr, zeroHash, first⟩,
    ⟨1, 100, 1, Decision.notMonotonic.asStr, first, second⟩,
    ⟨2, 250, 2, Decision.allowed.asStr, second, third⟩]

def hashes : List (List UInt8 × Hash) :=
  (entries.map fun e => (entryString session e, e.entryHash)) ++
    [(nodeString first second, leftNode), (nodeString third third, rightNode),
      (nodeString leftNode rightNode, root)]

def sha256 (message : List UInt8) : Hash :=
  match hashes.find? fun e => e.1 = message with
  | some e => e.2
  | none => zeroHash

end Ledger

/-- The three entries verify, and their root is the published one. -/
theorem merkleRoot_binds_log_ledger :
    verifyChain Ledger.sha256 Ledger.session Ledger.entries = .ok () ∧
      (MerkleTree.new Ledger.sha256 (Ledger.entries.map EvidenceEntry.entryHash)).root =
        Ledger.root ∧
      (Ledger.entries = Ledger.entries ∨
        (∃ x ∈ hashedStrings Ledger.sha256 Ledger.session Ledger.entries ++
            hashedStrings Ledger.sha256 Ledger.session Ledger.entries,
          ∃ y ∈ hashedStrings Ledger.sha256 Ledger.session Ledger.entries ++
              hashedStrings Ledger.sha256 Ledger.session Ledger.entries,
            x ≠ y ∧ Ledger.sha256 x = Ledger.sha256 y) ∨
        ∃ x ∈ hashedStrings Ledger.sha256 Ledger.session Ledger.entries ++
          hashedStrings Ledger.sha256 Ledger.session Ledger.entries,
          Ledger.sha256 x = zeroHash) := by
  have hchain : verifyChain Ledger.sha256 Ledger.session Ledger.entries = .ok () := by
    decide +kernel
  have hroot : (MerkleTree.new Ledger.sha256 (Ledger.entries.map EvidenceEntry.entryHash)).root =
      Ledger.root := by
    decide +kernel
  exact ⟨hchain, hroot, merkleRoot_binds_log _ _ _ _ hchain hchain rfl⟩

end AgentPay.EvidenceBinding
