import AgentPay.ByteBuffers
import AgentPay.EvidenceBinding
import AgentPay.GatewayClaims

/-!
# Three encoders of one message

The SDK, the gateway and the program each write the signed message themselves: the
SDK with a running offset into a Node buffer, the gateway into fixed slices of an
array, the program by appending to a vector. They agree byte for byte. The settle
instruction the gateway builds decodes to the claim it was built from, and its
signature check passes the program's introspection wherever it stands in the
transaction.
-/
namespace AgentPay.ClaimEncoding
open SolanaRuntime EscrowState ClaimMessage EscrowProgram GatewayClaims Fallible
open ByteBuffers EvidenceBinding

def claimMessageLen : ℕ := 17 + 32 + 8 + 8 + 8

/-! ### The SDK -/

/-- What the SDK throws: its own errors by their text, and Node's `ERR_OUT_OF_RANGE`. -/
inductive JsError where
  | error (message : String)
  | outOfRange
deriving DecidableEq

/-- `ClaimFields`; a `bigint` has any size and sign. -/
structure ClaimFields where
  session : List UInt8
  cumulativeAmount : ℤ
  nonce : ℤ
  expiresAt : ℤ
deriving DecidableEq

/-- `src.copy(buf, o)`, which copies no more than fits. -/
def bufferCopy (src buf : List UInt8) (o : ℕ) : List UInt8 :=
  splice buf o (src.take (buf.length - o))

def writeBigUInt64LE (buf : List UInt8) (value : ℤ) (o : ℕ) : Except JsError (List UInt8) := do
  require (0 ≤ value ∧ value < 2 ^ 64) .outOfRange
  require (o + 8 ≤ buf.length) .outOfRange
  pure (splice buf o (leBytes 8 value.toNat))

def writeBigInt64LE (buf : List UInt8) (value : ℤ) (o : ℕ) : Except JsError (List UInt8) := do
  require (-2 ^ 63 ≤ value ∧ value < 2 ^ 63) .outOfRange
  require (o + 8 ≤ buf.length) .outOfRange
  pure (splice buf o (leBytes 8 (value % 2 ^ 64).toNat))

def claimMessage (fields : ClaimFields) : Except JsError (List UInt8) := do
  require (fields.session.length = 32)
    (.error ("session must be 32 bytes, got " ++ toString fields.session.length ++ ". " ++
      "Pass the session PDA's raw bytes, not its base58 string."))
  require (¬(fields.cumulativeAmount < 0 ∨ fields.nonce < 0))
    (.error "cumulativeAmount and nonce must not be negative")
  let buf := List.replicate claimMessageLen 0
  let o := 0
  let buf := bufferCopy claimDomain buf o
  let o := o + claimDomain.length
  let buf := bufferCopy fields.session buf o
  let o := o + 32
  let buf ← writeBigUInt64LE buf fields.cumulativeAmount o
  let o := o + 8
  let buf ← writeBigUInt64LE buf fields.nonce o
  let o := o + 8
  writeBigInt64LE buf fields.expiresAt o

/-- The fields of a claim as the SDK holds them. -/
def fieldsOf (c : Claim) : ClaimFields :=
  ⟨c.session.toList, c.cumulativeAmount.toNat, c.nonce.toNat, c.expiresAt.toInt⟩

/-! ### The gateway -/

def offDomain : ℕ := 0
def offSession : ℕ := 17
def offCumulative : ℕ := 49
def offNonce : ℕ := 57
def offExpiry : ℕ := 65

/-- `buf[lo..hi].copy_from_slice(src)`; `none` where it panics. -/
def copyFromSlice (buf : List UInt8) (lo hi : ℕ) (src : List UInt8) : Option (List UInt8) :=
  if lo ≤ hi ∧ hi ≤ buf.length ∧ src.length = hi - lo then some (splice buf lo src) else none

/-- `signing_bytes` with its slices, where `Claim.signingBytes` has only its value. -/
def Claim.signingBuffer (c : Claim) : Option (List UInt8) := do
  let buf := List.replicate claimMessageLen 0
  let buf ← copyFromSlice buf offDomain offSession claimDomain
  let buf ← copyFromSlice buf offSession offCumulative c.session.toList
  let buf ← copyFromSlice buf offCumulative offNonce (u64LeBytes c.cumulativeAmount)
  let buf ← copyFromSlice buf offNonce offExpiry (u64LeBytes c.nonce)
  copyFromSlice buf offExpiry buf.length (i64LeBytes c.expiresAt)

/-- `Sysvar1nstructions1111111111111111111111111`. -/
def instructionsSysvarId : Pubkey := #v[6, 167, 213, 23, 24, 123, 209, 102, 53, 218, 212, 4, 85,
  253, 194, 192, 193, 36, 198, 143, 33, 86, 117, 165, 219, 186, 203, 95, 8, 0, 0, 0]

structure AccountMeta where
  pubkey : Pubkey
  isSigner : Bool
  isWritable : Bool
deriving DecidableEq

/-- An instruction as a client sends it: what the sysvar shows, and the accounts. -/
structure SentInstruction extends Instruction where
  accounts : List AccountMeta
deriving DecidableEq

/-- The first eight bytes of `sha256("global:<instruction_name>")`. -/
def anchorDiscriminator (sha256 : List UInt8 → Hash) (instructionName : String) : List UInt8 :=
  (sha256 ("global:" ++ instructionName).toUTF8.toList).toList.take 8

def buildSettleInstruction (sha256 : List UInt8 → Hash) (programId : Pubkey)
    (a : SettleAccounts) (claim : Claim) (merkleRoot : Hash) : SentInstruction where
  programId := programId
  data := anchorDiscriminator sha256 "settle_session" ++
    (u64LeBytes claim.cumulativeAmount ++ (u64LeBytes claim.nonce ++
      (i64LeBytes claim.expiresAt ++ merkleRoot.toList)))
  accounts :=
    [⟨a.settler, true, true⟩, ⟨a.session, false, true⟩, ⟨a.settlementRecord, false, true⟩,
      ⟨a.vault, false, true⟩, ⟨a.providerTokenAccount, false, true⟩, ⟨a.mint, false, false⟩,
      ⟨instructionsSysvarId, false, false⟩, ⟨a.tokenProgram, false, false⟩,
      ⟨systemProgramId, false, false⟩]

/-! ### The program's entry -/

def ofLeBytes : List UInt8 → ℕ
  | [] => 0
  | b::bs => b.toNat + 256 * ofLeBytes bs

theorem leBytes_ofLeBytes (bytes : List UInt8) :
    leBytes bytes.length (ofLeBytes bytes) = bytes := by
  induction bytes with
  | nil => rfl
  | cons b bytes ih =>
    have hb := b.toNat_lt
    have hlow : UInt8.ofNat (b.toNat + 256 * ofLeBytes bytes) = b := by
      rw [← UInt8.toNat_inj, UInt8.toNat_ofNat']
      omega
    have hhigh : (b.toNat + 256 * ofLeBytes bytes) / 256 = ofLeBytes bytes := by omega
    rw [List.length_cons, leBytes, ofLeBytes, hlow, hhigh, ih]

theorem ofLeBytes_lt (bytes : List UInt8) : ofLeBytes bytes < 256 ^ bytes.length := by
  induction bytes with
  | nil => exact Nat.one_pos
  | cons b bytes ih =>
    have hb := b.toNat_lt
    rw [ofLeBytes, List.length_cons, pow_succ]
    omega

def readU64 (data : List UInt8) : Option (UInt64 × List UInt8) := do
  let (b, data) ← take? 8 data
  some (UInt64.ofNat (ofLeBytes b), data)

def readI64 (data : List UInt8) : Option (Int64 × List UInt8) := do
  let (x, data) ← readU64 data
  some (x.toInt64, data)

def readHash (data : List UInt8) : Option (Hash × List UInt8) := do
  let (b, data) ← take? 32 data
  if h : b.length = 32 then some (⟨b.toArray, by simpa using h⟩, data) else none

/-- What Anchor does before `settle_session` runs: the discriminator, then the
arguments in the order they are declared. -/
def decodeSettleArgs (sha256 : List UInt8 → Hash) (data : List UInt8) : Option SettleArgs := do
  let (tag, data) ← take? 8 data
  if tag = anchorDiscriminator sha256 "settle_session" then
    let (cumulativeAmount, data) ← readU64 data
    let (nonce, data) ← readU64 data
    let (claimExpiresAt, data) ← readI64 data
    let (merkleRoot, _) ← readHash data
    some ⟨cumulativeAmount, nonce, claimExpiresAt, merkleRoot⟩
  else none

/-! ### Writing -/

section Writing
variable {written src buf : List UInt8} {o n : ℕ} {value : ℤ} {c : Claim} {f : ClaimFields}

theorem toInt_emod (x : Int64) : x.toInt % 2 ^ 64 = x.toUInt64.toNat := by
  have hb : x.toInt = (x.toUInt64.toNat : ℤ).bmod (2 ^ 64) :=
    BitVec.toInt_eq_toNat_bmod x.toBitVec
  have he := @Int.bmod_emod (x.toUInt64.toNat : ℤ) (2 ^ 64)
  have hlt := x.toUInt64.toNat_lt
  rw [← hb] at he
  push_cast at he
  omega

theorem i64LeBytes_eq (x : Int64) : i64LeBytes x = leBytes 8 (x.toInt % 2 ^ 64).toNat := by
  rw [toInt_emod]
  rfl

theorem length_i64LeBytes (x : Int64) : (i64LeBytes x).length = 8 := length_leBytes 8 _

theorem bufferCopy_fresh (ho : o = written.length) (hsrc : src.length ≤ n) :
    bufferCopy src (written ++ List.replicate n 0) o =
      written ++ src ++ List.replicate (n - src.length) 0 := by
  unfold bufferCopy
  have hroom : src.length ≤ (written ++ List.replicate n (0 : UInt8)).length - o := by
    simp only [List.length_append, List.length_replicate]
    omega
  rw [List.take_of_length_le hroom, splice_fresh ho]

theorem writeBigUInt64LE_fresh (ho : o = written.length) (hn : 8 ≤ n) :
    writeBigUInt64LE (written ++ List.replicate n 0) value o = .ok buf ↔
      (0 ≤ value ∧ value < 2 ^ 64) ∧
        buf = written ++ leBytes 8 value.toNat ++ List.replicate (n - 8) 0 := by
  have hroom : o + 8 ≤ (written ++ List.replicate n (0 : UInt8)).length := by
    simp only [List.length_append, List.length_replicate]
    omega
  simp only [writeBigUInt64LE, bind_eq_ok, require_eq_ok, pure_eq_ok, exists_const, hroom,
    true_and, splice_fresh ho, length_leBytes]
  exact and_congr_right fun _ => eq_comm

theorem writeBigInt64LE_fresh (ho : o = written.length) (hn : 8 ≤ n) :
    writeBigInt64LE (written ++ List.replicate n 0) value o = .ok buf ↔
      (-2 ^ 63 ≤ value ∧ value < 2 ^ 63) ∧
        buf = written ++ leBytes 8 (value % 2 ^ 64).toNat ++ List.replicate (n - 8) 0 := by
  have hroom : o + 8 ≤ (written ++ List.replicate n (0 : UInt8)).length := by
    simp only [List.length_append, List.length_replicate]
    omega
  simp only [writeBigInt64LE, bind_eq_ok, require_eq_ok, pure_eq_ok, exists_const, hroom,
    true_and, splice_fresh ho, length_leBytes]
  exact and_congr_right fun _ => eq_comm

theorem copyFromSlice_fresh {hi : ℕ} (ho : o = written.length) (hhi : hi = o + src.length)
    (hsrc : src.length ≤ n) :
    copyFromSlice (written ++ List.replicate n 0) o hi src =
      some (written ++ src ++ List.replicate (n - src.length) 0) := by
  unfold copyFromSlice
  rw [if_pos, splice_fresh ho]
  simp only [List.length_append, List.length_replicate]
  omega

/-- The fields the SDK encodes: a whole key, and amounts that fit. -/
structure Encodable (f : ClaimFields) : Prop where
  session : f.session.length = 32
  cumulativeAmount : 0 ≤ f.cumulativeAmount ∧ f.cumulativeAmount < 2 ^ 64
  nonce : 0 ≤ f.nonce ∧ f.nonce < 2 ^ 64
  expiresAt : -2 ^ 63 ≤ f.expiresAt ∧ f.expiresAt < 2 ^ 63

theorem claimMessage_eq_ok : claimMessage f = .ok buf ↔ Encodable f ∧
    buf = claimDomain ++ f.session ++ leBytes 8 f.cumulativeAmount.toNat ++
      leBytes 8 f.nonce.toNat ++ leBytes 8 (f.expiresAt % 2 ^ 64).toNat := by
  have hdomain : bufferCopy claimDomain (List.replicate claimMessageLen 0) 0 =
      claimDomain ++ List.replicate 56 0 := @bufferCopy_fresh [] claimDomain 0 73 rfl (by decide)
  have hsession (hlen : f.session.length = 32) :
      bufferCopy f.session (claimDomain ++ List.replicate 56 0) (0 + claimDomain.length) =
        claimDomain ++ f.session ++ List.replicate 24 0 := by
    rw [bufferCopy_fresh (Nat.zero_add _) (by omega), hlen]
  simp only [claimMessage, bind_eq_ok, require_eq_ok, exists_const, hdomain]
  constructor
  · rintro ⟨hlen, -, a, ha, b, hb, he⟩
    rw [hsession hlen] at ha
    obtain ⟨hamount, rfl⟩ := (writeBigUInt64LE_fresh (by simp [hlen]) (by decide)).mp ha
    obtain ⟨hnonce, rfl⟩ := (writeBigUInt64LE_fresh (by simp [hlen, length_leBytes])
      (by decide)).mp hb
    obtain ⟨hexpiry, rfl⟩ := (writeBigInt64LE_fresh (by simp [hlen, length_leBytes])
      (by decide)).mp he
    exact ⟨⟨hlen, hamount, hnonce, hexpiry⟩, List.append_nil _⟩
  · rintro ⟨⟨hlen, ha, hb, he⟩, rfl⟩
    rw [hsession hlen]
    have hamount := (@writeBigUInt64LE_fresh (claimDomain ++ f.session) _
      (0 + claimDomain.length + 32) 24 f.cumulativeAmount (by simp [hlen])
      (by decide)).mpr ⟨ha, rfl⟩
    have hnonce := (@writeBigUInt64LE_fresh (claimDomain ++ f.session ++
      leBytes 8 f.cumulativeAmount.toNat) _ (0 + claimDomain.length + 32 + 8) 16 f.nonce
      (by simp [hlen, length_leBytes]) (by decide)).mpr ⟨hb, rfl⟩
    have hexpiry := (@writeBigInt64LE_fresh (claimDomain ++ f.session ++
      leBytes 8 f.cumulativeAmount.toNat ++ leBytes 8 f.nonce.toNat) _
      (0 + claimDomain.length + 32 + 8 + 8) 8 f.expiresAt
      (by simp [hlen, length_leBytes]) (by decide)).mpr ⟨he, (List.append_nil _).symm⟩
    exact ⟨hlen, by omega, _, hamount, _, hnonce, hexpiry⟩

/-- The slices of the gateway's array are the concatenation, and none of them panics. -/
theorem signingBuffer_eq (c : Claim) : Claim.signingBuffer c = some c.signingBytes := by
  have hdomain : copyFromSlice (List.replicate claimMessageLen 0) offDomain offSession
      claimDomain = some (claimDomain ++ List.replicate 56 0) :=
    @copyFromSlice_fresh [] claimDomain 0 73 17 rfl rfl (by decide)
  have hsession := @copyFromSlice_fresh claimDomain c.session.toList offSession 56 offCumulative
    rfl (by simp [offSession, offCumulative]) (by simp)
  have hamount := @copyFromSlice_fresh (claimDomain ++ c.session.toList)
    (u64LeBytes c.cumulativeAmount) offCumulative 24 offNonce
    (by simp [offCumulative, claimDomain]) (by simp [offCumulative, offNonce, length_u64LeBytes])
    (by simp [length_u64LeBytes])
  have hnonce := @copyFromSlice_fresh (claimDomain ++ c.session.toList ++
    u64LeBytes c.cumulativeAmount) (u64LeBytes c.nonce) offNonce 16 offExpiry
    (by simp [offNonce, claimDomain, length_u64LeBytes])
    (by simp [offNonce, offExpiry, length_u64LeBytes]) (by simp [length_u64LeBytes])
  have hexpiry := @copyFromSlice_fresh (claimDomain ++ c.session.toList ++
    u64LeBytes c.cumulativeAmount ++ u64LeBytes c.nonce) (i64LeBytes c.expiresAt) offExpiry 8
    claimMessageLen (by simp [offExpiry, claimDomain, length_u64LeBytes])
    (by simp [offExpiry, claimMessageLen, length_i64LeBytes]) (by simp [length_i64LeBytes])
  simp only [Vector.length_toList, length_u64LeBytes] at hsession hamount hnonce
  rw [length_i64LeBytes] at hexpiry
  have hlen : (claimDomain ++ c.session.toList ++ u64LeBytes c.cumulativeAmount ++
      u64LeBytes c.nonce ++ List.replicate 8 0).length = claimMessageLen := by
    simp [claimDomain, length_u64LeBytes, claimMessageLen]
  simp only [Claim.signingBuffer, Option.bind_eq_bind, hdomain, Option.bind_some, hsession,
    Nat.reduceSub, hamount, hnonce, hlen, hexpiry, List.replicate_zero, List.append_nil,
    Claim.signingBytes]

theorem encodable_fieldsOf (c : Claim) : Encodable (fieldsOf c) := by
  have ha := c.cumulativeAmount.toNat_lt
  have hn := c.nonce.toNat_lt
  refine ⟨Vector.length_toList, ?_, ?_, c.expiresAt.le_toInt, c.expiresAt.toInt_lt⟩
  · simp only [fieldsOf]
    omega
  · simp only [fieldsOf]
    omega

theorem claimMessage_fieldsOf (c : Claim) : claimMessage (fieldsOf c) = .ok c.signingBytes := by
  rw [claimMessage_eq_ok]
  refine ⟨encodable_fieldsOf c, ?_⟩
  simp only [fieldsOf, Int.toNat_natCast, ← i64LeBytes_eq]
  rfl

theorem length_signingBytes (c : Claim) : c.signingBytes.length = claimMessageLen := by
  simp only [Claim.signingBytes, List.length_append, Vector.length_toList, length_u64LeBytes,
    length_i64LeBytes]
  rfl

/-- Fields of fixed width, so the message can be cut in only one way. -/
theorem claimMessage_inj {f g : ClaimFields} (hfm : claimMessage f = .ok buf)
    (hgm : claimMessage g = .ok buf) : f = g := by
  obtain ⟨hf, rfl⟩ := claimMessage_eq_ok.mp hfm
  obtain ⟨hg, h⟩ := claimMessage_eq_ok.mp hgm
  have h₁ := List.append_inj h (by simp [length_leBytes, hf.session, hg.session])
  have h₂ := List.append_inj h₁.1 (by simp [length_leBytes, hf.session, hg.session])
  have h₃ := List.append_inj h₂.1 (by simp [hf.session, hg.session])
  have hsession := List.append_cancel_left h₃.1
  have hfa := hf.cumulativeAmount
  have hga := hg.cumulativeAmount
  have hfn := hf.nonce
  have hgn := hg.nonce
  have hfe := hf.expiresAt
  have hge := hg.expiresAt
  have hamount := leBytes_inj 8 (by omega) (by omega) h₃.2
  have hnonce := leBytes_inj 8 (by omega) (by omega) h₂.2
  have hexpiry := leBytes_inj 8 (by omega) (by omega) h₁.2
  rcases f with ⟨fs, fa, fn, fe⟩
  rcases g with ⟨gs, ga, gn, ge⟩
  simp only [ClaimFields.mk.injEq] at *
  exact ⟨hsession, by omega, by omega, by omega⟩

/-- Fields that fit are those of a claim. -/
theorem Encodable.claim (h : Encodable f) : ∃ c : Claim, fieldsOf c = f := by
  have hamount := h.cumulativeAmount
  have hnonce := h.nonce
  have hexp := h.expiresAt
  refine ⟨⟨⟨f.session.toArray, by simpa using h.session⟩, UInt64.ofNat f.cumulativeAmount.toNat,
    UInt64.ofNat f.nonce.toNat, Int64.ofInt f.expiresAt⟩, ?_⟩
  have ha : (UInt64.ofNat f.cumulativeAmount.toNat).toNat = f.cumulativeAmount.toNat :=
    UInt64.toNat_ofNat_of_lt' (show f.cumulativeAmount.toNat < 2 ^ 64 by omega)
  have hn : (UInt64.ofNat f.nonce.toNat).toNat = f.nonce.toNat :=
    UInt64.toNat_ofNat_of_lt' (show f.nonce.toNat < 2 ^ 64 by omega)
  have he : (Int64.ofInt f.expiresAt).toInt = f.expiresAt :=
    Int64.toInt_ofInt_of_le hexp.1 hexp.2
  rcases f with ⟨fs, fa, fn, fe⟩
  simp only [fieldsOf, ClaimFields.mk.injEq] at *
  rw [ha, hn, he]
  exact ⟨rfl, by omega, by omega, rfl⟩

theorem fieldsOf_inj {c d : Claim} (h : fieldsOf c = fieldsOf d) : c = d := by
  rcases c with ⟨cs, ca, cn, ce⟩
  rcases d with ⟨ds, da, dn, de⟩
  simp only [fieldsOf, ClaimFields.mk.injEq, Int.natCast_inj] at h
  rw [Vector.toList_inj.mp h.1, UInt64.toNat_inj.mp h.2.1, UInt64.toNat_inj.mp h.2.2.1,
    Int64.toInt_inj.mp h.2.2.2]

end Writing

/-! ### Reading -/

section Reading
variable {rest : List UInt8} {sha256 : List UInt8 → Hash}

theorem ofLeBytes_leBytes (w : ℕ) {n : ℕ} (h : n < 256 ^ w) : ofLeBytes (leBytes w n) = n := by
  induction w generalizing n with
  | zero =>
    rw [pow_zero, Nat.lt_one_iff] at h
    rw [h]
    rfl
  | succ w ih =>
    have hdiv : n / 256 < 256 ^ w := by
      rw [Nat.div_lt_iff_lt_mul (by decide), ← pow_succ]
      exact h
    rw [leBytes, ofLeBytes, ih hdiv, UInt8.toNat_ofNat']
    omega

theorem readU64_append (x : UInt64) : readU64 (u64LeBytes x ++ rest) = some (x, rest) := by
  unfold readU64
  rw [take?_append (length_u64LeBytes x)]
  simp only [Option.bind_eq_bind, Option.bind_some, u64LeBytes, ofLeBytes_leBytes 8 x.toNat_lt,
    UInt64.ofNat_toNat]

theorem readI64_append (x : Int64) : readI64 (i64LeBytes x ++ rest) = some (x, rest) := by
  have h : readU64 (i64LeBytes x ++ rest) = some (x.toUInt64, rest) := readU64_append _
  unfold readI64
  rw [h]
  rfl

theorem readHash_append (x : Hash) : readHash (x.toList ++ rest) = some (x, rest) := by
  unfold readHash
  rw [take?_append x.length_toList]
  simp only [Option.bind_eq_bind, Option.bind_some, Vector.length_toList, dite_true,
    Vector.toArray_toList]

theorem length_anchorDiscriminator {name : String} :
    (anchorDiscriminator sha256 name).length = 8 := by
  simp [anchorDiscriminator]

/-- The instruction's data decodes to the claim it was built from. -/
theorem decodeSettleArgs_build {programId : Pubkey} {a : SettleAccounts} (c : Claim)
    (root : Hash) :
    decodeSettleArgs sha256 (buildSettleInstruction sha256 programId a c root).data =
      some (c.settleArgs root) := by
  have hroot : readHash root.toList = some (root, []) := by
    simpa using @readHash_append [] root
  unfold decodeSettleArgs buildSettleInstruction
  rw [take?_append length_anchorDiscriminator]
  simp only [Option.bind_eq_bind, Option.bind_some, if_true, readU64_append, readI64_append,
    hroot, Claim.settleArgs]

end Reading

/-- The introspection looks only at the instruction before the running one. -/
theorem verifyEd25519Claim_behind {before after : List Instruction} {ix : Instruction}
    {signer : Pubkey} {message : List UInt8} :
    verifyEd25519Claim ⟨before ++ ix :: after, before.length + 1⟩ signer message =
      verifyEd25519Claim ⟨ix :: after, 1⟩ signer message := by
  have hix : (before ++ ix :: after)[before.length + 1 - 1]? = (ix :: after)[1 - 1]? := by
    simp
  simp only [verifyEd25519Claim, hix, Nat.succ_pos, Nat.lt_one_iff]

/-- The encodings of one claim, and what the program makes of the transaction built
from it. -/
structure OneEncoding (sha256 : List UInt8 → Hash) (c : Claim) : Prop where
  sdk : claimMessage (fieldsOf c) =
    .ok (buildClaimMessage c.session c.cumulativeAmount c.nonce c.expiresAt)
  gateway : Claim.signingBuffer c =
    some (buildClaimMessage c.session c.cumulativeAmount c.nonce c.expiresAt)
  length : (buildClaimMessage c.session c.cumulativeAmount c.nonce c.expiresAt).length = 73
  sdk_injective : ∀ f, claimMessage f =
    .ok (buildClaimMessage c.session c.cumulativeAmount c.nonce c.expiresAt) → f = fieldsOf c
  injective : ∀ d : Claim, buildClaimMessage d.session d.cumulativeAmount d.nonce d.expiresAt =
    buildClaimMessage c.session c.cumulativeAmount c.nonce c.expiresAt → d = c
  decoded : ∀ programId a root,
    decodeSettleArgs sha256 (buildSettleInstruction sha256 programId a c root).data =
      some (c.settleArgs root)
  verified : ∀ agent signature before after programId a root args,
    decodeSettleArgs sha256 (buildSettleInstruction sha256 programId a c root).data = some args →
    verifyEd25519Claim
        ⟨before ++ buildEd25519Instruction agent signature c.signingBytes ::
          (buildSettleInstruction sha256 programId a c root).toInstruction :: after,
          before.length + 1⟩ agent
        (buildClaimMessage c.session args.cumulativeAmount args.nonce args.claimExpiresAt) = .ok ()

/-- One encoding across the three implementations, accepted end to end: the client's bytes are
those the gateway checks and the program rebuilds, and different claims have different bytes. -/
theorem one_encoding (sha256 : List UInt8 → Hash) (c : Claim) : OneEncoding sha256 c := by
  constructor
  case sdk => exact claimMessage_fieldsOf c
  case gateway => exact signingBuffer_eq c
  case length => exact length_signingBytes c
  case sdk_injective =>
    intro f hf
    exact claimMessage_inj hf (claimMessage_fieldsOf c)
  case injective =>
    intro d hd
    have hfields : claimMessage (fieldsOf d) = .ok c.signingBytes :=
      (claimMessage_fieldsOf d).trans (congrArg Except.ok hd)
    exact fieldsOf_inj (claimMessage_inj hfields (claimMessage_fieldsOf c))
  case decoded =>
    intro programId a root
    exact decodeSettleArgs_build c root
  case verified =>
    intro agent signature before after programId a root args hargs
    rw [decodeSettleArgs_build, Option.some.injEq] at hargs
    subst hargs
    have hshort : c.signingBytes.length < 2 ^ 16 := by
      rw [length_signingBytes]
      decide
    rw [verifyEd25519Claim_behind]
    exact verify_buildEd25519Instruction hshort

end AgentPay.ClaimEncoding
