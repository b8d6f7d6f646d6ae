import AgentPay.EscrowState

/-!
# The signed claim message and its introspection

`buildClaimMessage` and `verifyEd25519Claim` of the program, byte for byte. The
precompile instruction is read from the instructions sysvar; every read of its
data goes through `byteAt` or `slice`, which fault when the source would index
out of range.
-/
namespace AgentPay.ClaimMessage
open SolanaRuntime EscrowState Fallible

/-- The low `w` bytes of a number, least significant first. -/
def leBytes : ℕ → ℕ → List UInt8
  | 0, _ => []
  | w+1, n => UInt8.ofNat n :: leBytes w (n / 256)

def u64LeBytes (x : UInt64) : List UInt8 := leBytes 8 x.toNat

/-- Two's complement, as `i64::to_le_bytes`. -/
def i64LeBytes (x : Int64) : List UInt8 := leBytes 8 x.toUInt64.toNat

/-- The bytes of `"agentpay:claim:v1"`. -/
def claimDomain : List UInt8 :=
  [97, 103, 101, 110, 116, 112, 97, 121, 58, 99, 108, 97, 105, 109, 58, 118, 49]

def buildClaimMessage (session : Pubkey) (cumulativeAmount nonce : UInt64)
    (claimExpiresAt : Int64) : List UInt8 :=
  claimDomain ++ session.toList ++ u64LeBytes cumulativeAmount ++ u64LeBytes nonce ++
    i64LeBytes claimExpiresAt

/-- `Ed25519SigVerify111111111111111111111111111`. -/
def ed25519ProgramId : Pubkey := #v[3, 125, 70, 214, 124, 147, 251, 190, 18, 249, 66, 143, 131,
  141, 64, 255, 5, 112, 116, 73, 39, 244, 138, 100, 252, 202, 112, 68, 128, 0, 0, 0]

/-- One instruction of the transaction, as far as the sysvar is read. -/
structure Instruction where
  programId : Pubkey
  data : List UInt8
deriving DecidableEq

/-- The instructions sysvar: the transaction and the running instruction. -/
structure InstructionsSysvar where
  instructions : List Instruction
  currentIndex : ℕ
deriving DecidableEq

def byteAt (data : List UInt8) (i : ℕ) : Except Fault UInt8 := okOr data[i]? .panic

def slice (data : List UInt8) (lo hi : ℕ) : Except Fault (List UInt8) := do
  require (lo ≤ hi ∧ hi ≤ data.length) Fault.panic
  pure ((data.drop lo).take (hi - lo))

/-- `u16::from_le_bytes([data[at], data[at + 1]])`. -/
def readU16 (data : List UInt8) (i : ℕ) : Except Fault ℕ := do
  let lo ← byteAt data i
  let hi ← byteAt data (i + 1)
  pure (lo.toNat + 256 * hi.toNat)

def u16Max : ℕ := 65535

/-- The header fields are at most `u16::MAX`, so the checked additions on
`usize` cannot fail and are plain additions. -/
def verifyEd25519Claim (sysvar : InstructionsSysvar) (expectedSigner : Pubkey)
    (expectedMessage : List UInt8) : Except Fault Unit := do
  require (0 < sysvar.currentIndex) (.program .missingEd25519Instruction)
  let ix ← okOr sysvar.instructions[sysvar.currentIndex - 1]? (.program .missingEd25519Instruction)
  require (ix.programId = ed25519ProgramId) (.program .missingEd25519Instruction)
  let data := ix.data
  require (16 ≤ data.length) (.program .malformedEd25519Instruction)
  let count ← byteAt data 0
  require (count = 1) (.program .malformedEd25519Instruction)
  let padding ← byteAt data 1
  require (padding = 0) (.program .malformedEd25519Instruction)
  let signatureOffset ← readU16 data 2
  let signatureIxIndex ← readU16 data 4
  let publicKeyOffset ← readU16 data 6
  let publicKeyIxIndex ← readU16 data 8
  let messageOffset ← readU16 data 10
  let messageSize ← readU16 data 12
  let messageIxIndex ← readU16 data 14
  require (signatureIxIndex = u16Max ∧ publicKeyIxIndex = u16Max ∧ messageIxIndex = u16Max)
    (.program .ed25519IndirectReference)
  require (messageSize = expectedMessage.length) (.program .claimMessageMismatch)
  let sigEnd := signatureOffset + 64
  let keyEnd := publicKeyOffset + 32
  let msgEnd := messageOffset + messageSize
  require (sigEnd ≤ data.length ∧ keyEnd ≤ data.length ∧ msgEnd ≤ data.length)
    (.program .malformedEd25519Instruction)
  let key ← slice data publicKeyOffset keyEnd
  require (key = expectedSigner.toList) (.program .claimSignerMismatch)
  let message ← slice data messageOffset msgEnd
  require (message = expectedMessage) (.program .claimMessageMismatch)

def u16LeBytes (n : ℕ) : List UInt8 := leBytes 2 n

/-- The sixteen bytes before the key, the signature and the message. -/
def ed25519Header (messageSize : ℕ) : List UInt8 :=
  [1, 0] ++ u16LeBytes 48 ++ u16LeBytes u16Max ++ u16LeBytes 16 ++ u16LeBytes u16Max ++
    u16LeBytes 112 ++ u16LeBytes messageSize ++ u16LeBytes u16Max

/-- The precompile instruction the gateway and the clients put before theirs. -/
def buildEd25519Instruction (signer : Pubkey) (signature : Vector UInt8 64)
    (message : List UInt8) : Instruction where
  programId := ed25519ProgramId
  data := ed25519Header message.length ++ (signer.toList ++ (signature.toList ++ message))

section RoundTrip
variable {signer : Pubkey} {signature : Vector UInt8 64} {message : List UInt8}

theorem length_ed25519Header {n : ℕ} : (ed25519Header n).length = 16 := rfl

theorem slice_append {x y z : List UInt8} {lo hi : ℕ} (hlo : lo = x.length)
    (hhi : hi = x.length + y.length) : slice (x ++ (y ++ z)) lo hi = .ok y := by
  subst hlo hhi
  simp only [slice, bind_eq_ok, require_eq_ok, pure_eq_ok, exists_const]
  refine ⟨⟨by omega, by simp⟩, ?_⟩
  simp

theorem readU16_messageSize (h : message.length < 2 ^ 16) :
    readU16 (buildEd25519Instruction signer signature message).data 12 = .ok message.length := by
  have hm : message.length % 256 + 256 * (message.length / 256 % 256) = message.length := by omega
  simpa [readU16, byteAt, buildEd25519Instruction, ed25519Header, u16LeBytes, leBytes, okOr,
    bind, Except.bind, pure, Except.pure] using hm

theorem verify_buildEd25519Instruction (h : message.length < 2 ^ 16) {rest : List Instruction} :
    verifyEd25519Claim ⟨buildEd25519Instruction signer signature message :: rest, 1⟩ signer message =
      .ok () := by
  have hlen : (buildEd25519Instruction signer signature message).data.length =
      112 + message.length := by
    simp [buildEd25519Instruction, length_ed25519Header]
    omega
  have hkey : slice (buildEd25519Instruction signer signature message).data 16 48 =
      .ok signer.toList := slice_append rfl (by simp [length_ed25519Header])
  have hmsg : slice (buildEd25519Instruction signer signature message).data 112
      (112 + message.length) = .ok message := by
    have hs := @slice_append (ed25519Header message.length ++ (signer.toList ++ signature.toList))
      message [] 112 (112 + message.length) (by simp [length_ed25519Header])
      (by simp [length_ed25519Header])
    simpa [buildEd25519Instruction] using hs
  have hread := @readU16_messageSize signer signature message h
  simp only [verifyEd25519Claim, bind_eq_ok, require_eq_ok, okOr_eq_ok]
  refine ⟨⟨⟩, by decide, _, rfl, ⟨⟩, rfl, ⟨⟩, by rw [hlen]; omega, 1, rfl, ⟨⟩, rfl, 0, rfl, ⟨⟩, rfl,
    48, rfl, u16Max, rfl, 16, rfl, u16Max, rfl, 112, rfl, _, hread, u16Max, rfl, ⟨⟩, ⟨rfl, rfl, rfl⟩,
    ⟨⟩, rfl, ⟨⟩, by rw [hlen]; omega, _, hkey, ⟨⟩, rfl, _, hmsg, rfl⟩

end RoundTrip

end AgentPay.ClaimMessage
