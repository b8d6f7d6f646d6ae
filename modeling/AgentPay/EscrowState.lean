import AgentPay.CheckedIntegers
import AgentPay.SolanaRuntime

/-!
# State, errors and constants of the escrow program

The two account types of the program, its error codes and its constants, as
declared in `programs/agentpay/src/lib.rs`. The source raises one
`ArithmeticOverflow` code from every checked operation; `Fault.overflow`
remembers which operation it was, and `Fault.code` forgets it again.
-/
namespace AgentPay.EscrowState
open SolanaRuntime

abbrev Hash := Vector UInt8 32
abbrev SessionId := Vector UInt8 16

/-- The program's declared id, `ApjxJKBUUd8EEAovQe74jS9qZsRCAC2bwe8hTx7TpS9m`. -/
def agentpayId : Pubkey := #v[145, 244, 12, 70, 172, 190, 183, 155, 4, 248, 81, 39, 4, 244, 237,
  223, 113, 222, 190, 53, 72, 241, 171, 103, 188, 80, 17, 109, 23, 191, 55, 248]

theorem agentpayId_ne_system : agentpayId ≠ systemProgramId := by decide +kernel

theorem agentpayId_ne_token :
    agentpayId ≠ tokenProgramId ∧ agentpayId ≠ token2022ProgramId := by decide +kernel

def maxSessionDurationSecs : Int64 := 30 * 24 * 60 * 60
def clockSkewToleranceSecs : Int64 := 30

/-- The bytes of `"session"`, `"vault"` and `"settlement"`. -/
def sessionSeed : List UInt8 := [115, 101, 115, 115, 105, 111, 110]
def vaultSeed : List UInt8 := [118, 97, 117, 108, 116]
def settlementSeed : List UInt8 := [115, 101, 116, 116, 108, 101, 109, 101, 110, 116]

structure Session where
  agent : Pubkey
  provider : Pubkey
  settlementAuthority : Pubkey
  mint : Pubkey
  vault : Pubkey
  depositedTotal : UInt64
  cumulativeSettled : UInt64
  refundedTotal : UInt64
  expiresAt : Int64
  sessionId : SessionId
  bump : UInt8
  vaultBump : UInt8
  isSettled : Bool
deriving DecidableEq

structure SettlementRecord where
  session : Pubkey
  claimHash : Hash
  merkleRoot : Hash
  settledAt : Int64
  settledAmount : UInt64
  bump : UInt8
deriving DecidableEq

/-- Account sizes with the eight-byte discriminator, as `8 + INIT_SPACE`. -/
def sessionSpace : ℕ := 8 + 211
def settlementRecordSpace : ℕ := 8 + 113
def tokenAccountSpace : ℕ := 165

/-- The data of an account of the program, told apart by its discriminator. -/
inductive ProgramData where
  | session (s : Session)
  | settlementRecord (r : SettlementRecord)
deriving DecidableEq

abbrev EscrowLedger := Ledger ProgramData

/-- The errors of the program, by name. The texts of their messages are left out: a failed call
is known by its error, and nothing reads the text. -/
inductive AgentPayError where
  | zeroDeposit
  | expiryInPast
  | expiryTooDistant
  | sessionExpired
  | claimExpired
  | claimNotMonotonic
  | claimExceedsDeposit
  | payoutExceedsDeposit
  | unauthorizedSettler
  | settlementRecordInvalid
  | unauthorizedRefund
  | sessionStillActive
  | nothingToRefund
  | mintMismatch
  | vaultMismatch
  | tokenAccountOwnerMismatch
  | missingEd25519Instruction
  | malformedEd25519Instruction
  | ed25519IndirectReference
  | claimSignerMismatch
  | claimMessageMismatch
  | arithmeticOverflow
deriving DecidableEq, Repr

/-- The checked operations of the three handlers, by place. -/
inductive CheckedOp where
  | sessionLifetime
  | sessionDeadline
  | claimDeadline
  | settleDelta
  | settledPlusRefunded
  | refundDeadline
  | lessSettled
  | lessRefunded
  | refundedTotal
deriving DecidableEq, Repr

/-- Refusals of the framework before a handler runs. -/
inductive AnchorError where
  | accountNotInitialized
  | invalidProgramId
  | constraintSeeds
deriving DecidableEq, Repr

inductive Fault where
  | program (e : AgentPayError)
  | overflow (op : CheckedOp)
  | anchor (e : AnchorError)
  | token (e : TokenError)
  | system (e : SystemError)
  | panic
deriving DecidableEq, Repr

/-- The error code the caller sees, when it is one of the program's. -/
def Fault.code : Fault → Option AgentPayError
  | .program e => some e
  | .overflow _ => some .arithmeticOverflow
  | _ => none

/-- The events the handlers emit, with all their fields. A call that fails emits none, and
events of one session come in the order of its calls. -/
inductive Event where
  | sessionOpened (session agent provider settlementAuthority mint : Pubkey)
      (depositedTotal : UInt64) (expiresAt : Int64)
  | sessionSettled (session provider : Pubkey) (cumulativeAmount transferred : UInt64)
      (merkleRoot : Hash) (settledAt : Int64)
  | sessionRefunded (session agent : Pubkey) (amount : UInt64) (permissionless : Bool)
      (refundedAt : Int64)
deriving DecidableEq

def sessionSeeds (agent provider : Pubkey) (sessionId : SessionId) : List (List UInt8) :=
  [sessionSeed, agent.toList, provider.toList, sessionId.toList]

/-- The seeds of a vault. Finding the address they give is `findProgramAddress` of the runtime,
for the program and for the gateway. -/
def vaultSeeds (session : Pubkey) : List (List UInt8) := [vaultSeed, session.toList]

/-- The seeds of a settlement record, with its session only, so a session has one. -/
def settlementSeeds (session : Pubkey) : List (List UInt8) := [settlementSeed, session.toList]

/-- `Account<Session>`: owned by the program and carrying the discriminator. -/
def sessionAt (rt : Runtime) (L : EscrowLedger) (k : Pubkey) : Option Session :=
  if (L k).owner = rt.programId then
    match (L k).data with
    | .program (.session s) => some s
    | _ => none
  else none

/-- `SettlementRecord::try_deserialize` on an account of the program. -/
def recordAt (rt : Runtime) (L : EscrowLedger) (k : Pubkey) : Option SettlementRecord :=
  if (L k).owner = rt.programId then
    match (L k).data with
    | .program (.settlementRecord r) => some r
    | _ => none
  else none

def setData (L : EscrowLedger) (k : Pubkey) (d : ProgramData) : EscrowLedger :=
  Function.update L k { L k with data := .program d }

theorem sessionAt_eq_some {rt : Runtime} {L : EscrowLedger} {k : Pubkey} {s : Session} :
    sessionAt rt L k = some s ↔
      (L k).owner = rt.programId ∧ (L k).data = .program (.session s) := by
  unfold sessionAt
  split_ifs with h
  · split <;> simp_all
  · simp [h]

theorem recordAt_eq_some {rt : Runtime} {L : EscrowLedger} {k : Pubkey} {r : SettlementRecord} :
    recordAt rt L k = some r ↔
      (L k).owner = rt.programId ∧ (L k).data = .program (.settlementRecord r) := by
  unfold recordAt
  split_ifs with h
  · split <;> simp_all
  · simp [h]

end AgentPay.EscrowState
