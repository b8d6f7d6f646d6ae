import AgentPay.ClaimMessage
import AgentPay.Runs

/-!
# The three instructions of the escrow program

Each instruction is a function from the ledger, the clock and the caller's
accounts and arguments to a new ledger and the emitted event, or to a fault.
The account constraints of the `#[derive(Accounts)]` structures come first, in
`openSession` inline and for the other two as functions of their own. The
handlers follow the source line by line; the checks of `settleSession` are
grouped under names because the gateway's rules are compared with them.

A run interleaves calls by any signers at any clock values with external
steps. A failing call changes nothing.
-/
namespace AgentPay.EscrowProgram
open SolanaRuntime EscrowState ClaimMessage Fallible Runs

/-- The accounts of `OpenSession` that a caller names. What the constraints require of them is
checked where the instruction reads them, in the order the framework does. -/
structure OpenAccounts where
  agent : Pubkey
  provider : Pubkey
  mint : Pubkey
  session : Pubkey
  vault : Pubkey
  agentTokenAccount : Pubkey
  tokenProgram : Pubkey
deriving DecidableEq

structure OpenArgs where
  sessionId : SessionId
  depositAmount : UInt64
  expiresAt : Int64
  settlementAuthority : Pubkey
deriving DecidableEq

/-- The accounts of `SettleSession`. The instructions sysvar and the programs that are fixed by
their types are not among them: nothing depends on a caller's choice of those. -/
structure SettleAccounts where
  settler : Pubkey
  session : Pubkey
  settlementRecord : Pubkey
  vault : Pubkey
  providerTokenAccount : Pubkey
  mint : Pubkey
  tokenProgram : Pubkey
deriving DecidableEq

structure SettleArgs where
  cumulativeAmount : UInt64
  nonce : UInt64
  claimExpiresAt : Int64
  merkleRoot : Hash
deriving DecidableEq

/-- The accounts of `RefundSession`. The caller signs; all others are named by whoever sends the
call and only the constraints tie them to the session. -/
structure RefundAccounts where
  caller : Pubkey
  session : Pubkey
  vault : Pubkey
  agentTokenAccount : Pubkey
  mint : Pubkey
  tokenProgram : Pubkey
deriving DecidableEq

section Instructions
variable (rt : Runtime)

/-- `Interface<TokenInterface>`. -/
def tokenInterface (program : Pubkey) : Except Fault Unit :=
  require (program = tokenProgramId ∨ program = token2022ProgramId) (.anchor .invalidProgramId)

/-- The session the handler of `open_session` writes. -/
def openedSession (a : OpenAccounts) (args : OpenArgs) (bump vaultBump : UInt8) : Session where
  agent := a.agent
  provider := a.provider
  settlementAuthority := args.settlementAuthority
  mint := a.mint
  vault := a.vault
  depositedTotal := args.depositAmount
  cumulativeSettled := 0
  refundedTotal := 0
  expiresAt := args.expiresAt
  sessionId := args.sessionId
  bump := bump
  vaultBump := vaultBump
  isSettled := false

/-- `open_session`. The two `init` constraints allocate the session and the vault before the
handler runs; the session's data is written when the handler returns. -/
def openSession (L : EscrowLedger) (now : Int64) (a : OpenAccounts) (args : OpenArgs) :
    Except Fault (EscrowLedger × Event) := do
  let _ ← okOr (interfaceMint L a.mint) (.anchor .accountNotInitialized)
  let own ← okOr (interfaceToken L a.agentTokenAccount) (.anchor .accountNotInitialized)
  tokenInterface a.tokenProgram
  let (sessionKey, bump) ← okOr
    (rt.findProgramAddress (sessionSeeds a.agent a.provider args.sessionId))
    (.anchor .constraintSeeds)
  require (a.session = sessionKey) (.anchor .constraintSeeds)
  let L₁ ← (initAccount rt L a.agent a.session sessionSpace rt.programId .other).mapError .system
  let (vaultKey, vaultBump) ← okOr (rt.findProgramAddress (vaultSeeds a.session))
    (.anchor .constraintSeeds)
  require (a.vault = vaultKey) (.anchor .constraintSeeds)
  let L₂ ← (initAccount rt L₁ a.agent a.vault tokenAccountSpace a.tokenProgram
    (.token ⟨a.mint, a.session, 0⟩)).mapError .system
  require (own.mint = a.mint) (.program .mintMismatch)
  require (own.owner = a.agent) (.program .tokenAccountOwnerMismatch)
  require (0 < args.depositAmount) (.program .zeroDeposit)
  require (now < args.expiresAt) (.program .expiryInPast)
  let lifetime ← okOr (args.expiresAt.checkedSub now) (.overflow .sessionLifetime)
  require (lifetime ≤ maxSessionDurationSecs) (.program .expiryTooDistant)
  let L₃ ← (transferChecked rt L₂ a.tokenProgram a.agentTokenAccount a.mint a.vault a.agent
    args.depositAmount.toNat).mapError .token
  pure (setData L₃ a.session (.session (openedSession a args bump vaultBump)),
    .sessionOpened a.session a.agent a.provider args.settlementAuthority a.mint
      args.depositAmount args.expiresAt)

/-- The account constraints of `SettleSession`. Returns the loaded session and
the canonical bump of the settlement record. -/
def settleAccounts (L : EscrowLedger) (a : SettleAccounts) : Except Fault (Session × UInt8) := do
  let s ← okOr (sessionAt rt L a.session) (.anchor .accountNotInitialized)
  require (rt.derive (sessionSeeds s.agent s.provider s.sessionId) s.bump = some a.session)
    (.anchor .constraintSeeds)
  require (s.mint = a.mint) (.program .mintMismatch)
  require (s.vault = a.vault) (.program .vaultMismatch)
  let (recordKey, recordBump) ← okOr (rt.findProgramAddress (settlementSeeds a.session))
    (.anchor .constraintSeeds)
  require (a.settlementRecord = recordKey) (.anchor .constraintSeeds)
  let _ ← okOr (interfaceToken L a.vault) (.anchor .accountNotInitialized)
  require (rt.derive (vaultSeeds a.session) s.vaultBump = some a.vault) (.anchor .constraintSeeds)
  let paid ← okOr (interfaceToken L a.providerTokenAccount) (.anchor .accountNotInitialized)
  require (paid.mint = a.mint) (.program .mintMismatch)
  require (paid.owner = s.provider) (.program .tokenAccountOwnerMismatch)
  let _ ← okOr (interfaceMint L a.mint) (.anchor .accountNotInitialized)
  tokenInterface a.tokenProgram
  pure (s, recordBump)

/-- Who may trigger a settlement. -/
def settlerCheck (s : Session) (settler : Pubkey) : Except Fault Unit :=
  require (settler = s.settlementAuthority ∨ settler = s.provider) (.program .unauthorizedSettler)

/-- `expires_at.checked_add(CLOCK_SKEW_TOLERANCE_SECS)`. -/
def deadline (expiresAt : Int64) (op : CheckedOp) : Except Fault Int64 :=
  okOr (expiresAt.checkedAdd clockSkewToleranceSecs) (.overflow op)

/-- The checks made before the signature is looked at. -/
def settleChecks (s : Session) (now : Int64) (args : SettleArgs) : Except Fault Unit := do
  let sessionLimit ← deadline s.expiresAt .sessionDeadline
  require (now ≤ sessionLimit) (.program .sessionExpired)
  let claimLimit ← deadline args.claimExpiresAt .claimDeadline
  require (now ≤ claimLimit) (.program .claimExpired)
  require (s.cumulativeSettled < args.cumulativeAmount) (.program .claimNotMonotonic)
  require (args.cumulativeAmount ≤ s.depositedTotal) (.program .claimExceedsDeposit)

/-- The arithmetic made after it. Returns the amount to transfer. -/
def settleAmounts (s : Session) (args : SettleArgs) : Except Fault UInt64 := do
  let delta ← okOr (args.cumulativeAmount.checkedSub s.cumulativeSettled) (.overflow .settleDelta)
  let settledPlusRefunded ← okOr (args.cumulativeAmount.checkedAdd s.refundedTotal)
    (.overflow .settledPlusRefunded)
  require (settledPlusRefunded ≤ s.depositedTotal) (.program .payoutExceedsDeposit)
  pure delta

def receipt (session : Pubkey) (bump : UInt8) (now : Int64) (args : SettleArgs) :
    SettlementRecord where
  session := session
  claimHash := rt.sha256
    (buildClaimMessage session args.cumulativeAmount args.nonce args.claimExpiresAt)
  merkleRoot := args.merkleRoot
  settledAt := now
  settledAmount := args.cumulativeAmount
  bump := bump

/-- Creates the receipt on the first settlement and advances it after. An
existing record contributes only its session, which is checked to be this one;
every other field is overwritten. -/
def writeReceipt (L : EscrowLedger) (a : SettleAccounts) (bump : UInt8) (now : Int64)
    (args : SettleArgs) : Except Fault EscrowLedger :=
  if (L a.settlementRecord).owner = systemProgramId then do
    let L₁ ← (createAccount L a.settler a.settlementRecord
      (rt.minimumBalance settlementRecordSpace) rt.programId .other).mapError .system
    pure (setData L₁ a.settlementRecord (.settlementRecord (receipt rt a.session bump now args)))
  else do
    require ((L a.settlementRecord).owner = rt.programId) (.program .settlementRecordInvalid)
    let existing ← okOr (recordAt rt L a.settlementRecord) (.program .settlementRecordInvalid)
    require (existing.session = a.session) (.program .settlementRecordInvalid)
    pure (setData L a.settlementRecord
      (.settlementRecord (receipt rt existing.session bump now args)))

/-- `settle_session`, checks first and in the order of the source. The token program is taken to
do what it documents: frozen accounts and transfer hooks are outside the model, as is the log. -/
def settleSession (L : EscrowLedger) (now : Int64) (sysvar : InstructionsSysvar)
    (a : SettleAccounts) (args : SettleArgs) : Except Fault (EscrowLedger × Event) := do
  let (s, recordBump) ← settleAccounts rt L a
  settlerCheck s a.settler
  settleChecks s now args
  verifyEd25519Claim sysvar s.agent
    (buildClaimMessage a.session args.cumulativeAmount args.nonce args.claimExpiresAt)
  let delta ← settleAmounts s args
  let L₁ ← (transferChecked rt L a.tokenProgram a.vault a.mint a.providerTokenAccount a.session
    delta.toNat).mapError .token
  let L₂ := setData L₁ a.session
    (.session { s with cumulativeSettled := args.cumulativeAmount, isSettled := true })
  let L₃ ← writeReceipt rt L₂ a recordBump now args
  pure (L₃, .sessionSettled a.session s.provider args.cumulativeAmount delta args.merkleRoot now)

/-- The account constraints of `RefundSession`. -/
def refundAccounts (L : EscrowLedger) (a : RefundAccounts) : Except Fault Session := do
  let s ← okOr (sessionAt rt L a.session) (.anchor .accountNotInitialized)
  require (rt.derive (sessionSeeds s.agent s.provider s.sessionId) s.bump = some a.session)
    (.anchor .constraintSeeds)
  require (s.mint = a.mint) (.program .mintMismatch)
  require (s.vault = a.vault) (.program .vaultMismatch)
  let _ ← okOr (interfaceToken L a.vault) (.anchor .accountNotInitialized)
  require (rt.derive (vaultSeeds a.session) s.vaultBump = some a.vault) (.anchor .constraintSeeds)
  let own ← okOr (interfaceToken L a.agentTokenAccount) (.anchor .accountNotInitialized)
  require (own.mint = a.mint) (.program .mintMismatch)
  require (own.owner = s.agent) (.program .tokenAccountOwnerMismatch)
  let _ ← okOr (interfaceMint L a.mint) (.anchor .accountNotInitialized)
  tokenInterface a.tokenProgram
  pure s

/-- Before the deadline only the agent may refund, and only once settled. -/
def refundGate (s : Session) (caller : Pubkey) (expired : Bool) : Except Fault Unit := do
  require (expired = true ∨ caller = s.agent) (.program .unauthorizedRefund)
  require (expired = true ∨ s.isSettled = true) (.program .sessionStillActive)

/-- What the vault still owes the agent. -/
def refundRemaining (s : Session) : Except Fault UInt64 := do
  let unsettled ← okOr (s.depositedTotal.checkedSub s.cumulativeSettled) (.overflow .lessSettled)
  let remaining ← okOr (unsettled.checkedSub s.refundedTotal) (.overflow .lessRefunded)
  require (0 < remaining) (.program .nothingToRefund)
  pure remaining

/-- `refund_session`. The clock decides once whether the deadline has passed, and that answer
serves both the gate and the event. A failure anywhere leaves the ledger as it was. -/
def refundSession (L : EscrowLedger) (now : Int64) (a : RefundAccounts) :
    Except Fault (EscrowLedger × Event) := do
  let s ← refundAccounts rt L a
  let limit ← deadline s.expiresAt .refundDeadline
  let expired := decide (limit < now)
  refundGate s a.caller expired
  let remaining ← refundRemaining s
  let L₁ ← (transferChecked rt L a.tokenProgram a.vault a.mint a.agentTokenAccount a.session
    remaining.toNat).mapError .token
  let refunded ← okOr (s.refundedTotal.checkedAdd remaining) (.overflow .refundedTotal)
  pure (setData L₁ a.session (.session { s with refundedTotal := refunded }),
    .sessionRefunded a.session s.agent remaining expired now)

end Instructions

/-- One call of the program, with the clock it reads. -/
inductive Call where
  | openSession (now : Int64) (a : OpenAccounts) (args : OpenArgs)
  | settleSession (now : Int64) (sysvar : InstructionsSysvar) (a : SettleAccounts)
      (args : SettleArgs)
  | refundSession (now : Int64) (a : RefundAccounts)
deriving DecidableEq

/-- The account which has to sign the call. -/
def Call.signer : Call → Pubkey
  | .openSession _ a _ => a.agent
  | .settleSession _ _ a _ => a.settler
  | .refundSession _ a => a.caller

def execute (rt : Runtime) (L : EscrowLedger) : Call → Except Fault (EscrowLedger × Event)
  | .openSession now a args => openSession rt L now a args
  | .settleSession now sysvar a args => settleSession rt L now sysvar a args
  | .refundSession now a => refundSession rt L now a

/-- The ledger after a call: a failed instruction is rolled back. -/
def apply (rt : Runtime) (L : EscrowLedger) (c : Call) : EscrowLedger :=
  match execute rt L c with
  | .ok r => r.1
  | .error _ => L

theorem execute_apply {rt : Runtime} {L : EscrowLedger} {c : Call}
    (h : error? (execute rt L c) = none) : ∃ ev, execute rt L c = .ok (apply rt L c, ev) := by
  obtain ⟨⟨L', ev⟩, hr⟩ := error?_eq_none.mp h
  refine ⟨ev, ?_⟩
  simp only [apply, hr]

inductive Label where
  | call (c : Call)
  | external

/-- One step of the chain: a call by somebody who can sign for it, which changes the ledger only
if it succeeds, or something that others do and the program has no part in. -/
inductive Step (rt : Runtime) : EscrowLedger → Label → EscrowLedger → Prop
  | call {L : EscrowLedger} {c : Call} : rt.Signer c.signer → Step rt L (.call c) (apply rt L c)
  | external {L L' : EscrowLedger} : External rt L L' → Step rt L .external L'

/-- Before the first call the program owns nothing, and no derived address is
in use: claiming one takes a signature only the program can give. -/
structure Genesis (rt : Runtime) (L : EscrowLedger) : Prop where
  owned : ∀ k, (L k).owner ≠ rt.programId
  unused : ∀ k, rt.ProgramAddress k → Unused L k

theorem genesis_ledgerOf {rt : Runtime} {accounts : List (Pubkey × Account ProgramData)}
    (howner : ∀ e ∈ accounts, e.2.owner ≠ rt.programId)
    (haddress : ∀ e ∈ accounts, ¬rt.ProgramAddress e.1) : Genesis rt (ledgerOf accounts) := by
  constructor
  · intro k
    rcases ledgerOf_cases accounts k with hm | he
    · exact howner _ hm
    · rw [he]
      exact rt.programId_ne_system.symm
  · intro k hk
    rcases ledgerOf_cases accounts k with hm | he
    · exact absurd hk (haddress _ hm)
    · rw [Unused, he]
      exact ⟨rfl, rfl⟩

/-- The ledgers of the program: every run of any length from any genesis. -/
def Reached (rt : Runtime) (L : EscrowLedger) : Prop := Reachable (Step rt) (Genesis rt) L

end AgentPay.EscrowProgram
