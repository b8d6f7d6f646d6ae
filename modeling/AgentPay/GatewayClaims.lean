import AgentPay.EscrowEffects

/-!
# The gateway's rules for a claim

`Claim` and `is_expired` of `claim.rs` and the ordering rules of `state.rs`. The
gateway and the program write the same deadline rule twice, with different
conventions when the tolerance overflows: the program fails, the gateway treats
the deadline as never reached. The last theorem compares the two rule sets on
every input.
-/
namespace AgentPay.GatewayClaims
open SolanaRuntime EscrowState ClaimMessage EscrowProgram EscrowEffects Fallible

structure Claim where
  session : Pubkey
  cumulativeAmount : UInt64
  nonce : UInt64
  expiresAt : Int64
deriving DecidableEq

abbrev Signature := Vector UInt8 64

structure SignedClaim where
  claim : Claim
  signature : Signature
deriving DecidableEq

structure SessionRecord where
  session : Pubkey
  agent : Pubkey
  provider : Pubkey
  mint : Pubkey
  depositedTotal : UInt64
  expiresAt : Int64
  cumulativeAccepted : UInt64
  lastNonce : Option UInt64
  highestClaim : Option SignedClaim
  isSettled : Bool
  chainVerified : Bool
deriving DecidableEq

inductive ClaimRejection where
  | sessionExpired
  | sessionSettled
  | notMonotonic
  | nonceNotMonotonic
  | exceedsDeposit
deriving DecidableEq, Repr

structure ClaimAccepted where
  cumulativeAmount : UInt64
  previousCumulative : UInt64
  delta : UInt64
  nonce : UInt64
deriving DecidableEq

/-- The bytes the agent signs, those of the program's `build_claim_message`. -/
def Claim.signingBytes (c : Claim) : List UInt8 :=
  claimDomain ++ c.session.toList ++ u64LeBytes c.cumulativeAmount ++ u64LeBytes c.nonce ++
    i64LeBytes c.expiresAt

def Claim.isExpired (c : Claim) (now : Int64) : Bool :=
  match c.expiresAt.checkedAdd clockSkewToleranceSecs with
  | some limit => limit < now
  | none => false

/-- `SessionRecord::new`: nothing accepted, no nonce, no claim, unsettled. Whether the chain was
asked is set by the handler afterwards. -/
def SessionRecord.new (session agent provider mint : Pubkey) (depositedTotal : UInt64)
    (expiresAt : Int64) : SessionRecord where
  session := session
  agent := agent
  provider := provider
  mint := mint
  depositedTotal := depositedTotal
  expiresAt := expiresAt
  cumulativeAccepted := 0
  lastNonce := none
  highestClaim := none
  isSettled := false
  chainVerified := false

def SessionRecord.verifiedOnChain (r : SessionRecord) : SessionRecord :=
  { r with chainVerified := true }

/-- The nonce rule; a session without an accepted claim takes any nonce. -/
def nonceAdvances (last : Option UInt64) (nonce : UInt64) : Prop :=
  match last with
  | some l => l < nonce
  | none => True

instance : (last : Option UInt64) → (nonce : UInt64) → Decidable (nonceAdvances last nonce)
  | some l, nonce => inferInstanceAs (Decidable (l < nonce))
  | none, _ => inferInstanceAs (Decidable True)

/-- The limit a session's expiry sets, saturating at `i64::MAX`. -/
def sessionLimit (expiresAt : Int64) : Int64 :=
  (expiresAt.checkedAdd clockSkewToleranceSecs).getD Int64.maxValue

def evaluateClaim (record : SessionRecord) (claim : Claim) (now : Int64) :
    Except ClaimRejection ClaimAccepted := do
  require (record.isSettled = false) .sessionSettled
  require (now ≤ sessionLimit record.expiresAt) .sessionExpired
  require (record.cumulativeAccepted < claim.cumulativeAmount) .notMonotonic
  require (nonceAdvances record.lastNonce claim.nonce) .nonceNotMonotonic
  require (claim.cumulativeAmount ≤ record.depositedTotal) .exceedsDeposit
  let delta ← okOr (claim.cumulativeAmount.checkedSub record.cumulativeAccepted) .notMonotonic
  pure ⟨claim.cumulativeAmount, record.cumulativeAccepted, delta, claim.nonce⟩

section Rules
variable {record : SessionRecord} {claim : Claim} {now : Int64} {acc : ClaimAccepted}

structure Accepted (record : SessionRecord) (claim : Claim) (now : Int64)
    (acc : ClaimAccepted) : Prop where
  unsettled : record.isSettled = false
  inTime : now ≤ sessionLimit record.expiresAt
  above : record.cumulativeAccepted.toNat < claim.cumulativeAmount.toNat
  nonce : nonceAdvances record.lastNonce claim.nonce
  within : claim.cumulativeAmount.toNat ≤ record.depositedTotal.toNat
  delta : acc.delta.toNat + record.cumulativeAccepted.toNat = claim.cumulativeAmount.toNat
  result : acc = ⟨claim.cumulativeAmount, record.cumulativeAccepted, acc.delta, claim.nonce⟩

theorem evaluateClaim_eq_ok :
    evaluateClaim record claim now = .ok acc ↔ Accepted record claim now acc := by
  simp only [evaluateClaim, bind_eq_ok, require_eq_ok, okOr_eq_ok, pure_eq_ok,
    UInt64.checkedSub_eq_some, UInt64.lt_iff_toNat_lt, UInt64.le_iff_toNat_le]
  constructor
  · rintro ⟨-, h₁, -, h₂, -, h₃, -, h₄, -, h₅, d, hd, rfl⟩
    exact ⟨h₁, h₂, h₃, h₄, h₅, hd, rfl⟩
  · rintro ⟨h₁, h₂, h₃, h₄, h₅, hd, hr⟩
    exact ⟨⟨⟩, h₁, ⟨⟩, h₂, ⟨⟩, h₃, ⟨⟩, h₄, ⟨⟩, h₅, acc.delta, hd, hr.symm⟩

/-- In time for the gateway means in time or beyond what an `i64` can express. -/
theorem le_sessionLimit_iff {e : Int64} : now ≤ sessionLimit e ↔
    now.toInt ≤ e.toInt + 30 ∨ 2 ^ 63 ≤ e.toInt + 30 := by
  unfold sessionLimit
  rw [Int64.le_iff_toInt_le]
  have hl := e.le_toInt
  have hn := now.toInt_lt
  rcases h : e.checkedAdd clockSkewToleranceSecs with _ | l
  · rw [Int64.checkedAdd_eq_none, clockSkewToleranceSecs_toInt] at h
    have hmax : Int64.maxValue.toInt = 2 ^ 63 - 1 := by decide
    simp only [Option.getD_none, hmax]
    omega
  · rw [Int64.checkedAdd_eq_some, clockSkewToleranceSecs_toInt] at h
    have hu := l.toInt_lt
    simp only [Option.getD_some, h]
    omega

theorem isExpired_eq_false_iff : claim.isExpired now = false ↔
    now.toInt ≤ claim.expiresAt.toInt + 30 ∨ 2 ^ 63 ≤ claim.expiresAt.toInt + 30 := by
  unfold Claim.isExpired
  have hl := claim.expiresAt.le_toInt
  rcases h : claim.expiresAt.checkedAdd clockSkewToleranceSecs with _ | l
  · rw [Int64.checkedAdd_eq_none, clockSkewToleranceSecs_toInt] at h
    simp only [true_iff]
    omega
  · rw [Int64.checkedAdd_eq_some, clockSkewToleranceSecs_toInt] at h
    have hu := l.toInt_lt
    simp only [decide_eq_false_iff_not, Int64.lt_iff_toInt_lt, h]
    omega

end Rules

/-- The claim's fields as the arguments of a settlement. -/
def Claim.settleArgs (c : Claim) (merkleRoot : Hash) : SettleArgs :=
  ⟨c.cumulativeAmount, c.nonce, c.expiresAt, merkleRoot⟩

/-- The gateway's record and the on-chain session describe one untouched escrow. -/
structure Untouched (record : SessionRecord) (s : Session) : Prop where
  agent : s.agent = record.agent
  deposited : s.depositedTotal = record.depositedTotal
  expires : s.expiresAt = record.expiresAt
  settled : s.cumulativeSettled = 0
  refunded : s.refundedTotal = 0

/-- A claim the gateway admits passes every expiry, amount and arithmetic check
of the program exactly when the tolerance fits on both expiries. -/
theorem admitted_settles_iff {record : SessionRecord} {claim : Claim} {now : Int64}
    {acc : ClaimAccepted} {s : Session} (root : Hash) (hs : Untouched record s)
    (hexp : claim.isExpired now = false) (hok : evaluateClaim record claim now = .ok acc) :
    (settleChecks s now (claim.settleArgs root) = .ok () ∧
        ∃ delta, settleAmounts s (claim.settleArgs root) = .ok delta) ↔
      record.expiresAt.toInt + 30 < 2 ^ 63 ∧ claim.expiresAt.toInt + 30 < 2 ^ 63 := by
  have hacc := evaluateClaim_eq_ok.mp hok
  have htime := le_sessionLimit_iff.mp hacc.inTime
  have hclaim := isExpired_eq_false_iff.mp hexp
  have habove := hacc.above
  have hwithin := hacc.within
  have hlt := claim.cumulativeAmount.toNat_lt
  have hzero : (0 : UInt64).toNat = 0 := rfl
  rw [settleChecks_eq_ok, hs.expires, hs.deposited, hs.settled]
  simp only [settleAmounts_eq_ok, hs.deposited, hs.settled, hs.refunded, Claim.settleArgs, hzero]
  constructor
  · rintro ⟨⟨⟨h₁, -⟩, ⟨h₂, -⟩, -⟩, -⟩
    exact ⟨h₁, h₂⟩
  · rintro ⟨h₁, h₂⟩
    refine ⟨⟨⟨h₁, by omega⟩, ⟨h₂, by omega⟩, by omega, hwithin⟩, ?_⟩
    obtain ⟨delta, hd⟩ := UInt64.exists_toNat_eq hlt
    exact ⟨delta, by omega, by omega⟩

/-- The public key of the agent whose signed claims the runs further on carry. -/
def sampleAgent : Pubkey := #v[234, 74, 108, 99, 226, 156, 82, 10, 190, 245, 80, 123, 19, 46, 197,
  249, 149, 71, 118, 174, 190, 190, 123, 146, 66, 30, 234, 105, 20, 70, 210, 44]

/-- A session of 1000 with expiry 5000, as the gateway and the program hold it. -/
def sampleRecord : SessionRecord :=
  .new (.filled 20) (.filled 1) (.filled 3) (.filled 9) 1000 5000

def sampleSession : Session :=
  ⟨.filled 1, .filled 3, .filled 6, .filled 9, .filled 21, 1000, 0, 0, 5000, .replicate 16 0, 255,
    255, false⟩

theorem sample_untouched : Untouched sampleRecord sampleSession := ⟨rfl, rfl, rfl, rfl, rfl⟩

/-- A claim for 750 with expiry 4000, at time 2000. -/
theorem admitted_settles_sample :
    settleChecks sampleSession 2000
        (Claim.settleArgs ⟨.filled 20, 750, 1, 4000⟩ (.replicate 32 0)) = .ok () ∧
      ∃ delta, settleAmounts sampleSession
        (Claim.settleArgs ⟨.filled 20, 750, 1, 4000⟩ (.replicate 32 0)) = .ok delta := by
  have hok : evaluateClaim sampleRecord ⟨.filled 20, 750, 1, 4000⟩ 2000 = .ok ⟨750, 0, 750, 1⟩ := by
    rfl
  refine (admitted_settles_iff _ sample_untouched ?_ hok).mpr ?_
  · decide
  · decide

/-- The same claim with expiry `i64::MAX` is admitted, and the program refuses
it with an overflow. -/
theorem admitted_claim_overflows :
    Untouched sampleRecord sampleSession ∧
    Claim.isExpired ⟨.filled 20, 750, 1, Int64.maxValue⟩ 2000 = false ∧
    evaluateClaim sampleRecord ⟨.filled 20, 750, 1, Int64.maxValue⟩ 2000 =
      .ok ⟨750, 0, 750, 1⟩ ∧
    settleChecks sampleSession 2000
      (Claim.settleArgs ⟨.filled 20, 750, 1, Int64.maxValue⟩ (.replicate 32 0)) =
        .error (.overflow .claimDeadline) ∧
    (Fault.overflow .claimDeadline).code = some .arithmeticOverflow := by
  exact ⟨sample_untouched, by decide, rfl, rfl, rfl⟩

end AgentPay.GatewayClaims
