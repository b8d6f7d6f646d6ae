import AgentPay.EscrowInvariant
import AgentPay.RequestPool
import AgentPay.SessionStore

/-!
# The gateway and the chain as one system

`open_session`, `reconcile_session` and `settle_session` of `routes.rs` as
programs over the store and the ledger, with the transaction they submit. A
move is one database call, one account read or the execution of a submitted
transaction. A handler that gives up after submitting leaves its transaction
behind, and the network may still execute it; a transaction is executed at most
once. Claims are admitted, the program is called directly, accounts are funded
and time passes in steps of the outside world. One clock serves both sides.

The durable deployment is modelled, where the evidence store is present. The
previous program of a migration is not part of the repository, so only sessions
of the current program occur.
-/
namespace AgentPay.SettlementRequests
open SolanaRuntime EscrowState ClaimMessage EscrowProgram EscrowEffects EscrowInvariant
open GatewayClaims EvidenceLog SessionStore Fallible Runs

structure Keypair (rt : Runtime) where
  pubkey : Pubkey
  signer : rt.Signer pubkey

instance {rt : Runtime} : DecidableEq (Keypair rt) := fun x y =>
  decidable_of_iff (x.pubkey = y.pubkey) ⟨fun h => by cases x; cases y; cases h; rfl,
    fun h => by rw [h]⟩

/-- What a gateway is set up with: whether it can reach a node and compares sessions with the
chain, and the keys it may settle with. Deriving a token account is another package's and a
parameter. -/
structure Config where
  rt : Runtime
  rpc : Bool
  sessionFetcher : Bool
  settlementAuthority : Option (Keypair rt)
  providerKeypair : Option (Keypair rt)
  /-- `derive_associated_token_account` of an owner, a token program and a mint. -/
  associatedTokenAccount : Pubkey → Pubkey → Pubkey → Pubkey

/-! ### Reconciliation -/

/-- What a caller says a session is, and what a stored record says it was. The texts of the
request have been decoded. -/
structure ClaimedSession where
  agent : Pubkey
  provider : Pubkey
  mint : Pubkey
  depositedTotal : UInt64
  expiresAt : Int64
deriving DecidableEq

/-- The two values of a mismatch report. -/
inductive FieldValue where
  | key (k : Pubkey)
  | time (t : Int64)
deriving DecidableEq

inductive SessionVerificationError where
  | accountNotFound
  | wrongProgramOwner (expected actual : Pubkey)
  | notASessionAccount
  | alreadySettled
  | depositMismatch (expected onChain : UInt64)
  | fieldMismatch (field : String) (expected onChain : FieldValue)
deriving DecidableEq

def reconciliationCode : SessionVerificationError → ReasonCode
  | .accountNotFound => .sessionAccountNotFound
  | .depositMismatch _ _ => .depositMismatch
  | .fieldMismatch _ _ _ => .sessionFieldMismatch
  | .alreadySettled => .sessionSettled
  | .wrongProgramOwner _ _ => .notASessionAccount
  | .notASessionAccount => .notASessionAccount

/-- `SessionAccount::parse`: the discriminator tells a session apart. -/
def parseSession : AccountData ProgramData → Except SessionVerificationError Session
  | .program (.session s) => .ok s
  | _ => .error .notASessionAccount

/-- An address without lamports holds no account. -/
def verifyOnChainSession (rt : Runtime) (L : EscrowLedger) (session : Pubkey)
    (claimed : ClaimedSession) : Except SessionVerificationError Session := do
  require ((L session).lamports ≠ 0) .accountNotFound
  require ((L session).owner = rt.programId) (.wrongProgramOwner rt.programId (L session).owner)
  let account ← parseSession (L session).data
  require (account.isSettled = false) .alreadySettled
  require (account.depositedTotal = claimed.depositedTotal)
    (.depositMismatch claimed.depositedTotal account.depositedTotal)
  require (account.agent = claimed.agent)
    (.fieldMismatch "agent" (.key claimed.agent) (.key account.agent))
  require (account.provider = claimed.provider)
    (.fieldMismatch "provider" (.key claimed.provider) (.key account.provider))
  require (account.mint = claimed.mint)
    (.fieldMismatch "mint" (.key claimed.mint) (.key account.mint))
  require (account.expiresAt = claimed.expiresAt)
    (.fieldMismatch "expires_at" (.time claimed.expiresAt) (.time account.expiresAt))
  pure account

/-- The chain holds the session as it was claimed. -/
structure Reconciled (rt : Runtime) (L : EscrowLedger) (session : Pubkey)
    (claimed : ClaimedSession) (s : Session) : Prop where
  found : sessionAt rt L session = some s
  deposited : s.depositedTotal = claimed.depositedTotal
  expires : s.expiresAt = claimed.expiresAt
  unsettled : s.isSettled = false

theorem verifyOnChainSession_eq_ok {rt : Runtime} {L : EscrowLedger} {session : Pubkey}
    {claimed : ClaimedSession} {s : Session}
    (h : verifyOnChainSession rt L session claimed = .ok s) :
    Reconciled rt L session claimed s := by
  simp only [verifyOnChainSession, bind_eq_ok, require_eq_ok, pure_eq_ok, exists_const] at h
  obtain ⟨-, howner, x, hparse, hset, hdep, -, -, -, hexp, rfl⟩ := h
  have hdata : (L session).data = .program (.session x) := by
    unfold parseSession at hparse
    split at hparse
    · rename_i heq
      rw [heq, Except.ok.inj hparse]
    · cases hparse
  exact ⟨sessionAt_eq_some.mpr ⟨howner, hdata⟩, hdep, hexp, hset⟩

/-! ### Requests -/

/-- A settlement transaction: the claim's signature check, then the program. -/
structure SettleTransaction (rt : Runtime) where
  settler : Keypair rt
  session : Pubkey
  settlementRecord : Pubkey
  vault : Pubkey
  providerTokenAccount : Pubkey
  mint : Pubkey
  tokenProgram : Pubkey
  agent : Pubkey
  claim : Claim
  signature : Signature
  merkleRoot : Hash
deriving DecidableEq

namespace SettleTransaction
variable {rt : Runtime} (tx : SettleTransaction rt)

def accounts : SettleAccounts :=
  ⟨tx.settler.pubkey, tx.session, tx.settlementRecord, tx.vault, tx.providerTokenAccount, tx.mint,
    tx.tokenProgram⟩

def args : SettleArgs := tx.claim.settleArgs tx.merkleRoot

/-- The settle instruction's own data is not read through the sysvar. -/
def sysvar : InstructionsSysvar :=
  ⟨[buildEd25519Instruction tx.agent tx.signature tx.claim.signingBytes, ⟨rt.programId, []⟩], 1⟩

def call (now : Int64) : Call := .settleSession now tx.sysvar tx.accounts tx.args

end SettleTransaction

/-- The root a settlement is about to commit and how many entries it covers. -/
structure Commitment where
  root : Hash
  entries : ℕ
deriving DecidableEq

/-- The three requests. A Merkle root that a settle request carries is left out: with an
evidence store, which is the case modelled, the gateway computes its own. -/
inductive Kind where
  | openSession (session : Pubkey) (claimed : ClaimedSession)
  | reconcile (session : Pubkey)
  | settle (session : Pubkey)
deriving DecidableEq

/-- Where a handler stands, with the variables it still holds. A stage comes before each call,
so that other requests and the chain can move in between. -/
inductive Stage (rt : Runtime) where
  | received
  | saving (record : SessionRecord)
  | compared (record : SessionRecord)
  | verified
  | rooted (c : Commitment)
  | loaded (c : Commitment) (record : SessionRecord) (highest : SignedClaim)
  | assigned (c : Commitment) (record : SessionRecord) (highest : SignedClaim)
      (settler : Keypair rt)
  | submitted (c : Commitment) (tx : SettleTransaction rt)
  | landed (c : Commitment) (tx : SettleTransaction rt)
  | confirmed (c : Commitment) (tx : SettleTransaction rt)
  | abandoned (c : Commitment) (tx : SettleTransaction rt)
  | done
  | denied (code : ReasonCode)
deriving DecidableEq

structure Request (rt : Runtime) where
  kind : Kind
  stage : Stage rt
deriving DecidableEq

structure Shared where
  db : Database
  ledger : EscrowLedger
  clock : Int64

section Handlers
variable (cfg : Config) (s : Shared)

/-- The chain check of `open_session`, skipped where requests are trusted. Saving the record is
the next call, so the chain may move on before the row is there. -/
def reconcileOpen (session : Pubkey) (c : ClaimedSession) : Stage cfg.rt :=
  let record := SessionRecord.new session c.agent c.provider c.mint c.depositedTotal c.expiresAt
  if cfg.sessionFetcher then
    match verifyOnChainSession cfg.rt s.ledger session c with
    | .ok _ => .saving record.verifiedOnChain
    | .error e => .denied (reconciliationCode e)
  else .saving record

def saveRecord (record : SessionRecord) : Shared × Stage cfg.rt :=
  match openRecord s.db record with
  | .ok db => ({ s with db := db }, .done)
  | .error e => (s, .denied (storeDenial e))

def readForReconcile (session : Pubkey) : Stage cfg.rt :=
  match getRecord s.db session with
  | .error e => .denied (storeDenial e)
  | .ok record => if cfg.sessionFetcher then .compared record else .denied .chainUnavailable

/-- The stored fields, as they are compared with the chain. -/
def claimedOf (r : SessionRecord) : ClaimedSession :=
  ⟨r.agent, r.provider, r.mint, r.depositedTotal, r.expiresAt⟩

/-- The comparison in `reconcile_session`, between the call that reads the record and the one
that sets the flag. A mismatch is answered and changes nothing. -/
def reconcileRecord (session : Pubkey) (record : SessionRecord) : Stage cfg.rt :=
  match verifyOnChainSession cfg.rt s.ledger session (claimedOf record) with
  | .ok _ => .verified
  | .error e => .denied (reconciliationCode e)

def flagVerified (session : Pubkey) : Shared × Stage cfg.rt :=
  match markChainVerified s.db session with
  | .ok db => ({ s with db := db }, .done)
  | .error e => (s, .denied (storeDenial e))

/-- The evidence root comes first, from the log as it is now. -/
def commitmentOf (db : Database) (session : Pubkey) : Commitment :=
  ⟨merkleRoot cfg.rt.sha256 (loadEvidenceLeaves db session),
    (loadEvidenceLeaves db session).length⟩

def readClaim (session : Pubkey) (c : Commitment) : Stage cfg.rt :=
  if cfg.rpc then
    match getRecord s.db session with
    | .error e => .denied (storeDenial e)
    | .ok record =>
      if record.isSettled then .denied .sessionSettled else
        match record.highestClaim with
        | some highest => .loaded c record highest
        | none => .denied .nothingToSettle
  else .denied .settlementUnavailable

/-- Whether an account has the layout of the current program's sessions. -/
def isV2 : AccountData ProgramData → Bool
  | .program (.session _) => true
  | _ => false

/-- The session account decides which key signs. -/
def chooseSettler (session : Pubkey) (record : SessionRecord) :
    Except ReasonCode (Keypair cfg.rt) := do
  require (cfg.sessionFetcher = true ∧ (s.ledger session).lamports ≠ 0) .chainUnavailable
  require ((s.ledger session).owner = cfg.rt.programId) .wrongProgramOwner
  if isV2 (s.ledger session).data then okOr cfg.settlementAuthority .settlementUnavailable
  else do
    let provider ← okOr cfg.providerKeypair .settlementUnavailable
    require (provider.pubkey = record.provider) .wrongProviderKey
    pure provider

def assignSettler (session : Pubkey) (c : Commitment) (record : SessionRecord)
    (highest : SignedClaim) : Stage cfg.rt :=
  match chooseSettler cfg s session record with
  | .ok settler => .assigned c record highest settler
  | .error code => .denied code

/-- The transaction of `submit_settlement`. A mint that is not there and an
address that cannot be derived end the request. -/
def buildTransaction (session : Pubkey) (root : Hash) (record : SessionRecord)
    (highest : SignedClaim) (settler : Keypair cfg.rt) : Option (SettleTransaction cfg.rt) :=
  if (s.ledger record.mint).lamports = 0 then none else
    match cfg.rt.findProgramAddress (vaultSeeds session),
      cfg.rt.findProgramAddress (settlementSeeds session) with
    | some (vault, _), some (settlementRecord, _) =>
      let tokenProgram := (s.ledger record.mint).owner
      some ⟨settler, session, settlementRecord, vault,
        cfg.associatedTokenAccount record.provider tokenProgram record.mint, record.mint,
        tokenProgram, record.agent, highest.claim, highest.signature, root⟩
    | _, _ => none

/-- `submit_settlement` up to the sending. What becomes of the transaction is for the network:
it lands, fails, or is never heard of. Blockhashes and their expiry are left out. -/
def submitTransaction (session : Pubkey) (c : Commitment) (record : SessionRecord)
    (highest : SignedClaim) (settler : Keypair cfg.rt) : Stage cfg.rt :=
  match buildTransaction cfg s session c.root record highest settler with
  | some tx => .submitted c tx
  | none => .denied .settlementFailed

/-- One move of a handler. It waits while its transaction is in flight. The branch of a gateway
without an evidence store is left out, and sessions of the legacy program are in
`SettlementKeys`. -/
def advance (r : Request cfg.rt) : Shared × Stage cfg.rt :=
  match r.stage, r.kind with
  | .received, .openSession session claimed => (s, reconcileOpen cfg s session claimed)
  | .received, .reconcile session => (s, readForReconcile cfg s session)
  | .received, .settle session => (s, .rooted (commitmentOf cfg s.db session))
  | .saving record, _ => saveRecord cfg s record
  | .compared record, .reconcile session => (s, reconcileRecord cfg s session record)
  | .verified, .reconcile session => flagVerified cfg s session
  | .rooted c, .settle session => (s, readClaim cfg s session c)
  | .loaded c record highest, .settle session => (s, assignSettler cfg s session c record highest)
  | .assigned c record highest settler, .settle session =>
    (s, submitTransaction cfg s session c record highest settler)
  | .landed c tx, _ => (s, .confirmed c tx)
  | .confirmed _ _, .settle session => ({ s with db := markSettled s.db session }, .done)
  | stage, _ => (s, stage)

/-- The network executes a transaction; a failed one changes nothing. -/
def execTransaction (tx : SettleTransaction cfg.rt) : Shared :=
  { s with ledger := apply cfg.rt s.ledger (tx.call s.clock) }

def landedStage (c : Commitment) (tx : SettleTransaction cfg.rt) : Stage cfg.rt :=
  match execute cfg.rt s.ledger (tx.call s.clock) with
  | .ok _ => .landed c tx
  | .error _ => .denied .settlementFailed

end Handlers

/-- What is left of a request whose next call fails or whose process dies. An
error from `mark_settled` is only logged. -/
def Stage.interrupted {rt : Runtime} : Stage rt → Stage rt
  | .submitted c tx => .abandoned c tx
  | .abandoned c tx => .abandoned c tx
  | .landed _ _ => .denied .settlementFailed
  | .confirmed _ _ => .done
  | .done => .done
  | .denied code => .denied code
  | _ => .denied .storeUnavailable

/-- One call of the handler or one execution of the transaction it submitted. A call that
fails changes nothing, and a transaction is executed once at most, also after its handler
has given up on it. -/
inductive Move (cfg : Config) : Shared → Request cfg.rt → Shared → Request cfg.rt → Prop
  | handler {s : Shared} {r : Request cfg.rt} :
      Move cfg s r (advance cfg s r).1 { r with stage := (advance cfg s r).2 }
  | land {s : Shared} {r : Request cfg.rt} {c : Commitment} {tx : SettleTransaction cfg.rt} :
      r.stage = .submitted c tx →
      Move cfg s r (execTransaction cfg s tx) { r with stage := landedStage cfg s c tx }
  | landLate {s : Shared} {r : Request cfg.rt} {c : Commitment} {tx : SettleTransaction cfg.rt} :
      r.stage = .abandoned c tx →
      Move cfg s r (execTransaction cfg s tx) { r with stage := .denied .settlementFailed }
  | interrupted {s : Shared} {r : Request cfg.rt} :
      Move cfg s r s { r with stage := r.stage.interrupted }

def callClock : Call → Int64
  | .openSession now _ _ => now
  | .settleSession now _ _ _ => now
  | .refundSession now _ => now

inductive Event (rt : Runtime) where
  | admitClaim (claim : Claim) (signature : Signature)
  | call (signer : Keypair rt) (c : Call)
  | external (ledger : EscrowLedger)
  | tick (now : Int64)

/-- What happens beside the handlers: claims are admitted, anybody with a key calls the program,
others use their accounts, and the one clock of gateway and chain goes forward. -/
inductive Outside (cfg : Config) : Shared → Event cfg.rt → Shared → Prop
  | admitClaim {s : Shared} {claim : Claim} {signature : Signature} {db : Database}
      {outcome : Except ClaimRejection ClaimAccepted} :
      admitClaim cfg.rt.sha256 s.db claim signature s.clock = .ok (db, outcome) →
      Outside cfg s (.admitClaim claim signature) { s with db := db }
  | call {s : Shared} {signer : Keypair cfg.rt} {c : Call} : c.signer = signer.pubkey →
      callClock c = s.clock →
      Outside cfg s (.call signer c) { s with ledger := apply cfg.rt s.ledger c }
  | external {s : Shared} {L : EscrowLedger} : External cfg.rt s.ledger L →
      Outside cfg s (.external L) { s with ledger := L }
  | tick {s : Shared} {now : Int64} : s.clock.toInt ≤ now.toInt →
      Outside cfg s (.tick now) { s with clock := now }

def Arrives {rt : Runtime} (r : Request rt) : Prop := r.stage = .received

abbrev Desk (cfg : Config) := RequestPool.Pool Shared (Request cfg.rt)
abbrev DeskLabel (cfg : Config) := RequestPool.Label (Request cfg.rt) (Event cfg.rt)

/-- All interleavings of the handlers with each other, the network and the outside. Purchases
are here as the admissions they end in. -/
def DeskStep (cfg : Config) : Desk cfg → DeskLabel cfg → Desk cfg → Prop :=
  RequestPool.Step Arrives (Move cfg) (Outside cfg)

/-- Empty tables, a ledger without sessions, and no request yet. -/
structure Initial (cfg : Config) (g : Desk cfg) : Prop where
  tables : g.shared.db = .empty
  ledger : Genesis cfg.rt g.shared.ledger
  idle : g.requests = []

/-- Every move, with what it read. Three of them write the tables and two
execute a transaction. -/
inductive Next (cfg : Config) (s : Shared) (r : Request cfg.rt) : Shared → Stage cfg.rt → Prop
  | denied {code : ReasonCode} : Next cfg s r s (.denied code)
  | saving {session : Pubkey} {c : ClaimedSession} {record : SessionRecord} :
      r.stage = .received → r.kind = .openSession session c → record.session = session →
      record.depositedTotal = c.depositedTotal → record.expiresAt = c.expiresAt →
      (record.chainVerified = true → ∃ x, Reconciled cfg.rt s.ledger session c x) →
      Next cfg s r s (.saving record)
  | saved {record : SessionRecord} {db : Database} : r.stage = .saving record →
      openRecord s.db record = .ok db → Next cfg s r { s with db := db } .done
  | compared {session : Pubkey} {record : SessionRecord} : r.stage = .received →
      r.kind = .reconcile session → getRecord s.db session = .ok record →
      Next cfg s r s (.compared record)
  | verified {session : Pubkey} {record : SessionRecord} {x : Session} :
      r.stage = .compared record → r.kind = .reconcile session →
      Reconciled cfg.rt s.ledger session (claimedOf record) x → Next cfg s r s .verified
  | flagged {session : Pubkey} {db : Database} : r.stage = .verified →
      r.kind = .reconcile session → markChainVerified s.db session = .ok db →
      Next cfg s r { s with db := db } .done
  | rooted {session : Pubkey} : r.stage = .received → r.kind = .settle session →
      Next cfg s r s (.rooted (commitmentOf cfg s.db session))
  | loaded {session : Pubkey} {c : Commitment} {record : SessionRecord} {highest : SignedClaim} :
      r.stage = .rooted c → r.kind = .settle session → getRecord s.db session = .ok record →
      record.highestClaim = some highest → Next cfg s r s (.loaded c record highest)
  | assigned {c : Commitment} {record : SessionRecord} {highest : SignedClaim}
      {settler : Keypair cfg.rt} : r.stage = .loaded c record highest →
      Next cfg s r s (.assigned c record highest settler)
  | submitted {session : Pubkey} {c : Commitment} {record : SessionRecord} {highest : SignedClaim}
      {settler : Keypair cfg.rt} {tx : SettleTransaction cfg.rt} :
      r.stage = .assigned c record highest settler → r.kind = .settle session →
      tx.session = session → tx.claim = highest.claim → tx.merkleRoot = c.root →
      Next cfg s r s (.submitted c tx)
  | landed {c : Commitment} {tx : SettleTransaction cfg.rt} {ev : EscrowState.Event} :
      r.stage = .submitted c tx →
      execute cfg.rt s.ledger (tx.call s.clock) = .ok ((execTransaction cfg s tx).ledger, ev) →
      Next cfg s r (execTransaction cfg s tx) (.landed c tx)
  | spent {c : Commitment} {tx : SettleTransaction cfg.rt} {code : ReasonCode} :
      r.stage = .submitted c tx ∨ r.stage = .abandoned c tx →
      Next cfg s r (execTransaction cfg s tx) (.denied code)
  | confirmed {c : Commitment} {tx : SettleTransaction cfg.rt} : r.stage = .landed c tx →
      Next cfg s r s (.confirmed c tx)
  | marked {session : Pubkey} {c : Commitment} {tx : SettleTransaction cfg.rt} :
      r.stage = .confirmed c tx → r.kind = .settle session →
      Next cfg s r { s with db := markSettled s.db session } .done
  | unmarked : Next cfg s r s .done
  | abandoned {c : Commitment} {tx : SettleTransaction cfg.rt} : r.stage = .submitted c tx →
      Next cfg s r s (.abandoned c tx)
  | idle : Next cfg s r s r.stage

section Moves
variable {cfg : Config} {s : Shared} {r : Request cfg.rt}

theorem next_reconcileOpen {session : Pubkey} {c : ClaimedSession} (h : r.stage = .received)
    (hk : r.kind = .openSession session c) : Next cfg s r s (reconcileOpen cfg s session c) := by
  unfold reconcileOpen
  simp only
  split
  · split
    · rename_i x hx
      exact .saving h hk rfl rfl rfl fun _ => ⟨x, verifyOnChainSession_eq_ok hx⟩
    · exact .denied
  · refine .saving h hk rfl rfl rfl fun hv => ?_
    cases hv

theorem next_readClaim {session : Pubkey} {c : Commitment} (h : r.stage = .rooted c)
    (hk : r.kind = .settle session) : Next cfg s r s (readClaim cfg s session c) := by
  unfold readClaim
  split
  · split
    · exact .denied
    · rename_i record hget
      split
      · exact .denied
      · split
        · rename_i highest hh
          exact .loaded h hk hget hh
        · exact .denied
  · exact .denied

theorem next_submitTransaction {session : Pubkey} {c : Commitment} {record : SessionRecord}
    {highest : SignedClaim} {settler : Keypair cfg.rt}
    (h : r.stage = .assigned c record highest settler) (hk : r.kind = .settle session) :
    Next cfg s r s (submitTransaction cfg s session c record highest settler) := by
  unfold submitTransaction
  split
  · rename_i tx htx
    unfold buildTransaction at htx
    split at htx
    · cases htx
    · split at htx
      · obtain rfl := Option.some.inj htx
        exact .submitted h hk rfl rfl rfl
      · cases htx
  · exact .denied

theorem next_advance : Next cfg s r (advance cfg s r).1 (advance cfg s r).2 := by
  unfold advance
  split
  · rename_i session claimed h hk
    exact next_reconcileOpen h hk
  · rename_i session h hk
    simp only [readForReconcile]
    split
    · exact .denied
    · rename_i record hget
      split
      · exact .compared h hk hget
      · exact .denied
  · rename_i session h hk
    exact .rooted h hk
  · rename_i record h
    simp only [saveRecord]
    split
    · rename_i db hok
      exact .saved h hok
    · exact .denied
  · rename_i record session h hk
    simp only [reconcileRecord]
    split
    · rename_i x hx
      exact .verified h hk (verifyOnChainSession_eq_ok hx)
    · exact .denied
  · rename_i session h hk
    simp only [flagVerified]
    split
    · rename_i db hok
      exact .flagged h hk hok
    · exact .denied
  · rename_i c session h hk
    exact next_readClaim h hk
  · rename_i c record highest session h hk
    simp only [assignSettler]
    split
    · exact .assigned h
    · exact .denied
  · rename_i c record highest settler session h hk
    exact next_submitTransaction h hk
  · rename_i c tx h
    exact .confirmed h
  · rename_i c tx session h hk
    exact .marked h hk
  · exact .idle

theorem next_land {c : Commitment} {tx : SettleTransaction cfg.rt} (h : r.stage = .submitted c tx) :
    Next cfg s r (execTransaction cfg s tx) (landedStage cfg s c tx) := by
  unfold landedStage
  split
  · rename_i res hok
    have hrun : execute cfg.rt s.ledger (tx.call s.clock)
        = .ok ((execTransaction cfg s tx).ledger, res.2) := by
      simp only [execTransaction, apply, hok]
    exact .landed h hrun
  · exact .spent (.inl h)

theorem next_interrupted : Next cfg s r s r.stage.interrupted := by
  cases h : r.stage with
  | submitted c tx => exact .abandoned h
  | abandoned c tx =>
    simp only [Stage.interrupted]
    rw [← h]
    exact .idle
  | confirmed c tx => exact .unmarked
  | done => exact .unmarked
  | _ => exact .denied

/-- The inversion of a move: only the stage of the request changes. -/
theorem move_next {s' : Shared} {r' : Request cfg.rt} (h : Move cfg s r s' r') :
    r' = { r with stage := r'.stage } ∧ Next cfg s r s' r'.stage := by
  cases h with
  | handler => exact ⟨rfl, next_advance⟩
  | land h => exact ⟨rfl, next_land h⟩
  | landLate h => exact ⟨rfl, .spent (.inr h)⟩
  | interrupted => exact ⟨rfl, next_interrupted⟩

end Moves

section Schedules
variable (cfg : Config)

/-- A move of a request without failures: its transaction, once submitted, is
executed next. -/
def move (s : Shared) (r : Request cfg.rt) : Shared × Request cfg.rt :=
  match r.stage with
  | .submitted c tx => (execTransaction cfg s tx, { r with stage := landedStage cfg s c tx })
  | _ => ((advance cfg s r).1, { r with stage := (advance cfg s r).2 })

def outside (s : Shared) : Event cfg.rt → Option Shared
  | .admitClaim claim signature =>
    match admitClaim cfg.rt.sha256 s.db claim signature s.clock with
    | .ok (db, _) => some { s with db := db }
    | .error _ => none
  | .call signer c =>
    if c.signer = signer.pubkey ∧ callClock c = s.clock then
      some { s with ledger := apply cfg.rt s.ledger c }
    else none
  | .external _ => none
  | .tick now => if s.clock.toInt ≤ now.toInt then some { s with clock := now } else none

instance {rt : Runtime} : DecidablePred (@Arrives rt) := fun r =>
  inferInstanceAs (Decidable (r.stage = .received))

/-- A schedule of requests without failures, the last label first. -/
def playDesk (g : Desk cfg) (ls : List (DeskLabel cfg)) :
    History (Desk cfg) (DeskLabel cfg) × Desk cfg :=
  RequestPool.play (fun r => decide (Arrives r)) (move cfg) (outside cfg) g ls

theorem move_sound (s : Shared) (r : Request cfg.rt) :
    Move cfg s r (move cfg s r).1 (move cfg s r).2 := by
  unfold move
  split
  · rename_i c tx h
    exact .land h
  · exact .handler

theorem outside_sound {s s' : Shared} {e : Event cfg.rt} (h : outside cfg s e = some s') :
    Outside cfg s e s' := by
  cases e with
  | admitClaim claim signature =>
    simp only [outside] at h
    split at h
    · rename_i db outcome hok
      obtain rfl := Option.some.inj h
      exact .admitClaim hok
    · cases h
  | call signer c =>
    simp only [outside] at h
    split_ifs at h with hc
    obtain rfl := Option.some.inj h
    exact .call hc.1 hc.2
  | external L => cases h
  | tick now =>
    simp only [outside] at h
    split_ifs at h with hc
    obtain rfl := Option.some.inj h
    exact .tick hc

theorem playDesk_run (g : Desk cfg) (ls : List (DeskLabel cfg)) :
    Run (DeskStep cfg) g (playDesk cfg g ls).1 (playDesk cfg g ls).2 := by
  refine RequestPool.play_run ?_ ?_ ?_ g ls
  · intro r hr
    exact of_decide_eq_true hr
  · intro s r
    exact move_sound cfg s r
  · intro s e s' he
    exact outside_sound cfg he

end Schedules

end AgentPay.SettlementRequests
