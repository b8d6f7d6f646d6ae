import AgentPay.EvidenceLog

/-!
# The Postgres session store

`Database` of `db.rs`: the tables `sessions`, `claim_tickets` and `evidence_log`
and the operations on them. Amounts and nonces are `BIGINT` columns, so every
write converts from `u64` and every read converts back, and both can fail. Keys
are stored as text in the source and as keys here; timestamps are dropped except
for whether `settled_at` is set and for the order of `created_at`. A method that
fails leaves the tables as they were: its transaction is rolled back.

`admitClaim` runs under the row lock of its session, so it is one atomic step.
-/
namespace AgentPay.SessionStore
open SolanaRuntime EscrowState GatewayClaims EvidenceLog Fallible

structure SessionRow where
  agent : Pubkey
  provider : Pubkey
  mint : Pubkey
  depositedTotal : Int64
  expiresAt : Int64
  settled : Bool
  chainVerified : Bool
deriving DecidableEq

structure TicketRow where
  cumulativeAmount : Int64
  nonce : Int64
  expiresAt : Int64
  signature : Signature
deriving DecidableEq

/-- A row of `evidence_log` without its session and without `id`, a `BIGSERIAL` that nothing
reads. What is said here of logs of up to `2 ^ 63` rows supposes that the database still has
an id for the next row; the module on the in-memory store keeps count of the ids. -/
structure EvidenceRow where
  sequenceId : Int64
  cumulativeAmount : Int64
  nonce : Int64
  decision : Decision
  prevHash : Hash
  entryHash : Hash
  signature : Signature
deriving DecidableEq

/-- The tables. `order` lists the session keys by `created_at`; the evidence of
a session is in ascending `sequence_id`. -/
structure Database where
  order : List Pubkey
  sessions : Pubkey → Option SessionRow
  tickets : Pubkey → Option TicketRow
  evidence : Pubkey → List EvidenceRow

def Database.empty : Database := ⟨[], fun _ => none, fun _ => none, fun _ => []⟩

namespace Database

def setSession (db : Database) (session : Pubkey) (row : SessionRow) : Database :=
  { db with sessions := Function.update db.sessions session (some row) }

def setTicket (db : Database) (session : Pubkey) (t : TicketRow) : Database :=
  { db with tickets := Function.update db.tickets session (some t) }

def pushEvidence (db : Database) (session : Pubkey) (e : EvidenceRow) : Database :=
  { db with evidence := Function.update db.evidence session (db.evidence session ++ [e]) }

end Database

/-- What can go wrong with the database apart from not reaching it. The error of the driver and
the texts are left out; a constraint stands for every one the schema has. -/
inductive DbError where
  | outOfRange (field : String) (value : UInt64)
  | negativeAmount (field : String) (value : Int64)
  | rowNotFound
  | constraint
deriving DecidableEq

/-- The errors of either store. The texts are left out, and so is what the database said. -/
inductive StoreError where
  | unavailable
  | alreadyOpen
  | unknown
deriving DecidableEq, Repr

/-- The codes that the handlers of the payment path and of settlement deny with. Other handlers
have a type of denials of their own. -/
inductive ReasonCode where
  | sessionUnknown
  | sessionAlreadyOpen
  | sessionExpired
  | sessionSettled
  | claimExpired
  | claimNotMonotonic
  | nonceNotMonotonic
  | claimExceedsDeposit
  | invalidSignature
  | nothingToSettle
  | wrongProviderKey
  | wrongProgramOwner
  | settlementUnavailable
  | settlementFailed
  | sessionAccountNotFound
  | depositMismatch
  | sessionFieldMismatch
  | notASessionAccount
  | chainUnavailable
  | priceMismatch
  | agentSuspended
  | agentPolicyRequired
  | policyResourceNotAllowed
  | policyPriceCap
  | policyBudget
  | policyCallLimit
  | approvalRequired
  | controlPlaneUnavailable
  | storeUnavailable
deriving DecidableEq, Repr

def storeDenial : StoreError → ReasonCode
  | .unavailable => .storeUnavailable
  | .unknown => .sessionUnknown
  | .alreadyOpen => .sessionAlreadyOpen

/-- `From<DbError> for StoreError`: every database problem is a denial. What it was is logged
and not handed on. -/
def DbError.toStoreError : DbError → StoreError := fun _ => .unavailable

def toI64 (value : UInt64) (field : String) : Except DbError Int64 :=
  if value.toNat < 2 ^ 63 then .ok value.toInt64 else .error (.outOfRange field value)

def toU64 (value : Int64) (field : String) : Except DbError UInt64 :=
  if 0 ≤ value.toInt then .ok value.toUInt64 else .error (.negativeAmount field value)

section Conversions
variable {v : UInt64} {i : Int64} {f : String}

theorem toI64_eq_ok : toI64 v f = .ok i ↔ i.toInt = v.toNat := by
  unfold toI64
  have hi := i.toInt_lt
  split_ifs with h
  · rw [Except.ok.injEq, ← Int64.toInt_inj, UInt64.toInt_toInt64 h]
    exact eq_comm
  · simp only [false_iff]
    omega

theorem toU64_eq_ok : toU64 i f = .ok v ↔ (v.toNat : ℤ) = i.toInt := by
  unfold toU64
  split_ifs with h
  · have ht := Int64.toNat_toUInt64 h
    rw [Except.ok.injEq, ← UInt64.toNat_inj]
    omega
  · simp only [false_iff]
    omega

end Conversions

section Operations

/-- `save_session`: an insertion that leaves an existing session alone and says so. As a
statement on the declared tables it is in `StoreStatements`. -/
def saveSession (db : Database) (r : SessionRecord) : Except DbError (Database × Bool) := do
  let depositedTotal ← toI64 r.depositedTotal "deposited_total"
  require (0 < depositedTotal) DbError.constraint
  match db.sessions r.session with
  | some _ => pure (db, false)
  | none =>
    let row := ⟨r.agent, r.provider, r.mint, depositedTotal, r.expiresAt, false, r.chainVerified⟩
    pure (Database.setSession { db with order := db.order ++ [r.session] } r.session row, true)

/-- The claim columns of the joined row: the mark, the last nonce, the claim. -/
def ticketColumns (session : Pubkey) (ticket : Option TicketRow) :
    Except DbError (UInt64 × Option UInt64 × Option SignedClaim) :=
  match ticket with
  | none => pure (0, none, none)
  | some t => do
    let cumulativeAmount ← toU64 t.cumulativeAmount "cumulative_amount"
    let nonce ← toU64 t.nonce "nonce"
    pure (cumulativeAmount, some nonce,
      some ⟨⟨session, cumulativeAmount, nonce, t.expiresAt⟩, t.signature⟩)

/-- `row_to_record`. Keys and signatures are values here and texts or bytes in the tables,
written by the gateway alone; an amount may still be negative and is then refused. -/
def rowToRecord (session : Pubkey) (row : SessionRow) (ticket : Option TicketRow) :
    Except DbError SessionRecord := do
  let (cumulativeAccepted, lastNonce, highestClaim) ← ticketColumns session ticket
  let depositedTotal ← toU64 row.depositedTotal "deposited_total"
  pure ⟨session, row.agent, row.provider, row.mint, depositedTotal, row.expiresAt,
    cumulativeAccepted, lastNonce, highestClaim, row.settled, row.chainVerified⟩

/-- `load_session`: the row joined with its ticket. A row that does not read back, with a
negative amount, is an error and not a missing session. -/
def loadSession (db : Database) (session : Pubkey) : Except DbError (Option SessionRecord) :=
  match db.sessions session with
  | none => pure none
  | some row => do
    let record ← rowToRecord session row (db.tickets session)
    pure (some record)

/-- The unsettled sessions by `created_at`, read on a cold start. -/
def loadActiveSessions (db : Database) : Except DbError (List SessionRecord) :=
  (db.order.filter fun k => (db.sessions k).any fun row => !row.settled).mapM fun k => do
    let row ← okOr (db.sessions k) DbError.rowNotFound
    rowToRecord k row (db.tickets k)

/-- Setting `settled_at` touches a session that is unsettled and no other. -/
def markSessionSettled (db : Database) (session : Pubkey) : Database × Bool :=
  match db.sessions session with
  | some row =>
    if row.settled then (db, false) else (db.setSession session { row with settled := true }, true)
  | none => (db, false)

/-- `load_evidence_leaves`: the hashes in the order of the numbers, which is the order the rows
are kept in here. -/
def loadEvidenceLeaves (db : Database) (session : Pubkey) : List Hash :=
  (db.evidence session).map EvidenceRow.entryHash

def readEntry (row : EvidenceRow) : Except DbError EvidenceEntry := do
  let cumulativeAmount ← toU64 row.cumulativeAmount "cumulative_amount"
  let nonce ← toU64 row.nonce "nonce"
  pure ⟨row.sequenceId, cumulativeAmount, nonce, row.decision.asStr, row.prevHash, row.entryHash⟩

/-- What a row is read as when neither of its amounts is negative. -/
def EvidenceRow.entry (row : EvidenceRow) : EvidenceEntry :=
  ⟨row.sequenceId, row.cumulativeAmount.toUInt64, row.nonce.toUInt64, row.decision.asStr,
    row.prevHash, row.entryHash⟩

/-- `load_evidence_chain`: one entry that does not read back fails the whole of it, while the
leaves are still loaded. -/
def loadEvidenceChain (db : Database) (session : Pubkey) : Except DbError (List EvidenceEntry) :=
  (db.evidence session).mapM readEntry

/-- The sequence number and the previous hash the next entry gets. -/
def nextLink (last : Option EvidenceRow) : Except DbError (Int64 × Hash) :=
  match last with
  | some row => do
    let sequenceId ← okOr (row.sequenceId.checkedAdd 1)
      (DbError.outOfRange "sequence_id" (UInt64.ofNat (2 ^ 64 - 1)))
    pure (sequenceId, row.entryHash)
  | none => pure (0, zeroHash)

/-- A refused claim may carry a value no `BIGINT` holds, so entries are clamped. -/
def clampI64 (v : UInt64) : UInt64 := min v (UInt64.ofNat (2 ^ 63 - 1))

section Evidence
variable (sha256 : List UInt8 → Hash)

def evidenceRow (claim : Claim) (decision : Decision) (signature : Signature) (sequenceId : Int64)
    (prevHash : Hash) : EvidenceRow where
  sequenceId := sequenceId
  cumulativeAmount := (clampI64 claim.cumulativeAmount).toInt64
  nonce := (clampI64 claim.nonce).toInt64
  decision := decision
  prevHash := prevHash
  entryHash := computeEntryHash sha256 prevHash claim.session (clampI64 claim.cumulativeAmount)
    (clampI64 claim.nonce) decision.asStr
  signature := signature

/-- `append_evidence`: one more link behind the last entry. The id the sequence gives the row is
left out here, and counted in `StoreRefinement`. -/
def appendEvidence (db : Database) (claim : Claim) (decision : Decision) (signature : Signature) :
    Except DbError Database := do
  let (sequenceId, prevHash) ← nextLink (db.evidence claim.session).getLast?
  pure (db.pushEvidence claim.session
    (evidenceRow sha256 claim decision signature sequenceId prevHash))

/-- The decision to record; a settled session's log is frozen. -/
def decisionOf : Except ClaimRejection ClaimAccepted → Option Decision
  | .ok _ => some .allowed
  | .error .notMonotonic => some .notMonotonic
  | .error .nonceNotMonotonic => some .nonceNotMonotonic
  | .error .exceedsDeposit => some .exceedsDeposit
  | .error .sessionExpired => some .sessionExpired
  | .error .sessionSettled => none

/-- The conditional upsert; `none` when its `WHERE` clause matched no row. -/
def writeTicket (db : Database) (session : Pubkey) (t : TicketRow) : Option Database :=
  match db.tickets session with
  | none => some (db.setTicket session t)
  | some old =>
    if old.cumulativeAmount < t.cumulativeAmount ∧ old.nonce < t.nonce then
      some (db.setTicket session t)
    else none

def recordDecision (db : Database) (claim : Claim) (signature : Signature)
    (outcome : Except ClaimRejection ClaimAccepted) : Except DbError Database :=
  match decisionOf outcome with
  | some decision => appendEvidence sha256 db claim decision signature
  | none => pure db

/-- The record rebuilt under the row lock. -/
def lockedRecord (db : Database) (session : Pubkey) (row : SessionRow) :
    Except DbError SessionRecord := do
  let depositedTotal ← toU64 row.depositedTotal "deposited_total"
  let (cumulativeAccepted, lastNonce, _) ← ticketColumns session (db.tickets session)
  pure ⟨session, row.agent, row.provider, row.mint, depositedTotal, row.expiresAt,
    cumulativeAccepted, lastNonce, none, row.settled, row.chainVerified⟩

/-- One transaction under the lock of the session's row: decide, record, advance. Whatever fails
in it rolls all of it back; so does a conditional upsert that finds the row too high, and the
claim is then refused. -/
def upsertClaimHighWaterMark (db : Database) (claim : Claim) (signature : Signature)
    (now : Int64) : Except DbError (Database × Except ClaimRejection ClaimAccepted) := do
  let row ← okOr (db.sessions claim.session) .rowNotFound
  let record ← lockedRecord db claim.session row
  let outcome := evaluateClaim record claim now
  let db₁ ← recordDecision sha256 db claim signature outcome
  match outcome with
  | .error rejection => pure (db₁, .error rejection)
  | .ok accepted => do
    let cumulativeAmount ← toI64 accepted.cumulativeAmount "cumulative_amount"
    let nonce ← toI64 accepted.nonce "nonce"
    match writeTicket db₁ claim.session ⟨cumulativeAmount, nonce, claim.expiresAt, signature⟩ with
    | some db₂ => pure (db₂, .ok accepted)
    | none => pure (db, .error .notMonotonic)

/-- `SessionStore::admit_claim`, with the tables it leaves. A refusal of the claim is an answer,
and has been recorded; an error of the store leaves the tables as they were. -/
def admitClaim (db : Database) (claim : Claim) (signature : Signature) (now : Int64) :
    Except StoreError (Database × Except ClaimRejection ClaimAccepted) :=
  (upsertClaimHighWaterMark sha256 db claim signature now).mapError fun
    | .rowNotFound => .unknown
    | e => e.toStoreError

end Evidence

/-- `SessionStore::open` of the database: a session that is there already is refused and left
alone. -/
def openRecord (db : Database) (r : SessionRecord) : Except StoreError Database := do
  let (db', inserted) ← (saveSession db r).mapError DbError.toStoreError
  require (inserted = true) .alreadyOpen
  pure db'

/-- `SessionStore::get` of the database. -/
def getRecord (db : Database) (session : Pubkey) : Except StoreError SessionRecord := do
  let found ← (loadSession db session).mapError DbError.toStoreError
  okOr found .unknown

/-- `SessionStore::mark_settled` of the database. Marking a session that is not there, or twice,
changes nothing and is no error. -/
def markSettled (db : Database) (session : Pubkey) : Database := (markSessionSettled db session).1

/-- `SessionStore::mark_chain_verified` of the database, which is told by the rows it changed
that a session is unknown. -/
def markChainVerified (db : Database) (session : Pubkey) : Except StoreError Database :=
  match db.sessions session with
  | some row => pure (db.setSession session { row with chainVerified := true })
  | none => .error .unknown

end Operations

section Tables
variable {db : Database} {session k : Pubkey} {row : SessionRow} {t : TicketRow} {e : EvidenceRow}

@[simp] theorem setSession_tickets : (db.setSession session row).tickets = db.tickets := rfl
@[simp] theorem setSession_evidence : (db.setSession session row).evidence = db.evidence := rfl
@[simp] theorem setTicket_sessions : (db.setTicket session t).sessions = db.sessions := rfl
@[simp] theorem setTicket_evidence : (db.setTicket session t).evidence = db.evidence := rfl
@[simp] theorem pushEvidence_sessions : (db.pushEvidence session e).sessions = db.sessions := rfl
@[simp] theorem pushEvidence_tickets : (db.pushEvidence session e).tickets = db.tickets := rfl

theorem setSession_sessions :
    (db.setSession session row).sessions k = if k = session then some row else db.sessions k := by
  simp [Database.setSession, Function.update_apply]

theorem setTicket_tickets :
    (db.setTicket session t).tickets k = if k = session then some t else db.tickets k := by
  simp [Database.setTicket, Function.update_apply]

theorem pushEvidence_evidence : (db.pushEvidence session e).evidence k =
    if k = session then db.evidence session ++ [e] else db.evidence k := by
  simp [Database.pushEvidence, Function.update_apply]

/-- The amount column of a session's ticket, zero before its first claim. -/
def Database.amount (db : Database) (session : Pubkey) : ℤ :=
  match db.tickets session with
  | some t => t.cumulativeAmount.toInt
  | none => 0

def Database.mark (db : Database) (session : Pubkey) : ℕ := (db.amount session).toNat

theorem amount_congr {db' : Database} (h : db'.tickets k = db.tickets k) :
    db'.amount k = db.amount k := by
  simp only [Database.amount, h]

@[simp] theorem amount_pushEvidence : (db.pushEvidence session e).amount k = db.amount k :=
  amount_congr rfl

theorem amount_setTicket : (db.setTicket session t).amount k =
    if k = session then t.cumulativeAmount.toInt else db.amount k := by
  unfold Database.amount
  rw [setTicket_tickets]
  split_ifs with h <;> rfl

end Tables

section Reads
variable {db : Database} {session : Pubkey} {record : SessionRecord}

/-- What a record read from the tables says about them. -/
structure Loaded (db : Database) (session : Pubkey) (record : SessionRecord)
    (row : SessionRow) : Prop where
  found : db.sessions session = some row
  key : record.session = session
  agent : record.agent = row.agent
  provider : record.provider = row.provider
  mint : record.mint = row.mint
  deposited : (record.depositedTotal.toNat : ℤ) = row.depositedTotal.toInt
  expires : record.expiresAt = row.expiresAt
  settled : record.isSettled = row.settled
  verified : record.chainVerified = row.chainVerified
  amount : (record.cumulativeAccepted.toNat : ℤ) = db.amount session

theorem Loaded.mark {row : SessionRow} (h : Loaded db session record row) :
    record.cumulativeAccepted.toNat = db.mark session := by
  have ha := h.amount
  unfold Database.mark
  omega

theorem ticketColumns_amount {c : UInt64} {n : Option UInt64} {h : Option SignedClaim}
    (hc : ticketColumns session (db.tickets session) = .ok (c, n, h)) :
    (c.toNat : ℤ) = db.amount session := by
  unfold Database.amount
  rcases ht : db.tickets session with _ | t
  · rw [ht] at hc
    simp only [ticketColumns, pure_eq_ok, Prod.mk.injEq] at hc
    rw [← hc.1]
    rfl
  · rw [ht] at hc
    simp only [ticketColumns, bind_eq_ok, toU64_eq_ok, pure_eq_ok, Prod.mk.injEq] at hc
    obtain ⟨c', hc', _, _, rfl, _⟩ := hc
    exact hc'

/-- A claim kept for settlement is the one that set the mark. -/
theorem ticketColumns_claim {c : UInt64} {n : Option UInt64} {h : Option SignedClaim}
    {ticket : Option TicketRow} (hc : ticketColumns session ticket = .ok (c, n, h)) :
    (h = none ∧ ticket = none) ∨ ∃ sc t, h = some sc ∧ ticket = some t ∧ n = some sc.claim.nonce ∧
      sc.claim.session = session ∧ sc.claim.cumulativeAmount = c ∧
      sc.claim.expiresAt = t.expiresAt ∧ sc.signature = t.signature := by
  rcases ticket with _ | t
  · simp only [ticketColumns, pure_eq_ok, Prod.mk.injEq] at hc
    exact .inl ⟨hc.2.2.symm, rfl⟩
  · simp only [ticketColumns, bind_eq_ok, pure_eq_ok, Prod.mk.injEq] at hc
    obtain ⟨c', _, nonce, _, rfl, rfl, rfl⟩ := hc
    exact .inr ⟨_, t, rfl, rfl, rfl, rfl, rfl, rfl, rfl⟩

theorem rowToRecord_loaded {row : SessionRow} (hrow : db.sessions session = some row)
    (h : rowToRecord session row (db.tickets session) = .ok record) :
    Loaded db session record row := by
  simp only [rowToRecord, bind_eq_ok, toU64_eq_ok, pure_eq_ok, Prod.exists] at h
  obtain ⟨c, n, hc, hcols, d, hd, rfl⟩ := h
  exact ⟨hrow, rfl, rfl, rfl, rfl, hd, rfl, rfl, rfl, ticketColumns_amount hcols⟩

theorem getRecord_loaded (h : getRecord db session = .ok record) :
    ∃ row, rowToRecord session row (db.tickets session) = .ok record ∧
      Loaded db session record row := by
  simp only [getRecord, loadSession, bind_eq_ok, mapError_eq_ok, okOr_eq_ok] at h
  obtain ⟨found, hf, rfl⟩ := h
  rcases hs : db.sessions session with _ | row
  · rw [hs] at hf
    simp at hf
  · rw [hs] at hf
    simp only [bind_eq_ok, pure_eq_ok, Option.some.injEq, exists_eq_right] at hf
    exact ⟨row, hf, rowToRecord_loaded hs hf⟩

theorem getRecord_highestClaim {sc : SignedClaim} (h : getRecord db session = .ok record)
    (hsc : record.highestClaim = some sc) :
    sc.claim.session = session ∧ sc.claim.cumulativeAmount = record.cumulativeAccepted := by
  obtain ⟨row, hr, -⟩ := getRecord_loaded h
  simp only [rowToRecord, bind_eq_ok, pure_eq_ok, Prod.exists] at hr
  obtain ⟨c, n, hc, hcols, d, -, rfl⟩ := hr
  rcases ticketColumns_claim hcols with ⟨rfl, -⟩ | ⟨sc', t, rfl, -, -, hses, hcum, -⟩
  · cases hsc
  · obtain rfl := Option.some.inj hsc
    exact ⟨hses, hcum⟩

theorem lockedRecord_loaded {row : SessionRow} (hrow : db.sessions session = some row)
    (h : lockedRecord db session row = .ok record) : Loaded db session record row := by
  simp only [lockedRecord, bind_eq_ok, toU64_eq_ok, pure_eq_ok, Prod.exists] at h
  obtain ⟨d, hd, c, n, hc, hcols, rfl⟩ := h
  exact ⟨hrow, rfl, rfl, rfl, rfl, hd, rfl, rfl, rfl, ticketColumns_amount hcols⟩

end Reads

section Admission
variable {sha256 : List UInt8 → Hash} {db db' : Database} {claim : Claim} {signature : Signature}
variable {now : Int64} {outcome : Except ClaimRejection ClaimAccepted}

/-- What an admitted claim satisfied, with the rows it wrote. -/
structure Admission (db : Database) (claim : Claim) (signature : Signature) (now : Int64)
    (acc : ClaimAccepted) (row : SessionRow) (e : EvidenceRow) (t : TicketRow) : Prop where
  found : db.sessions claim.session = some row
  unsettled : row.settled = false
  inTime : now ≤ sessionLimit row.expiresAt
  positive : 0 < acc.delta.toNat
  within : (claim.cumulativeAmount.toNat : ℤ) ≤ row.depositedTotal.toInt
  nonneg : 0 ≤ db.amount claim.session
  delta : (acc.delta.toNat : ℤ) + db.amount claim.session = claim.cumulativeAmount.toNat
  amount : t.cumulativeAmount.toInt = claim.cumulativeAmount.toNat
  nonce : t.nonce.toInt = claim.nonce.toNat
  expires : t.expiresAt = claim.expiresAt
  signature : t.signature = signature
  decision : e.decision = .allowed

/-- Every way a completed `admit_claim` can leave the tables. -/
inductive AdmitEffect (db : Database) (claim : Claim) (signature : Signature) (now : Int64) :
    Except ClaimRejection ClaimAccepted → Database → Prop
  | accepted {acc : ClaimAccepted} {row : SessionRow} {e : EvidenceRow} {t : TicketRow} :
      Admission db claim signature now acc row e t →
      AdmitEffect db claim signature now (.ok acc)
        ((db.pushEvidence claim.session e).setTicket claim.session t)
  | refused {r : ClaimRejection} {row : SessionRow} {e : EvidenceRow} :
      db.sessions claim.session = some row → row.settled = false → e.decision ≠ .allowed →
      AdmitEffect db claim signature now (.error r) (db.pushEvidence claim.session e)
  | unchanged {r : ClaimRejection} : AdmitEffect db claim signature now (.error r) db

theorem Admission.mark {acc : ClaimAccepted} {row : SessionRow} {e : EvidenceRow} {t : TicketRow}
    (h : Admission db claim signature now acc row e t) :
    acc.delta.toNat + db.mark claim.session = claim.cumulativeAmount.toNat := by
  have h₁ := h.nonneg
  have h₂ := h.delta
  unfold Database.mark
  omega

/-- An accepted claim becomes the mark of its session and of no other. -/
theorem Admission.mark_after {acc : ClaimAccepted} {row : SessionRow} {e : EvidenceRow}
    {t : TicketRow} (h : Admission db claim signature now acc row e t) (k : Pubkey) :
    ((db.pushEvidence claim.session e).setTicket claim.session t).mark k =
      if k = claim.session then claim.cumulativeAmount.toNat else db.mark k := by
  unfold Database.mark
  rw [amount_setTicket, amount_pushEvidence]
  split_ifs
  · rw [h.amount]
    rfl
  · rfl

theorem appendEvidence_eq_ok {decision : Decision}
    (h : appendEvidence sha256 db claim decision signature = .ok db') :
    ∃ e, e.decision = decision ∧ db' = db.pushEvidence claim.session e := by
  simp only [appendEvidence, bind_eq_ok, pure_eq_ok, Prod.exists] at h
  obtain ⟨_, _, _, rfl⟩ := h
  exact ⟨_, rfl, rfl⟩

theorem writeTicket_eq_some {t : TicketRow} {session : Pubkey}
    (h : writeTicket db session t = some db') : db' = db.setTicket session t := by
  unfold writeTicket at h
  split at h
  · exact (Option.some.inj h).symm
  · split_ifs at h
    exact (Option.some.inj h).symm

theorem evaluateClaim_settled {record : SessionRecord} {r : ClaimRejection}
    (h : evaluateClaim record claim now = .error r) (hr : r ≠ .sessionSettled) :
    record.isSettled = false := by
  by_contra hs
  rw [Bool.not_eq_false] at hs
  simp only [evaluateClaim, bind_eq_error, require_eq_error, hs] at h
  rcases h with ⟨_, rfl⟩ | ⟨_, hok, _⟩
  · exact hr rfl
  · simp at hok

theorem upsert_effect
    (h : upsertClaimHighWaterMark sha256 db claim signature now = .ok (db', outcome)) :
    AdmitEffect db claim signature now outcome db' := by
  simp only [upsertClaimHighWaterMark, bind_eq_ok, okOr_eq_ok] at h
  obtain ⟨row, hrow, record, hrec, db₁, hdec, h⟩ := h
  have hload := lockedRecord_loaded hrow hrec
  rcases ho : evaluateClaim record claim now with r | acc
  · simp only [ho, pure_eq_ok, Prod.mk.injEq] at h
    obtain ⟨rfl, rfl⟩ := h
    rw [ho] at hdec
    by_cases hr : r = .sessionSettled
    · subst hr
      simp only [recordDecision, decisionOf, pure_eq_ok] at hdec
      subst hdec
      exact .unchanged
    · have hset := evaluateClaim_settled ho hr
      rw [hload.settled] at hset
      have happ : ∃ d, d ≠ .allowed ∧ appendEvidence sha256 db claim d signature = .ok db₁ := by
        cases r with
        | sessionSettled => exact absurd rfl hr
        | sessionExpired => exact ⟨_, by decide, hdec⟩
        | notMonotonic => exact ⟨_, by decide, hdec⟩
        | nonceNotMonotonic => exact ⟨_, by decide, hdec⟩
        | exceedsDeposit => exact ⟨_, by decide, hdec⟩
      obtain ⟨d, hd, happ⟩ := happ
      obtain ⟨e, he, rfl⟩ := appendEvidence_eq_ok happ
      exact .refused hrow hset (he ▸ hd)
  · rw [ho] at hdec
    obtain ⟨e, he, rfl⟩ := appendEvidence_eq_ok hdec
    simp only [ho, bind_eq_ok, toI64_eq_ok] at h
    obtain ⟨c, hc, n, hn, h⟩ := h
    have hacc := evaluateClaim_eq_ok.mp ho
    have habove := hacc.above
    have hdelta := hacc.delta
    have hwithin := hacc.within
    have hdep := hload.deposited
    have hres := hacc.result
    have hamount := hload.amount
    split at h
    · rename_i db₂ hw
      simp only [pure_eq_ok, Prod.mk.injEq] at h
      obtain ⟨rfl, rfl⟩ := h
      rw [writeTicket_eq_some hw]
      refine .accepted ⟨hrow, ?_, ?_, by omega, by omega, by omega, by omega, ?_, ?_, rfl, rfl, he⟩
      · rw [← hload.settled]
        exact hacc.unsettled
      · rw [← hload.expires]
        exact hacc.inTime
      · rw [hc, hres]
      · rw [hn, hres]
    · simp only [pure_eq_ok, Prod.mk.injEq] at h
      obtain ⟨rfl, rfl⟩ := h
      exact .unchanged

theorem admitClaim_effect (h : admitClaim sha256 db claim signature now = .ok (db', outcome)) :
    AdmitEffect db claim signature now outcome db' := by
  simp only [admitClaim, mapError_eq_ok] at h
  exact upsert_effect h

end Admission

/-- A session row after later operations: its terms are fixed, its flags only
travel from false to true. -/
structure RowEvolves (row row' : SessionRow) : Prop where
  terms : row' = { row with settled := row'.settled, chainVerified := row'.chainVerified }
  settled : row.settled = true → row'.settled = true
  verified : row.chainVerified = true → row'.chainVerified = true

/-- What every operation of the store preserves: no session disappears, a new
one is listed, no mark decreases, and the evidence of a session is only appended
to. -/
structure Grows (db db' : Database) : Prop where
  rows : ∀ k row, db.sessions k = some row → ∃ row', db'.sessions k = some row' ∧ RowEvolves row row'
  order : db.order <+: db'.order
  listed : ∀ k, db.sessions k = none → db'.sessions k ≠ none → k ∈ db'.order
  amounts : ∀ k, db.amount k ≤ db'.amount k
  log : ∀ k, db.evidence k <+: db'.evidence k

section Growth
variable {db db' db'' : Database} {session : Pubkey}

theorem RowEvolves.refl (row : SessionRow) : RowEvolves row row := ⟨rfl, id, id⟩

theorem RowEvolves.trans {r₁ r₂ r₃ : SessionRow} (h : RowEvolves r₁ r₂) (h' : RowEvolves r₂ r₃) :
    RowEvolves r₁ r₃ := by
  refine ⟨?_, fun hs => h'.settled (h.settled hs), fun hv => h'.verified (h.verified hv)⟩
  have e₁ := h.terms
  have e₂ := h'.terms
  rw [e₁] at e₂
  exact e₂

theorem Grows.refl (db : Database) : Grows db db :=
  ⟨fun _ row h => ⟨row, h, .refl row⟩, List.prefix_rfl, fun _ hn hs => absurd hn hs,
    fun _ => le_rfl, fun _ => List.prefix_rfl⟩

theorem Grows.mark (h : Grows db db') (k : Pubkey) : db.mark k ≤ db'.mark k :=
  Int.toNat_le_toNat (h.amounts k)

theorem Grows.trans (h : Grows db db') (h' : Grows db' db'') : Grows db db'' := by
  refine ⟨?_, h.order.trans h'.order, ?_, fun k => (h.amounts k).trans (h'.amounts k),
    fun k => (h.log k).trans (h'.log k)⟩
  · intro k row hrow
    obtain ⟨row', hrow', he⟩ := h.rows k row hrow
    obtain ⟨row'', hrow'', he'⟩ := h'.rows k row' hrow'
    exact ⟨row'', hrow'', he.trans he'⟩
  · intro k hnone hsome
    by_cases hmid : db'.sessions k = none
    · exact h'.listed k hmid hsome
    · exact h'.order.subset (h.listed k hnone hmid)

theorem grows_pushEvidence (e : EvidenceRow) : Grows db (db.pushEvidence session e) := by
  refine ⟨fun _ row h => ⟨row, h, .refl row⟩, List.prefix_rfl, fun _ hn hs => absurd hn hs,
    fun _ => le_rfl, fun k => ?_⟩
  rw [pushEvidence_evidence]
  split_ifs with hk
  · subst hk
    exact List.prefix_append _ _
  · exact List.prefix_rfl

theorem grows_setTicket {t : TicketRow} (h : db.amount session ≤ t.cumulativeAmount.toInt) :
    Grows db (db.setTicket session t) := by
  refine ⟨fun _ row h => ⟨row, h, .refl row⟩, List.prefix_rfl, fun _ hn hs => absurd hn hs,
    fun k => ?_, fun _ => List.prefix_rfl⟩
  rw [amount_setTicket]
  split_ifs with hk
  · rwa [hk]
  · exact le_rfl

theorem grows_setSession {row row' : SessionRow} (hrow : db.sessions session = some row)
    (he : RowEvolves row row') : Grows db (db.setSession session row') := by
  refine ⟨?_, List.prefix_rfl, ?_, fun _ => le_rfl, fun _ => List.prefix_rfl⟩
  · intro k r hr
    rw [setSession_sessions]
    split_ifs with hk
    · subst hk
      obtain rfl := Option.some.inj (hrow.symm.trans hr)
      exact ⟨row', rfl, he⟩
    · exact ⟨r, hr, .refl r⟩
  · intro k hnone hsome
    rw [setSession_sessions] at hsome
    split_ifs at hsome with hk
    · rw [hk, hrow] at hnone
      cases hnone
    · exact absurd hnone hsome

theorem AdmitEffect.grows {claim : Claim} {signature : Signature} {now : Int64}
    {outcome : Except ClaimRejection ClaimAccepted}
    (h : AdmitEffect db claim signature now outcome db') : Grows db db' := by
  cases h with
  | accepted ha =>
    refine (grows_pushEvidence _).trans (grows_setTicket ?_)
    have hd := ha.delta
    have ht := ha.amount
    rw [amount_pushEvidence]
    omega
  | refused _ _ _ => exact grows_pushEvidence _
  | unchanged => exact .refl db

theorem openRecord_eq_ok {r : SessionRecord} (h : openRecord db r = .ok db') :
    ∃ depositedTotal : Int64, depositedTotal.toInt = r.depositedTotal.toNat ∧
      0 < depositedTotal.toInt ∧ db.sessions r.session = none ∧
      db' = Database.setSession { db with order := db.order ++ [r.session] } r.session
        ⟨r.agent, r.provider, r.mint, depositedTotal, r.expiresAt, false, r.chainVerified⟩ := by
  simp only [openRecord, saveSession, bind_eq_ok, mapError_eq_ok, require_eq_ok, pure_eq_ok,
    toI64_eq_ok, Prod.exists, exists_const] at h
  obtain ⟨db₁, inserted, ⟨d, hd, hpos, h⟩, rfl, rfl⟩ := h
  split at h
  · simp at h
  · rename_i hnone
    simp only [pure_eq_ok, Prod.mk.injEq, and_true] at h
    exact ⟨d, hd, Int64.lt_iff_toInt_lt.mp hpos, hnone, h.symm⟩

theorem openRecord_grows {r : SessionRecord} (h : openRecord db r = .ok db') : Grows db db' := by
  obtain ⟨d, -, -, hnone, rfl⟩ := openRecord_eq_ok h
  refine ⟨?_, List.prefix_append _ _, ?_, fun _ => le_rfl, fun _ => List.prefix_rfl⟩
  · intro k row hrow
    rw [setSession_sessions]
    split_ifs with hk
    · subst hk
      rw [hnone] at hrow
      cases hrow
    · exact ⟨row, hrow, .refl row⟩
  · intro k hk hsome
    rw [setSession_sessions] at hsome
    split_ifs at hsome with he
    · rw [he]
      exact List.mem_append_right _ (List.mem_singleton_self _)
    · exact absurd hk hsome

theorem markSettled_grows : Grows db (markSettled db session) := by
  unfold markSettled markSessionSettled
  rcases h : db.sessions session with _ | row
  · exact .refl db
  · simp only
    split_ifs with hs
    · exact .refl db
    · exact grows_setSession h ⟨rfl, fun _ => rfl, id⟩

theorem markChainVerified_grows (h : markChainVerified db session = .ok db') : Grows db db' := by
  unfold markChainVerified at h
  rcases hs : db.sessions session with _ | row
  · rw [hs] at h
    cases h
  · rw [hs] at h
    simp only [pure_eq_ok] at h
    rw [← h]
    exact grows_setSession hs ⟨rfl, id, fun _ => rfl⟩

end Growth

end AgentPay.SessionStore
