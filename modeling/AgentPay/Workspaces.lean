import Mathlib.Data.List.Sort
import AgentPay.ControlPlane
import AgentPay.Handlers
import AgentPay.KeyedTable

/-!
# The tables of the control plane and the statements on them

`control_db.rs` with the columns the payment path does not read, the listings of
`db.rs`, and the in-memory registry beside the tables. A policy stands in the row
of its agent and a ticket in the row of its session, as the queries join them.
Text columns hold no NUL; a `VARCHAR` column is the type of the texts that fit.
Keys and hashes are stored as text in the source and as values here, amounts and
timestamps are answered as values and not in their decimal rendering. Rows stand
in the order they were written in, which breaks ties of `ORDER BY`. Every query
reaches the database.
-/
namespace AgentPay.Workspaces
open SolanaRuntime EscrowState PolicyRules SessionStore EvidenceLog ControlPlane Fallible KeyedTable

abbrev Timestamp := ℤ

def nul : Char := Char.ofNat 0

/-- A value of a `VARCHAR` column. -/
structure Varchar (n : ℕ) where
  text : Text
  fits : text.length ≤ n ∧ nul ∉ text
deriving DecidableEq

theorem Varchar.ext {n : ℕ} {a b : Varchar n} (h : a.text = b.text) : a = b := by
  cases a
  cases b
  cases h
  rfl

def toVarchar (n : ℕ) (t : Text) : Except DbError (Varchar n) :=
  if h : t.length ≤ n ∧ nul ∉ t then .ok ⟨t, h⟩ else .error .constraint

def bindText (t : Text) : Except DbError PUnit := require (nul ∉ t) .constraint

/-- The 32 hexadecimal digits of `Uuid::simple`. -/
structure Uuid where
  text : Text
  simple : text.length = 32 ∧ nul ∉ text
deriving DecidableEq

def agentIdOf (u : Uuid) : Text := "agt_".toList ++ u.text

def operatorIdOf (u : Uuid) : Varchar 64 where
  text := "op_".toList ++ u.text
  fits := by
    have hp : nul ∉ "op_".toList := by decide
    refine ⟨?_, ?_⟩
    · rw [List.length_append, u.simple.1]
      decide
    · rw [List.mem_append]
      rintro (h | h)
      · exact hp h
      · exact u.simple.2 h

/-! ### Rows -/

structure AgentEntry extends AgentRow where
  label : Varchar 128
  ownerPubkey : Option Pubkey
  createdAt : Timestamp
deriving DecidableEq

structure ApprovalEntry extends ApprovalRow where
  reason : Option Text
  createdAt : Timestamp
  decidedAt : Option Timestamp
  decidedBy : Option (Varchar 64)
  decidedByLabel : Option (Varchar 128)
deriving DecidableEq

/-- A provider as the registry records it. -/
structure ProviderRecord where
  providerId : Text
  label : Text
  baseUrl : Text
  providerPubkey : Option Pubkey
  enabled : Bool
deriving DecidableEq

structure ProviderRow where
  providerId : Varchar 64
  label : Varchar 128
  baseUrl : Text
  providerPubkey : Option Pubkey
  enabled : Bool
  workspaceId : Option Text
deriving DecidableEq

def ProviderRow.record (r : ProviderRow) : ProviderRecord :=
  ⟨r.providerId.text, r.label.text, r.baseUrl, r.providerPubkey, r.enabled⟩

inductive OperatorRole where
  | operator
  | owner
  | member
deriving DecidableEq, Repr

structure OperatorRow where
  operatorId : Varchar 64
  label : Varchar 128
  tokenHash : Hash
  role : OperatorRole
  workspaceId : Option Text
  enabled : Bool
  createdAt : Timestamp
  lastUsedAt : Option Timestamp
deriving DecidableEq

/-- A session joined with its claim ticket. -/
structure SessionEntry where
  session : Pubkey
  row : SessionRow
  ticket : Option TicketRow
  createdAt : Timestamp
deriving DecidableEq

/-- A row of `evidence_log` with its session. -/
structure FeedEntry where
  session : Pubkey
  row : EvidenceRow
  createdAt : Timestamp
deriving DecidableEq

/-! The primary keys and the unique columns. -/

def sameAgent (a b : AgentEntry) : Bool := a.agentId = b.agentId || a.agentPubkey = b.agentPubkey
def sameApproval (a b : ApprovalEntry) : Bool := a.approvalId = b.approvalId
def sameProvider (a b : ProviderRow) : Bool := a.providerId = b.providerId
def sameRecord (a b : ProviderRecord) : Bool := a.providerId = b.providerId
def sameOperator (a b : OperatorRow) : Bool :=
  a.operatorId = b.operatorId || a.tokenHash = b.tokenHash
def sameSession (a b : SessionEntry) : Bool := a.session = b.session

/-- The tables, the registry, and the evidence log by `id`. The policy of an agent is in its
row; as a table of its own, with its checks, it is in `PolicyTransactions`. -/
structure Plane where
  agents : Table sameAgent
  approvals : Table sameApproval
  providers : Table sameProvider
  operators : Table sameOperator
  sessions : Table sameSession
  feed : List FeedEntry
  registry : Table sameRecord

/-- The money tables as the payment path sees them. -/
def Plane.database (s : Plane) : Database where
  order := s.sessions.rows.map SessionEntry.session
  sessions k := (s.sessions.rows.find? fun e => e.session = k).map SessionEntry.row
  tickets k := (s.sessions.rows.find? fun e => e.session = k).bind SessionEntry.ticket
  evidence k := (s.feed.filter fun e => e.session = k).map FeedEntry.row

/-- The agents and approvals as the payment path sees them. -/
def Plane.tables (s : Plane) : Tables :=
  ⟨s.agents.rows.map AgentEntry.toAgentRow, s.approvals.rows.map ApprovalEntry.toApprovalRow⟩

/-! ### Statements -/

/-- Without a workspace every row is in scope; with one, its own rows are. -/
def inScope (workspace owner : Option Text) : Bool := workspace = none || owner = workspace

section Generic
variable {ρ : Type} {clash : ρ → ρ → Bool}

/-- An `INSERT` answers whether it wrote a row. -/
def insertInto (get : Plane → Table clash) (put : Plane → Table clash → Plane) (r : ρ) (s : Plane) :
    Bool × Plane :=
  match (get s).insert r with
  | some t => (true, put s t)
  | none => (false, s)

/-- An `UPDATE` answers whether it selected a row. -/
def updateIn (get : Plane → Table clash) (put : Plane → Table clash → Plane) (p : ρ → Bool)
    (f : ρ → ρ) (s : Plane) : Except DbError (Bool × Plane) :=
  match (get s).update p f with
  | some t => .ok ((get s).rows.any p, put s t)
  | none => .error .constraint

end Generic

def insertAgent := insertInto Plane.agents fun s t => { s with agents := t }
def updateAgents := updateIn Plane.agents fun s t => { s with agents := t }
def updateApprovals := updateIn Plane.approvals fun s t => { s with approvals := t }
def insertProvider := insertInto Plane.providers fun s t => { s with providers := t }
def updateProviders := updateIn Plane.providers fun s t => { s with providers := t }
def insertOperator := insertInto Plane.operators fun s t => { s with operators := t }
def updateOperators := updateIn Plane.operators fun s t => { s with operators := t }

/-- `ORDER BY created_at DESC`. -/
def newestFirst {ρ : Type} (createdAt : ρ → Timestamp) (l : List ρ) : List ρ :=
  l.insertionSort fun a b => createdAt b ≤ createdAt a

section Agents

/-- An agent with the columns the control plane shows besides those the payment path reads. -/
structure AgentDetail extends AgentRecord where
  label : Varchar 128
  ownerPubkey : Option Pubkey
  createdAt : Timestamp
deriving DecidableEq

def agentDetail (a : AgentEntry) : Except DbError AgentDetail := do
  let record ← agentFromRow a.toAgentRow
  pure ⟨record, a.label, a.ownerPubkey, a.createdAt⟩

def createAgent (agentId : Text) (label : Text) (agentPubkey : Pubkey)
    (ownerPubkey : Option Pubkey) (mode : AgentMode) (workspace : Option Text) (now : Timestamp)
    (s : Plane) : Except DbError (Bool × Plane) := do
  let label ← toVarchar 128 label
  pure (insertAgent ⟨⟨agentId, agentPubkey, mode, .active, workspace, none⟩, label, ownerPubkey, now⟩ s)

def listAgents (workspace : Option Text) (s : Plane) : Except DbError (List AgentDetail) :=
  (newestFirst AgentEntry.createdAt
    (s.agents.rows.filter fun a => inScope workspace a.workspaceId)).mapM agentDetail

def agentInScope (agentId : Text) (workspace : Option Text) (a : AgentEntry) : Bool :=
  a.agentId = agentId && inScope workspace a.workspaceId

def getAgent (agentId : Text) (workspace : Option Text) (s : Plane) :
    Except DbError (Option AgentDetail) := do
  bindText agentId
  match s.agents.rows.find? (agentInScope agentId workspace) with
  | none => pure none
  | some a => do
    let detail ← agentDetail a
    pure (some detail)

def setAgentStatus (agentId : Text) (status : AgentStatus) (workspace : Option Text) (s : Plane) :
    Except DbError (Bool × Plane) := do
  bindText agentId
  updateAgents (agentInScope agentId workspace) (fun a => { a with status := status }) s

def thresholdToRow : Option UInt64 → Except DbError (Option Int64)
  | none => pure none
  | some t => do
    let v ← toI64 t "approval_threshold"
    pure (some v)

/-- The bound columns and the `CHECK`s on them; the cast of `max_calls` wraps. -/
def policyToRow (p : AgentPolicy) : Except DbError PolicyRow := do
  let maxTotal ← toI64 p.maxTotal "max_total"
  let maxPerCall ← toI64 p.maxPerCall "max_per_call"
  let approvalThreshold ← thresholdToRow p.approvalThreshold
  require (∀ r ∈ p.allowedResources.getD [], nul ∉ r) .constraint
  require (0 < maxTotal ∧ 0 < maxPerCall) .constraint
  require ((p.maxCalls.map UInt32.toInt32).all fun c => 0 < c) .constraint
  pure ⟨maxTotal, maxPerCall, approvalThreshold, p.allowedResources, p.maxCalls.map UInt32.toInt32⟩

/-- The mode and the envelope move together: a refused envelope rolls back. The tables are
joined here; as a transaction over two of them it is in `PolicyTransactions`. -/
def setPolicy (agentId : Text) (mode : AgentMode) (p : AgentPolicy) (workspace : Option Text)
    (s : Plane) : Except DbError (Bool × Plane) := do
  bindText agentId
  if s.agents.rows.any (agentInScope agentId workspace) then do
    let row ← policyToRow p
    updateAgents (agentInScope agentId workspace)
      (fun a => { a with mode := mode, policy := some row }) s
  else pure (false, s)

end Agents

section Providers

def ProviderRecord.toRow (p : ProviderRecord) (workspace : Option Text) :
    Except DbError ProviderRow := do
  let providerId ← toVarchar 64 p.providerId
  let label ← toVarchar 128 p.label
  bindText p.baseUrl
  pure ⟨providerId, label, p.baseUrl, p.providerPubkey, p.enabled, workspace⟩

def ProviderRecord.Storable (p : ProviderRecord) : Prop :=
  (p.providerId.length ≤ 64 ∧ nul ∉ p.providerId) ∧ (p.label.length ≤ 128 ∧ nul ∉ p.label) ∧
    nul ∉ p.baseUrl

/-- The row an upsert may rewrite: same id, and not another tenant's. -/
def ownProvider (row old : ProviderRow) : Bool :=
  old.providerId = row.providerId && old.workspaceId = row.workspaceId

/-- `upsert_provider`: one statement with a guard on the conflicting row. A row of another
workspace is left as it is, and that is no error. The time of the update is left out. -/
def upsertProvider (p : ProviderRecord) (workspace : Option Text) (s : Plane) :
    Except DbError (PUnit × Plane) := do
  let row ← p.toRow workspace
  match insertProvider row s with
  | (true, t) => pure (⟨⟩, t)
  | (false, _) => do
    let (_, t) ← updateProviders (ownProvider row)
      (fun old => { row with workspaceId := old.workspaceId }) s
    pure (⟨⟩, t)

/-- `ORDER BY provider_id` under the collation of the database. -/
def listProviders (collation : Text → Text → Bool) (workspace : Option Text) (s : Plane) :
    List ProviderRecord :=
  ((s.providers.rows.filter fun r => inScope workspace r.workspaceId).insertionSort
    fun a b => collation a.providerId.text b.providerId.text = true).map ProviderRow.record

def providerInScope (providerId : Text) (workspace : Option Text) (r : ProviderRow) : Bool :=
  r.providerId.text = providerId && inScope workspace r.workspaceId

def deleteProvider (providerId : Text) (workspace : Option Text) (s : Plane) :
    Except DbError (Bool × Plane) := do
  bindText providerId
  pure (s.providers.rows.any (providerInScope providerId workspace),
    { s with providers := s.providers.delete (providerInScope providerId workspace) })

/-! `Registry::upsert`, `remove` and `list`. -/

/-- `Registry::upsert`. A new HTTP client is made beside the record; it starts with nothing
cached, as in `CataloguePrices`. -/
def registryUpsert (record : ProviderRecord) (s : Plane) : Plane :=
  { s with registry := s.registry.upsert record }

def registryRemove (providerId : Text) (s : Plane) : Plane :=
  { s with registry := s.registry.delete fun r => r.providerId = providerId }

def registryList (s : Plane) : List ProviderRecord :=
  s.registry.rows.insertionSort fun a b => ¬b.providerId < a.providerId

/-- `Registry::get`. -/
def registryGet (s : Plane) (providerId : Text) : Option ProviderRecord :=
  s.registry.rows.find? fun r => r.providerId = providerId

end Providers

section Operators

/-- The role and the workspace are left to the defaults of their columns. -/
def createOperator (operatorId : Varchar 64) (label : Text) (tokenHash : Hash) (now : Timestamp)
    (s : Plane) : Except DbError (Bool × Plane) := do
  let label ← toVarchar 128 label
  pure (insertOperator ⟨operatorId, label, tokenHash, .operator, none, true, now, none⟩ s)

def operatorByTokenHash (tokenHash : Hash) (s : Plane) : Option OperatorRow :=
  s.operators.rows.find? fun o => o.tokenHash = tokenHash && o.enabled

def listOperators (s : Plane) : List OperatorRow :=
  newestFirst OperatorRow.createdAt s.operators.rows

def setOperatorEnabled (operatorId : Text) (enabled : Bool) (s : Plane) :
    Except DbError (Bool × Plane) := do
  bindText operatorId
  updateOperators (fun o => o.operatorId.text = operatorId) (fun o => { o with enabled := enabled }) s

def rotateOperatorToken (operatorId : Varchar 64) (tokenHash : Hash) (s : Plane) :
    Except DbError (Bool × Plane) :=
  updateOperators (fun o => o.operatorId = operatorId && o.enabled)
    (fun o => { o with tokenHash := tokenHash }) s

def touchOperator (operatorId : Varchar 64) (now : Timestamp) (s : Plane) :
    Except DbError (Bool × Plane) :=
  updateOperators (fun o => o.operatorId = operatorId) (fun o => { o with lastUsedAt := some now }) s

end Operators

section Approvals

/-- An approval as it is listed. Amounts and times are values here and texts in the answer. -/
structure ApprovalRecord where
  approvalId : Text
  agentId : Text
  session : Option Pubkey
  resource : Text
  price : UInt64
  calls : Int32
  state : ApprovalState
  reason : Option Text
  createdAt : Timestamp
  decidedAt : Option Timestamp
  decidedBy : Option (Varchar 64)
  decidedByLabel : Option (Varchar 128)
deriving DecidableEq

def approvalFromRow (a : ApprovalEntry) : Except DbError ApprovalRecord := do
  let price ← toU64 a.price "approval price"
  pure ⟨a.approvalId, a.agentId, a.session, a.resource, price, a.calls, a.state, a.reason,
    a.createdAt, a.decidedAt, a.decidedBy, a.decidedByLabel⟩

/-- `JOIN agents`: the agent's workspace is the approval's. -/
def approvalInScope (s : Plane) (workspace : Option Text) (a : ApprovalEntry) : Bool :=
  workspace = none ||
    s.agents.rows.any fun g => g.agentId = a.agentId && g.workspaceId = workspace

def listApprovals (limit : ℕ) (workspace : Option Text) (s : Plane) :
    Except DbError (List ApprovalRecord) :=
  ((newestFirst ApprovalEntry.createdAt
    (s.approvals.rows.filter (approvalInScope s workspace))).take limit).mapM approvalFromRow

/-- The row a decision selects: an id and a state, and no workspace. -/
def decidable (approvalId : Text) (a : ApprovalEntry) : Bool :=
  a.approvalId = approvalId && a.state = .pending

def decision (approved : Bool) (reason : Option Text) (decidedBy : Varchar 64)
    (decidedByLabel : Varchar 128) (now : Timestamp) (a : ApprovalEntry) : ApprovalEntry :=
  { a with
    state := if approved then .approved else .rejected
    reason := reason
    decidedAt := some now
    decidedBy := some decidedBy
    decidedByLabel := some decidedByLabel }

/-- `decide_approval`, whatever the workspace: the statement names the approval only. An
approval that was decided before is not found. -/
def decideApproval (approvalId : Text) (approved : Bool) (reason : Option Text)
    (decidedBy : Varchar 64) (decidedByLabel : Varchar 128) (now : Timestamp) (s : Plane) :
    Except DbError (Bool × Plane) := do
  bindText approvalId
  bindText (reason.getD [])
  updateApprovals (decidable approvalId) (decision approved reason decidedBy decidedByLabel now) s

end Approvals

section Listings

/-- `JOIN agents` on the key of the session's agent. -/
def sessionInScope (s : Plane) (workspace : Option Text) (e : SessionEntry) : Bool :=
  workspace = none ||
    s.agents.rows.any fun g => g.agentPubkey = e.row.agent && g.workspaceId = workspace

structure SessionSummary where
  session : Pubkey
  agent : Pubkey
  provider : Pubkey
  mint : Pubkey
  depositedTotal : UInt64
  cumulativeAccepted : UInt64
  lastNonce : Option UInt64
  expiresAt : Int64
  isSettled : Bool
  chainVerified : Bool
  evidenceCount : ℕ
  createdAt : Timestamp
deriving DecidableEq

/-- `n.max(0) as u64`. -/
def nonceFromRow (n : Int64) : UInt64 := if 0 ≤ n then n.toUInt64 else 0

def summaryFromRow (s : Plane) (e : SessionEntry) : Except DbError SessionSummary := do
  let depositedTotal ← toU64 e.row.depositedTotal "deposited_total"
  let cumulativeAccepted ← toU64 ((e.ticket.map TicketRow.cumulativeAmount).getD 0)
    "cumulative_accepted"
  pure ⟨e.session, e.row.agent, e.row.provider, e.row.mint, depositedTotal, cumulativeAccepted,
    e.ticket.map fun t => nonceFromRow t.nonce, e.row.expiresAt, e.row.settled, e.row.chainVerified,
    s.feed.countP fun f => f.session = e.session, e.createdAt⟩

def listSessions (limit : ℕ) (workspace : Option Text) (s : Plane) :
    Except DbError (List SessionSummary) :=
  ((newestFirst SessionEntry.createdAt
    (s.sessions.rows.filter (sessionInScope s workspace))).take limit).mapM (summaryFromRow s)

/-- `JOIN sessions` and `JOIN agents`; the unscoped feed joins nothing. -/
def decisionInScope (s : Plane) (workspace : Option Text) (f : FeedEntry) : Bool :=
  workspace = none ||
    s.sessions.rows.any fun e => e.session = f.session && sessionInScope s workspace e

structure RecentDecision where
  session : Pubkey
  sequenceId : Int64
  decision : Decision
  cumulativeAmount : UInt64
  nonce : UInt64
  entryHash : Hash
  createdAt : Timestamp
deriving DecidableEq

def decisionFromRow (f : FeedEntry) : Except DbError RecentDecision := do
  let cumulativeAmount ← toU64 f.row.cumulativeAmount "cumulative_amount"
  let nonce ← toU64 f.row.nonce "nonce"
  pure ⟨f.session, f.row.sequenceId, f.row.decision, cumulativeAmount, nonce, f.row.entryHash,
    f.createdAt⟩

/-- `ORDER BY created_at DESC, id DESC`. -/
def recentDecisions (limit : ℕ) (workspace : Option Text) (s : Plane) :
    Except DbError (List RecentDecision) :=
  ((newestFirst FeedEntry.createdAt
    (s.feed.filter (decisionInScope s workspace)).reverse).take limit).mapM decisionFromRow

end Listings

/-! ### What the statements do -/
section Facts
variable {ρ : Type} {clash : ρ → ρ → Bool} {get : Plane → Table clash}
variable {put : Plane → Table clash → Plane} {p : ρ → Bool} {f : ρ → ρ} {r : ρ} {s t : Plane} {b : Bool}

theorem bindText_of_clean {x : Text} (h : nul ∉ x) : bindText x = .ok ⟨⟩ := require_eq_ok.mpr h

theorem bindText_of_nul {x : Text} (h : nul ∈ x) : bindText x = .error .constraint :=
  require_eq_error.mpr ⟨not_not.mpr h, rfl⟩

theorem toVarchar_eq_ok {n : ℕ} {x : Text} {v : Varchar n} : toVarchar n x = .ok v ↔ v.text = x := by
  unfold toVarchar
  split_ifs with h
  · rw [Except.ok.injEq]
    exact ⟨fun hv => hv ▸ rfl, fun hv => Varchar.ext hv.symm⟩
  · simp only [false_iff]
    intro hv
    exact h (hv ▸ v.fits)

theorem toVarchar_of_fits {n : ℕ} {x : Text} (h : x.length ≤ n ∧ nul ∉ x) :
    toVarchar n x = .ok ⟨x, h⟩ := toVarchar_eq_ok.mpr rfl

theorem updateIn_eq_ok : updateIn get put p f s = .ok (b, t) ↔
    ∃ u, (get s).update p f = some u ∧ b = (get s).rows.any p ∧ t = put s u := by
  unfold updateIn
  rcases (get s).update p f with _ | u
  · simp
  · simp [eq_comm]

theorem insertInto_cases (h : insertInto get put r s = (b, t)) :
    (∃ u, (get s).insert r = some u ∧ b = true ∧ t = put s u) ∨
      ((get s).insert r = none ∧ b = false ∧ t = s) := by
  unfold insertInto at h
  rcases hi : (get s).insert r with _ | u
  · rw [hi, Prod.mk.injEq] at h
    exact .inr ⟨rfl, h.1.symm, h.2.symm⟩
  · rw [hi, Prod.mk.injEq] at h
    exact .inl ⟨u, rfl, h.1.symm, h.2.symm⟩

/-! The statements on agents write nothing else. -/

theorem createAgent_cases {agentId label : Text} {key : Pubkey} {owner : Option Pubkey}
    {mode : AgentMode} {workspace : Option Text} {now : Timestamp}
    (h : createAgent agentId label key owner mode workspace now s = .ok (b, t)) :
    (∃ l u, l.text = label ∧ s.agents.insert
        ⟨⟨agentId, key, mode, .active, workspace, none⟩, l, owner, now⟩ = some u ∧
          b = true ∧ t = { s with agents := u }) ∨ b = false ∧ t = s := by
  simp only [createAgent, bind_eq_ok, pure_eq_ok, toVarchar_eq_ok] at h
  obtain ⟨l, hl, h⟩ := h
  rcases insertInto_cases h with ⟨u, hu, hb, ht⟩ | ⟨-, hb, ht⟩
  · exact .inl ⟨l, u, hl, hu, hb, ht⟩
  · exact .inr ⟨hb, ht⟩

theorem setAgentStatus_cases {agentId : Text} {status : AgentStatus} {workspace : Option Text}
    (h : setAgentStatus agentId status workspace s = .ok (b, t)) :
    ∃ u, s.agents.update (agentInScope agentId workspace) (fun a => { a with status := status }) =
      some u ∧ t = { s with agents := u } := by
  simp only [setAgentStatus, bind_eq_ok] at h
  obtain ⟨_, -, h⟩ := h
  obtain ⟨u, hu, -, ht⟩ := updateIn_eq_ok.mp h
  exact ⟨u, hu, ht⟩

/-- The payment path sees the same change of status. -/
theorem setAgentStatus_tables {agentId : Text} {status : AgentStatus} {workspace : Option Text}
    (h : setAgentStatus agentId status workspace s = .ok (b, t)) :
    t.tables = ControlPlane.setAgentStatus s.tables agentId status workspace := by
  obtain ⟨u, hu, rfl⟩ := setAgentStatus_cases h
  unfold Plane.tables ControlPlane.setAgentStatus
  rw [Tables.mk.injEq]
  refine ⟨?_, rfl⟩
  simp only [Table.update_rows hu, List.map_map]
  apply List.map_congr_left
  intro a _
  simp only [Function.comp_apply, Table.updated, agentInScope, inScope, Bool.and_eq_true,
    Bool.or_eq_true, decide_eq_true_eq]
  split_ifs <;> rfl

theorem decideApproval_cases {approvalId : Text} {approved : Bool} {reason : Option Text}
    {decidedBy : Varchar 64} {decidedByLabel : Varchar 128} {now : Timestamp}
    (h : decideApproval approvalId approved reason decidedBy decidedByLabel now s = .ok (b, t)) :
    ∃ u, s.approvals.update (decidable approvalId)
      (decision approved reason decidedBy decidedByLabel now) = some u ∧
      t = { s with approvals := u } := by
  simp only [decideApproval, bind_eq_ok] at h
  obtain ⟨_, -, _, -, h⟩ := h
  obtain ⟨u, hu, -, ht⟩ := updateIn_eq_ok.mp h
  exact ⟨u, hu, ht⟩

theorem decideApproval_tables {approvalId : Text} {approved : Bool} {reason : Option Text}
    {decidedBy : Varchar 64} {decidedByLabel : Varchar 128} {now : Timestamp}
    (h : decideApproval approvalId approved reason decidedBy decidedByLabel now s = .ok (b, t)) :
    t.tables = (ControlPlane.decideApproval s.tables approvalId approved).1 := by
  obtain ⟨u, hu, rfl⟩ := decideApproval_cases h
  unfold Plane.tables ControlPlane.decideApproval
  rw [Tables.mk.injEq]
  refine ⟨rfl, ?_⟩
  simp only [Table.update_rows hu, List.map_map]
  apply List.map_congr_left
  intro a _
  simp only [Function.comp_apply, Table.updated]
  by_cases ha : decidable approvalId a = true
  · rw [if_pos ha, if_pos (show undecided approvalId a.toApprovalRow = true from ha)]
    rfl
  · rw [if_neg ha, if_neg (show ¬ undecided approvalId a.toApprovalRow = true from ha)]

theorem setPolicy_cases {agentId : Text} {mode : AgentMode} {p : AgentPolicy}
    {workspace : Option Text} (h : setPolicy agentId mode p workspace s = .ok (b, t)) :
    (∃ row u, policyToRow p = .ok row ∧ s.agents.update (agentInScope agentId workspace)
        (fun a => { a with mode := mode, policy := some row }) = some u ∧
          t = { s with agents := u }) ∨ b = false ∧ t = s := by
  simp only [setPolicy, bind_eq_ok] at h
  obtain ⟨_, -, h⟩ := h
  split_ifs at h
  · simp only [bind_eq_ok] at h
    obtain ⟨row, hrow, h⟩ := h
    obtain ⟨u, hu, -, ht⟩ := updateIn_eq_ok.mp h
    exact .inl ⟨row, u, hrow, hu, ht⟩
  · simp only [pure_eq_ok, Prod.mk.injEq] at h
    exact .inr ⟨h.1.symm, h.2.symm⟩

theorem sameApproval_comm (a b : ApprovalEntry) : sameApproval a b = sameApproval b a := by
  simp [sameApproval, eq_comm]

theorem sameOperator_comm (a b : OperatorRow) : sameOperator a b = sameOperator b a := by
  simp [sameOperator, eq_comm]

theorem sameSession_comm (a b : SessionEntry) : sameSession a b = sameSession b a := by
  simp [sameSession, eq_comm]

theorem operator_eq {o o' : OperatorRow} (ho : o ∈ s.operators.rows) (ho' : o' ∈ s.operators.rows)
    (h : o.operatorId = o'.operatorId) : o = o' :=
  Table.eq_of_clash sameOperator_comm ho ho' (by simp [sameOperator, h])

/-- An enabled operator is who its token resolves to. -/
theorem operatorByTokenHash_of_mem {o : OperatorRow} (ho : o ∈ s.operators.rows)
    (he : o.enabled = true) : operatorByTokenHash o.tokenHash s = some o := by
  apply Table.find?_eq_some_of_mem sameOperator_comm ho
  · simp [he]
  · intro o' ho'
    simp only [Bool.and_eq_true, decide_eq_true_eq] at ho'
    simp [sameOperator, ho'.1]

theorem updateIn_isOk (hk : ∀ a b, clash (Table.updated p f a) (Table.updated p f b) = clash a b) :
    ∃ u, (get s).update p f = some u ∧
      updateIn get put p f s = .ok ((get s).rows.any p, put s u) := by
  obtain ⟨u, hu⟩ := Table.update_isSome (t := get s) hk
  refine ⟨u, hu, ?_⟩
  exact updateIn_eq_ok.mpr ⟨u, hu, rfl, rfl⟩

/-- Columns that are not unique can be set to anything. -/
theorem updateOperators_isOk {p : OperatorRow → Bool} {f : OperatorRow → OperatorRow}
    (hid : ∀ o, (f o).operatorId = o.operatorId) (hh : ∀ o, (f o).tokenHash = o.tokenHash) :
    ∃ u, s.operators.update p f = some u ∧
      updateOperators p f s = .ok (s.operators.rows.any p, { s with operators := u }) := by
  apply updateIn_isOk
  intro a b
  unfold Table.updated
  split_ifs <;> simp [sameOperator, hid, hh]

theorem setOperatorEnabled_of_clean {operatorId : Text} (enabled : Bool) (hn : nul ∉ operatorId) :
    ∃ u, s.operators.update (fun o => o.operatorId.text = operatorId)
        (fun o => { o with enabled := enabled }) = some u ∧
      setOperatorEnabled operatorId enabled s =
        .ok (s.operators.rows.any (fun o => o.operatorId.text = operatorId),
          { s with operators := u }) := by
  unfold setOperatorEnabled
  rw [bindText_of_clean hn, ok_bind]
  exact updateOperators_isOk (fun _ => rfl) fun _ => rfl

theorem touchOperator_isOk {operatorId : Varchar 64} {now : Timestamp} :
    ∃ u, s.operators.update (fun o => o.operatorId = operatorId)
        (fun o => { o with lastUsedAt := some now }) = some u ∧
      touchOperator operatorId now s = .ok (s.operators.rows.any (fun o => o.operatorId = operatorId),
        { s with operators := u }) :=
  updateOperators_isOk (fun _ => rfl) fun _ => rfl

theorem decideApproval_of_clean {approvalId : Text} {approved : Bool} {reason : Option Text}
    {decidedBy : Varchar 64} {decidedByLabel : Varchar 128} {now : Timestamp}
    (hn : nul ∉ approvalId) (hr : nul ∉ reason.getD []) :
    ∃ u, s.approvals.update (decidable approvalId)
        (decision approved reason decidedBy decidedByLabel now) = some u ∧
      decideApproval approvalId approved reason decidedBy decidedByLabel now s =
        .ok (s.approvals.rows.any (decidable approvalId), { s with approvals := u }) := by
  unfold decideApproval
  rw [bindText_of_clean hn, ok_bind, bindText_of_clean hr, ok_bind]
  apply updateIn_isOk
  intro a b
  unfold Table.updated
  split_ifs <;> rfl

theorem toRow_of_storable {p : ProviderRecord} (h : p.Storable) (workspace : Option Text) :
    p.toRow workspace = .ok ⟨⟨p.providerId, h.1⟩, ⟨p.label, h.2.1⟩, p.baseUrl, p.providerPubkey,
      p.enabled, workspace⟩ := by
  unfold ProviderRecord.toRow
  rw [toVarchar_of_fits h.1, ok_bind, toVarchar_of_fits h.2.1, ok_bind, bindText_of_clean h.2.2,
    ok_bind]
  rfl

theorem toRow_eq_ok {p : ProviderRecord} {workspace : Option Text} {row : ProviderRow}
    (h : p.toRow workspace = .ok row) : p.Storable ∧ row.workspaceId = workspace := by
  simp only [ProviderRecord.toRow, bind_eq_ok, pure_eq_ok, toVarchar_eq_ok] at h
  obtain ⟨id, hid, label, hlabel, _, hurl, rfl⟩ := h
  refine ⟨⟨?_, ?_, ?_⟩, rfl⟩
  · rw [← hid]
    exact id.fits
  · rw [← hlabel]
    exact label.fits
  · exact require_eq_ok.mp hurl

theorem updateProviders_isOk (row : ProviderRow) (s : Plane) :
    ∃ u, s.providers.update (ownProvider row) (fun old => { row with workspaceId := old.workspaceId }) =
        some u ∧
      updateProviders (ownProvider row) (fun old => { row with workspaceId := old.workspaceId }) s =
        .ok (s.providers.rows.any (ownProvider row), { s with providers := u }) := by
  have hid : ∀ a : ProviderRow, (Table.updated (ownProvider row)
      (fun old => { row with workspaceId := old.workspaceId }) a).providerId = a.providerId := by
    intro a
    unfold Table.updated
    split_ifs with ho
    · simp only [ownProvider, Bool.and_eq_true, decide_eq_true_eq] at ho
      exact ho.1.symm
    · rfl
  apply updateIn_isOk
  intro a b
  simp only [sameProvider, hid]

theorem upsertProvider_of_storable {p : ProviderRecord} (h : p.Storable) (workspace : Option Text)
    (s : Plane) : ∃ t, upsertProvider p workspace s = .ok (⟨⟩, t) := by
  unfold upsertProvider
  rw [toRow_of_storable h, ok_bind]
  split
  · exact ⟨_, rfl⟩
  · obtain ⟨u, -, hu⟩ := updateProviders_isOk ⟨⟨p.providerId, h.1⟩, ⟨p.label, h.2.1⟩, p.baseUrl,
      p.providerPubkey, p.enabled, workspace⟩ s
    exact ⟨{ s with providers := u }, by rw [hu, ok_bind]; rfl⟩

/-- An upsert inserts a row, or rewrites the one of its id and workspace. -/
theorem upsertProvider_cases {p : ProviderRecord} {workspace : Option Text} {x : PUnit}
    (h : upsertProvider p workspace s = .ok (x, t)) :
    ∃ row u, p.toRow workspace = .ok row ∧ t = { s with providers := u } ∧
      (s.providers.insert row = some u ∨ s.providers.update (ownProvider row)
        (fun old => { row with workspaceId := old.workspaceId }) = some u) := by
  simp only [upsertProvider, bind_eq_ok] at h
  obtain ⟨row, hrow, h⟩ := h
  rcases hi : insertProvider row s with ⟨_ | _, t'⟩
  · rw [hi] at h
    simp only [bind_eq_ok, pure_eq_ok, Prod.mk.injEq, Prod.exists] at h
    obtain ⟨_, _, h, -, rfl⟩ := h
    obtain ⟨u, hu, -, rfl⟩ := updateIn_eq_ok.mp h
    exact ⟨row, u, hrow, rfl, .inr hu⟩
  · rw [hi] at h
    simp only [pure_eq_ok, Prod.mk.injEq] at h
    rcases insertInto_cases hi with ⟨u, hu, -, ht⟩ | ⟨-, hb, -⟩
    · exact ⟨row, u, hrow, h.2.symm.trans ht, .inl hu⟩
    · cases hb

theorem registryGet_upsert {record : ProviderRecord} {id : Text} :
    registryGet (registryUpsert record s) id =
      if id = record.providerId then some record else registryGet s id := by
  unfold registryGet registryUpsert
  have hkey : ∀ a b : ProviderRecord, sameRecord a b = decide (a.providerId = b.providerId) :=
    fun _ _ => rfl
  rw [Table.find?_upsert hkey]
  simp only [eq_comm]

theorem registryGet_remove {id id' : Text} :
    registryGet (registryRemove id' s) id = if id = id' then none else registryGet s id := by
  unfold registryGet registryRemove Table.delete
  simp only [List.find?_filter]
  split_ifs with h
  · subst h
    rw [List.find?_eq_none]
    simp
  · congr 1
    funext a
    by_cases ha : a.providerId = id
    · simp [ha, h]
    · simp [ha]

end Facts

end AgentPay.Workspaces
