import Mathlib.Algebra.Order.BigOperators.Group.List
import Mathlib.Algebra.Order.Group.Int
import Mathlib.Algebra.Order.Group.Nat
import AgentPay.PolicyRules
import AgentPay.SessionStore

/-!
# Agents, policies, approvals and derived spend

The parts of `control_db.rs` the buy path reads and writes. Policies are kept as
their columns, so a read converts and can fail. Labels, owners and timestamps
are left out: nothing in the payment path reads them; `approvals` is in the
order of `created_at`. `agentSpend` derives its figures from the money tables.
-/
namespace AgentPay.ControlPlane
open SolanaRuntime PolicyRules SessionStore Fallible

structure PolicyRow where
  maxTotal : Int64
  maxPerCall : Int64
  approvalThreshold : Option Int64
  allowedResources : Option (List Text)
  maxCalls : Option Int32
deriving DecidableEq

structure AgentRow where
  agentId : Text
  agentPubkey : Pubkey
  mode : AgentMode
  status : AgentStatus
  workspaceId : Option Text
  policy : Option PolicyRow
deriving DecidableEq

inductive ApprovalState where
  | pending
  | approved
  | rejected
  | consumed
deriving DecidableEq, Repr

structure ApprovalRow where
  approvalId : Text
  agentId : Text
  session : Option Pubkey
  resource : Text
  price : Int64
  calls : Int32
  state : ApprovalState
deriving DecidableEq

structure Tables where
  agents : List AgentRow
  approvals : List ApprovalRow
deriving DecidableEq

structure AgentRecord where
  agentId : Text
  agentPubkey : Pubkey
  mode : AgentMode
  status : AgentStatus
  policy : Option AgentPolicy
  workspaceId : Option Text
deriving DecidableEq

/-- `c.max(0) as u32`. -/
def callsFromRow (c : Int32) : UInt32 := if 0 ≤ c then c.toUInt32 else 0

def thresholdFromRow : Option Int64 → Except DbError (Option UInt64)
  | none => pure none
  | some t => do
    let v ← toU64 t "approval_threshold"
    pure (some v)

def policyFromRow (p : PolicyRow) : Except DbError AgentPolicy := do
  let maxTotal ← toU64 p.maxTotal "max_total"
  let maxPerCall ← toU64 p.maxPerCall "max_per_call"
  let approvalThreshold ← thresholdFromRow p.approvalThreshold
  pure ⟨maxTotal, maxPerCall, approvalThreshold, p.allowedResources, p.maxCalls.map callsFromRow⟩

def agentFromRow (a : AgentRow) : Except DbError AgentRecord :=
  match a.policy with
  | none => pure ⟨a.agentId, a.agentPubkey, a.mode, a.status, none, a.workspaceId⟩
  | some p => do
    let policy ← policyFromRow p
    pure ⟨a.agentId, a.agentPubkey, a.mode, a.status, some policy, a.workspaceId⟩

def findAgent (c : Tables) (agent : Pubkey) : Option AgentRow :=
  c.agents.find? fun a => a.agentPubkey = agent

def getAgentByPubkey (c : Tables) (agent : Pubkey) : Except DbError (Option AgentRecord) :=
  match findAgent c agent with
  | none => pure none
  | some row => do
    let record ← agentFromRow row
    pure (some record)

section Spend
variable (db : Database) (agent : Pubkey)

def agentSessions : List Pubkey :=
  db.order.filter fun k => (db.sessions k).map SessionRow.agent = some agent

/-- The sum of the agent's high-water marks, before any conversion. -/
def spentTotal : ℤ := ((agentSessions db agent).map db.amount).sum

/-- The number of `ALLOWED` entries of the agent's sessions. -/
def allowedCount : ℕ :=
  ((agentSessions db agent).map fun k =>
    (db.evidence k).countP fun e => e.decision = .allowed).sum

/-- The sum is cast to `BIGINT` in SQL, where an overflow is an error. -/
def agentSpend : Except DbError Spend := do
  let total := spentTotal db agent
  require (-2 ^ 63 ≤ total ∧ total < 2 ^ 63) DbError.constraint
  let spent ← toU64 (Int64.ofInt total) "agent_spend"
  pure ⟨spent, UInt32.ofNat (min (allowedCount db agent) (2 ^ 32 - 1))⟩

end Spend

section Approvals
variable (c : Tables) (agentId resource : Text) (price : UInt64)

/-- Rows matched by agent, resource, price and state. -/
def matchesApproval (price : Int64) (state : ApprovalState) (r : ApprovalRow) : Bool :=
  r.agentId = agentId && r.resource = resource && r.price = price && r.state = state

/-- Moves the first match from approved to consumed. -/
def consumeFirst (p : ApprovalRow → Bool) : List ApprovalRow → List ApprovalRow × Bool
  | [] => ([], false)
  | r::rest =>
    if p r then ({ r with state := .consumed } :: rest, true) else
      let (rest', done) := consumeFirst p rest
      (r :: rest', done)

def consumeApproval : Except DbError (Tables × Bool) := do
  let price ← toI64 price "approval price"
  let (approvals, done) := consumeFirst (matchesApproval agentId resource price .approved) c.approvals
  pure ({ c with approvals := approvals }, done)

def hasPendingApproval : Except DbError Bool := do
  let price ← toI64 price "approval price"
  pure (c.approvals.any (matchesApproval agentId resource price .pending))

def createApproval (approvalId : Text) : Except DbError Tables := do
  let price ← toI64 price "approval price"
  require (∀ r ∈ c.approvals, r.approvalId ≠ approvalId) DbError.constraint
  pure { c with
    approvals := c.approvals ++ [⟨approvalId, agentId, none, resource, price, 1, .pending⟩] }

def undecided (approvalId : Text) (r : ApprovalRow) : Bool :=
  r.approvalId = approvalId && r.state = .pending

/-- `decide_approval`, with whether a row was selected. -/
def decideApproval (approvalId : Text) (approved : Bool) : Tables × Bool :=
  ({ c with approvals := c.approvals.map fun r =>
      if undecided approvalId r then { r with state := if approved then .approved else .rejected }
      else r },
    c.approvals.any (undecided approvalId))

end Approvals

/-- `set_agent_status`; a workspace confines the update to its own agents. -/
def setAgentStatus (c : Tables) (agentId : Text) (status : AgentStatus)
    (workspace : Option Text) : Tables :=
  { c with agents := c.agents.map fun a =>
      if a.agentId = agentId ∧ (workspace = none ∨ a.workspaceId = workspace) then
        { a with status := status }
      else a }

section Facts
variable {db : Database} {agent : Pubkey}

theorem agentSpend_eq_ok {s : Spend} (h : agentSpend db agent = .ok s) :
    (s.spent.toNat : ℤ) = spentTotal db agent ∧
      s.calls.toNat = min (allowedCount db agent) (2 ^ 32 - 1) := by
  simp only [agentSpend, bind_eq_ok, require_eq_ok, toU64_eq_ok, pure_eq_ok, exists_const] at h
  obtain ⟨⟨hl, hu⟩, v, hv, rfl⟩ := h
  rw [Int64.toInt_ofInt_of_le hl hu] at hv
  refine ⟨hv, ?_⟩
  simp only [UInt32.toNat_ofNat']
  omega

theorem agentFromRow_status {row : AgentRow} {r : AgentRecord} (h : agentFromRow row = .ok r) :
    r.status = row.status := by
  unfold agentFromRow at h
  split at h
  · simp only [pure_eq_ok] at h
    rw [← h]
  · simp only [bind_eq_ok, pure_eq_ok] at h
    obtain ⟨_, _, rfl⟩ := h
    rfl

theorem agentFromRow_policy {row : AgentRow} {r : AgentRecord} (h : agentFromRow row = .ok r)
    (hp : row.policy ≠ none) : r.policy ≠ none := by
  unfold agentFromRow at h
  split at h
  · exact absurd ‹_› hp
  · simp only [bind_eq_ok, pure_eq_ok] at h
    obtain ⟨_, _, rfl⟩ := h
    simp

theorem getAgentByPubkey_eq_none {c : Tables} (h : getAgentByPubkey c agent = .ok none) :
    findAgent c agent = none := by
  unfold getAgentByPubkey at h
  split at h
  · assumption
  · simp only [bind_eq_ok, pure_eq_ok, reduceCtorEq, and_false, exists_false] at h

theorem getAgentByPubkey_eq_some {c : Tables} {r : AgentRecord}
    (h : getAgentByPubkey c agent = .ok (some r)) :
    ∃ row, findAgent c agent = some row ∧ agentFromRow row = .ok r := by
  unfold getAgentByPubkey at h
  split at h
  · simp at h
  · rename_i row hrow
    simp only [bind_eq_ok, pure_eq_ok, Option.some.injEq, exists_eq_right] at h
    exact ⟨row, hrow, h⟩

end Facts

/-! ### Derived spend only grows -/
section Growth
variable {db db' : Database} {agent k : Pubkey}

/-- A sum over a list grows by what one of its members grows by. -/
theorem sum_map_add_le {M α : Type} [AddCommMonoid M] [PartialOrder M] [IsOrderedAddMonoid M]
    {l : List α} {f g : α → M} {k : α} {d : M} (hk : k ∈ l) (hle : ∀ x ∈ l, f x ≤ g x)
    (hd : f k + d ≤ g k) : (l.map f).sum + d ≤ (l.map g).sum := by
  induction l with
  | nil => cases hk
  | cons x l ih =>
    have hx := hle x List.mem_cons_self
    have hl : ∀ y ∈ l, f y ≤ g y := fun y hy => hle y (List.mem_cons_of_mem _ hy)
    simp only [List.map_cons, List.sum_cons]
    rcases List.mem_cons.mp hk with rfl | hk
    · rw [add_right_comm]
      exact add_le_add hd (List.sum_le_sum hl)
    · rw [add_assoc]
      exact add_le_add hx (ih hk hl)

theorem mem_agentSessions : k ∈ agentSessions db agent ↔
    k ∈ db.order ∧ ∃ row, db.sessions k = some row ∧ row.agent = agent := by
  simp [agentSessions]

theorem agentSessions_grows (h : Grows db db') :
    (agentSessions db agent).Sublist (agentSessions db' agent) := by
  refine List.Sublist.trans ?_ (h.order.sublist.filter _)
  refine List.monotone_filter_right _ ?_
  intro k hk
  rw [decide_eq_true_eq, Option.map_eq_some_iff] at hk ⊢
  obtain ⟨row, hrow, ha⟩ := hk
  obtain ⟨row', hrow', he⟩ := h.rows k row hrow
  refine ⟨row', hrow', ?_⟩
  rw [he.terms]
  exact ha

theorem spentTotal_grows (h : Grows db db') (hn : ∀ k, 0 ≤ db'.amount k) :
    spentTotal db agent ≤ spentTotal db' agent := by
  have hsum : spentTotal db agent ≤ ((agentSessions db agent).map db'.amount).sum :=
    List.sum_le_sum fun k _ => h.amounts k
  refine hsum.trans (((agentSessions_grows h).map _).sum_le_sum ?_)
  intro x hx
  obtain ⟨k, -, rfl⟩ := List.mem_map.mp hx
  exact hn k

theorem spentTotal_add_le (h : Grows db db') (hn : ∀ k, 0 ≤ db'.amount k)
    (hk : k ∈ agentSessions db agent) {d : ℤ} (hd : db.amount k + d ≤ db'.amount k) :
    spentTotal db agent + d ≤ spentTotal db' agent := by
  have hsum : spentTotal db agent + d ≤ ((agentSessions db agent).map db'.amount).sum :=
    sum_map_add_le hk (fun k _ => h.amounts k) hd
  refine hsum.trans (((agentSessions_grows h).map _).sum_le_sum ?_)
  intro x hx
  obtain ⟨k, -, rfl⟩ := List.mem_map.mp hx
  exact hn k

/-- The `ALLOWED` entries of one session. -/
def allowedEntries (db : Database) (k : Pubkey) : ℕ :=
  (db.evidence k).countP fun e => e.decision = .allowed

theorem allowedCount_add_le (h : Grows db db') (hk : k ∈ agentSessions db agent) {d : ℕ}
    (hd : allowedEntries db k + d ≤ allowedEntries db' k) :
    allowedCount db agent + d ≤ allowedCount db' agent := by
  have hsum : allowedCount db agent + d ≤
      ((agentSessions db agent).map (allowedEntries db')).sum :=
    sum_map_add_le hk (fun k _ => (h.log k).sublist.countP_le) hd
  exact hsum.trans (((agentSessions_grows h).map _).sum_le_sum fun _ _ => Nat.zero_le _)

theorem allowedCount_grows (h : Grows db db') : allowedCount db agent ≤ allowedCount db' agent := by
  have hsum : allowedCount db agent ≤ ((agentSessions db agent).map (allowedEntries db')).sum :=
    List.sum_le_sum fun k _ => (h.log k).sublist.countP_le
  exact hsum.trans (((agentSessions_grows h).map _).sum_le_sum fun _ _ => Nat.zero_le _)

end Growth

end AgentPay.ControlPlane
