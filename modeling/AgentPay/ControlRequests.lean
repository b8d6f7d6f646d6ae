import AgentPay.PaidRequests
import AgentPay.Workspaces

/-!
# The control-plane handlers

`control.rs` and the two listings of `routes.rs` behind `auth::require_admin`.
What lies outside is a parameter: the shared token, the token hash, the parser
of base58 keys and the collation of the database. Ids, tokens and timestamps a
request generates are inputs of it. The planning endpoint writes nothing and is
left out, and so are the headers a token is taken from. Requests run one at a time.
`Writes` lists what a request can write, and to the payment path all of it is one
change of the control tables.
-/
namespace AgentPay.ControlRequests
open SolanaRuntime EscrowState PolicyRules SessionStore EvidenceLog ControlPlane Workspaces Fallible
open Handlers KeyedTable

/-- The codes a control-plane handler denies with. -/
inductive ControlDenial where
  | malformedRequest
  | unauthorized
  | agentNotFound
  | agentExists
  | providerNotFound
  | operatorExists
  | operatorNotFound
  | sharedTokenNotRotatable
  | controlPlaneUnavailable
  | evidenceUnavailable
  | storeUnavailable
deriving DecidableEq, Repr

/-- What the handlers take from elsewhere: the configured token, SHA-256 of a token, the parser
of keys of another package, and the order in which the database sorts texts. -/
structure Env where
  adminToken : Option Text
  tokenHash : Text → Hash
  parsePubkey : Text → Option Pubkey
  collation : Text → Text → Bool

/-- Who is making a request; `workspaceId = none` is the unscoped legacy admin. The methods that
ask for scope and ownership are comparisons of these fields where a handler makes them. -/
structure Operator where
  operatorId : Varchar 64
  label : Varchar 128
  workspaceId : Option Text
  role : OperatorRole
deriving DecidableEq

def operatorOf (o : OperatorRow) : Operator := ⟨o.operatorId, o.label, o.workspaceId, o.role⟩

/-- What a request generates while it runs. -/
structure Generated where
  requestId : Text
  first : Uuid
  second : Uuid
  third : Uuid
  touchedAt : Timestamp
  now : Timestamp

def trim (t : Text) : Text := trimEnd isWhitespace (trimStart isWhitespace t)

def digitValue (c : Char) : Option ℕ := if c.isDigit then some (c.toNat - 48) else none

def parseDigits : Text → ℕ → Option ℕ
  | [], n => some n
  | c :: cs, n => do
    let d ← digitValue c
    parseDigits cs (10 * n + d)

/-- `s.trim().parse::<u64>().ok()`: a sign `+` is accepted, nothing else is. -/
def parseAmount (s : Text) : Option UInt64 := do
  let digits := match trim s with
    | '+' :: rest => rest
    | t => t
  let n ← if digits = [] then none else parseDigits digits 0
  if n < 2 ^ 64 then some (UInt64.ofNat n) else none

/-- An absent or blank key is no key; any other text must parse. -/
def optionalKey (env : Env) : Option Text → Except ControlDenial (Option Pubkey)
  | none => pure none
  | some t =>
    if trim t = [] then pure none else do
      let key ← okOr (env.parsePubkey t) ControlDenial.malformedRequest
      pure (some key)

structure CreateAgentRequest where
  label : Text
  agentPubkey : Text
  ownerPubkey : Option Text
  mode : Option AgentMode

structure AuthorizeRequest where
  maxTotal : Text
  maxPerCall : Text
  approvalThreshold : Option Text
  allowedResources : Option (List Text)
  maxCalls : Option UInt32
  mode : Option AgentMode

/-- The body of a registration after it was decoded; a missing `enabled` has been read as true
by then. -/
structure RegisterProviderRequest where
  providerId : Text
  label : Text
  baseUrl : Text
  providerPubkey : Option Text
  enabled : Bool

/-- The routes behind `require_admin`, each with the body and the path as they were decoded.
Decoding is the framework's and is left out. -/
inductive Request where
  | listSessions
  | recentDecisions
  | listAgents
  | createAgent (req : CreateAgentRequest)
  | getAgent (agentId : Text)
  | authorizeAgent (agentId : Text) (req : AuthorizeRequest)
  | setAgentStatus (agentId : Text) (status : AgentStatus)
  | listProviders
  | registerProvider (req : RegisterProviderRequest)
  | deleteProvider (providerId : Text)
  | listOperators
  | createOperator (label : Text)
  | setOperatorStatus (operatorId : Text) (enabled : Bool)
  | rotateOwnToken
  | listApprovals
  | decideApproval (approvalId : Text) (approved : Bool) (reason : Option Text)

/-- An agent as it is answered with. Amounts and times are values here and texts in the answer. -/
structure AgentView where
  agentId : Text
  label : Text
  agentPubkey : Pubkey
  ownerPubkey : Option Pubkey
  mode : AgentMode
  status : AgentStatus
  createdAt : Timestamp
  policy : Option AgentPolicy
  spent : UInt64
  calls : UInt32
  remaining : Option UInt64
deriving DecidableEq

structure OperatorView where
  operatorId : Text
  label : Text
  role : OperatorRole
  enabled : Bool
  createdAt : Timestamp
  lastUsedAt : Option Timestamp
deriving DecidableEq

structure CreatedOperatorView where
  operatorId : Text
  label : Text
  token : Text
  note : String
deriving DecidableEq

/-- A session as it is listed, with what its deposit has left. Keys, amounts and times are texts
in the answer. -/
structure SessionSummaryView where
  summary : SessionSummary
  remaining : UInt64
deriving DecidableEq

structure RecentDecisionView where
  decision : RecentDecision
  allowed : Bool
deriving DecidableEq

inductive Body where
  | agent (view : AgentView)
  | agents (views : List AgentView)
  | providers (records : List ProviderRecord)
  | operators (views : List OperatorView)
  | credential (view : CreatedOperatorView)
  | approvals (records : List ApprovalRecord)
  | sessions (views : List SessionSummaryView) (requestId : Text)
  | decisions (views : List RecentDecisionView) (requestId : Text)
deriving DecidableEq

def saturatingSub (a b : UInt64) : UInt64 := (a.checkedSub b).getD 0

theorem toNat_saturatingSub (a b : UInt64) : (saturatingSub a b).toNat = a.toNat - b.toNat := by
  rcases h : a.checkedSub b with _ | c
  · have hlt := UInt64.checkedSub_eq_none.mp h
    rw [saturatingSub, h, Option.getD_none, UInt64.toNat_zero]
    omega
  · have heq := UInt64.checkedSub_eq_some.mp h
    rw [saturatingSub, h, Option.getD_some]
    omega

def view (a : AgentDetail) (spend : Spend) : AgentView where
  agentId := a.agentId
  label := a.label.text
  agentPubkey := a.agentPubkey
  ownerPubkey := a.ownerPubkey
  mode := a.mode
  status := a.status
  createdAt := a.createdAt
  policy := a.policy
  spent := spend.spent
  calls := spend.calls
  remaining := a.policy.map fun p => saturatingSub p.maxTotal spend.spent

def operatorView (o : OperatorRow) : OperatorView :=
  ⟨o.operatorId.text, o.label.text, o.role, o.enabled, o.createdAt, o.lastUsedAt⟩

abbrev Control (α : Type) := Handler Plane ControlDenial α

def unavailable {α : Type} (x : Except DbError α) : Except ControlDenial α :=
  x.mapError fun _ => .controlPlaneUnavailable

theorem unavailable_eq_ok {α : Type} {x : Except DbError α} {a : α} :
    unavailable x = .ok a ↔ x = .ok a := mapError_eq_ok

/-! ### Agents -/
section Agents
variable (env : Env) (op : Operator) (g : Generated)

def requireAgent (agentId : Text) : Control AgentDetail := do
  let found ← query fun s => unavailable (Workspaces.getAgent agentId op.workspaceId s)
  lift (okOr found .agentNotFound)

/-- `agent_spend(..).unwrap_or(Spend { spent: 0, calls: 0 })`. -/
def spendOrZero (s : Plane) (agent : Pubkey) : Spend :=
  match agentSpend s.database agent with
  | .ok spend => spend
  | .error _ => ⟨0, 0⟩

def agentView (agentId : Text) : Control Body := do
  let record ← requireAgent op agentId
  let spend ← query fun s => .ok (spendOrZero s record.agentPubkey)
  pure (.agent (view record spend))

/-- `create_agent`. The identifier is random and comes with the request; that it is new is for
the database to say, and a clash is a refusal. -/
def createAgent (req : CreateAgentRequest) : Control Body := do
  demand (trim req.label ≠ []) .malformedRequest
  let agentPubkey ← lift (okOr (env.parsePubkey req.agentPubkey) .malformedRequest)
  let owner ← lift (optionalKey env req.ownerPubkey)
  let created ← exec fun s => unavailable
    (Workspaces.createAgent (agentIdOf g.first) (trim req.label) agentPubkey owner
      (req.mode.getD .human) op.workspaceId g.now s)
  demand (created = true) .agentExists
  let record ← requireAgent op (agentIdOf g.first)
  pure (.agent (view record ⟨0, 0⟩))

/-- `list_agents`. The agents are one query and the spend of each is another; they are read at
one moment here, and a spend that cannot be read counts as none. -/
def listAgents : Control Body := do
  let records ← query fun s => unavailable (Workspaces.listAgents op.workspaceId s)
  let views ← query fun s => .ok (records.map fun r => view r (spendOrZero s r.agentPubkey))
  pure (.agents views)

def getAgent (agentId : Text) : Control Body := do
  let record ← requireAgent op agentId
  let spend ← query fun s => unavailable (agentSpend s.database record.agentPubkey)
  pure (.agent (view record spend))

def thresholdOf : Option Text → Except ControlDenial (Option UInt64)
  | none => pure none
  | some t =>
    if trim t = [] then pure none else do
      let v ← okOr (parseAmount t) ControlDenial.malformedRequest
      pure (some v)

def envelopeOf (req : AuthorizeRequest) : Except ControlDenial AgentPolicy := do
  let maxTotal ← okOr (parseAmount req.maxTotal) .malformedRequest
  let maxPerCall ← okOr (parseAmount req.maxPerCall) .malformedRequest
  require (maxTotal ≠ 0 ∧ maxPerCall ≠ 0) .malformedRequest
  require (maxPerCall ≤ maxTotal) .malformedRequest
  let approvalThreshold ← thresholdOf req.approvalThreshold
  pure ⟨maxTotal, maxPerCall, approvalThreshold, req.allowedResources, req.maxCalls⟩

/-- `authorize_agent`. The envelope is read before the agent is looked up. The look, the
transaction and the answer are separate calls of the source and one step here. -/
def authorizeAgent (agentId : Text) (req : AuthorizeRequest) : Control Body := do
  let policy ← lift (envelopeOf req)
  let existing ← requireAgent op agentId
  let done ← exec fun s => unavailable
    (setPolicy agentId (req.mode.getD existing.mode) policy op.workspaceId s)
  demand (done = true) .agentNotFound
  agentView op agentId

/-- `set_agent_status`: one guarded update, then the agent is read again for the answer. The two
are one step here. -/
def setAgentStatus (agentId : Text) (status : AgentStatus) : Control Body := do
  let done ← exec fun s => unavailable (Workspaces.setAgentStatus agentId status op.workspaceId s)
  demand (done = true) .agentNotFound
  agentView op agentId

end Agents

/-! ### Providers -/
section Providers
variable (env : Env) (op : Operator)

def recordOf (req : RegisterProviderRequest) : Except ControlDenial ProviderRecord := do
  require (trim req.providerId ≠ [] ∧ trim req.label ≠ [] ∧ trim req.baseUrl ≠ [])
    .malformedRequest
  require ("http://".toList <+: req.baseUrl ∨ "https://".toList <+: req.baseUrl) .malformedRequest
  let providerPubkey ← optionalKey env req.providerPubkey
  pure ⟨trim req.providerId, trim req.label, trim req.baseUrl, providerPubkey, req.enabled⟩

def registryBody : Control Body := query fun s => .ok (.providers (registryList s))

/-- `register_provider`. The statement may leave the table alone and still succeed, and the
registry is written whatever it did. That a request can be cut between the two is in
`RegistryMirror`. -/
def registerProvider (req : RegisterProviderRequest) : Control Body := do
  let record ← lift (recordOf env req)
  exec fun s => unavailable (upsertProvider record op.workspaceId s)
  exec fun s => .ok ((), registryUpsert record s)
  registryBody

/-- A scoped caller is answered from the database, the legacy admin from the
registry. -/
def listProviders : Control Body :=
  match op.workspaceId with
  | some w => query fun s => .ok (.providers (Workspaces.listProviders env.collation (some w) s))
  | none => registryBody

/-- `delete_provider`. The registry drops the entry before it is asked whether a row was
deleted. That a request can be cut before that is in `RegistryMirror`. -/
def deleteProvider (providerId : Text) : Control Body := do
  let removed ← exec fun s => unavailable (Workspaces.deleteProvider providerId op.workspaceId s)
  exec fun s => .ok ((), registryRemove providerId s)
  demand (removed = true) .providerNotFound
  registryBody

end Providers

/-! ### Operators -/
section Operators
variable (env : Env) (op : Operator) (g : Generated)

def sharedTokenOperator : Varchar 64 := ⟨"op_shared_token".toList, by decide⟩

def tokenOf : Text := g.first.text ++ g.second.text

/-- `create_operator`. The random bytes behind the identifier and the token come with the
request. Only the digest of the token is stored, and the answer is the one place the token
appears in. -/
def createOperator (label : Text) : Control Body := do
  demand (trim label ≠ []) .malformedRequest
  let created ← exec fun s => unavailable
    (Workspaces.createOperator (operatorIdOf g.third) (trim label) (env.tokenHash (tokenOf g)) g.now s)
  demand (created = true) .operatorExists
  pure (.credential ⟨(operatorIdOf g.third).text, trim label, tokenOf g,
    "Store this now. Only its hash is kept, so it cannot be shown again."⟩)

def listOperators : Control Body :=
  query fun s => .ok (.operators ((Workspaces.listOperators s).map operatorView))

/-- `rotate_own_token`. The new token replaces the old one with a single update of the caller's
own row; the shared token has no row and is refused. -/
def rotateOwnToken : Control Body := do
  demand (op.operatorId ≠ sharedTokenOperator) .sharedTokenNotRotatable
  let rotated ← exec fun s => unavailable
    (rotateOperatorToken op.operatorId (env.tokenHash (tokenOf g)) s)
  demand (rotated = true) .operatorNotFound
  pure (.credential ⟨op.operatorId.text, op.label.text, tokenOf g,
    "Store this now. The previous token stopped working immediately, and only a hash of this one is kept."⟩)

/-- `set_operator_status`: an update, then the listing of all operators. The two are one step
here and two moves in `OperatorCredentials`, where the second may fail after the first. -/
def setOperatorStatus (operatorId : Text) (enabled : Bool) : Control Body := do
  let done ← exec fun s => unavailable (setOperatorEnabled operatorId enabled s)
  demand (done = true) .operatorNotFound
  listOperators

end Operators

/-! ### Approvals and listings -/
section Approvals
variable (op : Operator) (g : Generated)

def listApprovals : Control Body := do
  let records ← query fun s => unavailable (Workspaces.listApprovals 200 op.workspaceId s)
  pure (.approvals records)

/-- `decide_approval`: one guarded update, then the listing of the approvals. An approval that
is unknown or was decided already is answered as a malformed request. -/
def decideApproval (approvalId : Text) (approved : Bool) (reason : Option Text) : Control Body := do
  let decided ← exec fun s => unavailable
    (Workspaces.decideApproval approvalId approved reason op.operatorId op.label g.now s)
  demand (decided = true) .malformedRequest
  listApprovals op

/-- `list_sessions`: the 200 newest that the caller may see, with what is left of each deposit. -/
def listSessions : Control Body := do
  let rows ← query fun s => (Workspaces.listSessions 200 op.workspaceId s).mapError fun _ =>
    ControlDenial.storeUnavailable
  pure (.sessions (rows.map fun r => ⟨r, saturatingSub r.depositedTotal r.cumulativeAccepted⟩)
    g.requestId)

/-- `recent_decisions`: the 60 newest that the caller may see, whatever session they are of. -/
def recentDecisions : Control Body := do
  let rows ← query fun s => (Workspaces.recentDecisions 60 op.workspaceId s).mapError fun _ =>
    ControlDenial.evidenceUnavailable
  pure (.decisions (rows.map fun r => ⟨r, r.decision = .allowed⟩) g.requestId)

end Approvals

/-! ### Requests -/
section Requests
variable (env : Env)

/-- The handler of a request, run to its end with no other request in between. A gateway without
a database denies every one of these requests; it is not modelled. -/
def handle (op : Operator) (g : Generated) : Request → Control Body
  | .listSessions => listSessions op g
  | .recentDecisions => recentDecisions op g
  | .listAgents => listAgents op
  | .createAgent req => createAgent env op g req
  | .getAgent agentId => getAgent op agentId
  | .authorizeAgent agentId req => authorizeAgent op agentId req
  | .setAgentStatus agentId status => setAgentStatus op agentId status
  | .listProviders => listProviders env op
  | .registerProvider req => registerProvider env op req
  | .deleteProvider providerId => deleteProvider op providerId
  | .listOperators => listOperators
  | .createOperator label => createOperator env g label
  | .setOperatorStatus operatorId enabled => setOperatorStatus operatorId enabled
  | .rotateOwnToken => rotateOwnToken env op g
  | .listApprovals => listApprovals op
  | .decideApproval approvalId approved reason => decideApproval op g approvalId approved reason

def loopbackOperator : Operator :=
  ⟨sharedTokenOperator, ⟨"Unauthenticated (loopback)".toList, by decide⟩, none, .owner⟩

def sharedOperator : Operator :=
  ⟨sharedTokenOperator, ⟨"Shared admin token".toList, by decide⟩, none, .owner⟩

/-- Best effort: a failed timestamp does not refuse the request. -/
def touch (operatorId : Varchar 64) (now : Timestamp) (s : Plane) : Plane :=
  match touchOperator operatorId now s with
  | .ok (_, t) => t
  | .error _ => s

/-- The shared token is tried first; tokens are compared by their digests. The token has been
taken out of its header before. Here lookup, stamp and handler are one step; between other
requests they are moves of their own in `OperatorCredentials`. -/
def requireAdmin (presented : Option Text) (g : Generated) : Control Operator :=
  match env.adminToken with
  | none => pure loopbackOperator
  | some expected => do
    let token ← lift (okOr presented .unauthorized)
    if env.tokenHash token = env.tokenHash expected then pure sharedOperator else do
      let row ← query fun s => okOr (operatorByTokenHash (env.tokenHash token) s) .unauthorized
      exec fun s => .ok ((), touch row.operatorId g.touchedAt s)
      pure (operatorOf row)

/-- The row a per-operator token resolves to. -/
def callerRow (presented : Option Text) (s : Plane) : Option OperatorRow :=
  match env.adminToken, presented with
  | some expected, some token =>
    if env.tokenHash token = env.tokenHash expected then none
    else operatorByTokenHash (env.tokenHash token) s
  | _, _ => none

structure Call where
  token : Option Text
  generated : Generated
  request : Request

def serve (c : Call) : Control Body := do
  let op ← requireAdmin env c.token c.generated
  handle env op c.generated c.request

/-- A request is served in one step, all its statements together and none of them failing, and
no deadline passes; or the payment path writes its own tables. -/
inductive PlaneStep : Plane → Option Call → Plane → Prop
  | request (s : Plane) (c : Call) : PlaneStep s (some c) ((serve env c).run s).2
  | payment {s t : Plane} : t.agents = s.agents → t.providers = s.providers →
      t.operators = s.operators → t.registry = s.registry → PlaneStep s none t

theorem callerRow_mem {env : Env} {presented : Option Text} {s : Plane} {row : OperatorRow}
    (h : callerRow env presented s = some row) : row ∈ s.operators.rows := by
  unfold callerRow at h
  split at h
  · split_ifs at h
    exact List.mem_of_find?_eq_some h
  · cases h

theorem touch_column {γ : Type} (column : OperatorRow → γ)
    (hcol : ∀ o now, column { o with lastUsedAt := some now } = column o)
    (operatorId : Varchar 64) (now : Timestamp) (s : Plane) :
    ∃ u, touch operatorId now s = { s with operators := u } ∧
      u.rows.map column = s.operators.rows.map column := by
  obtain ⟨u, hu, hok⟩ := @touchOperator_isOk s operatorId now
  refine ⟨u, ?_, ?_⟩
  · unfold touch
    rw [hok]
  · rw [Table.update_rows hu, List.map_map]
    apply List.map_congr_left
    intro o _
    simp only [Function.comp_apply, Table.updated]
    split_ifs
    · exact hcol o now
    · rfl

/-- A request with a per-operator token is handled for the row it resolves to. -/
theorem serve_of_callerRow {env : Env} {c : Call} {s : Plane} {row : OperatorRow}
    (h : callerRow env c.token s = some row) :
    (serve env c).run s = (handle env (operatorOf row) c.generated c.request).run
      (touch row.operatorId c.generated.touchedAt s) := by
  have hr : (requireAdmin env c.token c.generated).run s =
      (.ok (operatorOf row), touch row.operatorId c.generated.touchedAt s) := by
    unfold callerRow at h
    unfold requireAdmin
    split at h
    · rename_i expected token he ht
      rw [he, ht]
      split_ifs at h with hx
      have hq : (query fun s => okOr (operatorByTokenHash (env.tokenHash token) s)
          ControlDenial.unauthorized).run s = (.ok row, s) := by
        rw [run_query, h]
        rfl
      have hl : (lift (okOr (some token) ControlDenial.unauthorized)).run s = (.ok token, s) := rfl
      rw [run_bind_of_ok hl, if_neg hx, run_bind_of_ok hq]
      rfl
    · cases h
  exact run_bind_of_ok hr

end Requests

/-! ### What the handlers write

Each handler keeps a relation that the statement it makes keeps. -/
section Keeps
variable {R : Plane → Plane → Prop} {env : Env} {op : Operator} {g : Generated}

theorem reads_requireAgent (agentId : Text) : Reads (requireAgent op agentId) :=
  reads_bind (reads_query _) fun _ => reads_query _

theorem reads_agentView (agentId : Text) : Reads (agentView op agentId) :=
  reads_bind (reads_requireAgent agentId) fun _ => reads_bind (reads_query _) fun _ => reads_pure _

theorem reads_getAgent (agentId : Text) : Reads (getAgent op agentId) :=
  reads_bind (reads_requireAgent agentId) fun _ => reads_bind (reads_query _) fun _ => reads_pure _

theorem reads_listAgents : Reads (listAgents op) :=
  reads_bind (reads_query _) fun _ => reads_bind (reads_query _) fun _ => reads_pure _

theorem reads_listProviders (env : Env) : Reads (listProviders env op) := by
  unfold listProviders
  split
  · exact reads_query _
  · exact reads_query _

theorem reads_listApprovals : Reads (listApprovals op) :=
  reads_bind (reads_query _) fun _ => reads_pure _

theorem reads_listSessions (g : Generated) : Reads (listSessions op g) :=
  reads_bind (reads_query _) fun _ => reads_pure _

theorem reads_recentDecisions (g : Generated) : Reads (recentDecisions op g) :=
  reads_bind (reads_query _) fun _ => reads_pure _

section Statements
variable {α β : Type} {u : Plane → Except DbError (α × Plane)} {f : α → Control β} {s t : Plane}

/-- A handler that writes with its first statement only. -/
theorem after_statement {a : α} (h : u s = .ok (a, t)) (hf : ∀ a, Reads (f a)) :
    ((exec (fun s => unavailable (u s)) >>= f).run s).2 = t :=
  run_exec_bind_reads (unavailable_eq_ok.mpr h) (hf a)

theorem after_failed_statement {e : DbError} (h : u s = .error e) :
    ((exec (fun s => unavailable (u s)) >>= f).run s).2 = s :=
  run_exec_bind_of_error (mapError_eq_error.mpr ⟨e, h, rfl⟩)

theorem keeps_statement (hR : Frame R) (h : ∀ s a t, u s = .ok (a, t) → R s t)
    (hf : ∀ a, Reads (f a)) : Keeps R (exec (fun s => unavailable (u s)) >>= f) :=
  keeps_bind hR (keeps_exec hR fun s a t hu => h s a t (unavailable_eq_ok.mp hu)) fun a =>
    (hf a).keeps hR

end Statements

theorem keeps_createAgent (hR : Frame R) {req : CreateAgentRequest}
    (h : ∀ s b t agentId label key owner mode,
      Workspaces.createAgent agentId label key owner mode op.workspaceId g.now s = .ok (b, t) → R s t) :
    Keeps R (createAgent env op g req) := by
  refine keeps_bind hR (keeps_query hR _) fun _ => ?_
  refine keeps_bind hR (keeps_query hR _) fun _ => ?_
  refine keeps_bind hR (keeps_query hR _) fun _ => ?_
  refine keeps_statement hR (fun s b t => h s b t _ _ _ _ _) fun _ => ?_
  exact reads_bind (reads_query _) fun _ => reads_bind (reads_requireAgent _) fun _ => reads_pure _

theorem keeps_authorizeAgent (hR : Frame R) {agentId : Text} {req : AuthorizeRequest}
    (h : ∀ s b t mode policy, setPolicy agentId mode policy op.workspaceId s = .ok (b, t) → R s t) :
    Keeps R (authorizeAgent op agentId req) := by
  refine keeps_bind hR (keeps_query hR _) fun _ => ?_
  refine keeps_bind hR ((reads_requireAgent _).keeps hR) fun _ => ?_
  refine keeps_statement hR (fun s b t => h s b t _ _) fun _ => ?_
  exact reads_bind (reads_query _) fun _ => reads_agentView _

theorem keeps_setAgentStatus (hR : Frame R) {agentId : Text} {status : AgentStatus}
    (h : ∀ s b t, Workspaces.setAgentStatus agentId status op.workspaceId s = .ok (b, t) → R s t) :
    Keeps R (setAgentStatus op agentId status) :=
  keeps_statement hR h fun _ => reads_bind (reads_query _) fun _ => reads_agentView _

theorem keeps_createOperator (hR : Frame R) {label : Text}
    (h : ∀ s b t, Workspaces.createOperator (operatorIdOf g.third) (trim label)
      (env.tokenHash (tokenOf g)) g.now s = .ok (b, t) → R s t) :
    Keeps R (createOperator env g label) := by
  refine keeps_bind hR (keeps_query hR _) fun _ => ?_
  exact keeps_statement hR h fun _ => reads_bind (reads_query _) fun _ => reads_pure _

theorem keeps_rotateOwnToken (hR : Frame R)
    (h : ∀ s b t, rotateOperatorToken op.operatorId (env.tokenHash (tokenOf g)) s = .ok (b, t) →
      R s t) : Keeps R (rotateOwnToken env op g) := by
  refine keeps_bind hR (keeps_query hR _) fun _ => ?_
  exact keeps_statement hR h fun _ => reads_bind (reads_query _) fun _ => reads_pure _

theorem keeps_setOperatorStatus (hR : Frame R) {operatorId : Text} {enabled : Bool}
    (h : ∀ s b t, setOperatorEnabled operatorId enabled s = .ok (b, t) → R s t) :
    Keeps R (setOperatorStatus operatorId enabled) :=
  keeps_statement hR h fun _ => reads_bind (reads_query _) fun _ => reads_query _

theorem keeps_decideApproval (hR : Frame R) {approvalId : Text} {approved : Bool}
    {reason : Option Text}
    (h : ∀ s b t, Workspaces.decideApproval approvalId approved reason op.operatorId op.label g.now s =
      .ok (b, t) → R s t) : Keeps R (decideApproval op g approvalId approved reason) :=
  keeps_statement hR h fun _ => reads_bind (reads_query _) fun _ => reads_listApprovals

theorem keeps_registry (hR : Frame R) {f : Plane → Plane} (h : ∀ s, R s (f s)) :
    Keeps R (exec fun s => .ok ((), f s) : Control Unit) := by
  refine keeps_exec hR fun s _ t ht => ?_
  cases ht
  exact h s

theorem keeps_registerProvider (hR : Frame R) {req : RegisterProviderRequest}
    (h : ∀ s x t record, upsertProvider record op.workspaceId s = .ok (x, t) → R s t)
    (hreg : ∀ s record, R s (registryUpsert record s)) : Keeps R (registerProvider env op req) := by
  refine keeps_bind hR (keeps_query hR _) fun record => ?_
  refine keeps_bind hR (keeps_exec hR fun s x t hu => h s x t record (unavailable_eq_ok.mp hu))
    fun _ => ?_
  exact keeps_bind hR (keeps_registry hR fun s => hreg s record) fun _ => keeps_query hR _

theorem keeps_deleteProvider (hR : Frame R) {providerId : Text}
    (h : ∀ s b t, Workspaces.deleteProvider providerId op.workspaceId s = .ok (b, t) → R s t)
    (hreg : ∀ s, R s (registryRemove providerId s)) : Keeps R (deleteProvider op providerId) := by
  refine keeps_bind hR (keeps_exec hR fun s b t hu => h s b t (unavailable_eq_ok.mp hu)) fun _ => ?_
  refine keeps_bind hR (keeps_registry hR hreg) fun _ => ?_
  exact keeps_bind hR (keeps_query hR _) fun _ => keeps_query hR _

theorem keeps_requireAdmin (hR : Frame R) {presented : Option Text}
    (h : ∀ s operatorId, R s (touch operatorId g.touchedAt s)) :
    Keeps R (requireAdmin env presented g) := by
  unfold requireAdmin
  split
  · exact keeps_pure hR _
  · refine keeps_bind hR (keeps_query hR _) fun token => ?_
    split_ifs
    · exact keeps_pure hR _
    · refine keeps_bind hR (keeps_query hR _) fun row => ?_
      exact keeps_bind hR (keeps_registry hR fun s => h s row.operatorId) fun _ => keeps_pure hR _

end Keeps

/-! ### What a whole request writes -/

/-- The writes of a statement, table by table: no request touches a session, a
ticket or the evidence, and an operator keeps its id and its workspace. -/
inductive Writes (s : Plane) : Plane → Prop
  | agents (u : Table sameAgent) : Writes s { s with agents := u }
  | approvals {approvalId : Text} {approved : Bool} {reason : Option Text}
      {decidedBy : Varchar 64} {decidedByLabel : Varchar 128} {now : Timestamp} {b : Bool}
      {t : Plane} : Workspaces.decideApproval approvalId approved reason decidedBy decidedByLabel
        now s = .ok (b, t) → Writes s t
  | providers (u : Table sameProvider) : Writes s { s with providers := u }
  | registry (u : Table sameRecord) : Writes s { s with registry := u }
  | newOperator {o : OperatorRow} {u : Table sameOperator} : o.workspaceId = none →
      s.operators.insert o = some u → Writes s { s with operators := u }
  | operators {p : OperatorRow → Bool} {f : OperatorRow → OperatorRow} {u : Table sameOperator} :
      (∀ o, (f o).operatorId = o.operatorId) → (∀ o, (f o).workspaceId = o.workspaceId) →
      s.operators.update p f = some u → Writes s { s with operators := u }

section Writes
variable {R : Plane → Plane → Prop} {env : Env} {s t : Plane} {b : Bool}

theorem updateOperators_writes {p : OperatorRow → Bool} {f : OperatorRow → OperatorRow}
    (h : updateOperators p f s = .ok (b, t)) (hid : ∀ o, (f o).operatorId = o.operatorId)
    (hw : ∀ o, (f o).workspaceId = o.workspaceId) : Writes s t := by
  obtain ⟨u, hu, -, rfl⟩ := updateIn_eq_ok.mp h
  exact .operators hid hw hu

theorem createOperator_writes (hR : Frame R) (h : ∀ {s t}, Writes s t → R s t)
    {operatorId : Varchar 64} {label : Text} {hash : Hash} {now : Timestamp}
    (hc : Workspaces.createOperator operatorId label hash now s = .ok (b, t)) : R s t := by
  simp only [Workspaces.createOperator, bind_eq_ok, pure_eq_ok] at hc
  obtain ⟨_, -, hc⟩ := hc
  rcases insertInto_cases hc with ⟨u, hu, -, rfl⟩ | ⟨-, -, rfl⟩
  · exact h (.newOperator rfl hu)
  · exact hR.refl _

theorem touch_writes (hR : Frame R) (h : ∀ {s t}, Writes s t → R s t) (s : Plane)
    (operatorId : Varchar 64) (now : Timestamp) : R s (touch operatorId now s) := by
  unfold touch
  rcases ht : touchOperator operatorId now s with e | ⟨b, t⟩
  · exact hR.refl s
  · exact h (updateOperators_writes ht (fun _ => rfl) fun _ => rfl)

theorem keeps_handle (hR : Frame R) (h : ∀ {s t}, Writes s t → R s t) (op : Operator)
    (g : Generated) (req : Request) : Keeps R (handle env op g req) := by
  cases req with
  | listSessions => exact (reads_listSessions g).keeps hR
  | recentDecisions => exact (reads_recentDecisions g).keeps hR
  | listAgents => exact reads_listAgents.keeps hR
  | createAgent req =>
    refine keeps_createAgent hR fun s b t _ _ _ _ _ hc => ?_
    rcases createAgent_cases hc with ⟨_, u, -, -, -, rfl⟩ | ⟨-, rfl⟩
    · exact h (.agents u)
    · exact hR.refl _
  | getAgent agentId => exact (reads_getAgent agentId).keeps hR
  | authorizeAgent agentId req =>
    refine keeps_authorizeAgent hR fun s b t _ _ hc => ?_
    rcases setPolicy_cases hc with ⟨_, u, -, -, rfl⟩ | ⟨-, rfl⟩
    · exact h (.agents u)
    · exact hR.refl _
  | setAgentStatus agentId status =>
    refine keeps_setAgentStatus hR fun s b t hc => ?_
    obtain ⟨u, -, rfl⟩ := setAgentStatus_cases hc
    exact h (.agents u)
  | listProviders => exact (reads_listProviders env).keeps hR
  | registerProvider req =>
    refine keeps_registerProvider hR (fun s x t _ hc => ?_) fun s _ => h (.registry _)
    obtain ⟨_, u, -, rfl, -⟩ := upsertProvider_cases hc
    exact h (.providers u)
  | deleteProvider providerId =>
    refine keeps_deleteProvider hR (fun s b t hc => ?_) fun s => h (.registry _)
    simp only [Workspaces.deleteProvider, bind_eq_ok, pure_eq_ok, Prod.mk.injEq] at hc
    obtain ⟨_, -, -, rfl⟩ := hc
    exact h (.providers _)
  | listOperators => exact (reads_query _).keeps hR
  | createOperator label => exact keeps_createOperator hR fun s b t hc => createOperator_writes hR h hc
  | setOperatorStatus operatorId enabled =>
    refine keeps_setOperatorStatus hR fun s b t hc => ?_
    simp only [setOperatorEnabled, bind_eq_ok] at hc
    obtain ⟨_, -, hc⟩ := hc
    exact h (updateOperators_writes hc (fun _ => rfl) fun _ => rfl)
  | rotateOwnToken =>
    refine keeps_rotateOwnToken hR fun s b t hc => ?_
    exact h (updateOperators_writes hc (fun _ => rfl) fun _ => rfl)
  | listApprovals => exact reads_listApprovals.keeps hR
  | decideApproval approvalId approved reason =>
    exact keeps_decideApproval hR fun s b t hc => h (.approvals hc)

/-- A request keeps what each write keeps, whether it is answered or denied. -/
theorem keeps_serve (hR : Frame R) (h : ∀ {s t}, Writes s t → R s t) (c : Call) :
    Keeps R (serve env c) := by
  refine keeps_bind hR ?_ fun op => keeps_handle hR h op _ _
  exact keeps_requireAdmin hR fun s id => touch_writes hR h s id _

/-- What the gateway's requests share with the control plane. -/
def shared (s : Plane) : PaidRequests.Shared := ⟨s.database, s.tables⟩

/-- To the payment path, every request is one outside event: the control tables
change and the money does not. -/
theorem serve_outside (env : Env) (c : Call) (s : Plane) :
    PaidRequests.Outside (shared s) (.control ((serve env c).run s).2.tables)
      (shared ((serve env c).run s).2) := by
  have hR : Frame fun s t : Plane => t.database = s.database := ⟨fun _ => rfl, fun h h' => h'.trans h⟩
  have hdb : ((serve env c).run s).2.database = s.database := by
    refine keeps_serve hR ?_ c s
    intro s t hw
    cases hw with
    | approvals hok =>
      obtain ⟨u, -, rfl⟩ := decideApproval_cases hok
      rfl
    | _ => rfl
  have hshared : shared ((serve env c).run s).2 =
      { shared s with control := ((serve env c).run s).2.tables } := by
    unfold shared
    rw [hdb]
  rw [hshared]
  exact .control

end Writes

end AgentPay.ControlRequests
