import AgentPay.TenantWrites

/-!
# Whose rows a control-plane response shows

Two states hold the same rows of one workspace, each in the same order, and may
differ in everything else. An operator of that workspace makes the same request
in both, with the same generated ids, tokens and timestamps, and gets an answer in
both. A handler that confines its queries to the workspace then gives the same
answer. Four requests list what belongs to everybody: the operators, and the
registry after a provider was registered or deleted. `Discloses` says which
requests these are, and for each of them two such states are built that are
answered differently.
-/
namespace AgentPay.TenantReads
open SolanaRuntime EscrowState PolicyRules SessionStore EvidenceLog ControlPlane Workspaces
open ControlRequests Fallible Handlers KeyedTable

/-- The rows of a workspace: an approval and a session are its agent's, an entry
of the evidence log is its session's. -/
structure AgreeOn (w : Text) (s₁ s₂ : Plane) : Prop where
  agents : s₁.agents.rows.filter (fun a => a.workspaceId = some w) =
    s₂.agents.rows.filter (fun a => a.workspaceId = some w)
  approvals : s₁.approvals.rows.filter (approvalInScope s₁ (some w)) =
    s₂.approvals.rows.filter (approvalInScope s₂ (some w))
  providers : s₁.providers.rows.filter (fun r => r.workspaceId = some w) =
    s₂.providers.rows.filter (fun r => r.workspaceId = some w)
  operators : s₁.operators.rows.filter (fun o => o.workspaceId = some w) =
    s₂.operators.rows.filter (fun o => o.workspaceId = some w)
  sessions : s₁.sessions.rows.filter (sessionInScope s₁ (some w)) =
    s₂.sessions.rows.filter (sessionInScope s₂ (some w))
  evidence : s₁.feed.filter (decisionInScope s₁ (some w)) =
    s₂.feed.filter (decisionInScope s₂ (some w))

/-- The requests that answer with rows of every workspace, when they pass their
checks. -/
def Discloses (env : Env) : Request → Prop
  | .listOperators => True
  | .setOperatorStatus operatorId _ => operatorId.length ≤ 64 ∧ nul ∉ operatorId
  | .registerProvider req => ∃ record, recordOf env req = .ok record ∧ record.Storable
  | .deleteProvider providerId => providerId.length ≤ 64 ∧ nul ∉ providerId
  | _ => False

/-! ### Queries confined to a workspace -/
section Queries
variable {w : Text} {s s₁ s₂ : Plane}

theorem inScope_some : inScope (some w) = fun owner => decide (owner = some w) := by
  funext owner
  simp [inScope]

/-- The workspace has an agent with this key. -/
def Registered (w : Text) (key : Pubkey) (s : Plane) : Prop :=
  ∃ a ∈ s.agents.rows.filter (fun a => a.workspaceId = some w), a.agentPubkey = key

theorem listAgents_congr (h : s₁.agents.rows.filter (fun a => a.workspaceId = some w) =
    s₂.agents.rows.filter (fun a => a.workspaceId = some w)) :
    Workspaces.listAgents (some w) s₁ = Workspaces.listAgents (some w) s₂ := by
  unfold Workspaces.listAgents
  simp only [inScope_some]
  rw [h]

/-- Looking an agent up in a workspace is looking it up among its agents. -/
theorem find_agentInScope (agentId : Text) : s.agents.rows.find? (agentInScope agentId (some w)) =
    (s.agents.rows.filter fun a => a.workspaceId = some w).find? fun a => a.agentId = agentId := by
  rw [List.find?_filter]
  congr 1
  funext a
  simp [agentInScope, inScope, and_comm]

theorem getAgent_congr (h : s₁.agents.rows.filter (fun a => a.workspaceId = some w) =
    s₂.agents.rows.filter (fun a => a.workspaceId = some w)) (agentId : Text) :
    Workspaces.getAgent agentId (some w) s₁ = Workspaces.getAgent agentId (some w) s₂ := by
  unfold Workspaces.getAgent
  rw [find_agentInScope, find_agentInScope, h]

theorem agentDetail_pubkey {a : AgentEntry} {d : AgentDetail} (h : agentDetail a = .ok d) :
    d.agentPubkey = a.agentPubkey := by
  simp only [agentDetail, bind_eq_ok, pure_eq_ok] at h
  obtain ⟨r, hr, rfl⟩ := h
  unfold agentFromRow at hr
  split at hr
  · simp only [pure_eq_ok] at hr
    rw [← hr]
  · simp only [bind_eq_ok, pure_eq_ok] at hr
    obtain ⟨_, -, rfl⟩ := hr
    rfl

theorem getAgent_registered {agentId : Text} {d : AgentDetail}
    (h : Workspaces.getAgent agentId (some w) s = .ok (some d)) : Registered w d.agentPubkey s := by
  simp only [Workspaces.getAgent, bind_eq_ok, find_agentInScope] at h
  obtain ⟨_, -, h⟩ := h
  split at h
  · simp at h
  · rename_i a ha
    simp only [bind_eq_ok, pure_eq_ok, Option.some.injEq, exists_eq_right] at h
    exact ⟨a, List.mem_of_find?_eq_some ha, (agentDetail_pubkey h).symm⟩

theorem listAgents_registered {ds : List AgentDetail}
    (h : Workspaces.listAgents (some w) s = .ok ds) : ∀ d ∈ ds, Registered w d.agentPubkey s := by
  intro d hd
  unfold Workspaces.listAgents at h
  obtain ⟨a, ha, hda⟩ := mem_of_mapM h hd
  simp only [newestFirst, List.mem_insertionSort, inScope_some] at ha
  exact ⟨a, ha, (agentDetail_pubkey hda).symm⟩

theorem listProviders_congr (h : AgreeOn w s₁ s₂) (collation : Text → Text → Bool) :
    Workspaces.listProviders collation (some w) s₁ = Workspaces.listProviders collation (some w) s₂ := by
  unfold Workspaces.listProviders
  simp only [inScope_some]
  rw [h.providers]

theorem listApprovals_congr (h : AgreeOn w s₁ s₂) (limit : ℕ) :
    Workspaces.listApprovals limit (some w) s₁ = Workspaces.listApprovals limit (some w) s₂ := by
  unfold Workspaces.listApprovals
  rw [h.approvals]

theorem recentDecisions_congr (h : AgreeOn w s₁ s₂) (limit : ℕ) :
    Workspaces.recentDecisions limit (some w) s₁ = Workspaces.recentDecisions limit (some w) s₂ := by
  unfold Workspaces.recentDecisions
  rw [h.evidence]

end Queries

/-! ### Sessions and derived spend -/
section Money
variable {w : Text} {s s₁ s₂ : Plane} {key : Pubkey}

theorem filter_of_imp {α : Type} {l : List α} {p q : α → Bool} (h : ∀ a ∈ l, p a = true → q a = true) :
    l.filter p = (l.filter q).filter p := by
  rw [List.filter_filter]
  apply List.filter_congr
  intro a ha
  by_cases hp : p a = true
  · simp [hp, h a ha hp]
  · simp [hp]

/-- The evidence of a session of the workspace is the workspace's. -/
theorem feed_of_session (h : AgreeOn w s₁ s₂) {e : SessionEntry}
    (he : e ∈ s₁.sessions.rows.filter (sessionInScope s₁ (some w))) :
    s₁.feed.filter (fun f => f.session = e.session) =
      s₂.feed.filter (fun f => f.session = e.session) := by
  have hscope : ∀ {s : Plane}, e ∈ s.sessions.rows.filter (sessionInScope s (some w)) →
      ∀ f ∈ s.feed, decide (f.session = e.session) = true → decisionInScope s (some w) f = true := by
    intro s he f _ hf
    rw [List.mem_filter] at he
    rw [decide_eq_true_eq] at hf
    simp only [decisionInScope, reduceCtorEq, decide_false, Bool.false_or, List.any_eq_true,
      Bool.and_eq_true, decide_eq_true_eq]
    exact ⟨e, he.1, hf.symm, he.2⟩
  rw [filter_of_imp (hscope he), filter_of_imp (hscope (h.sessions ▸ he)), h.evidence]

theorem listSessions_congr (h : AgreeOn w s₁ s₂) (limit : ℕ) :
    Workspaces.listSessions limit (some w) s₁ = Workspaces.listSessions limit (some w) s₂ := by
  have hrow : ∀ e ∈ s₁.sessions.rows.filter (sessionInScope s₁ (some w)),
      summaryFromRow s₁ e = summaryFromRow s₂ e := by
    intro e he
    unfold summaryFromRow
    simp only [List.countP_eq_length_filter]
    rw [feed_of_session h he]
  unfold Workspaces.listSessions
  rw [← h.sessions]
  apply mapM_congr
  intro e he
  exact hrow e ((List.mem_insertionSort _).mp (List.mem_of_mem_take he))

theorem session_found {e : SessionEntry} (he : e ∈ s.sessions.rows) :
    s.sessions.rows.find? (fun x => x.session = e.session) = some e := by
  apply Table.find?_eq_some_of_mem sameSession_comm he
  · simp
  · simp [sameSession]

theorem agentSessions_database : agentSessions s.database key =
    (s.sessions.rows.filter fun e => e.row.agent = key).map SessionEntry.session := by
  unfold agentSessions Plane.database
  rw [List.filter_map]
  congr 1
  apply List.filter_congr
  intro e he
  simp [session_found he]

theorem amount_database {e : SessionEntry} (he : e ∈ s.sessions.rows) :
    s.database.amount e.session = (e.ticket.map fun t => t.cumulativeAmount.toInt).getD 0 := by
  have ht : s.database.tickets e.session = e.ticket := by
    simp only [Plane.database, session_found he, Option.bind_some]
  unfold Database.amount
  rw [ht]
  rcases e.ticket with _ | t <;> rfl

/-- The sessions of an agent of the workspace are the workspace's. -/
theorem sessionInScope_of_registered (hk : Registered w key s) {e : SessionEntry}
    (he : e.row.agent = key) : sessionInScope s (some w) e = true := by
  obtain ⟨a, ha, hak⟩ := hk
  rw [List.mem_filter, decide_eq_true_eq] at ha
  simp only [sessionInScope, reduceCtorEq, decide_false, Bool.false_or, List.any_eq_true,
    Bool.and_eq_true, decide_eq_true_eq]
  exact ⟨a, ha.1, hak.trans he.symm, ha.2⟩

theorem sessions_of_agent (h : AgreeOn w s₁ s₂) (hk : Registered w key s₁) :
    s₁.sessions.rows.filter (fun e => e.row.agent = key) =
      s₂.sessions.rows.filter (fun e => e.row.agent = key) := by
  have hscope : ∀ {s : Plane}, Registered w key s → ∀ e ∈ s.sessions.rows,
      decide (e.row.agent = key) = true → sessionInScope s (some w) e = true :=
    fun hk e _ he => sessionInScope_of_registered hk (decide_eq_true_eq.mp he)
  have hk₂ : Registered w key s₂ := by
    unfold Registered
    rw [← h.agents]
    exact hk
  rw [filter_of_imp (hscope hk), filter_of_imp (hscope hk₂), h.sessions]

theorem agentSpend_congr (h : AgreeOn w s₁ s₂) (hk : Registered w key s₁) :
    agentSpend s₁.database key = agentSpend s₂.database key := by
  have hrows := sessions_of_agent h hk
  have hmem : ∀ e ∈ s₁.sessions.rows.filter (fun e => e.row.agent = key),
      e ∈ s₁.sessions.rows ∧ e ∈ s₂.sessions.rows := by
    intro e he
    exact ⟨(List.mem_filter.mp he).1, (List.mem_filter.mp (hrows ▸ he)).1⟩
  have hspent : spentTotal s₁.database key = spentTotal s₂.database key := by
    unfold spentTotal
    rw [agentSessions_database, agentSessions_database, ← hrows, List.map_map, List.map_map]
    congr 1
    apply List.map_congr_left
    intro e he
    simp only [Function.comp_apply, amount_database (hmem e he).1, amount_database (hmem e he).2]
  have hcount : allowedCount s₁.database key = allowedCount s₂.database key := by
    unfold allowedCount
    rw [agentSessions_database, agentSessions_database, ← hrows, List.map_map, List.map_map]
    congr 1
    apply List.map_congr_left
    intro e he
    have hscope := sessionInScope_of_registered hk (decide_eq_true_eq.mp (List.mem_filter.mp he).2)
    have hfeed := feed_of_session h (List.mem_filter.mpr ⟨(hmem e he).1, hscope⟩)
    simp only [Function.comp_apply, Plane.database]
    rw [hfeed]
  unfold agentSpend
  rw [hspent, hcount]

end Money

/-! ### Statements that both states make -/
section Writes
variable {w : Text} {s₁ s₂ t₁ t₂ : Plane} {b₁ b₂ : Bool}

/-- A change of an agent that keeps its id, its key and its workspace. -/
theorem agree_updateAgents {p : AgentEntry → Bool} {f : AgentEntry → AgentEntry}
    {u₁ u₂ : Table sameAgent} (hid : ∀ a, (f a).agentId = a.agentId)
    (hkey : ∀ a, (f a).agentPubkey = a.agentPubkey)
    (hws : ∀ a, (f a).workspaceId = a.workspaceId) (h : AgreeOn w s₁ s₂)
    (h₁ : s₁.agents.update p f = some u₁) (h₂ : s₂.agents.update p f = some u₂) :
    AgreeOn w { s₁ with agents := u₁ } { s₂ with agents := u₂ } := by
  have hu : ∀ a, (Table.updated p f a).agentId = a.agentId ∧
      (Table.updated p f a).agentPubkey = a.agentPubkey ∧
        (Table.updated p f a).workspaceId = a.workspaceId := by
    intro a
    unfold Table.updated
    split_ifs
    · exact ⟨hid a, hkey a, hws a⟩
    · exact ⟨rfl, rfl, rfl⟩
  have hscope : ∀ {s : Plane} {u}, s.agents.update p f = some u →
      approvalInScope { s with agents := u } (some w) = approvalInScope s (some w) ∧
        sessionInScope { s with agents := u } (some w) = sessionInScope s (some w) := by
    intro s u hup
    refine ⟨funext fun a => ?_, funext fun e => ?_⟩
    · unfold approvalInScope
      rw [Table.any_update hup]
      intro g
      simp only [hu g]
    · unfold sessionInScope
      rw [Table.any_update hup]
      intro g
      simp only [hu g]
  constructor
  · have hq : ∀ a, decide ((Table.updated p f a).workspaceId = some w) =
        decide (a.workspaceId = some w) := fun a => by rw [(hu a).2.2]
    rw [Table.filter_update h₁ hq, Table.filter_update h₂ hq, h.agents]
  · rw [(hscope h₁).1, (hscope h₂).1]
    exact h.approvals
  · exact h.providers
  · exact h.operators
  · rw [(hscope h₁).2, (hscope h₂).2]
    exact h.sessions
  · unfold decisionInScope
    rw [(hscope h₁).2, (hscope h₂).2]
    exact h.evidence

theorem agree_setAgentStatus {agentId : Text} {status : AgentStatus} (h : AgreeOn w s₁ s₂)
    (h₁ : Workspaces.setAgentStatus agentId status (some w) s₁ = .ok (b₁, t₁))
    (h₂ : Workspaces.setAgentStatus agentId status (some w) s₂ = .ok (b₂, t₂)) : AgreeOn w t₁ t₂ := by
  obtain ⟨u₁, hu₁, rfl⟩ := setAgentStatus_cases h₁
  obtain ⟨u₂, hu₂, rfl⟩ := setAgentStatus_cases h₂
  refine agree_updateAgents ?_ ?_ ?_ h hu₁ hu₂ <;> exact fun _ => rfl

theorem agree_setPolicy {agentId : Text} {mode : AgentMode} {p : AgentPolicy} (h : AgreeOn w s₁ s₂)
    (h₁ : setPolicy agentId mode p (some w) s₁ = .ok (true, t₁))
    (h₂ : setPolicy agentId mode p (some w) s₂ = .ok (true, t₂)) : AgreeOn w t₁ t₂ := by
  rcases setPolicy_cases h₁ with ⟨row, u₁, hrow, hu₁, rfl⟩ | ⟨hb, -⟩
  · rcases setPolicy_cases h₂ with ⟨row', u₂, hrow', hu₂, rfl⟩ | ⟨hb, -⟩
    · rw [hrow, Except.ok.injEq] at hrow'
      subst hrow'
      refine agree_updateAgents ?_ ?_ ?_ h hu₁ hu₂ <;> exact fun _ => rfl
    · cases hb
  · cases hb

theorem agents_createAgent {agentId label : Text} {key : Pubkey} {owner : Option Pubkey}
    {mode : AgentMode} {now : Timestamp} (h : AgreeOn w s₁ s₂)
    (h₁ : Workspaces.createAgent agentId label key owner mode (some w) now s₁ = .ok (true, t₁))
    (h₂ : Workspaces.createAgent agentId label key owner mode (some w) now s₂ = .ok (true, t₂)) :
    t₁.agents.rows.filter (fun a => a.workspaceId = some w) =
      t₂.agents.rows.filter (fun a => a.workspaceId = some w) := by
  rcases createAgent_cases h₁ with ⟨l₁, u₁, hl₁, hu₁, -, rfl⟩ | ⟨hb, -⟩
  · rcases createAgent_cases h₂ with ⟨l₂, u₂, hl₂, hu₂, -, rfl⟩ | ⟨hb, -⟩
    · rw [Varchar.ext (hl₂.trans hl₁.symm)] at hu₂
      rw [Table.filter_insert hu₁, Table.filter_insert hu₂, h.agents]
    · cases hb
  · cases hb

theorem agree_decideApproval {approvalId : Text} {approved : Bool} {reason : Option Text}
    {decidedBy : Varchar 64} {decidedByLabel : Varchar 128} {now : Timestamp}
    (h : AgreeOn w s₁ s₂)
    (h₁ : Workspaces.decideApproval approvalId approved reason decidedBy decidedByLabel now s₁ =
      .ok (b₁, t₁))
    (h₂ : Workspaces.decideApproval approvalId approved reason decidedBy decidedByLabel now s₂ =
      .ok (b₂, t₂)) : AgreeOn w t₁ t₂ := by
  simp only [Workspaces.decideApproval, bind_eq_ok] at h₁ h₂
  obtain ⟨_, -, _, -, h₁⟩ := h₁
  obtain ⟨_, -, _, -, h₂⟩ := h₂
  obtain ⟨u₁, hu₁, -, rfl⟩ := updateIn_eq_ok.mp h₁
  obtain ⟨u₂, hu₂, -, rfl⟩ := updateIn_eq_ok.mp h₂
  have hq : ∀ (s : Plane) (a : ApprovalEntry), approvalInScope s (some w)
      (Table.updated (decidable approvalId)
        (decision approved reason decidedBy decidedByLabel now) a) = approvalInScope s (some w) a := by
    intro s a
    unfold Table.updated
    split_ifs <;> rfl
  refine ⟨h.agents, ?_, h.providers, h.operators, h.sessions, h.evidence⟩
  change u₁.rows.filter (approvalInScope s₁ (some w)) = u₂.rows.filter (approvalInScope s₂ (some w))
  rw [Table.filter_update hu₁ (hq s₁), Table.filter_update hu₂ (hq s₂), h.approvals]

theorem agree_touch (operatorId : Varchar 64) (now : Timestamp) (h : AgreeOn w s₁ s₂) :
    AgreeOn w (touch operatorId now s₁) (touch operatorId now s₂) := by
  obtain ⟨u₁, hu₁, hok₁⟩ := @touchOperator_isOk s₁ operatorId now
  obtain ⟨u₂, hu₂, hok₂⟩ := @touchOperator_isOk s₂ operatorId now
  have hq : ∀ o, decide ((Table.updated (fun o : OperatorRow => o.operatorId = operatorId)
      (fun o => { o with lastUsedAt := some now }) o).workspaceId = some w) =
        decide (o.workspaceId = some w) := by
    intro o
    unfold Table.updated
    split_ifs <;> rfl
  unfold touch
  rw [hok₁, hok₂]
  refine ⟨h.agents, h.approvals, h.providers, ?_, h.sessions, h.evidence⟩
  rw [Table.filter_update hu₁ hq, Table.filter_update hu₂ hq, h.operators]

end Writes

/-! ### Handlers -/
section Handlers
variable {w : Text} {op : Operator} {env : Env} {g : Generated}

theorem answers_requireAgent {R : Plane → Plane → Prop} (hw : op.workspaceId = some w)
    (hR : ∀ {s t}, R s t → s.agents.rows.filter (fun a => a.workspaceId = some w) =
      t.agents.rows.filter (fun a => a.workspaceId = some w)) (agentId : Text) :
    Noninterferent R (requireAgent op agentId) fun d s t => R s t ∧ Registered w d.agentPubkey s := by
  unfold requireAgent
  rw [hw]
  refine noninterferent_bind (S := fun found s t => R s t ∧
    Workspaces.getAgent agentId (some w) s = .ok found) (noninterferent_query ?_) fun found => ?_
  · intro s₁ s₂ a₁ a₂ h h₁ h₂
    rw [unavailable_eq_ok] at h₁ h₂
    rw [← getAgent_congr (hR h), h₁, Except.ok.injEq] at h₂
    exact ⟨h₂, h, h₁⟩
  · apply noninterferent_query
    intro s₁ s₂ d₁ d₂ h h₁ h₂
    rw [okOr_eq_ok] at h₁ h₂
    subst h₁
    cases h₂
    exact ⟨rfl, h.1, getAgent_registered h.2⟩

/-- A query whose result the workspace's rows determine. -/
theorem noninterferent_query_of {α : Type} {R : Plane → Plane → Prop} {q : Plane → Except ControlDenial α}
    (h : ∀ {s₁ s₂}, R s₁ s₂ → q s₁ = q s₂) : Noninterferent R (query q) fun _ => R := by
  apply noninterferent_query
  intro s₁ s₂ a₁ a₂ hR h₁ h₂
  rw [h hR, h₂, Except.ok.injEq] at h₁
  exact ⟨h₁.symm, hR⟩

theorem answers_pure {R : Plane → Plane → Prop} (b : Body) :
    Noninterferent R (pure b : Control Body) fun _ _ _ => True :=
  noninterferent_pure b fun _ => trivial

theorem answers_agentView (hw : op.workspaceId = some w) (agentId : Text) :
    Noninterferent (AgreeOn w) (agentView op agentId) fun _ _ _ => True := by
  refine noninterferent_bind (answers_requireAgent hw AgreeOn.agents agentId) fun d => ?_
  refine noninterferent_bind (noninterferent_query_of ?_) fun _ => answers_pure _
  intro s₁ s₂ h
  simp only [spendOrZero, agentSpend_congr h.1 h.2]

theorem answers_getAgent (hw : op.workspaceId = some w) (agentId : Text) :
    Noninterferent (AgreeOn w) (ControlRequests.getAgent op agentId) fun _ _ _ => True := by
  refine noninterferent_bind (answers_requireAgent hw AgreeOn.agents agentId) fun d => ?_
  refine noninterferent_bind (noninterferent_query_of ?_) fun _ => answers_pure _
  intro s₁ s₂ h
  rw [agentSpend_congr h.1 h.2]

theorem answers_listAgents (hw : op.workspaceId = some w) :
    Noninterferent (AgreeOn w) (ControlRequests.listAgents op) fun _ _ _ => True := by
  unfold ControlRequests.listAgents
  rw [hw]
  refine noninterferent_bind (S := fun (ds : List AgentDetail) s t => AgreeOn w s t ∧
    ∀ d ∈ ds, Registered w d.agentPubkey s) (noninterferent_query ?_) fun ds => ?_
  · intro s₁ s₂ a₁ a₂ h h₁ h₂
    rw [unavailable_eq_ok] at h₁ h₂
    rw [← listAgents_congr h.agents, h₁, Except.ok.injEq] at h₂
    exact ⟨h₂, h, listAgents_registered h₁⟩
  · refine noninterferent_bind (noninterferent_query_of ?_) fun _ => answers_pure _
    intro s₁ s₂ h
    rw [Except.ok.injEq]
    apply List.map_congr_left
    intro d hd
    simp only [spendOrZero, agentSpend_congr h.1 (h.2 d hd)]

theorem answers_createAgent (hw : op.workspaceId = some w) (req : CreateAgentRequest) :
    Noninterferent (AgreeOn w) (ControlRequests.createAgent env op g req) fun _ _ _ => True := by
  refine noninterferent_bind (noninterferent_lift _) fun _ => ?_
  refine noninterferent_bind (noninterferent_lift _) fun key => ?_
  refine noninterferent_bind (noninterferent_lift _) fun owner => ?_
  refine noninterferent_exec_demand (S := fun s t =>
    s.agents.rows.filter (fun a => a.workspaceId = some w) =
      t.agents.rows.filter (fun a => a.workspaceId = some w)) ?_ ?_
  · intro s₁ s₂ t₁ t₂ h h₁ h₂
    rw [unavailable_eq_ok, hw] at h₁ h₂
    exact agents_createAgent h.2.2.2 h₁ h₂
  · exact noninterferent_bind (answers_requireAgent hw id _) fun _ => answers_pure _

theorem answers_authorizeAgent (hw : op.workspaceId = some w) (agentId : Text)
    (req : AuthorizeRequest) :
    Noninterferent (AgreeOn w) (authorizeAgent op agentId req) fun _ _ _ => True := by
  refine noninterferent_bind (noninterferent_lift _) fun policy => ?_
  refine noninterferent_bind (answers_requireAgent hw (fun h => h.2.agents) agentId) fun existing => ?_
  refine noninterferent_exec_demand ?_ (answers_agentView hw agentId)
  intro s₁ s₂ t₁ t₂ h h₁ h₂
  rw [unavailable_eq_ok, hw] at h₁ h₂
  exact agree_setPolicy h.1.2 h₁ h₂

theorem answers_setAgentStatus (hw : op.workspaceId = some w) (agentId : Text)
    (status : AgentStatus) :
    Noninterferent (AgreeOn w) (ControlRequests.setAgentStatus op agentId status)
      fun _ _ _ => True := by
  refine noninterferent_exec_demand ?_ (answers_agentView hw agentId)
  intro s₁ s₂ t₁ t₂ h h₁ h₂
  rw [unavailable_eq_ok, hw] at h₁ h₂
  exact agree_setAgentStatus h h₁ h₂

theorem answers_listProviders (hw : op.workspaceId = some w) :
    Noninterferent (AgreeOn w) (ControlRequests.listProviders env op) fun _ => AgreeOn w := by
  unfold ControlRequests.listProviders
  rw [hw]
  apply noninterferent_query_of
  intro s₁ s₂ h
  rw [listProviders_congr h]

theorem answers_listApprovals (hw : op.workspaceId = some w) :
    Noninterferent (AgreeOn w) (ControlRequests.listApprovals op) fun _ _ _ => True := by
  unfold ControlRequests.listApprovals
  rw [hw]
  refine noninterferent_bind (noninterferent_query_of ?_) fun _ => answers_pure _
  intro s₁ s₂ h
  rw [listApprovals_congr h]

theorem answers_decideApproval (hw : op.workspaceId = some w) (approvalId : Text) (approved : Bool)
    (reason : Option Text) :
    Noninterferent (AgreeOn w) (ControlRequests.decideApproval op g approvalId approved reason)
      fun _ _ _ => True := by
  refine noninterferent_exec_demand ?_ (answers_listApprovals hw)
  intro s₁ s₂ t₁ t₂ h h₁ h₂
  rw [unavailable_eq_ok] at h₁ h₂
  exact agree_decideApproval h h₁ h₂

theorem answers_listSessions (hw : op.workspaceId = some w) :
    Noninterferent (AgreeOn w) (ControlRequests.listSessions op g) fun _ _ _ => True := by
  unfold ControlRequests.listSessions
  rw [hw]
  refine noninterferent_bind (noninterferent_query_of ?_) fun _ => answers_pure _
  intro s₁ s₂ h
  rw [listSessions_congr h]

theorem answers_recentDecisions (hw : op.workspaceId = some w) :
    Noninterferent (AgreeOn w) (ControlRequests.recentDecisions op g) fun _ _ _ => True := by
  unfold ControlRequests.recentDecisions
  rw [hw]
  refine noninterferent_bind (noninterferent_query_of ?_) fun _ => answers_pure _
  intro s₁ s₂ h
  rw [recentDecisions_congr h]

/-- The answer to minting and to rotation is made of what was generated. -/
theorem answers_createOperator (label : Text) :
    Noninterferent (AgreeOn w) (ControlRequests.createOperator env g label) fun _ _ _ => True := by
  refine noninterferent_bind (noninterferent_lift _) fun _ => ?_
  exact noninterferent_exec_demand (S := fun _ _ => True) (fun _ _ _ => trivial) (answers_pure _)

theorem answers_rotateOwnToken :
    Noninterferent (AgreeOn w) (rotateOwnToken env op g) fun _ _ _ => True := by
  refine noninterferent_bind (noninterferent_lift _) fun _ => ?_
  exact noninterferent_exec_demand (S := fun _ _ => True) (fun _ _ _ => trivial) (answers_pure _)

/-! A request that is not stored or names no row gives no answer. -/

theorem setOperatorStatus_eq_ok {s t : Plane} {b : Body} {operatorId : Text} {enabled : Bool}
    (h : (setOperatorStatus operatorId enabled).run s = (.ok b, t)) :
    operatorId.length ≤ 64 ∧ nul ∉ operatorId := by
  simp only [setOperatorStatus, run_bind_eq_ok, run_exec_eq_ok, unavailable_eq_ok, demand, run_lift,
    Prod.mk.injEq, require_eq_ok] at h
  obtain ⟨_, u, hu, _, _, ⟨rfl, -⟩, -⟩ := h
  simp only [setOperatorEnabled, bind_eq_ok] at hu
  obtain ⟨_, -, hu⟩ := hu
  obtain ⟨_, -, hany, -⟩ := updateIn_eq_ok.mp hu
  obtain ⟨o, -, ho⟩ := List.any_eq_true.mp hany.symm
  rw [← decide_eq_true_eq.mp ho]
  exact o.operatorId.fits

theorem deleteProvider_eq_ok {s t : Plane} {b : Body} {providerId : Text}
    (h : (ControlRequests.deleteProvider op providerId).run s = (.ok b, t)) :
    providerId.length ≤ 64 ∧ nul ∉ providerId := by
  simp only [ControlRequests.deleteProvider, run_bind_eq_ok, run_exec_eq_ok, unavailable_eq_ok,
    demand, run_lift, Prod.mk.injEq, require_eq_ok] at h
  obtain ⟨_, u, hu, _, _, -, _, _, ⟨rfl, -⟩, -⟩ := h
  simp only [Workspaces.deleteProvider, bind_eq_ok, pure_eq_ok, Prod.mk.injEq] at hu
  obtain ⟨_, -, hany, -⟩ := hu
  obtain ⟨r, -, hr⟩ := List.any_eq_true.mp hany
  simp only [providerInScope, Bool.and_eq_true, decide_eq_true_eq] at hr
  rw [← hr.1]
  exact r.providerId.fits

theorem registerProvider_eq_ok {s t : Plane} {b : Body} {req : RegisterProviderRequest}
    (h : (registerProvider env op req).run s = (.ok b, t)) :
    ∃ record, recordOf env req = .ok record ∧ record.Storable := by
  simp only [registerProvider, run_bind_eq_ok, run_exec_eq_ok, unavailable_eq_ok, run_lift,
    Prod.mk.injEq] at h
  obtain ⟨record, _, ⟨hrec, -⟩, _, u, hu, -⟩ := h
  simp only [upsertProvider, bind_eq_ok] at hu
  obtain ⟨row, hrow, -⟩ := hu
  exact ⟨record, hrec, (toRow_eq_ok hrow).1⟩

theorem handle_answers (hw : op.workspaceId = some w) {req : Request} (hd : ¬Discloses env req) :
    Noninterferent (AgreeOn w) (handle env op g req) fun _ _ _ => True := by
  cases req with
  | listSessions => exact answers_listSessions hw
  | recentDecisions => exact answers_recentDecisions hw
  | listAgents => exact answers_listAgents hw
  | createAgent req => exact answers_createAgent hw req
  | getAgent agentId => exact answers_getAgent hw agentId
  | authorizeAgent agentId req => exact answers_authorizeAgent hw agentId req
  | setAgentStatus agentId status => exact answers_setAgentStatus hw agentId status
  | listProviders =>
    intro s₁ s₂ t₁ t₂ b₁ b₂ h h₁ h₂
    exact ⟨(answers_listProviders hw h h₁ h₂).1, trivial⟩
  | registerProvider req =>
    intro s₁ s₂ t₁ t₂ b₁ b₂ h h₁ h₂
    exact absurd (registerProvider_eq_ok h₁) hd
  | deleteProvider providerId =>
    intro s₁ s₂ t₁ t₂ b₁ b₂ h h₁ h₂
    exact absurd (deleteProvider_eq_ok h₁) hd
  | listOperators => exact absurd trivial hd
  | createOperator label => exact answers_createOperator label
  | setOperatorStatus operatorId enabled =>
    intro s₁ s₂ t₁ t₂ b₁ b₂ h h₁ h₂
    exact absurd (setOperatorStatus_eq_ok h₁) hd
  | rotateOwnToken => exact answers_rotateOwnToken
  | listApprovals => exact answers_listApprovals hw
  | decideApproval approvalId approved reason =>
    exact answers_decideApproval hw approvalId approved reason

/-- A credential of the workspace resolves to the same row in both states. -/
theorem callerRow_agree {s₁ s₂ : Plane} {presented : Option Text} {row : OperatorRow}
    (h : AgreeOn w s₁ s₂) (hc : callerRow env presented s₁ = some row)
    (hw : row.workspaceId = some w) : callerRow env presented s₂ = some row := by
  have hm : row ∈ s₂.operators.rows := by
    have hf : row ∈ s₁.operators.rows.filter (fun o => o.workspaceId = some w) :=
      List.mem_filter.mpr ⟨callerRow_mem hc, decide_eq_true hw⟩
    rw [h.operators] at hf
    exact (List.mem_filter.mp hf).1
  unfold callerRow at hc ⊢
  split at hc
  · split_ifs at hc ⊢
    have hp := List.find?_some hc
    simp only [Bool.and_eq_true, decide_eq_true_eq] at hp
    rw [← hp.1]
    exact operatorByTokenHash_of_mem hm hp.2
  · cases hc

/-- A request that does not disclose is answered from the caller's own rows. -/
theorem serve_answers {s₁ s₂ : Plane} {c : Call} {row : OperatorRow} {b₁ b₂ : Body}
    (hd : ¬Discloses env c.request) (h : AgreeOn w s₁ s₂)
    (hc : callerRow env c.token s₁ = some row) (hw : row.workspaceId = some w)
    (h₁ : ((serve env c).run s₁).1 = .ok b₁) (h₂ : ((serve env c).run s₂).1 = .ok b₂) : b₁ = b₂ := by
  rw [serve_of_callerRow hc] at h₁
  rw [serve_of_callerRow (callerRow_agree h hc hw)] at h₂
  exact (handle_answers hw hd (agree_touch _ _ h) (Prod.ext h₁ rfl) (Prod.ext h₂ rfl)).1

end Handlers

/-! ### What the other requests answer with -/
section Disclosure
variable {env : Env} {op : Operator} {w : Text} {s : Plane}

theorem length_newestFirst {ρ : Type} (createdAt : ρ → Timestamp) (l : List ρ) :
    (newestFirst createdAt l).length = l.length := List.length_insertionSort _ _

theorem run_setOperatorStatus {operatorId : Text} (enabled : Bool) (hn : nul ∉ operatorId)
    (ho : ∃ o ∈ s.operators.rows, o.operatorId.text = operatorId) :
    ∃ views, ((setOperatorStatus operatorId enabled).run s).1 = .ok (.operators views) ∧
      views.length = s.operators.rows.length := by
  obtain ⟨u, hu, hok⟩ := @setOperatorEnabled_of_clean s operatorId enabled hn
  have hany : s.operators.rows.any (fun o => o.operatorId.text = operatorId) = true := by
    obtain ⟨o, ho, hid⟩ := ho
    exact List.any_eq_true.mpr ⟨o, ho, decide_eq_true hid⟩
  rw [hany] at hok
  unfold setOperatorStatus
  rw [run_bind_of_ok (run_exec_of_ok (unavailable_eq_ok.mpr hok))]
  refine ⟨_, rfl, ?_⟩
  simp only [Workspaces.listOperators, List.length_map, length_newestFirst, Table.update_rows hu]

/-- The registry, without the entry of the deleted provider. -/
theorem run_deleteProvider {providerId : Text} (hw : op.workspaceId = some w)
    (hn : nul ∉ providerId)
    (hr : ∃ r ∈ s.providers.rows, r.providerId.text = providerId ∧ r.workspaceId = some w) :
    ∃ records, ((ControlRequests.deleteProvider op providerId).run s).1 = .ok (.providers records) ∧
      records.length = (s.registry.rows.filter fun r => !decide (r.providerId = providerId)).length := by
  have hany : s.providers.rows.any (providerInScope providerId (some w)) = true := by
    obtain ⟨r, hr, hid, hrw⟩ := hr
    exact List.any_eq_true.mpr ⟨r, hr, by simp [providerInScope, hid, inScope, hrw]⟩
  have hok : Workspaces.deleteProvider providerId op.workspaceId s = .ok (true,
      { s with providers := s.providers.delete (providerInScope providerId (some w)) }) := by
    unfold Workspaces.deleteProvider
    rw [bindText_of_clean hn, ok_bind, hw, hany]
    rfl
  unfold ControlRequests.deleteProvider
  rw [run_bind_of_ok (run_exec_of_ok (unavailable_eq_ok.mpr hok))]
  exact ⟨_, rfl, List.length_insertionSort _ _⟩

/-- The registry, with the entry of the registered provider. -/
theorem run_registerProvider {req : RegisterProviderRequest} {record : ProviderRecord}
    (hrec : recordOf env req = .ok record) (hst : record.Storable) :
    ∃ records, ((registerProvider env op req).run s).1 = .ok (.providers records) ∧
      records.length = (s.registry.rows.filter fun r => !sameRecord r record).length + 1 := by
  obtain ⟨t, hok⟩ := upsertProvider_of_storable hst op.workspaceId s
  have hreg : t.registry = s.registry := by
    obtain ⟨_, _, _, rfl, _⟩ := upsertProvider_cases hok
    rfl
  unfold registerProvider
  rw [run_lift_bind_of_ok hrec, run_bind_of_ok (run_exec_of_ok (unavailable_eq_ok.mpr hok))]
  refine ⟨_, rfl, ?_⟩
  simp only [registryList, List.length_insertionSort, registryUpsert, Table.upsert,
    List.length_append, List.length_singleton, hreg]

end Disclosure

/-! ### A tenant alone and with a neighbour -/
section Neighbour

def otherId (id : Varchar 64) : Varchar 64 :=
  if id.text = ['a'] then ⟨['b'], by decide⟩ else ⟨['a'], by decide⟩

theorem otherId_ne (id : Varchar 64) : (otherId id).text ≠ id.text := by
  unfold otherId
  split_ifs with h
  · rw [h]
    decide
  · exact fun he => h he.symm

def otherHash (hash : Hash) : Hash := if hash = zeroHash then Vector.replicate 32 1 else zeroHash

theorem otherHash_ne (hash : Hash) : otherHash hash ≠ hash := by
  unfold otherHash
  split_ifs with h
  · rw [h]
    decide
  · exact fun he => h he.symm

def member (w : Text) (hash : Hash) (id : Varchar 64) : OperatorRow :=
  ⟨id, ⟨['m'], by decide⟩, hash, .member, some w, true, 0, none⟩

def shop (w : Text) (id : Varchar 64) : ProviderRow :=
  ⟨id, ⟨['s'], by decide⟩, "https://shop.test".toList, none, true, some w⟩

variable (w : Text) (hash : Hash) (id : Varchar 64)

/-- One workspace with an operator and a provider. -/
def alone : Plane where
  agents := .empty
  approvals := .empty
  providers := ⟨[shop w id], List.pairwise_singleton _ _⟩
  operators := ⟨[member w hash id], List.pairwise_singleton _ _⟩
  sessions := .empty
  feed := []
  registry := .empty

/-- The same workspace beside another one. -/
def beside : Plane := { alone w hash id with
  providers := ⟨[shop w id, shop ('x' :: w) (otherId id)], by
    have hne : id ≠ otherId id := fun he => otherId_ne id (congrArg Varchar.text he.symm)
    simp [sameProvider, shop, hne]⟩
  operators := ⟨[member w hash id, member ('x' :: w) (otherHash hash) (otherId id)], by
    have hne : id ≠ otherId id := fun he => otherId_ne id (congrArg Varchar.text he.symm)
    simp [sameOperator, member, hne, (otherHash_ne hash).symm]⟩
  registry := ⟨[(shop ('x' :: w) (otherId id)).record], List.pairwise_singleton _ _⟩ }

theorem agree_beside : AgreeOn w (alone w hash id) (beside w hash id) := by
  constructor
  · rfl
  · rfl
  · simp [alone, beside, shop]
  · simp [alone, beside, member]
  · rfl
  · rfl

variable {w hash id} {env : Env} {expected token : Text}

theorem callerRow_alone (ha : env.adminToken = some expected)
    (hne : env.tokenHash token ≠ env.tokenHash expected) :
    callerRow env (some token) (alone w (env.tokenHash token) id) =
      some (member w (env.tokenHash token) id) := by
  unfold callerRow
  rw [ha]
  simp [hne, operatorByTokenHash, alone, member]

theorem operators_ne {l l' : List OperatorView} (h : l.length ≠ l'.length) :
    Body.operators l ≠ Body.operators l' := by
  intro he
  cases he
  exact h rfl

theorem providers_ne {l l' : List ProviderRecord} (h : l.length ≠ l'.length) :
    Body.providers l ≠ Body.providers l' := by
  intro he
  cases he
  exact h rfl

/-- Two states with the same rows of the workspace answer the request differently. -/
def Distinguishes (env : Env) (token w : Text) (g : Generated) (req : Request) : Prop :=
  ∃ (s₁ s₂ : Plane) (row : OperatorRow) (b₁ b₂ : Body), AgreeOn w s₁ s₂ ∧
    callerRow env (some token) s₁ = some row ∧ row.workspaceId = some w ∧
      ((serve env ⟨some token, g, req⟩).run s₁).1 = .ok b₁ ∧
        ((serve env ⟨some token, g, req⟩).run s₂).1 = .ok b₂ ∧ b₁ ≠ b₂

/-- It is enough to look at the handler, after the caller's row was touched. -/
theorem distinguishes_of_handle (ha : env.adminToken = some expected)
    (hne : env.tokenHash token ≠ env.tokenHash expected) {w : Text} {g : Generated} {req : Request}
    (id : Varchar 64)
    (h : ∀ u₁ u₂ : Table sameOperator, u₁.rows.map OperatorRow.operatorId = [id] →
      u₂.rows.map OperatorRow.operatorId = [id, otherId id] → ∃ b₁ b₂,
        ((handle env (operatorOf (member w (env.tokenHash token) id)) g req).run
          { alone w (env.tokenHash token) id with operators := u₁ }).1 = .ok b₁ ∧
        ((handle env (operatorOf (member w (env.tokenHash token) id)) g req).run
          { beside w (env.tokenHash token) id with operators := u₂ }).1 = .ok b₂ ∧ b₁ ≠ b₂) :
    Distinguishes env token w g req := by
  have hagree := agree_beside w (env.tokenHash token) id
  have hc := @callerRow_alone w id env expected token ha hne
  have hc' := callerRow_agree hagree hc rfl
  obtain ⟨u₁, ht₁, hu₁⟩ := touch_column OperatorRow.operatorId (fun _ _ => rfl) id g.touchedAt
    (alone w (env.tokenHash token) id)
  obtain ⟨u₂, ht₂, hu₂⟩ := touch_column OperatorRow.operatorId (fun _ _ => rfl) id g.touchedAt
    (beside w (env.tokenHash token) id)
  obtain ⟨b₁, b₂, h₁, h₂, hb⟩ := h u₁ u₂ hu₁ hu₂
  refine ⟨_, _, _, b₁, b₂, hagree, hc, rfl, ?_, ?_, hb⟩
  · rw [serve_of_callerRow hc, ← h₁, ← ht₁]
    rfl
  · rw [serve_of_callerRow hc', ← h₂, ← ht₂]
    rfl

theorem length_of_operatorIds {u : Table sameOperator} {ids : List (Varchar 64)}
    (h : u.rows.map OperatorRow.operatorId = ids) : u.rows.length = ids.length := by
  rw [← h, List.length_map]

variable {g : Generated}

theorem distinguishes_listOperators (ha : env.adminToken = some expected)
    (hne : env.tokenHash token ≠ env.tokenHash expected) :
    Distinguishes env token w g .listOperators := by
  refine distinguishes_of_handle ha hne ⟨['a'], by decide⟩ fun u₁ u₂ hu₁ hu₂ => ?_
  refine ⟨_, _, rfl, rfl, operators_ne ?_⟩
  simp [Workspaces.listOperators, length_newestFirst, length_of_operatorIds hu₁,
    length_of_operatorIds hu₂]

theorem distinguishes_setOperatorStatus (ha : env.adminToken = some expected)
    (hne : env.tokenHash token ≠ env.tokenHash expected) {operatorId : Text} (enabled : Bool)
    (hd : operatorId.length ≤ 64 ∧ nul ∉ operatorId) :
    Distinguishes env token w g (.setOperatorStatus operatorId enabled) := by
  refine distinguishes_of_handle ha hne ⟨operatorId, hd⟩ fun u₁ u₂ hu₁ hu₂ => ?_
  have hmem : ∀ {u : Table sameOperator} {ids : List (Varchar 64)},
      u.rows.map OperatorRow.operatorId = ⟨operatorId, hd⟩ :: ids →
        ∃ o ∈ u.rows, o.operatorId.text = operatorId := by
    intro u ids hu
    have hin : (⟨operatorId, hd⟩ : Varchar 64) ∈ u.rows.map OperatorRow.operatorId := by
      rw [hu]
      exact List.mem_cons_self
    obtain ⟨o, ho, hid⟩ := List.mem_map.mp hin
    exact ⟨o, ho, by rw [hid]⟩
  obtain ⟨v₁, hv₁, hl₁⟩ := @run_setOperatorStatus
    { alone w (env.tokenHash token) ⟨operatorId, hd⟩ with operators := u₁ } operatorId enabled hd.2
    (hmem hu₁)
  obtain ⟨v₂, hv₂, hl₂⟩ := @run_setOperatorStatus
    { beside w (env.tokenHash token) ⟨operatorId, hd⟩ with operators := u₂ } operatorId enabled hd.2
    (hmem hu₂)
  refine ⟨.operators v₁, .operators v₂, hv₁, hv₂, operators_ne ?_⟩
  rw [hl₁, hl₂, length_of_operatorIds hu₁, length_of_operatorIds hu₂]
  simp

theorem distinguishes_deleteProvider (ha : env.adminToken = some expected)
    (hne : env.tokenHash token ≠ env.tokenHash expected) {providerId : Text}
    (hd : providerId.length ≤ 64 ∧ nul ∉ providerId) :
    Distinguishes env token w g (.deleteProvider providerId) := by
  refine distinguishes_of_handle ha hne ⟨providerId, hd⟩ fun u₁ u₂ _ _ => ?_
  obtain ⟨v₁, hv₁, hl₁⟩ := @run_deleteProvider
    (operatorOf (member w (env.tokenHash token) ⟨providerId, hd⟩)) w
    { alone w (env.tokenHash token) ⟨providerId, hd⟩ with operators := u₁ } providerId rfl hd.2
    ⟨shop w ⟨providerId, hd⟩, List.mem_cons_self, rfl, rfl⟩
  obtain ⟨v₂, hv₂, hl₂⟩ := @run_deleteProvider
    (operatorOf (member w (env.tokenHash token) ⟨providerId, hd⟩)) w
    { beside w (env.tokenHash token) ⟨providerId, hd⟩ with operators := u₂ } providerId rfl hd.2
    ⟨shop w ⟨providerId, hd⟩, List.mem_cons_self, rfl, rfl⟩
  refine ⟨.providers v₁, .providers v₂, hv₁, hv₂, providers_ne ?_⟩
  rw [hl₁, hl₂]
  simp [alone, beside, Table.empty, shop, ProviderRow.record, otherId_ne ⟨providerId, hd⟩]

theorem distinguishes_registerProvider (ha : env.adminToken = some expected)
    (hne : env.tokenHash token ≠ env.tokenHash expected) {req : RegisterProviderRequest}
    {record : ProviderRecord} (hrec : recordOf env req = .ok record) (hst : record.Storable) :
    Distinguishes env token w g (.registerProvider req) := by
  refine distinguishes_of_handle ha hne ⟨record.providerId, hst.1⟩ fun u₁ u₂ _ _ => ?_
  obtain ⟨v₁, hv₁, hl₁⟩ := @run_registerProvider env
    (operatorOf (member w (env.tokenHash token) ⟨record.providerId, hst.1⟩))
    { alone w (env.tokenHash token) ⟨record.providerId, hst.1⟩ with operators := u₁ } req record
    hrec hst
  obtain ⟨v₂, hv₂, hl₂⟩ := @run_registerProvider env
    (operatorOf (member w (env.tokenHash token) ⟨record.providerId, hst.1⟩))
    { beside w (env.tokenHash token) ⟨record.providerId, hst.1⟩ with operators := u₂ } req record
    hrec hst
  refine ⟨.providers v₁, .providers v₂, hv₁, hv₂, providers_ne ?_⟩
  rw [hl₁, hl₂]
  simp [alone, beside, Table.empty, shop, ProviderRow.record, sameRecord,
    otherId_ne ⟨record.providerId, hst.1⟩]

theorem distinguishes_of_discloses (ha : env.adminToken = some expected)
    (hne : env.tokenHash token ≠ env.tokenHash expected) {req : Request}
    (hd : Discloses env req) : Distinguishes env token w g req := by
  cases req with
  | listOperators => exact distinguishes_listOperators ha hne
  | setOperatorStatus operatorId enabled => exact distinguishes_setOperatorStatus ha hne enabled hd
  | deleteProvider providerId => exact distinguishes_deleteProvider ha hne hd
  | registerProvider req =>
    obtain ⟨record, hrec, hst⟩ := hd
    exact distinguishes_registerProvider ha hne hrec hst
  | _ => exact absurd hd not_false

end Neighbour

/-- A request with a per-operator token is answered from the rows of the caller's
workspace alone, whatever else the tables hold, just when it is not one of those
that disclose. -/
theorem response_from_own_rows_iff {env : Env} {expected token : Text}
    (ha : env.adminToken = some expected) (hne : env.tokenHash token ≠ env.tokenHash expected)
    (w : Text) (g : Generated) (req : Request) :
    (∀ (s₁ s₂ : Plane) (row : OperatorRow) (b₁ b₂ : Body), AgreeOn w s₁ s₂ →
      callerRow env (some token) s₁ = some row → row.workspaceId = some w →
        ((serve env ⟨some token, g, req⟩).run s₁).1 = .ok b₁ →
          ((serve env ⟨some token, g, req⟩).run s₂).1 = .ok b₂ → b₁ = b₂) ↔
      ¬Discloses env req := by
  constructor
  · intro h hd
    obtain ⟨s₁, s₂, row, b₁, b₂, hs, hc, hw, h₁, h₂, hb⟩ :=
      distinguishes_of_discloses (w := w) (g := g) ha hne hd
    exact hb (h s₁ s₂ row b₁ b₂ hs hc hw h₁ h₂)
  · intro hd s₁ s₂ row b₁ b₂ h hc hw h₁ h₂
    exact serve_answers hd h hc hw h₁ h₂

open TenantWrites.Desk

theorem agree_desk : AgreeOn acme start registered :=
  ⟨rfl, rfl, by decide, by decide, rfl, rfl⟩

/-- Alice lists her providers before and after Bob registered one of his. -/
theorem response_from_own_rows_desk :
    ((serve env ⟨some aliceToken, generated 3, .listProviders⟩).run start).1 =
      ((serve env ⟨some aliceToken, generated 3, .listProviders⟩).run registered).1 := by
  have h₁ : ((serve env ⟨some aliceToken, generated 3, .listProviders⟩).run start).1 =
      .ok (.providers []) := by decide
  have h₂ : ((serve env ⟨some aliceToken, generated 3, .listProviders⟩).run registered).1 =
      .ok (.providers []) := by decide
  have hb := (@response_from_own_rows_iff env rootToken aliceToken rfl (by decide) acme
    (generated 3) .listProviders).mpr not_false start registered alice _ _ agree_desk (by decide) rfl
    h₁ h₂
  rw [h₁, h₂, hb]

/-- Listing the operators, Alice is shown Bob, of another workspace. -/
theorem operator_listing_shows_bob :
    AgreeOn acme solo start ∧ callerRow env (some aliceToken) solo = some alice ∧
      alice.workspaceId = some acme ∧
      ((serve env ⟨some aliceToken, generated 3, .listOperators⟩).run solo).1 =
        .ok (.operators [operatorView { alice with lastUsedAt := some 3 }]) ∧
      ((serve env ⟨some aliceToken, generated 3, .listOperators⟩).run start).1 =
        .ok (.operators [operatorView { alice with lastUsedAt := some 3 }, operatorView bob]) ∧
      Body.operators [operatorView { alice with lastUsedAt := some 3 }] ≠
        Body.operators [operatorView { alice with lastUsedAt := some 3 }, operatorView bob] := by
  refine ⟨⟨rfl, rfl, rfl, by decide, rfl, rfl⟩, by decide, rfl, by decide, by decide, by decide⟩

end AgentPay.TenantReads
