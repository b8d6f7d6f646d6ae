import AgentPay.ControlRequests
import AgentPay.Runs

/-!
# Whose rows a control-plane request writes

An operator scoped to one workspace makes a request; the rows of another
workspace should stand as they were, whether it succeeds or fails. Most handlers
put the caller's workspace into the statement that writes. Four do not: deciding
an approval, enabling or disabling an operator, and the two that change the
registry beside the provider table. `Intrudes` says when one of these reaches a
row of the other workspace, and the frame holds of a request just when it does
not. The other workspace may be `none`, the rows of the legacy deployment.
-/
namespace AgentPay.TenantWrites
open SolanaRuntime EscrowState PolicyRules SessionStore EvidenceLog ControlPlane Workspaces
open ControlRequests
open Fallible Handlers KeyedTable Runs

/-- An approval belongs to the workspace of its agent. -/
def OwnedApproval (v : Option Text) (s : Plane) (a : ApprovalEntry) : Prop :=
  ∃ g ∈ s.agents.rows, g.agentId = a.agentId ∧ g.workspaceId = v

/-- Every row of the workspace is still in its table, and the registry has the
same entry for each of its providers. A row names its key, so a row that is still
there has not changed. -/
structure Untouched (v : Option Text) (s t : Plane) : Prop where
  agents : ∀ a ∈ s.agents.rows, a.workspaceId = v → a ∈ t.agents.rows
  approvals : ∀ a ∈ s.approvals.rows, OwnedApproval v s a → a ∈ t.approvals.rows
  providers : ∀ r ∈ s.providers.rows, r.workspaceId = v → r ∈ t.providers.rows
  operators : ∀ o ∈ s.operators.rows, o.workspaceId = v → o ∈ t.operators.rows
  registry : ∀ r ∈ s.providers.rows, r.workspaceId = v →
    registryGet t r.providerId.text = registryGet s r.providerId.text

/-- The request passes its checks and reaches a row or an entry of workspace `v`
that it changes. -/
def Intrudes (env : Env) (v : Option Text) (s : Plane) : Request → Prop
  | .decideApproval approvalId _ reason => nul ∉ approvalId ∧ nul ∉ reason.getD [] ∧
      ∃ a ∈ s.approvals.rows, a.approvalId = approvalId ∧ a.state = .pending ∧ OwnedApproval v s a
  | .setOperatorStatus operatorId enabled =>
      ∃ o ∈ s.operators.rows, o.operatorId.text = operatorId ∧ o.workspaceId = v ∧ o.enabled ≠ enabled
  | .registerProvider req => ∃ record, recordOf env req = .ok record ∧ record.Storable ∧
      registryGet s record.providerId ≠ some record ∧
        ∃ r ∈ s.providers.rows, r.providerId.text = record.providerId ∧ r.workspaceId = v
  | .deleteProvider providerId => registryGet s providerId ≠ none ∧
      ∃ r ∈ s.providers.rows, r.providerId.text = providerId ∧ r.workspaceId = v
  | _ => False

section Frame
variable {v w : Option Text} {s t u : Plane}

theorem Untouched.refl (s : Plane) : Untouched v s s :=
  ⟨fun _ h _ => h, fun _ h _ => h, fun _ h _ => h, fun _ h _ => h, fun _ _ _ => rfl⟩

theorem Untouched.trans (h : Untouched v s t) (h' : Untouched v t u) : Untouched v s u where
  agents a ha hv := h'.agents a (h.agents a ha hv) hv
  approvals a ha ho := by
    obtain ⟨g, hg, he, hv⟩ := ho
    exact h'.approvals a (h.approvals a ha ⟨g, hg, he, hv⟩) ⟨g, h.agents g hg hv, he, hv⟩
  providers r hr hv := h'.providers r (h.providers r hr hv) hv
  operators o ho hv := h'.operators o (h.operators o ho hv) hv
  registry r hr hv := by
    rw [h'.registry r (h.providers r hr hv) hv]
    exact h.registry r hr hv

/-! One table written at a time. -/

theorem untouched_agents {x : Table sameAgent}
    (h : ∀ a ∈ s.agents.rows, a.workspaceId = v → a ∈ x.rows) :
    Untouched v s { s with agents := x } :=
  ⟨h, fun _ ha _ => ha, fun _ hr _ => hr, fun _ ho _ => ho, fun _ _ _ => rfl⟩

theorem untouched_approvals_iff {x : Table sameApproval} :
    Untouched v s { s with approvals := x } ↔
      ∀ a ∈ s.approvals.rows, OwnedApproval v s a → a ∈ x.rows :=
  ⟨fun h => h.approvals, fun h =>
    ⟨fun _ ha _ => ha, h, fun _ hr _ => hr, fun _ ho _ => ho, fun _ _ _ => rfl⟩⟩

theorem untouched_providers {x : Table sameProvider}
    (h : ∀ r ∈ s.providers.rows, r.workspaceId = v → r ∈ x.rows) :
    Untouched v s { s with providers := x } :=
  ⟨fun _ ha _ => ha, fun _ ha _ => ha, h, fun _ ho _ => ho, fun _ _ _ => rfl⟩

theorem untouched_operators_iff {x : Table sameOperator} :
    Untouched v s { s with operators := x } ↔
      ∀ o ∈ s.operators.rows, o.workspaceId = v → o ∈ x.rows :=
  ⟨fun h => h.operators, fun h =>
    ⟨fun _ ha _ => ha, fun _ ha _ => ha, fun _ hr _ => hr, h, fun _ _ _ => rfl⟩⟩

end Frame

/-! ### Statements that carry the workspace of the caller -/
section Scoped
variable {v : Option Text} {w : Text} {s t : Plane} {b : Bool}

theorem not_inScope (hv : v ≠ some w) : inScope (some w) v = false := by
  simp [inScope, hv]

theorem updateAgents_untouched {agentId : Text} {f : AgentEntry → AgentEntry} {u : Table sameAgent}
    (hv : v ≠ some w) (h : s.agents.update (agentInScope agentId (some w)) f = some u) :
    Untouched v s { s with agents := u } := by
  apply untouched_agents
  intro a ha hav
  apply Table.mem_update_of_not h ha
  simp [agentInScope, hav, not_inScope hv]

theorem createAgent_untouched {agentId label : Text} {key : Pubkey} {owner : Option Pubkey}
    {mode : AgentMode} {workspace : Option Text} {now : Timestamp}
    (h : Workspaces.createAgent agentId label key owner mode workspace now s = .ok (b, t)) :
    Untouched v s t := by
  rcases createAgent_cases h with ⟨_, u, -, hu, -, rfl⟩ | ⟨-, rfl⟩
  · exact untouched_agents fun a ha _ => Table.mem_insert_of_mem hu ha
  · exact Untouched.refl _

theorem setAgentStatus_untouched {agentId : Text} {status : AgentStatus} (hv : v ≠ some w)
    (h : Workspaces.setAgentStatus agentId status (some w) s = .ok (b, t)) : Untouched v s t := by
  obtain ⟨u, hu, rfl⟩ := setAgentStatus_cases h
  exact updateAgents_untouched hv hu

theorem setPolicy_untouched {agentId : Text} {mode : AgentMode} {p : AgentPolicy} (hv : v ≠ some w)
    (h : setPolicy agentId mode p (some w) s = .ok (b, t)) : Untouched v s t := by
  rcases setPolicy_cases h with ⟨_, u, -, hu, rfl⟩ | ⟨-, rfl⟩
  · exact updateAgents_untouched hv hu
  · exact Untouched.refl _

theorem upsertProvider_untouched {p : ProviderRecord} {x : PUnit} (hv : v ≠ some w)
    (h : upsertProvider p (some w) s = .ok (x, t)) : Untouched v s t ∧ t.registry = s.registry := by
  obtain ⟨row, u, hrow, rfl, hu | hu⟩ := upsertProvider_cases h
  · exact ⟨untouched_providers fun r hr _ => Table.mem_insert_of_mem hu hr, rfl⟩
  · refine ⟨untouched_providers ?_, rfl⟩
    intro r hr hrv
    apply Table.mem_update_of_not hu hr
    simp [ownProvider, hrv, (toRow_eq_ok hrow).2, hv]

theorem deleteProvider_untouched {providerId : Text} (hv : v ≠ some w)
    (h : Workspaces.deleteProvider providerId (some w) s = .ok (b, t)) :
    Untouched v s t ∧ t.registry = s.registry := by
  simp only [Workspaces.deleteProvider, bind_eq_ok, pure_eq_ok, Prod.mk.injEq] at h
  obtain ⟨_, -, -, rfl⟩ := h
  refine ⟨untouched_providers ?_, rfl⟩
  intro r hr hrv
  rw [Table.mem_delete]
  refine ⟨hr, ?_⟩
  simp [providerInScope, hrv, not_inScope hv]

theorem createOperator_untouched {operatorId : Varchar 64} {label : Text} {hash : Hash}
    {now : Timestamp} (h : Workspaces.createOperator operatorId label hash now s = .ok (b, t)) :
    Untouched v s t := by
  simp only [Workspaces.createOperator, bind_eq_ok, pure_eq_ok] at h
  obtain ⟨_, -, h⟩ := h
  rcases insertInto_cases h with ⟨u, hu, -, rfl⟩ | ⟨-, -, rfl⟩
  · exact untouched_operators_iff.mpr fun o ho _ => Table.mem_insert_of_mem hu ho
  · exact Untouched.refl _

/-- A change of an operator that keeps its id and its workspace writes only the
row of that id. -/
theorem updateOperators_untouched {p : OperatorRow → Bool} {f : OperatorRow → OperatorRow}
    (hp : ∀ o ∈ s.operators.rows, p o = true → o.workspaceId ≠ v)
    (h : updateOperators p f s = .ok (b, t)) : Untouched v s t := by
  obtain ⟨u, hu, -, rfl⟩ := updateIn_eq_ok.mp h
  apply untouched_operators_iff.mpr
  intro o ho hov
  apply Table.mem_update_of_not hu ho
  by_contra hpo
  exact hp o ho (by simpa using hpo) hov

end Scoped

/-! ### Handlers that carry the workspace of the caller -/
section Handlers
variable {v : Option Text} {w : Text} {op : Operator}

theorem frame_untouched : Frame (Untouched v) := ⟨Untouched.refl, Untouched.trans⟩

/-- Rotation is self-service: it writes the row of the caller. -/
theorem rotateOwnToken_untouched {s : Plane} (env : Env) (g : Generated)
    (hown : ∀ o ∈ s.operators.rows, o.operatorId = op.operatorId → o.workspaceId ≠ v) :
    Untouched v s ((rotateOwnToken env op g).run s).2 := by
  unfold rotateOwnToken demand
  rcases require (op.operatorId ≠ sharedTokenOperator)
      ControlDenial.sharedTokenNotRotatable with e | a
  · rw [run_lift_bind_of_error rfl]
    exact Untouched.refl s
  · rw [run_lift_bind_of_ok rfl]
    rcases hu : unavailable (rotateOperatorToken op.operatorId (env.tokenHash (tokenOf g)) s) with
      e | ⟨b, t⟩
    · rw [run_exec_bind_of_error hu]
      exact Untouched.refl s
    · rw [run_exec_bind_reads hu]
      · refine updateOperators_untouched ?_ (unavailable_eq_ok.mp hu)
        intro o ho hp
        simp only [Bool.and_eq_true, decide_eq_true_eq] at hp
        exact hown o ho hp.1
      · exact reads_bind (reads_query _) fun _ => reads_pure _

end Handlers

/-! ### Handlers that do not -/
section Unscoped
variable {v : Option Text} {w : Text} {op : Operator} {s : Plane}

theorem setOperatorStatus_untouched_iff (env : Env) (operatorId : Text) (enabled : Bool) :
    Untouched v s ((setOperatorStatus operatorId enabled).run s).2 ↔
      ¬Intrudes env v s (.setOperatorStatus operatorId enabled) := by
  have hreads : ∀ done, Reads (do
      demand (done = true) ControlDenial.operatorNotFound
      ControlRequests.listOperators) := fun _ => reads_bind (reads_query _) fun _ => reads_query _
  simp only [Intrudes]
  by_cases hn : nul ∈ operatorId
  · have he : setOperatorEnabled operatorId enabled s = .error .constraint := by
      rw [setOperatorEnabled, bindText_of_nul hn, error_bind]
    have hs : ((setOperatorStatus operatorId enabled).run s).2 = s := after_failed_statement he
    rw [hs]
    simp only [Untouched.refl, true_iff, not_exists, not_and]
    intro o _ ho
    exact absurd hn (ho ▸ o.operatorId.fits.2)
  · obtain ⟨u, hu, hok⟩ := @setOperatorEnabled_of_clean s operatorId enabled hn
    have hs : ((setOperatorStatus operatorId enabled).run s).2 = { s with operators := u } :=
      after_statement hok hreads
    rw [hs, untouched_operators_iff]
    have hk : ∀ o : OperatorRow, sameOperator (Table.updated
        (fun o => o.operatorId.text = operatorId) (fun o => { o with enabled := enabled }) o) o := by
      intro o
      unfold Table.updated
      split_ifs <;> simp [sameOperator]
    have hsame : ∀ o : OperatorRow, { o with enabled := enabled } = o ↔ o.enabled = enabled := by
      rintro ⟨⟩
      simp [eq_comm]
    simp only [not_exists, not_and, not_not]
    refine forall₂_congr fun o ho => ?_
    rw [Table.mem_update_iff sameOperator_comm hu hk ho, Table.updated_eq_self, hsame,
      decide_eq_true_eq]
    exact imp.swap

theorem decideApproval_untouched_iff (env : Env) (g : Generated) (approvalId : Text)
    (approved : Bool) (reason : Option Text) :
    Untouched v s ((ControlRequests.decideApproval op g approvalId approved reason).run s).2 ↔
      ¬Intrudes env v s (.decideApproval approvalId approved reason) := by
  simp only [Intrudes]
  by_cases hn : nul ∉ approvalId ∧ nul ∉ reason.getD []
  · obtain ⟨u, hu, hok⟩ := @decideApproval_of_clean s approvalId approved reason op.operatorId
      op.label g.now hn.1 hn.2
    have hs : ((ControlRequests.decideApproval op g approvalId approved reason).run s).2 =
        { s with approvals := u } :=
      after_statement hok fun _ => reads_bind (reads_query _) fun _ => reads_listApprovals
    have hk : ∀ a : ApprovalEntry, sameApproval (Table.updated (decidable approvalId)
        (decision approved reason op.operatorId op.label g.now) a) a := by
      intro a
      unfold Table.updated
      split_ifs <;> simp [sameApproval, decision]
    rw [hs, untouched_approvals_iff]
    simp only [hn.1, hn.2, not_false_iff, true_and, not_exists, not_and]
    refine forall₂_congr fun a ha => ?_
    rw [Table.mem_update_iff sameApproval_comm hu hk ha, Table.updated_eq_self]
    have hne : decidable approvalId a = true →
        decision approved reason op.operatorId op.label g.now a ≠ a := by
      intro hd he
      have hstate := congrArg (fun a : ApprovalEntry => a.state) he
      simp only [decidable, Bool.and_eq_true, decide_eq_true_eq] at hd
      rw [hd.2] at hstate
      cases approved <;> cases hstate
    simp only [decidable, Bool.and_eq_true, decide_eq_true_eq] at hne ⊢
    constructor
    · intro h hid hp ho
      exact hne ⟨hid, hp⟩ (h ho ⟨hid, hp⟩)
    · intro h ho hd
      exact absurd ho (h hd.1 hd.2)
  · have he : ∃ e, Workspaces.decideApproval approvalId approved reason op.operatorId op.label
        g.now s = .error e := by
      unfold Workspaces.decideApproval
      by_cases hid : nul ∈ approvalId
      · exact ⟨_, by rw [bindText_of_nul hid, error_bind]⟩
      · have hr : nul ∈ reason.getD [] := by_contra fun hr => hn ⟨hid, hr⟩
        exact ⟨_, by rw [bindText_of_clean hid, ok_bind, bindText_of_nul hr, error_bind]⟩
    obtain ⟨e, he⟩ := he
    have hs : ((ControlRequests.decideApproval op g approvalId approved reason).run s).2 = s :=
      after_failed_statement he
    rw [hs]
    simp only [Untouched.refl, true_iff]
    rintro ⟨h₁, h₂, -⟩
    exact hn ⟨h₁, h₂⟩

/-- After a statement that keeps the tables of `v`, a change of the registry is
all there is to look at. -/
theorem untouched_registry_after {t u : Plane} (h : Untouched v s t)
    (hu : u = { t with registry := u.registry }) :
    Untouched v s u ↔ ∀ r ∈ s.providers.rows, r.workspaceId = v →
      registryGet u r.providerId.text = registryGet s r.providerId.text := by
  constructor
  · intro hs
    exact hs.registry
  · intro hr
    rw [hu]
    refine ⟨h.agents, h.approvals, h.providers, h.operators, ?_⟩
    intro r hr' hv
    rw [← hu]
    exact hr r hr' hv

theorem registryGet_eq_of_registry {t : Plane} (h : t.registry = s.registry) (id : Text) :
    registryGet t id = registryGet s id := by
  unfold registryGet
  rw [h]

theorem deleteProvider_untouched_iff (env : Env) (hw : op.workspaceId = some w) (hv : v ≠ some w)
    (providerId : Text) :
    Untouched v s ((ControlRequests.deleteProvider op providerId).run s).2 ↔
      ¬Intrudes env v s (.deleteProvider providerId) := by
  simp only [Intrudes]
  by_cases hn : nul ∈ providerId
  · have he : Workspaces.deleteProvider providerId op.workspaceId s = .error .constraint := by
      rw [Workspaces.deleteProvider, bindText_of_nul hn, error_bind]
    have hs : ((ControlRequests.deleteProvider op providerId).run s).2 = s :=
      after_failed_statement he
    rw [hs]
    simp only [Untouched.refl, true_iff, not_exists, not_and]
    intro _ r _ hr
    exact absurd hn (hr ▸ r.providerId.fits.2)
  · obtain ⟨⟨b, t⟩, hok⟩ : ∃ x, Workspaces.deleteProvider providerId op.workspaceId s = .ok x := by
      rw [Workspaces.deleteProvider, bindText_of_clean hn, ok_bind]
      exact ⟨_, rfl⟩
    have hs : ((ControlRequests.deleteProvider op providerId).run s).2 =
        registryRemove providerId t := by
      unfold ControlRequests.deleteProvider
      rw [run_bind_of_ok (run_exec_of_ok (unavailable_eq_ok.mpr hok))]
      exact run_exec_bind_reads rfl (reads_bind (reads_query _) fun _ => reads_query _)
    rw [hs]
    rw [hw] at hok
    obtain ⟨hkeep, hreg⟩ := deleteProvider_untouched hv hok
    rw [untouched_registry_after hkeep rfl]
    simp only [registryGet_remove, registryGet_eq_of_registry hreg]
    constructor
    · rintro h ⟨hne, r, hr, hid, hrv⟩
      have hr' := h r hr hrv
      rw [if_pos hid, hid] at hr'
      exact hne hr'.symm
    · intro h r hr hrv
      split_ifs with hid
      · by_contra hne
        exact h ⟨fun hnone => hne (by rw [hid, hnone]), r, hr, hid, hrv⟩
      · rfl

theorem registerProvider_untouched_iff (env : Env) (hw : op.workspaceId = some w) (hv : v ≠ some w)
    (req : RegisterProviderRequest) :
    Untouched v s ((registerProvider env op req).run s).2 ↔
      ¬Intrudes env v s (.registerProvider req) := by
  simp only [Intrudes]
  unfold registerProvider
  rcases hrec : recordOf env req with e | record
  · rw [run_lift_bind_of_error rfl]
    simp [Untouched.refl]
  · rw [run_lift_bind_of_ok rfl]
    by_cases hst : record.Storable
    · obtain ⟨t, hok⟩ := upsertProvider_of_storable hst op.workspaceId s
      rw [run_bind_of_ok (run_exec_of_ok (unavailable_eq_ok.mpr hok))]
      change Untouched v s (registryUpsert record t) ↔ _
      rw [hw] at hok
      obtain ⟨hkeep, hreg⟩ := upsertProvider_untouched hv hok
      rw [untouched_registry_after hkeep rfl]
      simp only [registryGet_upsert, registryGet_eq_of_registry hreg]
      constructor
      · rintro h ⟨record', he, -, hne, r, hr, hid, hrv⟩
        cases he
        have hr' := h r hr hrv
        rw [if_pos hid, hid] at hr'
        exact hne hr'.symm
      · intro h r hr hrv
        split_ifs with hid
        · by_contra hne
          exact h ⟨record, rfl, hst, fun hsome => hne (by rw [hid, hsome]), r, hr, hid, hrv⟩
        · rfl
    · have he : ∃ e, upsertProvider record op.workspaceId s = .error e := by
        unfold upsertProvider
        rcases hrow : record.toRow op.workspaceId with e | row
        · exact ⟨e, rfl⟩
        · exact absurd (toRow_eq_ok hrow).1 hst
      obtain ⟨e, he⟩ := he
      rw [after_failed_statement he]
      simp only [Untouched.refl, true_iff]
      rintro ⟨record', h, hst', -⟩
      cases h
      exact hst hst'

/-! ### Requests -/

theorem handle_untouched_iff (env : Env) (g : Generated) (hw : op.workspaceId = some w)
    (hv : v ≠ some w)
    (hown : ∀ o ∈ s.operators.rows, o.operatorId = op.operatorId → o.workspaceId = some w)
    (req : Request) : Untouched v s ((handle env op g req).run s).2 ↔ ¬Intrudes env v s req := by
  cases req with
  | decideApproval approvalId approved reason =>
    exact decideApproval_untouched_iff env g approvalId approved reason
  | setOperatorStatus operatorId enabled => exact setOperatorStatus_untouched_iff env operatorId enabled
  | registerProvider req => exact registerProvider_untouched_iff env hw hv req
  | deleteProvider providerId => exact deleteProvider_untouched_iff env hw hv providerId
  | createAgent req =>
    refine iff_of_true (keeps_createAgent frame_untouched ?_ s) not_false
    intro _ _ _ _ _ _ _ _ h
    exact createAgent_untouched h
  | authorizeAgent agentId req =>
    refine iff_of_true (keeps_authorizeAgent frame_untouched ?_ s) not_false
    intro _ _ _ _ _ h
    rw [hw] at h
    exact setPolicy_untouched hv h
  | setAgentStatus agentId status =>
    refine iff_of_true (keeps_setAgentStatus frame_untouched ?_ s) not_false
    intro _ _ _ h
    rw [hw] at h
    exact setAgentStatus_untouched hv h
  | createOperator label =>
    refine iff_of_true (keeps_createOperator frame_untouched ?_ s) not_false
    intro _ _ _ h
    exact createOperator_untouched h
  | rotateOwnToken =>
    refine iff_of_true (rotateOwnToken_untouched env g ?_) not_false
    intro o ho hid he
    exact hv (he ▸ hown o ho hid)
  | listSessions => exact iff_of_true ((reads_listSessions g).keeps frame_untouched s) not_false
  | recentDecisions => exact iff_of_true ((reads_recentDecisions g).keeps frame_untouched s) not_false
  | listAgents => exact iff_of_true (reads_listAgents.keeps frame_untouched s) not_false
  | getAgent agentId => exact iff_of_true ((reads_getAgent agentId).keeps frame_untouched s) not_false
  | listProviders => exact iff_of_true ((reads_listProviders env).keeps frame_untouched s) not_false
  | listOperators => exact iff_of_true ((reads_query _).keeps frame_untouched s) not_false
  | listApprovals => exact iff_of_true (reads_listApprovals.keeps frame_untouched s) not_false

/-- Authentication writes the row of the caller; to another workspace that is
no change, in either direction. -/
theorem touch_others {row : OperatorRow} (hrow : row ∈ s.operators.rows)
    (hw : row.workspaceId ≠ v) (now : Timestamp) :
    ∃ u, touch row.operatorId now s = { s with operators := u } ∧
      (∀ o, o.workspaceId = v → (o ∈ u.rows ↔ o ∈ s.operators.rows)) ∧
        ∀ o ∈ u.rows, o.operatorId = row.operatorId → o.workspaceId = row.workspaceId := by
  obtain ⟨u, hu, hok⟩ := @touchOperator_isOk s row.operatorId now
  refine ⟨u, ?_, ?_, ?_⟩
  · unfold touch
    rw [hok]
  · intro o hov
    constructor
    · intro ho
      obtain ⟨r, hr, he⟩ := (Table.mem_update hu).mp ho
      unfold Table.updated at he
      split_ifs at he with hid
      · rw [← he] at hov
        rw [decide_eq_true_eq] at hid
        rw [operator_eq hr hrow hid] at hov
        exact absurd hov hw
      · rw [← he]
        exact hr
    · intro ho
      apply Table.mem_update_of_not hu ho
      by_contra hid
      simp only [Bool.not_eq_false, decide_eq_true_eq] at hid
      rw [operator_eq ho hrow hid] at hov
      exact hw hov
  · intro o ho hid
    obtain ⟨r, hr, he⟩ := (Table.mem_update hu).mp ho
    unfold Table.updated at he
    split_ifs at he with hp
    · rw [← he]
      rw [decide_eq_true_eq] at hp
      rw [operator_eq hr hrow hp]
    · rw [← he] at hid
      exact absurd (decide_eq_true hid) hp

theorem untouched_congr {u : Table sameOperator} {t : Plane}
    (hu : ∀ o, o.workspaceId = v → (o ∈ u.rows ↔ o ∈ s.operators.rows)) :
    Untouched v { s with operators := u } t ↔ Untouched v s t := by
  constructor
  · intro h
    exact ⟨h.agents, h.approvals, h.providers, fun o ho hv => h.operators o ((hu o hv).mpr ho) hv,
      h.registry⟩
  · intro h
    exact ⟨h.agents, h.approvals, h.providers, fun o ho hv => h.operators o ((hu o hv).mp ho) hv,
      h.registry⟩

theorem intrudes_congr {env : Env} {u : Table sameOperator} {req : Request}
    (hu : ∀ o, o.workspaceId = v → (o ∈ u.rows ↔ o ∈ s.operators.rows)) :
    Intrudes env v { s with operators := u } req ↔ Intrudes env v s req := by
  cases req with
  | setOperatorStatus operatorId enabled =>
    refine exists_congr fun o => ?_
    constructor
    · rintro ⟨ho, hid, hv, he⟩
      exact ⟨(hu o hv).mp ho, hid, hv, he⟩
    · rintro ⟨ho, hid, hv, he⟩
      exact ⟨(hu o hv).mpr ho, hid, hv, he⟩
  | _ => exact Iff.rfl

theorem serve_untouched_iff {env : Env} {c : Call} {row : OperatorRow}
    (hc : callerRow env c.token s = some row) (hw : row.workspaceId = some w) (hv : v ≠ some w) :
    Untouched v s ((serve env c).run s).2 ↔ ¬Intrudes env v s c.request := by
  have hne : row.workspaceId ≠ v := fun he => hv (he ▸ hw)
  obtain ⟨u, ht, hu, hid⟩ := touch_others (callerRow_mem hc) hne c.generated.touchedAt
  have hown : ∀ o ∈ u.rows, o.operatorId = row.operatorId → o.workspaceId = some w :=
    fun o ho he => (hid o ho he).trans hw
  rw [serve_of_callerRow hc, ht, ← untouched_congr hu, ← intrudes_congr hu]
  exact handle_untouched_iff env c.generated hw hv hown c.request

end Unscoped

/-- In every run, a request of an operator scoped to `w` leaves the rows and the
registry entries of another workspace as they were just when it does not intrude
on them. -/
theorem request_leaves_others_iff {env : Env} {start s : Plane} {h : History Plane (Option Call)}
    (hr : Run (PlaneStep env) start h s) : ∀ t ∈ h, ∀ (c : Call) (row : OperatorRow) (w : Text)
      (v : Option Text), t.label = some c → callerRow env c.token t.before = some row →
        row.workspaceId = some w → v ≠ some w →
          (Untouched v t.before t.after ↔ ¬Intrudes env v t.before c.request) := by
  rintro ⟨before, label, after⟩ ht c row w v rfl hc hw hv
  obtain ⟨later, earlier, rfl⟩ := List.append_of_mem ht
  have hs : PlaneStep env before (some c) after := (hr.split rfl).2
  cases hs
  exact serve_untouched_iff hc hw hv

/-! ### Two tenants -/
namespace Desk

def acme : Text := "acme".toList
def bolt : Text := "bolt".toList
def weather : Text := "weather".toList

def first : Uuid := ⟨"11111111111141118111111111111111".toList, by decide⟩
def second : Uuid := ⟨"22222222222242228222222222222222".toList, by decide⟩
def third : Uuid := ⟨"33333333333343338333333333333333".toList, by decide⟩

def rootToken : Text := "root".toList
def aliceToken : Text := "alice-token".toList
def bobToken : Text := "bob-token".toList
def mintedToken : Text := first.text ++ second.text

def rootHash : Hash := #v[72, 19, 73, 77, 19, 126, 22, 49, 187, 163, 1, 213, 172, 171, 110, 123,
  183, 170, 116, 206, 17, 133, 212, 86, 86, 94, 245, 29, 115, 118, 119, 178]

def aliceHash : Hash := #v[156, 34, 15, 32, 9, 85, 215, 108, 10, 56, 211, 8, 34, 94, 14, 241, 12,
  95, 151, 26, 202, 242, 248, 209, 216, 247, 50, 175, 250, 91, 209, 220]

def bobHash : Hash := #v[151, 221, 55, 7, 1, 93, 207, 6, 156, 247, 48, 34, 237, 113, 115, 177, 22,
  93, 182, 239, 242, 75, 68, 28, 181, 127, 208, 105, 168, 196, 229, 37]

def mintedHash : Hash := #v[229, 16, 170, 246, 136, 227, 115, 196, 186, 188, 27, 204, 251, 26, 14,
  207, 82, 125, 82, 79, 127, 255, 0, 224, 25, 76, 169, 12, 253, 121, 176, 37]

/-- The digests of the tokens that occur. -/
def tokenHash (token : Text) : Hash :=
  if token = rootToken then rootHash
  else if token = aliceToken then aliceHash
  else if token = bobToken then bobHash
  else if token = mintedToken then mintedHash
  else zeroHash

def env : Env where
  adminToken := some rootToken
  tokenHash := tokenHash
  parsePubkey _ := none
  collation a b := ¬b < a

def alice : OperatorRow := ⟨⟨"op_alice".toList, by decide⟩, ⟨"Alice".toList, by decide⟩, aliceHash,
  .owner, some acme, true, 0, none⟩

def bob : OperatorRow := ⟨⟨"op_bob".toList, by decide⟩, ⟨"Bob".toList, by decide⟩, bobHash,
  .owner, some bolt, true, 0, none⟩

/-- Two workspaces with one operator each, and nothing registered yet. -/
def start : Plane where
  agents := .empty
  approvals := .empty
  providers := .empty
  operators := ⟨[alice, bob], by decide⟩
  sessions := .empty
  feed := []
  registry := .empty

/-- Alice's workspace with no other beside it. -/
def solo : Plane := { start with operators := ⟨[alice], by decide⟩ }

def generated (now : Timestamp) : Generated := ⟨"req".toList, first, second, third, now, now⟩

def register : Call := ⟨some bobToken, generated 1, .registerProvider
  ⟨weather, "Weather".toList, "https://weather.test".toList, none, true⟩⟩

def registered : Plane := ((serve env register).run start).2

/-- Alice, of the other workspace, deletes it. -/
def remove : Call := ⟨some aliceToken, generated 2, .deleteProvider weather⟩

def removed : Plane := ((serve env remove).run registered).2

def weatherRow : ProviderRow := ⟨⟨weather, by decide⟩, ⟨"Weather".toList, by decide⟩,
  "https://weather.test".toList, none, true, some bolt⟩

theorem run : Run (PlaneStep env) start
    [⟨registered, some remove, removed⟩, ⟨start, some register, registered⟩] removed :=
  .step (.step .start (.request start register)) (.request registered remove)

end Desk

open Desk

/-- Bob's registration leaves the rows of Alice's workspace alone. -/
theorem request_leaves_others_desk : Untouched (some acme) start registered := by
  refine (request_leaves_others_iff Desk.run ⟨start, some register, registered⟩ (by simp) register bob
    bolt (some acme) rfl (by decide) rfl (by decide)).mpr ?_
  rintro ⟨_, -, -, -, r, hr, -⟩
  cases hr

/-- Alice's request is denied, and the registry has lost the entry of a provider
of Bob's workspace. -/
theorem denied_delete_removes_entry :
    Run (PlaneStep env) start
        [⟨registered, some remove, removed⟩, ⟨start, some register, registered⟩] removed ∧
      callerRow env remove.token registered = some alice ∧ alice.workspaceId = some acme ∧
      ((serve env remove).run registered).1 = .error .providerNotFound ∧
      weatherRow ∈ registered.providers.rows ∧ weatherRow.workspaceId = some bolt ∧
      registryGet registered weather = some weatherRow.record ∧ registryGet removed weather = none ∧
      ¬Untouched (some bolt) registered removed := by
  have hrow : weatherRow ∈ registered.providers.rows := by decide
  have hentry : registryGet registered weather = some weatherRow.record := by decide
  have hgone : registryGet removed weather = none := by decide
  refine ⟨Desk.run, by decide, rfl, by decide, hrow, rfl, hentry, hgone, ?_⟩
  intro h
  have hsame : registryGet removed weather = registryGet registered weather :=
    h.registry weatherRow hrow rfl
  rw [hentry, hgone] at hsame
  cases hsame

end AgentPay.TenantWrites
