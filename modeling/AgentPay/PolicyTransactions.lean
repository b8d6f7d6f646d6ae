import AgentPay.Workspaces

/-!
# Policies in their own table

`set_policy` is a transaction on two tables: the mode is a column of `agents`, the envelope
a row of `agent_policies`. Both change or neither does, and `get_agent` reads back the very
policy that was written: amounts that do not fit are refused before they are bound, and a
call limit that the cast wraps is negative, which the `CHECK` refuses.

A row type carries the `CHECK`s of its table and a store the keys between the tables, so
every state the tables can be in is a store. Which calls to the database fail is an input;
a transaction that is not committed is rolled back. `updated_at` is left out.
-/
namespace AgentPay.PolicyTransactions
open SolanaRuntime EscrowState PolicyRules SessionStore ControlPlane Workspaces Fallible KeyedTable

/-! ### Columns -/

def modeText : AgentMode → Text
  | .human => "human".toList
  | .autonomous => "autonomous".toList

theorem modeText_check (mode : AgentMode) :
    modeText mode = "human".toList ∨ modeText mode = "autonomous".toList := by
  cases mode with
  | human => exact .inl rfl
  | autonomous => exact .inr rfl

/-- `from_str_or_human`. -/
def fromStrOrHuman (s : Text) : AgentMode := if s = "autonomous".toList then .autonomous else .human

/-- `from_str_or_suspended`. -/
def fromStrOrSuspended (s : Text) : AgentStatus :=
  if s = "active".toList then .active else .suspended

structure AgentColumns where
  agentId : Varchar 64
  label : Varchar 128
  agentPubkey : Pubkey
  ownerPubkey : Option Pubkey
  mode : Text
  status : Text
  workspaceId : Option Text
  createdAt : Timestamp
  modeCheck : mode = "human".toList ∨ mode = "autonomous".toList
  statusCheck : status = "active".toList ∨ status = "suspended".toList

/-- The `CHECK`s of `agent_policies`; no text of an array holds a NUL. -/
def Checked (r : PolicyRow) : Prop :=
  (0 < r.maxTotal ∧ 0 < r.maxPerCall) ∧ (∀ t, r.approvalThreshold = some t → 0 ≤ t) ∧
    (∀ t ∈ r.allowedResources.getD [], nul ∉ t) ∧ ∀ c, r.maxCalls = some c → 0 < c

instance (r : PolicyRow) : Decidable (Checked r) :=
  inferInstanceAs (Decidable ((0 < r.maxTotal ∧ 0 < r.maxPerCall) ∧
    (∀ t, r.approvalThreshold = some t → 0 ≤ t) ∧
    (∀ t ∈ r.allowedResources.getD [], nul ∉ t) ∧ ∀ c, r.maxCalls = some c → 0 < c))

structure PolicyColumns where
  agentId : Varchar 64
  row : PolicyRow
  checks : Checked row

def sameColumns (a b : AgentColumns) : Bool :=
  a.agentId = b.agentId || a.agentPubkey = b.agentPubkey

def sameOwner (a b : PolicyColumns) : Bool := a.agentId = b.agentId

/-- The two tables; a policy belongs to an agent. -/
structure Store where
  agents : Table sameColumns
  policies : Table sameOwner
  owned : ∀ p ∈ policies.rows, ∃ a ∈ agents.rows, a.agentId = p.agentId

/-! ### Statements -/

def selects (agentId : Text) (workspace : Option Text) (a : AgentColumns) : Bool :=
  a.agentId.text = agentId && inScope workspace a.workspaceId

def AgentColumns.withMode (mode : AgentMode) (a : AgentColumns) : AgentColumns :=
  { a with
    mode := modeText mode
    modeCheck := modeText_check mode }

section Selected
variable {sel : AgentColumns → Bool} {mode : AgentMode} {a b : AgentColumns}

@[simp] theorem updated_agentId :
    (Table.updated sel (AgentColumns.withMode mode) a).agentId = a.agentId := by
  unfold Table.updated
  split_ifs
  · rfl
  · rfl

@[simp] theorem updated_workspaceId :
    (Table.updated sel (AgentColumns.withMode mode) a).workspaceId = a.workspaceId := by
  unfold Table.updated
  split_ifs
  · rfl
  · rfl

theorem sameColumns_updated : sameColumns (Table.updated sel (AgentColumns.withMode mode) a)
    (Table.updated sel (AgentColumns.withMode mode) b) = sameColumns a b := by
  unfold Table.updated
  split_ifs
  · rfl
  · rfl
  · rfl
  · rfl

end Selected

/-- `UPDATE agents SET mode`. -/
def Store.updateMode (sel : AgentColumns → Bool) (mode : AgentMode) (s : Store) : Store where
  agents := ⟨s.agents.rows.map (Table.updated sel (AgentColumns.withMode mode)), by
    rw [List.pairwise_map]
    exact s.agents.unique.imp fun h => sameColumns_updated.trans h⟩
  policies := s.policies
  owned p hp := by
    obtain ⟨a, ha, hid⟩ := s.owned p hp
    exact ⟨_, List.mem_map_of_mem ha, updated_agentId.trans hid⟩

/-- `INSERT INTO agent_policies ... ON CONFLICT (agent_id) DO UPDATE`. -/
def Store.upsertPolicy (agentId : Text) (row : PolicyRow) (s : Store) : Except DbError Store := do
  let agentId ← toVarchar 64 agentId
  if hc : Checked row then
    if ho : ∃ a ∈ s.agents.rows, a.agentId = agentId then
      pure ⟨s.agents, s.policies.upsert ⟨agentId, row, hc⟩, by
        intro p hp
        rcases List.mem_append.mp hp with hp | hp
        · exact s.owned p (List.mem_filter.mp hp).1
        · rw [List.mem_singleton.mp hp]
          exact ho⟩
    else throw .constraint
  else throw .constraint

/-! ### The transaction -/

inductive Call where
  | begin
  | update
  | rollback
  | insert
  | commit
deriving DecidableEq, Repr

inductive Failure where
  | lost (call : Call)
  | refused (e : DbError)
deriving DecidableEq

/-- The columns that are bound; `c as i32` wraps. -/
def bindPolicy (p : AgentPolicy) : Except DbError PolicyRow := do
  let maxTotal ← toI64 p.maxTotal "max_total"
  let maxPerCall ← toI64 p.maxPerCall "max_per_call"
  let approvalThreshold ← thresholdToRow p.approvalThreshold
  pure ⟨maxTotal, maxPerCall, approvalThreshold, p.allowedResources, p.maxCalls.map UInt32.toInt32⟩

section Setting
variable (fails : Call → Bool) (agentId : Text) (mode : AgentMode) (p : AgentPolicy)
variable (workspace : Option Text) (s : Store)

def attempt (call : Call) : Except Failure Unit := require (fails call = false) (.lost call)

/-- What the transaction commits, or nothing if it is rolled back. -/
def transaction : Except Failure (Option Store) := do
  attempt fails .begin
  attempt fails .update
  (bindText agentId).mapError .refused
  if s.agents.rows.any (selects agentId workspace) then
    let row ← (bindPolicy p).mapError .refused
    attempt fails .insert
    let t ← ((s.updateMode (selects agentId workspace) mode).upsertPolicy agentId row).mapError
      .refused
    attempt fails .commit
    pure (some t)
  else
    attempt fails .rollback
    pure none

/-- `set_policy`: what is not committed leaves the store as it was. -/
def setPolicy : Store × Except Failure Bool :=
  match transaction fails agentId mode p workspace s with
  | .ok (some t) => (t, .ok true)
  | .ok none => (s, .ok false)
  | .error e => (s, .error e)

end Setting

/-! ### The join -/

/-- The row of `agent_policies` that joins. -/
def Store.policyOf (s : Store) (agentId : Varchar 64) : Option PolicyRow :=
  (s.policies.rows.find? fun p => p.agentId = agentId).map PolicyColumns.row

/-- A row of `AGENT_SELECT`, with the texts of mode and status as they are read. -/
def Store.joined (s : Store) (a : AgentColumns) : AgentEntry :=
  ⟨⟨a.agentId.text, a.agentPubkey, fromStrOrHuman a.mode, fromStrOrSuspended a.status,
    a.workspaceId, s.policyOf a.agentId⟩, a.label, a.ownerPubkey, a.createdAt⟩

/-- `get_agent`. -/
def getAgent (agentId : Text) (workspace : Option Text) (s : Store) :
    Except DbError (Option AgentDetail) := do
  bindText agentId
  match s.agents.rows.find? (selects agentId workspace) with
  | none => pure none
  | some a => do
    let detail ← agentDetail (s.joined a)
    pure (some detail)

/-! ### What is bound is read back -/

section Conversions
variable {p : AgentPolicy} {row : PolicyRow} {t : Option UInt64} {t' : Option Int64} {c : UInt32}

theorem threshold_back (h : thresholdToRow t = .ok t') : thresholdFromRow t' = .ok t := by
  rcases t with _ | v
  · obtain rfl : none = t' := pure_eq_ok.mp h
    rfl
  · simp only [thresholdToRow, bind_eq_ok, pure_eq_ok, toI64_eq_ok] at h
    obtain ⟨i, hi, rfl⟩ := h
    have hback : toU64 i "approval_threshold" = .ok v := toU64_eq_ok.mpr hi.symm
    rw [thresholdFromRow, hback]
    rfl

/-- A limit that the cast wraps is not positive; any other is kept. -/
theorem calls_back (h : 0 < c.toInt32) : callsFromRow c.toInt32 = c := by
  rw [callsFromRow, if_pos (Int32.le_of_lt h)]
  exact UInt32.toUInt32_toInt32 c

/-- A policy that passes its conversions and checks is read as it was written. -/
theorem policy_back (h : bindPolicy p = .ok row) (hc : Checked row) :
    policyFromRow row = .ok p := by
  simp only [bindPolicy, bind_eq_ok, pure_eq_ok] at h
  obtain ⟨total, htotal, perCall, hperCall, threshold, hthreshold, rfl⟩ := h
  have htotal' : toU64 total "max_total" = .ok p.maxTotal :=
    toU64_eq_ok.mpr (toI64_eq_ok.mp htotal).symm
  have hperCall' : toU64 perCall "max_per_call" = .ok p.maxPerCall :=
    toU64_eq_ok.mpr (toI64_eq_ok.mp hperCall).symm
  have hcalls : (p.maxCalls.map UInt32.toInt32).map callsFromRow = p.maxCalls := by
    rcases hm : p.maxCalls with _ | c
    · rfl
    · have hpos : 0 < c.toInt32 := hc.2.2.2 _ (by rw [hm]; rfl)
      rw [Option.map_some, Option.map_some, calls_back hpos]
  rw [policyFromRow, htotal', ok_bind, hperCall', ok_bind, threshold_back hthreshold, ok_bind,
    hcalls]
  rfl

theorem fromStrOrHuman_modeText (mode : AgentMode) : fromStrOrHuman (modeText mode) = mode := by
  cases mode with
  | human => rfl
  | autonomous => rfl

end Conversions

/-! ### What the transaction does -/

section Effects
variable {fails : Call → Bool} {agentId agentId' : Text} {mode : AgentMode} {p : AgentPolicy}
variable {workspace workspace' : Option Text} {s t : Store} {row : PolicyRow} {a : AgentColumns}
variable {id : Varchar 64} {detail : AgentDetail}

theorem upsertPolicy_policyOf (h : s.upsertPolicy agentId row = .ok t) :
    Checked row ∧ t.agents = s.agents ∧ ∀ id : Varchar 64,
      t.policyOf id = if id.text = agentId then some row else s.policyOf id := by
  simp only [Store.upsertPolicy, bind_eq_ok, toVarchar_eq_ok] at h
  obtain ⟨owner, rfl, h⟩ := h
  split_ifs at h with hc ho
  · simp only [pure_eq_ok] at h
    subst h
    refine ⟨hc, rfl, fun id => ?_⟩
    have hkey : ∀ a b : PolicyColumns, sameOwner a b = decide (a.agentId = b.agentId) :=
      fun _ _ => rfl
    have hsame : owner = id ↔ id.text = owner.text :=
      ⟨fun h => h ▸ rfl, fun h => Varchar.ext h.symm⟩
    rw [Store.policyOf, Table.find?_upsert hkey]
    by_cases hid : owner = id
    · rw [if_pos hid, if_pos (hsame.mp hid)]
      rfl
    · rw [if_neg hid, if_neg fun h => hid (hsame.mpr h)]
      rfl

/-- A commit follows an update that selected the agent and an envelope that fits. -/
theorem transaction_eq_some (h : transaction fails agentId mode p workspace s = .ok (some t)) :
    nul ∉ agentId ∧ (∃ a ∈ s.agents.rows, selects agentId workspace a = true) ∧
      ∃ row, bindPolicy p = .ok row ∧ Checked row ∧
        t.agents = (s.updateMode (selects agentId workspace) mode).agents ∧
        ∀ id : Varchar 64,
          t.policyOf id = if id.text = agentId then some row else s.policyOf id := by
  simp only [transaction, attempt, bind_eq_ok, require_eq_ok, mapError_eq_ok, bindText] at h
  obtain ⟨-, -, -, -, -, hnul, h⟩ := h
  split_ifs at h with hany
  · simp only [bind_eq_ok, require_eq_ok, mapError_eq_ok, pure_eq_ok, Option.some.injEq] at h
    obtain ⟨row, hrow, -, -, u, hu, -, -, rfl⟩ := h
    obtain ⟨hc, hagents, hpolicies⟩ := upsertPolicy_policyOf hu
    exact ⟨hnul, List.any_eq_true.mp hany, row, hrow, hc, hagents, hpolicies⟩
  · simp only [bind_eq_ok, pure_eq_ok, reduceCtorEq, and_false, exists_false] at h

theorem selects_updated {sel : AgentColumns → Bool} :
    selects agentId workspace (Table.updated sel (AgentColumns.withMode mode) a) =
      selects agentId workspace a := by
  rw [selects, updated_agentId, updated_workspaceId, selects]

theorem find?_updateMode {sel : AgentColumns → Bool} :
    (s.updateMode sel mode).agents.rows.find? (selects agentId workspace) =
      (s.agents.rows.find? (selects agentId workspace)).map
        (Table.updated sel (AgentColumns.withMode mode)) := by
  have hcomp : selects agentId workspace ∘ Table.updated sel (AgentColumns.withMode mode) =
      selects agentId workspace := funext fun a => selects_updated
  rw [Store.updateMode, List.find?_map, hcomp]

theorem sameColumns_comm (a b : AgentColumns) : sameColumns a b = sameColumns b a := by
  simp [sameColumns, eq_comm]

theorem selects_id (h : selects agentId workspace a = true) : a.agentId.text = agentId := by
  simp only [selects, Bool.and_eq_true, decide_eq_true_eq] at h
  exact h.1

/-- An agent that is selected is the one its id finds. -/
theorem find?_selects (ha : a ∈ s.agents.rows) (hsel : selects agentId workspace a = true)
    (hw : workspace' = none ∨ workspace' = workspace) :
    s.agents.rows.find? (selects agentId workspace') = some a := by
  have hsel' : selects agentId workspace' a = true := by
    rcases hw with rfl | rfl
    · simp [selects, inScope, selects_id hsel]
    · exact hsel
  refine Table.find?_eq_some_of_mem sameColumns_comm ha hsel' fun b hb => ?_
  have hid : b.agentId = a.agentId := Varchar.ext ((selects_id hb).trans (selects_id hsel).symm)
  simp [sameColumns, hid]

theorem joined_other (hne : a.agentId.text ≠ agentId)
    (hpolicies : ∀ id : Varchar 64,
      t.policyOf id = if id.text = agentId then some row else s.policyOf id) :
    t.joined (Table.updated (selects agentId workspace) (AgentColumns.withMode mode) a) =
      s.joined a := by
  have hsel : ¬selects agentId workspace a = true := fun h => hne (selects_id h)
  rw [Table.updated, if_neg hsel, Store.joined, hpolicies, if_neg hne, Store.joined]

/-- The row that was selected is read with the mode and the policy that were set. -/
theorem joined_selected (hsel : selects agentId workspace a = true) (hrow : bindPolicy p = .ok row)
    (hc : Checked row)
    (hpolicies : ∀ id : Varchar 64,
      t.policyOf id = if id.text = agentId then some row else s.policyOf id) :
    ∃ detail, agentDetail (t.joined
        (Table.updated (selects agentId workspace) (AgentColumns.withMode mode) a)) = .ok detail ∧
      detail.agentId = agentId ∧ detail.mode = mode ∧ detail.policy = some p := by
  have hid := selects_id hsel
  have hpolicy : (t.joined (a.withMode mode)).policy = some row := (hpolicies _).trans (if_pos hid)
  have hmode : (t.joined (a.withMode mode)).mode = mode := fromStrOrHuman_modeText mode
  have hagent : (t.joined (a.withMode mode)).agentId = agentId := hid
  rw [Table.updated, if_pos hsel, agentDetail, agentFromRow, hpolicy]
  simp only [policy_back hrow hc, hmode, hagent, ok_bind]
  exact ⟨_, rfl, rfl, rfl, rfl⟩

end Effects

/-! ### All or nothing -/

/-- What `set_policy` answers is what it did. -/
structure Atomic (agentId : Text) (mode : AgentMode) (p : AgentPolicy) (workspace : Option Text)
    (s t : Store) (answer : Except Failure Bool) : Prop where
  stored : answer = .ok true → ∀ w, w = none ∨ w = workspace →
    ∃ detail, getAgent agentId w t = .ok (some detail) ∧
      detail.agentId = agentId ∧ detail.mode = mode ∧ detail.policy = some p
  unchanged : answer ≠ .ok true → t = s
  others : ∀ id w, id ≠ agentId → getAgent id w t = getAgent id w s

/-- Whatever call of the transaction fails, mode and envelope are both those asked for, or
nothing has changed, and the answer says which. A COMMIT that fails is taken to have
rolled back. -/
theorem setPolicy_atomic (fails : Call → Bool) (agentId : Text) (mode : AgentMode)
    (p : AgentPolicy) (workspace : Option Text) (s : Store) :
    Atomic agentId mode p workspace s (setPolicy fails agentId mode p workspace s).1
      (setPolicy fails agentId mode p workspace s).2 := by
  unfold setPolicy
  rcases h : transaction fails agentId mode p workspace s with e | _ | t
  · exact ⟨nofun, fun _ => rfl, fun _ _ _ => rfl⟩
  · exact ⟨nofun, fun _ => rfl, fun _ _ _ => rfl⟩
  · obtain ⟨hnul, ⟨a, ha, hsel⟩, row, hrow, hc, hagents, hpolicies⟩ := transaction_eq_some h
    refine ⟨fun _ w hw => ?_, fun hne => absurd rfl hne, fun id w hne => ?_⟩
    · obtain ⟨detail, hdetail, hd⟩ :=
        @joined_selected agentId mode p workspace s t row a hsel hrow hc hpolicies
      refine ⟨detail, ?_, hd⟩
      have hbind : bindText agentId = .ok ⟨⟩ := require_eq_ok.mpr hnul
      rw [getAgent, hbind, ok_bind, hagents, find?_updateMode, find?_selects ha hsel hw]
      simp only [Option.map_some, hdetail, ok_bind]
      rfl
    · have hread : ∀ a ∈ s.agents.rows.find? (selects id w), a.agentId.text ≠ agentId :=
        fun a ha => by rw [selects_id (List.find?_some ha)]; exact hne
      rw [getAgent, getAgent, hagents, find?_updateMode]
      rcases hf : s.agents.rows.find? (selects id w) with _ | a
      · rfl
      · simp only [Option.map_some, joined_other (hread a hf) hpolicies]

/-! ### The statement on joined rows -/

/-- The rows of the model that has one table for both. -/
def Mirrors (s : Store) (plane : Plane) : Prop := plane.agents.rows = s.agents.rows.map s.joined

section Mirrors
variable {fails : Call → Bool} {agentId : Text} {mode : AgentMode} {p : AgentPolicy}
variable {workspace : Option Text} {s t : Store} {plane : Plane} {row : PolicyRow}

theorem threshold_nonneg {v : Option UInt64} {w : Option Int64} (h : thresholdToRow v = .ok w)
    {t : Int64} (ht : w = some t) : 0 ≤ t := by
  subst ht
  rcases v with _ | v
  · cases h
  · simp only [thresholdToRow, bind_eq_ok, pure_eq_ok, toI64_eq_ok, Option.some.injEq] at h
    obtain ⟨i, hi, rfl⟩ := h
    rw [Int64.le_iff_toInt_le, hi]
    exact Int.natCast_nonneg _

theorem policyToRow_eq : policyToRow p =
    bindPolicy p >>= fun row => require (Checked row) .constraint >>= fun _ => pure row := by
  unfold policyToRow bindPolicy
  rcases toI64 p.maxTotal "max_total" with e | total
  · rfl
  rcases toI64 p.maxPerCall "max_per_call" with e | perCall
  · rfl
  rcases hthreshold : thresholdToRow p.approvalThreshold with e | threshold
  · rfl
  have hnonneg := fun t => @threshold_nonneg _ _ hthreshold t
  have hcalls : (p.maxCalls.map UInt32.toInt32).all (fun c => 0 < c) = true ↔
      ∀ c, p.maxCalls.map UInt32.toInt32 = some c → 0 < c := by
    rcases p.maxCalls with _ | c
    · simp
    · simp
  simp only [ok_bind, pure, Except.pure]
  by_cases hnul : ∀ r ∈ p.allowedResources.getD [], nul ∉ r
  · rw [require_bind_of hnul]
    by_cases hpos : 0 < total ∧ 0 < perCall
    · rw [require_bind_of hpos]
      by_cases hlimit : (p.maxCalls.map UInt32.toInt32).all (fun c => 0 < c) = true
      · rw [require_bind_of hlimit, require_bind_of ⟨hpos, hnonneg, hnul, hcalls.mp hlimit⟩]
      · rw [require_bind_of_not hlimit]
        exact (require_bind_of_not fun hc => hlimit (hcalls.mpr hc.2.2.2)).symm
    · rw [require_bind_of_not hpos]
      exact (require_bind_of_not fun hc => hpos hc.1).symm
  · rw [require_bind_of_not hnul]
    exact (require_bind_of_not fun hc => hnul hc.2.2.1).symm

theorem any_mirrors (h : Mirrors s plane) :
    plane.agents.rows.any (agentInScope agentId workspace) =
      s.agents.rows.any (selects agentId workspace) := by
  rw [h, List.any_map]
  rfl

/-- An upsert for an agent that is there goes through for a row that passes the checks. -/
theorem upsertPolicy_checked (h : ∃ a ∈ s.agents.rows, a.agentId.text = agentId)
    (hc : Checked row) : ∃ t, s.upsertPolicy agentId row = .ok t := by
  obtain ⟨a, ha, rfl⟩ := h
  have hid : toVarchar 64 a.agentId.text = .ok a.agentId := toVarchar_eq_ok.mpr rfl
  have ho : ∃ b ∈ s.agents.rows, b.agentId = a.agentId := ⟨a, ha, rfl⟩
  rw [Store.upsertPolicy, hid, ok_bind, dif_pos hc, dif_pos ho]
  exact ⟨_, rfl⟩

theorem upsertPolicy_unchecked (h : ∃ a ∈ s.agents.rows, a.agentId.text = agentId)
    (hc : ¬Checked row) : s.upsertPolicy agentId row = .error .constraint := by
  obtain ⟨a, ha, rfl⟩ := h
  have hid : toVarchar 64 a.agentId.text = .ok a.agentId := toVarchar_eq_ok.mpr rfl
  rw [Store.upsertPolicy, hid, ok_bind, dif_neg hc]
  rfl

/-- What a commit leaves is what the update of the joined rows leaves. -/
theorem mirrors_commit (h : Mirrors s plane) {a : AgentColumns} (ha : a ∈ s.agents.rows)
    (hsel : selects agentId workspace a = true)
    (hagents : t.agents = (s.updateMode (selects agentId workspace) mode).agents)
    (hpolicies : ∀ id : Varchar 64,
      t.policyOf id = if id.text = agentId then some row else s.policyOf id) :
    plane.agents.rows.map (Table.updated (agentInScope agentId workspace)
      fun a => { a with mode := mode, policy := some row }) = t.agents.rows.map t.joined := by
  rw [h, hagents, Store.updateMode, List.map_map, List.map_map]
  refine List.map_congr_left fun b hb => ?_
  simp only [Function.comp_apply]
  by_cases hid : b.agentId.text = agentId
  · have hkey : b.agentId = a.agentId := Varchar.ext (hid.trans (selects_id hsel).symm)
    obtain rfl : b = a := Table.eq_of_clash sameColumns_comm hb ha (by simp [sameColumns, hkey])
    have hin : agentInScope agentId workspace (s.joined b) = true := hsel
    have hpolicy : t.policyOf b.agentId = some row := (hpolicies _).trans (if_pos hid)
    rw [Table.updated, if_pos hin, Table.updated, if_pos hsel]
    simp only [Store.joined, AgentColumns.withMode, hpolicy, fromStrOrHuman_modeText]
  · have hout : ¬agentInScope agentId workspace (s.joined b) = true := fun h => hid (selects_id h)
    rw [joined_other hid hpolicies, Table.updated, if_neg hout]

theorem policyToRow_eq_ok : policyToRow p = .ok row ↔ bindPolicy p = .ok row ∧ Checked row := by
  rw [policyToRow_eq]
  simp only [bind_eq_ok, require_eq_ok, pure_eq_ok, exists_const]
  constructor
  · rintro ⟨row', hrow, hc, rfl⟩
    exact ⟨hrow, hc⟩
  · rintro ⟨hrow, hc⟩
    exact ⟨row, hrow, hc, rfl⟩

/-- A transaction that ends is the statement on joined rows. -/
theorem setPolicy_refines {b : Bool} (h : Mirrors s plane)
    (hok : (setPolicy fails agentId mode p workspace s).2 = .ok b) :
    ∃ plane', Workspaces.setPolicy agentId mode p workspace plane = .ok (b, plane') ∧
      Mirrors (setPolicy fails agentId mode p workspace s).1 plane' := by
  unfold setPolicy at hok ⊢
  rcases ht : transaction fails agentId mode p workspace s with e | _ | t
  · rw [ht] at hok
    cases hok
  · rw [ht] at hok
    obtain rfl : false = b := Except.ok.inj hok
    simp only [transaction, attempt, bind_eq_ok, require_eq_ok, mapError_eq_ok, bindText] at ht
    obtain ⟨-, -, -, -, -, hnul, ht⟩ := ht
    split_ifs at ht with hany
    · simp only [bind_eq_ok, pure_eq_ok, reduceCtorEq, and_false, exists_false] at ht
    · refine ⟨plane, bind_eq_ok.mpr ⟨⟨⟩, require_eq_ok.mpr hnul, ?_⟩, h⟩
      rw [any_mirrors h, if_neg hany]
      rfl
  · rw [ht] at hok
    obtain rfl : true = b := Except.ok.inj hok
    obtain ⟨hnul, ⟨a, ha, hsel⟩, row, hrow, hc, hagents, hpolicies⟩ := transaction_eq_some ht
    have hany : plane.agents.rows.any (agentInScope agentId workspace) = true := by
      rw [any_mirrors h]
      exact List.any_eq_true.mpr ⟨a, ha, hsel⟩
    obtain ⟨u, hu⟩ := @Table.update_isSome _ sameAgent plane.agents (agentInScope agentId workspace)
      (fun a => { a with mode := mode, policy := some row }) fun a b => by
        unfold Table.updated
        split_ifs
        all_goals rfl
    refine ⟨{ plane with agents := u }, bind_eq_ok.mpr ⟨⟨⟩, require_eq_ok.mpr hnul, ?_⟩, ?_⟩
    · rw [if_pos hany]
      refine bind_eq_ok.mpr ⟨row, policyToRow_eq_ok.mpr ⟨hrow, hc⟩, ?_⟩
      exact updateIn_eq_ok.mpr ⟨u, hu, hany.symm, rfl⟩
    · exact (Table.update_rows hu).trans (mirrors_commit h ha hsel hagents hpolicies)

/-- With every call answered, it is refused for the reason the statement is. -/
theorem setPolicy_refuses {f : Failure} (hclean : ∀ c, fails c = false) (h : Mirrors s plane)
    (herr : (setPolicy fails agentId mode p workspace s).2 = .error f) :
    ∃ e, f = .refused e ∧ Workspaces.setPolicy agentId mode p workspace plane = .error e := by
  have ht : transaction fails agentId mode p workspace s = .error f := by
    unfold setPolicy at herr
    rcases ht : transaction fails agentId mode p workspace s with e | _ | t
    · rw [ht] at herr
      exact congrArg Except.error (Except.error.inj herr)
    · rw [ht] at herr
      cases herr
    · rw [ht] at herr
      cases herr
  simp only [transaction, attempt, hclean, bind_eq_error, require_eq_error, not_true_eq_false,
    false_and, false_or, require_eq_ok, true_and, exists_const, mapError_eq_error,
    mapError_eq_ok] at ht
  rcases ht with ⟨e, he, rfl⟩ | ⟨_, hbind, ht⟩
  · exact ⟨e, rfl, bind_eq_error.mpr (.inl he)⟩
  · split_ifs at ht with hany
    · obtain ⟨a, ha, hsel⟩ := List.any_eq_true.mp hany
      have hpolicy : ∀ e, policyToRow p = .error e →
          Workspaces.setPolicy agentId mode p workspace plane = .error e := fun e he => by
        refine bind_eq_error.mpr (.inr ⟨⟨⟩, hbind, ?_⟩)
        rw [any_mirrors h, if_pos hany]
        exact bind_eq_error.mpr (.inl he)
      simp only [bind_eq_error, require_eq_error, not_true_eq_false, false_and, false_or,
        require_eq_ok, true_and, exists_const, mapError_eq_error, mapError_eq_ok, pure_eq_error,
        and_false, exists_false, or_false] at ht
      rcases ht with ⟨e, he, rfl⟩ | ⟨row, hrow, e, he, rfl⟩
      · exact ⟨e, rfl, hpolicy e (by rw [policyToRow_eq, he]; rfl)⟩
      · have hthere : ∃ b ∈ (s.updateMode (selects agentId workspace) mode).agents.rows,
            b.agentId.text = agentId := by
          refine ⟨_, List.mem_map_of_mem ha, ?_⟩
          rw [updated_agentId, selects_id hsel]
        by_cases hc : Checked row
        · obtain ⟨t, ht⟩ := upsertPolicy_checked hthere hc
          rw [ht] at he
          cases he
        · obtain rfl : DbError.constraint = e :=
            Except.error.inj ((upsertPolicy_unchecked hthere hc).symm.trans he)
          refine ⟨_, rfl, hpolicy _ ?_⟩
          rw [policyToRow_eq, hrow, ok_bind, require_bind_of_not hc]
    · simp only [bind_eq_error, require_eq_error, not_true_eq_false, false_and, pure_eq_error,
        and_false, exists_false, or_self] at ht

end Mirrors

end AgentPay.PolicyTransactions
