import AgentPay.TenantWrites

/-!
# What a minted operator resolves to

`create_operator` takes a label and nothing of its caller, so the new row has the
workspace its column defaults to, and a row without a workspace is the unscoped
legacy admin. No later request changes the workspace of a row. `Minted` follows
the operators created by those who could make requests at the start of a run, and
by the operators these created in turn. At every moment of every run, a minted
operator that authenticates is unscoped; so the minted operators stay in the
workspace of their creators only in the runs that mint none.
-/
namespace AgentPay.OperatorMinting
open SolanaRuntime EscrowState PolicyRules SessionStore ControlPlane Workspaces ControlRequests
open Fallible Handlers KeyedTable Runs

/-- The step is a `create_operator` of this caller that was answered; the answer
names the new id. -/
def Creates (env : Env) (t : Transition Plane (Option Call)) (creator : OperatorRow)
    (id : Varchar 64) : Prop :=
  ∃ (c : Call) (label : Text) (body : Body), t.label = some c ∧ c.request = .createOperator label ∧
    callerRow env c.token t.before = some creator ∧ ((serve env c).run t.before).1 = .ok body ∧
      id = operatorIdOf c.generated.third

/-- An operator that could make requests at the start. -/
def AbleAtStart (start : Plane) (id : Varchar 64) : Prop :=
  ∃ o ∈ start.operators.rows, o.operatorId = id ∧ o.enabled = true

/-- Created by an operator of the start, or through a chain of operators it
created. -/
inductive Minted (env : Env) (start : Plane) : History Plane (Option Call) → Varchar 64 → Prop
  | direct {h : History Plane (Option Call)} {t : Transition Plane (Option Call)}
      {creator : OperatorRow} {id : Varchar 64} : AbleAtStart start creator.operatorId →
      Creates env t creator id → Minted env start (t :: h) id
  | chain {h : History Plane (Option Call)} {t : Transition Plane (Option Call)}
      {creator : OperatorRow} {id : Varchar 64} : Minted env start h creator.operatorId →
      Creates env t creator id → Minted env start (t :: h) id
  | earlier {h : History Plane (Option Call)} {t : Transition Plane (Option Call)}
      {id : Varchar 64} : Minted env start h id → Minted env start (t :: h) id

/-- The request passes the checks of `create_operator`. -/
def Mints (env : Env) (s : Plane) (c : Call) : Prop :=
  ∃ label, c.request = .createOperator label ∧ trim label ≠ [] ∧ (trim label).length ≤ 128 ∧
    nul ∉ trim label ∧ ∀ o ∈ s.operators.rows, o.operatorId ≠ operatorIdOf c.generated.third ∧
      o.tokenHash ≠ env.tokenHash (tokenOf c.generated)

/-- Every row of an operator was there with the same workspace, or has none. -/
def KeepsTenancy (s t : Plane) : Prop :=
  ∀ o' ∈ t.operators.rows, o'.workspaceId = none ∨
    ∃ o ∈ s.operators.rows, o.operatorId = o'.operatorId ∧ o.workspaceId = o'.workspaceId

section Tenancy
variable {s t : Plane}

theorem frame_keepsTenancy : Frame KeepsTenancy where
  refl s o ho := .inr ⟨o, ho, rfl, rfl⟩
  trans := by
    intro s t u h h' o'' ho
    rcases h' o'' ho with hn | ⟨o', ho', hid, hw⟩
    · exact .inl hn
    · rcases h o' ho' with hn | ⟨o, ho, hid', hw'⟩
      · exact .inl (hw.symm.trans hn)
      · exact .inr ⟨o, ho, hid'.trans hid, hw'.trans hw⟩

/-- No write gives a row of an operator another workspace. -/
theorem writes_keepsTenancy (h : Writes s t) : KeepsTenancy s t := by
  cases h with
  | agents | providers | registry => exact frame_keepsTenancy.refl s
  | approvals hok =>
    obtain ⟨u, -, rfl⟩ := decideApproval_cases hok
    exact frame_keepsTenancy.refl s
  | newOperator hnone hu =>
    intro o ho
    rw [(Table.insert_eq_some.mp hu).2, List.mem_append, List.mem_singleton] at ho
    rcases ho with ho | rfl
    · exact .inr ⟨o, ho, rfl, rfl⟩
    · exact .inl hnone
  | operators hid hw hu =>
    intro o' ho'
    obtain ⟨o, ho, rfl⟩ := (Table.mem_update hu).mp ho'
    refine .inr ⟨o, ho, ?_, ?_⟩
    · unfold Table.updated
      split_ifs
      · exact (hid o).symm
      · rfl
    · unfold Table.updated
      split_ifs
      · exact (hw o).symm
      · rfl

theorem step_keepsTenancy {env : Env} {i : Option Call} (h : PlaneStep env s i t) :
    KeepsTenancy s t := by
  cases h with
  | request c => exact keeps_serve frame_keepsTenancy writes_keepsTenancy c s
  | payment _ _ ho _ =>
    intro o hmem
    rw [ho] at hmem
    exact .inr ⟨o, hmem, rfl, rfl⟩

end Tenancy

/-! ### One creation -/
section Creation
variable {env : Env} {s t : Plane} {g : Generated} {label : Text}

/-- The row that is written: no workspace is given. -/
def newRow (env : Env) (g : Generated) (label : Varchar 128) : OperatorRow :=
  ⟨operatorIdOf g.third, label, env.tokenHash (tokenOf g), .operator, none, true, g.now, none⟩

theorem createOperator_eq_ok {body : Body}
    (h : (ControlRequests.createOperator env g label).run s = (.ok body, t)) :
    trim label ≠ [] ∧ ∃ l u, l.text = trim label ∧ s.operators.insert (newRow env g l) = some u ∧
      t = { s with operators := u } := by
  simp only [ControlRequests.createOperator, demand, run_bind_eq_ok, run_lift, Prod.mk.injEq,
    require_eq_ok, run_exec_eq_ok, unavailable_eq_ok, run_pure] at h
  obtain ⟨_, _, ⟨hlabel, rfl⟩, _, u, hu, _, _, ⟨rfl, rfl⟩, -, rfl⟩ := h
  simp only [Workspaces.createOperator, bind_eq_ok, pure_eq_ok, toVarchar_eq_ok] at hu
  obtain ⟨l, hl, hu⟩ := hu
  rcases insertInto_cases hu with ⟨u, hu, -, ht⟩ | ⟨-, hb, -⟩
  · exact ⟨hlabel, l, u, hl, hu, ht⟩
  · cases hb

theorem createOperator_of_insert {u : Table sameOperator}
    (hlabel : trim label ≠ []) (hfits : (trim label).length ≤ 128 ∧ nul ∉ trim label)
    (hu : s.operators.insert (newRow env g ⟨trim label, hfits⟩) = some u) :
    ∃ body, (ControlRequests.createOperator env g label).run s =
      (.ok body, { s with operators := u }) := by
  have hok : Workspaces.createOperator (operatorIdOf g.third) (trim label)
      (env.tokenHash (tokenOf g)) g.now s = .ok (true, { s with operators := u }) := by
    unfold Workspaces.createOperator insertOperator insertInto
    rw [toVarchar_of_fits hfits, ok_bind]
    unfold newRow at hu
    rw [hu]
    rfl
  unfold ControlRequests.createOperator demand
  rw [run_lift_bind_of_ok (a := ⟨⟩) (require_eq_ok.mpr hlabel),
    run_bind_of_ok (run_exec_of_ok (unavailable_eq_ok.mpr hok))]
  exact ⟨_, rfl⟩

/-- The ids and hashes of a table, which authentication leaves alone. -/
theorem fresh_touched {u : Table sameOperator} {id : Varchar 64} {hash : Hash}
    (hu : u.rows.map (fun o => (o.operatorId, o.tokenHash)) =
      s.operators.rows.map (fun o => (o.operatorId, o.tokenHash))) :
    (∀ o ∈ u.rows, o.operatorId ≠ id ∧ o.tokenHash ≠ hash) ↔
      ∀ o ∈ s.operators.rows, o.operatorId ≠ id ∧ o.tokenHash ≠ hash := by
  have hall : ∀ rows : List OperatorRow, (∀ o ∈ rows, o.operatorId ≠ id ∧ o.tokenHash ≠ hash) ↔
      ∀ x ∈ rows.map (fun o => (o.operatorId, o.tokenHash)), x.1 ≠ id ∧ x.2 ≠ hash := by
    intro rows
    simp
  rw [hall, hall, hu]

theorem sameOperator_newRow {o : OperatorRow} {l : Varchar 128} :
    sameOperator o (newRow env g l) = false ↔
      o.operatorId ≠ operatorIdOf g.third ∧ o.tokenHash ≠ env.tokenHash (tokenOf g) := by
  rw [sameOperator, Bool.or_eq_false_iff, decide_eq_false_iff_not, decide_eq_false_iff_not]
  exact Iff.rfl

variable {c : Call} {creator : OperatorRow}

/-- A creation that is answered passed its checks. -/
theorem mints_of_ok {body : Body} (hc : callerRow env c.token s = some creator)
    (hreq : c.request = .createOperator label) (h : ((serve env c).run s).1 = .ok body) :
    Mints env s c := by
  obtain ⟨u, ht, hu⟩ := touch_column (fun o => (o.operatorId, o.tokenHash)) (fun _ _ => rfl)
    creator.operatorId c.generated.touchedAt s
  rw [serve_of_callerRow hc, ht, hreq] at h
  obtain ⟨hlabel, l, u', hl, hu', -⟩ := createOperator_eq_ok (Prod.ext h rfl)
  have hfresh : ∀ o ∈ u.rows, o.operatorId ≠ operatorIdOf c.generated.third ∧
      o.tokenHash ≠ env.tokenHash (tokenOf c.generated) :=
    fun o ho => sameOperator_newRow.mp ((Table.insert_eq_some.mp hu').1 o ho)
  refine ⟨label, hreq, hlabel, ?_, ?_, (fresh_touched hu).mp hfresh⟩
  · rw [← hl]
    exact l.fits.1
  · rw [← hl]
    exact l.fits.2

/-- A creation whose checks pass is answered, and the row it leaves is enabled
and has no workspace. -/
theorem serve_of_mints (hc : callerRow env c.token s = some creator) (hm : Mints env s c) :
    ∃ body row, ((serve env c).run s).1 = .ok body ∧
      row ∈ ((serve env c).run s).2.operators.rows ∧
        row.operatorId = operatorIdOf c.generated.third ∧ row.workspaceId = none ∧
          row.enabled = true := by
  obtain ⟨label, hreq, hlabel, hlen, hnul, hfresh⟩ := hm
  obtain ⟨u, ht, hu⟩ := touch_column (fun o => (o.operatorId, o.tokenHash)) (fun _ _ => rfl)
    creator.operatorId c.generated.touchedAt s
  have hclash : ∀ o ∈ u.rows,
      sameOperator o (newRow env c.generated ⟨trim label, hlen, hnul⟩) = false :=
    fun o ho => sameOperator_newRow.mpr ((fresh_touched hu).mpr hfresh o ho)
  obtain ⟨u', hu'⟩ : ∃ u', u.insert (newRow env c.generated ⟨trim label, hlen, hnul⟩) = some u' := by
    unfold Table.insert
    rw [dif_pos hclash]
    exact ⟨_, rfl⟩
  obtain ⟨body, hrun⟩ := @createOperator_of_insert env { s with operators := u } c.generated label u'
    hlabel ⟨hlen, hnul⟩ hu'
  have hserve : (serve env c).run s = (.ok body, { s with operators := u' }) := by
    rw [serve_of_callerRow hc, ht, hreq]
    exact hrun
  refine ⟨body, newRow env c.generated ⟨trim label, hlen, hnul⟩, ?_, ?_, rfl, rfl, rfl⟩
  · rw [hserve]
  · rw [hserve]
    change _ ∈ u'.rows
    rw [(Table.insert_eq_some.mp hu').2]
    exact List.mem_append_right _ List.mem_cons_self

end Creation

/-! ### Runs -/
section Runs
variable {env : Env} {start s : Plane} {h : History Plane (Option Call)}

theorem Creates.mints {t : Transition Plane (Option Call)} {creator : OperatorRow} {id : Varchar 64}
    (hc : Creates env t creator id) : ∃ c, t.label = some c ∧
      callerRow env c.token t.before = some creator ∧ Mints env t.before c ∧
        id = operatorIdOf c.generated.third := by
  obtain ⟨c, label, body, hl, hreq, hcaller, hok, hid⟩ := hc
  exact ⟨c, hl, hcaller, mints_of_ok hcaller hreq hok, hid⟩

theorem Creates.fresh {t : Transition Plane (Option Call)} {creator : OperatorRow} {id : Varchar 64}
    (hc : Creates env t creator id) : ∀ o ∈ t.before.operators.rows, o.operatorId ≠ id := by
  obtain ⟨c, -, -, ⟨_, -, -, -, -, hfresh⟩, rfl⟩ := hc.mints
  exact fun o ho => (hfresh o ho).1

/-- At the end of every run, a minted operator has no workspace. -/
theorem minted_unscoped (hr : Run (PlaneStep env) start h s) :
    ∀ o ∈ s.operators.rows, Minted env start h o.operatorId → o.workspaceId = none := by
  induction hr with
  | start => exact fun o _ hm => nomatch hm
  | step _ hs ih =>
    intro o' ho' hm
    rcases step_keepsTenancy hs o' ho' with hn | ⟨o, ho, hid, hw⟩
    · exact hn
    · rw [← hid] at hm
      rw [← hw]
      cases hm with
      | direct _ hc => exact absurd rfl (hc.fresh o ho)
      | chain _ hc => exact absurd rfl (hc.fresh o ho)
      | earlier hm => exact ih o ho hm

/-- Where nobody of the start mints, nobody is minted. -/
theorem not_minted (hn : ∀ t ∈ h, ∀ (c : Call) (creator : OperatorRow), t.label = some c →
      callerRow env c.token t.before = some creator → AbleAtStart start creator.operatorId →
        ¬Mints env t.before c) (id : Varchar 64) : ¬Minted env start h id := by
  intro hm
  induction hm with
  | direct ha hc =>
    obtain ⟨c, hl, hcaller, hmints, -⟩ := hc.mints
    exact hn _ List.mem_cons_self c _ hl hcaller ha hmints
  | chain _ _ ih => exact ih fun t ht => hn t (List.mem_cons_of_mem _ ht)
  | earlier _ ih => exact ih fun t ht => hn t (List.mem_cons_of_mem _ ht)

end Runs

/-- At every moment of every run, an operator minted so far that authenticates is
unscoped; so all of them resolve to the workspace `w` just when no operator that
could make requests at the start has a creation that passes its checks. -/
theorem minted_scoped_iff {env : Env} {start s : Plane} {h : History Plane (Option Call)}
    (hr : Run (PlaneStep env) start h s) (w : Text) :
    (∀ t earlier, t :: earlier <:+ h → ∀ hash row, operatorByTokenHash hash t.after = some row →
        Minted env start (t :: earlier) row.operatorId → row.workspaceId = none) ∧
    ((∀ t earlier, t :: earlier <:+ h → ∀ hash row, operatorByTokenHash hash t.after = some row →
        Minted env start (t :: earlier) row.operatorId → row.workspaceId = some w) ↔
      ∀ t ∈ h, ∀ (c : Call) (creator : OperatorRow), t.label = some c →
        callerRow env c.token t.before = some creator → AbleAtStart start creator.operatorId →
          ¬Mints env t.before c) := by
  refine ⟨?_, ?_, ?_⟩
  · rintro t earlier ⟨later, rfl⟩ hash row hrow hm
    obtain ⟨hrun, hs⟩ := hr.split rfl
    exact minted_unscoped (hrun.step hs) row (List.mem_of_find?_eq_some hrow) hm
  · rintro hall ⟨before, label, after⟩ ht c creator rfl hcaller ha hm
    obtain ⟨later, earlier, rfl⟩ := List.append_of_mem ht
    have hs : PlaneStep env before (some c) after := (hr.split rfl).2
    cases hs
    obtain ⟨body, row, hok, hrow, hid, hw, hen⟩ := serve_of_mints hcaller hm
    obtain ⟨label, hreq, -⟩ := hm
    have hauth := operatorByTokenHash_of_mem hrow hen
    have hminted : Minted env start (_ :: earlier) row.operatorId :=
      .direct ha ⟨c, label, body, rfl, hreq, hcaller, hok, hid⟩
    have hws := hall _ earlier ⟨later, rfl⟩ row.tokenHash row hauth hminted
    rw [hw] at hws
    cases hws
  · intro hn t earlier hsuf hash row _ hm
    refine absurd hm (not_minted ?_ _)
    intro x hx
    exact hn x (hsuf.subset hx)

open TenantWrites.Desk

def mint : Call := ⟨some aliceToken, generated 1, .createOperator "Mallory".toList⟩

def minted : Plane := ((serve env mint).run solo).2

def mallory : OperatorRow := newRow env (generated 1) ⟨"Mallory".toList, by decide⟩

theorem mint_run : Run (PlaneStep env) solo [⟨solo, some mint, minted⟩] minted :=
  .step .start (.request solo mint)

theorem mint_passes : Mints env solo mint :=
  ⟨"Mallory".toList, rfl, by decide, by decide, by decide, by decide⟩

theorem minted_scoped_desk :
    ¬∀ t earlier, t :: earlier <:+ [⟨solo, some mint, minted⟩] → ∀ hash row,
      operatorByTokenHash hash t.after = some row → Minted env solo (t :: earlier) row.operatorId →
        row.workspaceId = some acme := by
  intro hall
  refine (minted_scoped_iff mint_run acme).2.mp hall _ List.mem_cons_self mint alice rfl (by decide)
    ?_ mint_passes
  exact ⟨alice, List.mem_cons_self, rfl, rfl⟩

/-- Everybody who can make requests is scoped to Alice's workspace, and the
operator she creates authenticates as the unscoped admin. -/
theorem mallory_is_unscoped :
    (∀ o ∈ solo.operators.rows, o.enabled = true → o.workspaceId = some acme) ∧
      env.adminToken = some rootToken ∧ mint.token ≠ some rootToken ∧
      Run (PlaneStep env) solo [⟨solo, some mint, minted⟩] minted ∧
      Minted env solo [⟨solo, some mint, minted⟩] mallory.operatorId ∧
      operatorByTokenHash (env.tokenHash mintedToken) minted = some mallory ∧
      mallory.workspaceId = none := by
  refine ⟨by decide, rfl, by decide, mint_run, ?_, by decide, rfl⟩
  apply Minted.direct ⟨alice, List.mem_cons_self, rfl, rfl⟩
  exact ⟨mint, "Mallory".toList, _, rfl, rfl, by decide, rfl, rfl⟩

end AgentPay.OperatorMinting
