import AgentPay.EventLogs
import AgentPay.OperatorMinting
import AgentPay.RequestPool

/-!
# Who holds which credential

A control-plane request presents a token, is let in as the operator its digest belongs to,
stamps the row of that operator, runs its handler, and is answered. Requests do this at the
same time, so the token of a request may be replaced, and its operator disabled, after it was
let in. A handler that changes a credential does so with one statement, and this is a move of
its own: between it and the answer the statements of other requests may run, and a statement
may fail or the deadline of the router pass, so a change can be made and not be answered for.
The handlers of the other requests change no credential and are taken as one move each.

What a request did to the credentials is read off that move. The log of these changes is a
`Legal` log in the sense of `EventLogs`, and who can authenticate is decided by it. What was
answered says which changes are in the log, except for a request that failed or was dropped.
-/
namespace AgentPay.OperatorCredentials
open SolanaRuntime EscrowState PolicyRules SessionStore Workspaces ControlRequests
open Handlers KeyedTable Fallible
open EventLogs OperatorMinting Runs RequestPool

/-! ### Interleaved requests -/

inductive Stage where
  | received
  | known (op : Operator)
  | admitted (op : Operator)
  /-- What the handler writes is written. Its answer is on its way, or is still to be read. -/
  | written (op : Operator) (body : Option Body)
  | answered (body : Body)
  | denied (code : ControlDenial)
  /-- The deadline passed, and the answer is a 504 without a code. -/
  | dropped

/-- A request on its way through the gateway. -/
structure Visit where
  call : Call
  stage : Stage

section Moves
variable (env : Env)

/-- `require_admin` up to the lookup of the token. -/
def identify (s : Plane) (c : Call) : Stage :=
  match env.adminToken with
  | none => .admitted loopbackOperator
  | some expected =>
    match c.token with
    | none => .denied .unauthorized
    | some token =>
      if env.tokenHash token = env.tokenHash expected then .admitted sharedOperator else
        match operatorByTokenHash (env.tokenHash token) s with
        | none => .denied .unauthorized
        | some row => .known (operatorOf row)

/-- A handler as far as it writes, with its answer where there is one by then. Of those that
write to the operators only `set_operator_status` still has something to read. -/
def write (op : Operator) (c : Call) : Control (Option Body) :=
  match c.request with
  | .setOperatorStatus id enabled => do
    let done ← exec fun s => unavailable (setOperatorEnabled id enabled s)
    demand (done = true) .operatorNotFound
    pure none
  | request => do
    let body ← handle env op c.generated request
    pure (some body)

/-- The rest of the handler: `set_operator_status` answers with `list_operators`. -/
def finish : Option Body → Control Body
  | some body => pure body
  | none => ControlRequests.listOperators

def conclude {α : Type} (f : α → Stage) : Except ControlDenial α → Stage
  | .ok a => f a
  | .error code => .denied code

def move (s : Plane) (v : Visit) : Plane × Visit :=
  match v.stage with
  | .received => (s, { v with stage := identify env s v.call })
  | .known op =>
    (touch op.operatorId v.call.generated.touchedAt s, { v with stage := .admitted op })
  | .admitted op =>
    let result := (write env op v.call).run s
    (result.2, { v with stage := conclude (.written op) result.1 })
  | .written _ body =>
    let result := (finish body).run s
    (result.2, { v with stage := conclude .answered result.1 })
  | _ => (s, v)

/-- But for `set_operator_status`, writing is the whole of the handler. -/
theorem write_eq {env : Env} {op : Operator} {c : Call}
    (h : ∀ id enabled, c.request ≠ .setOperatorStatus id enabled) :
    write env op c = handle env op c.generated c.request >>= fun body => pure (some body) := by
  unfold write
  split
  · rename_i id enabled hreq
    exact absurd hreq (h id enabled)
  · rfl

/-- Without a move of another request in between, the two parts are the handler. -/
theorem run_handle (env : Env) (op : Operator) (c : Call) (s : Plane) :
    (handle env op c.generated c.request).run s = (write env op c >>= finish).run s := by
  by_cases hstatus : ∃ id enabled, c.request = .setOperatorStatus id enabled
  · obtain ⟨id, enabled, hreq⟩ := hstatus
    simp only [write, hreq, handle, setOperatorStatus]
    rcases hw : unavailable (setOperatorEnabled id enabled s) with e | ⟨done, t⟩
    · have hexec := run_exec_of_error (u := fun s => unavailable (setOperatorEnabled id enabled s)) hw
      rw [run_bind_of_error hexec, run_bind_of_error (run_bind_of_error hexec)]
    · have hexec := run_exec_of_ok (u := fun s => unavailable (setOperatorEnabled id enabled s)) hw
      have hwritten := run_bind_of_ok (f := fun done => (do
        demand (done = true) ControlDenial.operatorNotFound
        pure none : Control (Option Body))) hexec
      rw [run_bind_of_ok hexec]
      cases done with
      | false =>
        rw [run_bind_of_error hwritten]
        rfl
      | true =>
        rw [run_bind_of_ok hwritten]
        rfl
  · rw [write_eq fun id enabled hreq => hstatus ⟨id, enabled, hreq⟩]
    rcases h : (handle env op c.generated c.request).run s with ⟨e | body, t⟩
    · rw [run_bind_of_error (run_bind_of_error h)]
    · rw [run_bind_of_ok (run_bind_of_ok h)]
      rfl

/-- The statement is made, or the request even answered with a body. -/
def Stage.acted : Stage → Bool
  | .written _ _ => true
  | .answered _ => true
  | _ => false

theorem acted_identify (env : Env) (s : Plane) (c : Call) :
    (identify env s c).acted = false := by
  unfold identify
  split
  · rfl
  · split
    · rfl
    · split_ifs
      · rfl
      · split <;> rfl

theorem run_finish (rest : Option Body) (s : Plane) :
    ∃ body, (finish rest).run s = (.ok body, s) := by
  cases rest with
  | none => exact ⟨_, rfl⟩
  | some body => exact ⟨body, rfl⟩

end Moves

/-- What a handler answers when a statement of it fails. -/
def failureCode : Request → ControlDenial
  | .listSessions => .storeUnavailable
  | .recentDecisions => .evidenceUnavailable
  | _ => .controlPlaneUnavailable

/-- A lookup that fails refuses the token, and a stamp that fails is passed over. -/
def Stage.failed (request : Request) : Stage → Stage
  | .received => .denied .unauthorized
  | .known op => .admitted op
  | .admitted _ => .denied (failureCode request)
  | .written _ _ => .denied .controlPlaneUnavailable
  | stage => stage

/-- The deadline of the router is fifteen seconds. How long a move takes is not modelled, so it
may pass at any of them; a request that has its answer keeps it. -/
def Stage.cut : Stage → Stage
  | .answered body => .answered body
  | .denied code => .denied code
  | _ => .dropped

/-- A statement may fail, and the deadline may drop a request wherever it stands. A statement
that was made and whose reply is lost is a move of the handler with such a move after it. -/
inductive Move (env : Env) : Plane → Visit → Plane → Visit → Prop
  | handler {s : Plane} {v : Visit} : Move env s v (move env s v).1 (move env s v).2
  | failed {s : Plane} {v : Visit} :
      Move env s v s { v with stage := v.stage.failed v.call.request }
  | cut {s : Plane} {v : Visit} : Move env s v s { v with stage := v.stage.cut }

def Arrives (v : Visit) : Prop := v.stage = .received

/-- What the payment path and the database do beside these requests. They may change every other
table, but the operators are written by the control plane alone. -/
def Outside (s t : Plane) (u : Plane) : Prop := t = u ∧ t.operators = s.operators

abbrev Front := Pool Plane Visit
abbrev FrontLabel := RequestPool.Label Visit Plane

def FrontStep (env : Env) : Front → FrontLabel → Front → Prop :=
  Step Arrives (Move env) Outside

/-! ### Credentials and their changes -/

structure Credential where
  tokenHash : Hash
  enabled : Bool
deriving DecidableEq

abbrev Credentials := Varchar 64 → Option Credential

def credentialOf (o : OperatorRow) : Credential := ⟨o.tokenHash, o.enabled⟩

def holder (s : Plane) (id : Varchar 64) : Option OperatorRow :=
  s.operators.rows.find? fun o => o.operatorId = id

def credentials (s : Plane) : Credentials := fun id => (holder s id).map credentialOf

inductive Change where
  | issued (id : Varchar 64) (hash : Hash)
  | rotated (id : Varchar 64) (hash : Hash)
  | switched (id : Text) (enabled : Bool)
deriving DecidableEq

def Change.hash? : Change → Option Hash
  | .issued _ hash => some hash
  | .rotated _ hash => some hash
  | .switched _ _ => none

def note : Change → Credentials → Credentials
  | .issued id hash, b => fun k => if k = id then some ⟨hash, true⟩ else b k
  | .rotated id hash, b =>
    fun k => if k = id then (b k).map fun c => { c with tokenHash := hash } else b k
  | .switched id enabled, b =>
    fun k => if k.text = id then (b k).map fun c => { c with enabled := enabled } else b k

/-- No operator but `id` has this digest. -/
def Unused (b : Credentials) (id : Varchar 64) (hash : Hash) : Prop :=
  ∀ k c, k ≠ id → b k = some c → c.tokenHash ≠ hash

/-- Only a new id is issued, and only an enabled credential is replaced. -/
def Admits (b : Credentials) : Change → Prop
  | .issued id hash => b id = none ∧ Unused b id hash
  | .rotated id hash => (∃ old, b id = some ⟨old, true⟩) ∧ Unused b id hash
  | .switched id _ => ∃ k, k.text = id ∧ (b k).isSome = true

section Changes
variable (env : Env)

/-- The change a request asks for, let in as this operator. -/
def changeOf (op : Operator) (c : Call) : Option Change :=
  match c.request with
  | .createOperator _ =>
    some (.issued (operatorIdOf c.generated.third) (env.tokenHash (tokenOf c.generated)))
  | .rotateOwnToken => some (.rotated op.operatorId (env.tokenHash (tokenOf c.generated)))
  | .setOperatorStatus id enabled => some (.switched id enabled)
  | _ => none

def changeBetween (v v' : Visit) : Option Change :=
  match v.stage, v'.stage with
  | .admitted op, .written _ _ => changeOf env op v.call
  | _, _ => none

/-- The change of a step, which a handler makes with the one statement it writes with. -/
def changed (t : Transition Front FrontLabel) : Option Change :=
  match t.label with
  | .advance n =>
    match t.before.requests[n]?, t.after.requests[n]? with
    | some v, some v' => changeBetween env v v'
    | _, _ => none
  | _ => none

end Changes

/-! ### What a request writes to the operators -/
section Writes
variable {env : Env} {op : Operator} {g : Generated} {s t : Plane} {u : Table sameOperator}
variable {id : Varchar 64}

theorem holder_eq_some {o : OperatorRow} :
    holder s id = some o ↔ o ∈ s.operators.rows ∧ o.operatorId = id := by
  constructor
  · intro h
    exact ⟨List.mem_of_find?_eq_some h, by simpa using List.find?_some h⟩
  · rintro ⟨ho, rfl⟩
    refine Table.find?_eq_some_of_mem sameOperator_comm ho (by simp) fun b hb => ?_
    simp [sameOperator, of_decide_eq_true hb]

theorem credentials_eq_some {c : Credential} :
    credentials s id = some c ↔ ∃ o ∈ s.operators.rows, o.operatorId = id ∧ credentialOf o = c := by
  unfold credentials
  rw [Option.map_eq_some_iff]
  simp only [holder_eq_some, and_assoc]

theorem credentials_congr (h : t.operators = s.operators) : credentials t = credentials s := by
  unfold credentials holder
  rw [h]

theorem credentials_update {p : OperatorRow → Bool} {f : OperatorRow → OperatorRow}
    (hu : s.operators.update p f = some u) (hid : ∀ o, (f o).operatorId = o.operatorId) :
    credentials { s with operators := u } id =
      (holder s id).map fun o => credentialOf (Table.updated p f o) := by
  have hkey : ∀ o, (Table.updated p f o).operatorId = o.operatorId := by
    intro o
    unfold Table.updated
    split_ifs
    · exact hid o
    · rfl
  unfold credentials holder
  rw [Table.update_rows hu, List.find?_map, Option.map_map]
  congr 2
  funext o
  simp only [Function.comp_apply, hkey]

/-- Where an update does not select the row, the credential stays. -/
theorem credentials_kept {p : OperatorRow → Bool} {f : OperatorRow → OperatorRow}
    (hu : s.operators.update p f = some u) (hid : ∀ o, (f o).operatorId = o.operatorId)
    (hp : ∀ o ∈ s.operators.rows, o.operatorId = id → p o = false) :
    credentials { s with operators := u } id = credentials s id := by
  rw [credentials_update hu hid]
  refine Option.map_congr fun o ho => ?_
  obtain ⟨hmem, hkey⟩ := holder_eq_some.mp ho
  simp [Table.updated, hp o hmem hkey]

/-- Where it does, the credential is that of the new row. -/
theorem credentials_moved {p : OperatorRow → Bool} {f : OperatorRow → OperatorRow}
    (hu : s.operators.update p f = some u) (hid : ∀ o, (f o).operatorId = o.operatorId)
    (hp : ∀ o ∈ s.operators.rows, o.operatorId = id → p o = true) :
    credentials { s with operators := u } id =
      (holder s id).map fun o => credentialOf (f o) := by
  rw [credentials_update hu hid]
  refine Option.map_congr fun o ho => ?_
  obtain ⟨hmem, hkey⟩ := holder_eq_some.mp ho
  simp [Table.updated, hp o hmem hkey]

theorem credentials_insert {o : OperatorRow} (hu : s.operators.insert o = some u) :
    credentials { s with operators := u } = fun k =>
      if k = o.operatorId then some (credentialOf o) else credentials s k := by
  funext k
  obtain ⟨hclash, hrows⟩ := Table.insert_eq_some.mp hu
  unfold credentials holder
  rw [hrows, List.find?_append]
  split_ifs with hk
  · subst hk
    have hnone : s.operators.rows.find? (fun a => a.operatorId = o.operatorId) = none := by
      refine List.find?_eq_none.mpr fun a ha hid => ?_
      have hc := hclash a ha
      simp [sameOperator, of_decide_eq_true hid] at hc
    simp [hnone]
  · have hne : ¬o.operatorId = k := fun h => hk h.symm
    simp [hne]

theorem credentials_touch (operatorId : Varchar 64) (now : Timestamp) :
    credentials (touch operatorId now s) = credentials s := by
  obtain ⟨u, hu, hok⟩ := @touchOperator_isOk s operatorId now
  unfold touch
  rw [hok]
  funext id
  rw [credentials_update hu fun _ => rfl]
  unfold credentials
  congr 1
  funext o
  unfold Table.updated
  split_ifs <;> rfl

/-- A denied handler leaves the credentials, and one that goes through makes its change, which
was admissible. -/
def Accounted {α : Type} (env : Env) (op : Operator) (c : Call) (s t : Plane) :
    Except ControlDenial α → Prop
  | .ok _ => credentials t = noteStep note (credentials s) (changeOf env op c) ∧
      ∀ e, changeOf env op c = some e → Admits (credentials s) e
  | .error _ => credentials t = credentials s

/-- What a denied handler with one statement may have left behind. -/
theorem denied_statement {α : Type} {w : Plane → Except DbError (Bool × Plane)}
    {code e : ControlDenial} {y : Control α} (hy : ∀ t, ∃ body, y.run t = (.ok body, t))
    (h : (do
      let done ← exec fun s => unavailable (w s)
      demand (done = true) code
      y).run s = (.error e, t)) : t = s ∨ w s = .ok (false, t) := by
  rcases hw : w s with e' | ⟨done, u⟩
  · left
    have hstate := after_failed_statement
      (f := fun done => (demand (done = true) code : Control PUnit) >>= fun _ => y) hw
    rw [h] at hstate
    exact hstate
  · have hexec : (exec fun s => unavailable (w s) : Control Bool).run s = (.ok done, u) :=
      run_exec_of_ok (unavailable_eq_ok.mpr hw)
    rw [run_bind_of_ok hexec] at h
    cases done with
    | false =>
      have hdenied : (require (false = true) code : Except ControlDenial PUnit) = .error code :=
        require_eq_error.mpr ⟨by simp, rfl⟩
      rw [demand, run_lift_bind_of_error hdenied] at h
      cases h
      exact .inr rfl
    | true =>
      obtain ⟨body, hbody⟩ := hy u
      rw [demand, run_lift_bind_of_ok (a := ⟨⟩) (require_eq_ok.mpr rfl), hbody] at h
      cases h

theorem denied_demand {c : Prop} [Decidable c] {code e : ControlDenial} {y : Control Body}
    (h : (do demand c code; y).run s = (.error e, t)) :
    t = s ∨ y.run s = (.error e, t) := by
  by_cases hc : c
  · rw [demand, run_lift_bind_of_ok (a := ⟨⟩) (require_eq_ok.mpr hc)] at h
    exact .inr h
  · rw [demand, run_lift_bind_of_error (require_eq_error.mpr ⟨hc, rfl⟩)] at h
    cases h
    exact .inl rfl

theorem credentials_of_none {p : OperatorRow → Bool} {f : OperatorRow → OperatorRow}
    (h : updateOperators p f s = .ok (false, t)) (hid : ∀ o, (f o).operatorId = o.operatorId) :
    credentials t = credentials s := by
  obtain ⟨u, hu, hany, rfl⟩ := updateIn_eq_ok.mp h
  funext id
  refine credentials_kept hu hid fun o ho _ => ?_
  simpa using List.any_eq_false.mp hany.symm o ho

theorem accounted_createOperator {c : Call} {label : Text}
    (hreq : c.request = .createOperator label) :
    Accounted env op c s ((ControlRequests.createOperator env c.generated label).run s).2
      ((ControlRequests.createOperator env c.generated label).run s).1 := by
  rcases h : (ControlRequests.createOperator env c.generated label).run s with ⟨e | body, t⟩
  · change credentials t = credentials s
    rcases denied_demand h with rfl | h
    · rfl
    · rcases denied_statement (fun t => ⟨_, rfl⟩) h with rfl | hw
      · rfl
      · simp only [Workspaces.createOperator, bind_eq_ok, pure_eq_ok] at hw
        obtain ⟨_, -, hw⟩ := hw
        rcases insertInto_cases hw with ⟨_, -, hb, -⟩ | ⟨-, -, rfl⟩
        · cases hb
        · rfl
  · obtain ⟨-, l, u, -, hu, rfl⟩ := createOperator_eq_ok h
    have hchange : changeOf env op c = some (.issued (operatorIdOf c.generated.third)
        (env.tokenHash (tokenOf c.generated))) := by
      rw [changeOf, hreq]
    refine ⟨?_, ?_⟩
    · rw [hchange]
      exact credentials_insert hu
    · intro e he
      rw [hchange] at he
      cases he
      have hfree := (Table.insert_eq_some.mp hu).1
      refine ⟨?_, ?_⟩
      · by_contra hsome
        obtain ⟨cred, hcred⟩ := Option.ne_none_iff_exists'.mp hsome
        obtain ⟨o, ho, hid, -⟩ := credentials_eq_some.mp hcred
        exact (sameOperator_newRow.mp (hfree o ho)).1 hid
      · intro k cred _ hcred
        obtain ⟨o, ho, -, rfl⟩ := credentials_eq_some.mp hcred
        exact (sameOperator_newRow.mp (hfree o ho)).2

theorem accounted_rotateOwnToken {c : Call} (hreq : c.request = .rotateOwnToken) :
    Accounted env op c s ((rotateOwnToken env op c.generated).run s).2
      ((rotateOwnToken env op c.generated).run s).1 := by
  rcases h : (rotateOwnToken env op c.generated).run s with ⟨e | body, t⟩
  · change credentials t = credentials s
    rcases denied_demand h with rfl | h
    · rfl
    · rcases denied_statement (fun t => ⟨_, rfl⟩) h with rfl | hw
      · rfl
      · unfold rotateOperatorToken at hw
        exact credentials_of_none hw fun _ => rfl
  · simp only [rotateOwnToken, demand, run_bind_eq_ok, run_lift, Prod.mk.injEq, require_eq_ok,
      run_exec_eq_ok, unavailable_eq_ok, run_pure] at h
    obtain ⟨_, _, ⟨-, rfl⟩, _, t, hw, _, _, ⟨rfl, rfl⟩, -, rfl⟩ := h
    unfold rotateOperatorToken at hw
    obtain ⟨u, hu, hany, rfl⟩ := updateIn_eq_ok.mp hw
    obtain ⟨o, ho, hp⟩ := List.any_eq_true.mp hany.symm
    obtain ⟨hid, hen⟩ : o.operatorId = op.operatorId ∧ o.enabled = true := by simpa using hp
    have hchange : changeOf env op c =
        some (.rotated op.operatorId (env.tokenHash (tokenOf c.generated))) := by
      rw [changeOf, hreq]
    have hholder : holder s op.operatorId = some o := holder_eq_some.mpr ⟨ho, hid⟩
    refine ⟨?_, ?_⟩
    · rw [hchange]
      funext k
      simp only [noteStep, note]
      split_ifs with hk
      · subst hk
        have hselects : ∀ o' ∈ s.operators.rows, o'.operatorId = op.operatorId →
            (decide (o'.operatorId = op.operatorId) && o'.enabled) = true := by
          intro o' ho' hid'
          obtain rfl := Option.some.inj ((holder_eq_some.mpr ⟨ho', hid'⟩).symm.trans hholder)
          exact hp
        rw [credentials_moved hu (fun _ => rfl) hselects, credentials, Option.map_map]
        rfl
      · refine credentials_kept hu (fun _ => rfl) fun o' _ hid' => ?_
        simp [hid', hk]
    · intro e he
      rw [hchange] at he
      cases he
      refine ⟨⟨o.tokenHash, ?_⟩, ?_⟩
      · exact credentials_eq_some.mpr ⟨o, ho, hid, by rw [credentialOf, hen]⟩
      · intro k cred hk hcred
        obtain ⟨o', ho', rfl, rfl⟩ := credentials_eq_some.mp hcred
        have hnew := (Table.mem_update hu).mpr ⟨o, ho, rfl⟩
        have hold := Table.mem_update_of_not hu ho' (by simp [hk])
        intro hsame
        rw [Table.updated, if_pos hp] at hnew
        have hclash := Table.eq_of_clash sameOperator_comm hold hnew (by
          have : o'.tokenHash = env.tokenHash (tokenOf c.generated) := hsame
          simp [sameOperator, this])
        exact hk (by rw [hclash]; exact hid)

theorem accounted_setOperatorStatus {c : Call} {id : Text} {enabled : Bool}
    (hreq : c.request = .setOperatorStatus id enabled) :
    Accounted env op c s ((write env op c).run s).2 ((write env op c).run s).1 := by
  simp only [write, hreq]
  generalize hx : (do
    let done ← exec fun s => unavailable (setOperatorEnabled id enabled s)
    demand (done = true) ControlDenial.operatorNotFound
    pure none : Control (Option Body)) = x
  rcases h : x.run s with ⟨e | body, t⟩
  · change credentials t = credentials s
    rw [← hx] at h
    rcases denied_statement (fun t => ⟨_, rfl⟩) h with rfl | hw
    · rfl
    · simp only [setOperatorEnabled, bind_eq_ok] at hw
      obtain ⟨_, -, hw⟩ := hw
      exact credentials_of_none hw fun _ => rfl
  · simp only [← hx, demand, run_bind_eq_ok, run_lift, run_pure, Prod.mk.injEq, require_eq_ok,
      run_exec_eq_ok, unavailable_eq_ok] at h
    obtain ⟨_, t, hw, _, _, ⟨rfl, rfl⟩, -, rfl⟩ := h
    simp only [setOperatorEnabled, bind_eq_ok] at hw
    obtain ⟨_, -, hw⟩ := hw
    obtain ⟨u, hu, hany, rfl⟩ := updateIn_eq_ok.mp hw
    have hchange : changeOf env op c = some (.switched id enabled) := by
      rw [changeOf, hreq]
    refine ⟨?_, ?_⟩
    · rw [hchange]
      funext k
      simp only [noteStep, note]
      split_ifs with hk
      · rw [credentials_moved hu (fun _ => rfl) fun o _ hid => by simp [hid, hk], credentials,
          Option.map_map]
        rfl
      · exact credentials_kept hu (fun _ => rfl) fun o _ hid => by simp [hid, hk]
    · intro e he
      rw [hchange] at he
      cases he
      obtain ⟨o, ho, hp⟩ := List.any_eq_true.mp hany.symm
      refine ⟨o.operatorId, of_decide_eq_true hp, ?_⟩
      rw [credentials_eq_some.mpr ⟨o, ho, rfl, rfl⟩]
      rfl

theorem accounted_of_keeps {c : Call} {x : Control Body} (hchange : changeOf env op c = none)
    (hx : Keeps (fun s t : Plane => t.operators = s.operators) x) :
    Accounted env op c s (x.run s).2 (x.run s).1 := by
  have hsame := credentials_congr (hx s)
  rcases (x.run s).1 with e | body
  · exact hsame
  · rw [Accounted, hchange]
    exact ⟨hsame, nofun⟩

theorem accounted_some {c : Call} {x : Control Body}
    (hx : Accounted env op c s (x.run s).2 (x.run s).1) :
    Accounted env op c s ((x >>= fun body => pure (some body)).run s).2
      ((x >>= fun body => pure (some body)).run s).1 := by
  rcases h : x.run s with ⟨e | body, t⟩
  · rw [h] at hx
    rw [run_bind_of_error h]
    exact hx
  · rw [h] at hx
    rw [run_bind_of_ok h]
    exact hx

/-- Whatever a request writes, its change accounts for what happens to the credentials. -/
theorem accounted_write (c : Call) :
    Accounted env op c s ((write env op c).run s).2 ((write env op c).run s).1 := by
  have hR : Frame fun s t : Plane => t.operators = s.operators :=
    ⟨fun _ => rfl, fun h h' => h'.trans h⟩
  by_cases hstatus : ∃ id enabled, c.request = .setOperatorStatus id enabled
  · obtain ⟨id, enabled, hreq⟩ := hstatus
    exact accounted_setOperatorStatus hreq
  rw [write_eq fun id enabled hreq => hstatus ⟨id, enabled, hreq⟩]
  apply accounted_some
  cases hreq : c.request with
  | createOperator label => exact accounted_createOperator hreq
  | rotateOwnToken => exact accounted_rotateOwnToken hreq
  | setOperatorStatus id enabled => exact absurd ⟨id, enabled, hreq⟩ hstatus
  | listSessions =>
    exact accounted_of_keeps (by rw [changeOf, hreq]) ((reads_listSessions c.generated).keeps hR)
  | recentDecisions =>
    exact accounted_of_keeps (by rw [changeOf, hreq]) ((reads_recentDecisions c.generated).keeps hR)
  | listAgents => exact accounted_of_keeps (by rw [changeOf, hreq]) (reads_listAgents.keeps hR)
  | createAgent req =>
    refine accounted_of_keeps (by rw [changeOf, hreq])
      (keeps_createAgent hR fun s b t _ _ _ _ _ hc => ?_)
    rcases createAgent_cases hc with ⟨_, u, -, -, -, rfl⟩ | ⟨-, rfl⟩ <;> rfl
  | getAgent agentId =>
    exact accounted_of_keeps (by rw [changeOf, hreq]) ((reads_getAgent agentId).keeps hR)
  | authorizeAgent agentId req =>
    refine accounted_of_keeps (by rw [changeOf, hreq])
      (keeps_authorizeAgent hR fun s b t _ _ hc => ?_)
    rcases setPolicy_cases hc with ⟨_, u, -, -, rfl⟩ | ⟨-, rfl⟩ <;> rfl
  | setAgentStatus agentId status =>
    refine accounted_of_keeps (by rw [changeOf, hreq]) (keeps_setAgentStatus hR fun s b t hc => ?_)
    obtain ⟨u, -, rfl⟩ := setAgentStatus_cases hc
    rfl
  | listProviders =>
    exact accounted_of_keeps (by rw [changeOf, hreq]) ((reads_listProviders env).keeps hR)
  | registerProvider req =>
    refine accounted_of_keeps (by rw [changeOf, hreq])
      (keeps_registerProvider hR (fun s x t _ hc => ?_) fun s _ => rfl)
    obtain ⟨_, u, -, rfl, -⟩ := upsertProvider_cases hc
    rfl
  | deleteProvider providerId =>
    refine accounted_of_keeps (by rw [changeOf, hreq])
      (keeps_deleteProvider hR (fun s b t hc => ?_) fun s => rfl)
    simp only [Workspaces.deleteProvider, bind_eq_ok, pure_eq_ok, Prod.mk.injEq] at hc
    obtain ⟨_, -, -, rfl⟩ := hc
    rfl
  | listOperators => exact accounted_of_keeps (by rw [changeOf, hreq]) ((reads_query _).keeps hR)
  | listApprovals =>
    exact accounted_of_keeps (by rw [changeOf, hreq]) (reads_listApprovals.keeps hR)
  | decideApproval approvalId approved reason =>
    refine accounted_of_keeps (by rw [changeOf, hreq]) (keeps_decideApproval hR fun s b t hc => ?_)
    obtain ⟨u, -, rfl⟩ := decideApproval_cases hc
    rfl

end Writes

/-! ### Runs -/
section Runs
variable {env : Env} {g g' : Front} {l : FrontLabel}

theorem move_accounted {s s' : Plane} {v v' : Visit} (h : Move env s v s' v') :
    credentials s' = noteStep note (credentials s) (changeBetween env v v') ∧
      ∀ e, changeBetween env v v' = some e → Admits (credentials s) e := by
  rcases v with ⟨c, stage⟩
  cases h with
  | handler =>
    cases stage with
    | received => exact ⟨rfl, nofun⟩
    | known op => exact ⟨credentials_touch _ _, nofun⟩
    | admitted op =>
      have ha := @accounted_write env op s c
      rcases hrun : (write env op c).run s with ⟨e | body, t⟩
      · rw [hrun] at ha
        simp only [move, hrun, conclude, changeBetween]
        exact ⟨ha, nofun⟩
      · rw [hrun] at ha
        simp only [move, hrun, conclude, changeBetween]
        exact ha
    | written op rest =>
      obtain ⟨body, hrun⟩ := run_finish rest s
      simp only [move, hrun, conclude, changeBetween]
      exact ⟨rfl, nofun⟩
    | answered body => exact ⟨rfl, nofun⟩
    | denied code => exact ⟨rfl, nofun⟩
    | dropped => exact ⟨rfl, nofun⟩
  | failed =>
    have hnone : changeBetween env ⟨c, stage⟩ ⟨c, stage.failed c.request⟩ = none := by
      cases stage <;> rfl
    rw [hnone]
    exact ⟨rfl, nofun⟩
  | cut =>
    have hnone : changeBetween env ⟨c, stage⟩ ⟨c, stage.cut⟩ = none := by
      cases stage <;> rfl
    rw [hnone]
    exact ⟨rfl, nofun⟩

/-- Every step makes the change that is read off it, which was admissible. -/
theorem step_accounted (h : FrontStep env g l g') :
    credentials g'.shared = noteStep note (credentials g.shared) (changed env ⟨g, l, g'⟩) ∧
      ∀ e, changed env ⟨g, l, g'⟩ = some e → Admits (credentials g.shared) e := by
  cases h with
  | arrive _ => exact ⟨rfl, nofun⟩
  | outside ho =>
    obtain ⟨rfl, ho⟩ := ho
    exact ⟨credentials_congr ho, nofun⟩
  | @advance s s' rs v v' n hv hm =>
    have hlen := (List.getElem?_eq_some_iff.mp hv).1
    have hafter : (rs.set n v')[n]? = some v' := by simp [hlen]
    have hchanged :
        changed env ⟨⟨s, rs⟩, .advance n, ⟨s', rs.set n v'⟩⟩ = changeBetween env v v' := by
      simp only [changed, hv, hafter]
    rw [hchanged]
    exact move_accounted hm

/-- A digest resolves to an operator just when it is its enabled credential. -/
theorem resolves_iff {s : Plane} {hash : Hash} {id : Varchar 64} :
    (∃ row, operatorByTokenHash hash s = some row ∧ row.operatorId = id) ↔
      credentials s id = some ⟨hash, true⟩ := by
  rw [credentials_eq_some]
  constructor
  · rintro ⟨row, hrow, rfl⟩
    have hp := List.find?_some hrow
    simp only [Bool.and_eq_true, decide_eq_true_eq] at hp
    exact ⟨row, List.mem_of_find?_eq_some hrow, rfl, by rw [credentialOf, hp.1, hp.2]⟩
  · rintro ⟨row, hrow, hid, hcred⟩
    obtain ⟨rfl, hen⟩ := Credential.mk.inj hcred
    exact ⟨row, operatorByTokenHash_of_mem hrow hen, hid⟩

theorem accounted_replay {g₀ : Front} {h : History Front FrontLabel}
    (hr : Run (FrontStep env) g₀ h g) :
    Legal Admits note (credentials g₀.shared) (entries (changed env) h) ∧
      replay note (credentials g₀.shared) (entries (changed env) h) = credentials g.shared := by
  let view : Front → Credentials := fun g => credentials g.shared
  have hI : ∀ s i t, True → FrontStep env s i t → True := fun _ _ _ _ _ => trivial
  have hview : ∀ s i t, True → FrontStep env s i t →
      view t = noteStep note (view s) (changed env ⟨s, i, t⟩) :=
    fun s i t _ hs => (step_accounted hs).1
  have hadmits : ∀ s i t e, True → FrontStep env s i t → changed env ⟨s, i, t⟩ = some e →
      Admits (view s) e := fun s i t e _ hs he => (step_accounted hs).2 e he
  exact ⟨legal_run hI hview hadmits hr trivial, replay_run hI hview hr trivial⟩

end Runs

/-! ### In whose name a request is handled -/

/-- The step lets the request in by its own token, as the operator of this row. -/
structure LetIn (env : Env) (t : Transition Front FrontLabel) (n : ℕ) (c : Call) (token : Text)
    (row : OperatorRow) : Prop where
  label : t.label = .advance n
  before : t.before.requests[n]? = some ⟨c, .received⟩
  after : t.after.requests[n]? = some ⟨c, .known (operatorOf row)⟩
  presented : c.token = some token
  found : operatorByTokenHash (env.tokenHash token) t.before.shared = some row

/-- The request was let in as this operator: where no token is configured, by the shared
token, or by a token whose digest was then the credential of the operator, who was enabled. -/
inductive Entitled (env : Env) (h : History Front FrontLabel) (n : ℕ) (c : Call) : Operator → Prop
  | loopback : env.adminToken = none → Entitled env h n c loopbackOperator
  | shared {expected token : Text} : env.adminToken = some expected → c.token = some token →
      env.tokenHash token = env.tokenHash expected → Entitled env h n c sharedOperator
  | holder {t : Transition Front FrontLabel} {token : Text} {row : OperatorRow} : t ∈ h →
      LetIn env t n c token row → Entitled env h n c (operatorOf row)

def Stage.operator? : Stage → Option Operator
  | .known op => some op
  | .admitted op => some op
  | .written op _ => some op
  | _ => none

section Entitlement
variable {env : Env} {g : Front} {h : History Front FrontLabel} {t : Transition Front FrontLabel}
variable {n : ℕ} {c : Call} {op : Operator}

theorem Entitled.later (he : Entitled env h n c op) (t : Transition Front FrontLabel) :
    Entitled env (t :: h) n c op := by
  cases he with
  | loopback ha => exact .loopback ha
  | shared ha htok hsame => exact .shared ha htok hsame
  | holder ht hin => exact .holder (List.mem_cons_of_mem _ ht) hin

theorem entitled_identify (hl : t.label = .advance n)
    (hbefore : t.before.requests[n]? = some ⟨c, .received⟩)
    (hafter : t.after.requests[n]? = some ⟨c, identify env t.before.shared c⟩)
    (hop : (identify env t.before.shared c).operator? = some op) :
    Entitled env (t :: h) n c op := by
  generalize hst : identify env t.before.shared c = stage at hafter hop
  unfold identify at hst
  split at hst
  · rename_i ha
    subst hst
    cases hop
    exact .loopback ha
  · rename_i expected ha
    split at hst
    · subst hst
      cases hop
    · rename_i token htok
      split_ifs at hst with hsame
      · subst hst
        cases hop
        exact .shared ha htok hsame
      · split at hst
        · subst hst
          cases hop
        · rename_i row hrow
          subst hst
          cases hop
          exact .holder List.mem_cons_self ⟨hl, hbefore, hafter, htok, hrow⟩

theorem entitled_move {s' : Plane} {v v' : Visit} (hm : Move env t.before.shared v s' v')
    (hl : t.label = .advance n) (hbefore : t.before.requests[n]? = some v)
    (hafter : t.after.requests[n]? = some v')
    (hv : ∀ op, v.stage.operator? = some op → Entitled env h n v.call op)
    (hop : v'.stage.operator? = some op) : Entitled env (t :: h) n v'.call op := by
  rcases v with ⟨c, stage⟩
  cases hm with
  | handler =>
    cases stage with
    | received => exact entitled_identify hl hbefore hafter hop
    | known op' => exact (hv op hop).later t
    | admitted op' =>
      rcases hrun : (write env op' c).run t.before.shared with ⟨e | rest, u⟩
      · simp only [move, hrun, conclude, Stage.operator?, reduceCtorEq] at hop
      · simp only [move, hrun, conclude] at hop
        exact (hv op hop).later t
    | written op' rest =>
      obtain ⟨body, hrun⟩ := run_finish rest t.before.shared
      simp only [move, hrun, conclude, Stage.operator?, reduceCtorEq] at hop
    | answered body => cases hop
    | denied code => cases hop
    | dropped => cases hop
  | failed =>
    cases stage with
    | known op' => exact (hv op hop).later t
    | _ => cases hop
  | cut => cases stage <;> cases hop

/-- Whoever a request goes on as, it is entitled to. -/
theorem entitled_run {g₀ : Front} (hr : Run (FrontStep env) g₀ h g) (h₀ : g₀.requests = []) :
    ∀ (n : ℕ) v op, g.requests[n]? = some v → v.stage.operator? = some op →
      Entitled env h n v.call op := by
  induction hr with
  | start =>
    intro n v op hv
    simp [h₀] at hv
  | @step h s t i hr hs ih =>
    intro n v op hv hop
    cases hs with
    | @arrive s rs r ha =>
      rcases getElem?_append_singleton hv with hv | rfl
      · exact (ih n v op hv hop).later _
      · rw [show v.stage = .received from ha] at hop
        cases hop
    | @outside s s' rs e ho => exact (ih n v op hv hop).later _
    | @advance s s' rs r r' m hm hmove =>
      have hafter := hv
      rcases getElem?_set_cases hv with ⟨rfl, rfl⟩ | ⟨-, hv⟩
      · exact entitled_move hmove rfl hm hafter (fun op hop => ih n r op hm hop) hop
      · exact (ih n v op hv hop).later _

end Entitlement

/-! ### What an answer tells -/

/-- The change of a step, where it is this request's. -/
def changedBy (env : Env) (n : ℕ) (t : Transition Front FrontLabel) : Option Change :=
  match t.label with
  | .advance m => if m = n then changed env t else none
  | _ => none

def made (env : Env) (n : ℕ) (h : History Front FrontLabel) : List Change :=
  entries (changedBy env n) h

/-- A request that was let in made the one change it asks for, if it asks for one. -/
def MadeIts (env : Env) (h : History Front FrontLabel) (n : ℕ) (c : Call) : Prop :=
  ∃ op, Entitled env h n c op ∧ made env n h = (changeOf env op c).toList

/-- What a request has changed, by how it stands: an answer with a body tells that the change it
asked for was made, and a refusal that nothing was. After a failure, and where the deadline
passed, either may be so. -/
def Told (env : Env) (h : History Front FrontLabel) (n : ℕ) (v : Visit) : Prop :=
  match v.stage with
  | .received | .known _ | .admitted _ => made env n h = []
  | .written op _ => made env n h = (changeOf env op v.call).toList
  | .answered _ => MadeIts env h n v.call
  | .denied .controlPlaneUnavailable | .dropped => made env n h = [] ∨ MadeIts env h n v.call
  | .denied _ => made env n h = []

section Answers
variable {env : Env} {g : Front} {h : History Front FrontLabel} {t : Transition Front FrontLabel}
variable {n : ℕ} {v v' : Visit}

theorem made_cons : made env n (t :: h) = (changedBy env n t).toList ++ made env n h := by
  unfold made entries
  rw [List.filterMap_cons]
  cases changedBy env n t with
  | none => rfl
  | some e => rfl

theorem made_of_none (ht : changedBy env n t = none) : made env n (t :: h) = made env n h := by
  rw [made_cons, ht, Option.toList_none, List.nil_append]

theorem MadeIts.later {c : Call} (hm : MadeIts env h n c) (ht : changedBy env n t = none) :
    MadeIts env (t :: h) n c := by
  obtain ⟨op, hent, hmade⟩ := hm
  exact ⟨op, hent.later t, (made_of_none ht).trans hmade⟩

/-- A step of another request leaves what is told. -/
theorem Told.later (hv : Told env h n v) (ht : changedBy env n t = none) :
    Told env (t :: h) n v := by
  have hmade := made_of_none (h := h) ht
  unfold Told at hv ⊢
  split at hv
  · exact hmade.trans hv
  · exact hmade.trans hv
  · exact hmade.trans hv
  · exact hmade.trans hv
  · exact hv.later ht
  · exact hv.imp hmade.trans fun hits => hits.later ht
  · exact hv.imp hmade.trans fun hits => hits.later ht
  · exact hmade.trans hv

theorem told_of_nothing (hmade : made env n h = []) (hs : v.stage.acted = false) :
    Told env h n v := by
  rcases v with ⟨c, stage⟩
  unfold Told
  cases stage with
  | written op rest => cases hs
  | answered body => cases hs
  | denied code =>
    cases code with
    | controlPlaneUnavailable => exact .inl hmade
    | _ => exact hmade
  | dropped => exact .inl hmade
  | _ => exact hmade

theorem changedBy_advance (hl : t.label = .advance n) (hbefore : t.before.requests[n]? = some v)
    (hafter : t.after.requests[n]? = some v') : changedBy env n t = changeBetween env v v' := by
  simp only [changedBy, changed, hl, if_true, hbefore, hafter]

theorem told_move {s' : Plane} (hm : Move env t.before.shared v s' v')
    (hl : t.label = .advance n) (hbefore : t.before.requests[n]? = some v)
    (hafter : t.after.requests[n]? = some v')
    (hent : ∀ op, v.stage.operator? = some op → Entitled env h n v.call op)
    (hv : Told env h n v) : Told env (t :: h) n v' := by
  have hby : changedBy env n t = changeBetween env v v' := changedBy_advance hl hbefore hafter
  rcases v with ⟨c, stage⟩
  cases hm with
  | handler =>
    cases stage with
    | received =>
      exact told_of_nothing ((made_of_none hby).trans hv) (acted_identify env t.before.shared c)
    | known op => exact (made_of_none hby).trans hv
    | admitted op =>
      rcases hrun : (write env op c).run t.before.shared with ⟨e | rest, u⟩
      · simp only [move, hrun, conclude] at hby ⊢
        exact told_of_nothing ((made_of_none hby).trans hv) rfl
      · simp only [move, hrun, conclude] at hby ⊢
        change made env n (t :: h) = (changeOf env op c).toList
        have hnothing : made env n h = [] := hv
        rw [made_cons, hby, hnothing, List.append_nil]
        rfl
    | written op rest =>
      obtain ⟨body, hrun⟩ := run_finish rest t.before.shared
      simp only [move, hrun, conclude] at hby ⊢
      exact ⟨op, (hent op rfl).later t, (made_of_none hby).trans hv⟩
    | answered body => exact hv.later hby
    | denied code => exact hv.later hby
    | dropped => exact hv.later hby
  | failed =>
    cases stage with
    | received | known => exact (made_of_none hby).trans hv
    | admitted op =>
      exact told_of_nothing ((made_of_none hby).trans hv) rfl
    | written op rest => exact .inr ⟨op, (hent op rfl).later t, (made_of_none hby).trans hv⟩
    | answered | denied | dropped => exact hv.later hby
  | cut =>
    cases stage with
    | received | known | admitted => exact .inl ((made_of_none hby).trans hv)
    | written op rest => exact .inr ⟨op, (hent op rfl).later t, (made_of_none hby).trans hv⟩
    | answered | denied | dropped => exact hv.later hby

/-- What is told of each request holds at the end of every run; a request that has not arrived
has made nothing. -/
theorem told_run {g₀ : Front} (hr : Run (FrontStep env) g₀ h g) (h₀ : g₀.requests = []) (n : ℕ) :
    (g.requests[n]? = none → made env n h = []) ∧
      ∀ v, g.requests[n]? = some v → Told env h n v := by
  induction hr with
  | start => exact ⟨fun _ => rfl, fun v hv => by simp [h₀] at hv⟩
  | @step h s t i hr hs ih =>
    have hent := entitled_run hr h₀ n
    cases hs with
    | @arrive s rs r ha =>
      have hby : changedBy env n ⟨⟨s, rs⟩, .arrive r, ⟨s, rs ++ [r]⟩⟩ = none := rfl
      constructor
      · intro hn
        have hlen : (rs ++ [r]).length ≤ n := List.getElem?_eq_none_iff.mp hn
        rw [List.length_append] at hlen
        exact (made_of_none hby).trans (ih.1 (List.getElem?_eq_none (Nat.le_of_add_right_le hlen)))
      · intro v hv
        rcases hold : rs[n]? with _ | v₀
        · rcases getElem?_append_singleton hv with hv | rfl
          · rw [hold] at hv
            cases hv
          · rw [Told, show v.stage = .received from ha]
            exact (made_of_none hby).trans (ih.1 hold)
        · rw [List.getElem?_append_left (List.getElem?_eq_some_iff.mp hold).1] at hv
          exact (ih.2 v hv).later hby
    | @outside s s' rs e ho =>
      have hby : changedBy env n ⟨⟨s, rs⟩, .outside e, ⟨s', rs⟩⟩ = none := rfl
      exact ⟨fun hn => (made_of_none hby).trans (ih.1 hn), fun v hv => (ih.2 v hv).later hby⟩
    | @advance s s' rs r r' m hm hmove =>
      by_cases hmn : m = n
      · subst hmn
        have hafter : (rs.set m r')[m]? = some r' := by
          simp [(List.getElem?_eq_some_iff.mp hm).1]
        have htold := told_move (t := ⟨⟨s, rs⟩, .advance m, ⟨s', rs.set m r'⟩⟩) hmove rfl hm hafter
          (fun op hop => hent r op hm hop) (ih.2 r hm)
        refine ⟨fun hn => ?_, fun v hv => ?_⟩
        · rw [hafter] at hn
          cases hn
        · rw [hafter, Option.some.injEq] at hv
          rw [← hv]
          exact htold
      · have hby : changedBy env n ⟨⟨s, rs⟩, .advance m, ⟨s', rs.set m r'⟩⟩ = none := if_neg hmn
        rw [List.getElem?_set_ne hmn]
        exact ⟨fun hn => (made_of_none hby).trans (ih.1 hn), fun v hv => (ih.2 v hv).later hby⟩

end Answers

/-- The credentials are decided by the changes that were made: an operator authenticates with
a token just when the log of these says so, and every entry of the log was admissible where
it was made. And what a request was answered tells what it has put into the log, but for one
that failed or was dropped. -/
theorem credentials_follow_changes {env : Env} {g₀ g : Front} {h : History Front FrontLabel}
    (hr : Run (FrontStep env) g₀ h g) :
    Legal Admits note (credentials g₀.shared) (entries (changed env) h) ∧
      (∀ hash id, (∃ row, operatorByTokenHash hash g.shared = some row ∧ row.operatorId = id) ↔
        replay note (credentials g₀.shared) (entries (changed env) h) id = some ⟨hash, true⟩) ∧
      (g₀.requests = [] → ∀ n v, g.requests[n]? = some v → Told env h n v) := by
  obtain ⟨hlegal, hreplay⟩ := accounted_replay hr
  refine ⟨hlegal, fun hash id => ?_, fun h₀ n v hv => (told_run hr h₀ n).2 v hv⟩
  rw [hreplay]
  exact resolves_iff

/-! ### Revocation -/

/-- The step lets a request in as this operator, by a token with this digest. -/
def LetsIn (env : Env) (t : Transition Front FrontLabel) (id : Varchar 64) (hash : Hash) : Prop :=
  ∃ n c op, t.label = .advance n ∧ t.before.requests[n]? = some ⟨c, .received⟩ ∧
    t.after.requests[n]? = some ⟨c, .known op⟩ ∧ c.token.map env.tokenHash = some hash ∧
      op.operatorId = id

section Revocation
variable {env : Env} {g g' : Front} {l : FrontLabel} {id : Varchar 64} {hash : Hash}

theorem identify_known {s : Plane} {c : Call} {op : Operator} (h : identify env s c = .known op) :
    ∃ token row, c.token = some token ∧ operatorByTokenHash (env.tokenHash token) s = some row ∧
      op = operatorOf row := by
  unfold identify at h
  split at h
  · cases h
  · split at h
    · cases h
    · rename_i token htoken
      split_ifs at h
      split at h
      · cases h
      · rename_i row hrow
        cases h
        exact ⟨token, row, htoken, hrow, rfl⟩

/-- Nobody is let in but by an enabled credential. -/
theorem credential_of_letsIn (h : FrontStep env g l g') (hin : LetsIn env ⟨g, l, g'⟩ id hash) :
    credentials g.shared id = some ⟨hash, true⟩ := by
  obtain ⟨n, c, op, hl, hbefore, hafter, htoken, rfl⟩ := hin
  cases hl
  cases h with
  | @advance s s' rs v v' _ hv hm =>
    have hlen := (List.getElem?_eq_some_iff.mp hv).1
    obtain rfl : v = ⟨c, .received⟩ := Option.some.inj (hv.symm.trans hbefore)
    have hv' : v' = ⟨c, .known op⟩ := by simpa [hlen] using hafter
    cases hm with
    | handler =>
      have hstage : identify env s c = .known op := congrArg Visit.stage hv'
      obtain ⟨token, row, htok, hrow, rfl⟩ := identify_known hstage
      rw [htok, Option.map_some, Option.some.injEq] at htoken
      rw [← htoken]
      exact resolves_iff.mp ⟨row, hrow, rfl⟩
    | failed => cases congrArg Visit.stage hv'
    | cut => cases congrArg Visit.stage hv'

/-- The credential of a disabled operator stays disabled until the operator is enabled. -/
theorem disabled_step (h : FrontStep env g l g')
    (hid : (credentials g.shared id).map Credential.enabled = some false)
    (hon : changed env ⟨g, l, g'⟩ ≠ some (.switched id.text true)) :
    (credentials g'.shared id).map Credential.enabled = some false := by
  obtain ⟨hview, hadmits⟩ := step_accounted h
  obtain ⟨cred, hcred, hen⟩ := Option.map_eq_some_iff.mp hid
  rw [hview]
  rcases hch : changed env ⟨g, l, g'⟩ with _ | e
  · exact hid
  · have hadm := hadmits e hch
    cases e with
    | issued k hash =>
      have hne : id ≠ k := by
        rintro rfl
        rw [hadm.1] at hcred
        cases hcred
      simp [noteStep, note, hne, hcred, hen]
    | rotated k hash =>
      have hne : id ≠ k := by
        rintro rfl
        obtain ⟨⟨old, hold⟩, -⟩ := hadm
        rw [hold] at hcred
        cases hcred
        cases hen
      simp [noteStep, note, hne, hcred, hen]
    | switched k enabled =>
      by_cases hk : id.text = k
      · subst hk
        have hoff : enabled = false := by
          cases enabled with
          | false => rfl
          | true => exact absurd hch hon
        simp [noteStep, note, hcred, hoff]
      · simp [noteStep, note, hk, hcred, hen]

/-- After an operator was disabled and until it is enabled, no request is let in as that
operator and no request replaces its token, whatever was under way when it was disabled. -/
theorem disabled_operator_stays_out {env : Env} {g₀ g : Front}
    {earlier later : History Front FrontLabel} {t : Transition Front FrontLabel}
    (hr : Run (FrontStep env) g₀ (later ++ t :: earlier) g) {id : Varchar 64}
    (hoff : changed env t = some (.switched id.text false))
    (hon : ∀ x ∈ later, changed env x ≠ some (.switched id.text true)) :
    ∀ x ∈ later, (∀ hash, ¬LetsIn env x id hash) ∧
      ∀ hash, changed env x ≠ some (.rotated id hash) := by
  obtain ⟨-, hs⟩ := hr.split rfl
  have hdisabled : (credentials t.after.shared id).map Credential.enabled = some false := by
    obtain ⟨hview, hadmits⟩ := step_accounted hs
    obtain ⟨k, hk, hsome⟩ := hadmits _ hoff
    obtain rfl : k = id := Varchar.ext hk
    obtain ⟨cred, hcred⟩ := Option.isSome_iff_exists.mp hsome
    have hoff' : changed env ⟨t.before, t.label, t.after⟩ = some (.switched k.text false) := hoff
    rw [hview, hoff']
    simp [noteStep, note, hcred]
  obtain ⟨-, hall⟩ := (hr.rest rfl).invariant_along
    (I := fun g => (credentials g.shared id).map Credential.enabled = some false)
    (fun x hx hc hs => disabled_step hs hx hc) hdisabled hon
  intro x hx
  obtain ⟨hid, hs⟩ := hall x hx
  refine ⟨fun hash hin => ?_, fun hash hrot => ?_⟩
  · rw [credential_of_letsIn hs hin] at hid
    cases hid
  · obtain ⟨⟨old, hold⟩, -⟩ := (step_accounted hs).2 _ hrot
    rw [hold] at hid
    cases hid

/-- A digest nobody has is let in again only by a change that names it. -/
theorem unused_step (h : FrontStep env g l g')
    (hno : ∀ k c, credentials g.shared k = some c → c.tokenHash ≠ hash)
    (hnew : (changed env ⟨g, l, g'⟩).bind Change.hash? ≠ some hash) :
    ∀ k c, credentials g'.shared k = some c → c.tokenHash ≠ hash := by
  obtain ⟨hview, -⟩ := step_accounted h
  rw [hview]
  rcases hch : changed env ⟨g, l, g'⟩ with _ | e
  · exact hno
  · have hne : e.hash? ≠ some hash := by rwa [hch] at hnew
    intro k c hc
    cases e with
    | issued id fresh =>
      simp only [noteStep, note] at hc
      split_ifs at hc
      · cases hc
        exact fun h => hne (congrArg some h)
      · exact hno k c hc
    | rotated id fresh =>
      simp only [noteStep, note] at hc
      split_ifs at hc
      · obtain ⟨old, -, rfl⟩ := Option.map_eq_some_iff.mp hc
        exact fun h => hne (congrArg some h)
      · exact hno k c hc
    | switched id enabled =>
      simp only [noteStep, note] at hc
      split_ifs at hc
      · obtain ⟨old, hold, rfl⟩ := Option.map_eq_some_iff.mp hc
        exact hno k old hold
      · exact hno k c hc

theorem credential_unique {s : Plane} {k : Varchar 64} {c c' : Credential}
    (hc : credentials s k = some c) (hc' : credentials s id = some c')
    (h : c.tokenHash = c'.tokenHash) : k = id := by
  obtain ⟨o, ho, rfl, rfl⟩ := credentials_eq_some.mp hc
  obtain ⟨o', ho', rfl, rfl⟩ := credentials_eq_some.mp hc'
  have hsame : o.tokenHash = o'.tokenHash := h
  have hrow := Table.eq_of_clash sameOperator_comm ho ho' (by simp [sameOperator, hsame])
  rw [hrow]

/-- A token that was replaced lets nobody in, until one with its digest is generated again.
Requests it had let in before may still be under way, and go on. -/
theorem replaced_token_stays_dead {env : Env} {g₀ g : Front}
    {earlier later : History Front FrontLabel} {t : Transition Front FrontLabel}
    (hr : Run (FrontStep env) g₀ (later ++ t :: earlier) g) {id : Varchar 64} {old new : Hash}
    (hrot : changed env t = some (.rotated id new))
    (hold : credentials t.before.shared id = some ⟨old, true⟩) (hne : new ≠ old)
    (hnew : ∀ x ∈ later, (changed env x).bind Change.hash? ≠ some old) :
    ∀ x ∈ later, ∀ k, ¬LetsIn env x k old := by
  obtain ⟨-, hs⟩ := hr.split rfl
  have hdead : ∀ k c, credentials t.after.shared k = some c → c.tokenHash ≠ old := by
    obtain ⟨hview, -⟩ := step_accounted hs
    have hrot' : changed env ⟨t.before, t.label, t.after⟩ = some (.rotated id new) := hrot
    rw [hview, hrot']
    intro k c hc
    simp only [noteStep, note] at hc
    split_ifs at hc with hk
    · obtain ⟨_, -, rfl⟩ := Option.map_eq_some_iff.mp hc
      exact hne
    · exact fun h => hk (credential_unique hc hold h)
  obtain ⟨-, hall⟩ := (hr.rest rfl).invariant_along
    (I := fun g => ∀ k c, credentials g.shared k = some c → c.tokenHash ≠ old)
    (fun x hx hc hs => unused_step hs hx hc) hdead hnew
  intro x hx k hin
  obtain ⟨hno, hs⟩ := hall x hx
  exact hno k _ (credential_of_letsIn hs hin) rfl

end Revocation

/-! ### In whose name a request acts -/
section Names
variable {env : Env} {g g' : Front} {h : History Front FrontLabel}

/-- A rotation that is answered is not the shared token's. -/
theorem rotation_of_own {s s' : Plane} {v' : Visit} {c : Call} {op : Operator} {id : Varchar 64}
    {hash : Hash} (hm : Move env s ⟨c, .admitted op⟩ s' v')
    (hrot : changeBetween env ⟨c, .admitted op⟩ v' = some (.rotated id hash)) :
    op.operatorId = id ∧ id ≠ sharedTokenOperator := by
  cases hm with
  | handler =>
    rcases hres : (write env op c).run s with ⟨e | rest, t⟩
    · simp only [move, hres, conclude, changeBetween, reduceCtorEq] at hrot
    · simp only [move, hres, conclude, changeBetween] at hrot
      unfold changeOf at hrot
      split at hrot
      · cases hrot
      · rename_i hreq
        cases hrot
        refine ⟨rfl, fun hshared => ?_⟩
        have hdenied : (require (op.operatorId ≠ sharedTokenOperator)
            ControlDenial.sharedTokenNotRotatable : Except ControlDenial PUnit.{1}) =
              .error .sharedTokenNotRotatable := require_eq_error.mpr ⟨not_not.mpr hshared, rfl⟩
        have hrun : (handle env op c.generated .rotateOwnToken).run s =
            (.error .sharedTokenNotRotatable, s) := by
          simp only [handle, rotateOwnToken, demand, run_lift_bind_of_error hdenied]
        rw [write_eq (by simp [hreq]), hreq, run_bind_of_error hrun] at hres
        cases hres
      · cases hrot
      · cases hrot
  | failed => cases hrot
  | cut => cases hrot

/-- Every request is handled in the name of the operator that its own token was the enabled
credential of when it was let in, or of the shared token, whatever was changed since; and a
token is only ever replaced by a request that presented a token of the same operator. -/
theorem handled_as_token_holder {env : Env} {g₀ g : Front}
    {earlier later : History Front FrontLabel} {t : Transition Front FrontLabel}
    (hr : Run (FrontStep env) g₀ (later ++ t :: earlier) g)
    (h₀ : g₀.requests = []) {n : ℕ} {c : Call} {op : Operator} (hl : t.label = .advance n)
    (hv : t.before.requests[n]? = some ⟨c, .admitted op⟩) : Entitled env earlier n c op ∧
      ∀ id hash, changed env t = some (.rotated id hash) → ∃ y ∈ earlier, ∃ token row,
        LetIn env y n c token row ∧ row.operatorId = id := by
  obtain ⟨hrun, hs⟩ := hr.split rfl
  have hent : Entitled env earlier n c op := entitled_run hrun h₀ n ⟨c, .admitted op⟩ op hv rfl
  refine ⟨hent, fun id hash hrot => ?_⟩
  obtain ⟨hid, hne⟩ : op.operatorId = id ∧ id ≠ sharedTokenOperator := by
    rcases t with ⟨before, label, after⟩
    cases hl
    cases hs with
    | @advance s s' rs v v' _ hget hm =>
      obtain rfl : v = ⟨c, .admitted op⟩ := Option.some.inj (hget.symm.trans hv)
      have hlen := (List.getElem?_eq_some_iff.mp hget).1
      have hafter : (rs.set n v')[n]? = some v' := by simp [hlen]
      simp only [changed, hget, hafter] at hrot
      exact rotation_of_own hm hrot
  cases hent with
  | loopback _ => exact absurd hid.symm hne
  | shared _ _ _ => exact absurd hid.symm hne
  | @holder y token row hy hin => exact ⟨y, hy, token, row, hin, hid⟩

end Names

/-! ### A handover -/
namespace Handover
open TenantWrites.Desk

def isReceived (v : Visit) : Bool :=
  match v.stage with
  | .received => true
  | _ => false

def play (g : Front) (ls : List FrontLabel) : History Front FrontLabel × Front :=
  RequestPool.play isReceived (move env) (fun _ _ => none) g ls

theorem play_run (g : Front) (ls : List FrontLabel) :
    Run (FrontStep env) g (play g ls).1 (play g ls).2 := by
  refine RequestPool.play_run (fun v hv => ?_) (fun s v => .handler) (fun s e s' he => ?_) g ls
  · unfold isReceived at hv
    split at hv
    · assumption
    · cases hv
  · cases he

def advanced (g : Front) (n : ℕ) : Front :=
  match g.requests[n]? with
  | some v => ⟨(move env g.shared v).1, g.requests.set n (move env g.shared v).2⟩
  | none => g

theorem advanced_step {g : Front} {n : ℕ} (h : n < g.requests.length) :
    FrontStep env g (.advance n) (advanced g n) := by
  have hv := List.getElem?_eq_getElem h
  unfold advanced
  rw [hv]
  exact .advance hv .handler

def bobId : Varchar 64 := bob.operatorId

def disableBob : Visit :=
  ⟨⟨some aliceToken, generated 1, .setOperatorStatus bobId.text false⟩, .received⟩

def rotateBob : Visit := ⟨⟨some bobToken, generated 2, .rotateOwnToken⟩, .received⟩

def listForBob : Visit := ⟨⟨some bobToken, generated 3, .listAgents⟩, .received⟩

/-- Both requests are let in, Alice's to disable Bob and Bob's to rotate his token. -/
def letIn : History Front FrontLabel × Front := play ⟨start, []⟩
  [.advance 1, .advance 1, .advance 0, .advance 0, .arrive rotateBob, .arrive disableBob]

/-- Alice's request goes first, and Bob tries once more after his. -/
def disabled : Front := advanced letIn.2 0

def afterDisabled : History Front FrontLabel × Front :=
  play disabled [.advance 2, .arrive listForBob, .advance 1]

def rotated : Front := advanced letIn.2 1

def afterRotated : History Front FrontLabel × Front :=
  play rotated [.advance 2, .arrive listForBob, .advance 0]

/-- Bob is answered, and Alice's request is let through as far as its statement. -/
def afterBoth : History Front FrontLabel × Front := play rotated [.advance 0, .advance 1]

/-- The deadline of Alice's request passes then. -/
def overdue : Front := ⟨afterBoth.2.shared, afterBoth.2.requests.set 0 ⟨disableBob.call, .dropped⟩⟩

def untilOverdue : History Front FrontLabel :=
  ⟨afterBoth.2, .advance 0, overdue⟩ :: (afterBoth.1 ++ ⟨letIn.2, .advance 1, rotated⟩ :: letIn.1)

theorem disabled_run : Run (FrontStep env) ⟨start, []⟩
    (afterDisabled.1 ++ ⟨letIn.2, .advance 0, disabled⟩ :: letIn.1) afterDisabled.2 := by
  have hfirst : Run (FrontStep env) ⟨start, []⟩ letIn.1 letIn.2 := play_run _ _
  have hstep : FrontStep env letIn.2 (.advance 0) disabled := advanced_step (by decide)
  exact (hfirst.step hstep).append (play_run _ _)

theorem rotated_run : Run (FrontStep env) ⟨start, []⟩
    (afterRotated.1 ++ ⟨letIn.2, .advance 1, rotated⟩ :: letIn.1) afterRotated.2 := by
  have hfirst : Run (FrontStep env) ⟨start, []⟩ letIn.1 letIn.2 := play_run _ _
  have hstep : FrontStep env letIn.2 (.advance 1) rotated := advanced_step (by decide)
  exact (hfirst.step hstep).append (play_run _ _)

theorem overdue_run : Run (FrontStep env) ⟨start, []⟩ untilOverdue overdue := by
  have hfirst : Run (FrontStep env) ⟨start, []⟩ letIn.1 letIn.2 := play_run _ _
  have hstep : FrontStep env letIn.2 (.advance 1) rotated := advanced_step (by decide)
  have hboth := (hfirst.step hstep).append (play_run rotated [.advance 0, .advance 1])
  exact hboth.step (.advance rfl (.cut (v := ⟨disableBob.call, .written (operatorOf alice) none⟩)))

end Handover

open TenantWrites.Desk Handover

/-- Bob's new token is answered for. Alice's request disables him, and is dropped before it is
answered. -/
theorem credentials_follow_changes_overdue :
    overdue.requests[0]? = some ⟨disableBob.call, .dropped⟩ ∧
      made env 0 untilOverdue = [.switched bobId.text false] ∧
      Legal Admits note (credentials start) (entries (changed env) untilOverdue) ∧
      (∀ hash id, (∃ row, operatorByTokenHash hash overdue.shared = some row ∧
          row.operatorId = id) ↔
        replay note (credentials start) (entries (changed env) untilOverdue) id =
          some ⟨hash, true⟩) ∧
      ∀ n v, overdue.requests[n]? = some v → Told env untilOverdue n v := by
  obtain ⟨hlegal, hresolves, htold⟩ := credentials_follow_changes overdue_run
  exact ⟨rfl, by decide, hlegal, hresolves, htold rfl⟩

/-- His request was under way when he was disabled, and is refused; so is his next. -/
theorem disabled_operator_stays_out_bob :
    changed env ⟨letIn.2, .advance 0, disabled⟩ = some (.switched bobId.text false) ∧
      ∀ x ∈ afterDisabled.1, (∀ hash, ¬LetsIn env x bobId hash) ∧
        ∀ hash, changed env x ≠ some (.rotated bobId hash) := by
  have hoff : changed env ⟨letIn.2, .advance 0, disabled⟩ =
      some (.switched bobId.text false) := by decide
  exact ⟨hoff, disabled_operator_stays_out disabled_run hoff (by decide)⟩

theorem replaced_token_stays_dead_bob :
    credentials letIn.2.shared bobId = some ⟨bobHash, true⟩ ∧
      ∀ x ∈ afterRotated.1, ∀ k, ¬LetsIn env x k bobHash := by
  have hrot : changed env ⟨letIn.2, .advance 1, rotated⟩ = some (.rotated bobId mintedHash) := by
    decide
  have hold : credentials letIn.2.shared bobId = some ⟨bobHash, true⟩ := by decide
  exact ⟨hold, replaced_token_stays_dead rotated_run hrot hold (by decide) (by decide)⟩

/-- Bob's rotation is handled in his name, and was let in by his token. -/
theorem handled_as_token_holder_bob : Entitled env letIn.1 1 rotateBob.call (operatorOf bob) ∧
    ∀ id hash, changed env ⟨letIn.2, .advance 1, rotated⟩ = some (.rotated id hash) →
      ∃ y ∈ letIn.1, ∃ token row, LetIn env y 1 rotateBob.call token row ∧ row.operatorId = id :=
  handled_as_token_holder rotated_run rfl rfl rfl

end AgentPay.OperatorCredentials
