import AgentPay.ControlRequests
import AgentPay.SpendingEnvelope

/-!
# Approvals under concurrent purchases and decisions

A proposal is raised by a purchase that lacks an approval, decided by a person and
spent by a later purchase. Purchases and decisions interleave move by move, and a
purchase may find a row locked by another and pass it over. What an interleaving can
do to the approvals is listed once, as `Change`; that every approval is spent at most
once, and only after it was granted, is read off the list. The handlers of the control
plane act on the approvals by these steps and no others (`serve_steps`).
-/
namespace AgentPay.ApprovalRuns
open SolanaRuntime GatewayClaims SessionStore PolicyRules ControlPlane PaidRequests Fallible Runs

/-- `consume_approval` while other transactions hold some of the rows. -/
def spendUnlocked (s : Shared) (locked : ApprovalRow → Bool) (record : SessionRecord)
    (agent : AgentRecord) (policy : AgentPolicy) (spend : Spend) (resource : Text)
    (price : UInt64) : Shared × Stage :=
  match toI64 price "approval price" with
  | .error _ => (s, .denied .controlPlaneUnavailable)
  | .ok p =>
    match consumeFirst
        (fun a => matchesApproval agent.agentId resource p .approved a && !locked a)
        s.control.approvals with
    | (approvals, true) => ({ s with control := { s.control with approvals := approvals } },
        .cleared record (.evaluated agent policy spend))
    | (approvals, false) => ({ s with control := { s.control with approvals := approvals } },
        .unapproved agent)

/-- The moves of requests, with and without locked rows. -/
inductive ApprovalMove (cfg : Config) : Shared → Request → Shared → Request → Prop
  | gateway {s s' : Shared} {r r' : Request} : Move cfg s r s' r' → ApprovalMove cfg s r s' r'
  | contend {s : Shared} {r : Request} {locked : ApprovalRow → Bool} {record : SessionRecord}
      {agent : AgentRecord} {policy : AgentPolicy} {spend : Spend} {resource : Text}
      {price : UInt64} :
      r.stage = .approving record agent policy spend → r.kind = .buy resource price →
      ApprovalMove cfg s r (spendUnlocked s locked record agent policy spend resource price).1
        { r with stage := (spendUnlocked s locked record agent policy spend resource price).2 }

/-- The decisions, and every other write to the tables. -/
inductive ApprovalEvent where
  | gateway (e : Event)
  | decide (approvalId : Text) (approved : Bool)
  | agents (agents : List AgentRow)

inductive ApprovalOutside : Shared → ApprovalEvent → Shared → Prop
  | gateway {s s' : Shared} {e : Event} : (∀ control, e ≠ .control control) → Outside s e s' →
      ApprovalOutside s (.gateway e) s'
  | decide {s : Shared} {approvalId : Text} {approved : Bool} :
      ApprovalOutside s (.decide approvalId approved)
        { s with control := (decideApproval s.control approvalId approved).1 }
  | agents {s : Shared} {agents : List AgentRow} :
      ApprovalOutside s (.agents agents) { s with control := { s.control with agents := agents } }

abbrev ApprovalLabel := RequestPool.Label Request ApprovalEvent

/-- All interleavings of purchases and decisions. A decision is one statement and so one step;
the agents may be changed by the control plane at any moment. -/
def ApprovalStep (cfg : Config) : Gateway → ApprovalLabel → Gateway → Prop :=
  RequestPool.Step Arrives (ApprovalMove cfg) ApprovalOutside

/-- What an approval is granted for and spent on. -/
structure Key where
  agentId : Text
  resource : Text
  price : UInt64
deriving DecidableEq

/-- The row is for exactly this agent, resource and price. -/
def Key.covers (k : Key) (r : ApprovalRow) : Bool :=
  r.agentId = k.agentId && r.resource = k.resource && r.price.toInt = k.price.toNat

/-- The purchase a move lets through the approval branch. -/
def passedBy (r : Request) (stage : Stage) : Option Key :=
  match r.stage, r.kind, stage with
  | .approving _ agent _ _, .buy resource price, .cleared _ _ =>
    some ⟨agent.agentId, resource, price⟩
  | _, _, _ => none

def passed? (t : Transition Gateway ApprovalLabel) : Option Key :=
  match t.label with
  | .advance n => do
    let r ← t.before.requests[n]?
    let r' ← t.after.requests[n]?
    passedBy r r'.stage
  | _ => none

def rows (g : Gateway) : List ApprovalRow := g.shared.control.approvals

def granted? (t : Transition Gateway ApprovalLabel) : Option ApprovalRow :=
  match t.label with
  | .outside (.decide approvalId true) => (rows t.before).find? (undecided approvalId)
  | _ => none

/-- The purchases let through for a key. -/
def passes (k : Key) (h : History Gateway ApprovalLabel) : ℕ :=
  h.countP fun t => passed? t = some k

/-- The decisions that approved an approval for a key. -/
def grants (k : Key) (h : History Gateway ApprovalLabel) : ℕ :=
  h.countP fun t => (granted? t).any k.covers

def stateOf (l : List ApprovalRow) (approvalId : Text) : Option ApprovalState :=
  (l.find? fun r => r.approvalId = approvalId).map ApprovalRow.state

/-- Appends a state to the states so far, unless it is the last one of them. -/
def recordState (life : List ApprovalState) : Option ApprovalState → List ApprovalState
  | none => life
  | some state => if life.getLast? = some state then life else life ++ [state]

/-- The different states an approval went through, the first one first. -/
def states (approvalId : Text) : History Gateway ApprovalLabel → List ApprovalState
  | [] => []
  | t::h => recordState (states approvalId h) (stateOf (rows t.after) approvalId)

/-- Everything a step can do to the approvals. -/
inductive Change (before after : List ApprovalRow) : Option Key → Option ApprovalRow → Prop
  | same : after = before → Change before after none none
  | proposed {r : ApprovalRow} : after = before ++ [r] → r.state = .pending →
      (∀ a ∈ before, a.approvalId ≠ r.approvalId) → Change before after none none
  | consumed {l₁ l₂ : List ApprovalRow} {r : ApprovalRow} {k : Key} : before = l₁ ++ r :: l₂ →
      after = l₁ ++ { r with state := .consumed } :: l₂ → r.state = .approved →
      k.covers r = true → Change before after (some k) none
  | approved {l₁ l₂ : List ApprovalRow} {r : ApprovalRow} : before = l₁ ++ r :: l₂ →
      after = l₁ ++ { r with state := .approved } :: l₂ → r.state = .pending →
      Change before after none (some r)
  | rejected {l₁ l₂ : List ApprovalRow} {r : ApprovalRow} : before = l₁ ++ r :: l₂ →
      after = l₁ ++ { r with state := .rejected } :: l₂ → r.state = .pending →
      Change before after none none

/-! ### Steps -/

section Effects
variable {cfg : Config} {s s' : Shared} {r r' : Request} {g g' : Gateway}

theorem consumeFirst_cases (p : ApprovalRow → Bool) (l : List ApprovalRow) :
    consumeFirst p l = (l, false) ∨ ∃ l₁ r l₂, l = l₁ ++ r :: l₂ ∧ p r = true ∧
      consumeFirst p l = (l₁ ++ { r with state := .consumed } :: l₂, true) := by
  induction l with
  | nil => exact .inl rfl
  | cons a l ih =>
    rw [consumeFirst]
    split_ifs with ha
    · exact .inr ⟨[], a, l, rfl, ha, rfl⟩
    · rcases ih with hnone | ⟨l₁, r, l₂, rfl, hr, hdone⟩
      · rw [hnone]
        exact .inl rfl
      · rw [hdone]
        exact .inr ⟨a :: l₁, r, l₂, rfl, hr, rfl⟩

theorem covers_of_matches {agentId resource : Text} {price : UInt64} {p : Int64} {a : ApprovalRow}
    {state : ApprovalState} (hp : toI64 price "approval price" = .ok p)
    (h : matchesApproval agentId resource p state a = true) :
    Key.covers ⟨agentId, resource, price⟩ a = true ∧ a.state = state := by
  simp only [matchesApproval, Bool.and_eq_true, decide_eq_true_eq] at h
  simp only [Key.covers, Bool.and_eq_true, decide_eq_true_eq, h.1.2, toI64_eq_ok.mp hp]
  exact ⟨⟨h.1.1, trivial⟩, h.2⟩

theorem spendUnlocked_change {locked : ApprovalRow → Bool} {record : SessionRecord}
    {agent : AgentRecord} {policy : AgentPolicy} {spend : Spend} {resource : Text} {price : UInt64}
    (hstage : r.stage = .approving record agent policy spend) (hkind : r.kind = .buy resource price) :
    Change s.control.approvals
      (spendUnlocked s locked record agent policy spend resource price).1.control.approvals
      (passedBy r (spendUnlocked s locked record agent policy spend resource price).2) none := by
  unfold spendUnlocked
  rcases hp : toI64 price "approval price" with e | p
  · simp only [passedBy, hstage, hkind]
    exact .same rfl
  · rcases consumeFirst_cases
      (fun a => matchesApproval agent.agentId resource p .approved a && !locked a)
      s.control.approvals with hnone | ⟨l₁, a, l₂, hl, ha, hdone⟩
    · simp only [hnone, passedBy, hstage, hkind]
      exact .same rfl
    · simp only [hdone, passedBy, hstage, hkind]
      rw [Bool.and_eq_true] at ha
      have hc := covers_of_matches hp ha.1
      exact .consumed hl rfl hc.2 hc.1

/-- Without locked rows the move is the handler's own. -/
theorem spendApproval_eq {record : SessionRecord} {agent : AgentRecord} {policy : AgentPolicy}
    {spend : Spend} {resource : Text} {price : UInt64} :
    spendApproval s record agent policy spend resource price =
      spendUnlocked s (fun _ => false) record agent policy spend resource price := by
  unfold spendApproval spendUnlocked consumeApproval
  rcases toI64 price "approval price" with e | p
  · rfl
  · simp only [ok_bind, Bool.not_false, Bool.and_true]
    rcases consumeFirst (matchesApproval agent.agentId resource p .approved) s.control.approvals
      with ⟨l, _ | _⟩
    · rfl
    · rfl

theorem raiseProposal_change {agent : AgentRecord} {resource approvalId : Text} {price : UInt64} :
    Change s.control.approvals
      (raiseProposal s agent resource price approvalId).1.control.approvals none none := by
  unfold raiseProposal
  split
  · rename_i control hok
    simp only [createApproval, bind_eq_ok, require_eq_ok, pure_eq_ok, exists_const] at hok
    obtain ⟨p, -, hfresh, rfl⟩ := hok
    exact .proposed rfl rfl hfresh
  · exact .same rfl

theorem passedBy_of_not_approving {stage : Stage}
    (h : ∀ record agent policy spend, r.stage ≠ .approving record agent policy spend) :
    passedBy r stage = none := by
  unfold passedBy
  split
  · exact absurd ‹_› (h _ _ _ _)
  · rfl

theorem passedBy_of_not_cleared {stage : Stage}
    (h : ∀ record clearance, stage ≠ .cleared record clearance) : passedBy r stage = none := by
  unfold passedBy
  split
  · exact absurd rfl (h _ _)
  · rfl

theorem passedBy_idle : passedBy r r.stage = none := by
  unfold passedBy
  split
  · rename_i happroving _ hcleared
    rw [happroving] at hcleared
    cases hcleared
  · rfl

theorem advance_change : Change s.control.approvals (advance cfg s r).1.control.approvals
    (passedBy r (advance cfg s r).2) none := by
  have hother (hn : ∀ record agent policy spend, r.stage ≠ .approving record agent policy spend)
      {x : Shared × Stage} (hx : x.1.control = s.control) :
      Change s.control.approvals x.1.control.approvals (passedBy r x.2) none := by
    rw [passedBy_of_not_approving hn, hx]
    exact .same rfl
  unfold advance
  split
  · rename_i h
    exact hother (by simp [h]) rfl
  · rename_i record h
    exact hother (by simp [h]) rfl
  · rename_i record agent policy resource price h hk
    exact hother (by simp [h]) rfl
  · rename_i record agent policy spend resource price h hk
    rw [spendApproval_eq]
    exact spendUnlocked_change h hk
  · rename_i agent resource price h hk
    exact hother (by simp [h]) rfl
  · rename_i agent resource price h hk
    rw [passedBy_of_not_approving (by simp [h])]
    exact raiseProposal_change
  · rename_i record clearance h
    refine hother (by simp [h]) ?_
    unfold admitRequest
    split <;> rfl
  · rename_i record accepted h
    exact hother (by simp [h]) rfl
  · rw [passedBy_idle]
    exact .same rfl

theorem move_change (h : ApprovalMove cfg s r s' r') :
    Change s.control.approvals s'.control.approvals (passedBy r r'.stage) none := by
  cases h with
  | gateway hm =>
    cases hm with
    | handler => exact advance_change
    | interrupted =>
      rw [passedBy_of_not_cleared]
      · exact .same rfl
      · intro record clearance
        cases r.stage <;> simp [Stage.interrupted]
  | contend hstage hkind => exact spendUnlocked_change hstage hkind

def UniqueIds (l : List ApprovalRow) : Prop := (l.map ApprovalRow.approvalId).Nodup

theorem decideApproval_change {c : Tables} (hu : UniqueIds c.approvals) (approvalId : Text)
    (approved : Bool) :
    Change c.approvals (decideApproval c approvalId approved).1.approvals none
      (if approved then c.approvals.find? (undecided approvalId) else none) := by
  unfold decideApproval
  rcases hf : c.approvals.find? (undecided approvalId) with _ | a
  · rw [List.find?_eq_none] at hf
    rw [ite_self]
    apply Change.same
    simp only
    rw [List.map_congr_left fun b hb => if_neg (hf b hb), List.map_id'']
    exact fun b => rfl
  · obtain ⟨ha, l₁, l₂, hl, hl₁⟩ := List.find?_eq_some_iff_append.mp hf
    have hid : a.approvalId = approvalId := by
      simp only [undecided, Bool.and_eq_true, decide_eq_true_eq] at ha
      exact ha.1
    have hpending : a.state = .pending := by
      simp only [undecided, Bool.and_eq_true, decide_eq_true_eq] at ha
      exact ha.2
    have hl₂ : ∀ b ∈ l₂, ¬undecided approvalId b = true := by
      intro b hb hund
      simp only [undecided, Bool.and_eq_true, decide_eq_true_eq] at hund
      rw [UniqueIds, hl, List.map_append, List.map_cons, List.nodup_append, List.nodup_cons] at hu
      exact hu.2.1.1 (List.mem_map.mpr ⟨b, hb, hund.1.trans hid.symm⟩)
    have hrows : (c.approvals.map fun b => if undecided approvalId b then
        { b with state := if approved then .approved else .rejected } else b) =
        l₁ ++ { a with state := if approved then .approved else .rejected } :: l₂ := by
      rw [hl, List.map_append, List.map_cons, if_pos ha,
        List.map_congr_left fun b hb => if_neg (by simpa using hl₁ b hb),
        List.map_congr_left fun b hb => if_neg (hl₂ b hb), List.map_id', List.map_id']
    simp only [hrows]
    cases approved with
    | true => exact .approved hl rfl hpending
    | false => exact .rejected hl rfl hpending

theorem passed?_advance {rs : List Request} {n : ℕ} (hr : rs[n]? = some r) :
    passed? ⟨⟨s, rs⟩, .advance n, ⟨s', rs.set n r'⟩⟩ = passedBy r r'.stage := by
  have hset : (rs.set n r')[n]? = some r' := by
    rw [List.getElem?_set_self (List.getElem?_eq_some_iff.mp hr).1]
  simp only [passed?, hr, hset, Option.bind_eq_bind, Option.bind_some]

theorem step_change {l : ApprovalLabel} (h : ApprovalStep cfg g l g') (hu : UniqueIds (rows g)) :
    Change (rows g) (rows g') (passed? ⟨g, l, g'⟩) (granted? ⟨g, l, g'⟩) := by
  cases h with
  | arrive _ => exact .same rfl
  | advance hr hm =>
    rw [passed?_advance hr]
    exact move_change hm
  | outside ho =>
    cases ho with
    | gateway he ho =>
      cases ho with
      | control => exact absurd rfl (he _)
      | openSession _ => exact .same rfl
      | markSettled => exact .same rfl
      | markChainVerified _ => exact .same rfl
    | @decide approvalId approved =>
      have hc := decideApproval_change hu approvalId approved
      cases approved with
      | true => exact hc
      | false => exact hc
    | agents => exact .same rfl

end Effects

/-! ### Runs -/

section Changes
variable {before after : List ApprovalRow} {passed : Option Key} {granted : Option ApprovalRow}
variable {k k' : Key} {r : ApprovalRow} {l₁ l₂ : List ApprovalRow} {approvalId : Text}

theorem Change.unique (h : Change before after passed granted) (hu : UniqueIds before) :
    UniqueIds after := by
  unfold UniqueIds at *
  cases h with
  | same ha => rwa [ha]
  | @proposed r ha _ hfresh =>
    rw [ha, List.map_append, List.map_singleton]
    refine hu.append (List.nodup_singleton _) ?_
    intro x hx hr
    rw [List.mem_singleton] at hr
    obtain ⟨a, ha, rfl⟩ := List.mem_map.mp hx
    exact hfresh a ha hr
  | consumed hb ha _ _ | approved hb ha _ | rejected hb ha _ =>
    rw [hb] at hu
    rw [ha]
    simpa using hu

theorem covers_inj (h : k.covers r = true) (h' : k'.covers r = true) : k = k' := by
  simp only [Key.covers, Bool.and_eq_true, decide_eq_true_eq] at h h'
  rcases k with ⟨a, b, c⟩
  rcases k' with ⟨a', b', c'⟩
  simp only at h h'
  have hprice : c = c' := UInt64.toNat_inj.mp (by omega)
  rw [← h.1.1, ← h'.1.1, ← h.1.2, ← h'.1.2, hprice]

@[simp] theorem covers_state {state : ApprovalState} :
    k.covers { r with state := state } = k.covers r := rfl

/-- The approvals that wait to be spent on a key. -/
def waiting (k : Key) (l : List ApprovalRow) : ℕ :=
  l.countP fun r => k.covers r && r.state = .approved

/-- A pass takes one waiting approval of its key, a grant adds one. -/
theorem Change.balance (h : Change before after passed granted) :
    waiting k after + (if passed = some k then 1 else 0) =
      waiting k before + if granted.any k.covers then 1 else 0 := by
  unfold waiting
  cases h with
  | same ha =>
    rw [ha]
    rfl
  | @proposed r ha hr _ =>
    rw [ha, List.countP_append]
    simp [hr]
  | @consumed l₁ l₂ r k' hb ha hr hk =>
    rw [hb, ha]
    simp only [List.countP_append, List.countP_cons, hr, decide_true, Bool.and_true,
      reduceCtorEq, decide_false, Bool.and_false, Option.some.injEq, Option.any_none,
      Bool.false_eq_true, if_false]
    by_cases hkey : k' = k
    · rw [if_pos hkey, if_pos (hkey ▸ hk)]
      omega
    · rw [if_neg hkey, if_neg fun hc => hkey (covers_inj hk hc)]
  | @approved l₁ l₂ r hb ha hr =>
    rw [hb, ha]
    simp only [List.countP_append, List.countP_cons, hr, decide_true, Bool.and_true,
      reduceCtorEq, decide_false, Bool.and_false, Option.any_some, Bool.false_eq_true, if_false,
      covers_state]
    omega
  | @rejected l₁ l₂ r hb ha hr =>
    rw [hb, ha]
    simp [hr]

theorem stateOf_middle (hu : UniqueIds (l₁ ++ r :: l₂)) :
    stateOf (l₁ ++ r :: l₂) r.approvalId = some r.state := by
  have hl₁ : l₁.find? (fun a => a.approvalId = r.approvalId) = none := by
    rw [List.find?_eq_none]
    intro a ha
    rw [UniqueIds, List.map_append, List.map_cons] at hu
    have hne := (List.nodup_append.mp hu).2.2 a.approvalId (List.mem_map_of_mem ha) r.approvalId
      List.mem_cons_self
    simpa using hne
  rw [stateOf, List.find?_append, hl₁]
  simp

theorem stateOf_replaced {state : ApprovalState} (hne : approvalId ≠ r.approvalId) :
    stateOf (l₁ ++ { r with state := state } :: l₂) approvalId =
      stateOf (l₁ ++ r :: l₂) approvalId := by
  simp [stateOf, List.find?_append, hne.symm]

theorem stateOf_concat : stateOf (before ++ [r]) approvalId =
    (stateOf before approvalId).or (if r.approvalId = approvalId then some r.state else none) := by
  rw [stateOf, List.find?_append, Option.map_or]
  congr 1
  rw [List.find?_singleton]
  split_ifs with h₁ h₂ h₂ <;> simp_all

/-- The life of an approval, one step at a time. -/
inductive Lives : Option ApprovalState → Option ApprovalState → Prop
  | same {x : Option ApprovalState} : Lives x x
  | raised : Lives none (some .pending)
  | approved : Lives (some .pending) (some .approved)
  | rejected : Lives (some .pending) (some .rejected)
  | consumed : Lives (some .approved) (some .consumed)

theorem Change.lives (h : Change before after passed granted) (hu : UniqueIds before) :
    Lives (stateOf before approvalId) (stateOf after approvalId) := by
  have hafter := h.unique hu
  have hreplaced {l₁ l₂ : List ApprovalRow} {r : ApprovalRow} {state : ApprovalState}
      (hb : before = l₁ ++ r :: l₂) (ha : after = l₁ ++ { r with state := state } :: l₂)
      (hl : Lives (some r.state) (some state)) :
      Lives (stateOf before approvalId) (stateOf after approvalId) := by
    subst hb ha
    by_cases hid : approvalId = r.approvalId
    · subst hid
      rw [stateOf_middle hu]
      have hst := @stateOf_middle { r with state := state } l₁ l₂ hafter
      rw [hst]
      exact hl
    · rw [@stateOf_replaced r l₁ l₂ approvalId state hid]
      exact .same
  cases h with
  | same ha =>
    rw [ha]
    exact .same
  | @proposed r ha hr hfresh =>
    rw [ha, stateOf_concat, hr]
    rcases stateOf before approvalId with _ | state
    · rw [Option.none_or]
      split_ifs
      · exact .raised
      · exact .same
    · exact .same
  | consumed hb ha hr _ => exact hreplaced hb ha (hr ▸ .consumed)
  | approved hb ha hr => exact hreplaced hb ha (hr ▸ .approved)
  | rejected hb ha hr => exact hreplaced hb ha (hr ▸ .rejected)

def lifeOf : Option ApprovalState → List ApprovalState
  | none => []
  | some .pending => [.pending]
  | some .approved => [.pending, .approved]
  | some .rejected => [.pending, .rejected]
  | some .consumed => [.pending, .approved, .consumed]

theorem getLast?_lifeOf (x : Option ApprovalState) : (lifeOf x).getLast? = x := by
  rcases x with _ | _ | _ | _ | _ <;> rfl

theorem lifeOf_prefix (x : Option ApprovalState) :
    lifeOf x <+: [.pending, .approved, .consumed] ∨ lifeOf x <+: [.pending, .rejected] := by
  rcases x with _ | _ | _ | _ | _ <;> decide

theorem Lives.records {x y : Option ApprovalState} (h : Lives x y) :
    recordState (lifeOf x) y = lifeOf y := by
  cases h with
  | @same x =>
    cases x with
    | none => rfl
    | some state => exact if_pos (getLast?_lifeOf _)
  | raised | approved | rejected | consumed => rfl

/-- The approval a pass used, and what became of the table. -/
theorem Change.used (h : Change before after (some k) granted) :
    ∃ l₁ r l₂, before = l₁ ++ r :: l₂ ∧ after = l₁ ++ { r with state := .consumed } :: l₂ ∧
      r.state = .approved ∧ k.covers r = true := by
  cases h with
  | consumed hb ha hr hk => exact ⟨_, _, _, hb, ha, hr, hk⟩

end Changes

/-- The books of the approvals over a run that starts without any. -/
structure Booked (h : History Gateway ApprovalLabel) (g : Gateway) : Prop where
  unique : UniqueIds (rows g)
  balance : ∀ k, passes k h + waiting k (rows g) = grants k h
  lives : ∀ approvalId, states approvalId h = lifeOf (stateOf (rows g) approvalId)

section Runs
variable {cfg : Config} {g₀ g g' : Gateway} {h : History Gateway ApprovalLabel} {l : ApprovalLabel}

theorem booked_start (hrows : rows g = []) : Booked [] g := by
  refine ⟨?_, ?_, ?_⟩
  · rw [hrows]
    exact List.nodup_nil
  · intro k
    rw [hrows]
    rfl
  · intro approvalId
    rw [hrows]
    rfl

theorem booked_step (hb : Booked h g) (hs : ApprovalStep cfg g l g') :
    Booked (⟨g, l, g'⟩ :: h) g' := by
  have hc := step_change hs hb.unique
  refine ⟨hc.unique hb.unique, ?_, ?_⟩
  · intro k
    have hk := hb.balance k
    have hstep := @Change.balance _ _ _ _ k hc
    simp only [passes, grants, List.countP_cons, decide_eq_true_eq] at hk ⊢
    omega
  · intro approvalId
    rw [states, hb.lives]
    exact (hc.lives hb.unique).records

theorem booked_run (hr : Run (ApprovalStep cfg) g₀ h g) (hrows : rows g₀ = []) : Booked h g := by
  induction hr with
  | start => exact booked_start hrows
  | step _ hs ih => exact booked_step ih hs

end Runs

/-- To the payment path, a request to the control plane is a run of decisions and of
writes to the agents. -/
theorem serve_steps (cfg : Config) (env : ControlRequests.Env) (c : ControlRequests.Call)
    (p : Workspaces.Plane) (rs : List Request) :
    ∃ h, Run (ApprovalStep cfg) ⟨ControlRequests.shared p, rs⟩ h
      ⟨ControlRequests.shared ((ControlRequests.serve env c).run p).2, rs⟩ := by
  have hframe : Handlers.Frame fun p q => ∃ h, Run (ApprovalStep cfg)
      ⟨ControlRequests.shared p, rs⟩ h ⟨ControlRequests.shared q, rs⟩ := by
    refine ⟨fun p => ⟨[], .start⟩, ?_⟩
    intro p q u hq hu
    obtain ⟨h, hr⟩ := hq
    obtain ⟨h', hr'⟩ := hu
    exact ⟨h' ++ h, hr.append hr'⟩
  refine ControlRequests.keeps_serve hframe ?_ c p
  intro p q hw
  cases hw with
  | agents u =>
    exact ⟨_, .step .start (.outside (@ApprovalOutside.agents _ (u.rows.map _)))⟩
  | approvals hok =>
    have hdb : q.database = p.database := by
      obtain ⟨u, -, rfl⟩ := Workspaces.decideApproval_cases hok
      rfl
    unfold ControlRequests.shared
    rw [Workspaces.decideApproval_tables hok, hdb]
    exact ⟨_, .step .start (.outside .decide)⟩
  | providers | registry | newOperator | operators => exact ⟨[], .start⟩

/-- What the approvals promise of a whole run: no more purchases than decisions for
any agent, resource and price, no detour in the life of an approval, and behind each
purchase one approval that was granted, is used up, and is the only one touched. -/
structure SpentOnce (h : History Gateway ApprovalLabel) : Prop where
  bounded : ∀ k, passes k h ≤ grants k h
  ordered : ∀ approvalId, states approvalId h <+: [.pending, .approved, .consumed] ∨
    states approvalId h <+: [.pending, .rejected]
  granted : ∀ later t earlier k, h = later ++ t :: earlier → passed? t = some k →
    ∃ r ∈ rows t.before, k.covers r = true ∧ states r.approvalId earlier = [.pending, .approved] ∧
      states r.approvalId (t :: earlier) = [.pending, .approved, .consumed] ∧
      ∀ a ∈ rows t.before, a ≠ r → a ∈ rows t.after

/-- Whatever purchases and decisions interleave, and whatever rows a purchase finds locked
and passes over, every approval is spent once at most, by a purchase it covers and after it
was granted. -/
theorem approvals_spent_once {cfg : Config} {g₀ g : Gateway} {h : History Gateway ApprovalLabel}
    (hr : Run (ApprovalStep cfg) g₀ h g) (hrows : rows g₀ = []) : SpentOnce h := by
  have hb := booked_run hr hrows
  refine ⟨?_, ?_, ?_⟩
  · intro k
    have hk := hb.balance k
    omega
  · intro approvalId
    rw [hb.lives]
    exact lifeOf_prefix _
  · intro later t earlier k he hp
    have hsplit := hr.split he
    have hbefore := booked_run hsplit.1 hrows
    have hafter := booked_step hbefore hsplit.2
    have hc := step_change hsplit.2 hbefore.unique
    rw [show passed? ⟨t.before, t.label, t.after⟩ = some k from hp] at hc
    obtain ⟨l₁, r, l₂, hl, hl', hstate, hk⟩ := hc.used
    have hu := hbefore.unique
    have hu' := hafter.unique
    rw [hl] at hu
    rw [hl'] at hu'
    refine ⟨r, by simp [hl], hk, ?_, ?_, ?_⟩
    · rw [hbefore.lives, hl, stateOf_middle hu, hstate]
      rfl
    · have hst := @stateOf_middle { r with state := .consumed } l₁ l₂ hu'
      rw [hafter.lives, hl', hst]
      rfl
    · intro a ha hne
      rw [hl, List.mem_append, List.mem_cons] at ha
      rw [hl', List.mem_append, List.mem_cons]
      rcases ha with ha | rfl | ha
      · exact .inl ha
      · exact absurd rfl hne
      · exact .inr (.inr ha)

/-! ### A shop whose agent asks a human -/

def decideOutside (s : Shared) : ApprovalEvent → Option Shared
  | .gateway (.control _) => none
  | .gateway e => outside s e
  | .decide approvalId approved =>
    some { s with control := (decideApproval s.control approvalId approved).1 }
  | .agents agents => some { s with control := { s.control with agents := agents } }

theorem decideOutside_sound {s s' : Shared} {e : ApprovalEvent}
    (h : decideOutside s e = some s') : ApprovalOutside s e s' := by
  unfold decideOutside at h
  split at h
  · cases h
  · rename_i e he
    exact .gateway (fun control hc => he control (hc ▸ rfl)) (outside_sound h)
  · obtain rfl := Option.some.inj h
    exact .decide
  · obtain rfl := Option.some.inj h
    exact .agents

/-- A schedule of purchases and decisions without failures, the last label first. -/
def playApprovals (cfg : Config) (g : Gateway) (ls : List ApprovalLabel) :
    History Gateway ApprovalLabel × Gateway :=
  RequestPool.play (fun r => decide (Arrives r)) (move cfg) decideOutside g ls

theorem playApprovals_run (cfg : Config) (g : Gateway) (ls : List ApprovalLabel) :
    Run (ApprovalStep cfg) g (playApprovals cfg g ls).1 (playApprovals cfg g ls).2 := by
  refine RequestPool.play_run ?_ ?_ ?_ g ls
  · intro r hr
    exact of_decide_eq_true hr
  · intro s r
    exact .gateway .handler
  · intro s e s' he
    exact decideOutside_sound he

namespace Shop
export SpendingEnvelope.Shop (agent session config record buy claim500 signature500)

/-- The agent asks a human before it buys. -/
def supervised : Gateway :=
  ⟨⟨.empty, ⟨[⟨['a'], agent, .human, .active, none, some ⟨1000, 1000, none, none, some 5⟩⟩], []⟩⟩,
    []⟩

/-- The first purchase raises a proposal. -/
def proposed : List ApprovalLabel :=
  [.advance 0, .advance 0, .advance 0, .advance 0, .advance 0, .advance 0,
    .arrive (buy 500 claim500 signature500), .outside (.gateway (.openSession (record session)))]

/-- The proposal is approved, the agent asks again and is served; a second decision on the same
proposal comes too late. -/
def approved : History Gateway ApprovalLabel × Gateway := playApprovals config supervised
  ([.outside (.decide ['1'] false), .advance 1, .advance 1, .advance 1, .advance 1, .advance 1,
    .advance 1, .arrive (buy 500 claim500 signature500), .outside (.decide ['1'] true)] ++ proposed)

def key : Key := ⟨['a'], ['/', 'a'], 500⟩

end Shop

/-- One decision, one purchase, and the approval is used up. -/
theorem approvals_spent_once_shop :
    passes Shop.key Shop.approved.1 = 1 ∧ grants Shop.key Shop.approved.1 = 1 ∧
      states ['1'] Shop.approved.1 = [.pending, .approved, .consumed] ∧
      SpentOnce Shop.approved.1 := by
  have hrun : Run (ApprovalStep Shop.config) Shop.supervised Shop.approved.1 Shop.approved.2 :=
    playApprovals_run _ _ _
  exact ⟨by decide +kernel, by decide +kernel, by decide +kernel, approvals_spent_once hrun rfl⟩

end AgentPay.ApprovalRuns
