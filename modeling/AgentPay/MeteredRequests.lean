import AgentPay.LoneRequests
import AgentPay.PaidInFull
import AgentPay.PoolErasures
import AgentPay.SpendingEnvelope

/-!
# Purchases with their billing rows

The moves of `PaidRequests` with the rows that `meter` writes. A handler that has decided
waits for its row before it answers or forwards, and the row may be lost. A database call of
the handler may fail, which is a move of its own, and a request may be cut short anywhere.

Without the rows these are the requests as they are: `metering_never_decides` says that in
both directions. The rows of a session are compared with its mark in `meter_agrees_with_mark`.
Where no row is lost they cover it, and where every purchase was admitted for its price they
are equal to it. A row tells a decision: what becomes of the request to the provider after an
admission is not in it.
-/
namespace AgentPay.MeteredRequests
open SolanaRuntime GatewayClaims EvidenceLog SessionStore StoreRuns PolicyRules
open ControlPlane PaidRequests PaidInFull SpendingEnvelope LoneRequests RequestPool PoolErasures
open Fallible Runs

structure AgentIdentity where
  agentId : Option Text
  workspaceId : Option Text
deriving DecidableEq

def AgentIdentity.unregistered : AgentIdentity := ⟨none, none⟩

def identityOf (a : AgentRecord) : AgentIdentity := ⟨some a.agentId, a.workspaceId⟩

/-- `ReasonCode::as_str` for the codes a purchase can be denied with. Metering and the answer
use the same texts. -/
def asStr : ReasonCode → String
  | .sessionUnknown => "ERR_SESSION_UNKNOWN"
  | .sessionAlreadyOpen => "ERR_SESSION_ALREADY_OPEN"
  | .sessionExpired => "ERR_SESSION_EXPIRED"
  | .sessionSettled => "ERR_SESSION_SETTLED"
  | .claimExpired => "ERR_CLAIM_EXPIRED"
  | .claimNotMonotonic => "ERR_CLAIM_NOT_MONOTONIC"
  | .nonceNotMonotonic => "ERR_NONCE_NOT_MONOTONIC"
  | .claimExceedsDeposit => "ERR_CLAIM_EXCEEDS_DEPOSIT"
  | .invalidSignature => "ERR_INVALID_SIGNATURE"
  | .nothingToSettle => "ERR_NOTHING_TO_SETTLE"
  | .wrongProviderKey => "ERR_WRONG_PROVIDER_KEY"
  | .wrongProgramOwner => "ERR_WRONG_PROGRAM_OWNER"
  | .settlementUnavailable => "ERR_SETTLEMENT_UNAVAILABLE"
  | .settlementFailed => "ERR_SETTLEMENT_FAILED"
  | .sessionAccountNotFound => "ERR_SESSION_ACCOUNT_NOT_FOUND"
  | .depositMismatch => "ERR_DEPOSIT_MISMATCH"
  | .sessionFieldMismatch => "ERR_SESSION_FIELD_MISMATCH"
  | .notASessionAccount => "ERR_NOT_A_SESSION_ACCOUNT"
  | .chainUnavailable => "ERR_CHAIN_UNAVAILABLE"
  | .priceMismatch => "ERR_PRICE_MISMATCH"
  | .agentSuspended => "ERR_AGENT_SUSPENDED"
  | .agentPolicyRequired => "ERR_AGENT_POLICY_REQUIRED"
  | .policyResourceNotAllowed => "ERR_POLICY_RESOURCE_NOT_ALLOWED"
  | .policyPriceCap => "ERR_POLICY_PRICE_CAP"
  | .policyBudget => "ERR_POLICY_BUDGET"
  | .policyCallLimit => "ERR_POLICY_CALL_LIMIT"
  | .approvalRequired => "ERR_APPROVAL_REQUIRED"
  | .controlPlaneUnavailable => "ERR_CONTROL_PLANE_UNAVAILABLE"
  | .storeUnavailable => "ERR_STORE_UNAVAILABLE"

structure UsageEvent where
  workspaceId : Option Text
  providerId : Option Text
  agentId : Option Text
  session : Option Pubkey
  resource : Text
  price : UInt64
  decision : String
deriving DecidableEq

/-- A row of `usage_records`, without its own id and the period it is billed in. -/
structure UsageRow where
  workspaceId : Option Text
  providerId : Option Text
  agentId : Option Text
  session : Option Pubkey
  resource : Text
  price : Int64
  decision : String
deriving DecidableEq

/-- The price is clamped rather than dropped. Writing the row is a move of its own, which may
lose it. -/
def UsageEvent.row (e : UsageEvent) : UsageRow :=
  ⟨e.workspaceId, e.providerId, e.agentId, e.session, e.resource, (clampI64 e.price).toInt64,
    e.decision⟩

def defaultProviderId : Text := "default".toList

/-- The event of one decision of `buy`. Writing it is a call of its own that may fail, and a
failure is logged and forgotten. -/
def meter (identity : AgentIdentity) (session : Pubkey) (resource : Text) (price : UInt64)
    (decision : String) : UsageEvent :=
  ⟨identity.workspaceId, some defaultProviderId, identity.agentId, some session, resource, price,
    decision⟩

/-- What `enforce_agent_policy` returned. -/
def Clearance.identity : Clearance → AgentIdentity
  | .unregistered => .unregistered
  | .unrestricted agent => identityOf agent
  | .evaluated agent _ _ => identityOf agent
  | .unchecked => .unregistered

section Usage
variable (cfg : Config) (s : Shared) (r : Request) (resource : Text) (price : UInt64)

/-- The identity and the decision the next move of a purchase meters. -/
def decided : Stage → Option (AgentIdentity × String)
  | .authenticated record =>
    match getAgentByPubkey s.control record.agent with
    | .ok (some agent) =>
      if agent.status ≠ .active then some (identityOf agent, asStr .agentSuspended) else none
    | _ => none
  | .identified record agent policy =>
    match agentSpend s.db record.agent with
    | .error _ => none
    | .ok spend =>
      match evaluate agent.status agent.mode policy resource price spend with
      | .refuse refusal => some (identityOf agent, asStr (policyDenial refusal))
      | _ => none
  | .unapproved agent =>
    match hasPendingApproval s.control agent.agentId resource price with
    | .ok false => none
    | _ => some (identityOf agent, asStr .approvalRequired)
  | .proposing agent => some (identityOf agent, asStr .approvalRequired)
  | .cleared _ clearance =>
    match admitClaim cfg.sha256 s.db r.claim r.signature r.now with
    | .error _ => none
    | .ok (_, .error rejection) =>
      some (Clearance.identity clearance, asStr (claimDenial rejection))
    | .ok (_, .ok _) => some (Clearance.identity clearance, "ALLOWED")
  | _ => none

/-- The same when the call of the move fails. -/
def decidedFailing : Stage → Option (AgentIdentity × String)
  | .unapproved agent => some (identityOf agent, asStr .approvalRequired)
  | .proposing agent => some (identityOf agent, asStr .approvalRequired)
  | _ => none

end Usage

def usageOf (r : Request) (decision : Text → UInt64 → Option (AgentIdentity × String)) :
    Option UsageEvent :=
  match r.kind with
  | .buy resource price =>
    (decision resource price).map fun d => meter d.1 r.claim.session resource price d.2
  | .verify => none

def usage (cfg : Config) (s : Shared) (r : Request) : Option UsageEvent :=
  usageOf r fun resource price => decided cfg s r resource price r.stage

def usageFailing (r : Request) : Option UsageEvent := usageOf r fun _ _ => decidedFailing r.stage

/-! ### The requests without their rows -/

/-- A move of the handler, one whose call fails, or none any more. -/
inductive Attempt (cfg : Config) : Shared → Request → Shared → Request → Prop
  | handler {s : Shared} {r : Request} :
      Attempt cfg s r (advance cfg s r).1 { r with stage := (advance cfg s r).2 }
  | failing {s : Shared} {r : Request} : Attempt cfg s r s { r with stage := failed r.stage }
  | interrupted {s : Shared} {r : Request} :
      Attempt cfg s r s { r with stage := r.stage.interrupted }

def PlainStep (cfg : Config) : Gateway → GatewayLabel → Gateway → Prop :=
  Step Arrives (Attempt cfg) Outside

/-! ### The requests with their rows -/

/-- A request and the event it is about to write. -/
structure MeteredRequest where
  request : Request
  pending : Option UsageEvent
deriving DecidableEq

structure MeteredShared where
  shared : Shared
  rows : List UsageRow

abbrev MeteredGateway := Pool MeteredShared MeteredRequest
abbrev MeteredLabel := RequestPool.Label MeteredRequest Event

/-- A move of the request, or the writing of the row it then owes. The row is inserted, lost
to an error of the database or, with the request, to the deadline: nothing tries again. -/
inductive MeteredMove (cfg : Config) : MeteredShared → MeteredRequest → MeteredShared →
    MeteredRequest → Prop
  | handler {s : Shared} {rows : List UsageRow} {r : Request} :
      MeteredMove cfg ⟨s, rows⟩ ⟨r, none⟩ ⟨(advance cfg s r).1, rows⟩
        ⟨{ r with stage := (advance cfg s r).2 }, usage cfg s r⟩
  | failing {s : Shared} {rows : List UsageRow} {r : Request} :
      MeteredMove cfg ⟨s, rows⟩ ⟨r, none⟩ ⟨s, rows⟩
        ⟨{ r with stage := failed r.stage }, usageFailing r⟩
  | written {s : Shared} {rows : List UsageRow} {r : Request} {e : UsageEvent} :
      MeteredMove cfg ⟨s, rows⟩ ⟨r, some e⟩ ⟨s, rows ++ [e.row]⟩ ⟨r, none⟩
  | lost {s : Shared} {rows : List UsageRow} {r : Request} {e : UsageEvent} :
      MeteredMove cfg ⟨s, rows⟩ ⟨r, some e⟩ ⟨s, rows⟩ ⟨r, none⟩
  | interrupted {s : Shared} {rows : List UsageRow} {r : Request} {p : Option UsageEvent} :
      MeteredMove cfg ⟨s, rows⟩ ⟨r, p⟩ ⟨s, rows⟩ ⟨{ r with stage := r.stage.interrupted }, none⟩

def MeteredArrives (m : MeteredRequest) : Prop := Arrives m.request ∧ m.pending = none

/-- The outside of the gateway without metering. It writes no usage rows, and rows that were
written are neither changed nor removed. -/
def MeteredOutside (s : MeteredShared) (e : Event) (t : MeteredShared) : Prop :=
  Outside s.shared e t.shared ∧ t.rows = s.rows

def MeteredStep (cfg : Config) : MeteredGateway → MeteredLabel → MeteredGateway → Prop :=
  Step MeteredArrives (MeteredMove cfg) MeteredOutside

/-- The gateway without the rows, and without the events that requests still owe. -/
def plain (g : MeteredGateway) : Gateway := erase MeteredShared.shared MeteredRequest.request g

/-- A move that has an event writes its row. -/
def kept (t : Transition MeteredGateway MeteredLabel) : Bool :=
  match t.label with
  | .advance n =>
    match t.before.requests[n]? with
    | some ⟨_, some e⟩ => t.after.shared.rows = t.before.shared.rows ++ [e.row]
    | _ => true
  | _ => true

/-! ### Metering never decides -/
section Decisions
variable {cfg : Config} {g g' : Gateway} {l : GatewayLabel}

theorem plain_move {s s' : MeteredShared} {m m' : MeteredRequest} (h : MeteredMove cfg s m s' m') :
    Attempt cfg s.shared m.request s'.shared m'.request ∨
      s'.shared = s.shared ∧ m'.request = m.request := by
  cases h with
  | handler => exact .inl .handler
  | failing => exact .inl .failing
  | written => exact .inr ⟨rfl, rfl⟩
  | lost => exact .inr ⟨rfl, rfl⟩
  | interrupted => exact .inl .interrupted

def Wanted (keep : Bool) (t : Transition MeteredGateway MeteredLabel) : Prop :=
  if keep then kept t = true else t.after.shared.rows = t.before.shared.rows

/-- The metered gateway is this one, and waits for no row. -/
def Carries (g : Gateway) (m : MeteredGateway) : Prop :=
  plain m = g ∧ ∀ x ∈ m.requests, x.pending = none

theorem Carries.request {m : MeteredGateway} (hc : Carries g m) {n : ℕ} {r : Request}
    (hr : g.requests[n]? = some r) : m.requests[n]? = some ⟨r, none⟩ := by
  obtain ⟨rfl, hpending⟩ := hc
  simp only [plain, erase, List.getElem?_map, Option.map_eq_some_iff] at hr
  obtain ⟨⟨r', p⟩, hx, rfl⟩ := hr
  have hnone : p = none := hpending _ (List.mem_of_getElem? hx)
  rw [hx, hnone]

theorem Carries.parts {s : Shared} {rs : List Request} {m : MeteredGateway}
    (hc : Carries ⟨s, rs⟩ m) : ∃ rows ms, m = ⟨⟨s, rows⟩, ms⟩ ∧ rs = ms.map MeteredRequest.request ∧
      ∀ x ∈ ms, x.pending = none := by
  obtain ⟨⟨s₀, rows⟩, ms⟩ := m
  obtain ⟨hplain, hpending⟩ := hc
  simp only [plain, erase, Pool.mk.injEq] at hplain
  obtain ⟨rfl, rfl⟩ := hplain
  exact ⟨rows, ms, rfl, rfl, hpending⟩

/-- A request that waits for its row writes or loses it. -/
theorem flush (keep : Bool) {s : Shared} {rows : List UsageRow} {ms : List MeteredRequest} {n : ℕ}
    {r : Request} {p : Option UsageEvent} (hlt : n < ms.length) :
    ∃ (h : History MeteredGateway MeteredLabel) (rows' : List UsageRow),
      Run (MeteredStep cfg) ⟨⟨s, rows⟩, ms.set n ⟨r, p⟩⟩ h ⟨⟨s, rows'⟩, ms.set n ⟨r, none⟩⟩ ∧
        ∀ t ∈ h, Wanted keep t := by
  have hget : ∀ p : Option UsageEvent, (ms.set n ⟨r, p⟩)[n]? = some ⟨r, p⟩ := fun p => by simp [hlt]
  rcases p with _ | e
  · exact ⟨[], rows, .start, fun _ ht => absurd ht List.not_mem_nil⟩
  · have hset : (ms.set n ⟨r, some e⟩).set n ⟨r, none⟩ = ms.set n ⟨r, none⟩ := List.set_set _
    cases keep with
    | true =>
      have hstep : MeteredStep cfg ⟨⟨s, rows⟩, ms.set n ⟨r, some e⟩⟩ (.advance n)
          ⟨⟨s, rows ++ [e.row]⟩, (ms.set n ⟨r, some e⟩).set n ⟨r, none⟩⟩ :=
        .advance (hget (some e)) .written
      rw [hset] at hstep
      refine ⟨[⟨_, _, _⟩], rows ++ [e.row], Run.start.step hstep, ?_⟩
      refine List.forall_mem_singleton.mpr ?_
      simp [Wanted, kept, hlt]
    | false =>
      have hstep : MeteredStep cfg ⟨⟨s, rows⟩, ms.set n ⟨r, some e⟩⟩ (.advance n)
          ⟨⟨s, rows⟩, (ms.set n ⟨r, some e⟩).set n ⟨r, none⟩⟩ :=
        .advance (hget (some e)) .lost
      rw [hset] at hstep
      refine ⟨[⟨_, _, _⟩], rows, Run.start.step hstep, ?_⟩
      refine List.forall_mem_singleton.mpr ?_
      simp [Wanted]

/-- A step that moves no waiting request loses no row. -/
theorem wanted_of_rows {keep : Bool} {t : Transition MeteredGateway MeteredLabel}
    (hrows : t.after.shared.rows = t.before.shared.rows)
    (hidle : ∀ n, t.label = .advance n → ∀ r e, t.before.requests[n]? ≠ some ⟨r, some e⟩) :
    Wanted keep t := by
  cases keep with
  | false => exact hrows
  | true =>
    unfold Wanted kept
    simp only [↓reduceIte]
    split
    · rename_i n hl
      split
      · rename_i r e he
        exact absurd he (hidle n hl r e)
      · rfl
    · rfl

/-- A move of a request that waits for no row, with the row it meters. -/
theorem carries_move (keep : Bool) {s s' : Shared} {rs : List Request} {n : ℕ} {r r' : Request}
    {m : MeteredGateway} {p : Option UsageEvent} (hc : Carries ⟨s, rs⟩ m) (hr : rs[n]? = some r)
    (hm : ∀ rows, MeteredMove cfg ⟨s, rows⟩ ⟨r, none⟩ ⟨s', rows⟩ ⟨r', p⟩) :
    ∃ h' m', Run (MeteredStep cfg) m h' m' ∧ Carries ⟨s', rs.set n r'⟩ m' ∧
      ∀ t ∈ h', Wanted keep t := by
  have hget := hc.request hr
  obtain ⟨rows, ms, rfl, rfl, hpending⟩ := hc.parts
  have hlt : n < ms.length := (List.getElem?_eq_some_iff.mp hget).1
  obtain ⟨h', rows', hrun, hwanted⟩ := @flush cfg keep s' rows ms n r' p hlt
  have hfirst : MeteredStep cfg ⟨⟨s, rows⟩, ms⟩ (.advance n) ⟨⟨s', rows⟩, ms.set n ⟨r', p⟩⟩ :=
    .advance hget (hm rows)
  refine ⟨h' ++ [_], _, (Run.start.step hfirst).append hrun, ?_, ?_⟩
  · refine ⟨?_, ?_⟩
    · simp [plain, erase, List.map_set]
    · intro x hx
      rcases List.mem_or_eq_of_mem_set hx with hx | rfl
      · exact hpending x hx
      · rfl
  · refine List.forall_mem_append.mpr ⟨hwanted, List.forall_mem_singleton.mpr ?_⟩
    refine wanted_of_rows rfl fun k hk x e hx => ?_
    cases hk
    exact absurd (Option.some.inj (hget.symm.trans hx)) (by simp)

theorem carries_step (keep : Bool) {m : MeteredGateway} (hc : Carries g m)
    (h : PlainStep cfg g l g') :
    ∃ h' m', Run (MeteredStep cfg) m h' m' ∧ Carries g' m' ∧ ∀ t ∈ h', Wanted keep t := by
  cases h with
  | @advance s s' rs r r' n hr hm =>
    cases hm with
    | handler => exact carries_move keep hc hr fun rows => .handler
    | failing => exact carries_move keep hc hr fun rows => .failing
    | interrupted => exact carries_move keep hc hr fun rows => .interrupted
  | @arrive s rs r ha =>
    obtain ⟨rows, ms, rfl, rfl, hpending⟩ := hc.parts
    have hstep : MeteredStep cfg ⟨⟨s, rows⟩, ms⟩ (.arrive ⟨r, none⟩)
        ⟨⟨s, rows⟩, ms ++ [⟨r, none⟩]⟩ := .arrive ⟨ha, rfl⟩
    refine ⟨[_], _, Run.start.step hstep, ⟨by simp [plain, erase], ?_⟩, ?_⟩
    · exact List.forall_mem_append.mpr ⟨hpending, List.forall_mem_singleton.mpr rfl⟩
    · refine List.forall_mem_singleton.mpr (wanted_of_rows rfl fun n hn => ?_)
      cases hn
  | @outside s s' rs e ho =>
    obtain ⟨rows, ms, rfl, rfl, hpending⟩ := hc.parts
    have hstep : MeteredStep cfg ⟨⟨s, rows⟩, ms⟩ (.outside e) ⟨⟨s', rows⟩, ms⟩ :=
      .outside ⟨ho, rfl⟩
    refine ⟨[_], _, Run.start.step hstep, ⟨rfl, hpending⟩, ?_⟩
    refine List.forall_mem_singleton.mpr (wanted_of_rows rfl fun n hn => ?_)
    cases hn

/-- Without its rows the metered gateway runs as the gateway does, and every run of the
gateway is one of the metered gateway, with all of its rows written and with none. -/
theorem metering_never_decides (cfg : Config) (m : MeteredGateway)
    (hm : ∀ x ∈ m.requests, x.pending = none) :
    (∀ h t, Run (MeteredStep cfg) m h t → ∃ h', Run (PlainStep cfg) (plain m) h' (plain t)) ∧
      ∀ keep h g, Run (PlainStep cfg) (plain m) h g → ∃ h' t, Run (MeteredStep cfg) m h' t ∧
        plain t = g ∧ ∀ x ∈ h', Wanted keep x := by
  refine ⟨fun h t hr => ?_, fun keep h g hr => ?_⟩
  · have harrives : ∀ x, MeteredArrives x → Arrives x.request := fun _ ha => ha.1
    have houtside : ∀ s e s', MeteredOutside s e s' → Outside s.shared e s'.shared :=
      fun _ _ _ ho => ho.1
    exact erase_run harrives (fun s r s' r' hm => plain_move hm) houtside hr
  · obtain ⟨h', t, hrun, ⟨hplain, -⟩, hwanted⟩ := lift_run (R := Carries) (C := Wanted keep)
      (fun s i u s' hc hs => carries_step keep hc hs) hr ⟨rfl, hm⟩
    exact ⟨h', t, hrun, hplain, hwanted⟩

end Decisions

/-! ### What is billed -/
section Billing
variable (key : Pubkey)

/-- The row bills a purchase of the session. -/
def UsageRow.bills (row : UsageRow) : Bool := row.session = some key && row.decision = "ALLOWED"

def billed (rows : List UsageRow) : ℕ :=
  ((rows.filter (UsageRow.bills key)).map fun row => row.price.toInt.toNat).sum

def owed (m : MeteredRequest) : ℕ := billed key (m.pending.map UsageEvent.row).toList

/-- What a request added to the mark of the session. -/
def admittedFor (r : Request) : ℕ :=
  match r.stage.accepted? with
  | some (_, acc) => if r.claim.session = key then acc.delta.toNat else 0
  | none => 0

/-- The part of it that no purchase added. -/
def verifiedFor (r : Request) : ℕ := if r.kind = .verify then admittedFor key r else 0

end Billing

section Rows
variable {key session : Pubkey} {identity : AgentIdentity} {resource : Text} {price : UInt64}

theorem asStr_ne_allowed (code : ReasonCode) : asStr code ≠ "ALLOWED" := by
  cases code <;> decide

theorem billed_append (rows rows' : List UsageRow) :
    billed key (rows ++ rows') = billed key rows + billed key rows' := by
  simp [billed]

theorem billed_denied (code : ReasonCode) :
    billed key [(meter identity session resource price (asStr code)).row] = 0 := by
  simp [billed, UsageRow.bills, UsageEvent.row, meter, asStr_ne_allowed]

theorem billed_allowed (h : price.toNat < 2 ^ 63) :
    billed key [(meter identity session resource price "ALLOWED").row] =
      if session = key then price.toNat else 0 := by
  have hprice : (clampI64 price).toInt64.toInt.toNat = price.toNat := by
    rw [clampI64_toInt]
    omega
  by_cases hk : session = key
  · simp [billed, UsageRow.bills, UsageEvent.row, meter, hk, -Int64.toNat_toInt, hprice]
  · simp [billed, UsageRow.bills, UsageEvent.row, meter, hk]

end Rows

section Amounts
variable {cfg : Config} {s s' : Shared} {r : Request} {stage : Stage} {key : Pubkey}

theorem attempt_next {r' : Request} (h : Attempt cfg s r s' r') :
    r' = { r with stage := r'.stage } ∧ Next cfg s r s' r'.stage := by
  cases h with
  | handler => exact ⟨rfl, next_advance⟩
  | interrupted => exact ⟨rfl, next_interrupted⟩
  | failing =>
    refine ⟨rfl, ?_⟩
    by_cases hidle : failed r.stage = r.stage
    · rw [hidle]
      exact .idle
    · cases h : r.stage with
      | admitted record accepted => exact .unserved h
      | served | unserved | denied =>
        rw [h] at hidle
        exact absurd rfl hidle
      | _ => exact .denied rfl (by rw [h]; rfl)

theorem outside_mark {e : Event} (h : Outside s e s') (k : Pubkey) :
    s'.db.mark k = s.db.mark k := by
  have htickets : s'.db.tickets k = s.db.tickets k := by
    cases h with
    | control => rfl
    | openSession hok =>
      obtain ⟨d, -, -, -, rfl⟩ := openRecord_eq_ok hok
      rfl
    | markSettled =>
      simp only [markSettled, markSessionSettled]
      split
      · split_ifs <;> rfl
      · rfl
    | markChainVerified hok =>
      unfold SessionStore.markChainVerified at hok
      split at hok
      · rw [pure_eq_ok] at hok
        rw [← hok]
        rfl
      · cases hok
  unfold Database.mark
  rw [amount_congr htickets]

theorem admittedFor_same (h : stage.accepted? = r.stage.accepted?) :
    admittedFor key { r with stage := stage } = admittedFor key r := by
  simp only [admittedFor, h]

theorem mark_same (h : Next cfg s r s' stage) (hsame : stage.accepted? = r.stage.accepted?)
    (k : Pubkey) : s'.db.mark k = s.db.mark k := by
  cases h with
  | denied hdb _ => rw [hdb]
  | refused _ hok =>
    unfold Database.mark
    cases admitClaim_effect hok with
    | refused _ _ _ => rw [amount_pushEvidence]
    | unchanged => rfl
  | admitted hstage hok =>
    rw [hstage] at hsame
    cases hsame
  | _ => rfl

/-- An admission adds its amount to the mark, and nothing else moves it. -/
theorem mark_next (h : Next cfg s r s' stage) :
    s'.db.mark key + admittedFor key r =
      s.db.mark key + admittedFor key { r with stage := stage } := by
  rcases next_accepted h with hsame | ⟨record, clearance, db, acc, hstage, hok, rfl, rfl⟩
  · rw [admittedFor_same hsame, mark_same h hsame]
  · have hnone : admittedFor key r = 0 := by
      unfold admittedFor
      rw [hstage]
      rfl
    have hsome : admittedFor key { r with stage := .admitted record acc } =
        if r.claim.session = key then acc.delta.toNat else 0 := rfl
    rw [hnone, hsome]
    cases admitClaim_effect hok with
    | accepted ha =>
      have hmark := ha.mark
      rw [ha.mark_after key]
      split_ifs with hk hk' hk'
      · rw [← hk] at hmark
        omega
      · exact absurd hk.symm hk'
      · exact absurd hk'.symm hk
      · rfl

/-- A purchase is admitted for its price at the most. -/
theorem delta_le_price {record : SessionRecord} {clearance : Clearance} {resource : Text}
    {price : UInt64} {db : Database} {acc : ClaimAccepted} (hp : Priced r) (hg : Grounded s r)
    (hstage : r.stage = .cleared record clearance) (hkind : r.kind = .buy resource price)
    (hok : admitClaim cfg.sha256 s.db r.claim r.signature r.now = .ok (db, .ok acc)) :
    acc.delta.toNat ≤ price.toNat ∧ price.toNat < 2 ^ 63 := by
  have hsum := hp record resource price (by rw [hstage]; rfl) hkind
  obtain ⟨row, -, -, hle⟩ := hg record (by rw [hstage]; rfl)
  cases admitClaim_effect hok with
  | @accepted _ row' _ _ ha =>
    have hmark := ha.mark
    have hwithin := ha.within
    have hlt := row'.depositedTotal.toInt_lt
    omega

/-- A decision that is metered is a refusal, or the admission that the move makes. -/
theorem decided_cases {resource : Text} {price : UInt64} {d : AgentIdentity × String}
    (h : decided cfg s r resource price stage = some d) : (∃ code, d.2 = asStr code) ∨
      ∃ record clearance db acc, stage = .cleared record clearance ∧
        admitClaim cfg.sha256 s.db r.claim r.signature r.now = .ok (db, .ok acc) := by
  unfold decided at h
  split at h
  · split at h
    · split_ifs at h
      cases h
      exact .inl ⟨.agentSuspended, rfl⟩
    · cases h
  · split at h
    · cases h
    · split at h
      · cases h
        exact .inl ⟨_, rfl⟩
      · cases h
  · split at h
    · cases h
    · cases h
      exact .inl ⟨.approvalRequired, rfl⟩
  · cases h
    exact .inl ⟨.approvalRequired, rfl⟩
  · split at h
    · cases h
    · cases h
      exact .inl ⟨_, rfl⟩
    · rename_i record clearance _ db acc hok
      exact .inr ⟨record, clearance, db, acc, rfl, hok⟩
  · cases h

theorem owed_usageOf {r' : Request} {decision : Text → UInt64 → Option (AgentIdentity × String)}
    (h : ∀ resource price d, r.kind = .buy resource price → decision resource price = some d →
      ∃ code, d.2 = asStr code) : owed key ⟨r', usageOf r decision⟩ = 0 := by
  unfold owed usageOf
  rcases hk : r.kind with ⟨resource, price⟩ | _
  · simp only
    rcases hd : decision resource price with _ | d
    · rfl
    · obtain ⟨code, hcode⟩ := h resource price d hk hd
      simp only [Option.map_some, Option.toList_some, hcode]
      exact billed_denied code
  · rfl

/-- What a handler has to bill after a move is what the move admitted. -/
theorem owed_usage (hp : Priced r) (hg : Grounded s r) :
    owed key ⟨{ r with stage := (advance cfg s r).2 }, usage cfg s r⟩ + paidPrice key r =
      paidPrice key { r with stage := (advance cfg s r).2 } := by
  rcases next_accepted (@next_advance cfg s r) with hsame |
    ⟨record, clearance, db, acc, hstage, hok, -, hadmitted⟩
  · rw [paidPrice_same hsame]
    have hzero : owed key ⟨{ r with stage := (advance cfg s r).2 }, usage cfg s r⟩ = 0 := by
      refine owed_usageOf fun resource price d _ hd => ?_
      rcases decided_cases hd with hcode | ⟨record, clearance, db, acc, hstage, hok⟩
      · exact hcode
      · have hadvance : (advance cfg s r).2 = .admitted record acc := by
          unfold advance admitRequest
          simp only [hstage, hok]
        rw [hadvance, hstage] at hsame
        cases hsame
    rw [hzero, Nat.zero_add]
  · rw [hadmitted]
    rcases hk : r.kind with ⟨resource, price⟩ | _
    · obtain ⟨-, hlt⟩ := delta_le_price hp hg hstage hk hok
      have husage : usage cfg s r =
          some (meter (Clearance.identity clearance) r.claim.session resource price "ALLOWED") := by
        simp only [usage, usageOf, hk, hstage, decided, hok, Option.map_some]
      rw [husage]
      simp only [owed, Option.map_some, Option.toList_some, billed_allowed hlt, paidPrice, hk,
        hstage, Stage.accepted?]
      simp
    · rw [paidPrice_other (.inl hk), paidPrice_other (.inl rfl)]
      refine owed_usageOf fun resource price d hbuy _ => ?_
      rw [hk] at hbuy
      cases hbuy

theorem owed_usageFailing {r' : Request} : owed key ⟨r', usageFailing r⟩ = 0 := by
  refine owed_usageOf fun resource price d _ hd => ?_
  unfold decidedFailing at hd
  split at hd
  · cases hd
    exact ⟨.approvalRequired, rfl⟩
  · cases hd
    exact ⟨.approvalRequired, rfl⟩
  · cases hd

theorem accepted_failed (stage : Stage) : (failed stage).accepted? = stage.accepted? := by
  cases stage <;> rfl

theorem accepted_interrupted (stage : Stage) : stage.interrupted.accepted? = stage.accepted? := by
  cases stage <;> rfl

theorem owed_none (r : Request) : owed key ⟨r, none⟩ = 0 := rfl

/-- What is billed and owed grows by what a move admits at the most, and by exactly that if
no row is lost. -/
theorem billed_move {s s' : MeteredShared} {m m' : MeteredRequest} (h : MeteredMove cfg s m s' m')
    (hp : Priced m.request) (hg : Grounded s.shared m.request) :
    billed key s'.rows + owed key m' + paidPrice key m.request ≤
        billed key s.rows + owed key m + paidPrice key m'.request ∧
      ((∀ e, m.pending = some e → s'.rows = s.rows ++ [e.row]) →
        billed key s'.rows + owed key m' + paidPrice key m.request =
          billed key s.rows + owed key m + paidPrice key m'.request) := by
  cases h with
  | @handler s rows r =>
    have howed := @owed_usage cfg s r key hp hg
    have hnone := @owed_none key r
    simp only
    omega
  | @failing s rows r =>
    have howed := @owed_usageFailing r key { r with stage := failed r.stage }
    have hnone := @owed_none key r
    have hprice := @paidPrice_same r _ key (accepted_failed r.stage)
    simp only
    omega
  | @written s rows r e =>
    have hrows := @billed_append key rows [e.row]
    have howed : owed key ⟨r, some e⟩ = billed key [e.row] := rfl
    have hnone := @owed_none key r
    simp only
    omega
  | @lost s rows r e =>
    have hnone := @owed_none key r
    refine ⟨by simp only; omega, fun hkept => ?_⟩
    have hrows : rows = rows ++ [e.row] := hkept e rfl
    simp at hrows
  | @interrupted s rows r p =>
    have hnone := @owed_none key { r with stage := r.stage.interrupted }
    have hprice := @paidPrice_same r _ key (accepted_interrupted r.stage)
    refine ⟨by simp only; omega, fun hkept => ?_⟩
    rcases p with _ | e
    · have hnone' := @owed_none key r
      simp only
      omega
    · have hrows : rows = rows ++ [e.row] := hkept e rfl
      simp at hrows

end Amounts

/-! ### Runs -/

/-- What holds of the purchases of a session, whatever becomes of their rows. -/
structure Metered (key : Pubkey) (start : ℕ) (g : MeteredGateway) : Prop where
  priced : Each (fun _ m => Priced m.request) g
  grounded : Each (fun s m => Grounded s.shared m.request) g
  within : Each (fun _ m => m.request.kind ≠ .verify →
    admittedFor key m.request ≤ paidPrice key m.request) g
  mark : start + total (fun m => admittedFor key m.request) g.requests =
    g.shared.shared.db.mark key

section Runs
variable {cfg : Config} {g g' : MeteredGateway} {l : MeteredLabel} {key : Pubkey} {start : ℕ}

theorem within_next {s s' : Shared} {r : Request} {stage : Stage} (h : Next cfg s r s' stage)
    (hp : Priced r) (hg : Grounded s r)
    (hw : r.kind ≠ .verify → admittedFor key r ≤ paidPrice key r) (hbuy : r.kind ≠ .verify) :
    admittedFor key { r with stage := stage } ≤ paidPrice key { r with stage := stage } := by
  rcases next_accepted h with hsame | ⟨record, clearance, db, acc, hstage, hok, -, rfl⟩
  · rw [admittedFor_same hsame, paidPrice_same hsame]
    exact hw hbuy
  · obtain ⟨resource, price, hk⟩ := kind_of_ne_verify hbuy
    obtain ⟨hle, -⟩ := delta_le_price hp hg hstage hk hok
    by_cases hkey : r.claim.session = key
    · simpa [admittedFor, paidPrice, Stage.accepted?, hk, hkey] using hle
    · simp [admittedFor, Stage.accepted?, hkey]

/-- To the request, writing or losing its row is no move. -/
theorem metered_next {s s' : MeteredShared} {m m' : MeteredRequest}
    (h : MeteredMove cfg s m s' m') :
    m'.request = { m.request with stage := m'.request.stage } ∧
      Next cfg s.shared m.request s'.shared m'.request.stage := by
  rcases plain_move h with hm | ⟨hs, hr⟩
  · exact attempt_next hm
  · rw [hs, hr]
    exact ⟨rfl, .idle⟩

theorem metered_grows (h : MeteredStep cfg g l g') :
    Grows g.shared.shared.db g'.shared.shared.db := by
  cases h with
  | arrive _ => exact .refl _
  | advance _ hm => exact next_grows (metered_next hm).2
  | outside ho => exact outside_grows ho.1

theorem mark_step (h : MeteredStep cfg g l g')
    (hm : start + total (fun m => admittedFor key m.request) g.requests =
      g.shared.shared.db.mark key) :
    start + total (fun m => admittedFor key m.request) g'.requests =
      g'.shared.shared.db.mark key := by
  cases h with
  | @arrive s rs m ha =>
    have hzero : admittedFor key m.request = 0 := by
      unfold admittedFor
      rw [arrives_accepted ha.1]
    simp only [total_append, hzero, Nat.add_zero]
    exact hm
  | @advance s s' rs m m' n hget hmove =>
    obtain ⟨he, hn⟩ := metered_next hmove
    have hmark := @mark_next cfg _ _ _ _ key hn
    rw [← he] at hmark
    have hset := total_set (fun m => admittedFor key m.request) m' hget
    simp only at hm hset ⊢
    omega
  | @outside s s' rs e ho =>
    have hmark := outside_mark ho.1 key
    simp only at hm ⊢
    omega

theorem metered_step (h : MeteredStep cfg g l g') (hm : Metered key start g) :
    Metered key start g' := by
  have hgrows := metered_grows h
  refine ⟨?_, ?_, ?_, mark_step h hm.mark⟩
  · refine Step.each h hm.priced ?_ ?_ (fun _ _ _ hx => hx)
    · intro m ha record resource price hrec
      rw [arrives_record ha.1] at hrec
      cases hrec
    · intro n m m' _ _ hmove hp
      obtain ⟨he, hn⟩ := metered_next hmove
      rw [he]
      exact priced_next hn hp
  · refine Step.each h hm.grounded ?_ ?_ (fun _ _ _ hx => hx.grows hgrows)
    · intro m ha record hrec
      rw [arrives_record ha.1] at hrec
      cases hrec
    · intro n m m' _ _ hmove hg
      obtain ⟨he, hn⟩ := metered_next hmove
      rw [he]
      exact grounded_next hn hg
  · refine Step.each h hm.within ?_ ?_ (fun _ _ _ hx => hx)
    · intro m ha _
      unfold admittedFor
      rw [arrives_accepted ha.1]
      exact Nat.zero_le _
    · intro n m m' _ hget hmove hw hbuy
      obtain ⟨he, hn⟩ := metered_next hmove
      have hkind : m.request.kind ≠ .verify := by
        rw [he] at hbuy
        exact hbuy
      rw [he]
      exact within_next hn (hm.priced n m hget) (hm.grounded n m hget) hw hkind

theorem metered_start (h₀ : g.requests = []) : Metered key (g.shared.shared.db.mark key) g :=
  ⟨.of_idle h₀, .of_idle h₀, .of_idle h₀, by simp [h₀, total]⟩

theorem metered_run {g₀ : MeteredGateway} {h : History MeteredGateway MeteredLabel}
    (hr : Run (MeteredStep cfg) g₀ h g) (h₀ : g₀.requests = []) :
    Metered key (g₀.shared.shared.db.mark key) g :=
  hr.invariant_all (fun _ _ _ hm hs => metered_step hs hm) (metered_start h₀)

theorem billed_step (h : MeteredStep cfg g l g') (hm : Metered key start g) :
    billed key g'.shared.rows + total (owed key) g'.requests +
        total (fun m => paidPrice key m.request) g.requests ≤
      billed key g.shared.rows + total (owed key) g.requests +
        total (fun m => paidPrice key m.request) g'.requests ∧
    (kept ⟨g, l, g'⟩ = true → billed key g'.shared.rows + total (owed key) g'.requests +
        total (fun m => paidPrice key m.request) g.requests =
      billed key g.shared.rows + total (owed key) g.requests +
        total (fun m => paidPrice key m.request) g'.requests) := by
  cases h with
  | @arrive s rs m ha =>
    have howed : owed key m = 0 := by
      unfold owed
      rw [ha.2]
      rfl
    have hprice : paidPrice key m.request = 0 := by
      unfold paidPrice
      rw [arrives_accepted ha.1]
      split <;> simp
    simp only [total_append, howed, hprice]
    exact ⟨le_rfl, fun _ => rfl⟩
  | @outside s s' rs e ho =>
    have hrows := ho.2
    simp only [hrows]
    exact ⟨le_rfl, fun _ => trivial⟩
  | @advance s s' rs m m' n hget hmove =>
    have howed := total_set (owed key) m' hget
    have hprice := total_set (fun m => paidPrice key m.request) m' hget
    obtain ⟨hle, heq⟩ := @billed_move cfg key s s' m m' hmove (hm.priced n m hget)
      (hm.grounded n m hget)
    simp only at howed hprice ⊢
    refine ⟨by omega, fun hkept => ?_⟩
    have hexact := heq fun e he => by
      obtain ⟨r, p⟩ := m
      obtain rfl : p = some e := he
      simpa [kept, hget] using hkept
    omega

theorem billed_run {g₀ : MeteredGateway} {h : History MeteredGateway MeteredLabel}
    (hr : Run (MeteredStep cfg) g₀ h g) (h₀ : g₀.requests = []) :
    billed key g.shared.rows + total (owed key) g.requests ≤
        billed key g₀.shared.rows + total (fun m => paidPrice key m.request) g.requests ∧
      ((∀ t ∈ h, kept t = true) → billed key g.shared.rows + total (owed key) g.requests =
        billed key g₀.shared.rows + total (fun m => paidPrice key m.request) g.requests) := by
  induction hr with
  | start =>
    simp only [h₀, total, List.map_nil, List.sum_nil]
    exact ⟨le_rfl, fun _ => trivial⟩
  | step hr hs ih =>
    obtain ⟨hle, heq⟩ := @billed_step cfg _ _ _ key _ hs (metered_run hr h₀)
    obtain ⟨ihle, iheq⟩ := ih
    refine ⟨by omega, fun hkept => ?_⟩
    have hstep := heq (hkept _ List.mem_cons_self)
    have hbefore := iheq fun t ht => hkept t (List.mem_cons_of_mem _ ht)
    omega

theorem admittedFor_eq {r : Request}
    (hpays : r.kind ≠ .verify → admittedFor key r = paidPrice key r) :
    admittedFor key r = paidPrice key r + verifiedFor key r := by
  unfold verifiedFor
  split_ifs with hk
  · rw [paidPrice_other (.inl hk), Nat.zero_add]
  · rw [hpays hk, Nat.add_zero]

theorem admittedFor_le {r : Request} (hw : r.kind ≠ .verify → admittedFor key r ≤ paidPrice key r) :
    admittedFor key r ≤ paidPrice key r + verifiedFor key r := by
  unfold verifiedFor
  split_ifs with hk
  · exact Nat.le_add_left _ _
  · exact (hw hk).trans (Nat.le_add_right _ _)

theorem admittedFor_of_pays {r : Request} (hpays : PaysPrice key r) (hk : r.kind ≠ .verify) :
    admittedFor key r = paidPrice key r := by
  obtain ⟨resource, price, hbuy⟩ := kind_of_ne_verify hk
  unfold admittedFor paidPrice
  rw [hbuy]
  rcases ha : r.stage.accepted? with _ | ⟨record, acc⟩
  · simp
  · by_cases hkey : r.claim.session = key
    · simp [hkey, hpays record acc resource price hkey hbuy ha]
    · simp [hkey]

theorem total_le {f f' : MeteredRequest → ℕ} {rs : List MeteredRequest} (h : ∀ m ∈ rs, f m ≤ f' m) :
    total f rs ≤ total f' rs := List.sum_le_sum h

theorem total_add (f f' : MeteredRequest → ℕ) (rs : List MeteredRequest) :
    total (fun m => f m + f' m) rs = total f rs + total f' rs := List.sum_map_add

end Runs

/-- No more is billed than the prices of the purchases that were admitted, which may be more than
the mark has grown by: of two purchases that read the same mark the later one moves it by less
than its price. If no row is lost, the bills of a session with what is still owed cover what its
mark has grown by, less what was only verified; and if every purchase was admitted for its
price, they are equal to it. -/
theorem meter_agrees_with_mark {cfg : Config} {g₀ g : MeteredGateway}
    {h : History MeteredGateway MeteredLabel} (hr : Run (MeteredStep cfg) g₀ h g)
    (h₀ : g₀.requests = []) (key : Pubkey) :
    billed key g.shared.rows + total (owed key) g.requests ≤
        billed key g₀.shared.rows + total (fun m => paidPrice key m.request) g.requests ∧
      ((∀ t ∈ h, kept t = true) → billed key g₀.shared.rows + g.shared.shared.db.mark key ≤
        g₀.shared.shared.db.mark key + billed key g.shared.rows + total (owed key) g.requests +
          total (fun m => verifiedFor key m.request) g.requests) ∧
      ((∀ t ∈ h, kept t = true) → (∀ m ∈ g.requests, PaysPrice key m.request) →
        billed key g₀.shared.rows + g.shared.shared.db.mark key =
          g₀.shared.shared.db.mark key + billed key g.shared.rows + total (owed key) g.requests +
            total (fun m => verifiedFor key m.request) g.requests) := by
  obtain ⟨hle, heq⟩ := @billed_run cfg g key g₀ h hr h₀
  have hm : Metered key (g₀.shared.shared.db.mark key) g := metered_run hr h₀
  have hmark := hm.mark
  have hsplit := total_add (fun m => paidPrice key m.request) (fun m => verifiedFor key m.request)
    g.requests
  refine ⟨hle, fun hkept => ?_, fun hkept hpays => ?_⟩
  · have hbills := heq hkept
    have hwithin : total (fun m => admittedFor key m.request) g.requests ≤
        total (fun m => paidPrice key m.request + verifiedFor key m.request) g.requests := by
      refine total_le fun m hmem => ?_
      obtain ⟨n, hn⟩ := List.getElem?_of_mem hmem
      exact admittedFor_le (hm.within n m hn)
    omega
  · have hbills := heq hkept
    have hexact : total (fun m => admittedFor key m.request) g.requests =
        total (fun m => paidPrice key m.request + verifiedFor key m.request) g.requests := by
      unfold total
      congr 1
      refine List.map_congr_left fun m hmem => ?_
      exact admittedFor_eq fun hk => admittedFor_of_pays (hpays m hmem) hk
    omega

/-! ### Every row tells a decision -/

def concluded (stage : Stage) : Bool :=
  match stage with
  | .denied _ => true
  | stage => stage.accepted?.isSome

/-- The row states the decision on a purchase: the code it was denied with, or that its claim was
admitted, whatever became of its request to the provider. A price past `i64` is clamped. -/
structure Tells (r : Request) (row : UsageRow) : Prop where
  purchase : ∃ price, r.kind = .buy row.resource price ∧ row.price = (clampI64 price).toInt64
  session : row.session = some r.claim.session
  provider : row.providerId = some defaultProviderId
  decision : row.decision = "ALLOWED" ∧ r.stage.accepted? ≠ none ∨
    ∃ code, row.decision = asStr code ∧ r.stage = .denied code

section Answers
variable {cfg : Config} {s s' : Shared} {r : Request} {stage : Stage}

theorem Tells.concluded {row : UsageRow} (h : Tells r row) : concluded r.stage = true := by
  rcases h.decision with ⟨-, ha⟩ | ⟨code, -, hcode⟩
  · cases hs : r.stage with
    | admitted | served | unserved | denied => rfl
    | _ =>
      rw [hs] at ha
      exact absurd rfl ha
  · rw [hcode]
    rfl

theorem concluded_attempt {r' : Request} (h : Attempt cfg s r s' r')
    (hc : concluded r.stage = true) : concluded r'.stage = true ∧
      (r.stage.accepted? ≠ none → r'.stage.accepted? ≠ none) ∧
        ∀ code, r.stage = .denied code → r'.stage = .denied code := by
  cases hs : r.stage with
  | admitted | served | unserved | denied =>
    cases h <;> simp [advance, failed, Stage.interrupted, hs, concluded, Stage.accepted?]
  | _ =>
    rw [hs] at hc
    cases hc

theorem Tells.attempt {r' : Request} {row : UsageRow} (h : Tells r row)
    (ha : Attempt cfg s r s' r') : Tells r' row := by
  obtain ⟨-, haccepted, hdenied⟩ := concluded_attempt ha h.concluded
  obtain ⟨he, -⟩ := attempt_next ha
  have hkind : r'.kind = r.kind := by rw [he]
  have hclaim : r'.claim = r.claim := by rw [he]
  refine ⟨?_, ?_, h.provider, ?_⟩
  · rw [hkind]
    exact h.purchase
  · rw [hclaim]
    exact h.session
  · rcases h.decision with ⟨hd, hacc⟩ | ⟨code, hd, hcode⟩
    · exact .inl ⟨hd, haccepted hacc⟩
    · exact .inr ⟨code, hd, hdenied code hcode⟩

theorem decided_stage {resource : Text} {price : UInt64} {d : AgentIdentity × String}
    (hk : r.kind = .buy resource price) (h : decided cfg s r resource price r.stage = some d) :
    (d.2 = "ALLOWED" ∧ (advance cfg s r).2.accepted? ≠ none) ∨
      ∃ code, d.2 = asStr code ∧ (advance cfg s r).2 = .denied code := by
  unfold decided at h
  split at h
  · rename_i record hs
    split at h
    · rename_i agent hagent
      split_ifs at h with hstatus
      cases h
      refine .inr ⟨.agentSuspended, rfl, ?_⟩
      simp only [advance, hs, hk, readAgent, hagent]
      rw [if_pos hstatus]
    · cases h
  · rename_i record agent policy hs
    split at h
    · cases h
    · rename_i spend hspend
      split at h
      · rename_i refusal hrefuse
        cases h
        refine .inr ⟨policyDenial refusal, rfl, ?_⟩
        simp only [advance, hs, hk, evaluatePolicy, hspend, hrefuse]
      · cases h
  · rename_i agent hs
    split at h
    · cases h
    · rename_i hpending
      cases h
      refine .inr ⟨.approvalRequired, rfl, ?_⟩
      simp only [advance, hs, hk, lookForProposal]
  · rename_i agent hs
    cases h
    refine .inr ⟨.approvalRequired, rfl, ?_⟩
    simp only [advance, hs, hk, raiseProposal]
    split <;> rfl
  · rename_i record clearance hs
    split at h
    · cases h
    · rename_i db rejection hok
      cases h
      refine .inr ⟨claimDenial rejection, rfl, ?_⟩
      simp only [advance, hs, admitRequest, hok]
    · rename_i db acc hok
      cases h
      refine .inl ⟨rfl, ?_⟩
      simp [advance, hs, admitRequest, hok, Stage.accepted?]
  · cases h

theorem tells_usage {e : UsageEvent} (h : usage cfg s r = some e) :
    Tells { r with stage := (advance cfg s r).2 } e.row := by
  unfold usage usageOf at h
  split at h
  · rename_i resource price hk
    obtain ⟨d, hd, rfl⟩ := Option.map_eq_some_iff.mp h
    exact ⟨⟨price, hk, rfl⟩, rfl, rfl, decided_stage hk hd⟩
  · cases h

theorem tells_usageFailing {e : UsageEvent} (h : usageFailing r = some e) :
    Tells { r with stage := failed r.stage } e.row := by
  unfold usageFailing usageOf at h
  split at h
  · rename_i resource price hk
    obtain ⟨d, hd, rfl⟩ := Option.map_eq_some_iff.mp h
    refine ⟨⟨price, hk, rfl⟩, rfl, rfl, .inr ⟨.approvalRequired, ?_⟩⟩
    unfold decidedFailing at hd
    split at hd
    · rename_i hs
      cases hd
      exact ⟨rfl, by rw [hs]; rfl⟩
    · rename_i hs
      cases hd
      exact ⟨rfl, by rw [hs]; rfl⟩
    · cases hd
  · cases h

/-- A purchase that was answered meters nothing more. -/
theorem usage_concluded (h : concluded r.stage = true) :
    usage cfg s r = none ∧ usageFailing r = none := by
  have hnone : ∀ resource price, decided cfg s r resource price r.stage = none ∧
      decidedFailing r.stage = none := by
    intro resource price
    cases hs : r.stage with
    | admitted | served | unserved | denied => exact ⟨rfl, rfl⟩
    | _ =>
      rw [hs] at h
      cases h
  unfold usage usageFailing usageOf
  split
  · rename_i resource price hk
    simp only [(hnone resource price).1, (hnone resource price).2]
    exact ⟨rfl, rfl⟩
  · exact ⟨rfl, rfl⟩

end Answers

/-! ### Every answer is billed once -/

/-- The step writes the row of this request. -/
def writes (n : ℕ) (t : Transition MeteredGateway MeteredLabel) : Bool :=
  match t.label with
  | .advance k => k = n && t.after.shared.rows.length ≠ t.before.shared.rows.length
  | _ => false

/-- One for a request that was answered, and for one that waits for its row. -/
def concludedAt (g : MeteredGateway) (n : ℕ) : ℕ :=
  match g.requests[n]? with
  | some m => if concluded m.request.stage then 1 else 0
  | none => 0

def pendingAt (g : MeteredGateway) (n : ℕ) : ℕ :=
  match g.requests[n]? with
  | some m => if m.pending.isSome then 1 else 0
  | none => 0

/-- The rows and the pending events tell the answers of their requests. -/
structure Told (g₀ g : MeteredGateway) : Prop where
  rows : ∀ row ∈ g.shared.rows, row ∈ g₀.shared.rows ∨ ∃ m ∈ g.requests, Tells m.request row
  pending : Each (fun _ m => ∀ e, m.pending = some e → Tells m.request e.row) g

section Once
variable {cfg : Config} {g₀ g g' : MeteredGateway} {l : MeteredLabel}

theorem tells_move {s s' : MeteredShared} {m m' : MeteredRequest} {row : UsageRow}
    (h : MeteredMove cfg s m s' m') (ht : Tells m.request row) : Tells m'.request row := by
  rcases plain_move h with hm | ⟨-, hsame⟩
  · exact ht.attempt hm
  · rw [hsame]
    exact ht

theorem pending_move {s s' : MeteredShared} {m m' : MeteredRequest} {e : UsageEvent}
    (h : MeteredMove cfg s m s' m') (he : m'.pending = some e) : Tells m'.request e.row := by
  cases h with
  | handler => exact tells_usage he
  | failing => exact tells_usageFailing he
  | written | lost | interrupted => cases he

theorem rows_move {s s' : MeteredShared} {m m' : MeteredRequest} (h : MeteredMove cfg s m s' m') :
    s'.rows = s.rows ∨
      ∃ e, m.pending = some e ∧ m'.pending = none ∧ s'.rows = s.rows ++ [e.row] := by
  cases h with
  | @written s rows r e => exact .inr ⟨e, rfl, rfl, rfl⟩
  | _ => exact .inl rfl

/-- A row that a request tells of is told of after any move. -/
theorem tells_set {s s' : MeteredShared} {rs : List MeteredRequest} {m m' : MeteredRequest}
    {n : ℕ} {row : UsageRow} (hget : rs[n]? = some m) (hmove : MeteredMove cfg s m s' m')
    (h : ∃ x ∈ rs, Tells x.request row) : ∃ x ∈ rs.set n m', Tells x.request row := by
  obtain ⟨x, hx, htells⟩ := h
  obtain ⟨k, hk⟩ := List.getElem?_of_mem hx
  by_cases hkn : k = n
  · subst hkn
    obtain rfl := Option.some.inj (hget.symm.trans hk)
    have hlt := (List.getElem?_eq_some_iff.mp hget).1
    exact ⟨m', List.mem_set hlt _, tells_move hmove htells⟩
  · have hset : (rs.set n m')[k]? = some x := by
      rw [List.getElem?_set_ne (Ne.symm hkn)]
      exact hk
    exact ⟨x, List.mem_of_getElem? hset, htells⟩

theorem told_step (h : MeteredStep cfg g l g') (ht : Told g₀ g) : Told g₀ g' := by
  refine ⟨?_, Step.each h ht.pending ?_ ?_ (fun _ _ _ hx => hx)⟩
  · intro row hrow
    cases h with
    | @arrive s rs m ha =>
      rcases ht.rows row hrow with hold | ⟨x, hx, htells⟩
      · exact .inl hold
      · exact .inr ⟨x, List.mem_append_left _ hx, htells⟩
    | @outside s s' rs e ho =>
      rw [ho.2] at hrow
      exact ht.rows row hrow
    | @advance s s' rs m m' n hget hmove =>
      have hlt := (List.getElem?_eq_some_iff.mp hget).1
      have hmem : m' ∈ rs.set n m' := List.mem_set hlt _
      have hold : row ∈ s.rows → row ∈ g₀.shared.rows ∨ ∃ x ∈ rs.set n m', Tells x.request row :=
        fun hin => (ht.rows row hin).imp_right (tells_set hget hmove)
      rcases rows_move hmove with hsame | ⟨e, he, -, hrows⟩
      · rw [hsame] at hrow
        exact hold hrow
      · rw [hrows, List.mem_append, List.mem_singleton] at hrow
        rcases hrow with hrow | rfl
        · exact hold hrow
        · exact .inr ⟨m', hmem, tells_move hmove (ht.pending n m hget e he)⟩
  · intro m ha e he
    rw [ha.2] at he
    cases he
  · intro n m m' _ _ hmove _ e he
    exact pending_move hmove he

theorem told_run {h : History MeteredGateway MeteredLabel} (hr : Run (MeteredStep cfg) g₀ h g)
    (h₀ : g₀.requests = []) : Told g₀ g :=
  hr.invariant_all (fun _ _ _ ht hs => told_step hs ht) ⟨fun _ hrow => .inl hrow, .of_idle h₀⟩

theorem writes_eq {n k : ℕ} {s s' : MeteredShared} {rs rs' : List MeteredRequest} :
    writes n ⟨⟨s, rs⟩, .advance k, ⟨s', rs'⟩⟩ =
      (decide (k = n) && decide (s'.rows.length ≠ s.rows.length)) := rfl

/-- A move answers its request, writes the row it waited for, or does neither. -/
theorem once_move {s s' : MeteredShared} {m m' : MeteredRequest} (h : MeteredMove cfg s m s' m') :
    (if s'.rows.length ≠ s.rows.length then 1 else 0) + (if m'.pending.isSome then 1 else 0) +
        (if concluded m.request.stage then 1 else 0) ≤
      (if m.pending.isSome then 1 else 0) + (if concluded m'.request.stage then 1 else 0) := by
  have hmono : concluded m.request.stage = true → concluded m'.request.stage = true := by
    intro hc
    rcases plain_move h with hm | ⟨-, hsame⟩
    · exact (concluded_attempt hm hc).1
    · rw [hsame]
      exact hc
  cases hc : concluded m.request.stage with
  | false =>
    cases h with
    | @handler s rows r =>
      rcases hu : usage cfg s r with _ | e
      · simp
      · simp [(tells_usage hu).concluded]
    | @failing s rows r =>
      rcases hu : usageFailing r with _ | e
      · simp
      · simp [(tells_usageFailing hu).concluded]
    | written => simp
    | lost => simp
    | interrupted => simp
  | true =>
    rw [hmono hc]
    cases h with
    | handler => simp [(usage_concluded hc).1]
    | @failing s rows r => simp [(@usage_concluded cfg s r hc).2]
    | written => simp
    | lost => simp
    | interrupted => simp

theorem once_step (n : ℕ) (h : MeteredStep cfg g l g') :
    (if writes n ⟨g, l, g'⟩ then 1 else 0) + pendingAt g' n + concludedAt g n ≤
      pendingAt g n + concludedAt g' n := by
  cases h with
  | @outside s s' rs e ho =>
    simp only [writes, pendingAt, concludedAt]
    simp
  | @arrive s rs m ha =>
    by_cases hlt : n < rs.length
    · have hget : (rs ++ [m])[n]? = rs[n]? := List.getElem?_append_left hlt
      simp only [writes, pendingAt, concludedAt, hget]
      simp
    · have hnone : rs[n]? = none := List.getElem?_eq_none (not_lt.mp hlt)
      have hzero : pendingAt ⟨s, rs ++ [m]⟩ n = 0 := by
        unfold pendingAt
        split
        · rename_i x hx
          rcases getElem?_append_singleton hx with hx | rfl
          · rw [hnone] at hx
            cases hx
          · rw [ha.2]
            rfl
        · rfl
      rw [hzero]
      simp [writes, concludedAt, hnone]
  | @advance s s' rs m m' k hget hmove =>
    have hlt := (List.getElem?_eq_some_iff.mp hget).1
    by_cases hk : k = n
    · subst hk
      have hafter : (rs.set k m')[k]? = some m' := by simp [hlt]
      have honce := once_move hmove
      simp only [writes_eq, pendingAt, concludedAt, hget, hafter]
      simpa using honce
    · have hset : (rs.set k m')[n]? = rs[n]? := List.getElem?_set_ne hk
      simp only [writes_eq, pendingAt, concludedAt, hset, hk]
      simp

theorem once_run {h : History MeteredGateway MeteredLabel} (hr : Run (MeteredStep cfg) g₀ h g)
    (h₀ : g₀.requests = []) (n : ℕ) : h.countP (writes n) + pendingAt g n ≤ concludedAt g n := by
  induction hr with
  | start => simp [pendingAt, h₀]
  | step hr hs ih =>
    have hstep := once_step n hs
    rw [List.countP_cons]
    omega

end Once

/-- Every row that is written tells the decision on a purchase, with its resource, its clamped
price and its session; and no request writes two. -/
theorem rows_tell_answers {cfg : Config} {g₀ g : MeteredGateway}
    {h : History MeteredGateway MeteredLabel} (hr : Run (MeteredStep cfg) g₀ h g)
    (h₀ : g₀.requests = []) :
    (∀ row ∈ g.shared.rows, row ∈ g₀.shared.rows ∨ ∃ m ∈ g.requests, Tells m.request row) ∧
      ∀ n, h.countP (writes n) ≤ 1 := by
  refine ⟨(told_run hr h₀).rows, fun n => ?_⟩
  have honce := once_run hr h₀ n
  have hle : concludedAt g n ≤ 1 := by
    unfold concludedAt
    split
    · split_ifs <;> decide
    · decide
  omega

/-! ### The shop, metered -/
namespace Stall

def meteredMove (s : MeteredShared) (m : MeteredRequest) : MeteredShared × MeteredRequest :=
  match m.pending with
  | some e => (⟨s.shared, s.rows ++ [e.row]⟩, ⟨m.request, none⟩)
  | none =>
    (⟨(advance Shop.config s.shared m.request).1, s.rows⟩,
      ⟨{ m.request with stage := (advance Shop.config s.shared m.request).2 },
        usage Shop.config s.shared m.request⟩)

def arrives (m : MeteredRequest) : Bool := decide (Arrives m.request) && m.pending.isNone

def outside (s : MeteredShared) (e : Event) : Option MeteredShared :=
  (PaidRequests.outside s.shared e).map fun shared => ⟨shared, s.rows⟩

def play (g : MeteredGateway) (ls : List MeteredLabel) :
    History MeteredGateway MeteredLabel × MeteredGateway :=
  RequestPool.play arrives meteredMove outside g ls

theorem play_run (g : MeteredGateway) (ls : List MeteredLabel) :
    Run (MeteredStep Shop.config) g (play g ls).1 (play g ls).2 := by
  refine RequestPool.play_run ?_ ?_ ?_ g ls
  · intro m hm
    simp only [arrives, Bool.and_eq_true, decide_eq_true_eq, Option.isNone_iff_eq_none] at hm
    exact hm
  · rintro ⟨s, rows⟩ ⟨r, _ | e⟩
    · exact .handler
    · exact .written
  · intro s e s' he
    obtain ⟨shared, hs, rfl⟩ := Option.map_eq_some_iff.mp he
    exact ⟨outside_sound hs, rfl⟩

def idle : MeteredGateway := ⟨⟨Shop.idle.shared, []⟩, []⟩

def first : MeteredRequest := ⟨Shop.buy 500 Shop.claim500 Shop.signature500, none⟩
def second : MeteredRequest := ⟨Shop.buy 500 Shop.claim1000 Shop.signature1000, none⟩

/-- Two purchases of 500, one after the other, each with its row. -/
def sold : History MeteredGateway MeteredLabel × MeteredGateway := play idle
  [.advance 1, .advance 1, .advance 1, .advance 1, .advance 1, .arrive second,
    .advance 0, .advance 0, .advance 0, .advance 0, .advance 0, .arrive first,
    .outside (.openSession (Shop.record Shop.session))]

theorem sold_run : Run (MeteredStep Shop.config) idle sold.1 sold.2 := play_run _ _

theorem sold_kept : ∀ t ∈ sold.1, kept t = true := by decide +kernel

theorem sold_sums : billed Shop.session idle.shared.rows = 0 ∧
    idle.shared.shared.db.mark Shop.session = 0 ∧ total (owed Shop.session) sold.2.requests = 0 ∧
      total (fun m => verifiedFor Shop.session m.request) sold.2.requests = 0 := by
  decide +kernel

theorem sold_deltas : ∀ m ∈ sold.2.requests, m.request.kind = .buy ['/', 'a'] 500 ∧
    m.request.stage.accepted?.map (fun a => a.2.delta) = some 500 := by
  decide +kernel

end Stall

open Stall

/-- With the rows of the stall's two sales and without. -/
theorem metering_never_decides_stall :
    (∀ h t, Run (MeteredStep Shop.config) idle h t →
        ∃ h', Run (PlainStep Shop.config) (plain idle) h' (plain t)) ∧
      ∀ keep h g, Run (PlainStep Shop.config) (plain idle) h g →
        ∃ h' t, Run (MeteredStep Shop.config) idle h' t ∧ plain t = g ∧ ∀ x ∈ h', Wanted keep x :=
  metering_never_decides Shop.config idle (by simp [idle])

/-- The two sales are billed for what the mark grew by. -/
theorem meter_agrees_with_mark_stall :
    billed Shop.session sold.2.shared.rows = sold.2.shared.shared.db.mark Shop.session := by
  obtain ⟨-, -, hexact⟩ := meter_agrees_with_mark sold_run rfl Shop.session
  obtain ⟨hstart, hmark, howed, hverified⟩ := sold_sums
  have hpays : ∀ m ∈ sold.2.requests, PaysPrice Shop.session m.request := by
    intro m hm
    obtain ⟨hkind, hdelta⟩ := sold_deltas m hm
    intro record acc resource price _ hk ha
    rw [hkind] at hk
    rw [ha] at hdelta
    cases hk
    exact Option.some.inj hdelta
  have hsame := hexact sold_kept hpays
  omega

theorem rows_tell_answers_stall :
    (∀ row ∈ sold.2.shared.rows, row ∈ idle.shared.rows ∨
      ∃ m ∈ sold.2.requests, Tells m.request row) ∧ ∀ n, sold.1.countP (writes n) ≤ 1 :=
  rows_tell_answers sold_run rfl

end AgentPay.MeteredRequests
