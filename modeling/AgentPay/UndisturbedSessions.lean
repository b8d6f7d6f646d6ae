import AgentPay.LoneRequests
import AgentPay.StoreRefinement

/-!
# One purchase on a session nobody else pays from

Between any two moves of the purchase the gateway may do anything else: serve other
requests, be operated, lose calls. It only accepts no other claim on the session. A call
of the purchase itself may fail, which is recorded. What the record then says of its
claims moves exactly when the purchase is admitted.
-/
namespace AgentPay.UndisturbedSessions
open SolanaRuntime GatewayClaims EvidenceLog SessionStore PolicyRules ControlPlane PaidRequests
open StoreRuns StoreRefinement EvidenceRuns LoneRequests Fallible Runs

/-- The session is stored, and its record shows these accepted values. -/
structure Stands (cfg : Config) (key : Pubkey) (cumulative : UInt64) (nonce : Option UInt64)
    (db : Database) : Prop where
  intact : Intact cfg.sha256 db
  stored : ∃ row, db.sessions key = some row ∧
    (recordOf key row (db.tickets key)).cumulativeAccepted = cumulative ∧
    (recordOf key row (db.tickets key)).lastNonce = nonce

/-- Whatever the gateway does without accepting a claim on the session. -/
def Elsewhere (cfg : Config) (key : Pubkey) (s s' : Shared) : Prop :=
  ∃ rs h rs', Run (GatewayStep cfg) ⟨s, rs⟩ h ⟨s', rs'⟩ ∧ s'.db.tickets key = s.db.tickets key

/-- A purchase on its way, with the call of it that failed. -/
inductive Serving (cfg : Config) (r : Request) (s : Shared) :
    Shared → Stage → Option Call → Prop
  | start : Serving cfg r s s r.stage none
  | elsewhere {s₁ s₂ : Shared} {stage : Stage} {missed : Option Call} :
      Serving cfg r s s₁ stage missed → Elsewhere cfg r.claim.session s₁ s₂ →
      Serving cfg r s s₂ stage missed
  | advance {s₁ : Shared} {stage : Stage} {missed : Option Call} :
      Serving cfg r s s₁ stage missed →
      Serving cfg r s (advance cfg s₁ { r with stage := stage }).1
        (advance cfg s₁ { r with stage := stage }).2 missed
  | fail {s₁ : Shared} {stage : Stage} {missed : Option Call} {c : Call} :
      Serving cfg r s s₁ stage missed → call? stage = some c →
      Serving cfg r s s₁ (failed stage) (some c)

section Standing
variable {cfg : Config} {key : Pubkey} {cumulative : UInt64} {nonce : Option UInt64}
variable {db db' : Database} {s s' : Shared}

theorem stands_of_record {record : SessionRecord} (hi : Intact cfg.sha256 db)
    (h : getRecord db key = .ok record) :
    Stands cfg key record.cumulativeAccepted record.lastNonce db := by
  obtain ⟨row, -, hl⟩ := getRecord_loaded h
  rw [getRecord_eq hi hl.found, Except.ok.injEq] at h
  exact ⟨hi, row, hl.found, by rw [h], by rw [h]⟩

theorem Stands.record (h : Stands cfg key cumulative nonce db) : ∃ record,
    getRecord db key = .ok record ∧ record.cumulativeAccepted = cumulative ∧
      record.lastNonce = nonce := by
  obtain ⟨row, hrow, hc, hn⟩ := h.stored
  exact ⟨_, getRecord_eq h.intact hrow, hc, hn⟩

/-- The row of a stored session stays, and the ticket decides the rest. -/
theorem Stands.keep (h : Stands cfg key cumulative nonce db) (hi : Intact cfg.sha256 db')
    (hg : Grows db db') (ht : db'.tickets key = db.tickets key) :
    Stands cfg key cumulative nonce db' := by
  obtain ⟨row, hrow, hc, hn⟩ := h.stored
  obtain ⟨row', hrow', -⟩ := hg.rows key row hrow
  refine ⟨hi, row', hrow', ?_⟩
  rw [ht]
  exact ⟨hc, hn⟩

theorem Stands.elsewhere (h : Stands cfg key cumulative nonce s.db)
    (he : Elsewhere cfg key s s') : Stands cfg key cumulative nonce s'.db := by
  obtain ⟨rs, l, rs', hr, ht⟩ := he
  have hkept : Intact cfg.sha256 s'.db ∧ Grows s.db s'.db := by
    refine @Run.invariant_all _ _ _ _ _ _
      (fun g : Gateway => Intact cfg.sha256 g.shared.db ∧ Grows s.db g.shared.db) ?_ hr
      ⟨h.intact, .refl _⟩
    intro g l g' hg hs
    exact ⟨intact_gatewayStep hg.1 hs, hg.2.trans (step_grows hs)⟩
  exact h.keep hkept.1 hkept.2 ht

variable {claim : Claim} {signature : Signature} {now : Int64}

theorem Stands.refused {rejection : ClaimRejection} (h : Stands cfg claim.session cumulative nonce db)
    (hok : admitClaim cfg.sha256 db claim signature now = .ok (db', .error rejection)) :
    Stands cfg claim.session cumulative nonce db' := by
  refine h.keep (intact_admitClaim h.intact hok) (admitClaim_effect hok).grows ?_
  obtain ⟨row, hrow, -⟩ := h.stored
  have hcases := @admit_cases cfg.sha256 db claim signature now row hrow (h.intact.tracked hrow)
  rw [hok] at hcases
  cases hcases with
  | settled => rfl
  | refused => rfl

/-- An accepted claim is what the record shows from then on. -/
theorem Stands.admitted {accepted : ClaimAccepted} (h : Stands cfg claim.session cumulative nonce db)
    (hok : admitClaim cfg.sha256 db claim signature now = .ok (db', .ok accepted)) :
    Stands cfg claim.session claim.cumulativeAmount (some claim.nonce) db' ∧
      nonceAdvances nonce claim.nonce := by
  have hi := intact_admitClaim h.intact hok
  obtain ⟨row, hrow, hc, hn⟩ := h.stored
  have htracked := h.intact.tracked hrow
  have hcases := @admit_cases cfg.sha256 db claim signature now row hrow htracked
  rw [hok] at hcases
  cases hcases with
  | accepted ho hroom hnonce =>
    have hacc := evaluateClaim_eq_ok.mp ho
    have hback := @recordOf_ticketOf cfg.sha256 claim signature now row _ _ accepted htracked hacc
      hnonce
    have hadv := hacc.nonce
    rw [hn] at hadv
    refine ⟨⟨hi, row, ?_, ?_⟩, hadv⟩
    · rw [setTicket_sessions, pushEvidence_sessions, hrow]
    · rw [setTicket_tickets, if_pos rfl, hback, hacc.result]
      exact ⟨rfl, rfl⟩

end Standing

/-! ### What the answer says -/

/-- A code that blames the order of claims or their price is borne out by the record. -/
structure Explained (claim : Claim) (price : UInt64) (cumulative : UInt64) (nonce : Option UInt64)
    (code : ReasonCode) : Prop where
  price : code = .priceMismatch →
    cumulative.toNat + price.toNat ≠ claim.cumulativeAmount.toNat
  amount : code = .claimNotMonotonic → claim.cumulativeAmount.toNat ≤ cumulative.toNat
  nonce : code = .nonceNotMonotonic → ¬ nonceAdvances nonce claim.nonce

/-- Where a purchase is, and what the record shows there. -/
inductive Leaves (cfg : Config) (claim : Claim) (price : UInt64) (cumulative : UInt64)
    (nonce : Option UInt64) : Shared → Stage → Option Call → Prop
  | waiting {s : Shared} {stage : Stage} {missed : Option Call} :
      Stands cfg claim.session cumulative nonce s.db → stage.accepted? = none →
      (∀ code, stage = .denied code → Explained claim price cumulative nonce code) →
      missed ≠ some .forward → Leaves cfg claim price cumulative nonce s stage missed
  | admitted {s : Shared} {stage : Stage} {missed : Option Call} :
      Stands cfg claim.session claim.cumulativeAmount (some claim.nonce) s.db →
      nonceAdvances nonce claim.nonce → stage.accepted? ≠ none →
      (missed = some .forward ↔ ∃ record accepted, stage = .unserved record accepted) →
      Leaves cfg claim price cumulative nonce s stage missed

section Codes
variable {cfg : Config} {s : Shared} {r : Request} {stage : Stage} {resource : Text}
variable {price cumulative : UInt64} {nonce : Option UInt64} {code : ReasonCode}

theorem explained_other {claim : Claim}
    (h : code ∉ [.priceMismatch, .claimNotMonotonic, .nonceNotMonotonic]) :
    Explained claim price cumulative nonce code := by
  simp only [List.mem_cons, List.not_mem_nil, or_false, not_or] at h
  exact ⟨fun hc => absurd hc h.1, fun hc => absurd hc h.2.1, fun hc => absurd hc h.2.2⟩

theorem explained_store {claim : Claim} (e : StoreError) :
    Explained claim price cumulative nonce (storeDenial e) := by
  cases e with
  | unavailable | alreadyOpen | unknown => exact explained_other (by decide)

theorem explained_policy {claim : Claim} (refusal : PolicyRefusal) :
    Explained claim price cumulative nonce (policyDenial refusal) := by
  cases refusal with
  | suspended | resourceNotAllowed | priceCap | budget | callLimit =>
    exact explained_other (by decide)

theorem explained_failed (h : failed stage = .denied code) (hs : ∀ code, stage ≠ .denied code) :
    Explained r.claim price cumulative nonce code := by
  cases stage with
  | denied c => exact absurd rfl (hs c)
  | admitted | served | unserved => cases h
  | _ =>
    cases h
    exact explained_other (by decide)

theorem explained_readSession (hk : r.kind = .buy resource price)
    (hst : Stands cfg r.claim.session cumulative nonce s.db)
    (h : readSession cfg s r = .denied code) : Explained r.claim price cumulative nonce code := by
  obtain ⟨record, hget, hc, -⟩ := hst.record
  simp only [readSession, hget, hk] at h
  split_ifs at h
  · unfold priceCheck at h
    rcases hp : record.cumulativeAccepted.checkedAdd price with _ | expected
    · simp only [hp] at h
      cases h
      exact explained_other (by decide)
    · simp only [hp] at h
      split_ifs at h with he
      cases h
      refine ⟨fun _ => ?_, fun h => absurd h (by decide), fun h => absurd h (by decide)⟩
      rw [UInt64.checkedAdd_eq_some] at hp
      rw [← hc, ← hp]
      exact fun heq => he (UInt64.toNat_inj.mp heq.symm)
  · cases h
    exact explained_other (by decide)

theorem explained_readAgent {record : SessionRecord} (h : readAgent cfg s record = .denied code) :
    Explained r.claim price cumulative nonce code := by
  unfold readAgent at h
  split at h
  · cases h
    exact explained_other (by decide)
  · split_ifs at h
    cases h
    exact explained_other (by decide)
  · split_ifs at h
    · cases h
      exact explained_other (by decide)
    · split at h
      · cases h
      · cases h
        exact explained_other (by decide)
    · split at h <;> cases h

theorem explained_evaluatePolicy {record : SessionRecord} {agent : AgentRecord}
    {policy : AgentPolicy} (h : evaluatePolicy s record agent policy resource price = .denied code) :
    Explained r.claim price cumulative nonce code := by
  unfold evaluatePolicy at h
  split at h
  · cases h
    exact explained_other (by decide)
  · split at h
    · cases h
    · cases h
      exact explained_policy _
    · cases h

/-- The rules refuse a claim for its order only when it is out of order. -/
theorem explained_evaluateClaim {record : SessionRecord} {claim : Claim} {now : Int64}
    {rejection : ClaimRejection} (hc : record.cumulativeAccepted = cumulative)
    (hn : record.lastNonce = nonce) (h : evaluateClaim record claim now = .error rejection) :
    Explained claim price cumulative nonce (claimDenial rejection) := by
  subst hc hn
  cases rejection with
  | sessionExpired | sessionSettled | exceedsDeposit => exact explained_other (by decide)
  | notMonotonic =>
    refine ⟨fun h => absurd h (by decide), fun _ => ?_, fun h => absurd h (by decide)⟩
    simp only [evaluateClaim, bind_eq_error, require_eq_error, require_eq_ok, okOr_eq_error,
      pure_eq_error, UInt64.checkedSub_eq_none, UInt64.lt_iff_toNat_lt, reduceCtorEq, and_false,
      false_or, or_false, exists_const, and_true] at h
    rcases h with ⟨-, -, h | ⟨-, -, -, h⟩⟩ <;> omega
  | nonceNotMonotonic =>
    refine ⟨fun h => absurd h (by decide), fun h => absurd h (by decide), fun _ => ?_⟩
    simp only [evaluateClaim, bind_eq_error, require_eq_error, require_eq_ok, okOr_eq_error,
      pure_eq_error, reduceCtorEq, and_false, false_or, or_false, exists_const, and_true] at h
    exact h.2.2.2

theorem explained_admitRequest {record : SessionRecord}
    (hst : Stands cfg r.claim.session cumulative nonce s.db)
    (h : (admitRequest cfg s r record).2 = .denied code) :
    Explained r.claim price cumulative nonce code := by
  obtain ⟨row, hrow, hc, hn⟩ := hst.stored
  have hcases := @admit_cases cfg.sha256 s.db r.claim r.signature r.now row hrow
    (hst.intact.tracked hrow)
  unfold admitRequest at h
  revert h
  generalize admitClaim cfg.sha256 s.db r.claim r.signature r.now = x at hcases
  intro h
  cases hcases with
  | settled _ ho =>
    cases h
    exact explained_evaluateClaim hc hn ho
  | refused _ ho _ _ =>
    cases h
    exact explained_evaluateClaim hc hn ho
  | accepted _ _ _ => cases h
  | full _ _ =>
    cases h
    exact explained_store _
  | nonceTooLarge _ _ =>
    cases h
    exact explained_store _

/-- A move that ends in a denial gives a code the record bears out. -/
theorem explained_advance (hk : r.kind = .buy resource price)
    (hst : Stands cfg r.claim.session cumulative nonce s.db) (hs : ∀ code, r.stage ≠ .denied code)
    (h : (advance cfg s r).2 = .denied code) : Explained r.claim price cumulative nonce code := by
  unfold advance at h
  rw [hk] at h
  cases hstage : r.stage with
  | received =>
    rw [hstage] at h
    exact explained_readSession hk hst h
  | authenticated record =>
    rw [hstage] at h
    exact explained_readAgent h
  | identified record agent policy =>
    rw [hstage] at h
    exact explained_evaluatePolicy h
  | approving record agent policy spend =>
    rw [hstage] at h
    simp only [spendApproval] at h
    split at h
    · cases h
      exact explained_other (by decide)
    · cases h
    · cases h
  | unapproved agent =>
    rw [hstage] at h
    simp only [lookForProposal] at h
    split at h
    · cases h
    · cases h
      exact explained_other (by decide)
  | proposing agent =>
    rw [hstage] at h
    simp only [raiseProposal] at h
    split at h
    · cases h
      exact explained_other (by decide)
    · cases h
      exact explained_other (by decide)
  | cleared record clearance =>
    rw [hstage] at h
    exact explained_admitRequest hst h
  | denied c => exact absurd hstage (hs c)
  | admitted record accepted | served record accepted | unserved record accepted =>
    rw [hstage] at h
    cases h

end Codes

section Moves
variable {cfg : Config} {s s₁ : Shared} {r : Request} {stage : Stage} {resource : Text}
variable {price cumulative : UInt64} {nonce : Option UInt64} {missed : Option Call}

/-- A move before the admission either makes it or leaves the record as it was. -/
theorem leaves_next {s' : Shared} {stage' : Stage}
    (hst : Stands cfg r.claim.session cumulative nonce s.db) (hr : r.stage.accepted? = none)
    (hm : missed ≠ some .forward) (hn : Next cfg s r s' stage')
    (he : ∀ code, stage' = .denied code → Explained r.claim price cumulative nonce code) :
    Leaves cfg r.claim price cumulative nonce s' stage' missed := by
  cases hn with
  | denied hdb _ =>
    refine .waiting ?_ rfl he hm
    rw [hdb]
    exact hst
  | refused _ hok => exact .waiting (hst.refused hok) rfl he hm
  | admitted _ hok =>
    obtain ⟨hst', hadv⟩ := hst.admitted hok
    refine .admitted hst' hadv (Option.some_ne_none _) ⟨fun h => absurd h hm, ?_⟩
    rintro ⟨_, _, h⟩
    cases h
  | served h | unserved h =>
    rw [h] at hr
    cases hr
  | idle => exact .waiting hst hr he hm
  | _ => exact .waiting hst rfl he hm

theorem leaves_advance (hk : r.kind = .buy resource price)
    (h : Leaves cfg r.claim price cumulative nonce s stage missed) :
    Leaves cfg r.claim price cumulative nonce (advance cfg s { r with stage := stage }).1
      (advance cfg s { r with stage := stage }).2 missed := by
  cases h with
  | waiting hst hacc he hm =>
    by_cases hd : ∃ code, stage = .denied code
    · obtain ⟨code, rfl⟩ := hd
      exact .waiting hst hacc he hm
    · refine @leaves_next cfg s { r with stage := stage } price cumulative nonce missed _ _ hst hacc
        hm next_advance fun code hcode => ?_
      exact @explained_advance cfg s { r with stage := stage } resource price cumulative nonce code
        hk hst (fun c hc => hd ⟨c, hc⟩) hcode
  | admitted hst hadv hacc hm =>
    cases stage with
    | admitted record accepted =>
      refine .admitted hst hadv (Option.some_ne_none _) ⟨fun h => ?_, ?_⟩
      · obtain ⟨_, _, hs⟩ := hm.mp h
        cases hs
      · rintro ⟨_, _, hs⟩
        cases hs
    | served record accepted => exact .admitted hst hadv hacc hm
    | unserved record accepted => exact .admitted hst hadv hacc hm
    | _ => exact absurd rfl hacc

theorem failed_accepted (h : stage.accepted? = none) : (failed stage).accepted? = none := by
  cases stage with
  | admitted | served | unserved => cases h
  | _ => rfl

/-- The provider is asked once the claim is admitted. -/
theorem forwards_accepted (h : call? stage = some .forward) : stage.accepted? ≠ none := by
  cases stage with
  | admitted => exact Option.some_ne_none _
  | _ => cases h

theorem forward_of_accepted {c : Call} (h : stage.accepted? ≠ none) (hc : call? stage = some c) :
    c = .forward := by
  cases stage with
  | admitted => exact (Option.some.inj hc).symm
  | served | unserved => cases hc
  | _ => exact absurd rfl h

theorem leaves_failed {c : Call} (hc : call? stage = some c)
    (h : Leaves cfg r.claim price cumulative nonce s stage missed) :
    Leaves cfg r.claim price cumulative nonce s (failed stage) (some c) := by
  cases h with
  | waiting hst hacc he hm =>
    refine .waiting hst (failed_accepted hacc) (fun code hcode => ?_) ?_
    · refine explained_failed hcode fun code hd => ?_
      rw [hd] at hc
      cases hc
    · intro hforward
      rw [hforward] at hc
      exact forwards_accepted hc hacc
  | admitted hst hadv hacc hm =>
    cases stage with
    | admitted record accepted =>
      cases hc
      exact .admitted hst hadv (Option.some_ne_none _) ⟨fun _ => ⟨_, _, rfl⟩, fun _ => rfl⟩
    | served record accepted => cases hc
    | unserved record accepted => cases hc
    | _ => exact absurd rfl hacc

theorem Leaves.elsewhere (h : Leaves cfg r.claim price cumulative nonce s stage missed)
    (he : Elsewhere cfg r.claim.session s s₁) :
    Leaves cfg r.claim price cumulative nonce s₁ stage missed := by
  cases h with
  | waiting hst hacc hcode hm => exact .waiting (hst.elsewhere he) hacc hcode hm
  | admitted hst hadv hacc hm => exact .admitted (hst.elsewhere he) hadv hacc hm

theorem leaves_serving (ha : Arrives r) (hk : r.kind = .buy resource price)
    (hst : Stands cfg r.claim.session cumulative nonce s.db)
    (h : Serving cfg r s s₁ stage missed) :
    Leaves cfg r.claim price cumulative nonce s₁ stage missed := by
  induction h with
  | start =>
    refine .waiting hst (arrives_accepted ha) (fun code hcode => ?_)
      (Option.some_ne_none _).symm
    rw [Arrives, hcode] at ha
    split_ifs at ha
    cases ha
    exact explained_other (by decide)
  | elsewhere _ he ih => exact ih.elsewhere he
  | advance _ ih => exact leaves_advance hk ih
  | fail _ hc ih => exact leaves_failed hc ih

end Moves

/-! ### Alone -/

section Alone
variable (cfg : Config) (fails : Call → Bool) (s : Shared) (r : Request)

/-- The call of a lone purchase that has failed after some moves. -/
def missedCall : ℕ → Option Call
  | 0 => none
  | n + 1 =>
    if (call? (handle cfg fails s r n).2).any fails then call? (handle cfg fails s r n).2
    else missedCall n

variable {fails} in
theorem missedCall_of_never (h : ∀ c, fails c = false) (n : ℕ) :
    missedCall cfg fails s r n = none := by
  induction n with
  | zero => rfl
  | succ n ih =>
    rw [missedCall, if_neg, ih]
    cases call? (handle cfg fails s r n).2 with
    | none => exact Bool.false_ne_true
    | some c => simp [h c]

theorem serving_handle (n : ℕ) : Serving cfg r s (handle cfg fails s r n).1
    (handle cfg fails s r n).2 (missedCall cfg fails s r n) := by
  induction n with
  | zero => exact .start
  | succ n ih =>
    rw [handle, attempt, missedCall]
    simp only
    split_ifs with hf
    · rcases hc : call? (handle cfg fails s r n).2 with _ | c
      · rw [hc] at hf
        cases hf
      · exact .fail ih hc
    · exact .advance ih

end Alone

end AgentPay.UndisturbedSessions
