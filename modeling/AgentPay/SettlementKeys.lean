import AgentPay.EscrowConservation
import AgentPay.SessionLayouts

/-!
# Which key settles a session

The choice of `settle_session`: the owner of the account is the program, its length is the
version, and the version picks the key. `verify_on_chain_session` compares every field the
gateway relies on later except the settlement authority. So a session of the current
program that names another authority is tracked, and the gateway's key cannot settle it.

Of the previous program it is used that it takes the provider as its only settler and
never rewrites the terms of a session.
-/
namespace AgentPay.SettlementKeys
open SolanaRuntime EscrowState EscrowProgram EscrowInvariant GatewayClaims SessionStore
open SessionLayouts EscrowConservation Fallible Runs
open SettlementRequests (Config Shared ClaimedSession claimedOf)

/-- The programs the gateway knows and the public keys it has loaded. -/
structure GatewayKeys where
  programId : Pubkey
  legacyProgramId : Option Pubkey
  settlementAuthority : Option Pubkey
  providerKeypair : Option Pubkey

/-- The program that is called and the key that signs. -/
def chooseSettler (keys : GatewayKeys) (fetched : Fetched) (record : SessionRecord) :
    Except ReasonCode (Pubkey × Pubkey) := do
  let (owningProgram, data) ← okOr fetched.join .chainUnavailable
  require (owningProgram = keys.programId ∨ keys.legacyProgramId = some owningProgram)
    .wrongProgramOwner
  let settler ← if data.length = sessionAccountLenV2 then
      okOr keys.settlementAuthority .settlementUnavailable
    else do
      let provider ← okOr keys.providerKeypair .settlementUnavailable
      require (provider = record.provider) .wrongProviderKey
      pure provider
  pure (owningProgram, settler)

/-- The check of the owning program: the provider may settle, and the authority where
there is one. -/
def MaySettle (a : SessionAccount) (settler : Pubkey) : Prop :=
  a.settlementAuthority = some settler ∨ settler = a.provider

/-- An account at a later time. -/
structure Later (a a' : SessionAccount) : Prop where
  terms : a' = { a with
    cumulativeSettled := a'.cumulativeSettled
    refundedTotal := a'.refundedTotal
    isSettled := a'.isSettled }

/-- The choice succeeds, calls the owner of the account, and its key passes the check. -/
def Settleable (keys : GatewayKeys) (owner : Pubkey) (a : SessionAccount)
    (record : SessionRecord) : Prop :=
  ∃ settler, chooseSettler keys (some (some (owner, a.serialize))) record = .ok (owner, settler) ∧
    MaySettle a settler

section Program
variable {rt : Runtime} {L L' : EscrowLedger} {key : Pubkey} {s s' : Session}

theorem settlerCheck_ofSession {settler : Pubkey} :
    settlerCheck s settler = .ok () ↔ MaySettle (ofSession s) settler := by
  rw [settlerCheck, require_eq_ok, MaySettle, ofSession, Option.some.injEq, eq_comm]

theorem later_of_evolves (h : Evolves s s') : Later (ofSession s) (ofSession s') := by
  constructor
  conv_lhs => rw [h.terms]
  rfl

/-- The current program keeps the terms of a session in every run. -/
theorem later_run {h : History EscrowLedger Label} (hr : Run (Step rt) L h L')
    (hs : sessionAt rt L key = some s) :
    ∃ s', sessionAt rt L' key = some s' ∧ Later (ofSession s) (ofSession s') := by
  rcases evolves_run hr hs with ⟨s', hs', he⟩
  exact ⟨s', hs', later_of_evolves he⟩

theorem settle_refused {now : Int64} {sysvar : ClaimMessage.InstructionsSysvar}
    {a : SettleAccounts} {args : SettleArgs} {r : EscrowLedger × Event}
    (hs : sessionAt rt L a.session = some s) (h : ¬MaySettle (ofSession s) a.settler) :
    settleSession rt L now sysvar a args ≠ .ok r := by
  rcases r with ⟨L', ev⟩
  intro hok
  rcases EscrowEffects.settleSession_eq_ok.mp hok with ⟨s₁, _, _, _, hv, hsettler, -⟩
  have hsame : s₁ = s := Option.some.inj (hv.loaded.symm.trans hs)
  subst hsame
  exact h (settlerCheck_ofSession.mp (require_eq_ok.mpr hsettler))

end Program

/-! ### The handler over the ledger makes the same choice -/

/-- The keys of a deployment on the current program alone. -/
def keysOf (cfg : Config) : GatewayKeys :=
  ⟨cfg.rt.programId, none, cfg.settlementAuthority.map (·.pubkey),
    cfg.providerKeypair.map (·.pubkey)⟩

theorem chooseSettler_ofSession {cfg : Config} {s : Shared} {session : Pubkey} {x : Session}
    {record : SessionRecord} (hx : sessionAt cfg.rt s.ledger session = some x)
    (hfetch : cfg.sessionFetcher = true) (hfunded : (s.ledger session).lamports ≠ 0) :
    chooseSettler (keysOf cfg)
        (some (some ((s.ledger session).owner, (ofSession x).serialize))) record =
      (SettlementRequests.chooseSettler cfg s session record).map
        fun settler => (cfg.rt.programId, settler.pubkey) := by
  rcases sessionAt_eq_some.mp hx with ⟨howner, hdata⟩
  have hv2 : SettlementRequests.isV2 (s.ledger session).data = true := by
    rw [hdata]
    rfl
  have hlen : (ofSession x).serialize.length = sessionAccountLenV2 := length_serialize _
  simp only [chooseSettler, SettlementRequests.chooseSettler, Option.join_some, okOr, ok_bind]
  rw [require_bind_of (.inl howner), require_bind_of ⟨hfetch, hfunded⟩, require_bind_of howner,
    if_pos hlen, if_pos hv2, howner]
  rcases hk : cfg.settlementAuthority with _ | settler
  · simp only [keysOf, hk]
    rfl
  · simp only [keysOf, hk]
    rfl

/-! ### The settler that is chosen -/

section Choosing
variable {keys : GatewayKeys} {authority owner : Pubkey} {a a' : SessionAccount}
variable {claimed : ClaimedSession} {record : SessionRecord}

/-- An account of a recognised program with its keys loaded: the provider of a session of
the previous program, the gateway's authority otherwise. -/
theorem chooseSettler_eq (hauth : keys.settlementAuthority = some authority)
    (hknown : owner = keys.programId ∨ keys.legacyProgramId = some owner)
    (hprovider : a.settlementAuthority = none → keys.providerKeypair = some a.provider)
    (hrecord : record.provider = a.provider) :
    chooseSettler keys (some (some (owner, a.serialize))) record =
      .ok (owner, if a.settlementAuthority.isSome then authority else a.provider) := by
  have hlen := length_serialize a
  simp only [chooseSettler, Option.join_some, okOr, ok_bind]
  rw [require_bind_of hknown, hlen]
  rcases h : a.settlementAuthority with _ | bound
  · rw [Option.isSome_none, if_neg Bool.false_ne_true, if_neg (by decide), hprovider h]
    simp only [ok_bind]
    rw [require_bind_of hrecord.symm]
    rfl
  · rw [Option.isSome_some, if_pos rfl, if_pos rfl, hauth]
    rfl

theorem maySettle_chosen_iff :
    MaySettle a (if a.settlementAuthority.isSome then authority else a.provider) ↔
      a.settlementAuthority = none ∨ a.settlementAuthority = some authority ∨
        a.provider = authority := by
  unfold MaySettle
  rcases a.settlementAuthority with _ | bound
  · simp
  · simp [eq_comm]

end Choosing

/-- A session that was accepted at open can be settled at any later time, with the claimed
terms in its record and the keys loaded, exactly if it has no settlement authority, or its
authority or its provider is the gateway's own key. -/
theorem tracked_session_settleable_iff {keys : GatewayKeys} {authority owner : Pubkey}
    {data : List UInt8} {a a' : SessionAccount} {claimed : ClaimedSession} {record : SessionRecord}
    (hopen : verifyOnChainSession keys.programId keys.legacyProgramId (some (some (owner, data)))
      claimed = .ok a)
    (hauth : keys.settlementAuthority = some authority)
    (hprovider : a.settlementAuthority = none → keys.providerKeypair = some a.provider)
    (hrecord : claimedOf record = claimed) (hlater : Later a a') :
    Settleable keys owner a' record ↔
      a.settlementAuthority = none ∨ a.settlementAuthority = some authority ∨
        a.provider = authority := by
  rcases verifyOnChainSession_eq_ok.mp hopen with ⟨owner', hfetched, hrec⟩
  have howner : owner' = owner := by
    rw [Option.some.injEq, Option.some.injEq, Prod.mk.injEq] at hfetched
    exact hfetched.1.symm
  subst howner
  have hauthority : a'.settlementAuthority = a.settlementAuthority := by rw [hlater.terms]
  have hpayee : a'.provider = a.provider := by rw [hlater.terms]
  have hstored : record.provider = a'.provider := by
    rw [hpayee, hrec.provider, ← hrecord]
    rfl
  have hchosen := chooseSettler_eq (a := a') hauth hrec.recognised
    (by rw [hauthority, hpayee]; exact hprovider) hstored
  rw [← hauthority, ← hpayee, ← maySettle_chosen_iff]
  constructor
  · rintro ⟨settler, hok, hmay⟩
    rw [hchosen, Except.ok.injEq, Prod.mk.injEq] at hok
    rw [hok.2]
    exact hmay
  · intro hmay
    exact ⟨_, hchosen, hmay⟩

/-! ### A session bound to another authority -/
namespace Bench
export EscrowConservation.Bench (agent provider authority mint session outsider runtime afterOpen
  sessionWith settleAccounts settleArgs claimSysvar genesis_valid run_afterOpen)

def claimed : ClaimedSession := ⟨agent, provider, mint, 1000, 5000⟩

def record : SessionRecord := .new session agent provider mint 1000 5000

/-- A gateway on the declared program with this key as its authority. -/
def keys (settlementAuthority : Pubkey) : GatewayKeys :=
  ⟨agentpayId, none, some settlementAuthority, none⟩

def opened : SessionAccount := ofSession (sessionWith 0 0)

theorem opened_verified (settlementAuthority : Pubkey) :
    verifyOnChainSession (keys settlementAuthority).programId
      (keys settlementAuthority).legacyProgramId (some (some (agentpayId, opened.serialize)))
        claimed = .ok opened :=
  verifyOnChainSession_eq_ok.mpr ⟨_, rfl, .inl rfl, rfl, rfl, rfl, rfl, rfl, rfl⟩

theorem afterOpen_session : sessionAt runtime afterOpen session = some (sessionWith 0 0) := by
  decide +kernel

end Bench

/-- The gateway whose key the session names settles it after a settlement of 100. -/
theorem tracked_session_settleable_bench :
    Settleable (Bench.keys Bench.authority) agentpayId (ofSession (Bench.sessionWith 100 0))
      Bench.record :=
  (tracked_session_settleable_iff (Bench.opened_verified _) rfl (fun h => by cases h) rfl
    ⟨rfl⟩).mpr (.inr (.inl rfl))

/-- A gateway with another key tracks the session, chooses its own key, and is refused. -/
theorem unbound_authority_refused :
    Reached Bench.runtime Bench.afterOpen ∧
      sessionAt Bench.runtime Bench.afterOpen Bench.session = some (Bench.sessionWith 0 0) ∧
      verifyOnChainSession (Bench.keys Bench.outsider).programId none
        (some (some (agentpayId, Bench.opened.serialize))) Bench.claimed = .ok Bench.opened ∧
      chooseSettler (Bench.keys Bench.outsider)
        (some (some (agentpayId, Bench.opened.serialize))) Bench.record =
          .ok (agentpayId, Bench.outsider) ∧
      error? (settleSession Bench.runtime Bench.afterOpen 2000 (Bench.claimSysvar 100 1)
        (Bench.settleAccounts Bench.outsider) (Bench.settleArgs 100 1)) =
          some (.program .unauthorizedSettler) ∧
      ¬Settleable (Bench.keys Bench.outsider) agentpayId Bench.opened Bench.record := by
  have hchosen : chooseSettler (Bench.keys Bench.outsider)
      (some (some (agentpayId, Bench.opened.serialize))) Bench.record =
        .ok (agentpayId, Bench.outsider) :=
    chooseSettler_eq (a := Bench.opened) rfl (.inl rfl) (fun h => by cases h) rfl
  refine ⟨⟨_, _, Bench.genesis_valid, Bench.run_afterOpen⟩, Bench.afterOpen_session,
    Bench.opened_verified _, hchosen, by decide +kernel, ?_⟩
  rintro ⟨settler, hok, hmay⟩
  rw [hchosen, Except.ok.injEq, Prod.mk.injEq] at hok
  rw [← hok.2] at hmay
  exact absurd (maySettle_chosen_iff.mp hmay) (by decide)

end AgentPay.SettlementKeys
