import AgentPay.EscrowConservation

/-!
# Refunds

A refund pays out everything the vault still owes, so a session sees at most
one. Settled plus refunded is then the whole deposit, and that sum is what
makes every later settlement and refund fail: no single guard of the program
says so.

The second half is about progress. Past the deadline a refund of anything that
is left goes through for every caller. That the mint's account still stands
then is not the program's doing: the token programs close a mint only when no
token of it exists, and `MintsKept` states that of the external steps.
-/
namespace AgentPay.EscrowRefunds
open SolanaRuntime EscrowState ClaimMessage EscrowProgram EscrowEffects EscrowInvariant
open EscrowConservation Fallible Runs

/-- A step of a run that was a call and succeeded. -/
def Succeeded (rt : Runtime) (t : Transition EscrowLedger Label) : Prop :=
  ∃ c r, t.label = .call c ∧ execute rt t.before c = .ok r

theorem unchanged_of_failed {rt : Runtime} {L L' : EscrowLedger} {c : Call}
    (hs : Step rt L (.call c) L') (hn : ¬Succeeded rt ⟨L, .call c, L'⟩) : L' = L := by
  cases hs
  rcases ok_or_error (execute rt L c) with ⟨r, hr⟩ | ⟨e, he⟩
  · exact absurd ⟨c, r, rfl, hr⟩ hn
  · simp only [apply, he]

def Session.remaining (s : Session) : ℕ :=
  s.depositedTotal.toNat - s.cumulativeSettled.toNat - s.refundedTotal.toNat

section Steps
variable {rt : Runtime} {L L' : EscrowLedger} {now : Int64} {key : Pubkey} {s : Session}

theorem settled_of_ok {sysvar : InstructionsSysvar} {a : SettleAccounts} {args : SettleArgs}
    {r : EscrowLedger × Event} (h : settleSession rt L now sysvar a args = .ok r)
    (hs : sessionAt rt L a.session = some s) :
    ∃ delta, Settled rt L r.1 now sysvar a args s delta := by
  rcases settleSession_effect h with ⟨s', delta, he⟩
  have hsame : s' = s := Option.some.inj (he.loaded.symm.trans hs)
  subst hsame
  exact ⟨delta, he⟩

theorem refunded_of_ok {a : RefundAccounts} {r : EscrowLedger × Event}
    (h : refundSession rt L now a = .ok r) (hs : sessionAt rt L a.session = some s) :
    ∃ remaining total, Refunded rt L r.1 now a s remaining total := by
  rcases refundSession_effect h with ⟨s', remaining, total, he⟩
  have hsame : s' = s := Option.some.inj (he.loaded.symm.trans hs)
  subst hsame
  exact ⟨remaining, total, he⟩

/-- A deposit that is used up admits no settlement. -/
theorem settle_fails {sysvar : InstructionsSysvar} {a : SettleAccounts} {args : SettleArgs}
    (hs : sessionAt rt L a.session = some s)
    (hall : s.cumulativeSettled.toNat + s.refundedTotal.toNat = s.depositedTotal.toNat)
    (r : EscrowLedger × Event) : settleSession rt L now sysvar a args ≠ .ok r := by
  intro h
  rcases settled_of_ok h hs with ⟨delta, he⟩
  have hlt := (settleChecks_eq_ok.mp he.checks).2.2.1
  have hle := (settleAmounts_eq_ok.mp he.amounts).2
  omega

theorem refund_fails {a : RefundAccounts} (hs : sessionAt rt L a.session = some s)
    (hall : s.cumulativeSettled.toNat + s.refundedTotal.toNat = s.depositedTotal.toNat)
    (r : EscrowLedger × Event) : refundSession rt L now a ≠ .ok r := by
  intro h
  rcases refunded_of_ok h hs with ⟨remaining, total, he⟩
  have hrest := refundRemaining_eq_ok.mp he.rest
  omega

end Steps

section Histories
variable {rt : Runtime} {L₀ L : EscrowLedger} {h : History EscrowLedger Label} {key : Pubkey}
variable {s : Session}

/-- After a refund the refunded total is positive in every later state. -/
theorem refunded_run (hr : Run (Step rt) L₀ h L) {t : Transition EscrowLedger Label}
    (ht : t ∈ h) (hk : refunds key t.label = true) (hok : Succeeded rt t) :
    ∃ s, sessionAt rt L key = some s ∧ 0 < s.refundedTotal.toNat := by
  induction hr with
  | start => cases ht
  | @step h L L' i hr hs ih =>
    rcases List.mem_cons.mp ht with rfl | ht
    · rcases hok with ⟨c, r, hc, hok⟩
      simp only at hc hok hk
      subst hc
      cases hs
      cases c with
      | openSession now a args => cases hk
      | settleSession now sysvar a args => cases hk
      | refundSession now a =>
        have hkey : a.session = key := of_decide_eq_true hk
        subst hkey
        rcases refundSession_effect hok with ⟨s, remaining, total, he⟩
        have hafter : apply rt L (.refundSession now a) = r.1 := by
          simp only [apply, hok]
        refine ⟨Session.refundedTo s total, ?_, ?_⟩
        · rw [hafter, Refunded.sessionAt he, if_pos rfl]
        · have hsum := he.sum
          have hrest := refundRemaining_eq_ok.mp he.rest
          simp only [Session.refundedTo]
          omega
    · rcases ih ht with ⟨s, hs₀, hpos⟩
      rcases evolves_outcome (step_outcome hs) hs₀ with ⟨s', hs', he⟩
      exact ⟨s', hs', hpos.trans_le he.refundedLe⟩

theorem settlement_of_settled (hr : Run (Step rt) L₀ h L) (hg : Genesis rt L₀)
    (hs : sessionAt rt L key = some s) (hset : s.isSettled = true) :
    ∃ t ∈ h, settles key t.label = true ∧ Succeeded rt t := by
  induction hr generalizing s with
  | start => exact absurd (sessionAt_eq_some.mp hs).1 (hg.owned key)
  | @step h L L' i hr hstep ih =>
    have earlier : ∀ s₀, sessionAt rt L key = some s₀ → s₀.isSettled = true →
        ∃ t ∈ ⟨L, i, L'⟩ :: h, settles key t.label = true ∧ Succeeded rt t := by
      intro s₀ hs₀ hset₀
      rcases ih hs₀ hset₀ with ⟨t, ht, hrest⟩
      exact ⟨t, List.mem_cons_of_mem _ ht, hrest⟩
    cases step_outcome hstep with
    | external hx =>
      rw [External.sessionAt hx] at hs
      exact earlier s hs hset
    | rejected _ => exact earlier s hs hset
    | @opened _ now a args s₁ _ ho =>
      rw [Opened.sessionAt ho] at hs
      split_ifs at hs with hk
      · cases hs
        rw [ho.opened] at hset
        cases hset
      · exact earlier s hs hset
    | @settled _ now sysvar a args s₁ delta he =>
      by_cases hk : key = a.session
      · by_cases hn : Succeeded rt ⟨L, .call (.settleSession now sysvar a args), L'⟩
        · exact ⟨_, List.mem_cons_self, by simp [settles, hk], hn⟩
        · rw [unchanged_of_failed hstep hn] at hs
          exact earlier s hs hset
      · rw [Settled.sessionAt he, if_neg hk] at hs
        exact earlier s hs hset
    | @refunded _ now a s₁ remaining total he =>
      rw [Refunded.sessionAt he] at hs
      split_ifs at hs with hk
      · cases hs
        subst hk
        exact earlier s₁ he.loaded hset
      · exact earlier s hs hset

/-- What the refund rules say of a session after a run. -/
structure RefundRules (rt : Runtime) (h : History EscrowLedger Label) (L : EscrowLedger)
    (key : Pubkey) (s : Session) : Prop where
  exhaustive : s.refundedTotal.toNat = 0 ∨
    s.refundedTotal.toNat = s.depositedTotal.toNat - s.cumulativeSettled.toNat
  final : ∀ t ∈ h, refunds key t.label = true → Succeeded rt t →
    (∀ now sysvar a args r, a.session = key → settleSession rt L now sysvar a args ≠ .ok r) ∧
      ∀ now a r, a.session = key → refundSession rt L now a ≠ .ok r
  early : ∀ now a r, a.session = key → now.toInt ≤ s.expiresAt.toInt + 30 →
    refundSession rt L now a = .ok r →
      a.caller = s.agent ∧ ∃ t ∈ h, settles key t.label = true ∧ Succeeded rt t
  exclusive : ∀ now sysvar a args r a' r', a.session = key → a'.session = key →
    a'.caller ≠ s.agent → settleSession rt L now sysvar a args = .ok r →
      refundSession rt L now a' ≠ .ok r'

end Histories

/-- Refunds are single, exhaustive and exclusive with settlement, in every state of every run.
Nothing is assumed of what the mint withholds, or of who calls and when. -/
theorem refunds_single_and_exclusive {rt : Runtime} {L₀ L : EscrowLedger}
    {h : History EscrowLedger Label} {key : Pubkey} {s : Session}
    (hr : Run (Step rt) L₀ h L) (hg : Genesis rt L₀) (hs : sessionAt rt L key = some s) :
    RefundRules rt h L key s := by
  have hsound := (sound_run (sound_genesis hg) hr).session key s hs
  have hall := hsound.refundsAll
  constructor
  case exhaustive => omega
  case final =>
    intro t ht hk hok
    rcases refunded_run hr ht hk hok with ⟨s', hs', hpos⟩
    have hsame : s' = s := Option.some.inj (hs'.symm.trans hs)
    subst hsame
    have hused : s'.cumulativeSettled.toNat + s'.refundedTotal.toNat =
      s'.depositedTotal.toNat := by omega
    constructor
    · intro now sysvar a args r hkey
      subst hkey
      exact settle_fails hs hused r
    · intro now a r hkey
      subst hkey
      exact refund_fails hs hused r
  case early =>
    intro now a r hkey hnow hok
    subst hkey
    rcases refunded_of_ok hok hs with ⟨remaining, total, he⟩
    rcases he.gate with hlate | ⟨hcaller, hset⟩
    · omega
    · exact ⟨hcaller, settlement_of_settled hr hg hs hset⟩
  case exclusive =>
    intro now sysvar a args r a' r' hkey hkey' hcaller hsettle hrefund
    subst hkey
    rw [← hkey'] at hs
    rcases refunded_of_ok hrefund hs with ⟨remaining, total, he⟩
    rw [hkey'] at hs
    rcases settled_of_ok hsettle hs with ⟨delta, hd⟩
    have hintime := (settleChecks_eq_ok.mp hd.checks).1.2
    rcases he.gate with hlate | ⟨hagent, -⟩
    · omega
    · exact hcaller hagent

/-- The rules after a run that settles 100 of 1000 and refunds the rest. -/
theorem refunds_single_and_exclusive_bench :
    RefundRules Bench.runtime Bench.history Bench.afterRefund Bench.session
      (Bench.sessionWith 100 900) := by
  have hs : sessionAt Bench.runtime Bench.afterRefund Bench.session =
      some (Bench.sessionWith 100 900) := by decide +kernel
  exact refunds_single_and_exclusive Bench.run_afterRefund Bench.genesis_valid hs

/-! ### Progress past the deadline -/

/-- No mint goes away while a derived address holds some of its tokens. -/
def MintsKept (rt : Runtime) (L L' : EscrowLedger) : Prop :=
  ∀ k t d, (L k).data = .token t → rt.ProgramAddress t.owner → 0 < t.amount →
    (L t.mint).data = .mint d →
      (L' t.mint).owner = (L t.mint).owner ∧ (L' t.mint).data = .mint d

/-- The mint of a session and its vault belong to one token program. -/
def MintStands (L : EscrowLedger) (s : Session) : Prop :=
  (L s.mint).owner = (L s.vault).owner ∧ ∃ d, (L s.mint).data = .mint d

section Mints
variable {rt : Runtime} {L L' : EscrowLedger} {now : Int64} {key : Pubkey} {s : Session}

theorem mint_of_interfaceMint {k : Pubkey} {d : UInt8} (h : interfaceMint L k = some d) :
    (L k).data = .mint d := by
  unfold interfaceMint at h
  split_ifs at h
  cases hm : (L k).data with
  | mint d' =>
    rw [hm] at h
    cases h
    rfl
  | _ =>
    rw [hm] at h
    cases h

/-- A session is opened over a mint of the token program it names. -/
theorem openSession_mint {a : OpenAccounts} {args : OpenArgs} {r : EscrowLedger × Event}
    (h : openSession rt L now a args = .ok r) :
    (L a.mint).owner = a.tokenProgram ∧ ∃ d, (L a.mint).data = .mint d := by
  simp only [openSession, bind_eq_ok, okOr_eq_ok, require_eq_ok, mapError_eq_ok,
    tokenInterface_eq_ok, Prod.exists, exists_and_left, exists_const] at h
  rcases h with ⟨d, hmint, own, -, -, key, bump, -, hkey, L₁, hinit₁, vkey, vaultBump, -, hvkey,
    L₂, hinit₂, -, -, -, -, life, -, -, L₃, htransfer, -⟩
  have hd := mint_of_interfaceMint hmint
  have hc₁ := initAccount_created hinit₁
  have hc₂ := initAccount_created hinit₂
  have hne₁ : a.mint ≠ a.session := by
    intro he
    rw [he, hc₁.unused.2] at hd
    cases hd
  have hk₁ := hc₁.frame _ hne₁
  have hne₂ : a.mint ≠ a.vault := by
    intro he
    have hu := hc₂.unused.2
    rw [← he, hk₁.2, hd] at hu
    cases hu
  have hk := hk₁.trans (hc₂.frame _ hne₂)
  rcases transferChecked_eq_ok.mp htransfer with ⟨_, _, _, _, _, _, _, hprogram, _⟩
  exact ⟨hk.1.symm.trans hprogram, d, hd⟩

theorem Kept.mintStands (h : MintStands L s) (hm : Kept L L' s.mint)
    (hv : (L' s.vault).owner = (L s.vault).owner) : MintStands L' s := by
  rcases h with ⟨ho, d, hd⟩
  refine ⟨?_, d, hm.2.trans hd⟩
  rw [hm.1, hv]
  exact ho

theorem Opened.mintStands {a : OpenAccounts} {args : OpenArgs} {r : EscrowLedger × Event}
    (hok : openSession rt L now a args = .ok r) (h : Opened rt L L' now a args s) :
    MintStands L' s := by
  rcases openSession_mint hok with ⟨ho, d, hd⟩
  have hkept : Kept L L' a.mint := by
    apply Opened.kept h
    · intro he
      rw [he, h.sessionUnused.2] at hd
      cases hd
    · intro he
      rw [he, h.vaultUnused.2] at hd
      cases hd
    · rw [hd]
      rfl
  have hm : s.mint = a.mint := by rw [h.opened]; rfl
  have hv : s.vault = a.vault := by rw [h.opened]; rfl
  unfold MintStands
  rw [hm, hv, hkept.1, hkept.2, h.vaultFunded.1]
  exact ⟨ho, d, hd⟩

/-- A call of the program leaves the mint of every session alone. -/
theorem mintStands_outcome {i : Label} (hI : Sound rt L) (h : Outcome rt L i L')
    (hs : sessionAt rt L key = some s) (hstands : MintStands L s)
    (hext : i = .external → (L' s.mint).owner = (L s.mint).owner ∧
      (L' s.mint).data = (L s.mint).data) : MintStands L' s := by
  have hsound := hI.session key s hs
  rcases hsound.vault.2 with ⟨n, hn⟩
  have hstands' := hstands
  rcases hstands' with ⟨-, d, hd⟩
  have hnone : (L s.mint).data.token? = none := by
    rw [hd]
    rfl
  cases h with
  | external hx =>
    have hheld := hx.held _ _ hn (rt.programAddress_of_derive hsound.derived)
    exact Kept.mintStands hstands (hext rfl) hheld.1
  | rejected _ => exact hstands
  | @opened _ now a args s₁ hsig ho =>
    have hagent : key ≠ a.agent := by
      intro he
      rw [← he] at hsig
      exact hsig (rt.programAddress_of_derive hsound.derived)
    apply Kept.mintStands hstands _ (Opened.held ho hn hagent).1
    apply Opened.kept ho _ _ hnone
    · intro he
      rw [he, ho.sessionUnused.2] at hd
      cases hd
    · intro he
      rw [he, ho.vaultUnused.2] at hd
      cases hd
  | @settled _ now sysvar a args s₁ delta he =>
    apply Kept.mintStands hstands _ (Settled.held he hn).1
    apply Settled.kept he _ _ hnone
    · intro hk
      rw [hk, (sessionAt_eq_some.mp he.loaded).2] at hd
      cases hd
    · intro hk
      rcases he.ready with hu | ⟨r, hrec, -⟩
      · rw [hk, hu.2] at hd
        cases hd
      · rw [hk, (recordAt_eq_some.mp hrec).2] at hd
        cases hd
  | @refunded _ now a s₁ remaining total he =>
    apply Kept.mintStands hstands _ (Refunded.held he hn).1
    apply Refunded.kept he _ hnone
    intro hk
    rw [hk, (sessionAt_eq_some.mp he.loaded).2] at hd
    cases hd

end Mints

section Progress
variable {rt : Runtime} {L₀ L : EscrowLedger} {h : History EscrowLedger Label} {key : Pubkey}
variable {s : Session}

/-- A vault holds at least what is left of its deposit. -/
theorem remaining_le_balance (hr : Run (Step rt) L₀ h L) (hg : Genesis rt L₀)
    (hs : sessionAt rt L key = some s) (hexact : ∀ amount, rt.fee s.mint amount = 0) :
    Session.remaining s ≤ balance L s.vault := by
  have hheld := (escrow_conservation hr hg hs hexact).held
  unfold Session.remaining
  omega

/-- The mint of a session with something left stands in every state of a run. -/
theorem mintStands_run (hr : Run (Step rt) L₀ h L) (hg : Genesis rt L₀)
    (hmints : ∀ t ∈ h, t.label = .external → MintsKept rt t.before t.after)
    (hs : sessionAt rt L key = some s) (hexact : ∀ amount, rt.fee s.mint amount = 0)
    (hleft : 0 < Session.remaining s) : MintStands L s := by
  induction hr generalizing s with
  | start => exact absurd (sessionAt_eq_some.mp hs).1 (hg.owned key)
  | @step h L L' i hr hstep ih =>
    have hI : Sound rt L := sound_run (sound_genesis hg) hr
    have ho := step_outcome hstep
    rcases hb : sessionAt rt L key with _ | s₀
    · rcases opened_of_new ho hb hs with ⟨now, a, args, rfl, rfl, hopen⟩
      by_cases hn : Succeeded rt ⟨L, .call (.openSession now a args), L'⟩
      · rcases hn with ⟨c, r, hc, hok⟩
        simp only [Label.call.injEq] at hc
        subst hc
        exact Opened.mintStands hok hopen
      · rw [unchanged_of_failed hstep hn, hb] at hs
        cases hs
    · rcases evolves_outcome ho hb with ⟨s', hs', he⟩
      have hsame : s' = s := Option.some.inj (hs'.symm.trans hs)
      subst hsame
      have hmint : s'.mint = s₀.mint := by rw [he.terms]
      have hvault : s'.vault = s₀.vault := by rw [he.terms]
      have hdep : s'.depositedTotal = s₀.depositedTotal := by rw [he.terms]
      have hleft₀ : 0 < Session.remaining s₀ := by
        have h₁ := he.settledLe
        have h₂ := he.refundedLe
        unfold Session.remaining at hleft ⊢
        rw [hdep] at hleft
        omega
      rw [hmint] at hexact
      have hstands : MintStands L s₀ :=
        ih (fun t ht => hmints t (List.mem_cons_of_mem _ ht)) hb hexact hleft₀
      have hkeep : MintStands L' s₀ := by
        apply mintStands_outcome hI ho hb hstands
        intro hext
        have hsound := hI.session key s₀ hb
        rcases hsound.vault.2 with ⟨n, hn⟩
        have hpos : 0 < n := by
          have hle := remaining_le_balance hr hg hb hexact
          rw [balance_of_token hn] at hle
          exact hleft₀.trans_le hle
        rcases hstands.2 with ⟨d, hd⟩
        have hk := hmints _ List.mem_cons_self hext s₀.vault _ d hn
          (rt.programAddress_of_derive hsound.derived) hpos hd
        exact ⟨hk.1, hk.2.trans hd.symm⟩
      unfold MintStands at hkeep ⊢
      rw [hmint, hvault]
      exact hkeep

end Progress

/-- The accounts of a refund as any caller can put them together, with a token
account of the agent for the session's mint. -/
structure RefundReady (rt : Runtime) (L : EscrowLedger) (a : RefundAccounts) (s : Session) :
    Prop where
  loaded : sessionAt rt L a.session = some s
  mint : a.mint = s.mint
  vault : a.vault = s.vault
  program : a.tokenProgram = (L s.vault).owner
  payee : ∃ t, tokenAt L a.tokenProgram a.agentTokenAccount = some t ∧ t.mint = s.mint ∧
    t.owner = s.agent

section Success
variable {rt : Runtime} {L : EscrowLedger} {now : Int64} {a : RefundAccounts} {s : Session}

theorem RefundReady.accountsValid (h : RefundReady rt L a s) (hs : SessionSound rt L a.session s)
    (hm : MintStands L s) : RefundAccountsValid rt L a s := by
  have hp := hs.vault.1
  rcases hs.vault.2 with ⟨n, hn⟩
  rcases h.payee with ⟨t, ht, htm, hto⟩
  rcases hm with ⟨hmo, d, hmd⟩
  have htk := tokenAt_eq_some.mp ht
  have hprogram : a.tokenProgram = tokenProgramId ∨ a.tokenProgram = token2022ProgramId := by
    rw [h.program]
    exact hp
  constructor
  case loaded => exact h.loaded
  case derived => exact hs.derived
  case mint => exact h.mint.symm
  case vault => exact h.vault.symm
  case vaultToken =>
    rw [h.vault]
    exact ⟨_, interfaceToken_eq_some.mpr ⟨hp, hn⟩⟩
  case vaultDerived =>
    rw [h.vault]
    exact hs.vaultDerived
  case payee =>
    refine ⟨t, interfaceToken_eq_some.mpr ⟨?_, htk.2⟩, htm.trans h.mint.symm, hto⟩
    rw [htk.1]
    exact hprogram
  case mintAccount =>
    refine ⟨d, ?_⟩
    unfold interfaceMint
    rw [h.mint, hmo, if_pos hp, hmd]
    rfl
  case program => exact hprogram

/-- A refund past the deadline goes through when something is left, the vault
holds it and the mint stands. -/
theorem refund_succeeds (h : RefundReady rt L a s) (hs : SessionSound rt L a.session s)
    (hm : MintStands L s) (hleft : 0 < Session.remaining s)
    (hheld : Session.remaining s ≤ balance L s.vault)
    (hlate : s.expiresAt.toInt + 30 < now.toInt) : ∃ r, refundSession rt L now a = .ok r := by
  have hlt := s.depositedTotal.toNat_lt
  have hbounded := hs.bounded
  have hnow := now.toInt_lt
  have hremaining := @UInt64.exists_toNat_eq (Session.remaining s) (by
    unfold Session.remaining
    omega)
  rcases hremaining with ⟨remaining, hr⟩
  have hsum : Session.remaining s + s.refundedTotal.toNat + s.cumulativeSettled.toNat =
      s.depositedTotal.toNat := by
    unfold Session.remaining
    omega
  have hdeadline : ∃ l, deadline s.expiresAt .refundDeadline = .ok l :=
    exists_deadline.mpr (by omega)
  rcases hdeadline with ⟨limit, hl⟩
  have hlimit := deadline_eq_ok.mp hl
  have htotal := @UInt64.exists_toNat_eq (s.refundedTotal.toNat + remaining.toNat) (by omega)
  rcases htotal with ⟨total, htot⟩
  rcases hs.vault.2 with ⟨n, hn⟩
  rcases h.payee with ⟨t, ht, htm, -⟩
  have hvault : tokenAt L a.tokenProgram a.vault = some ⟨s.mint, a.session, n⟩ := by
    rw [h.vault, tokenAt_eq_some]
    exact ⟨h.program.symm, hn⟩
  have hle : remaining.toNat ≤ n := by
    rw [balance_of_token hn] at hheld
    rw [hr]
    exact hheld
  have hmint : (L a.mint).owner = a.tokenProgram := by
    rw [h.mint, h.program]
    exact hm.1
  have htransfer : ∃ L₁, transferChecked rt L a.tokenProgram a.vault a.mint a.agentTokenAccount
      a.session remaining.toNat = .ok L₁ :=
    ⟨_, transferChecked_eq_ok.mpr ⟨_, t, hvault, ht, hle,
      ⟨h.mint.symm, htm.trans h.mint.symm⟩, rfl, hmint, rfl⟩⟩
  rcases htransfer with ⟨L₁, htransfer⟩
  refine ⟨_, refundSession_eq_ok.mpr ⟨s, limit, remaining, L₁, total, h.accountsValid hs hm, hl, ?_,
    refundRemaining_eq_ok.mpr ?_, htransfer, UInt64.checkedAdd_eq_some.mpr htot, rfl, rfl⟩⟩
  · left
    rw [Int64.lt_iff_toInt_lt]
    omega
  · rw [hr]
    exact ⟨hleft, hsum⟩

end Success

/-- Past its deadline a session can be refunded by anybody exactly when
something is left of its deposit; all of it goes to the agent, and nothing
stays behind. -/
theorem escrow_never_stuck {rt : Runtime} {L₀ L : EscrowLedger}
    {h : History EscrowLedger Label} {now : Int64} {a : RefundAccounts} {s : Session}
    (hr : Run (Step rt) L₀ h L) (hg : Genesis rt L₀)
    (hmints : ∀ t ∈ h, t.label = .external → MintsKept rt t.before t.after)
    (hexact : ∀ amount, rt.fee s.mint amount = 0) (hready : RefundReady rt L a s)
    (hlate : s.expiresAt.toInt + 30 < now.toInt) :
    ((∃ r, refundSession rt L now a = .ok r) ↔ 0 < Session.remaining s) ∧
      ∀ L' ev, refundSession rt L now a = .ok (L', ev) →
        balance L' a.agentTokenAccount =
            balance L a.agentTokenAccount + Session.remaining s ∧
          balance L' s.vault + Session.remaining s = balance L s.vault ∧
          ∃ s', sessionAt rt L' a.session = some s' ∧ Session.remaining s' = 0 := by
  have hs := hready.loaded
  have hsound := (sound_run (sound_genesis hg) hr).session _ _ hs
  constructor
  · constructor
    · intro hok
      rcases hok with ⟨r, hok⟩
      rcases refunded_of_ok hok hs with ⟨remaining, total, he⟩
      have hrest := refundRemaining_eq_ok.mp he.rest
      unfold Session.remaining
      omega
    · intro hleft
      exact refund_succeeds hready hsound (mintStands_run hr hg hmints hs hexact hleft) hleft
        (remaining_le_balance hr hg hs hexact) hlate
  · intro L' ev hok
    rcases refunded_of_ok hok hs with ⟨remaining, total, he⟩
    have hrest := refundRemaining_eq_ok.mp he.rest
    have hsum := he.sum
    have hamount : remaining.toNat = Session.remaining s := by
      unfold Session.remaining
      omega
    rcases he.payeeCredited with ⟨t, ht, -, -, -, ht'⟩
    rcases he.vaultDebited with ⟨v, hv, -, -, hle, -, hv'⟩
    refine ⟨?_, ?_, ?_⟩
    · rw [balance_of_token ht', balance_of_token ht, hexact, ← hamount]
      rfl
    · rw [he.vault, balance_of_token hv', balance_of_token hv, ← hamount]
      exact Nat.sub_add_cancel hle
    · refine ⟨_, (Refunded.sessionAt he _).trans (if_pos rfl), ?_⟩
      simp only [Session.remaining, Session.refundedTo]
      omega

/-- The session of 1000 with 100 settled, refunded after its deadline by somebody
who has no part in it. -/
theorem escrow_never_stuck_bench :
    ∃ L' ev, refundSession Bench.runtime Bench.afterSettle 6000
        ⟨Bench.outsider, Bench.session, Bench.vault, Bench.agentToken, Bench.mint,
          tokenProgramId⟩ = .ok (L', ev) ∧
      balance L' Bench.agentToken = balance Bench.afterSettle Bench.agentToken + 900 := by
  have hs : sessionAt Bench.runtime Bench.afterSettle Bench.session =
      some (Bench.sessionWith 100 0) := by decide +kernel
  have htoken : tokenAt Bench.afterSettle tokenProgramId Bench.agentToken =
      some ⟨Bench.mint, Bench.agent, 4000⟩ := by decide +kernel
  have hvault : tokenProgramId = (Bench.afterSettle Bench.vault).owner := by decide +kernel
  have hready : RefundReady Bench.runtime Bench.afterSettle ⟨Bench.outsider, Bench.session,
      Bench.vault, Bench.agentToken, Bench.mint, tokenProgramId⟩ (Bench.sessionWith 100 0) :=
    ⟨hs, rfl, rfl, hvault, _, htoken, rfl, rfl⟩
  have hmints : ∀ t ∈ [(⟨Bench.afterOpen, .call (Bench.settleCall Bench.authority 2000 100 1),
      Bench.afterSettle⟩ : Transition EscrowLedger Label),
      ⟨Bench.genesis, .call Bench.openCall, Bench.afterOpen⟩],
      t.label = .external → MintsKept Bench.runtime t.before t.after := by
    intro t ht hl
    simp only [List.mem_cons, List.not_mem_nil, or_false] at ht
    rcases ht with rfl | rfl
    · cases hl
    · cases hl
  have hmain := @escrow_never_stuck _ _ _ _ 6000 _ _ Bench.run_afterSettle Bench.genesis_valid
    hmints (fun _ => rfl) hready (by decide +kernel)
  have hleft : Session.remaining (Bench.sessionWith 100 0) = 900 := by decide +kernel
  rw [hleft] at hmain
  have hok := hmain.1.mpr (by decide)
  rcases hok with ⟨⟨L', ev⟩, hok⟩
  exact ⟨L', ev, hok, (hmain.2 L' ev hok).1⟩

end AgentPay.EscrowRefunds
