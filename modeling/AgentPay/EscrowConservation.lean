import AgentPay.EscrowInvariant

/-!
# Conservation of escrowed tokens

Over any run, what a vault holds is what was deposited, less what was settled
and refunded, plus what other transfers put in. The amounts are read off the
history as balance differences, so nothing here trusts the session's own
counters: the counters are shown to agree with the tokens that moved.
-/
namespace AgentPay.EscrowConservation
open SolanaRuntime EscrowState ClaimMessage EscrowProgram EscrowEffects EscrowInvariant
open Fallible Runs

section Flows
variable (key v : Pubkey)

def opens : Label → Bool
  | .call (.openSession _ a _) => a.session = key
  | _ => false

def settles : Label → Bool
  | .call (.settleSession _ _ a _) => a.session = key
  | _ => false

def refunds : Label → Bool
  | .call (.refundSession _ a) => a.session = key
  | _ => false

/-- Everything but the session's own instructions. -/
def others (i : Label) : Bool := !(opens key i || settles key i || refunds key i)

def debited (L L' : EscrowLedger) : ℕ := balance L v - balance L' v

def credited (L L' : EscrowLedger) : ℕ := balance L' v - balance L v

/-- What `settle_session` moved out of the vault over the run. -/
def settledOut (h : History EscrowLedger Label) : ℕ := h.total (settles key) (debited v)

/-- What `refund_session` moved out of the vault over the run. -/
def refundedOut (h : History EscrowLedger Label) : ℕ := h.total (refunds key) (debited v)

/-- What other transfers put into the vault over the run. -/
def receivedIn (h : History EscrowLedger Label) : ℕ := h.total (others key) (credited v)

end Flows

structure Booked (key : Pubkey) (i : Label) (L L' : EscrowLedger) (s s' : Session) : Prop where
  vault : s'.vault = s.vault
  mint : s'.mint = s.mint
  deposited : s'.depositedTotal = s.depositedTotal
  settled : s'.cumulativeSettled.toNat =
    (if settles key i then debited s.vault L L' else 0) + s.cumulativeSettled.toNat
  refunded : s'.refundedTotal.toNat =
    (if refunds key i then debited s.vault L L' else 0) + s.refundedTotal.toNat
  held : balance L' s.vault + s'.cumulativeSettled.toNat + s'.refundedTotal.toNat =
    balance L s.vault + s.cumulativeSettled.toNat + s.refundedTotal.toNat +
      if others key i then credited s.vault L L' else 0

section Steps
variable {rt : Runtime} {L L' : EscrowLedger} {i : Label} {key : Pubkey} {s : Session}

/-- A step that is none of the session's own and takes nothing out. -/
theorem booked_other (ho : opens key i = false) (hs : settles key i = false)
    (hr : refunds key i = false) (hle : balance L s.vault ≤ balance L' s.vault) :
    Booked key i L L' s s := by
  refine ⟨rfl, rfl, rfl, ?_, ?_, ?_⟩
  · simp [hs]
  · simp [hr]
  · simp only [others, ho, hs, hr, credited, Bool.or_self, Bool.not_false, ↓reduceIte]
    omega

/-- A call that failed moved nothing, whatever it was. -/
theorem booked_rejected : Booked key i L L s s := by
  refine ⟨rfl, rfl, rfl, ?_, ?_, ?_⟩
  · simp [debited]
  · simp [debited]
  · simp [credited]

theorem balance_of_rebalanced {t : TokenAccount} {k : Pubkey} {p : ℕ → Prop}
    (h : Rebalanced L L' k t p) : p (balance L' k) := by
  obtain ⟨-, n, hd, hp⟩ := h
  rwa [balance_of_token hd]

theorem booked_outcome (hI : Sound rt L) (h : Outcome rt L i L')
    (hs : sessionAt rt L key = some s) :
    ∃ s', sessionAt rt L' key = some s' ∧ Booked key i L L' s s' := by
  have hsound := hI.session key s hs
  obtain ⟨n, hn⟩ := hsound.vault.2
  have hbal := balance_of_token hn
  cases h with
  | external hx =>
    refine ⟨s, (External.sessionAt hx key).trans hs, booked_other rfl rfl rfl ?_⟩
    obtain ⟨-, m, hle, hm⟩ := hx.held _ _ hn (rt.programAddress_of_derive hsound.derived)
    rw [hbal, balance_of_token hm]
    exact hle
  | rejected _ => exact ⟨s, hs, booked_rejected⟩
  | @opened L' now a args s₁ hsig h =>
    have hne : a.session ≠ key := by
      rintro rfl
      rw [sessionAt_empty h.sessionUnused] at hs
      cases hs
    have hagent : key ≠ a.agent := by
      rintro rfl
      exact hsig (rt.programAddress_of_derive hsound.derived)
    refine ⟨s, ?_, booked_other (by simp [opens, hne]) rfl rfl ?_⟩
    · rw [Opened.sessionAt h, if_neg hne.symm, hs]
    · rw [hbal]
      exact balance_of_rebalanced (Opened.held h hn hagent)
  | @settled L' now sysvar a args s₁ delta h =>
    have hheld := balance_of_rebalanced (Settled.held h hn)
    by_cases hk : key = a.session
    · subst hk
      have he : s₁ = s := Option.some.inj (h.loaded.symm.trans hs)
      subst he
      have hamounts := settleAmounts_eq_ok.mp h.amounts
      rw [if_pos h.vault, ← hbal] at hheld
      refine ⟨_, (Settled.sessionAt h _).trans (if_pos rfl), rfl, rfl, rfl, ?_, ?_, ?_⟩
      · simp only [settles, debited, Session.settledAt, decide_true, ↓reduceIte]
        omega
      · simp [refunds, Session.settledAt]
      · simp only [others, settles, Session.settledAt, decide_true, Bool.or_true, Bool.true_or,
          Bool.not_true, Bool.false_eq_true, ↓reduceIte]
        omega
    · have hne : s.vault ≠ a.vault := by
        intro he
        have hd := hsound.vaultDerived
        rw [he] at hd
        exact hk (vaultSeeds_injective hd h.vaultDerived)
      rw [if_neg hne, ← hbal] at hheld
      refine ⟨s, ?_, booked_other rfl (by simp [settles, Ne.symm hk]) rfl hheld⟩
      rw [Settled.sessionAt h, if_neg hk, hs]
  | @refunded L' now a s₁ remaining total h =>
    have hheld := balance_of_rebalanced (Refunded.held h hn)
    by_cases hk : key = a.session
    · subst hk
      have he : s₁ = s := Option.some.inj (h.loaded.symm.trans hs)
      subst he
      have hsum := h.sum
      rw [if_pos h.vault, ← hbal] at hheld
      refine ⟨_, (Refunded.sessionAt h _).trans (if_pos rfl), rfl, rfl, rfl, ?_, ?_, ?_⟩
      · simp [settles, Session.refundedTo]
      · simp only [refunds, debited, Session.refundedTo, decide_true, ↓reduceIte]
        omega
      · simp only [others, refunds, Session.refundedTo, decide_true, Bool.or_true,
          Bool.not_true, Bool.false_eq_true, ↓reduceIte]
        omega
    · have hne : s.vault ≠ a.vault := by
        intro he
        have hd := hsound.vaultDerived
        rw [he] at hd
        exact hk (vaultSeeds_injective hd h.vaultDerived)
      rw [if_neg hne, ← hbal] at hheld
      refine ⟨s, ?_, booked_other rfl rfl (by simp [refunds, Ne.symm hk]) hheld⟩
      rw [Refunded.sessionAt h, if_neg hk, hs]

theorem opened_of_new (h : Outcome rt L i L') (hn : sessionAt rt L key = none)
    (hs : sessionAt rt L' key = some s) :
    ∃ now a args, i = .call (.openSession now a args) ∧ a.session = key ∧
      Opened rt L L' now a args s := by
  cases h with
  | external hx =>
    rw [External.sessionAt hx, hn] at hs
    cases hs
  | rejected _ =>
    rw [hn] at hs
    cases hs
  | @opened L' now a args s₁ hsig h =>
    have hs' := hs
    rw [Opened.sessionAt h] at hs
    split_ifs at hs with hk
    · obtain rfl := Option.some.inj hs
      exact ⟨now, a, args, rfl, hk.symm, h⟩
    · rw [hn] at hs
      cases hs
  | @settled L' now sysvar a args s₁ delta h =>
    rw [Settled.sessionAt h] at hs
    split_ifs at hs with hk
    · rw [hk, h.loaded] at hn
      cases hn
    · rw [hn] at hs
      cases hs
  | @refunded L' now a s₁ remaining total h =>
    rw [Refunded.sessionAt h] at hs
    split_ifs at hs with hk
    · rw [hk, h.loaded] at hn
      cases hn
    · rw [hn] at hs
      cases hs

end Steps

section RunBooks
variable {rt : Runtime} {L₀ L : EscrowLedger} {h : History EscrowLedger Label} {key : Pubkey}

theorem balance_unused {k : Pubkey} (hu : Unused L k) : balance L k = 0 := by
  simp [balance, hu.2, AccountData.token?]

/-- Before its session is opened a vault address sees no token. -/
theorem flows_unopened (hr : Run (Step rt) L₀ h L) (hg : Genesis rt L₀) {b : UInt8} {v : Pubkey}
    (hv : rt.derive (vaultSeeds key) b = some v) (hn : sessionAt rt L key = none) :
    settledOut key v h = 0 ∧ refundedOut key v h = 0 ∧ receivedIn key v h = 0 := by
  induction hr with
  | start => exact ⟨rfl, rfl, rfl⟩
  | @step h L L' i hr hs ih =>
    have hI : Sound rt L := sound_run (sound_genesis hg) hr
    have ho := step_outcome hs
    have hbefore : sessionAt rt L key = none := by
      rcases hb : sessionAt rt L key with _ | s
      · rfl
      · obtain ⟨s', hs', -⟩ := booked_outcome hI ho hb
        rw [hn] at hs'
        cases hs'
    obtain ⟨h₁, h₂, h₃⟩ := ih hbefore
    have hb := balance_unused (hI.dormant key hbefore b v (.inl hv))
    have hb' := balance_unused ((sound_outcome hI ho).dormant key hn b v (.inl hv))
    simp only [settledOut, refundedOut, receivedIn] at h₁ h₂ h₃
    simp only [settledOut, refundedOut, receivedIn, History.total, debited, credited, hb, hb',
      h₁, h₂, h₃, Nat.sub_self, ite_self, and_self]

/-- The books of a session after a run. The fee of the session's mint was
withheld once, from the deposit; the vault itself is never credited by the
session's own instructions again. -/
structure Books (rt : Runtime) (h : History EscrowLedger Label) (L : EscrowLedger) (key : Pubkey)
    (s : Session) : Prop where
  settled : settledOut key s.vault h = s.cumulativeSettled.toNat
  refunded : refundedOut key s.vault h = s.refundedTotal.toNat
  held : balance L s.vault + rt.fee s.mint s.depositedTotal.toNat + s.cumulativeSettled.toNat +
    s.refundedTotal.toNat = s.depositedTotal.toNat + receivedIn key s.vault h

theorem books_opened (hr : Run (Step rt) L₀ h L) (hg : Genesis rt L₀) {L' : EscrowLedger}
    {now : Int64} {a : OpenAccounts} {args : OpenArgs} {s : Session}
    (ho : Opened rt L L' now a args s) :
    Books rt (⟨L, .call (.openSession now a args), L'⟩ :: h) L' a.session s := by
  have hv := ho.vaultDerived
  have he : s = openedSession a args s.bump s.vaultBump := ho.opened
  have hvault : s.vault = a.vault := by rw [he]; rfl
  have hmint : s.mint = a.mint := by rw [he]; rfl
  have hdep : s.depositedTotal = args.depositAmount := by rw [he]; rfl
  have hset : s.cumulativeSettled = 0 := by rw [he]; rfl
  have href : s.refundedTotal = 0 := by rw [he]; rfl
  obtain ⟨h₁, h₂, h₃⟩ := flows_unopened hr hg hv (sessionAt_empty ho.sessionUnused)
  have hfee := rt.fee_le a.mint args.depositAmount.toNat
  simp only [settledOut, refundedOut, receivedIn] at h₁ h₂ h₃
  constructor
  · simp [settledOut, History.total, settles, hvault, h₁, hset]
  · simp [refundedOut, History.total, refunds, hvault, h₂, href]
  · simp only [receivedIn, History.total, others, opens, decide_true, Bool.true_or, Bool.not_true,
      Bool.false_eq_true, ↓reduceIte, hvault, hmint, hdep, hset, href, UInt64.toNat_zero, h₃,
      balance_of_token ho.vaultFunded.2]
    omega

theorem books_run (hr : Run (Step rt) L₀ h L) (hg : Genesis rt L₀) {s : Session}
    (hs : sessionAt rt L key = some s) : Books rt h L key s := by
  induction hr generalizing s with
  | start => exact absurd (sessionAt_eq_some.mp hs).1 (hg.owned key)
  | @step h L L' i hr hst ih =>
    have hI : Sound rt L := sound_run (sound_genesis hg) hr
    have ho := step_outcome hst
    rcases hb : sessionAt rt L key with _ | s₀
    · obtain ⟨now, a, args, rfl, rfl, hopen⟩ := opened_of_new ho hb hs
      exact books_opened hr hg hopen
    · obtain ⟨s', hs', hk⟩ := booked_outcome hI ho hb
      obtain rfl : s' = s := Option.some.inj (hs'.symm.trans hs)
      obtain ⟨h₁, h₂, h₃⟩ := ih hb
      have k₁ := hk.settled
      have k₂ := hk.refunded
      have k₃ := hk.held
      simp only [settledOut, refundedOut, receivedIn] at h₁ h₂ h₃
      constructor
      · rw [settledOut, History.total, hk.vault, h₁]
        exact k₁.symm
      · rw [refundedOut, History.total, hk.vault, h₂]
        exact k₂.symm
      · simp only [receivedIn, History.total, hk.vault, hk.mint, hk.deposited]
        omega

end RunBooks

section Faults
variable {rt : Runtime} {L : EscrowLedger} {now : Int64}

/-- The faults raised by counting an amount. -/
def isAmountFault : Fault → Bool
  | .overflow .settleDelta => true
  | .overflow .settledPlusRefunded => true
  | .overflow .lessSettled => true
  | .overflow .lessRefunded => true
  | .overflow .refundedTotal => true
  | .token .insufficientFunds => true
  | _ => false

theorem settleAccounts_raises {a : SettleAccounts} :
    Raises (isAmountFault · = false) (settleAccounts rt L a) := by
  simp [settleAccounts, tokenInterface, isAmountFault]

theorem refundAccounts_raises {a : RefundAccounts} :
    Raises (isAmountFault · = false) (refundAccounts rt L a) := by
  simp [refundAccounts, tokenInterface, isAmountFault]

theorem settleChecks_raises {s : Session} {args : SettleArgs} :
    Raises (isAmountFault · = false) (settleChecks s now args) := by
  simp [settleChecks, deadline, isAmountFault]

theorem verifyEd25519Claim_raises {sysvar : InstructionsSysvar} {signer : Pubkey}
    {message : List UInt8} :
    Raises (isAmountFault · = false) (verifyEd25519Claim sysvar signer message) := by
  simp [verifyEd25519Claim, readU16, byteAt, slice, isAmountFault]

theorem writeReceipt_raises {a : SettleAccounts} {bump : UInt8} {args : SettleArgs} :
    Raises (isAmountFault · = false) (writeReceipt rt L a bump now args) := by
  unfold writeReceipt
  split_ifs with h
  · simp [createAccount, canPay, isAmountFault]
  · simp [isAmountFault]

theorem refundGate_raises {s : Session} {caller : Pubkey} {expired : Bool} :
    Raises (isAmountFault · = false) (refundGate s caller expired) := by
  simp [refundGate, isAmountFault]

/-- An amount fault of a settlement arises in `settleAmounts` or in the
transfer, with all earlier checks passed. -/
theorem settleSession_amountFault {sysvar : InstructionsSysvar} {a : SettleAccounts}
    {args : SettleArgs} {f : Fault} (h : settleSession rt L now sysvar a args = .error f)
    (hf : isAmountFault f = true) :
    ∃ s bump, SettleAccountsValid rt L a s bump ∧ settleChecks s now args = .ok () ∧
      (settleAmounts s args = .error f ∨ ∃ delta, settleAmounts s args = .ok delta ∧
        ∃ e, transferChecked rt L a.tokenProgram a.vault a.mint a.providerTokenAccount a.session
          delta.toNat = .error e ∧ Fault.token e = f) := by
  have hno : ¬isAmountFault f = false := by simp [hf]
  simp only [settleSession, bind_eq_error, mapError_eq_error, mapError_eq_ok, pure_eq_error,
    settleAccounts_eq_ok, Prod.exists, or_false, exists_false, and_false] at h
  rcases h with h | ⟨s, bump, hv, h | ⟨⟨⟩, _, h | ⟨⟨⟩, hc, h | ⟨⟨⟩, _, h | ⟨delta, hd, h⟩⟩⟩⟩⟩
  · exact absurd (settleAccounts_raises f h) hno
  · simp only [settlerCheck, require_eq_error] at h
    rw [← h.2] at hf
    cases hf
  · exact absurd (settleChecks_raises f h) hno
  · exact absurd (verifyEd25519Claim_raises f h) hno
  · exact ⟨s, bump, hv, hc, .inl h⟩
  · rcases h with ⟨e, he, hfe⟩ | ⟨L₁, _, h⟩
    · exact ⟨s, bump, hv, hc, .inr ⟨delta, hd, e, he, hfe⟩⟩
    · exact absurd (writeReceipt_raises f h) hno

theorem refundSession_amountFault {a : RefundAccounts} {f : Fault}
    (h : refundSession rt L now a = .error f) (hf : isAmountFault f = true) :
    ∃ s, RefundAccountsValid rt L a s ∧
      (refundRemaining s = .error f ∨ ∃ remaining, refundRemaining s = .ok remaining ∧
        ((∃ e, transferChecked rt L a.tokenProgram a.vault a.mint a.agentTokenAccount a.session
          remaining.toNat = .error e ∧ Fault.token e = f) ∨
          s.refundedTotal.checkedAdd remaining = none)) := by
  have hno : ¬isAmountFault f = false := by simp [hf]
  simp only [refundSession, bind_eq_error, mapError_eq_error, mapError_eq_ok, pure_eq_error,
    okOr_eq_error, okOr_eq_ok, refundAccounts_eq_ok, or_false, exists_false, and_false] at h
  rcases h with h | ⟨s, hv, h | ⟨limit, _, h | ⟨⟨⟩, _, h | ⟨remaining, hr, h⟩⟩⟩⟩
  · exact absurd (refundAccounts_raises f h) hno
  · simp only [deadline, okOr_eq_error] at h
    rw [← h.2] at hf
    cases hf
  · exact absurd (refundGate_raises f h) hno
  · exact ⟨s, hv, .inl h⟩
  · rcases h with ⟨e, he, hfe⟩ | ⟨L₁, _, hsum, _⟩
    · exact ⟨s, hv, .inr ⟨remaining, hr, .inl ⟨e, he, hfe⟩⟩⟩
    · exact ⟨s, hv, .inr ⟨remaining, hr, .inr hsum⟩⟩

/-- A vault that holds what the counters say cannot lack it in a transfer. -/
theorem transfer_funded {program mint destination authority vault : Pubkey} {n : ℕ}
    {e : TokenError} (hle : n ≤ balance L vault)
    (h : transferChecked rt L program vault mint destination authority n = .error e) :
    isAmountFault (.token e) = false := by
  cases e with
  | insufficientFunds =>
    obtain ⟨src, hd, hlt⟩ := transferChecked_insufficientFunds h
    rw [balance_of_token hd] at hle
    omega
  | invalidAccount => rfl
  | mintMismatch => rfl
  | ownerMismatch => rfl

theorem settle_amountFault_only {sysvar : InstructionsSysvar} {a : SettleAccounts}
    {args : SettleArgs} {f : Fault} {s : Session} (hs : sessionAt rt L a.session = some s)
    (hheld : s.depositedTotal.toNat ≤
      balance L s.vault + s.cumulativeSettled.toNat + s.refundedTotal.toNat)
    (h : settleSession rt L now sysvar a args = .error f) (hf : isAmountFault f = true) :
    f = .overflow .settledPlusRefunded ∧
      s.depositedTotal.toNat < args.cumulativeAmount.toNat + s.refundedTotal.toNat := by
  obtain ⟨s', bump, hv, hc, hrest⟩ := settleSession_amountFault h hf
  obtain rfl : s' = s := Option.some.inj (hv.loaded.symm.trans hs)
  have hchecks := settleChecks_eq_ok.mp hc
  rcases hrest with herr | ⟨delta, hd, e, he, rfl⟩
  · simp only [settleAmounts, bind_eq_error, okOr_eq_error, okOr_eq_ok, require_eq_error,
      require_eq_ok, pure_eq_error, UInt64.checkedSub_eq_none, UInt64.checkedAdd_eq_none,
      and_false, or_false, exists_false] at herr
    rcases herr with ⟨hlt, _⟩ | ⟨_, _, ⟨hover, rfl⟩ | ⟨_, _, _, rfl⟩⟩
    · omega
    · have hlt := s'.depositedTotal.toNat_lt
      exact ⟨rfl, by omega⟩
    · cases hf
  · have hamounts := settleAmounts_eq_ok.mp hd
    have hle : delta.toNat ≤ balance L a.vault := by
      rw [← hv.vault]
      omega
    rw [transfer_funded hle he] at hf
    cases hf

theorem refund_no_amountFault {a : RefundAccounts} {f : Fault} {s : Session}
    (hs : sessionAt rt L a.session = some s)
    (hbounded : s.cumulativeSettled.toNat + s.refundedTotal.toNat ≤ s.depositedTotal.toNat)
    (hheld : s.depositedTotal.toNat ≤
      balance L s.vault + s.cumulativeSettled.toNat + s.refundedTotal.toNat)
    (h : refundSession rt L now a = .error f) : isAmountFault f = false := by
  by_contra hf
  rw [Bool.not_eq_false] at hf
  obtain ⟨s', hv, hrest⟩ := refundSession_amountFault h hf
  obtain rfl : s' = s := Option.some.inj (hv.loaded.symm.trans hs)
  have hlt := s'.depositedTotal.toNat_lt
  rcases hrest with herr | ⟨remaining, hr, ⟨e, he, rfl⟩ | hsum⟩
  · simp only [refundRemaining, bind_eq_error, okOr_eq_error, okOr_eq_ok, require_eq_error,
      require_eq_ok, pure_eq_error, UInt64.checkedSub_eq_none, UInt64.checkedSub_eq_some,
      and_false, or_false, exists_false] at herr
    rcases herr with ⟨hlt, _⟩ | ⟨unsettled, hu, ⟨hless, _⟩ | ⟨_, _, _, rfl⟩⟩
    · omega
    · omega
    · cases hf
  · have hrest := refundRemaining_eq_ok.mp hr
    have hle : remaining.toNat ≤ balance L a.vault := by
      rw [← hv.vault]
      omega
    rw [transfer_funded hle he] at hf
    cases hf
  · have hrest := refundRemaining_eq_ok.mp hr
    rw [UInt64.checkedAdd_eq_none] at hsum
    omega

end Faults

/-- What a run of the program guarantees for one session. -/
structure Conservation (rt : Runtime) (h : History EscrowLedger Label) (L : EscrowLedger)
    (key : Pubkey) (s : Session) : Prop where
  bounded : s.cumulativeSettled.toNat + s.refundedTotal.toNat ≤ s.depositedTotal.toNat
  held : balance L s.vault = s.depositedTotal.toNat - s.cumulativeSettled.toNat -
    s.refundedTotal.toNat + receivedIn key s.vault h
  settled : settledOut key s.vault h = s.cumulativeSettled.toNat
  refunded : refundedOut key s.vault h = s.refundedTotal.toNat
  settleCounts : ∀ now sysvar a args f, a.session = key →
    settleSession rt L now sysvar a args = .error f → isAmountFault f = true →
      f = .overflow .settledPlusRefunded ∧
        s.depositedTotal.toNat < args.cumulativeAmount.toNat + s.refundedTotal.toNat
  refundCounts : ∀ now a f, a.session = key →
    refundSession rt L now a = .error f → isAmountFault f = false

/-- Escrow conservation over every run, for every session whose mint transfers exactly what it
is asked to. Callers, accounts and clocks are arbitrary, calls may fail, and others may send
tokens to a vault at any time. -/
theorem escrow_conservation {rt : Runtime} {L₀ L : EscrowLedger}
    {h : History EscrowLedger Label} {key : Pubkey} {s : Session}
    (hr : Run (Step rt) L₀ h L) (hg : Genesis rt L₀) (hs : sessionAt rt L key = some s)
    (hexact : ∀ amount, rt.fee s.mint amount = 0) : Conservation rt h L key s := by
  have hsound := (sound_run (sound_genesis hg) hr).session key s hs
  have hbounded := hsound.bounded
  have hbooks := books_run hr hg hs
  have hheld := hbooks.held
  rw [hexact] at hheld
  constructor
  case bounded => exact hbounded
  case held => omega
  case settled => exact hbooks.settled
  case refunded => exact hbooks.refunded
  case settleCounts =>
    rintro now sysvar a args f rfl herr hf
    exact settle_amountFault_only hs (by omega) herr hf
  case refundCounts =>
    rintro now a f rfl herr
    exact refund_no_amountFault hs hbounded (by omega) herr

/-! ### A concrete deployment

The program's declared id, one session of two wallets, and the addresses the
runtime derives for it, each at bump 255. -/
namespace Bench

def agent : Pubkey := .filled 1
def provider : Pubkey := .filled 3
def authority : Pubkey := .filled 6
def mint : Pubkey := .filled 9
def outsider : Pubkey := .filled 10
def agentToken : Pubkey := .filled 11
def providerToken : Pubkey := .filled 12
def sessionId : SessionId := Vector.replicate 16 18

def session : Pubkey := #v[189, 73, 210, 170, 116, 65, 110, 132, 71, 94, 248, 136, 145, 77, 151,
  132, 243, 194, 41, 244, 42, 127, 159, 105, 159, 146, 7, 239, 203, 164, 137, 236]

def vault : Pubkey := #v[176, 12, 5, 131, 239, 216, 127, 38, 235, 54, 53, 188, 43, 143, 105, 150,
  52, 228, 48, 160, 84, 138, 212, 206, 144, 168, 179, 30, 163, 201, 175, 164]

def record : Pubkey := #v[120, 253, 238, 158, 105, 66, 191, 43, 52, 128, 226, 118, 174, 188, 93,
  252, 154, 52, 73, 228, 112, 180, 26, 84, 207, 35, 147, 139, 240, 181, 22, 159]

def table : List (List UInt8 × Pubkey) :=
  [((sessionSeeds agent provider sessionId).flatten ++ [255], session),
    ((vaultSeeds session).flatten ++ [255], vault),
    ((settlementSeeds session).flatten ++ [255], record)]

/-- SHA-256 of the claim for 100 with nonce 1 and expiry 4000. -/
def hash100 : Hash := #v[201, 52, 243, 198, 225, 153, 79, 102, 172, 121, 21, 232, 29, 222, 207,
  178, 201, 38, 115, 88, 9, 140, 150, 185, 175, 255, 98, 43, 30, 230, 136, 53]

/-- SHA-256 of the claim for 750 with nonce 2 and expiry 4000. -/
def hash750 : Hash := #v[203, 76, 159, 41, 77, 238, 106, 171, 15, 186, 59, 227, 2, 78, 2, 102,
  252, 127, 210, 213, 242, 50, 140, 93, 21, 184, 158, 237, 7, 157, 235, 86]

def sha256 (message : List UInt8) : Hash :=
  if message = buildClaimMessage session 750 2 4000 then hash750 else hash100

def runtime : Runtime := .ofTable agentpayId table sha256 (by decide +kernel) (by decide +kernel)
  agentpayId_ne_system agentpayId_ne_token

def wallet : Account ProgramData := ⟨10 ^ 9, systemProgramId, .empty⟩

def accounts : List (Pubkey × Account ProgramData) :=
  [(agent, wallet), (provider, wallet), (authority, wallet), (outsider, wallet),
    (mint, ⟨1461600, tokenProgramId, .mint 6⟩),
    (agentToken, ⟨2039280, tokenProgramId, .token ⟨mint, agent, 5000⟩⟩),
    (providerToken, ⟨2039280, tokenProgramId, .token ⟨mint, provider, 0⟩⟩)]

def genesis : EscrowLedger := ledgerOf accounts

theorem signer_of_not_mem {k : Pubkey} (h : k ∉ table.map Prod.snd) : runtime.Signer k :=
  fun hp => h (Runtime.mem_of_programAddress_ofTable hp)

theorem genesis_valid : Genesis runtime genesis := by
  refine genesis_ledgerOf ?_ ?_
  · decide +kernel
  · have hm : ∀ e ∈ accounts, e.1 ∉ table.map Prod.snd := by decide +kernel
    exact fun e he => signer_of_not_mem (hm e he)

def openCall : Call := .openSession 1000
  ⟨agent, provider, mint, session, vault, agentToken, tokenProgramId⟩
  ⟨sessionId, 1000, 5000, authority⟩

/-- A claim's signature instruction, then the settlement. -/
def claimSysvar (amount nonce : UInt64) : InstructionsSysvar :=
  ⟨[buildEd25519Instruction agent (Vector.replicate 64 0)
    (buildClaimMessage session amount nonce 4000), ⟨agentpayId, []⟩], 1⟩

def settleAccounts (settler : Pubkey) : SettleAccounts :=
  ⟨settler, session, record, vault, providerToken, mint, tokenProgramId⟩

def settleArgs (amount nonce : UInt64) : SettleArgs :=
  ⟨amount, nonce, 4000, Vector.replicate 32 0⟩

def settleCall (settler : Pubkey) (now : Int64) (amount nonce : UInt64) : Call :=
  .settleSession now (claimSysvar amount nonce) (settleAccounts settler) (settleArgs amount nonce)

def refundCall (caller : Pubkey) (now : Int64) : Call :=
  .refundSession now ⟨caller, session, vault, agentToken, mint, tokenProgramId⟩

/-- The session after the deposit, as later calls leave it. -/
def sessionWith (settled refunded : UInt64) : Session :=
  ⟨agent, provider, authority, mint, vault, 1000, settled, refunded, 5000, sessionId, 255, 255,
    decide (0 < settled)⟩

def afterOpen : EscrowLedger := apply runtime genesis openCall
def afterSettle : EscrowLedger := apply runtime afterOpen (settleCall authority 2000 100 1)
def afterRefund : EscrowLedger := apply runtime afterSettle (refundCall agent 2100)

def history : History EscrowLedger Label :=
  [⟨afterSettle, .call (refundCall agent 2100), afterRefund⟩,
    ⟨afterOpen, .call (settleCall authority 2000 100 1), afterSettle⟩,
    ⟨genesis, .call openCall, afterOpen⟩]

theorem run_afterOpen : Run (Step runtime) genesis [⟨genesis, .call openCall, afterOpen⟩]
    afterOpen :=
  Run.start.step (.call (signer_of_not_mem (by decide +kernel)))

theorem run_afterSettle : Run (Step runtime) genesis
    [⟨afterOpen, .call (settleCall authority 2000 100 1), afterSettle⟩,
      ⟨genesis, .call openCall, afterOpen⟩] afterSettle :=
  run_afterOpen.step (.call (signer_of_not_mem (by decide +kernel)))

theorem run_afterRefund : Run (Step runtime) genesis history afterRefund :=
  run_afterSettle.step (.call (signer_of_not_mem (by decide +kernel)))

end Bench

/-- A run that deposits 1000, settles 100 and refunds the other 900. -/
theorem escrow_conservation_bench :
    sessionAt Bench.runtime Bench.afterRefund Bench.session = some (Bench.sessionWith 100 900) ∧
      Conservation Bench.runtime Bench.history Bench.afterRefund Bench.session
        (Bench.sessionWith 100 900) := by
  have hs : sessionAt Bench.runtime Bench.afterRefund Bench.session =
      some (Bench.sessionWith 100 900) := by decide +kernel
  exact ⟨hs, escrow_conservation Bench.run_afterRefund Bench.genesis_valid hs (fun _ => rfl)⟩

end AgentPay.EscrowConservation
