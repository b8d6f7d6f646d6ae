import AgentPay.EscrowEffects

/-!
# The invariant of the program's reachable ledgers

A step is an external step, a rejected call, or one of the three effects; this
is `step_outcome`, and every invariant below is proved by its five cases. The
invariant ties each session to its derived addresses, to a vault that only the
session can debit, and to a receipt that exists exactly when the session has
settled; the addresses of a session that was never opened are unused.
-/
namespace AgentPay.EscrowInvariant
open SolanaRuntime EscrowState EscrowProgram EscrowEffects Fallible Runs

inductive Outcome (rt : Runtime) (L : EscrowLedger) : Label → EscrowLedger → Prop
  | external {L' : EscrowLedger} : External rt L L' → Outcome rt L .external L'
  | rejected {c : Call} {e : Fault} : execute rt L c = .error e → Outcome rt L (.call c) L
  | opened {L' : EscrowLedger} {now : Int64} {a : OpenAccounts} {args : OpenArgs} {s : Session} :
      rt.Signer a.agent → Opened rt L L' now a args s →
      Outcome rt L (.call (.openSession now a args)) L'
  | settled {L' : EscrowLedger} {now : Int64} {sysvar : ClaimMessage.InstructionsSysvar}
      {a : SettleAccounts} {args : SettleArgs} {s : Session} {delta : UInt64} :
      Settled rt L L' now sysvar a args s delta →
      Outcome rt L (.call (.settleSession now sysvar a args)) L'
  | refunded {L' : EscrowLedger} {now : Int64} {a : RefundAccounts} {s : Session}
      {remaining total : UInt64} : Refunded rt L L' now a s remaining total →
      Outcome rt L (.call (.refundSession now a)) L'

theorem step_outcome {rt : Runtime} {L L' : EscrowLedger} {i : Label} (h : Step rt L i L') :
    Outcome rt L i L' := by
  cases h with
  | external hx => exact .external hx
  | @call c hs =>
    unfold apply
    rcases ok_or_error (execute rt L c) with ⟨⟨L₁, ev⟩, hok⟩ | ⟨e, herr⟩
    · simp only [hok]
      cases c with
      | openSession now a args =>
        obtain ⟨s, hs'⟩ := openSession_effect hok
        exact .opened hs hs'
      | settleSession now sysvar a args =>
        obtain ⟨s, delta, hs'⟩ := settleSession_effect hok
        exact .settled hs'
      | refundSession now a =>
        obtain ⟨s, remaining, total, hs'⟩ := refundSession_effect hok
        exact .refunded hs'
    · simp only [herr]
      exact .rejected herr

section Frames
variable {rt : Runtime} {L L' : EscrowLedger} {k : Pubkey}

theorem Kept.sessionAt (h : Kept L L' k) : sessionAt rt L' k = sessionAt rt L k := by
  unfold EscrowState.sessionAt
  rw [h.1, h.2]

theorem Kept.recordAt (h : Kept L L' k) : recordAt rt L' k = recordAt rt L k := by
  unfold EscrowState.recordAt
  rw [h.1, h.2]

theorem Kept.unused (h : Kept L L' k) (hu : Unused L k) : Unused L' k :=
  ⟨h.1.trans hu.1, h.2.trans hu.2⟩

theorem sessionAt_of_data {d : AccountData ProgramData} (hd : (L k).data = d)
    (hn : ∀ s, d ≠ .program (.session s)) : sessionAt rt L k = none := by
  rcases h : sessionAt rt L k with _ | s
  · rfl
  · exact absurd (hd.symm.trans (sessionAt_eq_some.mp h).2) (hn s)

theorem sessionAt_token {t : TokenAccount} (hd : (L k).data = .token t) :
    sessionAt rt L k = none := sessionAt_of_data hd (fun s => by simp)

theorem sessionAt_empty (hu : Unused L k) : sessionAt rt L k = none :=
  sessionAt_of_data hu.2 (fun s => by simp)

theorem sessionAt_record {r : SettlementRecord} (h : recordAt rt L k = some r) :
    sessionAt rt L k = none :=
  sessionAt_of_data (recordAt_eq_some.mp h).2 (fun s => by simp)

theorem ReceiptReady.sessionAt {session : Pubkey} (h : ReceiptReady rt L session k) :
    sessionAt rt L k = none := by
  rcases h with hu | ⟨r, hr, -⟩
  · exact sessionAt_empty hu
  · exact sessionAt_record hr

theorem External.sessionAt (hx : External rt L L') (k : Pubkey) :
    sessionAt rt L' k = sessionAt rt L k := by
  by_cases ho : (L k).owner = rt.programId
  · obtain ⟨ho', hd, -⟩ := hx.owned k ho
    exact Kept.sessionAt ⟨ho'.trans ho.symm, hd⟩
  · have hl : EscrowState.sessionAt rt L k = none := by simp [EscrowState.sessionAt, ho]
    rw [hl]
    by_cases ho' : (L' k).owner = rt.programId
    · have hf := hx.foreign k ho ho'
      rcases hs : EscrowState.sessionAt rt L' k with _ | s
      · rfl
      · rw [(sessionAt_eq_some.mp hs).2] at hf
        cases hf
    · simp [EscrowState.sessionAt, ho']

end Frames

section SessionChange
variable {rt : Runtime} {L L' : EscrowLedger} {now : Int64}

theorem Opened.sessionAt {a : OpenAccounts} {args : OpenArgs} {s : Session}
    (h : Opened rt L L' now a args s) (k : Pubkey) :
    sessionAt rt L' k = if k = a.session then some s else sessionAt rt L k := by
  split_ifs with hk
  · rw [hk, sessionAt_eq_some]
    exact h.sessionWritten
  · by_cases hv : k = a.vault
    · subst hv
      rw [sessionAt_token h.vaultFunded.2, sessionAt_empty h.vaultUnused]
    · by_cases ht : k = a.agentTokenAccount
      · subst ht
        obtain ⟨t, ht, -, -, -, -, ht'⟩ := h.sourceDebited
        rw [sessionAt_token ht, sessionAt_token ht']
      · exact Kept.sessionAt (h.frame k hk hv ht)

theorem Settled.sessionAt {sysvar : ClaimMessage.InstructionsSysvar} {a : SettleAccounts}
    {args : SettleArgs} {s : Session} {delta : UInt64}
    (h : Settled rt L L' now sysvar a args s delta) (k : Pubkey) :
    sessionAt rt L' k =
      if k = a.session then some (Session.settledAt s args.cumulativeAmount)
      else sessionAt rt L k := by
  split_ifs with hk
  · rw [hk, sessionAt_eq_some]
    exact h.sessionWritten
  · by_cases hr : k = a.settlementRecord
    · subst hr
      obtain ⟨_, -, hr⟩ := h.receiptWritten
      rw [ReceiptReady.sessionAt h.ready, sessionAt_record (recordAt_eq_some.mpr hr)]
    · by_cases hv : k = a.vault
      · subst hv
        obtain ⟨t, ht, -, -, -, -, ht'⟩ := h.vaultDebited
        rw [sessionAt_token ht, sessionAt_token ht']
      · by_cases hp : k = a.providerTokenAccount
        · subst hp
          obtain ⟨t, ht, -, -, -, ht'⟩ := h.payeeCredited
          rw [sessionAt_token ht, sessionAt_token ht']
        · exact Kept.sessionAt (h.frame k hk hr hv hp)

theorem Refunded.sessionAt {a : RefundAccounts} {s : Session} {remaining total : UInt64}
    (h : Refunded rt L L' now a s remaining total) (k : Pubkey) :
    sessionAt rt L' k =
      if k = a.session then some (Session.refundedTo s total) else sessionAt rt L k := by
  split_ifs with hk
  · rw [hk, sessionAt_eq_some]
    exact h.sessionWritten
  · by_cases hv : k = a.vault
    · subst hv
      obtain ⟨t, ht, -, -, -, -, ht'⟩ := h.vaultDebited
      rw [sessionAt_token ht, sessionAt_token ht']
    · by_cases hp : k = a.agentTokenAccount
      · subst hp
        obtain ⟨t, ht, -, -, -, ht'⟩ := h.payeeCredited
        rw [sessionAt_token ht, sessionAt_token ht']
      · exact Kept.sessionAt (h.frame k hk hv hp)

end SessionChange

section Frame
variable {rt : Runtime} {L L' : EscrowLedger} {now : Int64} {k : Pubkey}

theorem Opened.kept {a : OpenAccounts} {args : OpenArgs} {s : Session}
    (h : Opened rt L L' now a args s) (hs : k ≠ a.session) (hv : k ≠ a.vault)
    (hd : (L k).data.token? = none) : Kept L L' k := by
  refine h.frame k hs hv ?_
  rintro rfl
  obtain ⟨t, ht, -⟩ := h.sourceDebited
  rw [ht] at hd
  cases hd

theorem Settled.kept {sysvar : ClaimMessage.InstructionsSysvar} {a : SettleAccounts}
    {args : SettleArgs} {s : Session} {delta : UInt64}
    (h : Settled rt L L' now sysvar a args s delta) (hs : k ≠ a.session)
    (hr : k ≠ a.settlementRecord) (hd : (L k).data.token? = none) : Kept L L' k := by
  refine h.frame k hs hr ?_ ?_
  · rintro rfl
    obtain ⟨t, ht, -⟩ := h.vaultDebited
    rw [ht] at hd
    cases hd
  · rintro rfl
    obtain ⟨t, ht, -⟩ := h.payeeCredited
    rw [ht] at hd
    cases hd

theorem Refunded.kept {a : RefundAccounts} {s : Session} {remaining total : UInt64}
    (h : Refunded rt L L' now a s remaining total) (hs : k ≠ a.session)
    (hd : (L k).data.token? = none) : Kept L L' k := by
  refine h.frame k hs ?_ ?_
  · rintro rfl
    obtain ⟨t, ht, -⟩ := h.vaultDebited
    rw [ht] at hd
    cases hd
  · rintro rfl
    obtain ⟨t, ht, -⟩ := h.payeeCredited
    rw [ht] at hd
    cases hd

end Frame

section HeldTokens
variable {rt : Runtime} {L L' : EscrowLedger} {now : Int64} {k : Pubkey} {t : TokenAccount}

/-- A token account after a step: same program, mint and holder, and a balance
that satisfies `p`. -/
def Rebalanced (L L' : EscrowLedger) (k : Pubkey) (t : TokenAccount) (p : ℕ → Prop) : Prop :=
  (L' k).owner = (L k).owner ∧ ∃ n, (L' k).data = .token { t with amount := n } ∧ p n

theorem Kept.rebalanced (h : Kept L L' k) (hd : (L k).data = .token t) :
    Rebalanced L L' k t (t.amount ≤ ·) :=
  ⟨h.1, t.amount, h.2.trans hd, le_rfl⟩

/-- Opening a session only debits accounts of its agent. -/
theorem Opened.held {a : OpenAccounts} {args : OpenArgs} {s : Session}
    (h : Opened rt L L' now a args s) (hd : (L k).data = .token t) (ho : t.owner ≠ a.agent) :
    Rebalanced L L' k t (t.amount ≤ ·) := by
  refine Kept.rebalanced (h.frame k ?_ ?_ ?_) hd
  · rintro rfl
    rw [h.sessionUnused.2] at hd
    cases hd
  · rintro rfl
    rw [h.vaultUnused.2] at hd
    cases hd
  · rintro rfl
    obtain ⟨t', ht, -, ho', -⟩ := h.sourceDebited
    rw [ht] at hd
    obtain rfl := AccountData.token.inj hd
    exact ho ho'

/-- Settling debits the vault it names and no other token account. -/
theorem Settled.held {sysvar : ClaimMessage.InstructionsSysvar} {a : SettleAccounts}
    {args : SettleArgs} {s : Session} {delta : UInt64}
    (h : Settled rt L L' now sysvar a args s delta) (hd : (L k).data = .token t) :
    Rebalanced L L' k t fun n =>
      if k = a.vault then n + delta.toNat = t.amount else t.amount ≤ n := by
  by_cases hv : k = a.vault
  · subst hv
    obtain ⟨t', ht, -, -, hle, ho, ht'⟩ := h.vaultDebited
    rw [ht] at hd
    obtain rfl := AccountData.token.inj hd
    refine ⟨ho, _, ht', ?_⟩
    simp only [↓reduceIte]
    exact Nat.sub_add_cancel hle
  · simp only [if_neg hv]
    by_cases hp : k = a.providerTokenAccount
    · subst hp
      obtain ⟨t', ht, -, -, ho, ht'⟩ := h.payeeCredited
      rw [ht] at hd
      obtain rfl := AccountData.token.inj hd
      exact ⟨ho, _, ht', Nat.le_add_right _ _⟩
    · refine Kept.rebalanced (h.frame k ?_ ?_ hv hp) hd
      · rintro rfl
        rw [(sessionAt_eq_some.mp h.loaded).2] at hd
        cases hd
      · rintro rfl
        rcases h.ready with hu | ⟨r, hr, -⟩
        · rw [hu.2] at hd
          cases hd
        · rw [(recordAt_eq_some.mp hr).2] at hd
          cases hd

/-- Refunding debits the vault it names and no other token account. -/
theorem Refunded.held {a : RefundAccounts} {s : Session} {remaining total : UInt64}
    (h : Refunded rt L L' now a s remaining total) (hd : (L k).data = .token t) :
    Rebalanced L L' k t fun n =>
      if k = a.vault then n + remaining.toNat = t.amount else t.amount ≤ n := by
  by_cases hv : k = a.vault
  · subst hv
    obtain ⟨t', ht, -, -, hle, ho, ht'⟩ := h.vaultDebited
    rw [ht] at hd
    obtain rfl := AccountData.token.inj hd
    refine ⟨ho, _, ht', ?_⟩
    simp only [↓reduceIte]
    exact Nat.sub_add_cancel hle
  · simp only [if_neg hv]
    by_cases hp : k = a.agentTokenAccount
    · subst hp
      obtain ⟨t', ht, -, -, ho, ht'⟩ := h.payeeCredited
      rw [ht] at hd
      obtain rfl := AccountData.token.inj hd
      exact ⟨ho, _, ht', Nat.le_add_right _ _⟩
    · refine Kept.rebalanced (h.frame k ?_ hv hp) hd
      rintro rfl
      rw [(sessionAt_eq_some.mp h.loaded).2] at hd
      cases hd

end HeldTokens

/-- The receipt of a session: unused before the first settlement, and then a
record of this session with its settled total. -/
def ReceiptAgrees (rt : Runtime) (L : EscrowLedger) (key : Pubkey) (s : Session) : Prop :=
  ∀ k b, rt.findProgramAddress (settlementSeeds key) = some (k, b) →
    if s.isSettled then
      ∃ r, recordAt rt L k = some r ∧ r.session = key ∧ r.settledAmount = s.cumulativeSettled
    else Unused L k

/-- A vault of the session, whatever its balance. -/
def HoldsVault (L : EscrowLedger) (key : Pubkey) (s : Session) : Prop :=
  ((L s.vault).owner = tokenProgramId ∨ (L s.vault).owner = token2022ProgramId) ∧
    ∃ n, (L s.vault).data = .token ⟨s.mint, key, n⟩

structure SessionSound (rt : Runtime) (L : EscrowLedger) (key : Pubkey) (s : Session) : Prop where
  derived : rt.derive (sessionSeeds s.agent s.provider s.sessionId) s.bump = some key
  vaultDerived : rt.derive (vaultSeeds key) s.vaultBump = some s.vault
  positive : 0 < s.depositedTotal.toNat
  bounded : s.cumulativeSettled.toNat + s.refundedTotal.toNat ≤ s.depositedTotal.toNat
  refundsAll : s.refundedTotal.toNat = 0 ∨
    s.cumulativeSettled.toNat + s.refundedTotal.toNat = s.depositedTotal.toNat
  settledIff : s.isSettled = true ↔ 0 < s.cumulativeSettled.toNat
  vault : HoldsVault L key s
  receipt : ReceiptAgrees rt L key s

/-- The invariant of every reachable ledger. -/
structure Sound (rt : Runtime) (L : EscrowLedger) : Prop where
  session : ∀ key s, sessionAt rt L key = some s → SessionSound rt L key s
  dormant : ∀ key, sessionAt rt L key = none → ∀ b k,
    rt.derive (vaultSeeds key) b = some k ∨ rt.derive (settlementSeeds key) b = some k →
      Unused L k

section Preservation
variable {rt : Runtime} {L L' : EscrowLedger} {now : Int64} {key : Pubkey} {s : Session}

theorem Rebalanced.holdsVault {n : ℕ} {p : ℕ → Prop} (hv : HoldsVault L key s)
    (h : Rebalanced L L' s.vault ⟨s.mint, key, n⟩ p) : HoldsVault L' key s := by
  obtain ⟨ho, m, hm, -⟩ := h
  unfold HoldsVault
  rw [ho]
  exact ⟨hv.1, m, hm⟩

/-- The receipt survives a step that keeps the receipt's address. -/
theorem ReceiptAgrees.of_kept (h : ReceiptAgrees rt L key s)
    (hk : ∀ k b, rt.findProgramAddress (settlementSeeds key) = some (k, b) →
      (L k).data.token? = none → Kept L L' k) : ReceiptAgrees rt L' key s := by
  intro k b hf
  have hr := h k b hf
  split_ifs at hr ⊢ with hs
  · obtain ⟨r, hr, hrest⟩ := hr
    have hd : (L k).data.token? = none := by
      rw [(recordAt_eq_some.mp hr).2]
      rfl
    exact ⟨r, (Kept.recordAt (hk k b hf hd)).trans hr, hrest⟩
  · have hd : (L k).data.token? = none := by
      rw [hr.2]
      rfl
    exact Kept.unused (hk k b hf hd) hr

/-- A session the step does not touch stays sound. -/
theorem SessionSound.of_frame (h : SessionSound rt L key s) (hv : HoldsVault L' key s)
    (hr : ReceiptAgrees rt L' key s) : SessionSound rt L' key s :=
  ⟨h.derived, h.vaultDerived, h.positive, h.bounded, h.refundsAll, h.settledIff, hv, hr⟩

theorem External.unusedKept (hx : External rt L L') {k : Pubkey} (hp : rt.ProgramAddress k)
    (hu : Unused L k) : Unused L' k := (hx.unused k hp hu).1

theorem External.recordAt (hx : External rt L L') {k : Pubkey} {r : SettlementRecord}
    (h : recordAt rt L k = some r) : recordAt rt L' k = some r := by
  obtain ⟨ho, hd⟩ := recordAt_eq_some.mp h
  obtain ⟨ho', hd', -⟩ := hx.owned k ho
  exact recordAt_eq_some.mpr ⟨ho', hd'.trans hd⟩

theorem sound_genesis (h : Genesis rt L) : Sound rt L := by
  constructor
  · intro key s hs
    exact absurd (sessionAt_eq_some.mp hs).1 (h.owned key)
  · intro key _ b k hd
    refine h.unused k ?_
    rcases hd with hd | hd
    · exact rt.programAddress_of_derive hd
    · exact rt.programAddress_of_derive hd

theorem sound_external (hI : Sound rt L) (hx : External rt L L') : Sound rt L' := by
  constructor
  · intro key s hs
    rw [External.sessionAt hx] at hs
    have h := hI.session key s hs
    obtain ⟨n, hn⟩ := h.vault.2
    have hheld := hx.held _ _ hn (rt.programAddress_of_derive h.derived)
    refine SessionSound.of_frame h ?_ ?_
    · obtain ⟨ho, m, -, hm⟩ := hheld
      exact Rebalanced.holdsVault (p := fun _ => True) h.vault ⟨ho, m, hm, trivial⟩
    · intro k b hf
      have hr := h.receipt k b hf
      split_ifs at hr ⊢ with hset
      · obtain ⟨r, hr, hrest⟩ := hr
        exact ⟨r, External.recordAt hx hr, hrest⟩
      · exact External.unusedKept hx (rt.programAddress_of_derive (rt.derive_of_find hf)) hr
  · intro key hs b k hd
    rw [External.sessionAt hx] at hs
    have hp : rt.ProgramAddress k := by
      rcases hd with hd | hd
      · exact rt.programAddress_of_derive hd
      · exact rt.programAddress_of_derive hd
    exact External.unusedKept hx hp (hI.dormant key hs b k hd)

theorem sound_opened {a : OpenAccounts} {args : OpenArgs} {s : Session} (hI : Sound rt L)
    (hsig : rt.Signer a.agent) (h : Opened rt L L' now a args s) : Sound rt L' := by
  constructor
  · intro key s' hs
    rw [Opened.sessionAt h] at hs
    split_ifs at hs with hk
    · obtain rfl := Option.some.inj hs
      subst hk
      have ho := h.opened
      have hder : rt.derive (sessionSeeds s.agent s.provider s.sessionId) s.bump =
          some a.session := by
        rw [ho]
        exact h.derived
      have hvault : s.vault = a.vault := by rw [ho]; rfl
      constructor
      case derived => exact hder
      case vaultDerived =>
        rw [hvault]
        exact h.vaultDerived
      case positive =>
        rw [ho]
        exact h.positive
      case bounded =>
        rw [ho]
        simp [openedSession]
      case refundsAll =>
        rw [ho]
        exact .inl rfl
      case settledIff =>
        rw [ho]
        simp [openedSession]
      case vault =>
        have hmint : s.mint = a.mint := by rw [ho]; rfl
        unfold HoldsVault
        rw [hvault, hmint, h.vaultFunded.1]
        exact ⟨h.program, _, h.vaultFunded.2⟩
      case receipt =>
        intro k b hf
        have hd := rt.derive_of_find hf
        have hu := hI.dormant a.session (sessionAt_empty h.sessionUnused) b k (.inr hd)
        have hset : s.isSettled = false := by rw [ho]; rfl
        have hdata : (L k).data.token? = none := by
          rw [hu.2]
          rfl
        have hkept := Opened.kept h (session_ne_record h.derived hd).symm
          (vault_ne_record h.vaultDerived hd).symm hdata
        rw [hset]
        exact Kept.unused hkept hu
    · have hold := hI.session key s' hs
      obtain ⟨n, hn⟩ := hold.vault.2
      have hne : key ≠ a.agent := by
        rintro rfl
        exact hsig (rt.programAddress_of_derive hold.derived)
      refine SessionSound.of_frame hold
        (Rebalanced.holdsVault hold.vault (Opened.held h hn hne)) ?_
      refine ReceiptAgrees.of_kept hold.receipt ?_
      intro k b hf hdata
      have hd := rt.derive_of_find hf
      exact Opened.kept h (session_ne_record h.derived hd).symm
        (vault_ne_record h.vaultDerived hd).symm hdata
  · intro key hs b k hd
    rw [Opened.sessionAt h] at hs
    split_ifs at hs with hk
    have hu := hI.dormant key hs b k hd
    have hdata : (L k).data.token? = none := by
      rw [hu.2]
      rfl
    refine Kept.unused (Opened.kept h ?_ ?_ hdata) hu
    · rcases hd with hd | hd
      · exact (session_ne_vault h.derived hd).symm
      · exact (session_ne_record h.derived hd).symm
    · rcases hd with hd | hd
      · rintro rfl
        exact hk (vaultSeeds_injective hd h.vaultDerived)
      · exact (vault_ne_record h.vaultDerived hd).symm

theorem sound_settled {sysvar : ClaimMessage.InstructionsSysvar} {a : SettleAccounts}
    {args : SettleArgs} {s : Session} {delta : UInt64} (hI : Sound rt L)
    (h : Settled rt L L' now sysvar a args s delta) : Sound rt L' := by
  obtain ⟨recordBump, hrecord, hrecordWritten⟩ := h.receiptWritten
  have hrd := rt.derive_of_find hrecord
  constructor
  · intro key s' hs
    rw [Settled.sessionAt h] at hs
    split_ifs at hs with hk
    · obtain rfl := Option.some.inj hs
      subst hk
      have hold := hI.session a.session s h.loaded
      have hchecks := settleChecks_eq_ok.mp h.checks
      have hamounts := settleAmounts_eq_ok.mp h.amounts
      obtain ⟨n, hn⟩ := hold.vault.2
      have hv : HoldsVault L' a.session s :=
        Rebalanced.holdsVault hold.vault (Settled.held h hn)
      constructor
      case derived => exact hold.derived
      case vaultDerived => exact hold.vaultDerived
      case positive => exact hold.positive
      case bounded => exact hamounts.2
      case refundsAll =>
        have hlt := hchecks.2.2.1
        have hall := hold.refundsAll
        left
        simp only [Session.settledAt]
        omega
      case settledIff =>
        have hlt := hchecks.2.2.1
        simp only [Session.settledAt, true_iff]
        omega
      case vault => exact hv
      case receipt =>
        intro k b hf
        rw [hrecord, Option.some.injEq, Prod.mk.injEq] at hf
        obtain ⟨rfl, rfl⟩ := hf
        exact ⟨_, recordAt_eq_some.mpr hrecordWritten, rfl, rfl⟩
    · have hold := hI.session key s' hs
      obtain ⟨n, hn⟩ := hold.vault.2
      refine SessionSound.of_frame hold
        (Rebalanced.holdsVault hold.vault (Settled.held h hn)) ?_
      refine ReceiptAgrees.of_kept hold.receipt ?_
      intro k b hf hdata
      have hd := rt.derive_of_find hf
      refine Settled.kept h (session_ne_record h.derived hd).symm ?_ hdata
      rintro rfl
      exact hk (settlementSeeds_injective hd hrd)
  · intro key hs b k hd
    rw [Settled.sessionAt h] at hs
    split_ifs at hs with hk
    have hu := hI.dormant key hs b k hd
    have hdata : (L k).data.token? = none := by
      rw [hu.2]
      rfl
    refine Kept.unused (Settled.kept h ?_ ?_ hdata) hu
    · rcases hd with hd | hd
      · exact (session_ne_vault h.derived hd).symm
      · exact (session_ne_record h.derived hd).symm
    · rcases hd with hd | hd
      · exact vault_ne_record hd hrd
      · rintro rfl
        exact hk (settlementSeeds_injective hd hrd)

theorem sound_refunded {a : RefundAccounts} {s : Session} {remaining total : UInt64}
    (hI : Sound rt L) (h : Refunded rt L L' now a s remaining total) : Sound rt L' := by
  constructor
  · intro key s' hs
    rw [Refunded.sessionAt h] at hs
    have hreceipt : ∀ s₀, ReceiptAgrees rt L key s₀ → ReceiptAgrees rt L' key s₀ := by
      intro s₀ hr
      refine ReceiptAgrees.of_kept hr ?_
      intro k b hf hdata
      exact Refunded.kept h (session_ne_record h.derived (rt.derive_of_find hf)).symm hdata
    split_ifs at hs with hk
    · obtain rfl := Option.some.inj hs
      subst hk
      have hold := hI.session a.session s h.loaded
      have hrest := refundRemaining_eq_ok.mp h.rest
      have hsum := h.sum
      obtain ⟨n, hn⟩ := hold.vault.2
      have hv : HoldsVault L' a.session s :=
        Rebalanced.holdsVault hold.vault (Refunded.held h hn)
      constructor
      case derived => exact hold.derived
      case vaultDerived => exact hold.vaultDerived
      case positive => exact hold.positive
      case bounded =>
        simp only [Session.refundedTo]
        omega
      case refundsAll =>
        right
        simp only [Session.refundedTo]
        omega
      case settledIff => exact hold.settledIff
      case vault => exact hv
      case receipt => exact hreceipt s hold.receipt
    · have hold := hI.session key s' hs
      obtain ⟨n, hn⟩ := hold.vault.2
      exact SessionSound.of_frame hold
        (Rebalanced.holdsVault hold.vault (Refunded.held h hn)) (hreceipt s' hold.receipt)
  · intro key hs b k hd
    rw [Refunded.sessionAt h] at hs
    split_ifs at hs with hk
    have hu := hI.dormant key hs b k hd
    have hdata : (L k).data.token? = none := by
      rw [hu.2]
      rfl
    refine Kept.unused (Refunded.kept h ?_ hdata) hu
    rcases hd with hd | hd
    · exact (session_ne_vault h.derived hd).symm
    · exact (session_ne_record h.derived hd).symm

theorem sound_outcome {i : Label} (hI : Sound rt L) (h : Outcome rt L i L') : Sound rt L' := by
  cases h with
  | external hx => exact sound_external hI hx
  | rejected _ => exact hI
  | opened hsig h => exact sound_opened hI hsig h
  | settled h => exact sound_settled hI h
  | refunded h => exact sound_refunded hI h

/-- Every ledger any run reaches satisfies the invariant. -/
theorem sound_reached (h : Reached rt L) : Sound rt L :=
  h.invariant (fun _ hg => sound_genesis hg) (fun _ _ _ hI hs => sound_outcome hI (step_outcome hs))

theorem sound_run {h : History EscrowLedger Label} (hI : Sound rt L)
    (hr : Run (Step rt) L h L') : Sound rt L' :=
  hr.invariant_all (fun _ _ _ hI hs => sound_outcome hI (step_outcome hs)) hI

end Preservation

/-- How a session may look after later steps: its terms are kept, its counters
only grow, and once settled it stays so. -/
structure Evolves (s s' : Session) : Prop where
  terms : s' = { s with
    cumulativeSettled := s'.cumulativeSettled
    refundedTotal := s'.refundedTotal
    isSettled := s'.isSettled }
  settledLe : s.cumulativeSettled.toNat ≤ s'.cumulativeSettled.toNat
  refundedLe : s.refundedTotal.toNat ≤ s'.refundedTotal.toNat
  stays : s.isSettled = true → s'.isSettled = true

section Evolution
variable {rt : Runtime} {L L' : EscrowLedger} {key : Pubkey} {s s' s'' : Session}

theorem Evolves.refl (s : Session) : Evolves s s := ⟨rfl, le_rfl, le_rfl, id⟩

theorem Evolves.trans (h₁ : Evolves s s') (h₂ : Evolves s' s'') : Evolves s s'' := by
  refine ⟨?_, h₁.settledLe.trans h₂.settledLe, h₁.refundedLe.trans h₂.refundedLe,
    fun hs => h₂.stays (h₁.stays hs)⟩
  have e₁ := h₁.terms
  have e₂ := h₂.terms
  rw [e₁] at e₂
  exact e₂

theorem evolves_outcome {i : Label} (h : Outcome rt L i L') (hs : sessionAt rt L key = some s) :
    ∃ s', sessionAt rt L' key = some s' ∧ Evolves s s' := by
  cases h with
  | external hx => exact ⟨s, (External.sessionAt hx key).trans hs, .refl s⟩
  | rejected _ => exact ⟨s, hs, .refl s⟩
  | opened hsig h =>
    refine ⟨s, ?_, .refl s⟩
    rw [Opened.sessionAt h, if_neg, hs]
    rintro rfl
    rw [sessionAt_empty h.sessionUnused] at hs
    cases hs
  | @settled L' now sysvar a args s₁ delta h =>
    rw [Settled.sessionAt h]
    split_ifs with hk
    · subst hk
      obtain rfl : s₁ = s := Option.some.inj (h.loaded.symm.trans hs)
      have hlt := (settleChecks_eq_ok.mp h.checks).2.2.1
      exact ⟨_, rfl, rfl, hlt.le, le_rfl, fun _ => rfl⟩
    · exact ⟨s, hs, .refl s⟩
  | @refunded L' now a s₁ remaining total h =>
    rw [Refunded.sessionAt h]
    split_ifs with hk
    · subst hk
      obtain rfl : s₁ = s := Option.some.inj (h.loaded.symm.trans hs)
      have hsum := h.sum
      exact ⟨_, rfl, rfl, le_rfl, by simp only [Session.refundedTo]; omega, id⟩
    · exact ⟨s, hs, .refl s⟩

theorem evolves_run {h : History EscrowLedger Label} (hr : Run (Step rt) L h L')
    (hs : sessionAt rt L key = some s) : ∃ s', sessionAt rt L' key = some s' ∧ Evolves s s' := by
  induction hr with
  | start => exact ⟨s, hs, .refl s⟩
  | step _ hstep ih =>
    obtain ⟨s₁, hs₁, he₁⟩ := ih
    obtain ⟨s₂, hs₂, he₂⟩ := evolves_outcome (step_outcome hstep) hs₁
    exact ⟨s₂, hs₂, he₁.trans he₂⟩

end Evolution

end AgentPay.EscrowInvariant
