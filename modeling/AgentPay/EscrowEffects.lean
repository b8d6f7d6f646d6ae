import AgentPay.EscrowProgram

/-!
# What a successful call changes

One theorem per instruction states every guard that held and every account
that changed; all accounts it does not name keep owner and data. The named
accounts are pairwise distinct: derived addresses of different kinds differ
because their seeds have different lengths, and an account paid out to is
never the vault itself because a session's address does not occur among its
own seeds. Later modules use these theorems and never unfold an instruction.
-/
namespace AgentPay.EscrowEffects
open SolanaRuntime EscrowState ClaimMessage EscrowProgram Fallible

section Addresses
variable {rt : Runtime} {b b' : UInt8} {k key key' : Pubkey}
variable {agent provider : Pubkey} {sessionId : SessionId}

theorem derive_seeds_eq {x y : List (List UInt8)} (h : rt.derive x b = some k)
    (h' : rt.derive y b' = some k) : x.flatten ++ [b] = y.flatten ++ [b'] :=
  rt.create_injective h h'

theorem length_sessionSeeds : (sessionSeeds agent provider sessionId).flatten.length = 87 := by
  simp [sessionSeeds, sessionSeed]

theorem length_vaultSeeds : (vaultSeeds key).flatten.length = 37 := by
  simp [vaultSeeds, vaultSeed]

theorem length_settlementSeeds : (settlementSeeds key).flatten.length = 42 := by
  simp [settlementSeeds, settlementSeed]

theorem derive_ne_of_length {x y : List (List UInt8)} {j : Pubkey}
    (hl : x.flatten.length ≠ y.flatten.length) (h : rt.derive x b = some k)
    (h' : rt.derive y b' = some j) : k ≠ j := by
  rintro rfl
  have he := congrArg List.length (derive_seeds_eq h h')
  simp only [List.length_append, List.length_singleton] at he
  omega

theorem session_ne_vault {j : Pubkey}
    (h : rt.derive (sessionSeeds agent provider sessionId) b = some k)
    (h' : rt.derive (vaultSeeds key) b' = some j) : k ≠ j :=
  derive_ne_of_length (by rw [length_sessionSeeds, length_vaultSeeds]; omega) h h'

theorem session_ne_record {j : Pubkey}
    (h : rt.derive (sessionSeeds agent provider sessionId) b = some k)
    (h' : rt.derive (settlementSeeds key) b' = some j) : k ≠ j :=
  derive_ne_of_length (by rw [length_sessionSeeds, length_settlementSeeds]; omega) h h'

theorem vault_ne_record {j : Pubkey} (h : rt.derive (vaultSeeds key) b = some k)
    (h' : rt.derive (settlementSeeds key') b' = some j) : k ≠ j :=
  derive_ne_of_length (by rw [length_vaultSeeds, length_settlementSeeds]; omega) h h'

theorem vaultSeeds_injective (h : rt.derive (vaultSeeds key) b = some k)
    (h' : rt.derive (vaultSeeds key') b' = some k) : key = key' := by
  have he := derive_seeds_eq h h'
  simp only [vaultSeeds, List.flatten_cons, List.flatten_nil, List.append_nil,
    List.append_assoc, List.append_cancel_left_eq] at he
  have hk := (List.append_inj he (by simp)).1
  exact Vector.toList_inj.mp hk

theorem settlementSeeds_injective (h : rt.derive (settlementSeeds key) b = some k)
    (h' : rt.derive (settlementSeeds key') b' = some k) : key = key' := by
  have he := derive_seeds_eq h h'
  simp only [settlementSeeds, List.flatten_cons, List.flatten_nil, List.append_nil,
    List.append_assoc, List.append_cancel_left_eq] at he
  have hk := (List.append_inj he (by simp)).1
  exact Vector.toList_inj.mp hk

theorem session_ne_provider
    (h : rt.derive (sessionSeeds agent provider sessionId) b = some k) : k ≠ provider := by
  rintro rfl
  apply rt.create_fresh h (sessionSeed ++ agent.toList) (sessionId.toList ++ [b])
  simp [sessionSeeds]

theorem session_ne_agent
    (h : rt.derive (sessionSeeds agent provider sessionId) b = some k) : k ≠ agent := by
  rintro rfl
  apply rt.create_fresh h sessionSeed (provider.toList ++ (sessionId.toList ++ [b]))
  simp [sessionSeeds]

end Addresses

@[simp] theorem tokenInterface_eq_ok {program : Pubkey} {u : Unit} :
    tokenInterface program = .ok u ↔ program = tokenProgramId ∨ program = token2022ProgramId := by
  simp [tokenInterface]

@[simp] theorem setData_owner (L : EscrowLedger) (k j : Pubkey) (d : ProgramData) :
    (setData L k d j).owner = (L j).owner := by
  unfold setData
  by_cases h : j = k
  · subst h
    simp
  · simp [h]

@[simp] theorem setData_data (L : EscrowLedger) (k : Pubkey) (d : ProgramData) :
    (setData L k d k).data = .program d := by simp [setData]

@[simp] theorem setData_of_ne {L : EscrowLedger} {k j : Pubkey} {d : ProgramData} (h : j ≠ k) :
    setData L k d j = L j := by simp [setData, h]

/-- Everything a successful `open_session` relied on and wrote. -/
structure Opened (rt : Runtime) (L L' : EscrowLedger) (now : Int64) (a : OpenAccounts)
    (args : OpenArgs) (s : Session) : Prop where
  opened : s = openedSession a args s.bump s.vaultBump
  derived : rt.derive (sessionSeeds a.agent a.provider args.sessionId) s.bump = some a.session
  vaultDerived : rt.derive (vaultSeeds a.session) s.vaultBump = some a.vault
  positive : 0 < args.depositAmount.toNat
  future : now.toInt < args.expiresAt.toInt
  lifetime : args.expiresAt.toInt - now.toInt ≤ maxSessionDurationSecs.toInt
  program : a.tokenProgram = tokenProgramId ∨ a.tokenProgram = token2022ProgramId
  sessionUnused : Unused L a.session
  vaultUnused : Unused L a.vault
  sessionWritten : (L' a.session).owner = rt.programId ∧
    (L' a.session).data = .program (.session s)
  vaultFunded : (L' a.vault).owner = a.tokenProgram ∧ (L' a.vault).data = .token ⟨a.mint, a.session,
    args.depositAmount.toNat - rt.fee a.mint args.depositAmount.toNat⟩
  sourceDebited : ∃ t : TokenAccount, (L a.agentTokenAccount).data = .token t ∧
    t.mint = a.mint ∧ t.owner = a.agent ∧ args.depositAmount.toNat ≤ t.amount ∧
    (L' a.agentTokenAccount).owner = (L a.agentTokenAccount).owner ∧
    (L' a.agentTokenAccount).data = .token (t.debit args.depositAmount.toNat)
  frame : ∀ k, k ≠ a.session → k ≠ a.vault → k ≠ a.agentTokenAccount → Kept L L' k

theorem openSession_effect {rt : Runtime} {L L' : EscrowLedger} {now : Int64} {a : OpenAccounts}
    {args : OpenArgs} {ev : Event} (h : openSession rt L now a args = .ok (L', ev)) :
    ∃ s, Opened rt L L' now a args s := by
  simp only [openSession, bind_eq_ok, okOr_eq_ok, require_eq_ok, mapError_eq_ok, pure_eq_ok,
    tokenInterface_eq_ok, Prod.exists, Prod.mk.injEq, exists_and_left, exists_const] at h
  obtain ⟨-, -, own, hown, hprog, key, bump, hfind, rfl, L₁, hinit₁, vkey, vaultBump, hvfind, rfl,
    L₂, hinit₂, hmint, howner, hpos, hfuture, life, hlife, hmax, L₃, htransfer, rfl, -⟩ := h
  have hd := rt.derive_of_find hfind
  have hvd := rt.derive_of_find hvfind
  have hsv : a.session ≠ a.vault := session_ne_vault hd hvd
  have hc₁ := initAccount_created hinit₁
  have hc₂ := initAccount_created hinit₂
  have hownData := (interfaceToken_eq_some.mp hown).2
  have hvu : Unused L a.vault := by
    have hk := hc₁.frame a.vault hsv.symm
    exact ⟨hk.1.symm.trans hc₂.unused.1, hk.2.symm.trans hc₂.unused.2⟩
  have hss : a.agentTokenAccount ≠ a.session := by
    intro he
    rw [he, hc₁.unused.2] at hownData
    cases hownData
  have hsu : a.agentTokenAccount ≠ a.vault := by
    intro he
    rw [he, hvu.2] at hownData
    cases hownData
  obtain ⟨src, dst, hsrc, hdst, hle, ⟨-, hdm⟩, -, -, rfl⟩ := transferChecked_eq_ok.mp htransfer
  have hsrcData := (tokenAt_eq_some.mp hsrc).2
  have hk₂ : ∀ k, k ≠ a.session → k ≠ a.vault → Kept L L₂ k := fun k h₁ h₂ =>
    (hc₁.frame k h₁).trans (hc₂.frame k h₂)
  have hsrcOwn : src = own := by
    have he := (hk₂ _ hss hsu).2
    rw [hsrcData, hownData] at he
    exact AccountData.token.inj he
  have hdstNew : dst = ⟨a.mint, a.session, 0⟩ := by
    have he := (tokenAt_eq_some.mp hdst).2
    rw [hc₂.filled.2] at he
    exact (AccountData.token.inj he).symm
  subst hsrcOwn hdstNew
  have hlf := Int64.checkedSub_eq_some.mp hlife
  refine ⟨openedSession a args bump vaultBump, ?_⟩
  have hmove := @moveTokens_apply ProgramData rt L₂ _ _ src ⟨a.mint, a.session, 0⟩
    args.depositAmount.toNat hsu
  constructor
  case opened => rfl
  case derived => exact hd
  case vaultDerived => exact hvd
  case positive => exact UInt64.lt_iff_toNat_lt.mp hpos
  case future => exact Int64.lt_iff_toInt_lt.mp hfuture
  case lifetime =>
    have hm := Int64.le_iff_toInt_le.mp hmax
    omega
  case program => exact hprog
  case sessionUnused => exact hc₁.unused
  case vaultUnused => exact hvu
  case sessionWritten =>
    refine ⟨?_, setData_data _ _ _⟩
    rw [setData_owner, hmove, if_neg hsv, if_neg hss.symm]
    exact (hc₂.frame _ hsv).1.trans hc₁.filled.1
  case vaultFunded =>
    rw [setData_of_ne hsv.symm, hmove, if_pos rfl]
    refine ⟨hc₂.filled.1, ?_⟩
    simp [TokenAccount.credit]
  case sourceDebited =>
    refine ⟨src, hownData, hmint, howner, hle, ?_⟩
    rw [setData_of_ne hss, hmove, if_neg hsu, if_pos rfl]
    exact ⟨(hk₂ _ hss hsu).1, rfl⟩
  case frame =>
    intro k h₁ h₂ h₃
    unfold Kept
    rw [setData_of_ne h₁, hmove, if_neg h₂, if_neg h₃]
    exact hk₂ k h₁ h₂

section Guards
variable {s : Session} {now : Int64} {args : SettleArgs}

@[simp] theorem clockSkewToleranceSecs_toInt : clockSkewToleranceSecs.toInt = 30 := by decide

theorem deadline_eq_ok {e l : Int64} {op : CheckedOp} :
    deadline e op = .ok l ↔ l.toInt = e.toInt + 30 := by
  simp only [deadline, okOr_eq_ok, Int64.checkedAdd_eq_some, clockSkewToleranceSecs_toInt]

/-- The tolerance can be added to an expiry unless it is among the last thirty
seconds an `i64` can express. -/
theorem exists_deadline {e : Int64} {op : CheckedOp} :
    (∃ l, deadline e op = .ok l) ↔ e.toInt + 30 < 2 ^ 63 := by
  constructor
  · rintro ⟨l, hl⟩
    have hu := l.toInt_lt
    rw [deadline_eq_ok] at hl
    omega
  · intro h
    have hl := e.le_toInt
    refine ⟨Int64.ofInt (e.toInt + 30), deadline_eq_ok.mpr ?_⟩
    exact Int64.toInt_ofInt_of_le (by omega) h

theorem settleChecks_eq_ok {u : Unit} : settleChecks s now args = .ok u ↔
    (s.expiresAt.toInt + 30 < 2 ^ 63 ∧ now.toInt ≤ s.expiresAt.toInt + 30) ∧
    (args.claimExpiresAt.toInt + 30 < 2 ^ 63 ∧ now.toInt ≤ args.claimExpiresAt.toInt + 30) ∧
    s.cumulativeSettled.toNat < args.cumulativeAmount.toNat ∧
    args.cumulativeAmount.toNat ≤ s.depositedTotal.toNat := by
  simp only [settleChecks, bind_eq_ok, require_eq_ok, Int64.le_iff_toInt_le,
    UInt64.lt_iff_toNat_lt, UInt64.le_iff_toNat_le, exists_and_left, exists_const]
  constructor
  · rintro ⟨l₁, h₁, hn₁, l₂, h₂, hn₂, hm, hd⟩
    have hf₁ := exists_deadline.mp ⟨l₁, h₁⟩
    have hf₂ := exists_deadline.mp ⟨l₂, h₂⟩
    rw [deadline_eq_ok] at h₁ h₂
    exact ⟨⟨hf₁, by omega⟩, ⟨hf₂, by omega⟩, hm, hd⟩
  · rintro ⟨⟨hf₁, hn₁⟩, ⟨hf₂, hn₂⟩, hm, hd⟩
    obtain ⟨l₁, h₁⟩ : ∃ l, deadline s.expiresAt .sessionDeadline = .ok l :=
      exists_deadline.mpr hf₁
    obtain ⟨l₂, h₂⟩ : ∃ l, deadline args.claimExpiresAt .claimDeadline = .ok l :=
      exists_deadline.mpr hf₂
    have e₁ := deadline_eq_ok.mp h₁
    have e₂ := deadline_eq_ok.mp h₂
    exact ⟨l₁, h₁, by omega, l₂, h₂, by omega, hm, hd⟩

theorem settleAmounts_eq_ok {d : UInt64} : settleAmounts s args = .ok d ↔
    d.toNat + s.cumulativeSettled.toNat = args.cumulativeAmount.toNat ∧
    args.cumulativeAmount.toNat + s.refundedTotal.toNat ≤ s.depositedTotal.toNat := by
  simp only [settleAmounts, bind_eq_ok, okOr_eq_ok, require_eq_ok, pure_eq_ok,
    UInt64.checkedSub_eq_some, UInt64.checkedAdd_eq_some, UInt64.le_iff_toNat_le]
  constructor
  · rintro ⟨d', hd, t, ht, -, hle, rfl⟩
    exact ⟨hd, by omega⟩
  · rintro ⟨hd, hle⟩
    have hlt := s.depositedTotal.toNat_lt
    obtain ⟨t, ht⟩ := UInt64.exists_toNat_eq
      (n := args.cumulativeAmount.toNat + s.refundedTotal.toNat) (by omega)
    exact ⟨d, hd, t, ht, ⟨⟩, by omega, rfl⟩

theorem refundRemaining_eq_ok {r : UInt64} : refundRemaining s = .ok r ↔
    0 < r.toNat ∧ r.toNat + s.refundedTotal.toNat + s.cumulativeSettled.toNat =
      s.depositedTotal.toNat := by
  simp only [refundRemaining, bind_eq_ok, okOr_eq_ok, require_eq_ok, pure_eq_ok,
    UInt64.checkedSub_eq_some, UInt64.lt_iff_toNat_lt, UInt64.toNat_zero]
  constructor
  · rintro ⟨u, hu, r', hr, -, hpos, rfl⟩
    exact ⟨hpos, by omega⟩
  · rintro ⟨hpos, hsum⟩
    have hlt := s.depositedTotal.toNat_lt
    obtain ⟨u, hu⟩ := UInt64.exists_toNat_eq (n := r.toNat + s.refundedTotal.toNat) (by omega)
    exact ⟨u, by omega, r, hu.symm, ⟨⟩, hpos, rfl⟩

end Guards

/-- Either the address is unused, or it is this session's receipt. -/
def ReceiptReady (rt : Runtime) (L : EscrowLedger) (session k : Pubkey) : Prop :=
  Unused L k ∨ ∃ r, recordAt rt L k = some r ∧ r.session = session

theorem writeReceipt_effect {rt : Runtime} {L L' : EscrowLedger} {a : SettleAccounts}
    {bump : UInt8} {now : Int64} {args : SettleArgs}
    (h : writeReceipt rt L a bump now args = .ok L') :
    ReceiptReady rt L a.session a.settlementRecord ∧
    (L' a.settlementRecord).owner = rt.programId ∧ (L' a.settlementRecord).data =
      .program (.settlementRecord (receipt rt a.session bump now args)) ∧
    ∀ k, k ≠ a.settlementRecord → Kept L L' k := by
  unfold writeReceipt at h
  split_ifs at h with hnew
  · simp only [bind_eq_ok, mapError_eq_ok, pure_eq_ok] at h
    obtain ⟨L₁, hcreate, rfl⟩ := h
    have hc := createAccount_created hcreate
    refine ⟨.inl hc.unused, ?_, setData_data _ _ _, ?_⟩
    · rw [setData_owner]
      exact hc.filled.1
    · intro k hk
      unfold Kept
      rw [setData_of_ne hk]
      exact hc.frame k hk
  · simp only [bind_eq_ok, require_eq_ok, okOr_eq_ok, pure_eq_ok, exists_and_left,
      exists_const] at h
    obtain ⟨hown, existing, hrec, hses, rfl⟩ := h
    refine ⟨.inr ⟨existing, hrec, hses⟩, ?_, ?_, ?_⟩
    · rw [setData_owner]
      exact hown
    · rw [setData_data, hses]
    · intro k hk
      unfold Kept
      rw [setData_of_ne hk]
      exact ⟨rfl, rfl⟩

/-- The session as a settlement leaves it. -/
def Session.settledAt (s : Session) (amount : UInt64) : Session :=
  { s with cumulativeSettled := amount, isSettled := true }

/-- Everything a successful `settle_session` relied on and wrote. -/
structure Settled (rt : Runtime) (L L' : EscrowLedger) (now : Int64)
    (sysvar : InstructionsSysvar) (a : SettleAccounts) (args : SettleArgs) (s : Session)
    (delta : UInt64) : Prop where
  loaded : sessionAt rt L a.session = some s
  derived : rt.derive (sessionSeeds s.agent s.provider s.sessionId) s.bump = some a.session
  vaultDerived : rt.derive (vaultSeeds a.session) s.vaultBump = some a.vault
  mint : s.mint = a.mint
  vault : s.vault = a.vault
  settler : a.settler = s.settlementAuthority ∨ a.settler = s.provider
  checks : settleChecks s now args = .ok ()
  signed : verifyEd25519Claim sysvar s.agent (buildClaimMessage a.session args.cumulativeAmount
    args.nonce args.claimExpiresAt) = .ok ()
  amounts : settleAmounts s args = .ok delta
  ready : ReceiptReady rt L a.session a.settlementRecord
  sessionWritten : (L' a.session).owner = rt.programId ∧
    (L' a.session).data = .program (.session (Session.settledAt s args.cumulativeAmount))
  receiptWritten : ∃ bump,
    rt.findProgramAddress (settlementSeeds a.session) = some (a.settlementRecord, bump) ∧
    (L' a.settlementRecord).owner = rt.programId ∧ (L' a.settlementRecord).data =
      .program (.settlementRecord (receipt rt a.session bump now args))
  vaultDebited : ∃ t : TokenAccount, (L a.vault).data = .token t ∧ t.owner = a.session ∧
    t.mint = s.mint ∧ delta.toNat ≤ t.amount ∧ (L' a.vault).owner = (L a.vault).owner ∧
    (L' a.vault).data = .token (t.debit delta.toNat)
  payeeCredited : ∃ t : TokenAccount, (L a.providerTokenAccount).data = .token t ∧
    t.mint = s.mint ∧ t.owner = s.provider ∧
    (L' a.providerTokenAccount).owner = (L a.providerTokenAccount).owner ∧
    (L' a.providerTokenAccount).data =
      .token (t.credit (delta.toNat - rt.fee s.mint delta.toNat))
  payeeNotVault : a.providerTokenAccount ≠ a.vault
  frame : ∀ k, k ≠ a.session → k ≠ a.settlementRecord → k ≠ a.vault →
    k ≠ a.providerTokenAccount → Kept L L' k

/-- The constraints of `SettleSession` on the accounts a caller passes. -/
structure SettleAccountsValid (rt : Runtime) (L : EscrowLedger) (a : SettleAccounts)
    (s : Session) (bump : UInt8) : Prop where
  loaded : sessionAt rt L a.session = some s
  derived : rt.derive (sessionSeeds s.agent s.provider s.sessionId) s.bump = some a.session
  mint : s.mint = a.mint
  vault : s.vault = a.vault
  record : rt.findProgramAddress (settlementSeeds a.session) = some (a.settlementRecord, bump)
  vaultToken : ∃ t, interfaceToken L a.vault = some t
  vaultDerived : rt.derive (vaultSeeds a.session) s.vaultBump = some a.vault
  payee : ∃ t, interfaceToken L a.providerTokenAccount = some t ∧ t.mint = a.mint ∧
    t.owner = s.provider
  mintAccount : ∃ d, interfaceMint L a.mint = some d
  program : a.tokenProgram = tokenProgramId ∨ a.tokenProgram = token2022ProgramId

theorem settleAccounts_eq_ok {rt : Runtime} {L : EscrowLedger} {a : SettleAccounts}
    {s : Session} {bump : UInt8} :
    settleAccounts rt L a = .ok (s, bump) ↔ SettleAccountsValid rt L a s bump := by
  simp only [settleAccounts, bind_eq_ok, okOr_eq_ok, require_eq_ok, pure_eq_ok,
    tokenInterface_eq_ok, Prod.exists, Prod.mk.injEq, exists_and_left, exists_const]
  constructor
  · rintro ⟨s', hl, hd, hm, hv, k, b, hr, rfl, t, ht, hvd, p, hp, hpm, hpo, d, hma, hpr, rfl, rfl⟩
    exact ⟨hl, hd, hm, hv, hr, ⟨t, ht⟩, hvd, ⟨p, hp, hpm, hpo⟩, ⟨d, hma⟩, hpr⟩
  · rintro ⟨hl, hd, hm, hv, hr, ⟨t, ht⟩, hvd, ⟨p, hp, hpm, hpo⟩, ⟨d, hma⟩, hpr⟩
    exact ⟨s, hl, hd, hm, hv, _, bump, hr, rfl, t, ht, hvd, p, hp, hpm, hpo, d, hma, hpr, rfl, rfl⟩

/-- A settlement succeeds exactly when every stage of it does. -/
theorem settleSession_eq_ok {rt : Runtime} {L L' : EscrowLedger} {now : Int64}
    {sysvar : InstructionsSysvar} {a : SettleAccounts} {args : SettleArgs} {ev : Event} :
    settleSession rt L now sysvar a args = .ok (L', ev) ↔
      ∃ s bump delta L₁, SettleAccountsValid rt L a s bump ∧
        (a.settler = s.settlementAuthority ∨ a.settler = s.provider) ∧
        settleChecks s now args = .ok () ∧
        verifyEd25519Claim sysvar s.agent (buildClaimMessage a.session args.cumulativeAmount
          args.nonce args.claimExpiresAt) = .ok () ∧
        settleAmounts s args = .ok delta ∧
        transferChecked rt L a.tokenProgram a.vault a.mint a.providerTokenAccount a.session
          delta.toNat = .ok L₁ ∧
        writeReceipt rt (setData L₁ a.session (.session (Session.settledAt s args.cumulativeAmount)))
          a bump now args = .ok L' ∧
        .sessionSettled a.session s.provider args.cumulativeAmount delta args.merkleRoot now = ev := by
  simp only [settleSession, settlerCheck, bind_eq_ok, require_eq_ok, mapError_eq_ok, pure_eq_ok,
    settleAccounts_eq_ok, Prod.exists, Prod.mk.injEq, exists_and_left, exists_const]
  constructor
  · rintro ⟨s, bump, hv, hst, ⟨⟩, hc, ⟨⟩, hsig, delta, hd, L₁, ht, L₂, hw, rfl, hev⟩
    exact ⟨s, bump, hv, hst, hc, hsig, delta, hd, L₁, ht, hw, hev⟩
  · rintro ⟨s, bump, hv, hst, hc, hsig, delta, hd, L₁, ht, hw, hev⟩
    exact ⟨s, bump, hv, hst, ⟨⟩, hc, ⟨⟩, hsig, delta, hd, L₁, ht, L', hw, rfl, hev⟩

theorem settleSession_effect {rt : Runtime} {L L' : EscrowLedger} {now : Int64}
    {sysvar : InstructionsSysvar} {a : SettleAccounts} {args : SettleArgs} {ev : Event}
    (h : settleSession rt L now sysvar a args = .ok (L', ev)) :
    ∃ s delta, Settled rt L L' now sysvar a args s delta := by
  obtain ⟨s, bump, delta, L₁, hv, hst, hc, hsig, hd, ht, hw, -⟩ := settleSession_eq_ok.mp h
  obtain ⟨src, dst, hsrc, hdst, hle, ⟨hsm, hdm⟩, hso, -, rfl⟩ := transferChecked_eq_ok.mp ht
  obtain ⟨hready, hrow, hrd, hframe⟩ := writeReceipt_effect hw
  have hrecDerived := rt.derive_of_find hv.record
  have hsv := session_ne_vault hv.derived hv.vaultDerived
  have hsr := session_ne_record hv.derived hrecDerived
  have hvr := vault_ne_record hv.vaultDerived hrecDerived
  have hsrcData := (tokenAt_eq_some.mp hsrc).2
  have hdstData := (tokenAt_eq_some.mp hdst).2
  have hses := sessionAt_eq_some.mp hv.loaded
  obtain ⟨paid, hpaid, hpm, hpo⟩ := hv.payee
  have hpaidDst : paid = dst := by
    have he := (interfaceToken_eq_some.mp hpaid).2
    rw [hdstData] at he
    exact (AccountData.token.inj he).symm
  subst hpaidDst
  have hpv : a.vault ≠ a.providerTokenAccount := by
    intro he
    rw [← he, hsrcData] at hdstData
    have hsp := congrArg TokenAccount.owner (AccountData.token.inj hdstData)
    rw [hso, hpo] at hsp
    exact session_ne_provider hv.derived hsp
  have hps : a.providerTokenAccount ≠ a.session := by
    intro he
    rw [he, hses.2] at hdstData
    cases hdstData
  have hmove := @moveTokens_apply ProgramData rt L _ _ src paid delta.toNat hpv
  have hL₂ : ∀ k, k ≠ a.session → k ≠ a.vault → k ≠ a.providerTokenAccount →
      setData (moveTokens rt L a.vault a.providerTokenAccount src paid delta.toNat) a.session
        (.session (Session.settledAt s args.cumulativeAmount)) k = L k := by
    intro k h₁ h₂ h₃
    rw [setData_of_ne h₁, hmove, if_neg h₃, if_neg h₂]
  have hpr : a.providerTokenAccount ≠ a.settlementRecord := by
    intro he
    have hdata : (setData (moveTokens rt L a.vault a.providerTokenAccount src paid delta.toNat)
        a.session (.session (Session.settledAt s args.cumulativeAmount)) a.settlementRecord).data =
        .token (paid.credit (delta.toNat - rt.fee paid.mint delta.toNat)) := by
      rw [← he, setData_of_ne hps, hmove, if_pos rfl]
    rcases hready with hu | ⟨r, hr, -⟩
    · have hempty := hu.2
      rw [hdata] at hempty
      cases hempty
    · rw [recordAt_eq_some, hdata] at hr
      cases hr.2
  have hready' : ReceiptReady rt L a.session a.settlementRecord := by
    unfold ReceiptReady Unused recordAt at hready ⊢
    rwa [hL₂ _ hsr.symm hvr.symm hpr.symm] at hready
  refine ⟨s, delta, ?_⟩
  constructor
  case loaded => exact hv.loaded
  case derived => exact hv.derived
  case vaultDerived => exact hv.vaultDerived
  case mint => exact hv.mint
  case vault => exact hv.vault
  case settler => exact hst
  case checks => exact hc
  case signed => exact hsig
  case amounts => exact hd
  case ready => exact hready'
  case sessionWritten =>
    have hk := hframe a.session hsr
    rw [hk.1, hk.2, setData_data, setData_owner, hmove, if_neg hps.symm, if_neg hsv]
    exact ⟨hses.1, rfl⟩
  case receiptWritten => exact ⟨bump, hv.record, hrow, hrd⟩
  case vaultDebited =>
    have hk := hframe a.vault hvr
    refine ⟨src, hsrcData, hso, hsm.trans hv.mint.symm, hle, ?_⟩
    rw [hk.1, hk.2, setData_of_ne hsv.symm, hmove, if_neg hpv, if_pos rfl]
    exact ⟨rfl, rfl⟩
  case payeeCredited =>
    have hk := hframe a.providerTokenAccount hpr
    refine ⟨paid, hdstData, hpm.trans hv.mint.symm, hpo, ?_⟩
    rw [hk.1, hk.2, setData_of_ne hps, hmove, if_pos rfl, hpm, hv.mint]
    exact ⟨rfl, rfl⟩
  case payeeNotVault => exact hpv.symm
  case frame =>
    intro k h₁ h₂ h₃ h₄
    have hk := hframe k h₂
    rw [Kept, hL₂ k h₁ h₃ h₄] at hk
    exact hk

/-- The constraints of `RefundSession` on the accounts a caller passes. -/
structure RefundAccountsValid (rt : Runtime) (L : EscrowLedger) (a : RefundAccounts)
    (s : Session) : Prop where
  loaded : sessionAt rt L a.session = some s
  derived : rt.derive (sessionSeeds s.agent s.provider s.sessionId) s.bump = some a.session
  mint : s.mint = a.mint
  vault : s.vault = a.vault
  vaultToken : ∃ t, interfaceToken L a.vault = some t
  vaultDerived : rt.derive (vaultSeeds a.session) s.vaultBump = some a.vault
  payee : ∃ t, interfaceToken L a.agentTokenAccount = some t ∧ t.mint = a.mint ∧
    t.owner = s.agent
  mintAccount : ∃ d, interfaceMint L a.mint = some d
  program : a.tokenProgram = tokenProgramId ∨ a.tokenProgram = token2022ProgramId

theorem refundAccounts_eq_ok {rt : Runtime} {L : EscrowLedger} {a : RefundAccounts}
    {s : Session} : refundAccounts rt L a = .ok s ↔ RefundAccountsValid rt L a s := by
  simp only [refundAccounts, bind_eq_ok, okOr_eq_ok, require_eq_ok, pure_eq_ok,
    tokenInterface_eq_ok, exists_and_left, exists_const]
  constructor
  · rintro ⟨s', hl, hd, hm, hv, t, ht, hvd, p, hp, hpm, hpo, d, hma, hpr, rfl⟩
    exact ⟨hl, hd, hm, hv, ⟨t, ht⟩, hvd, ⟨p, hp, hpm, hpo⟩, ⟨d, hma⟩, hpr⟩
  · rintro ⟨hl, hd, hm, hv, ⟨t, ht⟩, hvd, ⟨p, hp, hpm, hpo⟩, ⟨d, hma⟩, hpr⟩
    exact ⟨s, hl, hd, hm, hv, t, ht, hvd, p, hp, hpm, hpo, d, hma, hpr, rfl⟩

def Session.refundedTo (s : Session) (total : UInt64) : Session :=
  { s with refundedTotal := total }

/-- Everything a successful `refund_session` relied on and wrote. -/
structure Refunded (rt : Runtime) (L L' : EscrowLedger) (now : Int64) (a : RefundAccounts)
    (s : Session) (remaining total : UInt64) : Prop where
  loaded : sessionAt rt L a.session = some s
  derived : rt.derive (sessionSeeds s.agent s.provider s.sessionId) s.bump = some a.session
  vaultDerived : rt.derive (vaultSeeds a.session) s.vaultBump = some a.vault
  vault : s.vault = a.vault
  gate : s.expiresAt.toInt + 30 < now.toInt ∨ a.caller = s.agent ∧ s.isSettled = true
  rest : refundRemaining s = .ok remaining
  sum : total.toNat = s.refundedTotal.toNat + remaining.toNat
  sessionWritten : (L' a.session).owner = rt.programId ∧
    (L' a.session).data = .program (.session (Session.refundedTo s total))
  vaultDebited : ∃ t : TokenAccount, (L a.vault).data = .token t ∧ t.owner = a.session ∧
    t.mint = s.mint ∧ remaining.toNat ≤ t.amount ∧ (L' a.vault).owner = (L a.vault).owner ∧
    (L' a.vault).data = .token (t.debit remaining.toNat)
  payeeCredited : ∃ t : TokenAccount, (L a.agentTokenAccount).data = .token t ∧
    t.mint = s.mint ∧ t.owner = s.agent ∧
    (L' a.agentTokenAccount).owner = (L a.agentTokenAccount).owner ∧
    (L' a.agentTokenAccount).data =
      .token (t.credit (remaining.toNat - rt.fee s.mint remaining.toNat))
  payeeNotVault : a.agentTokenAccount ≠ a.vault
  frame : ∀ k, k ≠ a.session → k ≠ a.vault → k ≠ a.agentTokenAccount → Kept L L' k

theorem refundGate_eq_ok {s : Session} {caller : Pubkey} {expired : Bool} {u : Unit} :
    refundGate s caller expired = .ok u ↔
      expired = true ∨ caller = s.agent ∧ s.isSettled = true := by
  simp only [refundGate, bind_eq_ok, require_eq_ok, exists_const]
  tauto

/-- A refund succeeds exactly when every stage of it does. -/
theorem refundSession_eq_ok {rt : Runtime} {L L' : EscrowLedger} {now : Int64}
    {a : RefundAccounts} {ev : Event} :
    refundSession rt L now a = .ok (L', ev) ↔
      ∃ s limit remaining L₁ total, RefundAccountsValid rt L a s ∧
        deadline s.expiresAt .refundDeadline = .ok limit ∧
        (limit < now ∨ a.caller = s.agent ∧ s.isSettled = true) ∧
        refundRemaining s = .ok remaining ∧
        transferChecked rt L a.tokenProgram a.vault a.mint a.agentTokenAccount a.session
          remaining.toNat = .ok L₁ ∧
        s.refundedTotal.checkedAdd remaining = some total ∧
        setData L₁ a.session (.session (Session.refundedTo s total)) = L' ∧
        .sessionRefunded a.session s.agent remaining (decide (limit < now)) now = ev := by
  simp only [refundSession, bind_eq_ok, refundGate_eq_ok, mapError_eq_ok, pure_eq_ok, okOr_eq_ok,
    refundAccounts_eq_ok, Prod.mk.injEq, decide_eq_true_eq, exists_and_left, exists_const]
  rfl

theorem refundSession_effect {rt : Runtime} {L L' : EscrowLedger} {now : Int64}
    {a : RefundAccounts} {ev : Event} (h : refundSession rt L now a = .ok (L', ev)) :
    ∃ s remaining total, Refunded rt L L' now a s remaining total := by
  obtain ⟨s, limit, remaining, L₁, total, hv, hl, hg, hr, ht, hsum, rfl, -⟩ :=
    refundSession_eq_ok.mp h
  obtain ⟨src, dst, hsrc, hdst, hle, ⟨hsm, hdm⟩, hso, -, rfl⟩ := transferChecked_eq_ok.mp ht
  have hsv := session_ne_vault hv.derived hv.vaultDerived
  have hsrcData := (tokenAt_eq_some.mp hsrc).2
  have hdstData := (tokenAt_eq_some.mp hdst).2
  have hses := sessionAt_eq_some.mp hv.loaded
  obtain ⟨paid, hpaid, hpm, hpo⟩ := hv.payee
  have hpaidDst : paid = dst := by
    have he := (interfaceToken_eq_some.mp hpaid).2
    rw [hdstData] at he
    exact (AccountData.token.inj he).symm
  subst hpaidDst
  have hpv : a.vault ≠ a.agentTokenAccount := by
    intro he
    rw [← he, hsrcData] at hdstData
    have hsp := congrArg TokenAccount.owner (AccountData.token.inj hdstData)
    rw [hso, hpo] at hsp
    exact session_ne_agent hv.derived hsp
  have hps : a.agentTokenAccount ≠ a.session := by
    intro he
    rw [he, hses.2] at hdstData
    cases hdstData
  have hmove := @moveTokens_apply ProgramData rt L _ _ src paid remaining.toNat hpv
  refine ⟨s, remaining, total, ?_⟩
  constructor
  case loaded => exact hv.loaded
  case derived => exact hv.derived
  case vaultDerived => exact hv.vaultDerived
  case vault => exact hv.vault
  case gate =>
    rw [deadline_eq_ok] at hl
    rw [Int64.lt_iff_toInt_lt] at hg
    rw [← hl]
    exact hg
  case rest => exact hr
  case sum => exact UInt64.checkedAdd_eq_some.mp hsum
  case sessionWritten =>
    rw [setData_data, setData_owner, hmove, if_neg hps.symm, if_neg hsv]
    exact ⟨hses.1, rfl⟩
  case vaultDebited =>
    refine ⟨src, hsrcData, hso, hsm.trans hv.mint.symm, hle, ?_⟩
    rw [setData_of_ne hsv.symm, hmove, if_neg hpv, if_pos rfl]
    exact ⟨rfl, rfl⟩
  case payeeCredited =>
    refine ⟨paid, hdstData, hpm.trans hv.mint.symm, hpo, ?_⟩
    rw [setData_of_ne hps, hmove, if_pos rfl, hpm, hv.mint]
    exact ⟨rfl, rfl⟩
  case payeeNotVault => exact hpv.symm
  case frame =>
    intro k h₁ h₂ h₃
    unfold Kept
    rw [setData_of_ne h₁, hmove, if_neg h₃, if_neg h₂]
    exact ⟨rfl, rfl⟩

end AgentPay.EscrowEffects
