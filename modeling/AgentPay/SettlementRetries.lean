import AgentPay.SettlementAgreement

/-!
# Retrying a settlement whose outcome was lost

A settlement can land while the gateway never hears of it: the confirmation is lost,
the flag cannot be written, or the process dies in between. The session then stays
unsettled in the tables and settled on the chain. A retry submits the same claim, the
program asks for more than was settled, and the handler answers as if the settlement
had failed. `Stranded` is what this situation keeps from there on.
-/
namespace AgentPay.SettlementRetries
open SolanaRuntime EscrowState EscrowProgram EscrowEffects EscrowInvariant GatewayClaims
open SessionStore SettlementRequests SettlementAgreement RequestPool Fallible Runs

section Situations
variable (cfg : Config) (key : Pubkey)

/-- A settlement of this amount took the ledger of the step to the next one. -/
def Lands (amount : UInt64) (t : Transition (Desk cfg) (DeskLabel cfg)) : Prop :=
  ∃ now sysvar a args ev, a.session = key ∧ args.cumulativeAmount = amount ∧
    settleSession cfg.rt t.before.shared.ledger now sysvar a args = .ok (t.after.shared.ledger, ev)

/-- The request heard of its settlement and has yet to set the flag. -/
def Finishing {rt : Runtime} (r : Request rt) : Prop :=
  r.kind = .settle key ∧ ∃ c tx, r.stage = .landed c tx ∨ r.stage = .confirmed c tx

/-- The gateway's highest claim has been settled on chain, the session is not marked
settled, and no request is left that would mark it. -/
structure Lost (g₀ : Desk cfg) (h : History (Desk cfg) (DeskLabel cfg)) (g : Desk cfg)
    (record : SessionRecord) (highest : SignedClaim) : Prop where
  initial : Initial cfg g₀
  run : Run (DeskStep cfg) g₀ h g
  loaded : getRecord g.shared.db key = .ok record
  kept : record.highestClaim = some highest
  landed : ∃ t ∈ h, Lands cfg key highest.claim.cumulativeAmount t
  unmarked : record.isSettled = false
  gone : Each (fun _ r => ¬ Finishing key r) g

/-- The step executes the transaction of a settlement request of the session. -/
structure ReachesChain (t : Transition (Desk cfg) (DeskLabel cfg)) (n : ℕ)
    (tx : SettleTransaction cfg.rt) : Prop where
  label : t.label = .advance n
  submitted : ∃ r c, t.before.requests[n]? = some r ∧ r.kind = .settle key ∧
    r.stage = .submitted c tx ∧
    t.after.requests[n]? = some { r with stage := landedStage cfg t.before.shared c tx }
  executed : t.after.shared = execTransaction cfg t.before.shared tx

/-- The retry left the session marked settled and moved no tokens. -/
def Converges (t : Transition (Desk cfg) (DeskLabel cfg)) (g : Desk cfg) : Prop :=
  (∃ record, getRecord g.shared.db key = .ok record ∧ record.isSettled = true) ∧
    t.after.shared.ledger = t.before.shared.ledger

/-- The retry was refused by the program, and the handler denied it. -/
def Refused (t : Transition (Desk cfg) (DeskLabel cfg)) (n : ℕ) : Prop :=
  t.after.shared = t.before.shared ∧
    t.after.requests[n]?.map Request.stage = some (.denied .settlementFailed)

/-- On chain at least the mark is settled, and no request will say so. -/
structure Stranded (g : Desk cfg) : Prop where
  snapshots : Each (Snapshot cfg) g
  unmarked : settledFlag g.shared.db key ≠ some true
  settled : ∃ x, sessionAt cfg.rt g.shared.ledger key = some x ∧
    g.shared.db.mark key ≤ x.cumulativeSettled.toNat
  gone : Each (fun _ r => ¬ Finishing key r) g

end Situations

section Chain
variable {cfg : Config} {key : Pubkey} {g₀ g g' : Desk cfg} {l : DeskLabel cfg}
variable {h later : History (Desk cfg) (DeskLabel cfg)} {amount : UInt64}

theorem follows_run (hr : Run (DeskStep cfg) g h g') : (∀ x,
    sessionAt cfg.rt g.shared.ledger key = some x → ∃ x',
      sessionAt cfg.rt g'.shared.ledger key = some x' ∧
      x.cumulativeSettled.toNat ≤ x'.cumulativeSettled.toNat) ∧
    g.shared.db.mark key ≤ g'.shared.db.mark key := by
  induction hr with
  | start => exact ⟨fun x hx => ⟨x, hx, le_rfl⟩, le_rfl⟩
  | step _ hs ih =>
    have hf := @follows_effect _ _ _ _ key (desk_effect hs)
    refine ⟨?_, ih.2.trans (hf.grows.mark key)⟩
    intro x hx
    obtain ⟨y, hy, hle⟩ := ih.1 x hx
    obtain ⟨z, hz, hle', -⟩ := hf.chain y hy
    exact ⟨z, hz, hle.trans hle'⟩

theorem landed_settled (hr : Run (DeskStep cfg) g₀ h g)
    (hl : ∃ t ∈ h, Lands cfg key amount t) : ∃ x, sessionAt cfg.rt g.shared.ledger key = some x ∧
      amount.toNat ≤ x.cumulativeSettled.toNat := by
  obtain ⟨t, ht, now, sysvar, a, args, ev, rfl, rfl, hok⟩ := hl
  induction hr with
  | start => cases ht
  | @step h s s' l hr hs ih =>
    rcases List.mem_cons.mp ht with rfl | ht
    · obtain ⟨x, delta, hset⟩ := settleSession_effect hok
      exact ⟨_, (Settled.sessionAt hset a.session).trans (if_pos rfl), le_rfl⟩
    · obtain ⟨x, hx, hle⟩ := ih ht
      obtain ⟨x', hx', hle', -⟩ := (@follows_effect _ _ _ _ a.session (desk_effect hs)).chain x hx
      exact ⟨x', hx', hle.trans hle'⟩

/-- A transaction that is executed without an error lands. -/
theorem lands_of_execute {t : Transition (Desk cfg) (DeskLabel cfg)} {tx : SettleTransaction cfg.rt}
    (hx : t.after.shared = execTransaction cfg t.before.shared tx)
    (hok : error? (execute cfg.rt t.before.shared.ledger (tx.call t.before.shared.clock)) = none) :
    Lands cfg tx.session tx.claim.cumulativeAmount t := by
  obtain ⟨ev, hev⟩ := execute_apply hok
  refine ⟨t.before.shared.clock, tx.sysvar, tx.accounts, tx.args, ev, rfl, rfl, ?_⟩
  rw [hx]
  exact hev

/-- The program refuses an amount that is settled already. -/
theorem execute_refused {L L' : EscrowLedger} {tx : SettleTransaction cfg.rt} {now : Int64}
    {ev : EscrowState.Event} {x : Session} (hx : sessionAt cfg.rt L tx.session = some x)
    (hle : tx.claim.cumulativeAmount.toNat ≤ x.cumulativeSettled.toNat) :
    execute cfg.rt L (tx.call now) ≠ .ok (L', ev) := by
  intro hok
  obtain ⟨s, delta, hset⟩ := settleSession_effect hok
  obtain rfl : s = x := Option.some.inj (hset.loaded.symm.trans hx)
  have hlt := (settleChecks_eq_ok.mp hset.checks).2.2.1
  have hargs : tx.args.cumulativeAmount = tx.claim.cumulativeAmount := rfl
  rw [hargs] at hlt
  omega

end Chain

section Stranding
variable {cfg : Config} {key : Pubkey} {g₀ g g' : Desk cfg} {l : DeskLabel cfg}
variable {h later : History (Desk cfg) (DeskLabel cfg)}

/-- What a settlement request of the session carries is settled already. -/
theorem Stranded.refuses (hg : Stranded cfg key g) {n : ℕ} {r : Request cfg.rt} {c : Commitment}
    {tx : SettleTransaction cfg.rt} {L' : EscrowLedger} {ev : EscrowState.Event}
    (hr : g.requests[n]? = some r) (hk : r.kind = .settle key) (hstage : r.stage = .submitted c tx) :
    execute cfg.rt g.shared.ledger (tx.call g.shared.clock) ≠ .ok (L', ev) := by
  have hs := hg.snapshots n r hr
  simp only [Snapshot, hstage] at hs
  obtain rfl : key = tx.session := Kind.settle.inj (hk.symm.trans hs.kind)
  obtain ⟨x, hx, hmark⟩ := hg.settled
  exact execute_refused hx (hs.amount.1.trans hmark)

theorem gone_next (hg : Stranded cfg key g) {n : ℕ} {r : Request cfg.rt} {s' : Shared}
    {stage : Stage cfg.rt} (hr : g.requests[n]? = some r) (hn : Next cfg g.shared r s' stage) :
    ¬ Finishing key { r with stage := stage } := by
  have hgone := hg.gone n r hr
  intro hf
  obtain ⟨hk, c, tx, hstage⟩ := hf
  cases hn with
  | landed hsub hok => exact hg.refuses hr hk hsub hok
  | @confirmed c' tx' hland => exact hgone ⟨hk, c', tx', .inl hland⟩
  | idle => exact hgone ⟨hk, c, tx, hstage⟩
  | _ => simp at hstage

theorem stranded_step (hg : Stranded cfg key g) (hs : DeskStep cfg g l g')
    (hstill : g'.shared.db.mark key = g.shared.db.mark key) : Stranded cfg key g' := by
  have he := desk_effect hs
  refine ⟨snapshot_step hs hg.snapshots, ?_, ?_, ?_⟩
  · intro hflag
    rcases @steady_effect _ _ _ _ key he with hsteady | ⟨n, r, c, tx, -, hr, hstage, hk, -⟩
    · exact hg.unmarked (hsteady.backwards hflag)
    · exact hg.gone n r hr ⟨hk, c, tx, .inr hstage⟩
  · obtain ⟨x, hx, hmark⟩ := hg.settled
    obtain ⟨x', hx', hle, -⟩ := (@follows_effect _ _ _ _ key he).chain x hx
    rw [hstill]
    exact ⟨x', hx', hmark.trans hle⟩
  · refine Step.each hs hg.gone ?_ ?_ (fun _ _ _ hx => hx)
    · intro r ha hf
      obtain ⟨-, c, tx, hstage⟩ := hf
      rw [show r.stage = .received from ha] at hstage
      simp at hstage
    · intro n r r' _ hr hm _
      obtain ⟨hr', hn⟩ := move_next hm
      rw [hr']
      exact gone_next hg hr hn

/-- As long as the mark stays, so does the situation. -/
theorem stranded_run (hg : Stranded cfg key g) (hr : Run (DeskStep cfg) g later g')
    (hstill : g'.shared.db.mark key = g.shared.db.mark key) :
    Stranded cfg key g' ∧ ∀ t ∈ later, Stranded cfg key t.before := by
  induction hr with
  | start => exact ⟨hg, fun t ht => absurd ht List.not_mem_nil⟩
  | @step later s s' l hr hs ih =>
    have hbefore := (@follows_run _ key _ _ _ hr).2
    have hafter := (@follows_effect _ _ _ _ key (desk_effect hs)).grows.mark key
    obtain ⟨hs₁, hall⟩ := ih (by omega)
    refine ⟨stranded_step hs₁ hs (by omega), ?_⟩
    intro t ht
    rcases List.mem_cons.mp ht with rfl | ht
    · exact hs₁
    · exact hall t ht

theorem Lost.stranded {record : SessionRecord} {highest : SignedClaim}
    (hl : Lost cfg key g₀ h g record highest) : Stranded cfg key g := by
  have hsnap : Each (Snapshot cfg) g :=
    hl.run.invariant_all (fun _ _ _ hg hs => snapshot_step hs hg) (.of_idle hl.initial.idle)
  obtain ⟨row, -, hload⟩ := getRecord_loaded hl.loaded
  refine ⟨hsnap, ?_, ?_, hl.gone⟩
  · rw [settledFlag, hload.found, Option.map_some, ← hload.settled, hl.unmarked]
    simp
  · obtain ⟨x, hx, hle⟩ := landed_settled hl.run hl.landed
    rw [(getRecord_highestClaim hl.loaded hl.kept).2, hload.mark] at hle
    exact ⟨x, hx, hle⟩

theorem Stranded.refused {t : Transition (Desk cfg) (DeskLabel cfg)} {n : ℕ}
    {tx : SettleTransaction cfg.rt} (hg : Stranded cfg key t.before)
    (hc : ReachesChain cfg key t n tx) : Refused cfg t n := by
  obtain ⟨r, c, hr, hk, hstage, hafter⟩ := hc.submitted
  rcases hex : execute cfg.rt t.before.shared.ledger (tx.call t.before.shared.clock) with e | res
  · refine ⟨?_, ?_⟩
    · rw [hc.executed]
      simp only [execTransaction, apply, hex]
    · rw [hafter]
      simp only [landedStage, hex, Option.map_some]
  · exact absurd hex (hg.refuses hr hk hstage)

end Stranding

/-- No retry converges: while the landed claim is the highest one, every settlement
request that reaches the chain is refused and denied, and the session stays unmarked. -/
theorem retries_never_converge {cfg : Config} {key : Pubkey} {g₀ g g' : Desk cfg}
    {h later : History (Desk cfg) (DeskLabel cfg)} {record record' : SessionRecord}
    {highest : SignedClaim} (hl : Lost cfg key g₀ h g record highest)
    (hr : Run (DeskStep cfg) g later g') (hget : getRecord g'.shared.db key = .ok record')
    (hkept : record'.highestClaim = some highest) :
    record'.isSettled = false ∧ ∀ t ∈ later, ∀ n tx, ReachesChain cfg key t n tx →
      Refused cfg t n ∧ ¬ Converges cfg key t g' := by
  have hstill : g'.shared.db.mark key = g.shared.db.mark key := by
    obtain ⟨row, -, hload⟩ := getRecord_loaded hl.loaded
    obtain ⟨row', -, hload'⟩ := getRecord_loaded hget
    rw [← hload.mark, ← hload'.mark, ← (getRecord_highestClaim hl.loaded hl.kept).2,
      ← (getRecord_highestClaim hget hkept).2]
  obtain ⟨hend, hall⟩ := stranded_run hl.stranded hr hstill
  have hunmarked : ∀ x, getRecord g'.shared.db key = .ok x → x.isSettled = false := by
    intro x hx
    by_contra hsettled
    rw [Bool.not_eq_false] at hsettled
    exact hend.unmarked (flag_of_getRecord hx hsettled)
  refine ⟨hunmarked _ hget, ?_⟩
  intro t ht n tx hc
  refine ⟨(hall t ht).refused hc, ?_⟩
  intro hconv
  obtain ⟨⟨x, hx, hsettled⟩, -⟩ := hconv
  rw [hunmarked x hx] at hsettled
  cases hsettled

/-! ### An office whose confirmation is lost -/

theorem playDesk_executes {cfg : Config} {g : Desk cfg} {ls : List (DeskLabel cfg)} {n : ℕ}
    {r : Request cfg.rt} {c : Commitment} {tx : SettleTransaction cfg.rt}
    (hr : (playDesk cfg g ls).2.requests[n]? = some r) (hstage : r.stage = .submitted c tx) :
    (playDesk cfg g (.advance n :: ls)).2 = ⟨execTransaction cfg (playDesk cfg g ls).2.shared tx,
        (playDesk cfg g ls).2.requests.set n
          { r with stage := landedStage cfg (playDesk cfg g ls).2.shared c tx }⟩ ∧
      (playDesk cfg g (.advance n :: ls)).1 = ⟨(playDesk cfg g ls).2, .advance n,
        (playDesk cfg g (.advance n :: ls)).2⟩ :: (playDesk cfg g ls).1 := by
  unfold playDesk at hr ⊢
  simp only [play, step?, hr, move, hstage, and_self]

namespace Office
export SettlementAgreement.Office (agent provider authority authorityKey mint session vault record
  providerToken signature100 claim100 entry100 config start start_initial opening stored)

/-- A settlement is asked for, up to its transaction. -/
def submitting : List (DeskLabel config) :=
  [.advance 1, .advance 1, .advance 1, .advance 1, .arrive ⟨.settle session, .received⟩] ++ opening

def landed : History (Desk config) (DeskLabel config) × Desk config :=
  playDesk config start (.advance 1 :: submitting)

def landing : Transition (Desk config) (DeskLabel config) :=
  ⟨(playDesk config start submitting).2, .advance 1, landed.2⟩

def commitment : Commitment := ⟨entry100, 1⟩

def transaction : SettleTransaction config.rt :=
  ⟨authorityKey, session, record, vault, providerToken, mint, tokenProgramId, agent, claim100,
    signature100, entry100⟩

/-- The request for 100 before and after its transaction is executed. -/
def submitted : Request config.rt := ⟨.settle session, .submitted commitment transaction⟩
def settling : Request config.rt := ⟨.settle session, .landed commitment transaction⟩

/-- The confirmation does not arrive, and the handler gives up. -/
def lost : Desk config :=
  ⟨landed.2.shared, landed.2.requests.set 1 ⟨.settle session, .denied .settlementFailed⟩⟩

/-- The settlement is asked for again, up to its transaction. -/
def resubmitted : List (DeskLabel config) :=
  [.advance 2, .advance 2, .advance 2, .advance 2, .arrive ⟨.settle session, .received⟩]

def retried : History (Desk config) (DeskLabel config) × Desk config :=
  playDesk config lost (.advance 2 :: resubmitted)

/-- The transaction of the retry is executed. -/
def retry : Transition (Desk config) (DeskLabel config) :=
  ⟨(playDesk config lost resubmitted).2, .advance 2, retried.2⟩

/-- The record as the gateway keeps finding it. -/
def unmarked : SessionRecord := { stored 100 1 signature100 with isSettled := false }

def highest : SignedClaim := ⟨claim100, signature100⟩

/-- The settlement, evaluated up to where its confirmation is lost. -/
theorem played : landing.before.requests[1]? = some submitted ∧
    error? (execute config.rt landing.before.shared.ledger
      (transaction.call landing.before.shared.clock)) = none ∧
    landed.2.requests[1]? = some settling ∧
    lost.requests.map Request.stage = [.done, .denied .settlementFailed] ∧
    getRecord lost.shared.db session = .ok unmarked := by decide +kernel

theorem replayed : retry.before.requests[2]? = some submitted ∧
    retried.2.requests[2]?.map Request.stage = some (.denied .settlementFailed) ∧
    getRecord retried.2.shared.db session = .ok unmarked := by decide +kernel

theorem lost_run : Run (DeskStep config) start (⟨landed.2, .advance 1, lost⟩ :: landed.1) lost :=
  (playDesk_run _ _ _).step (@RequestPool.Step.advance _ _ _ Arrives (Move config)
    (Outside config) _ _ _ _ _ 1 played.2.2.1 .interrupted)

theorem landed_lands : ∃ t ∈ landed.1, Lands config session 100 t := by
  obtain ⟨hend, hhistory⟩ := playDesk_executes played.1 rfl
  have hx : landing.after.shared = execTransaction config landing.before.shared transaction :=
    congrArg (fun g => g.shared) hend
  refine ⟨landing, ?_, lands_of_execute hx played.2.1⟩
  rw [show landed.1 = landing :: _ from hhistory]
  exact List.mem_cons_self

theorem lost_gone : Each (fun _ r => ¬ Finishing session r) lost := by
  intro n r hr hf
  obtain ⟨-, c, tx, hstage⟩ := hf
  have hmem : r.stage ∈ lost.requests.map Request.stage :=
    List.mem_map_of_mem (List.mem_of_getElem? hr)
  rw [played.2.2.2.1] at hmem
  rcases hstage with hstage | hstage <;> simp [hstage] at hmem

theorem lost_lost : Lost config session start (⟨landed.2, .advance 1, lost⟩ :: landed.1) lost
    unmarked highest := by
  refine ⟨start_initial, lost_run, played.2.2.2.2, rfl, ?_, rfl, lost_gone⟩
  obtain ⟨t, ht, hl⟩ := landed_lands
  exact ⟨t, List.mem_cons_of_mem _ ht, hl⟩

theorem retried_history : retried.1 = retry :: (playDesk config lost resubmitted).1 :=
  (playDesk_executes replayed.1 rfl).2

theorem retry_reaches : ReachesChain config session retry 2 transaction := by
  have hend : retried.2 = _ := (playDesk_executes replayed.1 rfl).1
  refine ⟨rfl, ⟨submitted, commitment, replayed.1, rfl, rfl, ?_⟩, congrArg (fun g => g.shared) hend⟩
  rw [show retry.after.requests = _ from congrArg (fun g => g.requests) hend]
  exact List.getElem?_set_self (List.getElem?_eq_some_iff.mp replayed.1).1

end Office

/-- The retry of a settlement of 100 whose confirmation was lost. -/
theorem retries_never_converge_office :
    Refused Office.config Office.retry 2 ∧
      ¬ Converges Office.config Office.session Office.retry Office.retried.2 := by
  have hrun : Run (DeskStep Office.config) Office.lost Office.retried.1 Office.retried.2 :=
    playDesk_run _ _ _
  have hall := (retries_never_converge Office.lost_lost hrun Office.replayed.2.2 rfl).2
  refine hall Office.retry ?_ 2 Office.transaction Office.retry_reaches
  rw [Office.retried_history]
  exact List.mem_cons_self

/-- The settlement of 100 landed, the session is not marked; the retry reaches the
chain, fails, and leaves the session unmarked. -/
theorem retry_fails_after_landing :
    Lost Office.config Office.session Office.start
        (⟨Office.landed.2, .advance 1, Office.lost⟩ :: Office.landed.1) Office.lost Office.unmarked
        Office.highest ∧
      Run (DeskStep Office.config) Office.lost Office.retried.1 Office.retried.2 ∧
      Office.retried.1 = Office.retry :: (playDesk Office.config Office.lost Office.resubmitted).1 ∧
      ReachesChain Office.config Office.session Office.retry 2 Office.transaction ∧
      Office.retried.2.requests[2]?.map Request.stage = some (.denied .settlementFailed) ∧
      getRecord Office.retried.2.shared.db Office.session = .ok Office.unmarked ∧
      ¬ Converges Office.config Office.session Office.retry Office.retried.2 := by
  refine ⟨Office.lost_lost, playDesk_run _ _ _, Office.retried_history, Office.retry_reaches,
    Office.replayed.2.1, Office.replayed.2.2, ?_⟩
  intro hconv
  obtain ⟨⟨x, hx, hsettled⟩, -⟩ := hconv
  rw [Office.replayed.2.2, Except.ok.injEq] at hx
  rw [← hx] at hsettled
  cases hsettled

end AgentPay.SettlementRetries
