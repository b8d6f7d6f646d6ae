import AgentPay.ClientPurchases
import AgentPay.ControlRequests
import AgentPay.StableSort

/-!
# A client that resumes

`get_session` and `AgentPayClient.resume`. The gateway does not look a session up by its
key: it lists the 500 newest sessions and searches the list. What the listing says of a
session's claims is what the store says, so a client that resumes a listed session is in
step with the gateway and its next purchase is not refused for its place in the order. A
session that 500 others come before is answered as unknown.

Sessions created at the same instant are listed in the order of the table. The answer is
delivered; the texts of its other fields are not read by the client and are left as values.
-/
namespace AgentPay.ResumedClients
open SolanaRuntime EscrowState GatewayClaims SessionStore PolicyRules ControlPlane PaidRequests
open StoreRuns EvidenceRuns ClaimEncoding ClaimHeader UndisturbedSessions ClientPurchases
open Workspaces Fallible KeyedTable StableSort
open ControlRequests (SessionSummaryView saturatingSub)
open LoneRequests (intact_reached)
open DecimalStrings (natToString stringToBigInt stringToBigInt_natToString)

/-! ### The lookup -/

inductive SessionDenial where
  | malformedRequest
  | storeUnavailable
  | sessionUnknown
deriving DecidableEq

/-- `get_session`: unscoped, and no more than the 500 newest. The session is looked for in that
listing by the text of its key. -/
def getSession (p : Parsers) (s : Plane) (session : Text) :
    Except SessionDenial SessionSummaryView := do
  require ((p.parsePubkey session).isSome = true) .malformedRequest
  let rows ← (Workspaces.listSessions 500 none s).mapError fun _ => .storeUnavailable
  let found ← okOr (rows.find? fun r => Base58.encode r.session.toList = session) .sessionUnknown
  pure ⟨found, saturatingSub found.depositedTotal found.cumulativeAccepted⟩

/-! ### The client -/

/-- The two fields of the answer that `resume` reads. -/
structure ResumeBody where
  cumulativeAccepted : Text
  lastNonce : Option Text
deriving DecidableEq

def resumeBody (v : SessionSummaryView) : ResumeBody where
  cumulativeAccepted := natToString v.summary.cumulativeAccepted.toNat
  lastNonce := v.summary.lastNonce.map fun n => natToString n.toNat

inductive ResumeError where
  | refused (d : SessionDenial)
  | threw (e : JsError)
deriving DecidableEq

/-- `BigInt(text)`, which throws a `SyntaxError`. -/
def bigInt (t : Text) : Except ResumeError ℤ :=
  okOr (stringToBigInt t) (.threw (.error ("Cannot convert " ++ String.ofList t ++ " to a BigInt")))

/-- An absent or empty nonce is `0n`. -/
def startingNonce : Option Text → Except ResumeError ℤ
  | none => pure 0
  | some t => if t = [] then pure 0 else bigInt t

/-- `resume`: the counters of a new client are those of the session the gateway answers with.
The answer is taken to arrive as it was sent. -/
def resume (answer : Except SessionDenial ResumeBody) (session : Text) (expiresAt : ℤ)
    (retries : ℕ∞) : Except ResumeError Client := do
  let found ← answer.mapError .refused
  let cumulative ← bigInt found.cumulativeAccepted
  let nonce ← startingNonce found.lastNonce
  let keys ← (construct session expiresAt).mapError .threw
  pure ⟨keys, retries, cumulative, nonce⟩

/-- The gateway answers for the session what its store holds; a client that resumes with
the answer is in step, and none of its purchases at a positive price that is quoted and
asked alike is refused for its price or its place in the order. -/
structure Restores (cfg : Config) (p : Parsers) (s : Plane) (session : Pubkey) : Prop where
  answered : ∃ view record, getSession p s (Base58.encode session.toList) = .ok view ∧
    getRecord s.database session = .ok record ∧
    view.summary.cumulativeAccepted = record.cumulativeAccepted ∧
    view.summary.lastNonce = record.lastNonce
  resumed : ∀ expiresAt retries, ∃ client,
    resume ((getSession p s (Base58.encode session.toList)).map resumeBody)
      (Base58.encode session.toList) expiresAt retries = .ok client ∧
    client.session = session ∧ InStep client (ControlRequests.shared s)
  ordered : ∀ expiresAt retries client,
    resume ((getSession p s (Base58.encode session.toList)).map resumeBody)
      (Base58.encode session.toList) expiresAt retries = .ok client →
    ∀ w resource client' s' f missed price, w.quoted = .ok price → w.priced = .ok price →
      0 < price →
      BuyOnce cfg p w resource client (ControlRequests.shared s) client' s' (.error f) missed →
      ¬OutOfStep f

def listedFirst (a b : SessionEntry) : Prop := b.createdAt ≤ a.createdAt

instance : DecidableRel listedFirst := fun a b =>
  inferInstanceAs (Decidable (b.createdAt ≤ a.createdAt))

instance : Std.Total listedFirst := ⟨fun a b => le_total b.createdAt a.createdAt⟩

instance : IsTrans SessionEntry listedFirst := ⟨fun _ _ _ h h' => h'.trans h⟩

/-- How many sessions are listed before one. -/
def newer (s : Plane) (e : SessionEntry) : ℕ :=
  s.sessions.rows.countP fun x => Precedes listedFirst s.sessions.rows x e

section Listing
variable {cfg : Config} {p : Parsers} {s : Plane} {e e' : SessionEntry}

theorem rows_nodup (s : Plane) : s.sessions.rows.Nodup := by
  refine s.sessions.unique.imp ?_
  rintro a b h rfl
  simp [sameSession] at h

theorem find_session (he : e ∈ s.sessions.rows) :
    (s.sessions.rows.find? fun x => x.session = e.session) = some e := by
  apply Table.find?_eq_some_of_mem sameSession_comm he
  · simp
  · intro b hb
    simpa [sameSession] using hb

theorem database_entry (he : e ∈ s.sessions.rows) :
    s.database.sessions e.session = some e.row ∧ s.database.tickets e.session = e.ticket := by
  simp only [Plane.database, find_session he]
  exact ⟨rfl, rfl⟩

theorem plane_intact {rs : List Request} (hg : GatewayReached cfg ⟨ControlRequests.shared s, rs⟩) :
    Intact cfg.sha256 s.database := intact_reached hg

def summaryOf (s : Plane) (e : SessionEntry) : SessionSummary where
  session := e.session
  agent := e.row.agent
  provider := e.row.provider
  mint := e.row.mint
  depositedTotal := e.row.depositedTotal.toUInt64
  cumulativeAccepted := (StoreRuns.recordOf e.session e.row e.ticket).cumulativeAccepted
  lastNonce := (StoreRuns.recordOf e.session e.row e.ticket).lastNonce
  expiresAt := e.row.expiresAt
  isSettled := e.row.settled
  chainVerified := e.row.chainVerified
  evidenceCount := s.feed.countP fun f => f.session = e.session
  createdAt := e.createdAt

theorem nonceFromRow_of_nonneg {n : Int64} (h : 0 ≤ n.toInt) : nonceFromRow n = n.toUInt64 := by
  apply if_pos
  rw [Int64.le_iff_toInt_le]
  exact h

theorem summaryFromRow_eq (hi : Intact cfg.sha256 s.database) (he : e ∈ s.sessions.rows) :
    summaryFromRow s e = .ok (summaryOf s e) := by
  rcases database_entry he with ⟨hrow, hticket⟩
  have hc := hi.tracked hrow
  rw [hticket] at hc
  rw [summaryFromRow, toU64_of_nonneg (hc.deposit _ rfl).le, ok_bind]
  rcases ht : e.ticket with _ | t
  · rw [summaryOf, ht]
    rfl
  · have hn := hc.ticket_nonneg ht
    rw [Option.map_some, Option.getD_some, toU64_of_nonneg hn.1, ok_bind, Option.map_some,
      nonceFromRow_of_nonneg hn.2, summaryOf, ht]
    rfl

theorem listSessions_eq (hi : Intact cfg.sha256 s.database) (limit : ℕ) :
    Workspaces.listSessions limit none s =
      .ok (((s.sessions.rows.insertionSort listedFirst).take limit).map (summaryOf s)) := by
  have hall : s.sessions.rows.filter (sessionInScope s none) = s.sessions.rows := by
    rw [List.filter_eq_self]
    exact fun _ _ => rfl
  rw [Workspaces.listSessions, hall]
  apply mapM_eq_ok
  intro e he
  apply summaryFromRow_eq hi
  exact (List.mem_insertionSort listedFirst).mp (List.mem_of_mem_take he)

theorem encode_inj {a b : Pubkey} (h : Base58.encode a.toList = Base58.encode b.toList) :
    a = b := by
  have hback := congrArg Base58.base58Decode h
  rw [Base58.base58Decode_encode, Base58.base58Decode_encode, Except.ok.injEq] at hback
  exact Vector.toList_inj.mp hback

/-- What `get_session` answers for a tracked session. -/
theorem getSession_eq (hp : p.Standard) (hi : Intact cfg.sha256 s.database)
    (he : e ∈ s.sessions.rows) :
    getSession p s (Base58.encode e.session.toList) =
      if newer s e < 500 then .ok ⟨summaryOf s e, saturatingSub (summaryOf s e).depositedTotal
        (summaryOf s e).cumulativeAccepted⟩ else .error .sessionUnknown := by
  have hfind : (((s.sessions.rows.insertionSort listedFirst).take 500).map (summaryOf s)).find?
      (fun r => Base58.encode r.session.toList = Base58.encode e.session.toList) =
        if newer s e < 500 then some (summaryOf s e) else none := by
    have hsame : ∀ x ∈ (s.sessions.rows.insertionSort listedFirst).take 500,
        Base58.encode (summaryOf s x).session.toList = Base58.encode e.session.toList → x = e := by
      intro x hx hcode
      have hxs := (List.mem_insertionSort listedFirst).mp (List.mem_of_mem_take hx)
      apply Table.eq_of_clash sameSession_comm hxs he
      have hkey : x.session = e.session := encode_inj hcode
      simpa [sameSession] using hkey
    have hiff : e ∈ (s.sessions.rows.insertionSort listedFirst).take 500 ↔ newer s e < 500 :=
      mem_take_insertionSort_iff (rows_nodup s) he 500
    by_cases hlt : newer s e < 500
    · rw [if_pos hlt]
      have hsome : ((((s.sessions.rows.insertionSort listedFirst).take 500).map (summaryOf s)).find?
          fun r => Base58.encode r.session.toList = Base58.encode e.session.toList).isSome := by
        rw [List.find?_isSome]
        exact ⟨_, List.mem_map_of_mem (hiff.mpr hlt), decide_eq_true rfl⟩
      rcases Option.isSome_iff_exists.mp hsome with ⟨r, hr⟩
      rcases List.mem_map.mp (List.mem_of_find?_eq_some hr) with ⟨x, hx, rfl⟩
      have hcode := List.find?_some hr
      rw [decide_eq_true_eq] at hcode
      rw [hr, hsame x hx hcode]
    · rw [if_neg hlt, List.find?_eq_none]
      intro r hr hcode
      rcases List.mem_map.mp hr with ⟨x, hx, rfl⟩
      have hxe := hsame x hx (of_decide_eq_true hcode)
      rw [hxe] at hx
      exact hlt (hiff.mp hx)
  have hparse : require ((p.parsePubkey (Base58.encode e.session.toList)).isSome = true)
      SessionDenial.malformedRequest = .ok ⟨⟩ := by
    rw [require_eq_ok, hp.pubkey]
    rfl
  rw [getSession, hparse, ok_bind, listSessions_eq hi]
  simp only [Except.mapError, ok_bind, hfind]
  split_ifs
  · rfl
  · rfl

theorem getRecord_entry (hi : Intact cfg.sha256 s.database) (he : e ∈ s.sessions.rows) :
    getRecord s.database e.session = .ok (StoreRuns.recordOf e.session e.row e.ticket) := by
  rcases database_entry he with ⟨hrow, hticket⟩
  rw [getRecord_eq hi hrow, hticket]

end Listing

section Resuming
variable {cfg : Config} {p : Parsers} {s : Plane} {session : Pubkey} {view : SessionSummaryView}

theorem bigInt_natToString (n : ℕ) : bigInt (natToString n) = .ok (n : ℤ) := by
  rw [bigInt, stringToBigInt_natToString]
  rfl

theorem natToString_ne_nil (n : ℕ) : natToString n ≠ [] := by
  intro h
  rcases DecimalStrings.natToString_eq n with ⟨ds, hne, -, -, hs⟩
  rw [h, eq_comm, List.map_eq_nil_iff] at hs
  exact hne hs

theorem startingNonce_printed (nonce : Option UInt64) :
    startingNonce (nonce.map fun n => natToString n.toNat) = .ok ((nonce.getD 0).toNat : ℤ) := by
  rcases nonce with _ | n
  · rfl
  · rw [Option.map_some, startingNonce, if_neg (natToString_ne_nil _), bigInt_natToString]
    rfl

def resumed (session : Pubkey) (expiresAt : ℤ) (retries : ℕ∞) (v : SessionSummaryView) :
    Client where
  keys := ⟨Base58.encode session.toList, session.toList, expiresAt, Vector.length_toList⟩
  retries := retries
  cumulative := v.summary.cumulativeAccepted.toNat
  nonce := (v.summary.lastNonce.getD 0).toNat

theorem resume_eq (session : Pubkey) (expiresAt : ℤ) (retries : ℕ∞) (v : SessionSummaryView) :
    resume (.ok (resumeBody v)) (Base58.encode session.toList) expiresAt retries =
      .ok (resumed session expiresAt retries v) := by
  simp only [resume, resumeBody, Except.mapError, ok_bind, bigInt_natToString,
    startingNonce_printed, construct_encode]
  rfl

end Resuming

/-- A tracked session's counters are restored exactly if fewer than 500 sessions are listed
before it. The listing is the one the gateway answers at that moment, and the answer arrives. -/
theorem resume_restores_iff {cfg : Config} {p : Parsers} (hp : p.Standard) {s : Plane}
    {rs : List Request} (hg : GatewayReached cfg ⟨ControlRequests.shared s, rs⟩)
    {e : SessionEntry} (he : e ∈ s.sessions.rows) :
    Restores cfg p s e.session ↔ newer s e < 500 := by
  have hi := plane_intact hg
  have hget := @getSession_eq cfg p s e hp hi he
  constructor
  · intro h
    rcases h.answered with ⟨view, _, hok, -⟩
    by_contra hnot
    rw [hget, if_neg hnot] at hok
    cases hok
  · intro hlt
    rw [if_pos hlt] at hget
    have hstep : ∀ expiresAt retries, InStep (resumed e.session expiresAt retries
        ⟨summaryOf s e, saturatingSub (summaryOf s e).depositedTotal
          (summaryOf s e).cumulativeAccepted⟩) (ControlRequests.shared s) := fun _ _ =>
      ⟨_, getRecord_entry hi he, rfl, rfl⟩
    refine ⟨⟨_, _, hget, getRecord_entry hi he, rfl, rfl⟩, ?_, ?_⟩
    · intro expiresAt retries
      rw [hget]
      exact ⟨_, resume_eq e.session expiresAt retries _, rfl, hstep expiresAt retries⟩
    · intro expiresAt retries client hclient w resource client' s' f missed price hq ha hpos hbuy
      rw [hget] at hclient
      rw [Except.map, resume_eq, Except.ok.injEq] at hclient
      subst hclient
      have hst := stands_of_record hi (getRecord_entry hi he)
      have hleads := buyOnce_leads hp rfl hst hbuy
      cases hleads with
      | unpaid _ _ hfair => exact hfair price hq ha hpos rfl rfl
      | charged _ _ _ hfair => exact hfair

section Openings
variable {s : Plane} {t : Table sameSession} {record : SessionRecord} {createdAt : Timestamp}

/-- The rows `insert_session` writes. -/
def openedEntry (r : SessionRecord) (createdAt : Timestamp) : SessionEntry :=
  ⟨r.session, ⟨r.agent, r.provider, r.mint, r.depositedTotal.toInt64, r.expiresAt, false,
    r.chainVerified⟩, none, createdAt⟩

theorem find_openedEntry (k : Pubkey) :
    [openedEntry record createdAt].find? (fun e => e.session = k) =
      if record.session = k then some (openedEntry record createdAt) else none := by
  rw [List.find?_singleton]
  exact if_congr (by rw [decide_eq_true_eq]; rfl) rfl rfl

theorem database_insert (hnone : s.sessions.rows.find? (fun e => e.session = record.session) = none)
    (hrows : t.rows = s.sessions.rows ++ [openedEntry record createdAt]) :
    ({ s with sessions := t } : Plane).database =
      Database.setSession { s.database with order := s.database.order ++ [record.session] }
        record.session (openedEntry record createdAt).row := by
  simp only [Plane.database, Database.setSession, Database.mk.injEq, hrows, List.map_append,
    List.find?_append, find_openedEntry, and_true]
  refine ⟨rfl, funext fun k => ?_, funext fun k => ?_⟩
  · rw [Function.update_apply]
    by_cases hk : record.session = k
    · rw [if_pos hk, if_pos hk.symm, ← hk, hnone]
      rfl
    · rw [if_neg hk, if_neg (Ne.symm hk), Option.or_none]
  · by_cases hk : record.session = k
    · rw [if_pos hk, ← hk, hnone]
      rfl
    · rw [if_neg hk, Option.or_none]

/-- Opening a session puts its entry at the end of the table. -/
theorem openRecord_insert (hdeposit : 0 < record.depositedTotal.toInt64)
    (hfits : record.depositedTotal.toNat < 2 ^ 63)
    (ht : s.sessions.insert (openedEntry record createdAt) = some t) :
    openRecord s.database record = .ok ({ s with sessions := t } : Plane).database := by
  rcases Table.insert_eq_some.mp ht with ⟨hfree, hrows⟩
  have hnone : s.sessions.rows.find? (fun e => e.session = record.session) = none := by
    rw [List.find?_eq_none]
    intro a ha hkey
    exact Bool.false_ne_true ((hfree a ha).symm.trans hkey)
  have hunknown : s.database.sessions record.session = none :=
    congrArg (Option.map SessionEntry.row) hnone
  have hpositive : require (0 < record.depositedTotal.toInt64) DbError.constraint = .ok ⟨⟩ :=
    require_eq_ok.mpr hdeposit
  rw [openRecord, saveSession, toI64_of_lt hfits, ok_bind, hpositive, ok_bind]
  simp only [hunknown]
  rw [database_insert hnone hrows]
  rfl

end Openings

namespace Crowd
export PaidInFull.Shop (config record idle)
open PlainParsers (parsers standard)

/-- The session key that begins with `n` in two bytes. -/
def key (n : ℕ) : Pubkey :=
  Vector.ofFn fun i => if i.val = 0 then UInt8.ofNat n else UInt8.ofNat (n / 256)

theorem key_inj {m n : ℕ} (hm : m < 65536) (hn : n < 65536) (h : key m = key n) : m = n := by
  have h0 := congrArg (fun k : Pubkey => k[0]) h
  have h1 := congrArg (fun k : Pubkey => k[1]) h
  simp only [key, Vector.getElem_ofFn, if_true, one_ne_zero, if_false] at h0 h1
  rw [← UInt8.toNat_inj, UInt8.toNat_ofNat', UInt8.toNat_ofNat'] at h0 h1
  omega

/-- The `n`-th session, opened at the instant `n`. -/
def entry (n : ℕ) : SessionEntry := openedEntry (record (key n)) n

theorem amount_pos {k : Pubkey} : 0 < (record k).depositedTotal.toInt64 :=
  show 0 < (10000 : UInt64).toInt64 by decide

theorem amount_fits {k : Pubkey} : (record k).depositedTotal.toNat < 2 ^ 63 :=
  show (10000 : UInt64).toNat < 2 ^ 63 by decide

/-- The first `n` sessions. -/
def crowd : ℕ → Plane
  | 0 => ⟨.empty, .empty, .empty, .empty, .empty, [], .empty⟩
  | n + 1 => match (crowd n).sessions.insert (entry n) with
    | some t => { crowd n with sessions := t }
    | none => crowd n

theorem crowd_succ {n : ℕ} (hn : n < 65536)
    (hrows : (crowd n).sessions.rows = (List.range n).map entry) :
    ∃ t, (crowd n).sessions.insert (entry n) = some t ∧
      crowd (n + 1) = { crowd n with sessions := t } ∧
      t.rows = (List.range (n + 1)).map entry := by
  have hfree : ∀ a ∈ (crowd n).sessions.rows, sameSession a (entry n) = false := by
    intro a ha
    rw [hrows, List.mem_map] at ha
    rcases ha with ⟨m, hm, rfl⟩
    rw [List.mem_range] at hm
    rw [sameSession, decide_eq_false_iff_not]
    intro hkey
    have heq := key_inj (by omega) hn hkey
    omega
  have hinsert : ∃ t, (crowd n).sessions.insert (entry n) = some t := by
    rw [Table.insert, dif_pos hfree]
    exact ⟨_, rfl⟩
  rcases hinsert with ⟨t, ht⟩
  refine ⟨t, ht, ?_, ?_⟩
  · rw [crowd, ht]
  · rw [(Table.insert_eq_some.mp ht).2, hrows, List.range_succ, List.map_append]
    rfl

theorem crowd_reached {n : ℕ} (hn : n ≤ 65536) :
    (crowd n).sessions.rows = (List.range n).map entry ∧
      GatewayReached config ⟨ControlRequests.shared (crowd n), []⟩ := by
  induction n with
  | zero => exact ⟨rfl, idle, [], ⟨rfl, rfl⟩, .start⟩
  | succ n ih =>
    rcases ih (by omega) with ⟨hrows, hreached⟩
    rcases crowd_succ (by omega) hrows with ⟨t, ht, hnext, hrows'⟩
    rw [hnext]
    refine ⟨hrows', hreached.tail (i := .outside (.openSession (record (key n)))) (.outside ?_)⟩
    have hopen : openRecord (crowd n).database (record (key n)) =
        .ok ({ crowd n with sessions := t } : Plane).database :=
      openRecord_insert amount_pos amount_fits ht
    exact .openSession hopen

theorem entry_mem {n : ℕ} (hn : n ≤ 65536) (hpos : 0 < n) : entry 0 ∈ (crowd n).sessions.rows := by
  rw [(crowd_reached hn).1]
  exact List.mem_map_of_mem (List.mem_range.mpr hpos)

/-- All later sessions are listed before the first. -/
theorem newer_first {n : ℕ} (hn : n ≤ 65536) : n ≤ newer (crowd n) (entry 0) + 1 := by
  rcases n with _ | n
  · exact Nat.zero_le _
  have hall : ((List.range n).map fun i => entry (i + 1)).countP
      (fun x => Precedes listedFirst (crowd (n + 1)).sessions.rows x (entry 0)) = n := by
    have hlen : ((List.range n).map fun i => entry (i + 1)).length = n := by simp
    rw [List.countP_eq_length.mpr, hlen]
    intro x hx
    rcases List.mem_map.mp hx with ⟨i, -, rfl⟩
    have hlater : ((0 : ℕ) : ℤ) ≤ ((i + 1 : ℕ) : ℤ) := Int.ofNat_le.mpr (Nat.zero_le _)
    refine decide_eq_true ⟨hlater, fun hback => ?_⟩
    have hno : ((i + 1 : ℕ) : ℤ) ≤ ((0 : ℕ) : ℤ) := hback
    omega
  have hrows := (crowd_reached hn).1
  rw [List.range_succ_eq_map, List.map_cons, List.map_map] at hrows
  have hsub :
      ((List.range n).map fun i => entry (i + 1)).Sublist (crowd (n + 1)).sessions.rows := by
    rw [hrows]
    exact List.sublist_cons_self _ _
  exact Nat.succ_le_succ (hall.symm.le.trans hsub.countP_le)

end Crowd

theorem resume_restores_iff_crowd :
    GatewayReached Crowd.config ⟨ControlRequests.shared (Crowd.crowd 1), []⟩ ∧
      Restores Crowd.config PlainParsers.parsers (Crowd.crowd 1) (Crowd.key 0) := by
  have hreached := (Crowd.crowd_reached (n := 1) (by omega)).2
  have hmem := Crowd.entry_mem (n := 1) (by omega) one_pos
  have hlt : newer (Crowd.crowd 1) (Crowd.entry 0) < 500 :=
    List.countP_le_length.trans_lt (by rw [(Crowd.crowd_reached (n := 1) (by omega)).1]; decide)
  exact ⟨hreached, (resume_restores_iff PlainParsers.standard hreached hmem).mpr hlt⟩

/-- The oldest of 501 sessions is tracked, and the gateway answers that it is unknown. -/
theorem oldest_session_unknown :
    GatewayReached Crowd.config ⟨ControlRequests.shared (Crowd.crowd 501), []⟩ ∧
      Crowd.entry 0 ∈ (Crowd.crowd 501).sessions.rows ∧
      (∃ record, getRecord (Crowd.crowd 501).database (Crowd.key 0) = .ok record) ∧
      getSession PlainParsers.parsers (Crowd.crowd 501) (Base58.encode (Crowd.key 0).toList) =
        .error .sessionUnknown ∧
      ¬Restores Crowd.config PlainParsers.parsers (Crowd.crowd 501) (Crowd.key 0) := by
  have hreached := (Crowd.crowd_reached (n := 501) (by omega)).2
  have hmem := Crowd.entry_mem (n := 501) (by omega) (by omega)
  have hi := plane_intact hreached
  have hrecord := getRecord_entry hi hmem
  have hget := getSession_eq PlainParsers.standard hi hmem
  have hbefore := Crowd.newer_first (n := 501) (by omega)
  rw [if_neg (by omega)] at hget
  refine ⟨hreached, hmem, ⟨_, hrecord⟩, hget, ?_⟩
  intro h
  rcases h.answered with ⟨view, _, hok, -⟩
  cases hget.symm.trans hok

end AgentPay.ResumedClients
