import AgentPay.ClaimHeader
import AgentPay.ForwardedAddresses
import AgentPay.OperatorCredentials
import AgentPay.RateLimits

/-!
# From the environment to a running gateway

`Config::from_env` of `config.rs`: what it reads, in which order it refuses, and what every
configuration it lets through satisfies. A gateway that can be reached from another machine
has a token, so on its control plane nobody is let in without a credential, however the
requests interleave.

`std::env::var` is a table of the variables that are set and hold text; parsing a key
belongs to another package and is a parameter. The texts that `main` logs are left out.
-/
namespace AgentPay.BootConfiguration
open SolanaRuntime (Pubkey)
open EscrowState (Hash agentpayId)
open PolicyRules (Text)
open IpAddresses DecimalStrings Fallible
open ControlRequests (trim Env)

/-! ### Socket addresses -/

structure SocketAddr where
  ip : IpAddr
  port : UInt16
  scopeId : UInt32
deriving DecidableEq

/-- A number of any length, below a bound. -/
def readUnlimited (bound : ℕ) (s : Text) : Option (ℕ × Text) :=
  readNumber 10 s.length true bound s

def readPort (s : Text) : Option (UInt16 × Text) := do
  let s ← readGivenChar ':' s
  let (port, s) ← readUnlimited (2 ^ 16) s
  pure (UInt16.ofNat port, s)

def readScopeId (s : Text) : Option (UInt32 × Text) := do
  let s ← readGivenChar '%' s
  let (scope, s) ← readUnlimited (2 ^ 32) s
  pure (UInt32.ofNat scope, s)

def readSocketAddrV4 (s : Text) : Option (SocketAddr × Text) := do
  let ((a, b, c, d), s) ← readIpv4Addr s
  let (port, s) ← readPort s
  pure (⟨.v4 a b c d, port, 0⟩, s)

def readSocketAddrV6 (s : Text) : Option (SocketAddr × Text) := do
  let s ← readGivenChar '[' s
  let (groups, s) ← readIpv6Addr s
  let (scope, s) := (readScopeId s).getD (0, s)
  let s ← readGivenChar ']' s
  let (port, s) ← readPort s
  pure (⟨.v6 groups, port, scope⟩, s)

/-- `str::parse::<SocketAddr>`. -/
def parseSocketAddr (s : Text) : Option SocketAddr :=
  match (readSocketAddrV4 s).or (readSocketAddrV6 s) with
  | some (addr, []) => some addr
  | _ => none

/-- `IpAddr::is_loopback`. An IPv4 address mapped into IPv6 is not loopback. -/
def isLoopback : IpAddr → Bool
  | .v4 a _ _ _ => a = 127
  | .v6 groups => groups = #v[0, 0, 0, 0, 0, 0, 0, 1]

/-! ### The environment -/

inductive Var where
  | bindAddr
  | rpcUrl
  | allowMainnet
  | legacyProgramId
  | programId
  | providerKeypair
  | settlementAuthorityKeypair
  | databaseUrl
  | trustOpenRequests
  | upstreamUrl
  | requireAgentPolicy
  | trustedProxies
  | openRateLimit
  | rateLimit
  | chainTimeoutSecs
  | adminToken
  | network
deriving DecidableEq

/-- The variables that are set and hold text. -/
abbrev Vars := Var → Option Text

/-- What keeps a gateway from booting, by variable. The sentences that explain it are left out;
the lengths and addresses they name are kept. -/
inductive ConfigError where
  | missing (v : Var)
  | invalid (v : Var) (reason : Text)
  | mainnetRefused (url : Text)
  | adminTokenRequired (addr : SocketAddr)
  | adminTokenTooShort (length least : ℕ)
deriving DecidableEq

/-- The configuration the gateway runs with. Fields that are read by a log line only are left
out. -/
structure Config where
  bindAddr : SocketAddr
  rpcUrl : Text
  programId : Pubkey
  legacyProgramId : Option Pubkey
  providerKeypairPath : Option Text
  settlementAuthorityKeypairPath : Option Text
  databaseUrl : Option Text
  trustOpenRequests : Bool
  upstreamUrl : Option Text
  network : Text
  adminToken : Option Text
  openRateLimit : UInt32
  generalRateLimit : UInt32
  chainTimeout : UInt64
  requireAgentPolicy : Bool
  trustedProxies : List IpAddr

def chainTimeoutMinSecs : UInt64 := 15
def chainTimeoutMaxSecs : UInt64 := 300
def chainTimeoutDefaultSecs : UInt64 := 60

/-- `Ord::clamp`. -/
def clamp (x lo hi : UInt64) : UInt64 := if x < lo then lo else if hi < x then hi else x

def chainTimeoutFrom (raw : Option Text) : UInt64 :=
  (raw.bind fun v => parseU64 (trim v)).elim chainTimeoutDefaultSecs fun v =>
    clamp v chainTimeoutMinSecs chainTimeoutMaxSecs

def parseU32 (src : Text) : Option UInt32 :=
  (parseInt 0 (2 ^ 32 - 1) src).map fun x => UInt32.ofNat x.toNat

def minTokenLen : ℕ := 16

/-- `str::len`: bytes, not characters. -/
def byteLen (s : Text) : ℕ := (s.map Char.utf8Size).sum

section Reading
variable (vars : Vars)

/-- Nothing but white space counts as unset. -/
def optionalEnv (v : Var) : Option Text := (vars v).filter fun s => trim s ≠ []

def requireVar (v : Var) : Except ConfigError Text := okOr (optionalEnv vars v) (.missing v)

def isSet (v : Var) : Bool := vars v = some ['1']

/-- A limit that does not parse, and one of zero, is the default. -/
def limitFrom (v : Var) (otherwise : UInt32) : UInt32 :=
  (((optionalEnv vars v).bind parseU32).filter fun n => 0 < n).getD otherwise

/-- Entries that do not parse are dropped. -/
def trustedProxiesFrom : List IpAddr :=
  match optionalEnv vars .trustedProxies with
  | none => []
  | some raw => (raw.splitOn ',').filterMap fun p =>
    if trim p = [] then none else parseIpAddr (trim p)

def networkFrom (rpcUrl : Text) : Text :=
  (optionalEnv vars .network).getD <|
    if "devnet".toList <:+: rpcUrl then "solana:devnet".toList
    else if "testnet".toList <:+: rpcUrl then "solana:testnet".toList
    else if "mainnet".toList <:+: rpcUrl then "solana:mainnet".toList
    else "solana:localnet".toList

def bindAddrFrom : Except ConfigError SocketAddr :=
  okOr (parseSocketAddr ((vars .bindAddr).getD "127.0.0.1:8080".toList))
    (.invalid .bindAddr "invalid socket address syntax".toList)

def checkAdminToken (bindAddr : SocketAddr) : Option Text → Except ConfigError Unit
  | some t => require (minTokenLen ≤ byteLen t) (.adminTokenTooShort (byteLen t) minTokenLen)
  | none => require (isLoopback bindAddr.ip) (.adminTokenRequired bindAddr)

variable (parsePubkey : Text → Except Text Pubkey)

def keyFrom (v : Var) (text : Text) : Except ConfigError Pubkey :=
  (parsePubkey text).mapError (.invalid v)

def legacyFrom : Except ConfigError (Option Pubkey) :=
  match optionalEnv vars .legacyProgramId with
  | some text => (keyFrom parsePubkey .legacyProgramId text).map some
  | none => pure none

def configOf (bindAddr : SocketAddr) (rpcUrl : Text) (legacyProgramId : Option Pubkey)
    (programId : Pubkey) : Config where
  bindAddr := bindAddr
  rpcUrl := rpcUrl
  programId := programId
  legacyProgramId := legacyProgramId
  providerKeypairPath := optionalEnv vars .providerKeypair
  settlementAuthorityKeypairPath := optionalEnv vars .settlementAuthorityKeypair
  databaseUrl := optionalEnv vars .databaseUrl
  trustOpenRequests := isSet vars .trustOpenRequests
  upstreamUrl := optionalEnv vars .upstreamUrl
  network := networkFrom vars rpcUrl
  adminToken := optionalEnv vars .adminToken
  openRateLimit := limitFrom vars .openRateLimit 20
  generalRateLimit := limitFrom vars .rateLimit 600
  chainTimeout := chainTimeoutFrom (optionalEnv vars .chainTimeoutSecs)
  requireAgentPolicy := isSet vars .requireAgentPolicy
  trustedProxies := trustedProxiesFrom vars

/-- `Config::from_env`, with the environment as a function of the variable. Checks come in the
order of the source, so the first that fails is the error. Warnings are logged and left out. -/
def fromEnv : Except ConfigError Config := do
  let bindAddr ← bindAddrFrom vars
  let rpcUrl ← requireVar vars .rpcUrl
  require ("mainnet".toList <:+: rpcUrl → isSet vars .allowMainnet) (.mainnetRefused rpcUrl)
  let legacyProgramId ← legacyFrom vars parsePubkey
  let programText ← requireVar vars .programId
  let programId ← keyFrom parsePubkey .programId programText
  checkAdminToken bindAddr (optionalEnv vars .adminToken)
  pure (configOf vars bindAddr rpcUrl legacyProgramId programId)

end Reading

/-! ### What boots -/

/-- What a configuration that was let through satisfies. -/
structure Booted (c : Config) : Prop where
  strong : ∀ token, c.adminToken = some token → minTokenLen ≤ byteLen token
  guarded : c.adminToken = none → isLoopback c.bindAddr.ip = true
  openQuota : (RateLimits.Quota.perMinute c.openRateLimit).Sound
  generalQuota : (RateLimits.Quota.perMinute c.generalRateLimit).Sound
  chainTimeout : chainTimeoutMinSecs ≤ c.chainTimeout ∧ c.chainTimeout ≤ chainTimeoutMaxSecs

/-- The variables from which a gateway starts. -/
structure Bootable (parsePubkey : Text → Except Text Pubkey) (vars : Vars) : Prop where
  bindAddr : ∃ addr, bindAddrFrom vars = .ok addr ∧
    (optionalEnv vars .adminToken = none → isLoopback addr.ip = true)
  rpcUrl : ∃ url, optionalEnv vars .rpcUrl = some url ∧
    ("mainnet".toList <:+: url → isSet vars .allowMainnet)
  legacy : ∀ text, optionalEnv vars .legacyProgramId = some text →
    ∃ key, parsePubkey text = .ok key
  program : ∃ text key, optionalEnv vars .programId = some text ∧ parsePubkey text = .ok key
  adminToken : ∀ token, optionalEnv vars .adminToken = some token → minTokenLen ≤ byteLen token

section Booting
variable {vars : Vars} {parsePubkey : Text → Except Text Pubkey} {c : Config} {v : Var}

theorem clamp_bounds (x : UInt64) {lo hi : UInt64} (h : lo ≤ hi) :
    lo ≤ clamp x lo hi ∧ clamp x lo hi ≤ hi := by
  unfold clamp
  split_ifs with hlo hhi
  · exact ⟨UInt64.le_refl lo, h⟩
  · exact ⟨h, UInt64.le_refl hi⟩
  · exact ⟨UInt64.not_lt.mp hlo, UInt64.not_lt.mp hhi⟩

theorem chainTimeoutFrom_bounds (raw : Option Text) :
    chainTimeoutMinSecs ≤ chainTimeoutFrom raw ∧ chainTimeoutFrom raw ≤ chainTimeoutMaxSecs := by
  unfold chainTimeoutFrom
  cases raw.bind fun v => parseU64 (trim v) with
  | none => exact ⟨by decide, by decide⟩
  | some v => exact clamp_bounds v (by decide)

theorem limitFrom_sound {otherwise : UInt32} (h : 0 < otherwise) :
    (RateLimits.Quota.perMinute (limitFrom vars v otherwise)).Sound := by
  have hpos : 0 < limitFrom vars v otherwise := by
    unfold limitFrom
    cases hn : ((optionalEnv vars v).bind parseU32).filter fun n => 0 < n with
    | none => exact h
    | some n => simpa using (Option.filter_eq_some_iff.mp hn).2
  have hperiod : (60 * 10 ^ 9 : ℕ) ≤ RateLimits.idleEviction := by decide
  exact ⟨UInt32.lt_iff_toNat_lt.mp hpos, hperiod⟩

theorem checkAdminToken_eq_ok {addr : SocketAddr} {token : Option Text} {u : Unit} :
    checkAdminToken addr token = .ok u ↔ (∀ t, token = some t → minTokenLen ≤ byteLen t) ∧
      (token = none → isLoopback addr.ip = true) := by
  cases token with
  | none => simp [checkAdminToken]
  | some t => simp [checkAdminToken]

theorem fromEnv_eq_ok : fromEnv vars parsePubkey = .ok c ↔ ∃ addr url legacy text key,
    bindAddrFrom vars = .ok addr ∧ optionalEnv vars .rpcUrl = some url ∧
      ("mainnet".toList <:+: url → isSet vars .allowMainnet) ∧
      legacyFrom vars parsePubkey = .ok legacy ∧ optionalEnv vars .programId = some text ∧
      parsePubkey text = .ok key ∧ checkAdminToken addr (optionalEnv vars .adminToken) = .ok () ∧
      configOf vars addr url legacy key = c := by
  simp only [fromEnv, requireVar, keyFrom, bind_eq_ok, okOr_eq_ok, require_eq_ok, mapError_eq_ok,
    pure_eq_ok, exists_const, exists_and_left]
  constructor
  · rintro ⟨addr, haddr, url, hurl, hmain, legacy, hlegacy, text, htext, key, hkey, ⟨⟩, hguard, rfl⟩
    exact ⟨addr, haddr, url, hurl, hmain, legacy, hlegacy, text, htext, key, hkey, hguard, rfl⟩
  · rintro ⟨addr, haddr, url, hurl, hmain, legacy, hlegacy, text, htext, key, hkey, hguard, rfl⟩
    exact ⟨addr, haddr, url, hurl, hmain, legacy, hlegacy, text, htext, key, hkey, (), hguard, rfl⟩

theorem legacyFrom_isOk : (∃ legacy, legacyFrom vars parsePubkey = .ok legacy) ↔
    ∀ text, optionalEnv vars .legacyProgramId = some text → ∃ key, parsePubkey text = .ok key := by
  unfold legacyFrom keyFrom
  cases optionalEnv vars .legacyProgramId with
  | none => exact iff_of_true ⟨none, rfl⟩ nofun
  | some text =>
    cases hkey : parsePubkey text with
    | ok key => simp [hkey, Except.map, Except.mapError]
    | error e => simp [hkey, Except.map, Except.mapError]

/-- A gateway starts from exactly these variables. -/
theorem boots_iff : (∃ c, fromEnv vars parsePubkey = .ok c) ↔ Bootable parsePubkey vars := by
  constructor
  · rintro ⟨c, h⟩
    obtain ⟨addr, url, legacy, text, key, haddr, hurl, hmain, hlegacy, htext, hkey, hguard, -⟩ :=
      fromEnv_eq_ok.mp h
    obtain ⟨hstrong, hguarded⟩ := checkAdminToken_eq_ok.mp hguard
    exact ⟨⟨addr, haddr, hguarded⟩, ⟨url, hurl, hmain⟩, legacyFrom_isOk.mp ⟨legacy, hlegacy⟩,
      ⟨text, key, htext, hkey⟩, hstrong⟩
  · rintro ⟨⟨addr, haddr, hguarded⟩, ⟨url, hurl, hmain⟩, hlegacy, ⟨text, key, htext, hkey⟩, hstrong⟩
    obtain ⟨legacy, hlegacy⟩ := legacyFrom_isOk.mpr hlegacy
    exact ⟨_, fromEnv_eq_ok.mpr ⟨addr, url, legacy, text, key, haddr, hurl, hmain, hlegacy, htext,
      hkey, checkAdminToken_eq_ok.mpr ⟨hstrong, hguarded⟩, rfl⟩⟩

theorem booted_of_fromEnv (h : fromEnv vars parsePubkey = .ok c) : Booted c := by
  obtain ⟨addr, url, legacy, text, key, -, -, -, -, -, -, hguard, rfl⟩ := fromEnv_eq_ok.mp h
  obtain ⟨hstrong, hguarded⟩ := checkAdminToken_eq_ok.mp hguard
  exact ⟨hstrong, hguarded, limitFrom_sound (by decide), limitFrom_sound (by decide),
    chainTimeoutFrom_bounds _⟩

end Booting

/-! ### The control plane of a running gateway -/

section Exposed
open OperatorCredentials Workspaces ControlRequests Runs RequestPool

variable {env : Env} {g₀ g : Front} {earlier later h : History Front FrontLabel}
variable {t : Transition Front FrontLabel} {n : ℕ}

/-- The request presented the configured token, which is no short one, or was let in by a token
whose digest was then the credential of an enabled operator. A token is the configured one, to
the gateway and here, when it has the same digest. -/
inductive Presented (env : Env) (h : History Front FrontLabel) (n : ℕ) (c : Call) : Prop
  | shared {expected token : Text} : env.adminToken = some expected →
      minTokenLen ≤ byteLen expected → c.token = some token →
      env.tokenHash token = env.tokenHash expected → Presented env h n c
  | holder {t : Transition Front FrontLabel} {token : Text} {row : OperatorRow} : t ∈ h →
      LetIn env t n c token row → row.enabled = true → Presented env h n c

/-- The step writes to the control plane, or answers the request with a body. -/
def Acts (t : Transition Front FrontLabel) (n : ℕ) : Prop :=
  t.after.shared ≠ t.before.shared ∨ ∃ v v' body, t.before.requests[n]? = some v ∧
    t.after.requests[n]? = some v' ∧ v'.stage = .answered body ∧ v.stage ≠ .answered body

theorem operator_of_acts {s s' : Plane} {v v' : Visit} (hm : Move env s v s' v')
    (hacts : s' ≠ s ∨ ∃ body, v'.stage = .answered body ∧ v.stage ≠ .answered body) :
    ∃ op, v.stage.operator? = some op := by
  rcases v with ⟨c, stage⟩
  cases stage with
  | known op => exact ⟨op, rfl⟩
  | admitted op => exact ⟨op, rfl⟩
  | written op rest => exact ⟨op, rfl⟩
  | received =>
    exfalso
    cases hm with
    | handler =>
      rcases hacts with hne | ⟨body, hbody, -⟩
      · exact hne rfl
      · have hacted := acted_identify env s c
        rw [show identify env s c = .answered body from hbody] at hacted
        cases hacted
    | failed | cut =>
      rcases hacts with hne | ⟨body, hbody, -⟩
      · exact hne rfl
      · cases hbody
  | answered body =>
    exfalso
    cases hm with
    | handler | failed | cut =>
      rcases hacts with hne | ⟨body', hbody, hne⟩
      · exact hne rfl
      · exact hne hbody
  | denied code =>
    exfalso
    cases hm with
    | handler | failed | cut =>
      rcases hacts with hne | ⟨body', hbody, -⟩
      · exact hne rfl
      · cases hbody
  | dropped =>
    exfalso
    cases hm with
    | handler | failed | cut =>
      rcases hacts with hne | ⟨body', hbody, -⟩
      · exact hne rfl
      · cases hbody

/-- On a gateway that other machines can reach, whoever is entitled presented a token. -/
theorem presented_of_entitled {c : Config} {call : Call} {op : Operator} (hc : Booted c)
    (hoff : isLoopback c.bindAddr.ip = false) (henv : env.adminToken = c.adminToken)
    (he : Entitled env h n call op) : Presented env h n call := by
  cases he with
  | loopback hnone =>
    rw [hc.guarded (henv.symm.trans hnone)] at hoff
    cases hoff
  | shared hsome htok hsame => exact .shared hsome (hc.strong _ (henv.symm.trans hsome)) htok hsame
  | holder ht hin =>
    have hrow := List.find?_some hin.found
    simp only [Bool.and_eq_true] at hrow
    exact .holder ht hin hrow.2

/-- Whatever the environment says, a gateway that boots on an address other machines can
reach writes nothing to its control plane, and answers nothing from it, for a request that
did not present a token. -/
theorem exposed_gateway_authenticates {vars : Vars} {parsePubkey : Text → Except Text Pubkey}
    {c : Config} (hboot : fromEnv vars parsePubkey = .ok c)
    (hoff : isLoopback c.bindAddr.ip = false) (henv : env.adminToken = c.adminToken)
    (hr : Run (FrontStep env) g₀ (later ++ t :: earlier) g) (h₀ : g₀.requests = [])
    (hl : t.label = .advance n) (hacts : Acts t n) :
    ∃ v, t.before.requests[n]? = some v ∧ Presented env earlier n v.call := by
  obtain ⟨hrun, hs⟩ := hr.split rfl
  rcases t with ⟨before, label, after⟩
  cases hl
  cases hs with
  | @advance s s' rs v v' _ hget hm =>
    have hmoved : s' ≠ s ∨ ∃ body, v'.stage = .answered body ∧ v.stage ≠ .answered body := by
      rcases hacts with hne | ⟨w, w', body, hw, hw', hbody, hnew⟩
      · exact .inl hne
      · obtain rfl : v = w := Option.some.inj (hget.symm.trans hw)
        have hlen := (List.getElem?_eq_some_iff.mp hget).1
        have hafter : (rs.set n v')[n]? = some v' := by simp [hlen]
        obtain rfl : v' = w' := Option.some.inj (hafter.symm.trans hw')
        exact .inr ⟨body, hbody, hnew⟩
    obtain ⟨op, hop⟩ := operator_of_acts hm hmoved
    exact ⟨v, hget, presented_of_entitled (booted_of_fromEnv hboot) hoff henv
      (entitled_run hrun h₀ n v op hget hop)⟩

end Exposed

/-! ### A public gateway -/
namespace Public
open TenantWrites.Desk OperatorCredentials OperatorCredentials.Handover
open Workspaces ControlRequests Runs RequestPool

def adminToken : Text := "correct-horse-battery".toList

def programText : Text := "ApjxJKBUUd8EEAovQe74jS9qZsRCAC2bwe8hTx7TpS9m".toList

def vars : Vars
  | .bindAddr => some "0.0.0.0:8080".toList
  | .rpcUrl => some "https://api.devnet.solana.com".toList
  | .programId => some programText
  | .adminToken => some adminToken
  | _ => none

def parsePubkey (text : Text) : Except Text Pubkey :=
  okOr (ClaimHeader.PlainParsers.parsePubkey text) "Invalid Base58 string".toList

def config : Config := configOf vars ⟨.v4 0 0 0 0, 8080, 0⟩ "https://api.devnet.solana.com".toList
  none agentpayId

theorem parsePubkey_programText : parsePubkey programText = .ok agentpayId := by
  have hparse : ClaimHeader.PlainParsers.parsePubkey programText = some agentpayId := by
    decide +kernel
  rw [parsePubkey, hparse]
  rfl

theorem boots : fromEnv vars parsePubkey = .ok config := by
  refine fromEnv_eq_ok.mpr ⟨_, _, _, _, _, ?_, rfl, ?_, rfl, rfl, parsePubkey_programText, rfl, rfl⟩
  · decide
  · decide

def adminHash : Hash := #v[98, 36, 147, 105, 56, 144, 117, 73, 5, 85, 167, 88, 53, 58, 236, 97, 80,
  12, 98, 24, 250, 89, 114, 82, 213, 45, 196, 189, 1, 72, 241, 45]

def env : Env := { TenantWrites.Desk.env with
  adminToken := config.adminToken
  tokenHash := fun token => if token = adminToken then adminHash else tokenHash token }

def front (x : Plane × Visit) : Front := ⟨x.1, [x.2]⟩

def next (x : Plane × Visit) : Plane × Visit := move env x.1 x.2

theorem next_step (x : Plane × Visit) : FrontStep env (front x) (.advance 0) (front (next x)) :=
  .advance rfl .handler

def letIn : Plane × Visit := next (next (start, rotateBob))

def history : History Front FrontLabel :=
  [⟨front (next (start, rotateBob)), .advance 0, front letIn⟩,
    ⟨front (start, rotateBob), .advance 0, front (next (start, rotateBob))⟩,
    ⟨⟨start, []⟩, .arrive rotateBob, front (start, rotateBob)⟩]

theorem run : Run (FrontStep env) ⟨start, []⟩
    ([] ++ ⟨front letIn, .advance 0, front (next letIn)⟩ :: history) (front (next letIn)) :=
  (((Run.start.step (.arrive rfl)).step (next_step _)).step (next_step _)).step (next_step _)

theorem acts : Acts ⟨front letIn, .advance 0, front (next letIn)⟩ 0 := by
  refine .inl fun hsame => ?_
  have hcred := congrArg (fun s => credentials s bobId) hsame
  have hne : credentials (next letIn).1 bobId ≠ credentials letIn.1 bobId := by decide
  exact hne hcred

end Public

/-- Bob's rotation, on a gateway that listens everywhere. -/
theorem exposed_gateway_authenticates_public : isLoopback Public.config.bindAddr.ip = false ∧
    ∃ v, (Public.front Public.letIn).requests[0]? = some v ∧
      Presented Public.env Public.history 0 v.call :=
  ⟨rfl, exposed_gateway_authenticates Public.boots rfl rfl Public.run rfl rfl Public.acts⟩

end AgentPay.BootConfiguration
