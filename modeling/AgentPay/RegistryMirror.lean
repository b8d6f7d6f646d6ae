import AgentPay.TenantWrites

/-!
# The registry beside the table

The registry is loaded from the providers table when the gateway starts, and each
registration and deletion is then made in both. The statement on the table is
confined to the workspace of the caller and may match nothing; the registry
follows whether it matched or not. `Diverges` names the requests for which that
makes a difference, and between a boot and the first of them the registry mirrors
the table, so a restart changes nothing. The entry of the configured upstream is
set apart: it is taken from the environment.

A request whose statement does not reach the database is denied before the
registry is touched. One that the deadline of the router cuts after its statement leaves
the registry behind, and so diverges whenever the statement did something. Requests are
served one after the other.
-/
namespace AgentPay.RegistryMirror
open SolanaRuntime EscrowState PolicyRules SessionStore ControlPlane Workspaces ControlRequests
open Fallible Handlers KeyedTable Runs TenantWrites

/-- `DEFAULT_PROVIDER_ID`. -/
def defaultProviderId : Text := "default".toList

/-- The row a provider id names. The id is the primary key of the table, whatever workspace a
row belongs to. -/
def rowOf (s : Plane) (id : Text) : Option ProviderRow :=
  s.providers.rows.find? fun r => r.providerId.text = id

section Boot

/-- The rows of the table, upserted in the order of the listing. -/
def loadRegistry (collation : Text → Text → Bool) (s : Plane) : Plane :=
  (Workspaces.listProviders collation none s).foldl (fun s r => registryUpsert r s)
    { s with registry := .empty }

/-- The upstream of the environment and the key of the provider keypair. -/
structure Upstream where
  url : Text
  providerPubkey : Option Pubkey

def Upstream.record (u : Upstream) : ProviderRecord :=
  ⟨defaultProviderId, "Configured upstream".toList, u.url, u.providerPubkey, true⟩

/-- A failure to write the default row is ignored. -/
def enterUpstream (u : Upstream) (s : Plane) : Plane :=
  match upsertProvider u.record none (registryUpsert u.record s) with
  | .ok (_, t) => t
  | .error _ => registryUpsert u.record s

/-- The registry as `main` sets it up: the rows of the table, then the upstream of the
environment. Connecting, reading the configuration and serving are left out. -/
def boot (collation : Text → Text → Bool) (upstream : Option Upstream) (s : Plane) : Plane :=
  match upstream with
  | some u => enterUpstream u (loadRegistry collation s)
  | none => loadRegistry collation s

end Boot

/-- The registry holds the rows of the table and nothing else. -/
def Mirrors (s : Plane) : Prop :=
  ∀ id, id ≠ defaultProviderId → registryGet s id = (rowOf s id).map ProviderRow.record

/-- Who a token stands for, as `require_admin` has it: the shared token first, then the operator
whose digest it has, if enabled. -/
def caller (env : Env) (presented : Option Text) (s : Plane) : Option Operator :=
  match env.adminToken, presented with
  | none, _ => some loopbackOperator
  | some _, none => none
  | some expected, some token =>
    if env.tokenHash token = env.tokenHash expected then some sharedOperator
    else (operatorByTokenHash (env.tokenHash token) s).map operatorOf

/-- What can happen to the table and the registry: requests one after the other, each served,
refused, or cut, and whatever else the gateway does. -/
inductive Event where
  | request (c : Call)
  | unavailable (c : Call)
  | cut (c : Call)
  | payment

/-- A request is served or finds no database, or is cut between its statement and the
registry, or the payment path writes its own tables. A request that is cut earlier counts as
one that found no database, and one that is cut later as served. -/
inductive MirrorStep (env : Env) : Plane → Event → Plane → Prop
  | request (s : Plane) (c : Call) : MirrorStep env s (.request c) ((serve env c).run s).2
  | unavailable {s t : Plane} {c : Call} : t.providers = s.providers → t.registry = s.registry →
      MirrorStep env s (.unavailable c) t
  | cut (s : Plane) (c : Call) :
      MirrorStep env s (.cut c) { ((serve env c).run s).2 with registry := s.registry }
  | payment {s t : Plane} : t.providers = s.providers → t.registry = s.registry →
      MirrorStep env s .payment t

/-- A registration of an id that another workspace holds with other contents,
or a deletion of an id that another workspace holds. -/
def Splits (env : Env) (op : Operator) (s : Plane) : Request → Prop
  | .registerProvider req => ∃ record row, recordOf env req = .ok record ∧ record.Storable ∧
      record.providerId ≠ defaultProviderId ∧ rowOf s record.providerId = some row ∧
        row.workspaceId ≠ op.workspaceId ∧ row.record ≠ record
  | .deleteProvider id => id ≠ defaultProviderId ∧ ∃ row, rowOf s id = some row ∧
      inScope op.workspaceId row.workspaceId = false
  | _ => False

/-- A registration that the table takes and that says something new, or a deletion that
finds its row: what the table no longer shares with a registry left as it was. -/
def Outruns (env : Env) (op : Operator) (s : Plane) : Request → Prop
  | .registerProvider req => ∃ record, recordOf env req = .ok record ∧ record.Storable ∧
      record.providerId ≠ defaultProviderId ∧ ∀ row, rowOf s record.providerId = some row →
        row.workspaceId = op.workspaceId ∧ row.record ≠ record
  | .deleteProvider id => id ≠ defaultProviderId ∧ ∃ row, rowOf s id = some row ∧
      inScope op.workspaceId row.workspaceId = true
  | _ => False

/-- A request of a known caller that the table and the registry answer apart, or that only
the table answers. -/
def Diverges (env : Env) (s : Plane) : Event → Prop
  | .request c => ∃ op, caller env c.token s = some op ∧ Splits env op s c.request
  | .cut c => ∃ op, caller env c.token s = some op ∧ Outruns env op s c.request
  | _ => False

section Rows
variable {s t : Plane} {id : Text} {row : ProviderRow} {op : Operator}

theorem rowOf_mem (h : rowOf s id = some row) : row ∈ s.providers.rows :=
  List.mem_of_find?_eq_some h

theorem rowOf_text (h : rowOf s id = some row) : row.providerId.text = id := by
  simpa using List.find?_some h

theorem sameProvider_comm (a b : ProviderRow) : sameProvider a b = sameProvider b a := by
  simp [sameProvider, eq_comm]

theorem rowOf_of_mem (h : row ∈ s.providers.rows) : rowOf s row.providerId.text = some row := by
  apply Table.find?_eq_some_of_mem sameProvider_comm h
  · simp
  · intro b hb
    simp only [decide_eq_true_eq] at hb
    simp [sameProvider, Varchar.ext hb]

theorem mirrors_congr (hp : t.providers = s.providers) (hr : t.registry = s.registry) :
    Mirrors t ↔ Mirrors s := by
  unfold Mirrors rowOf registryGet
  rw [hp, hr]

theorem rowOf_insert {u : Table sameProvider} (h : s.providers.insert row = some u) :
    rowOf { s with providers := u } id =
      if id = row.providerId.text then some row else rowOf s id := by
  rcases Table.insert_eq_some.mp h with ⟨hnone, hrows⟩
  simp only [rowOf, hrows, List.find?_append]
  split_ifs with hid
  · subst hid
    rw [List.find?_eq_none.mpr]
    · simp
    · intro a ha
      have hc := hnone a ha
      simp only [sameProvider, decide_eq_false_iff_not] at hc
      simp only [decide_eq_true_eq]
      exact fun he => hc (Varchar.ext he)
  · have hrow : row.providerId.text ≠ id := fun he => hid he.symm
    rw [List.find?_singleton, if_neg (by simpa using hrow), Option.or_none]

theorem rowOf_of_conflict (h : s.providers.insert row = none) :
    ∃ old, rowOf s row.providerId.text = some old := by
  unfold Table.insert at h
  split_ifs at h with hclash
  rw [not_forall] at hclash
  rcases hclash with ⟨a, ha⟩
  rw [Classical.not_imp, Bool.not_eq_false] at ha
  have hid : a.providerId = row.providerId := by
    simpa [sameProvider] using ha.2
  rw [← hid]
  exact ⟨a, rowOf_of_mem ha.1⟩

theorem rowOf_update {u : Table sameProvider} {p : ProviderRow → Bool}
    {f : ProviderRow → ProviderRow} (h : s.providers.update p f = some u)
    (hid : ∀ r, (Table.updated p f r).providerId = r.providerId) :
    rowOf { s with providers := u } id = (rowOf s id).map (Table.updated p f) := by
  simp only [rowOf, Table.update_rows h, List.find?_map]
  congr 2
  funext r
  simp only [Function.comp, hid]

theorem toRow_record {record : ProviderRecord} {workspace : Option Text}
    (h : record.toRow workspace = .ok row) :
    row.record = record ∧ row.workspaceId = workspace ∧
      row.providerId.text = record.providerId := by
  rw [toRow_of_storable (toRow_eq_ok h).1, Except.ok.injEq] at h
  rw [← h]
  exact ⟨rfl, rfl, rfl⟩

/-- The row an upsert leaves: the new contents, unless another workspace holds
the id. -/
theorem upsertProvider_row {record : ProviderRecord} {workspace : Option Text} {x : PUnit}
    (h : upsertProvider record workspace s = .ok (x, t)) :
    t.registry = s.registry ∧ ∀ id, (rowOf t id).map ProviderRow.record =
      if id = record.providerId ∧ ∀ old, rowOf s id = some old → old.workspaceId = workspace
      then some record else (rowOf s id).map ProviderRow.record := by
  simp only [upsertProvider, bind_eq_ok] at h
  rcases h with ⟨row, hrow, h⟩
  rcases toRow_record hrow with ⟨hrec, hws, hid⟩
  rcases hi : s.providers.insert row with _ | u
  · rcases rowOf_of_conflict hi with ⟨old, hold⟩
    rcases updateProviders_isOk row s with ⟨u, hu, hok⟩
    simp only [insertProvider, insertInto, hi, hok, ok_bind, pure_eq_ok, Prod.mk.injEq] at h
    rcases h with ⟨-, rfl⟩
    refine ⟨rfl, fun id => ?_⟩
    have hkeep : ∀ r, (Table.updated (ownProvider row)
        (fun old => { row with workspaceId := old.workspaceId }) r).providerId = r.providerId := by
      intro r
      unfold Table.updated
      split_ifs with ho
      · simp only [ownProvider, Bool.and_eq_true, decide_eq_true_eq] at ho
        exact ho.1.symm
      · rfl
    rw [rowOf_update hu hkeep]
    rw [hid] at hold
    by_cases he : id = record.providerId
    · subst he
      rw [hold, Option.map_some, Option.map_some, Option.map_some]
      have hsame : old.providerId = row.providerId := Varchar.ext ((rowOf_text hold).trans hid.symm)
      by_cases hw : old.workspaceId = workspace
      · rw [if_pos ⟨rfl, fun o ho => by cases ho; exact hw⟩, Table.updated,
          if_pos (by simp [ownProvider, hsame, hw, hws]), ← hrec]
        rfl
      · rw [if_neg (fun hc => hw (hc.2 old rfl)), Table.updated,
          if_neg (by simp [ownProvider, hws, hw])]
    · rw [if_neg (fun hc => he hc.1)]
      rcases hr : rowOf s id with _ | r
      · rfl
      · have hne : r.providerId ≠ row.providerId := by
          intro hc
          rw [← rowOf_text hr, hc] at he
          exact he hid
        rw [Option.map_some, Table.updated, if_neg (by simp [ownProvider, hne])]
  · simp only [insertProvider, insertInto, hi, pure_eq_ok, Prod.mk.injEq] at h
    rcases h with ⟨-, rfl⟩
    refine ⟨rfl, fun id => ?_⟩
    rw [rowOf_insert hi, hid]
    by_cases he : id = record.providerId
    · subst he
      have hnone : rowOf s record.providerId = none := by
        rcases hr : rowOf s record.providerId with _ | r
        · rfl
        · have hc := (Table.insert_eq_some.mp hi).1 r (rowOf_mem hr)
          simp only [sameProvider, decide_eq_false_iff_not] at hc
          exact absurd (Varchar.ext ((rowOf_text hr).trans hid.symm)) hc
      rw [if_pos rfl, if_pos ⟨rfl, fun o ho => by rw [hnone] at ho; cases ho⟩, Option.map_some,
        hrec]
    · rw [if_neg he, if_neg fun hc => he hc.1]

/-- A deletion takes the row of an id if it selects it. -/
theorem rowOf_delete {p : ProviderRow → Bool} :
    rowOf { s with providers := s.providers.delete p } id = (rowOf s id).filter fun r => !p r := by
  have hdel : rowOf { s with providers := s.providers.delete p } id =
      s.providers.rows.find? fun a => (!p a) && decide (a.providerId.text = id) := by
    simp only [rowOf, Table.delete, List.find?_filter, Bool.decide_and, Bool.decide_eq_true]
  rw [hdel]
  rcases hr : rowOf s id with _ | r
  · rw [Option.filter_none, List.find?_eq_none]
    intro a ha
    have hnot := List.find?_eq_none.mp hr a ha
    rw [decide_eq_true_eq] at hnot
    simp [hnot]
  · have hrid := rowOf_text hr
    rcases hp : p r with _ | _
    · rw [Option.filter_some_pos (by simp [hp])]
      apply Table.find?_eq_some_of_mem sameProvider_comm (rowOf_mem hr)
      · simp [hp, hrid]
      · intro b hb
        rw [Bool.and_eq_true, decide_eq_true_eq] at hb
        simp [sameProvider, Varchar.ext (hb.2.trans hrid.symm)]
    · rw [Option.filter_some_neg (by simp [hp]), List.find?_eq_none]
      intro a ha hb
      rw [Bool.and_eq_true, decide_eq_true_eq] at hb
      have hfound := rowOf_of_mem ha
      rw [hb.2, hr, Option.some.injEq] at hfound
      rw [← hfound, hp] at hb
      exact absurd hb.1 (by decide)

theorem deleteProvider_row {providerId : Text} {workspace : Option Text} {b : Bool}
    (h : Workspaces.deleteProvider providerId workspace s = .ok (b, t)) :
    t.registry = s.registry ∧
      ∀ id, rowOf t id = (rowOf s id).filter fun r => !providerInScope providerId workspace r := by
  simp only [Workspaces.deleteProvider, bind_eq_ok, pure_eq_ok, Prod.mk.injEq] at h
  rcases h with ⟨_, -, -, rfl⟩
  exact ⟨rfl, fun _ => rowOf_delete⟩

end Rows

section Booting
variable {s t : Plane} {id : Text}

theorem rowOf_registryUpsert {record : ProviderRecord} :
    rowOf (registryUpsert record s) id = rowOf s id := rfl

/-- The last of the records upserted under an id is what it names. -/
theorem registryGet_foldl (records : List ProviderRecord) (s : Plane) :
    registryGet (records.foldl (fun s r => registryUpsert r s) s) id =
      (records.reverse.find? fun r => r.providerId = id).or (registryGet s id) := by
  induction records generalizing s with
  | nil => rfl
  | cons r records ih =>
    rw [List.foldl_cons, ih, registryGet_upsert, List.reverse_cons, List.find?_append,
      List.find?_singleton, Option.or_assoc]
    congr 1
    by_cases he : id = r.providerId
    · simp [he]
    · simp [he, Ne.symm he]

theorem foldl_providers (records : List ProviderRecord) (s : Plane) :
    (records.foldl (fun s r => registryUpsert r s) s).providers = s.providers := by
  induction records generalizing s with
  | nil => rfl
  | cons r records ih => exact ih _

theorem mem_listProviders {collation : Text → Text → Bool} {r : ProviderRecord} :
    r ∈ Workspaces.listProviders collation none s ↔ ∃ row ∈ s.providers.rows, row.record = r := by
  simp [Workspaces.listProviders, inScope]

/-- The loaded registry names what the table names, the default id included. -/
theorem registryGet_load (collation : Text → Text → Bool) (s : Plane) (id : Text) :
    registryGet (loadRegistry collation s) id = (rowOf s id).map ProviderRow.record := by
  have hempty : registryGet { s with registry := .empty } id = none := rfl
  rw [loadRegistry, registryGet_foldl, hempty, Option.or_none]
  rcases hr : rowOf s id with _ | row
  · rw [Option.map_none, List.find?_eq_none]
    intro r hmem
    rw [List.mem_reverse, mem_listProviders] at hmem
    rcases hmem with ⟨row, hrow, rfl⟩
    exact List.find?_eq_none.mp hr row hrow
  · rcases hf : (Workspaces.listProviders collation none s).reverse.find?
        (fun r => r.providerId = id) with _ | r
    · have hmem : row.record ∈ (Workspaces.listProviders collation none s).reverse := by
        rw [List.mem_reverse, mem_listProviders]
        exact ⟨row, rowOf_mem hr, rfl⟩
      have hnot := List.find?_eq_none.mp hf _ hmem
      rw [decide_eq_true_eq] at hnot
      exact absurd (rowOf_text hr) hnot
    · have hmem := List.mem_of_find?_eq_some hf
      rw [List.mem_reverse, mem_listProviders] at hmem
      rcases hmem with ⟨row', hrow', rfl⟩
      have hid := List.find?_some hf
      rw [decide_eq_true_eq] at hid
      have hfound := rowOf_of_mem hrow'
      rw [show row'.providerId.text = id from hid, hr, Option.some.injEq] at hfound
      rw [hfound]
      exact hf

/-- Entering the upstream touches the default id only. -/
theorem enterUpstream_other (u : Upstream) (hid : id ≠ defaultProviderId) :
    registryGet (enterUpstream u s) id = registryGet s id ∧
      (rowOf (enterUpstream u s) id).map ProviderRow.record =
        (rowOf s id).map ProviderRow.record := by
  have hne : id ≠ u.record.providerId := hid
  have hreg : registryGet (registryUpsert u.record s) id = registryGet s id := by
    rw [registryGet_upsert, if_neg hne]
  unfold enterUpstream
  rcases hu : upsertProvider u.record none (registryUpsert u.record s) with e | ⟨x, t⟩
  · exact ⟨hreg, rfl⟩
  · rcases upsertProvider_row hu with ⟨hsame, hrow⟩
    refine ⟨(registryGet_eq_of_registry hsame id).trans hreg, ?_⟩
    rw [hrow, if_neg fun hc => hne hc.1]
    rfl

theorem boot_other (collation : Text → Text → Bool) (upstream : Option Upstream) (s : Plane)
    (hid : id ≠ defaultProviderId) :
    registryGet (boot collation upstream s) id = (rowOf s id).map ProviderRow.record ∧
      (rowOf (boot collation upstream s) id).map ProviderRow.record =
        (rowOf s id).map ProviderRow.record := by
  have hrow : rowOf (loadRegistry collation s) id = rowOf s id := by
    unfold rowOf loadRegistry
    rw [foldl_providers]
  rcases upstream with _ | u
  · exact ⟨registryGet_load collation s id, congrArg _ hrow⟩
  · rcases @enterUpstream_other (loadRegistry collation s) id u hid with ⟨hget, hmap⟩
    exact ⟨hget.trans (registryGet_load collation s id), hmap.trans (congrArg _ hrow)⟩

theorem boot_mirrors (collation : Text → Text → Bool) (upstream : Option Upstream) (s : Plane) :
    Mirrors (boot collation upstream s) := by
  intro id hid
  rcases boot_other collation upstream s hid with ⟨hget, hrow⟩
  rw [hget, hrow]

/-- A restart leaves every id where it points exactly if the registry mirrors the
table. -/
theorem mirrors_iff_restart (collation : Text → Text → Bool) (upstream : Option Upstream)
    (s : Plane) : Mirrors s ↔ ∀ id, id ≠ defaultProviderId →
      registryGet (boot collation upstream s) id = registryGet s id := by
  constructor
  · intro h id hid
    rw [(boot_other collation upstream s hid).1, h id hid]
  · intro h id hid
    rw [← h id hid, (boot_other collation upstream s hid).1]

end Booting

section Steps
variable {env : Env} {s t : Plane} {op : Operator} {id : Text}

/-- Two planes with the same providers and the same registry. -/
def SameProviders (s t : Plane) : Prop := t.providers = s.providers ∧ t.registry = s.registry

theorem frame_sameProviders : Frame SameProviders :=
  ⟨fun _ => ⟨rfl, rfl⟩, fun h h' => ⟨h'.1.trans h.1, h'.2.trans h.2⟩⟩

theorem SameProviders.mirrors (h : SameProviders s t) : Mirrors t ↔ Mirrors s :=
  mirrors_congr h.1 h.2

theorem SameProviders.rowOf (h : SameProviders s t) : rowOf t id = rowOf s id := by
  unfold RegistryMirror.rowOf
  rw [h.1]

/-- A registration that is stored: the id keeps mirroring unless the row of
another workspace stood in the way. -/
theorem mirrors_registered {record : ProviderRecord} {workspace : Option Text} {x : PUnit}
    (hm : Mirrors s) (h : upsertProvider record workspace s = .ok (x, t)) :
    Mirrors (registryUpsert record t) ↔ ¬∃ row, record.providerId ≠ defaultProviderId ∧
      rowOf s record.providerId = some row ∧ row.workspaceId ≠ workspace ∧ row.record ≠ record := by
  rcases upsertProvider_row h with ⟨hreg, hrow⟩
  have hget : ∀ id, registryGet (registryUpsert record t) id =
      if id = record.providerId then some record else registryGet s id := by
    intro id
    rw [registryGet_upsert, registryGet_eq_of_registry hreg]
  constructor
  · rintro hm' ⟨row, hne, hold, hw, hrec⟩
    have hid := hm' record.providerId hne
    rw [hget, if_pos rfl, rowOf_registryUpsert, hrow, if_neg (fun hc => hw (hc.2 row hold)), hold,
      Option.map_some, Option.some.injEq] at hid
    exact hrec hid.symm
  · intro hnot id hid
    rw [hget, rowOf_registryUpsert, hrow]
    by_cases he : id = record.providerId
    · rw [if_pos he]
      split_ifs with hc
      · rfl
      · rw [not_and] at hc
        have hother := hc he
        rw [not_forall] at hother
        rcases hother with ⟨old, hother⟩
        rw [Classical.not_imp] at hother
        subst he
        have hsame : old.record = record := by
          by_contra hrec
          exact hnot ⟨old, hid, hother.1, hother.2, hrec⟩
        rw [hother.1, Option.map_some, hsame]
    · rw [if_neg he, if_neg fun hc => he hc.1]
      exact hm id hid

/-- A deletion that reaches the table: the entry goes, whether the row did or not. -/
theorem mirrors_deleted {providerId : Text} {workspace : Option Text} {b : Bool} (hm : Mirrors s)
    (h : Workspaces.deleteProvider providerId workspace s = .ok (b, t)) :
    Mirrors (registryRemove providerId t) ↔ ¬(providerId ≠ defaultProviderId ∧
      ∃ row, rowOf s providerId = some row ∧ inScope workspace row.workspaceId = false) := by
  rcases deleteProvider_row h with ⟨hreg, hrow⟩
  have hget : ∀ id, registryGet (registryRemove providerId t) id =
      if id = providerId then none else registryGet s id := by
    intro id
    rw [registryGet_remove, registryGet_eq_of_registry hreg]
  have hrows : ∀ id, rowOf (registryRemove providerId t) id =
      (rowOf s id).filter fun r => !providerInScope providerId workspace r := hrow
  constructor
  · rintro hm' ⟨hne, row, hold, hw⟩
    have hid := hm' providerId hne
    rw [hget, if_pos rfl, hrows, hold,
      Option.filter_some_pos (by simp [providerInScope, hw])] at hid
    cases hid
  · intro hnot id hid
    rw [hget, hrows]
    by_cases he : id = providerId
    · subst he
      rw [if_pos rfl]
      rcases hr : rowOf s id with _ | row
      · rfl
      · have hin : inScope workspace row.workspaceId = true := by
          rw [← Bool.not_eq_false]
          exact fun hw => hnot ⟨hid, row, hr, hw⟩
        rw [Option.filter_some_neg (by simp [providerInScope, rowOf_text hr, hin])]
        rfl
    · rw [if_neg he, hm id hid]
      rcases hr : rowOf s id with _ | row
      · rfl
      · have hother : row.providerId.text ≠ providerId :=
          fun hc => he ((rowOf_text hr).symm.trans hc)
        rw [Option.filter_some_pos (by simp [providerInScope, hother])]

/-- A registration is refused before the tables or reaches both. -/
theorem registerProvider_cases (env : Env) (op : Operator) (s : Plane)
    (req : RegisterProviderRequest) :
    (∃ record x t, recordOf env req = .ok record ∧ record.Storable ∧
      upsertProvider record op.workspaceId s = .ok (x, t) ∧
        ((registerProvider env op req).run s).2 = registryUpsert record t) ∨
      ((∀ record, recordOf env req = .ok record → ¬record.Storable) ∧
        ((registerProvider env op req).run s).2 = s) := by
  unfold registerProvider
  rcases hrec : recordOf env req with e | record
  · rw [run_lift_bind_of_error rfl]
    exact .inr ⟨fun record h => (by cases h), rfl⟩
  · rw [run_lift_bind_of_ok rfl]
    by_cases hst : record.Storable
    · rcases upsertProvider_of_storable hst op.workspaceId s with ⟨t, hok⟩
      rw [run_bind_of_ok (run_exec_of_ok (unavailable_eq_ok.mpr hok))]
      exact .inl ⟨record, _, t, rfl, hst, hok, rfl⟩
    · have he : ∃ e, upsertProvider record op.workspaceId s = .error e := by
        unfold upsertProvider
        rcases hrow : record.toRow op.workspaceId with e | row
        · exact ⟨e, rfl⟩
        · exact absurd (toRow_eq_ok hrow).1 hst
      rcases he with ⟨e, he⟩
      rw [after_failed_statement he]
      refine .inr ⟨?_, rfl⟩
      intro record' h
      cases h
      exact hst

/-- A deletion that names no text of the database finds no row, any other reaches both. -/
theorem deleteProvider_cases (op : Operator) (s : Plane) (providerId : Text) :
    (∃ b t, Workspaces.deleteProvider providerId op.workspaceId s = .ok (b, t) ∧
      ((ControlRequests.deleteProvider op providerId).run s).2 = registryRemove providerId t) ∨
      (rowOf s providerId = none ∧
        ((ControlRequests.deleteProvider op providerId).run s).2 = s) := by
  by_cases hn : nul ∈ providerId
  · have he : Workspaces.deleteProvider providerId op.workspaceId s = .error .constraint := by
      rw [Workspaces.deleteProvider, bindText_of_nul hn, error_bind]
    refine .inr ⟨?_, after_failed_statement he⟩
    rcases hrow : rowOf s providerId with _ | row
    · rfl
    · rw [← rowOf_text hrow] at hn
      exact absurd hn row.providerId.fits.2
  · have hok : ∃ b t, Workspaces.deleteProvider providerId op.workspaceId s = .ok (b, t) := by
      rw [Workspaces.deleteProvider, bindText_of_clean hn, ok_bind]
      exact ⟨_, _, rfl⟩
    rcases hok with ⟨b, t, hok⟩
    refine .inl ⟨b, t, hok, ?_⟩
    unfold ControlRequests.deleteProvider
    rw [run_bind_of_ok (run_exec_of_ok (unavailable_eq_ok.mpr hok))]
    exact run_exec_bind_reads rfl (reads_bind (reads_query _) fun _ => reads_query _)

theorem mirrors_registerProvider (hm : Mirrors s) (req : RegisterProviderRequest) :
    Mirrors ((registerProvider env op req).run s).2 ↔ ¬Splits env op s (.registerProvider req) := by
  simp only [Splits]
  rcases registerProvider_cases env op s req with ⟨record, x, t, hrec, hst, hok, hrun⟩ |
    ⟨hnone, hrun⟩
  · rw [hrun, mirrors_registered hm hok, not_iff_not]
    constructor
    · rintro ⟨row, hrest⟩
      exact ⟨record, row, hrec, hst, hrest⟩
    · rintro ⟨record', row, he, -, hrest⟩
      rw [hrec, Except.ok.injEq] at he
      subst he
      exact ⟨row, hrest⟩
  · rw [hrun]
    refine iff_of_true hm ?_
    rintro ⟨record, row, hrec, hst, -⟩
    exact hnone record hrec hst

theorem mirrors_deleteProvider (hm : Mirrors s) (providerId : Text) :
    Mirrors ((ControlRequests.deleteProvider op providerId).run s).2 ↔
      ¬Splits env op s (.deleteProvider providerId) := by
  simp only [Splits]
  rcases deleteProvider_cases op s providerId with ⟨b, t, hok, hrun⟩ | ⟨hnone, hrun⟩
  · rw [hrun]
    exact mirrors_deleted hm hok
  · rw [hrun]
    refine iff_of_true hm ?_
    rintro ⟨-, row, hrow, -⟩
    rw [hnone] at hrow
    cases hrow

theorem updateOperators_sameProviders {p : OperatorRow → Bool} {f : OperatorRow → OperatorRow}
    {b : Bool} (h : updateOperators p f s = .ok (b, t)) : SameProviders s t := by
  rcases updateIn_eq_ok.mp h with ⟨u, -, -, rfl⟩
  exact ⟨rfl, rfl⟩

theorem createOperator_sameProviders {operatorId : Varchar 64} {label : Text} {hash : Hash}
    {now : Timestamp} {b : Bool}
    (h : Workspaces.createOperator operatorId label hash now s = .ok (b, t)) :
    SameProviders s t := by
  simp only [Workspaces.createOperator, bind_eq_ok, pure_eq_ok] at h
  rcases h with ⟨_, -, h⟩
  rcases insertInto_cases h with ⟨u, -, -, rfl⟩ | ⟨-, -, rfl⟩
  · exact ⟨rfl, rfl⟩
  · exact ⟨rfl, rfl⟩

/-- Every other handler leaves the providers and the registry alone. -/
theorem handle_sameProviders (env : Env) (op : Operator) (s : Plane) (g : Generated)
    {req : Request} (hreg : ∀ r, req ≠ .registerProvider r)
    (hdel : ∀ id, req ≠ .deleteProvider id) :
    SameProviders s ((handle env op g req).run s).2 := by
  have hkeep : ∀ {x : Control Body}, Keeps SameProviders x → SameProviders s (x.run s).2 :=
    fun hx => hx s
  cases req with
  | registerProvider req => exact absurd rfl (hreg req)
  | deleteProvider providerId => exact absurd rfl (hdel providerId)
  | listSessions => exact hkeep ((reads_listSessions g).keeps frame_sameProviders)
  | recentDecisions => exact hkeep ((reads_recentDecisions g).keeps frame_sameProviders)
  | listAgents => exact hkeep (reads_listAgents.keeps frame_sameProviders)
  | getAgent agentId => exact hkeep ((reads_getAgent agentId).keeps frame_sameProviders)
  | listProviders => exact hkeep ((reads_listProviders env).keeps frame_sameProviders)
  | listOperators => exact hkeep ((reads_query _).keeps frame_sameProviders)
  | listApprovals => exact hkeep (reads_listApprovals.keeps frame_sameProviders)
  | createAgent req =>
    refine hkeep (keeps_createAgent frame_sameProviders ?_)
    intro s b t _ _ _ _ _ h
    rcases createAgent_cases h with ⟨_, u, -, -, -, rfl⟩ | ⟨-, rfl⟩
    · exact ⟨rfl, rfl⟩
    · exact ⟨rfl, rfl⟩
  | authorizeAgent agentId req =>
    refine hkeep (keeps_authorizeAgent frame_sameProviders ?_)
    intro s b t _ _ h
    rcases setPolicy_cases h with ⟨_, u, -, -, rfl⟩ | ⟨-, rfl⟩
    · exact ⟨rfl, rfl⟩
    · exact ⟨rfl, rfl⟩
  | setAgentStatus agentId status =>
    refine hkeep (keeps_setAgentStatus frame_sameProviders ?_)
    intro s b t h
    rcases setAgentStatus_cases h with ⟨u, -, rfl⟩
    exact ⟨rfl, rfl⟩
  | createOperator label =>
    exact hkeep (keeps_createOperator frame_sameProviders fun _ _ _ => createOperator_sameProviders)
  | setOperatorStatus operatorId enabled =>
    refine hkeep (keeps_setOperatorStatus frame_sameProviders ?_)
    intro s b t h
    simp only [setOperatorEnabled, bind_eq_ok] at h
    rcases h with ⟨_, -, h⟩
    exact updateOperators_sameProviders h
  | rotateOwnToken =>
    exact hkeep
      (keeps_rotateOwnToken frame_sameProviders fun _ _ _ => updateOperators_sameProviders)
  | decideApproval approvalId approved reason =>
    refine hkeep (keeps_decideApproval frame_sameProviders ?_)
    intro s b t h
    rcases decideApproval_cases h with ⟨u, -, rfl⟩
    exact ⟨rfl, rfl⟩

theorem mirrors_handle (hm : Mirrors s) (g : Generated) (req : Request) :
    Mirrors ((handle env op g req).run s).2 ↔ ¬Splits env op s req := by
  cases req with
  | registerProvider req => exact mirrors_registerProvider hm req
  | deleteProvider providerId => exact mirrors_deleteProvider hm providerId
  | _ =>
    refine iff_of_true (SameProviders.mirrors ?_ |>.mpr hm) not_false
    exact handle_sameProviders env op s g (by simp) (by simp)

/-! A registry that is left as it was mirrors a table that was left as it was. -/

/-- Two tables that say the same of every id but the default one. -/
def SameRows (s t : Plane) : Prop :=
  ∀ id, id ≠ defaultProviderId →
    (rowOf t id).map ProviderRow.record = (rowOf s id).map ProviderRow.record

theorem SameProviders.sameRows (h : SameProviders s t) : SameRows s t :=
  fun _ _ => congrArg _ h.rowOf

theorem mirrors_left (hm : Mirrors s) :
    Mirrors { t with registry := s.registry } ↔ SameRows s t := by
  have hget : ∀ id, registryGet { t with registry := s.registry } id = registryGet s id :=
    fun id => registryGet_eq_of_registry rfl id
  constructor
  · intro h id hid
    rw [← hm id hid, ← hget]
    exact (h id hid).symm
  · intro h id hid
    rw [hget, hm id hid]
    exact (h id hid).symm

theorem sameRows_registered {record : ProviderRecord} {workspace : Option Text} {x : PUnit}
    (h : upsertProvider record workspace s = .ok (x, t)) :
    SameRows s t ↔ ¬(record.providerId ≠ defaultProviderId ∧
      ∀ row, rowOf s record.providerId = some row →
        row.workspaceId = workspace ∧ row.record ≠ record) := by
  have hrow := (upsertProvider_row h).2
  constructor
  · rintro hsame ⟨hne, hnew⟩
    have hid := hsame record.providerId hne
    rw [hrow, if_pos ⟨rfl, fun row hold => (hnew row hold).1⟩] at hid
    rcases hold : rowOf s record.providerId with _ | row
    · rw [hold] at hid
      cases hid
    · rw [hold, Option.map_some, Option.some.injEq] at hid
      exact (hnew row hold).2 hid.symm
  · intro hnot id hid
    rw [hrow]
    split_ifs with hc
    · obtain ⟨rfl, hw⟩ := hc
      rcases hold : rowOf s record.providerId with _ | row
      · refine absurd ⟨hid, ?_⟩ hnot
        intro row hrow
        rw [hold] at hrow
        cases hrow
      · rw [Option.map_some, Option.some.injEq]
        by_contra hne
        refine hnot ⟨hid, ?_⟩
        intro row' hrow'
        rw [hold, Option.some.injEq] at hrow'
        subst hrow'
        exact ⟨hw row hold, fun he => hne he.symm⟩
    · rfl

theorem sameRows_deleted {providerId : Text} {workspace : Option Text} {b : Bool}
    (h : Workspaces.deleteProvider providerId workspace s = .ok (b, t)) :
    SameRows s t ↔ ¬(providerId ≠ defaultProviderId ∧
      ∃ row, rowOf s providerId = some row ∧ inScope workspace row.workspaceId = true) := by
  have hrow := (deleteProvider_row h).2
  constructor
  · rintro hsame ⟨hne, row, hold, hin⟩
    have hid := hsame providerId hne
    rw [hrow, hold,
      Option.filter_some_neg (by simp [providerInScope, rowOf_text hold, hin])] at hid
    cases hid
  · intro hnot id hid
    rw [hrow]
    rcases hold : rowOf s id with _ | row
    · rfl
    · rw [Option.filter_some_pos]
      rw [Bool.not_eq_true', ← Bool.not_eq_true]
      intro hin
      simp only [providerInScope, Bool.and_eq_true, decide_eq_true_eq] at hin
      rw [rowOf_text hold] at hin
      obtain ⟨rfl, hin⟩ := hin
      exact hnot ⟨hid, row, hold, hin⟩

theorem sameRows_handle (s : Plane) (g : Generated) (req : Request) :
    SameRows s ((handle env op g req).run s).2 ↔ ¬Outruns env op s req := by
  cases req with
  | registerProvider req =>
    simp only [Outruns]
    change SameRows s ((registerProvider env op req).run s).2 ↔ _
    rcases registerProvider_cases env op s req with ⟨record, x, t, hrec, hst, hok, hrun⟩ |
      ⟨hnone, hrun⟩
    · rw [hrun]
      change SameRows s t ↔ _
      refine (sameRows_registered hok).trans (not_congr ?_)
      constructor
      · intro hnew
        exact ⟨record, hrec, hst, hnew⟩
      · rintro ⟨record', he, -, hnew⟩
        rw [hrec, Except.ok.injEq] at he
        subst he
        exact hnew
    · rw [hrun]
      refine iff_of_true (frame_sameProviders.refl s).sameRows ?_
      rintro ⟨record, hrec, hst, -⟩
      exact hnone record hrec hst
  | deleteProvider providerId =>
    simp only [Outruns]
    change SameRows s ((ControlRequests.deleteProvider op providerId).run s).2 ↔ _
    rcases deleteProvider_cases op s providerId with ⟨b, t, hok, hrun⟩ | ⟨hnone, hrun⟩
    · rw [hrun]
      change SameRows s t ↔ _
      exact sameRows_deleted hok
    · rw [hrun]
      refine iff_of_true (frame_sameProviders.refl s).sameRows ?_
      rintro ⟨-, row, hrow, -⟩
      rw [hnone] at hrow
      cases hrow
  | _ =>
    refine iff_of_true (SameProviders.sameRows ?_) not_false
    exact handle_sameProviders env op s g (by simp) (by simp)

/-- Authentication names the caller and writes a timestamp at most. -/
theorem requireAdmin_caller (env : Env) (presented : Option Text) (g : Generated) (s : Plane) :
    ∃ t, SameProviders s t ∧ (requireAdmin env presented g).run s =
      ((okOr (caller env presented s) .unauthorized), t) := by
  unfold requireAdmin caller
  rcases env.adminToken with _ | expected
  · exact ⟨s, frame_sameProviders.refl s, rfl⟩
  · rcases presented with _ | token
    · exact ⟨s, frame_sameProviders.refl s, rfl⟩
    · have hl : (lift (okOr (some token) ControlDenial.unauthorized)).run s = (.ok token, s) := rfl
      by_cases hx : env.tokenHash token = env.tokenHash expected
      · refine ⟨s, frame_sameProviders.refl s, ?_⟩
        rw [run_bind_of_ok hl]
        simp only [if_pos hx]
        rfl
      · rcases hrow : operatorByTokenHash (env.tokenHash token) s with _ | row
        · have hq : (query fun s => okOr (operatorByTokenHash (env.tokenHash token) s)
              ControlDenial.unauthorized).run s = (.error .unauthorized, s) := by
            rw [run_query, hrow]
            rfl
          refine ⟨s, frame_sameProviders.refl s, ?_⟩
          rw [run_bind_of_ok hl]
          simp only [if_neg hx]
          rw [run_bind_of_error hq, hrow]
          rfl
        · have hq : (query fun s => okOr (operatorByTokenHash (env.tokenHash token) s)
              ControlDenial.unauthorized).run s = (.ok row, s) := by
            rw [run_query, hrow]
            rfl
          refine ⟨touch row.operatorId g.touchedAt s, ?_, ?_⟩
          · unfold touch
            rcases ht : touchOperator row.operatorId g.touchedAt s with e | ⟨b, t⟩
            · exact frame_sameProviders.refl s
            · exact updateOperators_sameProviders ht
          · rw [run_bind_of_ok hl]
            simp only [if_neg hx]
            rw [run_bind_of_ok hq, hrow]
            rfl

/-- A request of an unknown caller leaves the providers alone, and one of a known caller is
handled, with nothing of theirs changed before. -/
theorem serve_cases (env : Env) (c : Call) (s : Plane) :
    (caller env c.token s = none ∧ SameProviders s ((serve env c).run s).2) ∨
      ∃ op t, caller env c.token s = some op ∧ SameProviders s t ∧
        ((serve env c).run s).2 = ((handle env op c.generated c.request).run t).2 := by
  rcases requireAdmin_caller env c.token c.generated s with ⟨t, ht, hrun⟩
  unfold serve
  rcases hc : caller env c.token s with _ | op
  · rw [hc] at hrun
    rw [run_bind_of_error hrun]
    exact .inl ⟨rfl, ht⟩
  · rw [hc] at hrun
    rw [run_bind_of_ok hrun]
    exact .inr ⟨op, t, rfl, ht, rfl⟩

/-- What a request meets is what it met before others than the providers changed. -/
theorem conflict_congr {req : Request} (h : SameProviders s t) :
    (Splits env op t req ↔ Splits env op s req) ∧
      (Outruns env op t req ↔ Outruns env op s req) := by
  have hrow : ∀ id, rowOf t id = rowOf s id := fun _ => h.rowOf
  cases req with
  | registerProvider req => simp only [Splits, Outruns, hrow, and_self]
  | deleteProvider id => simp only [Splits, Outruns, hrow, and_self]
  | _ => exact ⟨Iff.rfl, Iff.rfl⟩

theorem mirrors_step {e : Event} (hm : Mirrors s) (hs : MirrorStep env s e t) :
    Mirrors t ↔ ¬Diverges env s e := by
  cases hs with
  | unavailable hp hr => exact iff_of_true ((mirrors_congr hp hr).mpr hm) not_false
  | payment hp hr => exact iff_of_true ((mirrors_congr hp hr).mpr hm) not_false
  | request c =>
    rcases serve_cases env c s with ⟨hc, hsame⟩ | ⟨op, t, hc, hsame, hrun⟩
    · refine iff_of_true (hsame.mirrors.mpr hm) ?_
      simp [Diverges, hc]
    · rw [hrun, mirrors_handle (hsame.mirrors.mpr hm), (conflict_congr hsame).1]
      simp [Diverges, hc]
  | cut c =>
    rw [mirrors_left hm]
    rcases serve_cases env c s with ⟨hc, hsame⟩ | ⟨op, t, hc, hsame, hrun⟩
    · refine iff_of_true hsame.sameRows ?_
      simp [Diverges, hc]
    · have hfrom : ∀ u, SameRows s u ↔ SameRows t u := by
        intro u
        simp only [SameRows, hsame.rowOf]
      rw [hrun, hfrom, sameRows_handle, (conflict_congr hsame).2]
      simp [Diverges, hc]

end Steps

/-- A gateway starts with a registry that mirrors the table. In a run of requests
it mirrors the table throughout exactly if no request diverges, and in a state
in which it does a restart changes no entry, and only then. -/
theorem registry_mirrors_iff {env : Env} {upstream : Option Upstream} {stored t : Plane}
    {h : History Plane Event}
    (hr : Run (MirrorStep env) (boot env.collation upstream stored) h t) :
    Mirrors (boot env.collation upstream stored) ∧
      ((∀ x ∈ h, Mirrors x.after) ↔ ∀ x ∈ h, ¬Diverges env x.before x.label) ∧
      ((∀ x ∈ h, ¬Diverges env x.before x.label) → Mirrors t) ∧
      (Mirrors t ↔ ∀ id, id ≠ defaultProviderId →
        registryGet (boot env.collation upstream t) id = registryGet t id) := by
  have hstart := boot_mirrors env.collation upstream stored
  refine ⟨hstart, ?_, ?_, mirrors_iff_restart env.collation upstream t⟩
  · exact hr.invariant_iff (fun _ _ _ hm hs => mirrors_step hm hs) hstart
  · exact hr.invariant (I := Mirrors) (C := fun s e => ¬Diverges env s e)
      (fun _ _ _ hm hc hs => (mirrors_step hm hs).mpr hc) hstart

/-! ### Two tenants and one id

Bob's workspace holds the id; Alice registers it again with a host of her own. -/
namespace Takeover

def repoint : Call := ⟨some Desk.aliceToken, Desk.generated 2, .registerProvider
  ⟨Desk.weather, "Weather".toList, "https://elsewhere.test".toList, none, true⟩⟩

def booted : Plane := boot Desk.env.collation none Desk.start

def registered : Plane := ((serve Desk.env Desk.register).run booted).2

def repointed : Plane := ((serve Desk.env repoint).run registered).2

theorem run_registered : Run (MirrorStep Desk.env) booted
    [⟨booted, .request Desk.register, registered⟩] registered :=
  .step .start (.request booted Desk.register)

theorem run_repointed : Run (MirrorStep Desk.env) booted
    [⟨registered, .request repoint, repointed⟩, ⟨booted, .request Desk.register, registered⟩]
      repointed :=
  .step run_registered (.request registered repoint)

end Takeover

open Takeover

/-- Bob's registration alone does not diverge, and the registry mirrors the table
after it. -/
theorem registry_mirrors_iff_desk : Mirrors registered := by
  refine (registry_mirrors_iff run_registered).2.2.1 ?_
  intro x hx
  rw [List.mem_singleton] at hx
  subst hx
  rintro ⟨op, hop, record, row, -, -, -, hrow, -⟩
  have hnone : booted.providers.rows = [] := by decide
  have hmem := rowOf_mem hrow
  rw [hnone] at hmem
  cases hmem

/-- The table keeps Bob's row and the registry follows Alice; a restart turns the
id back. -/
theorem repointed_until_restart :
    Run (MirrorStep Desk.env) booted
        [⟨registered, .request repoint, repointed⟩, ⟨booted, .request Desk.register, registered⟩]
          repointed ∧
      Desk.weather ≠ defaultProviderId ∧
      (rowOf repointed Desk.weather).map ProviderRow.baseUrl =
        some "https://weather.test".toList ∧
      (registryGet repointed Desk.weather).map ProviderRecord.baseUrl =
        some "https://elsewhere.test".toList ∧
      (registryGet (boot Desk.env.collation none repointed) Desk.weather).map
        ProviderRecord.baseUrl = some "https://weather.test".toList ∧
      ¬Mirrors repointed := by
  have hne : Desk.weather ≠ defaultProviderId := by decide
  have htable : (rowOf repointed Desk.weather).map ProviderRow.baseUrl =
      some "https://weather.test".toList := by decide +kernel
  have hreg : (registryGet repointed Desk.weather).map ProviderRecord.baseUrl =
      some "https://elsewhere.test".toList := by decide +kernel
  refine ⟨run_repointed, hne, htable, hreg, by decide +kernel, ?_⟩
  intro hm
  have hsame := congrArg (Option.map ProviderRecord.baseUrl) (hm Desk.weather hne)
  rw [Option.map_map] at hsame
  have hurl : (rowOf repointed Desk.weather).map (ProviderRecord.baseUrl ∘ ProviderRow.record) =
      some "https://weather.test".toList := htable
  rw [hreg, hurl, Option.some.injEq] at hsame
  exact absurd hsame (by decide)

end AgentPay.RegistryMirror
