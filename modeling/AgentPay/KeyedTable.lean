import Mathlib.Data.List.Basic
import Mathlib.Data.List.Pairwise

/-!
# Tables with unique constraints

A table is the list of its rows, oldest first. Which rows cannot stand side by
side is a relation `clash`; a table carries the fact that none of its rows clash,
so that a key names at most one row in every table that can be built. An
insertion or an update that would break the constraint has no result.
-/
namespace AgentPay.KeyedTable

universe u
variable {ρ : Type u} {clash : ρ → ρ → Bool}

structure Table (clash : ρ → ρ → Bool) where
  rows : List ρ
  unique : rows.Pairwise fun a b => clash a b = false

namespace Table

def empty : Table clash := ⟨[], .nil⟩

/-- `INSERT ... ON CONFLICT DO NOTHING`; no result on a conflict. -/
def insert (t : Table clash) (r : ρ) : Option (Table clash) :=
  if h : ∀ a ∈ t.rows, clash a r = false then
    some ⟨t.rows ++ [r], List.pairwise_append.mpr ⟨t.unique, List.pairwise_singleton _ _,
      fun a ha _ hb => List.mem_singleton.mp hb ▸ h a ha⟩⟩
  else none

def updated (p : ρ → Bool) (f : ρ → ρ) (r : ρ) : ρ := if p r then f r else r

/-- `UPDATE ... SET ... WHERE`; no result when a unique constraint is violated. -/
def update (t : Table clash) (p : ρ → Bool) (f : ρ → ρ) : Option (Table clash) :=
  if h : (t.rows.map (updated p f)).Pairwise fun a b => clash a b = false then some ⟨_, h⟩ else none

/-- `DELETE ... WHERE`. -/
def delete (t : Table clash) (p : ρ → Bool) : Table clash :=
  ⟨t.rows.filter fun r => !p r, t.unique.sublist List.filter_sublist⟩

/-- Puts a row in the place of every row it clashes with. -/
def upsert (t : Table clash) (r : ρ) : Table clash :=
  ⟨t.rows.filter (fun a => !clash a r) ++ [r], List.pairwise_append.mpr
    ⟨t.unique.sublist List.filter_sublist, List.pairwise_singleton _ _, by
      intro a ha b hb
      rw [List.mem_singleton] at hb
      subst hb
      simpa using (List.mem_filter.mp ha).2⟩⟩

section Rows
variable {t t' : Table clash} {p q : ρ → Bool} {f : ρ → ρ} {a b r : ρ}

theorem insert_eq_some : t.insert r = some t' ↔
    (∀ a ∈ t.rows, clash a r = false) ∧ t'.rows = t.rows ++ [r] := by
  rcases t' with ⟨rows', h'⟩
  unfold insert
  split_ifs with h
  · simp only [Option.some.injEq, mk.injEq]
    exact ⟨fun he => ⟨h, he.symm⟩, fun he => he.2.symm⟩
  · simp only [false_iff, not_and]
    exact fun h' => absurd h' h

theorem update_rows (h : t.update p f = some t') : t'.rows = t.rows.map (updated p f) := by
  unfold update at h
  split_ifs at h
  cases h
  rfl

/-- An update that leaves the constrained columns alone goes through. -/
theorem update_isSome (h : ∀ a b, clash (updated p f a) (updated p f b) = clash a b) :
    ∃ t', t.update p f = some t' := by
  have hp : (t.rows.map (updated p f)).Pairwise fun a b => clash a b = false := by
    rw [List.pairwise_map]
    simp only [h]
    exact t.unique
  unfold update
  rw [dif_pos hp]
  exact ⟨_, rfl⟩

theorem mem_update (h : t.update p f = some t') :
    a ∈ t'.rows ↔ ∃ r ∈ t.rows, updated p f r = a := by
  rw [update_rows h, List.mem_map]

theorem mem_update_of_not (h : t.update p f = some t') (ha : a ∈ t.rows) (hp : p a = false) :
    a ∈ t'.rows := by
  rw [mem_update h]
  refine ⟨a, ha, ?_⟩
  simp [updated, hp]

theorem mem_insert_of_mem (h : t.insert r = some t') (ha : a ∈ t.rows) : a ∈ t'.rows := by
  rw [(insert_eq_some.mp h).2]
  exact List.mem_append_left _ ha

theorem mem_delete : a ∈ (t.delete p).rows ↔ a ∈ t.rows ∧ p a = false := by
  simp [delete]

/-- Rows selected by a column the update leaves alone are the selected rows,
updated. -/
theorem filter_update (h : t.update p f = some t') (hq : ∀ r, q (updated p f r) = q r) :
    t'.rows.filter q = (t.rows.filter q).map (updated p f) := by
  rw [update_rows h, List.filter_map]
  congr 2
  funext r
  exact hq r

theorem any_update (h : t.update p f = some t') (hq : ∀ r, q (updated p f r) = q r) :
    t'.rows.any q = t.rows.any q := by
  rw [update_rows h, List.any_map]
  congr 1
  funext r
  exact hq r

theorem filter_insert (h : t.insert r = some t') :
    t'.rows.filter q = t.rows.filter q ++ [r].filter q := by
  rw [(insert_eq_some.mp h).2, List.filter_append]

theorem eq_of_clash (hs : ∀ a b, clash a b = clash b a) (ha : a ∈ t.rows) (hb : b ∈ t.rows)
    (h : clash a b = true) : a = b := by
  by_contra hne
  have : Std.Symm fun a b => clash a b = false := ⟨fun a b hab => (hs b a).trans hab⟩
  have hc : clash a b = false := t.unique.forall ha hb hne
  rw [h] at hc
  cases hc

/-- An update that keeps the keys leaves a row in the table just when it does
not change it. -/
theorem mem_update_iff (hs : ∀ a b, clash a b = clash b a) (h : t.update p f = some t')
    (hk : ∀ r, clash (updated p f r) r = true) (ha : a ∈ t.rows) :
    a ∈ t'.rows ↔ updated p f a = a := by
  rw [mem_update h]
  constructor
  · rintro ⟨r, hr, he⟩
    have hc := hk r
    rw [he] at hc
    rw [eq_of_clash hs ha hr hc] at he ⊢
    exact he
  · intro he
    exact ⟨a, ha, he⟩

theorem updated_eq_self : updated p f a = a ↔ (p a = true → f a = a) := by
  unfold updated
  split_ifs with h
  · simp [h]
  · simp [h]

/-- A row is found by any test that only rows of its key pass. -/
theorem find?_eq_some_of_mem (hs : ∀ a b, clash a b = clash b a) (ha : a ∈ t.rows) (hp : p a = true)
    (hq : ∀ b, p b = true → clash b a = true) : t.rows.find? p = some a := by
  rcases hf : t.rows.find? p with _ | b
  · have := List.find?_eq_none.mp hf a ha
    exact absurd hp this
  · have hb := List.find?_some hf
    rw [eq_of_clash hs (List.mem_of_find?_eq_some hf) ha (hq b hb)]

/-- Under one key a row stands in the place of the old one, and the others stay. -/
theorem find?_upsert {κ : Type*} [DecidableEq κ] {key : ρ → κ}
    (hkey : ∀ a b, clash a b = decide (key a = key b)) (k : κ) :
    ((t.upsert r).rows.find? fun a => key a = k) =
      if key r = k then some r else t.rows.find? fun a => key a = k := by
  have hrows : (t.upsert r).rows = t.rows.filter (fun a => !clash a r) ++ [r] := rfl
  rw [hrows, List.find?_append, List.find?_filter]
  split_ifs with hk
  · subst hk
    rw [List.find?_eq_none.mpr fun a _ => by simp [hkey]]
    simp
  · rw [List.find?_singleton, if_neg (by simpa using hk), Option.or_none]
    congr 1
    funext a
    by_cases ha : key a = k
    · simp [ha, hkey, Ne.symm hk]
    · simp [ha]

/-- A row is found after a deletion if it was found before and is kept. -/
theorem find?_delete {κ : Type*} [DecidableEq κ] {key : ρ → κ}
    (hkey : ∀ a b, clash a b = decide (key a = key b)) (k : κ) :
    ((t.delete p).rows.find? fun a => key a = k) =
      (t.rows.find? fun a => key a = k).filter fun a => !p a := by
  have hs : ∀ a b, clash a b = clash b a := fun a b => by simp only [hkey, eq_comm]
  rcases hf : t.rows.find? (fun a => key a = k) with _ | a
  · refine List.find?_eq_none.mpr fun b hb => ?_
    exact List.find?_eq_none.mp hf b (mem_delete.mp hb).1
  · have ha : a ∈ t.rows := List.mem_of_find?_eq_some hf
    have hk : key a = k := by simpa using List.find?_some hf
    rcases hp : p a with _ | _
    · rw [Option.filter_some, hp, if_pos Bool.not_false]
      refine find?_eq_some_of_mem hs (mem_delete.mpr ⟨ha, hp⟩) (by simpa using hk) fun b hb => ?_
      rw [hkey, hk]
      simpa using hb
    · rw [Option.filter_some, hp, if_neg (by simp)]
      refine List.find?_eq_none.mpr fun b hb hbk => ?_
      obtain ⟨hb, hpb⟩ := mem_delete.mp hb
      have hba : b = a := eq_of_clash hs hb ha (by rw [hkey, hk]; simpa using hbk)
      rw [hba, hp] at hpb
      cases hpb

/-- The rows of a key that is found are the one row. -/
theorem filter_key {κ : Type*} [DecidableEq κ] {key : ρ → κ}
    (hkey : ∀ a b, clash a b = decide (key a = key b)) {k : κ}
    (hf : (t.rows.find? fun a => key a = k) = some a) :
    t.rows.filter (fun a => key a = k) = [a] := by
  have hs : ∀ a b, clash a b = clash b a := fun a b => by simp only [hkey, eq_comm]
  have ha := List.mem_of_find?_eq_some hf
  have hk : key a = k := by simpa using List.find?_some hf
  have hall : ∀ b ∈ t.rows.filter (fun a => key a = k), b = a := by
    intro b hb
    obtain ⟨hb, hbk⟩ := List.mem_filter.mp hb
    exact eq_of_clash hs hb ha (by rw [hkey, hk]; simpa using hbk)
  have hin : a ∈ t.rows.filter (fun a => key a = k) := List.mem_filter.mpr ⟨ha, by simpa using hk⟩
  have hpair := t.unique.sublist (List.filter_sublist (p := fun a => decide (key a = k)))
  rcases hl : t.rows.filter (fun a => key a = k) with _ | ⟨b, _ | ⟨b', l⟩⟩
  · rw [hl] at hin
    exact absurd hin List.not_mem_nil
  · rw [hl] at hall
    rw [hall b List.mem_cons_self]
  · rw [hl] at hall hpair
    have hb := hall b List.mem_cons_self
    have hb' := hall b' (List.mem_cons_of_mem _ List.mem_cons_self)
    have hclash := (List.pairwise_cons.mp hpair).1 b' List.mem_cons_self
    rw [hb, hb', hkey] at hclash
    exact absurd rfl (of_decide_eq_false hclash)

theorem mem_upsert : a ∈ (t.upsert r).rows ↔ a ∈ t.rows ∧ clash a r = false ∨ a = r := by
  simp [upsert]

theorem length_delete_le : (t.delete p).rows.length ≤ t.rows.length := List.length_filter_le _ _

theorem length_upsert_le : (t.upsert r).rows.length ≤ t.rows.length + 1 := by
  have hfilter := List.length_filter_le (fun a => !clash a r) t.rows
  simp only [upsert, List.length_append, List.length_singleton]
  omega

/-- A row that takes the place of another adds none. -/
theorem length_upsert_of_clash (ha : a ∈ t.rows) (h : clash a r = true) :
    (t.upsert r).rows.length ≤ t.rows.length := by
  have hfilter : (t.rows.filter fun a => !clash a r).length < t.rows.length :=
    List.length_filter_lt_length_iff_exists.mpr ⟨a, ha, by simp [h]⟩
  simp only [upsert, List.length_append, List.length_singleton]
  omega

end Rows

end Table

end AgentPay.KeyedTable
