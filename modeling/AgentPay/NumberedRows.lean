import Mathlib.Data.List.Sort

/-!
# Rows in the order of their numbers

Rows that carry numbers of their own are read back in the order of these, whatever
the order they were written in. Where the numbers of a list are the places of its
rows, a list that only grew behind it, with numbers that are unique and none of them
negative, reads back with the old rows first and in their places.
-/
namespace AgentPay.NumberedRows

universe u
variable {α : Type u} {num : α → ℤ} {l l' : List α} {a b : α}

/-- `ORDER BY` the number, ascending. -/
def ordered (num : α → ℤ) (l : List α) : List α := l.insertionSort fun a b => num a ≤ num b

def Numbered (num : α → ℤ) (l : List α) : Prop := ∀ (i : ℕ) (h : i < l.length), num l[i] = i

section Order

instance total_number : Std.Total fun a b : α => num a ≤ num b :=
  ⟨fun a b => le_total (num a) (num b)⟩

instance trans_number : IsTrans α fun a b : α => num a ≤ num b := ⟨fun _ _ _ => le_trans⟩

theorem ordered_perm : (ordered num l).Perm l := List.perm_insertionSort _ l

@[simp] theorem mem_ordered : a ∈ ordered num l ↔ a ∈ l := ordered_perm.mem_iff

@[simp] theorem length_ordered : (ordered num l).length = l.length := ordered_perm.length_eq

theorem ordered_sorted : (ordered num l).Pairwise fun a b => num a ≤ num b :=
  List.pairwise_insertionSort _ l

/-- Rows that differ in their numbers have one order. -/
theorem ordered_eq (hu : (l.map num).Nodup) (hp : l'.Perm l)
    (hs : l'.Pairwise fun a b => num a ≤ num b) : ordered num l = l' := by
  have hsame : (ordered num l).Perm l' := ordered_perm.trans hp.symm
  apply hsame.eq_of_pairwise _ ordered_sorted hs
  intro a b ha hb hab hba
  have hb' : b ∈ l := hp.mem_iff.mp hb
  exact List.inj_on_of_nodup_map hu (mem_ordered.mp ha) hb' (le_antisymm hab hba)

theorem ordered_append (hu : ((l ++ l').map num).Nodup)
    (h : ∀ a ∈ l, ∀ b ∈ l', num a ≤ num b) :
    ordered num (l ++ l') = ordered num l ++ ordered num l' := by
  apply ordered_eq hu (ordered_perm.append ordered_perm)
  rw [List.pairwise_append]
  refine ⟨ordered_sorted, ordered_sorted, ?_⟩
  intro a ha b hb
  exact h a (mem_ordered.mp ha) b (mem_ordered.mp hb)

end Order

section Growth

theorem Numbered.num_lt (hn : Numbered num (ordered num l)) (ha : a ∈ l) : num a < l.length := by
  have hmem : a ∈ ordered num l := mem_ordered.mpr ha
  obtain ⟨i, hi, he⟩ := List.getElem_of_mem hmem
  have hnum := hn i hi
  rw [length_ordered] at hi
  rw [he] at hnum
  omega

theorem Numbered.exists_num (hn : Numbered num (ordered num l)) {i : ℕ} (hi : i < l.length) :
    ∃ a ∈ l, num a = i := by
  have hi' : i < (ordered num l).length := by rwa [length_ordered]
  exact ⟨_, mem_ordered.mp (List.getElem_mem hi'), hn i hi'⟩

/-- What is written behind numbered rows has larger numbers. -/
theorem Numbered.length_le (hn : Numbered num (ordered num l)) (hu : ((l ++ l').map num).Nodup)
    (hb : b ∈ l') (hpos : 0 ≤ num b) : l.length ≤ num b := by
  by_contra hlt
  have hsmall : (num b).toNat < l.length := by omega
  obtain ⟨a, ha, hab⟩ := hn.exists_num hsmall
  have hnum : num a = num b := by omega
  rw [List.map_append] at hu
  exact (List.nodup_append.mp hu).2.2 _ (List.mem_map_of_mem ha) _ (List.mem_map_of_mem hb) hnum

theorem ordered_prefix (hn : Numbered num (ordered num l)) (hl : l <+: l')
    (hu : (l'.map num).Nodup) (hpos : ∀ b ∈ l', 0 ≤ num b) : ordered num l <+: ordered num l' := by
  obtain ⟨r, rfl⟩ := hl
  have hbelow : ∀ a ∈ l, ∀ b ∈ r, num a ≤ num b := by
    intro a ha b hb
    have hlt := hn.num_lt ha
    have hle := hn.length_le hu hb (hpos b (List.mem_append_right _ hb))
    omega
  rw [ordered_append hu hbelow]
  exact List.prefix_append _ _

theorem ordered_concat (hu : ((l ++ [b]).map num).Nodup) (h : ∀ a ∈ l, num a ≤ num b) :
    ordered num (l ++ [b]) = ordered num l ++ [b] := by
  rw [ordered_append hu (fun a ha x hx => by rw [List.mem_singleton.mp hx]; exact h a ha)]
  rfl

end Growth

end AgentPay.NumberedRows
