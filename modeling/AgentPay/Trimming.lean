import Mathlib.Data.List.DropRight
import Mathlib.Data.List.TakeWhile

/-!
# Lists with their ends cut off

`dropWhile` and `rdropWhile` cut off what satisfies a predicate at the front and at the
back. What was cut needs no further cut, also after the other end is cut; what is put
behind a stop, or cut off again, changes nothing.
-/
namespace AgentPay.Trimming

variable {α : Type} {p q : α → Bool} {l u v : List α} {c : α}

/-- A beginning of what needs no cut at the front needs none. -/
theorem dropWhile_prefix (h : l.dropWhile p = l) (hu : u <+: l) : u.dropWhile p = u := by
  rcases u with _ | ⟨c, u⟩
  · rfl
  · obtain ⟨z, rfl⟩ := hu
    have hhead := List.dropWhile_eq_self_iff.mp h (by simp)
    exact List.dropWhile_eq_self_iff.mpr fun _ => hhead

theorem rdropWhile_append_of_all (h : ∀ a ∈ v, p a) :
    (u ++ v).rdropWhile p = u.rdropWhile p := by
  simp only [List.rdropWhile, List.reverse_append]
  rw [List.dropWhile_append_of_pos fun a ha => h a (List.mem_reverse.mp ha)]

theorem rdropWhile_append_stop (hc : p c = false) :
    (u ++ c :: v).rdropWhile p = u ++ c :: v.rdropWhile p := by
  have hstop : (c :: u.reverse).dropWhile p = c :: u.reverse :=
    List.dropWhile_cons_of_neg (by rw [hc]; exact Bool.false_ne_true)
  have hrev : (u ++ c :: v).reverse = v.reverse ++ c :: u.reverse := by simp
  rw [List.rdropWhile, hrev, List.dropWhile_append, hstop, List.rdropWhile]
  split_ifs with hv
  · rw [List.isEmpty_iff.mp hv]
    simp
  · simp

theorem rdropWhile_cons_stop (hc : p c = false) :
    (c :: v).rdropWhile p = c :: v.rdropWhile p := by
  simpa using @rdropWhile_append_stop α p [] v c hc

/-- What stays of a list in front of a stop stays in front of more. -/
theorem takeWhile_append_of_mem (hc : c ∈ u) (hp : p c = false) :
    (u ++ v).takeWhile p = u.takeWhile p := by
  rw [List.takeWhile_append, if_neg]
  intro hlen
  have hall : u.takeWhile p = u := (List.takeWhile_prefix p).eq_of_length hlen
  have hpos : p c = true := List.takeWhile_eq_self_iff.mp hall c hc
  rw [hp] at hpos
  cases hpos

/-- A cut at the back that leaves the stop leaves all in front of it. -/
theorem takeWhile_rdropWhile (hc : c ∈ u) (hp : p c = false) (hq : q c = false) :
    (u.rdropWhile q).takeWhile p = u.takeWhile p := by
  have hin : c ∈ u.rdropWhile q := by
    obtain ⟨x, y, rfl⟩ := List.append_of_mem hc
    rw [rdropWhile_append_stop hq]
    simp
  obtain ⟨z, hz⟩ := List.rdropWhile_prefix q u
  conv_rhs => rw [← hz, takeWhile_append_of_mem hin hp]

/-- Of the filler behind a list nothing stays, whether it is read or not. -/
theorem rdropWhile_takeWhile_append (hv : ∀ a ∈ v, q a) :
    ((u ++ v).takeWhile p).rdropWhile q = (u.takeWhile p).rdropWhile q := by
  by_cases hall : (u.takeWhile p).length = u.length
  · have hu : u.takeWhile p = u := (List.takeWhile_prefix p).eq_of_length hall
    rw [List.takeWhile_append, if_pos hall, hu]
    exact rdropWhile_append_of_all fun a ha => hv a ((List.takeWhile_prefix p).subset ha)
  · rw [List.takeWhile_append, if_neg hall]

end AgentPay.Trimming
