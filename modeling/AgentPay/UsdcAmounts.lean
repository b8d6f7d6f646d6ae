import AgentPay.DecimalStrings
import AgentPay.Trimming

/-!
# Amounts as the console shows them

`formatUsdc` and `formatUsdcCompact` of `format.ts`: micro-USDC as a decimal with six
places, groups of three in front of the point, and the same without the zeros at its end.
The regular expressions are written out as what they match. What is shown is compared with
what a reader makes of it: whatever the amount, both forms say it exactly, so two amounts
never look the same.
-/
namespace AgentPay.UsdcAmounts
open PolicyRules (Text)
open DecimalStrings PositionalDigits

/-! ### The formats -/

def places : ℕ := 6

/-- `padStart(n, "0")`. -/
def padStart (n : ℕ) (s : Text) : Text := List.replicate (n - s.length) '0' ++ s

/-- `\w`. -/
def isWord (c : Char) : Bool := c.isAlphanum || c = '_'

/-- `(?=(\d{3})+(?!\d))`. -/
def groupsAhead (s : Text) : Bool :=
  let run := (s.takeWhile Char.isDigit).length
  0 < run && run % 3 = 0

/-- `replace(/\B(?=(\d{3})+(?!\d))/g, ",")`, after the character in front. -/
def grouped : Option Char → Text → Text
  | _, [] => []
  | before, c :: s =>
    if before.any isWord = isWord c ∧ groupsAhead (c :: s) then ',' :: c :: grouped (some c) s
    else c :: grouped (some c) s

def formatBigint (v : ℤ) : Text :=
  let s := padStart (places + 1) (natToString v.natAbs)
  let whole := s.take (s.length - places)
  let frac := s.drop (s.length - places)
  (if v < 0 then ['-'] else []) ++ (grouped none whole ++ '.' :: frac)

/-- `formatUsdc`, for the texts the gateway sends. Reading the text is `BigInt` of
the language. -/
def formatUsdc (micro : Text) : Text :=
  match stringToBigInt micro with
  | none => ['—']
  | some v => formatBigint v

/-- `\.?0+$` from here on. -/
def zerosHere : Text → Bool
  | [] => false
  | c :: s => if c = '.' then s ≠ [] && s.all (· = '0') else (c :: s).all (· = '0')

/-- `replace(/\.?0+$/, "")`: the first match is cut off. -/
def stripZeros : Text → Text
  | [] => []
  | c :: s => if zerosHere (c :: s) then [] else c :: stripZeros s

def compact (full : Text) : Text :=
  if full = ['—'] then full else if '.' ∈ full then stripZeros full else full

def formatUsdcCompact (micro : Text) : Text := compact (formatUsdc micro)

/-! ### A reader -/

/-- What the text says, in micro-USDC: a sign, digits with commas, and up to six places. -/
def amountOf (s : Text) : Option ℤ :=
  let digits := if s.head? = some '-' then s.drop 1 else s
  let whole := (digits.takeWhile (· ≠ '.')).filter (· ≠ ',')
  let frac := (digits.dropWhile (· ≠ '.')).drop 1
  if places < frac.length then none
  else (literal 10 (whole ++ (frac ++ List.replicate (places - frac.length) '0'))).map fun n : ℕ =>
    if s.head? = some '-' then -(n : ℤ) else n

/-- Digits in groups of three, of which the first may be shorter. -/
structure InGroups (digits : Text) (groups : List Text) : Prop where
  digits : groups.flatten = digits
  sizes : ∃ first rest, groups = first :: rest ∧ 0 < first.length ∧ first.length ≤ 3 ∧
    ∀ g ∈ rest, g.length = 3

/-! ### Grouping -/

section Grouping
variable {s : Text} {c d : Char} {before : Option Char}

theorem grouped_filter (hs : ',' ∉ s) : (grouped before s).filter (· ≠ ',') = s := by
  induction s generalizing before with
  | nil => rfl
  | cons c s ih =>
    rw [List.mem_cons, not_or] at hs
    have hkept : (c :: grouped (some c) s).filter (· ≠ ',') = c :: s := by
      rw [List.filter_cons_of_pos (by simpa using Ne.symm hs.1), ih hs.2]
    unfold grouped
    split_ifs
    · rw [List.filter_cons_of_neg (by simp), hkept]
    · exact hkept

theorem mem_grouped (h : c ∈ grouped before s) : c = ',' ∨ c ∈ s := by
  induction s generalizing before with
  | nil => cases h
  | cons d s ih =>
    unfold grouped at h
    split_ifs at h
    · rcases List.mem_cons.mp h with rfl | h
      · exact .inl rfl
      · rcases List.mem_cons.mp h with rfl | h
        · exact .inr List.mem_cons_self
        · exact (ih h).imp_right (List.mem_cons_of_mem _)
    · rcases List.mem_cons.mp h with rfl | h
      · exact .inr List.mem_cons_self
      · exact (ih h).imp_right (List.mem_cons_of_mem _)

theorem isWord_of_isDigit (h : c.isDigit = true) : isWord c = true := by
  simp [isWord, Char.isAlphanum, h]

theorem isDigit_decimal {n : ℕ} (hn : n < 10) : (decimal n).isDigit = true := by
  have hall : ∀ n : Fin 10, (decimal n).isDigit = true := by decide
  exact hall ⟨n, hn⟩

theorem ne_of_isDigit (hc : c.isDigit = true) (hd : d.isDigit = false) : c ≠ d := by
  rintro rfl
  rw [hc] at hd
  cases hd

/-- Among digits a comma stands where the digits that follow are whole groups. -/
theorem grouped_digits (hd : d.isDigit = true) (hs : (c :: s).all Char.isDigit = true) :
    grouped (some d) (c :: s) = if (s.length + 1) % 3 = 0 then ',' :: c :: grouped (some c) s
      else c :: grouped (some c) s := by
  have hc : c.isDigit = true := (List.all_cons.symm.trans hs |> Bool.and_eq_true_iff.mp).1
  have hrun : (c :: s).takeWhile Char.isDigit = c :: s :=
    List.takeWhile_eq_self_iff.mpr (List.all_eq_true.mp hs)
  have hahead : groupsAhead (c :: s) = decide ((s.length + 1) % 3 = 0) := by
    simp [groupsAhead, hrun]
  rw [grouped, hahead]
  simp [isWord_of_isDigit hc, isWord_of_isDigit hd]

theorem splitOn_comma (s : Text) : (',' :: s).splitOn ',' = [] :: s.splitOn ',' := by
  simp [List.splitOn, List.splitOnP_cons_eq_if_modifyHead]

theorem splitOn_digit (hc : c.isDigit = true) (s : Text) :
    (c :: s).splitOn ',' = (s.splitOn ',').modifyHead (List.cons c) := by
  have hne : c ≠ ',' := ne_of_isDigit hc rfl
  simp [List.splitOn, List.splitOnP_cons_eq_if_modifyHead, hne]

/-- Behind a digit the first group is what is left over. -/
theorem groups_behind (hd : d.isDigit = true) (hs : s.all Char.isDigit = true) :
    ∃ first rest, (grouped (some d) s).splitOn ',' = first :: rest ∧
      first.length = s.length % 3 ∧ (∀ g ∈ rest, g.length = 3) ∧ (first :: rest).flatten = s := by
  induction s generalizing d with
  | nil => exact ⟨[], [], rfl, rfl, nofun, rfl⟩
  | cons c s ih =>
    rw [List.all_cons, Bool.and_eq_true] at hs
    obtain ⟨first, rest, hsplit, hlen, hrest, hflat⟩ := ih hs.1 hs.2
    have hhead : (c :: grouped (some c) s).splitOn ',' = (c :: first) :: rest := by
      rw [splitOn_digit hs.1, hsplit]
      rfl
    have hwhole : ((c :: first) :: rest).flatten = c :: s := by rw [← hflat]; rfl
    rw [grouped_digits hd (by simp [hs.1, hs.2])]
    split_ifs with hmod
    · refine ⟨[], (c :: first) :: rest, ?_, ?_, ?_, hwhole⟩
      · rw [splitOn_comma, hhead]
      · rw [List.length_cons, hmod]
        rfl
      · intro g hg
        rcases List.mem_cons.mp hg with rfl | hg
        · rw [List.length_cons, hlen]
          omega
        · exact hrest g hg
    · refine ⟨c :: first, rest, hhead, ?_, hrest, hwhole⟩
      rw [List.length_cons, List.length_cons, hlen]
      omega

theorem inGroups_grouped (hne : s ≠ []) (hs : s.all Char.isDigit = true) :
    InGroups s ((grouped none s).splitOn ',') := by
  rcases s with _ | ⟨c, s⟩
  · exact absurd rfl hne
  · rw [List.all_cons, Bool.and_eq_true] at hs
    obtain ⟨first, rest, hsplit, hlen, hrest, hflat⟩ := groups_behind hs.1 hs.2
    have hnone : grouped none (c :: s) = c :: grouped (some c) s := by
      rw [grouped, if_neg]
      simp [isWord_of_isDigit hs.1]
    have hhead : (grouped none (c :: s)).splitOn ',' = (c :: first) :: rest := by
      rw [hnone, splitOn_digit hs.1, hsplit]
      rfl
    rw [hhead]
    refine ⟨by rw [← hflat]; rfl, _, _, rfl, Nat.succ_pos _, ?_, hrest⟩
    rw [List.length_cons, hlen]
    omega

end Grouping

/-! ### Zeros at the end -/

section Zeros
variable {s u : Text} {c : Char}

theorem stripZeros_restore (h : '.' ∉ s) : ∃ k, s = stripZeros s ++ List.replicate k '0' := by
  induction s with
  | nil => exact ⟨0, rfl⟩
  | cons c s ih =>
    rw [List.mem_cons, not_or] at h
    unfold stripZeros
    split_ifs with hz
    · refine ⟨(c :: s).length, ?_⟩
      rw [zerosHere, if_neg (Ne.symm h.1)] at hz
      rw [List.nil_append, List.eq_replicate_iff]
      exact ⟨rfl, fun b hb => by simpa using List.all_eq_true.mp hz b hb⟩
    · obtain ⟨k, hk⟩ := ih h.2
      exact ⟨k, congrArg (List.cons c) hk⟩

theorem stripZeros_point (h : '.' ∉ u) : stripZeros (u ++ '.' :: s) =
    if s ≠ [] ∧ s.all (· = '0') then u else u ++ '.' :: stripZeros s := by
  induction u with
  | nil => simp [stripZeros, zerosHere]
  | cons c u ih =>
    rw [List.mem_cons, not_or] at h
    have hz : zerosHere (c :: (u ++ '.' :: s)) = false := by
      simp [zerosHere, Ne.symm h.1]
    rw [List.cons_append, stripZeros, hz, ih h.2, if_neg Bool.false_ne_true]
    split_ifs
    · rfl
    · rfl

theorem getLast_stripZeros (h : '.' ∉ s) : (stripZeros s).getLast? ≠ some '0' := by
  induction s with
  | nil => nofun
  | cons c s ih =>
    rw [List.mem_cons, not_or] at h
    unfold stripZeros
    split_ifs with hz
    · nofun
    · rw [zerosHere, if_neg (Ne.symm h.1)] at hz
      rcases hstrip : stripZeros s with _ | ⟨d, t⟩
      · obtain ⟨k, hk⟩ := stripZeros_restore h.2
        rw [hstrip, List.nil_append] at hk
        rintro hlast
        simp at hlast
        subst hlast
        exact hz (by simp [hk])
      · have hne := ih h.2
        rw [hstrip] at hne
        rwa [List.getLast?_cons_cons]

end Zeros

/-! ### Reading the formats -/

section Reading
variable {w u t : Text} {v : ℤ}

def minus (negative : Bool) : Text := if negative then ['-'] else []

theorem head?_append_minus (negative : Bool) (hu : u ≠ []) (hfirst : u.head? ≠ some '-') :
    ((minus negative ++ (u ++ t)).head? = some '-' ↔ negative = true) ∧
      (if negative then (minus negative ++ (u ++ t)).drop 1 else minus negative ++ (u ++ t)) =
        u ++ t := by
  cases negative
  · refine ⟨?_, rfl⟩
    obtain ⟨c, u, rfl⟩ := List.exists_cons_of_ne_nil hu
    simpa [minus] using hfirst
  · exact ⟨by simp [minus], rfl⟩

/-- What the reader makes of a sign, grouped digits, and a point with decimals or nothing. -/
theorem amountOf_shown (negative : Bool) (hu : u ≠ []) (hfirst : u.head? ≠ some '-')
    (hpoint : '.' ∉ u) (hw : u.filter (· ≠ ',') = w) {p : Text}
    (hp : p = [] ∧ t = [] ∨ p = '.' :: t) (ht : t.length ≤ places) :
    amountOf (minus negative ++ (u ++ p)) =
      (literal 10 (w ++ (t ++ List.replicate (places - t.length) '0'))).map fun n : ℕ =>
        if negative then -(n : ℤ) else n := by
  obtain ⟨hhead, hdrop⟩ := @head?_append_minus u p negative hu hfirst
  have hall : ∀ c ∈ u, (decide (c ≠ '.')) = true := by
    intro c hc
    simpa using fun heq : c = '.' => hpoint (heq ▸ hc)
  have hbody : (u ++ p).takeWhile (· ≠ '.') = u ∧ ((u ++ p).dropWhile (· ≠ '.')).drop 1 = t := by
    rw [List.takeWhile_append_of_pos hall, List.dropWhile_append_of_pos hall]
    rcases hp with ⟨rfl, rfl⟩ | rfl
    · exact ⟨List.append_nil _, rfl⟩
    · simp
  simp only [amountOf, hhead, hdrop, hbody.1, hbody.2, hw, if_neg (Nat.not_lt.mpr ht)]

/-- A number filled up to seven digits, cut in front of the last six. -/
theorem padStart_parts (n : ℕ) :
    let s := padStart (places + 1) (natToString n)
    let whole := s.take (s.length - places)
    let frac := s.drop (s.length - places)
    whole ≠ [] ∧ (whole.all Char.isDigit = true) ∧ '.' ∉ frac ∧ frac.length = places ∧
      literal 10 (whole ++ frac) = some n := by
  obtain ⟨ds, hne, hds, hvalue, hs⟩ := natToString_eq n
  let k := places + 1 - (natToString n).length
  have hpad : padStart (places + 1) (natToString n) = (List.replicate k 0 ++ ds).map decimal := by
    rw [List.map_append, List.map_replicate, ← hs]
    rfl
  have hall : ∀ d ∈ List.replicate k 0 ++ ds, d < 10 := by
    intro d hd
    rcases List.mem_append.mp hd with hd | hd
    · rw [List.eq_of_mem_replicate hd]
      decide
    · exact hds d hd
  have hlen : places + 1 ≤ (padStart (places + 1) (natToString n)).length := by
    rw [padStart, List.length_append, List.length_replicate]
    omega
  have hchars : ∀ c ∈ padStart (places + 1) (natToString n), c.isDigit = true := by
    rw [hpad]
    intro c hc
    obtain ⟨d, hd, rfl⟩ := List.mem_map.mp hc
    exact isDigit_decimal (hall d hd)
  intro s whole frac
  have hlong : places + 1 ≤ s.length := hlen
  refine ⟨?_, ?_, ?_, ?_, ?_⟩
  · exact List.ne_nil_of_length_pos (by rw [List.length_take]; omega)
  · exact List.all_eq_true.mpr fun c hc => hchars c (List.mem_of_mem_take hc)
  · exact fun hpoint => absurd (hchars _ (List.mem_of_mem_drop hpoint)) (by decide)
  · rw [List.length_drop]
    omega
  · rw [List.take_append_drop]
    change literal 10 (padStart (places + 1) (natToString n)) = some n
    rw [hpad, literal_decimals hall (List.append_ne_nil_of_right_ne_nil _ hne),
      value_replicate_append, hvalue]

theorem formatBigint_parts (v : ℤ) : ∃ whole frac : Text,
    formatBigint v = minus (decide (v < 0)) ++ (grouped none whole ++ '.' :: frac) ∧
      whole ≠ [] ∧ whole.all Char.isDigit = true ∧ '.' ∉ frac ∧ frac.length = places ∧
      literal 10 (whole ++ frac) = some v.natAbs := by
  have hparts := padStart_parts v.natAbs
  refine ⟨_, _, ?_, hparts⟩
  simp only [formatBigint, minus, decide_eq_true_eq]

theorem grouped_plain (hne : w ≠ []) (hw : w.all Char.isDigit = true) :
    grouped none w ≠ [] ∧ (grouped none w).head? ≠ some '-' ∧ '.' ∉ grouped none w ∧
      (grouped none w).filter (· ≠ ',') = w := by
  have hdigit := List.all_eq_true.mp hw
  have hcomma : ',' ∉ w := fun h => absurd (hdigit _ h) (by decide)
  have hkept := @grouped_filter w none hcomma
  have hpoint : '.' ∉ grouped none w := by
    intro h
    rcases mem_grouped h with h | h
    · exact absurd h (by decide)
    · exact absurd (hdigit _ h) (by decide)
  have hminus : '-' ∉ grouped none w := by
    intro h
    rcases mem_grouped h with h | h
    · exact absurd h (by decide)
    · exact absurd (hdigit _ h) (by decide)
  refine ⟨?_, fun h => hminus (List.mem_of_mem_head? h), hpoint, hkept⟩
  intro hnil
  rw [hnil] at hkept
  exact hne hkept.symm

/-- The compact form keeps what stands before the zeros at the end, and the point only with
decimals behind it. -/
theorem compact_shown (hpoint : '.' ∉ u) (ht : '.' ∉ t) (hne : t ≠ []) :
    ∃ p kept, ∃ k, compact (u ++ '.' :: t) = u ++ p ∧
      (p = [] ∧ kept = [] ∨ p = '.' :: kept ∧ kept ≠ []) ∧
      t = kept ++ List.replicate k '0' ∧ kept.getLast? ≠ some '0' := by
  have hmem : '.' ∈ u ++ '.' :: t := by simp
  have hdash : u ++ '.' :: t ≠ ['—'] := by
    intro hdash
    rw [hdash] at hmem
    exact absurd hmem (by decide)
  have hcut : compact (u ++ '.' :: t) =
      if t ≠ [] ∧ t.all (· = '0') then u else u ++ '.' :: stripZeros t := by
    rw [compact, if_neg hdash, if_pos hmem, stripZeros_point hpoint]
  rw [hcut]
  split_ifs with hzero
  · have hall : t = List.replicate t.length '0' := List.eq_replicate_iff.mpr
      ⟨rfl, fun c hc => by simpa using List.all_eq_true.mp hzero.2 c hc⟩
    exact ⟨[], [], t.length, (List.append_nil u).symm, .inl ⟨rfl, rfl⟩, hall, nofun⟩
  · obtain ⟨k, hk⟩ := stripZeros_restore ht
    refine ⟨_, stripZeros t, k, rfl, .inr ⟨rfl, fun hnil => hzero ⟨hne, ?_⟩⟩, hk,
      getLast_stripZeros ht⟩
    rw [hk, hnil, List.nil_append, List.all_replicate]
    simp

/-- A sign, the whole part, and a point with what is kept of the decimals: the amount. -/
theorem amountOf_parts {frac p : Text} {k : ℕ} (hne : w ≠ []) (hw : w.all Char.isDigit = true)
    (hlen : frac.length = places) (hliteral : literal 10 (w ++ frac) = some v.natAbs)
    (hp : p = [] ∧ t = [] ∨ p = '.' :: t) (hfrac : frac = t ++ List.replicate k '0') :
    amountOf (minus (decide (v < 0)) ++ (grouped none w ++ p)) = some v := by
  obtain ⟨hu, hfirst, hplain, hkept⟩ := grouped_plain hne hw
  have hlength : t.length + k = places := by
    rw [← hlen, hfrac, List.length_append, List.length_replicate]
  rw [amountOf_shown _ hu hfirst hplain hkept hp (by omega),
    show places - t.length = k by omega, ← hfrac, hliteral, Option.map_some]
  congr 1
  simp only [decide_eq_true_eq]
  split_ifs <;> omega

/-- What is shown of an amount, in both forms. -/
structure Shown (v : ℤ) (full short whole frac kept : Text) : Prop where
  full : full = minus (decide (v < 0)) ++ (grouped none whole ++ '.' :: frac)
  short : short = minus (decide (v < 0)) ++
    (grouped none whole ++ if kept = [] then [] else '.' :: kept)
  groups : InGroups whole ((grouped none whole).splitOn ',')
  six : frac.length = places
  zeros : ∃ k, frac = kept ++ List.replicate k '0'
  least : kept.getLast? ≠ some '0'

theorem formatBigint_shown (v : ℤ) :
    (∃ whole frac kept, Shown v (formatBigint v) (compact (formatBigint v)) whole frac kept) ∧
      amountOf (formatBigint v) = some v ∧ amountOf (compact (formatBigint v)) = some v := by
  obtain ⟨whole, frac, hshown, hne, hdigits, hpoint, hlen, hliteral⟩ := formatBigint_parts v
  have hsign : '.' ∉ minus (decide (v < 0)) ++ grouped none whole := by
    rw [List.mem_append, not_or]
    refine ⟨?_, (grouped_plain hne hdigits).2.2.1⟩
    unfold minus
    split_ifs
    · decide
    · exact List.not_mem_nil
  have hfrac : frac ≠ [] := List.ne_nil_of_length_pos (by rw [hlen]; decide)
  obtain ⟨p, kept, k, hcompact, hp, hk, hlast⟩ := compact_shown hsign hpoint hfrac
  rw [List.append_assoc, ← hshown, List.append_assoc] at hcompact
  have hshort : (if kept = [] then [] else '.' :: kept) = p := by
    rcases hp with ⟨rfl, rfl⟩ | ⟨rfl, hkept⟩
    · rfl
    · exact if_neg hkept
  refine ⟨⟨whole, frac, kept, hshown, ?_, inGroups_grouped hne hdigits, hlen, ⟨k, hk⟩, hlast⟩,
    ?_, ?_⟩
  · rw [hshort, hcompact]
  · rw [hshown]
    exact @amountOf_parts _ _ v _ _ 0 hne hdigits hlen hliteral (.inr rfl)
      (List.append_nil _).symm
  · rw [hcompact]
    exact amountOf_parts hne hdigits hlen hliteral (hp.imp_right And.left) hk

/-- Whatever the gateway sends, both forms say exactly the amount `BigInt` reads in it, the
one with six places and groups of three, the other without a zero at its end; a text that is
no number is a dash in both. -/
theorem amounts_shown_exactly (micro : Text) :
    amountOf (formatUsdc micro) = stringToBigInt micro ∧
      amountOf (formatUsdcCompact micro) = stringToBigInt micro ∧
      (stringToBigInt micro = none →
        formatUsdc micro = ['—'] ∧ formatUsdcCompact micro = ['—']) ∧
      ∀ v, stringToBigInt micro = some v →
        ∃ whole frac kept, Shown v (formatUsdc micro) (formatUsdcCompact micro) whole frac kept := by
  rcases hread : stringToBigInt micro with _ | v
  · have hfull : formatUsdc micro = ['—'] := by rw [formatUsdc, hread]
    have hshort : formatUsdcCompact micro = ['—'] := by
      rw [formatUsdcCompact, hfull, compact, if_pos rfl]
    rw [hshort, hfull]
    exact ⟨by decide, by decide, fun _ => ⟨rfl, rfl⟩, nofun⟩
  · have hfull : formatUsdc micro = formatBigint v := by rw [formatUsdc, hread]
    have hshort : formatUsdcCompact micro = compact (formatBigint v) := by
      rw [formatUsdcCompact, hfull]
    obtain ⟨hshown, hlong, hcompact⟩ := formatBigint_shown v
    rw [hshort, hfull]
    refine ⟨hlong, hcompact, nofun, fun x hx => ?_⟩
    cases hx
    exact hshown

end Reading

end AgentPay.UsdcAmounts
