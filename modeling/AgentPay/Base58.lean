import AgentPay.ClaimEncoding
import AgentPay.PolicyRules
import AgentPay.PositionalDigits

/-!
# Base58 as the SDK writes and reads it

`base58Encode` and `base58Decode` of `client.ts`, loop for loop, over big integers. The
standard rewrites the bytes, as digits in base 256, in base 58 and keeps leading zeros.
The encoder follows it except on no bytes at all, where it answers `1`. Apart from that the
two functions undo each other.
-/
namespace AgentPay.Base58
open PolicyRules ClaimEncoding PositionalDigits Fallible

/-- `B58`. -/
def alphabet : Text := ['1', '2', '3', '4', '5', '6', '7', '8', '9', 'A', 'B', 'C', 'D', 'E', 'F',
  'G', 'H', 'J', 'K', 'L', 'M', 'N', 'P', 'Q', 'R', 'S', 'T', 'U', 'V', 'W', 'X', 'Y', 'Z', 'a',
  'b', 'c', 'd', 'e', 'f', 'g', 'h', 'i', 'j', 'k', 'm', 'n', 'o', 'p', 'q', 'r', 's', 't', 'u',
  'v', 'w', 'x', 'y', 'z']

def letter (d : ℕ) : Char := alphabet.getD d '1'

def encode (bytes : List UInt8) : Text := (recode 256 58 (bytes.map UInt8.toNat)).map letter

/-! ### The SDK -/

def collect (bytes : List UInt8) : ℕ := bytes.foldl (fun n b => (n <<< 8) ||| b.toNat) 0

def prependLetters (n : ℕ) (out : Text) : Text :=
  if n = 0 then out else prependLetters (n / 58) (letter (n % 58) :: out)
termination_by n

def prependOnes : List UInt8 → Text → Text
  | [], out => out
  | b::bytes, out => if b ≠ 0 then out else prependOnes bytes ('1' :: out)

def base58Encode (bytes : List UInt8) : Text :=
  let out := prependOnes bytes (prependLetters (collect bytes) [])
  if out.isEmpty then ['1'] else out

def unshiftBytes (n : ℕ) (bytes : List UInt8) : List UInt8 :=
  if n = 0 then bytes else unshiftBytes (n >>> 8) (UInt8.ofNat (n &&& 0xff) :: bytes)
termination_by n
decreasing_by
  rw [Nat.shiftRight_eq_div_pow]
  omega

def unshiftZeros : Text → List UInt8 → List UInt8
  | [], bytes => bytes
  | ch::s, bytes => if ch ≠ '1' then bytes else unshiftZeros s (0 :: bytes)

def base58Decode (s : Text) : Except JsError (List UInt8) := do
  let n ← s.foldlM (fun n ch => do
    let i ← okOr (alphabet.idxOf? ch) (.error ("not base58: " ++ String.ofList s))
    pure (n * 58 + i)) 0
  pure (unshiftZeros s (unshiftBytes n []))

/-! ### Letters -/

section Letters

theorem idxOf?_letter {d : ℕ} (hd : d < 58) : alphabet.idxOf? (letter d) = some d := by
  have hall : ∀ d : Fin 58, alphabet.idxOf? (letter d) = some d.val := by decide
  exact hall ⟨d, hd⟩

theorem letter_mem {d : ℕ} (hd : d < 58) : letter d ∈ alphabet := by
  have hall : ∀ d : Fin 58, letter d ∈ alphabet := by decide
  exact hall ⟨d, hd⟩

theorem letter_eq_one_iff {d : ℕ} (hd : d < 58) : letter d = '1' ↔ d = 0 := by
  have hall : ∀ d : Fin 58, letter d = '1' ↔ d.val = 0 := by decide
  exact hall ⟨d, hd⟩

theorem byte_lt (bytes : List UInt8) : ∀ d ∈ bytes.map UInt8.toNat, d < 256 := by
  intro d hd
  obtain ⟨b, -, rfl⟩ := List.mem_map.mp hd
  exact b.toNat_lt

theorem mem_alphabet_of_encode {bytes : List UInt8} : ∀ c ∈ encode bytes, c ∈ alphabet := by
  intro c hc
  obtain ⟨d, hd, rfl⟩ := List.mem_map.mp hc
  exact letter_mem (recode_lt (by decide) d hd)

end Letters

/-! ### Encoding -/

section Encoding
variable {bytes : List UInt8} {n : ℕ} {out : Text}

theorem collect_eq (bytes : List UInt8) : collect bytes = value 256 (bytes.map UInt8.toNat) := by
  induction bytes using List.reverseRecOn with
  | nil => rfl
  | append_singleton bytes b ih =>
    have hb := b.toNat_lt
    rw [List.map_append, List.map_singleton, value_append_singleton, ← ih]
    simp only [collect, List.foldl_append, List.foldl_cons, List.foldl_nil]
    rw [← Nat.shiftLeft_add_eq_or_of_lt hb, Nat.shiftLeft_eq]

theorem prependLetters_eq (n : ℕ) (out : Text) :
    prependLetters n out = (digits 58 n).map letter ++ out := by
  fun_induction prependLetters n out with
  | case1 out => simp [digits_zero]
  | case2 n out hn ih =>
    rw [ih, @digits_of_pos 58 n (by decide) hn, List.map_append, List.append_assoc]
    rfl

theorem prependOnes_eq (bytes : List UInt8) (out : Text) : prependOnes bytes out =
    List.replicate (leadingZeros (bytes.map UInt8.toNat)) '1' ++ out := by
  induction bytes generalizing out with
  | nil => rfl
  | cons b bytes ih =>
    by_cases hb : b = 0
    · have hzeros : leadingZeros ((b :: bytes).map UInt8.toNat) =
          leadingZeros (bytes.map UInt8.toNat) + 1 := by simp [leadingZeros, hb]
      rw [prependOnes, if_neg (not_not.mpr hb), ih, hzeros, List.replicate_succ', List.append_assoc]
      rfl
    · have hzeros : leadingZeros ((b :: bytes).map UInt8.toNat) = 0 := by
        have hne : b.toNat ≠ 0 := fun h => hb (UInt8.toNat_inj.mp h)
        simp [leadingZeros, hne]
      rw [prependOnes, if_pos hb, hzeros]
      rfl

theorem encode_ne_nil (hne : bytes ≠ []) : encode bytes ≠ [] := by
  rw [encode, ne_eq, List.map_eq_nil_iff]
  exact recode_ne_nil (by decide) (byte_lt bytes) (by simpa using hne)

theorem base58Encode_eq (hne : bytes ≠ []) : base58Encode bytes = encode bytes := by
  have hout : prependOnes bytes (prependLetters (collect bytes) []) = encode bytes := by
    rw [prependOnes_eq, prependLetters_eq, collect_eq, List.append_nil, encode, recode,
      List.map_append, List.map_replicate]
    rfl
  unfold base58Encode
  rw [hout]
  simp [encode_ne_nil hne]

end Encoding

/-! ### Decoding -/

section Decoding

theorem unshiftBytes_eq (n : ℕ) (bytes : List UInt8) :
    unshiftBytes n bytes = (digits 256 n).map UInt8.ofNat ++ bytes := by
  fun_induction unshiftBytes n bytes with
  | case1 bytes => simp [digits_zero]
  | case2 n bytes hn ih =>
    have hmod : n &&& 0xff = n % 256 := Nat.and_two_pow_sub_one_eq_mod n 8
    rw [ih, @digits_of_pos 256 n (by decide) hn, List.map_append, List.append_assoc, hmod,
      Nat.shiftRight_eq_div_pow]
    rfl

theorem unshiftZeros_eq {ds : List ℕ} (hds : ∀ d ∈ ds, d < 58) (bytes : List UInt8) :
    unshiftZeros (ds.map letter) bytes = List.replicate (leadingZeros ds) 0 ++ bytes := by
  induction ds generalizing bytes with
  | nil => rfl
  | cons d ds ih =>
    have hone := letter_eq_one_iff (hds d List.mem_cons_self)
    by_cases hd : d = 0
    · have hzeros : leadingZeros (d :: ds) = leadingZeros ds + 1 := by simp [leadingZeros, hd]
      rw [List.map_cons, unshiftZeros, if_neg (not_not.mpr (hone.mpr hd)),
        ih fun x hx => hds x (List.mem_cons_of_mem _ hx), hzeros, List.replicate_succ',
        List.append_assoc]
      rfl
    · have hzeros : leadingZeros (d :: ds) = 0 := by simp [leadingZeros, hd]
      rw [List.map_cons, unshiftZeros, if_pos (mt hone.mp hd), hzeros]
      rfl

theorem foldlM_letters {ds : List ℕ} (hds : ∀ d ∈ ds, d < 58) (e : JsError) (n : ℕ) :
    (ds.map letter).foldlM (fun n ch => do
      let i ← okOr (alphabet.idxOf? ch) e
      pure (n * 58 + i)) n = Except.ok (ds.foldl (fun n d => n * 58 + d) n) := by
  induction ds generalizing n with
  | nil => rfl
  | cons d ds ih =>
    rw [List.map_cons, List.foldlM_cons, idxOf?_letter (hds d List.mem_cons_self)]
    exact ih (fun x hx => hds x (List.mem_cons_of_mem _ hx)) _

theorem base58Decode_encode (bytes : List UInt8) : base58Decode (encode bytes) = .ok bytes := by
  have hds : ∀ d ∈ recode 256 58 (bytes.map UInt8.toNat), d < 58 := recode_lt (by decide)
  have hback : (recode 58 256 (recode 256 58 (bytes.map UInt8.toNat))).map UInt8.ofNat = bytes := by
    rw [recode_recode (by decide) (byte_lt bytes), List.map_map]
    simp [Function.comp_def]
  rw [base58Decode, encode, foldlM_letters hds, ok_bind, unshiftZeros_eq hds, unshiftBytes_eq,
    List.append_nil]
  rw [recode, List.map_append, List.map_replicate] at hback
  exact congrArg Except.ok hback

theorem letters_of_foldlM {e : JsError} {s : Text} {n m : ℕ}
    (h : s.foldlM (fun n ch => do
      let i ← okOr (alphabet.idxOf? ch) e
      pure (n * 58 + i)) n = Except.ok m) :
    ∃ ds : List ℕ, (∀ d ∈ ds, d < 58) ∧ s = ds.map letter := by
  induction s generalizing n with
  | nil => exact ⟨[], fun d hd => absurd hd List.not_mem_nil, rfl⟩
  | cons ch s ih =>
    rw [List.foldlM_cons] at h
    simp only [bind_eq_ok, okOr_eq_ok, pure_eq_ok] at h
    obtain ⟨_, ⟨i, hi, -⟩, hs⟩ := h
    obtain ⟨ds, hds, rfl⟩ := ih hs
    have hfound := List.idxOf?_eq_some_iff.mp hi
    obtain ⟨hlt, hget, -⟩ := hfound
    refine ⟨i :: ds, ?_, ?_⟩
    · intro d hd
      rcases List.mem_cons.mp hd with rfl | hd
      · exact hlt
      · exact hds d hd
    · have hletter : letter i = ch := by simpa [letter, hlt] using hget
      rw [List.map_cons, hletter]

/-- The standard writes any letters, as the encoding of the bytes they stand for. -/
theorem encode_recode {ds : List ℕ} (hds : ∀ d ∈ ds, d < 58) :
    encode ((recode 58 256 ds).map UInt8.ofNat) = ds.map letter := by
  have hbyte : ∀ d ∈ recode 58 256 ds, (UInt8.toNat ∘ UInt8.ofNat) d = id d := fun d hd =>
    UInt8.toNat_ofNat_of_lt' (recode_lt (by decide) d hd)
  rw [encode, List.map_map, List.map_congr_left hbyte, List.map_id,
    recode_recode (by decide) hds]

/-- The decoder reads nothing but the standard, so a string stands for its bytes. -/
theorem base58Decode_eq_ok {s : Text} {bytes : List UInt8} :
    base58Decode s = .ok bytes ↔ s = encode bytes := by
  constructor
  · intro h
    have hn := h
    simp only [base58Decode, bind_eq_ok, pure_eq_ok] at hn
    obtain ⟨n, hn, -⟩ := hn
    obtain ⟨ds, hds, rfl⟩ := letters_of_foldlM hn
    rw [base58Decode, foldlM_letters hds, ok_bind, unshiftZeros_eq hds, unshiftBytes_eq,
      List.append_nil] at h
    have hbytes : bytes = (recode 58 256 ds).map UInt8.ofNat := by
      rw [recode, List.map_append, List.map_replicate]
      exact (Except.ok.inj h).symm
    rw [hbytes, encode_recode hds]
  · rintro rfl
    exact base58Decode_encode bytes

end Decoding

/-! ### A bijection -/

section Bijection
variable {s : Text} {e : JsError}

theorem letters_of_alphabet (h : ∀ c ∈ s, c ∈ alphabet) :
    ∃ ds : List ℕ, (∀ d ∈ ds, d < 58) ∧ s = ds.map letter := by
  induction s with
  | nil => exact ⟨[], fun d hd => absurd hd List.not_mem_nil, rfl⟩
  | cons c s ih =>
    obtain ⟨ds, hds, rfl⟩ := ih fun x hx => h x (List.mem_cons_of_mem _ hx)
    obtain ⟨i, hi, hc⟩ := List.mem_iff_getElem.mp (h c List.mem_cons_self)
    refine ⟨i :: ds, List.forall_mem_cons.mpr ⟨hi, hds⟩, ?_⟩
    have hletter : letter i = c := by
      rw [← hc]
      simp [letter, hi]
    rw [List.map_cons, hletter]

/-- One character outside the alphabet stops the reader, wherever it stands. -/
theorem foldlM_outside (h : ∃ c ∈ s, c ∉ alphabet) (n : ℕ) :
    (s.foldlM (fun n ch => do
      let i ← okOr (alphabet.idxOf? ch) e
      pure (n * 58 + i)) n : Except JsError ℕ) = .error e := by
  induction s generalizing n with
  | nil => simp at h
  | cons ch s ih =>
    rw [List.foldlM_cons]
    rcases hi : alphabet.idxOf? ch with _ | i
    · rfl
    · obtain ⟨c, hc, hout⟩ := h
      have hch : ch ∈ alphabet := by
        obtain ⟨hlt, hget, -⟩ := List.idxOf?_eq_some_iff.mp hi
        have hin := List.getElem_mem hlt
        rwa [hget] at hin
      rcases List.mem_cons.mp hc with rfl | hc
      · exact absurd hch hout
      · exact ih ⟨c, hc, hout⟩ _

end Bijection

/-- Bytes and strings over the alphabet, both not empty, stand for each other one to one,
leading zeros and leading ones included, and no other string is read. -/
theorem base58_bijective :
    (∀ bytes, bytes ≠ [] → base58Decode (base58Encode bytes) = .ok bytes ∧
      base58Encode bytes ≠ [] ∧ ∀ c ∈ base58Encode bytes, c ∈ alphabet) ∧
    (∀ s, s ≠ [] → (∀ c ∈ s, c ∈ alphabet) →
      ∃ bytes, bytes ≠ [] ∧ base58Decode s = .ok bytes ∧ base58Encode bytes = s) ∧
    ∀ s, (∃ c ∈ s, c ∉ alphabet) →
      base58Decode s = .error (.error ("not base58: " ++ String.ofList s)) := by
  refine ⟨fun bytes hne => ?_, fun s hne hs => ?_, fun s hout => ?_⟩
  · rw [base58Encode_eq hne]
    exact ⟨base58Decode_encode bytes, encode_ne_nil hne, mem_alphabet_of_encode⟩
  · obtain ⟨ds, hds, rfl⟩ := letters_of_alphabet hs
    have hback := encode_recode hds
    have hbytes : (recode 58 256 ds).map UInt8.ofNat ≠ [] := by
      intro h
      rw [h] at hback
      exact hne (hback.symm.trans rfl)
    exact ⟨_, hbytes, base58Decode_eq_ok.mpr hback.symm, (base58Encode_eq hbytes).trans hback⟩
  · rw [base58Decode, foldlM_outside hout]
    rfl

/-- Two zero bytes and a nine, three ones, and a zero that is no letter. -/
theorem base58_bijective_zeros :
    base58Decode (base58Encode [0, 0, 9]) = .ok [0, 0, 9] ∧
    (∃ bytes, bytes ≠ [] ∧ base58Decode ['1', '1', '1'] = .ok bytes ∧
      base58Encode bytes = ['1', '1', '1']) ∧
    base58Decode ['1', '0'] = .error (.error ("not base58: " ++ String.ofList ['1', '0'])) :=
  have h := base58_bijective
  ⟨(h.1 [0, 0, 9] nofun).1, h.2.1 ['1', '1', '1'] nofun (by simp [alphabet]),
    h.2.2 ['1', '0'] ⟨'0', by decide, by decide⟩⟩

end AgentPay.Base58
