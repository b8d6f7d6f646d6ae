import AgentPay.PolicyRules
import Mathlib.Tactic.Ring

/-!
# Base64 as the gateway reads it

`base64_decode` of `routes.rs` with its word and its shifts. It drops white space and `=`
before it starts, takes the letters four at a time, and asks of the last group neither its
length nor that the bits it does not use are zero. A byte beyond ASCII is no letter, so
characters stand for the bytes here. It inverts the standard encoding, padded or not and
however it is broken up.
-/
namespace AgentPay.Base64
open PolicyRules

/-- `T`. -/
def alphabet : Text := ['A', 'B', 'C', 'D', 'E', 'F', 'G', 'H', 'I', 'J', 'K', 'L', 'M', 'N', 'O',
  'P', 'Q', 'R', 'S', 'T', 'U', 'V', 'W', 'X', 'Y', 'Z', 'a', 'b', 'c', 'd', 'e', 'f', 'g', 'h',
  'i', 'j', 'k', 'l', 'm', 'n', 'o', 'p', 'q', 'r', 's', 't', 'u', 'v', 'w', 'x', 'y', 'z', '0',
  '1', '2', '3', '4', '5', '6', '7', '8', '9', '+', '/']

def letter (v : ℕ) : Char := alphabet.getD v 'A'

/-! ### The standard encoding -/

def group (a b c : UInt8) : ℕ := a.toNat * 2 ^ 16 + b.toNat * 2 ^ 8 + c.toNat

/-- One of the four sixes of bits of a group, the highest first. -/
def sextet (n i : ℕ) : Char := letter (n / 2 ^ (18 - 6 * i) % 64)

/-- The missing bytes of the last group are zero, and each is made up by a pad. -/
def encodeWith (pad : Text) : List UInt8 → Text
  | [] => []
  | [a] => [sextet (group a 0 0) 0, sextet (group a 0 0) 1] ++ pad ++ pad
  | [a, b] => [sextet (group a b 0) 0, sextet (group a b 0) 1, sextet (group a b 0) 2] ++ pad
  | a::b::c::bytes => [sextet (group a b c) 0, sextet (group a b c) 1, sextet (group a b c) 2,
      sextet (group a b c) 3] ++ encodeWith pad bytes

def encode (bytes : List UInt8) : Text := encodeWith ['='] bytes
def encodeUnpadded (bytes : List UInt8) : Text := encodeWith [] bytes

/-! ### The gateway -/

def isAsciiWhitespace (c : Char) : Bool := c ∈ [' ', '\t', '\n', '\x0c', '\r']

/-- `chunks(4)`. -/
def chunks {α : Type} : List α → List (List α)
  | [] => []
  | [a] => [[a]]
  | [a, b] => [[a, b]]
  | [a, b, c] => [[a, b, c]]
  | a::b::c::d::rest => [a, b, c, d] :: chunks rest

/-- The word of a chunk, from its `i`-th letter on. -/
def buffer (i : ℕ) (buf : UInt32) : Text → Option UInt32
  | [] => some buf
  | c::chunk => do
    let v ← alphabet.idxOf? c
    buffer (i + 1) (buf ||| UInt32.ofNat v <<< UInt32.ofNat (18 - 6 * i)) chunk

def decodeChunk (chunk : Text) : Option (List UInt8) := do
  let buf ← buffer 0 0 chunk
  some ([(buf >>> 16).toUInt8] ++ (if 2 < chunk.length then [(buf >>> 8).toUInt8] else []) ++
    (if 3 < chunk.length then [buf.toUInt8] else []))

def base64Decode (s : Text) : Option (List UInt8) := do
  let clean := s.filter fun c => !isAsciiWhitespace c && c != '='
  let out ← (chunks clean).mapM decodeChunk
  some out.flatten

/-! ### Letters and words -/

section Letters

theorem idxOf?_letter {v : ℕ} (hv : v < 64) : alphabet.idxOf? (letter v) = some v := by
  have hall : ∀ v : Fin 64, alphabet.idxOf? (letter v) = some v.val := by decide
  exact hall ⟨v, hv⟩

theorem kept_sextet (n i : ℕ) :
    (!isAsciiWhitespace (sextet n i) && sextet n i != '=') = true := by
  have hall : ∀ v : Fin 64, (!isAsciiWhitespace (letter v) && letter v != '=') = true := by decide
  exact hall ⟨n / 2 ^ (18 - 6 * i) % 64, Nat.mod_lt _ (by decide)⟩

theorem idxOf?_sextet (n i : ℕ) :
    alphabet.idxOf? (sextet n i) = some (n / 2 ^ (18 - 6 * i) % 64) :=
  idxOf?_letter (Nat.mod_lt _ (by decide))

theorem or_sextet {buf : UInt32} {v k m : ℕ} (hk : k ≤ 18) (hv : v < 64)
    (hbuf : buf.toNat = m * 2 ^ (k + 6)) :
    (buf ||| UInt32.ofNat v <<< UInt32.ofNat k).toNat = buf.toNat + v * 2 ^ k := by
  have hpow : 2 ^ k ≤ 2 ^ 18 := Nat.pow_le_pow_right (by decide) hk
  have hv' : v * 2 ^ k < 2 ^ (k + 6) := by
    rw [pow_add, mul_comm]
    exact Nat.mul_lt_mul_of_pos_left hv (Nat.two_pow_pos k)
  have hfit : v * 2 ^ k < 2 ^ 32 :=
    hv'.trans_le (Nat.pow_le_pow_right (by decide) (by omega))
  have hshift : (UInt32.ofNat v <<< UInt32.ofNat k).toNat = v * 2 ^ k := by
    rw [UInt32.toNat_shiftLeft, UInt32.toNat_ofNat', UInt32.toNat_ofNat',
      Nat.mod_eq_of_lt (show v < 2 ^ 32 by omega), Nat.mod_eq_of_lt (show k < 2 ^ 32 by omega),
      Nat.mod_eq_of_lt (show k < 32 by omega), Nat.shiftLeft_eq, Nat.mod_eq_of_lt hfit]
  rw [UInt32.toNat_or, hshift, hbuf, ← Nat.shiftLeft_eq m, ← Nat.shiftLeft_add_eq_or_of_lt hv']

/-- The bits of a number down to a position are those down to the next and six more. -/
theorem div_mul_step (n k : ℕ) :
    n / 2 ^ (k + 6) * 2 ^ (k + 6) + n / 2 ^ k % 64 * 2 ^ k = n / 2 ^ k * 2 ^ k := by
  have hdiv : n / 2 ^ (k + 6) = n / 2 ^ k / 64 := by
    rw [pow_add, ← Nat.div_div_eq_div_mul]
    rfl
  calc n / 2 ^ (k + 6) * 2 ^ (k + 6) + n / 2 ^ k % 64 * 2 ^ k
      = (64 * (n / 2 ^ k / 64) + n / 2 ^ k % 64) * 2 ^ k := by
        rw [hdiv, pow_add]
        ring
    _ = n / 2 ^ k * 2 ^ k := by rw [Nat.div_add_mod]

/-- Letters up to the `j`-th put the bits above the rest of the group in the word. -/
theorem buffer_sextets {n : ℕ} (len : ℕ) {i : ℕ} {buf : UInt32} (hlen : i + len ≤ 4)
    (hbuf : buf.toNat = n / 2 ^ (24 - 6 * i) * 2 ^ (24 - 6 * i)) : ∃ word,
    buffer i buf ((List.range' i len).map (sextet n)) = some word ∧
      word.toNat = n / 2 ^ (24 - 6 * (i + len)) * 2 ^ (24 - 6 * (i + len)) := by
  induction len generalizing i buf with
  | zero => exact ⟨buf, rfl, hbuf⟩
  | succ len ih =>
    have hsix : 24 - 6 * i = 18 - 6 * i + 6 := by omega
    have hnext : 24 - 6 * (i + 1) = 18 - 6 * i := by omega
    rw [hsix] at hbuf
    have hword := @or_sextet buf (n / 2 ^ (18 - 6 * i) % 64) (18 - 6 * i) _ (by omega)
      (Nat.mod_lt _ (by decide)) hbuf
    rw [hbuf, div_mul_step, ← hnext] at hword
    obtain ⟨word, hb, hw⟩ := ih (by omega) hword
    refine ⟨word, ?_, ?_⟩
    · rw [List.range'_succ, List.map_cons, buffer, idxOf?_sextet]
      rw [hnext] at hb
      exact hb
    · rw [hw, Nat.add_assoc, Nat.add_comm 1 len]

end Letters

/-! ### Groups -/

section Groups

theorem toNat_group_lt (a b c : UInt8) : group a b c < 2 ^ 24 := by
  have ha := a.toNat_lt
  have hb := b.toNat_lt
  have hc := c.toNat_lt
  unfold group
  omega

/-- The bytes a word is cut into are those of its group. -/
theorem cut_word {word : UInt32} {a b c : UInt8} (hw : word.toNat = group a b c) :
    (word >>> 16).toUInt8 = a ∧ (word >>> 8).toUInt8 = b ∧ word.toUInt8 = c := by
  have ha := a.toNat_lt
  have hb := b.toNat_lt
  have hc := c.toNat_lt
  unfold group at hw
  have h16 : (16 : UInt32).toNat % 32 = 16 := rfl
  have h8 : (8 : UInt32).toNat % 32 = 8 := rfl
  simp only [← UInt8.toNat_inj, UInt32.toNat_toUInt8, UInt32.toNat_shiftRight, h16, h8,
    Nat.shiftRight_eq_div_pow, hw]
  omega

/-- The letters of a group give its number when the bits they leave out are zero. -/
theorem buffer_group {n len : ℕ} (hn : n < 2 ^ 24) (hlen : len ≤ 4)
    (hdvd : 2 ^ (24 - 6 * len) ∣ n) : ∃ word,
    buffer 0 0 ((List.range' 0 len).map (sextet n)) = some word ∧ word.toNat = n := by
  have hstart : (0 : UInt32).toNat = n / 2 ^ 24 * 2 ^ 24 := by
    rw [Nat.div_eq_of_lt hn]
    rfl
  obtain ⟨word, hb, hw⟩ := @buffer_sextets n len 0 0 (by omega) hstart
  rw [Nat.zero_add, Nat.div_mul_cancel hdvd] at hw
  exact ⟨word, hb, hw⟩

theorem decodeChunk_four (a b c : UInt8) :
    decodeChunk [sextet (group a b c) 0, sextet (group a b c) 1, sextet (group a b c) 2,
      sextet (group a b c) 3] = some [a, b, c] := by
  obtain ⟨word, hb, hw⟩ := @buffer_group (group a b c) 4 (toNat_group_lt a b c) le_rfl (one_dvd _)
  have hb' : buffer 0 0 [sextet (group a b c) 0, sextet (group a b c) 1, sextet (group a b c) 2,
      sextet (group a b c) 3] = some word := hb
  simp [decodeChunk, hb', cut_word hw]

theorem decodeChunk_three (a b : UInt8) :
    decodeChunk [sextet (group a b 0) 0, sextet (group a b 0) 1, sextet (group a b 0) 2] =
      some [a, b] := by
  have hdvd : 2 ^ 6 ∣ group a b 0 := ⟨a.toNat * 2 ^ 10 + b.toNat * 2 ^ 2, by simp [group]; ring⟩
  obtain ⟨word, hb, hw⟩ := @buffer_group (group a b 0) 3 (toNat_group_lt a b 0) (by decide) hdvd
  have hb' : buffer 0 0 [sextet (group a b 0) 0, sextet (group a b 0) 1,
      sextet (group a b 0) 2] = some word := hb
  simp [decodeChunk, hb', cut_word hw]

theorem decodeChunk_two (a : UInt8) :
    decodeChunk [sextet (group a 0 0) 0, sextet (group a 0 0) 1] = some [a] := by
  have hdvd : 2 ^ 12 ∣ group a 0 0 := ⟨a.toNat * 2 ^ 4, by simp [group]; ring⟩
  obtain ⟨word, hb, hw⟩ := @buffer_group (group a 0 0) 2 (toNat_group_lt a 0 0) (by decide) hdvd
  have hb' : buffer 0 0 [sextet (group a 0 0) 0, sextet (group a 0 0) 1] = some word := hb
  simp [decodeChunk, hb', cut_word hw]

theorem mapM_chunks (bytes : List UInt8) :
    ∃ out, (chunks (encodeUnpadded bytes)).mapM decodeChunk = some out ∧ out.flatten = bytes := by
  unfold encodeUnpadded
  fun_induction encodeWith [] bytes with
  | case1 => exact ⟨[], rfl, rfl⟩
  | case2 a => exact ⟨[[a]], by simp [chunks, decodeChunk_two], rfl⟩
  | case3 a b => exact ⟨[[a, b]], by simp [chunks, decodeChunk_three], rfl⟩
  | case4 a b c bytes ih =>
    obtain ⟨out, ho, hf⟩ := ih
    refine ⟨[a, b, c] :: out, ?_, by simp [hf]⟩
    simp only [List.cons_append, List.nil_append, chunks, List.mapM_cons, decodeChunk_four, ho]
    rfl

/-- Dropping the pads of an encoding leaves the one without. -/
theorem filter_encodeWith {pad : Text} (hpad : ∀ c ∈ pad, c = '=') (bytes : List UInt8) :
    (encodeWith pad bytes).filter (fun c => !isAsciiWhitespace c && c != '=') =
      encodeUnpadded bytes := by
  have hdrop : pad.filter (fun c => !isAsciiWhitespace c && c != '=') = [] := by
    rw [List.filter_eq_nil_iff]
    intro c hc
    simp [hpad c hc]
  unfold encodeUnpadded
  fun_induction encodeWith pad bytes with
  | case1 => rfl
  | case2 a => simp [encodeWith, kept_sextet, hdrop]
  | case3 a b => simp [encodeWith, kept_sextet, hdrop]
  | case4 a b c bytes ih => simp [encodeWith, kept_sextet, ih]

theorem base64Decode_of_clean {bytes : List UInt8} {s : Text}
    (hs : s.filter (fun c => !isAsciiWhitespace c && c != '=') = encodeUnpadded bytes) :
    base64Decode s = some bytes := by
  obtain ⟨out, ho, hf⟩ := mapM_chunks bytes
  simp [base64Decode, hs, ho, hf]

theorem base64Decode_encode (bytes : List UInt8) : base64Decode (encode bytes) = some bytes :=
  base64Decode_of_clean (filter_encodeWith (fun _ hc => List.mem_singleton.mp hc) bytes)

/-- However white space is strewn over an encoding, the bytes are read back. -/
theorem base64Decode_encodeWith {pad : Text} (hpad : ∀ c ∈ pad, c = '=') {bytes : List UInt8}
    {s : Text} (hs : s.filter (fun c => !isAsciiWhitespace c) = encodeWith pad bytes) :
    base64Decode s = some bytes := by
  apply base64Decode_of_clean
  rw [← filter_encodeWith hpad bytes, ← hs, List.filter_filter]
  congr 1
  funext c
  cases isAsciiWhitespace c <;> cases h : c != '=' <;> simp

end Groups

end AgentPay.Base64
