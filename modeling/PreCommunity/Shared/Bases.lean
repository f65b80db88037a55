import Mathlib.Data.List.GetD
import Mathlib.Data.List.Nodup
import PreCommunity.Text.Positional

/-!
# The texts of byte strings

`decodeBase58` reads a number and writes its bytes; `decodeBase32` shifts five bits of a character
at a time into a buffer and takes a byte out as soon as there is one.  The encoders are the
functions that the multibase names stand for.

* `decodeBase58`, `encodeBase58` : each undoes the other.
* `decodeBase32`, `encodeBase32` : decoding undoes encoding, and a text is the encoding of its bytes
  unless it has a character more than they need.
-/

namespace PreCommunity

namespace Shared

open Positional

/-- A byte string. -/
abbrev Bytes := List UInt8

/-- `Uint8Array.from`. -/
def toBytes (output : List ℕ) : Bytes := output.map UInt8.ofNat

/-- The bytes as numbers. -/
def ofBytes (bytes : Bytes) : List ℕ := bytes.map UInt8.toNat

theorem ofBytes_lt {bytes : Bytes} : ∀ b ∈ ofBytes bytes, b < 256 := by
  intro b hb
  obtain ⟨a, -, rfl⟩ := List.mem_map.1 hb
  exact a.toNat_lt

@[simp] theorem toBytes_ofBytes (bytes : Bytes) : toBytes (ofBytes bytes) = bytes := by
  rw [toBytes, ofBytes, List.map_map]
  conv_rhs => rw [← List.map_id bytes]
  exact List.map_congr_left fun a _ => UInt8.ofNat_toNat

theorem ofBytes_toBytes {output : List ℕ} (h : ∀ b ∈ output, b < 256) :
    ofBytes (toBytes output) = output := by
  rw [ofBytes, toBytes, List.map_map]
  conv_rhs => rw [← List.map_id output]
  refine List.map_congr_left fun b hb => ?_
  simp [Nat.mod_eq_of_lt (h b hb)]

/-! ### Alphabets -/

/-- The digits of a text; `none` if a character is not in the alphabet. -/
def readDigits (alphabet : List Char) : List Char → Option (List ℕ)
  | [] => some []
  | c :: text => (alphabet.idxOf? c).bind fun digit =>
      (readDigits alphabet text).map (digit :: ·)

/-- The text of digits. -/
def writeDigits (alphabet : List Char) (digits : List ℕ) : List Char :=
  digits.map fun digit => alphabet.getD digit ' '

section

variable {alphabet : List Char} {text : List Char} {digits : List ℕ}

theorem getD_of_idxOf? {c : Char} {digit : ℕ} (h : alphabet.idxOf? c = some digit) :
    digit < alphabet.length ∧ alphabet.getD digit ' ' = c := by
  obtain ⟨hlt, hget, -⟩ := List.findIdx?_eq_some_iff_getElem.1 h
  refine ⟨hlt, ?_⟩
  rw [List.getD_eq_getElem _ _ hlt]
  simpa using hget

theorem idxOf?_getD (hnodup : alphabet.Nodup) {digit : ℕ} (h : digit < alphabet.length) :
    alphabet.idxOf? (alphabet.getD digit ' ') = some digit := by
  rw [List.getD_eq_getElem _ _ h]
  refine List.findIdx?_eq_some_iff_getElem.2 ⟨h, by simp, fun j hj => ?_⟩
  simp only [beq_iff_eq]
  intro he
  have := (List.Nodup.getElem_inj_iff hnodup).1 he
  omega

/-- The digits of a text, and their text. -/
theorem readDigits_iff (hnodup : alphabet.Nodup) : readDigits alphabet text = some digits ↔
    (∀ d ∈ digits, d < alphabet.length) ∧ writeDigits alphabet digits = text := by
  induction text generalizing digits with
  | nil => cases digits <;> simp [readDigits, writeDigits]
  | cons c text ih =>
    simp only [readDigits, Option.bind_eq_some_iff, Option.map_eq_some_iff]
    constructor
    · rintro ⟨d, hd, ds, hds, rfl⟩
      obtain ⟨hlt, hget⟩ := getD_of_idxOf? hd
      obtain ⟨hall, hwrite⟩ := ih.1 hds
      refine ⟨fun x hx => ?_, ?_⟩
      · rcases List.mem_cons.1 hx with rfl | hx
        · exact hlt
        · exact hall x hx
      · change alphabet.getD d ' ' :: writeDigits alphabet ds = _
        rw [hget, hwrite]
    · cases digits with
      | nil => simp [writeDigits]
      | cons d ds =>
        rintro ⟨hall, hwrite⟩
        obtain ⟨hget, hwrite⟩ := List.cons.inj hwrite
        refine ⟨d, ?_, ds, ih.2 ⟨fun x hx => hall x (List.mem_cons_of_mem d hx), hwrite⟩, rfl⟩
        rw [← hget]
        exact idxOf?_getD hnodup (hall d List.mem_cons_self)

theorem length_writeDigits : (writeDigits alphabet digits).length = digits.length := by
  simp [writeDigits]

end

/-! ### Base 58 -/

/-- The alphabet of `decodeBase58`. -/
def base58Alphabet : List Char :=
  "123456789ABCDEFGHJKLMNPQRSTUVWXYZabcdefghijkmnopqrstuvwxyz".toList

/-- `decodeBase58`. -/
def decodeBase58 (value : List Char) : Option Bytes :=
  (readDigits base58Alphabet value).map fun digits =>
    let number := digits.foldl (fun number digit => number * 58 + digit) 0
    toBytes ((value.takeWhile (· = '1')).map (fun _ => 0) ++ (Nat.digits 256 number).reverse)

/-- The text of a byte string in base 58: a character `1` for every zero in front, and the digits of
the number of the bytes. -/
def encodeBase58 (bytes : Bytes) : List Char :=
  (bytes.takeWhile (· = 0)).map (fun _ => '1') ++
    writeDigits base58Alphabet (Nat.digits 58 (ofDigits 256 (ofBytes bytes))).reverse

theorem base58Alphabet_nodup : base58Alphabet.Nodup := by decide

theorem base58Alphabet_length : base58Alphabet.length = 58 := by decide

theorem base58_getD {digit : ℕ} (h : digit < 58) :
    base58Alphabet.getD digit ' ' = '1' ↔ digit = 0 := by
  revert digit
  decide

/-- The characters `1` in front are the zeros in front. -/
theorem takeWhile_writeDigits {digits : List ℕ} (h : ∀ d ∈ digits, d < 58) :
    (writeDigits base58Alphabet digits).takeWhile (· = '1') =
      writeDigits base58Alphabet (digits.takeWhile (· = 0)) := by
  induction digits with
  | nil => rfl
  | cons d digits ih =>
    have hd := base58_getD (h d List.mem_cons_self)
    have ih := ih fun x hx => h x (List.mem_cons_of_mem d hx)
    unfold writeDigits at ih ⊢
    by_cases h0 : d = 0
    · rw [List.map_cons, List.takeWhile_cons_of_pos (by simpa using hd.2 h0), ih,
        List.takeWhile_cons_of_pos (by simpa using h0), List.map_cons]
    · rw [List.map_cons, List.takeWhile_cons_of_neg (by simpa using fun h => h0 (hd.1 h)),
        List.takeWhile_cons_of_neg (by simpa using h0), List.map_nil]

/-- `decodeBase58` changes the base of the digits. -/
theorem decodeBase58_eq (value : List Char) : decodeBase58 value =
    (readDigits base58Alphabet value).map fun digits => toBytes (rebase 58 256 digits) := by
  unfold decodeBase58
  cases hread : readDigits base58Alphabet value with
  | none => rfl
  | some digits =>
    obtain ⟨hlt, rfl⟩ := (readDigits_iff base58Alphabet_nodup).1 hread
    rw [base58Alphabet_length] at hlt
    simp only [Option.map_some, Option.some.injEq]
    rw [takeWhile_writeDigits hlt, rebase, takeWhile_zero_eq, writeDigits, List.map_map]
    congr 2
    simp

/-- `encodeBase58` changes the base of the bytes. -/
theorem encodeBase58_eq (bytes : Bytes) :
    encodeBase58 bytes = writeDigits base58Alphabet (rebase 256 58 (ofBytes bytes)) := by
  have hzeros : (bytes.takeWhile (· = 0)).map (fun _ => '1') =
      writeDigits base58Alphabet ((ofBytes bytes).takeWhile (· = 0)) := by
    induction bytes with
    | nil => rfl
    | cons a bytes ih =>
      by_cases ha : a = 0
      · subst ha
        simp only [ofBytes, List.map_cons, writeDigits] at ih ⊢
        rw [List.takeWhile_cons_of_pos (by decide), List.takeWhile_cons_of_pos (by decide),
          List.map_cons, List.map_cons, ih]
        rfl
      · have hn : a.toNat ≠ 0 := fun h => ha (UInt8.toNat_inj.1 h)
        simp only [ofBytes, List.map_cons]
        rw [List.takeWhile_cons_of_neg (by simpa using ha),
          List.takeWhile_cons_of_neg (by simpa using hn)]
        rfl
  rw [encodeBase58, hzeros, rebase, writeDigits, writeDigits, writeDigits, List.map_append]

/-- **Decoding undoes encoding.** -/
theorem decodeBase58_encodeBase58 (bytes : Bytes) :
    decodeBase58 (encodeBase58 bytes) = some bytes := by
  have hread : readDigits base58Alphabet (encodeBase58 bytes) =
      some (rebase 256 58 (ofBytes bytes)) := by
    refine (readDigits_iff base58Alphabet_nodup).2 ⟨?_, (encodeBase58_eq bytes).symm⟩
    rw [base58Alphabet_length]
    exact rebase_lt (by decide)
  rw [decodeBase58_eq, hread, Option.map_some, rebase_rebase (by decide) ofBytes_lt,
    toBytes_ofBytes]

/-- **Encoding undoes decoding.** -/
theorem encodeBase58_of_decode {value : List Char} {bytes : Bytes}
    (h : decodeBase58 value = some bytes) : encodeBase58 bytes = value := by
  rw [decodeBase58_eq] at h
  obtain ⟨digits, hread, rfl⟩ := Option.map_eq_some_iff.1 h
  obtain ⟨hlt, hwrite⟩ := (readDigits_iff base58Alphabet_nodup).1 hread
  rw [base58Alphabet_length] at hlt
  rw [encodeBase58_eq, ofBytes_toBytes (rebase_lt (by decide)), rebase_rebase (by decide) hlt,
    hwrite]

/-! ### Base 32 -/

/-- The alphabet of `decodeBase32`. -/
def base32Alphabet : List Char := "abcdefghijklmnopqrstuvwxyz234567".toList

/-- The variables of the loop of `decodeBase32`. -/
structure Base32State where
  output : List ℕ
  buffer : ℕ
  bits : ℕ
deriving DecidableEq, Repr

/-- One round of the loop: five more bits, and a byte as soon as there is one. -/
def Base32State.push (s : Base32State) (digit : ℕ) : Base32State :=
  let buffer := (s.buffer <<< 5) ||| digit
  let bits := s.bits + 5
  if 8 ≤ bits then
    let bits := bits - 8
    { output := s.output ++ [(buffer >>> bits) &&& 0xff]
      buffer := buffer &&& ((1 <<< bits) - 1)
      bits := bits }
  else { s with buffer := buffer, bits := bits }

/-- The loop of `decodeBase32`. -/
def decodeBase32Loop : Base32State → List Char → Option Base32State
  | s, [] => some s
  | s, c :: value =>
    match base32Alphabet.idxOf? c with
    | none => none
    | some digit => decodeBase32Loop (s.push digit) value

/-- `decodeBase32`. -/
def decodeBase32 (value : List Char) : Option Bytes :=
  (decodeBase32Loop ⟨[], 0, 0⟩ value).bind fun s =>
    if 0 < s.bits ∧ s.buffer ≠ 0 then none else some (toBytes s.output)

/-- How many characters of five bits the bytes need. -/
def base32Length (bytes : Bytes) : ℕ := (8 * bytes.length + 4) / 5

/-- The text of a byte string in base 32, without padding characters: its bits in groups of five, of
which the last is filled up with zeros. -/
def encodeBase32 (bytes : Bytes) : List Char :=
  writeDigits base32Alphabet (toDigits 32 (base32Length bytes)
    (ofDigits 256 (ofBytes bytes) * 2 ^ (5 * base32Length bytes - 8 * bytes.length)))

theorem base32Alphabet_nodup : base32Alphabet.Nodup := by decide

theorem base32Alphabet_length : base32Alphabet.length = 32 := by decide

/-- What the variables say about the digits that were read: the bytes and the bits in the buffer
make up their number. -/
structure Base32State.Reads (s : Base32State) (digits : List ℕ) : Prop where
  bits : s.bits < 8
  buffer : s.buffer < 2 ^ s.bits
  output : ∀ b ∈ s.output, b < 256
  number : ofDigits 32 digits = ofDigits 256 s.output * 2 ^ s.bits + s.buffer
  length : 5 * digits.length = 8 * s.output.length + s.bits

/-- The round of the loop in numbers. -/
theorem Base32State.push_eq (s : Base32State) {digit : ℕ} (hdigit : digit < 32) :
    s.push digit =
      if 3 ≤ s.bits then
        ⟨s.output ++ [(s.buffer * 32 + digit) / 2 ^ (s.bits - 3) % 256],
          (s.buffer * 32 + digit) % 2 ^ (s.bits - 3), s.bits - 3⟩
      else ⟨s.output, s.buffer * 32 + digit, s.bits + 5⟩ := by
  have hbuffer : (s.buffer <<< 5) ||| digit = s.buffer * 32 + digit := by
    rw [← Nat.shiftLeft_add_eq_or_of_lt (i := 5) hdigit, Nat.shiftLeft_eq]
  have hbyte : ∀ n, n &&& 0xff = n % 256 := fun n => Nat.and_two_pow_sub_one_eq_mod n 8
  have hmask : ∀ n k, n &&& ((1 <<< k) - 1) = n % 2 ^ k := by
    intro n k
    rw [Nat.shiftLeft_eq, Nat.one_mul, Nat.and_two_pow_sub_one_eq_mod]
  unfold push
  simp only [hbuffer, hbyte, hmask, Nat.shiftRight_eq_div_pow,
    show s.bits + 5 - 8 = s.bits - 3 by omega, show (8 ≤ s.bits + 5) = (3 ≤ s.bits) by simp]

/-- **A round of the loop.** -/
theorem Base32State.Reads.push {s : Base32State} {digits : List ℕ} (h : s.Reads digits)
    {digit : ℕ} (hdigit : digit < 32) : (s.push digit).Reads (digits ++ [digit]) := by
  have hnumber : ofDigits 32 (digits ++ [digit]) =
      ofDigits 256 s.output * 2 ^ (s.bits + 5) + (s.buffer * 32 + digit) := by
    rw [ofDigits_concat, h.number, pow_add]
    ring
  have hlt : s.buffer * 32 + digit < 2 ^ (s.bits + 5) := by
    have := h.buffer
    rw [pow_add]
    omega
  have hbits := h.bits
  have hlength := h.length
  rw [push_eq s hdigit]
  split_ifs with hfull
  · have hsplit : s.bits + 5 = 8 + (s.bits - 3) := by omega
    rw [hsplit] at hnumber hlt
    have hpos : 0 < 2 ^ (s.bits - 3) := Nat.two_pow_pos _
    have hbyte : (s.buffer * 32 + digit) / 2 ^ (s.bits - 3) < 256 := by
      rw [Nat.div_lt_iff_lt_mul hpos]
      rwa [pow_add] at hlt
    constructor
    · show s.bits - 3 < 8
      omega
    · exact Nat.mod_lt _ hpos
    · intro b hb
      rcases List.mem_append.1 hb with hb | hb
      · exact h.output b hb
      · rw [List.mem_singleton.1 hb]
        exact Nat.mod_lt _ (by decide)
    · rw [hnumber, ofDigits_concat, Nat.mod_eq_of_lt hbyte, pow_add, Nat.add_mul, Nat.add_assoc,
        Nat.mul_comm ((s.buffer * 32 + digit) / _), Nat.div_add_mod]
      ring
    · simp only [List.length_append, List.length_singleton]
      omega
  · constructor
    · show s.bits + 5 < 8
      omega
    · exact hlt
    · exact h.output
    · exact hnumber
    · simp only [List.length_append, List.length_singleton]
      omega

/-- The loop reads the digits. -/
theorem decodeBase32Loop_iff {s s' : Base32State} {value : List Char} :
    decodeBase32Loop s value = some s' ↔
      ∃ digits, readDigits base32Alphabet value = some digits ∧
        digits.foldl Base32State.push s = s' := by
  induction value generalizing s with
  | nil => simp [decodeBase32Loop, readDigits]
  | cons c value ih =>
    unfold decodeBase32Loop readDigits
    cases hc : base32Alphabet.idxOf? c with
    | none => simp
    | some digit =>
      simp only [ih, Option.bind_some, Option.map_eq_some_iff]
      constructor
      · rintro ⟨digits, hread, hfold⟩
        exact ⟨digit :: digits, ⟨digits, hread, rfl⟩, hfold⟩
      · rintro ⟨_, ⟨digits, hread, rfl⟩, hfold⟩
        exact ⟨digits, hread, hfold⟩

/-- **The loop.** -/
theorem Base32State.reads_foldl {digits : List ℕ} (hlt : ∀ d ∈ digits, d < 32) :
    (digits.foldl push ⟨[], 0, 0⟩).Reads digits := by
  induction digits using List.reverseRecOn with
  | nil => exact ⟨by decide, by decide, by simp, rfl, rfl⟩
  | append_singleton digits d ih =>
    rw [List.foldl_append]
    exact (ih fun x hx => hlt x (by simp [hx])).push (hlt d (by simp))

/-- **What `decodeBase32` accepts**: digits whose number is that of the bytes, followed by fewer
than eight zero bits. -/
theorem decodeBase32_iff {value : List Char} {bytes : Bytes} :
    decodeBase32 value = some bytes ↔
      ∃ digits bits, readDigits base32Alphabet value = some digits ∧ bits < 8 ∧
        5 * digits.length = 8 * bytes.length + bits ∧
        ofDigits 32 digits = ofDigits 256 (ofBytes bytes) * 2 ^ bits := by
  unfold decodeBase32
  simp only [Option.bind_eq_some_iff, decodeBase32Loop_iff]
  constructor
  · rintro ⟨s, ⟨digits, hread, rfl⟩, haccept⟩
    have hlt := ((readDigits_iff base32Alphabet_nodup).1 hread).1
    rw [base32Alphabet_length] at hlt
    have hreads := Base32State.reads_foldl hlt
    split_ifs at haccept with hleft
    obtain rfl := Option.some.inj haccept
    have hbuffer : (digits.foldl Base32State.push ⟨[], 0, 0⟩).buffer = 0 := by
      by_contra hne
      refine hleft ⟨Nat.pos_of_ne_zero fun hbits => ?_, hne⟩
      have := hreads.buffer
      rw [hbits] at this
      omega
    refine ⟨digits, _, hread, hreads.bits, ?_, ?_⟩
    · rw [hreads.length]
      simp [toBytes]
    · rw [hreads.number, hbuffer, ofBytes_toBytes hreads.output, Nat.add_zero]
  · rintro ⟨digits, bits, hread, hbits, hlength, hnumber⟩
    have hlt := ((readDigits_iff base32Alphabet_nodup).1 hread).1
    rw [base32Alphabet_length] at hlt
    have hreads := Base32State.reads_foldl hlt
    obtain ⟨s, hs⟩ : ∃ s, digits.foldl Base32State.push ⟨[], 0, 0⟩ = s := ⟨_, rfl⟩
    rw [hs] at hreads
    have hreadsLength := hreads.length
    have hreadsBits := hreads.bits
    obtain ⟨hsame, rfl⟩ : s.output.length = bytes.length ∧ s.bits = bits := by omega
    have hpos : 0 < 2 ^ s.bits := Nat.two_pow_pos _
    have hbuffer : s.buffer = 0 := by
      have hmod := congrArg (· % 2 ^ s.bits) (hreads.number.symm.trans hnumber)
      simpa [Nat.mul_add_mod', Nat.mod_eq_of_lt hreads.buffer] using hmod
    have houtput : s.output = ofBytes bytes := by
      refine ofDigits_inj hreads.output ofBytes_lt (by simpa [ofBytes] using hsame) ?_
      have h := hreads.number.symm.trans hnumber
      rw [hbuffer, Nat.add_zero] at h
      exact Nat.eq_of_mul_eq_mul_right hpos h
    refine ⟨s, ⟨digits, hread, hs⟩, ?_⟩
    rw [if_neg (by simp [hbuffer]), houtput, toBytes_ofBytes]

/-- **Decoding undoes encoding.** -/
theorem decodeBase32_encodeBase32 (bytes : Bytes) :
    decodeBase32 (encodeBase32 bytes) = some bytes := by
  refine decodeBase32_iff.2 ⟨_, 5 * base32Length bytes - 8 * bytes.length,
    (readDigits_iff base32Alphabet_nodup).2 ⟨?_, rfl⟩, ?_, ?_, ?_⟩
  · rw [base32Alphabet_length]
    exact fun d hd => toDigits_lt (by decide) hd
  · unfold base32Length
    omega
  · rw [length_toDigits]
    unfold base32Length
    omega
  · rw [ofDigits_toDigits]
    refine Nat.mod_eq_of_lt ?_
    have hlt : ofDigits 256 (ofBytes bytes) < 256 ^ bytes.length := by
      have h : ofDigits 256 (ofBytes bytes) < 256 ^ (ofBytes bytes).length :=
        ofDigits_lt ofBytes_lt
      rwa [ofBytes, List.length_map] at h
    have hpow : 32 ^ base32Length bytes =
        256 ^ bytes.length * 2 ^ (5 * base32Length bytes - 8 * bytes.length) := by
      rw [show 32 = 2 ^ 5 by rfl, show 256 = 2 ^ 8 by rfl, ← pow_mul, ← pow_mul, ← pow_add]
      congr 1
      unfold base32Length
      omega
    rw [hpow]
    exact Nat.mul_lt_mul_of_pos_right hlt (Nat.two_pow_pos _)

/-- **A text is the encoding of its bytes** exactly when fewer than five bits are left over. -/
theorem encodeBase32_of_decode {value : List Char} {bytes : Bytes}
    (h : decodeBase32 value = some bytes) :
    encodeBase32 bytes = value ↔ 5 * value.length % 8 < 5 := by
  obtain ⟨digits, bits, hread, hbits, hlength, hnumber⟩ := decodeBase32_iff.1 h
  obtain ⟨hlt, rfl⟩ := (readDigits_iff base32Alphabet_nodup).1 hread
  rw [base32Alphabet_length] at hlt
  have hmod : 5 * digits.length % 8 = bits := by
    rw [hlength, Nat.mul_add_mod, Nat.mod_eq_of_lt hbits]
  rw [length_writeDigits, hmod]
  constructor
  · intro he
    have hlengths := congrArg List.length he
    rw [encodeBase32, length_writeDigits, length_writeDigits, length_toDigits, base32Length]
      at hlengths
    omega
  · intro hleft
    have hn : base32Length bytes = digits.length := by
      unfold base32Length
      omega
    have hk : 5 * digits.length - 8 * bytes.length = bits := by omega
    rw [encodeBase32, hn, hk, ← hnumber, toDigits_ofDigits hlt]

end Shared

end PreCommunity
