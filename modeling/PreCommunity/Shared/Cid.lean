import PreCommunity.Shared.Bases

/-!
# Content identifiers

A content identifier is the text of a byte string: a multihash in base 58, or a version, a codec and
a multihash in base 32, whose numbers are varints.  The validator decodes the text and checks the
bytes.

* `readVarint`, `encodeVarint` : the numbers in the bytes.
* `isStructurallyValidCid` : the validator.
* `IsCidV0`, `IsCidV1` : the byte strings that name content.
* `cid_validation` : what is accepted.
-/

namespace PreCommunity

namespace Shared

open Positional

/-! ### Numbers -/

/-- `Number.MAX_SAFE_INTEGER`. -/
def maxSafeInteger : ℕ := 2 ^ 53 - 1

/-- A number in the bytes, and the place after it. -/
structure Varint where
  value : ℕ
  next : ℕ
deriving DecidableEq, Repr

/-- The loop of `readVarint` over the bytes from `index` on. -/
def readVarintLoop (offset : ℕ) : Bytes → ℕ → ℕ → ℕ → Option Varint
  | [], _, _, _ => none
  | byte :: bytes, index, value, shift =>
    let value := value ||| ((byte.toNat &&& 0x7f) <<< shift)
    if byte.toNat &&& 0x80 = 0 then
      if offset < index ∧ byte = 0 then none
      else if maxSafeInteger < value then none
      else some ⟨value, index + 1⟩
    else readVarintLoop offset bytes (index + 1) value (shift + 7)

/-- `readVarint`: at most ten bytes are read. -/
def readVarint (bytes : Bytes) (offset : ℕ) : Option Varint :=
  readVarintLoop offset ((bytes.drop offset).take 10) offset 0 0

/-- The bytes of a number, seven bits at a time and the lowest first; all but the last are
marked. -/
def encodeVarint (n : ℕ) : Bytes :=
  if n < 128 then [UInt8.ofNat n] else UInt8.ofNat (n % 128 + 128) :: encodeVarint (n / 128)
termination_by n
decreasing_by omega

theorem encodeVarint_of_lt {n : ℕ} (h : n < 128) : encodeVarint n = [UInt8.ofNat n] := by
  rw [encodeVarint, if_pos h]

theorem encodeVarint_of_le {n : ℕ} (h : 128 ≤ n) :
    encodeVarint n = UInt8.ofNat (n % 128 + 128) :: encodeVarint (n / 128) := by
  rw [encodeVarint, if_neg (Nat.not_lt.2 h)]

theorem encodeVarint_length_le {n : ℕ} (k : ℕ) (h : n < 128 ^ (k + 1)) :
    (encodeVarint n).length ≤ k + 1 := by
  induction k generalizing n with
  | zero => rw [encodeVarint_of_lt (by simpa using h)]; simp
  | succ k ih =>
    by_cases hn : n < 128
    · rw [encodeVarint_of_lt hn]
      simp
    · rw [encodeVarint_of_le (Nat.not_lt.1 hn), List.length_cons]
      refine Nat.succ_le_succ (ih ?_)
      rwa [Nat.div_lt_iff_lt_mul (by decide), ← pow_succ]

/-- A marked byte. -/
theorem and_mark {b : ℕ} (h : b < 256) : (b &&& 0x80 = 0) ↔ b < 128 := by
  revert b
  decide +kernel

theorem or_shift {value shift b : ℕ} (h : value < 2 ^ shift) :
    value ||| ((b &&& 0x7f) <<< shift) = value + b % 128 * 2 ^ shift := by
  rw [show b &&& 0x7f = b % 128 from Nat.and_two_pow_sub_one_eq_mod b 7, Nat.or_comm,
    ← Nat.shiftLeft_add_eq_or_of_lt h, Nat.shiftLeft_eq, Nat.add_comm]

/-- A round of the loop in numbers. -/
theorem readVarintLoop_cons {offset : ℕ} {byte : UInt8} {bytes : Bytes} {index value shift : ℕ}
    (hvalue : value < 2 ^ shift) :
    readVarintLoop offset (byte :: bytes) index value shift =
      if byte.toNat < 128 then
        if offset < index ∧ byte = 0 then none
        else if maxSafeInteger < value + byte.toNat % 128 * 2 ^ shift then none
        else some ⟨value + byte.toNat % 128 * 2 ^ shift, index + 1⟩
      else
        readVarintLoop offset bytes (index + 1) (value + byte.toNat % 128 * 2 ^ shift)
          (shift + 7) := by
  rw [readVarintLoop]
  simp only [or_shift hvalue, and_mark byte.toNat_lt]

/-- A round adds seven bits. -/
theorem add_bits_lt {value shift : ℕ} (hvalue : value < 2 ^ shift) (b : ℕ) :
    value + b % 128 * 2 ^ shift < 2 ^ (shift + 7) := by
  have hmod : b % 128 + 1 ≤ 128 := Nat.mod_lt _ (by decide)
  calc value + b % 128 * 2 ^ shift < (b % 128 + 1) * 2 ^ shift := by
        rw [Nat.add_mul, Nat.one_mul, Nat.add_comm]
        exact Nat.add_lt_add_left hvalue _
    _ ≤ 128 * 2 ^ shift := Nat.mul_le_mul_right _ hmod
    _ = 2 ^ (shift + 7) := by
        rw [pow_add, Nat.mul_comm]
        rfl

/-- **What the loop reads** is an encoded number. -/
theorem encode_of_readVarintLoop {offset : ℕ} {bytes : Bytes} {index value shift : ℕ} {r : Varint}
    (hindex : offset ≤ index) (hvalue : value < 2 ^ shift)
    (h : readVarintLoop offset bytes index value shift = some r) :
    ∃ n rest, bytes = encodeVarint n ++ rest ∧ r.value = value + n * 2 ^ shift ∧
      r.next = index + (encodeVarint n).length ∧ r.value ≤ maxSafeInteger ∧
      (offset < index → n ≠ 0) := by
  induction bytes generalizing index value shift with
  | nil => cases h
  | cons byte bytes ih =>
    have hbyte := byte.toNat_lt
    rw [readVarintLoop_cons hvalue] at h
    split_ifs at h with hlast hzero hlarge
    · obtain rfl := Option.some.inj h
      rw [Nat.mod_eq_of_lt hlast] at hlarge ⊢
      refine ⟨byte.toNat, bytes, ?_, rfl, ?_, Nat.not_lt.1 hlarge, fun hlt he => hzero ⟨hlt, ?_⟩⟩
      · rw [encodeVarint_of_lt hlast, UInt8.ofNat_toNat]
        rfl
      · rw [encodeVarint_of_lt hlast]
        rfl
      · exact UInt8.toNat_inj.1 he
    · obtain ⟨n, rest, rfl, hr, hrnext, hmax, hne⟩ := ih (Nat.le_succ_of_le hindex)
        (add_bits_lt hvalue byte.toNat) h
      have hn : n ≠ 0 := hne (Nat.lt_succ_of_le hindex)
      have hencode : encodeVarint (byte.toNat % 128 + 128 * n) = byte :: encodeVarint n := by
        rw [encodeVarint_of_le (by omega), Nat.add_mul_mod_self_left,
          show (byte.toNat % 128 + 128 * n) / 128 = n by omega,
          show byte.toNat % 128 % 128 + 128 = byte.toNat by omega, UInt8.ofNat_toNat]
      refine ⟨byte.toNat % 128 + 128 * n, rest, ?_, ?_, ?_, hmax, fun _ => by omega⟩
      · rw [hencode]
        rfl
      · rw [hr, pow_add]
        ring
      · rw [hrnext, hencode, List.length_cons]
        omega

/-- **The loop reads** an encoded number. -/
theorem readVarintLoop_encode {offset n : ℕ} {rest : Bytes} {index value shift : ℕ}
    (hindex : offset ≤ index) (hvalue : value < 2 ^ shift) (hn : offset < index → n ≠ 0)
    (hmax : value + n * 2 ^ shift ≤ maxSafeInteger) :
    readVarintLoop offset (encodeVarint n ++ rest) index value shift =
      some ⟨value + n * 2 ^ shift, index + (encodeVarint n).length⟩ := by
  induction n using Nat.strongRecOn generalizing index value shift with
  | ind n ih =>
    by_cases hlast : n < 128
    · rw [encodeVarint_of_lt hlast]
      have hbyte : (UInt8.ofNat n).toNat = n := by
        simp [Nat.mod_eq_of_lt (Nat.lt_trans hlast (by decide : 128 < 256))]
      rw [List.singleton_append, readVarintLoop_cons hvalue, hbyte, if_pos hlast,
        Nat.mod_eq_of_lt hlast, if_neg, if_neg (Nat.not_lt.2 hmax)]
      · rfl
      · rintro ⟨hlt, hzero⟩
        refine hn hlt ?_
        rw [← hbyte, hzero]
        rfl
    · have hle : 128 ≤ n := Nat.not_lt.1 hlast
      rw [encodeVarint_of_le hle, List.cons_append]
      have hbyte : (UInt8.ofNat (n % 128 + 128)).toNat = n % 128 + 128 := by
        have : n % 128 + 128 < 256 := by omega
        simp [Nat.mod_eq_of_lt this]
      have hmod : (n % 128 + 128) % 128 = n % 128 := by omega
      have hsum : value + n % 128 * 2 ^ shift + n / 128 * 2 ^ (shift + 7) =
          value + n * 2 ^ shift := by
        conv_rhs => rw [← Nat.mod_add_div n 128]
        rw [pow_add]
        ring
      rw [readVarintLoop_cons hvalue, hbyte, if_neg (by omega), hmod,
        ih (n / 128) (by omega) (Nat.le_succ_of_le hindex) (add_bits_lt hvalue n)
          (fun _ => by omega) (by rwa [hsum]), hsum, List.length_cons]
      congr 2
      omega

/-- **`readVarint`** reads the encoded numbers up to `maxSafeInteger`. -/
theorem readVarint_iff {bytes : Bytes} {offset : ℕ} {r : Varint} :
    readVarint bytes offset = some r ↔
      r.value ≤ maxSafeInteger ∧ r.next = offset + (encodeVarint r.value).length ∧
        ∃ rest, bytes.drop offset = encodeVarint r.value ++ rest := by
  unfold readVarint
  constructor
  · intro h
    obtain ⟨n, rest, hbytes, hr, hnext, hmax, -⟩ :=
      encode_of_readVarintLoop (Nat.le_refl offset) (by decide) h
    obtain rfl : r.value = n := by simpa using hr
    refine ⟨hmax, hnext, rest ++ (bytes.drop offset).drop 10, ?_⟩
    rw [← List.append_assoc, ← hbytes, List.take_append_drop]
  · rintro ⟨hmax, hnext, rest, hbytes⟩
    have hlength : (encodeVarint r.value).length ≤ 10 := by
      refine encodeVarint_length_le 9 (Nat.lt_of_le_of_lt hmax ?_)
      decide
    rw [hbytes, List.take_append, List.take_of_length_le hlength,
      readVarintLoop_encode (Nat.le_refl offset) (by decide)
        (fun h => absurd h (Nat.lt_irrefl _)) (by simpa using hmax), ← hnext]
    simp

/-! ### The validator -/

/-- The text matches `/^Qm[1-9A-HJ-NP-Za-km-z]{44}$/`. -/
def isBase58Cid : List Char → Bool
  | 'Q' :: 'm' :: rest => rest.length = 44 && rest.all (· ∈ base58Alphabet)
  | _ => false

/-- The text matches `/^b[a-z2-7]+$/`. -/
def isBase32Cid : List Char → Bool
  | 'b' :: rest => rest ≠ [] && rest.all (· ∈ base32Alphabet)
  | _ => false

/-- The checks of a version, a codec and a multihash. -/
def isVersionOne (decoded : Bytes) : Bool :=
  (readVarint decoded 0).any fun version => version.value = 1 &&
    (readVarint decoded version.next).any fun codec => 1 ≤ codec.value &&
      (readVarint decoded codec.next).any fun hashCode => 1 ≤ hashCode.value &&
        (readVarint decoded hashCode.next).any fun digestLength =>
          0 < digestLength.value && digestLength.next + digestLength.value = decoded.length

/-- `isStructurallyValidCid`. -/
def isStructurallyValidCid (value : List Char) : Bool :=
  if isBase58Cid value then
    (decodeBase58 value).any fun decoded =>
      decoded.length = 34 && decoded[0]? = some 0x12 && decoded[1]? = some 0x20
  else if !isBase32Cid value then false
  else (decodeBase32 (value.drop 1)).any isVersionOne

/-- The bytes that a text names. -/
def contentBytes (value : List Char) : Option Bytes :=
  if isBase58Cid value then decodeBase58 value else decodeBase32 (value.drop 1)

/-- The text of the bytes that a text names, in the same base. -/
def reencoded (value : List Char) : Option (List Char) :=
  (contentBytes value).map fun bytes =>
    if isBase58Cid value then encodeBase58 bytes else 'b' :: encodeBase32 bytes

/-! ### Byte strings that name content -/

/-- A multihash of SHA-256. -/
def IsCidV0 (bytes : Bytes) : Prop :=
  ∃ digest : Bytes, digest.length = 32 ∧ bytes = 0x12 :: 0x20 :: digest

/-- A version, a codec and a multihash, whose numbers are varints of safe integers. -/
def IsCidV1 (bytes : Bytes) : Prop :=
  ∃ (codec hashCode : ℕ) (digest : Bytes),
    0 < codec ∧ codec ≤ maxSafeInteger ∧ 0 < hashCode ∧ hashCode ≤ maxSafeInteger ∧
    0 < digest.length ∧ digest.length ≤ maxSafeInteger ∧
    bytes = encodeVarint 1 ++ encodeVarint codec ++ encodeVarint hashCode ++
      encodeVarint digest.length ++ digest

theorem drop_append_length (l l' : Bytes) : (l ++ l').drop l.length = l' := by simp

/-- What is left after a part of the bytes. -/
theorem drop_of_drop_eq {bytes part rest : Bytes} {offset : ℕ}
    (h : bytes.drop offset = part ++ rest) : bytes.drop (offset + part.length) = rest := by
  rw [← List.drop_drop, h, drop_append_length]

/-- **The checks** accept exactly the byte strings of version one. -/
theorem isVersionOne_iff {bytes : Bytes} : isVersionOne bytes = true ↔ IsCidV1 bytes := by
  unfold isVersionOne
  simp only [Option.any_eq_true, Bool.and_eq_true, decide_eq_true_eq]
  constructor
  · rintro ⟨version, hversion, hone, codec, hcodec, hcpos, hashCode, hhash, hhpos, length, hlength,
      hlpos, hend⟩
    obtain ⟨-, hvnext, rest₁, hrest₁⟩ := readVarint_iff.1 hversion
    obtain ⟨hcmax, hcnext, rest₂, hrest₂⟩ := readVarint_iff.1 hcodec
    obtain ⟨hhmax, hhnext, rest₃, hrest₃⟩ := readVarint_iff.1 hhash
    obtain ⟨hlmax, hlnext, digest, hdigest⟩ := readVarint_iff.1 hlength
    have hdrop₁ := drop_of_drop_eq hrest₁
    rw [← hvnext, hrest₂] at hdrop₁
    have hdrop₂ := drop_of_drop_eq hrest₂
    rw [← hcnext, hrest₃] at hdrop₂
    have hdrop₃ := drop_of_drop_eq hrest₃
    rw [← hhnext, hdigest] at hdrop₃
    have hbytes : bytes = encodeVarint 1 ++ encodeVarint codec.value ++
        encodeVarint hashCode.value ++ encodeVarint length.value ++ digest := by
      rw [List.drop_zero, ← hdrop₁, ← hdrop₂, ← hdrop₃, hone] at hrest₁
      simpa only [List.append_assoc] using hrest₁
    have hdigestLength : digest.length = length.value := by
      have htotal := congrArg List.length hbytes
      simp only [List.length_append] at htotal
      rw [hone] at hvnext
      omega
    refine ⟨codec.value, hashCode.value, digest, hcpos, hcmax, hhpos, hhmax, ?_, ?_, ?_⟩
    · omega
    · omega
    · rw [hdigestLength]
      exact hbytes
  · rintro ⟨codec, hashCode, digest, hcpos, hcmax, hhpos, hhmax, hlpos, hlmax, rfl⟩
    have hone : 1 ≤ maxSafeInteger := by decide
    refine ⟨⟨1, (encodeVarint 1).length⟩, readVarint_iff.2 ⟨hone, by simp, ?_⟩, rfl,
      ⟨codec, (encodeVarint 1 ++ encodeVarint codec).length⟩,
      readVarint_iff.2 ⟨hcmax, by simp, ?_⟩, hcpos,
      ⟨hashCode, (encodeVarint 1 ++ encodeVarint codec ++ encodeVarint hashCode).length⟩,
      readVarint_iff.2 ⟨hhmax, by simp [Nat.add_assoc], ?_⟩, hhpos,
      ⟨digest.length, (encodeVarint 1 ++ encodeVarint codec ++ encodeVarint hashCode ++
        encodeVarint digest.length).length⟩,
      readVarint_iff.2 ⟨hlmax, by simp [Nat.add_assoc], ?_⟩, hlpos, by simp [Nat.add_assoc]⟩
    · refine ⟨encodeVarint codec ++ encodeVarint hashCode ++ encodeVarint digest.length ++ digest,
        ?_⟩
      simp only [List.drop_zero, List.append_assoc]
    · refine ⟨encodeVarint hashCode ++ encodeVarint digest.length ++ digest, ?_⟩
      simp only [List.append_assoc, drop_append_length]
    · refine ⟨encodeVarint digest.length ++ digest, ?_⟩
      rw [List.append_assoc, List.append_assoc _ _ (_ ++ digest), drop_append_length]
    · refine ⟨digest, ?_⟩
      rw [List.append_assoc _ _ digest, drop_append_length]

/-- **The checks of a multihash** in base 58. -/
theorem isCidV0_iff {bytes : Bytes} :
    (bytes.length = 34 && bytes[0]? = some 0x12 && bytes[1]? = some 0x20) = true ↔
      IsCidV0 bytes := by
  simp only [Bool.and_eq_true, decide_eq_true_eq]
  constructor
  · rintro ⟨⟨hlength, hfirst⟩, hsecond⟩
    obtain _ | ⟨a, _ | ⟨b, digest⟩⟩ := bytes
    · cases hlength
    · cases hsecond
    · simp only [List.getElem?_cons_zero, List.getElem?_cons_succ, Option.some.injEq]
        at hfirst hsecond
      subst hfirst hsecond
      exact ⟨digest, by simpa using hlength, rfl⟩
  · rintro ⟨digest, hlength, rfl⟩
    simp [hlength]

/-- The number of such a multihash has 46 digits in base 58, and begins with `Qm`. -/
theorem isBase58Cid_encode {bytes : Bytes} (h : IsCidV0 bytes) :
    isBase58Cid (encodeBase58 bytes) = true := by
  obtain ⟨digest, hlength, rfl⟩ := h
  have hdigest : ofDigits 256 (ofBytes digest) < 256 ^ 32 := by
    have hlt : ofDigits 256 (ofBytes digest) < 256 ^ (ofBytes digest).length :=
      ofDigits_lt ofBytes_lt
    rwa [ofBytes, List.length_map, hlength] at hlt
  obtain ⟨v, hv⟩ : ∃ v, ofDigits 256 (ofBytes (0x12 :: 0x20 :: digest)) = v := ⟨_, rfl⟩
  have hnumber : v = 0x1220 * 256 ^ 32 + ofDigits 256 (ofBytes digest) := by
    rw [← hv, show ofBytes (0x12 :: 0x20 :: digest) = [0x12, 0x20] ++ ofBytes digest from rfl,
      ofDigits_append, ofBytes, List.length_map, hlength]
    rfl
  have hlow : 1378 * 58 ^ 44 ≤ v := by
    rw [hnumber]
    exact Nat.le_trans (by decide) (Nat.le_add_right _ _)
  have hhigh : v < 1379 * 58 ^ 44 := by
    rw [hnumber]
    exact Nat.lt_of_lt_of_le (Nat.add_lt_add_left hdigest _) (by decide)
  have hdigits : (Nat.digits 58 v).length = 46 := by
    have hlog : Nat.log 58 v = 45 := by
      refine Nat.log_eq_of_pow_le_of_lt_pow (Nat.le_trans (by decide) hlow) ?_
      exact Nat.lt_of_lt_of_le hhigh (by decide)
    rw [Nat.length_digits 58 v (by decide) (by omega), hlog]
  have htop : v / 58 ^ 44 = 1378 :=
    Nat.div_eq_of_lt_le (by rwa [Nat.mul_comm] at hlow ⊢) (by rwa [Nat.mul_comm] at hhigh ⊢)
  have htext : encodeBase58 (0x12 :: 0x20 :: digest) =
      'Q' :: 'm' :: writeDigits base58Alphabet (toDigits 58 44 v) := by
    have hzeros : (ofBytes (0x12 :: 0x20 :: digest)).takeWhile (· = 0) = [] := rfl
    rw [encodeBase58_eq, rebase, hzeros, List.nil_append, hv, reverse_digits_eq (by decide),
      hdigits, show 46 = 2 + 44 from rfl, toDigits_add, htop, writeDigits, List.map_append]
    rfl
  rw [htext]
  simp only [isBase58Cid, length_writeDigits, length_toDigits, Bool.and_eq_true,
    decide_eq_true_eq, List.all_eq_true, true_and]
  intro c hc
  obtain ⟨d, hd, rfl⟩ := List.mem_map.1 hc
  have hlt : d < base58Alphabet.length := toDigits_lt (by decide) hd
  rw [List.getD_eq_getElem _ _ hlt]
  exact List.getElem_mem hlt

/-- The text of bytes of version one matches. -/
theorem isBase32Cid_encode {bytes : Bytes} (h : bytes ≠ []) :
    isBase32Cid ('b' :: encodeBase32 bytes) = true := by
  simp only [isBase32Cid, Bool.and_eq_true, decide_eq_true_eq, List.all_eq_true]
  constructor
  · intro hnil
    have hlength := congrArg List.length hnil
    rw [encodeBase32, length_writeDigits, length_toDigits, List.length_nil, base32Length]
      at hlength
    have := List.length_pos_of_ne_nil h
    omega
  · intro c hc
    obtain ⟨d, hd, rfl⟩ := List.mem_map.1 hc
    have hlt : d < base32Alphabet.length := toDigits_lt (by decide) hd
    rw [List.getD_eq_getElem _ _ hlt]
    exact List.getElem_mem hlt

theorem isBase58Cid_b (text : List Char) : isBase58Cid ('b' :: text) = false := rfl

/-! ### What is accepted -/

/-- The text has no character more than its bytes need. -/
def isCanonicalLength (value : List Char) : Prop :=
  isBase58Cid value = true ∨ 5 * (value.length - 1) % 8 < 5

/-- An accepted text names content. -/
theorem contentBytes_of_valid {value : List Char} (h : isStructurallyValidCid value = true) :
    ∃ bytes, contentBytes value = some bytes ∧
      (isBase58Cid value = true ∧ IsCidV0 bytes ∧ encodeBase58 bytes = value ∨
        isBase58Cid value = false ∧ IsCidV1 bytes ∧
          ∃ text, value = 'b' :: text ∧ decodeBase32 text = some bytes) := by
  unfold isStructurallyValidCid at h
  unfold contentBytes
  cases h58 : isBase58Cid value with
  | true =>
    rw [h58, if_pos rfl] at h
    obtain ⟨bytes, hdecode, hcheck⟩ := (Option.any_eq_true _ _).1 h
    rw [if_pos rfl]
    exact ⟨bytes, hdecode, .inl ⟨rfl, isCidV0_iff.1 hcheck, encodeBase58_of_decode hdecode⟩⟩
  | false =>
    rw [h58, if_neg (by decide)] at h
    rw [if_neg (by decide)]
    split_ifs at h with h32
    obtain ⟨bytes, hdecode, hcheck⟩ := (Option.any_eq_true _ _).1 h
    refine ⟨bytes, hdecode, .inr ⟨rfl, isVersionOne_iff.1 hcheck, value.drop 1, ?_, hdecode⟩⟩
    unfold isBase32Cid at h32
    split at h32
    · rfl
    · simp at h32

/-- The bytes of an accepted text have another text if it is one character too long. -/
theorem reencoded_iff {value : List Char} (h : isStructurallyValidCid value = true) :
    reencoded value = some value ↔ isCanonicalLength value := by
  obtain ⟨bytes, hcontent, ⟨h58, -, hencode⟩ | ⟨h58, -, text, rfl, hdecode⟩⟩ :=
    contentBytes_of_valid h
  · simp [reencoded, hcontent, isCanonicalLength, h58, hencode]
  · rw [reencoded, hcontent, Option.map_some, h58, if_neg (by decide), Option.some.injEq,
      List.cons.injEq, and_iff_right rfl, encodeBase32_of_decode hdecode, isCanonicalLength, h58]
    simp

/-- **Different texts name different content**, if none of them is a character too long. -/
theorem eq_of_contentBytes_eq {value value' : List Char}
    (h : isStructurallyValidCid value = true) (h' : isStructurallyValidCid value' = true)
    (hlength : isCanonicalLength value) (hlength' : isCanonicalLength value')
    (heq : contentBytes value = contentBytes value') : value = value' := by
  have hre := (reencoded_iff h).2 hlength
  have hre' := (reencoded_iff h').2 hlength'
  obtain ⟨bytes, hcontent, hkind⟩ := contentBytes_of_valid h
  obtain ⟨bytes', hcontent', hkind'⟩ := contentBytes_of_valid h'
  obtain rfl : bytes = bytes' := by
    rw [hcontent, hcontent'] at heq
    exact Option.some.inj heq
  -- The first byte of the content tells the base of its text.
  have hsame : isBase58Cid value = isBase58Cid value' := by
    have hdifferent : IsCidV0 bytes → ¬ IsCidV1 bytes := by
      rintro ⟨digest, -, rfl⟩ ⟨codec, hashCode, rest, -, -, -, -, -, -, he⟩
      rw [encodeVarint_of_lt (by decide : 1 < 128)] at he
      exact absurd (List.cons.inj he).1 (by decide)
    rcases hkind with ⟨h58, h0, -⟩ | ⟨h58, h1, -⟩ <;>
      rcases hkind' with ⟨h58', h0', -⟩ | ⟨h58', h1', -⟩
    · rw [h58, h58']
    · exact absurd h1' (hdifferent h0)
    · exact absurd h1 (hdifferent h0')
    · rw [h58, h58']
  rw [reencoded, hcontent, hsame] at hre
  rw [reencoded, hcontent'] at hre'
  exact Option.some.inj (hre.symm.trans hre')

/-- A content identifier of 59 characters. -/
def zeroCid : List Char :=
  "bafkreiaaaaaaaaaaaaaaaaaaaaaaaaaaaaaaaaaaaaaaaaaaaaaaaaaaaa".toList

/-- **Validation of content identifiers.**  An accepted text is the encoding of its bytes exactly
when it has no character more than they need; the encodings of all byte strings that name content
are accepted; texts of that kind name different content; and the decoders undo the encoders. -/
theorem cid_validation (value : List Char) :
    (isStructurallyValidCid value = true →
      (reencoded value = some value ↔ isCanonicalLength value)) ∧
    (∀ bytes, IsCidV0 bytes → isStructurallyValidCid (encodeBase58 bytes) = true ∧
      contentBytes (encodeBase58 bytes) = some bytes) ∧
    (∀ bytes, IsCidV1 bytes → isStructurallyValidCid ('b' :: encodeBase32 bytes) = true ∧
      contentBytes ('b' :: encodeBase32 bytes) = some bytes) ∧
    (∀ value', isStructurallyValidCid value = true → isStructurallyValidCid value' = true →
      isCanonicalLength value → isCanonicalLength value' →
      contentBytes value = contentBytes value' → value = value') ∧
    (∀ bytes offset r, readVarint bytes offset = some r ↔
      r.value ≤ maxSafeInteger ∧ r.next = offset + (encodeVarint r.value).length ∧
        ∃ rest, bytes.drop offset = encodeVarint r.value ++ rest) ∧
    (∀ bytes, decodeBase32 (encodeBase32 bytes) = some bytes) ∧
    (∀ value bytes, decodeBase32 value = some bytes →
      (encodeBase32 bytes = value ↔ 5 * value.length % 8 < 5)) ∧
    (∀ bytes, decodeBase58 (encodeBase58 bytes) = some bytes) ∧
    ∀ value bytes, decodeBase58 value = some bytes → encodeBase58 bytes = value := by
  refine ⟨reencoded_iff, ?_, ?_, fun _ => eq_of_contentBytes_eq,
    fun _ _ _ => readVarint_iff, decodeBase32_encodeBase32, fun _ _ => encodeBase32_of_decode,
    decodeBase58_encodeBase58, fun _ _ => encodeBase58_of_decode⟩
  · intro bytes h
    have hdecode := decodeBase58_encodeBase58 bytes
    have h58 := isBase58Cid_encode h
    constructor
    · rw [isStructurallyValidCid, if_pos h58, hdecode]
      exact isCidV0_iff.2 h
    · rw [contentBytes, if_pos h58, hdecode]
  · intro bytes h
    have hdecode := decodeBase32_encodeBase32 bytes
    have hne : bytes ≠ [] := by
      rintro rfl
      obtain ⟨codec, hashCode, digest, -, -, -, -, -, -, he⟩ := h
      rw [encodeVarint_of_lt (by decide : 1 < 128)] at he
      exact absurd he (by simp)
    have h32 := isBase32Cid_encode hne
    constructor
    · rw [isStructurallyValidCid, isBase58Cid_b, if_neg (by decide), h32, if_neg (by decide),
        List.drop_one, List.tail_cons, hdecode]
      exact isVersionOne_iff.2 h
    · rw [contentBytes, isBase58Cid_b, if_neg (by decide), List.drop_one, List.tail_cons, hdecode]

theorem cid_validation_zero : reencoded zeroCid = some zeroCid :=
  ((cid_validation zeroCid).1 (by decide +kernel)).2 (.inr (by decide +kernel))

/-- The same content is named by a text with one character more: the seven bits that are left over
are zeros, and nothing says that they are too many. -/
theorem two_texts :
    isStructurallyValidCid zeroCid = true ∧ isStructurallyValidCid (zeroCid ++ ['a']) = true ∧
      contentBytes zeroCid = contentBytes (zeroCid ++ ['a']) ∧
      reencoded (zeroCid ++ ['a']) = some zeroCid := by
  decide +kernel

end Shared

end PreCommunity
