import PreCommunity.Ads.Keywords
import PreCommunity.Text.Base64
import PreCommunity.Text.Json

/-!
# Delivery tokens

A shown ad carries a signed token that says what was shown.  The token comes back with the click,
and is read again.

* `Codecs`, `Codecs.Specified` : the functions of the runtime, and what is relied on.
* `signAdDelivery`, `readAdDelivery` : the writer and the reader.
* `delivery_round_trip` : the reader returns what the writer signed, for one hour.
-/

namespace PreCommunity

namespace Ads

open Market (Text Hash)

open Decimal (decimalText padLeft)

open Json (Scalar objectText)

/-- A value that JSON describes; `decimal` is a number that is not whole. -/
inductive JsonValue where
  | null
  | bool (value : Bool)
  | number (value : ℤ)
  | decimal (digits : Text)
  | text (value : Text)
  | array (values : List JsonValue)
  | object (members : List (Text × JsonValue))

/-- The value of a member that is written. -/
def scalarValue : Scalar → JsonValue
  | .text value => .text value
  | .number value => .number value

/-- The functions of the runtime that tokens use. -/
structure Codecs where
  /-- HMAC-SHA256 under a secret. -/
  hmac : Text → List UInt8 → List UInt8
  /-- `Buffer.from(text, 'base64url')`. -/
  fromBase64url : Text → List UInt8
  /-- `toString('utf8')`. -/
  fromUtf8 : List UInt8 → Text
  /-- `JSON.parse`; `none` when it throws. -/
  parse : Text → Option JsonValue
  /-- `String(value)`, which a regular expression is tested on. -/
  stringOf : JsonValue → Text

/-- `Number.MAX_SAFE_INTEGER`. -/
def maxSafeInteger : ℕ := 9007199254740991

/-- A number that JSON keeps exactly. -/
def exactScalar : Scalar → Prop
  | .text _ => True
  | .number value => value ≤ maxSafeInteger

/-- What is relied on: a digest has 32 bytes, and reading undoes writing. -/
structure Codecs.Specified (K : Codecs) : Prop where
  length_hmac : ∀ secret message, (K.hmac secret message).length = 32
  fromBase64url_encode : ∀ bytes, K.fromBase64url (Base64.encode bytes) = bytes
  fromUtf8_utf8Bytes : ∀ text, K.fromUtf8 (utf8Bytes text) = text
  parse_objectText : ∀ members, members ≠ [] → (members.map (·.1)).Nodup →
    (∀ member ∈ members, Json.PlainMember member ∧ exactScalar member.2) →
    K.parse (objectText members) =
      some (.object (members.map fun member => (member.1, scalarValue member.2)))
  stringOf_text : ∀ text, K.stringOf (.text text) = text

def deliveryDomain : Text := "precommunity:keyword-market:delivery:v2\x00".toList
def adDeliveryTtlMs : ℕ := 60 * 60000
def clockSkewMs : ℕ := 60000
def maxTokenLength : ℕ := 2048

/-! ### The writer -/

/-- What a token says about the ad. -/
structure AdDeliveryContext where
  revisionId : Text
  chainId : ℕ
  contractAddress : Text
  keywordId : Text
  keyword : Text
  stakerAddress : Text
  positionVersion : Text
deriving DecidableEq, Repr

/-- The members of `AdDelivery`, in the order in which they are written. -/
def deliveryMembers (context : AdDeliveryContext) (deliveryId : Text) (issuedAt : ℕ) :
    List (Text × Scalar) :=
  [("revisionId".toList, .text context.revisionId),
    ("chainId".toList, .number context.chainId),
    ("contractAddress".toList, .text context.contractAddress),
    ("keywordId".toList, .text context.keywordId),
    ("keyword".toList, .text context.keyword),
    ("stakerAddress".toList, .text context.stakerAddress),
    ("positionVersion".toList, .text context.positionVersion),
    ("version".toList, .number 2),
    ("deliveryId".toList, .text deliveryId),
    ("issuedAt".toList, .number issuedAt)]

/-- `AdDelivery`. -/
def adDelivery (context : AdDeliveryContext) (deliveryId : Text) (issuedAt : ℕ) : JsonValue :=
  .object ((deliveryMembers context deliveryId issuedAt).map fun member =>
    (member.1, scalarValue member.2))

/-- The digest of a payload. -/
def digestOf (K : Codecs) (secret payload : Text) : List UInt8 :=
  K.hmac secret (utf8Bytes deliveryDomain ++ utf8Bytes payload)

/-- `signAdDelivery`, at a time, with the id that it generates. -/
def signAdDelivery (K : Codecs) (context : AdDeliveryContext) (deliveryId : Text) (now : ℕ)
    (secret : Text) : Text :=
  let payload := Base64.encode (utf8Bytes (objectText (deliveryMembers context deliveryId now)))
  payload ++ '.' :: Base64.encode (digestOf K secret payload)

/-! ### The reader -/

/-- A digit of a lower-case hexadecimal text. -/
def isLowerHex (c : Char) : Bool := c.isDigit || ('a' ≤ c && c ≤ 'f')

/-- The pattern `UUID`. -/
def isUuid (text : Text) : Bool :=
  decide (text.length = 36) && text.zipIdx.all fun (c, i) =>
    if i = 8 ∨ i = 13 ∨ i = 18 ∨ i = 23 then c = '-' else c.isHexDigit

/-- The patterns `ADDRESS` and `HASH`: `0x` and `n` digits. -/
def isHexText (n : ℕ) (text : Text) : Bool :=
  decide (text.length = n + 2) && text.take 2 = "0x".toList && (text.drop 2).all isLowerHex

/-- The pattern of `positionVersion`, and its bound. -/
def isPositionVersion (text : Text) : Bool :=
  text.all Char.isDigit && decide (text.length ≤ 78) && decide (text ≠ []) &&
    decide (text.head? ≠ some '0') && decide (Decimal.value text < 2 ^ 256)

/-- The hexadecimal text of a hash. -/
def hashText (hash : Hash) : Text := "0x".toList ++ padLeft 64 (Nat.toDigits 16 hash)

/-- A property of a value; `none` for `undefined`. -/
def field (value : JsonValue) (key : Text) : Option JsonValue :=
  match value with
  | .object members => members.lookup key
  | _ => none

/-- The number, when `Number.isSafeInteger`. -/
def safeInteger : Option JsonValue → Option ℤ
  | some (.number value) => if value.natAbs ≤ maxSafeInteger then some value else none
  | _ => none

/-- The text, when `typeof` says that it is one. -/
def textOf : Option JsonValue → Option Text
  | some (.text value) => some value
  | _ => none

/-- The keyword is in normal form, and the id is its id. -/
def keywordFits (U : Unicode) (keyword : Text) (keywordId : Option Text) : Bool :=
  decide (normalizeAdKeyword U keyword = .ok keyword) &&
    decide (((adKeywordId U keyword).map fun hash => some (hashText hash)) = .ok keywordId)

section

variable (K : Codecs) (U : Unicode)

/-- What a pattern is tested on. -/
def tested : Option JsonValue → Text
  | some value => K.stringOf value
  | none => "undefined".toList

/-- The checks of a parsed value; the first one refuses what is falsy or no object. -/
def acceptsDelivery (value : JsonValue) (revisionId : Text) (now : ℕ) : Bool :=
  decide (safeInteger (field value "version".toList) = some 2) &&
  (safeInteger (field value "issuedAt".toList)).any (fun issuedAt : ℤ =>
    decide (0 < issuedAt) && decide (issuedAt ≤ now + clockSkewMs) &&
      decide ((now : ℤ) - issuedAt < adDeliveryTtlMs)) &&
  isUuid (tested K (field value "deliveryId".toList)) &&
  isUuid (tested K (field value "revisionId".toList)) &&
  decide (textOf (field value "revisionId".toList) = some revisionId) &&
  (safeInteger (field value "chainId".toList)).any (fun chainId => decide (0 < chainId)) &&
  isHexText 40 (tested K (field value "contractAddress".toList)) &&
  isHexText 40 (tested K (field value "stakerAddress".toList)) &&
  isHexText 64 (tested K (field value "keywordId".toList)) &&
  (textOf (field value "keyword".toList)).any (fun keyword =>
    keywordFits U keyword (textOf (field value "keywordId".toList))) &&
  (textOf (field value "positionVersion".toList)).any isPositionVersion

/-- `readAdDelivery`; the token is `none` when it is no string. -/
def readAdDelivery (token : Option Text) (revisionId secret : Text) (now : ℕ) :
    Option JsonValue :=
  match token with
  | none => none
  | some token =>
    if maxTokenLength < token.length then none
    else
      match token.splitOn '.' with
      | [payload, signature] =>
        if payload ≠ [] ∧ payload.all Base64.isDigit = true ∧ signature.length = 43 ∧
            signature.all Base64.isDigit = true then
          if K.fromBase64url signature = digestOf K secret payload then
            (K.parse (K.fromUtf8 (K.fromBase64url payload))).filter fun value =>
              acceptsDelivery K U value revisionId now
          else none
        else none
      | _ => none

end

/-! ### Characters -/

/-- A character of one byte that stands for itself in a string. -/
def Simple (c : Char) : Prop := 32 ≤ c.toNat ∧ c.toNat < 128 ∧ c ≠ '"' ∧ c ≠ '\\'

instance : DecidablePred Simple := fun _ => inferInstanceAs (Decidable (_ ∧ _))

theorem Simple.plain {c : Char} (h : Simple c) : Json.plainChar c = true := by
  simp only [Json.plainChar, Bool.and_eq_true, decide_eq_true_eq]
  exact ⟨⟨h.1, h.2.2.1⟩, h.2.2.2⟩

theorem simple_of_isAlphanum {c : Char} (h : c.isAlphanum = true) : Simple c := by
  delta Char.isAlphanum Char.isAlpha Char.isUpper Char.isLower Char.isDigit at h
  simp only [Bool.or_eq_true, Bool.and_eq_true, decide_eq_true_eq, ge_iff_le,
    UInt32.le_iff_toNat_le] at h
  have hrange : 48 ≤ c.toNat ∧ c.toNat ≤ 57 ∨ 97 ≤ c.toNat ∧ c.toNat ≤ 122 ∨
      65 ≤ c.toNat ∧ c.toNat ≤ 90 := by
    obtain (h | h) | h := h
    · exact .inr (.inr h)
    · exact .inr (.inl h)
    · exact .inl h
  refine ⟨by omega, by omega, ?_, ?_⟩ <;> rintro rfl <;> revert hrange <;> decide

theorem simple_of_isHexDigit {c : Char} (h : c.isHexDigit = true) : Simple c := by
  apply simple_of_isAlphanum
  delta Char.isHexDigit Char.isDigit at h
  delta Char.isAlphanum Char.isAlpha Char.isUpper Char.isLower Char.isDigit
  simp only [Bool.or_eq_true, Bool.and_eq_true, decide_eq_true_eq, ge_iff_le,
    UInt32.le_iff_toNat_le] at *
  obtain (h | ⟨hlow, hhigh⟩) | ⟨hlow, hhigh⟩ := h
  · exact .inr h
  · exact .inl (.inr ⟨hlow, hhigh.trans (by decide)⟩)
  · exact .inl (.inl ⟨hlow, hhigh.trans (by decide)⟩)

theorem simple_of_isDigit {c : Char} (h : c.isDigit = true) : Simple c :=
  simple_of_isHexDigit (by simp [Char.isHexDigit, h])

theorem simple_of_isLowerHex {c : Char} (h : isLowerHex c = true) : Simple c := by
  apply simple_of_isHexDigit
  simp only [isLowerHex, Char.isHexDigit, Bool.or_eq_true, Bool.and_eq_true,
    decide_eq_true_eq] at *
  obtain h | h := h
  · exact .inl (.inl h)
  · exact .inl (.inr h)

/-- The text has characters of one byte only. -/
def SimpleText (text : Text) : Prop := ∀ c ∈ text, Simple c

theorem SimpleText.plain {text : Text} (h : SimpleText text) : Json.Plain text := fun c hc =>
  (h c hc).plain

theorem simple_decimalText (n : ℕ) : SimpleText (decimalText n) := fun c hc =>
  simple_of_isDigit ((Decimal.whole_decimalText n).2.1 c hc)

theorem simple_of_isUuid {text : Text} (h : isUuid text = true) :
    text.length = 36 ∧ SimpleText text := by
  simp only [isUuid, Bool.and_eq_true, decide_eq_true_eq, List.all_eq_true] at h
  refine ⟨h.1, fun c hc => ?_⟩
  obtain ⟨i, hi, rfl⟩ := List.getElem_of_mem hc
  have hall := h.2 (text[i], i) (List.mem_zipIdx_iff_getElem?.2 (List.getElem?_eq_getElem hi))
  simp only at hall
  split_ifs at hall with hdash
  · rw [decide_eq_true_eq] at hall
    rw [hall]
    decide
  · exact simple_of_isHexDigit hall

theorem simple_of_isHexText {n : ℕ} {text : Text} (h : isHexText n text = true) :
    text.length = n + 2 ∧ SimpleText text := by
  simp only [isHexText, Bool.and_eq_true, decide_eq_true_eq, List.all_eq_true] at h
  obtain ⟨⟨hlength, htake⟩, hdigits⟩ := h
  refine ⟨hlength, fun c hc => ?_⟩
  rw [← List.take_append_drop 2 text, htake] at hc
  rcases List.mem_append.1 hc with hc | hc
  · change c ∈ ['0', 'x'] at hc
    rcases List.mem_cons.1 hc with rfl | hx
    · decide
    · rw [List.mem_singleton.1 hx]
      decide
  · exact simple_of_isLowerHex (hdigits c hc)

theorem simple_of_isPositionVersion {text : Text} (h : isPositionVersion text = true) :
    text.length ≤ 78 ∧ SimpleText text := by
  simp only [isPositionVersion, Bool.and_eq_true, decide_eq_true_eq, List.all_eq_true] at h
  exact ⟨h.1.1.1.2, fun c hc => simple_of_isDigit (h.1.1.1.1 c hc)⟩

theorem isPositionVersion_decimalText {n : ℕ} (hn : 0 < n) (hbound : n < 2 ^ 256) :
    isPositionVersion (decimalText n) = true := by
  obtain ⟨hne, hdigits, -⟩ := Decimal.whole_decimalText n
  have hlength : (decimalText n).length ≤ 78 :=
    (Nat.length_toDigits_le_iff (by decide) (by decide)).2 (hbound.trans (by decide))
  simp only [isPositionVersion, Bool.and_eq_true, decide_eq_true_eq, List.all_eq_true,
    Decimal.value_decimalText]
  exact ⟨⟨⟨⟨hdigits, hlength⟩, hne⟩, Decimal.head?_decimalText hn⟩, hbound⟩

theorem isLowerHex_toDigits (n : ℕ) : ∀ c ∈ Nat.toDigits 16 n, isLowerHex c = true := by
  have hdigit : ∀ d < 16, isLowerHex (Nat.digitChar d) = true := by decide
  induction n using Nat.strong_induction_on with
  | _ n ih =>
    intro c hc
    by_cases hn : n < 16
    · rw [Nat.toDigits_of_lt_base hn, List.mem_singleton] at hc
      exact hc ▸ hdigit n hn
    · rw [Nat.toDigits_of_base_le (by decide) (by omega)] at hc
      rcases List.mem_append.1 hc with hc | hc
      · exact ih (n / 16) (by omega) c hc
      · rw [List.mem_singleton] at hc
        exact hc ▸ hdigit (n % 16) (by omega)

/-- **The text of a digest** fits its pattern. -/
theorem isHexText_hashText {hash : Hash} (h : hash < 2 ^ 256) :
    isHexText 64 (hashText hash) = true := by
  have hlength : (Nat.toDigits 16 hash).length ≤ 64 :=
    (Nat.length_toDigits_le_iff (by decide) (by decide)).2 (h.trans_eq (by decide))
  have htotal : (hashText hash).length = 64 + 2 := by
    have hprefix : "0x".toList.length = 2 := rfl
    rw [hashText, List.length_append, hprefix, padLeft, List.length_append, List.length_replicate]
    omega
  rw [isHexText, htotal, hashText]
  simp only [Bool.and_eq_true, List.all_eq_true]
  refine ⟨⟨rfl, rfl⟩, fun c hc => ?_⟩
  · change c ∈ padLeft 64 _ at hc
    rcases List.mem_append.1 hc with hc | hc
    · rw [List.eq_of_mem_replicate hc]
      rfl
    · exact isLowerHex_toDigits hash c hc

theorem plain_of_normal {U : Unicode}
    (hletters : ∀ c, U.isLetterOrNumber c = true → Json.plainChar c = true) {keyword : Text}
    (h : normalizeAdKeyword U keyword = .ok keyword) :
    keyword.length ≤ maxKeywordCharacters ∧ Json.Plain keyword := by
  simp only [normalizeAdKeyword] at h
  split_ifs at h with hnone hmany hlong
  have hkeyword := Except.ok.inj h
  rw [hkeyword] at hlong
  refine ⟨not_lt.1 hlong, fun c hc => ?_⟩
  rw [← hkeyword] at hc
  obtain rfl | ⟨word, hword, hchar⟩ := Words.mem_unwords hc
  · decide
  · exact hletters c ((Words.word_of_mem_runs hword).2 c hchar)

/-! ### The length of a token -/

theorem utf8Bytes_append (a b : Text) : utf8Bytes (a ++ b) = utf8Bytes a ++ utf8Bytes b :=
  List.flatMap_append

theorem length_utf8Bytes_cons (c : Char) (text : Text) :
    (utf8Bytes (c :: text)).length = c.utf8Size + (utf8Bytes text).length := by
  rw [utf8Bytes, List.flatMap_cons, List.length_append, String.length_utf8EncodeChar, utf8Bytes]

theorem length_utf8Bytes_le (text : Text) : (utf8Bytes text).length ≤ 4 * text.length := by
  induction text with
  | nil => simp [utf8Bytes]
  | cons c text ih =>
    have hc := c.utf8Size_le_four
    rw [length_utf8Bytes_cons, List.length_cons]
    omega

theorem length_utf8Bytes_simple {text : Text} (h : SimpleText text) :
    (utf8Bytes text).length = text.length := by
  induction text with
  | nil => rfl
  | cons c text ih =>
    have hc : c.utf8Size = 1 := by
      rw [Char.utf8Size_eq_one_iff, UInt32.le_iff_toNat_le]
      exact Nat.le_of_lt_succ (h c List.mem_cons_self).2.1
    rw [length_utf8Bytes_cons, ih fun d hd => h d (List.mem_cons_of_mem c hd), hc, List.length_cons,
      Nat.add_comm]

/-- The bytes of a value. -/
def scalarBytes : Scalar → ℕ
  | .text value => (utf8Bytes value).length + 2
  | .number value => (decimalText value).length

theorem length_utf8Bytes_quote {text : Text} (h : Json.Plain text) :
    (utf8Bytes (Json.quote text)).length = (utf8Bytes text).length + 2 := by
  have hquote : (utf8Bytes ['"']).length = 1 := rfl
  rw [Json.quote_eq h, length_utf8Bytes_cons, utf8Bytes_append, List.length_append, hquote]
  have hsize : '"'.utf8Size = 1 := rfl
  omega

theorem length_memberText {member : Text × Scalar} (h : Json.PlainMember member) :
    (utf8Bytes (Json.memberText member)).length =
      (utf8Bytes member.1).length + scalarBytes member.2 + 3 := by
  have hcolon : ':'.utf8Size = 1 := rfl
  obtain ⟨key, scalar⟩ := member
  obtain ⟨hkey, hscalar⟩ := h
  rw [Json.memberText, utf8Bytes_append, List.length_append, length_utf8Bytes_quote hkey,
    length_utf8Bytes_cons, hcolon]
  cases scalar with
  | text value =>
    rw [Json.scalarText, length_utf8Bytes_quote hscalar, scalarBytes]
    omega
  | number n =>
    rw [Json.scalarText, length_utf8Bytes_simple (simple_decimalText n), scalarBytes]
    omega

theorem length_membersText_le {members : List (Text × Scalar)}
    (h : ∀ member ∈ members, Json.PlainMember member) :
    (utf8Bytes (Json.membersText members)).length ≤
      (members.map fun member => (utf8Bytes member.1).length + scalarBytes member.2 + 4).sum := by
  induction members with
  | nil => simp [Json.membersText, utf8Bytes]
  | cons member members ih =>
    have hmember := length_memberText (h member List.mem_cons_self)
    have hrest := ih fun m hm => h m (List.mem_cons_of_mem member hm)
    rw [List.map_cons, List.sum_cons]
    cases members with
    | nil =>
      rw [Json.membersText]
      simp only [List.map_nil, List.sum_nil]
      omega
    | cons next members =>
      have hcomma : ','.utf8Size = 1 := rfl
      rw [Json.membersText, utf8Bytes_append, List.length_append, length_utf8Bytes_cons]
      omega

/-! ### The round trip -/

/-- What the selection of an ad puts into a token. -/
structure Emitted (U : Unicode) (context : AdDeliveryContext) : Prop where
  revisionId : isUuid context.revisionId = true
  chainId : 0 < context.chainId ∧ context.chainId ≤ maxSafeInteger
  contractAddress : isHexText 40 context.contractAddress = true
  stakerAddress : isHexText 40 context.stakerAddress = true
  keyword : normalizeAdKeyword U context.keyword = .ok context.keyword
  keywordId : context.keywordId = hashText (U.keccak256 (U.toBytes context.keyword))
  positionVersion : ∃ version, 0 < version ∧ version < 2 ^ 256 ∧
    context.positionVersion = decimalText version

section

variable {K : Codecs} {U : Unicode} {context : AdDeliveryContext} {deliveryId : Text}
  {issuedAt : ℕ}

theorem plain_key {key : Text} (h : key.all Json.plainChar = true) : Json.Plain key :=
  List.all_eq_true.1 h

theorem length_decimalText_safe {n : ℕ} (h : n ≤ maxSafeInteger) : (decimalText n).length ≤ 16 :=
  (Nat.length_toDigits_le_iff (by decide) (by decide)).2
    (Nat.lt_of_le_of_lt h (by decide))

theorem plain_deliveryMembers (hcontext : Emitted U context)
    (hletters : ∀ c, U.isLetterOrNumber c = true → Json.plainChar c = true)
    (hdigest : ∀ bytes, U.keccak256 bytes < 2 ^ 256) (hdelivery : isUuid deliveryId = true)
    (hissued : issuedAt ≤ maxSafeInteger) :
    ∀ member ∈ deliveryMembers context deliveryId issuedAt,
      Json.PlainMember member ∧ exactScalar member.2 := by
  obtain ⟨hrevision, hchain, hcontract, hstaker, hkeyword, hkeywordId, version, hpos, hbound,
    hversion⟩ := hcontext
  have hid : isHexText 64 context.keywordId = true := hkeywordId ▸ isHexText_hashText (hdigest _)
  simp only [deliveryMembers, List.forall_mem_cons]
  refine ⟨⟨⟨plain_key rfl, (simple_of_isUuid hrevision).2.plain⟩, trivial⟩,
    ⟨⟨plain_key rfl, trivial⟩, hchain.2⟩,
    ⟨⟨plain_key rfl, (simple_of_isHexText hcontract).2.plain⟩, trivial⟩,
    ⟨⟨plain_key rfl, (simple_of_isHexText hid).2.plain⟩, trivial⟩,
    ⟨⟨plain_key rfl, (plain_of_normal hletters hkeyword).2⟩, trivial⟩,
    ⟨⟨plain_key rfl, (simple_of_isHexText hstaker).2.plain⟩, trivial⟩,
    ⟨⟨plain_key rfl, hversion ▸ (simple_decimalText version).plain⟩, trivial⟩,
    ⟨⟨plain_key rfl, trivial⟩, Nat.le_of_ble_eq_true rfl⟩,
    ⟨⟨plain_key rfl, (simple_of_isUuid hdelivery).2.plain⟩, trivial⟩,
    ⟨⟨plain_key rfl, trivial⟩, hissued⟩, by simp⟩

/-- **The payload** is short, whatever the keyword's characters are. -/
theorem length_payload_le (hcontext : Emitted U context)
    (hletters : ∀ c, U.isLetterOrNumber c = true → Json.plainChar c = true)
    (hdigest : ∀ bytes, U.keccak256 bytes < 2 ^ 256) (hdelivery : isUuid deliveryId = true)
    (hissued : issuedAt ≤ maxSafeInteger) :
    (utf8Bytes (objectText (deliveryMembers context deliveryId issuedAt))).length ≤ 746 := by
  have hplain := plain_deliveryMembers hcontext hletters hdigest hdelivery hissued
  have hmembers := length_membersText_le fun member hm => (hplain member hm).1
  obtain ⟨hrevision, ⟨-, hchain⟩, hcontract, hstaker, hkeyword, hkeywordId, version, hpos, hbound,
    hversion⟩ := hcontext
  have hid : isHexText 64 context.keywordId = true := hkeywordId ▸ isHexText_hashText (hdigest _)
  obtain ⟨hrevisionLength, hrevision⟩ := simple_of_isUuid hrevision
  obtain ⟨hdeliveryLength, hdelivery⟩ := simple_of_isUuid hdelivery
  obtain ⟨hcontractLength, hcontract⟩ := simple_of_isHexText hcontract
  obtain ⟨hstakerLength, hstaker⟩ := simple_of_isHexText hstaker
  obtain ⟨hidLength, hid⟩ := simple_of_isHexText hid
  obtain ⟨hversionLength, hversion⟩ :=
    simple_of_isPositionVersion (hversion ▸ isPositionVersion_decimalText hpos hbound)
  have hkeywordLength := (plain_of_normal hletters hkeyword).1
  have hkeywordBytes := length_utf8Bytes_le context.keyword
  have hchainLength := length_decimalText_safe hchain
  have hissuedLength := length_decimalText_safe hissued
  have hkeys : (utf8Bytes "revisionId".toList).length = 10 ∧
      (utf8Bytes "chainId".toList).length = 7 ∧
      (utf8Bytes "contractAddress".toList).length = 15 ∧
      (utf8Bytes "keywordId".toList).length = 9 ∧
      (utf8Bytes "keyword".toList).length = 7 ∧
      (utf8Bytes "stakerAddress".toList).length = 13 ∧
      (utf8Bytes "positionVersion".toList).length = 15 ∧
      (utf8Bytes "version".toList).length = 7 ∧
      (utf8Bytes "deliveryId".toList).length = 10 ∧
      (utf8Bytes "issuedAt".toList).length = 8 := by
    decide
  have hbraces : (utf8Bytes ['}']).length = 1 := rfl
  have hbrace : '{'.utf8Size = 1 := rfl
  rw [objectText, length_utf8Bytes_cons, utf8Bytes_append, List.length_append, hbraces, hbrace]
  simp only [deliveryMembers, List.map_cons, List.map_nil, List.sum_cons, List.sum_nil,
    scalarBytes, hkeys, length_utf8Bytes_simple hrevision, length_utf8Bytes_simple hdelivery,
    length_utf8Bytes_simple hcontract, length_utf8Bytes_simple hstaker, length_utf8Bytes_simple hid,
    length_utf8Bytes_simple hversion] at hmembers
  have htwo : (decimalText 2).length = 1 := rfl
  unfold maxKeywordCharacters at hkeywordLength
  change (utf8Bytes (Json.membersText (deliveryMembers context deliveryId issuedAt))).length ≤ _
    at hmembers
  omega

/-- The properties of a signed value are what was signed. -/
theorem field_adDelivery (context : AdDeliveryContext) (deliveryId : Text) (issuedAt : ℕ) :
    field (adDelivery context deliveryId issuedAt) "version".toList = some (.number 2) ∧
      field (adDelivery context deliveryId issuedAt) "issuedAt".toList =
        some (.number issuedAt) ∧
      field (adDelivery context deliveryId issuedAt) "deliveryId".toList =
        some (.text deliveryId) ∧
      field (adDelivery context deliveryId issuedAt) "revisionId".toList =
        some (.text context.revisionId) ∧
      field (adDelivery context deliveryId issuedAt) "chainId".toList =
        some (.number context.chainId) ∧
      field (adDelivery context deliveryId issuedAt) "contractAddress".toList =
        some (.text context.contractAddress) ∧
      field (adDelivery context deliveryId issuedAt) "stakerAddress".toList =
        some (.text context.stakerAddress) ∧
      field (adDelivery context deliveryId issuedAt) "keywordId".toList =
        some (.text context.keywordId) ∧
      field (adDelivery context deliveryId issuedAt) "keyword".toList =
        some (.text context.keyword) ∧
      field (adDelivery context deliveryId issuedAt) "positionVersion".toList =
        some (.text context.positionVersion) :=
  ⟨rfl, rfl, rfl, rfl, rfl, rfl, rfl, rfl, rfl, rfl⟩

theorem safeInteger_of_le {n : ℕ} (h : n ≤ maxSafeInteger) :
    safeInteger (some (.number n)) = some (n : ℤ) :=
  if_pos h

theorem tested_text (hK : K.Specified) (value : Text) : tested K (some (.text value)) = value :=
  hK.stringOf_text value

theorem textOf_text (value : Text) : textOf (some (.text value)) = some value := rfl

theorem keywordFits_of_normal {keyword keywordId : Text}
    (hkeyword : normalizeAdKeyword U keyword = .ok keyword)
    (hid : keywordId = hashText (U.keccak256 (U.toBytes keyword))) :
    keywordFits U keyword (some keywordId) = true := by
  rw [keywordFits, Bool.and_eq_true, decide_eq_true_eq, decide_eq_true_eq,
    adKeywordId_of_normal hkeyword, hid]
  exact ⟨hkeyword, rfl⟩

/-- **The checks** refuse nothing that was signed but a wrong revision and a wrong time. -/
theorem acceptsDelivery_iff (hK : K.Specified) (hcontext : Emitted U context)
    (hdigest : ∀ bytes, U.keccak256 bytes < 2 ^ 256) (hdelivery : isUuid deliveryId = true)
    (hpositive : 0 < issuedAt) (hissued : issuedAt ≤ maxSafeInteger) (revisionId : Text)
    (now : ℕ) :
    acceptsDelivery K U (adDelivery context deliveryId issuedAt) revisionId now = true ↔
      context.revisionId = revisionId ∧ issuedAt ≤ now + clockSkewMs ∧
        now < issuedAt + adDeliveryTtlMs := by
  obtain ⟨hrevision, ⟨hchainPositive, hchain⟩, hcontract, hstaker, hkeyword, hkeywordId, version,
    hpos, hbound, hversion⟩ := hcontext
  obtain ⟨h1, h2, h3, h4, h5, h6, h7, h8, h9, h10⟩ := field_adDelivery context deliveryId issuedAt
  have hid : isHexText 64 context.keywordId = true := hkeywordId ▸ isHexText_hashText (hdigest _)
  have hversion : isPositionVersion context.positionVersion = true :=
    hversion ▸ isPositionVersion_decimalText hpos hbound
  have htwo : safeInteger (some (.number 2)) = some 2 := rfl
  have hfits := keywordFits_of_normal hkeyword hkeywordId
  simp only [acceptsDelivery, h1, h2, h3, h4, h5, h6, h7, h8, h9, h10, tested_text hK, textOf_text,
    safeInteger_of_le hissued, safeInteger_of_le hchain, htwo, hdelivery, hrevision,
    hcontract, hstaker, hid, hfits, hversion, Option.any_some, Bool.and_eq_true,
    decide_eq_true_eq, Option.some.injEq, and_true, true_and]
  constructor
  · rintro ⟨⟨⟨⟨-, hskew⟩, hage⟩, hrevision⟩, -⟩
    exact ⟨hrevision, by omega, by omega⟩
  · rintro ⟨hrevision, hskew, hage⟩
    exact ⟨⟨⟨⟨by omega, by omega⟩, by omega⟩, hrevision⟩, by omega⟩

theorem nodup_deliveryMembers (context : AdDeliveryContext) (deliveryId : Text) (issuedAt : ℕ) :
    ((deliveryMembers context deliveryId issuedAt).map (·.1)).Nodup := by
  simp only [deliveryMembers, List.map_cons, List.map_nil]
  decide

/-- **A token** is read back as it was signed, for the revision that it names and for one hour, and
is never too long to be read. -/
theorem delivery_round_trip (K : Codecs) (U : Unicode) (hK : K.Specified)
    (hletters : ∀ c, U.isLetterOrNumber c = true → Json.plainChar c = true)
    (hdigest : ∀ bytes, U.keccak256 bytes < 2 ^ 256) (context : AdDeliveryContext)
    (hcontext : Emitted U context) (deliveryId : Text) (hdelivery : isUuid deliveryId = true)
    (issuedAt : ℕ) (hpositive : 0 < issuedAt) (hissued : issuedAt ≤ maxSafeInteger)
    (secret revisionId : Text) (now : ℕ) :
    (signAdDelivery K context deliveryId issuedAt secret).length ≤ maxTokenLength ∧
      readAdDelivery K U (some (signAdDelivery K context deliveryId issuedAt secret)) revisionId
        secret now =
        if revisionId = context.revisionId ∧ issuedAt ≤ now + clockSkewMs ∧
            now < issuedAt + adDeliveryTtlMs then
          some (adDelivery context deliveryId issuedAt)
        else none := by
  have hbytes := length_payload_le hcontext hletters hdigest hdelivery hissued
  have hplain := plain_deliveryMembers hcontext hletters hdigest hdelivery hissued
  have haccepts := acceptsDelivery_iff hK hcontext hdigest hdelivery hpositive hissued revisionId
    now
  rw [signAdDelivery]
  generalize hbody : utf8Bytes (objectText (deliveryMembers context deliveryId issuedAt)) =
    bytes at *
  have hpayload := Base64.length_encode bytes
  have hsignature : (Base64.encode (digestOf K secret (Base64.encode bytes))).length = 43 := by
    rw [Base64.length_encode, digestOf, hK.length_hmac]
  have hlength : (Base64.encode bytes ++ '.' ::
      Base64.encode (digestOf K secret (Base64.encode bytes))).length ≤ maxTokenLength := by
    rw [List.length_append, List.length_cons, hsignature, hpayload, maxTokenLength]
    omega
  refine ⟨hlength, ?_⟩
  have hdot : ∀ bytes, '.' ∉ Base64.encode bytes := fun bytes hmem =>
    absurd (Base64.encode_alphabet bytes '.' hmem) (by decide)
  -- no digit is a dot, so the reader finds the two parts
  have hsplit : (Base64.encode bytes ++ '.' ::
      Base64.encode (digestOf K secret (Base64.encode bytes))).splitOn '.' =
      [Base64.encode bytes, Base64.encode (digestOf K secret (Base64.encode bytes))] := by
    rw [List.splitOn_append_cons_self_of_not_mem (hdot _), List.splitOn_eq_singleton (hdot _)]
  have hmembers : deliveryMembers context deliveryId issuedAt ≠ [] := List.cons_ne_nil _ _
  have hne : Base64.encode bytes ≠ [] := by
    intro hnil
    rw [hnil, ← hbody, objectText, length_utf8Bytes_cons] at hpayload
    have hbrace : '{'.utf8Size = 1 := rfl
    rw [List.length_nil] at hpayload
    omega
  rw [readAdDelivery, if_neg (not_lt.2 hlength), hsplit]
  simp only
  rw [if_pos ⟨hne, List.all_eq_true.2 (Base64.encode_alphabet _), hsignature,
    List.all_eq_true.2 (Base64.encode_alphabet _)⟩, if_pos (hK.fromBase64url_encode _),
    hK.fromBase64url_encode, ← hbody, hK.fromUtf8_utf8Bytes, hK.parse_objectText _ hmembers
    (nodup_deliveryMembers context deliveryId issuedAt) hplain]
  change Option.filter _ (some (adDelivery context deliveryId issuedAt)) = _
  rw [Option.filter_some]
  exact if_congr (haccepts.trans (and_congr_left fun _ => eq_comm)) rfl rfl

end

/-- Functions that do what is relied on, with a simple digest. -/
def plainCodecs : Codecs where
  hmac := fun secret message =>
    List.replicate 32 (UInt8.ofNat ((utf8Bytes secret ++ message).map UInt8.toNat).sum)
  fromBase64url := Base64.decode
  fromUtf8 := fun bytes => ((bytes.toByteArray.utf8Decode?).getD #[]).toList
  parse := fun text => (Json.readObject text).map fun members =>
    .object (members.map fun member => (member.1, scalarValue member.2))
  stringOf
    | .text value => value
    | _ => "[object Object]".toList

theorem plainCodecs_specified : plainCodecs.Specified where
  length_hmac := fun _ _ => List.length_replicate
  fromBase64url_encode := Base64.decode_encode
  fromUtf8_utf8Bytes := fun text => by
    have hdecode := List.utf8Decode?_utf8Encode (l := text)
    rw [List.utf8Encode] at hdecode
    change ((((utf8Bytes text).toByteArray).utf8Decode?).getD #[]).toList = text
    rw [utf8Bytes, hdecode]
    rfl
  parse_objectText := fun members hne _ hplain => by
    have hread := Json.readObject_objectText hne fun member hm => (hplain member hm).1
    change (Json.readObject (objectText members)).map _ = _
    rw [hread]
    rfl
  stringOf_text := fun _ => rfl

theorem plain_letters : ∀ c, plain.isLetterOrNumber c = true → Json.plainChar c = true :=
  fun _ h => (simple_of_isAlphanum h).plain

/-- What a token says about the ad for the word `tea`. -/
def sampleContext : AdDeliveryContext where
  revisionId := "00000000-0000-4000-8000-000000000001".toList
  chainId := 8453
  contractAddress := "0x00000000000000000000000000000000000000aa".toList
  keywordId := hashText (plain.keccak256 (plain.toBytes "tea".toList))
  keyword := "tea".toList
  stakerAddress := "0x00000000000000000000000000000000000000bb".toList
  positionVersion := decimalText 3

theorem emitted_sampleContext : Emitted plain sampleContext where
  revisionId := by decide
  chainId := by decide
  contractAddress := by decide
  stakerAddress := by decide
  keyword := by decide
  keywordId := rfl
  positionVersion := ⟨3, by decide, by decide, rfl⟩

theorem delivery_round_trip_sample :
    readAdDelivery plainCodecs plain (some (signAdDelivery plainCodecs sampleContext
      "00000000-0000-4000-8000-000000000002".toList 1000 [])) sampleContext.revisionId [] 2000 =
      some (adDelivery sampleContext "00000000-0000-4000-8000-000000000002".toList 1000) := by
  have h := (delivery_round_trip plainCodecs plain plainCodecs_specified plain_letters
    (fun _ => Nat.mod_lt _ (by decide)) sampleContext emitted_sampleContext
    "00000000-0000-4000-8000-000000000002".toList (by decide) 1000 (by decide) (by decide) []
    sampleContext.revisionId 2000).2
  rwa [if_pos ⟨rfl, by decide, by decide⟩] at h

end Ads

end PreCommunity
