import PreCommunity.Market.Schema
import PreCommunity.Store.Sorting
import PreCommunity.Text.Words

/-!
# Keywords of a query

A query and a keyword are cut into tokens the same way.  The candidates of a query are its phrases
of at most five tokens, longest first.

* `Unicode`, `Unicode.Settled` : the Unicode functions, and what is relied on.
* `tokenizeAdsText`, `normalizeAdKeyword`, `adKeywordId` : the canonical form of a keyword and its
  id.
* `adsKeywordCandidates` : the candidates.
* `keyword_candidates` : they are the allowed phrases, in order.
-/

namespace PreCommunity

namespace Ads

open Market (Text Hash)

open Words (runs unwords Word)

/-- The functions of the runtime and of the hash library that keywords use. -/
structure Unicode where
  /-- `normalize('NFKC')`. -/
  nfkc : Text → Text
  /-- `toLowerCase`. -/
  lower : Text → Text
  /-- `\p{L}` or `\p{N}`. -/
  isLetterOrNumber : Char → Bool
  /-- `localeCompare` in English. -/
  localeCompare : Text → Text → ℤ
  /-- `toBytes` of the hash library, which decodes what is written in hexadecimal after `0x`. -/
  toBytes : Text → List UInt8
  /-- `keccak256`. -/
  keccak256 : List UInt8 → Hash

/-- An error with its text. -/
structure AdsTextValidationError where
  message : Text
deriving DecidableEq, Repr

def maxQueryCharacters : ℕ := 256
def maxQueryTokens : ℕ := 32
def maxKeywordCharacters : ℕ := 64
def maxKeywordTokens : ℕ := 5

/-- `AdsKeywordCandidate`. -/
structure AdsKeywordCandidate where
  keyword : Text
  tokenCount : ℕ
  characterCount : ℕ
  startToken : ℕ
deriving DecidableEq, Repr

/-- The bytes of a text in UTF-8. -/
def utf8Bytes (value : Text) : List UInt8 := value.flatMap String.utf8EncodeChar

section

variable (U : Unicode)

/-- `tokenizeAdsText`, without the indices, which are the positions in the list. -/
def tokenizeAdsText (value : Text) : List Text :=
  runs U.isLetterOrNumber (U.lower (U.nfkc value))

/-- `normalizeAdKeyword`. -/
def normalizeAdKeyword (value : Text) : Except AdsTextValidationError Text :=
  let tokens := tokenizeAdsText U value
  if tokens.length = 0 then .error ⟨"Keyword must contain a letter or number.".toList⟩
  else if maxKeywordTokens < tokens.length then
    .error ⟨"Keyword must contain at most 5 tokens.".toList⟩
  else if maxKeywordCharacters < (unwords tokens).length then
    .error ⟨"Keyword must contain at most 64 characters.".toList⟩
  else .ok (unwords tokens)

/-- `adKeywordId`. -/
def adKeywordId (value : Text) : Except AdsTextValidationError Hash :=
  (normalizeAdKeyword U value).map fun keyword => U.keccak256 (U.toBytes keyword)

/-! ### The candidates -/

/-- The tokens of a phrase. -/
def slice (tokens : List Text) (start size : ℕ) : List Text := (tokens.drop start).take size

/-- A phrase: `size` tokens from `start` on, joined by blanks. -/
def phrase (tokens : List Text) (start size : ℕ) : Text := unwords (slice tokens start size)

/-- The candidate of a phrase. -/
def candidateAt (tokens : List Text) (start size : ℕ) : AdsKeywordCandidate :=
  ⟨phrase tokens start size, size, (phrase tokens start size).length, start⟩

/-- The phrases that the two loops visit, without those that are too long. -/
def visited (tokens : List Text) : List AdsKeywordCandidate :=
  (List.range tokens.length).flatMap fun start =>
    ((((List.range maxKeywordTokens).map (· + 1)).takeWhile fun size =>
        decide (start + size ≤ tokens.length)).map (candidateAt tokens start)).filter
      fun candidate => decide (candidate.characterCount ≤ maxKeywordCharacters)

/-- One turn of the inner loop: the map keeps the phrase that starts first. -/
def consider (candidates : List AdsKeywordCandidate) (candidate : AdsKeywordCandidate) :
    List AdsKeywordCandidate :=
  if candidates.all fun previous => previous.keyword ≠ candidate.keyword then
    candidates ++ [candidate]
  else candidates.map fun previous =>
    if previous.keyword = candidate.keyword ∧ candidate.startToken < previous.startToken then
      candidate
    else previous

/-- The comparison of the sort. -/
def compareCandidates (left right : AdsKeywordCandidate) : ℤ :=
  if (right.tokenCount : ℤ) - left.tokenCount ≠ 0 then (right.tokenCount : ℤ) - left.tokenCount
  else if (right.characterCount : ℤ) - left.characterCount ≠ 0 then
    (right.characterCount : ℤ) - left.characterCount
  else if (left.startToken : ℤ) - right.startToken ≠ 0 then
    (left.startToken : ℤ) - right.startToken
  else U.localeCompare left.keyword right.keyword

/-- The candidates of a list of tokens. -/
def candidatesOf (tokens : List Text) : List AdsKeywordCandidate :=
  ((visited tokens).foldl consider []).insertionSort fun left right =>
    compareCandidates U left right ≤ 0

/-- `adsKeywordCandidates`. -/
def adsKeywordCandidates (query : Text) :
    Except AdsTextValidationError (List AdsKeywordCandidate) :=
  let normalized := U.nfkc query
  if maxQueryCharacters < normalized.length then
    .error ⟨"Query must contain at most 256 characters.".toList⟩
  else
    let tokens := tokenizeAdsText U normalized
    if tokens.length = 0 then .error ⟨"Query must contain a letter or number.".toList⟩
    else if maxQueryTokens < tokens.length then
      .error ⟨"Query must contain at most 32 tokens.".toList⟩
    else .ok (candidatesOf U tokens)

end

/-! ### What the map keeps -/

/-- The map after some candidates: each phrase once, where it starts first. -/
structure Keeps (seen kept : List AdsKeywordCandidate) : Prop where
  distinct : (kept.map (·.keyword)).Nodup
  sound : ∀ c ∈ kept, c ∈ seen
  first : ∀ c ∈ kept, ∀ d ∈ seen, d.keyword = c.keyword → c.startToken ≤ d.startToken
  complete : ∀ d ∈ seen, ∃ c ∈ kept, c.keyword = d.keyword

theorem Keeps.nil : Keeps [] [] := ⟨List.nodup_nil, by simp, by simp, by simp⟩

theorem Keeps.consider {seen kept : List AdsKeywordCandidate} {d : AdsKeywordCandidate}
    (h : Keeps seen kept) : Keeps (seen ++ [d]) (consider kept d) := by
  unfold Ads.consider
  by_cases hnew : kept.all fun previous => previous.keyword ≠ d.keyword
  · rw [if_pos hnew]
    simp only [List.all_eq_true, decide_eq_true_eq] at hnew
    refine ⟨?_, ?_, ?_, ?_⟩
    · rw [List.map_append, List.nodup_append]
      refine ⟨h.distinct, by simp, ?_⟩
      rintro k hk k' hk' rfl
      obtain ⟨c, hc, rfl⟩ := List.mem_map.1 hk
      rw [List.map_singleton, List.mem_singleton] at hk'
      exact hnew c hc hk'
    · intro c hc
      rcases List.mem_append.1 hc with hc | hc
      · exact List.mem_append_left _ (h.sound c hc)
      · exact List.mem_append_right _ hc
    · intro c hc e he hkey
      rcases List.mem_append.1 hc with hc | hc <;> rcases List.mem_append.1 he with he | he
      · exact h.first c hc e he hkey
      · exact absurd (List.mem_singleton.1 he ▸ hkey).symm (hnew c hc)
      · obtain ⟨c', hc', hkey'⟩ := h.complete e he
        rw [List.mem_singleton.1 hc] at hkey
        exact absurd (hkey'.trans hkey) (hnew c' hc')
      · rw [List.mem_singleton.1 hc, List.mem_singleton.1 he]
    · intro e he
      rcases List.mem_append.1 he with he | he
      · obtain ⟨c, hc, hkey⟩ := h.complete e he
        exact ⟨c, List.mem_append_left _ hc, hkey⟩
      · exact ⟨d, List.mem_append_right _ (List.mem_singleton_self d),
          by rw [List.mem_singleton.1 he]⟩
  · rw [if_neg hnew]
    simp only [List.all_eq_true, decide_eq_true_eq, not_forall, not_not] at hnew
    obtain ⟨old, hold, hkeyOld⟩ := hnew
    -- Replacing an entry leaves its phrase as it is.
    have hkeyword : ∀ c : AdsKeywordCandidate, (if c.keyword = d.keyword ∧
        d.startToken < c.startToken then d else c).keyword = c.keyword := by
      intro c
      split_ifs with hc
      · exact hc.1.symm
      · rfl
    refine ⟨?_, ?_, ?_, ?_⟩
    · rw [List.map_map]
      exact (List.map_congr_left fun c _ => hkeyword c) ▸ h.distinct
    · intro c hc
      obtain ⟨previous, hprevious, rfl⟩ := List.mem_map.1 hc
      split_ifs
      · exact List.mem_append_right _ (List.mem_singleton_self d)
      · exact List.mem_append_left _ (h.sound _ hprevious)
    · intro c hc e he hkey
      obtain ⟨previous, hprevious, rfl⟩ := List.mem_map.1 hc
      rw [hkeyword] at hkey
      split_ifs with hless
      · rcases List.mem_append.1 he with he | he
        · exact hless.2.le.trans (h.first _ hprevious e he hkey)
        · rw [List.mem_singleton.1 he]
      · rcases List.mem_append.1 he with he | he
        · exact h.first _ hprevious e he hkey
        · obtain rfl := List.mem_singleton.1 he
          exact not_lt.1 fun hlt => hless ⟨hkey.symm, hlt⟩
    · intro e he
      rcases List.mem_append.1 he with he | he
      · obtain ⟨c, hc, hkey⟩ := h.complete e he
        exact ⟨_, List.mem_map_of_mem hc, (hkeyword c).trans hkey⟩
      · obtain rfl := List.mem_singleton.1 he
        exact ⟨_, List.mem_map_of_mem hold, (hkeyword old).trans hkeyOld⟩

theorem Keeps.foldl {more seen kept : List AdsKeywordCandidate} (h : Keeps seen kept) :
    Keeps (seen ++ more) (more.foldl Ads.consider kept) := by
  induction more generalizing seen kept with
  | nil => simpa using h
  | cons d more ih =>
    have hnext := ih (h.consider (d := d))
    rwa [List.append_assoc, List.singleton_append] at hnext

theorem keeps_visited (tokens : List Text) :
    Keeps (visited tokens) ((visited tokens).foldl consider []) := by
  have h : Keeps ([] ++ visited tokens) ((visited tokens).foldl consider []) := Keeps.nil.foldl
  rwa [List.nil_append] at h

/-! ### The phrases -/

theorem takeWhile_eq_filter {α : Type*} {p : α → Bool} {l : List α}
    (h : l.Pairwise fun a b => p b = true → p a = true) : l.takeWhile p = l.filter p := by
  induction l with
  | nil => rfl
  | cons a l ih =>
    obtain ⟨ha, hl⟩ := List.pairwise_cons.1 h
    by_cases hp : p a = true
    · rw [List.takeWhile_cons_of_pos hp, List.filter_cons_of_pos hp, ih hl]
    · rw [List.takeWhile_cons_of_neg hp, List.filter_cons_of_neg hp]
      exact (List.filter_eq_nil_iff.2 fun b hb hpb => hp (ha b hb hpb)).symm

/-- **The loops** visit every phrase that is short enough. -/
theorem mem_visited {tokens : List Text} {c : AdsKeywordCandidate} :
    c ∈ visited tokens ↔ ∃ start size, 1 ≤ size ∧ size ≤ maxKeywordTokens ∧
      start + size ≤ tokens.length ∧
      (phrase tokens start size).length ≤ maxKeywordCharacters ∧
      c = candidateAt tokens start size := by
  have hloop : ∀ start, ((List.range maxKeywordTokens).map (· + 1)).takeWhile
      (fun size => decide (start + size ≤ tokens.length)) =
      ((List.range maxKeywordTokens).map (· + 1)).filter
        fun size => decide (start + size ≤ tokens.length) := by
    intro start
    apply takeWhile_eq_filter
    rw [List.pairwise_map]
    refine List.pairwise_lt_range.imp fun hlt h => ?_
    rw [decide_eq_true_eq] at *
    omega
  simp only [visited, hloop, List.mem_flatMap, List.mem_filter, List.mem_map, List.mem_range,
    decide_eq_true_eq]
  constructor
  · rintro ⟨start, -, ⟨size, ⟨⟨k, hk, rfl⟩, hsize⟩, rfl⟩, hlength⟩
    exact ⟨start, k + 1, by omega, by omega, hsize, hlength, rfl⟩
  · rintro ⟨start, size, hone, hfive, hsize, hlength, rfl⟩
    exact ⟨start, by omega, ⟨size, ⟨⟨size - 1, by omega, by omega⟩, hsize⟩, rfl⟩, hlength⟩

/-! ### The order -/

/-- More tokens first, then more characters, then the earlier start. -/
def Precedes (c d : AdsKeywordCandidate) : Prop :=
  d.tokenCount < c.tokenCount ∨ c.tokenCount = d.tokenCount ∧
    (d.characterCount < c.characterCount ∨ c.characterCount = d.characterCount ∧
      c.startToken < d.startToken)

instance : DecidableRel Precedes := fun _ _ => inferInstanceAs (Decidable (_ ∨ _))

theorem Precedes.trans {c d e : AdsKeywordCandidate} (h : Precedes c d) (h' : Precedes d e) :
    Precedes c e := by
  unfold Precedes at *
  omega

/-- Candidates with different tokens or starts are never tied. -/
theorem decides_compareCandidates (U : Unicode) {c d : AdsKeywordCandidate}
    (hne : ¬(c.tokenCount = d.tokenCount ∧ c.startToken = d.startToken)) :
    Sorting.Decides (fun left right => compareCandidates U left right ≤ 0) Precedes c d := by
  unfold Sorting.Decides compareCandidates Precedes
  dsimp only
  split_ifs <;> omega

theorem untied_of_keeps {tokens : List Text} {kept : List AdsKeywordCandidate}
    (h : Keeps (visited tokens) kept) :
    kept.Pairwise fun c d => ¬(c.tokenCount = d.tokenCount ∧ c.startToken = d.startToken) := by
  refine (List.pairwise_map.1 h.distinct).imp_of_mem fun hc hd hne heq => ?_
  obtain ⟨start, size, -, -, -, -, rfl⟩ := mem_visited.1 (h.sound _ hc)
  obtain ⟨start', size', -, -, -, -, rfl⟩ := mem_visited.1 (h.sound _ hd)
  obtain ⟨rfl, rfl⟩ : size = size' ∧ start = start' := heq
  exact hne rfl

theorem candidatesOf_sorted (U : Unicode) (tokens : List Text) :
    (candidatesOf U tokens).Pairwise Precedes := by
  have htrans : ∀ c d e, Precedes c d → Precedes d e → Precedes c e := fun _ _ _ => Precedes.trans
  exact Sorting.insertionSort_strict htrans
    ((untied_of_keeps (keeps_visited tokens)).imp fun hne => decides_compareCandidates U hne)

/-- The sorted list keeps what the map kept. -/
theorem keeps_candidatesOf (U : Unicode) (tokens : List Text) :
    Keeps (visited tokens) (candidatesOf U tokens) := by
  have h := keeps_visited tokens
  have hperm : (candidatesOf U tokens).Perm ((visited tokens).foldl consider []) :=
    List.perm_insertionSort _ _
  refine ⟨(hperm.map _).nodup_iff.2 h.distinct, fun c hc => h.sound c (hperm.mem_iff.1 hc),
    fun c hc => h.first c (hperm.mem_iff.1 hc), fun d hd => ?_⟩
  obtain ⟨c, hc, hkey⟩ := h.complete d hd
  exact ⟨c, hperm.mem_iff.2 hc, hkey⟩

/-! ### The normal form -/

/-- What is relied on: a blank belongs to no token, and tokens are in normal form already. -/
structure Unicode.Settled (U : Unicode) : Prop where
  blank : U.isLetterOrNumber ' ' = false
  idempotent : ∀ value words, words <:+: tokenizeAdsText U value →
    U.lower (U.nfkc (unwords words)) = unwords words

theorem slice_infix {tokens : List Text} {start size : ℕ} : slice tokens start size <:+: tokens :=
  ( List.take_prefix size (tokens.drop start)).isInfix.trans (tokens.drop_suffix start).isInfix

/-- The tokens of a phrase are the tokens it was made of. -/
theorem tokenize_unwords {U : Unicode} (hU : U.Settled) {value : Text} {words : List Text}
    (h : words <:+: tokenizeAdsText U value) : tokenizeAdsText U (unwords words) = words := by
  rw [tokenizeAdsText, hU.idempotent value words h]
  exact Words.runs_unwords hU.blank fun word hword => Words.word_of_mem_runs (h.mem hword)

/-- **A short phrase** is a keyword in normal form. -/
theorem normalize_unwords {U : Unicode} (hU : U.Settled) {value : Text} {words : List Text}
    (h : words <:+: tokenizeAdsText U value) (hone : 1 ≤ words.length)
    (hfive : words.length ≤ maxKeywordTokens)
    (hlength : (unwords words).length ≤ maxKeywordCharacters) :
    normalizeAdKeyword U (unwords words) = .ok (unwords words) := by
  simp only [normalizeAdKeyword, tokenize_unwords hU h]
  rw [if_neg (by omega), if_neg (by omega), if_neg (by omega)]

theorem adKeywordId_of_normal {U : Unicode} {keyword : Text}
    (h : normalizeAdKeyword U keyword = .ok keyword) :
    adKeywordId U keyword = .ok (U.keccak256 (U.toBytes keyword)) := by
  rw [adKeywordId, h]
  rfl

/-! ### The result -/

/-- **The candidates of a query** are its allowed phrases, each once and where it starts first, in
a strict order, and each is a keyword in normal form whose id is its hash. -/
theorem keyword_candidates (U : Unicode) (hU : U.Settled) (query : Text)
    (hcharacters : (U.nfkc query).length ≤ maxQueryCharacters) (tokens : List Text)
    (htokens : tokens = tokenizeAdsText U (U.nfkc query)) (hsome : tokens ≠ [])
    (hmany : tokens.length ≤ maxQueryTokens) :
    ∃ candidates, adsKeywordCandidates U query = .ok candidates ∧
      (∀ keyword, keyword ∈ candidates.map (·.keyword) ↔
        ∃ start size, 1 ≤ size ∧ size ≤ maxKeywordTokens ∧ start + size ≤ tokens.length ∧
          keyword.length ≤ maxKeywordCharacters ∧ keyword = phrase tokens start size) ∧
      (candidates.map (·.keyword)).Nodup ∧
      (∀ c ∈ candidates, c = candidateAt tokens c.startToken c.tokenCount ∧
        ∀ start size, 1 ≤ size → size ≤ maxKeywordTokens → start + size ≤ tokens.length →
          phrase tokens start size = c.keyword → c.startToken ≤ start) ∧
      candidates.Pairwise Precedes ∧
      ∀ c ∈ candidates, normalizeAdKeyword U c.keyword = .ok c.keyword ∧
        adKeywordId U c.keyword = .ok (U.keccak256 (U.toBytes c.keyword)) := by
  subst htokens
  have hkeeps := keeps_candidatesOf U (tokenizeAdsText U (U.nfkc query))
  refine ⟨candidatesOf U _, ?_, fun keyword => ⟨fun h => ?_, ?_⟩, hkeeps.distinct,
    fun c hc => ?_, candidatesOf_sorted U _, fun c hc => ?_⟩
  · have hlength := fun h => hsome (List.length_eq_zero_iff.1 h)
    simp only [adsKeywordCandidates]
    rw [if_neg (by omega), if_neg hlength, if_neg (by omega)]
  · obtain ⟨c, hc, rfl⟩ := List.mem_map.1 h
    obtain ⟨start, size, hone, hfive, hsize, hshort, rfl⟩ := mem_visited.1 (hkeeps.sound c hc)
    exact ⟨start, size, hone, hfive, hsize, hshort, rfl⟩
  · rintro ⟨start, size, hone, hfive, hsize, hshort, rfl⟩
    obtain ⟨c, hc, hkey⟩ := hkeeps.complete (candidateAt _ start size)
      (mem_visited.2 ⟨start, size, hone, hfive, hsize, hshort, rfl⟩)
    exact List.mem_map.2 ⟨c, hc, hkey⟩
  · obtain ⟨start, size, hone, hfive, hsize, hshort, rfl⟩ := mem_visited.1 (hkeeps.sound c hc)
    refine ⟨rfl, fun start' size' hone' hfive' hsize' hkey => ?_⟩
    exact hkeeps.first _ hc (candidateAt _ start' size')
      (mem_visited.2 ⟨start', size', hone', hfive', hsize', hkey ▸ hshort, rfl⟩) hkey
  · obtain ⟨start, size, hone, hfive, hsize, hshort, rfl⟩ := mem_visited.1 (hkeeps.sound c hc)
    have hlength : (slice (tokenizeAdsText U (U.nfkc query)) start size).length = size := by
      simp only [slice, List.length_take, List.length_drop]
      omega
    have hnormal := normalize_unwords hU slice_infix (hone.trans hlength.ge)
      (hlength.le.trans hfive) hshort
    exact ⟨hnormal, adKeywordId_of_normal hnormal⟩

/-! ### Plain letters -/

/-- The value of a hexadecimal digit. -/
def hexDigit (c : Char) : ℕ :=
  if c.isDigit then c.toNat - '0'.toNat else c.toLower.toNat - 'a'.toNat + 10

/-- The bytes that hexadecimal digits write, two digits a byte. -/
def hexBytes : Text → List UInt8
  | high :: low :: digits => UInt8.ofNat (16 * hexDigit high + hexDigit low) :: hexBytes digits
  | _ => []

/-- The bytes that a text writes in hexadecimal after `0x`, or else its bytes in UTF-8. -/
def hexOrUtf8Bytes (value : Text) : List UInt8 :=
  match value with
  | '0' :: 'x' :: digits =>
    if digits.all Char.isHexDigit then
      hexBytes (if digits.length % 2 = 1 then '0' :: digits else digits)
    else utf8Bytes value
  | _ => utf8Bytes value

/-- The functions on texts without accents, with a simple hash. -/
def plain : Unicode where
  nfkc := fun value => value
  lower := fun value => value.map Char.toLower
  isLetterOrNumber := Char.isAlphanum
  localeCompare := fun left right =>
    if left = right then 0 else if String.ofList left < String.ofList right then -1 else 1
  toBytes := hexOrUtf8Bytes
  keccak256 := fun bytes =>
    bytes.foldl (fun hash byte => hash * 257 + byte.toNat + 1) 0 % 2 ^ 256

theorem toLower_of_not {c : Char} (h : ¬(c.val ≥ 'A'.val ∧ c.val ≤ 'Z'.val)) : c.toLower = c := by
  exact dif_neg h

theorem toLower_toLower (c : Char) : c.toLower.toLower = c.toLower := by
  by_cases h : c.val ≥ 'A'.val ∧ c.val ≤ 'Z'.val
  · apply toLower_of_not
    have hval : c.toLower.val = c.val + ('a'.val - 'A'.val) := congrArg Char.val (dif_pos h)
    rw [hval]
    obtain ⟨hA, hZ⟩ := h
    simp only [ge_iff_le, UInt32.le_iff_toNat_le] at *
    rintro ⟨-, hle⟩
    rw [UInt32.toNat_add] at hle
    have hdiff : ('a'.val - 'A'.val).toNat = 32 := by decide
    have hupper : 'A'.val.toNat = 65 := by decide
    have hlast : 'Z'.val.toNat = 90 := by decide
    omega
  · rw [toLower_of_not h, toLower_of_not h]

theorem plain_settled : plain.Settled := by
  refine ⟨rfl, fun value words hwords => ?_⟩
  refine (List.map_congr_left fun c hc => ?_).trans (List.map_id _)
  obtain rfl | ⟨word, hword, hchar⟩ := Words.mem_unwords hc
  · rfl
  · obtain hnil | hmem := Words.mem_of_mem_runsFrom (hwords.mem hword) hchar
    · cases hnil
    · obtain ⟨d, -, rfl⟩ := List.mem_map.1 hmem
      exact toLower_toLower d

theorem keyword_candidates_repeated :
    ∃ candidates, adsKeywordCandidates plain "Buy tea, buy".toList = .ok candidates ∧
      (candidates.map (·.keyword)).Nodup ∧ candidates.Pairwise Precedes := by
  obtain ⟨candidates, hresult, -, hdistinct, -, hsorted, -⟩ :=
    keyword_candidates plain plain_settled "Buy tea, buy".toList (by decide)
      ["buy".toList, "tea".toList, "buy".toList] (by decide) (by decide) (by decide)
  exact ⟨candidates, hresult, hdistinct, hsorted⟩

end Ads

end PreCommunity
