import PreCommunity.Calendar.Dates
import PreCommunity.Market.Publication
import PreCommunity.Market.Rates
import PreCommunity.Text.Exact
import Mathlib.Tactic.FieldSimp

/-!
# The way of a price

A provider's answer is a JSON text.  The worker takes the price and its time from it, stores them,
reads the latest row back and publishes the price as a whole number of `10⁻¹⁸` dollars.

* `NumberLiteral`, `NumberLiteral.toRat` : a number of the text, and its exact value.
* `parsePreUsdQuote`, `saveQuote`, `readLatestPreUsdPrice`, `publicationQuote` : the stages.
* `quoteOf_eq_ok`, `saveQuote_fits`, `findLatest_saved`, `spells_read`,
  `publicationQuote_of_spells` : what each one does.
* `price_pipeline` : the published price is the number of the text.
-/

namespace PreCommunity

namespace Price

open Market (Text Id)

open Calendar (Date DateTexts)

open Decimal (Exact signum value Whole)

/-! ### The provider's text -/

/-- The exponent of a number: `e` or `E`, a sign, digits. -/
structure ExponentPart where
  letter : Char
  sign : Option Char
  digits : Text
  letter_eq : letter = 'e' ∨ letter = 'E'
  sign_eq : ∀ c ∈ sign, c = '+' ∨ c = '-'
  digits_spelled : digits ≠ [] ∧ ∀ c ∈ digits, c.isDigit = true

/-- A number of a JSON text. -/
structure NumberLiteral where
  negative : Bool
  whole : Text
  fraction : Text
  exponent : Option ExponentPart
  whole_spelled : Whole whole
  fraction_spelled : ∀ c ∈ fraction, c.isDigit = true

/-- The characters of an exponent. -/
def ExponentPart.source (part : ExponentPart) : Text :=
  part.letter :: (part.sign.toList ++ part.digits)

/-- The number of an exponent. -/
def ExponentPart.toInt (part : ExponentPart) : ℤ :=
  if part.sign = some '-' then -value part.digits else value part.digits

namespace NumberLiteral

/-- The characters of a number, which the reviver of `JSON.parse` is given. -/
def source (literal : NumberLiteral) : Text :=
  (if literal.negative then ['-'] else []) ++ (Decimal.join literal.whole literal.fraction ++
    literal.exponent.elim [] ExponentPart.source)

/-- The power of ten that a number is multiplied by. -/
def scale (literal : NumberLiteral) : ℤ := literal.exponent.elim 0 ExponentPart.toInt

/-- **The exact value** of a number. -/
def toRat (literal : NumberLiteral) : ℚ :=
  signum literal.negative *
    (value literal.whole + value literal.fraction / 10 ^ literal.fraction.length) *
      10 ^ literal.scale

/-- `new Prisma.Decimal(source)`. -/
def toDecimal (literal : NumberLiteral) : Exact :=
  Exact.ofParts literal.negative (value (literal.whole ++ literal.fraction))
    (literal.scale - literal.fraction.length)

end NumberLiteral

/-- What `JSON.parse` makes of a text, with the numbers as they are written. -/
inductive JsonTree where
  | null
  | bool (value : Bool)
  | number (literal : NumberLiteral)
  | text (value : Text)
  | array (elements : List JsonTree)
  | object (members : List (Text × JsonTree))

/-- A property; `none` for `undefined`. -/
def JsonTree.member (tree : JsonTree) (key : Text) : Option JsonTree :=
  match tree with
  | .object members => members.lookup key
  | _ => none

/-- The number, when a value is one. -/
def numberOf : Option JsonTree → Option NumberLiteral
  | some (.number literal) => some literal
  | _ => none

/-- `presearch.usd` and `presearch.last_updated_at`. -/
def quotedNumber (payload : JsonTree) (name : Text) : Option NumberLiteral :=
  numberOf ((payload.member "presearch".toList).bind fun quote => quote.member name)

/-- A quote; the date is `none` when it is invalid. -/
structure ParsedQuote where
  priceUsd : Exact
  quotedAt : Option Date

/-- `Number.MAX_SAFE_INTEGER`. -/
def maxSafeInteger : ℕ := 9007199254740991

def invalidPriceData : String := "CoinGecko returned invalid price data"

/-- The checks of the two numbers; the test of the digits comes before the value that they spell
is used. -/
def quoteOf (usd updatedAt : NumberLiteral) (now : ℕ) : Except String ParsedQuote :=
  let priceUsd := usd.toDecimal
  let seconds := value updatedAt.source
  if priceUsd.toRat ≤ 0 ∨ 10 ^ 20 ≤ priceUsd.toRat ∨ 18 < priceUsd.decimalPlaces ∨
      ¬updatedAt.source.all Char.isDigit = true ∨ maxSafeInteger < seconds ∨ seconds = 0 ∨
      now + 60000 < seconds * 1000 then
    .error invalidPriceData
  else .ok { priceUsd := priceUsd, quotedAt := Date.ofTime (seconds * 1000 : ℕ) }

/-- `parsePreUsdQuote`; `parse` is `JSON.parse`, and `none` when it throws. -/
def parsePreUsdQuote (parse : Text → Option JsonTree) (body : Text) (now : ℕ) :
    Except String ParsedQuote :=
  match parse body with
  | none => .error invalidPriceData
  | some payload =>
    match quotedNumber payload "usd".toList, quotedNumber payload "last_updated_at".toList with
    | some usd, some updatedAt => quoteOf usd updatedAt now
    | _, _ => .error invalidPriceData

/-! ### The table -/

/-- A value of a column `Decimal(38, 18)`. -/
structure ColumnDecimal where
  negative : Bool
  units : ℕ
  bound : units < 10 ^ 38

/-- The units of `10⁻¹⁸` that the column keeps: more decimals are rounded half away from zero. -/
def roundedUnits (d : Exact) : ℕ :=
  if d.decimalPlaces ≤ 18 then d.units 18
  else
    let divisor := 10 ^ (d.decimalPlaces - 18)
    (2 * d.coefficient + divisor) / (2 * divisor)

/-- Write a decimal; `none` when it does not fit. -/
def toColumn (d : Exact) : Option ColumnDecimal :=
  if h : roundedUnits d < 10 ^ 38 then
    some { negative := d.negative, units := roundedUnits d, bound := h }
  else none

/-- Read a decimal. -/
def ColumnDecimal.read (column : ColumnDecimal) : Exact :=
  Exact.ofParts column.negative column.units (-18)

/-- A row of `PreUsdPrice`. -/
structure PreUsdPrice where
  id : Id
  source : Text
  assetId : Text
  priceUsd : ColumnDecimal
  quotedAt : Date
  fetchedAt : Date

/-- `where: { source: 'COINGECKO', assetId: 'presearch' }`. -/
def isPresearch (row : PreUsdPrice) : Bool :=
  decide (row.source = "COINGECKO".toList) && decide (row.assetId = "presearch".toList)

/-- The first row that no other one is later than. -/
def latestRow (rows : List PreUsdPrice) : Option PreUsdPrice :=
  rows.find? fun row => rows.all fun other => decide (other.quotedAt.time ≤ row.quotedAt.time)

/-- `findFirst`, with `orderBy: { quotedAt: 'desc' }`. -/
def findLatest (rows : List PreUsdPrice) : Option PreUsdPrice := latestRow (rows.filter isPresearch)

/-- `PreUsdPriceRefreshResult`, when the provider was asked. -/
inductive RefreshOutcome where
  | updated | unchanged
deriving DecidableEq, Repr

/-- The writes of `collectPreUsdPrice`: `createMany` skips a row whose source, asset and time are
there.  `none` when a value cannot be written. -/
def saveQuote (rows : List PreUsdPrice) (quote : ParsedQuote) (id : Id) (fetchedAt : Date) :
    Option (List PreUsdPrice × RefreshOutcome) :=
  quote.quotedAt.bind fun quotedAt => (toColumn quote.priceUsd).map fun priceUsd =>
    let latest := findLatest rows
    let row : PreUsdPrice :=
      { id := id
        source := "COINGECKO".toList
        assetId := "presearch".toList
        priceUsd := priceUsd
        quotedAt := quotedAt
        fetchedAt := fetchedAt }
    if rows.any fun other => isPresearch other && decide (other.quotedAt = quotedAt) then
      (rows, .unchanged)
    else
      (rows ++ [row],
        if latest.all fun latest => decide (latest.quotedAt.time < quotedAt.time) then .updated
        else .unchanged)

/-- `PreUsdQuote`. -/
structure PreUsdQuote where
  id : Id
  source : Text
  assetId : Text
  priceUsd : Text
  quotedAt : Text
  fetchedAt : Text

/-- `readLatestPreUsdPrice`. -/
def readLatestPreUsdPrice (R : DateTexts) (rows : List PreUsdPrice) : Option PreUsdQuote :=
  (findLatest rows).map fun quote =>
    { id := quote.id
      source := "COINGECKO".toList
      assetId := "presearch".toList
      priceUsd := quote.priceUsd.read.toFixed
      quotedAt := R.toISOString quote.quotedAt
      fetchedAt := R.toISOString quote.fetchedAt }

/-! ### The publication -/

/-- What is published: `priceE18Raw`, `quotedAt` in seconds and `quoteId`. -/
structure PublishedQuote where
  priceE18Raw : Text
  quotedAt : ℕ
  quoteId : Id

/-- `publicationQuote`, with the text of the time: `Date.parse` reads it.  A time that is not
after the beginning of 1970 is refused like the beginning itself. -/
def publicationQuote (R : DateTexts) (quote : Option PreUsdQuote) (now : ℕ) :
    Except Market.Failure PublishedQuote :=
  (Market.publicationQuote (quote.bind fun quote => (R.toDate quote.quotedAt).map fun date =>
    { id := quote.id, priceUsd := quote.priceUsd, quotedAt := date.time.toNat }) now).map
    fun published =>
      { priceE18Raw := Decimal.decimalText published.1
        quotedAt := published.2.1
        quoteId := published.2.2 }

/-! ### The numbers of the text -/

namespace NumberLiteral

variable (literal : NumberLiteral)

/-- **The decimal** of a number has its exact value. -/
theorem toRat_toDecimal : literal.toDecimal.toRat = literal.toRat := by
  rw [toDecimal, Decimal.toRat_ofParts, toRat, Decimal.value_append, zpow_sub₀ (by decide),
    zpow_natCast]
  have hten : (10 : ℚ) ^ literal.fraction.length ≠ 0 := pow_ne_zero _ (by decide)
  push_cast
  field_simp

/-- **A number of digits** is the whole number that they spell. -/
theorem toRat_of_digits (h : literal.source.all Char.isDigit = true) :
    literal.toRat = value literal.source := by
  rw [List.all_eq_true] at h
  -- a sign, a point or an exponent would be a character that is no digit
  have hsign : literal.negative = false := by
    by_contra hnegative
    rw [Bool.not_eq_false] at hnegative
    refine absurd (h '-' ?_) (by decide)
    rw [source, if_pos hnegative]
    exact List.mem_cons_self
  have hpoint : literal.fraction = [] := by
    by_contra hfraction
    refine absurd (h '.' ?_) (by decide)
    rw [source, Decimal.join, if_neg hfraction]
    simp
  have hexponent : literal.exponent = none := by
    rcases hpart : literal.exponent with _ | part
    · rfl
    · have hletter := h part.letter (by
        rw [source, hpart, Option.elim_some, ExponentPart.source]
        simp)
      rcases part.letter_eq with heq | heq <;> rw [heq] at hletter <;>
        exact absurd hletter (by decide)
  rw [toRat, scale, source, hsign, hpoint, hexponent, Decimal.join]
  simp [signum, value]

end NumberLiteral

/-- **An accepted quote** has the exact price and the time of the text. -/
theorem quoteOf_eq_ok {usd updatedAt : NumberLiteral} {now : ℕ} {quote : ParsedQuote} :
    quoteOf usd updatedAt now = .ok quote ↔
      0 < usd.toRat ∧ usd.toRat < 10 ^ 20 ∧ usd.toDecimal.decimalPlaces ≤ 18 ∧
        updatedAt.source.all Char.isDigit = true ∧ value updatedAt.source ≤ maxSafeInteger ∧
        0 < value updatedAt.source ∧ value updatedAt.source * 1000 ≤ now + 60000 ∧
        quote = { priceUsd := usd.toDecimal
                  quotedAt := Date.ofTime (value updatedAt.source * 1000 : ℕ) } := by
  rw [quoteOf, usd.toRat_toDecimal]
  split_ifs with hbad
  · refine iff_of_false nofun ?_
    rintro ⟨h1, h2, h3, h4, h5, h6, h7, -⟩
    rcases hbad with h | h | h | h | h | h | h
    · exact absurd h1 (not_lt.2 h)
    · exact absurd h2 (not_lt.2 h)
    · omega
    · exact h h4
    · omega
    · omega
    · omega
  · simp only [not_or, not_le, not_lt, not_not] at hbad
    obtain ⟨h1, h2, h3, h4, h5, h6, h7⟩ := hbad
    constructor
    · intro h
      exact ⟨h1, h2, h3, h4, h5, Nat.pos_of_ne_zero h6, h7, (Except.ok.inj h).symm⟩
    · rintro ⟨-, -, -, -, -, -, -, rfl⟩
      rfl

theorem parsePreUsdQuote_of_numbers {parse : Text → Option JsonTree} {body : Text}
    {payload : JsonTree} (hparse : parse body = some payload) {usd updatedAt : NumberLiteral}
    (husd : quotedNumber payload "usd".toList = some usd)
    (htime : quotedNumber payload "last_updated_at".toList = some updatedAt) (now : ℕ) :
    parsePreUsdQuote parse body now = quoteOf usd updatedAt now := by
  rw [parsePreUsdQuote, hparse]
  simp only [husd, htime]

/-- An accepted body has the two numbers. -/
theorem numbers_of_parsePreUsdQuote {parse : Text → Option JsonTree} {body : Text} {now : ℕ}
    {quote : ParsedQuote} (h : parsePreUsdQuote parse body now = .ok quote) :
    ∃ payload usd updatedAt, parse body = some payload ∧
      quotedNumber payload "usd".toList = some usd ∧
      quotedNumber payload "last_updated_at".toList = some updatedAt ∧
      quoteOf usd updatedAt now = .ok quote := by
  rw [parsePreUsdQuote] at h
  rcases hparse : parse body with _ | payload
  · rw [hparse] at h
    cases h
  · rw [hparse] at h
    dsimp only at h
    rcases husd : quotedNumber payload "usd".toList with _ | usd
    · rw [husd] at h
      cases h
    rcases htime : quotedNumber payload "last_updated_at".toList with _ | updatedAt
    · rw [husd, htime] at h
      cases h
    · rw [husd, htime] at h
      exact ⟨payload, usd, updatedAt, rfl, husd, htime, h⟩

/-! ### The column and the table -/

/-- **The column** keeps a decimal that has at most 18 decimals. -/
theorem toRat_read {d : Exact} (hplaces : d.decimalPlaces ≤ 18) {column : ColumnDecimal}
    (h : toColumn d = some column) :
    column.read.toRat = d.toRat ∧ column.negative = d.negative := by
  rw [toColumn] at h
  split_ifs at h with hbound
  obtain rfl := Option.some.inj h
  have hunits : roundedUnits d = d.units 18 := if_pos hplaces
  have hvalue := d.toRat_mul_pow hplaces
  refine ⟨?_, rfl⟩
  have hten : (10 : ℚ) ^ (-18 : ℤ) * 10 ^ 18 = 1 := by
    rw [← zpow_natCast, ← zpow_add₀ (by decide)]
    rfl
  rw [ColumnDecimal.read, Decimal.toRat_ofParts]
  dsimp only
  rw [hunits, ← hvalue, mul_assoc, mul_comm (10 ^ 18 : ℚ), hten, mul_one]

theorem not_negative_of_pos {d : Exact} (h : 0 < d.toRat) : d.negative = false := by
  by_contra hnegative
  rw [Bool.not_eq_false] at hnegative
  have hmagnitude : (0 : ℚ) ≤ d.coefficient * 10 ^ d.exponent :=
    mul_nonneg (Nat.cast_nonneg _) (zpow_nonneg (by decide) _)
  rw [Exact.toRat, hnegative, signum, if_pos rfl, mul_assoc, neg_one_mul] at h
  exact absurd h (not_lt.2 (neg_nonpos.2 hmagnitude))

/-- **A price that is accepted** fits into the column. -/
theorem toColumn_isSome {d : Exact} (hsmall : d.toRat < 10 ^ 20) (hpositive : 0 < d.toRat)
    (hplaces : d.decimalPlaces ≤ 18) : ∃ column, toColumn d = some column := by
  have hsign : d.negative = false := not_negative_of_pos hpositive
  have hunits : ((d.units 18 : ℕ) : ℚ) = d.toRat * 10 ^ 18 := by
    rw [d.toRat_mul_pow hplaces, hsign, signum, if_neg Bool.false_ne_true, one_mul]
  have hbound : roundedUnits d < 10 ^ 38 := by
    rw [roundedUnits, if_pos hplaces]
    have h : ((d.units 18 : ℕ) : ℚ) < 10 ^ 20 * 10 ^ 18 := by
      rw [hunits]
      exact mul_lt_mul_of_pos_right hsmall (by decide)
    rw [← pow_add] at h
    exact_mod_cast h
  exact ⟨_, dif_pos hbound⟩

theorem latestRow_isLatest {rows : List PreUsdPrice} {row : PreUsdPrice}
    (h : latestRow rows = some row) : ∀ other ∈ rows, other.quotedAt.time ≤ row.quotedAt.time := by
  have hall := List.find?_some h
  exact fun other hother => of_decide_eq_true (List.all_eq_true.1 hall other hother)

theorem exists_latest {rows : List PreUsdPrice} (hne : rows ≠ []) :
    ∃ row ∈ rows, ∀ other ∈ rows, other.quotedAt.time ≤ row.quotedAt.time := by
  induction rows with
  | nil => exact absurd rfl hne
  | cons first rows ih =>
    by_cases hnil : rows = []
    · subst hnil
      refine ⟨first, List.mem_cons_self, fun other hother => ?_⟩
      rw [List.mem_singleton.1 hother]
    · obtain ⟨row, hrow, hlatest⟩ := ih hnil
      rcases le_total first.quotedAt.time row.quotedAt.time with hle | hle
      · exact ⟨row, List.mem_cons_of_mem first hrow, List.forall_mem_cons.2 ⟨hle, hlatest⟩⟩
      · exact ⟨first, List.mem_cons_self, List.forall_mem_cons.2
          ⟨le_refl _, fun other hother => (hlatest other hother).trans hle⟩⟩

theorem eq_nil_of_latestRow {rows : List PreUsdPrice} (h : latestRow rows = none) : rows = [] := by
  by_contra hne
  obtain ⟨row, hrow, hlatest⟩ := exists_latest hne
  refine List.find?_eq_none.1 h row hrow (List.all_eq_true.2 fun other hother => ?_)
  exact decide_eq_true (hlatest other hother)

/-- A row after all others is the latest one. -/
theorem latestRow_append {rows : List PreUsdPrice} {row : PreUsdPrice}
    (h : ∀ other ∈ rows, other.quotedAt.time < row.quotedAt.time) :
    latestRow (rows ++ [row]) = some row := by
  have hrows : rows.find? (fun candidate => (rows ++ [row]).all fun other =>
      decide (other.quotedAt.time ≤ candidate.quotedAt.time)) = none := by
    refine List.find?_eq_none.2 fun candidate hcandidate hall => ?_
    have hle := of_decide_eq_true (List.all_eq_true.1 hall row (by simp))
    exact absurd (h candidate hcandidate) (not_lt.2 hle)
  have hlast : (rows ++ [row]).all (fun other =>
      decide (other.quotedAt.time ≤ row.quotedAt.time)) = true := by
    refine List.all_eq_true.2 fun other hother => decide_eq_true ?_
    rcases List.mem_append.1 hother with hother | hother
    · exact (h other hother).le
    · rw [List.mem_singleton.1 hother]
  rw [latestRow, List.find?_append, hrows, Option.none_or, List.find?_singleton, if_pos hlast]

/-- **A quote that was stored as the newest one** is the row that is found. -/
theorem findLatest_saved {rows rows' : List PreUsdPrice} {quote : ParsedQuote} {id : Id}
    {fetchedAt : Date} (h : saveQuote rows quote id fetchedAt = some (rows', .updated)) :
    ∃ date column, quote.quotedAt = some date ∧ toColumn quote.priceUsd = some column ∧
      findLatest rows' = some ⟨id, "COINGECKO".toList, "presearch".toList, column, date,
        fetchedAt⟩ := by
  rw [saveQuote] at h
  obtain ⟨date, hdate, h⟩ := Option.bind_eq_some_iff.1 h
  obtain ⟨column, hcolumn, h⟩ := Option.map_eq_some_iff.1 h
  refine ⟨date, column, hdate, hcolumn, ?_⟩
  dsimp only at h
  split_ifs at h with hthere hlater
  · cases (Prod.mk.inj h).2
  · obtain rfl := (Prod.mk.inj h).1
    rw [findLatest, List.filter_append, List.filter_singleton]
    refine latestRow_append fun other hother => ?_
    -- the new row is after the latest one before it
    rcases hlatest : findLatest rows with _ | latest
    · rw [eq_nil_of_latestRow hlatest] at hother
      cases hother
    · rw [hlatest, Option.all_some] at hlater
      exact lt_of_le_of_lt (latestRow_isLatest hlatest other hother) (of_decide_eq_true hlater)
  · cases (Prod.mk.inj h).2

/-- **A quote that fits** is written, and it is the newest one when it is later than all others. -/
theorem saveQuote_fits {rows : List PreUsdPrice} {quote : ParsedQuote} {date : Date}
    {column : ColumnDecimal} (hdate : quote.quotedAt = some date)
    (hcolumn : toColumn quote.priceUsd = some column) (id : Id) (fetchedAt : Date) :
    ∃ rows' outcome, saveQuote rows quote id fetchedAt = some (rows', outcome) ∧
      ((∀ row ∈ rows, isPresearch row = true → row.quotedAt.time < date.time) →
        outcome = .updated) := by
  rw [saveQuote, hdate, Option.bind_some, hcolumn, Option.map_some]
  refine ⟨_, _, rfl, fun hnewer => ?_⟩
  have hthere : (rows.any fun other =>
      isPresearch other && decide (other.quotedAt = date)) = false := by
    refine List.any_eq_false.2 fun other hother hsame => ?_
    rw [Bool.and_eq_true, decide_eq_true_eq] at hsame
    exact absurd (hsame.2 ▸ hnewer other hother hsame.1) (lt_irrefl _)
  have hlater : ((findLatest rows).all fun latest =>
      decide (latest.quotedAt.time < date.time)) = true := by
    rcases hlatest : findLatest rows with _ | latest
    · rfl
    · obtain ⟨hmem, hpresearch⟩ := List.mem_filter.1 (List.mem_of_find?_eq_some hlatest)
      exact decide_eq_true (hnewer latest hmem hpresearch)
  rw [hthere, hlater]
  rfl

/-! ### The publication -/

/-- **The checks of a publication** accept a positive price and a time that is not too late. -/
theorem publicationQuote_of_spells {R : DateTexts} (hR : R.Specified) {quote : PreUsdQuote}
    {units : ℕ} (hprice : Decimal.Spells units 18 quote.priceUsd) (hunits : 0 < units)
    (hbound : units < 10 ^ 38) {date : Date} (hdate : quote.quotedAt = R.toISOString date)
    (hpositive : 0 < date.time) {now : ℕ} (hnow : date.time ≤ now + 60000) :
    publicationQuote R (some quote) now =
      .ok ⟨Decimal.decimalText units, date.time.toNat / 1000, quote.id⟩ := by
  have hvalid := date.valid
  have hmax : (10 : ℕ) ^ 38 ≤ Market.maxUint256 := by decide
  have hgood : ¬(units = 0 ∨ Market.maxUint256 < units ∨ 2 ^ 53 ≤ date.time.toNat ∨
      date.time.toNat = 0 ∨ now + 60000 < date.time.toNat) := by
    omega
  rw [publicationQuote, Option.bind_some, hdate, hR.toDate_toISOString, Option.map_some,
    Market.publicationQuote]
  dsimp only
  rw [Market.decimalE18_of_spells hprice]
  dsimp only
  rw [if_neg hgood]
  rfl

/-- **A price that was stored** is read back, and its text spells its exact value. -/
theorem spells_read {d : Exact} (hpositive : 0 < d.toRat) (hsmall : d.toRat < 10 ^ 20)
    (hplaces : d.decimalPlaces ≤ 18) {column : ColumnDecimal} (h : toColumn d = some column) :
    ∃ units : ℕ, (units : ℚ) = d.toRat * 10 ^ 18 ∧ 0 < units ∧ units < 10 ^ 38 ∧
      Decimal.Spells units 18 column.read.toFixed := by
  obtain ⟨hread, hcolumn⟩ := toRat_read hplaces h
  have hsign : column.read.negative = false := by
    rw [ColumnDecimal.read, Decimal.negative_ofParts, hcolumn, not_negative_of_pos hpositive]
  have hplaces' : column.read.decimalPlaces ≤ 18 := by
    rw [Exact.decimalPlaces_le_iff, hread, ← Exact.decimalPlaces_le_iff]
    exact hplaces
  have hunits : ((column.read.units 18 : ℕ) : ℚ) = d.toRat * 10 ^ 18 := by
    rw [← hread, column.read.toRat_mul_pow hplaces', hsign, signum, if_neg (by decide), one_mul]
  refine ⟨column.read.units 18, hunits, ?_, ?_, column.read.spells_toFixed hsign hplaces'⟩
  · have h : (0 : ℚ) < (column.read.units 18 : ℕ) := by
      rw [hunits]
      exact mul_pos hpositive (by decide)
    exact_mod_cast h
  · have h : ((column.read.units 18 : ℕ) : ℚ) < 10 ^ 20 * 10 ^ 18 := by
      rw [hunits]
      exact mul_lt_mul_of_pos_right hsmall (by decide)
    rw [← pow_add] at h
    exact_mod_cast h

/-! ### An instance -/

/-- The text `5.57e-4`. -/
def samplePrice : NumberLiteral where
  negative := false
  whole := ['5']
  fraction := ['5', '7']
  exponent := some
    { letter := 'e'
      sign := some '-'
      digits := ['4']
      letter_eq := .inl rfl
      sign_eq := fun _ hc => .inr (Option.some.inj hc).symm
      digits_spelled := ⟨List.cons_ne_nil _ _, Decimal.forall_of_all rfl⟩ }
  whole_spelled := ⟨List.cons_ne_nil _ _, Decimal.forall_of_all rfl, by decide⟩
  fraction_spelled := Decimal.forall_of_all rfl

/-- The text `1000`. -/
def sampleTime : NumberLiteral where
  negative := false
  whole := "1000".toList
  fraction := []
  exponent := none
  whole_spelled := ⟨List.cons_ne_nil _ _, Decimal.forall_of_all rfl, by decide⟩
  fraction_spelled := Decimal.forall_of_all rfl

/-- A provider's answer. -/
def sampleBody : Text :=
  "\x7b\"presearch\":\x7b\"usd\":5.57e-4,\"last_updated_at\":1000\x7d\x7d".toList

/-- What `JSON.parse` makes of it. -/
def samplePayload : JsonTree :=
  .object [("presearch".toList, .object
    [("usd".toList, .number samplePrice), ("last_updated_at".toList, .number sampleTime)])]

/-- A reader of this one answer. -/
def sampleParse (text : Text) : Option JsonTree :=
  if text = sampleBody then some samplePayload else none

/-- The date of the sample, a thousand seconds after the beginning of 1970. -/
def sampleDate : Date where
  time := 1000000
  valid := by decide

def sampleDates : DateTexts := Calendar.datesWith sampleDate "1970-01-01T00:16:40.000Z".toList

theorem sampleDates_specified : sampleDates.Specified :=
  Calendar.datesWith_specified (Decimal.forall_of_all rfl) (by decide) (by decide)

/-- What is parsed. -/
def sampleQuote : ParsedQuote where
  priceUsd := samplePrice.toDecimal
  quotedAt := some sampleDate

/-- What is stored: `0.000557`. -/
def sampleRow : PreUsdPrice where
  id := 7
  source := "COINGECKO".toList
  assetId := "presearch".toList
  priceUsd := { negative := false, units := 557000000000000, bound := by decide }
  quotedAt := sampleDate
  fetchedAt := sampleDate

theorem parse_sample : parsePreUsdQuote sampleParse sampleBody 1000000 = .ok sampleQuote := by
  have hparse : sampleParse sampleBody = some samplePayload := if_pos rfl
  rw [parsePreUsdQuote_of_numbers hparse rfl rfl]
  have hseconds : value sampleTime.source = 1000 := by decide +kernel
  refine quoteOf_eq_ok.2 ⟨by decide +kernel, by decide +kernel, by decide +kernel, by decide, ?_⟩
  rw [hseconds]
  exact ⟨by decide, by decide, by decide,
    congrArg (ParsedQuote.mk samplePrice.toDecimal) sampleDate.ofTime_time.symm⟩

/-- An earlier row. -/
def earlierRow : PreUsdPrice := { sampleRow with id := 6, quotedAt := ⟨500000, by decide⟩ }

/-- **The price pipeline** is lossless.  The collection starts with the time of the next attempt, a
minute later, which is a date.  An accepted quote is written, as the newest one if it is
later than all others; what is then published is the exact number of its text, in units of `10⁻¹⁸`,
and its time in seconds.  A number that would have to be altered is refused at the first stage. -/
theorem price_pipeline (parse : Text → Option JsonTree) (R : DateTexts) (hR : R.Specified)
    (body : Text) (now : ℕ) (hretry : (Date.ofTime (now + 60000 : ℕ)).isSome = true) :
    (∀ quote, parsePreUsdQuote parse body now = .ok quote →
      ∃ payload usd updatedAt date, parse body = some payload ∧
        quotedNumber payload "usd".toList = some usd ∧
        quotedNumber payload "last_updated_at".toList = some updatedAt ∧
        quote.quotedAt = some date ∧
        ∀ rows id fetchedAt, ∃ rows' outcome,
          saveQuote rows quote id fetchedAt = some (rows', outcome) ∧
          ((∀ row ∈ rows, isPresearch row = true → row.quotedAt.time < date.time) →
            outcome = .updated) ∧
          (outcome = .updated → ∀ later, now ≤ later → ∃ published,
            publicationQuote R (readLatestPreUsdPrice R rows') later = .ok published ∧
            (∃ n : ℕ, published.priceE18Raw = Decimal.decimalText n ∧
              (n : ℚ) = usd.toRat * 10 ^ 18) ∧
            (published.quotedAt : ℚ) = updatedAt.toRat ∧ published.quoteId = id)) ∧
    (∀ payload usd, parse body = some payload → quotedNumber payload "usd".toList = some usd →
      (¬∃ k : ℤ, usd.toRat * 10 ^ 18 = k) ∨ usd.toRat ≤ 0 ∨ 10 ^ 20 ≤ usd.toRat →
      parsePreUsdQuote parse body now = .error invalidPriceData) := by
  constructor
  · intro quote hquote
    obtain ⟨payload, usd, updatedAt, hparse, husd, htime, hok⟩ := numbers_of_parsePreUsdQuote hquote
    obtain ⟨hpositive, hsmall, hplaces, hdigits, -, hseconds, hnow, rfl⟩ := quoteOf_eq_ok.1 hok
    rw [← usd.toRat_toDecimal] at hpositive hsmall
    obtain ⟨date, hdate, hms⟩ : ∃ date, Date.ofTime (value updatedAt.source * 1000 : ℕ) =
        some date ∧ date.time = (value updatedAt.source * 1000 : ℕ) := by
      -- the quote is at most a minute ahead of the clock
      have hvalid : (now + 60000 : ℕ) ≤ 8640000000000000 := by
        rw [Date.ofTime] at hretry
        split_ifs at hretry with hvalid
        · exact_mod_cast hvalid
        · cases hretry
      rw [Date.ofTime, dif_pos (by omega)]
      exact ⟨_, rfl, rfl⟩
    obtain ⟨column, hcolumn⟩ := toColumn_isSome hsmall hpositive hplaces
    refine ⟨payload, usd, updatedAt, date, hparse, husd, htime, hdate, ?_⟩
    intro rows id fetchedAt
    obtain ⟨rows', outcome, hsave, hnewer⟩ :=
      @saveQuote_fits rows ⟨usd.toDecimal, _⟩ date column hdate hcolumn id fetchedAt
    refine ⟨rows', outcome, hsave, hnewer, ?_⟩
    rintro rfl later hlater
    obtain ⟨date', column', hdate', hcolumn', hlatest⟩ := findLatest_saved hsave
    obtain rfl := Option.some.inj (hdate.symm.trans hdate')
    obtain rfl := Option.some.inj (hcolumn.symm.trans hcolumn')
    obtain ⟨units, hunits, hunitsPositive, hbound, hspells⟩ :=
      spells_read hpositive hsmall hplaces hcolumn
    have hpublished : publicationQuote R (some ⟨id, "COINGECKO".toList, "presearch".toList,
        column.read.toFixed, R.toISOString date, R.toISOString fetchedAt⟩) later =
        .ok ⟨Decimal.decimalText units, date.time.toNat / 1000, id⟩ :=
      publicationQuote_of_spells hR hspells hunitsPositive hbound rfl (by omega) (by omega)
    refine ⟨⟨Decimal.decimalText units, date.time.toNat / 1000, id⟩, ?_, ⟨units, rfl, ?_⟩, ?_, rfl⟩
    · rw [readLatestPreUsdPrice, hlatest]
      exact hpublished
    · rw [hunits, usd.toRat_toDecimal]
    · have hquotient : date.time.toNat / 1000 = value updatedAt.source := by omega
      rw [updatedAt.toRat_of_digits hdigits]
      exact_mod_cast hquotient
  · intro payload usd hparse husd hbad
    rcases hresult : parsePreUsdQuote parse body now with message | quote
    · -- all refusals are one error
      rw [parsePreUsdQuote, hparse] at hresult
      dsimp only at hresult
      rcases htime : quotedNumber payload "last_updated_at".toList with _ | updatedAt
      · rw [husd, htime] at hresult
        exact congrArg Except.error (Except.error.inj hresult).symm
      · rw [husd, htime] at hresult
        simp only [quoteOf] at hresult
        split_ifs at hresult
        exact congrArg Except.error (Except.error.inj hresult).symm
    · obtain ⟨payload', usd', updatedAt, hparse', husd', -, hok⟩ :=
        numbers_of_parsePreUsdQuote hresult
      obtain rfl := Option.some.inj (hparse.symm.trans hparse')
      obtain rfl := Option.some.inj (husd.symm.trans husd')
      obtain ⟨hpositive, hsmall, hplaces, -⟩ := quoteOf_eq_ok.1 hok
      rcases hbad with hdecimals | hzero | hlarge
      · rw [Exact.decimalPlaces_le_iff, usd.toRat_toDecimal] at hplaces
        exact absurd hplaces hdecimals
      · exact absurd hpositive (not_lt.2 hzero)
      · exact absurd hsmall (not_lt.2 hlarge)

theorem price_pipeline_sample : ∃ rows',
    saveQuote [earlierRow] sampleQuote 7 sampleDate = some (rows', .updated) ∧
      ∃ published, publicationQuote sampleDates (readLatestPreUsdPrice sampleDates rows')
          2000000 = .ok published ∧
        ∃ usd : NumberLiteral, quotedNumber samplePayload "usd".toList = some usd ∧
          ∃ n : ℕ, published.priceE18Raw = Decimal.decimalText n ∧
            (n : ℚ) = usd.toRat * 10 ^ 18 := by
  obtain ⟨payload, usd, updatedAt, date, hparse, husd, -, hdate, hstages⟩ :=
    (price_pipeline sampleParse sampleDates sampleDates_specified sampleBody 1000000
      (by decide)).1 sampleQuote parse_sample
  obtain rfl : samplePayload = payload := Option.some.inj hparse
  obtain rfl : sampleDate = date := Option.some.inj hdate
  obtain ⟨rows', outcome, hsave, hnewer, hpublish⟩ := hstages [earlierRow] 7 sampleDate
  obtain rfl := hnewer fun row hrow _ => by
    rw [List.mem_singleton.1 hrow]
    decide
  obtain ⟨published, hpublished, hprice, -⟩ := hpublish rfl 2000000 (by decide)
  exact ⟨rows', hsave, published, hpublished, usd, husd, hprice⟩

end Price

end PreCommunity
