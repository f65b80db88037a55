import PreCommunity.Ads.Delivery
import PreCommunity.Calendar.Dates
import PreCommunity.Community.Schema

/-!
# Cursors

A cursor is the key of a row, as a JSON text in base64url.  It is checked when it comes back.

* `Uuid`, `HashText` : the texts of key columns, with what holds of them.
* `Runtime`, `Runtime.Specified` : the functions of the runtime, and what is relied on.
* `encodeContributionCursor`, `decodeContributionCursor` : the cursors of contributions.
* `encodeForumCursor`, `decodeForumCursor`, `encodeReplyCursor`, `decodeReplyCursor` : the cursors
  of the forum.
* `decode_contributionCursor`, `decode_timedCursor` : the checks accept the key of every row.
-/

namespace PreCommunity

namespace Paging

open Market (Text)

open Calendar (Date)

open Ads (JsonValue field textOf isLowerHex isHexText utf8Bytes maxSafeInteger SimpleText)

open Decimal (decimalText)

open Json (Scalar objectText)

/-! ### Key columns -/

/-- The text has `n` characters, and each one fits its position. -/
def fitsPositions (n : ℕ) (fits : ℕ → Char → Bool) (text : Text) : Bool :=
  decide (text.length = n) && text.zipIdx.all fun (c, i) => fits i c

/-- A position of an id that holds a hyphen. -/
def isHyphenPosition (i : ℕ) : Bool := i = 8 ∨ i = 13 ∨ i = 18 ∨ i = 23

/-- A position of an id as `uuid()` writes it: version 4, in lower case. -/
def fitsGenerated (i : ℕ) (c : Char) : Bool :=
  if isHyphenPosition i then c = '-'
  else if i = 14 then c = '4'
  else if i = 19 then c = '8' ∨ c = '9' ∨ c = 'a' ∨ c = 'b'
  else isLowerHex c

/-- A position of `UUID_PATTERN`. -/
def fitsUuidPattern (i : ℕ) (c : Char) : Bool :=
  if isHyphenPosition i then c = '-'
  else if i = 14 then '1' ≤ c ∧ c ≤ '5'
  else if i = 19 then c = '8' ∨ c = '9' ∨ c = 'a' ∨ c = 'b' ∨ c = 'A' ∨ c = 'B'
  else c.isHexDigit

/-- `UUID_PATTERN`. -/
def uuidPattern (text : Text) : Bool := fitsPositions 36 fitsUuidPattern text

/-- The pattern of the id in a cursor of contributions. -/
def cursorIdPattern (text : Text) : Bool :=
  fitsPositions 36 (fun _ c => c.isHexDigit || c = '-') text

/-- An id that was generated. -/
structure Uuid where
  text : Text
  generated : fitsPositions 36 fitsGenerated text = true
deriving DecidableEq, Repr

/-- The text of a transaction hash, in lower case. -/
structure HashText where
  text : Text
  fits : isHexText 64 text = true
deriving DecidableEq, Repr

theorem fitsPositions_mono {n : ℕ} {p q : ℕ → Char → Bool} (h : ∀ i c, p i c = true → q i c = true)
    {text : Text} (htext : fitsPositions n p text = true) : fitsPositions n q text = true := by
  simp only [fitsPositions, Bool.and_eq_true, decide_eq_true_eq, List.all_eq_true] at htext ⊢
  exact ⟨htext.1, fun entry hentry => h entry.2 entry.1 (htext.2 entry hentry)⟩

theorem isHexDigit_of_isLowerHex {c : Char} (h : isLowerHex c = true) : c.isHexDigit = true := by
  simp only [isLowerHex, Char.isHexDigit, Bool.or_eq_true] at *
  tauto

/-- A generated id fits a pattern when each character that it can have does. -/
theorem fits_of_fitsGenerated {q : ℕ → Char → Bool}
    (hhyphen : ∀ i, isHyphenPosition i = true → q i '-' = true)
    (hversion : q 14 '4' = true) (hvariant : ∀ c, c = '8' ∨ c = '9' ∨ c = 'a' ∨ c = 'b' → q 19 c)
    (hdigit : ∀ i c, isHyphenPosition i = false → i ≠ 14 → i ≠ 19 → c.isHexDigit = true → q i c)
    (i : ℕ) (c : Char) (h : fitsGenerated i c = true) : q i c = true := by
  unfold fitsGenerated at h
  split_ifs at h with hposition hfour hnineteen
  · exact of_decide_eq_true h ▸ hhyphen i hposition
  · exact of_decide_eq_true h ▸ hfour ▸ hversion
  · exact hnineteen ▸ hvariant c (of_decide_eq_true h)
  · exact hdigit i c (Bool.eq_false_of_not_eq_true hposition) hfour hnineteen
      (isHexDigit_of_isLowerHex h)

/-- **The patterns** accept every generated id. -/
theorem Uuid.uuidPattern (id : Uuid) : uuidPattern id.text = true := by
  refine fitsPositions_mono (fits_of_fitsGenerated (fun i hi => ?_) rfl ?_ ?_) id.generated
  · rw [fitsUuidPattern, if_pos hi]
    rfl
  · rintro c (rfl | rfl | rfl | rfl) <;> rfl
  · intro i c hi hfour hnineteen hc
    rw [fitsUuidPattern, if_neg (by rw [hi]; decide), if_neg hfour, if_neg hnineteen, hc]

theorem Uuid.cursorIdPattern (id : Uuid) : cursorIdPattern id.text = true := by
  refine fitsPositions_mono (fits_of_fitsGenerated (fun i _ => rfl) rfl ?_ ?_) id.generated
  · rintro c (rfl | rfl | rfl | rfl) <;> rfl
  · intro i c _ _ _ hc
    rw [hc, Bool.true_or]

theorem Uuid.simple (id : Uuid) : SimpleText id.text := by
  have hpattern := id.cursorIdPattern
  simp only [Paging.cursorIdPattern, fitsPositions, Bool.and_eq_true, List.all_eq_true] at hpattern
  intro c hc
  obtain ⟨i, hi, rfl⟩ := List.getElem_of_mem hc
  have hchar := hpattern.2 (id.text[i], i)
    (List.mem_zipIdx_iff_getElem?.2 (List.getElem?_eq_getElem hi))
  rcases (Bool.or_eq_true _ _).mp hchar with hdigit | hhyphen
  · exact Ads.simple_of_isHexDigit hdigit
  · have heq : id.text[i] = '-' := of_decide_eq_true hhyphen
    rw [heq]
    decide

/-! ### The runtime -/

/-- The functions of the runtime that lists use. -/
structure Runtime extends Ads.Codecs, Calendar.DateTexts where
  /-- `Number(text)`, when it is an integer. -/
  toInteger : Text → Option ℤ

/-- What is relied on. -/
structure Runtime.Specified (R : Runtime) : Prop where
  codecs : R.toCodecs.Specified
  dates : R.toDateTexts.Specified

theorem Runtime.Specified.simple_toISOString {R : Runtime} (hR : R.Specified) (date : Date) :
    SimpleText (R.toISOString date) := by
  intro c hc
  rcases hR.dates.digit_or_sign date c hc with hdigit | hsign
  · exact Ads.simple_of_isDigit hdigit
  · have hsigns : ∀ sign ∈ "+-:.TZ".toList, Ads.Simple sign := Decimal.forall_of_all rfl
    exact hsigns c hsign

/-- What a request is refused with. -/
inductive Refusal where
  | badRequest (message : String)
  | notFound (message : String)
  | unavailable (message : String)
  | query
deriving DecidableEq, Repr

/-- A parameter that is neither absent nor empty. -/
def given (value : Option Text) : Option Text := value.filter fun text => decide (text ≠ [])

/-- The value of the cursor that `JSON.parse` finds. -/
def parsedCursor (R : Runtime) (value : Text) : Option JsonValue :=
  R.parse (R.fromUtf8 (R.fromBase64url value))

/-- `Buffer.from(JSON.stringify(members)).toString('base64url')`. -/
def encodeMembers (members : List (Text × Scalar)) : Text :=
  Base64.encode (utf8Bytes (objectText members))

section

variable {R : Runtime}

theorem parsedCursor_encodeMembers (hR : R.Specified) {members : List (Text × Scalar)}
    (hne : members ≠ []) (hnodup : (members.map (·.1)).Nodup)
    (h : ∀ member ∈ members, Json.PlainMember member ∧ Ads.exactScalar member.2) :
    parsedCursor R (encodeMembers members) =
      some (.object (members.map fun member => (member.1, Ads.scalarValue member.2))) := by
  rw [parsedCursor, encodeMembers, hR.codecs.fromBase64url_encode, hR.codecs.fromUtf8_utf8Bytes,
    hR.codecs.parse_objectText members hne hnodup h]

theorem given_encodeMembers (members : List (Text × Scalar)) :
    given (some (encodeMembers members)) = some (encodeMembers members) := by
  have hne : encodeMembers members ≠ [] := by
    intro h
    have hlength := congrArg List.length h
    rw [encodeMembers, Base64.length_encode, objectText, Ads.length_utf8Bytes_cons,
      List.length_nil] at hlength
    have hbrace : '{'.utf8Size = 1 := rfl
    omega
  rw [given, Option.filter_some, if_pos (decide_eq_true hne)]

end

/-! ### Contributions -/

/-- `ContributionCursor`. -/
structure ContributionCursor where
  blockNumber : ℕ
  txHash : Text
  logIndex : ℕ
  id : Text
deriving DecidableEq, Repr

/-- What the text of a cursor is written from. -/
def contributionMembers (value : ContributionCursor) : List (Text × Scalar) :=
  [("b".toList, .text (decimalText value.blockNumber)), ("t".toList, .text value.txHash),
    ("l".toList, .number value.logIndex), ("i".toList, .text value.id)]

def encodeContributionCursor (value : ContributionCursor) : Text :=
  encodeMembers (contributionMembers value)

/-- The number, when `Number.isInteger`. -/
def integerOf : Option JsonValue → Option ℤ
  | some (.number value) => some value
  | _ => none

/-- The checks of a parsed cursor. -/
def contributionCursorOf (parsed : JsonValue) : Option ContributionCursor :=
  (textOf (field parsed "b".toList)).bind fun b =>
  (textOf (field parsed "t".toList)).bind fun t =>
  (integerOf (field parsed "l".toList)).bind fun l =>
  (textOf (field parsed "i".toList)).bind fun i =>
  if b ≠ [] ∧ b.all Char.isDigit = true ∧ isHexText 64 t = true ∧ 0 ≤ l ∧
      cursorIdPattern i = true then
    some { blockNumber := Decimal.value b, txHash := t, logIndex := l.toNat, id := i }
  else none

def decodeContributionCursor (R : Runtime) (value : Text) : Except Refusal ContributionCursor :=
  ((parsedCursor R value).bind contributionCursorOf).elim
    (.error (.badRequest "Invalid contributions cursor")) .ok

theorem nodup_contributionMembers (value : ContributionCursor) :
    ((contributionMembers value).map (·.1)).Nodup := by
  simp only [contributionMembers, List.map_cons, List.map_nil]
  decide

/-- **A cursor of contributions** is read back as it was written. -/
theorem decode_contributionCursor {R : Runtime} (hR : R.Specified) (blockNumber : ℕ)
    (txHash : HashText) {logIndex : ℕ} (hindex : logIndex ≤ maxSafeInteger) (id : Uuid) :
    decodeContributionCursor R
        (encodeContributionCursor ⟨blockNumber, txHash.text, logIndex, id.text⟩) =
      .ok ⟨blockNumber, txHash.text, logIndex, id.text⟩ := by
  obtain ⟨hne, hdigits, -⟩ := Decimal.whole_decimalText blockNumber
  have hmembers : contributionMembers ⟨blockNumber, txHash.text, logIndex, id.text⟩ ≠ [] :=
    List.cons_ne_nil _ _
  have hplain : ∀ member ∈ contributionMembers ⟨blockNumber, txHash.text, logIndex, id.text⟩,
      Json.PlainMember member ∧ Ads.exactScalar member.2 := by
    simp only [contributionMembers, List.forall_mem_cons]
    exact ⟨⟨⟨Ads.plain_key rfl, (Ads.simple_decimalText blockNumber).plain⟩, trivial⟩,
      ⟨⟨Ads.plain_key rfl, (Ads.simple_of_isHexText txHash.fits).2.plain⟩, trivial⟩,
      ⟨⟨Ads.plain_key rfl, trivial⟩, hindex⟩,
      ⟨⟨Ads.plain_key rfl, id.simple.plain⟩, trivial⟩, by simp⟩
  rw [decodeContributionCursor, encodeContributionCursor,
    parsedCursor_encodeMembers hR hmembers (nodup_contributionMembers _) hplain]
  change ((if decimalText blockNumber ≠ [] ∧ (decimalText blockNumber).all Char.isDigit = true ∧
    isHexText 64 txHash.text = true ∧ (0 : ℤ) ≤ (logIndex : ℤ) ∧ cursorIdPattern id.text = true
    then some (ContributionCursor.mk (Decimal.value (decimalText blockNumber)) txHash.text
      (logIndex : ℤ).toNat id.text) else none).elim _ _) = _
  rw [if_pos ⟨hne, List.all_eq_true.2 hdigits, txHash.fits, Int.natCast_nonneg logIndex,
    id.cursorIdPattern⟩, Decimal.value_decimalText, Int.toNat_natCast, Option.elim_some]

/-! ### Topics and replies -/

/-- A cursor of the forum: a time and an id. -/
structure TimedCursor where
  time : Date
  id : Text
deriving DecidableEq, Repr

/-- The text of such a cursor; `name` is the property of its time. -/
def encodeTimedCursor (R : Runtime) (name : Text) (time : Date) (id : Text) : Text :=
  encodeMembers [(name, .text (R.toISOString time)), ("id".toList, .text id)]

/-- The checks of a parsed cursor. -/
def timedCursorOf (R : Runtime) (name : Text) (parsed : JsonValue) : Option TimedCursor :=
  (textOf (field parsed name)).bind fun text =>
  (textOf (field parsed "id".toList)).bind fun id =>
  (R.toDate text).bind fun time =>
  if uuidPattern id then some { time := time, id := id } else none

def decodeTimedCursor (R : Runtime) (name : Text) (message : String) (value : Option Text) :
    Except Refusal (Option TimedCursor) :=
  (given value).elim (.ok none) fun text =>
    ((parsedCursor R text).bind (timedCursorOf R name)).elim (.error (.badRequest message))
      fun cursor => .ok (some cursor)

def encodeForumCursor (R : Runtime) (lastActivityAt : Date) (id : Text) : Text :=
  encodeTimedCursor R "lastActivityAt".toList lastActivityAt id

def decodeForumCursor (R : Runtime) (value : Option Text) : Except Refusal (Option TimedCursor) :=
  decodeTimedCursor R "lastActivityAt".toList "Forum cursor is invalid" value

def encodeReplyCursor (R : Runtime) (createdAt : Date) (id : Text) : Text :=
  encodeTimedCursor R "createdAt".toList createdAt id

def decodeReplyCursor (R : Runtime) (value : Option Text) : Except Refusal (Option TimedCursor) :=
  decodeTimedCursor R "createdAt".toList "Forum reply cursor is invalid" value

/-- **A cursor of the forum** is read back as it was written. -/
theorem decode_timedCursor {R : Runtime} (hR : R.Specified) {name : Text} (hname : Json.Plain name)
    (hne : name ≠ "id".toList) (message : String) (time : Date) (id : Uuid) :
    decodeTimedCursor R name message (some (encodeTimedCursor R name time id.text)) =
      .ok (some ⟨time, id.text⟩) := by
  have hplain : ∀ member ∈ ([(name, .text (R.toISOString time)), ("id".toList, .text id.text)] :
      List (Text × Scalar)), Json.PlainMember member ∧ Ads.exactScalar member.2 := by
    simp only [List.forall_mem_cons]
    exact ⟨⟨⟨hname, (hR.simple_toISOString time).plain⟩, trivial⟩,
      ⟨⟨Ads.plain_key rfl, id.simple.plain⟩, trivial⟩, by simp⟩
  have hnodup : (([(name, .text (R.toISOString time)), ("id".toList, .text id.text)] :
      List (Text × Scalar)).map (·.1)).Nodup := by
    simpa using hne
  have htime : field (.object [(name, .text (R.toISOString time)), ("id".toList, .text id.text)])
      name = some (.text (R.toISOString time)) := by
    rw [field, List.lookup_cons_self]
  have hid : field (.object [(name, .text (R.toISOString time)), ("id".toList, .text id.text)])
      "id".toList = some (.text id.text) := by
    rw [field, List.lookup_cons, beq_false_of_ne hne.symm, List.lookup_cons_self]
  rw [decodeTimedCursor, encodeTimedCursor, given_encodeMembers, Option.elim_some,
    parsedCursor_encodeMembers hR (List.cons_ne_nil _ _) hnodup hplain, Option.bind_some]
  change ((timedCursorOf R name (.object [(name, .text (R.toISOString time)),
    ("id".toList, .text id.text)])).elim _ _) = _
  rw [timedCursorOf, htime, hid]
  change ((((R.toDate (R.toISOString time)).bind fun date =>
    if uuidPattern id.text then some (TimedCursor.mk date id.text) else none)).elim _ _) = _
  rw [hR.dates.toDate_toISOString, Option.bind_some, if_pos id.uuidPattern, Option.elim_some]

end Paging

end PreCommunity
