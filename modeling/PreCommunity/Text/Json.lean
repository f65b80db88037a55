import PreCommunity.Text.Decimal

/-!
# Flat objects

The text of an object whose values are texts and whole numbers, and a reader of such texts.

* `Scalar`, `objectText` : what `JSON.stringify` writes.
* `readObject` : the members of such a text.
* `readObject_objectText` : reading undoes writing, where no character is escaped.
-/

namespace PreCommunity

namespace Json

open Decimal (decimalText value)

/-- A text or a whole number. -/
inductive Scalar where
  | text (value : List Char)
  | number (value : ℕ)
deriving DecidableEq, Repr

/-- The characters that stand for a character in a string. -/
def escape (c : Char) : List Char :=
  if c = '"' then ['\\', '"']
  else if c = '\\' then ['\\', '\\']
  else if c = '\x08' then ['\\', 'b']
  else if c = '\t' then ['\\', 't']
  else if c = '\n' then ['\\', 'n']
  else if c = '\x0c' then ['\\', 'f']
  else if c = '\r' then ['\\', 'r']
  else if c.toNat < 32 then
    ['\\', 'u', '0', '0', (c.toNat / 16).digitChar, (c.toNat % 16).digitChar]
  else [c]

/-- A character that stands for itself. -/
def plainChar (c : Char) : Bool := decide (32 ≤ c.toNat) && c ≠ '"' && c ≠ '\\'

/-- A string. -/
def quote (text : List Char) : List Char := '"' :: (text.flatMap escape ++ ['"'])

/-- The text of a value. -/
def scalarText : Scalar → List Char
  | .text value => quote value
  | .number value => decimalText value

/-- The text of a member. -/
def memberText (member : List Char × Scalar) : List Char :=
  quote member.1 ++ ':' :: scalarText member.2

/-- The text of members, with a comma between any two. -/
def membersText : List (List Char × Scalar) → List Char
  | [] => []
  | [member] => memberText member
  | member :: next :: members => memberText member ++ ',' :: membersText (next :: members)

/-- `JSON.stringify` of an object. -/
def objectText (members : List (List Char × Scalar)) : List Char :=
  '{' :: (membersText members ++ ['}'])

/-! ### Reading -/

/-- A string without escapes, and what follows. -/
def readString : List Char → Option (List Char × List Char)
  | '"' :: text =>
    let rest := text.dropWhile (· ≠ '"')
    if rest.head? = some '"' then some (text.takeWhile (· ≠ '"'), rest.tail) else none
  | _ => none

/-- A whole number, and what follows. -/
def readNumber (text : List Char) : Option (ℕ × List Char) :=
  let digits := text.takeWhile Char.isDigit
  if digits = [] then none else some (value digits, text.dropWhile Char.isDigit)

/-- A string or a whole number, and what follows. -/
def readScalar (text : List Char) : Option (Scalar × List Char) :=
  ((readString text).map fun read => (Scalar.text read.1, read.2)).or
    ((readNumber text).map fun read => (Scalar.number read.1, read.2))

/-- A member, and what follows. -/
def readMember (text : List Char) : Option ((List Char × Scalar) × List Char) := do
  let (key, rest) ← readString text
  let rest ← if rest.head? = some ':' then some rest.tail else none
  let (scalar, rest) ← readScalar rest
  return ((key, scalar), rest)

/-- At most `fuel` members up to the closing brace. -/
def readMembers : ℕ → List Char → Option (List (List Char × Scalar))
  | 0, _ => none
  | fuel + 1, text => do
    let (member, rest) ← readMember text
    if rest = ['}'] then return [member]
    else if rest.head? = some ',' then
      let members ← readMembers fuel rest.tail
      return member :: members
    else none

/-- An object with at least one member. -/
def readObject : List Char → Option (List (List Char × Scalar))
  | '{' :: text => readMembers text.length text
  | _ => none

/-! ### Reading undoes writing -/

/-- A text in which every character stands for itself. -/
def Plain (text : List Char) : Prop := ∀ c ∈ text, plainChar c = true

/-- A value in which every character stands for itself. -/
def Scalar.Plain : Scalar → Prop
  | .text value => Json.Plain value
  | .number _ => True

theorem escape_of_plain {c : Char} (h : plainChar c = true) : escape c = [c] := by
  simp only [plainChar, Bool.and_eq_true, decide_eq_true_eq] at h
  obtain ⟨⟨hcontrol, hquote⟩, hslash⟩ := h
  have hne : ∀ d : Char, d.toNat < 32 → c ≠ d := fun d hd heq => by
    subst heq
    omega
  unfold escape
  rw [if_neg hquote, if_neg hslash, if_neg (hne _ (by decide)), if_neg (hne _ (by decide)),
    if_neg (hne _ (by decide)), if_neg (hne _ (by decide)), if_neg (hne _ (by decide)),
    if_neg (by omega)]

theorem flatMap_escape {text : List Char} (h : Plain text) : text.flatMap escape = text := by
  induction text with
  | nil => rfl
  | cons c text ih =>
    rw [List.flatMap_cons, escape_of_plain (h c List.mem_cons_self),
      ih fun d hd => h d (List.mem_cons_of_mem c hd), List.singleton_append]

theorem quote_eq {text : List Char} (h : Plain text) : quote text = '"' :: (text ++ ['"']) := by
  rw [quote, flatMap_escape h]

theorem takeWhile_append {p : Char → Bool} {text rest : List Char} (h : ∀ c ∈ text, p c = true)
    (hrest : ∀ c, rest.head? = some c → p c = false) :
    (text ++ rest).takeWhile p = text ∧ (text ++ rest).dropWhile p = rest := by
  rw [List.takeWhile_append_of_pos h, List.dropWhile_append_of_pos h]
  cases rest with
  | nil => simp
  | cons c rest =>
    have hc := hrest c rfl
    rw [List.takeWhile_cons_of_neg (by simp [hc]), List.dropWhile_cons_of_neg (by simp [hc]),
      List.append_nil]
    exact ⟨rfl, rfl⟩

theorem readString_quote {text rest : List Char} (h : Plain text) :
    readString (quote text ++ rest) = some (text, rest) := by
  have hinside : ∀ c ∈ text, decide (c ≠ '"') = true := by
    intro c hc
    have hplain := h c hc
    simp only [plainChar, Bool.and_eq_true, decide_eq_true_eq] at hplain
    exact decide_eq_true hplain.1.2
  have hquote : ∀ c, ('"' :: rest).head? = some c → decide (c ≠ '"') = false := by
    intro c hc
    obtain rfl := Option.some.inj hc
    rfl
  obtain ⟨htake, hdrop⟩ := takeWhile_append hinside hquote
  rw [quote_eq h, List.cons_append, List.append_assoc, List.singleton_append, readString, htake,
    hdrop]
  rfl

theorem readString_of_ne {text : List Char} (h : text.head? ≠ some '"') :
    readString text = none := by
  cases text with
  | nil => rfl
  | cons c text =>
    rw [readString]
    rintro rest ⟨⟩
    exact h rfl

theorem readNumber_decimalText {n : ℕ} {rest : List Char}
    (hrest : ∀ c, rest.head? = some c → c.isDigit = false) :
    readNumber (decimalText n ++ rest) = some (n, rest) := by
  obtain ⟨hne, hdigits, -⟩ := Decimal.whole_decimalText n
  obtain ⟨htake, hdrop⟩ := takeWhile_append hdigits hrest
  rw [readNumber, htake, hdrop, if_neg hne, Decimal.value_decimalText]

theorem readScalar_scalarText {scalar : Scalar} {rest : List Char} (h : scalar.Plain)
    (hrest : ∀ c, rest.head? = some c → c.isDigit = false) :
    readScalar (scalarText scalar ++ rest) = some (scalar, rest) := by
  cases scalar with
  | text value =>
    rw [scalarText, readScalar, readString_quote h]
    rfl
  | number n =>
    obtain ⟨hne, hdigits, -⟩ := Decimal.whole_decimalText n
    have hstring : readString (decimalText n ++ rest) = none := by
      apply readString_of_ne
      obtain ⟨c, digits, hcons⟩ := List.exists_cons_of_ne_nil hne
      rw [hcons]
      intro hc
      obtain rfl := Option.some.inj hc
      have hquote := hdigits '"' (hcons ▸ List.mem_cons_self)
      cases hquote
    rw [scalarText, readScalar, hstring, readNumber_decimalText hrest]
    rfl

/-- The key and the value of a member stand for themselves. -/
def PlainMember (member : List Char × Scalar) : Prop := Plain member.1 ∧ member.2.Plain

theorem readMember_memberText {member : List Char × Scalar} {rest : List Char}
    (h : PlainMember member) (hrest : ∀ c, rest.head? = some c → c.isDigit = false) :
    readMember (memberText member ++ rest) = some (member, rest) := by
  rw [memberText, List.append_assoc, readMember, readString_quote h.1]
  have hscalar := readScalar_scalarText h.2 hrest
  simp only [Option.bind_eq_bind, Option.bind_some, List.cons_append, List.head?_cons, if_true,
    List.tail_cons, hscalar]
  rfl

theorem readMembers_membersText {members : List (List Char × Scalar)} {fuel : ℕ}
    (hne : members ≠ []) (h : ∀ member ∈ members, PlainMember member)
    (hfuel : members.length ≤ fuel) :
    readMembers fuel (membersText members ++ ['}']) = some members := by
  induction members generalizing fuel with
  | nil => exact absurd rfl hne
  | cons member members ih =>
    obtain ⟨fuel, rfl⟩ : ∃ k, fuel = k + 1 := ⟨fuel - 1, by simp at hfuel; omega⟩
    have hmember := h member List.mem_cons_self
    rw [readMembers]
    cases members with
    | nil =>
      rw [membersText, readMember_memberText hmember (by simp)]
      rfl
    | cons next members =>
      have hrest := ih (List.cons_ne_nil next members)
        (fun m hm => h m (List.mem_cons_of_mem member hm)) (Nat.le_of_succ_le_succ hfuel)
      rw [membersText, List.append_assoc, List.cons_append,
        readMember_memberText hmember (by simp)]
      simp only [Option.bind_eq_bind, Option.bind_some, List.head?_cons, List.tail_cons, if_true]
      rw [if_neg (by simp), hrest]
      rfl

theorem length_le_membersText (members : List (List Char × Scalar)) :
    members.length ≤ (membersText members).length + 1 := by
  induction members with
  | nil => simp
  | cons member members ih =>
    cases members with
    | nil => simp [membersText, memberText, quote]
    | cons next members =>
      simp only [membersText, List.length_append, List.length_cons] at *
      omega

/-- **Reading** undoes writing. -/
theorem readObject_objectText {members : List (List Char × Scalar)} (hne : members ≠ [])
    (h : ∀ member ∈ members, PlainMember member) :
    readObject (objectText members) = some members := by
  rw [objectText, readObject]
  refine readMembers_membersText hne h ?_
  have hlength := length_le_membersText members
  simpa using hlength

end Json

end PreCommunity
