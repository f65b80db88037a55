import PreCommunity.Market.World
import PreCommunity.Text.Decimal

/-!
# Prices and amounts

The bid uses six USD decimals and PRE uses eighteen.  A price is stored as a decimal text, and the
amount of a click is computed from that text.

* `decimalE18` : the value of a price text, in units of `10⁻¹⁸`.
* `billPreRaw` : the raw PRE that a bid costs at a price.
* `External` : the third-party functions that the code calls.
-/

namespace PreCommunity

namespace Market

open Decimal (value padRight)

/-- The functions that rest on other packages and on the platform: `formatUnits`, the canonical
form that the API gives to a client's IP address, and the keyed hash of a click fingerprint. -/
structure External where
  /-- The decimal text of an integer with so many decimals. -/
  formatUnits : ℕ → ℕ → Text
  /-- `canonicalClickIp`. -/
  canonicalClickIp : Text → Option Text
  /-- The HMAC of a fingerprint's parts. -/
  fingerprintHmac : ℕ → Address → Id → Text → Hash

/-- `/^(?:0|[1-9]\d*)$/`. -/
def isWhole (text : Text) : Bool :=
  text.all Char.isDigit && match text with
    | [] => false
    | '0' :: rest => rest.isEmpty
    | _ :: _ => true

/-- `priceUsd.split('.')` for a text with at most one point. -/
def splitPoint (text : Text) : Text × Option Text :=
  match text.dropWhile (· ≠ '.') with
  | [] => (text, none)
  | _ :: fraction => (text.takeWhile (· ≠ '.'), some fraction)

/-- The value of a text that matches `/^(?:0|[1-9]\d*)(?:\.\d{1,18})?$/`, in units of `10⁻¹⁸`. -/
def decimalE18 (priceUsd : Text) : Option ℕ :=
  match splitPoint priceUsd with
  | (whole, none) => if isWhole whole then some (value (whole ++ padRight 18 [])) else none
  | (whole, some fraction) =>
    if isWhole whole ∧ fraction.all Char.isDigit ∧ 1 ≤ fraction.length ∧ fraction.length ≤ 18 then
      some (value (whole ++ padRight 18 fraction))
    else none

/-- The raw PRE that a bid costs; floor avoids overcharging. -/
def billPreRaw (bidUsdRaw : ℕ) (priceUsd : Text) : Except Failure ℕ :=
  if bidUsdRaw = 0 then .error .other
  else match decimalE18 priceUsd with
    | none => .error .other
    | some price => if price = 0 then .error .other else .ok (bidUsdRaw * 10 ^ 30 / price)

example : decimalE18 "0.25".toList = some 250000000000000000 := by decide

/-- **The amount** is the floor of the bid at the price that the text spells. -/
theorem billPreRaw_eq_ok {bidUsdRaw amount : ℕ} {priceUsd : Text} :
    billPreRaw bidUsdRaw priceUsd = .ok amount ↔ 0 < bidUsdRaw ∧
      ∃ price, decimalE18 priceUsd = some price ∧ 0 < price ∧
        amount = bidUsdRaw * 10 ^ 30 / price := by
  unfold billPreRaw
  by_cases hbid : bidUsdRaw = 0
  · simp [hbid]
  · cases hprice : decimalE18 priceUsd with
    | none => simp [hbid]
    | some price =>
      by_cases h : price = 0
      · simp [hbid, h]
      · simp [hbid, h, Nat.pos_of_ne_zero, eq_comm]

end Market

end PreCommunity
