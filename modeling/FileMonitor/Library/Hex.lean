import Mathlib.Data.List.Basic
import Mathlib.Data.UInt

/-!
# Hexadecimal text

`encode` writes a byte string as two lowercase digits a byte, as `bytes.hex` and a hash object's
`hexdigest` do.  `decode` reads hexadecimal text the way `bytes.fromhex` does: digits of either case,
two for each byte, with ASCII whitespace skipped between (not inside) bytes; any other text is
rejected.  Reading what was written gives the bytes back (`decode_encode`).
-/

namespace Hex

/-- The lowercase digit of a value below `16`. -/
def digitChar (n : ℕ) : Char :=
  ['0', '1', '2', '3', '4', '5', '6', '7', '8', '9', 'a', 'b', 'c', 'd', 'e', 'f'].getD n '0'

/-- The value of a hexadecimal digit of either case. -/
def digitValue (c : Char) : Option ℕ :=
  if '0' ≤ c ∧ c ≤ '9' then some (c.toNat - '0'.toNat)
  else if 'a' ≤ c ∧ c ≤ 'f' then some (c.toNat - 'a'.toNat + 10)
  else if 'A' ≤ c ∧ c ≤ 'F' then some (c.toNat - 'A'.toNat + 10)
  else none

/-- ASCII whitespace: space, tab, newline, vertical tab, form feed, carriage return. -/
def isSpace (c : Char) : Bool := c.toNat = 32 || (9 ≤ c.toNat && c.toNat ≤ 13)

/-- The digits of a byte string. -/
def encode (bytes : List UInt8) : List Char :=
  bytes.flatMap fun b => [digitChar (b.toNat / 16), digitChar (b.toNat % 16)]

/-- The bytes a text spells, or `none` where the text is not hexadecimal. -/
def decode : List Char → Option (List UInt8)
  | [] => some []
  | [c] => if isSpace c then some [] else none
  | c :: d :: rest =>
    if isSpace c then decode (d :: rest)
    else
      match digitValue c, digitValue d with
      | some hi, some lo => (decode rest).map (UInt8.ofNat (16 * hi + lo) :: ·)
      | _, _ => none

theorem digitValue_digitChar : ∀ n < 16, digitValue (digitChar n) = some n := by decide

theorem isSpace_digitChar : ∀ n < 16, isSpace (digitChar n) = false := by decide

/-- **Round trip.** -/
theorem decode_encode (bytes : List UInt8) : decode (encode bytes) = some bytes := by
  induction bytes with
  | nil => rfl
  | cons b bytes ih =>
    have hlt : b.toNat < 256 := b.toNat_lt
    have hhi : b.toNat / 16 < 16 := by omega
    have hlo : b.toNat % 16 < 16 := by omega
    have hbyte : UInt8.ofNat (16 * (b.toNat / 16) + b.toNat % 16) = b := by
      rw [Nat.div_add_mod]; exact UInt8.ofNat_toNat
    rw [encode, List.flatMap_cons, ← encode]
    show decode (digitChar (b.toNat / 16) :: digitChar (b.toNat % 16) :: encode bytes) = _
    rw [decode]
    simp only [isSpace_digitChar _ hhi, digitValue_digitChar _ hhi, digitValue_digitChar _ hlo, ih,
      hbyte, Bool.false_eq_true, ↓reduceIte, Option.map_some]

end Hex
