import Kaskade.UnicodeCodecs

/-!
# Octets as text

The text forms of octets in the standard library: Base64 with the strict decoder of
`binascii`, and hexadecimal digit pairs. A decoder answers `none` where the library
raises an error.
-/

namespace Kaskade.Python

/-- The code point of a six-bit number. -/
def base64Chr (n : ℕ) : CodePoint :=
  if n < 26 then ⟨0x41 + n % 26, by omega⟩
  else if n < 52 then ⟨0x61 + (n - 26) % 26, by omega⟩
  else if n < 62 then ⟨0x30 + (n - 52) % 10, by omega⟩
  else if n = 62 then chr '+'
  else chr '/'

/-- The six-bit number of a code point of the alphabet. -/
def base64Value? (c : CodePoint) : Option ℕ :=
  if 0x41 ≤ c.val ∧ c.val ≤ 0x5a then some (c.val - 0x41)
  else if 0x61 ≤ c.val ∧ c.val ≤ 0x7a then some (c.val - 0x61 + 26)
  else if 0x30 ≤ c.val ∧ c.val ≤ 0x39 then some (c.val - 0x30 + 52)
  else if c = chr '+' then some 62
  else if c = chr '/' then some 63
  else none

/-- `base64.b64encode(data).decode("ascii")`. -/
def b64encode : Bytes → Text
  | [] => []
  | [a] =>
    [base64Chr (a.toNat / 4), base64Chr (a.toNat % 4 * 16), chr '=', chr '=']
  | [a, b] =>
    [base64Chr (a.toNat / 4), base64Chr (a.toNat % 4 * 16 + b.toNat / 16),
      base64Chr (b.toNat % 16 * 4), chr '=']
  | a :: b :: c :: rest =>
    base64Chr (a.toNat / 4) :: base64Chr (a.toNat % 4 * 16 + b.toNat / 16) ::
      base64Chr (b.toNat % 16 * 4 + c.toNat / 64) :: base64Chr (c.toNat % 64) :: b64encode rest

/-- Where the decoder stands: its place in a group of four digits, the bits that wait
there, the padding it has counted, and whether padding has begun. -/
structure Base64State where
  quad : Fin 4
  left : ℕ
  pads : ℕ
  padded : Bool

/-- `binascii.a2b_base64(t, strict_mode=True)` from a state on. -/
def a2bBase64From (s : Base64State) : Text → Option Bytes
  | [] => if s.quad = 0 then some [] else none
  | c :: t =>
    if c = chr '=' then
      if 2 ≤ s.quad.val then
        if 4 ≤ s.quad.val + (s.pads + 1) then if t.isEmpty then some [] else none
        else a2bBase64From { s with pads := s.pads + 1, padded := true } t
      else a2bBase64From { s with padded := true } t
    else
      match base64Value? c with
      | none => none
      | some d =>
        if s.padded then none
        else
          match s.quad with
          | 0 => a2bBase64From ⟨1, d, 0, false⟩ t
          | 1 => (a2bBase64From ⟨2, d % 16, 0, false⟩ t).map (byte (s.left * 4 + d / 16) :: ·)
          | 2 => (a2bBase64From ⟨3, d % 4, 0, false⟩ t).map (byte (s.left * 16 + d / 4) :: ·)
          | 3 => (a2bBase64From ⟨0, 0, 0, false⟩ t).map (byte (s.left * 64 + d) :: ·)

/-- `binascii.a2b_base64(t, strict_mode=True)` of an ASCII text. -/
def a2bBase64 (t : Text) : Option Bytes :=
  if t.head? = some (chr '=') then none else a2bBase64From ⟨0, 0, 0, false⟩ t

example : a2bBase64 (text "aGVsbG8=") = some [104, 101, 108, 108, 111] := by decide +kernel

/-- Two lower-case hexadecimal digits. -/
def hexPair (b : UInt8) : Text := [hexDigit (b.toNat / 16), hexDigit (b.toNat % 16)]

/-- `data.hex()`. -/
def hexText (data : Bytes) : Text := data.flatMap hexPair

/-- ASCII whitespace, which may stand between octets. -/
def isAsciiSpace (c : CodePoint) : Bool := c.val = 0x20 ∨ 0x09 ≤ c.val ∧ c.val ≤ 0x0d

/-- `bytes.fromhex(t)`. -/
def fromHex : Text → Option Bytes
  | [] => some []
  | c :: t =>
    if isAsciiSpace c then fromHex t
    else
      match t with
      | [] => none
      | d :: rest =>
        match hexValue? c, hexValue? d with
        | some high, some low => (fromHex rest).map (byte (high * 16 + low) :: ·)
        | _, _ => none

example : fromHex (text "de ad BE ef") = some [0xde, 0xad, 0xbe, 0xef] := by decide +kernel

end Kaskade.Python
