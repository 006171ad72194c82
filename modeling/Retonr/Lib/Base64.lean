import Retonr.Lib.Text

/-! The standard padded base64 encoding: three bytes to four symbols, the last group
filled up with padding. -/

namespace Retonr.Base64

def symbol (value : Nat) : UInt8 :=
  if value < 26 then UInt8.ofNat (65 + value)
  else if value < 52 then UInt8.ofNat (97 + (value - 26))
  else if value < 62 then UInt8.ofNat (48 + (value - 52))
  else if value = 62 then 43
  else 47

def padding : UInt8 := 61

def encode : Bytes → Bytes
  | [] => []
  | [first] => [symbol (first.toNat / 4), symbol (first.toNat % 4 * 16), padding, padding]
  | [first, second] =>
      [symbol (first.toNat / 4), symbol (first.toNat % 4 * 16 + second.toNat / 16), symbol (second.toNat % 16 * 4), padding]
  | first :: second :: third :: rest =>
      symbol (first.toNat / 4) :: symbol (first.toNat % 4 * 16 + second.toNat / 16) ::
        symbol (second.toNat % 16 * 4 + third.toNat / 64) :: symbol (third.toNat % 64) :: encode rest

end Retonr.Base64
