import MetadataIndex.Text.Quoted

/-!
# Percent escapes

A text inside an address is written in UTF-8, where every byte that is no letter, digit, underscore,
period, hyphen or tilde becomes a percent sign with two digits.
-/

set_option autoImplicit false

namespace MetadataIndex.Text

def isUnreserved (byte : UInt8) : Bool :=
  let c := Char.ofNat byte.toNat
  c.isAlphanum || c == '_' || c == '.' || c == '-' || c == '~'

def escapeByte (byte : UInt8) : List Char :=
  if isUnreserved byte then [Char.ofNat byte.toNat]
  else '%' :: (hexDigits 2 byte.toNat).map Char.toUpper

def percentEncoded (s : String) : String :=
  String.ofList (s.toUTF8.toList.flatMap escapeByte)

end MetadataIndex.Text
