import ChainReplay.Text.Utf8

/-! Malformed or truncated binary data and address texts. -/

namespace ChainReplay

/-- Stands for the words of another component at the end of a message. -/
def cause : Text := "<cause>"

inductive CodecError where
  | outOfRange (width : Text) (value : Int)
  | arrayTooLong (count : Nat)
  | negativeLength
  | endOfBuffer (needed offset remaining : Nat)
  | badBoolean (byte : Nat)
  | undecodableText (fault : Utf8.Fault)
  | addressLength (length : Nat)
  | programLength (length : Nat)
  | emptyAddress
  | badAddress (text : Text)
  | badNetworkPart (hrp : Text)
  | trailingBytes (count : Nat)
  deriving DecidableEq

/-- Bytes that are no text; a single one is left to the words of the decoder. -/
def undecodable (fault : Utf8.Fault) : Text :=
  if fault.width = 1 then cause
  else
    "'utf-8' codec can't decode bytes in position " ++ .ofNat fault.start ++ "-"
      ++ .ofNat (fault.start + fault.width - 1) ++ ": "
      ++ if fault.cut then "unexpected end of data" else "invalid continuation byte"

def CodecError.message : CodecError → Text
  | outOfRange width value => width ++ " out of range: " ++ .ofInt value
  | arrayTooLong count => "array too long: " ++ .ofNat count ++ " > 65535"
  | negativeLength => "negative length"
  | endOfBuffer needed offset remaining =>
    "Unexpected end of buffer: need " ++ .ofNat needed ++ " bytes at offset " ++ .ofNat offset
      ++ ", have " ++ .ofNat remaining
  | badBoolean byte => "Invalid boolean byte 0x" ++ (Text.padded 16 2 byte).toUpperAscii
  | undecodableText fault => "Invalid UTF-8 string: " ++ undecodable fault
  | addressLength length => "Address must be 32 bytes, got " ++ .ofNat length
  | programLength length => "Unsupported witness program length " ++ .ofNat length
  | emptyAddress => "Empty address"
  | badAddress text => "Invalid address '" ++ text ++ "'"
  | badNetworkPart hrp => "Cannot encode address for hrp '" ++ hrp ++ "'"
  | trailingBytes count => .ofNat count ++ " trailing bytes after transaction"

end ChainReplay
