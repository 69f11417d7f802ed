import ChainReplay.Failure.Codec
import ChainReplay.Json.Basic
import ChainReplay.Path

/-! Malformed records: feeds, cache files, transactions and block files. -/

namespace ChainReplay

inductive ArrayFault where
  | noBracket (found : Char)
  | endOfArray
  | extraData
  | noSeparator (found : Char)
  | badValue
  deriving DecidableEq

def ArrayFault.message : ArrayFault → Text
  | noBracket found => "expected '[', got " ++ Text.quoted [.ofChar found]
  | endOfArray => "unexpected end of array"
  | extraData => "extra data after the array"
  | noSeparator found => "expected ',' or ']', got " ++ Text.quoted [.ofChar found]
  | badValue => cause

inductive FormatError where
  | wordNotText (field : Text)
  | wordNotBase64 (field : Text)
  | wordLength (field : Text) (length : Nat)
  | heightIsBoolean
  | badHeight (value : Json)
  | recordNotObject (kind : Text)
  | recordIncomplete
  | badArray (feed : Path) (fault : ArrayFault)
  | badLine (feed : Path) (line : Nat)
  | unreadableFeed (feed : Path)
  | unreadableCache (path : Path)
  | badCacheEntry (path : Path) (entry : Json)
  | notBinary (key : Text)
  | binaryNotBase64 (key : Text)
  | notTagged (key tag : Text)
  | notInteger (key : Text) (value : Json)
  | transactionNotObject (kind : Text)
  | transactionIncomplete
  | transactionAddress (id : Json) (error : CodecError)
  | transactionParts (id : Json)
  | unreadableBlock (height : Int) (path : Path)
  | blockNotArray (path : Path)
  deriving DecidableEq

def FormatError.message : FormatError → Text
  | wordNotText field => field ++ " must be base64 text"
  | wordNotBase64 field => field ++ " is not valid base64: " ++ cause
  | wordLength field length =>
    Text.toUpperAscii (field.take 1) ++ field.drop 1 ++ " must be 32 bytes, got " ++
      .ofNat length ++ "."
  | heightIsBoolean => "lastSeenAt must be an integer"
  | badHeight value => "lastSeenAt must be an integer, got " ++ value.quoted
  | recordNotObject kind => "Feed record must be an object, got " ++ kind
  | recordIncomplete => "Feed record needs 'pointer' and 'lastSeenAt'"
  | badArray feed fault => "Feed " ++ feed.text ++ " is not valid JSON: " ++ fault.message
  | badLine feed line =>
    feed.text ++ ":" ++ .ofNat line ++ ": invalid JSON record: " ++ cause
  | unreadableFeed feed => "Cannot read feed " ++ feed.text ++ ": " ++ cause
  | unreadableCache path => "Cannot read cache " ++ path.text ++ ": " ++ cause
  | badCacheEntry path entry => "Bad cache entry in " ++ path.text ++ ": " ++ entry.quoted
  | notBinary key => "'" ++ key ++ "' must be a $binary document"
  | binaryNotBase64 key => "'" ++ key ++ "' holds invalid base64: " ++ cause
  | notTagged key tag => "'" ++ key ++ "' must be a " ++ tag ++ " document"
  | notInteger key value => "'" ++ key ++ "' is not an integer: " ++ value.quoted
  | transactionNotObject kind => "Transaction record must be an object, got " ++ kind
  | transactionIncomplete => "Transaction record is missing _id or index: " ++ cause
  | transactionAddress id error =>
    "Transaction " ++ id.shown ++ " holds a malformed address: " ++ error.message
  | transactionParts id =>
    "Transaction " ++ id.shown ++ " holds a malformed input or output: " ++ cause
  | unreadableBlock height path =>
    "Couldn't load block " ++ .ofInt height ++ " transactions from file " ++ path.text ++ " -> "
      ++ cause
  | blockNotArray path => "Block file " ++ path.text ++ " must hold a JSON array"

end ChainReplay
