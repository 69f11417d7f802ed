import ChainReplay.Bech32
import ChainReplay.Failure.Basic
import ChainReplay.Text.Blank

/-! Text forms of addresses: sixty-four hexadecimal digits with or without `0x`, and segregated
witness addresses of any network. -/

namespace ChainReplay.Address

def ofBytes (bs : Bytes) : Except Failure Address :=
  if h : bs.length = 32 then .ok ⟨bs, h⟩ else .error (.codec (.addressLength bs.length))

def ofProgram (program : Bytes) : Except Failure Address :=
  if h : program.length = 32 then .ok ⟨program, h⟩
  else if h : program.length = 20 then
    .ok ⟨Bytes.zeros 12 ++ program, by simp [Bytes.zeros, h]⟩
  else .error (.codec (.programLength program.length))

def hexPart (t : Text) : Text := if Text.toLower (t.take 2) = "0x" then t.drop 2 else t

def ofHex? (t : Text) : Option Address :=
  let digits := hexPart t
  if digits.length = 64 then
    match (digits.chars?.bind Bytes.ofHex?).map ofBytes with
    | some (.ok a) => some a
    | _ => none
  else none

def ofText (t : Text) : Except Failure Address :=
  let value := t.strip
  if value.isEmpty then .error (.codec .emptyAddress)
  else match ofHex? value with
    | some a => .ok a
    | none =>
      let decoded := (Bech32.splitLast value).bind fun (hrp, _) =>
        Bech32.decode? (Text.toLower hrp) (Text.toLower value)
      match decoded with
      | some (_, program) => ofProgram program
      | none => .error (.codec (.badAddress t))

def taproot (a : Address) (hrp : Text) : Except Failure Text :=
  match Bech32.encode? hrp 1 a.bytes with
  | some t => .ok t
  | none => .error (.codec (.badNetworkPart hrp))

end ChainReplay.Address
