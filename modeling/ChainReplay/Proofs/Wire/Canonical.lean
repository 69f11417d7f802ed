import ChainReplay.Proofs.Bytes.Number
import ChainReplay.Proofs.Text.Encoding
import ChainReplay.Proofs.Wire.Reading

/-! Wire formats are canonical: a value is read exactly from the bytes that the writer writes for it.
-/

namespace ChainReplay

namespace Emission

lemma unsigned_eq_written_iff (width : Nat) (n : Int) (bs : Bytes) :
    unsigned width n = written bs ↔ bs.length = width ∧ n = Bytes.toNat bs := by
  rw [unsigned]
  constructor
  · intro h
    split at h
    case isTrue hn =>
      have hlt : n.toNat < 256 ^ width := by
        have hcast : ((256 ^ width : Nat) : Int) = 256 ^ width := Int.natCast_pow 256 width
        omega
      rw [written_inj] at h
      rw [← h]
      exact ⟨Bytes.length_ofNat width _, by rw [Bytes.toNat_ofNat hlt]; omega⟩
    case isFalse => exact absurd h (failed_ne_written _ _)
  · rintro ⟨rfl, rfl⟩
    have hlt := Bytes.toNat_lt bs
    have hcast : ((256 ^ bs.length : Nat) : Int) = 256 ^ bs.length := Int.natCast_pow 256 _
    rw [if_pos (by omega), Int.toNat_natCast, Bytes.ofNat_toNat]

lemma signed64_eq_written_iff (n : Int) (bs : Bytes) :
    signed64 n = written bs ↔ bs.length = 8 ∧ n = Bytes.toInt bs := by
  rw [signed64]
  constructor
  · intro h
    split at h
    case isTrue hn =>
      rw [written_inj] at h
      have hlength : bs.length = 8 := by rw [← h, Bytes.length_ofNat]
      refine ⟨hlength, ((Bytes.toInt_eq_iff hlength n).mpr ⟨hn, ?_⟩).symm⟩
      rw [← h, Bytes.toNat_ofNat]
      omega
    case isFalse => exact absurd h (failed_ne_written _ _)
  · rintro ⟨hlength, hn⟩
    obtain ⟨hrange, hnat⟩ := (Bytes.toInt_eq_iff hlength n).mp hn.symm
    rw [if_pos hrange, ← hnat, ← hlength, Bytes.ofNat_toNat]

lemma boolean_eq_written_iff (b : Bool) (bs : Bytes) :
    boolean b = written bs ↔
      bs.length = 1 ∧ ¬1 < Bytes.toNat bs ∧ b = decide (Bytes.toNat bs = 1) := by
  rw [boolean, written_inj]
  constructor
  · rintro rfl
    cases b <;> decide
  · rintro ⟨hlength, hle, rfl⟩
    obtain ⟨x, rfl⟩ := List.length_eq_one_iff.mp hlength
    have hnat : Bytes.toNat [x] = x.toNat := Nat.zero_add _
    rw [hnat] at hle ⊢
    obtain hx | hx : x.toNat = 0 ∨ x.toNat = 1 := by omega
    · rw [hx, UInt8.toNat_inj.mp (hx.trans UInt8.toNat_zero.symm)]
      rfl
    · rw [hx, UInt8.toNat_inj.mp (hx.trans UInt8.toNat_one.symm)]
      rfl

lemma blob_eq_written_iff (data bs : Bytes) :
    blob data = written bs ↔
      ∃ xs, bs = xs ++ data ∧ xs.length = 4 ∧ data.length = Bytes.toNat xs := by
  rw [blob, andThen_eq_written_iff]
  constructor
  · rintro ⟨xs, ys, rfl, hxs, hys⟩
    obtain ⟨hlength, hn⟩ := (unsigned_eq_written_iff _ _ _).mp hxs
    rw [written_inj] at hys
    exact ⟨xs, by rw [hys], hlength, by omega⟩
  · rintro ⟨xs, rfl, hlength, hn⟩
    exact ⟨xs, data, rfl, (unsigned_eq_written_iff _ _ _).mpr ⟨hlength, by omega⟩, rfl⟩

lemma text_eq_written_iff (t : Text) (bs : Bytes) :
    text t = written bs ↔ ∃ data, Utf8.decode data = .ok t ∧ blob data = written bs := by
  rw [text]
  cases h : Utf8.encode t with
  | error part =>
    refine ⟨fun hfail => absurd hfail (failed_ne_written _ _), ?_⟩
    rintro ⟨data, hdata, _⟩
    rw [Utf8.decode_eq_ok_iff, h] at hdata
    cases hdata
  | ok data =>
    constructor
    · exact fun hblob => ⟨data, (Utf8.decode_eq_ok_iff data t).mpr h, hblob⟩
    · rintro ⟨data', hdata, hblob⟩
      rw [Utf8.decode_eq_ok_iff, h] at hdata
      cases hdata
      exact hblob

end Emission

namespace Read.Takes

lemma signed64 : Takes Reader.signed64 fun n bs => Emission.signed64 n = .written bs := by
  refine ((bytes 8).map Bytes.toInt).congr fun n bs => ?_
  rw [Emission.signed64_eq_written_iff]
  constructor
  · rintro ⟨_, rfl, rfl, h⟩
    exact ⟨h, rfl⟩
  · rintro ⟨h, rfl⟩
    exact ⟨bs, rfl, rfl, h⟩

lemma ite {α : Type} {p : Prop} [Decidable p] {x y : Read α} {written written' : α → Bytes → Prop}
    (hx : Takes x written) (hy : Takes y written') :
    Takes (if p then x else y) fun a bs => if p then written a bs else written' a bs := by
  split
  case isTrue => exact hx
  case isFalse => exact hy

lemma boolean : Takes Reader.boolean fun b bs => Emission.boolean b = .written bs := by
  refine ((unsigned 1).bind fun n => ite (throw _) (pure (decide (n = 1)))).congr fun b bs => ?_
  rw [Emission.boolean_eq_written_iff]
  constructor
  · rintro ⟨n, xs, ys, rfl, ⟨hlength, rfl⟩, hrest⟩
    split at hrest
    case isTrue => exact hrest.elim
    case isFalse hn =>
      obtain ⟨rfl, rfl⟩ := hrest
      exact ⟨by rw [List.append_nil]; exact hlength, by rwa [List.append_nil], by rw [List.append_nil]⟩
  · rintro ⟨hlength, hn, rfl⟩
    exact ⟨_, bs, [], (List.append_nil bs).symm, ⟨hlength, rfl⟩, by rw [if_neg hn]; exact ⟨rfl, rfl⟩⟩

lemma blob : Takes Reader.blob fun data bs => Emission.blob data = .written bs := by
  refine ((unsigned 4).bind fun n => bytes n).congr fun data bs => ?_
  rw [Emission.blob_eq_written_iff]
  constructor
  · rintro ⟨_, xs, ys, rfl, ⟨hlength, rfl⟩, rfl, hn⟩
    exact ⟨xs, rfl, hlength, hn⟩
  · rintro ⟨xs, rfl, hlength, hn⟩
    exact ⟨_, xs, data, rfl, ⟨hlength, rfl⟩, rfl, hn⟩

lemma decoded (data : Bytes) :
    Takes
      (match Utf8.decode data with
        | .ok t => Pure.pure t
        | .error fault => MonadExcept.throw (.codec (.undecodableText fault)) : Read Text)
      fun t bs => Utf8.decode data = .ok t ∧ bs = [] := by
  split
  case h_1 t h =>
    refine (pure t).congr fun u bs => ?_
    rw [h, Except.ok.injEq, eq_comm]
  case h_2 fault h =>
    have hthrow := throw (α := Text) (.codec (.undecodableText fault))
    exact hthrow.congr fun u bs => by rw [h]; simp

lemma text : Takes Reader.text fun t bs => Emission.text t = .written bs := by
  refine (blob.bind decoded).congr fun t bs => ?_
  rw [Emission.text_eq_written_iff]
  constructor
  · rintro ⟨data, xs, _, rfl, hblob, hdecode, rfl⟩
    rw [List.append_nil]
    exact ⟨data, hdecode, hblob⟩
  · rintro ⟨data, hdecode, hblob⟩
    exact ⟨data, bs, [], (List.append_nil bs).symm, hblob, hdecode, rfl⟩

lemma address : Takes Reader.address fun a bs => Emission.written a.bytes = .written bs := by
  have hjudge (data : Bytes) : Takes
      (if h : data.length = 32 then Pure.pure ⟨data, h⟩
        else MonadExcept.throw (.codec (.addressLength data.length)) : Read Address)
      fun a bs => a.bytes = data ∧ bs = [] := by
    split
    case isTrue h =>
      refine (pure _).congr fun a bs => ?_
      obtain ⟨data', h'⟩ := a
      rw [Address.mk.injEq]
    case isFalse h =>
      refine (throw _).congr fun a bs => ⟨False.elim, ?_⟩
      rintro ⟨rfl, _⟩
      exact h a.length_eq
  refine ((bytes 32).bind hjudge).congr fun a bs => ?_
  rw [Emission.written_inj]
  constructor
  · rintro ⟨_, xs, ys, rfl, ⟨rfl, _⟩, rfl, rfl⟩
    rw [List.append_nil]
  · rintro rfl
    exact ⟨_, a.bytes, [], (List.append_nil _).symm, ⟨rfl, a.length_eq⟩, rfl, rfl⟩

lemma many {α : Type} {read : Read α} {emit : α → Emission} {p : α → Prop}
    (h : Takes read fun a bs => emit a = .written bs ∧ p a) (n : Nat) :
    Takes (Reader.many read n) fun as bs =>
      as.length = n ∧ Emission.all emit as = .written bs ∧ ∀ a ∈ as, p a := by
  induction n with
  | zero =>
    refine (pure []).congr fun as bs => ?_
    constructor
    · rintro ⟨rfl, rfl⟩
      exact ⟨rfl, rfl, nofun⟩
    · rintro ⟨hlength, hall, -⟩
      obtain rfl := List.eq_nil_of_length_eq_zero hlength
      exact ⟨rfl, (Emission.written_inj.mp hall).symm⟩
  | succ n ih =>
    refine (h.bind fun a => ih.bind fun as => pure (a :: as)).congr fun as bs => ?_
    constructor
    · rintro ⟨a, xs, _, rfl, ⟨hxs, ha⟩, as, ys, _, rfl, ⟨rfl, hys, has⟩, rfl, rfl⟩
      refine ⟨rfl, (Emission.andThen_eq_written_iff _ _ _).mpr ⟨xs, ys, ?_, hxs, hys⟩,
        List.forall_mem_cons.mpr ⟨ha, has⟩⟩
      rw [List.append_nil]
    · rintro ⟨hlength, hall, has⟩
      cases as with
      | nil => cases hlength
      | cons a as =>
        obtain ⟨xs, ys, rfl, hxs, hys⟩ := (Emission.andThen_eq_written_iff _ _ _).mp hall
        obtain ⟨ha, has⟩ := List.forall_mem_cons.mp has
        exact ⟨a, xs, ys, rfl, ⟨hxs, ha⟩, as, ys, [], (List.append_nil ys).symm,
          ⟨Nat.succ.inj hlength, hys, has⟩, rfl, rfl⟩

end Read.Takes

namespace Format

/-- Raw bytes are as many as the reader is told to take. -/
def Exact : (f : Format) → f.Value → Prop
  | raw length, bs => (List.length bs : Int) = length
  | optional f, v => ∀ w : f.Value, v = some w → f.Exact w
  | array f, (vs : List f.Value) => ∀ v ∈ vs, f.Exact v
  | counted _ f, (vs : List f.Value) => ∀ v ∈ vs, f.Exact v
  | pair f g, v => f.Exact v.1 ∧ g.Exact v.2
  | _, _ => True

/-- No part of the format has raw bytes, whose number only the reader knows. -/
def Regular : Format → Prop
  | raw _ => False
  | optional f | array f | counted _ f => f.Regular
  | pair f g => f.Regular ∧ g.Regular
  | _ => True

lemma Regular.exact {f : Format} (hf : f.Regular) (v : f.Value) : f.Exact v := by
  induction f with
  | raw length => exact hf.elim
  | optional f ih => exact fun w _ => ih hf w
  | array f ih => exact fun w _ => ih hf w
  | counted width f ih => exact fun w _ => ih hf w
  | pair f g ihf ihg => exact ⟨ihf hf.1 v.1, ihg hf.2 v.2⟩
  | _ => trivial

lemma takes_optional {f : Format}
    (h : Read.Takes f.read fun v bs => f.emit v = .written bs ∧ f.Exact v) :
    Read.Takes (optional f).read fun v bs =>
      (optional f).emit v = .written bs ∧ (optional f).Exact v := by
  have hrest (b : Bool) : Read.Takes
      (if b = true then some <$> f.read else Pure.pure none : Read (Option f.Value))
      fun v bs => if b = true then ∃ w, v = some w ∧ f.emit w = .written bs ∧ f.Exact w
        else v = none ∧ bs = [] := .ite (h.map some) (.pure none)
  refine (Read.Takes.boolean.bind hrest).congr fun v bs => ?_
  constructor
  · rintro ⟨b, xs, ys, rfl, hxs, hys⟩
    cases b with
    | true =>
      obtain ⟨w, rfl, hw, hexact⟩ := hys
      refine ⟨(Emission.andThen_eq_written_iff _ _ _).mpr ⟨xs, ys, rfl, hxs, hw⟩, ?_⟩
      rintro _ ⟨⟩
      exact hexact
    | false =>
      obtain ⟨rfl, rfl⟩ := hys
      rw [List.append_nil]
      exact ⟨hxs, nofun⟩
  · rintro ⟨hemit, hexact⟩
    cases v with
    | some w =>
      obtain ⟨xs, ys, rfl, hxs, hys⟩ :=
        (Emission.andThen_eq_written_iff (.boolean true) (f.emit w) bs).mp hemit
      exact ⟨true, xs, ys, rfl, hxs, w, rfl, hys, hexact w rfl⟩
    | none => exact ⟨false, bs, [], (List.append_nil bs).symm, hemit, rfl, rfl⟩

/-- Lists are written behind their length, in so many bytes. -/
lemma takes_counted {f : Format}
    (h : Read.Takes f.read fun v bs => f.emit v = .written bs ∧ f.Exact v) (width : Nat) :
    Read.Takes (counted width f).read fun vs bs =>
      (counted width f).emit vs = .written bs ∧ (counted width f).Exact vs := by
  refine ((Read.Takes.unsigned width).bind fun n => Read.Takes.many h n).congr fun vs bs => ?_
  refine Iff.trans ?_ (and_congr (Emission.andThen_eq_written_iff _ _ _).symm Iff.rfl)
  constructor
  · rintro ⟨n, xs, ys, rfl, ⟨hxs, rfl⟩, hlength, hys, hexact⟩
    exact ⟨⟨xs, ys, rfl, (Emission.unsigned_eq_written_iff _ _ _).mpr ⟨hxs, by omega⟩, hys⟩, hexact⟩
  · rintro ⟨⟨xs, ys, rfl, hcount, hys⟩, hexact⟩
    obtain ⟨hxs, hlength⟩ := (Emission.unsigned_eq_written_iff _ _ _).mp hcount
    exact ⟨_, xs, ys, rfl, ⟨hxs, rfl⟩, by omega, hys, hexact⟩

lemma emit_array {f : Format} (vs : List f.Value) (bs : Bytes) :
    (array f).emit vs = .written bs ↔ (counted 2 f).emit vs = .written bs := by
  change (Emission.arrayCount vs.length).andThen _ = _ ↔
    (Emission.unsigned 2 vs.length).andThen _ = _
  rw [Emission.arrayCount]
  split
  case isTrue h =>
    have hlength : ¬(0 ≤ (vs.length : Int) ∧ (vs.length : Int) < 256 ^ 2) := by omega
    rw [Emission.unsigned, if_neg hlength]
    simp [Emission.andThen, Emission.failed, Emission.written]
  case isFalse => rfl

lemma takes_raw (length : Int) :
    Read.Takes (Reader.bytesOf length) fun data bs =>
      Emission.written data = .written bs ∧ (List.length data : Int) = length := by
  rw [Reader.bytesOf]
  split
  case isTrue hneg =>
    refine (Read.Takes.throw _).congr fun data bs => ⟨False.elim, ?_⟩
    rintro ⟨-, hlength⟩
    omega
  case isFalse =>
    refine (Read.Takes.bytes length.toNat).congr fun data bs => ?_
    rw [Emission.written_inj, eq_comm]
    exact and_congr Iff.rfl (by omega)

/-- A value is read exactly from the bytes that are written for it, if its raw bytes are as many as
the reader takes. -/
theorem takes_exact (f : Format) :
    Read.Takes f.read fun v bs => f.emit v = .written bs ∧ f.Exact v := by
  induction f with
  | unsigned width =>
    refine ((Read.Takes.unsigned width).map Int.ofNat).congr fun n bs => ?_
    refine Iff.trans ?_ (and_iff_left (a := Emission.unsigned width n = _) trivial).symm
    rw [Emission.unsigned_eq_written_iff]
    constructor
    · rintro ⟨_, rfl, hlength, rfl⟩
      exact ⟨hlength, rfl⟩
    · rintro ⟨hlength, rfl⟩
      exact ⟨_, rfl, hlength, rfl⟩
  | signed64 => exact Read.Takes.signed64.congr fun _ _ => (and_iff_left trivial).symm
  | boolean => exact Read.Takes.boolean.congr fun _ _ => (and_iff_left trivial).symm
  | raw length => exact takes_raw length
  | blob => exact Read.Takes.blob.congr fun _ _ => (and_iff_left trivial).symm
  | text => exact Read.Takes.text.congr fun _ _ => (and_iff_left trivial).symm
  | looseText =>
    refine (Read.Takes.text.map Json.text).congr fun j bs => ?_
    constructor
    · rintro ⟨t, rfl, ht⟩
      exact ⟨ht, trivial⟩
    · rintro ⟨hemit, -⟩
      cases j with
      | text t => exact ⟨t, rfl, hemit⟩
      | _ => exact absurd hemit (Emission.failed_ne_written _ _)
  | address => exact Read.Takes.address.congr fun _ _ => (and_iff_left trivial).symm
  | optional f ih => exact takes_optional ih
  | array f ih =>
    exact (takes_counted ih 2).congr fun vs bs => and_congr (emit_array vs bs).symm Iff.rfl
  | counted width f ih => exact takes_counted ih width
  | pair f g ihf ihg =>
    refine (ihf.bind fun v => ihg.bind fun w => .pure (v, w)).congr fun p bs => ?_
    refine Iff.trans ?_ (and_congr (Emission.andThen_eq_written_iff _ _ _).symm Iff.rfl)
    constructor
    · rintro ⟨v, xs, _, rfl, ⟨hxs, hv⟩, w, ys, _, rfl, ⟨hys, hw⟩, rfl, rfl⟩
      exact ⟨⟨xs, ys, by rw [List.append_nil], hxs, hys⟩, hv, hw⟩
    · rintro ⟨⟨xs, ys, rfl, hxs, hys⟩, hv, hw⟩
      exact ⟨p.1, xs, ys, rfl, ⟨hxs, hv⟩, p.2, ys, [], (List.append_nil ys).symm, ⟨hys, hw⟩, rfl, rfl⟩

/-- A value of a regular format is read exactly from the bytes that are written for it. -/
theorem takes_read {f : Format} (hf : f.Regular) :
    Read.Takes f.read fun v bs => f.emit v = .written bs :=
  f.takes_exact.congr fun v _ => and_iff_left (hf.exact v)

/-- What is read in front of a rest is what the bytes before this rest are written for. -/
lemma runRest_read_eq_ok_iff {f : Format} (hf : f.Regular) (s rest : Bytes) (v : f.Value) :
    Reader.runRest f.read s = .ok (v, rest) ↔ ∃ bs, s = bs ++ rest ∧ f.encode v = .ok bs := by
  have hrun : Reader.runRest f.read s = .ok (v, rest) ↔
      ∃ offset, f.read.outcome ⟨0, s⟩ = (.ok v, ⟨offset, rest⟩) := by
    rw [Reader.runRest, Read.outcome, Reader.ofBytes]
    rcases (ExceptT.run f.read).run ⟨0, s⟩ with ⟨_ | w, offset, rest'⟩ <;> simp
  simp only [hrun, encode, Emission.result_eq_ok_iff_written, takes_read hf 0 s v]
  constructor
  · rintro ⟨offset, bs, _, rfl, ⟨⟩, hbs⟩
    exact ⟨bs, rfl, hbs⟩
  · rintro ⟨bs, rfl, hbs⟩
    exact ⟨_, bs, rest, rfl, rfl, hbs⟩

lemma decode_of_encode {f : Format} {v : f.Value} {bs : Bytes} (hexact : f.Exact v)
    (h : f.encode v = .ok bs) : f.decode bs = .ok v := by
  have hemit := (Emission.result_eq_ok_iff_written _ _).mp h
  have hread : f.read.outcome (.ofBytes bs) = (.ok v, ⟨0 + bs.length, []⟩) :=
    (f.takes_exact 0 bs v _).mpr ⟨bs, [], (List.append_nil bs).symm, rfl, hemit, hexact⟩
  exact congrArg Prod.fst hread

end Format

end ChainReplay
