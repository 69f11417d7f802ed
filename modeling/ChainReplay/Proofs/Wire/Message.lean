import ChainReplay.Proofs.Wire.Canonical
import ChainReplay.Proofs.Wire.Writable

/-! Messages of several items, each in a format of its own: what is written is read back item by
item, and what is read is written back byte by byte. -/

namespace ChainReplay.Format

abbrev Item := (f : Format) × f.Value

def emitAll (items : List Item) : Emission := Emission.all (fun item => item.1.emit item.2) items

def encodeAll (items : List Item) : Except Failure Bytes := (emitAll items).result

def readAll : List Format → Read (List Item)
  | [] => return []
  | f :: fs => do
    let v ← f.read
    let items ← readAll fs
    return ⟨f, v⟩ :: items

lemma encodeAll_eq_ok_iff (items : List Item) :
    (∃ bs, encodeAll items = .ok bs) ↔ ∀ item ∈ items, item.1.Fits item.2 := by
  rw [encodeAll, Emission.result_eq_ok_iff, emitAll, Emission.all_failure_eq_none]
  exact forall₂_congr fun item _ => emit_failure_eq_none item.1 item.2

/-- The items of a message are read exactly from the bytes that are written for them. -/
lemma takes_readAll (fs : List Format) :
    Read.Takes (readAll fs) fun items bs =>
      items.map Sigma.fst = fs ∧ emitAll items = .written bs ∧
        ∀ item ∈ items, item.1.Exact item.2 := by
  induction fs with
  | nil =>
    refine (Read.Takes.pure []).congr fun items bs => ?_
    constructor
    · rintro ⟨rfl, rfl⟩
      exact ⟨rfl, rfl, nofun⟩
    · rintro ⟨hformats, hemit, -⟩
      obtain rfl := List.map_eq_nil_iff.mp hformats
      exact ⟨rfl, (Emission.written_inj.mp hemit).symm⟩
  | cons f fs ih =>
    have htakes := f.takes_exact.bind fun v => ih.bind fun items => .pure (⟨f, v⟩ :: items)
    refine htakes.congr fun items bs => ?_
    constructor
    · rintro ⟨v, xs, _, rfl, ⟨hxs, hv⟩, items, ys, _, rfl, ⟨rfl, hys, hitems⟩, rfl, rfl⟩
      refine ⟨rfl, (Emission.andThen_eq_written_iff _ _ _).mpr ⟨xs, ys, ?_, hxs, hys⟩,
        List.forall_mem_cons.mpr ⟨hv, hitems⟩⟩
      rw [List.append_nil]
    · rintro ⟨hformats, hemit, hexact⟩
      cases items with
      | nil => cases hformats
      | cons item items =>
        obtain ⟨rfl, hrest⟩ := List.cons.inj hformats
        obtain ⟨xs, ys, rfl, hxs, hys⟩ := (Emission.andThen_eq_written_iff _ _ _).mp hemit
        obtain ⟨hitem, hitems⟩ := List.forall_mem_cons.mp hexact
        exact ⟨item.2, xs, ys, rfl, ⟨hxs, hitem⟩, items, ys, [], (List.append_nil ys).symm,
          ⟨hrest, hys, hitems⟩, rfl, rfl⟩

/-- A value can be written exactly if it fits its format, and a message exactly if all its values
do. From the message, the same formats read the same values, and nothing is left. -/
theorem message_round_trip (items : List Item) :
    (∀ item ∈ items, (∃ bs, item.1.encode item.2 = .ok bs) ↔ item.1.Fits item.2) ∧
      ((∃ bs, encodeAll items = .ok bs) ↔ ∀ item ∈ items, item.1.Fits item.2) ∧
      ∀ bs, encodeAll items = .ok bs → (∀ item ∈ items, item.1.Exact item.2) →
        (readAll (items.map Sigma.fst)).outcome (.ofBytes bs) = (.ok items, ⟨bs.length, []⟩) := by
  refine ⟨fun item _ => ?_, encodeAll_eq_ok_iff items, fun bs hwritten hexact => ?_⟩
  · rw [encode, Emission.result_eq_ok_iff]
    exact emit_failure_eq_none item.1 item.2
  · have hemit := (Emission.result_eq_ok_iff_written _ _).mp hwritten
    refine (takes_readAll _ 0 bs items _).mpr ⟨bs, [], (List.append_nil bs).symm, ?_, rfl, hemit, hexact⟩
    rw [Nat.zero_add]

/-- Values at the ends of their ranges, empty ones, and a text that is not ASCII. -/
def varied : List Item :=
  [⟨unsigned 1, (255 : Int)⟩, ⟨u16, (0 : Int)⟩, ⟨unsigned 16, (2 ^ 128 - 1 : Int)⟩,
    ⟨signed64, (-2 ^ 63 : Int)⟩, ⟨boolean, true⟩, ⟨raw 2, [1, 2]⟩, ⟨blob, []⟩, ⟨text, ("höhe" : Text)⟩,
    ⟨address, Address.zero⟩, ⟨array address, [Address.zero]⟩, ⟨array u256, []⟩,
    ⟨array u64, [(2 ^ 64 - 1 : Int), (0 : Int)]⟩, ⟨array blob, [[], [7]]⟩,
    ⟨tuple, [(2 ^ 256 - 1 : Int)]⟩]

lemma exact_varied : ∀ item ∈ varied, item.1.Exact item.2 := by
  have hraw : (raw 2).Exact [1, 2] := rfl
  have hregular : ∀ item ∈ varied, item = ⟨raw 2, [1, 2]⟩ ∨ item.1.Regular := by
    simp [varied, Regular, u16, u64, u256, tuple]
  intro item hitem
  obtain rfl | h := hregular item hitem
  · exact hraw
  · exact h.exact item.2

lemma exists_encodeAll_varied : ∃ bs, encodeAll varied = .ok bs := by
  have hsome : (encodeAll varied).toOption.isSome := by decide +kernel
  cases hform : encodeAll varied with
  | error f =>
    rw [hform] at hsome
    cases hsome
  | ok bs => exact ⟨bs, rfl⟩

theorem message_round_trip_varied :
    (∀ item ∈ varied, item.1.Fits item.2 ∧ item.1.Exact item.2) ∧
      ∃ bs, encodeAll varied = .ok bs ∧
        (readAll (varied.map Sigma.fst)).outcome (.ofBytes bs) = (.ok varied, ⟨bs.length, []⟩) := by
  obtain ⟨-, hfits, hread⟩ := message_round_trip varied
  obtain ⟨bs, hwritten⟩ := exists_encodeAll_varied
  exact ⟨fun item hitem => ⟨hfits.mp ⟨bs, hwritten⟩ item hitem, exact_varied item hitem⟩, bs,
    hwritten, hread bs hwritten exact_varied⟩

/-- What is read from the front of a byte string is written back as exactly the bytes that were
taken. -/
theorem message_form_of_read {fs : List Format} {bs : Bytes} {items : List Item} {r : Reader}
    (h : (readAll fs).outcome (.ofBytes bs) = (.ok items, r)) :
    items.map Sigma.fst = fs ∧ encodeAll items = .ok (bs.take r.offset) ∧
      r.rest = bs.drop r.offset := by
  obtain ⟨front, rest, rfl, rfl, hformats, hemit, -⟩ := (takes_readAll fs 0 bs items r).mp h
  rw [Nat.zero_add, List.take_left, List.drop_left]
  exact ⟨hformats, (Emission.result_eq_ok_iff_written _ _).mpr hemit, rfl⟩

theorem message_form_of_read_varied :
    ∃ bs r, (readAll (varied.map Sigma.fst)).outcome (.ofBytes (bs ++ [9])) = (.ok varied, r) ∧
      encodeAll varied = .ok ((bs ++ [9]).take r.offset) ∧ r.rest = [9] := by
  obtain ⟨bs, hwritten⟩ := exists_encodeAll_varied
  have hemit := (Emission.result_eq_ok_iff_written _ _).mp hwritten
  have hread : (readAll (varied.map Sigma.fst)).outcome (.ofBytes (bs ++ [9])) =
      (.ok varied, ⟨0 + bs.length, [9]⟩) :=
    (takes_readAll _ 0 _ varied _).mpr ⟨bs, [9], rfl, rfl, rfl, hemit, exact_varied⟩
  obtain ⟨-, hform, -⟩ := message_form_of_read hread
  exact ⟨bs, _, hread, hform, rfl⟩

end ChainReplay.Format
