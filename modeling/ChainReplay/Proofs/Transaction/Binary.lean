import ChainReplay.Proofs.Wire.Canonical
import ChainReplay.Proofs.Wire.Writable
import ChainReplay.Transaction.Wire

/-! The binary form of transactions: which transactions have one, and that exactly this form is read
back as the transaction. -/

namespace ChainReplay

structure RecordedEvent.Writable (e : RecordedEvent) : Prop where
  kind : Bytes.IsBlob e.kind
  data : Bytes.IsBlob e.data

structure TransactionInput.Writable (i : TransactionInput) : Prop where
  spentTransaction : Bytes.IsBlob i.spentTransaction
  outputIndex : Bytes.Holds 4 i.outputIndex
  script : ∀ bs ∈ i.script, Bytes.IsBlob bs
  sequence : Bytes.Holds 4 i.sequence

structure TransactionOutput.Writable (o : TransactionOutput) : Prop where
  value : Bytes.Holds 32 o.value
  index : Bytes.Holds 4 o.index
  hex : o.script.hex.WritableText
  addresses : ∀ addresses ∈ o.script.addresses, Counted 2 Json.WritableText addresses
  address : ∀ address ∈ o.script.address, Json.WritableText address

namespace Transaction

/-- All numbers and lengths are within the widths of the binary form, and all texts consist of
characters. -/
structure Writable (tx : Transaction) : Prop where
  id : tx.id.WritableText
  blockHeight : Bytes.Holds 32 tx.blockHeight
  txId : Bytes.IsBlob tx.txId
  index : Bytes.Holds 4 tx.index
  contractName : tx.contractName.Writable
  calldata : Bytes.IsBlob tx.calldata
  kind : tx.kind.WritableText
  hash : ∀ bs ∈ tx.hash, Bytes.IsBlob bs
  burned : Bytes.Holds 32 tx.burned
  contractSecret : ∀ bs ∈ tx.contractSecret, Bytes.IsBlob bs
  gasUsed : Bytes.Holds 32 tx.gasUsed
  interactionKey : ∀ bs ∈ tx.interactionKey, Bytes.IsBlob bs
  preimage : ∀ bs ∈ tx.preimage, Bytes.IsBlob bs
  priorityFee : Bytes.Holds 32 tx.priorityFee
  raw : ∀ bs ∈ tx.raw, Bytes.IsBlob bs
  receipt : ∀ bs ∈ tx.receipt, Bytes.IsBlob bs
  receiptProofs : Counted 2 Json.WritableText tx.receiptProofs
  revert : ∀ bs ∈ tx.revert, Bytes.IsBlob bs
  reward : Bytes.HoldsSigned tx.reward
  senderKeyHash : ∀ bs ∈ tx.senderKeyHash, Bytes.IsBlob bs
  specialGas : Bytes.Holds 32 tx.specialGas
  events : Counted 2 RecordedEvent.Writable tx.events
  inputs : Counted 2 TransactionInput.Writable tx.inputs
  outputs : Counted 2 TransactionOutput.Writable tx.outputs

end Transaction

lemma RecordedEvent.fits_toValue_iff (e : RecordedEvent) :
    RecordedEvent.format.Fits e.toValue ↔ e.Writable := by
  constructor
  · rintro ⟨-, hkind, hdata⟩
    exact ⟨hkind, hdata⟩
  · rintro ⟨hkind, hdata⟩
    exact ⟨trivial, hkind, hdata⟩

lemma TransactionInput.fits_toValue_iff (i : TransactionInput) :
    TransactionInput.format.Fits i.toValue ↔ i.Writable := by
  constructor
  · rintro ⟨hspent, hindex, hscript, hsequence⟩
    exact ⟨hspent, hindex, hscript, hsequence⟩
  · rintro ⟨hspent, hindex, hscript, hsequence⟩
    exact ⟨hspent, hindex, hscript, hsequence⟩

lemma TransactionOutput.fits_toValue_iff (o : TransactionOutput) :
    TransactionOutput.format.Fits o.toValue ↔ o.Writable := by
  constructor
  · rintro ⟨hvalue, hindex, hhex, haddresses, haddress⟩
    exact ⟨hvalue, hindex, hhex, haddresses, haddress⟩
  · rintro ⟨hvalue, hindex, hhex, haddresses, haddress⟩
    exact ⟨hvalue, hindex, hhex, haddresses, haddress⟩

lemma counted_map_iff {α β : Type} {width : Nat} {p : β → Prop} {q : α → Prop} {f : α → β}
    (h : ∀ a, p (f a) ↔ q a) (as : List α) : Counted width p (as.map f) ↔ Counted width q as := by
  rw [Counted, Counted, List.length_map, List.forall_mem_map]
  exact and_congr Iff.rfl (forall₂_congr fun a _ => h a)

namespace Transaction

lemma fits_toValue_iff (tx : Transaction) : format.Fits tx.toValue ↔ tx.Writable := by
  have hparts : partsFormat.Fits tx.toValue.2.2.2 ↔
      Counted 2 RecordedEvent.Writable tx.events ∧ Counted 2 TransactionInput.Writable tx.inputs ∧
        Counted 2 TransactionOutput.Writable tx.outputs :=
    and_congr (counted_map_iff RecordedEvent.fits_toValue_iff _) (and_congr
      (counted_map_iff TransactionInput.fits_toValue_iff _)
      (counted_map_iff TransactionOutput.fits_toValue_iff _))
  constructor
  · rintro ⟨⟨hid, hheight, htxId, hindex, -, hname, -, hcalldata, hkind⟩,
      ⟨hhash, hburned, hsecret, hgas, hkey, hpreimage, hfee, hraw, hreceipt⟩,
      ⟨hproofs, hrevert, hreward, hsender, hspecial, -⟩, hlists⟩
    obtain ⟨hevents, hinputs, houtputs⟩ := hparts.mp hlists
    exact ⟨hid, hheight, htxId, hindex, hname, hcalldata, hkind, hhash, hburned, hsecret, hgas,
      hkey, hpreimage, hfee, hraw, hreceipt, hproofs, hrevert, hreward, hsender, hspecial, hevents,
      hinputs, houtputs⟩
  · intro h
    exact ⟨⟨h.id, h.blockHeight, h.txId, h.index, trivial, h.contractName, trivial, h.calldata,
        h.kind⟩,
      ⟨h.hash, h.burned, h.contractSecret, h.gasUsed, h.interactionKey, h.preimage, h.priorityFee,
        h.raw, h.receipt⟩,
      ⟨h.receiptProofs, h.revert, h.reward, h.senderKeyHash, h.specialGas, trivial⟩,
      hparts.mpr ⟨h.events, h.inputs, h.outputs⟩⟩

lemma exists_toBytes_iff (tx : Transaction) : (∃ bs, tx.toBytes = .ok bs) ↔ tx.Writable :=
  (Emission.result_eq_ok_iff _).trans ((Format.emit_failure_eq_none _ _).trans tx.fits_toValue_iff)

lemma regular_format : format.Regular := by
  simp [format, headFormat, middleFormat, tailFormat, partsFormat, RecordedEvent.format,
    TransactionInput.format, TransactionOutput.format, Format.Regular, Format.u256, Format.u32]

lemma ofValue_toValue (tx : Transaction) : ofValue tx.toValue = tx := by
  obtain ⟨⟩ := tx
  simp only [toValue, ofValue, mk.injEq, List.map_map, true_and]
  exact ⟨List.map_id _, List.map_id _, List.map_id _⟩

lemma toValue_ofValue (v : format.Value) : (ofValue v).toValue = v := by
  obtain ⟨⟨_, _, _, _, _, _, _, _, _⟩, ⟨_, _, _, _, _, _, _, _, _⟩, ⟨_, _, _, _, _, _⟩,
    events, inputs, outputs⟩ := v
  have hevents : (List.map RecordedEvent.ofValue events).map RecordedEvent.toValue = events :=
    (List.map_map ..).trans (List.map_id _)
  have hinputs :
      (List.map TransactionInput.ofValue inputs).map TransactionInput.toValue = inputs :=
    (List.map_map ..).trans (List.map_id _)
  have houtputs :
      (List.map TransactionOutput.ofValue outputs).map TransactionOutput.toValue = outputs :=
    (List.map_map ..).trans (List.map_id _)
  rw [ofValue, toValue, hevents, hinputs, houtputs]

lemma runRest_format_eq_ok_iff (s rest : Bytes) (v : format.Value) :
    Reader.runRest format.read s = .ok (v, rest) ↔
      ∃ bs, s = bs ++ rest ∧ (ofValue v).toBytes = .ok bs := by
  rw [Format.runRest_read_eq_ok_iff regular_format]
  simp only [toBytes, toValue_ofValue]

lemma ofBytes_append {tx : Transaction} {bs : Bytes} (h : tx.toBytes = .ok bs) (rest : Bytes) :
    ofBytes (bs ++ rest) =
      if rest.isEmpty then .ok tx else .error (.codec (.trailingBytes rest.length)) := by
  have hrun : Reader.runRest format.read (bs ++ rest) = .ok (tx.toValue, rest) :=
    (runRest_format_eq_ok_iff _ _ _).mpr ⟨bs, rfl, by rwa [ofValue_toValue]⟩
  rw [ofBytes, hrun]
  change (if rest.isEmpty then Except.ok (ofValue tx.toValue) else _) = _
  rw [ofValue_toValue]
  rfl

lemma ofBytes_eq_ok_iff (bs : Bytes) (tx : Transaction) :
    ofBytes bs = .ok tx ↔ tx.toBytes = .ok bs := by
  constructor
  · intro h
    rw [ofBytes] at h
    cases hrun : Reader.runRest format.read bs with
    | error f =>
      rw [hrun] at h
      cases h
    | ok p =>
      obtain ⟨v, rest⟩ := p
      rw [hrun] at h
      change (if rest.isEmpty then Except.ok (ofValue v) else _) = _ at h
      split at h
      case isTrue hrest =>
        obtain ⟨read, rfl, hread⟩ := (runRest_format_eq_ok_iff _ _ _).mp hrun
        cases h
        rwa [List.isEmpty_iff.mp hrest, List.append_nil]
      case isFalse => cases h
  · intro h
    rw [← List.append_nil bs, ofBytes_append h]
    rfl

/-- A transaction is read back from its binary form as it was written, and it has a binary form
exactly if all its numbers, lengths and texts fit. -/
theorem binary_round_trip (tx : Transaction) :
    (∀ bs, tx.toBytes = .ok bs → ofBytes bs = .ok tx) ∧
      ((∃ bs, tx.toBytes = .ok bs) ↔ tx.Writable) :=
  ⟨fun bs => (ofBytes_eq_ok_iff bs tx).mpr, exists_toBytes_iff tx⟩

/-- Present but empty next to absent, texts that are not ASCII, and numbers at the ends of their
widths. -/
def varied : Transaction :=
  { plain "x" (2 ^ 256 - 1) (Bytes.zeros 32) (2 ^ 32 - 1) Address.zero "höhe" Address.zero
      [1, 2] with
    hash := some []
    receiptProofs := [.text [], .text "€"]
    reward := -2 ^ 63
    events := [⟨Address.zero, [], [7]⟩]
    inputs := [⟨[], 0, none, 1⟩, ⟨[5], 1, some [], 0⟩]
    outputs := [⟨10, 0, .text "00", none, some (.text [])⟩, ⟨0, 1, .text [], some [], none⟩] }

theorem binary_round_trip_varied :
    varied.Writable ∧ ∃ bs, varied.toBytes = .ok bs ∧ ofBytes bs = .ok varied := by
  obtain ⟨hback, hwritable⟩ := binary_round_trip varied
  have hsome : varied.toBytes.toOption.isSome := by decide +kernel
  cases hform : varied.toBytes with
  | error f =>
    rw [hform] at hsome
    cases hsome
  | ok bs => exact ⟨hwritable.mp ⟨bs, hform⟩, bs, rfl, hback bs hform⟩

/-- What is read as a transaction is its binary form: no other bytes are read as this transaction,
and nothing may follow. -/
theorem binary_form_of_read {bs : Bytes} {tx : Transaction} (h : ofBytes bs = .ok tx) :
    tx.toBytes = .ok bs ∧ (∀ bs', ofBytes bs' = .ok tx → bs' = bs) ∧
      ∀ rest ≠ [], ofBytes (bs ++ rest) = .error (.codec (.trailingBytes rest.length)) := by
  have hform := (ofBytes_eq_ok_iff bs tx).mp h
  refine ⟨hform, fun bs' h' => ?_, fun rest hrest => ?_⟩
  · have hform' := (ofBytes_eq_ok_iff bs' tx).mp h'
    exact Except.ok.inj (hform'.symm.trans hform)
  · rw [ofBytes_append hform, if_neg (by rwa [List.isEmpty_iff])]

theorem binary_form_of_read_varied :
    ∃ bs, ofBytes bs = .ok varied ∧ varied.toBytes = .ok bs ∧
      ofBytes (bs ++ [0]) = .error (.codec (.trailingBytes 1)) := by
  have hread : (varied.toBytes.toOption.map ofBytes) = some (.ok varied) := by decide +kernel
  obtain ⟨bs, -, hbs⟩ := Option.map_eq_some_iff.mp hread
  obtain ⟨hform, -, htrailing⟩ := binary_form_of_read hbs
  exact ⟨bs, hbs, hform, htrailing [0] (by simp)⟩

end Transaction

end ChainReplay
