import ChainReplay.Json.Printer
import ChainReplay.Proofs.Bytes.Base64
import ChainReplay.Proofs.Decoding
import ChainReplay.Proofs.Json.Spellable
import ChainReplay.Proofs.Text.Utf8
import ChainReplay.Transaction.Document

/-! The documents of transactions: what is written in place of a loosely typed record is read back
as the same transaction. -/

namespace ChainReplay

open Decoding Numeral

namespace Json

variable {members : List (Text × Json)} {key : Text}

lemma memberOrNull_of_find? {v : Json} (h : Table.find? members key = some v) :
    (object members).memberOrNull key = .ok v := by
  simp only [memberOrNull, memberOf, h]
  rfl

lemma binaryOf_of_find? {b : Bytes} (h : Table.find? members key = some (ofBinary b)) :
    (object members).binaryOf key = .ok b := by
  have hform : (ofBinary b).member? "$binary" = some (.object
      [("base64", .text (Text.ofChars (Base64.encode b))), ("subType", .text "00")]) := rfl
  have hdata : Table.find? [(("base64" : Text), Json.text (Text.ofChars (Base64.encode b))),
      ("subType", .text "00")] "base64" = some (.text (Text.ofChars (Base64.encode b))) := rfl
  rw [binaryOf]
  rw [memberOrNull_of_find? h]
  simp only [bind, Except.bind, hform, hdata, Text.chars?_ofChars, Option.bind_some,
    Base64.decode?_encode]
  rfl

lemma optionalBinaryOf_of_find? {o : Option Bytes}
    (h : Table.find? members key = some (ofOptionalBinary o)) :
    (object members).optionalBinaryOf key = .ok o := by
  rw [optionalBinaryOf]
  rw [memberOrNull_of_find? h]
  cases o with
  | none => rfl
  | some bs =>
    have hgiven : ofOptionalBinary (some bs) ≠ null := nofun
    simp only [bind, Except.bind]
    rw [if_neg hgiven, binaryOf_of_find? h]
    rfl

lemma numberOf_of_find? {tag : Text} {n : Int} (hn : isWritable n = true)
    (h : Table.find? members key = some (.object [(tag, .text (Text.ofInt n))]))
    (standard : Option Int) : (object members).numberOf key tag standard = .ok n := by
  have hvalue : (Json.object [(tag, .text (Text.ofInt n))]).member? tag =
      some (.text (Text.ofInt n)) := by simp [member?, Table.find?_cons]
  rw [numberOf]
  rw [memberOrNull_of_find? h]
  simp only [bind, Except.bind, hvalue, integer, integer?_ofInt hn]
  rfl

lemma integerAt_of_find? {n : Int} (h : Table.find? members key = some (.int n)) :
    (object members).integerAt key = .ok n := by
  simp only [integerAt, member?, h]
  rfl

lemma notNull_orNull {j : Option Json} (h : j ≠ some .null) : notNull (orNull j) = j := by
  cases j with
  | none => rfl
  | some v =>
    cases v with
    | null => exact absurd rfl h
    | _ => rfl

lemma bind_notNull_ne_null (j : Option Json) : j.bind notNull ≠ some .null := by
  intro h
  obtain ⟨v, -, hv⟩ := Option.bind_eq_some_iff.mp h
  cases v <;> cases hv

lemma Spellable.memberOrNull {j : Json} (hj : j.Spellable) {key : Text} {v : Json}
    (h : j.memberOrNull key = .ok v) : v.Spellable := by
  cases j with
  | object members =>
    cases h
    cases hv : Table.find? members key with
    | none => exact .null
    | some v => exact hj.member hv
  | _ => cases h

lemma Spellable.numberOf {j : Json} (hj : j.Spellable) {key tag : Text} {standard : Option Int}
    {n : Int} (hstandard : ∀ m ∈ standard, Numeral.isWritable m = true)
    (h : j.numberOf key tag standard = .ok n) : Numeral.isWritable n = true := by
  obtain ⟨raw, hraw, h⟩ := bind_eq_ok_iff.mp h
  split at h
  case h_1 =>
    cases h
    exact hstandard _ rfl
  case h_2 =>
    split at h
    case h_1 => cases h
    case h_2 value hvalue =>
      split at h
      case h_1 n hn =>
        cases h
        exact ((hj.memberOrNull hraw).member hvalue).isWritable hn
      case h_2 => cases h
      case h_3 => cases h

end Json

open Json

lemma Address.ofBytes_bytes (a : Address) : Address.ofBytes a.bytes = .ok a := by
  rw [ofBytes, dif_pos a.length_eq]

lemma RecordedEvent.ofJson_toJson (e : RecordedEvent) : ofJson e.toJson = .ok e := by
  rw [ofJson, toJson]
  rw [binaryOf_of_find? (b := e.address.bytes) rfl, binaryOf_of_find? (b := e.kind) rfl,
    binaryOf_of_find? (b := e.data) rfl]
  simp only [bind, Except.bind, Address.ofBytes_bytes]
  rfl

lemma TransactionInput.ofJson_toJson (i : TransactionInput) : ofJson i.toJson = .ok i := by
  rw [ofJson, toJson]
  rw [binaryOf_of_find? (b := i.spentTransaction) rfl, integerAt_of_find? (n := i.outputIndex) rfl,
    optionalBinaryOf_of_find? (o := i.script) rfl, integerAt_of_find? (n := i.sequence) rfl]
  rfl

lemma TransactionOutput.ofJson_toJson {o : TransactionOutput} (hvalue : isWritable o.value = true)
    (haddress : o.script.address ≠ some .null) : ofJson o.toJson = .ok o := by
  obtain ⟨value, index, hex, addresses, address⟩ := o
  rw [ofJson, toJson]
  rw [memberOrNull_of_find? rfl, numberOf_of_find? hvalue rfl, integerAt_of_find? (n := index) rfl]
  cases addresses with
  | none =>
    change Except.ok (TransactionOutput.mk value index ⟨hex, none, notNull (orNull address)⟩) = _
    rw [notNull_orNull haddress]
  | some items =>
    change Except.ok (TransactionOutput.mk value index ⟨hex, some items, notNull (orNull address)⟩) = _
    rw [notNull_orNull haddress]

namespace Transaction

lemma listOf_of_find? {α : Type} {members : List (Text × Json)} {key : Text}
    {read : Json → Except Failure α} {w : α → Json} {as : List α}
    (h : Table.find? members key = some (.array (as.map w)))
    (hread : ∀ a ∈ as, read (w a) = .ok a) : listOf (.object members) key read = .ok as := by
  simp only [listOf, member?, h]
  refine bind_eq_ok_iff.mpr ⟨as.map w, rfl, mapM_eq_ok_iff.mpr ?_⟩
  rw [List.forall₂_map_left_iff, List.forall₂_same]
  exact hread

lemma ofJson_toJson {tx : Transaction} (hspelled : ∀ n ∈ tx.spelled, isWritable n = true)
    (haddress : ∀ o ∈ tx.outputs, o.script.address ≠ some .null) : ofJson tx.toJson = .ok tx := by
  have hevents : ∀ e ∈ tx.events, RecordedEvent.ofJson e.toJson = .ok e := fun e _ => e.ofJson_toJson
  have hinputs : ∀ i ∈ tx.inputs, TransactionInput.ofJson i.toJson = .ok i :=
    fun i _ => i.ofJson_toJson
  have houtputs : ∀ o ∈ tx.outputs, TransactionOutput.ofJson o.toJson = .ok o := fun o ho =>
    TransactionOutput.ofJson_toJson
      (hspelled _ (List.mem_append_right _ (List.mem_map.mpr ⟨o, ho, rfl⟩))) (haddress o ho)
  have hidentity : identityOf tx.toJson = .ok (tx.id, tx.index) := rfl
  have hparties : partiesOf tx.toJson = .ok (tx.sender, tx.target, tx.events) := by
    rw [partiesOf, toJson]
    rw [binaryOf_of_find? (b := tx.sender.bytes) rfl, binaryOf_of_find? (b := tx.target.bytes) rfl,
      listOf_of_find? rfl hevents]
    simp only [bind, Except.bind, Address.ofBytes_bytes]
    rfl
  have hparts : partsOf tx.toJson = .ok (tx.inputs, tx.outputs) := by
    rw [partsOf, toJson]
    rw [listOf_of_find? rfl hinputs, listOf_of_find? rfl houtputs]
    rfl
  have hproofs : listOf tx.toJson "receiptProofs" .ok = .ok tx.receiptProofs :=
    listOf_of_find? (w := fun j => j) (by rw [List.map_id']; rfl) fun _ _ => rfl
  simp only [spelled, List.forall_mem_append, List.forall_mem_cons] at hspelled
  obtain ⟨⟨hheight, hburned, hgas, hpriority, hreward, hspecial, -⟩, -⟩ := hspelled
  have hfields : fieldsOf tx.toJson tx.id tx.index (tx.sender, tx.target, tx.events)
      (tx.inputs, tx.outputs) = .ok tx := by
    rw [toJson] at hproofs ⊢
    simp only [fieldsOf]
    rw [numberOf_of_find? hheight rfl, binaryOf_of_find? (b := tx.txId) rfl,
      binaryOf_of_find? (b := tx.calldata) rfl, optionalBinaryOf_of_find? (o := tx.hash) rfl,
      numberOf_of_find? hburned rfl, optionalBinaryOf_of_find? (o := tx.contractSecret) rfl,
      numberOf_of_find? hgas rfl, optionalBinaryOf_of_find? (o := tx.interactionKey) rfl,
      optionalBinaryOf_of_find? (o := tx.preimage) rfl, numberOf_of_find? hpriority rfl,
      optionalBinaryOf_of_find? (o := tx.raw) rfl, optionalBinaryOf_of_find? (o := tx.receipt) rfl,
      optionalBinaryOf_of_find? (o := tx.revert) rfl, numberOf_of_find? hreward rfl,
      optionalBinaryOf_of_find? (o := tx.senderKeyHash) rfl, numberOf_of_find? hspecial rfl, hproofs]
    rfl
  unfold ofJson
  rw [hidentity]
  simp only [hparties, hparts, bind, Except.bind, Except.mapError]
  exact hfields

end Transaction

namespace TransactionOutput

lemma of_ofJson {item : Json} {o : TransactionOutput} (h : ofJson item = .ok o) :
    item.numberOf "value" "$numberDecimal" none = .ok o.value ∧ o.script.address ≠ some .null := by
  simp only [ofJson, bind_eq_ok_iff] at h
  obtain ⟨given, -, addresses, -, value, hvalue, index, -, h⟩ := h
  split at h
  case h_1 =>
    cases h
    exact ⟨hvalue, bind_notNull_ne_null _⟩
  case h_2 =>
    obtain ⟨items, -, h⟩ := bind_eq_ok_iff.mp h
    cases h
    exact ⟨hvalue, bind_notNull_ne_null _⟩

end TransactionOutput

namespace Transaction

lemma mem_of_listOf {α : Type} {document : Json} {key : Text} {read : Json → Except Failure α}
    {as : List α} (h : listOf document key read = .ok as) :
    ∀ a ∈ as, ∃ raw items item, document.member? key = some raw ∧ raw.elements = .ok items ∧
      item ∈ items ∧ read item = .ok a := by
  rw [listOf] at h
  cases hraw : document.member? key with
  | none =>
    rw [hraw] at h
    cases h
    exact nofun
  | some raw =>
    rw [hraw] at h
    obtain ⟨items, hitems, h⟩ := bind_eq_ok_iff.mp h
    intro a ha
    obtain ⟨item, hitem, hread⟩ := exists_of_mapM h a ha
    exact ⟨raw, items, item, rfl, hitems, hitem, hread⟩

/-- Where the numbers and the parts of a transaction that was read come from. -/
structure ReadFrom (tx : Transaction) (document : Json) : Prop where
  blockHeight : document.numberOf "blockHeight" "$numberDecimal" none = .ok tx.blockHeight
  burned : document.numberOf "burnedBitcoin" "$numberDecimal" (some 0) = .ok tx.burned
  gasUsed : document.numberOf "gasUsed" "$numberDecimal" (some 0) = .ok tx.gasUsed
  priorityFee : document.numberOf "priorityFee" "$numberDecimal" (some 0) = .ok tx.priorityFee
  reward : document.numberOf "reward" "$numberLong" (some 0) = .ok tx.reward
  specialGas : document.numberOf "specialGasUsed" "$numberDecimal" (some 0) = .ok tx.specialGas
  outputs : listOf document "outputs" TransactionOutput.ofJson = .ok tx.outputs

lemma readFrom_of_ofJson {document : Json} {tx : Transaction} (h : ofJson document = .ok tx) :
    tx.ReadFrom document := by
  cases document with
  | object members =>
    rw [ofJson.eq_def] at h
    simp only [bind_eq_ok_iff, mapError_eq_ok_iff] at h
    obtain ⟨⟨id, index⟩, -, parties, -, parts, hparts, h⟩ := h
    simp only [partsOf, bind_eq_ok_iff] at hparts
    obtain ⟨inputs, -, outputs, houtputs, hparts⟩ := hparts
    cases hparts
    simp only [fieldsOf, bind_eq_ok_iff] at h
    obtain ⟨blockHeight, hheight, txId, -, calldata, -, hash, -, burned, hburned, contractSecret, -,
      gasUsed, hgas, interactionKey, -, preimage, -, priorityFee, hpriority, raw, -, receipt, -,
      receiptProofs, -, revert, -, reward, hreward, senderKeyHash, -, specialGas, hspecial, h⟩ := h
    cases h
    exact ⟨hheight, hburned, hgas, hpriority, hreward, hspecial, houtputs⟩
  | _ => cases h

lemma ReadFrom.spelled {tx : Transaction} {document : Json} (h : tx.ReadFrom document)
    (hdocument : document.Spellable) : ∀ n ∈ tx.spelled, isWritable n = true := by
  have hzero : ∀ m ∈ some (0 : Int), isWritable m = true := by
    rintro _ ⟨⟩
    decide +kernel
  simp only [Transaction.spelled, List.forall_mem_append, List.forall_mem_cons, List.forall_mem_map]
  refine ⟨⟨hdocument.numberOf (fun _ h => absurd h (Option.not_mem_none _)) h.blockHeight,
    hdocument.numberOf hzero h.burned,
    hdocument.numberOf hzero h.gasUsed, hdocument.numberOf hzero h.priorityFee,
    hdocument.numberOf hzero h.reward, hdocument.numberOf hzero h.specialGas, nofun⟩, ?_⟩
  intro o ho
  obtain ⟨raw, items, item, hraw, hitems, hitem, hread⟩ := mem_of_listOf h.outputs o ho
  have hspellable := (hdocument.member hraw).elements hitems item hitem
  exact hspellable.numberOf (fun _ h => absurd h (Option.not_mem_none _))
    (TransactionOutput.of_ofJson hread).1

lemma ReadFrom.address_ne_null {tx : Transaction} {document : Json} (h : tx.ReadFrom document) :
    ∀ o ∈ tx.outputs, o.script.address ≠ some .null := by
  intro o ho
  obtain ⟨_, _, item, _, _, _, hread⟩ := mem_of_listOf h.outputs o ho
  exact (TransactionOutput.of_ofJson hread).2

lemma document_eq_ok_iff (tx : Transaction) (form : Json) :
    tx.document = .ok form ↔ (∀ n ∈ tx.spelled, isWritable n = true) ∧ tx.toJson = form := by
  rw [document, ← List.all_eq_true]
  cases tx.spelled.all isWritable <;> simp

/-- A transaction that was read is read back from its document, if it has one, so that this has the
same document again. It has a document if it was read from a text, alone or in a list. -/
theorem document_round_trip {record : Json} {tx : Transaction} (h : ofJson record = .ok tx) :
    (∀ form, tx.document = .ok form → ofJson form = .ok tx ∧
      ∀ again, ofJson form = .ok again → again.document = .ok form) ∧
    ∀ cs file, Json.parse cs = .ok file →
      (file = record ∨ ∃ records, file = .array records ∧ record ∈ records) →
      ∃ form, tx.document = .ok form := by
  have hfrom := readFrom_of_ofJson h
  constructor
  · intro form hform
    obtain ⟨hspelled, rfl⟩ := (document_eq_ok_iff tx form).mp hform
    have hback := ofJson_toJson hspelled hfrom.address_ne_null
    refine ⟨hback, fun again hagain => ?_⟩
    rw [hback] at hagain
    cases hagain
    exact hform
  · intro cs file hparse hrecord
    have hfile := Json.spellable_of_parse hparse
    have hspellable : record.Spellable := by
      rcases hrecord with rfl | ⟨records, rfl, hmem⟩
      · exact hfile
      · exact hfile.elements rfl record hmem
    exact ⟨tx.toJson, (document_eq_ok_iff tx _).mpr ⟨hfrom.spelled hspellable, rfl⟩⟩

/-- A record with as little as possible, and that of other kinds than usual. -/
def sparse : Json :=
  let binary (base64 : Text) : Json := .object [("$binary", .object [("base64", .text base64)])]
  .object [("_id", .object [("$oid", .int 7)]), ("index", .bool true),
    ("from", binary "AAAAAAAAAAAAAAAAAAAAAAAAAAAAAAAAAAAAAAAAAAA="),
    ("contractTweakedPublicKey", binary "AAAAAAAAAAAAAAAAAAAAAAAAAAAAAAAAAAAAAAAAAAA="),
    ("id", binary ""), ("calldata", binary "AQ=="), ("hash", .null), ("OPNetType", .null),
    ("blockHeight", .object [("$numberDecimal", .real (.ofDecimal false 19 (-1)))]),
    ("reward", .object [("$numberLong", .text " -0_3")]), ("contractAddress", .null),
    ("receiptProofs", .text "ab"), ("wasCompressed", .text "no"), ("events", .object []),
    ("outputs", .array [.object [("value", .object [("$numberDecimal", .bool true)]),
      ("index", .text "0"), ("scriptPubKey", .bool false)]])]

theorem document_round_trip_sparse :
    (∃ cs, Json.parse cs = .ok (.array [sparse])) ∧ ∃ tx form, ofJson sparse = .ok tx ∧
      tx.document = .ok form ∧ form ≠ sparse ∧ ofJson form = .ok tx := by
  have hparse : ((Json.array [sparse]).compact.chars?.bind fun cs => (Json.parse cs).toOption) =
      some (.array [sparse]) := by decide +kernel
  have hread : ((ofJson sparse).toOption.map fun tx => decide (tx.toJson ≠ sparse)) =
      some true := by decide +kernel
  obtain ⟨cs, -, hcs⟩ := Option.bind_eq_some_iff.mp hparse
  obtain ⟨tx, htx, hne⟩ := Option.map_eq_some_iff.mp hread
  have htext := eq_ok_of_toOption hcs
  have hrecord := eq_ok_of_toOption htx
  obtain ⟨hback, hwritten⟩ := document_round_trip hrecord
  obtain ⟨form, hform⟩ := hwritten cs _ htext (.inr ⟨_, rfl, List.mem_singleton.mpr rfl⟩)
  have htoJson := ((document_eq_ok_iff tx form).mp hform).2
  exact ⟨⟨cs, htext⟩, tx, form, hrecord, hform, htoJson ▸ of_decide_eq_true hne, (hback form hform).1⟩

end Transaction

end ChainReplay
