import ChainReplay.Proofs.Decoding
import ChainReplay.Transaction.Document

/-! Records of transactions that are read, or else refused with an account of what is wrong with
them. -/

namespace ChainReplay

open Decoding

def Failure.IsFormat : Failure → Prop
  | .format _ => True
  | _ => False

namespace Json

def IsObject (j : Json) : Prop := ∃ members, j = .object members

/-- It is not an infinite number. -/
def Bounded (j : Json) : Prop := j.integer ≠ .error .overflow

def BoundedAt (j : Json) (key : Text) : Prop := ∀ v, j.member? key = some v → v.Bounded

def TaggedAt (j : Json) (key tag : Text) : Prop := ∀ raw, j.member? key = some raw → raw.BoundedAt tag

variable {members : List (Text × Json)} {key tag : Text}

lemma fails_integer {j : Json} (hj : j.Bounded) :
    Fails (fun f => f = .wrongType ∨ f = .wrongValue) j.integer := by
  intro f hf
  rw [Bounded] at hj
  cases j with
  | bool | int => cases hf
  | null | array | object =>
    cases hf
    exact .inl rfl
  | text t =>
    rw [integer] at hf
    split at hf <;> cases hf
    exact .inr rfl
  | real x =>
    have hkinds : f = .wrongValue ∨ f = .overflow := by
      rw [integer.eq_def] at hf
      dsimp only at hf
      split at hf <;> cases hf
      · exact .inl rfl
      · exact .inr rfl
    rcases hkinds with rfl | rfl
    · exact .inr rfl
    · exact absurd hf hj

lemma memberOrNull_object : (object members).memberOrNull key =
    .ok (((object members).member? key).getD .null) := rfl

lemma fails_binaryOf : Fails Failure.IsFormat ((object members).binaryOf key) := by
  rw [binaryOf]
  rw [memberOrNull_object]
  refine .bind (.ok _) fun raw _ => ?_
  split
  · split
    · split
      · exact .ok _
      · exact .error trivial
    · exact .error trivial
  · exact .error trivial

lemma fails_optionalBinaryOf : Fails Failure.IsFormat ((object members).optionalBinaryOf key) := by
  rw [optionalBinaryOf]
  rw [memberOrNull_object]
  refine .bind (.ok _) fun raw _ => ?_
  split
  · exact .ok none
  · exact fails_binaryOf.map

lemma fails_numberOf {standard : Option Int} (h : (object members).TaggedAt key tag) :
    Fails Failure.IsFormat ((object members).numberOf key tag standard) := by
  rw [numberOf]
  rw [memberOrNull_object]
  refine .bind (.ok _) fun raw hraw => ?_
  cases hraw
  split
  · exact .ok _
  · split
    · exact .error trivial
    · next value hvalue =>
      have hbounded : value.Bounded := by
        cases hmember : (object members).member? key with
        | none =>
          rw [hmember] at hvalue
          cases hvalue
        | some raw =>
          rw [hmember] at hvalue
          exact h raw hmember value hvalue
      split
      · exact .ok _
      · next hoverflow => exact absurd hoverflow hbounded
      · exact .error trivial

/-- The failures of the parts of a transaction that get a description. -/
def IsDescribed (f : Failure) : Prop := f.IsFormat ∨ f = .wrongType ∨ f = .wrongValue

lemma fails_integerAt {j : Json} (h : j.BoundedAt key) : Fails IsDescribed (j.integerAt key) := by
  rw [integerAt]
  cases hv : j.member? key with
  | none => exact .error (.inr (.inr rfl))
  | some v => exact (fails_integer (h v hv)).imp fun f => .inr

lemma fails_elements {j : Json} : Fails IsDescribed j.elements := by
  cases j with
  | null | bool | int | real => exact .error (.inr (.inl rfl))
  | text | array | object => exact .ok _

end Json

open Json

/-- An input that has the form of one: no part of it is looked for where there can be none, and no
number is infinite. -/
structure TransactionInput.Orderly (item : Json) : Prop where
  object : item.IsObject
  outputIndex : item.BoundedAt "outputTransactionIndex"
  sequence : item.BoundedAt "sequenceId"

structure TransactionOutput.Orderly (item : Json) : Prop where
  object : item.IsObject
  value : item.TaggedAt "value" "$numberDecimal"
  index : item.BoundedAt "index"
  script : ∀ raw, item.member? "scriptPubKey" = some raw → raw.isGiven = true → raw.IsObject

namespace Transaction

/-- The same for a record: it need not be complete, nor do its fields have to be of the right kind,
as far as this is looked into. -/
structure Orderly (record : Json) : Prop where
  index : record.BoundedAt "index"
  decimals : ∀ key ∈ (["blockHeight", "burnedBitcoin", "gasUsed", "priorityFee",
    "specialGasUsed"] : List Text), record.TaggedAt key "$numberDecimal"
  reward : record.TaggedAt "reward" "$numberLong"
  events : ∀ raw, record.member? "events" = some raw →
    ∃ items, raw.elements = .ok items ∧ ∀ item ∈ items, item.IsObject
  inputs : ∀ raw items, record.member? "inputs" = some raw → raw.elements = .ok items →
    ∀ item ∈ items, TransactionInput.Orderly item
  outputs : ∀ raw items, record.member? "outputs" = some raw → raw.elements = .ok items →
    ∀ item ∈ items, TransactionOutput.Orderly item
  receiptProofs : ∀ raw, record.member? "receiptProofs" = some raw →
    ∃ items, raw.elements = .ok items

variable {record : Json}

lemma fails_identityOf (h : record.BoundedAt "index") :
    Fails Failure.IsFormat (identityOf record) := by
  rw [identityOf]
  split
  · next raw _ hraw =>
    split
    · exact .ok _
    · next hoverflow => exact absurd hoverflow (h raw hraw)
    · exact .error trivial
  · exact .error trivial

lemma fails_listOf {P : Failure → Prop} {α : Type} {key : Text} {read : Json → Except Failure α}
    (helements : ∀ raw, record.member? key = some raw → Fails P raw.elements)
    (hread : ∀ raw items, record.member? key = some raw → raw.elements = .ok items →
      ∀ item ∈ items, Fails P (read item)) : Fails P (listOf record key read) := by
  rw [listOf]
  split
  · exact .ok _
  · next raw hraw =>
    exact .bind (helements raw hraw) fun items hitems => .mapM (hread raw items hraw hitems)

/-- The failures of the parties of a transaction that get a description. -/
def IsNamed (f : Failure) : Prop := f.IsFormat ∨ ∃ error, f = .codec error

lemma fails_ofBytes (bs : Bytes) : Fails IsNamed (Address.ofBytes bs) := by
  rw [Address.ofBytes]
  split
  · exact .ok _
  · exact .error (.inr ⟨_, rfl⟩)

lemma fails_event {item : Json} (h : item.IsObject) : Fails IsNamed (RecordedEvent.ofJson item) := by
  obtain ⟨members, rfl⟩ := h
  rw [RecordedEvent.ofJson]
  refine .bind (fails_binaryOf.imp fun _ => .inl) fun _ _ => .bind (fails_ofBytes _) fun _ _ => ?_
  refine .bind (fails_binaryOf.imp fun _ => .inl) fun _ _ => ?_
  exact .bind (fails_binaryOf.imp fun _ => .inl) fun _ _ => .ok _

lemma fails_partiesOf {members : List (Text × Json)} (h : Orderly (.object members)) :
    Fails IsNamed (partiesOf (.object members)) := by
  rw [partiesOf]
  refine .bind (fails_binaryOf.imp fun _ => .inl) fun _ _ => .bind (fails_ofBytes _) fun _ _ => ?_
  refine .bind (fails_binaryOf.imp fun _ => .inl) fun _ _ => .bind (fails_ofBytes _) fun _ _ => ?_
  refine .bind (fails_listOf (fun raw hraw => ?_) fun raw items hraw hitems item hitem => ?_)
    fun _ _ => .ok _
  · obtain ⟨items, hitems, -⟩ := h.events raw hraw
    exact hitems ▸ .ok items
  · obtain ⟨items', hitems', hobjects⟩ := h.events raw hraw
    cases hitems.symm.trans hitems'
    exact fails_event (hobjects item hitem)

lemma fails_input {item : Json} (h : TransactionInput.Orderly item) :
    Fails IsDescribed (TransactionInput.ofJson item) := by
  obtain ⟨members, rfl⟩ := h.object
  rw [TransactionInput.ofJson]
  refine .bind (fails_binaryOf.imp fun _ => .inl) fun _ _ => ?_
  refine .bind (fails_integerAt h.outputIndex) fun _ _ => ?_
  refine .bind (fails_optionalBinaryOf.imp fun _ => .inl) fun _ _ => ?_
  exact .bind (fails_integerAt h.sequence) fun _ _ => .ok _

lemma fails_output {item : Json} (h : TransactionOutput.Orderly item) :
    Fails IsDescribed (TransactionOutput.ofJson item) := by
  obtain ⟨members, rfl⟩ := h.object
  rw [TransactionOutput.ofJson]
  rw [memberOrNull_object]
  refine .bind (.ok _) fun given hgiven => ?_
  have hscript : ∃ inner, (if given.isGiven then given else .object []) = Json.object inner := by
    split
    case isFalse => exact ⟨[], rfl⟩
    case isTrue hisGiven =>
      cases hgiven
      cases hmember : (Json.object members).member? "scriptPubKey" with
      | none =>
        rw [hmember] at hisGiven
        cases hisGiven
      | some raw =>
        rw [hmember] at hisGiven
        exact h.script raw hmember hisGiven
  obtain ⟨inner, hinner⟩ := hscript
  dsimp only
  rw [hinner]
  rw [memberOrNull_object]
  refine .bind (.ok _) fun addresses _ => ?_
  refine .bind ((fails_numberOf h.value).imp fun _ => .inl) fun _ _ => ?_
  refine .bind (fails_integerAt h.index) fun _ _ => ?_
  split
  · exact .ok _
  · exact .bind fails_elements.map fun _ _ => .ok _

lemma fails_partsOf {members : List (Text × Json)} (h : Orderly (.object members)) :
    Fails IsDescribed (partsOf (.object members)) := by
  rw [partsOf]
  refine .bind (fails_listOf (fun _ _ => fails_elements) fun raw items hraw hitems item hitem =>
    fails_input (h.inputs raw items hraw hitems item hitem)) fun _ _ => ?_
  exact .bind (fails_listOf (fun _ _ => fails_elements) fun raw items hraw hitems item hitem =>
    fails_output (h.outputs raw items hraw hitems item hitem)) fun _ _ => .ok _

lemma fails_fieldsOf {members : List (Text × Json)} (h : Orderly (.object members)) (id : Json)
    (index : Int) (parties : Address × Address × List RecordedEvent)
    (parts : List TransactionInput × List TransactionOutput) :
    Fails Failure.IsFormat (fieldsOf (.object members) id index parties parts) := by
  have hproofs : Fails Failure.IsFormat (listOf (.object members) "receiptProofs" .ok) := by
    refine fails_listOf (fun raw hraw => ?_) fun _ _ _ _ _ _ => .ok _
    obtain ⟨items, hitems⟩ := h.receiptProofs raw hraw
    exact hitems ▸ .ok items
  have hdecimal (key : Text) (standard : Option Int) (hkey : key ∈ (["blockHeight",
      "burnedBitcoin", "gasUsed", "priorityFee", "specialGasUsed"] : List Text)) :
      Fails Failure.IsFormat ((Json.object members).numberOf key "$numberDecimal" standard) :=
    fails_numberOf (h.decimals key hkey)
  simp only [fieldsOf]
  refine .bind (hdecimal _ _ (by simp)) fun _ _ => .bind fails_binaryOf fun _ _ => ?_
  refine .bind fails_binaryOf fun _ _ => .bind fails_optionalBinaryOf fun _ _ => ?_
  refine .bind (hdecimal _ _ (by simp)) fun _ _ => .bind fails_optionalBinaryOf fun _ _ => ?_
  refine .bind (hdecimal _ _ (by simp)) fun _ _ => .bind fails_optionalBinaryOf fun _ _ => ?_
  refine .bind fails_optionalBinaryOf fun _ _ => .bind (hdecimal _ _ (by simp)) fun _ _ => ?_
  refine .bind fails_optionalBinaryOf fun _ _ => .bind fails_optionalBinaryOf fun _ _ => ?_
  refine .bind hproofs fun _ _ => .bind fails_optionalBinaryOf fun _ _ => ?_
  refine .bind (fails_numberOf h.reward) fun _ _ => .bind fails_optionalBinaryOf fun _ _ => ?_
  exact .bind (hdecimal _ _ (by simp)) fun _ _ => .ok _

/-- An orderly record is read or refused with a description. -/
theorem fails_ofJson (h : Orderly record) : Fails Failure.IsFormat (ofJson record) := by
  cases record with
  | object members =>
    rw [ofJson.eq_def]
    refine .bind (fails_identityOf h.index) fun ⟨id, index⟩ _ => ?_
    refine .bind ((fails_partiesOf h).mapError ?_) fun parties _ => ?_
    · rintro f (hf | ⟨error, rfl⟩)
      · cases f <;> trivial
      · trivial
    refine .bind ((fails_partsOf h).mapError ?_) fun parts _ => fails_fieldsOf h id index parties parts
    rintro f (hf | rfl | rfl)
    · cases f <;> trivial
    · trivial
    · trivial
  | _ => exact .error trivial

lemma bounded_of_integer {j : Json} {n : Int} (h : j.integer = .ok n) : j.Bounded := by
  rw [Bounded, h]
  exact nofun

lemma isObject_of_memberOrNull {j v : Json} {key : Text} (h : j.memberOrNull key = .ok v) :
    j.IsObject := by
  cases j with
  | object members => exact ⟨members, rfl⟩
  | _ => cases h

lemma isObject_of_binaryOf {j : Json} {key : Text} {bs : Bytes} (h : j.binaryOf key = .ok bs) :
    j.IsObject := by
  obtain ⟨raw, hraw, -⟩ := bind_eq_ok_iff.mp h
  exact isObject_of_memberOrNull hraw

lemma boundedAt_of_integerAt {j : Json} {key : Text} {n : Int} (h : j.integerAt key = .ok n) :
    j.BoundedAt key := by
  intro v hv
  rw [integerAt, hv] at h
  exact bounded_of_integer h

lemma taggedAt_of_numberOf {j : Json} {key tag : Text} {standard : Option Int} {n : Int}
    (h : j.numberOf key tag standard = .ok n) : j.TaggedAt key tag := by
  intro raw hraw value hvalue
  obtain ⟨given, hgiven, h⟩ := bind_eq_ok_iff.mp h
  obtain ⟨members, rfl⟩ := isObject_of_memberOrNull hgiven
  obtain rfl : raw = given := by
    rw [memberOrNull_object, hraw] at hgiven
    exact Except.ok.inj hgiven
  split at h
  case h_1 =>
    have hnone : Json.null.member? tag = none := rfl
    cases hnone.symm.trans hvalue
  case h_2 =>
    rw [hvalue] at h
    dsimp only at h
    split at h
    case h_1 n hn => exact bounded_of_integer hn
    case h_2 => cases h
    case h_3 => cases h

lemma all_of_listOf {α : Type} {key : Text} {read : Json → Except Failure α} {as : List α}
    (h : listOf record key read = .ok as) {raw : Json} (hraw : record.member? key = some raw) :
    ∃ items, raw.elements = .ok items ∧ ∀ item ∈ items, ∃ a, read item = .ok a := by
  rw [listOf, hraw] at h
  obtain ⟨items, hitems, h⟩ := bind_eq_ok_iff.mp h
  exact ⟨items, hitems, ok_of_mapM h⟩

lemma orderly_of_input {item : Json} {i : TransactionInput}
    (h : TransactionInput.ofJson item = .ok i) : TransactionInput.Orderly item := by
  simp only [TransactionInput.ofJson, bind_eq_ok_iff] at h
  obtain ⟨_, hid, _, houtput, _, -, _, hsequence, -⟩ := h
  exact ⟨isObject_of_binaryOf hid, boundedAt_of_integerAt houtput, boundedAt_of_integerAt hsequence⟩

lemma orderly_of_output {item : Json} {o : TransactionOutput}
    (h : TransactionOutput.ofJson item = .ok o) : TransactionOutput.Orderly item := by
  simp only [TransactionOutput.ofJson, bind_eq_ok_iff] at h
  obtain ⟨given, hgiven, _, haddresses, _, hvalue, _, hindex, -⟩ := h
  refine ⟨isObject_of_memberOrNull hgiven, taggedAt_of_numberOf hvalue,
    boundedAt_of_integerAt hindex, fun raw hraw hisGiven => ?_⟩
  obtain ⟨members, rfl⟩ := isObject_of_memberOrNull hgiven
  rw [memberOrNull_object, hraw] at hgiven
  cases hgiven
  rw [Option.getD_some, if_pos hisGiven] at haddresses
  exact isObject_of_memberOrNull haddresses

lemma orderly_of_event {item : Json} {e : RecordedEvent} (h : RecordedEvent.ofJson item = .ok e) :
    item.IsObject := by
  obtain ⟨_, haddress, -⟩ := bind_eq_ok_iff.mp h
  exact isObject_of_binaryOf haddress

/-- A record that is read is orderly. -/
theorem orderly_of_ofJson {tx : Transaction} (h : ofJson record = .ok tx) : Orderly record := by
  cases record with
  | object members =>
    rw [ofJson.eq_def] at h
    simp only [bind_eq_ok_iff, mapError_eq_ok_iff] at h
    obtain ⟨⟨id, index⟩, hidentity, parties, hparties, parts, hparts, h⟩ := h
    simp only [partiesOf, bind_eq_ok_iff] at hparties
    obtain ⟨_, -, _, -, _, -, _, -, _, hevents, -⟩ := hparties
    simp only [partsOf, bind_eq_ok_iff] at hparts
    obtain ⟨inputs, hinputs, outputs, houtputs, -⟩ := hparts
    simp only [fieldsOf, bind_eq_ok_iff] at h
    obtain ⟨_, hheight, _, -, _, -, _, -, _, hburned, _, -, _, hgas, _, -, _, -, _, hpriority, _, -,
      _, -, _, hproofs, _, -, _, hreward, _, -, _, hspecial, -⟩ := h
    refine ⟨fun v hv => ?_, ?_, taggedAt_of_numberOf hreward, fun raw hraw => ?_,
      fun raw items hraw hitems item hitem => ?_, fun raw items hraw hitems item hitem => ?_,
      fun raw hraw => ?_⟩
    · simp only [identityOf, hv] at hidentity
      split at hidentity
      case h_1 raw _ hraw =>
        cases hraw
        split at hidentity
        case h_1 n hn => exact bounded_of_integer hn
        case h_2 => cases hidentity
        case h_3 => cases hidentity
      case h_2 => cases hidentity
    · simp only [List.forall_mem_cons]
      exact ⟨taggedAt_of_numberOf hheight, taggedAt_of_numberOf hburned, taggedAt_of_numberOf hgas,
        taggedAt_of_numberOf hpriority, taggedAt_of_numberOf hspecial, nofun⟩
    · obtain ⟨items, hitems, hall⟩ := all_of_listOf hevents hraw
      exact ⟨items, hitems, fun item hitem => (hall item hitem).elim fun _ => orderly_of_event⟩
    · obtain ⟨items', hitems', hall⟩ := all_of_listOf hinputs hraw
      cases hitems.symm.trans hitems'
      exact (hall item hitem).elim fun _ => orderly_of_input
    · obtain ⟨items', hitems', hall⟩ := all_of_listOf houtputs hraw
      cases hitems.symm.trans hitems'
      exact (hall item hitem).elim fun _ => orderly_of_output
    · obtain ⟨items, hitems, -⟩ := all_of_listOf hproofs hraw
      exact ⟨items, hitems⟩
  | _ => cases h

end Transaction

end ChainReplay
