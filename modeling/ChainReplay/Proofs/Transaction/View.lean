import ChainReplay.Proofs.Wire.Writable
import ChainReplay.Transaction.Wire

/-! Which inputs and outputs of a transaction have a form that contracts can see. -/

namespace ChainReplay

structure TransactionInput.Viewable (i : TransactionInput) : Prop where
  spentTransaction : i.spentTransaction.length < 2 ^ 32
  outputIndex : 0 ≤ i.outputIndex ∧ i.outputIndex < 2 ^ 32
  script : (i.script.getD []).length < 2 ^ 32

/-- The address as contracts see it; one that is not given is empty. -/
def OutputScript.shownAddress (s : OutputScript) : Json :=
  if (s.address.getD .null).isGiven then s.address.getD .null else .text []

structure TransactionOutput.Viewable (o : TransactionOutput) : Prop where
  index : 0 ≤ o.index ∧ o.index < 2 ^ 16
  value : 0 ≤ o.value ∧ o.value < 2 ^ 64
  address : ∃ t bs, o.script.shownAddress = .text t ∧ Utf8.encode t = .ok bs ∧ bs.length < 2 ^ 32
  script : ∃ bs, Transaction.scriptBytes o.script.hex = .ok bs ∧ bs.length < 2 ^ 32

namespace Transaction

structure Viewable (tx : Transaction) : Prop where
  inputCount : tx.inputs.length < 2 ^ 16
  inputs : ∀ i ∈ tx.inputs, i.Viewable
  outputCount : tx.outputs.length < 2 ^ 16
  outputs : ∀ o ∈ tx.outputs, o.Viewable

def inputView (i : TransactionInput) : Emission :=
  (Emission.blob i.spentTransaction).andThen
    ((Emission.unsigned 4 i.outputIndex).andThen (Emission.blob (i.script.getD [])))

lemma inputsView_eq (inputs : List TransactionInput) :
    inputsView inputs =
      ((Emission.unsigned 2 inputs.length).andThen (Emission.all inputView inputs)).result := by
  have hall : Emission.all (Format.pair .blob (.pair .u32 .blob)).emit
      (inputs.map fun i => (i.spentTransaction, i.outputIndex, i.script.getD [])) =
        Emission.all inputView inputs := by
    induction inputs with
    | nil => rfl
    | cons i inputs ih => exact congrArg (inputView i).andThen ih
  have hlength : (inputs.map fun i =>
      (i.spentTransaction, i.outputIndex, i.script.getD [])).length = inputs.length :=
    List.length_map _
  rw [← hall, ← hlength]
  rfl

lemma inputView_failure_eq_none (i : TransactionInput) :
    (inputView i).failure = none ↔ i.Viewable := by
  simp only [inputView, Emission.andThen_failure_eq_none, Emission.blob_failure_eq_none,
    Emission.unsigned_failure_eq_none]
  constructor
  · rintro ⟨hspent, hindex, hscript⟩
    exact ⟨hspent, by omega, hscript⟩
  · rintro ⟨hspent, hindex, hscript⟩
    exact ⟨hspent, by omega, hscript⟩

def addressView : Json → Emission
  | .text t => Emission.text t
  | _ => Emission.failed .wrongMember

def scriptView (hex : Json) : Emission :=
  match scriptBytes hex with
  | .ok bs => Emission.blob bs
  | .error f => Emission.failed f

lemma outputView_eq (o : TransactionOutput) :
    outputView o = (Emission.unsigned 2 o.index).andThen ((Emission.unsigned 8 o.value).andThen
      ((addressView o.script.shownAddress).andThen (scriptView o.script.hex))) := rfl

lemma addressView_failure_eq_none (address : Json) :
    (addressView address).failure = none ↔
      ∃ t bs, address = .text t ∧ Utf8.encode t = .ok bs ∧ bs.length < 2 ^ 32 := by
  cases address with
  | text t =>
    rw [addressView, Emission.text_failure_eq_none]
    simp
  | _ => simp [addressView, Emission.failed]

lemma scriptView_failure_eq_none (hex : Json) :
    (scriptView hex).failure = none ↔ ∃ bs, scriptBytes hex = .ok bs ∧ bs.length < 2 ^ 32 := by
  rw [scriptView]
  cases scriptBytes hex with
  | ok bs => simp [Emission.blob_failure_eq_none]
  | error f => simp [Emission.failed]

lemma outputView_failure_eq_none (o : TransactionOutput) :
    (outputView o).failure = none ↔ o.Viewable := by
  simp only [outputView_eq, Emission.andThen_failure_eq_none, Emission.unsigned_failure_eq_none,
    addressView_failure_eq_none, scriptView_failure_eq_none]
  constructor
  · rintro ⟨hindex, hvalue, haddress, hscript⟩
    exact ⟨by omega, by omega, haddress, hscript⟩
  · rintro ⟨hindex, hvalue, haddress, hscript⟩
    exact ⟨by omega, by omega, haddress, hscript⟩

/-- Inputs and outputs have a form for contracts exactly if all numbers fit their widths, all
scripts are hexadecimal, and all addresses are texts that can be encoded. -/
theorem viewable_iff (tx : Transaction) :
    (∃ bs, inputsView tx.inputs = .ok bs) ∧ (∃ bs, outputsView tx.outputs = .ok bs) ↔
      tx.Viewable := by
  rw [inputsView_eq, outputsView]
  simp only [Emission.result_eq_ok_iff, Emission.andThen_failure_eq_none,
    Emission.all_failure_eq_none, Emission.unsigned_failure_eq_none, inputView_failure_eq_none,
    outputView_failure_eq_none]
  constructor
  · rintro ⟨⟨hcount, hinputs⟩, hcount', houtputs⟩
    exact ⟨by omega, hinputs, by omega, houtputs⟩
  · rintro ⟨hcount, hinputs, hcount', houtputs⟩
    exact ⟨⟨by omega, hinputs⟩, by omega, houtputs⟩

end Transaction

end ChainReplay
