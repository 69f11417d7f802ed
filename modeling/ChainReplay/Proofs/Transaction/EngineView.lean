import ChainReplay.Proofs.Bytes.Hexadecimal
import ChainReplay.Proofs.Transaction.View
import ChainReplay.Proofs.Wire.Canonical

/-! What contracts read from the forms in which they see the inputs and outputs of a transaction. -/

namespace ChainReplay

/-- What contracts see of an input: the transaction it spends, the output's index, the script. -/
def TransactionInput.shown (i : TransactionInput) : Bytes × Int × Bytes :=
  (i.spentTransaction, i.outputIndex, i.script.getD [])

inductive OutputScript.AddressShown : Option Json → Text → Prop
  | absent : AddressShown none []
  | empty {j : Json} : j.isGiven = false → AddressShown (some j) []
  | text (t : Text) : AddressShown (some (.text t)) t

inductive OutputScript.BytesShown : Json → Bytes → Prop
  | empty {j : Json} : j.isGiven = false → BytesShown j []
  | text {t : Text} {cs : List Char} {bs : Bytes} :
      t.chars? = some cs → Bytes.HexForm cs bs → BytesShown (.text t) bs

/-- What contracts see of an output: its index, its value, the address, the bytes of the script. -/
structure TransactionOutput.Shows (o : TransactionOutput) (shown : Int × Int × Text × Bytes) :
    Prop where
  index : shown.1 = o.index
  value : shown.2.1 = o.value
  address : OutputScript.AddressShown o.script.address shown.2.2.1
  script : OutputScript.BytesShown o.script.hex shown.2.2.2

namespace OutputScript

lemma shownAddress_eq_text_iff (s : OutputScript) (t : Text) :
    s.shownAddress = .text t ↔ AddressShown s.address t := by
  obtain ⟨hex, addresses, address⟩ := s
  constructor
  · intro h
    rw [shownAddress] at h
    cases address with
    | none =>
      cases h
      exact .absent
    | some j =>
      simp only [Option.getD_some] at h
      split at h
      case isTrue =>
        subst h
        exact .text t
      case isFalse hgiven =>
        cases h
        exact .empty (Bool.eq_false_iff.mpr hgiven)
  · intro h
    rw [shownAddress]
    cases h with
    | absent => rfl
    | empty hgiven => simp [hgiven]
    | text =>
      -- The empty text is not given, but it is what then is shown.
      cases t with
      | nil => rfl
      | cons c t => rfl

lemma scriptBytes_text (t : Text) :
    Transaction.scriptBytes (.text t) =
      match t.chars?.bind Bytes.ofHex? with
      | some bs => .ok bs
      | none => .error .wrongValue := by
  cases t <;> rfl

lemma scriptBytes_of_not_given {hex : Json} (h : hex.isGiven = false) :
    Transaction.scriptBytes hex = .ok [] := by
  unfold Transaction.scriptBytes
  simp [h]

lemma scriptBytes_eq_ok_iff (hex : Json) (bs : Bytes) :
    Transaction.scriptBytes hex = .ok bs ↔ BytesShown hex bs := by
  constructor
  · intro h
    cases hgiven : hex.isGiven with
    | false =>
      rw [scriptBytes_of_not_given hgiven] at h
      cases h
      exact .empty hgiven
    | true =>
      cases hex with
      | text t =>
        rw [scriptBytes_text] at h
        cases hdata : t.chars?.bind Bytes.ofHex? with
        | none => simp [hdata] at h
        | some data =>
          simp only [hdata, Except.ok.injEq] at h
          obtain ⟨cs, hcs, hform⟩ := Option.bind_eq_some_iff.mp hdata
          exact .text hcs ((Bytes.ofHex?_eq_some_iff cs bs).mp (h ▸ hform))
      | _ => simp [Transaction.scriptBytes, hgiven] at h
  · intro h
    cases h with
    | empty hgiven => exact scriptBytes_of_not_given hgiven
    | text hcs hform =>
      rw [scriptBytes_text, hcs, Option.bind_some, (Bytes.ofHex?_eq_some_iff _ _).mpr hform]

lemma AddressShown.unique {address : Option Json} {t t' : Text} (h : AddressShown address t)
    (h' : AddressShown address t') : t = t' := by
  have heq := (shownAddress_eq_text_iff ⟨.null, none, address⟩ t).mpr h
  have heq' := (shownAddress_eq_text_iff ⟨.null, none, address⟩ t').mpr h'
  exact Json.text.inj (heq.symm.trans heq')

lemma BytesShown.unique {hex : Json} {bs bs' : Bytes} (h : BytesShown hex bs)
    (h' : BytesShown hex bs') : bs = bs' := by
  have heq := (scriptBytes_eq_ok_iff hex bs).mpr h
  exact Except.ok.inj (heq.symm.trans ((scriptBytes_eq_ok_iff hex bs').mpr h'))

end OutputScript

namespace Transaction

open Format

/-- Count, then per output its index, its value, the address, and the bytes of the script. -/
def outputFormat : Format := pair u16 (pair u64 (pair text blob))

def outputsFormat : Format := counted 2 outputFormat

lemma addressView_eq_written_iff (address : Json) (bs : Bytes) :
    addressView address = .written bs ↔ ∃ t, address = .text t ∧ Emission.text t = .written bs := by
  cases address with
  | text t => simp [addressView]
  | _ => simp [addressView, Emission.failed_ne_written]

lemma scriptView_eq_written_iff (hex : Json) (bs : Bytes) :
    scriptView hex = .written bs ↔
      ∃ data, scriptBytes hex = .ok data ∧ Emission.blob data = .written bs := by
  rw [scriptView]
  cases scriptBytes hex with
  | ok data => simp
  | error f => simp [Emission.failed_ne_written]

lemma outputView_eq_written_iff (o : TransactionOutput) (bs : Bytes) :
    outputView o = .written bs ↔
      ∃ shown : Int × Int × Text × Bytes, o.Shows shown ∧ outputFormat.emit shown = .written bs := by
  have hemit (shown : Int × Int × Text × Bytes) : outputFormat.emit shown =
      (Emission.unsigned 2 shown.1).andThen ((Emission.unsigned 8 shown.2.1).andThen
        ((Emission.text shown.2.2.1).andThen (Emission.blob shown.2.2.2))) := rfl
  simp only [outputView_eq, hemit, Emission.andThen_eq_written_iff, addressView_eq_written_iff,
    scriptView_eq_written_iff, OutputScript.shownAddress_eq_text_iff,
    OutputScript.scriptBytes_eq_ok_iff]
  constructor
  · rintro ⟨ws, _, rfl, hindex, xs, _, rfl, hvalue, ys, zs, rfl, ⟨t, haddress, hys⟩, data, hscript,
      hzs⟩
    exact ⟨(o.index, o.value, t, data), ⟨rfl, rfl, haddress, hscript⟩, ws, _, rfl, hindex, xs, _,
      rfl, hvalue, ys, zs, rfl, hys, hzs⟩
  · rintro ⟨⟨index, value, t, data⟩, ⟨rfl, rfl, haddress, hscript⟩, ws, _, rfl, hindex, xs, _, rfl,
      hvalue, ys, zs, rfl, hys, hzs⟩
    exact ⟨ws, _, rfl, hindex, xs, _, rfl, hvalue, ys, zs, rfl, ⟨t, haddress, hys⟩, data, hscript,
      hzs⟩

end Transaction

lemma Emission.all_eq_written_iff {α β : Type} {emit : α → Emission} {emit' : β → Emission}
    {R : α → β → Prop}
    (h : ∀ a bs, emit a = .written bs ↔ ∃ b, R a b ∧ emit' b = .written bs) (as : List α)
    (bs : Bytes) :
    all emit as = .written bs ↔ ∃ shown, List.Forall₂ R as shown ∧ all emit' shown = .written bs := by
  induction as generalizing bs with
  | nil =>
    simp only [all, List.forall₂_nil_left_iff]
    constructor
    · exact fun hbs => ⟨[], rfl, hbs⟩
    · rintro ⟨_, rfl, hbs⟩
      exact hbs
  | cons a as ih =>
    simp only [all, andThen_eq_written_iff, h, ih]
    constructor
    · rintro ⟨xs, ys, rfl, ⟨b, hb, hxs⟩, shown, hshown, hys⟩
      exact ⟨b :: shown, .cons hb hshown,
        (andThen_eq_written_iff _ _ _).mpr ⟨xs, ys, rfl, hxs, hys⟩⟩
    · rintro ⟨_, hshown, hall⟩
      cases hshown with
      | @cons _ b _ shown hb hshown =>
        obtain ⟨xs, ys, rfl, hxs, hys⟩ := (andThen_eq_written_iff _ _ _).mp hall
        exact ⟨xs, ys, rfl, ⟨b, hb, hxs⟩, shown, hshown, hys⟩

lemma TransactionOutput.Shows.unique {o : TransactionOutput} {s s' : Int × Int × Text × Bytes}
    (h : o.Shows s) (h' : o.Shows s') : s = s' := by
  have hindex := h.index.trans h'.index.symm
  have hvalue := h.value.trans h'.value.symm
  have haddress := h.address.unique h'.address
  exact Prod.ext hindex (Prod.ext hvalue (Prod.ext haddress (h.script.unique h'.script)))

lemma TransactionOutput.forall₂_alike {os os' : List TransactionOutput}
    {shown : List (Int × Int × Text × Bytes)} (h : List.Forall₂ Shows os shown)
    (h' : List.Forall₂ Shows os' shown) :
    List.Forall₂ (fun o o' => ∀ s, Shows o s ↔ Shows o' s) os os' := by
  induction h generalizing os' with
  | nil =>
    cases h'
    exact .nil
  | cons ho _ ih =>
    cases h' with
    | cons ho' hos' =>
      refine .cons (fun s => ⟨fun hs => ?_, fun hs => ?_⟩) (ih hos')
      · rwa [hs.unique ho]
      · rwa [hs.unique ho']

namespace Transaction

lemma outputsView_eq_ok_iff (outputs : List TransactionOutput) (bs : Bytes) :
    outputsView outputs = .ok bs ↔
      ∃ shown : List (Int × Int × Text × Bytes), List.Forall₂ TransactionOutput.Shows outputs shown ∧
        outputsFormat.encode shown = .ok bs := by
  have hencode (shown : List (Int × Int × Text × Bytes)) : outputsFormat.encode shown = .ok bs ↔
      (Emission.unsigned 2 shown.length).andThen (Emission.all outputFormat.emit shown) =
        .written bs := Emission.result_eq_ok_iff_written _ bs
  rw [outputsView, Emission.result_eq_ok_iff_written, Emission.andThen_eq_written_iff]
  simp only [Emission.all_eq_written_iff outputView_eq_written_iff]
  constructor
  · rintro ⟨xs, ys, rfl, hxs, shown, hshown, hys⟩
    refine ⟨shown, hshown, (hencode shown).mpr ?_⟩
    rw [Emission.andThen_eq_written_iff, ← hshown.length_eq]
    exact ⟨xs, ys, rfl, hxs, hys⟩
  · rintro ⟨shown, hshown, hbs⟩
    have hemit := (hencode shown).mp hbs
    rw [Emission.andThen_eq_written_iff, ← hshown.length_eq] at hemit
    obtain ⟨xs, ys, rfl, hxs, hys⟩ := hemit
    exact ⟨xs, ys, rfl, hxs, shown, hshown, hys⟩

lemma regular_inputsFormat : inputsFormat.Regular := ⟨trivial, trivial, trivial⟩

lemma regular_outputsFormat : outputsFormat.Regular := ⟨trivial, trivial, trivial, trivial⟩

/-- Contracts read every input and every output in order, and nothing is left over. Transactions
that look the same to a contract have the same inputs and outputs item by item, as far as contracts
can see them. -/
theorem contract_reads_inputs_and_outputs (tx : Transaction) {ins outs : Bytes}
    (hins : inputsView tx.inputs = .ok ins) (houts : outputsView tx.outputs = .ok outs) :
    Reader.runRest inputsFormat.read ins = .ok (tx.inputs.map TransactionInput.shown, []) ∧
      ∃ shown : List (Int × Int × Text × Bytes),
        Reader.runRest outputsFormat.read outs = .ok (shown, []) ∧
        List.Forall₂ TransactionOutput.Shows tx.outputs shown ∧
        ∀ tx' : Transaction, inputsView tx'.inputs = .ok ins → outputsView tx'.outputs = .ok outs →
          tx'.inputs.map TransactionInput.shown = tx.inputs.map TransactionInput.shown ∧
          List.Forall₂ (fun o o' => ∀ s, TransactionOutput.Shows o s ↔ TransactionOutput.Shows o' s)
            tx.outputs tx'.outputs := by
  have hread {f : Format} (hf : f.Regular) {v : f.Value} {bs : Bytes} (h : f.encode v = .ok bs) :
      Reader.runRest f.read bs = .ok (v, []) :=
    (Format.runRest_read_eq_ok_iff hf bs [] v).mpr ⟨bs, (List.append_nil bs).symm, h⟩
  have hinsRead (tx : Transaction) (h : inputsView tx.inputs = .ok ins) :
      Reader.runRest inputsFormat.read ins = .ok (tx.inputs.map TransactionInput.shown, []) :=
    hread regular_inputsFormat h
  obtain ⟨shown, hshown, hencode⟩ := (outputsView_eq_ok_iff tx.outputs outs).mp houts
  have houtsRead := hread regular_outputsFormat hencode
  refine ⟨hinsRead tx hins, shown, houtsRead, hshown, fun tx' hins' houts' => ⟨?_, ?_⟩⟩
  · have heq := (hinsRead tx' hins').symm.trans (hinsRead tx hins)
    exact congrArg Prod.fst (Except.ok.inj heq)
  · obtain ⟨shown', hshown', hencode'⟩ := (outputsView_eq_ok_iff tx'.outputs outs).mp houts'
    have heq := houtsRead.symm.trans (hread regular_outputsFormat hencode')
    obtain rfl : shown = shown' := congrArg Prod.fst (Except.ok.inj heq)
    exact TransactionOutput.forall₂_alike hshown hshown'

/-- An input without a script, and outputs without an address, without a script, and with blanks in
the script. -/
def sparseTransaction : Transaction :=
  { plain "x" 7 (Bytes.zeros 32) 0 Address.zero "höhe" Address.zero [] with
    inputs := [⟨Bytes.zeros 32, 2 ^ 32 - 1, none, 0⟩, ⟨[5], 1, some [6, 7], 9⟩]
    outputs := [⟨2 ^ 64 - 1, 65535, .text "51 20", none, some (.text "höhe")⟩,
      ⟨546, 0, .text [], some [], none⟩, ⟨0, 1, .null, none, some (.text [])⟩] }

theorem contract_reads_sparse_inputs_and_outputs :
    ∃ ins outs, inputsView sparseTransaction.inputs = .ok ins ∧
      outputsView sparseTransaction.outputs = .ok outs ∧
      Reader.runRest inputsFormat.read ins =
        .ok (sparseTransaction.inputs.map TransactionInput.shown, []) ∧
      ∃ shown, Reader.runRest outputsFormat.read outs = .ok (shown, []) ∧
        List.Forall₂ TransactionOutput.Shows sparseTransaction.outputs shown := by
  have hsome : (inputsView sparseTransaction.inputs).toOption.isSome ∧
      (outputsView sparseTransaction.outputs).toOption.isSome := by decide +kernel
  cases hins : inputsView sparseTransaction.inputs with
  | error f => simp [hins, Except.toOption] at hsome
  | ok ins =>
    cases houts : outputsView sparseTransaction.outputs with
    | error f => simp [houts, Except.toOption] at hsome
    | ok outs =>
      obtain ⟨hread, shown, hshown, hshows, -⟩ :=
        contract_reads_inputs_and_outputs sparseTransaction hins houts
      exact ⟨ins, outs, rfl, rfl, hread, shown, hshown, hshows⟩

end Transaction

end ChainReplay
