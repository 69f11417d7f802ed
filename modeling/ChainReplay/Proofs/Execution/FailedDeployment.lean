import ChainReplay.Proofs.Execution.Ageing
import ChainReplay.Proofs.Execution.ChronicleRecords

/-! What a failed deployment leaves behind. It empties the storage of the contract, and puts nothing
else back: what was recorded while the constructor ran stays on record, and a contract that was called
back in the meantime may stay deployed. -/

namespace ChainReplay.Run

lemma storage?_emptied {f g : Frame} {a : Address} (hseat : f.seat.address? = some a)
    (ha : f.ledger.hasContract a = true)
    (hx : dispose.outcome (f.modifyContract emptied) = some (.ok ⟨⟩, g)) :
    g.ledger.storage? a = some [] := by
  obtain ⟨l, seat, deployments⟩ := f
  cases seat with
  | apart c => cases hseat
  | registered b =>
    cases hseat
    cases hx
    obtain ⟨c, hc⟩ := Option.isSome_iff_exists.mp ha
    have hemptied : (l.modifyContract a emptied).storage? a = some [] := by
      rw [Ledger.storage?_modifyContract, if_pos rfl, hc]
      rfl
    exact (Frame.storage?_modifyContract _ Alike.tending_dispose.states a).trans hemptied

lemma storage?_of_failed_deploy {call : Address → Bytes → Run CallResponse}
    {nested : Address → Bytes → Frame → Chronicle} (hcall : Noted call nested) {f g : Frame}
    (hf : Fit f) {a : Address} (hseat : f.seat.address? = some a) {e : Failure}
    (hx : (deploy call).outcome f = some (.error e, g)) :
    f.contract.isNew = true ∧ g.ledger.storage? a = some [] := by
  rcases deploy_cases hx with ⟨-, hok, -⟩ | ⟨hnew, r, h, hconstruct, hsettle⟩
  · cases hok
  rcases settling_cases hsettle with ⟨_, -, hemptied⟩ | ⟨hok, -⟩
  · have habides := (construct_notes hcall hf hconstruct).toAbides
    have hthere := (hf.of_abides habides).seat a (habides.seat.trans hseat)
    exact ⟨hnew, storage?_emptied (habides.seat.trans hseat) hthere hemptied⟩
  · cases hok

section Deployment

variable {n : Nat} {l l' : Ledger} {a : Address} {seat : Seat}

lemma deploy_of_perform {r : Except Failure Unit}
    (hrun : l.perform (.registered a) (deploy (Run.call n)) = some (r, l', seat)) :
    ∃ g, g.ledger = l' ∧ (deploy (Run.call n)).outcome ⟨l, .registered a, []⟩ = some (r, g) := by
  rw [perform_eq, Option.map_eq_some_iff] at hrun
  obtain ⟨⟨q, g⟩, hdeploy, heq⟩ := hrun
  cases heq
  exact ⟨g, rfl, hdeploy⟩

/-- What a deployment leaves on record, and which contracts it leaves deployed, whether it succeeds or
fails. -/
theorem records_of_deploy {r : Except Failure Unit} (hfiled : l.Filed)
    (ha : l.hasContract a = true)
    (hrun : l.perform (.registered a) (deploy (Run.call n)) = some (r, l', seat)) :
    (∀ d, Table.Sown (l.records d) (l'.records d) fun child code =>
        (child, code) ∈ (l.construction n a).final d) ∧
      ∀ d, l'.aspect? Contract.deployed d =
        (l.aspect? Contract.deployed d).map (· || decide (d ∈ (l.construction n a).founded)) := by
  obtain ⟨g, rfl, hdeploy⟩ := deploy_of_perform hrun
  have hdeposits : Deposits (l.construction n a) ⟨l, .registered a, []⟩ g :=
    deploy_deposits (callChronicle_notes n) (.registered hfiled ha) rfl hdeploy
  obtain ⟨hown, hprovisional⟩ := deployChronicle_own
  exact ⟨fun d => (hdeposits.records d).congr fun _ _ =>
    Chronicle.adds_iff_final hown hprovisional, hdeposits.founds⟩

/-- After a failed deployment the contract has no storage, but it is not as it was. Every contract, this
one included, keeps on record what the constructor recorded and what the calls that it made recorded,
unless a method within those calls failed. And if the contract has come to be deployed meanwhile,
because it was called back when it had storage or had its constructor run to the end by a nested call,
it stays deployed; else its constructor will be run again. -/
theorem remains_of_failed_deploy {e : Failure} (hfiled : l.Filed) (ha : l.hasContract a = true)
    (hrun : l.perform (.registered a) (deploy (Run.call n)) = some (.error e, l', seat)) :
    (∃ c c', l.contracts.find? a = some c ∧ l'.contracts.find? a = some c' ∧
      c.isNew = true ∧ c'.essence = c.essence ∧ c'.states = [] ∧
      (c'.deployed = true ↔ a ∈ (l.construction n a).founded) ∧
      (c'.isNew = true ↔ a ∉ (l.construction n a).founded)) ∧
    ∀ d, Table.Sown (l.records d) (l'.records d)
        (fun child code => (child, code) ∈ (l.construction n a).final d) ∧
      ((∀ child, (l'.records d).find? child = (l.records d).find? child) ↔
        (l.construction n a).final d = []) := by
  have hages : l.Ages l' := .perform (.deploy n) hrun
  obtain ⟨hsown, hfounds⟩ := records_of_deploy hfiled ha hrun
  obtain ⟨g, rfl, hdeploy⟩ := deploy_of_perform hrun
  obtain ⟨hnew, hstorage⟩ := storage?_of_failed_deploy (callChronicle_notes n)
    (.registered hfiled ha) rfl hdeploy
  obtain ⟨c, hc⟩ := Option.isSome_iff_exists.mp ha
  obtain ⟨c', hc', haged⟩ := hages.found hc
  refine ⟨⟨c, c', hc, hc', ?_⟩, fun d => ⟨hsown d, ?_⟩⟩
  · rw [Frame.contract_of_find? (f := ⟨l, .registered a, []⟩) rfl hc] at hnew
    have hbefore : (c.deployed = false ∧ c.states.isEmpty) ∧ c.deploymentStates.isEmpty := by
      simpa only [Contract.isNew, Bool.and_eq_true, Bool.not_eq_true'] using hnew
    have hstates : c'.states = [] := by
      rw [Ledger.storage?, hc'] at hstorage
      exact Option.some.inj hstorage
    have hdeployed : c'.deployed = decide (a ∈ (l.construction n a).founded) := by
      have hafter := hfounds a
      rw [Ledger.aspect?, hc', Ledger.aspect?, hc] at hafter
      simpa [hbefore.1.1] using hafter
    refine ⟨hnew, haged.essence, hstates, by rw [hdeployed, decide_eq_true_iff], ?_⟩
    by_cases hfounded : a ∈ (l.construction n a).founded
    · simp [Contract.isNew, hdeployed, hfounded]
    · have hpending : c'.deploymentStates = c.deploymentStates :=
        haged.pending (by rw [hdeployed, decide_eq_false hfounded])
      simp [Contract.isNew, hdeployed, hfounded, hstates, hpending, hbefore.2]
  · rw [(hsown d).find?_eq_iff, List.eq_nil_iff_forall_not_mem]
    exact ⟨fun h entry => h entry.1 entry.2, fun h child code => h (child, code)⟩

end Deployment

section Foundering

/-- The constructor of the entrance deploys a copy of the vault, has the chamber deploy another, and
fails. -/
def foundering : Engine where
  instantiate _ := .ok
    { refusal := none
      construct := fun _ _ => deploying vault (calling chamber [] (.fail .wrongValue))
      execute := fun _ _ => deploying vault (.done []) }

/-- The chamber is deployed, and the constructor of the entrance is yet to be run. -/
def unfounded : Ledger :=
  { Ledger.standing foundering [chamber] with
    codes := [(vault, [])]
    contracts := (Ledger.standing foundering [chamber]).contracts ++
      [(entrance, { Contract.create entrance entrance (.amount 0) none [] with code := some [] })] }

def ledgerLeft : Option (Except Failure Unit × Ledger × Seat) → Option Ledger
  | some (.error _, l, _) => some l
  | _ => none

lemma exists_failed_deploy : ∃ e l' seat, unfounded.perform (.registered entrance)
    (deploy (Run.call 1)) = some (.error e, l', seat) := by
  have hleft : (ledgerLeft (unfounded.perform (.registered entrance)
      (deploy (Run.call 1)))).isSome = true := by decide +kernel
  revert hleft
  rcases unfounded.perform (.registered entrance) (deploy (Run.call 1)) with
    _ | ⟨e | done, l', seat⟩
  · intro h
    cases h
  · exact fun _ => ⟨e, l', seat, rfl⟩
  · intro h
    cases h

lemma filed_unfounded : unfounded.Filed := by
  refine Ledger.Keyed.filed fun entry hmem => ?_
  rcases List.mem_append.mp hmem with hmem | hmem
  · exact Ledger.keyed_standing foundering [chamber] entry hmem
  · rw [List.mem_singleton.mp hmem]
    rfl

/-- The constructor will be run again, but both contracts have a copy on record. -/
theorem remains_of_failed_deploy_foundering :
    ∃ e l' seat, unfounded.perform (.registered entrance) (deploy (Run.call 1)) =
        some (.error e, l', seat) ∧
      (∃ c', l'.contracts.find? entrance = some c' ∧ c'.isNew = true) ∧
      (∃ child, (l'.records entrance).contains child = true) ∧
      ∃ child, (l'.records chamber).contains child = true := by
  obtain ⟨hfounded, hentrance, hchamber⟩ :
      entrance ∉ (unfounded.construction 1 entrance).founded ∧
      (unfounded.construction 1 entrance).final entrance ≠ [] ∧
      (unfounded.construction 1 entrance).final chamber ≠ [] := by decide +kernel
  obtain ⟨e, l', seat, hrun⟩ := exists_failed_deploy
  obtain ⟨⟨c, c', -, hc', -, -, -, -, hnew⟩, hrecords⟩ :=
    remains_of_failed_deploy filed_unfounded (by decide +kernel) hrun
  have hadded (d : Address) (hd : (unfounded.construction 1 entrance).final d ≠ []) :
      ∃ child, (l'.records d).contains child = true := by
    obtain ⟨⟨child, code⟩, hmem⟩ := List.exists_mem_of_ne_nil _ hd
    exact ⟨child, (hrecords d).1.added child code hmem⟩
  exact ⟨e, l', seat, hrun, ⟨c', hc', hnew.mpr hfounded⟩, hadded entrance hentrance,
    hadded chamber hchamber⟩

/-- The copy that the constructor of the entrance has recorded stays on record. -/
theorem failed_deploy_keeps_records :
    ¬ ∀ (n : Nat) (l l' : Ledger) (a : Address) (e : Failure) (seat : Seat), l.Filed →
      l.hasContract a = true →
      l.perform (.registered a) (deploy (Run.call n)) = some (.error e, l', seat) →
      ∀ child, (l'.records a).find? child = (l.records a).find? child := by
  intro h
  obtain ⟨e, l', seat, hrun⟩ := exists_failed_deploy
  have hknown : unfounded.hasContract entrance = true := by decide +kernel
  have hsame := h 1 unfounded l' entrance e seat filed_unfounded hknown hrun
  have hnone := ((records_of_deploy filed_unfounded hknown hrun).1 entrance).find?_eq_iff.mp hsame
  have hfinal : (unfounded.construction 1 entrance).final entrance ≠ [] := by decide +kernel
  obtain ⟨⟨child, code⟩, hmem⟩ := List.exists_mem_of_ne_nil _ hfinal
  exact hnone child code hmem

end Foundering

end ChainReplay.Run
