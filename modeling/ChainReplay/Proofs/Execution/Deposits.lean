import ChainReplay.Proofs.Execution.Chronicle
import ChainReplay.Proofs.Execution.Retention

/-! What a part of a run leaves on record, constructors included. What a method records is taken back if
a method around it fails. What a constructor records, or has recorded by nested calls, is taken back by
nothing: neither the failure of the constructor nor that of a method around it reaches it. -/

namespace ChainReplay

namespace Chronicle

def own : Chronicle → List (Address × Bytes)
  | quiet => []
  | emitted _ => []
  | recorded child code => [(child, code)]
  | awakened _ => []
  | activation _ _ _ _ => []
  | andThen t u => t.own ++ u.own

/-- The copies that methods of the owner recorded, and that are on record until a method around them
fails. -/
def provisional (owner : Address) : Chronicle → List (Address × Bytes)
  | quiet => []
  | emitted _ => []
  | recorded _ _ => []
  | awakened _ => []
  | activation _ .construction _ _ => []
  | activation a .execution failed inner =>
    if failed then [] else (if a = owner then inner.own else []) ++ inner.provisional owner
  | andThen t u => t.provisional owner ++ u.provisional owner

/-- The copies that a constructor of the owner recorded, or methods of the owner within a constructor. -/
def final (owner : Address) : Chronicle → List (Address × Bytes)
  | quiet => []
  | emitted _ => []
  | recorded _ _ => []
  | awakened _ => []
  | activation a .construction _ inner =>
    (if a = owner then inner.own else []) ++ inner.provisional owner ++ inner.final owner
  | activation _ .execution _ inner => inner.final owner
  | andThen t u => t.final owner ++ u.final owner

/-- The contracts that count as deployed from then on: their constructor has succeeded, or they were
found with storage. -/
def founded : Chronicle → List Address
  | quiet => []
  | emitted _ => []
  | recorded _ _ => []
  | awakened a => [a]
  | activation a .construction failed inner => inner.founded ++ if failed then [] else [a]
  | activation _ .execution _ inner => inner.founded
  | andThen t u => t.founded ++ u.founded

/-- The two leave the same records and deployments behind. -/
structure Matches (t u : Chronicle) : Prop where
  own : t.own = u.own
  provisional : ∀ d, t.provisional d = u.provisional d
  final : ∀ d, t.final d = u.final d
  founded : t.founded = u.founded

/-- What is new on the record of the contract, if the one in this place runs. -/
def Adds (t : Chronicle) (seat : Option Address) (d child : Address) (code : Bytes) : Prop :=
  (child, code) ∈ t.provisional d ∨ (child, code) ∈ t.final d ∨ seat = some d ∧ (child, code) ∈ t.own

section Adds

variable {t u : Chronicle} {a d child : Address} {code : Bytes} {seat : Option Address}

lemma Matches.adds (h : t.Matches u) : t.Adds seat d child code ↔ u.Adds seat d child code := by
  rw [Adds, Adds, h.own, h.provisional, h.final]

lemma not_adds_quiet : ¬quiet.Adds seat d child code := by
  simp [Adds, own, provisional, final]

lemma not_adds_awakened : ¬(awakened a).Adds seat d child code := by
  simp [Adds, own, provisional, final]

lemma adds_recorded {x : Address} {bs : Bytes} :
    (recorded x bs).Adds seat d child code ↔ seat = some d ∧ child = x ∧ code = bs := by
  simp [Adds, own, provisional, final]

lemma adds_andThen : (andThen t u).Adds seat d child code ↔
    t.Adds seat d child code ∨ u.Adds seat d child code := by
  simp only [Adds, own, provisional, final, List.mem_append]
  tauto

lemma adds_construction {failed : Bool} :
    (activation a .construction failed t).Adds seat d child code ↔
      t.Adds (some a) d child code := by
  by_cases ha : a = d
  · simp [Adds, own, provisional, final, ha]
    tauto
  · simp [Adds, own, provisional, final, ha]

lemma adds_execution : (activation a .execution false t).Adds seat d child code ↔
    t.Adds (some a) d child code := by
  by_cases ha : a = d
  · simp [Adds, own, provisional, final, ha]
    tauto
  · simp [Adds, own, provisional, final, ha]

lemma adds_failed : (activation a .execution true t).Adds seat d child code ↔
    (child, code) ∈ t.final d := by
  simp [Adds, own, provisional, final]

lemma adds_some : t.Adds (some a) d child code ↔
    t.Adds none d child code ∨ a = d ∧ (child, code) ∈ t.own := by
  simp [Adds, or_assoc]

lemma adds_iff_final (hown : t.own = []) (hprovisional : ∀ d, t.provisional d = []) :
    t.Adds seat d child code ↔ (child, code) ∈ t.final d := by
  simp [Adds, hown, hprovisional]

end Adds

end Chronicle

namespace Table

variable {κ α : Type} [DecidableEq κ]

/-- Nothing is lost, and what is new is as given and was not there. -/
structure Sown (before after : Table κ α) (new : κ → α → Prop) : Prop extends
    Grown before after new where
  fresh : ∀ k a, new k a → before.contains k = false

namespace Sown

variable {t u v : Table κ α} {new new' : κ → α → Prop}

lemma of_find? (h : ∀ k, u.find? k = t.find? k) (hnew : ∀ k a, ¬new k a) : Sown t u new where
  toGrown := .of_find? h hnew
  fresh := fun k a ha => absurd ha (hnew k a)

lemma absent (h : Grown t u new) {k : κ} (hk : u.contains k = false) : t.contains k = false := by
  rw [Bool.eq_false_iff] at hk ⊢
  exact fun hin => hk (h.contains hin)

lemma trans (h : Sown t u new) (h' : Sown u v new') :
    Sown t v fun k a => new k a ∨ new' k a where
  toGrown := h.toGrown.trans h'.toGrown
  fresh := fun k a ha => ha.elim (h.fresh k a) fun ha => absent h.toGrown (h'.fresh k a ha)

lemma congr (h : Sown t u new) (hnew : ∀ k a, new k a ↔ new' k a) : Sown t u new' where
  toGrown := h.toGrown.congr hnew
  fresh := fun k a ha => h.fresh k a ((hnew k a).mpr ha)

lemma insert (t : Table κ α) {k : κ} (hk : t.contains k = false) (a : α) :
    Sown t (t.insert k a) fun k' a' => k' = k ∧ a' = a where
  toGrown := .insert t hk a
  fresh := by
    rintro _ _ ⟨rfl, -⟩
    exact hk

lemma join (hu : Sown t u new) (hv : Sown t v new') :
    Sown t (v ++ u.filter fun (k, _) => !v.contains k) fun k a => new k a ∨ new' k a where
  toGrown := hu.toGrown.join hv.toGrown
  fresh := fun k a ha => ha.elim (hu.fresh k a) (hv.fresh k a)

lemma find?_eq_iff (h : Sown t u new) : (∀ k, u.find? k = t.find? k) ↔ ∀ k a, ¬new k a := by
  refine ⟨fun hsame k a ha => ?_, fun hnone k => ?_⟩
  · have hthere := h.added k a ha
    rw [contains, hsame k, ← contains, h.fresh k a ha] at hthere
    cases hthere
  · cases hu : u.find? k with
    | some a => exact ((h.origin k a hu).resolve_right (hnone k a)).symm
    | none =>
      cases ht : t.find? k with
      | none => rfl
      | some a =>
        rw [h.kept k a ht] at hu
        cases hu

end Sown

end Table

lemma inert_deployed : Inert Contract.deployed where
  handle := fun _ _ _ => rfl
  states := fun _ _ => rfl
  children := fun _ _ => rfl

lemma Frame.contract_of_apart {f : Frame} (h : f.seat.address? = none) {l : Ledger}
    {deployments : List Deployment} : (Frame.mk l f.seat deployments).contract = f.contract := by
  obtain ⟨m, seat, _⟩ := f
  cases seat with
  | registered a => cases h
  | apart c => rfl

namespace Run

/-- The contract that runs has its place, if it runs in the registry. -/
structure Fit (f : Frame) : Prop where
  filed : f.ledger.Filed
  seat : ∀ a, f.seat.address? = some a → f.ledger.hasContract a = true

lemma Fit.of_abides {f g : Frame} (hf : Fit f) (h : f.Abides g) : Fit g where
  filed := h.ledger.filed hf.filed
  seat := fun a ha => (h.ledger.hasContract a).trans (hf.seat a (h.seat.symm.trans ha))

lemma Fit.registered {l : Ledger} {a : Address} (hfiled : l.Filed) (ha : l.hasContract a = true) :
    Fit ⟨l, .registered a, []⟩ := by
  refine ⟨hfiled, ?_⟩
  rintro _ ⟨⟩
  exact ha

/-- Neither records nor deployments have changed. -/
structure Idles (f g : Frame) : Prop where
  abides : f.Abides g
  still : Still f g
  deployed : Retains Contract.deployed f g

lemma Idles.refl (f : Frame) : Idles f f :=
  ⟨(Minds.refl f).toAbides, .refl f, ⟨rfl, fun _ => rfl⟩⟩

/-- What a part of a run with this chronicle does to records, and which contracts it deploys. -/
structure Deposits (t : Chronicle) (f g : Frame) : Prop extends f.Abides g where
  founds : ∀ a, g.ledger.aspect? Contract.deployed a =
    (f.ledger.aspect? Contract.deployed a).map (· || decide (a ∈ t.founded))
  own : f.seat.address? = none → Table.Sown f.contract.children g.contract.children
    fun child code => (child, code) ∈ t.own
  records : ∀ d, Table.Sown (f.ledger.records d) (g.ledger.records d) (t.Adds f.seat.address? d)

/-- These of the new records on other contracts are to be taken back if a method around fails. -/
structure Pending (t : Chronicle) (f g : Frame) (new : List Deployment) : Prop where
  fresh : ∀ d child, (d, child) ∈ new → (f.ledger.records d).contains child = false
  recorded : ∀ d child, (d, child) ∈ new → (g.ledger.records d).contains child = true
  passing : ∀ d child code, (d, child) ∈ new → (child, code) ∉ t.final d
  all : ∀ d child code, f.seat.address? ≠ some d →
    (g.ledger.records d).find? child = some code →
    (f.ledger.records d).contains child = true ∨ (d, child) ∈ new ∨ (child, code) ∈ t.final d

/-- Such a part of a run notes what it records on other contracts, but for what is final. -/
structure Notes (t : Chronicle) (f g : Frame) : Prop extends Deposits t f g where
  noted : ∃ new, g.deployments = f.deployments ++ new ∧ Pending t f g new

lemma Retains.founds {f g : Frame} (h : Retains Contract.deployed f g) (a : Address) :
    g.ledger.aspect? Contract.deployed a =
      (f.ledger.aspect? Contract.deployed a).map (· || decide (a ∈ [])) := by
  rw [h.all]
  cases f.ledger.aspect? Contract.deployed a <;> simp

namespace Deposits

variable {t u : Chronicle} {f g h : Frame}

lemma congr (hfg : Deposits t f g) (htu : t.Matches u) : Deposits u f g where
  toAbides := hfg.toAbides
  founds := htu.founded ▸ hfg.founds
  own := fun hseat => htu.own ▸ hfg.own hseat
  records := fun d => (hfg.records d).congr fun _ _ => htu.adds

lemma of_idles (hfg : Idles f g) : Deposits .quiet f g where
  toAbides := hfg.abides
  founds := hfg.deployed.founds
  own := fun _ => .of_find? (fun _ => by rw [hfg.still.own]) fun _ _ => List.not_mem_nil
  records := fun d =>
    .of_find? (fun _ => by rw [hfg.still.records]) fun _ _ => Chronicle.not_adds_quiet

lemma andThen (hfg : Deposits t f g) (hgh : Deposits u g h) : Deposits (.andThen t u) f h where
  toAbides := hfg.toAbides.trans hgh.toAbides
  founds := by
    intro a
    rw [hgh.founds, hfg.founds]
    cases f.ledger.aspect? Contract.deployed a <;> simp [Chronicle.founded, Bool.or_assoc]
  own := fun hseat => ((hfg.own hseat).trans (hgh.own (hfg.seat.trans hseat))).congr
    fun _ _ => List.mem_append.symm
  records := by
    intro d
    refine ((hfg.records d).trans (hgh.records d)).congr fun child code => ?_
    rw [hfg.seat]
    exact Chronicle.adds_andThen.symm

end Deposits

namespace Pending

variable {t u : Chronicle} {f g h : Frame} {new new' : List Deployment}

lemma nil (hall : ∀ d child code, f.seat.address? ≠ some d →
    (g.ledger.records d).find? child = some code →
    (f.ledger.records d).contains child = true ∨ (child, code) ∈ t.final d) :
    Pending t f g [] where
  fresh := fun _ _ h => absurd h List.not_mem_nil
  recorded := fun _ _ h => absurd h List.not_mem_nil
  passing := fun _ _ _ h => absurd h List.not_mem_nil
  all := fun d child code hseat hin => (hall d child code hseat hin).imp_right .inr

lemma congr (hfg : Pending t f g new) (hfinal : ∀ d, t.final d = u.final d) :
    Pending u f g new where
  fresh := hfg.fresh
  recorded := hfg.recorded
  passing := fun d child code hmem => hfinal d ▸ hfg.passing d child code hmem
  all := fun d child code hseat hin => hfinal d ▸ hfg.all d child code hseat hin

lemma andThen (hfg : Deposits t f g) (hgh : Deposits u g h) (hnew : Pending t f g new)
    (hnew' : Pending u g h new') : Pending (.andThen t u) f h (new ++ new') where
  fresh := by
    intro d child hmem
    rcases List.mem_append.mp hmem with hmem | hmem
    · exact hnew.fresh d child hmem
    · exact Table.Sown.absent (hfg.records d).toGrown (hnew'.fresh d child hmem)
  recorded := by
    intro d child hmem
    rcases List.mem_append.mp hmem with hmem | hmem
    · exact (hgh.records d).contains (hnew.recorded d child hmem)
    · exact hnew'.recorded d child hmem
  -- Both parts have found what is new to them absent, so neither has recorded what the other has.
  passing := by
    intro d child code hmem hfinal
    rcases List.mem_append.mp hmem with hmem | hmem <;>
      rcases List.mem_append.mp hfinal with hfinal | hfinal
    · exact hnew.passing d child code hmem hfinal
    · have habsent := (hgh.records d).fresh child code (.inr (.inl hfinal))
      rw [hnew.recorded d child hmem] at habsent
      cases habsent
    · have hthere := (hfg.records d).added child code (.inr (.inl hfinal))
      rw [hnew'.fresh d child hmem] at hthere
      cases hthere
    · exact hnew'.passing d child code hmem hfinal
  all := by
    intro d child code hseat hin
    rcases hnew'.all d child code (by rwa [hfg.seat]) hin with hthere | hmem | hfinal
    · obtain ⟨code', hcode'⟩ := Option.isSome_iff_exists.mp hthere
      obtain rfl : code' = code := by
        rw [(hgh.records d).kept child code' hcode'] at hin
        exact Option.some.inj hin
      rcases hnew.all d child code' hseat hcode' with hbefore | hmem | hfinal
      · exact .inl hbefore
      · exact .inr (.inl (List.mem_append_left _ hmem))
      · exact .inr (.inr (List.mem_append_left _ hfinal))
    · exact .inr (.inl (List.mem_append_right _ hmem))
    · exact .inr (.inr (List.mem_append_right _ hfinal))

lemma origin (hfg : Deposits t f g) (hnew : Pending t f g new) {d child : Address} {code : Bytes}
    (hseat : f.seat.address? ≠ some d) (hin : (g.ledger.records d).find? child = some code)
    (hnot : (d, child) ∉ new) :
    (f.ledger.records d).find? child = some code ∨ (child, code) ∈ t.final d := by
  rcases hnew.all d child code hseat hin with hthere | hmem | hfinal
  · obtain ⟨code', hcode'⟩ := Option.isSome_iff_exists.mp hthere
    rw [(hfg.records d).kept child code' hcode'] at hin
    exact .inl (hin ▸ hcode')
  · exact absurd hmem hnot
  · exact .inr hfinal

end Pending

namespace Notes

variable {t u : Chronicle} {f g h : Frame}

lemma congr (hfg : Notes t f g) (htu : t.Matches u) : Notes u f g where
  toDeposits := hfg.toDeposits.congr htu
  noted := by
    obtain ⟨new, hnew, hpending⟩ := hfg.noted
    exact ⟨new, hnew, hpending.congr htu.final⟩

lemma of_idles (hfg : Idles f g) : Notes .quiet f g where
  toDeposits := .of_idles hfg
  noted := by
    refine ⟨[], by rw [hfg.still.deployments, List.append_nil], .nil fun d child code _ hin => .inl ?_⟩
    rw [hfg.still.records] at hin
    exact Table.contains_of_find? hin

lemma andThen (hfg : Notes t f g) (hgh : Notes u g h) : Notes (.andThen t u) f h where
  toDeposits := hfg.toDeposits.andThen hgh.toDeposits
  noted := by
    obtain ⟨new, hnew, hpending⟩ := hfg.noted
    obtain ⟨new', hnew', hpending'⟩ := hgh.noted
    exact ⟨new ++ new', by rw [hnew', hnew, List.append_assoc],
      .andThen hfg.toDeposits hgh.toDeposits hpending hpending'⟩

lemma idles_trans (hfg : Idles f g) (hgh : Notes t g h) : Notes t f h :=
  ((of_idles hfg).andThen hgh).congr ⟨rfl, fun _ => rfl, fun _ => rfl, rfl⟩

lemma trans_idles (hfg : Notes t f g) (hgh : Idles g h) : Notes t f h :=
  (hfg.andThen (of_idles hgh)).congr ⟨List.append_nil _, fun _ => List.append_nil _,
    fun _ => List.append_nil _, List.append_nil _⟩

end Notes

section Idling

variable {α : Type} {call : Address → Bytes → Run CallResponse} {f g : Frame}

lemma idles_answer {request : HostFunction} (hcall : request ≠ .call) (hdeploy : request ≠ .deploy)
    {data : Bytes} {q : Except Failure Bytes}
    (hx : (Host.answer call request data).outcome f = some (q, g)) : Idles f g where
  abides := (minds_answer call hcall data q g hx).toAbides
  still := Calm.answer call data hcall hdeploy f q g hx
  deployed := retains_answer inert_deployed call hcall (fun _ _ _ => rfl) data q g hx

lemma idles_answered (number : Nat) (request : HostFunction) (reply : Except Failure Bytes)
    (f : Frame) : Idles f (answered number request reply f) where
  abides := (minds_answered number request reply f).toAbides
  still := still_answered number request reply f
  deployed := retains_answered number request reply f

lemma idles_charged (number : Nat) (gas : Int) (f : Frame) : Idles f (charged number gas f) where
  abides := (minds_charged number gas f).toAbides
  still := still_charged number gas f
  deployed := retains_charged inert_deployed number gas f

lemma idles_enter {e : Entry} (he : e.instantiated? = none) (f : Frame) :
    Idles f { f with ledger := f.ledger.enter [e] } where
  abides := (Minds.enter f he).toAbides
  still := .withLedger f rfl
  deployed := .of_contracts f rfl

lemma idles_heard (calldata : Bytes) (f : Frame) : Idles f (heard calldata f) where
  abides := (minds_heard calldata f).toAbides
  still := still_heard calldata f
  deployed := retains_heard calldata f

lemma idles_reported {callee : Address} {response : CallResponse} {q : Except Failure CallResponse}
    (hx : (reported callee response).outcome f = some (q, g)) : Idles f g where
  abides := (minds_reported callee response q g hx).toAbides
  still := (reported_cases hx).2
  deployed := retains_reported inert_deployed callee response q g hx

lemma idles_abandoned (f : Frame) (e : Failure) : Idles f (abandoned f e) where
  abides := (minds_abandoned f e).toAbides
  still := still_abandoned f e
  deployed := retains_abandoned inert_deployed f e

lemma idles_opened (f : Frame) (target : Address) :
    Idles f { f with ledger := opened f target } where
  abides := (minds_opened f target).2.toAbides
  still := .withLedger f (minds_opened f target).1
  deployed := .of_contracts f (minds_opened f target).1

lemma idles_setCode (f : Frame) (a : Address) (code : Bytes) :
    Idles f { f with ledger := f.ledger.setCode a code } where
  abides := .withLedger (l := f.ledger.setCode a code) (.of_contracts rfl rfl rfl) _
  still := .withLedger f rfl
  deployed := .of_contracts f rfl

lemma retains_load : Leads (Retains Contract.deployed) f load :=
  (retains_dispose inert_deployed).bind fun _ _ => (retains_modify begun fun _ => rfl).bind
    fun _ _ => retains_equip inert_deployed

lemma idles_entry {calldata : Bytes} {given : EnvironmentGiven}
    {r : Except Failure (Nat × Program)} (hx : (entry calldata given).outcome f = some (r, g)) :
    Idles f g where
  abides := (begins_entry hx).toAbides
  still := Calm.entry calldata given f r g hx
  deployed := retains_load.bind (fun _ _ => (retains_setEnvironment given).bind fun _ _ =>
    (retains_enter _).bind fun _ _ => .pure _) r g hx

lemma idles_inception {r : Except Failure (Nat × Program)}
    (hx : inception.outcome f = some (r, g)) : Idles f g where
  abides := (begins_inception hx).toAbides
  still := by
    have hcalm : Calm inception := Calm.load.bind fun _ => Calm.contract.bind fun _ =>
      (Calm.setEnvironment _).bind fun _ => (Calm.enter _).bind fun _ => .pure _
    exact hcalm f r g hx
  deployed := retains_load.bind (fun _ _ => retains_contract.bind fun _ _ =>
    (retains_setEnvironment _).bind fun _ _ => (retains_enter _).bind fun _ _ => .pure _) r g hx

end Idling

end Run

end ChainReplay
