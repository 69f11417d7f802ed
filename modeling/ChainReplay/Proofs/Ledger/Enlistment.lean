import ChainReplay.Proofs.Leads
import ChainReplay.Proofs.Replay.Loop

/-! Getting to know what contracts have deployed: each part of it is a notice, a code that is kept, or
the registration of a contract that has not run. -/

namespace ChainReplay

open Block

lemma Ledger.resolveCode_eq_ok {l m : Ledger} {c d : Contract} (h : l.resolveCode c = (m, .ok d)) :
    ∃ code, d = { c with code := some code } := by
  rw [resolveCode] at h
  split at h
  · cases h
    exact ⟨_, rfl⟩
  · cases h

lemma Ledger.resolveCode_fst (l : Ledger) (c : Contract) :
    (l.resolveCode c).1 = l ∨ ∃ code, (l.resolveCode c).1 = l.setCode c.address code := by
  cases hown : c.ownCode with
  | none =>
    left
    simp only [resolveCode, hown]
    cases l.code? c.address <;> rfl
  | some code =>
    refine .inr ⟨code, ?_⟩
    simp only [resolveCode, hown]
    cases (l.setCode c.address code).code? c.address <;> rfl

lemma Ledger.contracts_resolveCode (l : Ledger) (c : Contract) :
    (l.resolveCode c).1.contracts = l.contracts := by
  rcases l.resolveCode_fst c with hsame | ⟨code, hcode⟩
  · rw [hsame]
  · rw [hcode]
    rfl

/-- A relation between ledgers in which each of these steps stands. -/
structure Enlists (P : Ledger → Ledger → Prop) : Prop where
  note : ∀ l level text, P l (l.note level text)
  code : ∀ l a code, P l (l.setCode a code)
  register : ∀ l c m, c.handle = none → c.children = [] → l.register c = .ok m → P l m

namespace Enlists

variable {P : Ledger → Ledger → Prop} [IsPreorder Ledger P] (hP : Enlists P) {l : Ledger}

include hP

lemma resolveCode (l : Ledger) (c : Contract) : P l (l.resolveCode c).1 := by
  rcases l.resolveCode_fst c with hsame | ⟨code, hcode⟩
  · exact hsame.symm ▸ refl l
  · exact hcode.symm ▸ hP.code l _ code

lemma registerChildren (l : Ledger) (parent : Contract) (children : List (Address × Bytes)) :
    P l (l.registerChildren parent children).1 := by
  induction children generalizing l with
  | nil => exact refl l
  | cons entry rest ih =>
    obtain ⟨a, code⟩ := entry
    have hresolve := hP.resolveCode l
      (Contract.create a parent.address parent.gasLimit (some code) [])
    rw [Ledger.registerChildren]
    split
    case isTrue => exact ih l
    case isFalse =>
      simp only
      cases hresolved : l.resolveCode (Contract.create a parent.address parent.gasLimit (some code) [])
        with | mk m r =>
      rw [hresolved] at hresolve
      cases r with
      | error f => exact hresolve
      | ok child =>
        obtain ⟨resolved, rfl⟩ := Ledger.resolveCode_eq_ok hresolved
        cases hregister : m.register { Contract.create a parent.address parent.gasLimit (some code) []
            with code := some resolved } with
        | error f =>
          simp only [hregister]
          exact hresolve
        | ok n =>
          simp only [hregister]
          exact trans_of P (trans_of P hresolve (hP.register m _ n rfl rfl hregister)) (ih n)

lemma registerTouched (l : Ledger) (addresses : List Address) :
    P l (l.registerTouched addresses).1 := by
  induction addresses generalizing l with
  | nil => exact refl l
  | cons a rest ih =>
    rw [Ledger.registerTouched]
    cases l.contracts.find? a with
    | none => exact ih l
    | some c =>
      have hchildren := hP.registerChildren l c c.children
      simp only [Ledger.registerDeployments]
      generalize l.registerChildren c c.children = registered at hchildren ⊢
      obtain ⟨m, _ | created⟩ := registered
      · exact hchildren
      · exact trans_of P hchildren (ih m)

omit [IsPreorder Ledger P] in
lemma leads_note (level : Level) (text : Text) : Leads P l (Chain.note level text) :=
  .modify (hP.note l level text)

lemma leads_registerTouched (addresses : List Address) :
    Leads P l (Chain.registerTouched addresses) := by
  rw [Chain.registerTouched]
  refine .bind_get ((Leads.set (hP.registerTouched l addresses)).bind fun _ m => ?_)
  exact .bind_lift fun _ _ => .pure _

lemma leads_judge (index : Nat) (tx : Transaction) (response : CallResponse) (r : ReplayResult) :
    Leads P l (judge index tx response r) := by
  rw [judge]
  cases response.result with
  | ok reply =>
    refine (hP.leads_note _ _).bind fun _ _ => ?_
    exact (hP.leads_registerTouched _).bind fun _ _ => .pure _
  | error f =>
    refine (hP.leads_note _ _).bind fun _ _ => ?_
    cases (failureOf index tx f).recordedRevert with
    | some words => exact (hP.leads_note _ _).bind fun _ _ => .pure _
    | none => exact .pure _

lemma leads_settle (b : Block) (tx : Transaction) (judged : ReplayResult × Option ReplayFailure) :
    Leads P l (settle b tx judged) := by
  obtain ⟨r, _ | failure⟩ := judged
  · exact .pure _
  · simp only [settle]
    split
    · exact (hP.leads_note _ _).bind fun _ _ => .pure _
    · split
      · exact (hP.leads_note _ _).bind fun _ _ => .pure _
      · exact .pure _

lemma scan (b : Block) (l : Ledger) (entries : List (Transaction × Nat)) :
    P l (b.scan l entries).1 := by
  induction entries generalizing l with
  | nil => exact refl l
  | cons entry rest ih =>
    rw [Block.scan]
    split
    · exact ih l
    · split
      · change P l (b.scan (l.note _ _) rest).1
        exact trans_of P (hP.note _ _ _) (ih _)
      · exact hP.note _ _ _

lemma verify (b : Block) (l : Ledger) : P l (b.verify l).2.2 := by
  have hscan := hP.scan b l b.transactions.zipIdx
  rw [Block.verify]
  split
  · exact refl l
  · generalize b.scan l b.transactions.zipIdx = scanned at hscan ⊢
    obtain ⟨m, _ | skipped⟩ := scanned <;> exact hscan

end Enlists

end ChainReplay
