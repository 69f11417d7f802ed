import Mathlib.Tactic.Lemma
import ChainReplay.Ledger.Code

/-! Derived addresses. The address of a copy is a digest: two copies that share one are the same copy,
or there are two byte strings that share a digest. -/

namespace ChainReplay

namespace Sha256

/-- These are different, and their digests are not. -/
def Collides (pair : Bytes × Bytes) : Prop := pair.1 ≠ pair.2 ∧ digest pair.1 = digest pair.2

/-- Of two byte strings that are hashed twice, those behind the hash at which they become one. -/
def twicePair (x y : Bytes) : Bytes × Bytes :=
  if digest x = digest y then (x, y) else (digest x, digest y)

lemma eq_or_collides_of_hash256 {x y : Bytes} (h : hash256 x = hash256 y) :
    x = y ∨ Collides (twicePair x y) := by
  rw [twicePair]
  split
  case isTrue hinner =>
    by_cases hxy : x = y
    · exact .inl hxy
    · exact .inr ⟨hxy, hinner⟩
  case isFalse hinner => exact .inr ⟨hinner, h⟩

lemma length_hash256 (x : Bytes) : (hash256 x).length = 32 := length_digest _

end Sha256

/-- What the address of a copy is derived from. -/
structure Derivation where
  deployer : Address
  salt : Bytes
  code : Bytes
  deriving DecidableEq

namespace Derivation

open Sha256

variable {d e : Derivation}

def preimage (d : Derivation) : Bytes := hash256 d.deployer.bytes ++ d.salt ++ hash256 d.code

def address (d : Derivation) : Address := Ledger.derivedAddress d.deployer d.salt d.code

/-- Salts may have any length, but there are as many bytes before one and behind it in all preimages. -/
lemma preimage_inj (h : d.preimage = e.preimage) :
    hash256 d.deployer.bytes = hash256 e.deployer.bytes ∧ d.salt = e.salt ∧
      hash256 d.code = hash256 e.code := by
  rw [preimage, preimage, List.append_assoc, List.append_assoc] at h
  have hfront : (hash256 d.deployer.bytes).length = (hash256 e.deployer.bytes).length := by
    rw [length_hash256, length_hash256]
  have hback : (hash256 d.code).length = (hash256 e.code).length := by
    rw [length_hash256, length_hash256]
  obtain ⟨hdeployer, hrest⟩ := List.append_inj h hfront
  obtain ⟨hsalt, hcode⟩ := List.append_inj' hrest hback
  exact ⟨hdeployer, hsalt, hcode⟩

/-- The byte strings that collide if two different derivations give one address: the preimages, or what
is hashed twice within them. -/
def collisionPair (d e : Derivation) : Bytes × Bytes :=
  if d.preimage = e.preimage then
    if d.deployer = e.deployer then twicePair d.code e.code
    else twicePair d.deployer.bytes e.deployer.bytes
  else (d.preimage, e.preimage)

theorem eq_or_collides (h : d.address = e.address) : d = e ∨ Collides (collisionPair d e) := by
  have hdigest : digest d.preimage = digest e.preimage := congrArg Address.bytes h
  rw [collisionPair]
  split
  case isFalse hpreimage => exact .inr ⟨hpreimage, hdigest⟩
  case isTrue hpreimage =>
  obtain ⟨hdeployer, hsalt, hcode⟩ := preimage_inj hpreimage
  split
  case isFalse hne =>
    refine (eq_or_collides_of_hash256 hdeployer).imp_left fun hbytes => absurd ?_ hne
    exact Address.mk.injEq .. ▸ hbytes
  case isTrue heq =>
    refine (eq_or_collides_of_hash256 hcode).imp_left fun hsame => ?_
    cases d
    cases e
    rw [mk.injEq]
    exact ⟨heq, hsalt, hsame⟩

end Derivation

end ChainReplay
