import ChainReplay.Proofs.Execution.Outcome
import ChainReplay.Proofs.Search
import ChainReplay.Proofs.Wire.Canonical
import ChainReplay.Proofs.Wire.Writable

/-! The replies to a running contract about its own storage: a number of the storage can be sent
exactly if it fits its width. -/

namespace ChainReplay

namespace Format

variable {f : Format} {v : f.Value} {bs : Bytes}

lemma fits_of_decode (h : f.decode bs = .ok v) : f.Fits v := by
  obtain ⟨r, hr⟩ : ∃ r, f.read.outcome (.ofBytes bs) = (.ok v, r) := ⟨_, Prod.ext h rfl⟩
  obtain ⟨written, rest, -, -, hemit, -⟩ := (f.takes_exact 0 bs v r).mp hr
  exact (f.emit_failure_eq_none v).mp (by rw [hemit]; rfl)

lemma exists_encode_iff : (∃ bs, f.encode v = .ok bs) ↔ f.Fits v :=
  (Emission.result_eq_ok_iff _).trans (f.emit_failure_eq_none v)

end Format

namespace Host

open Format Run

variable {s : Storage} {p bound : Int} {down : Bool} {data : Bytes} {f : Frame}
  {call : Address → Bytes → Run CallResponse}

/-- The request gets a reply on every contract that has the storage. -/
def Answers (request : HostFunction) (s : Storage) (data : Bytes) : Prop :=
  ∀ call f, f.contract.states = s →
    ∃ reply g, (answer call request data).outcome f = some (.ok reply, g)

/-- All numbers of the storage that are asked for can be sent. -/
structure Serves (s : Storage) : Prop where
  load : ∀ data pointer, u256.decode data = .ok pointer → Answers .load s data
  search : ∀ data query, nextFormat.decode data = .ok query → Answers .nextPointer s data

lemma outcome_loadPointer (p : Int) (f : Frame) :
    ∃ g, (loadPointer p).outcome f = some (.ok (f.contract.states.load p), g) := by
  rw [loadPointer]
  simp only [outcome_bind, outcome_contract, outcome_ledger, Outcome.some_andThen]
  split <;> exact ⟨_, rfl⟩

lemma outcome_load (hdata : u256.decode data = .ok p) :
    ∃ g, (answer call .load data).outcome f =
      some (u256.encode (f.contract.states.load p), g) := by
  obtain ⟨g, hg⟩ := outcome_loadPointer p f
  refine ⟨g, ?_⟩
  rw [answer]
  rw [outcome_bind, hdata]
  change (loadPointer p >>= fun value => lift (u256.encode value)).outcome f = _
  rw [outcome_bind, hg]
  exact outcome_lift _ g

lemma outcome_search (hdata : nextFormat.decode data = .ok (p, bound, down)) :
    (answer call .nextPointer data).outcome f =
      some (u256.encode (f.contract.states.nextPointer p bound down), f) := by
  rw [answer]
  rw [outcome_bind, hdata]
  exact outcome_lift _ f

lemma exists_encode_word_iff {n : Int} : (∃ bs, u256.encode n = .ok bs) ↔ Bytes.Holds 32 n :=
  exists_encode_iff (f := u256) (v := n)

def holder (s : Storage) : Frame :=
  ⟨Ledger.create Settings.default none,
    .apart { Contract.create Address.zero Address.zero (.amount 0) none [] with states := s }, []⟩

lemma answers_iff {request : HostFunction} {n : Int}
    (hrun : ∀ call f, f.contract.states = s →
      ∃ g, (answer call request data).outcome f = some (u256.encode n, g)) :
    Answers request s data ↔ Bytes.Holds 32 n := by
  rw [← exists_encode_word_iff]
  constructor
  · intro hanswers
    have hholder : (holder s).contract.states = s := rfl
    obtain ⟨g, hg⟩ := hrun (fun _ _ => outOfFuel) (holder s) hholder
    obtain ⟨reply, g', hreply⟩ := hanswers (fun _ _ => outOfFuel) (holder s) hholder
    rw [hg] at hreply
    exact ⟨reply, (Prod.mk.inj (Option.some.inj hreply)).1⟩
  · rintro ⟨reply, hreply⟩ call f hf
    obtain ⟨g, hg⟩ := hrun call f hf
    rw [hreply] at hg
    exact ⟨reply, g, hg⟩

lemma answers_load_iff (hdata : u256.decode data = .ok p) :
    Answers .load s data ↔ Bytes.Holds 32 (s.load p) :=
  answers_iff fun _ _ hf => hf ▸ outcome_load hdata

lemma answers_search_iff (hdata : nextFormat.decode data = .ok (p, bound, down)) :
    Answers .nextPointer s data ↔ Bytes.Holds 32 (s.nextPointer p bound down) :=
  answers_iff fun _ f hf => ⟨f, hf ▸ outcome_search hdata⟩

/-- Every reply can be sent exactly if every number that can be asked for is a word. -/
theorem serves_iff (s : Storage) : Serves s ↔
    (∀ p, Bytes.Holds 32 p → Bytes.Holds 32 (s.load p)) ∧
      ∀ p bound down, Bytes.Holds 32 p → Bytes.Holds 32 bound →
        Bytes.Holds 32 (s.nextPointer p bound down) := by
  constructor
  · rintro ⟨hload, hsearch⟩
    refine ⟨fun p hp => ?_, fun p bound down hp hbound => ?_⟩
    · obtain ⟨data, hdata⟩ := exists_encode_word_iff.mpr hp
      have hdecode : u256.decode data = .ok p := decode_of_encode trivial hdata
      exact (answers_load_iff hdecode).mp (hload data p hdecode)
    · have hfits : nextFormat.Fits (p, bound, down) := ⟨hp, hbound, trivial⟩
      obtain ⟨data, hdata⟩ := exists_encode_iff.mpr hfits
      have hregular : nextFormat.Regular := ⟨trivial, trivial, trivial⟩
      have hdecode := decode_of_encode (hregular.exact _) hdata
      exact (answers_search_iff hdecode).mp (hsearch data _ hdecode)
  · rintro ⟨hload, hsearch⟩
    refine ⟨fun data p hdata => ?_, fun data ⟨p, bound, down⟩ hdata => ?_⟩
    · exact (answers_load_iff hdata).mpr (hload p (fits_of_decode hdata))
    · obtain ⟨hp, hbound, -⟩ := fits_of_decode hdata
      exact (answers_search_iff hdata).mpr (hsearch p bound down hp hbound)

lemma load_mem_or_zero (s : Storage) (p : Int) : (∃ e ∈ s, e.2 = s.load p) ∨ s.load p = 0 := by
  rw [Storage.load]
  cases hp : s.find? p with
  | none => exact .inr rfl
  | some v => exact .inl ⟨(p, v), Table.mem_of_find? hp, rfl⟩

lemma nextPointer_mem_or_zero (s : Storage) (p bound : Int) (down : Bool) :
    (∃ e ∈ s, e.1 = s.nextPointer p bound down) ∨ s.nextPointer p bound down = 0 := by
  by_cases h : ∃ q, s.Accepts p bound down q
  · obtain ⟨q, hq⟩ := h
    obtain ⟨value, hmem, -⟩ := (Storage.nearest_nextPointer hq).stored
    exact .inl ⟨_, hmem, rfl⟩
  · exact .inr (Storage.nextPointer_of_none (not_exists.mp h))

theorem serves_of_words (hpointer : ∀ e ∈ s, Bytes.Holds 32 e.1)
    (hvalue : ∀ e ∈ s, Bytes.Holds 32 e.2) : Serves s := by
  have hzero : Bytes.Holds 32 0 := ⟨by decide, by decide⟩
  refine (serves_iff s).mpr ⟨fun p _ => ?_, fun p bound down _ _ => ?_⟩
  · obtain ⟨e, he, hload⟩ | hload := load_mem_or_zero s p
    · exact hload ▸ hvalue e he
    · rw [hload]
      exact hzero
  · obtain ⟨e, he, hnext⟩ | hnext := nextPointer_mem_or_zero s p bound down
    · exact hnext ▸ hpointer e he
    · rw [hnext]
      exact hzero

end Host

end ChainReplay
