import ChainReplay.Proofs.Feed.CacheFiles

/-! Transparency of caches. A look-up gives the storage of the first request for which its file was
made, so caches give what the feeds say as long as no two requests with different storage share a
file. -/

namespace ChainReplay

open Request Filing

/-- What is done with caches: a look-up in one of them, or forgetting what it has in memory. -/
inductive Use (ι : Type) where
  | get (cache : ι) (request : Request)
  | clear (cache : ι)

namespace Use

variable {ι : Type}

def request? : Use ι → Option Request
  | get _ r => some r
  | clear _ => none

def requests (uses : List (Use ι)) : List Request := uses.filterMap request?

variable [DecidableEq ι]

def answers (e : Disk) (caches : ι → Cache) : List (Use ι) → List (Except Failure Storage)
  | [] => []
  | get i r :: uses =>
    let found := (caches i).get e r.feed r.name r.height
    found.result ::
      answers found.disk (fun j => if j = i then found.cache else caches j) uses
  | clear i :: uses =>
    answers e (fun j => if j = i then (caches i).clear else caches j) uses

end Use

section Answers

variable {d m e : Disk} {directory : Path} {requests asked : List Request} {r : Request}
  {k : List Text}

/-- The storage of the first request that has the same file. -/
def Answers (d m : Disk) (directory : Path) (asked : List Request) (r : Request) (s : Storage) :
    Prop :=
  ∃ k q t, r.stand m directory = some k ∧
    asked.find? (fun q => q.stand m directory = some k) = some q ∧ q.load d = .ok t ∧
    s.find? = t.find?

/-- A look-up gives that storage, or fails because the file cannot have its name. -/
def Answered (d m : Disk) (directory : Path) (asked : List Request) (r : Request)
    (x : Except Failure Storage) : Prop :=
  (∃ s, x = .ok s ∧ Answers d m directory asked r s) ∨
    r.stand m directory = none ∧ ∃ f, x = .error f

lemma Answers.append {s : Storage} (h : Answers d m directory asked r s) (more : List Request) :
    Answers d m directory (asked ++ more) r s := by
  obtain ⟨k, q, t, hk, hq, ht, hs⟩ := h
  exact ⟨k, q, t, hk, by rw [List.find?_append, hq, Option.some_or], ht, hs⟩

lemma Answered.append {x : Except Failure Storage} (h : Answered d m directory asked r x)
    (more : List Request) : Answered d m directory (asked ++ more) r x := by
  obtain ⟨s, hx, hs⟩ | ⟨hk, hx⟩ := h
  · exact .inl ⟨s, hx, hs.append more⟩
  · exact .inr ⟨hk, hx⟩

/-- What a cache has in memory are answers to earlier requests. -/
structure Remembers (d m : Disk) (directory : Path) (asked : List Request) (c : Cache) : Prop where
  place : c.directory = directory
  memory : ∀ name height s, c.memory.find? (name, height) = some s →
    Answers d m directory asked ⟨name, height⟩ s

namespace Remembers

variable {c : Cache}

lemma create (d m : Disk) (directory : Path) :
    Remembers d m directory [] (Cache.create directory) :=
  ⟨rfl, nofun⟩

lemma pathFor_eq (h : Remembers d m directory asked c) (r : Request) :
    c.pathFor r.feed r.height = r.file directory := by
  rw [← h.place]
  rfl

lemma clear (h : Remembers d m directory asked c) : Remembers d m directory asked c.clear :=
  ⟨h.place, nofun⟩

lemma append (h : Remembers d m directory asked c) (more : List Request) :
    Remembers d m directory (asked ++ more) c :=
  ⟨h.place, fun name height s hs => (h.memory name height s hs).append more⟩

lemma keep (h : Remembers d m directory asked c) {s : Storage}
    (hs : Answers d m directory asked r s) :
    Remembers d m directory asked (c.keep r.name r.height s) := by
  refine ⟨h.place, fun name height t ht => ?_⟩
  rw [Cache.keep] at ht
  rw [Table.find?_insert] at ht
  split at ht
  case isTrue heq =>
    cases heq
    cases ht
    exact hs
  case isFalse => exact h.memory name height t ht

end Remembers

lemma get_of_memory {c : Cache} {s : Storage} (e : Disk)
    (h : c.memory.find? (r.name, r.height) = some s) :
    c.get e r.feed r.name r.height = ⟨.ok s, e, c, []⟩ := by
  simp only [Cache.get, h]

lemma get_of_present {c : Cache} {s : Storage} (h : c.memory.find? (r.name, r.height) = none)
    (hpresent : e.present (c.pathFor r.feed r.height) = .ok true)
    (hload : Cache.load e (c.pathFor r.feed r.height) = .ok s) :
    ∃ notices, c.get e r.feed r.name r.height = ⟨.ok s, e, c.keep r.name r.height s, notices⟩ := by
  simp only [Cache.get, h, hpresent, Cache.find, hload]
  exact ⟨_, rfl⟩

lemma get_of_absent {c : Cache} (h : c.memory.find? (r.name, r.height) = none)
    (hpresent : e.present (c.pathFor r.feed r.height) = .ok false) :
    (∀ s n, outcome (c.fill r.feed r.height) e = (.ok s, n) →
      ∃ notices, c.get e r.feed r.name r.height = ⟨.ok s, n, c.keep r.name r.height s, notices⟩) ∧
    ∀ f n, outcome (c.fill r.feed r.height) e = (.error f, n) →
      ∃ notices, c.get e r.feed r.name r.height = ⟨.error f, n, c, notices⟩ := by
  rw [outcome]
  refine ⟨fun s n hfill => ?_, fun f n hfill => ?_⟩ <;>
    simp only [Cache.get, h, hpresent, Cache.make, hfill] <;> exact ⟨_, rfl⟩

lemma get_of_unknown {c : Cache} {f : Failure} (h : c.memory.find? (r.name, r.height) = none)
    (hpresent : e.present (c.pathFor r.feed r.height) = .error f) :
    c.get e r.feed r.name r.height = ⟨.error f, e, c, []⟩ := by
  simp only [Cache.get, h, hpresent]

/-- A look-up that has been answered leaves disk and cache as they have to be for the next one. -/
structure Served (d m : Disk) (directory : Path) (asked : List Request) (r : Request)
    (found : Lookup) : Prop where
  answered : Answered d m directory (asked ++ [r]) r found.result
  filed : Filed d m directory (asked ++ [r]) found.disk
  remembers : Remembers d m directory (asked ++ [r]) found.cache

section Lookup

variable {c : Cache}

lemma served_of_memory (h : Filed d m directory asked e) (hc : Remembers d m directory asked c)
    {s : Storage} (hmemory : c.memory.find? (r.name, r.height) = some s) :
    Served d m directory asked r (c.get e r.feed r.name r.height) := by
  have hanswer := hc.memory _ _ s hmemory
  rw [get_of_memory e hmemory]
  refine ⟨.inl ⟨s, rfl, hanswer.append [r]⟩, h.again fun k hk => ?_, hc.append [r]⟩
  obtain ⟨j, q, _, hj, hq, _⟩ := hanswer
  obtain ⟨hmem, hstand⟩ := stand_of_find? hq
  exact ⟨q, hmem, hstand.trans (hj.symm.trans hk)⟩

lemma served_of_unfilable (h : Filed d m directory asked e)
    (hready : Ready d m directory requests) (hasked : ∀ q ∈ asked, q ∈ requests)
    (hr : r ∈ requests) (hc : Remembers d m directory asked c)
    (hmemory : c.memory.find? (r.name, r.height) = none) (hk : r.stand m directory = none) :
    Served d m directory asked r (c.get e r.feed r.name r.height) := by
  obtain ⟨s, hs⟩ := hready.loads r hr
  have hpath := hc.pathFor_eq r
  have hagain (n : Disk) (hn : Filed d m directory asked n) :
      Filed d m directory (asked ++ [r]) n :=
    hn.again fun k hsome => nomatch hk.symm.trans hsome
  obtain ⟨f, hkey⟩ := h.key_error hready hk
  rcases Disk.present_of_key_error hkey with hfalse | ⟨f', herror⟩
  · obtain ⟨f', hfill⟩ := h.outcome_fill_of_none hready hasked hc.place hs hk
    obtain ⟨notices, hget⟩ := (get_of_absent hmemory (hpath ▸ hfalse)).2 f' _ hfill
    rw [hget]
    exact ⟨.inr ⟨hk, f', rfl⟩, hagain _ h.make, hc.append [r]⟩
  · rw [get_of_unknown hmemory (hpath ▸ herror)]
    exact ⟨.inr ⟨hk, f', rfl⟩, hagain _ h, hc.append [r]⟩

lemma served_of_filled (h : Filed d m directory asked e) (hready : Ready d m directory requests)
    (hc : Remembers d m directory asked c)
    (hmemory : c.memory.find? (r.name, r.height) = none) (hk : r.stand m directory = some k)
    {q : Request} (hq : asked.find? (fun q => q.stand m directory = some k) = some q) :
    Served d m directory asked r (c.get e r.feed r.name r.height) := by
  have hpath := hc.pathFor_eq r
  obtain ⟨hpresent, s, t, hs, ht, hfind⟩ := h.find_eq hready hk hq
  obtain ⟨notices, hget⟩ := get_of_present hmemory (hpath ▸ hpresent) (hpath ▸ ht)
  have hanswer : Answers d m directory asked r t := ⟨k, q, s, hk, hq, hs, hfind⟩
  rw [hget]
  refine ⟨.inl ⟨t, rfl, hanswer.append [r]⟩, h.again fun j hj => ?_, (hc.keep hanswer).append [r]⟩
  obtain ⟨hmem, hstand⟩ := stand_of_find? hq
  exact ⟨q, hmem, hstand.trans (hk.symm.trans hj)⟩

lemma served_of_new (h : Filed d m directory asked e) (hready : Ready d m directory requests)
    (hasked : ∀ q ∈ asked, q ∈ requests) (hr : r ∈ requests)
    (hc : Remembers d m directory asked c)
    (hmemory : c.memory.find? (r.name, r.height) = none) (hk : r.stand m directory = some k)
    (hq : asked.find? (fun q => q.stand m directory = some k) = none) :
    Served d m directory asked r (c.get e r.feed r.name r.height) := by
  obtain ⟨s, hs⟩ := hready.loads r hr
  have hpath := hc.pathFor_eq r
  have hnew : ∀ q ∈ asked, q.stand m directory ≠ some k :=
    fun q hmem hstand => List.find?_eq_none.mp hq q hmem (decide_eq_true hstand)
  have hfill := h.outcome_fill_of_new hready hasked hr hc.place hs hk
  obtain ⟨notices, hget⟩ :=
    (get_of_absent hmemory (hpath ▸ h.present_of_new hready hr hk hnew)).1 s _ hfill
  have hanswer : Answers d m directory (asked ++ [r]) r s := by
    refine ⟨k, r, s, hk, ?_, hs, rfl⟩
    rw [List.find?_append, hq, Option.none_or, List.find?_singleton, if_pos (decide_eq_true hk)]
  rw [hget]
  exact ⟨.inl ⟨s, rfl, hanswer⟩, h.write hk hnew hs, (hc.append [r]).keep hanswer⟩

lemma served (h : Filed d m directory asked e) (hready : Ready d m directory requests)
    (hasked : ∀ q ∈ asked, q ∈ requests) (hr : r ∈ requests)
    (hc : Remembers d m directory asked c) :
    Served d m directory asked r (c.get e r.feed r.name r.height) := by
  cases hmemory : c.memory.find? (r.name, r.height) with
  | some s => exact served_of_memory h hc hmemory
  | none =>
    cases hk : r.stand m directory with
    | none => exact served_of_unfilable h hready hasked hr hc hmemory hk
    | some k =>
      cases hq : asked.find? (fun q => q.stand m directory = some k) with
      | some q => exact served_of_filled h hready hc hmemory hk hq
      | none => exact served_of_new h hready hasked hr hc hmemory hk hq

end Lookup

variable {ι : Type} [DecidableEq ι]

lemma answers_answered {all : List Request} (hready : Ready d m directory all)
    {uses : List (Use ι)} {caches : ι → Cache} (hall : asked ++ Use.requests uses = all)
    (h : Filed d m directory asked e) (hc : ∀ i, Remembers d m directory asked (caches i)) :
    List.Forall₂ (Answered d m directory all) (Use.requests uses) (Use.answers e caches uses) := by
  -- Each look-up adds a request to those asked so far; an answer stays one when more are asked.
  induction uses generalizing asked e caches with
  | nil => exact .nil
  | cons use uses ih =>
    cases use with
    | clear i =>
      refine ih hall h fun j => ?_
      split
      · exact (hc i).clear
      · exact hc j
    | get i r =>
      have hmem (q : Request) (hq : q ∈ asked ++ [r]) : q ∈ all := by
        rw [← hall]
        rcases List.mem_append.mp hq with hq | hq
        · exact List.mem_append_left _ hq
        · exact List.mem_append_right _ (List.mem_singleton.mp hq ▸ List.mem_cons_self)
      have hnext : (asked ++ [r]) ++ Use.requests uses = all := by
        rw [← hall, List.append_assoc]
        rfl
      have hserved := served h hready (fun q hq => hmem q (List.mem_append_left _ hq))
        (hmem r (List.mem_append_right _ List.mem_cons_self)) (hc i)
      refine .cons (hnext ▸ hserved.answered.append _) (ih hnext hserved.filed fun j => ?_)
      split
      · exact hserved.remembers
      · exact (hc j).append [r]

/-- The result is the storage that the feed has at the height. -/
def IsLoaded (d : Disk) (r : Request) (x : Except Failure Storage) : Prop :=
  ∃ s t, r.load d = .ok s ∧ x = .ok t ∧ t.find? = s.find?

lemma exists_of_forall₂ {α β : Type} {R Q : α → β → Prop} {l : List α} {u : List β}
    (hR : List.Forall₂ R l u) (hQ : List.Forall₂ Q l u) {a : α} (ha : a ∈ l) :
    ∃ b, R a b ∧ Q a b := by
  induction hR with
  | nil => cases ha
  | @cons a' b l u hab _ ih =>
    cases hQ with
    | cons hab' hQ =>
      rcases List.mem_cons.mp ha with rfl | ha
      · exact ⟨b, hab, hab'⟩
      · exact ih hQ ha

/-- If a request is answered by what its feed says, then the first request with its file, and every
other one, has the same storage. -/
lemma isLoaded_of_answered {q : Request} {x y : Except Failure Storage}
    (hq : Answered d m directory asked q x) (hr : Answered d m directory asked r y)
    (hqx : IsLoaded d q x) (hry : IsLoaded d r y) (hfile : q.file directory = r.file directory) :
    IsLoaded d r (q.load d) := by
  obtain ⟨s, t, hs, rfl, hts⟩ := hqx
  obtain ⟨s', t', hs', rfl, hts'⟩ := hry
  obtain ⟨u, hu, k, f, v, hk, hf, hv, huv⟩ | ⟨_, f, hf⟩ := hq
  case inr => cases hf
  obtain ⟨u', hu', k', f', v', hk', hf', hv', huv'⟩ | ⟨_, f, hf⟩ := hr
  case inr => cases hf
  obtain rfl := Except.ok.inj hu
  obtain rfl := Except.ok.inj hu'
  have hkk : k = k' := by
    rw [stand] at hk hk'
    rw [hfile, hk'] at hk
    exact (Option.some.inj hk).symm
  subst hkk
  have hff : f = f' := Option.some.inj (hf.symm.trans hf')
  subst hff
  have hvv : v = v' := Except.ok.inj (hv.symm.trans hv')
  subst hvv
  exact ⟨s', s, hs', hs, hts.symm.trans (huv.trans (huv'.symm.trans hts'))⟩

lemma isLoaded_of_same {x : Except Failure Storage}
    (hready : Ready d m directory requests) (h : Answered d m directory requests r x)
    (hk : m.key (r.file directory) = .ok k)
    (hsame : ∀ q ∈ requests, q.file directory = r.file directory → IsLoaded d r (q.load d)) :
    IsLoaded d r x := by
  have hstand := stand_eq_some.mpr hk
  obtain ⟨s, rfl, j, q, t, hj, hq, ht, hst⟩ | ⟨hnone, _⟩ := h
  · obtain ⟨hmem, hqj⟩ := stand_of_find? hq
    obtain ⟨s', t', hs', ht', hts⟩ := hsame q hmem (file_eq_of_stand hready.kind hqj hj)
    obtain rfl := Except.ok.inj (ht.symm.trans ht')
    exact ⟨s', s, hs', rfl, hst.trans hts⟩
  · rw [hnone] at hstand
    cases hstand

/-- Caches that share a directory, none of whose files is there at first, answer every request with
the storage of the first request that has the same file. So every look-up gives what the feed says
exactly if the files can have their names, and requests with the same file have the same storage. -/
theorem look_ups_give_loaded_iff {uses : List (Use ι)}
    (hready : Ready d m directory (Use.requests uses)) :
    List.Forall₂ (IsLoaded d) (Use.requests uses)
        (Use.answers d (fun _ => Cache.create directory) uses) ↔
      (∀ r ∈ Use.requests uses, ∃ k, m.key (r.file directory) = .ok k) ∧
        ∀ q ∈ Use.requests uses, ∀ r ∈ Use.requests uses, q.file directory = r.file directory →
          IsLoaded d r (q.load d) := by
  have hanswered : List.Forall₂ (Answered d m directory (Use.requests uses)) (Use.requests uses)
      (Use.answers d (fun _ => Cache.create directory) uses) :=
    answers_answered hready rfl (filed_nil d m directory) fun _ => .create d m directory
  constructor
  · intro hloaded
    refine ⟨fun r hr => ?_, fun q hq r hr hfile => ?_⟩
    · obtain ⟨x, hx, s, t, hs, rfl, _⟩ := exists_of_forall₂ hanswered hloaded hr
      obtain ⟨_, _, k, _, _, hk, _⟩ | ⟨_, f, hf⟩ := hx
      · exact ⟨k, stand_eq_some.mp hk⟩
      · cases hf
    · obtain ⟨x, hqx, hlx⟩ := exists_of_forall₂ hanswered hloaded hq
      obtain ⟨y, hry, hly⟩ := exists_of_forall₂ hanswered hloaded hr
      exact isLoaded_of_answered hqx hry hlx hly hfile
  · rintro ⟨hkeys, hsame⟩
    have hmem := (List.forall₂_and_left (p := (· ∈ Use.requests uses))
      (R := Answered d m directory (Use.requests uses)) _ _).mpr ⟨fun _ hr => hr, hanswered⟩
    refine hmem.imp fun r x hrx => ?_
    obtain ⟨k, hk⟩ := hkeys r hrx.1
    exact isLoaded_of_same hready hrx.2 hk fun q hq hfile => hsame q hq r hrx.1 hfile

section SameName

/-- A feed of one record; the last digit of its value is given. -/
def feedOf (digit : Char) : Bytes :=
  Utf8.asciiBytes ("\x7b\"pointer\": \"".toList ++ List.replicate 42 'A' ++
    "E=\", \"value\": \"".toList ++ List.replicate 42 'A' ++
    digit :: "=\", \"lastSeenAt\": 1\x7d".toList)

/-- Two feeds with the same name in different directories; one has seven at pointer one, the other
eight. -/
def twoFeeds : Disk where
  files := [(["x", "feed"], feedOf 'c'), (["y", "feed"], feedOf 'g')]
  directories := [["x"], ["y"], ["cache"]]

def sevens : Request := ⟨"x/feed", 5⟩

def eights (height : Int) : Request := ⟨"y/feed", height⟩

lemma ready_twoFeeds {requests : List Request}
    (hvacant : ∀ r ∈ requests, (r.stand twoFeeds "cache").all (fun k =>
      !twoFeeds.isFileKey k && !twoFeeds.isDirectoryKey k) = true)
    (hloads : ∀ r ∈ requests, (r.load twoFeeds).toOption.isSome = true) :
    Ready twoFeeds twoFeeds "cache" requests where
  made := outcome_makeDirectory_of_directory (by decide +kernel)
  vacant := by
    intro r hr k hk
    have hall := hvacant r hr
    rw [stand_eq_some.mpr hk] at hall
    simpa using hall
  loads := by
    intro r hr
    have hsome := hloads r hr
    cases hs : r.load twoFeeds with
    | ok s => exact ⟨s, rfl⟩
    | error f =>
      rw [hs] at hsome
      cases hsome

def severalHeights : List (Use Bool) :=
  [.get true sevens, .get false (eights 6), .clear true, .get false sevens, .get true (eights 6),
    .get true sevens]

theorem look_ups_give_loaded_at_several_heights :
    List.Forall₂ (IsLoaded twoFeeds) (Use.requests severalHeights)
      (Use.answers twoFeeds (fun _ => Cache.create "cache") severalHeights) := by
  have hready : Ready twoFeeds twoFeeds "cache" (Use.requests severalHeights) :=
    ready_twoFeeds (by decide +kernel) (by decide +kernel)
  refine (look_ups_give_loaded_iff hready).mpr ⟨fun r hr => ?_, fun q hq r hr hfile => ?_⟩
  · have hsome : ∀ r ∈ Use.requests severalHeights, (r.stand twoFeeds "cache").isSome = true := by
      decide +kernel
    obtain ⟨k, hk⟩ := Option.isSome_iff_exists.mp (hsome r hr)
    exact ⟨k, stand_eq_some.mp hk⟩
  · have heq : ∀ q ∈ Use.requests severalHeights, ∀ r ∈ Use.requests severalHeights,
        q.file "cache" = r.file "cache" → q = r := by decide +kernel
    obtain rfl := heq q hq r hr hfile
    obtain ⟨s, hs⟩ := hready.loads q hq
    exact ⟨s, s, hs, hs, rfl⟩

def found (x : Except Failure Storage) : Option Int := x.toOption.bind (·.find? 1)

lemma map_found_of_loaded {requests : List Request} {answers : List (Except Failure Storage)}
    (h : List.Forall₂ (IsLoaded d) requests answers) :
    answers.map found = requests.map fun r => found (r.load d) := by
  induction h with
  | nil => rfl
  | cons hr _ ih =>
    obtain ⟨s, t, hs, rfl, hts⟩ := hr
    rw [List.map_cons, List.map_cons, ih, hs]
    change t.find? 1 :: _ = s.find? 1 :: _
    rw [hts]

/-- At the same height the two feeds share a cache file, and the second look-up gives what the first
feed has. -/
theorem look_ups_confuse_feeds :
    ¬ ∀ (d m : Disk) (directory : Path) (uses : List (Use Unit)),
      Ready d m directory (Use.requests uses) →
      (∀ r ∈ Use.requests uses, ∃ k, m.key (r.file directory) = .ok k) →
      List.Forall₂ (IsLoaded d) (Use.requests uses)
        (Use.answers d (fun _ => Cache.create directory) uses) := by
  intro h
  have hsome : ∀ r ∈ [sevens, eights 5], (r.stand twoFeeds "cache").isSome = true := by
    decide +kernel
  have hloaded := h twoFeeds twoFeeds "cache" [.get () sevens, .get () (eights 5)]
    (ready_twoFeeds (by decide +kernel) (by decide +kernel)) fun r hr => by
      obtain ⟨k, hk⟩ := Option.isSome_iff_exists.mp (hsome r hr)
      exact ⟨k, stand_eq_some.mp hk⟩
  exact absurd (map_found_of_loaded hloaded) (by decide +kernel)

end SameName

end Answers

end ChainReplay
