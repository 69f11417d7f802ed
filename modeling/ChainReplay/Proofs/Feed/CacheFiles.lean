import ChainReplay.Proofs.Disk
import ChainReplay.Proofs.Feed.Snapshot

/-! The files of caches that share a directory. A cache file is named after the last part of a
feed's path and the height, so feeds of one name share their files. -/

namespace ChainReplay

structure Request where
  name : Text
  height : Int
  deriving DecidableEq

namespace Request

def feed (r : Request) : Path := .ofText r.name

def load (d : Disk) (r : Request) : Except Failure Storage := Feed.load d r.feed r.height

def fileName (r : Request) : Text :=
  "cache-" ++ r.feed.name ++ "-" ++ Text.ofInt r.height ++ ".json"

def file (directory : Path) (r : Request) : Path := (Cache.create directory).pathFor r.feed r.height

lemma file_eq (directory : Path) (r : Request) :
    r.file directory = ⟨directory.root, directory.parts ++ [r.fileName]⟩ := rfl

lemma parent_file (directory : Path) (r : Request) : (r.file directory).parent = directory := by
  simp [file_eq, Path.parent]

lemma fileName_ne (r : Request) : r.fileName ≠ ".." := by
  intro h
  have hhead := congrArg List.head? h
  exact absurd hhead (by simp [fileName, Text.ofString, Text.ofChars]; decide)

/-- The key of the cache file, where it has one. -/
def stand (m : Disk) (directory : Path) (r : Request) : Option (List Text) :=
  (m.key (r.file directory)).toOption

lemma stand_eq_some {m : Disk} {directory : Path} {r : Request} {k : List Text} :
    r.stand m directory = some k ↔ m.key (r.file directory) = .ok k := by
  simp only [stand]
  cases m.key (r.file directory) <;> simp [Except.toOption]

lemma stand_of_find? {m : Disk} {directory : Path} {asked : List Request} {k : List Text}
    {q : Request} (h : asked.find? (fun q => q.stand m directory = some k) = some q) :
    q ∈ asked ∧ q.stand m directory = some k :=
  ⟨List.mem_of_find?_eq_some h, of_decide_eq_true
    (List.find?_some (p := fun q : Request => decide (q.stand m directory = some k)) h)⟩

lemma file_eq_of_stand {m : Disk} {directory : Path} {q r : Request} {k : List Text}
    (hdir : m.kind directory = .ok .directory) (hq : q.stand m directory = some k)
    (hr : r.stand m directory = some k) : q.file directory = r.file directory := by
  obtain ⟨kd, hkd, _⟩ := Disk.kind_eq_ok hdir
  have hqk := Disk.key_child q.fileName_ne hkd (stand_eq_some.mp hq)
  have hrk := Disk.key_child r.fileName_ne hkd (stand_eq_some.mp hr)
  have hname : q.fileName = r.fileName := by
    have hboth := hqk.symm.trans hrk
    simpa using hboth
  rw [file_eq, file_eq, hname]

end Request

open Request Filing

/-- The directory can be made, and leaves the disk `m`; then none of the requested files is there.
The feeds are well-formed. -/
structure Ready (d m : Disk) (directory : Path) (requests : List Request) : Prop where
  made : outcome (makeDirectory directory) d = (.ok ⟨⟩, m)
  vacant : ∀ r ∈ requests, ∀ k, m.key (r.file directory) = .ok k →
    m.isFileKey k = false ∧ m.isDirectoryKey k = false
  loads : ∀ r ∈ requests, ∃ s, r.load d = .ok s

/-- Of the requests so far, the first one that a file stands for has filled it. All else on the disk
is as before, but the directory may have been made. -/
structure Filed (d m : Disk) (directory : Path) (asked : List Request) (e : Disk) : Prop where
  directories : e.directories = m.directories ∨ e = d ∧ ∀ q ∈ asked, q.stand m directory = none
  filled : ∀ k q, asked.find? (fun q => q.stand m directory = some k) = some q →
    ∃ s, q.load d = .ok s ∧ e.files.find? k = some (Cache.contentOf s)
  other : ∀ k, (∀ q ∈ asked, q.stand m directory ≠ some k) → e.files.find? k = d.files.find? k

section Files

variable {d m e : Disk} {directory : Path} {requests asked : List Request} {r : Request}
  {k : List Text}

lemma Ready.grown (h : Ready d m directory requests) : Grown d m := by
  have hgrown := grows_makeDirectory directory d
  rw [h.made] at hgrown
  exact hgrown

lemma Ready.kind (h : Ready d m directory requests) : m.kind directory = .ok .directory :=
  kind_of_makeDirectory h.made

lemma filed_nil (d m : Disk) (directory : Path) : Filed d m directory [] d :=
  ⟨.inr ⟨rfl, nofun⟩, nofun, fun _ _ => rfl⟩

namespace Filed

lemma subset (h : Filed d m directory asked e) (hready : Ready d m directory requests) :
    d.directories ⊆ e.directories ∧ e.directories ⊆ m.directories := by
  obtain heq | ⟨rfl, _⟩ := h.directories
  · rw [heq]
    exact ⟨hready.grown.directories, fun _ hk => hk⟩
  · exact ⟨fun _ hk => hk, hready.grown.directories⟩

lemma again (h : Filed d m directory asked e)
    (hasked : ∀ k, r.stand m directory = some k → ∃ q ∈ asked, q.stand m directory = some k) :
    Filed d m directory (asked ++ [r]) e := by
  refine ⟨?_, fun k q hq => ?_, fun k hk => h.other k fun q hq => hk q (List.mem_append_left _ hq)⟩
  · obtain heq | ⟨rfl, hnone⟩ := h.directories
    · exact .inl heq
    · refine .inr ⟨rfl, fun q hq => ?_⟩
      rcases List.mem_append.mp hq with hq | hq
      · exact hnone q hq
      · rw [List.mem_singleton.mp hq]
        by_contra hsome
        obtain ⟨k, hk⟩ := Option.ne_none_iff_exists'.mp hsome
        obtain ⟨q', hq', hk'⟩ := hasked k hk
        rw [hnone q' hq'] at hk'
        cases hk'
  · refine h.filled k q ?_
    rw [List.find?_append] at hq
    cases hfirst : asked.find? (fun q => q.stand m directory = some k) with
    | some q' => simpa [hfirst] using hq
    | none =>
      simp only [hfirst, Option.none_or, List.find?_singleton] at hq
      split at hq
      · obtain ⟨q', hq', hk'⟩ := hasked k (of_decide_eq_true ‹_›)
        exact absurd (decide_eq_true hk') (List.find?_eq_none.mp hfirst q' hq')
      · cases hq

lemma make (h : Filed d m directory asked e) :
    Filed d m directory asked { m with files := e.files } :=
  ⟨.inl rfl, h.filled, h.other⟩

lemma write (h : Filed d m directory asked e) {s : Storage} (hk : r.stand m directory = some k)
    (hnew : ∀ q ∈ asked, q.stand m directory ≠ some k) (hs : r.load d = .ok s) :
    Filed d m directory (asked ++ [r])
      { m with files := Table.insert k (Cache.contentOf s) e.files } := by
  refine ⟨.inl rfl, fun j q hq => ?_, fun j hj => ?_⟩
  · rw [Table.find?_insert]
    by_cases hkj : k = j
    · subst hkj
      rw [if_pos rfl]
      have hfirst : asked.find? (fun q => q.stand m directory = some k) = none :=
        List.find?_eq_none.mpr fun q hq => by simpa using hnew q hq
      rw [List.find?_append, hfirst, Option.none_or, List.find?_singleton,
        if_pos (decide_eq_true hk)] at hq
      cases hq
      exact ⟨s, hs, rfl⟩
    · rw [if_neg hkj]
      refine h.filled j q ?_
      have hr : decide (r.stand m directory = some j) = false :=
        decide_eq_false fun hrj => hkj (Option.some.inj (hk.symm.trans hrj))
      rw [List.find?_append, List.find?_singleton, hr] at hq
      simpa using hq
  · rw [Table.find?_insert, if_neg]
    · exact h.other j fun q hq => hj q (List.mem_append_left _ hq)
    · rintro rfl
      exact hj r (List.mem_append_right _ List.mem_cons_self) hk

lemma key_eq (h : Filed d m directory asked e) (hready : Ready d m directory requests)
    (hk : r.stand m directory = some k) :
    e.key (r.file directory) = .ok k ∨
      Disk.Astray (e.key (r.file directory)) ∧ ∀ q ∈ asked, q.stand m directory = none := by
  have hm := stand_eq_some.mp hk
  obtain heq | ⟨rfl, hnone⟩ := h.directories
  · exact .inl (Disk.key_eq_ok_mono (fun _ hj => heq ▸ hj) hm)
  · rcases Disk.key_mono (h.subset hready).2 (r.file directory) with hsame | hastray
    · exact .inl (hsame.symm.trans hm)
    · exact .inr ⟨hastray, hnone⟩

lemma key_error (h : Filed d m directory asked e) (hready : Ready d m directory requests)
    (hk : r.stand m directory = none) : ∃ f, e.key (r.file directory) = .error f := by
  cases hkey : e.key (r.file directory) with
  | error f => exact ⟨f, rfl⟩
  | ok k =>
    rw [stand_eq_some.mpr (Disk.key_eq_ok_mono (h.subset hready).2 hkey)] at hk
    cases hk

lemma isFileKey_eq (h : Filed d m directory asked e) (hready : Ready d m directory requests)
    (hnew : ∀ q ∈ asked, q.stand m directory ≠ some k) : e.isFileKey k = m.isFileKey k := by
  simp only [Disk.isFileKey, Table.contains]
  rw [h.other k hnew, hready.grown.files]

lemma load_eq (h : Filed d m directory asked e) (hready : Ready d m directory requests)
    (hasked : ∀ q ∈ asked, q ∈ requests) {s : Storage} (hs : r.load d = .ok s) :
    r.load e = .ok s := by
  have hread : ∃ content, d.read r.feed = .ok content := by
    cases hd : d.read r.feed with
    | ok content => exact ⟨content, rfl⟩
    | error f =>
      obtain ⟨f', hf⟩ := Disk.readOr_of_error hd (.format (.unreadableFeed r.feed))
      rw [Request.load, Feed.load, Feed.readFrom, hf] at hs
      cases hs
  obtain ⟨content, hd⟩ := hread
  obtain ⟨k, hk, hcontent⟩ := Disk.read_eq_ok hd
  -- The file of a feed was there at first, so it is no cache file.
  have hnew : ∀ q ∈ asked, q.stand m directory ≠ some k := by
    intro q hq hstand
    have hfile := (hready.vacant q (hasked q hq) k (stand_eq_some.mp hstand)).1
    rw [Disk.isFileKey, Table.contains] at hfile
    rw [hready.grown.files, hcontent] at hfile
    cases hfile
  have he : e.read r.feed = .ok content :=
    Disk.read_of_key (Disk.key_eq_ok_mono (h.subset hready).1 hk) ((h.other k hnew).trans hcontent)
  rw [Request.load, Feed.load, Feed.readFrom, Disk.readOr_of_ok hd] at hs
  rw [Request.load, Feed.load, Feed.readFrom, Disk.readOr_of_ok he]
  exact hs

lemma makeDirectory_eq (h : Filed d m directory asked e) (hready : Ready d m directory requests) :
    outcome (makeDirectory directory) e = (.ok ⟨⟩, { m with files := e.files }) := by
  obtain heq | ⟨rfl, _⟩ := h.directories
  · obtain ⟨kd, hkd, hfile, hdirectory⟩ := Disk.kind_eq_ok hready.kind
    have hnew : ∀ q ∈ asked, q.stand m directory ≠ some kd := by
      intro q _ hq
      have hchild := Disk.key_child q.fileName_ne hkd (stand_eq_some.mp hq)
      exact absurd (congrArg List.length hchild) (by simp)
    have hmissing : e.isFileKey kd = false := by
      rw [h.isFileKey_eq hready hnew]
      exact Bool.eq_false_iff.mpr fun hf => nomatch hfile.mpr hf
    have hkind : e.kind directory = .ok .directory := by
      refine Disk.kind_of_key (Disk.key_eq_ok_mono (fun _ hj => heq ▸ hj) hkd) hmissing ?_
      rw [Disk.isDirectoryKey_congr heq]
      exact hdirectory rfl
    rw [outcome_makeDirectory_of_directory hkind, ← heq]
  · rw [hready.made, ← hready.grown.files]

lemma present_of_new (h : Filed d m directory asked e) (hready : Ready d m directory requests)
    (hr : r ∈ requests) (hk : r.stand m directory = some k)
    (hnew : ∀ q ∈ asked, q.stand m directory ≠ some k) :
    e.present (r.file directory) = .ok false := by
  obtain ⟨hfile, hdirectory⟩ := hready.vacant r hr k (stand_eq_some.mp hk)
  rcases h.key_eq hready hk with hkey | ⟨hastray, _⟩
  · have hempty : e.isDirectoryKey k = false := by
      refine Bool.eq_false_iff.mpr fun he => ?_
      rw [Disk.isDirectoryKey_mono (h.subset hready).2 he] at hdirectory
      cases hdirectory
    rw [Disk.present_of_key hkey, h.isFileKey_eq hready hnew, hfile, hempty]
    rfl
  · exact Disk.present_of_astray hastray

lemma find_eq (h : Filed d m directory asked e) (hready : Ready d m directory requests)
    (hk : r.stand m directory = some k) {q : Request}
    (hq : asked.find? (fun q => q.stand m directory = some k) = some q) :
    e.present (r.file directory) = .ok true ∧
      ∃ s t, q.load d = .ok s ∧ Cache.load e (r.file directory) = .ok t ∧ t.find? = s.find? := by
  obtain ⟨s, hs, hcontent⟩ := h.filled k q hq
  have hkey : e.key (r.file directory) = .ok k := by
    rcases h.key_eq hready hk with hkey | ⟨_, hnone⟩
    · exact hkey
    · obtain ⟨hmem, hstand⟩ := stand_of_find? hq
      rw [hnone q hmem] at hstand
      cases hstand
  refine ⟨?_, ?_⟩
  · rw [Disk.present_of_key hkey]
    simp [Disk.isFileKey, Table.contains, hcontent]
  · obtain ⟨t, ht, hfind⟩ :=
      Cache.load_of_read (Feed.proper_load hs) (Disk.read_of_key hkey hcontent)
    exact ⟨s, t, hs, ht, hfind⟩

lemma outcome_fill (h : Filed d m directory asked e) (hready : Ready d m directory requests)
    (hasked : ∀ q ∈ asked, q ∈ requests) {c : Cache} (hc : c.directory = directory) {s : Storage}
    (hs : r.load d = .ok s) :
    outcome (c.fill r.feed r.height) e =
      match outcome (Filing.write (r.file directory) (Cache.contentOf s))
        { m with files := e.files } with
      | (.ok _, n) => (.ok s, n)
      | (.error f, n) => (.error f, n) := by
  subst hc
  have hload : Feed.load e r.feed r.height = .ok s := h.load_eq hready hasked hs
  have hparent : (c.pathFor r.feed r.height).parent = c.directory := parent_file c.directory r
  have hcontent : (Utf8.encode? (Cache.serialize s)).getD [] = Cache.contentOf s := rfl
  have hfile : c.pathFor r.feed r.height = r.file c.directory := rfl
  simp only [Cache.fill, Cache.save]
  simp only [outcome_bind, outcome_lift, hload, hparent, h.makeDirectory_eq hready, hcontent,
    outcome_pure]
  rw [hfile]
  rcases outcome (Filing.write (r.file c.directory) (Cache.contentOf s)) _ with ⟨_ | _, n⟩ <;> rfl

lemma outcome_fill_of_new (h : Filed d m directory asked e)
    (hready : Ready d m directory requests) (hasked : ∀ q ∈ asked, q ∈ requests)
    (hr : r ∈ requests) {c : Cache} (hc : c.directory = directory) {s : Storage}
    (hs : r.load d = .ok s) (hk : r.stand m directory = some k) :
    outcome (c.fill r.feed r.height) e =
      (.ok s, { m with files := Table.insert k (Cache.contentOf s) e.files }) := by
  have hm := stand_eq_some.mp hk
  have hkey : Disk.key { m with files := e.files } (r.file directory) = .ok k :=
    Disk.key_eq_ok_mono (d := m) (m := { m with files := e.files }) (fun _ hj => hj) hm
  have hdirectory : Disk.isDirectoryKey { m with files := e.files } k = false :=
    (hready.vacant r hr k hm).2
  rw [h.outcome_fill hready hasked hc hs, outcome_write, hkey]
  simp only [hdirectory, Bool.false_eq_true, if_false]

lemma outcome_fill_of_none (h : Filed d m directory asked e)
    (hready : Ready d m directory requests) (hasked : ∀ q ∈ asked, q ∈ requests)
    {c : Cache} (hc : c.directory = directory) {s : Storage}
    (hs : r.load d = .ok s) (hk : r.stand m directory = none) :
    ∃ f, outcome (c.fill r.feed r.height) e = (.error f, { m with files := e.files }) := by
  rw [h.outcome_fill hready hasked hc hs, outcome_write]
  cases hkey : Disk.key { m with files := e.files } (r.file directory) with
  | error f => exact ⟨f, rfl⟩
  | ok k =>
    have hm : m.key (r.file directory) = .ok k :=
      Disk.key_eq_ok_mono (d := { m with files := e.files }) (m := m) (fun _ hj => hj) hkey
    rw [stand_eq_some.mpr hm] at hk
    cases hk

end Filed

end Files

end ChainReplay
