import DefectLog.Disk.Saving
import DefectLog.Proofs.Disk.Making

-- Saving a report succeeds completely or harms nothing.
namespace DefectLog.Saving

open Disk

-- The report is the only file that has changed. It lies at the place that its path names, where no directory was,
-- and the directories that it lies in are there. Those of them that were missing are all that is new besides it.
structure Saved (path : Path) (content : Content) (d d' : Disk) (place : Place) : Prop where
  target   : d'.target path = .ok (some place)
  file     : d'.node? place = some (.file content)
  replaced : d.node? place ≠ some .directory
  parents  : ∀ parts, parts <+: path.parent.parts → ∃ p, d'.walk { path with parts } = .ok p
  old      : ∀ p n, p ≠ place → d.node? p = some n → d'.node? p = some n
  new      : ∀ p n, p ≠ place → d.node? p = none → d'.node? p = some n →
    n = .directory ∧ ∃ parts, parts <+: path.parent.parts ∧ d'.walk { path with parts } = .ok p
  here     : d'.here = d.here
  tree     : d'.IsTree

-- Nothing that was there has changed. Directories that the report would lie in may be new, without a file in them.
structure Refused (path : Path) (d d' : Disk) : Prop where
  old   : ∀ p n, d.node? p = some n → d'.node? p = some n
  new   : ∀ p n, d.node? p = none → d'.node? p = some n →
    n = .directory ∧ ∃ parts, parts <+: path.parent.parts ∧ d'.walk { path with parts } = .ok p
  empty : ∀ p q content, d.node? p = none → p <:+ q → d'.node? q ≠ some (.file content)
  here  : d'.here = d.here
  tree  : d'.IsTree

-- What the encoding and then the attempt to write decide about the result and about the disk.
def Sound (encode : Encoder) (document : Document) (path : Path) (d : Disk) (s : Saving) : Prop :=
  match encode document with
  | .error cause     => s.result = .error (.notWritten path cause) ∧ s.disk = d
  | .ok (content, _) =>
    match (attempt path content).run d with
    | (.ok (), _)                     => s.result = .ok path ∧ ∃ place, Saved path content d s.disk place
    | (.error (.refused reason q), _) =>
      s.result = .error (.notWritten path (.disk reason q)) ∧ Refused path d s.disk
    | (.error .nullByte, _)           => False

-- What the attempt to write a report comes to.
inductive Writes (path : Path) (content : Content) (d : Disk) : Except DiskFault Unit × Disk → Prop
  | done (h : Saved path content d d' place) : Writes path content d (.ok (), d')
  | refused (h : Refused path d d') (reason : Reason) (q : Path) :
    Writes path content d (.error (.refused reason q), d')

variable {path : Path} {content : Content} {d d' : Disk} {place : Place}

theorem refused_of_grows (hd : d.IsTree) (hg : Grows path.parent d d') : Refused path d d' where
  old   := hg.old
  new   := hg.new
  empty := by
    intro p q content hp hs hf
    -- What lies below a missing place was missing as well, so it is new.
    have hq : d.node? q = none := by
      by_contra hq
      exact hd.of_suffix hq hs hp
    have ⟨hn, _⟩ := hg.new q _ hq hf
    cases hn
  here  := hg.here
  tree  := hg.tree hd

theorem saved_put {outer : Place} (hd : d.IsTree) (hg : Grows path.parent d d') (hw : d'.walk path.parent = .ok outer)
    (ht : d'.target path = .ok (some place)) (hn : d'.node? place ≠ some .directory) :
    Saved path content d (d'.put place (.file content)) place := by
  have hk : Keeps d' (d'.put place (.file content)) := keeps_put hn
  refine ⟨hk.target ht, node?_put_self (ne_root_of_target ht), ?replaced, ?parents, ?old, ?new, hg.here, ?tree⟩
  case tree     => exact (hg.tree hd).put hn ht
  case replaced => exact fun h => hn (hg.old place _ h)
  case parents =>
    intro parts hs
    exact (exists_walk (hk.walk hw) hs :)
  case old =>
    intro p n hp h
    rw [node?_put_of_ne hp]
    exact hg.old p n h
  case new =>
    intro p n hp h hnew
    rw [node?_put_of_ne hp] at hnew
    have ⟨hn, parts, hs, hw⟩ := hg.new p n h hnew
    exact ⟨hn, parts, hs, hk.walk hw⟩

theorem writes_attempt (hp : path.Clean) (hd : d.IsTree) (content : Content) :
    Writes path content d ((attempt path content).run d) := by
  have hm := makes_ensureParents hp d
  rw [attempt, Running.run_bind]
  generalize hr : (ensureParents path).run d = r at hm
  cases hm
  case refused d' hg reason q => exact .refused (refused_of_grows hd hg) reason q
  case done d' outer hg hw =>
    cases writeFile_run hp content d'
    case inl h =>
      have ⟨place, ht, hn, hr⟩ := h
      simp only [hr]
      exact .done (saved_put hd hg hw ht hn)
    case inr h =>
      have ⟨reason, hr⟩ := h
      simp only [hr]
      exact .refused (refused_of_grows hd hg) reason path

theorem sound_save (hp : path.Clean) (hd : d.IsTree) (encode : Encoder) (document : Document) :
    Sound encode document path d (save encode document path d) := by
  unfold Sound save
  cases encode document
  case error cause => exact ⟨rfl, rfl⟩
  case ok encoded =>
    have hw := writes_attempt hp hd encoded.1
    simp only [write, after]
    generalize hr : (attempt path encoded.1).run d = r at hw
    cases hw
    case done h             => exact ⟨rfl, _, h⟩
    case refused h reason q => exact ⟨rfl, h⟩

-- On every tree, and for every path without a null character, saving ends in one of three ways.
theorem sound_of_tree (hp : '\x00' ∉ path.text.toList) (hd : d.IsTree) (document : Document) :
    Sound wordEncoder document path d (word document path d) ∧
    Sound previewEncoder document path d (preview document path d) := by
  have hc : path.Clean := Path.clean_iff.mpr hp
  exact ⟨sound_save hc hd wordEncoder document, sound_save hc hd previewEncoder document⟩

-- An older report lies in the working directory.
def storing : Disk :=
  (bare ["work"]).put ["old.docx", "work"] (.file (.bytes [80, 75]))

def blank : Document where
  defaults := { font := "Calibri", size := 22 }
  page     := { width := 12240, height := 15840, margins := { top := 720, bottom := 720, left := 720, right := 720 } }

-- A path through two directories that are missing.
def nested : Path :=
  .ofText "2024/../reports/new.docx"

theorem sound_of_tree_nested : '\x00' ∉ nested.text.toList ∧ storing.IsTree ∧
    (Sound wordEncoder blank nested storing (word blank nested storing) ∧
    Sound previewEncoder blank nested storing (preview blank nested storing)) ∧
    (word blank nested storing).result = .ok nested := by
  have hp : '\x00' ∉ nested.text.toList := by decide +kernel
  have ht : (bare ["work"]).target (.ofText "old.docx") = .ok (some ["old.docx", "work"]) := by decide +kernel
  have hn : ¬["old.docx", "work"] <:+ ["work"] := by decide
  have hd : storing.IsTree := (isTree_bare ["work"]).put (by simp [node?_bare, hn]) ht
  exact ⟨hp, hd, sound_of_tree hp hd blank, by decide +kernel⟩

end DefectLog.Saving
