import DefectLog.Proofs.Disk.Tree
import DefectLog.Proofs.Running

-- What making directories and writing a file do to a disk.
namespace DefectLog.Disk

open Success Running

-- What an attempt to have a directory comes to: a path leads there, or the system has refused something.
inductive Makes (path : Path) (d : Disk) : Except DiskFault Unit × Disk → Prop
  | done (hg : Grows path d d') (hw : d'.walk path = .ok place) : Makes path d (.ok (), d')
  | refused (hg : Grows path d d') (reason : Reason) (q : Path) : Makes path d (.error (.refused reason q), d')

variable {path : Path} {d d' : Disk} {place : Place}

-- Only a path with a null character does not reach the system.
theorem checkPath_cases (hp : path.Clean) :
    checkPath path = .ok () ∨ checkPath path = .error (.refused .nameTooLong path) := by
  rw [checkPath, if_neg (Path.clean_iff.mp hp)]
  exact (ite_eq_or_eq ..).symm

namespace Makes

variable {outer : Path} {x y : Attempt Unit} {handler : DiskFault → Attempt Unit}

theorem trans (hg : Grows path d d') {r : Except DiskFault Unit × Disk} (h : Makes path d' r) : Makes path d r := by
  cases h
  case done hg' hw     => exact .done (hg.trans hg') hw
  case refused hg' r q => exact .refused (hg.trans hg') r q

theorem tryCatch (h : Makes path d (x.run d))
    (hh : ∀ reason q d', Makes path d' ((handler (.refused reason q)).run d')) :
    Makes path d ((MonadExcept.tryCatch x handler).run d) := by
  rw [run_tryCatch]
  generalize hr : x.run d = r at h
  cases h
  case done hg hw             => exact .done hg hw
  case refused d' hg reason q => exact trans hg (hh reason q d')

-- A directory is made in one that is made before it.
theorem within (h : Makes outer d (x.run d)) (ha : outer.anchor = path.anchor) (hp : outer.parts <+: path.parts)
    (hy : ∀ d', Makes path d' (y.run d')) : Makes path d ((x >>= fun _ => y).run d) := by
  rw [run_bind]
  generalize hr : x.run d = r at h
  cases h
  case done d' place hg hw    => exact trans (hg.mono ha hp) (hy d')
  case refused d' hg reason q => exact .refused (hg.mono ha hp) reason q

theorem checked (hp : path.Clean) (h : Makes path d (x.run d)) :
    Makes path d (ExceptT.run (do checkPath path; x : Attempt Unit) d) := by
  rw [run_bind, run_lift]
  cases checkPath_cases hp
  case inl hc => simpa only [hc] using h
  case inr hc =>
    simp only [hc]
    exact .refused (.refl path d) ..

-- A directory that is put where a path says.
theorem put (ht : d.target path = .ok (some place)) (hn : d.node? place = none) :
    Makes path d (.ok (), d.put place .directory) := by
  have hg : Grows path d (d.put place .directory) := .put ht hn
  have hd : (d.put place .directory).node? place = some .directory := node?_put_self (ne_root_of_target ht)
  exact .done hg (walk_of_target (hg.keeps.target ht) hd)

end Makes

theorem makes_makeDirectory (hp : path.Clean) (d : Disk) : Makes path d ((makeDirectory path).run d) := by
  refine .checked hp ?_
  simp only [run_bind, run_lift, run_get]
  cases ht : d.target path
  case error => exact .refused (.refl path d) ..
  case ok t =>
    cases t
    case none => exact .refused (.refl path d) ..
    case some place =>
      simp only [refuse]
      cases hn : d.node? place
      case some => exact .refused (.refl path d) ..
      case none => exact .put ht hn

theorem makes_checkDirectory (hp : path.Clean) (reason : Reason) (q : Path) (d : Disk) :
    Makes path d ((checkDirectory path (.refused reason q)).run d) := by
  refine .checked hp ?_
  simp only [run_bind, run_get]
  cases hw : d.walk path
  case ok place     => exact .done (.refl path d) hw
  case error reason => cases reason <;> exact .refused (.refl path d) ..

theorem makes_ensureDirectory (hp : path.Clean) (d : Disk) : Makes path d ((ensureDirectory path).run d) := by
  refine (makes_makeDirectory hp d).tryCatch ?_
  intro reason q d'
  cases reason
  case missing => exact .refused (.refl path d') ..
  all_goals exact makes_checkDirectory hp _ q d'

theorem makes_ensureAll {anchor : Anchor} {names : List String} (hp : Path.Clean { anchor, parts := names.reverse })
    (d : Disk) : Makes { anchor, parts := names.reverse } d ((ensureAll anchor names).run d) := by
  induction names generalizing d
  case nil => exact makes_ensureDirectory hp d
  case cons name outer hi =>
    have hs : outer.reverse <+: (name :: outer).reverse := by simp
    have ho : Path.Clean { anchor, parts := outer.reverse } := fun part h => hp part (hs.mem h)
    refine (makes_ensureDirectory hp d).tryCatch ?_
    intro reason q d'
    cases reason
    case missing => exact (hi ho d').within rfl hs (makes_ensureDirectory hp)
    all_goals exact .refused (.refl _ d') ..

theorem makes_ensureParents (hp : path.Clean) (d : Disk) : Makes path.parent d ((ensureParents path).run d) := by
  have hc : Path.Clean { path.parent with parts := path.parent.parts.reverse.reverse } := by
    rw [List.reverse_reverse]
    exact fun part h => hp part (List.dropLast_subset _ h)
  have hm := makes_ensureAll hc d
  rwa [List.reverse_reverse] at hm

-- A file is written where its path says, or the disk stays as it is.
theorem writeFile_run (hp : path.Clean) (content : Content) (d : Disk) :
    (∃ place, d.target path = .ok (some place) ∧ d.node? place ≠ some .directory ∧
      (writeFile path content).run d = (.ok (), d.put place (.file content))) ∨
    ∃ reason, (writeFile path content).run d = (.error (.refused reason path), d) := by
  unfold writeFile
  simp only [run_bind, run_lift, run_get]
  cases checkPath_cases hp
  case inr h =>
    simp only [h]
    exact .inr ⟨_, rfl⟩
  case inl h =>
    simp only [h]
    cases ht : d.target path
    case error => exact .inr ⟨_, rfl⟩
    case ok t =>
      cases t
      case none => exact .inr ⟨_, rfl⟩
      case some place =>
        simp only [refuse]
        split
        case h_1    => exact .inr ⟨_, rfl⟩
        case h_2 hn => exact .inl ⟨place, rfl, hn, rfl⟩

end DefectLog.Disk
