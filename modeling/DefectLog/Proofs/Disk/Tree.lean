import DefectLog.Disk.Basic
import DefectLog.Proofs.Success

-- Where paths lead on a disk, and what remains of that as the disk grows.
namespace DefectLog

namespace Path

variable {p : Path}

-- No part of the path has a null character.
def Clean (p : Path) : Prop :=
  ∀ part ∈ p.parts, '\x00' ∉ part.toList

theorem toList_joined (p : Path) : (p.anchor.text ++ "/".intercalate p.parts).toList =
    p.anchor.text.toList ++ ['/'].intercalate (p.parts.map (·.toList)) := by
  rw [String.toList_append, String.toList_intercalate]
  rfl

theorem mem_intercalate {c : Char} (hc : c ≠ '/') (parts : List (List Char)) :
    c ∈ ['/'].intercalate parts ↔ ∃ part ∈ parts, c ∈ part := by
  induction parts
  case nil => simp [List.intercalate]
  case cons part parts hi =>
    cases parts
    case nil       => simp [List.intercalate]
    case cons _ ps => simp_all [List.intercalate]

theorem mem_text {c : Char} (hc : c ∉ ['/', '.']) : c ∈ p.text.toList ↔ ∃ part ∈ p.parts, c ∈ part.toList := by
  have ⟨hslash, hdot⟩ : c ≠ '/' ∧ c ≠ '.' := by simpa using hc
  have hanchor : c ∉ p.anchor.text.toList := by cases p.anchor <;> simp [Anchor.text, hslash]
  have hj : c ∈ (p.anchor.text ++ "/".intercalate p.parts).toList ↔ ∃ part ∈ p.parts, c ∈ part.toList := by
    rw [toList_joined, List.mem_append, mem_intercalate hslash]
    simp [hanchor]
  simp only [text]
  split
  case isTrue h  => simp [← hj, h, hdot]
  case isFalse h => exact hj

theorem clean_iff : p.Clean ↔ '\x00' ∉ p.text.toList := by
  simp [Clean, mem_text (p := p) (c := '\x00') (by decide)]

theorem mem_of_mem_segments {s part : List Char} (hp : part ∈ segments s) : ∀ c ∈ part, c ∈ s := by
  induction s generalizing part
  case nil =>
    simp only [segments, List.mem_singleton] at hp
    simp [hp]
  case cons c s hi =>
    unfold segments at hp
    split at hp
    case isTrue =>
      cases List.mem_cons.mp hp
      case inl he => simp [he]
      case inr hm => exact fun d hd => List.mem_cons_of_mem _ (hi hm d hd)
    case isFalse =>
      split at hp
      case h_1 =>
        simp only [List.mem_singleton] at hp
        simp [hp]
      case h_2 first rest hs =>
        cases List.mem_cons.mp hp
        case inl he =>
          subst he
          refine List.forall_mem_cons.mpr ⟨List.mem_cons_self, fun d hd => ?_⟩
          exact List.mem_cons_of_mem _ (hi (hs ▸ List.mem_cons_self) d hd)
        case inr hm => exact fun d hd => List.mem_cons_of_mem _ (hi (hs ▸ List.mem_cons_of_mem _ hm) d hd)

theorem clean_ofText {s : String} (h : '\x00' ∉ s.toList) : (ofText s).Clean := by
  intro part hp hc
  obtain ⟨segment, hs, rfl⟩ := List.mem_map.mp hp
  rw [String.toList_ofList] at hc
  exact h (mem_of_mem_segments (List.mem_of_mem_filter hs) _ hc)

end Path

namespace Disk

open Success

variable {d d' : Disk} {p q place outer : Place} {path : Path} {name : String} {n : Node}

@[simp] theorem node?_root (d : Disk) : d.node? [] = some .directory :=
  if_pos rfl

theorem lookup_filter {entries : List (Place × Node)} (h : q ≠ p) :
    (entries.filter (·.1 ≠ p)).lookup q = entries.lookup q := by
  induction entries
  case nil => rfl
  case cons e entries hi =>
    by_cases he : e.1 = p
    case pos =>
      have hq : (q == e.1) = false := beq_eq_false_iff_ne.mpr fun hq => h (hq.trans he)
      rw [List.filter_cons_of_neg (by simpa using he), hi, List.lookup_cons, hq]
    case neg => rw [List.filter_cons_of_pos (by simpa using he), List.lookup_cons, List.lookup_cons, hi]

theorem node?_put_self (hp : p ≠ []) : (d.put p n).node? p = some n := by
  rw [node?, if_neg hp, put, List.lookup_cons_self]

theorem node?_put_of_ne (h : q ≠ p) : (d.put p n).node? q = d.node? q := by
  have hq : (q == p) = false := beq_eq_false_iff_ne.mpr h
  simp only [node?, put, List.lookup_cons, hq]
  rw [lookup_filter h]

-- What lies at a place lies in a directory, and so does the working directory.
structure IsTree (d : Disk) : Prop where
  here  : d.node? d.here = some .directory
  outer : ∀ name p, d.node? (name :: p) ≠ none → d.node? p = some .directory

theorem IsTree.of_suffix (h : d.IsTree) (hq : d.node? q ≠ none) (hs : p <:+ q) : d.node? p ≠ none := by
  induction q
  case nil => exact List.suffix_nil.mp hs ▸ hq
  case cons name q hi =>
    cases List.suffix_cons_iff.mp hs
    case inl he => exact he ▸ hq
    case inr hs => exact hi (by simp [h.outer name q hq]) hs

theorem IsTree.tail (h : d.IsTree) (hp : d.node? p = some .directory) : d.node? p.tail = some .directory := by
  cases p
  case nil         => exact hp
  case cons name p => exact h.outer name p (by simp [hp])

theorem lookup_chain {here : Place} (hp : p ≠ []) :
    (bare.chain here).lookup p = if p <:+ here then some .directory else none := by
  induction here
  case nil => simp [bare.chain, hp]
  case cons name here hi =>
    rw [bare.chain, List.lookup_cons]
    split
    case h_1 he =>
      rw [beq_iff_eq.mp he, if_pos (List.suffix_refl _)]
    case h_2 he =>
      have hne : p ≠ name :: here := by simpa using he
      simp [hi, List.suffix_cons_iff, hne]

theorem node?_bare {here : Place} : (bare here).node? p = if p <:+ here then some .directory else none := by
  unfold node?
  split
  case isTrue h  => simp [h]
  case isFalse h => exact lookup_chain h

theorem isTree_bare (here : Place) : (bare here).IsTree where
  here  := by rw [node?_bare]; exact if_pos (List.suffix_refl _)
  outer := by
    intro name p h
    rw [node?_bare] at h ⊢
    split at h
    case isTrue hs => exact if_pos ((List.suffix_cons name p).trans hs)
    case isFalse   => exact (h rfl).elim

theorem enter_eq_ok : d.enter p name = .ok q ↔
    (name = ".." ∧ q = p.tail) ∨
    (name ≠ ".." ∧ checkName name = .ok () ∧ q = name :: p ∧ d.node? q = some .directory) := by
  unfold enter
  split
  case isTrue hn => simp [hn, eq_comm]
  case isFalse hn =>
    simp only [hn, false_and, false_or, ne_eq, not_false_eq_true, true_and, bind_eq_ok]
    constructor
    case mp =>
      intro ⟨_, hc, h⟩
      split at h
      case h_2 hd =>
        cases h
        exact ⟨hc, rfl, hd⟩
      all_goals cases h
    case mpr =>
      intro ⟨hc, hq, hd⟩
      subst hq
      exact ⟨(), hc, by rw [hd]; rfl⟩

-- Directories stay where they are, and so does the working directory.
structure Keeps (d d' : Disk) : Prop where
  here        : d'.here = d.here
  directories : ∀ p, d.node? p = some .directory → d'.node? p = some .directory

theorem Keeps.enter (h : Keeps d d') (he : d.enter p name = .ok q) : d'.enter p name = .ok q := by
  rw [enter_eq_ok] at he ⊢
  exact he.imp_right fun ⟨hn, hc, hq, hd⟩ => ⟨hn, hc, hq, h.directories q hd⟩

theorem Keeps.foldlM {names : List String} (h : Keeps d d') (hw : names.foldlM d.enter p = .ok q) :
    names.foldlM d'.enter p = .ok q := by
  induction names generalizing p
  case nil => exact hw
  case cons name names hi =>
    rw [List.foldlM_cons, bind_eq_ok] at hw ⊢
    have ⟨outer, he, hw⟩ := hw
    exact ⟨outer, h.enter he, hi hw⟩

-- A path leads to the same directory as before.
theorem Keeps.walk (h : Keeps d d') (hw : d.walk path = .ok q) : d'.walk path = .ok q := by
  have hs : d'.start path.anchor = d.start path.anchor := by cases path.anchor <;> simp [start, h.here]
  rw [Disk.walk, hs]
  exact h.foldlM hw

theorem IsTree.start (h : d.IsTree) (anchor : Anchor) : d.node? (d.start anchor) = some .directory := by
  cases anchor
  case here => exact h.here
  all_goals exact node?_root d

theorem IsTree.foldlM {names : List String} (h : d.IsTree) (hp : d.node? p = some .directory)
    (hw : names.foldlM d.enter p = .ok q) : d.node? q = some .directory := by
  induction names generalizing p
  case nil =>
    cases hw
    exact hp
  case cons name names hi =>
    rw [List.foldlM_cons, bind_eq_ok] at hw
    have ⟨outer, he, hw⟩ := hw
    refine hi ?_ hw
    cases enter_eq_ok.mp he
    case inl he => exact he.right ▸ h.tail hp
    case inr he => exact he.right.right.right

-- What a path leads to is a directory.
theorem IsTree.walk (h : d.IsTree) (hw : d.walk path = .ok q) : d.node? q = some .directory :=
  h.foldlM (h.start path.anchor) hw

-- A path leads through directories only.
theorem exists_walk {parts : List String} (hw : d.walk path = .ok q) (hs : parts <+: path.parts) :
    ∃ p, d.walk { path with parts } = .ok p := by
  have ⟨rest, he⟩ := hs
  rw [Disk.walk, ← he, List.foldlM_append, bind_eq_ok] at hw
  have ⟨p, hp, _⟩ := hw
  exact ⟨p, hp⟩

theorem walk_eq (hp : path.parts.getLast? = some name) :
    d.walk path = d.walk path.parent >>= fun outer => d.enter outer name := by
  have ⟨parts, he⟩ := List.getLast?_eq_some_iff.mp hp
  rw [walk, walk, Path.parent, he, List.dropLast_concat, List.foldlM_append]
  simp

-- What a path names lies in the directory that its parent leads to.
theorem target_eq_ok : d.target path = .ok (some place) ↔ ∃ name outer, path.parts.getLast? = some name ∧
    d.walk path.parent = .ok outer ∧ name ≠ ".." ∧ checkName name = .ok () ∧ place = name :: outer := by
  unfold target
  cases path.parts.getLast?
  case none => simp
  case some name =>
    simp only [bind_eq_ok, Option.some.injEq]
    constructor
    case mp =>
      intro ⟨outer, hw, h⟩
      split at h
      case isTrue  => cases h
      case isFalse hn =>
        simp only [bind_eq_ok, pure_eq_ok] at h
        have ⟨_, hc, h⟩ := h
        exact ⟨name, outer, rfl, hw, hn, hc, (Option.some.inj h).symm⟩
    case mpr =>
      intro ⟨_, outer, rfl, hw, hn, hc, hp⟩
      refine ⟨outer, hw, ?_⟩
      rw [if_neg hn, hc, hp]
      rfl

theorem ne_root_of_target (h : d.target path = .ok (some place)) : place ≠ [] := by
  have ⟨_, _, _, _, _, _, hp⟩ := target_eq_ok.mp h
  exact hp ▸ List.cons_ne_nil _ _

-- The directory in which something is named stays where it is.
theorem Keeps.target (h : Keeps d d') (ht : d.target path = .ok (some place)) : d'.target path = .ok (some place) := by
  have ⟨name, outer, hl, hw, hn, hc, hp⟩ := target_eq_ok.mp ht
  exact target_eq_ok.mpr ⟨name, outer, hl, h.walk hw, hn, hc, hp⟩

theorem walk_of_target (ht : d.target path = .ok (some place)) (hd : d.node? place = some .directory) :
    d.walk path = .ok place := by
  have ⟨name, outer, hl, hw, hn, hc, hp⟩ := target_eq_ok.mp ht
  rw [walk_eq hl, bind_eq_ok]
  exact ⟨outer, hw, enter_eq_ok.mpr (.inr ⟨hn, hc, hp, hd⟩)⟩

section

variable (hn : d.node? place ≠ some .directory)
include hn

theorem directories_put (hp : d.node? p = some .directory) : (d.put place n).node? p = some .directory := by
  have hne : p ≠ place := fun he => hn (he ▸ hp)
  rw [node?_put_of_ne hne, hp]

theorem keeps_put : Keeps d (d.put place n) where
  here        := rfl
  directories := fun _ => directories_put hn

-- The disk stays a tree when something is put where no directory was.
theorem IsTree.put (h : d.IsTree) (ht : d.target path = .ok (some place)) : (d.put place n).IsTree where
  here  := directories_put hn h.here
  outer := by
    intro name p hp
    have ⟨_, outer, _, hw, _, _, hplace⟩ := target_eq_ok.mp ht
    refine directories_put hn ?_
    by_cases he : name :: p = place
    case pos =>
      cases he.trans hplace
      exact h.walk hw
    case neg => exact h.outer name p (node?_put_of_ne he ▸ hp)

end

-- The disk gains directories that a path leads through, and nothing else happens to it.
structure Grows (path : Path) (d d' : Disk) : Prop where
  here : d'.here = d.here
  old  : ∀ p n, d.node? p = some n → d'.node? p = some n
  new  : ∀ p n, d.node? p = none → d'.node? p = some n →
    n = .directory ∧ ∃ parts, parts <+: path.parts ∧ d'.walk { path with parts } = .ok p
  tree : d.IsTree → d'.IsTree

namespace Grows

variable {path' : Path} {d'' : Disk}

theorem refl (path : Path) (d : Disk) : Grows path d d where
  here := rfl
  old  := fun _ _ => id
  new  := fun _ _ hp hn => by simp [hp] at hn
  tree := id

theorem keeps (h : Grows path d d') : Keeps d d' where
  here        := h.here
  directories := fun p => h.old p .directory

theorem trans (h : Grows path d d') (h' : Grows path d' d'') : Grows path d d'' where
  here := h'.here.trans h.here
  old  := fun p n hp => h'.old p n (h.old p n hp)
  new  := by
    intro p n hp hn
    cases hm : d'.node? p
    case none   => exact h'.new p n hm hn
    case some m =>
      have ⟨hd, parts, hs, hw⟩ := h.new p m hp hm
      have he := h'.old p m hm
      rw [hn, Option.some.injEq] at he
      exact ⟨he ▸ hd, parts, hs, h'.keeps.walk hw⟩
  tree := h'.tree ∘ h.tree

theorem mono (h : Grows path d d') (ha : path.anchor = path'.anchor) (hp : path.parts <+: path'.parts) :
    Grows path' d d' where
  here := h.here
  old  := h.old
  new  := by
    intro p n hp' hn
    have ⟨hd, parts, hs, hw⟩ := h.new p n hp' hn
    exact ⟨hd, parts, hs.trans hp, ha ▸ hw⟩
  tree := h.tree

theorem put (ht : d.target path = .ok (some place)) (hn : d.node? place = none) :
    Grows path d (d.put place .directory) where
  here := rfl
  old  := by
    intro p n hp
    have hne : p ≠ place := fun he => by simp [← he, hp] at hn
    rw [node?_put_of_ne hne, hp]
  new  := by
    intro p n hp hnew
    by_cases he : p = place
    case neg => simp [node?_put_of_ne he, hp] at hnew
    case pos =>
      subst he
      have hd := node?_put_self (n := .directory) (d := d) (ne_root_of_target ht)
      rw [hd, Option.some.injEq] at hnew
      have hk : Keeps d (d.put p .directory) := keeps_put (by simp [hn])
      exact ⟨hnew.symm, path.parts, List.prefix_refl _, walk_of_target (hk.target ht) hd⟩
  tree := fun h => h.put (by simp [hn]) ht

end Grows

end Disk
end DefectLog
