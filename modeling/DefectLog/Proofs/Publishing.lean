import DefectLog.Program
import DefectLog.Proofs.Disk.Saving
import DefectLog.Proofs.Word.Unresolved

-- What a run of the program comes to, and what its exit status and its log say about that.
namespace DefectLog

namespace Saving

open Disk

-- The file that a path names on a disk.
def Holds (d : Disk) (path : Path) (content : Content) : Prop :=
  ∃ place, d.target path = .ok (some place) ∧ d.node? place = some (.file content)

-- How an attempt to save a report ends.
inductive Ends (encode : Encoder) (document : Document) (path : Path) (d : Disk) (s : Saving) : Prop
  | saved (he : encode document = .ok (content, log)) (hr : s.result = .ok path)
    (h : Saved path content d s.disk place)
  | failed (hr : s.result = .error (.notWritten path cause)) (h : Refused path d s.disk)
    (hc : encode document = .error cause ∨ ∃ reason q, cause = .disk reason q)

section

variable {document : Document} {content : Content} {log : List Journal.Entry} {cause : Cause}

theorem wordEncoder_eq_ok : wordEncoder document = .ok (content, log) ↔
    ∃ r, Word.render document = .ok r ∧ .word r.package = content ∧ r.entries = log := by
  unfold wordEncoder
  cases Word.render document <;> simp

theorem wordEncoder_eq_error : wordEncoder document = .error cause ↔
    ∃ fault, Word.render document = .error fault ∧ .word fault = cause := by
  unfold wordEncoder
  cases Word.render document <;> simp

theorem previewEncoder_eq_ok : previewEncoder document = .ok (content, log) ↔
    ∃ r, Preview.render document = .ok r ∧ .preview r.package = content ∧ r.entries = log := by
  unfold previewEncoder
  cases Preview.render document <;> simp

theorem previewEncoder_eq_error : previewEncoder document = .error cause ↔
    ∃ fault, Preview.render document = .error fault ∧ .preview fault = cause := by
  unfold previewEncoder
  cases Preview.render document <;> simp

end

variable {path : Path} {content : Content} {d d' : Disk} {place : Place} {encode : Encoder} {document : Document}

theorem ends_save (hp : path.Clean) (hd : d.IsTree) (encode : Encoder) (document : Document) :
    Ends encode document path d (save encode document path d) := by
  have hs := sound_save hp hd encode document
  unfold Sound at hs
  cases he : encode document
  case error cause =>
    simp only [he] at hs
    have ⟨hr, hdisk⟩ := hs
    exact .failed hr (hdisk.symm ▸ refused_of_grows hd (.refl _ _)) (.inl he)
  case ok encoded =>
    simp only [he] at hs
    have hw := writes_attempt hp hd encoded.1
    generalize (attempt path encoded.1).run d = r at hs hw
    cases hw
    case done =>
      have ⟨hr, _, h⟩ := hs
      exact .saved he hr h
    case refused reason q =>
      have ⟨hr, h⟩ := hs
      exact .failed hr h (.inr ⟨reason, q, rfl⟩)

theorem Saved.keeps (h : Saved path content d d' place) : Keeps d d' where
  here        := h.here
  directories := fun p hp => h.old p _ (fun he => h.replaced (he ▸ hp)) hp

theorem Refused.keeps (h : Refused path d d') : Keeps d d' where
  here        := h.here
  directories := fun p => h.old p .directory

-- A file that is not the one that is saved stays.
theorem Holds.saved {other : Path} {old : Content} (hw : Holds d other old) (h : Saved path content d d' place)
    (hne : d'.target other ≠ d'.target path) : Holds d' other old := by
  have ⟨q, ht, hn⟩ := hw
  have ht' := h.keeps.target ht
  have hq : q ≠ place := fun he => hne (by rw [ht', h.target, he])
  exact ⟨q, ht', h.old q _ hq hn⟩

theorem Holds.refused {other : Path} (hw : Holds d other content) (h : Refused path d d') : Holds d' other content := by
  have ⟨q, ht, hn⟩ := hw
  exact ⟨q, h.keeps.target ht, h.old q _ hn⟩

-- All that a save which has failed leaves behind.
theorem Refused.node?_eq (h : Refused path d d') (p : Place) : d'.node? p = d.node? p ∨
    (d.node? p = none ∧ d'.node? p = some .directory ∧
      ∃ parts, parts <+: path.parent.parts ∧ d'.walk { path with parts } = .ok p) := by
  cases hp : d.node? p
  case some n => exact .inl (h.old p n hp)
  case none =>
    cases hp' : d'.node? p
    case none   => exact .inl rfl
    case some n =>
      have ⟨hn, hw⟩ := h.new p n hp hp'
      exact .inr ⟨rfl, congrArg some hn, hw⟩

end Saving

namespace Program

open Saving Success

-- An entry that reports neither the end of a run nor an error.
def Quiet (e : Journal.Entry) : Prop :=
  e.level < Journal.Level.error ∧ e.message ≠ doneEntry.message

def AllQuiet (entries : List Journal.Entry) : Prop :=
  ∀ e ∈ entries, Quiet e

theorem ne_done {message : String} (h : message.toList ≠ "Done".toList) : message ≠ doneEntry.message :=
  fun he => h (congrArg String.toList he)

theorem quiet_tableEntry (d : Defect) : Quiet d.tableEntry :=
  ⟨(by decide : Journal.Level.debug < Journal.Level.error), ne_done (by simp [Defect.tableEntry, toString])⟩

theorem quiet_unresolvedEntry (styleId : String) : Quiet (Word.unresolvedEntry styleId) :=
  ⟨(by decide : Journal.Level.warning < Journal.Level.error), ne_done (by simp [Word.unresolvedEntry, toString])⟩

theorem quiet_builtEntry (d : Document) : Quiet (Word.builtEntry d) :=
  ⟨(by decide : Journal.Level.debug < Journal.Level.error), ne_done (by simp [Word.builtEntry, toString])⟩

theorem quiet_savedEntry (path : Path) (content : Content) : Quiet (savedEntry path content) :=
  ⟨(by decide : Journal.Level.info < Journal.Level.error), ne_done (by simp [savedEntry, toString])⟩

theorem quiet_renderedEntry : Quiet Preview.renderedEntry :=
  ⟨by decide, by decide⟩

theorem allQuiet_assemble (sheet : Sheet) (title subtitle : String) (closing : Option String) (defects : List Defect) :
    AllQuiet (Report.assemble sheet title subtitle closing defects).entries := by
  refine List.forall_mem_append.mpr ⟨List.forall_mem_map.mpr fun d _ => quiet_tableEntry d, ?_⟩
  exact List.forall_mem_singleton.mpr
    ⟨(by decide : Journal.Level.debug < Journal.Level.error), ne_done (by simp [toString])⟩

theorem allQuiet_wordEncoder {document : Document} {content : Content} {log : List Journal.Entry}
    (h : wordEncoder document = .ok (content, log)) : AllQuiet log := by
  obtain ⟨r, hr, rfl, rfl⟩ := wordEncoder_eq_ok.mp h
  rw [Word.entries_of_render hr]
  exact List.forall_mem_append.mpr ⟨List.forall_mem_map.mpr fun id _ => quiet_unresolvedEntry id,
    List.forall_mem_singleton.mpr (quiet_builtEntry document)⟩

theorem allQuiet_previewEncoder {document : Document} {content : Content} {log : List Journal.Entry}
    (h : previewEncoder document = .ok (content, log)) : AllQuiet log := by
  obtain ⟨r, hr, rfl, rfl⟩ := previewEncoder_eq_ok.mp h
  simp only [Preview.render, bind_eq_ok, pure_eq_ok] at hr
  obtain ⟨_, -, _, -, _, -, _, -, _, -, _, -, _, -, rfl⟩ := hr
  exact List.forall_mem_singleton.mpr quiet_renderedEntry

theorem allQuiet_save {encode : Encoder} {document : Document} {path : Path} {disk : Disk}
    (hq : ∀ content log, encode document = .ok (content, log) → AllQuiet log) :
    AllQuiet (save encode document path disk).entries := by
  unfold save
  cases he : encode document
  case error => exact List.forall_mem_nil _
  case ok encoded =>
    refine List.forall_mem_append.mpr ⟨hq _ _ he, ?_⟩
    unfold write
    split
    case h_1 => exact List.forall_mem_singleton.mpr (quiet_savedEntry path encoded.1)
    all_goals exact List.forall_mem_nil _

-- The first save, and the second one that may follow it.
def wordSaving (report : Report) (settings : Settings) (disk : Disk) : Saving :=
  Saving.word report.document settings.output disk

def previewSaving (report : Report) (settings : Settings) (disk : Disk) : Saving :=
  Saving.preview report.document (.ofText settings.preview) (wordSaving report settings disk).disk

-- Whether everything that the settings ask for is saved.
def Publishes (report : Report) (settings : Settings) (disk : Disk) : Prop :=
  (wordSaving report settings disk).result.isOk ∧
    (settings.preview = "" ∨ (previewSaving report settings disk).result.isOk)

-- A run that has done everything.
structure Completed (report : Report) (settings : Settings) (o : Outcome) : Prop where
  last    : o.entries.getLast? = some doneEntry
  quiet   : ∀ e ∈ o.entries, e.level < Journal.Level.error
  word    : (settings.preview ≠ "" → o.disk.target settings.output ≠ o.disk.target (.ofText settings.preview)) →
    ∃ r, Word.render report.document = .ok r ∧ Holds o.disk settings.output (.word r.package)
  preview : settings.preview ≠ "" →
    ∃ r, Preview.render report.document = .ok r ∧ Holds o.disk (.ofText settings.preview) (.preview r.package)

-- The first error in the log is about a save that has failed. It has the path and the cause.
def Blames (path : Path) (s : Saving) (o : Outcome) : Prop :=
  ∃ cause text, s.result = .error (.notWritten path cause) ∧ cause.message? = some text ∧
    o.entries.find? (·.level = Journal.Level.error) = some {
      level   := Journal.Level.error
      source  := source
      message := s!"Bug log generation failed for {path.text}: {text}" }

-- A run in which a save has failed. If it is the first one then there is no second one, and all that may be new are
-- directories that the report would lie in. If it is the second one then the report stays.
structure Aborted (report : Report) (settings : Settings) (disk : Disk) (o : Outcome) : Prop where
  undone  : ∀ e ∈ o.entries, e.message ≠ doneEntry.message
  word    : (wordSaving report settings disk).result.isOk = false →
    Blames settings.output (wordSaving report settings disk) o ∧
    (∀ preview, publish report { settings with preview } disk = .ok o) ∧
    ∀ place, o.disk.node? place = disk.node? place ∨
      (disk.node? place = none ∧ o.disk.node? place = some .directory ∧
        ∃ parts, parts <+: settings.output.parent.parts ∧ o.disk.walk { settings.output with parts } = .ok place)
  preview : (wordSaving report settings disk).result.isOk = true →
    Blames (.ofText settings.preview) (previewSaving report settings disk) o ∧
    ∃ r, Word.render report.document = .ok r ∧ Holds o.disk settings.output (.word r.package)

-- A run whose exit status tells what it has done.
structure Truthful (report : Report) (settings : Settings) (disk : Disk) (o : Outcome) : Prop where
  exit    : Publishes report settings disk ∧ o.exit = 0 ∨ ¬Publishes report settings disk ∧ o.exit = 2
  success : o.exit = 0 → Completed report settings o
  failure : o.exit = 2 → Aborted report settings disk o

-- What a run ends with after its last save.
def completion (before : List Journal.Entry) (s : Saving) : Outcome where
  exit    := exitOk
  entries := before ++ s.entries ++ [doneEntry]
  disk    := s.disk

def failure (before : List Journal.Entry) (s : Saving) (path : Path) (cause : Cause) : Outcome where
  exit    := exitWriteFailed
  entries := before ++ s.entries ++ failureEntries path cause
  disk    := s.disk

section

variable {report : Report} {settings : Settings} {disk : Disk} {before : List Journal.Entry} {s : Saving} {path : Path}
  {cause : Cause}

theorem finish_of_saved (hr : s.result = .ok path) : finish before s = .ok (completion before s) := by
  simp only [finish, hr, completion]

theorem finish_of_failed (hr : s.result = .error (.notWritten path cause)) :
    finish before s = .ok (failure before s path cause) := by
  simp only [finish, hr, failure]

-- The log of a failed run, after everything that is quiet.
theorem blames_of_failed (hr : s.result = .error (.notWritten path cause)) (hm : cause.message?.isSome)
    (hq : AllQuiet (before ++ s.entries)) : Blames path s (failure before s path cause) ∧
      ∀ e ∈ (failure before s path cause).entries, e.message ≠ doneEntry.message := by
  have ⟨text, ht⟩ := Option.isSome_iff_exists.mp hm
  have hnone : (before ++ s.entries).find? (·.level = Journal.Level.error) = none :=
    List.find?_eq_none.mpr fun e he => by
      have hlevel := (hq e he).left
      simp only [decide_eq_true_eq]
      omega
  refine ⟨⟨cause, text, hr, ht, ?found⟩, List.forall_mem_append.mpr ⟨fun e he => (hq e he).right, ?notDone⟩⟩
  case found =>
    rw [failure, List.find?_append, hnone, failureEntries, ht]
    rfl
  case notDone =>
    exact List.forall_mem_cons.mpr ⟨ne_done (by simp [toString]), List.forall_mem_singleton.mpr (ne_done (by decide))⟩

theorem completion_log (hq : AllQuiet (before ++ s.entries)) :
    (completion before s).entries.getLast? = some doneEntry ∧
    ∀ e ∈ (completion before s).entries, e.level < Journal.Level.error :=
  ⟨List.getLast?_concat, List.forall_mem_append.mpr
    ⟨fun e he => (hq e he).left, List.forall_mem_singleton.mpr (by decide)⟩⟩

theorem message?_of_word {document : Document} (h : wordEncoder document = .error cause) : cause.message?.isSome := by
  obtain ⟨fault, -, rfl⟩ := wordEncoder_eq_error.mp h
  rfl

theorem message?_of_preview {document : Document}
    (hm : ∀ fault, Preview.render document = .error fault → fault.message?.isSome)
    (h : previewEncoder document = .error cause) : cause.message?.isSome := by
  obtain ⟨fault, hf, rfl⟩ := previewEncoder_eq_error.mp h
  exact hm fault hf

theorem message?_of_cause {encode : Encoder} {document : Document}
    (hc : encode document = .error cause ∨ ∃ reason q, cause = .disk reason q)
    (hm : encode document = .error cause → cause.message?.isSome) : cause.message?.isSome := by
  rcases hc with h | ⟨_, _, rfl⟩
  · exact hm h
  · rfl

-- The report is not saved, and so the preview is not even tried.
theorem truthful_of_refused (hq : AllQuiet (report.entries ++ (wordSaving report settings disk).entries))
    (hr : (wordSaving report settings disk).result = .error (.notWritten settings.output cause))
    (hm : cause.message?.isSome) (h : Refused settings.output disk (wordSaving report settings disk).disk) :
    ∃ o, publish report settings disk = .ok o ∧ Truthful report settings disk o := by
  have hfail : (wordSaving report settings disk).result.isOk = false := hr ▸ rfl
  have hp (preview : String) : publish report { settings with preview } disk =
      .ok (failure report.entries (wordSaving report settings disk) settings.output cause) :=
    (if_neg fun ⟨hok, _⟩ => Bool.false_ne_true (hfail.symm.trans hok)).trans (finish_of_failed hr)
  have ⟨hblame, hundone⟩ := blames_of_failed hr hm hq
  refine ⟨_, hp settings.preview, .inr ⟨?none, rfl⟩, fun hexit => absurd hexit (by decide : exitWriteFailed ≠ 0),
    fun _ => ?_⟩
  case none => exact fun hall => Bool.false_ne_true (hfail.symm.trans hall.left)
  exact {
    undone  := hundone
    word    := fun _ => ⟨hblame, hp, h.node?_eq⟩
    preview := fun hok => absurd (hfail.symm.trans hok) Bool.false_ne_true }

section

variable {r : Word.Rendering} (hr : (wordSaving report settings disk).result = .ok settings.output)
  (hword : Word.render report.document = .ok r)
  (h : Holds (wordSaving report settings disk).disk settings.output (.word r.package))
include hr hword h

-- The report is saved, and no preview is asked for.
theorem truthful_of_saved (hq : AllQuiet (report.entries ++ (wordSaving report settings disk).entries))
    (hp : settings.preview = "") : ∃ o, publish report settings disk = .ok o ∧ Truthful report settings disk o := by
  have hpublish : publish report settings disk = finish report.entries (wordSaving report settings disk) :=
    if_neg fun ⟨_, hne⟩ => hne hp
  have ⟨hlast, hquiet⟩ := completion_log hq
  refine ⟨_, hpublish.trans (finish_of_saved hr), .inl ⟨⟨hr ▸ rfl, .inl hp⟩, rfl⟩, fun _ => ?_,
    fun hexit => absurd hexit (by decide : exitOk ≠ 2)⟩
  exact {
    last    := hlast
    quiet   := hquiet
    word    := fun _ => ⟨r, hword, h⟩
    preview := fun hne => absurd hp hne }

variable (hq : AllQuiet (report.entries ++ (wordSaving report settings disk).entries ++
  (previewSaving report settings disk).entries)) (hp : settings.preview ≠ "")
include hq hp

-- Both the report and the preview are saved.
theorem truthful_of_both {v : Preview.Rendering} {place : Place}
    (hv : (previewSaving report settings disk).result = .ok (.ofText settings.preview))
    (hpreview : Preview.render report.document = .ok v)
    (hs : Saved (.ofText settings.preview) (.preview v.package) (wordSaving report settings disk).disk
      (previewSaving report settings disk).disk place) :
    ∃ o, publish report settings disk = .ok o ∧ Truthful report settings disk o := by
  have hpublish : publish report settings disk =
      finish (report.entries ++ (wordSaving report settings disk).entries) (previewSaving report settings disk) :=
    if_pos ⟨hr ▸ rfl, hp⟩
  have ⟨hlast, hquiet⟩ := completion_log hq
  refine ⟨_, hpublish.trans (finish_of_saved hv), .inl ⟨⟨hr ▸ rfl, .inr (hv ▸ rfl)⟩, rfl⟩, fun _ => ?_,
    fun hexit => absurd hexit (by decide : exitOk ≠ 2)⟩
  exact {
    last    := hlast
    quiet   := hquiet
    word    := fun hne => ⟨r, hword, h.saved hs (hne hp)⟩
    preview := fun _ => ⟨v, hpreview, place, hs.target, hs.file⟩ }

-- The report is saved, but the preview is not.
theorem truthful_of_half
    (hv : (previewSaving report settings disk).result = .error (.notWritten (.ofText settings.preview) cause))
    (hm : cause.message?.isSome)
    (hs : Refused (.ofText settings.preview) (wordSaving report settings disk).disk
      (previewSaving report settings disk).disk) :
    ∃ o, publish report settings disk = .ok o ∧ Truthful report settings disk o := by
  have hok : (wordSaving report settings disk).result.isOk = true := hr ▸ rfl
  have hfail : (previewSaving report settings disk).result.isOk = false := hv ▸ rfl
  have hpublish : publish report settings disk =
      finish (report.entries ++ (wordSaving report settings disk).entries) (previewSaving report settings disk) :=
    if_pos ⟨hok, hp⟩
  have ⟨hblame, hundone⟩ := blames_of_failed hv hm hq
  refine ⟨_, hpublish.trans (finish_of_failed hv), .inr ⟨?none, rfl⟩,
    fun hexit => absurd hexit (by decide : exitWriteFailed ≠ 0), fun _ => ?_⟩
  case none => exact fun hall => hall.right.elim hp fun hall => Bool.false_ne_true (hfail.symm.trans hall)
  exact {
    undone  := hundone
    word    := fun hno => absurd (hno.symm.trans hok) Bool.false_ne_true
    preview := fun _ => ⟨hblame, r, hword, h.refused hs⟩ }

end

-- A run of the program on a report whose log is quiet, and whose preview can be blamed if it cannot be made.
theorem truthful_of_publish (ho : settings.output.Clean) (hp : (Path.ofText settings.preview).Clean) (hd : disk.IsTree)
    (hq : AllQuiet report.entries)
    (hm : ∀ fault, Preview.render report.document = .error fault → fault.message?.isSome) :
    ∃ o, publish report settings disk = .ok o ∧ Truthful report settings disk o := by
  have hw := ends_save ho hd wordEncoder report.document
  have hwq : AllQuiet (report.entries ++ (wordSaving report settings disk).entries) :=
    List.forall_mem_append.mpr ⟨hq, allQuiet_save fun _ _ => allQuiet_wordEncoder⟩
  cases hw
  case failed cause hr h hc => exact truthful_of_refused hwq hr (message?_of_cause hc message?_of_word) h
  case saved content log place he hr h =>
    obtain ⟨r, hword, rfl, -⟩ := wordEncoder_eq_ok.mp he
    have hholds : Holds _ settings.output (.word r.package) := ⟨place, h.target, h.file⟩
    by_cases hne : settings.preview = ""
    case pos => exact truthful_of_saved hr hword hholds hwq hne
    case neg =>
      have hv := ends_save hp h.tree previewEncoder report.document
      have hvq : AllQuiet (report.entries ++ (wordSaving report settings disk).entries ++
          (previewSaving report settings disk).entries) :=
        List.forall_mem_append.mpr ⟨hwq, allQuiet_save fun _ _ => allQuiet_previewEncoder⟩
      cases hv
      case failed cause hv hs hc =>
        exact truthful_of_half hr hword hholds hvq hne hv (message?_of_cause hc (message?_of_preview hm)) hs
      case saved content log place he hv hs =>
        obtain ⟨v, hpreview, rfl, -⟩ := previewEncoder_eq_ok.mp he
        exact truthful_of_both hr hword hholds hvq hne hv hpreview hs

end

end Program
end DefectLog
