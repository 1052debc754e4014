import DefectLog.Proofs.Publishing
import DefectLog.Proofs.Report.Previewed
import DefectLog.Proofs.Report.Rendered

-- The exit status of the program, whose report can always be rendered.
namespace DefectLog

open Disk

namespace Saving

variable {encode : Encoder} {document : Document} {path : Path} {content : Content} {log : List Journal.Entry}
  {d d' : Disk} {place : Place}

section

variable (he : encode document = .ok (content, log)) (hp : checkPath path = .ok ())
  (hm : (ensureParents path).run d = (.ok (), d'))
include he hp hm

-- A save to where nothing lies.
theorem save_of_target (ht : d'.target path = .ok (some place)) (hn : d'.node? place = none) :
    save encode document path d = {
      result  := .ok path
      entries := log ++ [savedEntry path content]
      disk    := d'.put place (.file content) } := by
  have hw : (writeFile path content).run d' = (.ok (), d'.put place (.file content)) := by
    simp only [writeFile, Running.run_bind, Running.run_lift, Running.run_get, hp, ht, refuse, hn]
    rfl
  simp only [save, he, write, attempt, Running.run_bind, hm, hw, after]

-- A save to a path that ends in a directory by its form.
theorem save_of_no_target (ht : d'.target path = .ok none) :
    save encode document path d = {
      result  := .error (.notWritten path (.disk .isDirectory path))
      entries := log
      disk    := d' } := by
  have hw : (writeFile path content).run d' = (.error (.refused .isDirectory path), d') := by
    simp only [writeFile, Running.run_bind, Running.run_lift, Running.run_get, hp, ht, refuse]
    rfl
  simp only [save, he, write, attempt, Running.run_bind, hm, hw, rejected, after, List.append_nil]

end

end Saving

namespace Program

open Saving

variable {settings : Settings} {disk : Disk}

-- On every tree, and for all paths without a null character, the program tells whether it has done what it should.
theorem truthful_of_run (ho : '\x00' ∉ settings.output.text.toList) (hp : '\x00' ∉ settings.preview.toList)
    (hd : disk.IsTree) : ∃ o, run settings disk = .ok o ∧ Truthful (RenderX.report {}) settings disk o := by
  have ⟨r, hr⟩ := RenderX.exists_preview
  have hq : AllQuiet (RenderX.report {}).entries := allQuiet_assemble {} _ _ _ _
  exact truthful_of_publish (Path.clean_iff.mpr ho) (Path.clean_ofText hp) hd hq fun _ he => nomatch hr.symm.trans he

-- The preview goes to a directory that the report has brought into being.
def beside : Settings where
  output  := .ofText "reports/log.docx"
  preview := "reports/log.pdf"
  level   := "INFO"

theorem publishes_beside : Publishes (RenderX.report {}) beside (bare ["work"]) := by
  have ⟨r, hr⟩ := RenderX.exists_render
  have ⟨v, hv⟩ := RenderX.exists_preview
  have ho : beside.output = { anchor := .here, parts := ["reports", "log.docx"] } := by decide +kernel
  have hp : Path.ofText beside.preview = { anchor := .here, parts := ["reports", "log.pdf"] } := by decide +kernel
  let made := (bare ["work"]).put ["reports", "work"] .directory
  let saved := made.put ["log.docx", "reports", "work"] (.file (.word r.package))
  have hmade : (ensureParents beside.output).run (bare ["work"]) = (.ok (), made) := by rw [ho]; rfl
  have hkept : (ensureParents (.ofText beside.preview)).run saved = (.ok (), saved) := by rw [hp]; rfl
  have hword : wordSaving (RenderX.report {}) beside (bare ["work"]) = _ :=
    save_of_target (wordEncoder_eq_ok.mpr ⟨r, hr, rfl, rfl⟩) (by decide +kernel) hmade
      (by decide +kernel : made.target beside.output = .ok (some ["log.docx", "reports", "work"])) rfl
  have hpreview : save previewEncoder (RenderX.report {}).document (.ofText beside.preview) saved = _ :=
    save_of_target (previewEncoder_eq_ok.mpr ⟨v, hv, rfl, rfl⟩) (by decide +kernel) hkept
      (by rw [hp]; rfl : saved.target (.ofText beside.preview) = .ok (some ["log.pdf", "reports", "work"])) rfl
  refine ⟨by rw [hword]; rfl, .inr ?_⟩
  rw [previewSaving, hword]
  exact congrArg (·.result.isOk) hpreview

theorem truthful_of_run_beside : '\x00' ∉ beside.output.text.toList ∧ '\x00' ∉ beside.preview.toList ∧
    (bare ["work"]).IsTree ∧ ∃ o, run beside (bare ["work"]) = .ok o ∧
      Truthful (RenderX.report {}) beside (bare ["work"]) o ∧ o.exit = 0 := by
  have ho : '\x00' ∉ beside.output.text.toList := by decide +kernel
  have hp : '\x00' ∉ beside.preview.toList := by decide +kernel
  have ⟨o, hr, ht⟩ := truthful_of_run ho hp (isTree_bare ["work"])
  exact ⟨ho, hp, isTree_bare _, o, hr, ht, (ht.exit.resolve_right fun h => h.left publishes_beside).right⟩

-- The report is to go where no file can be. The directory that it would lie in has the name of the preview.
def astray : Settings where
  output  := .ofText "a/.."
  preview := "a"
  level   := "INFO"

-- The report is not saved, and yet there is a directory now where the preview was to be.
theorem exists_run_astray : '\x00' ∉ astray.output.text.toList ∧ '\x00' ∉ astray.preview.toList ∧
    (bare ["work"]).IsTree ∧ ∃ o, run astray (bare ["work"]) = .ok o ∧ o.exit = 2 ∧
      (wordSaving (RenderX.report {}) astray (bare ["work"])).result.isOk = false ∧
      (bare ["work"]).target (.ofText astray.preview) = .ok (some ["a", "work"]) ∧
      (bare ["work"]).node? ["a", "work"] = none ∧ o.disk.node? ["a", "work"] = some .directory := by
  have ⟨r, hr⟩ := RenderX.exists_render
  have ho : astray.output = { anchor := .here, parts := ["a", ".."] } := by decide +kernel
  let made := (bare ["work"]).put ["a", "work"] .directory
  have hmade : (ensureParents astray.output).run (bare ["work"]) = (.ok (), made) := by rw [ho]; rfl
  have hword : wordSaving (RenderX.report {}) astray (bare ["work"]) = _ :=
    save_of_no_target (wordEncoder_eq_ok.mpr ⟨r, hr, rfl, rfl⟩) (by decide +kernel) hmade
      (by decide +kernel : made.target astray.output = .ok none)
  have hresult : (wordSaving (RenderX.report {}) astray (bare ["work"])).result =
      .error (.notWritten astray.output (.disk .isDirectory astray.output)) := congrArg (·.result) hword
  have hfail : (wordSaving (RenderX.report {}) astray (bare ["work"])).result.isOk = false := hresult ▸ rfl
  have hrun : run astray (bare ["work"]) = finish (RenderX.report {}).entries
      (wordSaving (RenderX.report {}) astray (bare ["work"])) :=
    if_neg fun h => Bool.false_ne_true (hfail.symm.trans h.left)
  refine ⟨by decide +kernel, by decide +kernel, isTree_bare _, _, hrun.trans (finish_of_failed hresult), rfl,
    hfail, by decide +kernel, rfl, ?_⟩
  rw [failure, hword]
  rfl

end Program
end DefectLog
