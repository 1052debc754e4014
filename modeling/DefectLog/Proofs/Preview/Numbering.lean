import DefectLog.Proofs.Number.Decimal
import DefectLog.Proofs.Preview.Mirror
import DefectLog.Proofs.Running
import Mathlib.Data.List.Nodup

-- The numbers that paragraphs with text are given, also by a conversion that fails later.
namespace DefectLog.Preview

open Running Success

theorem eq_of_quotient {n : Int} {divisor : Rat} {e : Fault} (h : quotient n divisor = .error e) :
    e = .numberTooLarge := by
  unfold quotient at h
  dsimp only at h
  split at h
  case isTrue  => cases h
  case isFalse => exact (Except.error.inj h).symm

theorem eq_of_largestSize {runs : List Run} {e : Fault} (h : largestSize runs = .error e) : e = .numberTooLarge := by
  have ⟨_, _, he⟩ := exists_of_mapM_error (map_eq_error.mp h)
  exact eq_of_quotient he

-- What the conversion of a paragraph with text comes to.
inductive FlowsText (defaults : Defaults) (p : Paragraph) (count : Nat) : Except Fault Flowable × Nat → Prop
  | unmarked (h : Markup.ofRuns defaults.font p.runs = .error e) : FlowsText defaults p count (.error e, count)
  | failed (hm : Markup.ofRuns defaults.font p.runs = .ok markup)
    (he : e = .numberTooLarge ∨ checkMarkup p.runs markup = .error e) : FlowsText defaults p count (.error e, count + 1)
  | set (hm : Markup.ofRuns defaults.font p.runs = .ok t.markup.toList) (hn : t.number = count + 1) :
    FlowsText defaults p count (.ok (.text t), count + 1)

section

variable {defaults : Defaults} {p : Paragraph} {count : Nat} {markup : List Char}

-- Whatever fails after the number has been given does not take it back.
theorem FlowsText.lift {x : Except Fault α} {f : α → Numbered Flowable}
    (hm : Markup.ofRuns defaults.font p.runs = .ok markup)
    (hx : ∀ e, x = .error e → e = .numberTooLarge ∨ checkMarkup p.runs markup = .error e)
    (hf : ∀ a, FlowsText defaults p count ((f a).run (count + 1))) :
    FlowsText defaults p count ((liftM x >>= f).run (count + 1)) := by
  rw [run_bind, run_lift]
  cases x
  case error e => exact .failed hm (hx e rfl)
  case ok a    => exact hf a

theorem flowsText (defaults : Defaults) (p : Paragraph) (count : Nat) :
    FlowsText defaults p count ((flowText defaults p).run count) := by
  unfold flowText
  rw [run_bind, run_lift]
  cases hm : Markup.ofRuns defaults.font p.runs
  case error e => exact .unmarked hm
  case ok markup =>
    have hg : (modifyGet fun n => (n + 1, n + 1) : Numbered Nat).run count = (.ok (count + 1), count + 1) := rfl
    dsimp only
    rw [run_bind, hg]
    refine .lift hm (fun _ h => .inl (eq_of_quotient h)) fun other => ?_
    refine .lift hm (fun _ h => .inl (eq_of_largestSize h)) fun largest => ?_
    refine .lift hm (fun _ h => .inl (eq_of_quotient h)) fun before => ?_
    refine .lift hm (fun _ h => .inl (eq_of_quotient h)) fun after => ?_
    refine .lift hm (fun _ h => .inl (eq_of_quotient h)) fun indent => ?_
    refine .lift hm (fun _ h => .inr h) fun _ => ?_
    exact .set (hm.trans (by rw [String.toList_ofList])) rfl

end

-- A number and the paragraph that it is given to.
structure Label where
  number    : Nat
  paragraph : Paragraph

def blockName (number : Nat) : String :=
  s!"Block{number}"

def Label.name (l : Label) : String :=
  blockName l.number

-- What follows a part of a conversion, unless the part has failed.
def continued (part : Except Fault α × Nat) (next : Nat → List Label) : List Label :=
  match part with
  | (.ok _, after)   => next after
  | (.error _, _)    => []

-- The labels that converting a block gives after `count` others. A paragraph has its own as soon as its markup is
-- there. A failure ends the conversion, but what was given before stays given.
mutual
def labelsBlock (defaults : Defaults) (count : Nat) : Block → List Label
  | .paragraph p =>
    if showsText p && (Markup.ofRuns defaults.font p.runs).isOk then [{ number := count + 1, paragraph := p }] else []
  | .table t     => labelsRows defaults 0 count t.rows
def labelsRows (defaults : Defaults) (row count : Nat) : List (List (Cell Block)) → List Label
  | []            => []
  | cells :: rows => labelsCells defaults row 0 count cells ++
    continued ((flowCells defaults row 0 cells).run count) fun after => labelsRows defaults (row + 1) after rows
def labelsCells (defaults : Defaults) (row : Nat) (column : Int) (count : Nat) : List (Cell Block) → List Label
  | []         => []
  | c :: cells => labelsBlocks defaults count c.blocks ++
    continued ((flowBlocks defaults c.blocks).run count) fun after =>
      if (restOfSpan c.span).isOk then
        if (directives c row column).isOk then labelsCells defaults row (column + c.span) after cells else []
      else []
def labelsBlocks (defaults : Defaults) (count : Nat) : List Block → List Label
  | []      => []
  | b :: bs => labelsBlock defaults count b ++
    continued ((flowBlock defaults b).run count) fun after => labelsBlocks defaults after bs
end

-- The numbers follow each other without a gap, and the last one is the count in the end.
structure Counts (before : Nat) (labels : List Label) (after : Nat) : Prop where
  numbers : labels.map Label.number = List.range' (before + 1) labels.length
  last    : after = before + labels.length

theorem Counts.nil (count : Nat) : Counts count [] count where
  numbers := rfl
  last    := rfl

theorem Counts.single (count : Nat) (p : Paragraph) :
    Counts count [{ number := count + 1, paragraph := p }] (count + 1) where
  numbers := rfl
  last    := rfl

theorem Counts.append {before between after : Nat} {labels more : List Label} (h : Counts before labels between)
    (hm : Counts between more after) : Counts before (labels ++ more) after where
  numbers := by
    rw [List.map_append, h.numbers, hm.numbers, h.last, List.length_append, Nat.add_right_comm, List.range'_append_1]
  last    := by
    rw [hm.last, h.last, List.length_append, Nat.add_assoc]

-- A text that is what converting the paragraph gives where the count was one less.
structure Bears (defaults : Defaults) (l : Label) (t : TextFlow) : Prop where
  number : t.number = l.number
  text   : ∃ count, l.number = count + 1 ∧ step defaults count (.paragraph l.paragraph) = (.ok (.text t), l.number)

-- The labels are those of the paragraphs that show text, and the texts bear them, each in its place.
structure Tells (defaults : Defaults) (paragraphs : List Paragraph) (texts : List TextFlow) (labels : List Label) :
    Prop where
  paragraphs : labels.map Label.paragraph = paragraphs.filter showsText
  texts      : List.Forall₂ (Bears defaults) labels texts

-- A conversion after `count` labels that gives some more. If it does not fail then they tell about its result.
structure Hands (tells : α → List Label → Prop) (count : Nat) (labels : List Label) (x : Numbered α) : Prop where
  counts : Counts count labels (x.run count).2
  result : ∀ a, (x.run count).1 = .ok a → tells a labels

section

variable {defaults : Defaults} {count : Nat} {labels more : List Label} {p : Paragraph}
  {tells : α → List Label → Prop} {tells' : β → List Label → Prop} {x : Numbered α} {f : α → Numbered β}

theorem Tells.nil (defaults : Defaults) : Tells defaults [] [] [] where
  paragraphs := rfl
  texts      := .nil

theorem Tells.append {ps ps' : List Paragraph} {ts ts' : List TextFlow} (h : Tells defaults ps ts labels)
    (hm : Tells defaults ps' ts' more) : Tells defaults (ps ++ ps') (ts ++ ts') (labels ++ more) where
  paragraphs := by rw [List.map_append, h.paragraphs, hm.paragraphs, List.filter_append]
  texts      := List.rel_append h.texts hm.texts

theorem Hands.pure {a : α} (h : tells a []) : Hands tells count [] (pure a) where
  counts := .nil count
  result := fun _ ha => Except.ok.inj ha ▸ h

theorem Hands.bind {next : Nat → List Label} (hx : Hands tells count labels x)
    (hf : ∀ a after, tells a labels → Hands (fun b more => tells' b (labels ++ more)) after (next after) (f a)) :
    Hands tells' count (labels ++ continued (x.run count) next) (x >>= f) := by
  have ⟨hc, hr⟩ := hx
  unfold continued
  cases hrun : x.run count
  case mk result after =>
    rw [hrun] at hc hr
    cases result
    case error e =>
      refine ⟨?_, fun b hb => ?_⟩
      · simpa [run_bind, hrun] using hc
      · simp [run_bind, hrun] at hb
    case ok a =>
      have ⟨hc', hr'⟩ := hf a after (hr a rfl)
      refine ⟨?_, fun b hb => hr' b ?_⟩
      · simpa [run_bind, hrun] using hc.append hc'
      · simpa [run_bind, hrun] using hb

-- A part without labels of its own may fail, and then none are given after it.
theorem Hands.lift {e : Except Fault α} (hf : ∀ a, e = .ok a → Hands tells' count labels (f a)) :
    Hands tells' count (if e.isOk then labels else []) (liftM e >>= f) := by
  cases e
  case error e =>
    refine ⟨?_, fun b hb => ?_⟩
    · simpa [run_bind, Except.isOk, Except.toBool] using Counts.nil count
    · simp [run_bind] at hb
  case ok a =>
    have ⟨hc, hr⟩ := hf a rfl
    exact ⟨by simpa [run_bind, Except.isOk, Except.toBool] using hc, fun b hb => hr b (by simpa [run_bind] using hb)⟩

theorem Hands.silent {e : Except Fault α} (hf : ∀ a, e = .ok a → Hands tells' count [] (f a)) :
    Hands tells' count [] (liftM e >>= f) := by
  simpa using lift hf

theorem Hands.last (hx : Hands tells count labels x)
    (hf : ∀ a after, tells a labels → Hands (fun b more => tells' b (labels ++ more)) after [] (f a)) :
    Hands tells' count labels (x >>= f) := by
  have hb : Hands tells' count (labels ++ continued (x.run count) fun _ => []) (x >>= f) := hx.bind hf
  have hn : continued (x.run count) (fun _ => []) = [] := by
    unfold continued
    split <;> rfl
  rwa [hn, List.append_nil] at hb

theorem hands_flowText (hr : p.rule = none) (hb : Text.allBlank p.text = false) (count : Nat) :
    Hands (fun f => Tells defaults [p] f.texts) count (labelsBlock defaults count (.paragraph p))
      (flowText defaults p) := by
  have hs : showsText p = true := by simp [showsText, hr, hb]
  have hp : flowParagraph defaults p = flowText defaults p := by simp [flowParagraph, hr, hb]
  have hf := flowsText defaults p count
  rw [labelsBlock, hs, Bool.true_and]
  generalize hrun : (flowText defaults p).run count = r at hf
  cases hf
  case unmarked e hm =>
    have ho : (Markup.ofRuns defaults.font p.runs).isOk = false := hm ▸ rfl
    rw [ho, if_neg Bool.false_ne_true]
    exact ⟨hrun ▸ .nil count, fun _ h => by rw [hrun] at h; cases h⟩
  case failed e _ hm _ =>
    have ho : (Markup.ofRuns defaults.font p.runs).isOk = true := hm ▸ rfl
    rw [ho, if_pos rfl]
    exact ⟨hrun ▸ .single count p, fun _ h => by rw [hrun] at h; cases h⟩
  case set t hm hn =>
    have ho : (Markup.ofRuns defaults.font p.runs).isOk = true := hm ▸ rfl
    rw [ho, if_pos rfl]
    refine ⟨hrun ▸ .single count p, fun f h => ?_⟩
    have hl : Bears defaults { number := count + 1, paragraph := p } t :=
      ⟨hn, count, rfl, by rw [step, flowBlock, hp, hrun]⟩
    cases (congrArg Prod.fst hrun).symm.trans h
    exact ⟨by simp [hs], .cons hl .nil⟩

theorem hands_flowParagraph (defaults : Defaults) (p : Paragraph) (count : Nat) :
    Hands (fun f => Tells defaults [p] f.texts) count (labelsBlock defaults count (.paragraph p))
      (flowParagraph defaults p) := by
  -- What is no text of its own gives no label.
  have hquiet (hs : showsText p = false) {e : Except Fault Flowable} (he : ∀ f, e = .ok f → f.texts = []) :
      Hands (fun f => Tells defaults [p] f.texts) count (labelsBlock defaults count (.paragraph p)) (liftM e) := by
    rw [labelsBlock, hs, Bool.false_and, if_neg Bool.false_ne_true]
    refine ⟨by simpa using .nil count, fun f h => ?_⟩
    have ht := he f (by simpa using h)
    exact ⟨by simp [hs], ht ▸ .nil⟩
  unfold flowParagraph
  split
  case h_1 border hr =>
    refine hquiet (by simp [showsText, hr]) fun f h => ?_
    have ⟨_, hf⟩ := flowRule_eq_ok h
    exact hf ▸ rfl
  case h_2 hr =>
    split
    case isTrue hb =>
      refine hquiet (by simp [showsText, hr, hb]) fun f h => ?_
      have ⟨_, hf⟩ := flowGap_eq_ok h
      exact hf ▸ rfl
    case isFalse hb => exact hands_flowText hr (eq_false_of_ne_true hb) count

-- One case for each function of the preview.
mutual
theorem hands_flowBlock (defaults : Defaults) (b : Block) (count : Nat) :
    Hands (fun f => Tells defaults b.allParagraphs f.texts) count (labelsBlock defaults count b)
      (flowBlock defaults b) := by
  cases b
  case paragraph p => exact hands_flowParagraph defaults p count
  case table t =>
    refine (hands_flowRows defaults t.columnWidths.length 0 t.rows count).last fun (entries, _) after hrows => ?_
    dsimp only
    rw [mapM_lift]
    refine .silent fun widths _ => .silent fun m hm => .pure ?_
    have ⟨he, _⟩ := matrix_eq_ok hm
    simpa [Block.allParagraphs, he] using hrows
termination_by structural b
theorem hands_flowRows (defaults : Defaults) (columns row : Nat) (rows : List (List (Cell Block))) (count : Nat) :
    Hands (fun result => Tells defaults (rowsParagraphs rows) (collectRows Flowable.ownText result.1)) count
      (labelsRows defaults row count rows) (flowRows defaults columns row rows) := by
  cases rows
  case nil => exact .pure (.nil defaults)
  case cons cells rows =>
    refine (hands_flowCells defaults row 0 cells count).bind fun (entries, _) after hcells => ?_
    refine (hands_flowRows defaults columns (row + 1) rows after).last fun (more, _) _ hrows => .pure ?_
    simp only [rowsParagraphs, collectRows_filled, List.append_nil]
    exact hcells.append hrows
termination_by structural rows
theorem hands_flowCells (defaults : Defaults) (row : Nat) (column : Int) (cells : List (Cell Block)) (count : Nat) :
    Hands (fun result => Tells defaults (cellsParagraphs cells) (collectRow Flowable.ownText result.1)) count
      (labelsCells defaults row column count cells) (flowCells defaults row column cells) := by
  cases cells
  case nil => exact .pure (.nil defaults)
  case cons c cells =>
    refine (hands_flowBlocks defaults c.blocks count).bind fun flowables after hblocks => ?_
    refine .lift fun rest hrest => .lift fun own _ => ?_
    refine (hands_flowCells defaults row (column + c.span) cells after).last fun (entries, _) _ hcells => .pure ?_
    cases eq_of_restOfSpan hrest
    simp only [cellsParagraphs, collectRow_spanned, List.append_nil]
    exact hblocks.append hcells
termination_by structural cells
theorem hands_flowBlocks (defaults : Defaults) (bs : List Block) (count : Nat) :
    Hands (fun fs => Tells defaults (blocksParagraphs bs) (entryTexts fs)) count
      (labelsBlocks defaults count bs) (flowBlocks defaults bs) := by
  cases bs
  case nil => exact .pure (.nil defaults)
  case cons b bs =>
    refine (hands_flowBlock defaults b count).bind fun f after hb => ?_
    refine (hands_flowBlocks defaults bs after).last fun fs _ hbs => .pure ?_
    simpa [blocksParagraphs] using hb.append hbs
termination_by structural bs
end

end

-- What can be asked of the conversion of a document. Only a story takes its body, the others get what is to be converted.
inductive Call
  | block (b : Block)
  | paragraph (p : Paragraph)
  | table (t : Table Block)
  | story

def Call.flow (d : Document) : Call → Numbered (List Flowable)
  | .block b     => return [← flowBlock d.defaults b]
  | .paragraph p => return [← flowParagraph d.defaults p]
  | .table t     => return [← flowBlock d.defaults (.table t)]
  | .story       => flowBlocks d.defaults d.body

def Call.labels (d : Document) (count : Nat) : Call → List Label
  | .block b     => labelsBlock d.defaults count b
  | .paragraph p => labelsBlock d.defaults count (.paragraph p)
  | .table t     => labelsBlock d.defaults count (.table t)
  | .story       => labelsBlocks d.defaults count d.body

-- What calls come to, one after the other, and the count after them. A call is made whether those before have failed
-- or not.
def answers (d : Document) (count : Nat) : List Call → List (Except Fault (List Flowable)) × Nat
  | []            => ([], count)
  | call :: calls =>
    let answer := (call.flow d).run count
    let more := answers d answer.2 calls
    (answer.1 :: more.1, more.2)

def givenLabels (d : Document) (count : Nat) : List Call → List Label
  | []            => []
  | call :: calls => call.labels d count ++ givenLabels d ((call.flow d).run count).2 calls

-- The texts of a call that has not failed.
def answerTexts : Except Fault (List Flowable) → List TextFlow
  | .ok fs   => entryTexts fs
  | .error _ => []

section

variable {d : Document} {count : Nat}

theorem hands_call (d : Document) (call : Call) (count : Nat) :
    Hands (fun fs labels => List.Forall₂ (Bears d.defaults) labels (entryTexts fs)) count (call.labels d count)
      (call.flow d) := by
  have hsingle (b : Block) : Hands (fun fs labels => List.Forall₂ (Bears d.defaults) labels (entryTexts fs)) count
      (labelsBlock d.defaults count b) (do return [← flowBlock d.defaults b]) := by
    refine (hands_flowBlock d.defaults b count).last fun f _ hf => .pure ?_
    simpa using hf.texts
  cases call
  case block b     => exact hsingle b
  case paragraph p => exact hsingle (.paragraph p)
  case table t     => exact hsingle (.table t)
  case story =>
    have hs := hands_flowBlocks d.defaults d.body count
    exact ⟨hs.counts, fun fs h => (hs.result fs h).texts⟩

theorem map_number_eq {labels : List Label} {texts : List TextFlow} (h : List.Forall₂ (Bears d.defaults) labels texts) :
    texts.map TextFlow.number = labels.map Label.number := by
  induction h
  case nil           => rfl
  case cons hb _ hi  => rw [List.map_cons, List.map_cons, hb.number, hi]

theorem counts_answers (d : Document) (calls : List Call) (count : Nat) :
    Counts count (givenLabels d count calls) (answers d count calls).2 := by
  induction calls generalizing count
  case nil                => exact .nil count
  case cons call calls hi => exact (hands_call d call count).counts.append (hi _)

-- The texts bear labels that have been given, in the same order. The labels of a call that fails are borne by none.
theorem sublist_answers (d : Document) (calls : List Call) (count : Nat) :
    (((answers d count calls).1.flatMap answerTexts).map TextFlow.number).Sublist
      ((givenLabels d count calls).map Label.number) := by
  induction calls generalizing count
  case nil => exact .slnil
  case cons call calls hi =>
    have hr := (hands_call d call count).result
    dsimp only [answers, givenLabels]
    rw [List.flatMap_cons, List.map_append, List.map_append]
    refine List.Sublist.append ?_ (hi _)
    cases hanswer : ((call.flow d).run count).1
    case error => exact List.nil_sublist _
    case ok fs => exact (map_number_eq (hr fs hanswer)).symm ▸ List.Sublist.refl _

theorem blockName_inj {m n : Nat} (h : blockName m = blockName n) : m = n :=
  Int.ofNat.inj (Number.toString_inj (String.append_right_inj _ |>.mp h))

theorem nodup_names {numbered : List α} {number : α → Nat} (h : (numbered.map number).Nodup) :
    (numbered.map fun a => blockName (number a)).Nodup := by
  have hn := h.map fun _ _ => blockName_inj
  rwa [List.map_map] at hn

-- Whatever is asked for, and whatever fails of it: the numbers that are given go up one by one, no two names agree, and
-- no two texts have the same name. A whole body that is converted gives its first paragraph with text the first name, and
-- so on up to its last one.
theorem names_of_calls (d : Document) (calls : List Call) :
    (givenLabels d 0 calls).map Label.number = List.range' 1 (answers d 0 calls).2 ∧
    ((givenLabels d 0 calls).map Label.name).Nodup ∧
    (((answers d 0 calls).1.flatMap answerTexts).map TextFlow.number).Sublist
      ((givenLabels d 0 calls).map Label.number) ∧
    (((answers d 0 calls).1.flatMap answerTexts).map TextFlow.name).Nodup ∧
    ∀ fs, story d = .ok fs →
      (entryTexts fs).map TextFlow.name = (List.range' 1 (d.allParagraphs.filter showsText).length).map blockName ∧
      List.Forall₂ (fun p t => ∃ count, step d.defaults count (.paragraph p) = (.ok (.text t), count + 1))
        (d.allParagraphs.filter showsText) (entryTexts fs) := by
  have ⟨hn, hl⟩ := counts_answers d calls 0
  have hs := sublist_answers d calls 0
  have hnodup : ((givenLabels d 0 calls).map Label.number).Nodup := hn ▸ List.nodup_range'
  refine ⟨by rw [hn, hl, Nat.zero_add, Nat.zero_add], nodup_names hnodup, hs, nodup_names (hnodup.sublist hs),
    fun fs h => ?_⟩
  have ⟨hc, hr⟩ := hands_flowBlocks d.defaults d.body 0
  have ⟨hp, ht⟩ := hr fs h
  refine ⟨?names, ?texts⟩
  case names =>
    have hlength : (labelsBlocks d.defaults 0 d.body).length = (d.allParagraphs.filter showsText).length := by
      rw [Document.allParagraphs, ← hp, List.length_map]
    rw [← hlength, ← hc.numbers, ← map_number_eq ht, List.map_map]
    rfl
  case texts =>
    rw [Document.allParagraphs, ← hp, List.forall₂_map_left_iff]
    exact ht.imp fun l t hb => have ⟨count, hn, hstep⟩ := hb.text; ⟨count, hn ▸ hstep⟩

end

-- A color that is refused once its paragraph has a number, in a cell after one whose paragraph is converted.
def refused : List Block := [
  .paragraph { runs := [{ text := "f", size := 20 }] },
  .paragraph { runs := [{ text := "g", size := 20, color := some "zz" }] },
  .paragraph { runs := [{ text := "h", size := 20 }] }]

def asked : List Call :=
  [.story, .table { columnWidths := [1000], rows := [[{ width := 1000, blocks := refused }]] }, .story]

theorem names_of_calls_asked : ∃ fs, story previewed = .ok fs ∧
    (entryTexts fs).map TextFlow.name = ["Block1", "Block2", "Block3"] ∧
    (answers previewed 0 asked).1.map Except.isOk = [true, false, true] ∧
    (givenLabels previewed 0 asked).map Label.number = [1, 2, 3, 4, 5, 6, 7, 8] := by
  have ⟨fs, h⟩ : ∃ fs, story previewed = .ok fs := exists_of_isOk (by decide +kernel)
  have ⟨hn, _, _, _, hs⟩ := names_of_calls previewed asked
  have ⟨hnames, _⟩ := hs fs h
  have hlast : (answers previewed 0 asked).2 = 8 := by decide +kernel
  exact ⟨fs, h, hnames.trans (by decide), by decide +kernel, hn.trans (by rw [hlast]; rfl)⟩

end DefectLog.Preview
