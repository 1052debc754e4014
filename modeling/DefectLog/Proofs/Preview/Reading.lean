import DefectLog.Preview.Story
import DefectLog.Proofs.Number.Decimal
import DefectLog.Proofs.Success

-- The markup of a paragraph, read again, says what its runs say.
namespace DefectLog.Preview.Markup

open Success

namespace Token

-- What a token adds to the text.
def said : Token → List Char
  | chars text => text
  | _          => []

-- A text is read step by step, and each step takes at least one character.
inductive Reads : List Char → List Token → Prop
  | done : Reads [] []
  | step :
    (next? s = some (tokens, rest)) → (rest.length < s.length) → (Reads rest more) → Reads s (tokens ++ more)

variable {s rest text : List Char} {token : Token} {tokens more : List Token} {c : Char}

theorem Reads.one {piece : List Char} (hn : next? (piece ++ rest) = some ([token], rest)) (hp : piece ≠ [])
    (h : Reads rest more) : Reads (piece ++ rest) (token :: more) := by
  have hl := List.length_pos_iff.mpr hp
  exact .step hn (by rw [List.length_append]; omega) h

theorem Reads.readAll_eq (h : Reads s tokens) {steps : Nat} (hs : s.length ≤ steps) :
    readAll steps s = some tokens := by
  induction h generalizing steps
  case done => cases steps <;> rfl
  case step s tokens rest more hn hl _ hi =>
    cases s
    case nil => cases hl
    case cons c s =>
      obtain ⟨steps, rfl⟩ := Nat.exists_eq_succ_of_ne_zero (Nat.ne_of_gt (Nat.lt_of_lt_of_le (Nat.succ_pos _) hs))
      have hrest := hi (Nat.le_of_lt_succ (Nat.lt_of_lt_of_le hl hs))
      simp [readAll, hn, hrest]

theorem tokens?_of_reads (h : Reads s tokens) : tokens? s = some tokens :=
  h.readAll_eq (Nat.le_refl _)

theorem next?_of_not_mark (hc : isMark c = false) :
    next? (c :: s) = some ([.chars (c :: s.takeWhile (!isMark ·))], s.dropWhile (!isMark ·)) := by
  have ⟨hlt, hamp⟩ : c ≠ '<' ∧ c ≠ '&' := by simpa [isMark] using hc
  unfold next?
  split
  case h_8 =>
    rw [List.takeWhile_cons_of_pos (by simp [hc]), List.dropWhile_cons_of_pos (by simp [hc])]
  all_goals
    rename_i heq
    cases heq
    contradiction

-- A character that is no mark is a stretch of its own before a mark, and part of the next one otherwise.
theorem Reads.before_mark {m : Char} (hc : isMark c = false) (hm : isMark m = true) (h : Reads (m :: s) tokens) :
    Reads (c :: m :: s) (.chars [c] :: tokens) := by
  have hn := next?_of_not_mark (s := m :: s) hc
  rw [List.takeWhile_cons_of_neg (by simp [hm]), List.dropWhile_cons_of_neg (by simp [hm])] at hn
  exact .step hn (by simp) h

theorem Reads.before_stretch {d : Char} (hc : isMark c = false) (hd : isMark d = false) (h : Reads (d :: s) tokens) :
    ∃ text more, tokens = .chars text :: more ∧ Reads (c :: d :: s) (.chars (c :: text) :: more) := by
  have hn := next?_of_not_mark (s := d :: s) hc
  rw [List.takeWhile_cons_of_pos (by simp [hd]), List.dropWhile_cons_of_pos (by simp [hd])] at hn
  cases h
  case step hrest hd' hl =>
    rw [next?_of_not_mark hd] at hd'
    cases hd'
    exact ⟨_, _, rfl, .step hn (Nat.lt_succ_of_lt hl) hrest⟩

end Token

open Token

-- Tokens without tags that say a text.
structure IsText (words : List Token) (text : List Char) : Prop where
  untagged : ∀ w ∈ words, ∃ part, w = .chars part
  said     : words.flatMap said = text

theorem IsText.cons {words : List Token} {text : List Char} (part : List Char) (h : IsText words text) :
    IsText (.chars part :: words) (part ++ text) where
  untagged := List.forall_mem_cons.mpr ⟨⟨part, rfl⟩, h.untagged⟩
  said     := congrArg (part ++ ·) h.said

-- A piece of markup is read as some tokens, provided that a tag follows it.
def SpelledAs (P : List Token → Prop) (piece : List Char) : Prop :=
  ∀ rest more, Reads ('<' :: rest) more → ∃ tokens, P tokens ∧ Reads (piece ++ '<' :: rest) (tokens ++ more)

section

variable {c : Char} {s text rest : List Char} {words more : List Token}

-- What a reference for a character is read as.
theorem next?_escapeChar (h : c = '&' ∨ c = '<' ∨ c = '>') (s : List Char) :
    ∃ name, escapeChar c = '&' :: name ∧ next? ('&' :: name ++ s) = some ([.chars [c]], s) := by
  rcases h with rfl | rfl | rfl <;> exact ⟨_, rfl, rfl⟩

theorem escapeChar_eq (h : ¬(c = '&' ∨ c = '<' ∨ c = '>')) : escapeChar c = [c] ∧ isMark c = false := by
  simp_all [escapeChar, isMark]

-- A character in front of a text goes into its first stretch, unless a mark follows.
theorem IsText.before (hc : isMark c = false) (hw : IsText words text)
    (h : Reads (text.flatMap escapeChar ++ '<' :: rest) (words ++ more)) :
    ∃ words', IsText words' (c :: text) ∧ Reads (c :: (text.flatMap escapeChar ++ '<' :: rest)) (words' ++ more) := by
  cases text
  case nil => exact ⟨.chars [c] :: words, hw.cons [c], .before_mark hc rfl h⟩
  case cons d text =>
    rw [List.flatMap_cons, List.append_assoc] at h ⊢
    by_cases hd : d = '&' ∨ d = '<' ∨ d = '>'
    case pos =>
      have ⟨name, he, _⟩ := next?_escapeChar hd []
      rw [he] at h ⊢
      exact ⟨.chars [c] :: words, hw.cons [c], .before_mark hc rfl h⟩
    case neg =>
      have ⟨he, hd⟩ := escapeChar_eq hd
      rw [he] at h ⊢
      have ⟨part, more', hp, hr⟩ := h.before_stretch hc hd
      cases words
      case nil => cases hw.said
      case cons w words =>
        cases hp
        refine ⟨.chars (c :: part) :: words, ?_, hr⟩
        have ⟨_, hwords⟩ := List.forall_mem_cons.mp hw.untagged
        exact ⟨List.forall_mem_cons.mpr ⟨⟨_, rfl⟩, hwords⟩, congrArg (c :: ·) hw.said⟩

theorem spelledAs_escape (s : List Char) : SpelledAs (IsText · s) (s.flatMap escapeChar) := by
  intro rest more h
  induction s
  case nil => exact ⟨[], ⟨List.forall_mem_nil _, rfl⟩, h⟩
  case cons c s hi =>
    have ⟨words, hw, hr⟩ := hi
    rw [List.flatMap_cons, List.append_assoc]
    by_cases hc : c = '&' ∨ c = '<' ∨ c = '>'
    case pos =>
      have ⟨name, he, hn⟩ := next?_escapeChar hc (s.flatMap escapeChar ++ '<' :: rest)
      rw [he]
      exact ⟨.chars [c] :: words, hw.cons [c], .one hn (List.cons_ne_nil _ _) hr⟩
    case neg =>
      have ⟨he, hmark⟩ := escapeChar_eq hc
      rw [he]
      exact hw.before hmark hr

-- What a text becomes: the spaces at its start are kept by spaces that do not break.
def kept (s : List Char) : List Char :=
  (s.takeWhile (· = ' ')).map (fun _ => '\u00A0') ++ s.dropWhile (· = ' ')

theorem spelledAs_text (s : List Char) : SpelledAs (IsText · (kept s)) (Markup.text s) := by
  intro rest more h
  have ⟨words, hw, hr⟩ := spelledAs_escape (s.dropWhile (· = ' ')) rest more h
  unfold kept Markup.text
  induction s.takeWhile (· = ' ')
  case nil => exact ⟨words, hw, hr⟩
  case cons _ _ hi =>
    have ⟨words, hw, hr⟩ := hi
    rw [List.flatMap_cons, List.append_assoc, List.append_assoc]
    have hn (s : List Char) : next? ("&nbsp;".toList ++ s) = some ([.chars ['\u00A0']], s) := rfl
    exact ⟨.chars ['\u00A0'] :: words, hw.cons _, .one (hn _) (by decide) (List.append_assoc .. ▸ hr)⟩

end

-- The tokens of a text in bold or italic type.
def wrapped (tag : String) (on : Bool) (tokens : List Token) : List Token :=
  if on then .opening tag [] :: tokens ++ [.closing tag] else tokens

theorem SpelledAs.wrap {P : List Token → Prop} {piece : List Char} {tag : String} (ht : tag = "b" ∨ tag = "i")
    (on : Bool) (h : SpelledAs P piece) :
    SpelledAs (fun tokens => ∃ inner, P inner ∧ tokens = wrapped tag on inner) (wrap tag on piece) := by
  intro rest more hr
  cases on
  case false =>
    have ⟨inner, hp, hr⟩ := h rest more hr
    exact ⟨inner, ⟨inner, hp, rfl⟩, hr⟩
  case true =>
    have hopening (s : List Char) : next? (('<' :: tag.toList ++ ['>']) ++ s) = some ([.opening tag []], s) := by
      rcases ht with rfl | rfl <;> rfl
    have hclosing (s : List Char) : next? (('<' :: '/' :: tag.toList ++ ['>']) ++ s) = some ([.closing tag], s) := by
      rcases ht with rfl | rfl <;> rfl
    have ⟨inner, hp, hr⟩ := h _ _ (.one (hclosing ('<' :: rest)) (List.cons_ne_nil _ _) hr)
    refine ⟨_, ⟨inner, hp, rfl⟩, ?_⟩
    have hw := Reads.one (hopening _) (List.cons_ne_nil _ _) hr
    simpa [Markup.wrap, wrapped] using hw

-- The attributes of a font, and what each is read as.
def spelledAttributes (given : List (String × String)) : List Char :=
  given.flatMap fun (name, value) => named name value

def readAttributes (given : List (String × String)) : List Attribute :=
  given.map fun (name, value) => { name, value := some (Text.Reference.resolve value.toList) }

-- Names that are known, and values that do not close the quotation marks around them.
def Readable (given : List (String × String)) : Prop :=
  ∀ a ∈ given, a.1 ∈ ["name", "size", "color"] ∧ '"' ∉ a.2.toList

theorem quotedValue?_eq {value : List Char} (h : '"' ∉ value) (s : List Char) :
    quotedValue? '"' (value ++ '"' :: s) = some (Text.Reference.resolve value, s) := by
  have hv : ∀ c ∈ value, (c ≠ '"' : Bool) = true := fun c hc => decide_eq_true fun he => h (he ▸ hc)
  rw [quotedValue?, List.dropWhile_append_of_pos hv, List.takeWhile_append_of_pos hv,
    List.dropWhile_cons_of_neg (by simp), List.takeWhile_cons_of_neg (by simp), List.append_nil]

theorem attributes?_quoted {name : String} (hn : name ∈ ["name", "size", "color"]) (steps : Nat) (s : List Char) :
    attributes? (steps + 1) (' ' :: (name.toList ++ '=' :: '"' :: s)) =
      (do
        let (value, rest) ← (quotedValue? '"' s).map fun (v, rest) => (some v, rest)
        let (others, closed, rest) ← attributes? steps rest
        return ({ name, value } :: others, closed, rest)) := by
  simp only [List.mem_cons, List.not_mem_nil, or_false] at hn
  rcases hn with rfl | rfl | rfl <;> rfl

theorem attributes?_named {name value : String} (hn : name ∈ ["name", "size", "color"]) (hv : '"' ∉ value.toList)
    (steps : Nat) (s : List Char) : attributes? (steps + 1) (named name value ++ s) =
      (do
        let (others, closed, rest) ← attributes? steps s
        return ({ name, value := some (Text.Reference.resolve value.toList) } :: others, closed, rest)) := by
  have hs : named name value ++ s = ' ' :: (name.toList ++ '=' :: '"' :: (value.toList ++ '"' :: s)) := by
    simp [named]
  rw [hs, attributes?_quoted hn, quotedValue?_eq hv]
  rfl

theorem attributes?_spelled {given : List (String × String)} (h : Readable given) (s : List Char) {steps : Nat}
    (hs : given.length < steps) :
    attributes? steps (spelledAttributes given ++ '>' :: s) = some (readAttributes given, false, s) := by
  induction given generalizing steps
  case nil =>
    obtain ⟨steps, rfl⟩ := Nat.exists_eq_succ_of_ne_zero (Nat.ne_of_gt hs)
    rfl
  case cons a given hi =>
    obtain ⟨steps, rfl⟩ := Nat.exists_eq_succ_of_ne_zero (Nat.ne_of_gt (Nat.lt_of_le_of_lt (Nat.zero_le _) hs))
    have ⟨⟨hn, hv⟩, hgiven⟩ := List.forall_mem_cons.mp h
    rw [spelledAttributes, List.flatMap_cons, List.append_assoc, Nat.succ_eq_add_one, attributes?_named hn hv]
    rw [← spelledAttributes, hi hgiven (Nat.lt_of_succ_lt_succ hs)]
    rfl

theorem length_le_spelledAttributes (given : List (String × String)) :
    given.length ≤ (spelledAttributes given).length := by
  induction given
  case nil         => exact Nat.le_refl _
  case cons a _ hi =>
    rw [spelledAttributes, List.flatMap_cons, List.length_append, ← spelledAttributes]
    simp [named]
    omega

theorem next?_font {given : List (String × String)} (h : Readable given) (hn : given ≠ []) (s : List Char) :
    next? (("<font".toList ++ (spelledAttributes given ++ ['>'])) ++ s) =
      some ([.opening "font" (readAttributes given)], s) := by
  rw [List.append_assoc, List.append_assoc, List.singleton_append]
  have ⟨inner, hinner⟩ : ∃ inner, spelledAttributes given ++ '>' :: s = ' ' :: inner := by
    cases given
    case nil      => contradiction
    case cons a _ => exact ⟨_, rfl⟩
  have hopening (t : List Char) : next? ("<font".toList ++ ' ' :: t) =
      (do
        let (attributes, closed, rest) ← attributes? ((' ' :: t).length + 1) (' ' :: t)
        return (.opening "font" attributes :: (if closed then [.closing "font"] else []), rest)) := rfl
  have hl : given.length < (' ' :: inner).length + 1 := by
    have hg := length_le_spelledAttributes given
    rw [← hinner, List.length_append]
    omega
  have ha := attributes?_spelled h s hl
  rw [hinner] at ha ⊢
  rw [hopening, ha]
  rfl

-- What a run is read as: a font around its text, with italic and bold type where the run asks for them.
def SaysRun (run : Run) (part : List Token) : Prop :=
  ∃ attributes words, IsText words (kept run.text.toList) ∧
    part = .opening "font" attributes :: wrapped "i" run.italic (wrapped "b" run.bold words) ++ [.closing "font"]

section

variable {defaultFont : String} {run : Run} {runs : List Run} {piece markup rest : List Char} {more : List Token}

theorem ofName_mem (name : String) :
    Family.ofName name ∈ [Family.helvetica, Family.courier, Family.times] := by
  simp only [Family.ofName, Family.known, List.lookup_cons, List.lookup_nil]
  split
  case h_1 => simp
  case h_2 =>
    split
    case h_1 => simp
    case h_2 => split <;> simp

theorem letter_or_hyphen_of_mem_regular (name : String) :
    ∀ c ∈ (Family.ofName name).regular.toList, c.isAlpha ∨ c = '-' := by
  have hall : ∀ family ∈ [Family.helvetica, Family.courier, Family.times],
      family.regular.toList.all fun c => c.isAlpha || c = '-' := by decide
  simpa using hall _ (ofName_mem name)

theorem quote_not_mem_shortest (v : Rat) : '"' ∉ (Number.shortest v).toList := by
  intro h
  cases Number.mem_shortest h
  case inl h => exact absurd h (by decide)
  case inr h => exact absurd h (by decide)

-- The attributes of the font of a run.
def fontAttributes (defaultFont : String) (size : Rat) (run : Run) : List (String × String) :=
  [("name", fontOf defaultFont run), ("size", Number.shortest size)] ++
    (colorOf run).toList.map fun color => ("color", "#" ++ color)

-- What a run is read as, with the attributes of its font.
def TellsRun (defaultFont : String) (run : Run) (part : List Token) : Prop :=
  ∃ size words, ofHalfPoints run.size = .ok size ∧ IsText words (kept run.text.toList) ∧
    part = .opening "font" (readAttributes (fontAttributes defaultFont size run)) ::
      wrapped "i" run.italic (wrapped "b" run.bold words) ++ [.closing "font"]

theorem TellsRun.says {part : List Token} : TellsRun defaultFont run part → SaysRun run part
  | ⟨_, words, _, hw, hp⟩ => ⟨_, words, hw, hp⟩

theorem readable_fontAttributes (defaultFont : String) (size : Rat) (hq : breaksOut run = false) :
    Readable (fontAttributes defaultFont size run) := by
  refine List.forall_mem_append.mpr ⟨List.forall_mem_cons.mpr ⟨?name, List.forall_mem_singleton.mpr ?size⟩,
    List.forall_mem_map.mpr fun color hc => ?color⟩
  case name  => exact ⟨by simp, fun h => absurd (letter_or_hyphen_of_mem_regular _ _ h) (by decide)⟩
  case size  => exact ⟨by simp, quote_not_mem_shortest _⟩
  case color =>
    have hcolor : '"' ∉ color.toList := by simpa [breaksOut, Option.mem_toList.mp hc] using hq
    exact ⟨by simp, by simpa using hcolor⟩

theorem ofRun_eq_ok (h : ofRun defaultFont run = .ok piece) : ∃ size, ofHalfPoints run.size = .ok size ∧
    piece = ("<font".toList ++ (spelledAttributes (fontAttributes defaultFont size run) ++ ['>'])) ++
      (wrap "i" run.italic (wrap "b" run.bold (text run.text.toList)) ++ '<' :: "/font>".toList) := by
  simp only [ofRun, bind_eq_ok, pure_eq_ok] at h
  obtain ⟨size, hs, rfl⟩ := h
  refine ⟨size, hs, ?_⟩
  cases hc : colorOf run <;> simp [spelledAttributes, fontAttributes, hc]

-- The markup of a run can be read wherever it stands.
theorem reads_ofRun (hq : breaksOut run = false) (h : ofRun defaultFont run = .ok piece) (hr : Reads rest more) :
    ∃ part, TellsRun defaultFont run part ∧ Reads (piece ++ rest) (part ++ more) := by
  have ⟨size, hs, hp⟩ := ofRun_eq_ok h
  have hclosing : next? (('<' :: "/font>".toList) ++ rest) = some ([.closing "font"], rest) := rfl
  have htext := ((spelledAs_text run.text.toList).wrap (.inl rfl) run.bold).wrap (.inr rfl) run.italic
  have ⟨inner, ⟨_, ⟨words, hw, hbold⟩, hitalic⟩, hcontent⟩ :=
    htext ("/font>".toList ++ rest) (.closing "font" :: more) (.one hclosing (List.cons_ne_nil _ _) hr)
  subst hbold hitalic hp
  have hopening := next?_font (readable_fontAttributes defaultFont size hq) (List.cons_ne_nil _ _)
    (wrap "i" run.italic (wrap "b" run.bold (text run.text.toList)) ++ '<' :: ("/font>".toList ++ rest))
  have hr := Reads.one hopening (List.cons_ne_nil _ _) hcontent
  refine ⟨_, ⟨size, words, hs, hw, rfl⟩, ?_⟩
  simpa using hr

theorem reads_ofRuns (hq : ∀ run ∈ runs, breaksOut run = false) (h : ofRuns defaultFont runs = .ok markup) :
    ∃ parts, List.Forall₂ (TellsRun defaultFont) runs parts ∧ tokens? markup = some parts.flatten := by
  have ⟨pieces, hmap, hm⟩ := map_eq_ok.mp h
  have ⟨parts, hs, hr⟩ : ∃ parts, List.Forall₂ (TellsRun defaultFont) runs parts ∧
      Reads pieces.flatten parts.flatten := by
    have hp := mapM_eq_ok.mp hmap
    clear h hm hmap
    induction hp
    case nil => exact ⟨[], .nil, .done⟩
    case cons hrun _ hi =>
      have ⟨hrunq, hq⟩ := List.forall_mem_cons.mp hq
      have ⟨parts, hs, hr⟩ := hi hq
      have ⟨part, hpart, hr⟩ := reads_ofRun hrunq hrun hr
      exact ⟨part :: parts, .cons hpart hs, hr⟩
  exact ⟨parts, hs, hm ▸ tokens?_of_reads hr⟩

end

end DefectLog.Preview.Markup
