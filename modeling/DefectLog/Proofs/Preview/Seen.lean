import DefectLog.Proofs.Preview.Numbering
import DefectLog.Proofs.Text.Hexadecimal

-- What the markup of a paragraph shows once its tags are matched and its references are resolved.
namespace DefectLog.Preview.Markup

open Success

-- A text, or an element with what stands between its tags.
inductive Node
  | said (text : List Char)
  | element (tag : String) (attributes : List Attribute) (inside : List Node)

-- An element whose closing tag is still to come, and what stands before it on its level, the last first.
structure Opened where
  tag        : String
  attributes : List Attribute
  before     : List Node

-- Matches the tags. Elements close in order, and all of them do.
def nest (around : List Opened) (before : List Node) : List Token → Option (List Node)
  | []                                => if around.isEmpty then some before.reverse else none
  | .chars text :: tokens             => nest around (.said text :: before) tokens
  | .opening tag attributes :: tokens => nest ({ tag, attributes, before } :: around) [] tokens
  | .closing tag :: tokens            =>
    match around with
    | []             => none
    | o :: around =>
      if o.tag = tag then nest around (.element tag o.attributes before.reverse :: o.before) tokens else none

def nodes? (markup : List Char) : Option (List Node) :=
  (tokens? markup).bind (nest [] [])

-- The tokens that nodes are made of.
mutual
def Node.tokens : Node → List Token
  | .said text                    => [.chars text]
  | .element tag attributes inside => .opening tag attributes :: nodesTokens inside ++ [.closing tag]
def nodesTokens : List Node → List Token
  | []      => []
  | n :: ns => n.tokens ++ nodesTokens ns
end

mutual
theorem nest_node (n : Node) (around : List Opened) (before : List Node) (rest : List Token) :
    nest around before (n.tokens ++ rest) = nest around (n :: before) rest := by
  cases n
  case said text => rfl
  case element tag attributes inside =>
    have hi := nest_nodes inside ({ tag, attributes, before } :: around) [] (.closing tag :: rest)
    simpa [Node.tokens, nest] using hi
termination_by structural n
theorem nest_nodes (ns : List Node) (around : List Opened) (before : List Node) (rest : List Token) :
    nest around before (nodesTokens ns ++ rest) = nest around (ns.reverse ++ before) rest := by
  cases ns
  case nil => rfl
  case cons n ns =>
    rw [nodesTokens, List.append_assoc, nest_node, nest_nodes, List.reverse_cons, List.append_assoc, List.singleton_append]
termination_by structural ns
end

theorem nest_nodesTokens (ns : List Node) : nest [] [] (nodesTokens ns) = some ns := by
  simpa [nest] using nest_nodes ns [] [] []

-- What a reader is shown of a run. The size is a text here, as in the markup.
structure Seen where
  font   : List Char
  size   : List Char
  color  : Option (List Char)
  bold   : Bool
  italic : Bool
  text   : List Char
deriving DecidableEq

-- What there is to see of a run of the given size.
def Seen.sized (defaultFont : String) (run : Run) (size : Rat) : Seen where
  font   := (fontOf defaultFont run).toList
  size   := (Number.shortest size).toList
  color  := (colorOf run).map String.toList
  bold   := run.bold
  italic := run.italic
  text   := kept run.text.toList

-- The size of a run may be too large for a number of the preview.
def Seen.ofRun (defaultFont : String) (run : Run) : Except Fault Seen :=
  sized defaultFont run <$> ofHalfPoints run.size

-- The text of nodes among which there is no element.
def texts? : List Node → Option (List Char)
  | []                 => some []
  | .said text :: ns   => (text ++ ·) <$> texts? ns
  | .element _ _ _ :: _ => none

-- Whether nodes are one plain element, and what stands inside of it then.
def unwrap (tag : String) : List Node → Bool × List Node
  | [.element tag' [] inside] => if tag' = tag then (true, inside) else (false, [.element tag' [] inside])
  | ns                        => (false, ns)

-- The font, the size, and the color if there is one. No other attribute may stand in a font.
def face? : List Attribute → Option (List Char × List Char × Option (List Char))
  | [⟨"name", some font⟩, ⟨"size", some size⟩]                                => some (font, size, none)
  | [⟨"name", some font⟩, ⟨"size", some size⟩, ⟨"color", some ('#' :: color)⟩] => some (font, size, some color)
  | _                                                                          => none

def Node.seen? : Node → Option Seen
  | .element "font" attributes inside => do
    let (font, size, color) ← face? attributes
    let (italic, inside) := unwrap "i" inside
    let (bold, inside) := unwrap "b" inside
    let text ← texts? inside
    return { font, size, color, bold, italic, text }
  | _                                 => none

-- What the elements of a markup show, one after the other. Nothing else may stand there.
def seen? (markup : List Char) : Option (List Seen) :=
  (nodes? markup).bind (List.mapM Node.seen?)

-- A color without anything but hexadecimal digits, or none.
def PlainColor (run : Run) : Prop :=
  ∀ color, run.color = some color → Text.Numeral.IsHex color.toList

section

variable {defaultFont : String} {run : Run} {runs : List Run} {part : List Token} {words : List Token}
  {text markup : List Char}

theorem IsText.exists_texts (h : IsText words text) :
    ∃ texts : List (List Char), words = texts.map .chars ∧ texts.flatten = text := by
  have ⟨hu, hs⟩ := h
  clear h
  induction words generalizing text
  case nil => exact ⟨[], rfl, hs⟩
  case cons w words hi =>
    have ⟨⟨part, hw⟩, hu⟩ := List.forall_mem_cons.mp hu
    have ⟨texts, ht, hj⟩ := hi hu rfl
    exact ⟨part :: texts, by rw [hw, ht, List.map_cons], by rw [List.flatten_cons, hj, ← hs, hw]; rfl⟩

-- The nodes of a text in bold or italic type.
def wrappedNodes (tag : String) (on : Bool) (ns : List Node) : List Node :=
  if on then [.element tag [] ns] else ns

theorem nodesTokens_wrapped (tag : String) (on : Bool) (ns : List Node) :
    nodesTokens (wrappedNodes tag on ns) = wrapped tag on (nodesTokens ns) := by
  cases on
  case false => rfl
  case true  => simp [wrappedNodes, wrapped, nodesTokens, Node.tokens]

theorem nodesTokens_said (texts : List (List Char)) : nodesTokens (texts.map .said) = texts.map .chars := by
  induction texts
  case nil       => rfl
  case cons _ hi => rw [List.map_cons, nodesTokens, hi]; rfl

theorem texts?_said (texts : List (List Char)) : texts? (texts.map .said) = some texts.flatten := by
  induction texts
  case nil       => rfl
  case cons _ hi => rw [List.map_cons, texts?, hi]; rfl

theorem unwrap_wrapped_bold (on : Bool) (texts : List (List Char)) :
    unwrap "b" (wrappedNodes "b" on (texts.map .said)) = (on, texts.map .said) := by
  cases on
  case true  => rfl
  case false => cases texts <;> rfl

theorem unwrap_wrapped_italic (on bold : Bool) (texts : List (List Char)) :
    unwrap "i" (wrappedNodes "i" on (wrappedNodes "b" bold (texts.map .said))) =
      (on, wrappedNodes "b" bold (texts.map .said)) := by
  cases on
  case true  => rfl
  case false =>
    cases bold
    case true  => rfl
    case false => cases texts <;> rfl

theorem isHex_of_plainColor {color : String} (h : PlainColor run) (hc : colorOf run = some color) :
    Text.Numeral.IsHex color.toList ∧ color.toList ≠ [] := by
  have ⟨hr, hne⟩ := Option.filter_eq_some_iff.mp hc
  exact ⟨h color hr, by simpa using hne⟩

theorem not_breaksOut_of_plainColor (h : PlainColor run) : breaksOut run = false := by
  cases hc : colorOf run
  case none       => simp [breaksOut, hc]
  case some color =>
    have hq : '"' ∉ color.toList := (isHex_of_plainColor h hc).left.not_mem rfl
    simpa [breaksOut, hc] using hq

theorem checkColor_of_plainColor (h : PlainColor run) : checkColor run = .ok () := by
  cases hc : colorOf run
  case none       => simp [checkColor, hc]
  case some color =>
    have ⟨hx, hne⟩ := isHex_of_plainColor h hc
    have hblank : (color.toList.map fun c => if Text.isBlank c then ' ' else c) = color.toList :=
      (List.map_congr_left fun c hm => if_neg (by simp [Text.Numeral.not_isBlank_of_hexValue? (hx c hm)])).trans
        (List.map_id _)
    have hamp : '&' ∉ color.toList := hx.not_mem rfl
    have hcolor : isColor ('#' :: color.toList) = true := hx.parse_isSome hne
    simp [checkColor, hc, hblank, Text.Reference.resolve_eq_self hamp, hcolor]

theorem checkMarkup_of_plainColor (h : ∀ run ∈ runs, PlainColor run) (markup : List Char) :
    checkMarkup runs markup = .ok () := by
  have hq : runs.any breaksOut = false := by
    simpa using fun run hm => not_breaksOut_of_plainColor (h run hm)
  rw [checkMarkup, if_neg (by simp [hq])]
  exact forM_eq_ok.mpr fun run hm => checkColor_of_plainColor (h run hm)

theorem face?_fontAttributes (size : Rat) (h : PlainColor run) :
    face? (readAttributes (fontAttributes defaultFont size run)) =
      some ((fontOf defaultFont run).toList, (Number.shortest size).toList, (colorOf run).map String.toList) := by
  have hf : '&' ∉ (fontOf defaultFont run).toList :=
    fun hm => absurd (letter_or_hyphen_of_mem_regular _ _ hm) (by decide)
  have hs : '&' ∉ (Number.shortest size).toList := fun hm => by
    cases Number.mem_shortest hm
    case inl h => exact absurd h (by decide)
    case inr h => exact absurd h (by decide)
  cases hc : colorOf run
  case none =>
    simp [readAttributes, fontAttributes, hc, Text.Reference.resolve_eq_self hf, Text.Reference.resolve_eq_self hs, face?]
  case some color =>
    have hx : '&' ∉ color.toList := (isHex_of_plainColor h hc).left.not_mem rfl
    have ha : '&' ∉ '#' :: color.toList := by simpa using hx
    simp [readAttributes, fontAttributes, hc, Text.Reference.resolve_eq_self hf, Text.Reference.resolve_eq_self hs,
      Text.Reference.resolve_eq_self ha, face?]

-- The tokens of a run are those of one element, and it shows what there is to see of the run.
theorem TellsRun.node (hc : PlainColor run) (h : TellsRun defaultFont run part) :
    ∃ (n : Node) (s : Seen), part = n.tokens ∧ n.seen? = some s ∧ Seen.ofRun defaultFont run = .ok s := by
  have ⟨size, words, hs, hw, hp⟩ := h
  have ⟨texts, ht, hj⟩ := hw.exists_texts
  refine ⟨.element "font" (readAttributes (fontAttributes defaultFont size run))
    (wrappedNodes "i" run.italic (wrappedNodes "b" run.bold (texts.map .said))),
    .sized defaultFont run size, ?tokens, ?seen, ?ofRun⟩
  case tokens => rw [Node.tokens, nodesTokens_wrapped, nodesTokens_wrapped, nodesTokens_said, hp, ht]
  case seen   =>
    simp only [Node.seen?, face?_fontAttributes size hc, unwrap_wrapped_italic, unwrap_wrapped_bold, texts?_said, hj]
    rfl
  case ofRun  => exact map_eq_ok.mpr ⟨size, hs, rfl⟩

theorem nodes_of_tellsRun {parts : List (List Token)} (hc : ∀ run ∈ runs, PlainColor run)
    (h : List.Forall₂ (TellsRun defaultFont) runs parts) :
    ∃ ns seen, parts.flatten = nodesTokens ns ∧ ns.mapM Node.seen? = some seen ∧
      runs.mapM (Seen.ofRun defaultFont) = .ok seen := by
  induction h
  case nil => exact ⟨[], [], rfl, rfl, rfl⟩
  case cons hr _ hi =>
    have ⟨hc, hcs⟩ := List.forall_mem_cons.mp hc
    have ⟨n, s, hp, hn, hs⟩ := hr.node hc
    have ⟨ns, seen, hps, hns, hss⟩ := hi hcs
    refine ⟨n :: ns, s :: seen, ?_, ?_, ?_⟩
    · rw [List.flatten_cons, hp, hps, nodesTokens]
    · rw [List.mapM_cons, hn, hns]; rfl
    · rw [List.mapM_cons, hs, hss]; rfl

theorem seen_of_ofRuns (hc : ∀ run ∈ runs, PlainColor run) (h : ofRuns defaultFont runs = .ok markup) :
    ∃ seen, seen? markup = some seen ∧ runs.mapM (Seen.ofRun defaultFont) = .ok seen := by
  have ⟨parts, hparts, ht⟩ := reads_ofRuns (fun run hm => not_breaksOut_of_plainColor (hc run hm)) h
  have ⟨ns, seen, hf, hn, hs⟩ := nodes_of_tellsRun hc hparts
  refine ⟨seen, ?_, hs⟩
  rw [seen?, nodes?, ht, Option.bind_some, hf, nest_nodesTokens, Option.bind_some, hn]

theorem ofRun_eq_error {e : Fault} (h : ofRun defaultFont run = .error e) : ofHalfPoints run.size = .error e := by
  rcases bind_eq_error.mp h with h | ⟨_, _, h⟩
  · exact h
  · cases h

-- The markup fails for no other reason than the sizes do.
theorem seen_ofRuns (hc : ∀ run ∈ runs, PlainColor run) :
    seen? <$> ofRuns defaultFont runs = some <$> runs.mapM (Seen.ofRun defaultFont) := by
  cases hm : ofRuns defaultFont runs
  case ok markup =>
    have ⟨seen, hs, hr⟩ := seen_of_ofRuns hc hm
    rw [hr]
    exact congrArg Except.ok hs
  case error e =>
    have hr : runs.mapM (Seen.ofRun defaultFont) = .error e := by
      refine mapM_eq_error_of (fun run piece h => ?ok) (fun run e h => ?error) (map_eq_error.mp hm)
      case ok =>
        have ⟨size, hs, _⟩ := ofRun_eq_ok h
        exact ⟨_, map_eq_ok.mpr ⟨size, hs, rfl⟩⟩
      case error => exact map_eq_error.mpr (ofRun_eq_error h)
    rw [hr]
    rfl

end

end Markup

open Markup Success

-- A paragraph with text, whatever its runs say. Its markup shows the runs one after the other, each with its own
-- looks and its own text, and is what is set in the end unless a number is too large.
theorem seen_of_flowParagraph {defaults : Defaults} {p : Paragraph} (hr : p.rule = none)
    (hb : Text.allBlank p.text = false) (hc : ∀ run ∈ p.runs, PlainColor run) :
    seen? <$> ofRuns defaults.font p.runs = some <$> p.runs.mapM (Seen.ofRun defaults.font) ∧
    ∀ count, (∃ t, ((flowParagraph defaults p).run count).1 = .ok (.text t) ∧
        ofRuns defaults.font p.runs = .ok t.markup.toList) ∨
      ((flowParagraph defaults p).run count).1 = .error .numberTooLarge := by
  refine ⟨seen_ofRuns hc, fun count => ?_⟩
  have hp : flowParagraph defaults p = flowText defaults p := by simp [flowParagraph, hr, hb]
  have hf := flowsText defaults p count
  rw [hp]
  generalize (flowText defaults p).run count = r at hf
  cases hf
  case set t hm _ => exact .inl ⟨t, rfl, hm⟩
  case unmarked e hm =>
    obtain ⟨run, _, h⟩ := exists_of_mapM_error (map_eq_error.mp hm)
    exact .inr (congrArg Except.error (eq_of_quotient (ofRun_eq_error h)))
  case failed e markup _ he =>
    cases he
    case inl h => exact .inr (congrArg Except.error h)
    case inr h =>
      rw [checkMarkup_of_plainColor hc] at h
      cases h

-- Texts that look like markup, and one that is nothing but spaces.
def mimic : Paragraph where
  runs := [
    { text := "  </b></font><b>&amp; ", size := 22, bold := true, italic := true, color := some "1F3864" },
    { text := "\"><i>&#65;&nbsp;", size := 21, color := some "", font := some "Courier New" },
    { text := "  ", size := 1, italic := true, color := some "0" }]

def mimicked : List Seen := [
  { font := "Helvetica".toList, size := "11.0".toList, color := some "1F3864".toList, bold := true, italic := true,
    text := "\u00A0\u00A0</b></font><b>&amp; ".toList },
  { font := "Courier".toList, size := "10.5".toList, color := none, bold := false, italic := false,
    text := "\"><i>&#65;&nbsp;".toList },
  { font := "Helvetica".toList, size := "0.5".toList, color := some "0".toList, bold := false, italic := true,
    text := "\u00A0\u00A0".toList }]

theorem seen_of_flowParagraph_mimic :
    mimic.rule = none ∧ Text.allBlank mimic.text = false ∧ (∀ run ∈ mimic.runs, PlainColor run) ∧
    ∃ markup, ofRuns "Georgia" mimic.runs = .ok markup ∧ seen? markup = some mimicked := by
  have hr : mimic.rule = none := rfl
  have hb : Text.allBlank mimic.text = false := by decide +kernel
  have hc : ∀ run ∈ mimic.runs, PlainColor run := by
    simp [mimic, PlainColor, Text.Numeral.IsHex]
    decide
  have ⟨hs, _⟩ := @seen_of_flowParagraph { font := "Georgia", size := 22 } mimic hr hb hc
  have hshown : mimic.runs.mapM (Seen.ofRun "Georgia") = .ok mimicked := by decide +kernel
  have ⟨markup, hm, hs⟩ := map_eq_ok.mp (hs.trans (congrArg (some <$> ·) hshown))
  exact ⟨hr, hb, hc, markup, hm, hs⟩

end DefectLog.Preview
