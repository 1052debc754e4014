import DefectLog.Proofs.Document.Erasure
import DefectLog.Proofs.Word.Color
import DefectLog.Word.Rendering

-- Documents are written alike if their colors have the same normal forms.
namespace DefectLog

open Word

def Run.normalized (run : Run) : Run :=
  { run with color := run.color.map normalColor }

def Paragraph.normalized (p : Paragraph) : Paragraph :=
  { p with runs := p.runs.map Run.normalized }

def NamedStyle.normalized (heading : NamedStyle) : NamedStyle :=
  { heading with color := normalColor heading.color }

-- All remains, and of the colors of runs the normal form.
def Erasure.normalColors : Erasure where
  paragraph := Paragraph.normalized
  cell      := id
  widths    := id

-- Every color of a run or a heading style in its normal form.
def Document.normalized (d : Document) : Document where
  defaults := { d.defaults with namedStyles := d.defaults.namedStyles.map NamedStyle.normalized }
  page     := d.page
  body     := eraseBlocks .normalColors d.body

namespace Word

theorem Run.ofTree_normalized (run : DefectLog.Run) : ofTree run.normalized = ofTree run := by
  have hcolor : (nonempty? (run.color.map normalColor)).mapM readColor = (nonempty? run.color).mapM readColor := by
    rw [nonempty?_normalColor]
    cases nonempty? run.color
    case none      => rfl
    case some text => simp [readColor_normalColor]
  simp only [ofTree, DefectLog.Run.normalized, hcolor]

variable {book : StyleBook}

theorem Paragraph.write_normalized (source : DefectLog.Paragraph) (p : Paragraph) :
    write book source.normalized p = write book source p := by
  have hruns : (source.runs.map DefectLog.Run.normalized).mapM Run.ofTree = source.runs.mapM Run.ofTree := by
    rw [List.mapM_map]
    exact congrArg (source.runs.mapM ·) (funext Run.ofTree_normalized)
  simp only [write, DefectLog.Paragraph.normalized, hruns]

theorem Cell.writeFirst_normalized (source : DefectLog.Paragraph) (c : Cell Block) :
    c.writeFirst book source.normalized = c.writeFirst book source := by
  have hgo (bs : List Block) : writeFirst.go book source.normalized bs = writeFirst.go book source bs := by
    induction bs
    case nil          => rfl
    case cons b bs hi => cases b <;> simp only [writeFirst.go, hi, Paragraph.write_normalized]
  simp only [writeFirst, hgo]

theorem Cell.writeNext_normalized (source : DefectLog.Paragraph) (c : Cell Block) :
    c.writeNext book source.normalized = c.writeNext book source := by
  simp only [writeNext, Paragraph.write_normalized]

-- One case for each function of the writer.
mutual
theorem writeTable_normalized (room : Int) (t : DefectLog.Table DefectLog.Block) :
    writeTable book room { t with rows := eraseRows .normalColors t.rows } = writeTable book room t := by
  have hlength : (eraseRows .normalColors t.rows).length = t.rows.length := by rw [eraseRows_eq_map, List.length_map]
  simp only [writeTable, hlength, writeRows_normalized, DefectLog.Table.width]
termination_by structural t
theorem writeRows_normalized (columns row : Nat) (rows : List (List (DefectLog.Cell DefectLog.Block))) (g : Grid) :
    writeRows book columns row (eraseRows .normalColors rows) g = writeRows book columns row rows g := by
  cases rows
  case nil             => rfl
  case cons cells rows => simp only [eraseRows, writeRows, writeCells_normalized, writeRows_normalized]
termination_by structural rows
theorem writeCells_normalized (columns row : Nat) (column : Int) (cells : List (DefectLog.Cell DefectLog.Block))
    (g : Grid) :
    writeCells book columns row column (eraseCells .normalColors cells) g =
      writeCells book columns row column cells g := by
  cases cells
  case nil               => rfl
  case cons source cells =>
    simp only [eraseCells, writeCells, writeBlocks_normalized, writeCells_normalized]
    rfl
termination_by structural cells
theorem writeBlocks_normalized (first : Bool) (bs : List DefectLog.Block) (c : Cell Block) :
    writeBlocks book first (eraseBlocks .normalColors bs) c = writeBlocks book first bs c := by
  cases bs
  case nil       => rfl
  case cons b bs => simp only [eraseBlocks, writeBlocks, writeInCell_normalized, writeBlocks_normalized]
termination_by structural bs
theorem writeInCell_normalized (first : Bool) (b : DefectLog.Block) (c : Cell Block) :
    writeInCell book first (b.erase .normalColors) c = writeInCell book first b c := by
  cases b
  case paragraph source =>
    cases first
    case false => exact Cell.writeNext_normalized source c
    case true  => exact Cell.writeFirst_normalized source c
  case table t => exact congrArg (· >>= _) (writeTable_normalized (Emu.ofTwips c.width) t)
termination_by structural b
end

theorem writeBlock_normalized (room : Int) (b : DefectLog.Block) :
    writeBlock book room (b.erase .normalColors) = writeBlock book room b := by
  cases b
  case paragraph source => exact congrArg (· >>= _) (Paragraph.write_normalized source {})
  case table t          => exact congrArg (· >>= _) (writeTable_normalized room t)

theorem writeBody_normalized (room : Int) (bs : List DefectLog.Block) :
    writeBody book room (eraseBlocks .normalColors bs) = writeBody book room bs := by
  induction bs
  case nil          => rfl
  case cons b bs hi => simp only [eraseBlocks, writeBody, writeBlock_normalized, hi]

theorem Style.configure_normalized (font : String) (heading : NamedStyle) (style : Style) :
    configure font heading.normalized style = configure font heading style := by
  simp only [configure, NamedStyle.normalized, readColor_normalColor]

theorem StyleBook.register_normalized (font : String) (book : StyleBook) (heading : NamedStyle) :
    register font book heading.normalized = register font book heading := by
  simp only [register, Style.configure_normalized]
  rfl

theorem StyleBook.ofDefaults_normalized (d : Document) : ofDefaults d.normalized.defaults = ofDefaults d.defaults := by
  simp only [ofDefaults, Document.normalized, List.foldlM_map, register_normalized]

-- Blocks stay blocks, and tables stay tables.
theorem builtEntry_normalized (d : Document) : builtEntry d.normalized = builtEntry d := by
  have htables : d.normalized.tables.length = d.tables.length := by
    have h := d.tables_erase .normalColors
    exact (congrArg List.length h).trans (List.length_map _)
  have hbody : d.normalized.body.length = d.body.length := by
    rw [Document.normalized, eraseBlocks_eq_map, List.length_map]
  simp only [builtEntry, hbody, htables]

theorem render_normalized (d : Document) : render d.normalized = render d := by
  simp only [render, StyleBook.ofDefaults_normalized, builtEntry_normalized]
  simp only [Document.normalized, writeBody_normalized]

end Word
end DefectLog
