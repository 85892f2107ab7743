import Handshake.Diagnostic.Style
import Handshake.Diagnostic.Width
import Handshake.Text.Bytes
set_option autoImplicit false

/-! How a diagnostic is written. A located one shows the source line that it is about,
with the place marked by carets underneath; carets and padding are as wide as the
characters above them. -/

namespace Handshake

/-! ### Finding a line -/

def splitLines : List Char → List (List Char)
  | [] => [[]]
  | char :: rest =>
      match splitLines rest with
      | [] => [[char]]
      | line :: later => if char = '\n' then [] :: line :: later else (char :: line) :: later

structure SourceLine where
  number : Nat
  start : Nat
  chars : List Char

/-- The line that an offset falls in. A line feed belongs to the line that it ends. -/
def findLine (offset number start : Nat) : List (List Char) → SourceLine
  | [] => ⟨number, start, []⟩
  | [line] => ⟨number, start, line⟩
  | line :: next :: rest =>
      let after := start + byteCount line + 1
      if offset < after then ⟨number, start, line⟩
      else findLine offset (number + 1) after (next :: rest)

def lineAt (text : String) (offset : Nat) : SourceLine :=
  findLine offset 1 0 (splitLines text.toList)

/-- How many characters of a text, which begins at `start`, end by an offset. -/
def charsUpTo (offset start : Nat) : List Char → Nat
  | [] => 0
  | char :: rest =>
      let stop := start + char.utf8Size
      if stop ≤ offset then charsUpTo offset stop rest + 1 else 0

def SourceLine.column (line : SourceLine) (offset : Nat) : Nat :=
  charsUpTo offset line.start line.chars + 1

/-! ### Cells -/

structure Cell where
  char : Char
  start : Nat
  /-- columns it takes; for a tab, those up to the next multiple of four -/
  width : Nat

def cells (start column : Nat) : List Char → List Cell
  | [] => []
  | char :: rest =>
      let width := if char = '\t' then 4 - column % 4 else charWidth char
      ⟨char, start, width⟩ :: cells (start + char.utf8Size) (column + width) rest

def Cell.overlaps (cell : Cell) (start stop : Nat) : Bool :=
  max cell.start start < min (cell.start + cell.char.utf8Size) stop

def Cell.text (cell : Cell) : List Char :=
  if cell.char = '\t' then List.replicate cell.width ' ' else [cell.char]

/-- Text around a marked middle; an empty middle is not marked. -/
def markMiddle (style : Style) (level : Level) (before middle after : List Cell)
    (outside marked : Cell → List Char) : String :=
  String.ofList (before.flatMap outside) ++
    (if middle.isEmpty then ""
      else style.mark level (String.ofList (middle.flatMap marked))) ++
    String.ofList (after.flatMap outside)

/-! ### Writing -/

def isLineEnd (char : Char) : Bool := char = '\r' || char = '\n' || char = '\x00'

def trimEnd (line : List Char) : List Char := (line.reverse.dropWhile isLineEnd).reverse

/-- The source line and the line of carets under it. An empty stretch is marked as if
it were one byte long, and one behind the last character gets a caret there. -/
def snippet (style : Style) (level : Level) (message : String) (line : List Char)
    (start stop : Nat) : String × String :=
  let shown := trimEnd line
  let stop := max stop (start + 1)
  let inside := fun (cell : Cell) => cell.overlaps start stop
  let source := cells 0 0 shown
  let under := source ++ [⟨'\x00', byteCount shown, 1⟩]
  let before := source.takeWhile (fun cell => !inside cell)
  let marked := (source.dropWhile (fun cell => !inside cell)).takeWhile inside
  let after := (source.dropWhile (fun cell => !inside cell)).dropWhile inside
  let padding := under.takeWhile (fun cell => !inside cell)
  let carets := (under.dropWhile (fun cell => !inside cell)).takeWhile inside
  let blank := fun (cell : Cell) => List.replicate cell.width ' '
  let caret := fun (cell : Cell) => List.replicate cell.width '^'
  (markMiddle style level before marked after Cell.text Cell.text,
    markMiddle style level padding carets [] blank caret ++
      (if message.isEmpty then "" else " " ++ style.mark level message))

/-- The lines of a note. A carriage return before a line feed is not part of the
line, and a line feed at the end begins no further line. -/
def noteLines (note : String) : List (List Char) :=
  let lines := splitLines note.toList
  let ended := lines.dropLast.map (fun line =>
    if line.getLast? = some '\r' then line.dropLast else line)
  match lines.getLast? with
  | none | some [] => ended
  | some last => ended ++ [last]

def renderNote (style : Style) (note : String) : String :=
  match noteLines note with
  | [] => ""
  | first :: rest =>
      " " ++ style.frame "=" ++ " " ++ String.ofList first ++ "\n" ++
        String.join (rest.map (fun line => "   " ++ String.ofList line ++ "\n"))

def renderSnippet (style : Style) (level : Level) (message : String) (file : SourceFile)
    (start stop : Nat) : String :=
  let line := lineAt file.text start
  let number := toString line.number
  let gutter := String.ofList (List.replicate number.length ' ') ++ " "
  let bar := style.frame "│"
  let (source, carets) :=
    snippet style level message line.chars (start - line.start) (stop - line.start)
  gutter ++ style.frame "┌─" ++ " " ++ file.name ++ ":" ++ number ++ ":" ++
    toString (line.column start) ++ "\n" ++
    gutter ++ bar ++ "\n" ++
    style.frame number ++ " " ++ bar ++ " " ++ source ++ "\n" ++
    gutter ++ bar ++ " " ++ carets ++ "\n"

def Diagnostic.render (style : Style) (files : List SourceFile) : Diagnostic → String
  | .general level message notes =>
      style.header level message ++ "\n" ++ String.join (notes.map (renderNote style)) ++ "\n"
  | .located level message place =>
      style.header level message ++ "\n" ++
        (match files[place.file]? with
          | some file => renderSnippet style level message file place.start place.stop
          | none => "") ++ "\n"

def Report.render (style : Style) (report : Report) : String :=
  String.join (report.diagnostics.map (Diagnostic.render style report.files))

end Handshake
