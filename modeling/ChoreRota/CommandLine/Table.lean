import ChoreRota.Text.Split
import ChoreRota.Text.Width

/-!
# Tables

Every cell has a blank on both sides and is as wide as its column's widest line, columns are joined
by bars, and a ruled line follows the header. A cell of several lines makes its row as high.
-/

namespace ChoreRota.CommandLine

abbrev Cell := List (List Char)

def Cell.ofText (text : String) : Cell :=
  Text.splitWhere (· == '\n') text.toList

def Cell.width (cell : Cell) : Nat :=
  cell.foldl (fun widest line => max widest (Text.lineWidth line)) 0

/-- A line filled up to a width, with a blank on both sides. -/
def padLine (width : Nat) (line : List Char) : List Char :=
  ' ' :: line ++ List.replicate (width - Text.lineWidth line) ' ' ++ [' ']

/-- The widths of columns that hold a row besides what they hold already. -/
def widenColumns : List Nat → List Cell → List Nat
  | width :: widths, cell :: cells => max width cell.width :: widenColumns widths cells
  | [], cells => cells.map Cell.width
  | widths, [] => widths

def columnWidths (rows : List (List Cell)) : List Nat :=
  rows.foldl widenColumns []

def rowLine (widths : List Nat) (row : List Cell) (index : Nat) : List Char :=
  ['|'].intercalate (List.zipWith (fun width cell => padLine width (cell.getD index [])) widths row)

def rowLines (widths : List Nat) (row : List Cell) : List (List Char) :=
  let height := row.foldl (fun highest cell => max highest cell.length) 1
  (List.range height).map (rowLine widths row)

def ruledLine (widths : List Nat) : List Char :=
  ['+'].intercalate (widths.map fun width => List.replicate (width + 2) '-')

def tableLines (header : List String) (rows : List (List String)) : List (List Char) :=
  let header := header.map Cell.ofText
  let rows := rows.map (·.map Cell.ofText)
  let widths := columnWidths (header :: rows)
  rowLines widths header ++ ruledLine widths :: rows.flatMap (rowLines widths)

def table (header : List String) (rows : List (List String)) : String :=
  String.ofList (['\n'].intercalate (tableLines header rows))

end ChoreRota.CommandLine
