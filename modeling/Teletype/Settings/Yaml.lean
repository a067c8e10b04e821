import Teletype.Settings.Yaml.Block

/-!
# Reading YAML

A text holds one document: a node, which may stand between a mark of three dashes and a mark of
three points. Names of nodes, tags and directives are not read: a text that uses them is refused. So
is one that nests nodes too deep.
-/

namespace Teletype.Settings.Yaml

/-- How many levels of nodes a document may have, the keys counted. -/
def maxLevels : Nat := 100

/-- A text without the byte-order mark that it may start with. -/
def dropMark : List Char → List Char
  | '\uFEFF' :: rest => rest
  | cs => cs

/-- The start of a text, behind its first spaces. The last line ends even if the text does not say
so. -/
def start (cs : List Char) : Cursor :=
  let ended := if cs.getLast?.any endsLine then cs else cs ++ ['\n']
  let text := dropMark ended
  let indent := (text.takeWhile (· == ' ')).length
  { line := 0, column := indent, indent, tabbed := false, rest := text.drop indent }

/-- The value that a text is, if it is one; a text of blanks and comments is null. -/
def read? (s : String) : Option Datum := do
  if s.toList.contains '\x00' then failure
  let first := (start s.toList).skip
  if first.indent = 0 && first.rest.head? = some '%' then failure
  let marked := first.indent = 0 && ['-', '-', '-'].isPrefixOf first.rest
  let first := if marked then (first.advance 3).skip else first
  let steps := first.rest.length + 1
  let ⟨node, next⟩ ← (Readers.upTo steps maxLevels).block first.indent first
  let next := next.skip
  let next := if next.isAtMarker '.' then (next.advance 3).skip else next
  if next.isAtEnd then return node.datum else failure

end Teletype.Settings.Yaml
