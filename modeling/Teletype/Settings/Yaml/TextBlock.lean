import Teletype.Settings.Yaml.Cursor

/-!
# Blocks of text

A text may stand on lines of its own under a mark: under a bar its lines are kept, under an angle
they are folded, except where they are indented further than the first. Behind the mark may stand
how the end of the text is kept, and how far it is indented.
-/

namespace Teletype.Settings.Yaml

/-- How the line ends behind a block of text are kept: one of them, none or all. -/
inductive Chomping where
  | clip
  | strip
  | keep
  deriving DecidableEq

/-- What the mark of a block of text says. -/
structure TextBlock where
  folded : Bool
  chomping : Option Chomping
  /-- How much further than its surroundings the text is indented, if the mark says so. -/
  width : Option Nat

namespace TextBlock

/-- What stands directly behind a mark, each of the two at most once; and how many characters that
is. -/
def header? (block : TextBlock) : List Char → Option (TextBlock × Nat)
  | [] => some (block, 0)
  | c :: rest =>
    if c = '+' || c = '-' then
      if block.chomping.isSome then none
      else do
        let chomping := some (if c = '+' then .keep else .strip)
        let (block, length) ← header? { block with chomping } rest
        return (block, length + 1)
    else if c.isDigit then
      if c = '0' || block.width.isSome then none
      else do
        let (block, length) ← header? { block with width := some (c.toNat - '0'.toNat) } rest
        return (block, length + 1)
    else some (block, 0)

/-- How far a block of text has been read. -/
structure Progress where
  /-- The indentation of the text, once it is known; before that, the least that it can be. -/
  indent : Nat
  settled : Bool
  /-- Line ends since the last line with text. -/
  empty : Nat
  /-- Whether a line with text has been read, and whether the last one was indented further. -/
  started : Bool
  deeper : Bool

/-- What stands between the last line with text and the next one; `blank` says whether that one
starts with a blank behind its indentation. -/
def between (block : TextBlock) (p : Progress) (blank : Bool) : List Char :=
  let all := if p.started then p.empty + 1 else p.empty
  if !block.folded || blank then List.replicate all '\n'
  else if p.deeper then List.replicate (p.empty + 1) '\n'
  else if p.empty = 0 then (if p.started then [' '] else [])
  else List.replicate p.empty '\n'

def ending (block : TextBlock) (p : Progress) : List Char :=
  match block.chomping.getD .clip with
  | .keep => List.replicate (if p.started then p.empty + 1 else p.empty) '\n'
  | .clip => if p.started then ['\n'] else []
  | .strip => []

/-- The lines of a block of text, at most so many, from the end of the line before them on. -/
def lines? (block : TextBlock) : Nat → Progress → Cursor → Option (List Char × Cursor)
  | 0, _, _ => none
  | steps + 1, p, cur =>
    let start : Cursor := ⟨cur.toPlace.nextLine, dropLineEnd cur.rest⟩
    let spaces := (start.rest.takeWhile (· == ' ')).length
    let indent := if p.settled then min spaces p.indent else spaces
    let line : Cursor := { start.advance indent with indent }
    let least := if p.settled then p.indent else max p.indent indent
    if cur.isAtEnd then some ([], cur)
    else if line.isAtLineEnd then
      lines? block steps { p with indent := least, empty := p.empty + 1 } line
    else if !p.settled && least = 0 then none
    else if indent < least then some (block.ending p, line)
    else do
      let text := line.rest.takeWhile (fun c => !endsLine c)
      if !text.all isPrintable then failure
      let blank := line.rest.head?.any isBlank
      let deeper := block.folded && blank
      let (more, stop) ← lines? block steps
        { indent := least, settled := true, empty := 0, started := true, deeper }
        (line.advance text.length)
      return (block.between p blank ++ text ++ more, stop)

end TextBlock

/-- A block of text, from its mark on, in at most so many lines; `indent` is the least indentation
of what stands here. A comment may stand behind the mark, with a blank before it. -/
def textBlock? (steps indent : Nat) (cur : Cursor) : Option (List Char × Cursor) := do
  let folded := cur.rest.head? = some '>'
  let (block, length) ← TextBlock.header? ⟨folded, none, none⟩ (cur.rest.drop 1)
  let behind := cur.advance (length + 1)
  let afterBlanks := behind.skipBlanks
  let lineEnd :=
    if behind.column < afterBlanks.column && afterBlanks.rest.head? = some '#' then
      afterBlanks.advance (afterBlanks.rest.takeWhile (fun c => !endsLine c)).length
    else afterBlanks
  if !lineEnd.isAtLineEnd then failure
  block.lines? steps
    { indent := (block.width.map (indent + · - 1)).getD indent
      settled := block.width.isSome
      empty := 0
      started := false
      deeper := false }
    lineEnd

end Teletype.Settings.Yaml
