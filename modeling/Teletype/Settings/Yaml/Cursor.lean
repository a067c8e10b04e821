/-!
# Places in a YAML text

What a character means depends on where it stands: in which column, on a line how far indented, and
whether a tab has been passed over on that line. A cursor is the rest of a text with the place where
it starts. A line ends with a line feed, a carriage return, or both in that order.
-/

namespace Teletype.Settings.Yaml

def endsLine (c : Char) : Bool := c = '\n' || c = '\r'

def isBlank (c : Char) : Bool := c = ' ' || c = '\t'

def isSpace (c : Char) : Bool := isBlank c || endsLine c

/-- Whether a character is a bracket or divides what is in brackets. -/
def isBracketMark (c : Char) : Bool :=
  c = ',' || c = '[' || c = ']' || c = '{' || c = '}'

/-- Whether a plain text may hold a character: no control character but those that lay text out,
and no code point that is never a character. -/
def isPrintable (c : Char) : Bool :=
  let n := c.toNat
  !(n ≤ 0x08 || n = 0x0B || n = 0x0C || (0x0E ≤ n && n ≤ 0x1F) || (0x7F ≤ n && n ≤ 0x84) ||
    (0x86 ≤ n && n ≤ 0x9F) || n = 0xFFFE || n = 0xFFFF)

def trimEnd (cs : List Char) : List Char := (cs.reverse.dropWhile isBlank).reverse

def dropLineEnd : List Char → List Char
  | '\r' :: '\n' :: rest => rest
  | _ :: rest => rest
  | [] => []

structure Place where
  line : Nat
  column : Nat
  /-- How many spaces the line starts with. -/
  indent : Nat
  /-- Whether a tab has been passed over on the line. -/
  tabbed : Bool
  deriving Inhabited

namespace Place

def right (p : Place) (n : Nat) : Place := { p with column := p.column + n }

def nextLine (p : Place) : Place :=
  { line := p.line + 1, column := 0, indent := 0, tabbed := false }

end Place

/-- The rest of a text, and the place where it starts. -/
structure Cursor extends Place where
  rest : List Char
  deriving Inhabited

/-- Pass over blanks and line ends, and over comments where they may stand. The flags say whether
the place is inside a comment, and whether only spaces stand before it on its line. -/
def passSpace (comments : Bool) : Bool → Bool → Place → List Char → Cursor
  | _, _, p, [] => ⟨p, []⟩
  | _, _, p, '\r' :: '\n' :: rest => passSpace comments false true p.nextLine rest
  | inComment, leading, p, c :: rest =>
    if endsLine c then passSpace comments false true p.nextLine rest
    else if inComment then passSpace comments true false (p.right 1) rest
    else if c = ' ' then
      let indent := if leading then p.indent + 1 else p.indent
      passSpace comments false leading { p.right 1 with indent } rest
    else if c = '\t' then passSpace comments false false { p.right 1 with tabbed := true } rest
    else if comments && c = '#' then passSpace comments true false (p.right 1) rest
    else ⟨p, c :: rest⟩

namespace Cursor

def advance (cur : Cursor) (n : Nat) : Cursor := ⟨cur.toPlace.right n, cur.rest.drop n⟩

/-- The cursor behind blanks, line ends and comments. -/
def skip (cur : Cursor) : Cursor := passSpace true false false cur.toPlace cur.rest

/-- The cursor behind blanks and line ends, within a text that goes on over lines. -/
def skipInText (cur : Cursor) : Cursor := passSpace false false false cur.toPlace cur.rest

/-- The cursor behind the blanks between a key and its colon. -/
def skipBlanks (cur : Cursor) : Cursor := cur.advance (cur.rest.takeWhile isBlank).length

def isAtEnd (cur : Cursor) : Bool := cur.rest.isEmpty

/-- Whether the line has ended. -/
def isAtLineEnd (cur : Cursor) : Bool := cur.rest.head?.any endsLine

/-- Whether a mark stands here on its own: with a blank or the end of the line behind it. -/
def isAt (cur : Cursor) (mark : Char) : Bool :=
  match cur.rest with
  | c :: d :: _ => c = mark && isSpace d
  | _ => false

/-- Whether the line is a mark that ends a document: three times the character, and nothing that
touches them. -/
def isAtMarker (cur : Cursor) (mark : Char) : Bool :=
  cur.column = 0 && [mark, mark, mark].isPrefixOf cur.rest && ((cur.rest.drop 3).head?.all isSpace)

def isAtBoundary (cur : Cursor) : Bool := cur.isAtMarker '-' || cur.isAtMarker '.'

/-- Whether an entry of a block that starts on a line may end here: the text has ended, or a later
line starts that is not indented further than the block. -/
def endsEntry (cur : Cursor) (line column : Nat) : Bool :=
  cur.isAtEnd || (cur.line ≠ line && cur.indent ≤ column)

end Cursor

/-- What stands for the line ends between two lines of one text: a blank for one of them, and of
several all but the first. -/
def fold (lineEnds : Nat) : List Char :=
  if lineEnds = 1 then [' '] else List.replicate (lineEnds - 1) '\n'

end Teletype.Settings.Yaml
