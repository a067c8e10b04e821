import Teletype.Settings.Yaml.Cursor

/-!
# Plain text

A text without quotes ends before a colon or a comment, in brackets also before a bracket or a
comma. It goes on over lines as long as they are indented far enough.
-/

namespace Teletype.Settings.Yaml

def quote : Char := '\x27'

/-- Characters that mean something else at the start of a text. -/
def indicators : List Char := ['#', '&', '*', '!', '|', '>', quote, '"', '%', '@', '\x60']

/-- Whether a mark before this text stands on its own. -/
def standsAlone (inBrackets : Bool) (behind : List Char) : Bool :=
  behind.head?.any fun c => isSpace c || (inBrackets && isBracketMark c)

def startsPlain (inBrackets : Bool) : List Char → Bool
  | [] => false
  | c :: rest =>
    !isSpace c && !isBracketMark c && !indicators.contains c &&
    !((c = '?' || c = '-') && standsAlone inBrackets rest)

/-- The characters of a plain text on one line; the flag says whether a blank stands before them. -/
def plainRun (inBrackets : Bool) : Bool → List Char → List Char
  | _, [] => []
  | afterBlank, c :: rest =>
    if endsLine c || (c = '#' && afterBlank) || (inBrackets && isBracketMark c) ||
        (c = ':' && standsAlone inBrackets rest) then []
    else c :: plainRun inBrackets (isBlank c) rest

/-- A plain text from a cursor on, over at most so many lines; `further` says that it has started on
a line before. If the next line is not indented far enough, the text ends behind its last character
that is not blank. -/
def plainText? (inBrackets : Bool) (indent : Nat) :
    Nat → Bool → Cursor → Option (List Char × Cursor)
  | 0, _, _ => none
  | lines + 1, further, cur => do
    let run := if cur.isAtBoundary then [] else plainRun inBrackets further cur.rest
    let text := trimEnd run
    if !text.all isPrintable then failure
    let stop := cur.advance run.length
    if !stop.isAtLineEnd then return (text, stop)
    let next := stop.skipInText
    if next.indent < indent then
      return (text, { cur.advance text.length with tabbed := next.tabbed })
    let (more, stop) ← plainText? inBrackets indent lines true next
    return (if more.isEmpty then text else text ++ fold (next.line - cur.line) ++ more, stop)

end Teletype.Settings.Yaml
