import Teletype.Settings.Yaml.Node
import Teletype.Settings.Yaml.Quoted

/-!
# Nodes in brackets

Lists stand in square brackets and mappings in braces, over as many lines as they take; a comma may
stand behind the last entry. A list may hold mappings of one member that have no braces. A key
without a mark before it stands on one line with its colon.
-/

namespace Teletype.Settings.Yaml

/-- A text in at most so many steps, or nothing. Names of nodes and tags are refused. -/
def scalar? (steps : Nat) (inBrackets : Bool) (indent : Nat) (cur : Cursor) : Option Reading :=
  match cur.rest with
  | [] => some ⟨.empty, cur⟩
  | c :: _ =>
    if c = '"' || c = quote then do
      let (chars, next) ← quotedText? steps cur
      return ⟨.value (.text (String.ofList chars)), next⟩
    else if c = '&' || c = '*' || c = '!' then none
    else if startsPlain inBrackets cur.rest then do
      let (chars, next) ← plainText? inBrackets indent steps false cur
      return ⟨if chars.isEmpty then .empty else .plain chars, next⟩
    else some ⟨.empty, cur⟩

/-- An entry in brackets: its key, the value if it has a colon or a mark, and the cursor behind. -/
structure Entry where
  key : Node
  value : Option Node
  next : Cursor

namespace Readers

def entry? (inner : Readers) (indent : Nat) (cur : Cursor) : Option Entry := do
  let marked := cur.isAt '?'
  let start := if marked then (cur.advance 1).skip else cur
  let ⟨key, next⟩ ← inner.flow true indent start
  let next := next.skip
  if next.rest.head? = some ':' && (marked || next.line = start.line) then
    let ⟨value, next⟩ ← inner.flow true indent (next.advance 1).skip
    return ⟨key, some value, next.skip⟩
  else return ⟨key, if marked then some .empty else none, next⟩

/-- The entries, at most so many, up to a closing bracket. -/
def entries? (inner : Readers) (close : Char) (indent : Nat) :
    Nat → Cursor → Option (List Entry × Cursor)
  | 0, _ => none
  | steps + 1, cur =>
    let cur := cur.skip
    if cur.rest.head? = some close then some ([], cur.advance 1)
    else if cur.isAtEnd || cur.rest.head? = some ',' then none
    else do
      let entry ← entry? inner indent cur
      let next := entry.next
      if next.rest.head? = some close then return ([entry], next.advance 1)
      else if next.rest.head? = some ',' then
        let (entries, stop) ← entries? inner close indent steps (next.advance 1)
        return (entry :: entries, stop)
      else failure

end Readers

/-- An entry as an item of a list: with a value it is a mapping. -/
def Entry.item? (entry : Entry) : Option Datum :=
  match entry.value with
  | none => some entry.key.datum
  | some value => (Mapping.empty.add? entry.key value.datum).map Mapping.datum

/-- An entry as a member of a mapping: without a value it is null. -/
def Entry.addTo? (m : Mapping) (entry : Entry) : Option Mapping :=
  m.add? entry.key (entry.value.getD .empty).datum

/-- A node without block structure, from its first character on. -/
def Readers.flow? (inner : Readers) (inBrackets : Bool) (indent : Nat) (cur : Cursor) :
    Option Reading :=
  match cur.rest with
  | '[' :: _ => do
    let (entries, next) ← inner.entries? ']' indent inner.steps (cur.advance 1)
    return ⟨.value (.list (← entries.mapM Entry.item?)), next⟩
  | '{' :: _ => do
    let (entries, next) ← inner.entries? '}' indent inner.steps (cur.advance 1)
    return ⟨.value (← entries.foldlM Entry.addTo? Mapping.empty).datum, next⟩
  | _ => scalar? inner.steps inBrackets indent cur

end Teletype.Settings.Yaml
