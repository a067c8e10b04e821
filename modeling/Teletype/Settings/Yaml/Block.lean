import Teletype.Settings.Yaml.Flow
import Teletype.Settings.Yaml.TextBlock

/-!
# Nodes nested by indentation

The items of a list stand behind dashes and the members of a mapping behind their keys, all in one
column. A value may start on the line of its key, or on a later line that is indented further; a
list may also start in the column of the mapping that it is a value in. A tab is no indentation:
where one has been passed over, no list and no mapping starts or goes on. An item that is empty to
the end of its line is null, and the list goes on with the next dash that is not indented further,
in whatever column it stands.
-/

namespace Teletype.Settings.Yaml

namespace Readers

/-- The items of a list in a column, at most so many. -/
def items? (inner : Readers) (column : Nat) : Nat → Cursor → Option (List Datum × Cursor)
  | 0, _ => none
  | steps + 1, cur =>
    if cur.isAtEnd then some ([], cur)
    else if cur.tabbed then none
    else if !cur.isAt '-' then some ([], cur)
    else
      let start := (cur.advance 1).skip
      if start.line ≠ cur.line && start.indent ≤ column then do
        let (items, stop) ← items? inner column steps start
        return (.null :: items, stop)
      else do
        let ⟨node, next⟩ ← inner.block (column + 1) start
        let next := next.skip
        if !next.endsEntry start.line column then failure
        else if next.indent < column then return ([node.datum], next)
        else
          let (items, stop) ← items? inner column steps next
          return (node.datum :: items, stop)

/-- The members of a mapping in a column, in at most so many steps, behind those read before. A key
behind a mark waits for its value: the value follows a colon on a later line, and without one it is
null. -/
def members? (inner : Readers) (column indent : Nat) :
    Nat → Mapping → Option Node → Cursor → Option (Mapping × Cursor)
  | 0, _, _, _ => none
  | steps + 1, m, waiting, cur => do
    if cur.isAtEnd then return (← m.close? waiting, cur)
    if waiting.isNone && cur.tabbed then failure
    let goOn (m : Mapping) (waiting : Option Node) (next : Cursor) : Option (Mapping × Cursor) := do
      let next := next.skip
      if !next.endsEntry cur.line column then failure
      if next.indent < column then return (← m.close? waiting, next)
      members? inner column indent steps m waiting next
    if cur.isAt '?' then
      let m ← m.close? waiting
      let ⟨key, next⟩ ← inner.member column true (cur.advance 1)
      goOn m (some (.value key.datum)) next
    else if cur.isAt ':' then
      let key ← waiting
      let ⟨value, next⟩ ← inner.member column true (cur.advance 1)
      goOn (← m.add? key value.datum) none next
    else
      let ⟨key, next⟩ ← inner.flow false indent cur
      if key.isEmpty then return (← m.close? waiting, cur)
      let colon := next.skipBlanks
      if next.line ≠ cur.line || !colon.isAt ':' then failure
      let m ← m.close? waiting
      let ⟨value, next⟩ ← inner.member column false (colon.advance 1)
      goOn (← m.add? key value.datum) none next

def list? (inner : Readers) (cur : Cursor) : Option Reading := do
  let (items, next) ← inner.items? cur.column inner.steps cur
  return ⟨.value (.list items), next⟩

def mapping? (inner : Readers) (indent : Nat) (cur : Cursor) : Option Reading := do
  let (m, next) ← inner.members? cur.column indent inner.steps .empty none cur
  return ⟨.value m.datum, next⟩

def textOrEmpty? (inner : Readers) (indent : Nat) (cur : Cursor) : Option Reading :=
  if cur.rest.head?.any (fun c => c = '|' || c = '>') then do
    let (chars, next) ← textBlock? inner.steps indent cur
    return ⟨.value (.text (String.ofList chars)), next⟩
  else some ⟨.empty, cur⟩

/-- A node from its first character on; `structured` says whether it may be a list or a mapping that
is nested by indentation. Whether a text is a key shows behind it. -/
def block? (inner : Readers) (indent : Nat) (structured : Bool) (cur : Cursor) : Option Reading :=
  if !structured || cur.tabbed then do
    let reading ← inner.flow? false indent cur
    if reading.node.isEmpty then inner.textOrEmpty? indent cur else return reading
  else if cur.isAt '-' then inner.list? cur
  else if cur.isAt '?' then inner.mapping? indent cur
  else if cur.isAt ':' then none
  else do
    let ⟨node, next⟩ ← inner.flow false indent cur
    if node.isEmpty then inner.textOrEmpty? indent cur
    else if next.line ≠ cur.line then return ⟨node, next⟩
    else
      let behind := next.skipBlanks
      if behind.rest.head? = some ':' then inner.mapping? indent cur else return ⟨node, behind⟩

/-- What follows the mark of a member of a mapping in a column. -/
def member? (inner : Readers) (column : Nat) (compact : Bool) (cur : Cursor) : Option Reading :=
  let start := cur.skip
  if start.line = cur.line then inner.block? (column + 1) compact start
  else if column < start.indent then inner.block? (column + 1) true start
  else if start.indent = column && !start.tabbed && start.isAt '-' then inner.list? start
  else some ⟨.empty, start⟩

/-- The readers of nodes of so many levels: a node on its own has one level. -/
def upTo (steps : Nat) : Nat → Readers
  | 0 => refuse steps
  | levels + 1 =>
    let inner := upTo steps levels
    { steps
      flow := inner.flow?
      block := fun indent => inner.block? indent true
      member := inner.member? }

end Readers

end Teletype.Settings.Yaml
