import Regen.Yaml.Tag

/-!
From YAML text to tokens.  In block context indentation opens and closes
collections, and what looks like a scalar may turn out to be a key once the
colon behind it is met: the token that announces the key is then put in front of
it after the fact.  Such a key must lie within one line and within 1024 bytes.
-/

namespace Regen.Yaml

inductive Token where
  | version (major minor : Nat)
  | tagDirective (handle : String) (start : Tag)
  | documentStart
  | documentEnd
  | blockSequence
  | blockMapping
  | blockEnd
  | flowSequence
  | flowSequenceEnd
  | flowMapping
  | flowMappingEnd
  | blockEntry
  | flowEntry
  | key
  | value
  | reference (name : String)
  | anchor (name : String)
  | tag (handle : String) (suffix : Tag)
  | scalar (style : Style) (text : String)
  deriving DecidableEq, Repr

/-! ## Small tokens -/

def followsAnchor (c : Char) : Bool :=
  "?:,]\x7d%@\x60".toList.contains c

def readAnchor? (c : Cursor) : Option (String × Cursor) :=
  let (name, c) := c.skip.takeWhile isNameChar
  if !name.isEmpty && (c.seesGap || c.sees followsAnchor) then
    some (String.ofList name, c)
  else none

def readBareTag? (c : Cursor) : Option (Token × Cursor) :=
  if c.sees (· == '<') 1 then do
    let (suffix, c) ← readTagRest? true [] (c.skipMany 2)
    if c.sees (· == '>') then return (.tag "" suffix, c.skip) else none
  else do
    let (handle, c) ← readHandle? c
    if isClosedHandle handle then
      let (suffix, c) ← readTagRest? false [] c
      return (.tag (String.ofList handle) suffix, c)
    else
      let (suffix, c) ← readTagRest? false handle c
      return (if suffix = {} then .tag "" .mark else .tag "!" suffix, c)

def readTag? (inFlow : Bool) (c : Cursor) : Option (Token × Cursor) := do
  let (token, c) ← readBareTag? c
  if c.seesGap || (inFlow && c.sees (· == ',')) then return (token, c) else none

/-! ## Directives -/

def readNumber? (c : Cursor) : Option (Nat × Cursor) :=
  let (digits, c) := c.takeWhile Char.isDigit
  if digits.isEmpty || 9 < digits.length then none
  else some (digits.foldl (fun n d => 10 * n + (d.toNat - 48)) 0, c)

def readVersion? (c : Cursor) : Option (Token × Cursor) := do
  let (major, c) ← readNumber? (c.skipWhile isBlank)
  if c.sees (· == '.') then
    let (minor, c) ← readNumber? c.skip
    return (.version major minor, c)
  else none

def readTagDirective? (c : Cursor) : Option (Token × Cursor) := do
  let (handle, c) ← readHandle? (c.skipWhile isBlank)
  if (handle == ['!'] || isClosedHandle handle) && c.seesBlank then
    let (start, c) ← readTagRest? true [] (c.skipWhile isBlank)
    if c.seesGap then
      return (.tagDirective (String.ofList handle) start, c)
    else none
  else none

def readDirective? (c : Cursor) : Option (Token × Cursor) := do
  let (name, c) := c.skip.takeWhile isNameChar
  let (token, c) ←
    match String.ofList name with
    | "YAML" => if c.seesGap then readVersion? c else none
    | "TAG" => if c.seesGap then readTagDirective? c else none
    | _ => none
  return (token, ← skipLineEnd? c)

/-! ## The scanner -/

structure PossibleKey where
  tokens : Nat
  /-- In this column nothing but a key can stand. -/
  required : Bool
  line : Nat
  offset : Nat
  column : Nat

structure Scanner where
  cursor : Cursor
  tokens : Array Token := #[]
  indent : Int := -1
  outerIndents : List Int := []
  /-- The possible key of the innermost flow level, and those around it. -/
  key : Option PossibleKey := none
  outerKeys : List (Option PossibleKey) := []
  keyAllowed : Bool := true

namespace Scanner

def inFlow (s : Scanner) : Bool :=
  !s.outerKeys.isEmpty

def emit (s : Scanner) (t : Token) : Scanner :=
  { s with tokens := s.tokens.push t }

def setAllowed (s : Scanner) (allowed : Bool) : Scanner :=
  { s with keyAllowed := allowed }

def skip (s : Scanner) (n : Nat) : Scanner :=
  { s with cursor := s.cursor.skipMany n }

/-! ### Indentation -/

def closeBlocks (column : Int) :
    (indent : Int) → (outer : List Int) → Array Token → Scanner → Scanner
  | indent, [], tokens, s =>
      { s with tokens := tokens, indent := indent, outerIndents := [] }
  | indent, next :: outer, tokens, s =>
      if column < indent then
        closeBlocks column next outer (tokens.push .blockEnd) s
      else
        { s with tokens := tokens, indent := indent,
                 outerIndents := next :: outer }

def unindent (s : Scanner) (column : Int) : Scanner :=
  if s.inFlow then s
  else closeBlocks column s.indent s.outerIndents s.tokens s

def openBlock (s : Scanner) (column : Nat) (place : Nat) (t : Token) : Scanner :=
  if s.inFlow || (column : Int) ≤ s.indent then s
  else
    { s with
      indent := column
      outerIndents := s.indent :: s.outerIndents
      tokens := s.tokens.insertIdxIfInBounds place t }

/-! ### Possible keys -/

/-- Gives up a possible key; one that is required cannot be given up. -/
def giveUp? : Option PossibleKey → Option Unit
  | some key => if key.required then none else some ()
  | none => some ()

def isStale (c : Cursor) (key : PossibleKey) : Bool :=
  key.line < c.line || key.offset + 1024 < c.offset

def refresh? (c : Cursor) (key : Option PossibleKey) :
    Option (Option PossibleKey) :=
  if key.any (isStale c) then (giveUp? key).map fun _ => none else some key

def dropStale? (s : Scanner) : Option Scanner := do
  let outer ← s.outerKeys.mapM (refresh? s.cursor)
  let key ← refresh? s.cursor s.key
  return { s with key := key, outerKeys := outer }

def dropKey? (s : Scanner) : Option Scanner :=
  (giveUp? s.key).map fun _ => { s with key := none }

def noteKey? (s : Scanner) : Option Scanner :=
  if s.keyAllowed then
    (giveUp? s.key).map fun _ =>
      { s with
        key := some {
          tokens := s.tokens.size
          required := !s.inFlow && s.indent == (s.cursor.column : Int)
          line := s.cursor.line
          offset := s.cursor.offset
          column := s.cursor.column } }
  else some s

/-! ### Tokens -/

def directive? (s : Scanner) : Option Scanner := do
  let s ← (s.unindent (-1)).dropKey?
  let (token, cursor) ← readDirective? s.cursor
  return { (s.emit token) with cursor := cursor, keyAllowed := false }

def documentMark? (s : Scanner) (t : Token) : Option Scanner := do
  let s ← (s.unindent (-1)).dropKey?
  return ((s.emit t).skip 3).setAllowed false

def openFlow? (s : Scanner) (t : Token) : Option Scanner := do
  let s ← s.noteKey?
  return {
    ((s.emit t).skip 1) with
    key := none, outerKeys := s.key :: s.outerKeys, keyAllowed := true }

def closeFlow? (s : Scanner) (t : Token) : Option Scanner := do
  let s ← s.dropKey?
  let s := ((s.emit t).skip 1).setAllowed false
  match s.outerKeys with
  | key :: outer => return { s with key := key, outerKeys := outer }
  | [] => return s

def flowSeparator? (s : Scanner) : Option Scanner := do
  let s ← s.dropKey?
  return ((s.emit .flowEntry).skip 1).setAllowed true

/-- In block context an indicator stands where a key may stand. -/
def openAtIndicator? (s : Scanner) (t : Token) : Option Scanner :=
  if s.inFlow then some s
  else if s.keyAllowed then
    some (s.openBlock s.cursor.column s.tokens.size t)
  else none

def blockItem? (s : Scanner) : Option Scanner := do
  let s ← (← s.openAtIndicator? .blockSequence).dropKey?
  return ((s.emit .blockEntry).skip 1).setAllowed true

def explicitKey? (s : Scanner) : Option Scanner := do
  let s ← (← s.openAtIndicator? .blockMapping).dropKey?
  return ((s.emit .key).skip 1).setAllowed (!s.inFlow)

def value? (s : Scanner) : Option Scanner :=
  match s.key with
  | some key =>
      let tokens := s.tokens.insertIdxIfInBounds key.tokens .key
      let s :=
        { s with tokens := tokens, key := none, keyAllowed := false }
          |>.openBlock key.column key.tokens .blockMapping
      some ((s.emit .value).skip 1)
  | none => do
      let s ← s.openAtIndicator? .blockMapping
      return ((s.emit .value).skip 1).setAllowed (!s.inFlow)

def leading? (s : Scanner) (read : Cursor → Option (Token × Cursor)) :
    Option Scanner := do
  let s ← s.noteKey?
  let (token, cursor) ← read s.cursor
  return { (s.emit token) with cursor := cursor, keyAllowed := false }

def quoted? (single : Bool) (c : Cursor) : Option (Token × Cursor) := do
  let (text, c) ← readQuoted? single c
  return (.scalar (if single then .singleQuoted else .doubleQuoted) text, c)

def block? (s : Scanner) (literal : Bool) : Option Scanner := do
  let s ← s.dropKey?
  let (text, cursor) ← readBlock? literal s.indent s.cursor
  let style := if literal then Style.literal else .folded
  return {
    (s.emit (.scalar style text)) with cursor := cursor, keyAllowed := true }

def plain? (s : Scanner) : Option Scanner := do
  let s ← s.noteKey?
  let scalar ← readPlain? s.inFlow (s.indent + 1).toNat s.cursor
  return {
    (s.emit (.scalar .plain scalar.text)) with
    cursor := scalar.cursor, keyAllowed := scalar.broken }

def isIndicator (c : Char) : Bool :=
  isBlank c || "-?:,[]\x7b\x7d#&*!|>'\"%@\x60".toList.contains c

def beginsPlain (s : Scanner) (ch : Char) : Bool :=
  !isIndicator ch || (ch == '-' && !s.cursor.seesBlank 1) ||
    (!s.inFlow && (ch == '?' || ch == ':') && !s.cursor.seesGap 1)

def token? (s : Scanner) (ch : Char) : Option Scanner :=
  let c := s.cursor
  let beforeGap := s.inFlow || c.seesGap 1
  if c.column == 0 && ch == '%' then s.directive?
  else if c.atMark '-' then s.documentMark? .documentStart
  else if c.atMark '.' then s.documentMark? .documentEnd
  else if ch == '[' then s.openFlow? .flowSequence
  else if ch == '\x7b' then s.openFlow? .flowMapping
  else if ch == ']' then s.closeFlow? .flowSequenceEnd
  else if ch == '\x7d' then s.closeFlow? .flowMappingEnd
  else if ch == ',' then s.flowSeparator?
  else if ch == '-' && c.seesGap 1 then s.blockItem?
  else if ch == '?' && beforeGap then s.explicitKey?
  else if ch == ':' && beforeGap then s.value?
  else if ch == '*' then
    s.leading? fun c => (readAnchor? c).map fun (name, c) => (.reference name, c)
  else if ch == '&' then
    s.leading? fun c => (readAnchor? c).map fun (name, c) => (.anchor name, c)
  else if ch == '!' then s.leading? (readTag? s.inFlow)
  else if ch == '|' && !s.inFlow then s.block? true
  else if ch == '>' && !s.inFlow then s.block? false
  else if ch == '\'' then s.leading? (quoted? true)
  else if ch == '"' then s.leading? (quoted? false)
  else if s.beginsPlain ch then s.plain?
  else none

/-- Tabs may stand between tokens only where no key can begin. -/
def isSpacing (s : Scanner) (c : Char) : Bool :=
  c == ' ' || (c == '\t' && (s.inFlow || !s.keyAllowed))

/--
Skips spacing, comments and breaks; in block context a key may follow.  A byte
order mark may begin a line; it takes up a column.
-/
def skipGaps : (fuel : Nat) → Scanner → Scanner
  | 0, s => s
  | fuel + 1, s =>
      let c := s.cursor
      let c :=
        if c.column == 0 && c.sees (· == byteOrderMark) then c.skip else c
      let c := c.skipWhile s.isSpacing
      let c := if c.sees (· == '#') then c.skipWhile (!isBreak ·) else c
      match c.readBreak? with
      | some (_, c) =>
          skipGaps fuel
            { s with cursor := c, keyAllowed := s.keyAllowed || !s.inFlow }
      | none => { s with cursor := c }

def scan : (fuel : Nat) → Scanner → Option (List Token)
  | 0, _ => none
  | fuel + 1, s => do
      let s := s.skipGaps (s.cursor.rest.length + 1)
      let s ← s.dropStale?
      let s := s.unindent s.cursor.column
      match s.cursor.next? with
      | none =>
          let s ← (s.unindent (-1)).dropKey?
          return s.tokens.toList
      | some ch => scan fuel (← s.token? ch)

end Scanner

def tokens? (text : String) : Option (List Token) :=
  let chars := text.toList
  if chars.all isAllowed then
    Scanner.scan (chars.length + 1) { cursor := { rest := chars } }
  else none

end Regen.Yaml
