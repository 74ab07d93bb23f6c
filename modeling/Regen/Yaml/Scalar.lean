import Regen.Yaml.Cursor

/-!
Reading scalars: quoted, plain and block scalars.  Line breaks inside a scalar
are folded: a single break becomes a space, of several the first is dropped.  In
a literal block scalar they stay.
-/

namespace Regen.Yaml

inductive Style where
  | plain
  | singleQuoted
  | doubleQuoted
  | literal
  | folded
  deriving DecidableEq, Repr

/-! ## Gaps -/

structure Gap where
  blanks : List Char := []
  /-- The first break, if any; an escaped break stands for nothing. -/
  first : Option (List Char) := none
  more : List Char := []

namespace Gap

def isBroken (g : Gap) : Bool :=
  g.first.isSome

def folded (g : Gap) : List Char :=
  match g.first with
  | none => g.blanks
  | some ['\n'] => if g.more.isEmpty then [' '] else g.more
  | some b => b ++ g.more

/--
Reads blanks and breaks.  After a break, a tab left of column `indent` is an
error.
-/
def read (indent : Nat) : (fuel : Nat) → Gap → Cursor → Option (Gap × Cursor)
  | 0, _, _ => none
  | fuel + 1, g, c =>
      match c.next? with
      | none => some (g, c)
      | some ch =>
          if isBlank ch then
            if g.isBroken then
              if ch == '\t' && c.column < indent then none
              else read indent fuel g c.skip
            else read indent fuel { g with blanks := g.blanks ++ [ch] } c.skip
          else
            match c.readBreak? with
            | none => some (g, c)
            | some (b, c) =>
                if g.isBroken then
                  read indent fuel { g with more := g.more ++ [b] } c
                else read indent fuel { first := some [b] } c

end Gap

/-! ## Quoted scalars -/

def escaped? : Char → Option Char
  | '0' => some (Char.ofNat 0)
  | 'a' => some (Char.ofNat 7)
  | 'b' => some (Char.ofNat 8)
  | 't' | '\t' => some '\t'
  | 'n' => some '\n'
  | 'v' => some (Char.ofNat 11)
  | 'f' => some (Char.ofNat 12)
  | 'r' => some '\r'
  | 'e' => some (Char.ofNat 27)
  | ' ' => some ' '
  | '"' => some '"'
  | '/' => some '/'
  | '\\' => some '\\'
  | 'N' => some (Char.ofNat 0x85)
  | '_' => some (Char.ofNat 0xA0)
  | 'L' => some (Char.ofNat 0x2028)
  | 'P' => some (Char.ofNat 0x2029)
  | _ => none

def codeLength? : Char → Option Nat
  | 'x' => some 2
  | 'u' => some 4
  | 'U' => some 8
  | _ => none

def hexValue? (c : Char) : Option Nat :=
  if c.isDigit then some (c.toNat - 48)
  else if 'a' ≤ c && c ≤ 'f' then some (c.toNat - 87)
  else if 'A' ≤ c && c ≤ 'F' then some (c.toNat - 55)
  else none

def hexNumber? (digits : List Char) : Option Nat :=
  digits.foldlM (fun n d => (hexValue? d).map (16 * n + ·)) 0

def charOfCode? (n : Nat) : Option Char :=
  if n.isValidChar then some (Char.ofNat n) else none

def readEscape? (c : Cursor) : Option (Char × Cursor) := do
  let letter ← c.rest[1]?
  match codeLength? letter with
  | none => return (← escaped? letter, c.skipMany 2)
  | some length =>
      let digits := (c.rest.drop 2).take length
      if digits.length < length then none
      else
        let ch ← charOfCode? (← hexNumber? digits)
        return (ch, c.skipMany (2 + length))

/-- The characters up to a gap or to the closing quote, last one first. -/
structure Piece where
  chars : List Char
  cursor : Cursor
  escapedBreak : Bool := false

def quoteOf (single : Bool) : Char :=
  if single then '\'' else '"'

def readPiece (single : Bool) :
    (fuel : Nat) → (chars : List Char) → Cursor → Option Piece
  | 0, _, _ => none
  | fuel + 1, chars, c =>
      match c.next? with
      | none => some { chars := chars, cursor := c }
      | some ch =>
          if isBlank ch || isBreak ch then some { chars := chars, cursor := c }
          else if ch == quoteOf single then
            if single && c.sees (· == ch) 1 then
              readPiece single fuel (ch :: chars) (c.skipMany 2)
            else some { chars := chars, cursor := c }
          else if !single && ch == '\\' then
            match c.skip.readBreak? with
            | some (_, c) =>
                some { chars := chars, cursor := c, escapedBreak := true }
            | none => do
                let (ch, c) ← readEscape? c
                readPiece single fuel (ch :: chars) c
          else readPiece single fuel (ch :: chars) c.skip

def readQuotedFrom (single : Bool) :
    (fuel : Nat) → (chars : List Char) → Cursor → Option (String × Cursor)
  | 0, _, _ => none
  | fuel + 1, chars, c =>
      if c.atDocumentMark || c.atEnd then none
      else do
        let piece ← readPiece single (fuel + 1) chars c
        if piece.cursor.sees (· == quoteOf single) then
          return (String.ofList piece.chars.reverse, piece.cursor.skip)
        else
          let start : Gap :=
            if piece.escapedBreak then { first := some [] } else {}
          let (gap, c) ← Gap.read 0 (fuel + 1) start piece.cursor
          readQuotedFrom single fuel (gap.folded.reverse ++ piece.chars) c

def readQuoted? (single : Bool) (c : Cursor) : Option (String × Cursor) :=
  readQuotedFrom single (c.rest.length + 1) [] c.skip

/-! ## Plain scalars -/

def endsPlain (inFlow : Bool) (c : Cursor) (ch : Char) : Bool :=
  (ch == ':' && c.seesGap 1) || (inFlow && isFlowIndicator ch)

/-- In a flow collection a colon must not be followed by an indicator. -/
def badColon (inFlow : Bool) (c : Cursor) (ch : Char) : Bool :=
  inFlow && ch == ':' && c.sees (fun d => isFlowIndicator d || d == '?') 1

def readPlainPiece (inFlow : Bool) :
    (fuel : Nat) → (chars : List Char) → Cursor → Option Piece
  | 0, _, _ => none
  | fuel + 1, chars, c =>
      match c.next? with
      | none => some { chars := chars, cursor := c }
      | some ch =>
          if isBlank ch || isBreak ch then some { chars := chars, cursor := c }
          else if badColon inFlow c ch then none
          else if endsPlain inFlow c ch then
            some { chars := chars, cursor := c }
          else readPlainPiece inFlow fuel (ch :: chars) c.skip

structure PlainScalar where
  text : String
  cursor : Cursor
  broken : Bool

def readPlainFrom (inFlow : Bool) (indent : Nat) :
    (fuel : Nat) → (chars : List Char) → Gap → Cursor → Option PlainScalar
  | 0, _, _, _ => none
  | fuel + 1, chars, gap, c =>
      let stop (chars : List Char) (gap : Gap) (c : Cursor) : PlainScalar :=
        { text := String.ofList chars.reverse, cursor := c,
          broken := gap.isBroken }
      if c.atDocumentMark || c.sees (· == '#') then some (stop chars gap c)
      else do
        let piece ← readPlainPiece inFlow (fuel + 1) [] c
        let (chars, gap) :=
          if piece.chars.isEmpty then (chars, gap)
          else (piece.chars ++ gap.folded.reverse ++ chars, {})
        let c := piece.cursor
        if c.seesBlank || c.seesBreak then
          let (gap, c) ← Gap.read indent (fuel + 1) {} c
          if !inFlow && c.column < indent then return stop chars gap c
          else readPlainFrom inFlow indent fuel chars gap c
        else return stop chars gap c

def readPlain? (inFlow : Bool) (indent : Nat) (c : Cursor) :
    Option PlainScalar :=
  readPlainFrom inFlow indent (c.rest.length + 1) [] {} c

/-! ## Block scalars -/

inductive Chomping where
  | strip
  | clip
  | keep
  deriving DecidableEq, Repr

structure BlockHeader where
  chomping : Chomping := .clip
  increment : Option Nat := none

def chomping? : Char → Option Chomping
  | '+' => some .keep
  | '-' => some .strip
  | _ => none

def readChomping (c : Cursor) : Option Chomping × Cursor :=
  match c.next?.bind chomping? with
  | some chomping => (some chomping, c.skip)
  | none => (none, c)

def readIncrement? (c : Cursor) : Option (Option Nat × Cursor) :=
  match c.next? with
  | some ch =>
      if ch == '0' then none
      else if ch.isDigit then some (some (ch.toNat - 48), c.skip)
      else some (none, c)
  | none => some (none, c)

def readHeader? (c : Cursor) : Option (BlockHeader × Cursor) := do
  let (before, c) := readChomping c
  let (increment, c) ← readIncrement? c
  let (after, c) :=
    match before, increment with
    | none, some _ => readChomping c
    | _, _ => (none, c)
  let chomping := (before.or after).getD .clip
  return ({ chomping := chomping, increment := increment }, c)

def skipLineEnd? (c : Cursor) : Option Cursor :=
  let c := c.skipWhile isBlank
  let c := if c.sees (· == '#') then c.skipWhile (!isBreak ·) else c
  if c.atEnd then some c else c.readBreak?.map (·.2)

structure EmptyLines where
  breaks : List Char
  width : Nat
  cursor : Cursor

/--
Reads empty lines and the indentation of the line after them.  Indentation ends
at column `indent`, or at the first other character if `indent` is unknown.
-/
def readEmptyLines (indent : Option Nat) :
    (fuel : Nat) → EmptyLines → Option EmptyLines
  | 0, _ => none
  | fuel + 1, e =>
      let within (c : Cursor) : Bool :=
        match indent with
        | some n => c.column < n
        | none => true
      let spaces := e.cursor.rest.takeWhile (· == ' ') |>.length
      let c :=
        match indent with
        | some n => e.cursor.skipMany (min spaces (n - e.cursor.column))
        | none => e.cursor.skipMany spaces
      let width := max e.width c.column
      if within c && c.sees (· == '\t') then none
      else
        match c.readBreak? with
        | some (b, c) =>
            readEmptyLines indent fuel
              { breaks := e.breaks ++ [b], width := width, cursor := c }
        | none => some { e with width := width, cursor := c }

structure BlockState where
  chars : List Char := []
  lastBreak : List Char := []
  empty : List Char := []
  startedBlank : Bool := false

def BlockState.join (s : BlockState) (literal startsBlank : Bool) : List Char :=
  if !literal && s.lastBreak == ['\n'] && !s.startedBlank && !startsBlank then
    (if s.empty.isEmpty then [' '] else []) ++ s.empty
  else s.lastBreak ++ s.empty

def readBlockLines (literal : Bool) (indent : Nat) :
    (fuel : Nat) → BlockState → Cursor → Option (BlockState × Cursor)
  | 0, _, _ => none
  | fuel + 1, s, c =>
      if c.column == indent && !c.atEnd then do
        let startsBlank := c.seesBlank
        let (line, c) := c.takeWhile (!isBreak ·)
        let chars :=
          line.reverse ++ (s.join literal startsBlank).reverse ++ s.chars
        let (lastBreak, c) :=
          match c.readBreak? with
          | some (b, c) => ([b], c)
          | none => ([], c)
        let e ← readEmptyLines (some indent) (fuel + 1)
          { breaks := [], width := 0, cursor := c }
        readBlockLines literal indent fuel
          { chars := chars, lastBreak := lastBreak, empty := e.breaks,
            startedBlank := startsBlank } e.cursor
      else some (s, c)

def readBlock? (literal : Bool) (parent : Int) (c : Cursor) :
    Option (String × Cursor) := do
  let (header, c) ← readHeader? c.skip
  let c ← skipLineEnd? c
  let fuel := c.rest.length + 1
  let given := header.increment.map fun n => (max parent 0).toNat + n
  let e ← readEmptyLines given fuel { breaks := [], width := 0, cursor := c }
  let indent := given.getD (max e.width (max (parent + 1).toNat 1))
  let (s, c) ←
    readBlockLines literal indent fuel { empty := e.breaks } e.cursor
  let tail :=
    match header.chomping with
    | .strip => []
    | .clip => s.lastBreak
    | .keep => s.lastBreak ++ s.empty
  return (String.ofList (s.chars.reverse ++ tail), c)

end Regen.Yaml
