/-!
Cursors into YAML text, and the classes of characters that a cursor meets.  A
cursor knows the line and the column it stands in, because indentation carries
meaning, and how many bytes lie behind it.
-/

namespace Regen.Yaml

def isBlank (c : Char) : Bool :=
  c == ' ' || c == '\t'

def isBreak (c : Char) : Bool :=
  c == '\n' || c == '\r' || c.toNat == 0x85 || c.toNat == 0x2028 ||
    c.toNat == 0x2029

def isNameChar (c : Char) : Bool :=
  c.isAlphanum || c == '-' || c == '_'

def isFlowIndicator (c : Char) : Bool :=
  [',', '[', ']', '\x7b', '\x7d'].contains c

def byteOrderMark : Char := Char.ofNat 0xFEFF

def isAllowed (c : Char) : Bool :=
  let n := c.toNat
  n == 0x09 || n == 0x0A || n == 0x0D || n == 0x85 ||
    (0x20 ≤ n && n ≤ 0x7E) || (0xA0 ≤ n && n ≤ 0xFFFD) || 0x10000 ≤ n

def byteLength (cs : List Char) : Nat :=
  cs.foldr (fun c n => c.utf8Size + n) 0

structure Cursor where
  rest : List Char
  offset : Nat := 0
  line : Nat := 0
  column : Nat := 0
  deriving Repr

namespace Cursor

def next? (c : Cursor) : Option Char :=
  c.rest.head?

def atEnd (c : Cursor) : Bool :=
  c.rest.isEmpty

def sees (c : Cursor) (p : Char → Bool) (i : Nat := 0) : Bool :=
  match c.rest[i]? with
  | some ch => p ch
  | none => false

def seesBlank (c : Cursor) (i : Nat := 0) : Bool :=
  c.sees isBlank i

def seesBreak (c : Cursor) (i : Nat := 0) : Bool :=
  c.sees isBreak i

def seesGap (c : Cursor) (i : Nat := 0) : Bool :=
  match c.rest[i]? with
  | some ch => isBlank ch || isBreak ch
  | none => true

def skipMany (c : Cursor) (n : Nat) : Cursor :=
  { c with
    rest := c.rest.drop n
    offset := c.offset + byteLength (c.rest.take n)
    column := c.column + n }

def skip (c : Cursor) : Cursor :=
  c.skipMany 1

/-- Reads a line break; all but two of them count as a line feed. -/
def readBreak? (c : Cursor) : Option (Char × Cursor) :=
  let after (n : Nat) : Cursor :=
    { rest := c.rest.drop n
      offset := c.offset + byteLength (c.rest.take n)
      line := c.line + 1 }
  match c.rest with
  | '\r' :: '\n' :: _ => some ('\n', after 2)
  | ch :: _ =>
      if ch.toNat == 0x2028 || ch.toNat == 0x2029 then some (ch, after 1)
      else if isBreak ch then some ('\n', after 1)
      else none
  | [] => none

def takeWhile (c : Cursor) (p : Char → Bool) : List Char × Cursor :=
  let taken := c.rest.takeWhile p
  (taken, c.skipMany taken.length)

def skipWhile (c : Cursor) (p : Char → Bool) : Cursor :=
  (c.takeWhile p).2

/-- Three like characters at the start of a line, alone or before a gap. -/
def atMark (c : Cursor) (mark : Char) : Bool :=
  c.column == 0 && c.rest.take 3 == [mark, mark, mark] && c.seesGap 3

def atDocumentMark (c : Cursor) : Bool :=
  c.atMark '-' || c.atMark '.'

end Cursor

end Regen.Yaml
