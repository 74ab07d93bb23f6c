import Regen.Yaml.Scalar

/-!
Tags.  A tag is a run of bytes: the escapes in it need not spell characters.  A
zero byte ends the tag, whatever is written behind it, so no tag holds one.
-/

namespace Regen.Yaml

structure Tag where
  bytes : List UInt8 := []
  zero_notMem : 0 ∉ bytes := by simp
  deriving DecidableEq, Repr

namespace Tag

def ofBytes (bytes : List UInt8) : Tag where
  bytes := bytes.takeWhile (· != 0)
  zero_notMem h := by
    have := List.all_eq_true.1 List.all_takeWhile 0 h
    simp at this

def ofString (text : String) : Tag :=
  ofBytes (text.toList.flatMap String.utf8EncodeChar)

def append (a b : Tag) : Tag where
  bytes := a.bytes ++ b.bytes
  zero_notMem := by simp [a.zero_notMem, b.zero_notMem]

def mark : Tag :=
  ofString "!"

/--
The name of a local tag: what follows the mark, or the mark where nothing does.
Bytes that spell no text are no name.
-/
def localName? (t : Tag) : Option String :=
  match t.bytes with
  | [] => none
  | first :: rest =>
      if [first] = mark.bytes then
        String.fromUTF8? ⟨(if rest = [] then [first] else rest).toArray⟩
      else none

theorem bytes_ofBytes {bytes : List UInt8} (h : 0 ∉ bytes) :
    (ofBytes bytes).bytes = bytes := by
  induction bytes with
  | nil => rfl
  | cons b bs ih =>
      simp only [List.mem_cons, not_or] at h
      simpa [ofBytes, Ne.symm h.1] using ih h.2

@[simp] theorem ofBytes_bytes (t : Tag) : ofBytes t.bytes = t := by
  have h := bytes_ofBytes t.zero_notMem
  cases t
  simpa [ofBytes] using h

example : (ofString "!a").localName? = some "a" := by decide +kernel
example : mark.localName? = some "!" := by decide +kernel
example : (ofBytes [0x21, 0x61, 0, 0x62]).localName? = some "a" := by
  decide +kernel
example : (ofBytes [0x21, 0xC0, 0x80]).localName? = none := by decide +kernel

end Tag

/-! ## Reading -/

def isTagChar (verbatim : Bool) (c : Char) : Bool :=
  isNameChar c || ";/?:@&=+$.!~*'()%".toList.contains c ||
    (verbatim && ",[]".toList.contains c)

def readOctet? (c : Cursor) : Option (UInt8 × Cursor) :=
  match c.rest with
  | '%' :: a :: b :: _ => do
      let n ← hexNumber? [a, b]
      return (n.toUInt8, c.skipMany 3)
  | _ => none

def octets? (first : UInt8) : Option Nat :=
  if first < 0x80 then some 1
  else if first &&& 0xE0 == 0xC0 then some 2
  else if first &&& 0xF0 == 0xE0 then some 3
  else if first &&& 0xF8 == 0xF0 then some 4
  else none

def readMoreOctets : Nat → List UInt8 → Cursor → Option (List UInt8 × Cursor)
  | 0, bytes, c => some (bytes, c)
  | n + 1, bytes, c => do
      let (byte, c) ← readOctet? c
      if byte &&& 0xC0 == 0x80 then readMoreOctets n (bytes ++ [byte]) c
      else none

/-- Escaped bytes that belong together, whether or not they spell a character. -/
def readTagEscape? (c : Cursor) : Option (List UInt8 × Cursor) := do
  let (first, c) ← readOctet? c
  readMoreOctets ((← octets? first) - 1) [first] c

def readTagBytes (verbatim : Bool) :
    (fuel : Nat) → (bytes : List UInt8) → Cursor → Option (List UInt8 × Cursor)
  | 0, _, _ => none
  | fuel + 1, bytes, c =>
      match c.next? with
      | none => some (bytes, c)
      | some ch =>
          if ch == '%' then do
            let (more, c) ← readTagEscape? c
            readTagBytes verbatim fuel (bytes ++ more) c
          else if isTagChar verbatim ch then
            readTagBytes verbatim fuel (bytes ++ String.utf8EncodeChar ch) c.skip
          else some (bytes, c)

/--
Reads the rest of a tag, of which the characters `start` behind the mark have
been read; a tag of which nothing is written is refused.
-/
def readTagRest? (verbatim : Bool) (start : List Char) (c : Cursor) :
    Option (Tag × Cursor) := do
  let (bytes, after) ← readTagBytes verbatim (c.rest.length + 1) [] c
  if start.isEmpty && after.offset == c.offset then none
  else
    let before := (start.drop 1).flatMap String.utf8EncodeChar
    return (.ofBytes (before ++ bytes), after)

def readHandle? (c : Cursor) : Option (List Char × Cursor) :=
  if c.sees (· == '!') then
    let (name, c) := c.skip.takeWhile isNameChar
    if c.sees (· == '!') then some ('!' :: name ++ ['!'], c.skip)
    else some ('!' :: name, c)
  else none

def isClosedHandle (handle : List Char) : Bool :=
  handle.length ≥ 2 && handle.getLast? == some '!'

end Regen.Yaml
