import HtmlTree.Text.Ascii

/-! The encodings of undecoded texts. Bytes that stand for nothing become the sign for a lost
character; a sequence that the end of the bytes cuts off is left out. -/

namespace HtmlTree.Html

inductive Encoding where
  | utf8
  | windows1252
  | utf16 (bigEndian : Bool)
  deriving DecidableEq, Repr

namespace Encoding

def lost : Char := '\uFFFD'

/-- What is still to come of a character: the bits so far, and the bounds of each byte. -/
structure Unfinished where
  bits : Nat
  needed : List (Nat × Nat)
  deriving DecidableEq, Repr

def anyTail : Nat × Nat := (0x80, 0xBF)

/-- The bounds exclude needless length, surrogates and numbers that are too large. -/
def firstByte (n : Nat) : Option Unfinished :=
  if n < 0x80 then some ⟨n, []⟩
  else if 0xC2 ≤ n && n ≤ 0xDF then some ⟨n % 0x20, [anyTail]⟩
  else if n == 0xE0 then some ⟨0, [(0xA0, 0xBF), anyTail]⟩
  else if n == 0xED then some ⟨0xD, [(0x80, 0x9F), anyTail]⟩
  else if 0xE1 ≤ n && n ≤ 0xEF then some ⟨n % 0x10, [anyTail, anyTail]⟩
  else if n == 0xF0 then some ⟨0, [(0x90, 0xBF), anyTail, anyTail]⟩
  else if 0xF1 ≤ n && n ≤ 0xF3 then some ⟨n % 8, [anyTail, anyTail, anyTail]⟩
  else if n == 0xF4 then some ⟨4, [(0x80, 0x8F), anyTail, anyTail]⟩
  else none

def beginUtf8 (n : Nat) : List Char × Option Unfinished :=
  match firstByte n with
  | none => ([lost], none)
  | some ⟨bits, []⟩ => ([Char.ofNat bits], none)
  | some u => ([], some u)

def stepUtf8 (state : Option Unfinished) (n : Nat) : List Char × Option Unfinished :=
  match state with
  | some ⟨bits, (low, high) :: needed⟩ =>
    if low ≤ n && n ≤ high then
      let bits := bits * 0x40 + n % 0x40
      if needed.isEmpty then ([Char.ofNat bits], none) else ([], some ⟨bits, needed⟩)
    else
      let (chars, state) := beginUtf8 n
      (lost :: chars, state)
  | _ => beginUtf8 n

def decodeUtf8 : Option Unfinished → List UInt8 → List Char
  | _, [] => []
  | state, b :: rest =>
    let (chars, state) := stepUtf8 state b.toNat
    chars ++ decodeUtf8 state rest

/-- The characters of the bytes from 80 to 9F; five of those bytes have none. -/
def windowsTable : List Nat :=
  [0x20AC, 0xFFFD, 0x201A, 0x0192, 0x201E, 0x2026, 0x2020, 0x2021, 0x02C6, 0x2030, 0x0160, 0x2039,
   0x0152, 0xFFFD, 0x017D, 0xFFFD, 0xFFFD, 0x2018, 0x2019, 0x201C, 0x201D, 0x2022, 0x2013, 0x2014,
   0x02DC, 0x2122, 0x0161, 0x203A, 0x0153, 0xFFFD, 0x017E, 0x0178]

def decodeWindows (bytes : List UInt8) : List Char :=
  bytes.map fun b =>
    let n := b.toNat
    Char.ofNat (if 0x80 ≤ n && n < 0xA0 then windowsTable.getD (n - 0x80) 0xFFFD else n)

def units (bigEndian : Bool) : List UInt8 → List Nat
  | a :: b :: rest =>
    (if bigEndian then a.toNat * 256 + b.toNat else b.toNat * 256 + a.toNat) ::
      units bigEndian rest
  | _ => []

def isHighHalf (n : Nat) : Bool := 0xD800 ≤ n && n < 0xDC00

def isLowHalf (n : Nat) : Bool := 0xDC00 ≤ n && n < 0xE000

/-- Joins the halves of characters; the first half of one may wait for the second. -/
def joinUnits : Option Nat → List Nat → List Char
  | _, [] => []
  | some high, n :: rest =>
    if isLowHalf n then
      Char.ofNat (0x10000 + (high - 0xD800) * 0x400 + (n - 0xDC00)) :: joinUnits none rest
    else if isHighHalf n then lost :: joinUnits (some n) rest
    else lost :: Char.ofNat n :: joinUnits none rest
  | none, n :: rest =>
    if isHighHalf n then joinUnits (some n) rest
    else if isLowHalf n then lost :: joinUnits none rest
    else Char.ofNat n :: joinUnits none rest

def decode : Encoding → List UInt8 → List Char
  | utf8, bytes => decodeUtf8 none bytes
  | windows1252, bytes => decodeWindows bytes
  | utf16 bigEndian, bytes => joinUnits none (units bigEndian bytes)

def labels : List (List String × Encoding) :=
  [(["unicode-1-1-utf-8", "utf-8", "utf8"], utf8),
   (["ansi_x3.4-1968", "ascii", "cp1252", "cp819", "csisolatin1", "ibm819", "iso-8859-1",
     "iso-ir-100", "iso8859-1", "iso88591", "iso_8859-1", "iso_8859-1:1987", "l1", "latin1",
     "us-ascii", "windows-1252", "x-cp1252"], windows1252),
   (["utf-16", "utf-16le"], utf16 false),
   (["utf-16be"], utf16 true)]

def ofLabel? (label : List Char) : Option Encoding :=
  let trimmed := ((label.dropWhile Text.isSpace).reverse.dropWhile Text.isSpace).reverse
  let name := String.ofList (trimmed.map Text.lower)
  (labels.find? fun entry => entry.1.contains name).map (·.2)

def isUtf16 : Encoding → Bool
  | utf16 _ => true
  | _ => false

/-- The marks of encodings with units of 32 bits, which no text is read in. -/
def wideMarks : List (List UInt8) := [[0xFF, 0xFE, 0, 0], [0, 0, 0xFE, 0xFF]]

/-- The encoding that a mark at the start of the bytes tells, and the bytes after the mark. -/
def ofMark? (bytes : List UInt8) : Option (Encoding × List UInt8) :=
  if wideMarks.contains (bytes.take 4) then none
  else
    match bytes with
    | 0xEF :: 0xBB :: 0xBF :: rest => some (utf8, rest)
    | 0xFF :: 0xFE :: rest => some (utf16 false, rest)
    | 0xFE :: 0xFF :: rest => some (utf16 true, rest)
    | _ => none

end Encoding

end HtmlTree.Html
