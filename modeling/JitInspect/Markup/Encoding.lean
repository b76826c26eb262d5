import JitInspect.Markup.CodePage
import JitInspect.Markup.Name
import JitInspect.Text.Utf8

/-!
# The encoding of a document

A document begins with a byte order mark, or shows by a zero byte that it has two bytes for each
character, or else has one byte for each character of its first line. That line may name the
encoding, and then the name must fit what the first bytes show.
-/

namespace JitInspect

namespace Markup

/-- Why a document cannot be read. -/
inductive MarkupFault where
  /-- The document is not well-formed. -/
  | malformed
  /-- No encoding has the name. -/
  | unknownEncoding (name : Text)
  /-- The name is one of an encoding of bytes. -/
  | byteEncoding (name : Text)
  /-- The encoding takes several bytes for a character. -/
  | wideEncoding
  /-- The encoding has nothing to put for faulty bytes. -/
  | unforgivingEncoding (name : Text)
  /-- The name stands for no encoding. -/
  | undefinedEncoding (name : Text)
  /-- The encoding has only ASCII where another byte was tried. -/
  | asciiEncoding
  deriving DecidableEq, Repr

namespace MarkupFault

/-- Whether the fault lies in the name of the encoding. -/
def isName : MarkupFault → Bool
  | unknownEncoding _ | byteEncoding _ => true
  | _ => false

/-- What is said of the fault. -/
def message : MarkupFault → Text
  | malformed => "not well-formed"
  | unknownEncoding n => "unknown encoding: " ++ n
  | byteEncoding n =>
    "'" ++ n.take 400 ++ "' is not a text encoding; use codecs.decode() to handle arbitrary codecs"
  | wideEncoding => "multi-byte encodings are not supported"
  | unforgivingEncoding n => failed n "Unsupported error handling replace"
  | undefinedEncoding n => failed n "undefined encoding"
  | asciiEncoding =>
    "'ascii' codec can't decode byte 0x80 in position 82: ordinal not in range(128)"
where
  /-- What is said of a trial with the encoding that failed. -/
  failed (name : Text) (reason : Text) : Text :=
    "decoding with '" ++ name ++ "' codec failed (UnicodeError: " ++ reason ++ ")"

end MarkupFault

/-- How the bytes of a document make up its characters. -/
inductive Encoding where
  | utf8
  | latin
  | page (p : CodePage)
  | pairs (highFirst : Bool)

namespace Encoding

/-- What the first bytes show of the encoding, and the bytes behind the byte order mark. -/
def ofStart : Bytes → Encoding × Bytes
  | 0xFE :: 0xFF :: bs => (pairs true, bs)
  | 0xFF :: 0xFE :: bs => (pairs false, bs)
  | 0xEF :: 0xBB :: 0xBF :: bs => (utf8, bs)
  | 0 :: b :: bs => (pairs true, 0 :: b :: bs)
  | b :: 0 :: bs => (pairs false, b :: 0 :: bs)
  | bs => (utf8, bs)

/-- The encoding of a document whose first line names one. -/
def named (shown : Encoding) (name : Text) : Except MarkupFault Encoding :=
  let n := String.ofList (name.map Char.toLower)
  match shown with
  | pairs highFirst =>
    if n = "utf-16" || n = (if highFirst then "utf-16be" else "utf-16le") then .ok shown
    else if ["utf-8", "iso-8859-1", "us-ascii", "utf-16be", "utf-16le"].contains n then
      .error .malformed
    else other
  | _ =>
    if n = "utf-8" then .ok utf8
    else if n = "iso-8859-1" then .ok latin
    else if n = "us-ascii" then .ok (page .ascii)
    else if ["utf-16", "utf-16be", "utf-16le"].contains n then .error .malformed
    else other
where
  /-- An encoding that is looked up by its name has one byte for each character. -/
  other : Except MarkupFault Encoding :=
    match NamedEncoding.ofName name with
    | .page p => .ok (page p)
    | .wide => .error .wideEncoding
    | .foreign => .error .malformed
    | .transform => .error (.byteEncoding name)
    | .unforgiving => .error (.unforgivingEncoding name)
    | .undefined => .error (.undefinedEncoding name)
    | .asciiOnly => .error .asciiEncoding
    | .unknown => .error (.unknownEncoding name)

/-- How many bytes a character of the first line takes. -/
def width : Encoding → Nat
  | pairs _ => 2
  | _ => 1

/-- The letters of a document in the encoding. -/
def alphabet : Encoding → Alphabet
  | latin | pairs _ => .extended
  | utf8 | page _ => .standard

/-- The units of two bytes; a single byte at the end makes none. -/
def units (highFirst : Bool) : Bytes → List Nat
  | a :: b :: bs =>
    (if highFirst then 256 * a.toNat + b.toNat else 256 * b.toNat + a.toNat) :: units highFirst bs
  | _ => []

/-- The characters of units of two bytes. A unit that opens a pair makes a character above the basic
plane with the lower ten bits of whatever unit follows it; one that closes a pair cannot stand
alone. -/
def ofUnits : List Nat → Option Text
  | [] => some []
  | [u] => if 0xD800 ≤ u && u < 0xE000 then none else some [Char.ofNat u]
  | u :: v :: us =>
    if 0xD800 ≤ u && u < 0xDC00 then
      (ofUnits us).map (Char.ofNat (0x10000 + 0x400 * (u - 0xD800) + v % 0x400) :: ·)
    else if 0xDC00 ≤ u && u < 0xE000 then none
    else (ofUnits (v :: us)).map (Char.ofNat u :: ·)

/-- The characters of the bytes. -/
def decode (e : Encoding) (bs : Bytes) : Option Text :=
  match e with
  | utf8 => Text.ofUtf8? bs
  | latin => some (bs.map fun b => Char.ofNat b.toNat)
  | page p => bs.mapM p.char?
  | pairs highFirst => if bs.length % 2 = 0 then ofUnits (units highFirst bs) else none

/-- The characters of the first line, which are all in ASCII; what follows need not be right. -/
def glance (e : Encoding) (bs : Bytes) : Text :=
  match e with
  | pairs highFirst => (units highFirst bs).map Char.ofNat
  | _ => bs.map fun b => Char.ofNat b.toNat

end Encoding

/-- Whether a document may hold the character. -/
def isLegal (c : Char) : Bool :=
  let n := c.toNat
  n = 0x9 || n = 0xA || n = 0xD || (0x20 ≤ n && n ≠ 0xFFFE && n ≠ 0xFFFF)

end Markup

end JitInspect
