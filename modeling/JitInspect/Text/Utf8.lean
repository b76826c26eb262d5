import JitInspect.Text.Basic

/-!
# UTF-8

Bytes are decoded one after the other. A maximal part of an ill-formed sequence counts as one fault,
so that a lenient reader puts one replacement character for it and a strict reader refuses the
whole.
-/

namespace JitInspect

/-- Bytes of a file or a pipe. -/
abbrev Bytes := List UInt8

namespace Text

/-- The part of a character that has been read: how many bytes are missing, the value so far, and
the range in which the next byte must lie. -/
structure PartialChar where
  missing : Nat
  value : Nat
  least : UInt8
  greatest : UInt8

/-- The state of a decoder: a character begun, and what has been decoded, last first. A fault is
`none`. -/
structure Decoder where
  begun : Option PartialChar
  decoded : List (Option Char)

/-- Reads a byte at the beginning of a character. -/
def Decoder.start (decoded : List (Option Char)) (b : UInt8) : Decoder :=
  if b < 0x80 then ⟨none, some (Char.ofNat b.toNat) :: decoded⟩
  else if 0xC2 ≤ b && b ≤ 0xDF then ⟨some ⟨1, b.toNat - 0xC0, 0x80, 0xBF⟩, decoded⟩
  else if 0xE0 ≤ b && b ≤ 0xEF then
    let least := if b = 0xE0 then 0xA0 else 0x80
    let greatest := if b = 0xED then 0x9F else 0xBF
    ⟨some ⟨2, b.toNat - 0xE0, least, greatest⟩, decoded⟩
  else if 0xF0 ≤ b && b ≤ 0xF4 then
    let least := if b = 0xF0 then 0x90 else 0x80
    let greatest := if b = 0xF4 then 0x8F else 0xBF
    ⟨some ⟨3, b.toNat - 0xF0, least, greatest⟩, decoded⟩
  else ⟨none, none :: decoded⟩

/-- Reads a byte. One that cannot continue the character begun is a fault and begins anew. -/
def Decoder.next (d : Decoder) (b : UInt8) : Decoder :=
  match d.begun with
  | none => Decoder.start d.decoded b
  | some p =>
    if p.least ≤ b && b ≤ p.greatest then
      let value := 64 * p.value + (b.toNat - 0x80)
      if p.missing ≤ 1 then ⟨none, some (Char.ofNat value) :: d.decoded⟩
      else ⟨some ⟨p.missing - 1, value, 0x80, 0xBF⟩, d.decoded⟩
    else Decoder.start (none :: d.decoded) b

/-- What has been decoded, in order; a character begun is a fault. -/
def Decoder.finish (d : Decoder) : List (Option Char) :=
  match d.begun with
  | none => d.decoded.reverse
  | some _ => (none :: d.decoded).reverse

/-- The characters and faults of the bytes. -/
def decode (bs : Bytes) : List (Option Char) := (bs.foldl Decoder.next ⟨none, []⟩).finish

/-- The text of well-formed bytes. -/
def ofUtf8? (bs : Bytes) : Option Text :=
  let ds := decode bs
  if ds.all Option.isSome then some (ds.filterMap id) else none

/-- The text of any bytes, with a replacement character for each fault. -/
def ofUtf8 (bs : Bytes) : Text := (decode bs).map fun d => d.getD (Char.ofNat 0xFFFD)

/-- The bytes of the text. -/
def toUtf8 (t : Text) : Bytes := t.flatMap String.utf8EncodeChar

end Text

end JitInspect
