import JitInspect.Listing.Scan
import JitInspect.Text.Numeral

/-!
# Methods of a listing

Of a method only the code and the code size are kept. The size stands in the last comment of the
method. A method that is listed several times is one record with all its code.
-/

namespace JitInspect

namespace Listing

/-- The code of one method and its size in bytes. -/
structure MethodRecord where
  name : Text
  code : List Block
  size : Int
  deriving DecidableEq, Repr

/-- The size that a text gives: the numeral between the first size marker and the next comma, line
feed or end of the text. -/
def readSize (t : Text) : Except Fault Int :=
  match Text.splitFirst sizeMarker t with
  | none => .error .noSize
  | some (_, rest) =>
    let written := rest.takeWhile fun c => c ≠ '\n' && c ≠ ','
    match Text.numeral? written with
    | some n => .ok n
    | none => .error (.unreadableSize written)

/-- The names in order of their first occurrence. -/
def distinct : List Text → List Text
  | [] => []
  | n :: ns => n :: (distinct ns).filter (· ≠ n)

/-- The record of the method with the given name, from the blocks of all methods. -/
def recordOf (blocks : List Block) (name : Text) : Except Fault MethodRecord :=
  let own := blocks.filter fun b => b.method = name
  match (own.filter fun b => b.kind = .comment).getLast? with
  | none => .error (.noComment name)
  | some c => (readSize c.text).map fun n => ⟨name, own.filter fun b => b.kind = .code, n⟩

/-- The records of the methods, in the order in which their blocks begin. -/
def recordsOf (blocks : List Block) : Except Fault (List MethodRecord) :=
  (distinct (blocks.map Block.method)).mapM (recordOf blocks)

/-- The records of a listing. -/
def methods (source : Source) (raw : Text) : Except Fault (List MethodRecord) :=
  scanBlocks source raw >>= recordsOf

/-- The condensed text of a method, from its name, the texts of its code blocks and its size. -/
def condensedSection (name : Text) (code : List Text) (size : Int) : Text :=
  "; Method " ++ name ++ code.flatten ++ "; Total bytes of code: " ++ Text.ofInt size ++ "\n\n"

/-- The condensed text of a record. -/
def MethodRecord.render (r : MethodRecord) : Text :=
  condensedSection r.name (r.code.map Block.text) r.size

/-- The condensed text of all records. -/
def renderMethods (rs : List MethodRecord) : Text := rs.flatMap MethodRecord.render

end Listing

end JitInspect
