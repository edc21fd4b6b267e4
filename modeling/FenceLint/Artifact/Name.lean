import FenceLint.Decimal.Digits
import FenceLint.Text.Pieces

/-!
Names of block files. A name carries the number of the document and the index of the block in
decimal, so different blocks of a run have different names whatever their documents are called; the
stem in between is only there for the reader.
-/

set_option autoImplicit false

namespace FenceLint.Artifact

/-- The last component of a path that names something: empty components and single dots are
passed over, and a path that ends by going up names nothing. -/
def lastName? (path : List Char) : Option (List Char) :=
  let named := (Text.pieces '/' path).filter fun part ↦ part != [] && part != ['.']
  match named.getLast? with
  | some name => if name = ['.', '.'] then none else some name
  | none => none

/-- A name without its extension. A dot in front starts no extension. -/
def stemOf (name : List Char) : List Char :=
  let reversed := name.reverse
  match reversed.dropWhile (· != '.') with
  | [] => name
  | _dot :: before => if before = [] then name else before.reverse

/-- The characters that a file name may keep. -/
def isPlain (c : Char) : Bool := c.isAlphanum || c == '-' || c == '_'

/-- The stem under which blocks of a document are kept. -/
def stem (source : String) : List Char :=
  match lastName? source.toList with
  | none => "document".toList
  | some name =>
    let kept := (stemOf name).map fun c ↦ if isPlain c then c else '_'
    if kept = [] then "document".toList else kept

/-- The characters of a name: document, stem, index. -/
def nameChars (document : Nat) (stem : List Char) (index : Nat) : List Char :=
  Decimal.padded 3 document ++ '-' :: stem ++ "-block-".toList ++ Decimal.chars index ++
    ".mmd".toList

/-- The file that a block is kept in. -/
def fileName (document : Nat) (source : String) (index : Nat) : String :=
  String.ofList (nameChars document (stem source) index)

end FenceLint.Artifact
