import Cartograph.Extraction.Error
import Cartograph.FileTree.Path
import Cartograph.SourceFile

/-!
# Texts of source files

A file is read as text up to a number of bytes. Bytes that are no text are replaced.
-/

namespace Cartograph

/-- The text of the first bytes of a file, all of them if there is no limit. -/
def sourceText (bytes : List UInt8) (limit? : Option UInt64) : List Char :=
  match limit? with
  | some limit => Text.Utf8.decodeLossy (bytes.take limit.toNat)
  | none => Text.Utf8.decodeLossy bytes

/-- The text of a file, read up to a limit. -/
def SourceFile.read (file : SourceFile) (tree : FileTree) (limit? : Option UInt64) :
    Except ExtractionError (List Char) :=
  match tree.readBytes [] file.location with
  | .ok bytes => .ok (sourceText bytes limit?)
  | .error cause => .error (.unreadable file.location cause)

end Cartograph
