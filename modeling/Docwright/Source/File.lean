import Docwright.Source.Name
import Docwright.Text.Utf8

/-!
# Source files

A source file is a name and its bytes as they came; nothing is known about either.
-/

namespace Docwright

/-- A file of a repository. -/
structure SourceFile where
  path : String
  content : List UInt8
  deriving DecidableEq

namespace SourceFile

/-- The lower-case extension with its dot, empty when the name has none. -/
def extension (f : SourceFile) : String :=
  Text.onChars Source.extensionOf f.path

/-- The text of the file, with a replacement character for each ill-formed piece. -/
def text (f : SourceFile) : String :=
  String.ofList (Text.Utf8.decodeLossy f.content)

end SourceFile

end Docwright
