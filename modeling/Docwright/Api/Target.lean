import Docwright.Text.Digit
import Docwright.Text.Lines
import Docwright.Text.Utf8

/-!
# What a request asks for

The address of a request names a path and perhaps a query. `pathOf` gives the path: without query
and fragment, without the names that stand for the same or the outer folder, and with its escapes
resolved. Escapes are resolved twice, by the sender and by the receiver.
-/

namespace Docwright.Api

/-- The bytes of an address with each escape as the byte it stands for. -/
def unescapedBytes : List Char → List UInt8
  | '%' :: a :: b :: rest =>
    match Text.hexDigit? a, Text.hexDigit? b with
    | some a, some b => (a * 16 + b).toUInt8 :: unescapedBytes rest
    | _, _ => 0x25 :: unescapedBytes (a :: b :: rest)
  | c :: rest => Text.Utf8.encodeChar c ++ unescapedBytes rest
  | [] => []

/-- An address with its escapes resolved. -/
def unescape (cs : List Char) : List Char :=
  Text.Utf8.decodeLossy (unescapedBytes cs)

/-- The names of a path once single dots are dropped and each double dot has taken the name before
it away. -/
def direct (names : List (List Char)) : List (List Char) :=
  names.foldl (fun done name =>
    if name == ['.'] then done
    else if name == ['.', '.'] then if done == [[]] then done else done.dropLast
    else done ++ [name]) []

/-- The path that an address names. -/
def pathOf (address : String) : String :=
  let path := address.toList.takeWhile fun c => c != '?' && c != '#'
  let path := '/' :: path.dropWhile (· == '/')
  let path := Text.joinWith ['/'] (direct (Text.splitOn '/' path))
  String.ofList (unescape (unescape path))

end Docwright.Api
