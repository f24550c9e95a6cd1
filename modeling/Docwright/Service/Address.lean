import Docwright.Text.Blank
import Docwright.Text.Lines
import Docwright.Text.Quoted

/-!
# Addresses

Before a request is made, its address is taken apart. It must start with a scheme (`hasScheme`), and
what it names behind two slashes, its `place`, must be one that can be read. A place that is refused
has a `PlaceFault`: its square brackets do not come in pairs, what they enclose is no address of six
or of a later version, or it holds a character that is taken for one which ends a place.

The scheme is looked for twice, by different rules: `hasScheme` lets any characters but slashes make
up a scheme, `behindScheme` only letters, digits and three signs, after blanks at the front and line
ends everywhere have been taken out.
-/

namespace Docwright.Service

/-- What is wrong with the place that an address names. -/
inductive PlaceFault
  /-- There are square brackets of one kind only. -/
  | unpaired
  /-- What stands in brackets begins like an address of a later version, and is none. -/
  | laterVersion
  /-- What stands in brackets is an address of version four. -/
  | versionFour
  /-- What stands in brackets is no address. -/
  | noAddress (host : List Char)
  /-- A character is taken for one that ends a place. -/
  | lookalike (place : List Char)

/-- The fault in words. -/
def PlaceFault.message : PlaceFault → String
  | unpaired => "Invalid IPv6 URL"
  | laterVersion => "IPvFuture address is invalid"
  | versionFour => "An IPv4 address cannot be in brackets"
  | noAddress host =>
    Text.quote (String.ofList host) ++ " does not appear to be an IPv4 or IPv6 address"
  | lookalike place =>
    "netloc '" ++ String.ofList place ++ "' contains invalid characters under NFKC normalization"

namespace Address

/-- An address without blanks and without angle brackets around it. -/
def unwrapped (cs : List Char) : List Char :=
  let cs := Text.strip cs
  let cs :=
    if cs.head? == some '<' && cs.getLast? == some '>' then Text.strip ((cs.drop 1).dropLast)
    else cs
  if "URL:".toList.isPrefixOf cs then Text.strip (cs.drop 4) else cs

/-- An address without what stands behind its last number sign. -/
def withoutFragment (cs : List Char) : List Char :=
  if cs.contains '#' then (Text.dropRightWhile (· != '#') cs).dropLast else cs

/-- Whether an address starts with a scheme: characters other than slashes, then a colon. -/
def hasScheme (cs : List Char) : Bool :=
  let cs := withoutFragment cs
  let scheme := cs.takeWhile fun c => c != '/' && c != ':'
  !scheme.isEmpty && (cs.drop scheme.length).head? == some ':'

/-! ### Places -/

/-- An address without control characters and blanks at its front, and without tabs and line
ends. -/
def smoothed (cs : List Char) : List Char :=
  (cs.dropWhile (·.toNat ≤ 0x20)).filter fun c => c != '\t' && c != '\n' && c != '\r'

/-- What stands behind the scheme: a letter, then letters, digits, and signs, up to a colon. -/
def behindScheme (cs : List Char) : List Char :=
  let scheme := cs.takeWhile fun c => c.isAlphanum || ['+', '-', '.'].contains c
  let rest := cs.drop scheme.length
  if scheme.head?.any Char.isAlpha && rest.head? == some ':' then rest.drop 1 else cs

/-- The place that an address names: what stands between two slashes behind the scheme and the next
slash, question mark or number sign. -/
def place (cs : List Char) : List Char :=
  match behindScheme (smoothed cs) with
  | '/' :: '/' :: rest => rest.takeWhile fun c => c != '/' && c != '?' && c != '#'
  | _ => []

/-- What stands between the first opening bracket and the next closing one, or the end. -/
def bracketed (place : List Char) : List Char :=
  ((place.dropWhile (· != '[')).drop 1).takeWhile (· != ']')

/-- Whether a text is a number up to 255 that does not start with a needless zero. -/
def isOctet (cs : List Char) : Bool :=
  match cs.mapM Text.asciiDigit? with
  | some [_] => true
  | some [tens, _] => tens != 0
  | some [hundreds, tens, ones] => hundreds != 0 && 100 * hundreds + 10 * tens + ones ≤ 255
  | _ => false

/-- Whether a text is an address of version four: four numbers parted by dots. -/
def isVersionFour (cs : List Char) : Bool :=
  let parts := Text.splitOn '.' cs
  parts.length == 4 && parts.all isOctet

/-- Whether a text is a group of an address of version six: one to four hexadecimal digits. -/
def isGroup (cs : List Char) : Bool :=
  !cs.isEmpty && cs.length ≤ 4 && cs.all fun c => (Text.hexDigit? c).isSome

/-- How many groups stand on one side of a gap: none when the address ends there. -/
def side? (parts : List (List Char)) : Option Nat :=
  if parts == [[]] then some 0
  else if !parts.isEmpty && parts.all isGroup then some parts.length
  else none

/-- Whether the parts at both sides of a position can stand on the sides of a gap, which makes up
for at least one group. -/
def isGap (parts : List (List Char)) (i : Nat) : Bool :=
  match parts[i]?, side? (parts.take i), side? (parts.drop (i + 1)) with
  | some [], some before, some after => before + after ≤ 7
  | _, _, _ => false

/-- The parts of an address of version six between its colons. An address of version four at the end
makes two groups. -/
def groups (cs : List Char) : List (List Char) :=
  let parts := Text.splitOn ':' cs
  if parts.getLast?.any isVersionFour then parts.dropLast ++ [['0'], ['0']] else parts

/-- Whether a text is an address of version six: eight groups parted by colons, or fewer with a gap.
A zone may follow behind a percent sign. -/
def isVersionSix (cs : List Char) : Bool :=
  let address := cs.takeWhile (· != '%')
  let parts := groups address
  (match cs.drop address.length with
    | [] => true
    | _ :: zone => !zone.isEmpty && !zone.contains '%') &&
  (parts.length == 8 && parts.all isGroup || (List.range parts.length).any (isGap parts))

/-- Whether a text that begins like an address of a later version goes on like one: hexadecimal
digits, a dot and something more. -/
def isLaterVersion (cs : List Char) : Bool :=
  let version := cs.takeWhile fun c => (Text.hexDigit? c).isSome
  !version.isEmpty &&
    match cs.drop version.length with
    | '.' :: _ :: _ => true
    | _ => false

/-- What is wrong with the text in the brackets of a place. -/
def hostFault? (host : List Char) : Option PlaceFault :=
  match host with
  | 'v' :: rest => if isLaterVersion rest then none else some .laterVersion
  | _ =>
    if isVersionFour host then some .versionFour
    else if isVersionSix host then none
    else some (.noAddress host)

/-- The characters that are taken for a slash, question mark, number sign, at sign or colon once
they are put into the plain form of compatible characters, in Unicode 14. -/
def lookalikes : List Nat := [
  0x2047, 0x2048, 0x2049, 0x2100, 0x2101, 0x2105, 0x2106, 0x2A74, 0xFE13, 0xFE16, 0xFE55, 0xFE56,
  0xFE5F, 0xFE6B, 0xFF03, 0xFF0F, 0xFF1A, 0xFF1F, 0xFF20]

/-- What is wrong with a place. -/
def placeFault? (place : List Char) : Option PlaceFault :=
  if place.contains '[' != place.contains ']' then some .unpaired
  else
    let inBrackets := if place.contains '[' then hostFault? (bracketed place) else none
    let isTaken (c : Char) := lookalikes.contains c.toNat
    inBrackets.or (if place.any isTaken then some (.lookalike place) else none)

end Address

end Docwright.Service
