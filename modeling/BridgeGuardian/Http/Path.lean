import BridgeGuardian.Bytes
import BridgeGuardian.Bytes.Hex

/-! # Paths — what a request is about

    A target is a path, or a whole address whose path stands behind a scheme
    and an authority.  A query and a fragment may follow, neither of which
    matters. -/

namespace BridgeGuardian.Http.Path

/-- Whether a character may stand in a scheme. -/
def isSchemeChar (c : Char) : Bool := c.isAlphanum || c == '+' || c == '-' || c == '.'

/-- Whether a character ends an authority. -/
def endsAuthority (c : Char) : Bool := c == '/' || c == '?' || c == '#'

/-- A target without its scheme and authority, if it has them. -/
def withoutAuthority (target : List Char) : List Char :=
  match target.dropWhile isSchemeChar with
  | ':' :: '/' :: '/' :: rest => rest.dropWhile fun c => !endsAuthority c
  | _ => target

/-- The path of a target. -/
def ofTarget (target : String) : String :=
  String.ofList ((withoutAuthority target.toList).takeWhile fun c => c != '?' && c != '#')

/-- The text behind a beginning. -/
def behind? (beginning : String) (path : String) : Option String :=
  let front := beginning.toList
  if front.isPrefixOf path.toList then some (String.ofList (path.toList.drop front.length))
  else none

/-- The octets of a text in which percent signs with two hexadecimal digits
    stand for octets; any other percent sign stands for itself. -/
def percentDecode : Bytes → Bytes
  | [] => []
  | c :: rest =>
      match c, rest with
      | 37, high :: low :: rest' =>
          match Hex.digitValue? high, Hex.digitValue? low with
          | some h, some l => UInt8.ofNat (h * 16 + l) :: percentDecode rest'
          | _, _ => c :: percentDecode (high :: low :: rest')
      | c, rest => c :: percentDecode rest

/-- The text of a part of a path, if its octets spell one. -/
def part? (text : String) : Option String :=
  String.fromUTF8? (ByteArray.mk (percentDecode (utf8 text)).toArray)

end BridgeGuardian.Http.Path
