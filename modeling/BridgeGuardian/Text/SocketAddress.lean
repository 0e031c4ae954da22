import BridgeGuardian.Text.Numeral
import BridgeGuardian.Text.Quoted

/-! # Socket addresses — a numeric host and a port

    A host is four decimal numbers between points, or eight hexadecimal
    groups between colons and inside brackets.  Of the groups one run of
    zeros may be left out, the last two may be written as four decimal
    numbers, and behind a percent sign there may be the number of a scope.
    Names are not looked up, so they are no hosts. -/

namespace BridgeGuardian

/-- A numeric host. -/
inductive Host
  /-- Four octets. -/
  | v4 (a b c d : UInt8)
  /-- Eight groups, and a scope that is zero unless it is given. -/
  | v6 (groups : List UInt16) (scope : UInt32)
deriving DecidableEq, Repr

/-- A host and a port. -/
structure SocketAddress where
  host : Host
  port : UInt16
deriving DecidableEq, Repr

namespace SocketAddress

/-! ## Reading -/

/-- A step that reads from the front of a text, or does not. -/
abbrev Scan := StateT (List Char) Option

/-- Read one given character. -/
def scanChar (c : Char) : Scan Unit := fun text =>
  match text with
  | first :: rest => if first = c then some ((), rest) else none
  | [] => none

/-- The value of a digit in a radix of at most 16. -/
def digitValue? (radix : Nat) (c : Char) : Option Nat :=
  let n := c.toNat
  let value? :=
    if 48 ≤ n ∧ n ≤ 57 then some (n - 48)
    else if 65 ≤ n ∧ n ≤ 70 then some (n - 55)
    else if 97 ≤ n ∧ n ≤ 102 then some (n - 87)
    else none
  value?.filter (· < radix)

/-- Read all digits in front: at least one, with a value of at most
    `limit`. -/
def scanNumber (radix limit : Nat) (accepts : List Char → Bool) : Scan Nat := fun text =>
  let isDigit := fun c => (digitValue? radix c).isSome
  let digits := text.takeWhile isDigit
  let value := digits.foldl (fun n c => n * radix + (digitValue? radix c).getD 0) 0
  if !digits.isEmpty && accepts digits && value ≤ limit then some (value, text.dropWhile isDigit)
  else none

/-- Read an octet in decimal: no more than three digits, and no zero in
    front of another. -/
def scanOctet : Scan UInt8 := do
  let accepts := fun digits : List Char =>
    digits.length ≤ 3 && (digits.length == 1 || digits.head? != some '0')
  return UInt8.ofNat (← scanNumber 10 255 accepts)

/-- Read four octets between points. -/
def scanOctets : Scan (UInt8 × UInt8 × UInt8 × UInt8) := do
  let a ← scanOctet
  scanChar '.'
  let b ← scanOctet
  scanChar '.'
  let c ← scanOctet
  scanChar '.'
  let d ← scanOctet
  return (a, b, c, d)

/-- Read a group of at most four hexadecimal digits. -/
def scanGroup : Scan UInt16 := do
  return UInt16.ofNat (← scanNumber 16 65535 fun digits => digits.length ≤ 4)

/-- Read something behind a colon, which is left out in front of the
    first. -/
def behindColon {α : Type} (isFirst : Bool) (scan : Scan α) : Scan α := do
  if isFirst then scan
  else
    scanChar ':'
    scan

/-- The group that two octets make. -/
def group (high low : UInt8) : UInt16 := UInt16.ofNat (high.toNat * 256 + low.toNat)

/-- Read groups as long as there are any, at most `room`; the flag tells
    whether they end in four decimal numbers. -/
def scanGroups : (room : Nat) → (isFirst : Bool) → List Char → (List UInt16 × Bool) × List Char
  | 0, _, text => (([], false), text)
  | room + 1, isFirst, text =>
      match if room = 0 then none else behindColon isFirst scanOctets text with
      | some ((a, b, c, d), rest) => (([group a b, group c d], true), rest)
      | none =>
          match behindColon isFirst scanGroup text with
          | none => (([], false), text)
          | some (first, rest) =>
              let ((others, isMixed), rest) := scanGroups room false rest
              ((first :: others, isMixed), rest)

/-- Read eight groups, or fewer around two colons. -/
def scanEight : Scan (List UInt16) := fun text =>
  let ((front, isMixed), rest) := scanGroups 8 true text
  if front.length = 8 then some (front, rest)
  else if isMixed then none
  else do
    let ((), rest) ← scanChar ':' rest
    let ((), rest) ← scanChar ':' rest
    let ((back, _), rest) := scanGroups (8 - (front.length + 1)) true rest
    return (front ++ List.replicate (8 - front.length - back.length) 0 ++ back, rest)

/-- Read a scope, if there is one. -/
def scanScope : Scan UInt32 := fun text =>
  let scope : Scan UInt32 := do
    scanChar '%'
    return UInt32.ofNat (← scanNumber 10 (UInt32.size - 1) fun _ => true)
  some ((scope text).getD (0, text))

/-- Read a port behind a colon. -/
def scanPort : Scan UInt16 := do
  scanChar ':'
  return UInt16.ofNat (← scanNumber 10 65535 fun _ => true)

/-- Read an address with a host of four octets. -/
def scanV4 : Scan SocketAddress := do
  let (a, b, c, d) ← scanOctets
  return ⟨.v4 a b c d, ← scanPort⟩

/-- Read an address with a host of eight groups. -/
def scanV6 : Scan SocketAddress := do
  scanChar '['
  let groups ← scanEight
  let scope ← scanScope
  scanChar ']'
  return ⟨.v6 groups scope, ← scanPort⟩

/-- Read a whole text. -/
def read? (text : String) : Option SocketAddress :=
  match (scanV4 <|> scanV6) text.toList with
  | some (address, []) => some address
  | _ => none

/-! ## Showing -/

/-- A run of zeros among groups. -/
structure ZeroRun where
  start : Nat
  length : Nat

/-- The first of the longest runs of zeros; `current` ends where the groups
    begin, at a position. -/
def longestRun (position : Nat) (current longest : ZeroRun) : List UInt16 → ZeroRun
  | [] => longest
  | g :: rest =>
      if g = 0 then
        let current : ZeroRun :=
          if current.length = 0 then ⟨position, 1⟩ else ⟨current.start, current.length + 1⟩
        let longest := if longest.length < current.length then current else longest
        longestRun (position + 1) current longest rest
      else longestRun (position + 1) ⟨0, 0⟩ longest rest

/-- Groups between colons. -/
def showGroups (groups : List UInt16) : String :=
  ":".intercalate (groups.map fun g => Text.hexNumeral g.toNat)

/-- Four octets between points. -/
def showOctets (octets : List Nat) : String := ".".intercalate (octets.map toString)

/-- Eight groups: what stands for four octets is shown as such, and the
    longest run of at least two zeros is left out. -/
def showEight (groups : List UInt16) : String :=
  match groups with
  | [0, 0, 0, 0, 0, 65535, high, low] =>
      "::ffff:" ++ showOctets [high.toNat / 256, high.toNat % 256, low.toNat / 256, low.toNat % 256]
  | groups =>
      let run := longestRun 0 ⟨0, 0⟩ ⟨0, 0⟩ groups
      if 1 < run.length then
        showGroups (groups.take run.start) ++ "::"
          ++ showGroups (groups.drop (run.start + run.length))
      else showGroups groups

/-- The textual form. -/
def display (a : SocketAddress) : String :=
  match a.host with
  | .v4 b c d e => s!"{showOctets [b.toNat, c.toNat, d.toNat, e.toNat]}:{a.port.toNat}"
  | .v6 groups scope =>
      if scope = 0 then s!"[{showEight groups}]:{a.port.toNat}"
      else s!"[{showEight groups}%{scope.toNat}]:{a.port.toNat}"

end SocketAddress

end BridgeGuardian
