import Hoprd.Rust

/-!
# Reading IP addresses (`IpAddr::from_str`)

The parser of Rust's standard library: dotted IPv4 without leading zeros, IPv6
with at most one `::` and possibly an IPv4 tail, nothing after it. A reader
takes the characters left and returns its value with those it has not used.
-/
namespace Hoprd

abbrev Reader (α : Type) := List Char → Option (α × List Char)

def toDigit (radix : Nat) (c : Char) : Option Nat :=
  let d := if c.isDigit then some (c.toNat - '0'.toNat)
    else if 'a' ≤ c ∧ c ≤ 'z' then some (c.toNat - 'a'.toNat + 10)
    else if 'A' ≤ c ∧ c ≤ 'Z' then some (c.toNat - 'A'.toNat + 10)
    else none
  d.filter (· < radix)

/-- All digits at the head, at most `maxDigits` of them and at least one, with
a value below `limit`. -/
def readNumber (radix maxDigits limit : Nat) (allowZeroPrefix : Bool) : Reader Nat := fun cs =>
  let digits := cs.takeWhile fun c => (toDigit radix c).isSome
  let value := digits.foldl (fun n c => n * radix + (toDigit radix c).getD 0) 0
  if maxDigits < digits.length || digits.isEmpty || limit ≤ value then none
  else if !allowZeroPrefix && digits.head? == some '0' && 1 < digits.length then none
  else some (value, cs.drop digits.length)

def readGivenChar (c : Char) : List Char → Option (List Char)
  | d :: cs => if d = c then some cs else none
  | [] => none

/-- `inner`, after a separator unless at the first position. -/
def readSeparator {α : Type} (sep : Char) (first : Bool) (inner : Reader α) : Reader α := fun cs =>
  if first then inner cs else (readGivenChar sep cs).bind inner

def readIpv4Addr : Reader (UInt8 × UInt8 × UInt8 × UInt8) := fun cs => do
  let octet := readNumber 10 3 256 false
  let (a, cs) ← readSeparator '.' true octet cs
  let (b, cs) ← readSeparator '.' false octet cs
  let (c, cs) ← readSeparator '.' false octet cs
  let (d, cs) ← readSeparator '.' false octet cs
  return ((.ofNat a, .ofNat b, .ofNat c, .ofNat d), cs)

/-- Up to `slots` groups; also whether the last two came from an IPv4 tail. -/
def readGroups : (slots : Nat) → (first : Bool) → List Char → List Nat × Bool × List Char
  | 0, _, cs => ([], false, cs)
  | slots + 1, first, cs =>
    match (if slots = 0 then none else readSeparator ':' first readIpv4Addr cs) with
    | some ((a, b, c, d), cs) =>
      ([a.toNat * 256 + b.toNat, c.toNat * 256 + d.toNat], true, cs)
    | none =>
      match readSeparator ':' first (readNumber 16 4 65536 true) cs with
      | some (g, cs) =>
        let (gs, ipv4, cs) := readGroups slots false cs
        (g :: gs, ipv4, cs)
      | none => ([], false, cs)

def segmentsOf (groups : List Nat) : BitVec 128 :=
  .ofNat 128 (groups.foldl (fun n g => n * 65536 + g) 0)

def readIpv6Addr : Reader (BitVec 128) := fun cs => do
  let (head, headIpv4, cs) := readGroups 8 true cs
  if head.length = 8 then return (segmentsOf head, cs)
  -- an IPv4 part is not allowed before `::`
  if headIpv4 then none
  let cs ← readGivenChar ':' cs
  let cs ← readGivenChar ':' cs
  let (tail, _, cs) := readGroups (7 - head.length) true cs
  let zeros := List.replicate (8 - head.length - tail.length) 0
  return (segmentsOf (head ++ zeros ++ tail), cs)

def readIpAddr : Reader IpAddr := fun cs =>
  match readIpv4Addr cs with
  | some ((a, b, c, d), cs) => some (.v4 a b c d, cs)
  | none => (readIpv6Addr cs).map fun (s, cs) => (.v6 s, cs)

def IpAddr.fromStr (s : String) : Option IpAddr :=
  match readIpAddr s.toList with
  | some (ip, []) => some ip
  | _ => none

end Hoprd
