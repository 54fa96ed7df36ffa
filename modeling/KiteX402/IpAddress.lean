/-
The textual form of IP addresses, as the standard library reads it.
-/
import KiteX402.RateLimit
import KiteX402.Text

namespace KiteX402

namespace IpAddr

/-- The number of bits of an address of the same kind. -/
def bits : IpAddr → ℕ
  | .v4 _ => 32
  | .v6 _ => 128

/-- `char::to_digit` up to radix 16. -/
def toDigit (radix : ℕ) (c : Char) : Option ℕ :=
  let digit? :=
    if c.isDigit then some (c.toNat - '0'.toNat)
    else if 'a' ≤ c ∧ c ≤ 'f' then some (c.toNat - 'a'.toNat + 10)
    else if 'A' ≤ c ∧ c ≤ 'F' then some (c.toNat - 'A'.toNat + 10)
    else none
  digit?.filter (· < radix)

/-- A number of at most `maxDigits` digits and below `bound`, off the front of
the input. -/
def readNumber (radix maxDigits bound : ℕ) (allowZeroPrefix : Bool) (input : List Char) :
    Option (ℕ × List Char) :=
  let digits := input.takeWhile fun c => (toDigit radix c).isSome
  let value := (digits.filterMap (toDigit radix)).foldl (fun value digit => value * radix + digit) 0
  if digits.length = 0 ∨ maxDigits < digits.length then none
  else if allowZeroPrefix = false ∧ input.head? = some '0' ∧ 1 < digits.length then none
  else if value < bound then some (value, input.drop digits.length)
  else none

/-- Runs a reader behind a separator, which the first item has none of. -/
def readSeparator {A : Type} (separator : Char) (index : ℕ)
    (inner : List Char → Option (A × List Char)) (input : List Char) : Option (A × List Char) :=
  if 0 < index then
    match input with
    | c :: rest => if c = separator then inner rest else none
    | [] => none
  else inner input

/-- The value of groups of `width` bits, the highest first. -/
def ofGroups (width : ℕ) (groups : List ℕ) : ℕ :=
  groups.foldl (fun value group => value * 2 ^ width + group) 0

/-- One octet after the other: no octet has a leading zero. -/
def readOctets (index : ℕ) : ℕ → List Char → Option (List ℕ × List Char)
  | 0, input => some ([], input)
  | left + 1, input =>
      (readSeparator '.' index (readNumber 10 3 256 false) input).bind fun (octet, rest) =>
        (readOctets (index + 1) left rest).map fun (octets, rest) => (octet :: octets, rest)

def readIpv4Addr (input : List Char) : Option (BitVec 32 × List Char) :=
  (readOctets 0 4 input).map fun (octets, rest) => (BitVec.ofNat 32 (ofGroups 8 octets), rest)

/-- The groups of an IPv6 address from group `index` on with `left` to go, and
whether the last two were written as an IPv4 address. -/
def readGroups (index : ℕ) : ℕ → List Char → List ℕ × Bool × List Char
  | 0, input => ([], false, input)
  | left + 1, input =>
      match if 0 < left then readSeparator ':' index readIpv4Addr input else none with
      | some (bits, rest) => ([bits.toNat / 2 ^ 16, bits.toNat % 2 ^ 16], true, rest)
      | none =>
          match readSeparator ':' index (readNumber 16 4 (2 ^ 16) true) input with
          | some (group, rest) =>
              let (groups, ipv4, rest) := readGroups (index + 1) left rest
              (group :: groups, ipv4, rest)
          | none => ([], false, input)

def readIpv6Addr (input : List Char) : Option (BitVec 128 × List Char) :=
  let (head, headIpv4, rest) := readGroups 0 8 input
  if head.length = 8 then some (BitVec.ofNat 128 (ofGroups 16 head), rest)
  -- an IPv4 part cannot stand before `::`
  else if headIpv4 then none
  else
    match rest with
    | ':' :: ':' :: rest =>
        -- `::` stands for at least one group
        let (tail, _, rest) := readGroups 0 (8 - (head.length + 1)) rest
        let zeros := List.replicate (8 - head.length - tail.length) 0
        some (BitVec.ofNat 128 (ofGroups 16 (head ++ zeros ++ tail)), rest)
    | _ => none

/-- `str::parse::<IpAddr>`: all of the text has to be read. -/
def parse (text : List Char) : Option IpAddr :=
  match readIpv4Addr text with
  | some (bits, rest) => if rest = [] then some (.v4 bits) else none
  | none =>
      match readIpv6Addr text with
      | some (bits, rest) => if rest = [] then some (.v6 bits) else none
      | none => none

end IpAddr

end KiteX402
