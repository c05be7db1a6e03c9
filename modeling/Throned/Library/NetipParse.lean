import Throned.Library.Netip
import Throned.Library.Text

/-!
# Reading addresses and prefixes from text

`parseAddr` and `parsePrefix` follow Go's `net/netip`: four decimal octets without
leading zeros, or up to eight hexadecimal groups with at most one `::` and an optional
dotted tail, an optional zone after `%`, and for a prefix a decimal length without sign
or leading zero.  Every character the grammar names is ASCII, any other one is refused
wherever it stands outside a zone.
-/

set_option autoImplicit false

namespace Throned.Library

namespace Netip

/-- The loop of `parseIPv4Fields`: the character before, the value and digit count of
the current octet, the octets finished so far. -/
def parseIPv4Loop : Option Char → ℕ → ℕ → List ℕ → Text → Option (List ℕ)
  | _, val, _, fields, [] => if fields.length < 3 then none else some (fields ++ [val])
  | prev, val, digLen, fields, c :: s =>
    match decimalDigit c with
    | some d =>
      if digLen = 1 ∧ val = 0 then none
      else if val * 10 + d > 255 then none
      else parseIPv4Loop (some c) (val * 10 + d) (digLen + 1) fields s
    | none =>
      if c = '.' then
        -- an octet needs a digit: no dot at either end, no two in a row
        if prev = none ∨ s = [] ∨ prev = some '.' then none
        else if fields.length = 3 then none
        else parseIPv4Loop (some c) 0 0 (fields ++ [val]) s
      else none

/-- The four octets of a dotted quad. -/
def parseIPv4Fields (s : Text) : Option (List ℕ) := parseIPv4Loop none 0 0 [] s

/-- An address from its octets, the highest first. -/
def ofOctets (octets : List ℕ) : BitVec 32 :=
  BitVec.ofNat 32 (octets.foldl (fun value octet => value * 256 + octet) 0)

def parseIPv4 (s : Text) : Option Addr :=
  (parseIPv4Fields s).map fun octets => .v4 (ofOctets octets)

/-- The hexadecimal digits a group starts with: how many, their value, the rest. -/
def readGroup : ℕ → ℕ → Text → Option (ℕ × ℕ × Text)
  | off, acc, [] => some (off, acc, [])
  | off, acc, c :: s =>
    match hexDigit c with
    | none => some (off, acc, c :: s)
    | some d =>
      if off > 3 then none
      else if acc * 16 + d > 0xffff then none
      else readGroup (off + 1) (acc * 16 + d) s

/-- The group loop of `parseIPv6`: how many groups still fit, the groups so far, where
the `::` stood, the rest of the text. -/
def parseIPv6Loop : ℕ → List ℕ → Option ℕ → Text → Option (List ℕ × Option ℕ × Text)
  | 0, groups, ellipsis, s => some (groups, ellipsis, s)
  | room + 1, groups, ellipsis, s =>
    match readGroup 0 0 s with
    | none => none
    | some (off, acc, rest) =>
      if off = 0 then none
      else match rest with
        | '.' :: _ =>
          if ellipsis.isNone ∧ groups.length ≠ 6 then none
          else if groups.length > 6 then none
          else match parseIPv4Fields s with
            | some [a, b, c, d] => some (groups ++ [a * 256 + b, c * 256 + d], ellipsis, [])
            | _ => none
        | [] => some (groups ++ [acc], ellipsis, [])
        | [':'] => none
        | ':' :: ':' :: tail =>
          if ellipsis.isSome then none
          else if tail = [] then some (groups ++ [acc], some (groups.length + 1), [])
          else parseIPv6Loop room (groups ++ [acc]) (some (groups.length + 1)) tail
        | ':' :: tail => parseIPv6Loop room (groups ++ [acc]) ellipsis tail
        | _ => none

/-- A half of an IPv6 address from its four groups, the highest first. -/
def ofGroups (groups : List ℕ) : Word64 :=
  BitVec.ofNat 64 (groups.foldl (fun value group => value * 65536 + group) 0)

/-- What follows the group loop: the whole text must be used, and a `::` must stand for
at least one group. -/
def expandGroups : List ℕ × Option ℕ × Text → Option (List ℕ)
  | (_, _, _ :: _) => none
  | (groups, none, []) => if groups.length < 8 then none else some groups
  | (groups, some at', []) =>
    if groups.length < 8 then
      some (groups.take at' ++ List.replicate (8 - groups.length) 0 ++ groups.drop at')
    else none

/-- The part of `parseIPv6` after the zone has been split off. -/
def parseIPv6Groups (s : Text) : Option (List ℕ) :=
  match s with
  | ':' :: ':' :: [] => some (List.replicate 8 0)
  | ':' :: ':' :: tail => (parseIPv6Loop 8 [] (some 0) tail).bind expandGroups
  | _ => (parseIPv6Loop 8 [] none s).bind expandGroups

/-- The address of eight groups. -/
def addrOfGroups (groups : List ℕ) : Addr :=
  .v6 (ofGroups (groups.take 4)) (ofGroups (groups.drop 4))

/-- `parseIPv6`, with the zone beside the address. -/
def parseIPv6 (s : Text) : Option (Addr × Text) :=
  let body := s.takeWhile (· ≠ '%')
  match s.dropWhile (· ≠ '%') with
  | [] => (parseIPv6Groups body).map fun groups => (addrOfGroups groups, [])
  | [_] => none
  | _ :: zone => (parseIPv6Groups body).map fun groups => (addrOfGroups groups, zone)

/-- `netip.ParseAddr`: the first of `.`, `:` and `%` decides the family. -/
def parseAddr (s : Text) : Option (Addr × Text) :=
  match s.find? (fun c => c = '.' || c = ':' || c = '%') with
  | some '.' => (parseIPv4 s).map fun addr => (addr, [])
  | some ':' => parseIPv6 s
  | _ => none

/-- The length after the slash: no sign, no leading zero, at most `bitLen`. -/
def parseBits (bitLen : ℕ) (s : Text) : Option ℕ :=
  if 1 < s.length ∧ s.head? = some '0' then none
  else (parseDecimal s).filter (· ≤ bitLen)

/-- `netip.ParsePrefix`: an address without a zone, the last slash, a length. -/
def parsePrefix (s : Text) : Option Prefix :=
  match (s.reverse.dropWhile (· ≠ '/')).reverse with
  | [] => none
  | body =>
    match parseAddr body.dropLast with
    | some (addr, []) =>
      match parseBits addr.bitLen (s.drop body.length) with
      | some bits => if h : bits ≤ addr.bitLen then some ⟨addr, bits, h⟩ else none
      | none => none
    | _ => none

end Netip

end Throned.Library
