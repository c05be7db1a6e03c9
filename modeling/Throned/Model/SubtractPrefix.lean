import Throned.Library.NetipFormat

/-!
# Cutting a hole into ranges (generate.cpp:330-401)

The ranges a Tun excludes, with the Tun's own subnet cut out of them.  A prefix is handled as its
bytes, so that IPv4 and IPv6 share the splitting; a byte outside of an address would end a
function in `none`.
-/

set_option autoImplicit false

namespace Throned.Configs

open Throned.Library

/-- What is used of `QHostAddress`. -/
structure HostAddress where
  /-- `none` where the length is negative. -/
  parseSubnet : Text → Option Prefix
  toString : Addr → Text
  /-- `parseSubnet` clears the host bits. -/
  masked_of_parseSubnet : ∀ {text p}, parseSubnet text = some p → p.masked = p
  parseSubnet_toString : ∀ p : Prefix,
    parseSubnet (toString p.addr ++ '/' :: decimal p.bits) = some p.masked

structure RawPrefix where
  addr : List UInt8 := []
  bits : Int := -1
  deriving DecidableEq, Repr

/-- The bytes of an address, the highest first. -/
def addressBytes : Addr → List UInt8
  | .v4 value => (List.range 4).map fun i => UInt8.ofNat ((value.toNat >>> (24 - 8 * i)) &&& 0xff)
  | .v6 high low =>
    (List.range 8).map (fun i => UInt8.ofNat ((high.toNat >>> (56 - 8 * i)) &&& 0xff)) ++
      (List.range 8).map fun i => UInt8.ofNat ((low.toNat >>> (56 - 8 * i)) &&& 0xff)

/-- A number put together from its bytes. -/
def bytesNumber (bytes : List UInt8) : ℕ := bytes.foldl (fun n b => (n <<< 8) ||| b.toNat) 0

/-- `QHostAddress` of four bytes as a number, or of a `Q_IPV6ADDR`. -/
def addressOfBytes (bytes : List UInt8) : Addr :=
  if bytes.length = 4 then .v4 (BitVec.ofNat 32 (bytesNumber bytes))
  else
    .v6 (BitVec.ofNat 64 (bytesNumber (bytes.take 8)))
      (BitVec.ofNat 64 (bytesNumber ((bytes.drop 8).take 8)))

section Subtract

variable (qt : HostAddress)

def parsePrefix (cidr : Text) : RawPrefix :=
  match qt.parseSubnet cidr with
  | none => {}
  | some p => { addr := addressBytes p.addr, bits := p.bits }

def prefixToString (p : RawPrefix) : Text :=
  qt.toString (addressOfBytes p.addr) ++ '/' :: decimal p.bits.toNat

/-- `0xFF << (8 - restBits)` as a byte. -/
def restMask (restBits : ℕ) : UInt8 := UInt8.ofNat (0xff <<< (8 - restBits))

def prefixContains (outer inner : RawPrefix) : Option Bool :=
  if outer.bits < 0 ∨ inner.bits < 0 then some false
  else if outer.addr.length ≠ inner.addr.length ∨ inner.bits < outer.bits then some false
  else
    let wholeBytes := outer.bits.toNat / 8
    if outer.addr.take wholeBytes ≠ inner.addr.take wholeBytes then some false
    else
      let restBits := outer.bits.toNat % 8
      if restBits = 0 then some true
      else do
        let a ← outer.addr[wholeBytes]?
        let b ← inner.addr[wholeBytes]?
        some ((a &&& restMask restBits) == (b &&& restMask restBits))

/-- The bit of a byte that `0x80 >> i` stands for. -/
def bitMask (i : ℕ) : UInt8 := UInt8.ofNat (0x80 >>> i)

def flipBit (addr : List UInt8) (i : ℕ) : Option (List UInt8) := do
  let b ← addr[i / 8]?
  some (addr.set (i / 8) (b ^^^ bitMask (i % 8)))

def clearBit (addr : List UInt8) (i : ℕ) : Option (List UInt8) := do
  let b ← addr[i / 8]?
  some (addr.set (i / 8) (b &&& ~~~bitMask (i % 8)))

/-- The prefix of length `bits` beside the hole. -/
def siblingPrefix (cut : RawPrefix) (bits : ℕ) : Option RawPrefix := do
  let flipped ← flipBit cut.addr (bits - 1)
  let addr ← (List.range' bits (flipped.length * 8 - bits)).foldlM clearBit flipped
  some { addr, bits }

/-- What takes the place of one range. -/
def subtractEntry (cut : RawPrefix) (entry : Text) : Option (List Text) := do
  let range := parsePrefix qt entry
  if ← prefixContains cut range then some []
  else if !(← prefixContains range cut) then some [entry]
  else
    (List.range' (range.bits.toNat + 1) (cut.bits.toNat - range.bits.toNat)).mapM fun bits => do
      some (prefixToString qt (← siblingPrefix cut bits))

def subtractPrefix (ranges : List Text) (hole : Text) : Option (List Text) :=
  let cut := parsePrefix qt hole
  if cut.bits < 0 then some ranges
  else do
    some (← ranges.mapM (subtractEntry qt cut)).flatten

end Subtract

/-- The ranges macOS excludes: neither subnet of the Tun stays in them (generate.cpp:1518-1522). -/
def cutTunSubnets (qt : HostAddress) (excludedRanges : List Text) (tunIPv4CIDR tunIPv6CIDR : Text)
    (vpnIPv6 : Bool) : Option (List Text) := do
  let excludedRanges ← subtractPrefix qt excludedRanges tunIPv4CIDR
  if vpnIPv6 then subtractPrefix qt excludedRanges tunIPv6CIDR else some excludedRanges

end Throned.Configs
