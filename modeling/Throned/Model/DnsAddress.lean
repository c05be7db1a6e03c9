import Throned.Library.HostNames
import Throned.Model.SingBoxOutbounds

/-!
# Addresses of DNS servers (generate.cpp:272-288, 2856-2949)

A DNS address is one text: `local...`, `dhcp://` with an interface, or a server with its scheme,
host, port and path.
-/

set_option autoImplicit false

namespace Throned.Configs

open Throned.Library
open Throned.Configs.SingBox (QtFunctions toAceHost)

/-- What is used of Qt. -/
structure DnsText extends QtFunctions where
  /-- `QHostAddress(text).protocol() == QAbstractSocket::IPv6Protocol`. -/
  isIPv6 : Text → Bool
  /-- No character beyond ASCII has a small form in it, but for the sign of the kelvin. -/
  toLower_eq : ∀ text small : Text, (∀ c ∈ small, c.toNat < 128 ∧ c ≠ 'k') →
    (toLower text = small ↔ text.map Char.toLower = small)
  toAce_line : ∀ host, '\n' ∉ toAce host
  /-- An IPv6 address has two colons or more before its zone. -/
  isIPv6_colons : ∀ text, isIPv6 text = true → 1 < (text.takeWhile (· ≠ '%')).count ':'
  isIPv6_head : ∀ text, isIPv6 text = true → text.head? ≠ some '['

/-- `port` 0 means the type's default; `iface` is empty for `dhcp://auto`. -/
structure DnsAddress where
  type : Text
  server : Text := []
  port : ℕ := 0
  path : Text := []
  iface : Text := []
  deriving DecidableEq, Repr

/-! ## Numbers and addresses (generate.cpp:272-288) -/

def isCanonicalDecimal (text : Text) (maxDigits : ℕ) : Bool :=
  if text = [] ∨ text.length > maxDigits then false
  else if text.length > 1 ∧ text.head? = some '0' then false
  else text.all fun c => (decimalDigit c).isSome

def isCanonicalIPv4 (text : Text) : Bool :=
  let octets := text.splitOn '.'
  octets.length = 4 && octets.all fun octet =>
    isCanonicalDecimal octet 3 && (parseDecimal octet).getD 0 ≤ 255

/-! ## Expressions

`$` also matches before a line feed that ends the text. -/

/-- A text matched from end to end. -/
def wholeMatch (language : Text → Bool) (text : Text) : Bool :=
  language text || (text.getLast? = some '\n' && language text.dropLast)

/-- White space of an expression, which is that of ASCII. -/
def isExprSpace (c : Char) : Bool := c = ' ' || ('\t' ≤ c && c ≤ '\r')

/-- `^[^\s/]+$` -/
def ifaceRe : Text → Bool :=
  wholeMatch fun text => text ≠ [] && text.all fun c => !isExprSpace c && c ≠ '/'

/-- `^[0-9.]+$` -/
def ipv4LikeRe : Text → Bool :=
  wholeMatch fun text => text ≠ [] && text.all fun c => (decimalDigit c).isSome || c = '.'

/-- Labels of 63 characters at most, in a name of 253 at most without its last dot. -/
def hostnameRe : Text → Bool := wholeMatch hostName

/-- `^[0-9]{1,5}$` -/
def portRe : Text → Bool :=
  wholeMatch fun text => text ≠ [] && text.length ≤ 5 && text.all fun c => (decimalDigit c).isSome

/-- `startsWith("local", Qt::CaseInsensitive)` -/
def startsWithLocal (text : Text) : Bool := (text.take 5).map Char.toLower = "local".toList

def plainSchemes : List Text := ["udp".toList, "tcp".toList, "tls".toList, "quic".toList]

def pathSchemes : List Text := ["https".toList, "h3".toList]

section Parse

variable (qt : DnsText)

def isIPv6Literal (text : Text) (allowZone : Bool) : Bool :=
  if ':' ∉ text ∨ (allowZone = false ∧ '%' ∈ text) then false else qt.isIPv6 text

/-- The interface behind `dhcp://`. -/
def parseInterface (rest : Text) : Except Text DnsAddress :=
  if rest = [] then
    .error (qt.translate "Name an interface after dhcp://, or use dhcp://auto." [])
  else if ifaceRe rest = false then
    .error (qt.translate "\"%1\" is not a valid interface name." [rest])
  else if rest.map Char.toLower = "auto".toList then .ok { type := "dhcp".toList }
  else .ok { type := "dhcp".toList, iface := rest }

/-- The host of a bracketed address and the text of its port, if it has one. -/
def bracketedHost (rest : Text) : Except Text (Text × Option Text) :=
  match cut ']' rest with
  | none => .error (qt.translate "The IPv6 address is missing its closing bracket." [])
  | some (opening, tail) =>
    let host := opening.tail
    if tail ≠ [] ∧ tail.head? ≠ some ':' then
      .error (qt.translate "Only a port may follow a bracketed IPv6 address." [])
    else if isIPv6Literal qt host true = false then
      .error (qt.translate "\"%1\" is not a valid IPv6 address." [host])
    else .ok (host, if tail = [] then none else some tail.tail)

/-- The tests of a host that is a name or an IPv4 address. -/
def checkedHost (host : Text) (portText : Option Text) : Except Text (Text × Option Text) :=
  if host = [] then .error (qt.translate "The DNS server address is missing." [])
  else if ipv4LikeRe host = true then
    if isCanonicalIPv4 host = true then .ok (host, portText)
    else .error (qt.translate "\"%1\" is not a valid IPv4 address." [host])
  else if hostnameRe (toAceHost qt.toQtFunctions host) = true then .ok (host, portText)
  else .error (qt.translate "\"%1\" is not a valid IP address or host name." [host])

/-- The host that is a name or an IPv4 address, and the text of its port, if it has one. -/
def namedHost (rest : Text) : Except Text (Text × Option Text) :=
  match cut ':' rest with
  | none => checkedHost qt rest none
  | some (host, portText) => checkedHost qt host (some portText)

def parseHost (rest : Text) : Except Text (Text × Option Text) :=
  if rest.head? = some '[' then bracketedHost qt rest
  -- a bare IPv6 cannot carry a port: its last group would read as one
  else if rest.count ':' > 1 then
    if isIPv6Literal qt rest true = true then .ok (rest, none)
    else .error (qt.translate
      "\"%1\" is not a valid IPv6 address; put it in brackets to add a port." [rest])
  else namedHost qt rest

/-- `QString::toInt` ignores the white space around. -/
def parsePort : Option Text → Except Text ℕ
  | none => .ok 0
  | some portText =>
    if portText = [] then .error (qt.translate "The port is missing after the colon." [])
    else
      let port := if portRe portText = true then (parseDecimal (trimSpace portText)).getD 0 else 0
      if port < 1 ∨ port > 65535 then
        .error (qt.translate "\"%1\" is not a valid port; use a number from 1 to 65535."
          [portText])
      else .ok port

/-- A server behind its scheme. -/
def parseServer (scheme rest : Text) : Except Text DnsAddress := do
  let authority := rest.takeWhile (· ≠ '/')
  let path := rest.dropWhile (· ≠ '/')
  if path ≠ [] ∧ scheme ∉ pathSchemes then
    .error (qt.translate "Only https:// and h3:// DNS addresses take a path." [])
  else
    let (host, portText) ← parseHost qt authority
    let port ← parsePort qt portText
    .ok { type := scheme, server := toAceHost qt.toQtFunctions host, port, path }

/-- The scheme of an address and what follows it. -/
def splitScheme (address : Text) : Text × Text :=
  match cutText "://".toList address with
  | none => ("udp".toList, address)
  | some (scheme, rest) => (qt.toLower scheme, rest)

def parseScheme (scheme rest : Text) : Except Text DnsAddress :=
  if scheme = "dhcp".toList then parseInterface qt rest
  else if scheme ∉ plainSchemes ∧ scheme ∉ pathSchemes then
    .error (qt.translate ("\"%1\" is not a supported DNS scheme; " ++
      "use udp, tcp, tls, quic, https, h3, dhcp or local.") [scheme])
  else parseServer qt scheme rest

def ParseDnsAddress (text : Text) : Except Text DnsAddress :=
  let address := trimSpace text
  if address = [] then .error (qt.translate "The DNS address is empty." [])
  else if startsWithLocal address = true then .ok { type := "local".toList }
  else parseScheme qt (splitScheme qt address).1 (splitScheme qt address).2

end Parse

end Throned.Configs
