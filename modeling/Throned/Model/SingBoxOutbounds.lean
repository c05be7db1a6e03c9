import Throned.Library.Json

/-!
# Outbounds of sing-box

The VLESS, VMess and Trojan outbounds that run on sing-box: the object that each builds for the
core, and the security it reports (src/configs/common/TLS.cpp:331-340, 430-442, 457-461, 515-532,
788-871, src/configs/common/Outbound.cpp, src/configs/common/transport.cpp:167-254,
src/configs/common/multiplex.cpp:34-42, 134-240, src/configs/common/DialFields.cpp:100-114,
src/configs/common/utils.cpp:104-127, 169-220 and src/configs/outbounds).

What Qt computes of texts and addresses, and the checks of single values, are those of the other
modules.
-/

set_option autoImplicit false

namespace Throned.Configs.SingBox

open Throned.Library
open Throned.Library.JsonObject

/-! ## Texts and settings -/

/-- What Qt and the checks of single values compute. -/
structure QtFunctions where
  toLower : Text → Text
  toUpper : Text → Text
  /-- `QUrl::toAce`. -/
  toAce : Text → Text
  /-- `QString::toInt`. -/
  toInt : Text → ℤ
  equalFolded : Text → Text → Bool
  /-- `Validation::IntOrRange`. -/
  IntOrRange : Text → ℤ → ℤ → Text
  /-- `Validation::ToInt`. -/
  ToInt : Text → Option ℤ
  /-- `Validation::Ip`. -/
  Ip : Text → Text
  /-- A text with its arguments put in. -/
  translate : String → List Text → Text
  Address : Type
  /-- `QHostAddress::setAddress`. -/
  setAddress : Text → Option Address
  /-- The IPv4 address that an address stands for. -/
  toIPv4Address : Address → Option Address
  isInSubnet : Address → String → Bool

structure Settings where
  skip_cert : Bool := false
  fragment_implementation : String := "built-in"
  fragment_default_on : Bool := false
  fragment_size : Text := []
  fragment_sleep : Text := []
  tls_spoof : Text := []
  tls_spoof_method : Text := []
  tls_spoof_default_on : Bool := false
  tls_tricks_default_on : Bool := false
  utlsFingerprint : Text := []
  mux_protocol : Text := ['s', 'm', 'u', 'x']
  mux_padding : Bool := false
  mux_mode : String := "max_streams"
  mux_concurrency : ℤ := 8
  mux_max_connections : ℤ := 4
  mux_min_streams : ℤ := 4
  mux_brutal : Bool := false
  mux_brutal_up_mbps : ℤ := 0
  mux_brutal_down_mbps : ℤ := 0
  mux_default_on : Bool := false

/-- An object, unless there is an error. -/
structure BuildResult where
  object : JsonObject := []
  error : Text := []

/-- The items with text. -/
def QListStr2QJsonArray (items : List Text) : Json :=
  .arr ((items.filter fun item => !(trimSpace item).isEmpty).map .str)

def textMember (key : String) (value : Text) : JsonObject := member (value ≠ []) key (.str value)

def flagMember (key : String) (value : Bool) : JsonObject := member (value = true) key (.bool true)

/-- A list is written when it is not empty, whatever its items. -/
def listMember (key : String) (items : List Text) : JsonObject :=
  member (items ≠ []) key (QListStr2QJsonArray items)

def countMember (key : String) (value : ℤ) : JsonObject := member (value > 0) key (.num value)

/-- A pattern up to `$`, which stands before a last line feed too. -/
def matchesToEnd (core : Text → Bool) (text : Text) : Bool :=
  core text || (text.getLast? = some '\n' && core text.dropLast)

section Host

variable (qt : QtFunctions)

def isAscii (text : Text) : Bool := text.all fun c => c.toNat ≤ 0x7f

/-- A host without commas. -/
def toAceName (host : Text) : Text :=
  if isAscii host then host
  else if (qt.toAce host).isEmpty then host
  else qt.toAce host

/-- A list of hosts is written host by host. -/
def toAceHost (host : Text) : Text :=
  if ',' ∈ host then
    List.intercalate [','] ((host.splitOn ',').map fun part => toAceName qt (trimSpace part))
  else toAceName qt host

/-! ## TLS -/

structure ECH where
  enabled : Bool := false
  config : List Text := []
  config_path : Text := []
  serverName : Text := []
  resolver : Text := []

structure UTLS where
  supported : Bool := true
  enabled : Bool := false
  fingerPrint : Text := []

structure Reality where
  enabled : Bool := false
  public_key : Text := []
  short_id : Text := []

structure TLS where
  enabled : Bool := false
  disable_sni : Bool := false
  server_name : Text := []
  insecure : Bool := false
  alpn : List Text := []
  min_version : Text := []
  max_version : Text := []
  cipher_suites : List Text := []
  curve_preferences : List Text := []
  certificate : List Text := []
  certificate_path : Text := []
  certificate_sha256 : List Text := []
  certificate_public_key_sha256 : List Text := []
  client_certificate : List Text := []
  client_certificate_path : Text := []
  client_key : List Text := []
  client_key_path : Text := []
  fragment : Bool := false
  fragment_unspecified : Bool := true
  fragment_fallback_delay : Text := []
  record_fragment : Bool := false
  spoof : Text := []
  spoof_method : Text := []
  spoof_enabled : Bool := false
  spoof_unspecified : Bool := true
  tls_tricks : Bool := false
  tls_tricks_unspecified : Bool := true
  ech : ECH := {}
  utls : UTLS := {}
  reality : Reality := {}

def ECH.ExportToJson (ech : ECH) : JsonObject :=
  if !ech.enabled then []
  else
    [("enabled", .bool ech.enabled)] ++ listMember "config" ech.config ++
      textMember "config_path" ech.config_path ++
      member (ech.serverName ≠ []) "query_server_name" (.str (toAceHost qt ech.serverName)) ++
      textMember "resolver" ech.resolver

def ECH.Build (ech : ECH) : BuildResult := { object := remove (ech.ExportToJson qt) "resolver" }

def UTLS.ExportToJson (utls : UTLS) : JsonObject :=
  if !utls.enabled then []
  else [("enabled", .bool utls.enabled)] ++ textMember "fingerprint" utls.fingerPrint

def tlsUnsafeFingerprint : Text := ['u', 'n', 's', 'a', 'f', 'e']

def isTrue : Option Json → Bool
  | some (.bool b) => b
  | _ => false

def textOf : Option Json → Text
  | some (.str t) => t
  | _ => []

/-- The global fingerprint stands in for none. -/
def UTLS.Build (s : Settings) (utls : UTLS) : BuildResult :=
  if !utls.supported then {}
  else
    let obj := utls.ExportToJson
    let obj :=
      if (obj.isEmpty || isTrue (obj.lookup "enabled") = false || utls.fingerPrint.isEmpty) &&
          !s.utlsFingerprint.isEmpty then
        insert (insert obj "enabled" (.bool true)) "fingerprint" (.str s.utlsFingerprint)
      else obj
    if textOf (obj.lookup "fingerprint") = tlsUnsafeFingerprint then {} else { object := obj }

def isHexDigit (c : Char) : Bool :=
  ('0' ≤ c && c ≤ '9') || ('a' ≤ c && c ≤ 'f') || ('A' ≤ c && c ≤ 'F')

/-- At most eight bytes in hexadecimal. -/
def shortIdHex (text : Text) : Bool :=
  matchesToEnd (fun t => t.all isHexDigit && t.length % 2 == 0 && t.length ≤ 16) text

def Reality.Build (reality : Reality) : BuildResult :=
  if !reality.public_key.isEmpty || reality.enabled then
    let object : JsonObject := [("enabled", .bool true), ("public_key", .str reality.public_key)]
    if shortIdHex reality.short_id then { object := object ++ textMember "short_id" reality.short_id }
    else
      { object
        error := qt.translate "The REALITY short ID is invalid: it must be at most 16 hexadecimal characters, an even number of them." [] }
  else {}

namespace TLS

variable (s : Settings) (tls : TLS)

def FragmentEffectivelyOn : Bool :=
  if tls.fragment then true else if tls.fragment_unspecified then s.fragment_default_on else false

def SpoofEffectivelyOn : Bool :=
  if !tls.spoof_unspecified then tls.spoof_enabled
  else if !tls.spoof.isEmpty then true
  else s.tls_spoof_default_on

def TlsTricksEffectivelyOn : Bool :=
  if tls.tls_tricks then true
  else if tls.tls_tricks_unspecified then s.tls_tricks_default_on
  else false

end TLS

/-- Why a name cannot be spoofed. -/
def SpoofServerName (spoof serverName : Text) (disableSni : Bool) : Text :=
  let fake := trimSpace spoof
  if fake.isEmpty then []
  else if disableSni then
    qt.translate "TLS spoof needs an SNI. Turn off Disable SNI, or set TLS Spoof to Off." []
  else
    let name := trimSpace serverName
    let name :=
      if name.head? = some '[' && name.getLast? = some ']' then (name.drop 1).dropLast else name
    if name.isEmpty || (qt.Ip name).isEmpty then
      qt.translate "TLS spoof needs a domain name as the SNI. Enter one in SNI, or set TLS Spoof to Off." []
    else if qt.equalFolded fake name then
      qt.translate "The spoof SNI must differ from the real SNI." []
    else []

/-- The spoofed name and how it is sent. -/
def spoofMembers (s : Settings) (tls : TLS) : JsonObject :=
  let spoofPreset := trimSpace s.tls_spoof
  let presetRefused := tls.reality.enabled || !tls.reality.public_key.isEmpty || tls.disable_sni ||
    (!tls.server_name.isEmpty &&
      !(SpoofServerName qt spoofPreset (toAceHost qt tls.server_name) false).isEmpty)
  if tls.SpoofEffectivelyOn s && (!tls.spoof.isEmpty || !presetRefused) then
    let sni := if tls.spoof.isEmpty then spoofPreset else tls.spoof
    let method := if tls.spoof_method.isEmpty then trimSpace s.tls_spoof_method else tls.spoof_method
    textMember "spoof" sni ++ member (sni ≠ [] ∧ method ≠ []) "spoof_method" (.str method)
  else []

/-- REALITY needs uTLS. -/
def utlsMember (s : Settings) (tls : TLS) : JsonObject :=
  let obj := (tls.utls.Build s).object
  if !obj.isEmpty then [("utls", .obj obj)]
  else
    member (tls.reality.enabled = true) "utls"
      (.obj [("enabled", .bool true), ("fingerprint", .str ['r', 'a', 'n', 'd', 'o', 'm'])])

def TLS.Build (s : Settings) (tls : TLS) : BuildResult :=
  if !tls.enabled then {}
  else
    let fragment := tls.FragmentEffectivelyOn s && s.fragment_implementation ≠ "custom"
    let ech := (tls.ech.Build qt).object
    let realityResult := tls.reality.Build qt
    { object :=
        [("enabled", .bool tls.enabled)] ++
        flagMember "disable_sni" tls.disable_sni ++
        member (tls.server_name ≠ []) "server_name" (.str (toAceHost qt tls.server_name)) ++
        flagMember "insecure" (tls.insecure || s.skip_cert) ++
        listMember "alpn" tls.alpn ++
        textMember "min_version" tls.min_version ++
        textMember "max_version" tls.max_version ++
        listMember "cipher_suites" tls.cipher_suites ++
        listMember "curve_preferences" tls.curve_preferences ++
        listMember "certificate" tls.certificate ++
        textMember "certificate_path" tls.certificate_path ++
        listMember "certificate_sha256" tls.certificate_sha256 ++
        listMember "certificate_public_key_sha256" tls.certificate_public_key_sha256 ++
        listMember "client_certificate" tls.client_certificate ++
        textMember "client_certificate_path" tls.client_certificate_path ++
        listMember "client_key" tls.client_key ++
        textMember "client_key_path" tls.client_key_path ++
        flagMember "fragment" fragment ++
        member (fragment = true ∧ tls.fragment_fallback_delay ≠ []) "fragment_fallback_delay"
          (.str tls.fragment_fallback_delay) ++
        flagMember "record_fragment" tls.record_fragment ++
        spoofMembers qt s tls ++
        member (tls.TlsTricksEffectivelyOn s = true) "tls_tricks"
          (.obj [("mixedcase_sni", .bool true)]) ++
        member (ech ≠ []) "ech" (.obj ech) ++
        utlsMember s tls ++
        member (realityResult.object ≠ []) "reality" (.obj realityResult.object)
      error := realityResult.error }

/-! ## Transport -/

structure Transport where
  type : String := ""
  host : Text := []
  path : Text := []
  method : Text := []
  headers : List Text := []
  idle_timeout : Text := []
  ping_timeout : Text := []
  max_early_data : ℤ := 0
  early_data_header_name : Text := []
  service_name : Text := []

/-- The text before and after a separator. -/
def cutText (separator : Text) : Text → Option (Text × Text)
  | [] => none
  | c :: text =>
    if separator.isPrefixOf (c :: text) then some ([], (c :: text).drop separator.length)
    else (cutText separator text).map fun (left, right) => (c :: left, right)

def pairMembers : List Text → JsonObject
  | name :: value :: rest => (String.ofList name, .str value) :: pairMembers rest
  | _ => []

def qStringListToJsonObject (list : List Text) : JsonObject :=
  if list.length % 2 ≠ 0 then [] else merge [] (pairMembers list)

def earlyData : Text := ['?', 'e', 'd', '=']

/-- A path may carry the length of early data. -/
def pathMembers (transport : Transport) : JsonObject :=
  match cutText earlyData transport.path with
  | some (path, rest) =>
    let length := (cutText earlyData rest).elim rest Prod.fst
    [("path", .str path), ("max_early_data", .num (qt.toInt length)),
      ("early_data_header_name", .str "Sec-WebSocket-Protocol".toList)]
  | none =>
    textMember "path" transport.path ++ countMember "max_early_data" transport.max_early_data ++
      textMember "early_data_header_name" transport.early_data_header_name

def objectOf : Option Json → JsonObject
  | some (.obj members) => members
  | _ => []

def Transport.ExportToJson (transport : Transport) : JsonObject :=
  if transport.type = "" ∨ transport.type = "tcp" then []
  else
    let host := Json.str (toAceHost qt transport.host)
    let object := [("type", Json.str transport.type.toList)] ++ pathMembers qt transport ++
      textMember "method" transport.method ++
      member (transport.headers ≠ []) "headers" (.obj (qStringListToJsonObject transport.headers))
    let object := insertIf
      (transport.host ≠ [] ∧ (transport.type = "http" ∨ transport.type = "httpupgrade"))
      object "host" host
    let object := insertIf (transport.host ≠ [] ∧ transport.type = "ws") object "headers"
      (.obj (insert (objectOf (object.lookup "headers")) "Host" host))
    object ++ textMember "idle_timeout" transport.idle_timeout ++
      textMember "ping_timeout" transport.ping_timeout ++
      textMember "service_name" transport.service_name

/-- The keys that the core takes with a type. -/
def transportKeys : String → Option (List String)
  | "http" => some ["host", "path", "method", "headers", "idle_timeout", "ping_timeout"]
  | "ws" => some ["path", "headers", "max_early_data", "early_data_header_name"]
  | "quic" => some []
  | "grpc" => some ["service_name", "idle_timeout", "ping_timeout", "permit_without_stream"]
  | "httpupgrade" => some ["host", "path", "headers"]
  | _ => none

def Transport.Build (transport : Transport) : BuildResult :=
  let object := transport.ExportToJson qt
  let exported := textOf (object.lookup "host")
  let hosts := ((exported.splitOn ',').filter fun item => !item.isEmpty).map trimSpace
  let object := insertIf (transport.type = "http" ∧ ',' ∈ exported) object "host"
    (QListStr2QJsonArray hosts)
  { object :=
      match transportKeys transport.type with
      | some keys => object.filter fun m => m.1 = "type" ∨ m.1 ∈ keys
      | none => object }

/-- The quic transport does without uTLS. -/
def TlsForTransport (tls : JsonObject) (transportType : String) : JsonObject :=
  if transportType = "quic" ∧ !contains tls "reality" then remove tls "utls" else tls

/-! ## Multiplex -/

structure TcpBrutal where
  enabled : Bool := false
  up_mbps : ℤ := 0
  down_mbps : ℤ := 0

def TcpBrutal.ExportToJson (brutal : TcpBrutal) : JsonObject :=
  if !brutal.enabled then []
  else
    [("enabled", .bool brutal.enabled),
      ("up_mbps", .num (if brutal.up_mbps ≤ 0 then 1 else brutal.up_mbps)),
      ("down_mbps", .num (if brutal.down_mbps ≤ 0 then 1 else brutal.down_mbps))]

structure MuxSettings where
  protocol : Text
  by_connections : Bool
  max_streams : ℤ
  max_connections : ℤ
  min_streams : ℤ
  padding : Bool
  brutal : Bool
  brutal_up_mbps : ℤ
  brutal_down_mbps : ℤ

def MuxSettings.Preset (s : Settings) : MuxSettings where
  protocol := s.mux_protocol
  by_connections := s.mux_mode == "max_connections"
  max_streams := s.mux_concurrency
  max_connections := s.mux_max_connections
  min_streams := s.mux_min_streams
  padding := s.mux_padding
  brutal := s.mux_brutal
  brutal_up_mbps := s.mux_brutal_up_mbps
  brutal_down_mbps := s.mux_brutal_down_mbps

def MuxSettings.Build (m : MuxSettings) : JsonObject :=
  let brutal : TcpBrutal := ⟨true, m.brutal_up_mbps, m.brutal_down_mbps⟩
  [("enabled", .bool true)] ++ textMember "protocol" m.protocol ++
    (if m.by_connections then
      countMember "max_connections" m.max_connections ++ countMember "min_streams" m.min_streams
    else countMember "max_streams" m.max_streams) ++
    flagMember "padding" m.padding ++
    member (m.brutal = true) "brutal" (.obj brutal.ExportToJson)

structure Multiplex where
  enabled : Bool := false
  unspecified : Bool := true
  protocol : Text := []
  max_connections : ℤ := 0
  min_streams : ℤ := 0
  max_streams : ℤ := 0
  padding : Bool := false
  brutal : TcpBrutal := {}

namespace Multiplex

variable (s : Settings) (multiplex : Multiplex)

def HasOwnSettings : Bool :=
  !multiplex.protocol.isEmpty || multiplex.max_connections > 0 || multiplex.min_streams > 0 ||
    multiplex.max_streams > 0 || multiplex.padding || multiplex.brutal.enabled

def IsCustom : Bool := !multiplex.unspecified && multiplex.enabled && multiplex.HasOwnSettings

def EffectivelyOn : Bool := multiplex.enabled || (multiplex.unspecified && s.mux_default_on)

/-- Own settings win over those of the preset. -/
def CustomSettings : MuxSettings :=
  let settings := MuxSettings.Preset s
  if !multiplex.HasOwnSettings then settings
  else
    let settings :=
      if multiplex.protocol.isEmpty then settings
      else { settings with protocol := multiplex.protocol }
    let settings :=
      if multiplex.max_connections > 0 then
        { settings with
          by_connections := true
          max_connections := multiplex.max_connections
          min_streams := multiplex.min_streams }
      else if multiplex.max_streams > 0 then
        { settings with by_connections := false, max_streams := multiplex.max_streams }
      else settings
    let settings :=
      { settings with padding := multiplex.padding, brutal := multiplex.brutal.enabled }
    if multiplex.brutal.enabled then
      { settings with
        brutal_up_mbps := multiplex.brutal.up_mbps
        brutal_down_mbps := multiplex.brutal.down_mbps }
    else settings

def Build : BuildResult :=
  if !multiplex.EffectivelyOn s then {}
  else if multiplex.IsCustom then { object := (multiplex.CustomSettings s).Build }
  else { object := (MuxSettings.Preset s).Build }

end Multiplex

/-! ## Outbounds -/

structure DialFields where
  reuse_addr : Bool := false
  connect_timeout : Text := []
  tcp_fast_open : Bool := false
  tcp_multi_path : Bool := false
  udp_fragment : Bool := false
  bind_interface : Text := []
  inet4_bind_address : Text := []
  inet6_bind_address : Text := []

def DialFields.ExportToJson (dial : DialFields) : JsonObject :=
  flagMember "reuse_addr" dial.reuse_addr ++ textMember "connect_timeout" dial.connect_timeout ++
    flagMember "tcp_fast_open" dial.tcp_fast_open ++
    flagMember "tcp_multi_path" dial.tcp_multi_path ++
    flagMember "udp_fragment" dial.udp_fragment ++
    textMember "bind_interface" dial.bind_interface ++
    textMember "inet4_bind_address" dial.inet4_bind_address ++
    textMember "inet6_bind_address" dial.inet6_bind_address

/-- What the classes have that the others lack. -/
inductive Protocol where
  | vless (uuid flow packet_encoding : Text)
  | vmess (uuid : Text) (security : String) (alter_id : ℤ)
      (global_padding authenticated_length : Bool) (packet_encoding : Text)
  | trojan (password : Text)

structure Outbound where
  protocol : Protocol
  server : Text := []
  server_port : ℤ := 0
  dialFields : DialFields := {}
  tls : TLS := {}
  transport : Transport := {}
  multiplex : Multiplex := {}

def outboundFragmentSize (s : Settings) : Text :=
  if (trimSpace s.fragment_size).isEmpty then ['1', '0', '-', '1', '0', '0']
  else trimSpace s.fragment_size

def outboundFragmentSleep (s : Settings) : Text :=
  if (trimSpace s.fragment_sleep).isEmpty then ['2', '-', '5'] else trimSpace s.fragment_sleep

def kFragmentMaxChunk : ℤ := 1019

/-- The larger bound of a range. -/
def outboundFragmentMax (spec : Text) : ℤ :=
  let t := trimSpace spec
  (qt.ToInt ((cut '-' t).elim t Prod.snd)).getD 0

def TlsFragmentSize (spec : Text) : Text :=
  let message := qt.IntOrRange spec 0 kFragmentMaxChunk
  if !message.isEmpty then message
  else if !(trimSpace spec).isEmpty && outboundFragmentMax qt spec = 0 then
    qt.translate "The largest fragment must be at least 1 byte, for example 10-100." []
  else []

def TlsFragmentSleep (spec : Text) : Text := qt.IntOrRange spec 0 (2 ^ 63 - 1)

def FragmentSettingsError (s : Settings) : Text :=
  if s.fragment_implementation ≠ "custom" then []
  else
    let size := outboundFragmentSize s
    let sleep := outboundFragmentSleep s
    if !(TlsFragmentSize qt size).isEmpty then
      qt.translate "The TLS fragment size \"%1\" in Preset Settings > TLS is invalid. %2"
        [size, TlsFragmentSize qt size]
    else if !(TlsFragmentSleep qt sleep).isEmpty then
      qt.translate "The TLS fragment sleep \"%1\" in Preset Settings > TLS is invalid. %2"
        [sleep, TlsFragmentSleep qt sleep]
    else []

def outboundDialsTcp (o : Outbound) : Bool := o.transport.type ≠ "quic"

def CustomFragmentApplies (s : Settings) (o : Outbound) : Bool :=
  s.fragment_implementation = "custom" && o.tls.enabled && o.tls.FragmentEffectivelyOn s &&
    outboundDialsTcp o

/-- What all outbounds build. -/
def buildBase (s : Settings) (o : Outbound) : BuildResult :=
  let object := textMember "server" o.server ++ countMember "server_port" o.server_port
  let object := merge object o.dialFields.ExportToJson
  if CustomFragmentApplies s o then
    let error := FragmentSettingsError qt s
    if !error.isEmpty then { object, error }
    else
      { object := insert (remove object "tcp_fast_open") "tls_fragment"
          (.obj [("enabled", .bool true), ("size", .str (outboundFragmentSize s)),
            ("sleep", .str (outboundFragmentSleep s))]) }
  else { object }

/-- The parts with TLS, the transport and the multiplexer. -/
def buildParts (s : Settings) (o : Outbound) (object : JsonObject) : BuildResult :=
  let tlsResult := o.tls.Build qt s
  if !tlsResult.error.isEmpty then { error := tlsResult.error }
  else
    let object := insertIf (tlsResult.object ≠ []) object "tls"
      (.obj (TlsForTransport tlsResult.object o.transport.type))
    let transportResult := o.transport.Build qt
    if !transportResult.error.isEmpty then { error := transportResult.error }
    else
      let object := insertIf (transportResult.object ≠ []) object "transport"
        (.obj transportResult.object)
      let muxResult := o.multiplex.Build s
      if !muxResult.error.isEmpty then { error := muxResult.error }
      else { object := insertIf (muxResult.object ≠ []) object "multiplex" (.obj muxResult.object) }

/-- The type and the credentials of an outbound, put around what all build. -/
def buildProtocol (protocol : Protocol) (base : JsonObject) : JsonObject :=
  match protocol with
  | .vless uuid flow packet_encoding =>
    let object := merge [("type", .str "vless".toList)] base
    let object := insertIf (uuid ≠ []) object "uuid" (.str uuid)
    let object := insertIf (flow ≠ []) object "flow" (.str flow)
    insert object "packet_encoding" (.str packet_encoding)
  | .vmess uuid security alter_id global_padding authenticated_length packet_encoding =>
    let object := merge [("type", .str "vmess".toList)] base
    let object := insertIf (uuid ≠ []) object "uuid" (.str uuid)
    let object := insertIf (security ≠ "auto") object "security" (.str security.toList)
    let object := insertIf (alter_id > 0) object "alter_id" (.num alter_id)
    let object := insertIf (global_padding = true) object "global_padding" (.bool true)
    let object := insertIf (authenticated_length = true) object "authenticated_length" (.bool true)
    insert object "packet_encoding" (.str packet_encoding)
  | .trojan password =>
    let object := merge [("type", .str "trojan".toList)] base
    insertIf (password ≠ []) object "password" (.str password)

def Outbound.Build (s : Settings) (o : Outbound) : BuildResult :=
  let base := buildBase qt s o
  if !base.error.isEmpty then { error := base.error }
  else buildParts qt s o (buildProtocol o.protocol base.object)

/-! ## Security -/

inductive SecurityLevel where
  | Unknown
  | None
  | Weak
  | Secure
  deriving DecidableEq, Repr

structure SecurityInfo where
  label : Text := []
  transport : Text := []
  level : SecurityLevel := .Unknown
  caVerified : Bool := false
  compromised : Bool := false
  publicLeg : Bool := false

def SecurityInfo.isDangerous (info : SecurityInfo) : Bool :=
  info.level = .None || info.level = .Weak

def DisplayTransportName (type : String) : Text :=
  if type = "" ∨ type = "tcp" ∨ type = "raw" then []
  else if type = "ws" then "WebSocket".toList
  else if type = "grpc" then "gRPC".toList
  else if type = "http" then "HTTP".toList
  else if type = "httpupgrade" then "HTTPUpgrade".toList
  else if type = "xhttp" then "XHTTP".toList
  else if type = "quic" then "QUIC".toList
  else qt.toUpper type.toList

/-- The networks that never cross the internet. -/
def privateRanges : List String :=
  ["0.0.0.0/8", "10.0.0.0/8", "100.64.0.0/10", "127.0.0.0/8", "169.254.0.0/16", "172.16.0.0/12",
    "192.0.0.0/24", "192.0.2.0/24", "192.88.99.0/24", "192.168.0.0/16", "198.18.0.0/15",
    "198.51.100.0/24", "203.0.113.0/24", "224.0.0.0/3", "::/127", "fc00::/7", "fe80::/10",
    "ff00::/8"]

def privateSuffixes : List String :=
  ["lan", "localdomain", "example", "invalid", "localhost", "test", "local", "home.arpa",
    "internal"]

def isLowerLetter (c : Char) : Bool := 'a' ≤ c && c ≤ 'z'

def isNameCharacter (c : Char) : Bool := isLowerLetter c || ('0' ≤ c && c ≤ '9') || c = '-'

/-- A name of one label. -/
def dotless (text : Text) : Bool :=
  text.all isNameCharacter && text.length ≤ 63 && text.head?.any isLowerLetter &&
    text.getLast?.any fun c => c ≠ '-'

def IsPrivateHost (host : Text) : Bool :=
  let bare := (qt.toLower (trimSpace host)).filter fun c => c ≠ '[' ∧ c ≠ ']'
  let bare := if bare.getLast? = some '.' then bare.dropLast else bare
  if bare.isEmpty then false
  else
    match qt.setAddress bare with
    | some ip =>
      let ip := (qt.toIPv4Address ip).getD ip
      privateRanges.any (qt.isInSubnet ip)
    | none =>
      privateSuffixes.any (fun suffix =>
        bare = suffix.toList || ('.' :: suffix.toList).isSuffixOf bare) ||
        matchesToEnd dotless bare

def SecurityFromTLS (o : Outbound) (transport : Text) : SecurityInfo :=
  if o.tls.enabled then
    if o.tls.reality.enabled then
      { transport, label := qt.translate "Reality" [], level := .Secure }
    else if !o.tls.certificate_sha256.isEmpty || !o.tls.certificate_public_key_sha256.isEmpty then
      { transport, label := qt.translate "TLS" [], level := .Secure }
    else if o.tls.insecure then
      { transport, label := qt.translate "Insecure TLS" [], level := .Weak }
    else { transport, label := qt.translate "TLS" [], level := .Secure, caVerified := true }
  else { transport, label := qt.translate "Raw" [], level := .None }

/-- VMess without TLS still encrypts. -/
def GetSecurity (o : Outbound) : SecurityInfo :=
  let info := SecurityFromTLS qt o (DisplayTransportName qt o.transport.type)
  match o.protocol with
  | .vmess _ security _ _ _ _ =>
    if info.level = .None ∧ security ≠ "none" ∧ security ≠ "zero" then
      { info with label := qt.translate "Insecure" [], level := .Weak }
    else info
  | _ => info

def WithPrivateServer (info : SecurityInfo) (host : Text) : SecurityInfo :=
  if info.isDangerous && !info.publicLeg && IsPrivateHost qt host then
    { info with label := qt.translate "Private" [], level := .Secure, compromised := false }
  else info

def EffectiveSecurity (s : Settings) (o : Outbound) : SecurityInfo :=
  let info := GetSecurity qt o
  let info :=
    if info.caVerified && s.skip_cert then
      { info with label := qt.translate "Compromised" [], level := .Weak, compromised := true }
    else info
  if !info.isDangerous then info else WithPrivateServer qt info o.server

end Host

end Throned.Configs.SingBox
