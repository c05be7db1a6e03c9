import Throned.Library.Integers
import Throned.Library.Json
import Throned.Model.Otp

/-!
# Exports of one-time codes

The otpauth link, the JSON file and the migration link of OTP entries, and how each is read again
(src/global/OTP.cpp:29-265, 267-352 and 402-621).

Qt's URLs, JSON texts, Base64 and UTF-8 are parameters.  A `QByteArray` is read from its front, so
that no position is kept.
-/

set_option autoImplicit false

namespace Throned.OTP

open Throned.Library

structure NamedEntry extends Entry where
  name : Text := []
  issuer : Text := []
  deriving DecidableEq, Repr

def DEFAULT_DIGITS : ℤ := 6

def DEFAULT_PERIOD : ℤ := 30

/-- `Entry()`. -/
def NamedEntry.initial : NamedEntry :=
  { secret := []
    algorithm := .SHA1
    type := .TOTP
    digits := DEFAULT_DIGITS
    period := DEFAULT_PERIOD
    counter := 0 }

/-- A `QUrl` with the decoded items of its query. -/
structure Url where
  scheme : Text
  host : Text
  path : Text := []
  query : List (String × Text)
  deriving DecidableEq, Repr

namespace Url

def hasQueryItem (url : Url) (key : String) : Bool := (url.query.lookup key).isSome

def queryItemValue (url : Url) (key : String) : Text := (url.query.lookup key).getD []

end Url

/-- What is used of Qt and of the machine. -/
structure Qt where
  toUpper : Text → Text
  toUpper_ascii : ∀ text : Text, (∀ c ∈ text, c.toNat < 128) → toUpper text = text.map Char.toUpper
  toLower : Text → Text
  toLower_ascii : ∀ text : Text, (∀ c ∈ text, c.toNat < 128) → toLower text = text.map Char.toLower
  toUtf8 : Text → List UInt8
  fromUtf8 : List UInt8 → Text
  toBase64 : List UInt8 → Text
  fromBase64 : Text → List UInt8
  urlString : Url → Text
  /-- None where the URL is not valid. -/
  parseUrl : Text → Option Url
  toJson : Json → List UInt8
  fromJson : List UInt8 → Option Json
  compactJson : List Json → Text
  numberText : ℚ → Text
  /-- What a double beyond the range of `qint64` is cast to. -/
  farInteger : ℤ

/-! ## Secrets -/

def BASE32_ALPHABET : Text :=
  ['A', 'B', 'C', 'D', 'E', 'F', 'G', 'H', 'I', 'J', 'K', 'L', 'M', 'N', 'O', 'P', 'Q', 'R', 'S',
    'T', 'U', 'V', 'W', 'X', 'Y', 'Z', '2', '3', '4', '5', '6', '7']

def base32Char (value : UInt32) : Char := BASE32_ALPHABET.getD (value &&& 0x1f).toNat 'A'

/-- The inner loop of `Base32Encode`, with the bits it leaves. -/
def base32Emit (buffer : UInt32) : ℕ → Text × ℕ
  | bitsLeft + 5 =>
    let (out, left) := base32Emit buffer bitsLeft
    (base32Char (buffer >>> .ofNat bitsLeft) :: out, left)
  | bitsLeft => ([], bitsLeft)

def base32EncodeLoop (buffer : UInt32) (bitsLeft : ℕ) : List UInt8 → Text
  | [] => if 0 < bitsLeft then [base32Char (buffer <<< .ofNat (5 - bitsLeft))] else []
  | c :: input =>
    let buffer := (buffer <<< 8) ||| c.toUInt32
    let (out, bitsLeft) := base32Emit buffer (bitsLeft + 8)
    out ++ base32EncodeLoop buffer bitsLeft input

def Base32Encode (input : List UInt8) : Text := base32EncodeLoop 0 0 input

def NormalizeSecret (secret : Text) : Text :=
  match Base32Decode secret with
  | none => []
  | some [] => []
  | some decoded => Base32Encode decoded

/-! ## Problems -/

def otpEntryLabel (entry : NamedEntry) : Text :=
  if entry.name ≠ [] then entry.name
  else if entry.issuer ≠ [] then entry.issuer
  else "Unnamed entry".toList

def otpBadAlgorithm (entry : NamedEntry) (value : Text) : Text :=
  otpEntryLabel entry ++ ": algorithm \"".toList ++ value ++
    "\" is not supported (only SHA1, SHA256 and SHA512), so its codes would be wrong.".toList

def otpBadDigits (entry : NamedEntry) (value : Text) : Text :=
  otpEntryLabel entry ++ ": ".toList ++ value ++ " digits are not supported (use ".toList ++
    integer MIN_DIGITS ++ " to ".toList ++ integer MAX_DIGITS ++ ").".toList

def otpBadPeriod (entry : NamedEntry) (value : Text) : Text :=
  otpEntryLabel entry ++ ": a period of \"".toList ++ value ++
    "\" seconds is not supported (use ".toList ++ integer MIN_PERIOD ++ " to ".toList ++
    integer MAX_PERIOD ++ ").".toList

def otpBadCounter (entry : NamedEntry) (value : Text) : Text :=
  otpEntryLabel entry ++ ": the counter \"".toList ++ value ++
    "\" is not a whole number of 0 or more.".toList

def otpBadType (entry : NamedEntry) (value : Text) : Text :=
  otpEntryLabel entry ++ ": type \"".toList ++ value ++
    "\" is not supported (only totp and hotp).".toList

def otpNoSecret (entry : NamedEntry) : Text :=
  otpEntryLabel entry ++ ": there is no secret.".toList

def otpBadSecret (entry : NamedEntry) : Text :=
  otpEntryLabel entry ++
    ": the secret is not valid base32 (letters A-Z and digits 2-7).".toList

/-! ## Fields -/

def AlgorithmToString : Algorithm → Text
  | .SHA256 => ['S', 'H', 'A', '2', '5', '6']
  | .SHA512 => ['S', 'H', 'A', '5', '1', '2']
  | .SHA1 => ['S', 'H', 'A', '1']

/-- None where it is not `ok`. -/
def AlgorithmFromString (qt : Qt) (name : Text) : Option Algorithm :=
  let normalized := (qt.toUpper (trimSpace name)).filter (· ≠ '-')
  if normalized = AlgorithmToString .SHA256 then some .SHA256
  else if normalized = AlgorithmToString .SHA512 then some .SHA512
  else if normalized = AlgorithmToString .SHA1 ∨ normalized = [] then some .SHA1
  else none

def TypeToString : CodeType → Text
  | .HOTP => ['h', 'o', 't', 'p']
  | .TOTP => ['t', 'o', 't', 'p']

def TypeFromString (qt : Qt) (name : Text) : Option CodeType :=
  let normalized := qt.toLower (trimSpace name)
  if normalized = TypeToString .HOTP then some .HOTP
  else if normalized = TypeToString .TOTP ∨ normalized = [] then some .TOTP
  else none

def readSecret (secret : Text) (entry : NamedEntry) : Except Text NamedEntry :=
  if trimSpace secret = [] then .error (otpNoSecret entry)
  else
    let normalized := NormalizeSecret secret
    if normalized = [] then .error (otpBadSecret entry) else .ok { entry with secret := normalized }

def readAlgorithm (qt : Qt) (name : Text) (entry : NamedEntry) : Except Text NamedEntry :=
  match AlgorithmFromString qt name with
  | some algorithm => .ok { entry with algorithm := algorithm }
  | none => .error (otpBadAlgorithm entry name)

def readType (qt : Qt) (name : Text) (entry : NamedEntry) : Except Text NamedEntry :=
  match TypeFromString qt name with
  | some type => .ok { entry with type := type }
  | none => .error (otpBadType entry name)

/-- A number that was read, or that was shown because it could not be. -/
def readDigits (digits : Option ℤ) (shown : Text) (entry : NamedEntry) : Except Text NamedEntry :=
  match digits.filter fun n => MIN_DIGITS ≤ n ∧ n ≤ MAX_DIGITS with
  | some digits => .ok { entry with digits := digits }
  | none => .error (otpBadDigits entry shown)

def readPeriod (period : Option ℤ) (shown : Text) (entry : NamedEntry) : Except Text NamedEntry :=
  match period.filter fun n => MIN_PERIOD ≤ n ∧ n ≤ MAX_PERIOD with
  | some period => .ok { entry with period := period }
  | none => .error (otpBadPeriod entry shown)

def readCounter (counter : Option ℤ) (shown : Text) (entry : NamedEntry) : Except Text NamedEntry :=
  match counter.filter fun n => 0 ≤ n with
  | some counter => .ok { entry with counter := counter }
  | none => .error (otpBadCounter entry shown)

/-- A field that is read where it is there. -/
def readIf (c : Bool) (read : NamedEntry → Except Text NamedEntry) (entry : NamedEntry) :
    Except Text NamedEntry :=
  if c then read entry else .ok entry

/-! ## Links -/

def otpauth : Text := ['o', 't', 'p', 'a', 'u', 't', 'h']

/-- The URL that `ExportToLink` writes. -/
def linkUrl (entry : NamedEntry) : Url :=
  { scheme := otpauth
    host := TypeToString entry.type
    path := '/' :: if entry.issuer = [] then entry.name else entry.issuer ++ ':' :: entry.name
    query :=
      [("secret", entry.secret)] ++
        (if entry.issuer = [] then [] else [("issuer", entry.issuer)]) ++
        [("algorithm", AlgorithmToString entry.algorithm), ("digits", integer entry.digits)] ++
        (match entry.type with
          | .HOTP => [("counter", integer entry.counter)]
          | .TOTP => [("period", integer entry.period)]) }

def ExportToLink (qt : Qt) (entry : NamedEntry) : Text := qt.urlString (linkUrl entry)

/-- The issuer and the name that a label holds. -/
def readLabel (path : Text) : NamedEntry :=
  let label := if path.head? = some '/' then path.tail else path
  match cut ':' label with
  | some (issuer, name) =>
    { NamedEntry.initial with issuer := trimSpace issuer, name := trimSpace name }
  | none => { NamedEntry.initial with name := trimSpace label }

/-- The parameter of the other type is ignored. -/
def readParameters (qt : Qt) (url : Url) (entry : NamedEntry) : Except Text NamedEntry := do
  let entry ← readType qt url.host entry
  let entry ← readSecret (url.queryItemValue "secret") entry
  let entry ← readIf (url.hasQueryItem "algorithm")
    (readAlgorithm qt (url.queryItemValue "algorithm")) entry
  let digits := trimSpace (url.queryItemValue "digits")
  let entry ← readIf (url.hasQueryItem "digits")
    (readDigits (parseSigned 32 digits) digits) entry
  let period := trimSpace (url.queryItemValue "period")
  let entry ← readIf (decide (entry.type = .TOTP) && url.hasQueryItem "period")
    (readPeriod (parseSigned 32 period) period) entry
  let counter := trimSpace (url.queryItemValue "counter")
  readIf (decide (entry.type = .HOTP) && url.hasQueryItem "counter")
    (readCounter (parseSigned 64 counter) counter) entry

/-- No problem is told of a text that is no otpauth link. -/
def ParseFromLink (qt : Qt) (link : Text) : Except (Option Text) NamedEntry :=
  match qt.parseUrl (trimSpace link) with
  | none => .error none
  | some url =>
    if qt.toLower url.scheme ≠ otpauth then .error none
    else
      let entry := readLabel url.path
      let issuer := trimSpace (url.queryItemValue "issuer")
      let entry := if issuer ≠ [] then { entry with issuer := issuer } else entry
      let entry := if entry.name = [] then { entry with name := entry.issuer } else entry
      match readParameters qt url entry with
      | .ok entry => .ok entry
      | .error problem => .error (some problem)

/-! ## JSON -/

def toQint64 (qt : Qt) (x : ℤ) : ℤ := if -2 ^ 63 ≤ x ∧ x < 2 ^ 63 then x else qt.farInteger

/-- The integer of a double, if it is one. -/
def integerOfDouble (qt : Qt) (number : ℚ) : Option ℤ :=
  let cast := toQint64 qt (number.num.tdiv number.den)
  if number ≠ toDouble cast then none else some cast

/-- A number or a numeric string. -/
def otpJsonInteger (qt : Qt) : Json → Option ℤ
  | .str t => parseSigned 64 (trimSpace t)
  | .num n => integerOfDouble qt (toDouble n)
  | .double x => integerOfDouble qt x
  | _ => none

def otpJsonText (qt : Qt) : Json → Text
  | .str t => t
  | .num n => qt.numberText (toDouble n)
  | .double x => qt.numberText x
  | value => ((qt.compactJson [value]).drop 1).dropLast.take 40

/-- `toString` of a member. -/
def memberText (object : JsonObject) (key : String) : Text :=
  match object.lookup key with
  | some (.str t) => t
  | _ => []

def memberNumber (qt : Qt) (object : JsonObject) (key : String) : Option ℤ :=
  (object.lookup key).bind (otpJsonInteger qt)

def memberShown (qt : Qt) (object : JsonObject) (key : String) : Text :=
  (object.lookup key).elim [] (otpJsonText qt)

def entryFromJsonObject (qt : Qt) (object : JsonObject) : Except Text NamedEntry := do
  let entry : NamedEntry :=
    { NamedEntry.initial with
      name := memberText object "name"
      issuer := memberText object "issuer" }
  let entry ← readSecret (memberText object "secret") entry
  let entry ← readAlgorithm qt (memberText object "algorithm") entry
  let entry ← readType qt (memberText object "type") entry
  let entry ← readIf (object.lookup "digits").isSome
    (readDigits (memberNumber qt object "digits") (memberShown qt object "digits")) entry
  let entry ← readIf (decide (entry.type = .TOTP) && (object.lookup "period").isSome)
    (readPeriod (memberNumber qt object "period") (memberShown qt object "period")) entry
  readIf (decide (entry.type = .HOTP) && (object.lookup "counter").isSome)
    (readCounter (memberNumber qt object "counter") (memberShown qt object "counter")) entry

def entryToJsonObject (entry : NamedEntry) : JsonObject :=
  [("name", .str entry.name)] ++
    JsonObject.member (entry.issuer ≠ []) "issuer" (.str entry.issuer) ++
    [("secret", .str entry.secret), ("algorithm", .str (AlgorithmToString entry.algorithm)),
      ("type", .str (TypeToString entry.type)), ("digits", .num entry.digits)] ++
    (match entry.type with
      | .TOTP => [("period", .num entry.period)]
      | .HOTP => [("counter", .num entry.counter)])

/-- The document that `ExportToJson` writes. -/
def exportDocument (entries : List NamedEntry) : Json :=
  .obj [("version", .num 1), ("otp", .arr (entries.map fun entry => .obj (entryToJsonObject entry)))]

def ExportToJson (qt : Qt) (entries : List NamedEntry) : List UInt8 :=
  qt.toJson (exportDocument entries)

/-- An item of the array, or its problem. -/
def readItem (qt : Qt) : Json → Except Text NamedEntry
  | .obj object => entryFromJsonObject qt object
  | _ => .error "Skipped an item that is not an OTP entry.".toList

def otpArray : Json → List Json
  | .arr items => items
  | .obj object =>
    match object.lookup "otp" with
    | some (.arr items) => items
    | _ => []
  | _ => []

def entriesOf (read : List (Except Text NamedEntry)) : List NamedEntry :=
  read.filterMap fun item =>
    match item with
    | .ok entry => some entry
    | .error _ => none

def problemsOf (read : List (Except Text NamedEntry)) : List Text :=
  read.filterMap fun item =>
    match item with
    | .ok _ => none
    | .error problem => some problem

/-- The entries, none where it returns false, and the problems. -/
def ParseFromJson (qt : Qt) (json : List UInt8) : Option (List NamedEntry) × List Text :=
  match qt.fromJson json with
  | none => (none, [])
  | some document =>
    let read := (otpArray document).map (readItem qt)
    (if entriesOf read = [] then none else some (entriesOf read), problemsOf read)

/-! ## The migration payload -/

/-- A `quint64` has ten groups at most. -/
def writeGroups : ℕ → ℕ → List UInt8
  | 0, _ => []
  | count + 1, value =>
    if value / 2 ^ 7 = 0 then [.ofNat (value % 2 ^ 7)]
    else .ofNat (value % 2 ^ 7 ||| 0x80) :: writeGroups count (value / 2 ^ 7)

def pbWriteVarint (value : ℕ) : List UInt8 := writeGroups 10 value

def pbWriteTag (field wireType : ℕ) : List UInt8 := pbWriteVarint (field <<< 3 ||| wireType)

def pbWriteBytes (field : ℕ) (value : List UInt8) : List UInt8 :=
  pbWriteTag field 2 ++ pbWriteVarint value.length ++ value

def pbWriteUint (field value : ℕ) : List UInt8 := pbWriteTag field 0 ++ pbWriteVarint value

/-- The loop of `pbReadVarint` behind `shift` and `value`, with what is left of the bytes. -/
def readGroups (shift value : ℕ) : List UInt8 → Option (ℕ × List UInt8)
  | [] => none
  | byte :: input =>
    let value := value ||| (((byte &&& 0x7f).toNat <<< shift) % 2 ^ 64)
    if byte &&& 0x80 = 0 then some (value, input)
    else if shift + 7 > 63 then none
    else readGroups (shift + 7) value input

def pbReadVarint (input : List UInt8) : Option (ℕ × List UInt8) := readGroups 0 0 input

structure PbField where
  field : ℤ
  wireType : ℕ
  varint : ℕ := 0
  bytes : List UInt8 := []
  deriving DecidableEq, Repr

def pbReadField (input : List UInt8) : Option (PbField × List UInt8) := do
  let (tag, input) ← pbReadVarint input
  let field : ℤ := Int.bmod (tag >>> 3) (2 ^ 32)
  match tag &&& 0x07 with
  | 0 =>
    let (varint, input) ← pbReadVarint input
    some ({ field, wireType := 0, varint }, input)
  | 1 => if 8 ≤ input.length then some ({ field, wireType := 1 }, input.drop 8) else none
  | 2 =>
    let (len, input) ← pbReadVarint input
    if len > input.length then none
    else some ({ field, wireType := 2, bytes := input.take len }, input.drop len)
  | 5 => if 4 ≤ input.length then some ({ field, wireType := 5 }, input.drop 4) else none
  | _ => none

/-- The fields of a message, none where one is not read; a field has one byte at least. -/
def pbFields : ℕ → List UInt8 → Option (List PbField)
  | _, [] => some []
  | 0, _ :: _ => none
  | count + 1, input => do
    let (field, input) ← pbReadField input
    let fields ← pbFields count input
    some (field :: fields)

def migrationAlgorithm : ℕ → Option Algorithm
  | 0 => some .SHA1
  | 1 => some .SHA1
  | 2 => some .SHA256
  | 3 => some .SHA512
  | _ => none

def migrationAlgorithmValue : Algorithm → ℕ
  | .SHA256 => 2
  | .SHA512 => 3
  | .SHA1 => 1

/-- The parameters of an entry with a key. -/
def migrationParameters (qt : Qt) (key : List UInt8) (entry : NamedEntry) : List UInt8 :=
  pbWriteBytes 1 key ++ pbWriteBytes 2 (qt.toUtf8 entry.name) ++
    (if entry.issuer = [] then [] else pbWriteBytes 3 (qt.toUtf8 entry.issuer)) ++
    pbWriteUint 4 (migrationAlgorithmValue entry.algorithm) ++
    pbWriteUint 5 (if entry.digits = 8 then 2 else 1) ++
    (match entry.type with
      | .HOTP => pbWriteUint 6 1 ++ pbWriteUint 7 (entry.counter % 2 ^ 64).toNat
      | .TOTP => pbWriteUint 6 2)

def migrationEntry (qt : Qt) (entry : NamedEntry) : List UInt8 :=
  match Base32Decode entry.secret with
  | none => []
  | some [] => []
  | some key => pbWriteBytes 1 (migrationParameters qt key entry)

/-- The version, the size of the batch and its index. -/
def migrationTrailer : List UInt8 := pbWriteUint 2 1 ++ pbWriteUint 3 1 ++ pbWriteUint 4 0

def migrationPayload (qt : Qt) (entries : List NamedEntry) : List UInt8 :=
  entries.flatMap (migrationEntry qt) ++ migrationTrailer

def otpauthMigration : Text :=
  otpauth ++ ['-', 'm', 'i', 'g', 'r', 'a', 't', 'i', 'o', 'n']

def migrationUrl (qt : Qt) (entries : List NamedEntry) : Url :=
  { scheme := otpauthMigration
    host := ['o', 'f', 'f', 'l', 'i', 'n', 'e']
    query := [("data", qt.toBase64 (migrationPayload qt entries))] }

/-- Empty where no entry has a key. -/
def ExportToMigrationLink (qt : Qt) (entries : List NamedEntry) : Text :=
  if entries.flatMap (migrationEntry qt) = [] then [] else qt.urlString (migrationUrl qt entries)

structure MigrationItem where
  entry : NamedEntry := NamedEntry.initial
  haveSecret : Bool := false
  badAlgorithm : Option ℕ := none
  badDigits : Option ℕ := none
  badType : Option ℕ := none
  deriving DecidableEq, Repr

/-- One field of an entry, whatever its wire type. -/
def readMigrationField (qt : Qt) (item : MigrationItem) (f : PbField) : MigrationItem :=
  if f.field = 1 then
    { item with
      entry := { item.entry with secret := Base32Encode f.bytes }
      haveSecret := decide (f.bytes ≠ []) }
  else if f.field = 2 then { item with entry := { item.entry with name := qt.fromUtf8 f.bytes } }
  else if f.field = 3 then { item with entry := { item.entry with issuer := qt.fromUtf8 f.bytes } }
  else if f.field = 4 then
    match migrationAlgorithm f.varint with
    | some algorithm => { item with entry := { item.entry with algorithm := algorithm } }
    | none => { item with badAlgorithm := some f.varint }
  else if f.field = 5 then
    if f.varint ≤ 2 then
      { item with
        entry := { item.entry with digits := if f.varint = 2 then 8 else DEFAULT_DIGITS } }
    else { item with badDigits := some f.varint }
  else if f.field = 6 then
    if f.varint ≤ 2 then
      { item with entry := { item.entry with type := if f.varint = 1 then .HOTP else .TOTP } }
    else { item with badType := some f.varint }
  else if f.field = 7 then
    { item with entry := { item.entry with counter := Int.bmod f.varint (2 ^ 64) } }
  else item

def readMigrationItem (qt : Qt) (bytes : List UInt8) : Option MigrationItem :=
  (pbFields bytes.length bytes).map fun fields => fields.foldl (readMigrationField qt) {}

/-- The entry, or why it is skipped. -/
def MigrationItem.result (item : MigrationItem) : Except Text NamedEntry :=
  let entry :=
    if item.entry.name = [] then { item.entry with name := item.entry.issuer } else item.entry
  if item.haveSecret = false then .error (otpNoSecret entry)
  else
    match item.badAlgorithm, item.badDigits, item.badType with
    | some v, _, _ =>
      .error (otpBadAlgorithm entry (if v = 4 then ['M', 'D', '5'] else decimal v))
    | none, some v, _ =>
      .error (otpEntryLabel entry ++ ": the digit count code ".toList ++ decimal v ++
        " is not supported.".toList)
    | none, none, some v => .error (otpBadType entry (decimal v))
    | none, none, none => .ok entry

/-- The items of a payload, none where it is not readable. -/
def readPayload (qt : Qt) (payload : List UInt8) : Option (List (Except Text NamedEntry)) := do
  let fields ← pbFields payload.length payload
  let items ← (fields.filter fun f => f.field = 1 ∧ f.wireType = 2).mapM fun f =>
    readMigrationItem qt f.bytes
  some (items.map MigrationItem.result)

/-- The entries, none where it returns false, and the problems. -/
def ParseFromMigrationLink (qt : Qt) (link : Text) : Option (List NamedEntry) × List Text :=
  match qt.parseUrl (trimSpace link) with
  | none => (none, [])
  | some url =>
    let payload := qt.fromBase64 (url.queryItemValue "data")
    if qt.toLower url.scheme ≠ otpauthMigration ∨ url.queryItemValue "data" = [] ∨ payload = [] then
      (none, [])
    else
      match readPayload qt payload with
      | none => (none, [])
      | some read => (if entriesOf read = [] then none else some (entriesOf read), problemsOf read)

end Throned.OTP
