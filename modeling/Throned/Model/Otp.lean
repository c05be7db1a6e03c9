import Mathlib.Data.List.AList
import Throned.Library.Text

/-!
# One-time codes

The codes of an OTP entry (src/global/OTP.cpp:277-329), the table of the OTP profiles with the
entries that are in memory (src/database/OtpProfilesRepo.cpp:93-227), and the codes that one
generated config resolves and commits (src/global/OtpPlaceholder.cpp:6-42).

The keyed hash of Qt is a parameter.  An entry keeps the fields that codes and commits read.
-/

set_option autoImplicit false

namespace Throned.OTP

open Throned.Library

inductive Algorithm where
  | SHA1
  | SHA256
  | SHA512
  deriving DecidableEq, Repr

inductive CodeType where
  | TOTP
  | HOTP
  deriving DecidableEq, Repr

structure Entry where
  secret : Text
  algorithm : Algorithm
  type : CodeType
  digits : ℤ
  period : ℤ
  counter : ℤ
  deriving DecidableEq, Repr

def MIN_DIGITS : ℤ := 4

def MAX_DIGITS : ℤ := 10

def MIN_PERIOD : ℤ := 1

def MAX_PERIOD : ℤ := 3600

/-! ## Codes -/

/-- `QMessageAuthenticationCode::hash` of a message under a key. -/
abbrev Mac := Algorithm → List UInt8 → List UInt8 → List UInt8

def isBase32Space (c : Char) : Bool :=
  c = ' ' || c = '-' || c = '_' || c = '\t' || c = '\r' || c = '\n' || c = '='

def base32Value (c : Char) : Option UInt32 :=
  if 'A' ≤ c ∧ c ≤ 'Z' then some (c.val - 'A'.val)
  else if 'a' ≤ c ∧ c ≤ 'z' then some (c.val - 'a'.val)
  else if '2' ≤ c ∧ c ≤ '7' then some (c.val - '2'.val + 26)
  else none

/-- The loop of `Base32Decode` behind `buffer`, `bitsLeft` and `out`. -/
def base32Loop (buffer : UInt32) (bitsLeft : ℕ) (out : List UInt8) : Text → Option (List UInt8)
  | [] => some out
  | c :: input =>
    if isBase32Space c then base32Loop buffer bitsLeft out input
    else
      match base32Value c with
      | none => none
      | some value =>
        let buffer := (buffer <<< 5) ||| value
        let bitsLeft := bitsLeft + 5
        if 8 ≤ bitsLeft then
          base32Loop buffer (bitsLeft - 8)
            (out ++ [(buffer >>> UInt32.ofNat (bitsLeft - 8)).toUInt8]) input
        else base32Loop buffer bitsLeft out input

def Base32Decode (input : Text) : Option (List UInt8) := base32Loop 0 0 [] input

/-- The reason why an entry is not usable. -/
def Validate (entry : Entry) : Option String :=
  if trimSpace entry.secret = [] then some "Secret is empty"
  else
    match Base32Decode entry.secret with
    | none => some "Secret is not valid base32"
    | some [] => some "Secret is too short"
    | some _ =>
      if entry.digits < MIN_DIGITS ∨ MAX_DIGITS < entry.digits then
        some s!"Digits must be between {MIN_DIGITS} and {MAX_DIGITS}"
      else if entry.type = .TOTP ∧ (entry.period < MIN_PERIOD ∨ MAX_PERIOD < entry.period) then
        some s!"Period must be between {MIN_PERIOD} and {MAX_PERIOD} seconds"
      else none

/-- The counter as a `quint64`, from its highest byte. -/
def counterBytes (counter : ℤ) : List UInt8 :=
  let word := (counter % 2 ^ 64).toNat
  [.ofNat (word / 2 ^ 56), .ofNat (word / 2 ^ 48), .ofNat (word / 2 ^ 40), .ofNat (word / 2 ^ 32),
    .ofNat (word / 2 ^ 24), .ofNat (word / 2 ^ 16), .ofNat (word / 2 ^ 8), .ofNat word]

/-- The dynamic truncation. -/
def truncated (mac : List UInt8) : ℕ :=
  let offset := (mac.getLastD 0 &&& 0x0f).toNat
  let byte (i : ℕ) := (mac.getD (offset + i) 0).toNat
  (byte 0 % 128) * 2 ^ 24 + byte 1 * 2 ^ 16 + byte 2 * 2 ^ 8 + byte 3

def GenerateHOTP (hash : Mac) (key : List UInt8) (counter : ℤ) (algorithm : Algorithm)
    (digits : ℤ) : Text :=
  if key = [] ∨ digits < MIN_DIGITS ∨ MAX_DIGITS < digits then []
  else
    let mac := hash algorithm key (counterBytes counter)
    if mac.length < 20 then []
    else
      let code := decimal (truncated mac % 10 ^ digits.toNat)
      List.replicate (digits.toNat - code.length) '0' ++ code

def GenerateCode (hash : Mac) (entry : Entry) (now : ℤ) : Text :=
  if (Validate entry).isSome then []
  else
    let key := (Base32Decode entry.secret).getD []
    match entry.type with
    | .HOTP => GenerateHOTP hash key entry.counter entry.algorithm entry.digits
    | .TOTP => GenerateHOTP hash key (now / entry.period) entry.algorithm entry.digits

/-! ## The table and the entries in memory -/

structure OtpProfilesRepo where
  /-- The rows of `otp_profiles`. -/
  rows : ℤ → Option Entry
  /-- The entries of `identityMap` that something still holds. -/
  identityMap : ℤ → Option Entry

namespace OtpProfilesRepo

def GetOtpProfile (repo : OtpProfilesRepo) (id : ℤ) : Option Entry × OtpProfilesRepo :=
  match repo.identityMap id with
  | some shared => (some shared, repo)
  | none =>
    match repo.rows id with
    | none => (none, repo)
    | some row =>
      (some row, { repo with identityMap := Function.update repo.identityMap id (some row) })

/-- The last holder of an entry lets it go. -/
def release (repo : OtpProfilesRepo) (id : ℤ) : OtpProfilesRepo :=
  { repo with identityMap := Function.update repo.identityMap id none }

inductive HotpAdvanceResult where
  | Ok
  | Changed
  | StorageError
  deriving DecidableEq, Repr

/-- The statements of `AdvanceHotpCounters`, any of which the storage may refuse. -/
inductive Statement where
  | BEGIN
  | UPDATE (id : ℤ)
  | ROLLBACK
  | COMMIT
  deriving DecidableEq, Repr

/-- What a commit hands over: for each HOTP profile what it was when its code was made. -/
abbrev Snapshots := AList fun _ : ℤ => Entry

/-- The lambda `matches`. -/
def matchesSnapshot (profile snapshot : Entry) : Bool :=
  profile.type = .HOTP && profile.type = snapshot.type && profile.secret = snapshot.secret &&
    profile.algorithm = snapshot.algorithm && profile.digits = snapshot.digits &&
    profile.counter = snapshot.counter

/-- The condition of the `UPDATE`. -/
def rowMatches (row snapshot : Entry) : Bool :=
  row.type = .HOTP && row.secret = snapshot.secret && row.algorithm = snapshot.algorithm &&
    row.digits = snapshot.digits && row.counter = snapshot.counter

/-- The loop over the `UPDATE`s inside the transaction. -/
def updateRows (fails : Statement → Bool) :
    List (Σ _ : ℤ, Entry) → (ℤ → Option Entry) → Except HotpAdvanceResult (ℤ → Option Entry)
  | [], rows => .ok rows
  | ⟨id, snapshot⟩ :: later, rows =>
    if fails (.UPDATE id) then .error .StorageError
    else
      match (rows id).filter (rowMatches · snapshot) with
      | none => .error (if fails .ROLLBACK then .StorageError else .Changed)
      | some row =>
        updateRows fails later
          (Function.update rows id (some { row with counter := row.counter + 1 }))

/-- The entries in memory behind a committed transaction. -/
def advanceCached (expected : Snapshots) (identityMap : ℤ → Option Entry) (id : ℤ) :
    Option Entry :=
  match expected.lookup id with
  | none => identityMap id
  | some snapshot =>
    (identityMap id).map fun profile =>
      if matchesSnapshot profile snapshot then { profile with counter := snapshot.counter + 1 }
      else profile

def AdvanceHotpCounters (fails : Statement → Bool) (repo : OtpProfilesRepo)
    (expected : Snapshots) : HotpAdvanceResult × OtpProfilesRepo :=
  if expected.entries = [] then (.Ok, repo)
  else if expected.entries.any fun e =>
      (repo.identityMap e.1).any fun profile => !matchesSnapshot profile e.2 then
    (.Changed, repo)
  else if fails .BEGIN then (.StorageError, repo)
  else
    match updateRows fails expected.entries repo.rows with
    | .error result => (result, repo)
    | .ok rows =>
      if fails .COMMIT then (.StorageError, repo)
      else (.Ok, ⟨rows, advanceCached expected repo.identityMap⟩)

end OtpProfilesRepo

/-! ## The codes of one config -/

structure OtpCodeSession where
  codes : AList fun _ : ℤ => Text
  hotpProfiles : OtpProfilesRepo.Snapshots

namespace OtpCodeSession

open OtpProfilesRepo

def empty : OtpCodeSession := ⟨∅, ∅⟩

def Resolve (hash : Mac) (now : ℤ) (repo : OtpProfilesRepo) (session : OtpCodeSession)
    (otpProfileId : ℤ) : Text × OtpProfilesRepo × OtpCodeSession :=
  match session.codes.lookup otpProfileId with
  | some code => (code, repo, session)
  | none =>
    if otpProfileId < 0 then ([], repo, session)
    else
      match repo.GetOtpProfile otpProfileId with
      | (none, repo) => ([], repo, session)
      | (some profile, repo) =>
        if (Validate profile).isSome then ([], repo, session)
        else
          let code := GenerateCode hash profile now
          (code, repo,
            { codes := session.codes.insert otpProfileId code
              hotpProfiles :=
                if profile.type = .HOTP then session.hotpProfiles.insert otpProfileId profile
                else session.hotpProfiles })

/-- The error, empty behind a commit. -/
def Commit (fails : Statement → Bool) (repo : OtpProfilesRepo) (session : OtpCodeSession) :
    String × OtpProfilesRepo × OtpCodeSession :=
  if session.hotpProfiles.entries = [] then ("", repo, session)
  else
    match repo.AdvanceHotpCounters fails session.hotpProfiles with
    | (.Changed, repo) => ("HOTP profile changed while the config was being built", repo, session)
    | (.StorageError, repo) => ("Could not save the HOTP counter", repo, session)
    | (.Ok, repo) => ("", repo, { session with hotpProfiles := ∅ })

end OtpCodeSession

/-- The text with the code in the place of the placeholder `{otp}`. -/
def replaceOtp (code : Text) : Text → Text
  | '{' :: 'o' :: 't' :: 'p' :: '}' :: text => code ++ replaceOtp code text
  | c :: text => c :: replaceOtp code text
  | [] => []

def SubstituteOtp (text code : Text) : Text := if code = [] then text else replaceOtp code text

end Throned.OTP
