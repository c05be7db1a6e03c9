import Throned.Library.Runs
import Throned.Model.Otp

/-!
# Sign-ins with one-time codes

The poll of `VpnAuthController` with its automatic answers
(src/engine/vpn/VpnAuthController.cpp:27-91, 202-273, 278-410), beside the way a start takes:
configs are built on the main thread, one start at a time holds the lock and hands the config
to the core, and the counters are committed behind that
(src/engine/connection/ConnectionManager.cpp:88-320).  A config built for a test goes to a
test core and is never committed.

Texts of the status line, the prompts shown to a person and the restarts that a refused sign-in
asks for are left out: a restart is a start.
-/

set_option autoImplicit false

namespace Throned.Engine

open Throned.Library Throned.OTP

/-! ## Challenges and answers -/

structure VpnAuthField where
  submissionKey : Text
  name : Text
  label : Text
  kind : Text
  value : Text
  deriving DecidableEq, Repr

structure VpnAuthChallenge where
  endpointTag : Text
  id : Text
  kind : Text
  error : Text
  fields : List VpnAuthField
  deriving DecidableEq, Repr

structure VpnAuthAnswer where
  username : Text
  password : Text
  secret : Text
  formValues : List (Text × Text)
  deriving DecidableEq, Repr

structure VpnEndpointState where
  tag : Text
  connected : Bool
  deriving DecidableEq, Repr

structure VpnCredentials where
  username : Text
  password : Text
  deriving DecidableEq, Repr

structure OpenConnectFormEntry where
  submission_key : Text
  name : Text
  value : Text
  promote : Bool
  deriving DecidableEq, Repr

/-- A profile that signs in to a VPN server. -/
inductive VpnOutbound where
  | openvpn (otp_profile_id : ℤ) (username password : Text)
  | openconnect (otp_profile_id : ℤ) (username password : Text)
      (form_entries : List OpenConnectFormEntry)
  deriving DecidableEq, Repr

namespace VpnOutbound

def otpID : VpnOutbound → ℤ
  | openvpn id _ _ => id
  | openconnect id _ _ _ => id

def stored : VpnOutbound → VpnCredentials
  | openvpn _ user pass => ⟨user, pass⟩
  | openconnect _ user pass _ => ⟨user, pass⟩

end VpnOutbound

def kindSecret : Text := ['s', 'e', 'c', 'r', 'e', 't']

def kindCredentials : Text := ['c', 'r', 'e', 'd', 'e', 'n', 't', 'i', 'a', 'l', 's']

def kindForm : Text := ['f', 'o', 'r', 'm']

def kindPassword : Text := ['p', 'a', 's', 's', 'w', 'o', 'r', 'd']

/-- Of the characters that are not ASCII only two have ASCII letters in lower case. -/
def lowerChar (c : Char) : Text :=
  if c.val = 0x212a then ['k'] else if c.val = 0x130 then ['i', Char.ofNat 0x307] else [c.toLower]

def fieldHaystack (field : VpnAuthField) : Text :=
  (field.name ++ ' ' :: field.label).flatMap lowerChar

def containsText (text hint : Text) : Bool := text.tails.any (hint.isPrefixOf ·)

def tokenHints : List String :=
  ["token", "otp", "passcode", "one-time", "onetime", "second", "challenge", "verification",
    "authenticator"]

def looksLikeToken (field : VpnAuthField) : Bool :=
  tokenHints.any fun hint => containsText (fieldHaystack field) hint.toList

def looksLikeUsername (field : VpnAuthField) : Bool :=
  ["user", "login", "account"].any fun hint => containsText (fieldHaystack field) hint.toList

/-- What the entries of the profile give for a field; the last that fits counts. -/
def entryValue (form_entries : List OpenConnectFormEntry) (field : VpnAuthField) (code : Text) :
    Option Text :=
  form_entries.foldl
    (fun value entry =>
      let byKey := entry.submission_key ≠ [] ∧ entry.submission_key = field.submissionKey
      let byName := entry.submission_key = [] ∧ entry.name ≠ [] ∧ entry.name = field.name ∧
        containsText entry.value "{otp}".toList
      if entry.promote then value
      else if byKey ∨ byName then some (SubstituteOtp entry.value code)
      else value)
    none

/-- The value of a field, and whether it is the password. -/
def fieldValue (form_entries : List OpenConnectFormEntry) (creds : VpnCredentials) (code : Text)
    (passwordUsed : Bool) (field : VpnAuthField) : Option (Text × Bool) :=
  match entryValue form_entries field code with
  | some value => some (value, false)
  | none =>
    if field.kind = kindPassword then
      if !passwordUsed && !looksLikeToken field && creds.password ≠ [] then
        some (SubstituteOtp creds.password code, true)
      else some (code, false)
    else if looksLikeUsername field ∧ creds.username ≠ [] then
      some (SubstituteOtp creds.username code, false)
    else if field.value ≠ [] then some (field.value, false)
    else none

def formValues (form_entries : List OpenConnectFormEntry) (creds : VpnCredentials) (code : Text) :
    Bool → List (Text × Text) → List VpnAuthField → Option (List (Text × Text))
  | _, out, [] => some out
  | passwordUsed, out, field :: fields =>
    match fieldValue form_entries creds code passwordUsed field with
    | none => none
    | some (value, isPassword) =>
      formValues form_entries creds code (passwordUsed || isPassword)
        (out.filter (·.1 ≠ field.submissionKey) ++ [(field.submissionKey, value)]) fields

def buildFormAnswer (form_entries : List OpenConnectFormEntry) (creds : VpnCredentials)
    (code : Text) (challenge : VpnAuthChallenge) : Option (List (Text × Text)) :=
  if challenge.fields = [] then none
  else formValues form_entries creds code false [] challenge.fields

/-- Whether an answer of the profile has the shape that a challenge asks for. -/
def shapeSettled (outbound : VpnOutbound) (creds : VpnCredentials)
    (challenge : VpnAuthChallenge) : Bool :=
  match outbound with
  | .openvpn .. =>
    challenge.kind = kindSecret ||
      (challenge.kind = kindCredentials && !(creds.username = [] && creds.password = []))
  | .openconnect .. => challenge.kind = kindForm

def buildAnswer (outbound : VpnOutbound) (creds : VpnCredentials) (challenge : VpnAuthChallenge)
    (code : Text) : Option VpnAuthAnswer :=
  match outbound with
  | .openvpn .. =>
    if challenge.kind = kindCredentials then
      some ⟨SubstituteOtp creds.username code, SubstituteOtp creds.password code, code, []⟩
    else some ⟨[], [], code, []⟩
  | .openconnect _ _ _ form_entries =>
    (buildFormAnswer form_entries creds code challenge).map fun values => ⟨[], [], [], values⟩

/-! ## The state -/

/-- What the controller reads of other parts of the program. -/
structure Surroundings where
  started_id : ℤ
  /-- `runningSnapshot()` is there. -/
  running : Bool
  VpnEndpointProfileID : Text → ℤ
  GetProfile : ℤ → Option VpnOutbound
  vpnCredentialOverrides : ℤ → Option VpnCredentials

def Surroundings.ResolveVpnCredentials (around : Surroundings) (profileID : ℤ)
    (stored : VpnCredentials) : VpnCredentials :=
  if 0 ≤ profileID then (around.vpnCredentialOverrides profileID).getD stored else stored

/-- `m_vpnChallengeBusy` is set unless the poll is idle. -/
inductive Poll where
  | idle
  | querying
  | replied (states : List VpnEndpointState) (pending : List VpnAuthChallenge)
  deriving DecidableEq, Repr

/-- A start that holds `mu_starting`. -/
structure Launch where
  serial : ℕ
  session : OtpCodeSession
  /-- The core has accepted the config. -/
  accepted : Bool

inductive SignInBy where
  | start (serial : ℕ)
  | test
  | answer (endpointTag id : Text)
  deriving DecidableEq, Repr

/-- A code of a HOTP counter that went out to a server. -/
structure HandedOut where
  otpID : ℤ
  counter : ℤ
  signIn : SignInBy
  deriving DecidableEq, Repr

structure SignIns where
  repo : OtpProfilesRepo
  around : Surroundings
  /-- The configs that are being built or have been built. -/
  building : ℕ → Option OtpCodeSession
  starting : Option Launch
  starts : ℕ
  timerActive : Bool
  poll : Poll
  m_vpnOtpLastCode : Text → Text
  m_vpnOtpRejects : Text → ℕ
  m_vpnChallengeAnswering : List Text
  /-- The answers that the core has not replied to. -/
  inFlight : List (Text × Text × VpnAuthAnswer)
  /-- Every automatic answer, every HOTP code that went out, and the starts that committed. -/
  submitted : List (Text × Text)
  handedOut : List HandedOut
  committed : List ℕ

namespace SignIns

variable (hash : Mac)

/-! ## Automatic answers -/

def kMaxOtpRejects : ℕ := 3

/-- What `autoAnswer` decides about a challenge. -/
inductive Verdict where
  | leave
  | hold
  | submit (otpID : ℤ) (entry : Entry) (code : Text) (answer : VpnAuthAnswer)
  deriving DecidableEq, Repr

/-- The checks of `autoAnswer` behind the OTP profile. -/
def answerWith (s : SignIns) (now : ℤ) (challenge : VpnAuthChallenge) (outbound : VpnOutbound)
    (creds : VpnCredentials) (entry : Entry) : Verdict :=
  let code := GenerateCode hash entry now
  if challenge.error ≠ [] ∧ kMaxOtpRejects ≤ s.m_vpnOtpRejects challenge.endpointTag then .leave
  else if challenge.error ≠ [] ∧ entry.type = .TOTP ∧
      code = s.m_vpnOtpLastCode challenge.endpointTag then .hold
  else if !shapeSettled outbound creds challenge then .leave
  else if code = [] then .leave
  else
    match buildAnswer outbound creds challenge code with
    | none => .leave
    | some answer => .submit outbound.otpID entry code answer

def verdict (s : SignIns) (now : ℤ) (challenge : VpnAuthChallenge) : Verdict × OtpProfilesRepo :=
  if challenge.id = [] ∨ !s.around.running then (.leave, s.repo)
  else if challenge.endpointTag ∈ s.m_vpnChallengeAnswering then (.hold, s.repo)
  else
    let profileID := s.around.VpnEndpointProfileID challenge.endpointTag
    if profileID < 0 then (.leave, s.repo)
    else
      match s.around.GetProfile profileID with
      | none => (.leave, s.repo)
      | some outbound =>
        if outbound.otpID < 0 then (.leave, s.repo)
        else
          match s.repo.GetOtpProfile outbound.otpID with
          | (none, repo) => (.leave, repo)
          | (some entry, repo) =>
            if (Validate entry).isSome then (.leave, repo)
            else
              let creds := s.around.ResolveVpnCredentials profileID outbound.stored
              (s.answerWith hash now challenge outbound creds entry, repo)

def hotpUse (otpID : ℤ) (entry : Entry) (signIn : SignInBy) : List HandedOut :=
  if entry.type = .HOTP then [⟨otpID, entry.counter, signIn⟩] else []

def submitAutoAnswer (s : SignIns) (challenge : VpnAuthChallenge) (otpID : ℤ) (entry : Entry)
    (answer : VpnAuthAnswer) : SignIns :=
  { s with
    m_vpnChallengeAnswering := challenge.endpointTag :: s.m_vpnChallengeAnswering
    inFlight := s.inFlight ++ [(challenge.endpointTag, challenge.id, answer)]
    submitted := s.submitted ++ [(challenge.endpointTag, challenge.id)]
    handedOut := s.handedOut ++
      hotpUse otpID entry (.answer challenge.endpointTag challenge.id) }

def countReject (s : SignIns) (challenge : VpnAuthChallenge) : Text → ℕ :=
  if challenge.error = [] then s.m_vpnOtpRejects
  else
    Function.update s.m_vpnOtpRejects challenge.endpointTag
      (s.m_vpnOtpRejects challenge.endpointTag + 1)

/-- `autoAnswer`; a challenge that it does not take is shown to a person. -/
def autoAnswer (s : SignIns) (now : ℤ) (challenge : VpnAuthChallenge) : Bool × SignIns :=
  match s.verdict hash now challenge with
  | (.leave, repo) => (false, { s with repo := repo })
  | (.hold, repo) => (true, { s with repo := repo })
  | (.submit otpID entry code answer, repo) =>
    (true,
      submitAutoAnswer
        { s with
          repo := repo
          m_vpnOtpRejects := s.countReject challenge
          m_vpnOtpLastCode := Function.update s.m_vpnOtpLastCode challenge.endpointTag code }
        challenge otpID entry answer)

/-- The reply to an automatic answer, whatever it says. -/
def answerReturned (s : SignIns) (answered : Text × Text × VpnAuthAnswer) : SignIns :=
  if answered ∈ s.inFlight then
    { s with
      inFlight := s.inFlight.erase answered
      m_vpnChallengeAnswering := s.m_vpnChallengeAnswering.filter (· ≠ answered.1) }
  else s

/-! ## Polls -/

def resetTracking (s : SignIns) : SignIns :=
  { s with
    m_vpnOtpLastCode := fun _ => []
    m_vpnOtpRejects := fun _ => 0
    m_vpnChallengeAnswering := [] }

def noteRunStarted (s : SignIns) : SignIns := { s.resetTracking with timerActive := true }

def noteRunStopped (s : SignIns) : SignIns := { s.resetTracking with timerActive := false }

def pollStarted (s : SignIns) : SignIns :=
  if !s.timerActive || s.around.started_id < 0 || s.poll ≠ .idle then s
  else { s with poll := .querying }

/-- The thread of the poll has its answer; it is empty where the call failed. -/
def pollReplied (s : SignIns) (states : List VpnEndpointState) (pending : List VpnAuthChallenge) :
    SignIns :=
  if s.poll = .querying then { s with poll := .replied states pending } else s

def updateEndpointStates (s : SignIns) (states : List VpnEndpointState) : SignIns :=
  { s with
    m_vpnOtpRejects := fun tag =>
      if states.any fun state => state.connected && state.tag = tag then 0
      else s.m_vpnOtpRejects tag }

def answerPending (now : ℤ) (s : SignIns) (pending : List VpnAuthChallenge) : SignIns :=
  pending.foldl (fun s challenge => (s.autoAnswer hash now challenge).2) s

/-- The part of a poll on the main thread. -/
def pollHandled (s : SignIns) (now : ℤ) : SignIns :=
  match s.poll with
  | .replied states pending =>
    let s := { s with poll := .idle }
    if s.timerActive then answerPending hash now (s.updateEndpointStates states) pending else s
  | _ => s

/-! ## Starts -/

def buildStarted (s : SignIns) (n : ℕ) : SignIns :=
  if s.building n = none then
    { s with building := Function.update s.building n (some .empty) }
  else s

def buildResolves (s : SignIns) (n : ℕ) (otpProfileId now : ℤ) : SignIns :=
  match s.building n with
  | none => s
  | some session =>
    match session.Resolve hash now s.repo otpProfileId with
    | (_, repo, session) =>
      { s with repo := repo, building := Function.update s.building n (some session) }

/-- A config that is not used: its build failed, or it was only looked at. -/
def buildDropped (s : SignIns) (n : ℕ) : SignIns :=
  { s with building := Function.update s.building n none }

/-- `start` behind its build takes the lock, or answers `Busy`. -/
def startLaunched (s : SignIns) (n : ℕ) : SignIns :=
  match s.building n, s.starting with
  | some session, none =>
    { s.buildDropped n with
      starting := some ⟨s.starts, session, false⟩
      starts := s.starts + 1 }
  | _, _ => s.buildDropped n

def sessionUses (session : OtpCodeSession) (signIn : SignInBy) : List HandedOut :=
  session.hotpProfiles.entries.map fun e => ⟨e.1, e.2.counter, signIn⟩

def coreAccepts (s : SignIns) : SignIns :=
  match s.starting with
  | some ⟨serial, session, false⟩ =>
    { s with
      starting := some ⟨serial, session, true⟩
      handedOut := s.handedOut ++ sessionUses session (.start serial) }
  | _ => s

def coreRefuses (s : SignIns) : SignIns :=
  match s.starting with
  | some ⟨_, _, false⟩ => { s with starting := none }
  | _ => s

/-- `Commit` behind an accepted start; an error stops the core again. -/
def startCommits (s : SignIns) (fails : OtpProfilesRepo.Statement → Bool) : SignIns :=
  match s.starting with
  | some ⟨serial, session, true⟩ =>
    match session.Commit fails s.repo with
    | (error, repo, _) =>
      { s with
        repo := repo
        starting := none
        committed := if error = "" then s.committed ++ [serial] else s.committed }
  | _ => s

/-- The config of a test reaches the test core. -/
def testRuns (s : SignIns) (n : ℕ) : SignIns :=
  match s.building n with
  | none => s
  | some session =>
    { s.buildDropped n with handedOut := s.handedOut ++ sessionUses session .test }

/-! ## Runs -/

inductive Event where
  | buildStarted (n : ℕ)
  | buildResolves (n : ℕ) (otpProfileId now : ℤ)
  | buildDropped (n : ℕ)
  | startLaunched (n : ℕ)
  | coreAccepts
  | coreRefuses
  | startCommits (fails : OtpProfilesRepo.Statement → Bool)
  | testRuns (n : ℕ)
  | entryReleased (otpProfileId : ℤ)
  | surroundingsChange (around : Surroundings)
  | noteRunStarted
  | noteRunStopped
  | pollStarted
  | pollReplied (states : List VpnEndpointState) (pending : List VpnAuthChallenge)
  | pollHandled (now : ℤ)
  | answerReturned (answered : Text × Text × VpnAuthAnswer)

def step (s : SignIns) : Event → SignIns
  | .buildStarted n => s.buildStarted n
  | .buildResolves n otpProfileId now => s.buildResolves hash n otpProfileId now
  | .buildDropped n => s.buildDropped n
  | .startLaunched n => s.startLaunched n
  | .coreAccepts => s.coreAccepts
  | .coreRefuses => s.coreRefuses
  | .startCommits fails => s.startCommits fails
  | .testRuns n => s.testRuns n
  | .entryReleased otpProfileId => { s with repo := s.repo.release otpProfileId }
  | .surroundingsChange around => { s with around := around }
  | .noteRunStarted => s.noteRunStarted
  | .noteRunStopped => s.noteRunStopped
  | .pollStarted => s.pollStarted
  | .pollReplied states pending => s.pollReplied states pending
  | .pollHandled now => s.pollHandled hash now
  | .answerReturned answered => s.answerReturned answered

/-- Nothing has been built, started or answered; the stored profiles are any. -/
structure Initial (s : SignIns) : Prop where
  building : ∀ n, s.building n = none
  starting : s.starting = none
  answering : s.m_vpnChallengeAnswering = []
  submitted : s.submitted = []
  handedOut : s.handedOut = []
  committed : s.committed = []

/-! ## What the sign-ins are for -/

/-- **Every later code of a counter comes from a larger value.** -/
def CodesOnce (s : SignIns) : Prop :=
  s.handedOut.Pairwise fun earlier later =>
    earlier.otpID = later.otpID → earlier.counter < later.counter

/-- **A challenge gets at most one automatic answer.** -/
def AnswersOnce (s : SignIns) : Prop := s.submitted.Nodup

end SignIns

end Throned.Engine
