import Throned.Model.SimpleRules

/-!
# Rule lines (RuleLine.cpp)

The free-form lines that the simple editor and the control API accept, and the normal form they
are brought to.
-/

set_option autoImplicit false

namespace Throned.Routes

open Throned.Library

/-- What is used of Qt. -/
structure LineText where
  toLower : Text → Text
  toLower_ascii : ∀ text : Text, (∀ c ∈ text, c.toNat < 128) → toLower text = text.map Char.toLower
  /-- `!QHostAddress(text).isNull()`. -/
  isAddress : Text → Bool
  /-- The only letters of an address without its zone are those of hexadecimal numbers. -/
  isAddress_letters : ∀ text : Text, isAddress text = true →
    ∀ c ∈ text.takeWhile (· ≠ '%'), c.isAlpha = true → (hexDigit c).isSome = true ∨ c.toLower = 'x'

/-! ## Kinds (RuleLine.cpp:11-49) -/

def ruleLineAliases : List (Text × Text) :=
  [("domain".toList, "domain".toList), ("full".toList, "domain".toList),
    ("suffix".toList, "suffix".toList), ("domain_suffix".toList, "suffix".toList),
    ("keyword".toList, "keyword".toList), ("domain_keyword".toList, "keyword".toList),
    ("regex".toList, "regex".toList), ("regexp".toList, "regex".toList),
    ("domain_regex".toList, "regex".toList), ("ruleset".toList, "ruleset".toList),
    ("rule_set".toList, "ruleset".toList), ("ip".toList, "ip".toList),
    ("ip_cidr".toList, "ip".toList), ("cidr".toList, "ip".toList),
    ("processname".toList, "processName".toList), ("process_name".toList, "processName".toList),
    ("processpath".toList, "processPath".toList), ("process_path".toList, "processPath".toList)]

/-- The kind of an alias, empty where there is none. -/
def ruleLineKind (name : Text) : Text := (ruleLineAliases.lookup name).getD []

/-- `endsWith`, ignoring case, for a text in small ASCII letters. -/
def endsWithLetters (value ending : Text) : Bool :=
  ((value.drop (value.length - ending.length)).map Char.toLower) = ending

section Kinds

variable (qt : LineText)

def guessRuleKind (value : Text) : Text :=
  -- paths first: the only kind allowed to contain spaces
  if '\\' ∈ value ∨ value.head? = some '/' then "processPath".toList
  else if ' ' ∈ value then []
  else if "geosite-".toList <+: value ∨ "geoip-".toList <+: value then "ruleset".toList
  else if endsWithLetters value ".exe".toList then "processName".toList
  else
    let address := value.takeWhile (· ≠ '/')
    if address ≠ [] ∧ qt.isAddress address = true then "ip".toList
    else if value.head? = some '.' then "suffix".toList
    else if "*.".toList <+: value then "domain".toList
    else if '.' ∈ value then "domain".toList
    else []

/-! ## The normal form (RuleLine.cpp:58-90) -/

/-- The first loop: a list's dash or an opening quote, with the spaces around. -/
def stripLead : Text → Text
  | [] => []
  | c :: rest => if c = '-' ∨ c = '"' then stripLead (trimSpace rest) else c :: rest
termination_by text => text.length
decreasing_by
  exact Nat.lt_succ_of_le (trimSpace_isInfix rest).length_le

/-- The second loop, which chops commas and quotes alone. -/
def stripTail (text : Text) : Text := text.rdropWhile fun c => c = ',' ∨ c = '"'

def suffixKind : Text := "suffix".toList

/-- A rule of a kind that was named. -/
def namedLine (kind value : Text) : Text :=
  if kind = suffixKind ∧ value.head? = some '.' then
    let bare := value.tail
    -- a bare "." would leave a matcher with nothing in it
    if bare = [] then [] else kind ++ ':' :: bare
  else kind ++ ':' :: value

/-- A rule of a kind that has to be guessed. -/
def guessedLine (clean : Text) : Text :=
  let guess := guessRuleKind qt clean
  if guess = [] then []
  else if guess = suffixKind then
    let bare := clean.tail
    if bare = [] then [] else guess ++ ':' :: bare
  else guess ++ ':' :: clean

def NormalizeRuleLine (line : Text) : Text :=
  let clean := trimSpace line
  if clean = [] ∨ clean.head? = some '#' ∨ "//".toList <+: clean then []
  else
    let clean := trimSpace (stripTail (stripLead clean))
    if clean = [] then []
    else
      match cut ':' clean with
      | none => guessedLine qt clean
      | some (left, right) =>
        let kind := ruleLineKind (qt.toLower (trimSpace left))
        let value := trimSpace right
        if left ≠ [] ∧ kind ≠ [] ∧ value ≠ [] then namedLine kind value
        else guessedLine qt clean

end Kinds

end Throned.Routes
