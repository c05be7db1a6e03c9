import Throned.Library.JsonPaths
import Throned.Model.RouteRule

/-!
# Raw routes

A raw route names profiles by number in its `outbound` and `final` members.  The three walks over
it: the ids it names, their translation to the tags of a config, and their remapping on import
(src/database/entities/RouteProfile.cpp:46-131).
-/

set_option autoImplicit false

namespace Throned.Routes

open Throned.Library
open Throned.Configs (proxyID)

/-- `QJsonValue::isDouble`. -/
def isDouble : Json → Bool
  | .num _ => true
  | .double _ => true
  | _ => false

/-- `QJsonValue::toInt`: 0 where the value is no integer of 32 bits. -/
def jsonToInt : Json → ℤ
  | .num n => if -2 ^ 31 ≤ n ∧ n < 2 ^ 31 then n else 0
  | .double x => if x.den = 1 ∧ -2 ^ 31 ≤ x.num ∧ x.num < 2 ^ 31 then x.num else 0
  | _ => 0

/-- `QJsonValue::toString`. -/
def jsonToText : Option Json → Text
  | some (.str t) => t
  | _ => []

/-- A member that names a profile by number. -/
def isOutboundNumber (key : String) (value : Json) : Bool :=
  (key = "outbound" || key = "final") && isDouble value

mutual

/-- `out` with the ids of a node. -/
def collectRawOutboundIdsRec (out : List ℤ) : Json → List ℤ
  | .obj o => collectMembers out o
  | .arr items => collectItems out items
  | _ => out

def collectMembers (out : List ℤ) : List (String × Json) → List ℤ
  | [] => out
  | (key, value) :: o =>
    if isOutboundNumber key value then
      let id := jsonToInt value
      collectMembers (if id ∈ out then out else out ++ [id]) o
    else collectMembers (collectRawOutboundIdsRec out value) o

def collectItems (out : List ℤ) : List Json → List ℤ
  | [] => out
  | e :: items => collectItems (collectRawOutboundIdsRec out e) items

end

def CollectRawOutboundIds (route : JsonObject) : List ℤ := collectRawOutboundIdsRec [] (.obj route)

def proxyTag : Text := ['p', 'r', 'o', 'x', 'y']

mutual

def translateRawOutboundsRec (outboundMap : ℤ → Option Text) : Json → Json
  | .obj o => .obj (translateMembers outboundMap o)
  | .arr items => .arr (translateItems outboundMap items)
  | node => node

def translateMembers (outboundMap : ℤ → Option Text) :
    List (String × Json) → List (String × Json)
  | [] => []
  | (key, value) :: o =>
    (key,
      if isOutboundNumber key value then .str ((outboundMap (jsonToInt value)).getD proxyTag)
      else translateRawOutboundsRec outboundMap value) :: translateMembers outboundMap o

def translateItems (outboundMap : ℤ → Option Text) : List Json → List Json
  | [] => []
  | e :: items => translateRawOutboundsRec outboundMap e :: translateItems outboundMap items

end

def TranslateRawOutbounds (route : JsonObject) (outboundMap : ℤ → Option Text) : JsonObject :=
  translateMembers outboundMap route

/-- What an import reads: the names that came with the route, and the local profiles. -/
structure Importing where
  names : JsonObject
  GetProfileByName : Text → Option ℤ

/-- The name that came with an id. -/
def Importing.nameOf (env : Importing) (id : ℤ) : Text :=
  jsonToText (env.names.lookup (toString id))

/-- The local profile of an id, and the warning that there is none. -/
def Importing.remap (env : Importing) (warnings : Text) (id : ℤ) : ℤ × Text :=
  if id < 0 then (id, warnings)
  else
    let nm := env.nameOf id
    match if nm ≠ [] then env.GetProfileByName nm else none with
    | some localID => (localID, warnings)
    | none =>
      (proxyID, warnings ++ "outbound \"".toList ++ (if nm = [] then (toString id).toList else nm) ++
        "\" not found, using proxy\n".toList)

mutual

/-- The node with the warnings behind it. -/
def remapRawOutboundsByNameRec (env : Importing) (warnings : Text) : Json → Json × Text
  | .obj o =>
    let (res, warnings) := remapMembers env warnings o
    (.obj res, warnings)
  | .arr items =>
    let (res, warnings) := remapItems env warnings items
    (.arr res, warnings)
  | node => (node, warnings)

def remapMembers (env : Importing) (warnings : Text) :
    List (String × Json) → List (String × Json) × Text
  | [] => ([], warnings)
  | (key, value) :: o =>
    if isOutboundNumber key value then
      let (id, warnings) := env.remap warnings (jsonToInt value)
      let (res, warnings) := remapMembers env warnings o
      ((key, .num id) :: res, warnings)
    else
      let (value, warnings) := remapRawOutboundsByNameRec env warnings value
      let (res, warnings) := remapMembers env warnings o
      ((key, value) :: res, warnings)

def remapItems (env : Importing) (warnings : Text) : List Json → List Json × Text
  | [] => ([], warnings)
  | e :: items =>
    let (e, warnings) := remapRawOutboundsByNameRec env warnings e
    let (res, warnings) := remapItems env warnings items
    (e :: res, warnings)

end

def remapRawOutboundsByName (env : Importing) (warnings : Text) (route : JsonObject) :
    JsonObject × Text :=
  remapMembers env warnings route

end Throned.Routes
