import ObjectStore.Caller
import ObjectStore.Schema.Basic

/-!
# Protected fields

A class may keep fields from its callers. Each list of protected fields applies to everyone, to
users, to holders of a role or to one user, and a field is kept from a caller if all lists that
apply to the caller hold it. Users see their own object in full.
-/

namespace ObjectStore.Access

/-- The key of the list that applies to all users. -/
def authenticatedKey : String := "authenticated"

/-- How the keys of lists start that depend on a field of the object; they apply to no one here. -/
def userFieldMark : String := "userField:"

/-- Whether a list of protected fields applies to a caller by what the caller is. -/
def appliesByKind (caller : Caller) (key : String) : Bool :=
  if Text.startsWith key userFieldMark then false
  else if key = publicGroup then true
  else caller.userId?.isSome
    && (key = authenticatedKey || (Text.startsWith key roleMark && caller.roles.contains key))

/-- The lists of protected fields that apply to a caller. -/
def applicable (lists : Dict (List String)) (caller : Caller) : List (List String) :=
  ((lists.filter fun (key, _) => appliesByKind caller key).map Prod.snd)
    ++ (caller.userId?.bind lists.get?).toList

/-- The fields that occur in all lists, each once, in the order in which they occur first. -/
def commonFields (lists : List (List String)) : List String :=
  lists.flatten.eraseDups.filter fun field => lists.all (·.contains field)

/-- Whether a query asks for the object of the caller itself. -/
def asksForSelf (query : Object) (caller : Caller) : Bool :=
  ((query.get? objectIdField).bind Json.str?).any (caller.groups?.getD []).contains

/-- The fields that are kept from a caller; nothing if no list is to be applied. -/
def protectedFields? (permissions : Option Permissions) (query : Object) (caller : Caller) :
    Option (List String) :=
  let lists := (permissions.map Permissions.protectedFields).getD []
  if lists.isEmpty || asksForSelf query caller || (caller.userId?.isSome && query.isEmpty) then
    none
  else some (commonFields (applicable lists caller))

/-- An object without some fields. -/
def redact (object : Object) (fields : List String) : Object := fields.foldl Dict.erase object

end ObjectStore.Access
