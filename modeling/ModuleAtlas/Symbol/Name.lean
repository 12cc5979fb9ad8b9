import ModuleAtlas.Facts
import ModuleAtlas.Text.Alphanumeric
import ModuleAtlas.Text.Case

/-! Names that compare across languages. The canonical form of a name drops case and punctuation;
the service key of a name also drops the roles at its end, so that a client and its server share
one. -/

namespace ModuleAtlas

def canonicalChars (cs : List Char) : List Char :=
  (cs.filter Text.isAlphanumeric).flatMap Text.lowerChar

def canonicalize (name : String) : String :=
  String.ofList (canonicalChars name.toList)

namespace Service

def roles : List String :=
  ["service", "servicer", "server", "client", "stub", "handler", "endpoint", "api", "rpc"]

/-- The key without a role at its end. At least three bytes have to stay. -/
def dropRole? (role : List Char) (key : List Char) : Option (List Char) :=
  if role.isSuffixOf key ∧ Text.byteLength role + 2 < Text.byteLength key then
    some (key.take (key.length - role.length))
  else none

/-- Drop the first role of a table that can go. -/
def dropAnyRole? (table : List String) (key : List Char) : Option (List Char) :=
  table.findSome? fun role => dropRole? role.toList key

/-- Drop roles until none can go; every drop shortens the key, so its length is enough fuel. -/
def dropRoles (table : List String) : Nat → List Char → List Char
  | 0, key => key
  | fuel + 1, key =>
    match dropAnyRole? table key with
    | some shorter => dropRoles table fuel shorter
    | none => key

def keyChars (cs : List Char) : List Char :=
  let canonical := canonicalChars cs
  dropRoles roles canonical.length canonical

/-- `UserServiceClient`, `UserServicer` and `user_service` all have the key `user`. -/
def key (name : String) : String :=
  String.ofList (keyChars name.toList)

def markers : List String :=
  ["grpc", "thrift", "rpc", "route", "endpoint", "handler", "service", "servicer", "server"]

def decoratorMarkers : List String :=
  ["grpc", "thrift", "route", "api"]

def mentions (markers : List String) (text : String) : Bool :=
  let lowered := Text.lower text
  markers.any fun marker => Text.includes lowered marker

end Service

/-- A definition is a service if its texts or decorators say so, or if it is a class or interface
whose name ends in a role. -/
def Definition.isService (definition : Definition) : Bool :=
  let texts := [definition.name, definition.qualifiedName] ++ definition.signature.toList ++
    definition.typeHint.toList
  texts.any (Service.mentions Service.markers) ||
    definition.decorators.any (Service.mentions Service.decoratorMarkers) ||
    ((definition.kind = .interface || definition.kind = .classType) &&
      Service.key definition.name != canonicalize definition.name)

end ModuleAtlas
