import ModuleAtlas.Text.Blank
import ModuleAtlas.Text.Cut

/-! Facts about one source file, as an extractor reports them. -/

namespace ModuleAtlas

structure Location where
  line : UInt32 := 0
  column : UInt32 := 0
  deriving DecidableEq, Inhabited, Repr

inductive DefinitionKind where
  | function
  | method
  | classType
  | plainType
  | interface
  | variableName
  | constant
  deriving DecidableEq, Inhabited, Repr

namespace DefinitionKind

def all : List DefinitionKind :=
  [function, method, classType, plainType, interface, variableName, constant]

def tag : DefinitionKind → String
  | function => "function"
  | method => "method"
  | classType => "class"
  | plainType => "type"
  | interface => "interface"
  | variableName => "variable"
  | constant => "constant"

def ofTag? (tag : String) : Option DefinitionKind :=
  all.find? fun kind => kind.tag = tag

def isCallable : DefinitionKind → Bool
  | function | method => true
  | _ => false

end DefinitionKind

/-- What a complexity score is made of. An extractor that knows the score itself gives it. -/
structure Complexity where
  branches : UInt32 := 0
  nesting : UInt32 := 0
  params : UInt32 := 0
  loc : UInt32 := 0
  score : Option UInt32 := none
  deriving DecidableEq, Inhabited, Repr

/-- The score given, or else one made of the parts: at least one, and at most the largest number
of 32 bits. -/
def Complexity.effective (complexity : Complexity) : UInt32 :=
  match complexity.score with
  | some score => score
  | none =>
    let sum := complexity.branches.toNat * 2 + complexity.nesting.toNat * 2 +
      complexity.params.toNat + complexity.loc.toNat / 10
    UInt32.ofNat (max 1 (min sum 0xFFFFFFFF))

structure Definition where
  name : String
  qualifiedName : String := ""
  kind : DefinitionKind
  location : Location := {}
  exported : Bool := false
  visibility : Option String := none
  scope : Option String := none
  signature : Option String := none
  typeHint : Option String := none
  decorators : List String := []
  complexity : Complexity := {}
  deriving DecidableEq, Inhabited, Repr

def Definition.score (definition : Definition) : UInt32 :=
  definition.complexity.effective

/-- A definition of which no more is known than its name and kind. -/
def Definition.named (name : String) (kind : DefinitionKind) : Definition where
  name := name
  qualifiedName := name
  kind := kind

def Definition.markExported (definition : Definition) : Definition :=
  { definition with exported := true, visibility := some "public" }

structure Import where
  target : String
  raw : String := ""
  boundAs : Option String := none
  items : List String := []
  relative : Bool := false
  location : Location := {}
  deriving DecidableEq, Inhabited, Repr

namespace Import

def plain (target : String) : Import where
  target := target
  raw := target

def isPathSeparator (c : Char) : Bool :=
  c = '.' || c = '/' || c = ':' || c = '\\'

/-- The name of the module an import reaches for. -/
def moduleName (i : Import) : String :=
  Text.trim i.target

/-- The last segment of the target that is not empty, or the target if there is none. -/
def baseName (i : Import) : String :=
  match Text.lastPiece? (!·.isEmpty) isPathSeparator i.target.toList with
  | some segment => String.ofList segment
  | none => i.target

/-- What an item of the list binds: the name in the module, and the name in the file. -/
def itemBinding? (item : String) : Option (String × String) :=
  let item := Text.trim item
  if item = "" ∨ item = "*" then none
  else
    match Text.splitOnce? " as ".toList item.toList with
    | some (member, bound) =>
      some (Text.trim (String.ofList member), Text.trim (String.ofList bound))
    | none => some (item, item)

def itemBindings (i : Import) : List (String × String) :=
  i.items.filterMap itemBinding?

end Import

/-- What a reference is used for. The bridge uses come from extractors that saw a foreign call, a
spawned process or a service client. -/
inductive Usage where
  | plain
  | ffiBridge
  | processBridge
  | serviceBridge
  | typeUsage
  | call
  | definition
  deriving DecidableEq, Inhabited, Repr

namespace Usage

def tag : Usage → String
  | plain => ""
  | ffiBridge => "ffi_bridge"
  | processBridge => "process_bridge"
  | serviceBridge => "service_bridge"
  | typeUsage => "type"
  | call => "call"
  | definition => "definition"

/-- An unknown tag says nothing. -/
def ofTag : String → Usage
  | "ffi_bridge" => ffiBridge
  | "process_bridge" => processBridge
  | "service_bridge" => serviceBridge
  | "type" => typeUsage
  | "call" => call
  | "definition" => definition
  | _ => plain

def isBridge : Usage → Bool
  | ffiBridge | processBridge | serviceBridge => true
  | _ => false

/-- How far an unresolved reference of this use can be trusted, in hundredths. -/
def confidence : Usage → Nat
  | definition => 95
  | call => 90
  | typeUsage => 85
  | plain => 80
  | serviceBridge => 70
  | ffiBridge => 60
  | processBridge => 50

end Usage

structure Reference where
  name : String
  location : Location := {}
  usage : Usage := .plain
  deriving DecidableEq, Inhabited, Repr

structure FileFacts where
  path : String
  moduleField : String := ""
  language : String := ""
  package : Option String := none
  imports : List Import := []
  definitions : List Definition := []
  references : List Reference := []
  localNames : List String := []
  deriving DecidableEq, Inhabited, Repr

/-- The module of files that name none. -/
def defaultModule : String := "."

def FileFacts.moduleName (facts : FileFacts) : String :=
  let name := Text.trim facts.moduleField
  if name = "" then defaultModule else name

end ModuleAtlas
