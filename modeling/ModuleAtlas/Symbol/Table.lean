import ModuleAtlas.Graph.Module
import ModuleAtlas.Symbol.Name

/-! All definitions of a graph, found by canonical name and, for services, by service key. -/

namespace ModuleAtlas

structure SymbolRecord where
  name : String
  qualifiedName : String
  canonical : String
  moduleName : String
  language : String
  file : String
  kind : DefinitionKind
  exported : Bool
  visibility : Option String
  scope : Option String
  signature : Option String
  isService : Bool
  deriving DecidableEq, Inhabited

namespace SymbolRecord

def ofEntry (entry : Entry) : SymbolRecord :=
  let d := entry.definition
  { name := d.name
    qualifiedName := d.qualifiedName
    canonical := canonicalize d.name
    moduleName := entry.moduleName
    language := entry.language
    file := entry.file
    kind := d.kind
    exported := d.exported
    visibility := d.visibility
    scope := d.scope
    signature := d.signature
    isService := d.isService }

def isPublic (record : SymbolRecord) : Bool :=
  record.exported || record.visibility.any fun visibility => Text.sameAscii visibility "public"

/-- The canonical forms of its name and of its qualified name, as far as they say anything. -/
def keys (record : SymbolRecord) : List String :=
  let qualified := canonicalize record.qualifiedName
  let keys :=
    if qualified ≠ "" ∧ qualified ≠ record.canonical then [record.canonical, qualified]
    else [record.canonical]
  keys.filter (· ≠ "")

def serviceKeys (record : SymbolRecord) : List String :=
  if record.isService then [Service.key record.name].filter (· ≠ "") else []

end SymbolRecord

/-- The places of the records under each key, ascending. -/
abbrev KeyIndex := Table (List Nat)

def KeyIndex.enter (index : KeyIndex) (place : Nat) (keys : List String) : KeyIndex :=
  keys.foldl (fun index key => index.alter key fun places => some (places.getD [] ++ [place])) index

structure SymbolTable where
  records : Array SymbolRecord := #[]
  byCanonical : KeyIndex := ∅
  byService : KeyIndex := ∅

namespace SymbolTable

def push (table : SymbolTable) (record : SymbolRecord) : SymbolTable where
  records := table.records.push record
  byCanonical := table.byCanonical.enter table.records.size record.keys
  byService := table.byService.enter table.records.size record.serviceKeys

/-- The definitions of some modules, by module and name. -/
def ofModules (modules : Table ModuleNode) : SymbolTable :=
  (modules.values.flatMap fun node => node.definitions.values).foldl
    (fun table entry => table.push (.ofEntry entry)) {}

def canonicalPlaces (table : SymbolTable) (key : String) : List Nat :=
  table.byCanonical.getD key []

def servicePlaces (table : SymbolTable) (key : String) : List Nat :=
  table.byService.getD key []

def recordsAt (table : SymbolTable) (places : List Nat) : List SymbolRecord :=
  places.filterMap fun place => table.records[place]?

def lookup (table : SymbolTable) (key : String) : List SymbolRecord :=
  table.recordsAt (table.canonicalPlaces key)

def lookupService (table : SymbolTable) (key : String) : List SymbolRecord :=
  table.recordsAt (table.servicePlaces key)

end SymbolTable

end ModuleAtlas
