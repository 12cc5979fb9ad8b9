import ModuleAtlas.Facts

/-! The names that imports make visible in a file. -/

namespace ModuleAtlas

/-- How an import binds a name: for the module (`alias`, `base` segment or `full` name), or for an
item of it. -/
inductive BindingKind where
  | renamed
  | item (member : String)
  | base
  | full
  deriving DecidableEq, Repr

/-- `slot` is the place of the import in its file. -/
structure Binding where
  name : String
  slot : Nat
  kind : BindingKind
  source : Import
  deriving DecidableEq

namespace Binding

def isItem (b : Binding) : Bool :=
  match b.kind with
  | .item _ => true
  | _ => false

def isExplicit (b : Binding) : Bool :=
  b.kind = .renamed || b.isItem

/-- The name of the module, where it is not blank. -/
def givenName? (i : Import) : Option String :=
  (i.boundAs.map Text.trim).filter (· ≠ "")

/-- An import for effect only, one of everything and one of no module bind no name. -/
def bindsNothing (i : Import) : Bool :=
  givenName? i = some "_" || givenName? i = some "." || i.moduleName = "" ||
    i.items.any fun item => Text.trim item = "*"

/-- The bindings of an import's items and its alias. -/
def explicits (slot : Nat) (i : Import) : List Binding :=
  i.itemBindings.map (fun (member, bound) =>
      { name := bound, slot, kind := .item member, source := i }) ++
    (givenName? i).toList.map fun name => { name, slot, kind := .renamed, source := i }

/-- An import without items and alias binds the last segment of its module's name and the whole. -/
def ofImport (slot : Nat) (i : Import) : List Binding :=
  if bindsNothing i then []
  else if (explicits slot i).isEmpty then
    { name := i.baseName, slot, kind := .base, source := i } ::
      if i.moduleName = i.baseName then []
      else [{ name := i.moduleName, slot, kind := .full, source := i }]
  else explicits slot i

def ofImports (imports : List Import) : List Binding :=
  imports.zipIdx.flatMap fun (i, slot) => ofImport slot i

end Binding

end ModuleAtlas
