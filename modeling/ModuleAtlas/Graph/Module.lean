import ModuleAtlas.Facts
import Std.Data.ExtTreeMap
import Std.Data.ExtTreeSet

/-! A module as its files make it: which definition stands for a name, what it exports, and which
modules it imports. -/

namespace ModuleAtlas

abbrev Names := Std.ExtTreeSet String

abbrev Table (α : Type) := Std.ExtTreeMap String α

/-- What the graph keeps of a file to make its module again. -/
structure Contribution where
  moduleName : String
  language : String
  imports : List Import
  definitions : List Definition
  deriving DecidableEq, Inhabited

def FileFacts.contribution (facts : FileFacts) : Contribution where
  moduleName := facts.moduleName
  language := facts.language
  imports := facts.imports
  definitions := facts.definitions

/-- What decides between definitions of one name, the greater the better. -/
def Definition.rank (d : Definition) : List Nat :=
  [d.score.toNat, d.complexity.loc.toNat, d.complexity.branches.toNat, d.complexity.params.toNat,
    d.complexity.nesting.toNat]

/-- A definition with where it came from. -/
structure Entry where
  definition : Definition
  moduleName : String
  file : String
  language : String
  deriving DecidableEq, Inhabited

namespace Entry

def score (entry : Entry) : UInt32 :=
  entry.definition.score

/-- Of two definitions of one name the more complex one stands, and of two alike the one in the
file that comes first. -/
def outranks (a b : Entry) : Bool :=
  b.definition.rank < a.definition.rank ||
    (b.definition.rank = a.definition.rank && a.file < b.file)

/-- Let an entry take the place of its name, unless the one there is as good. -/
def prefer (table : Table Entry) (entry : Entry) : Table Entry :=
  match table[entry.definition.name]? with
  | some current =>
    if entry.outranks current then table.insert entry.definition.name entry else table
  | none => table.insert entry.definition.name entry

end Entry

structure ImportEdge where
  source : String
  target : String
  file : String
  location : Location
  deriving DecidableEq, Inhabited

/-- `imports` has one edge for each target; the last file that imports it is the one named. -/
structure ModuleNode where
  name : String
  files : Names := ∅
  languages : Names := ∅
  exports : Table Entry := ∅
  definitions : Table Entry := ∅
  imports : Table ImportEdge := ∅
  maxComplexity : UInt32 := 0

namespace ModuleNode

def entryOf (node : ModuleNode) (path : String) (c : Contribution) (d : Definition) : Entry where
  definition := d
  moduleName := node.name
  file := path
  language := c.language

/-- Whether an import leads to another module. -/
def leadsOut (node : ModuleNode) (i : Import) : Bool :=
  i.moduleName ≠ "" && i.moduleName ≠ node.name

def edgeOf (node : ModuleNode) (path : String) (i : Import) : ImportEdge where
  source := node.name
  target := i.moduleName
  file := path
  location := i.location

def contribute (node : ModuleNode) (path : String) (c : Contribution) : ModuleNode :=
  let entries := c.definitions.map (node.entryOf path c)
  { node with
    languages := if c.language = "" then node.languages else node.languages.insert c.language
    exports := (entries.filter (·.definition.exported)).foldl Entry.prefer node.exports
    definitions := entries.foldl Entry.prefer node.definitions
    imports := (c.imports.filter node.leadsOut).foldl
      (fun edges i => edges.insert i.moduleName (node.edgeOf path i)) node.imports
    maxComplexity := entries.foldl (fun most entry => max most entry.score) node.maxComplexity }

/-- The module without anything its files gave it. -/
def bare (node : ModuleNode) : ModuleNode where
  name := node.name
  files := node.files

/-- The module made again from its files, in the order of their paths. -/
def rebuild (node : ModuleNode) (contributions : Table Contribution) : ModuleNode :=
  node.files.toList.foldl
    (fun node path =>
      match contributions[path]? with
      | some c => node.contribute path c
      | none => node)
    node.bare

end ModuleNode

end ModuleAtlas
