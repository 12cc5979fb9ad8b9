import ModuleAtlas.Graph

/-! What a change reaches: the files to look at again, and a report on who imports a module. -/

namespace ModuleAtlas

/-- Spread from a level of names along `next` to all that were not seen before. -/
def spread (next : String → List String) : Nat → List String → Names → Names
  | 0, _, seen => seen
  | _ + 1, [], seen => seen
  | fuel + 1, level, seen =>
    let fresh := (level.flatMap next).filter fun name => name ∉ seen
    spread next fuel (Std.ExtTreeSet.ofList fresh : Names).toList (seen.insertMany fresh)

namespace Graph

/-- A module and all modules that import it, directly or through others. -/
def dependents (g : Graph) (name : String) : Names :=
  spread g.importersOf (g.modules.size + 1) [name] (Std.ExtTreeSet.ofList [name])

/-- The files of a module and of all its dependents. A path that is not tracked stands alone. -/
def invalidate (g : Graph) (path : String) : List String :=
  match g.moduleOf? path with
  | none => [path]
  | some origin =>
    let files := (g.dependents origin).toList.flatMap fun name =>
      match g.modules[name]? with
      | some node => node.files.toList
      | none => []
    (Std.ExtTreeSet.ofList files : Names).toList

end Graph

/-- `transitive` names the importers that are not direct ones. Symbols count as used outside as
soon as anything imports the module. -/
structure ImpactReport where
  target : String
  moduleName : String
  file : String
  direct : List String
  transitive : List String
  exported : List String
  used : List String
  deriving DecidableEq

def ImpactReport.total (report : ImpactReport) : Nat :=
  report.direct.length + report.transitive.length

namespace Graph

/-- The module and file that a name stands for: a tracked path, or else a module, which its first
file stands for. -/
def resolveTarget? (g : Graph) (target : String) : Option (String × String) :=
  match g.moduleOf? target with
  | some name => some (name, target)
  | none => (g.modules[target]?.bind (·.files.min?)).map fun file => (target, file)

/-- No report where the target is neither a tracked path nor a module. -/
def impact? (g : Graph) (target : String) : Option ImpactReport := do
  let (name, file) ← g.resolveTarget? target
  let node ← g.modules[name]?
  let direct := g.importersOf name
  let reached := (g.dependents name).erase name
  let exported := node.exports.keys
  return {
    target
    moduleName := name
    file
    direct
    transitive := reached.toList.filter fun importer => importer ∉ direct
    exported
    used := if reached.isEmpty then [] else exported }

end Graph

end ModuleAtlas
