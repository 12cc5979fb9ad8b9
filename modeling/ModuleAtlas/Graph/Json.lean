import ModuleAtlas.Facts.Json
import ModuleAtlas.Graph.Impact
import ModuleAtlas.Graph.Metrics

/-! The JSON form of a graph and of the reports on it. -/

namespace ModuleAtlas

def Json.names (names : Names) : Json :=
  .texts names.toList

/-- A record with a field for each name. -/
def Json.table (write : α → Json) (table : Table α) : Json :=
  .record (table.toList.map fun (name, a) => (name, write a))

def Entry.toJson (e : Entry) : Json :=
  .record [("definition", e.definition.toJson), ("module", .text e.moduleName),
    ("file", .text e.file), ("language", .text e.language)]

def ImportEdge.toJson (e : ImportEdge) : Json :=
  .record [("from", .text e.source), ("to", .text e.target), ("file", .text e.file),
    ("location", e.location.toJson)]

def ModuleNode.toJson (m : ModuleNode) : Json :=
  .record [("name", .text m.name), ("files", .names m.files), ("languages", .names m.languages),
    ("exports", .table Entry.toJson m.exports), ("definitions", .table Entry.toJson m.definitions),
    ("imports", .table ImportEdge.toJson m.imports),
    ("max_complexity", .nat m.maxComplexity.toNat)]

def ImpactReport.toJson (r : ImpactReport) : Json :=
  .record [("target", .text r.target), ("module", .text r.moduleName), ("file", .text r.file),
    ("direct_importers", .texts r.direct), ("transitive_importers", .texts r.transitive),
    ("exported_symbols", .texts r.exported), ("externally_used_symbols", .texts r.used),
    ("total_importers", .nat r.total)]

/-- A number of halves, always written with a fraction. -/
def Json.halves (n : Nat) : Json :=
  .decimal false (5 * n) (-1)

def ModuleMetrics.toJson (m : ModuleMetrics) : Json :=
  .record [("module", .text m.moduleName), ("files", .nat m.files), ("fan_in", .nat m.fanIn),
    ("fan_out", .nat m.fanOut), ("depth", .nat m.depth), ("component", .nat m.component),
    ("component_size", .nat m.componentSize), ("in_cycle", .bool m.inCycle),
    ("complexity", .nat m.complexity.toNat), ("importance", .halves m.importance)]

def ComplexityEntry.toJson (e : ComplexityEntry) : Json :=
  .record [("module", .text e.moduleName), ("name", .text e.name), ("file", .text e.file),
    ("kind", .text e.kind.tag), ("score", .nat e.score.toNat)]

end ModuleAtlas
