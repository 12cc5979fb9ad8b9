import ModuleAtlas.Facts.Json
import ModuleAtlas.Resolver.Assessment

/-! The JSON form of symbols, resolutions and reports. -/

namespace ModuleAtlas

def SymbolRecord.toJson (r : SymbolRecord) : Json :=
  .record [("name", .text r.name), ("qualified_name", .text r.qualifiedName),
    ("canonical", .text r.canonical), ("module", .text r.moduleName),
    ("language", .text r.language), ("file", .text r.file), ("kind", .text r.kind.tag),
    ("exported", .bool r.exported), ("visibility", .optional .text r.visibility),
    ("scope", .optional .text r.scope), ("signature", .optional .text r.signature),
    ("is_service", .bool r.isService), ("is_public", .bool r.isPublic)]

def SymbolMatch.fields (m : SymbolMatch) : List (String × Json) :=
  [("module", .text m.moduleName), ("name", .text m.name), ("file", .text m.file),
    ("language", .text m.language), ("score", .integer m.score)]

def SymbolMatch.toJson (m : SymbolMatch) : Json :=
  .record m.fields

def Resolution.stage : Resolution → String
  | .localName => "local"
  | .declaredBridge _ => "explicit_bridge"
  | .bridge _ => "bridge"
  | .library => "stdlib"
  | .qualified => "qualified"
  | .builtin => "builtin"
  | .matched _ => "probabilistic"
  | .unresolved => "unresolved"

def Resolution.toJson (r : Resolution) : Json :=
  let details : List (String × Json) := match r with
    | .declaredBridge reason => [("reason", .text reason)]
    | .bridge target => [("target", .optional SymbolMatch.toJson target)]
    | .matched found => found.fields
    | _ => []
  .record ([("stage", .text r.stage), ("resolved", .bool r.isResolved)] ++ details)

/-- A number of hundredths. -/
def Json.hundredths (n : Nat) : Json :=
  .decimal false n (-2)

def UnresolvedReference.toJson (u : UnresolvedReference) : Json :=
  .record [("file", .text u.file), ("module", .text u.moduleName), ("language", .text u.language),
    ("reference", u.reference.toJson), ("confidence", .hundredths u.reference.usage.confidence)]

def UnusedImport.toJson (u : UnusedImport) : Json :=
  .record [("file", .text u.file), ("language", .text u.language), ("module", .text u.moduleName),
    ("name", .text u.name), ("location", u.location.toJson),
    ("confidence", .text u.confidence.tag)]

/-- What an assessment says, without what it is about. -/
def Assessment.verdict (a : Assessment) : List (String × Json) :=
  [("score", .integer a.score), ("tier", .text a.tier.tag),
    ("evidence", .list (a.evidence.map fun evidence => .text evidence.tag)),
    ("bridge_reason", .optional .text a.reason)]

def Assessment.toJson (a : Assessment) : Json :=
  .record ([("file", .text a.file), ("reference", a.reference.toJson)] ++ a.verdict)

end ModuleAtlas
