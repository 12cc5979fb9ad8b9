import ModuleAtlas.Facts
import ModuleAtlas.Json.Typed

/-! The JSON form of facts. -/

namespace ModuleAtlas

section

variable {m : Type → Type} {δ : Type} [Monad m] [MonadExceptOf Fault m] [Source δ m]

def Location.shape : Shape m δ Location where
  start := {}
  fields := [
    .need "line" readUInt32 fun l line => { l with line },
    .need "column" readUInt32 fun l column => { l with column }]

def Complexity.shape : Shape m δ Complexity where
  start := {}
  fields := [
    .may "branches" readUInt32 fun c branches => { c with branches },
    .may "nesting" readUInt32 fun c nesting => { c with nesting },
    .may "params" readUInt32 fun c params => { c with params },
    .may "loc" readUInt32 fun c loc => { c with loc },
    .may "score" (readOption readUInt32) fun c score => { c with score }]

def DefinitionKind.read : δ → m DefinitionKind :=
  Source.named DefinitionKind.ofTag?

def Definition.shape : Shape m δ Definition where
  start := { name := "", kind := .function }
  fields := [
    .need "name" Source.text fun d name => { d with name },
    .may "qualified_name" Source.text fun d qualifiedName => { d with qualifiedName },
    .need "kind" DefinitionKind.read fun d kind => { d with kind },
    .may "location" Location.shape.read fun d location => { d with location },
    .may "exported" Source.bool fun d exported => { d with exported },
    .may "visibility" (readOption Source.text) fun d visibility => { d with visibility },
    .may "scope" (readOption Source.text) fun d scope => { d with scope },
    .may "signature" (readOption Source.text) fun d signature => { d with signature },
    .may "type_hint" (readOption Source.text) fun d typeHint => { d with typeHint },
    .may "decorators" (readList Source.text) fun d decorators => { d with decorators },
    .may "complexity" Complexity.shape.read fun d complexity => { d with complexity }]

def Import.shape : Shape m δ Import where
  start := { target := "" }
  fields := [
    .need "module" Source.text fun i target => { i with target },
    .may "raw" Source.text fun i raw => { i with raw },
    .may "alias" (readOption Source.text) fun i boundAs => { i with boundAs },
    .may "items" (readList Source.text) fun i items => { i with items },
    .may "relative" Source.bool fun i relative => { i with relative },
    .may "location" Location.shape.read fun i location => { i with location }]

def Usage.read (document : δ) : m Usage :=
  Usage.ofTag <$> Source.text document

def Reference.shape : Shape m δ Reference where
  start := { name := "" }
  fields := [
    .need "name" Source.text fun r name => { r with name },
    .may "location" Location.shape.read fun r location => { r with location },
    .may "context" Usage.read fun r usage => { r with usage }]

def FileFacts.shape : Shape m δ FileFacts where
  start := { path := "" }
  fields := [
    .need "path" Source.text fun f path => { f with path },
    .may "module" Source.text fun f moduleField => { f with moduleField },
    .may "language" Source.text fun f language => { f with language },
    .may "package" (readOption Source.text) fun f package => { f with package },
    .may "imports" (readList Import.shape.read) fun f imports => { f with imports },
    .may "definitions" (readList Definition.shape.read) fun f definitions => { f with definitions },
    .may "references" (readList Reference.shape.read) fun f references => { f with references },
    .may "local_names" (readList Source.text) fun f localNames => { f with localNames }]

end

def Location.toJson (l : Location) : Json :=
  .record [("line", .nat l.line.toNat), ("column", .nat l.column.toNat)]

def Complexity.toJson (c : Complexity) : Json :=
  .record [("branches", .nat c.branches.toNat), ("nesting", .nat c.nesting.toNat),
    ("params", .nat c.params.toNat), ("loc", .nat c.loc.toNat),
    ("score", .optional (fun n => .nat n.toNat) c.score)]

def Definition.toJson (d : Definition) : Json :=
  .record [("name", .text d.name), ("qualified_name", .text d.qualifiedName),
    ("kind", .text d.kind.tag), ("location", d.location.toJson), ("exported", .bool d.exported),
    ("visibility", .optional .text d.visibility), ("scope", .optional .text d.scope),
    ("signature", .optional .text d.signature), ("type_hint", .optional .text d.typeHint),
    ("decorators", .texts d.decorators), ("complexity", d.complexity.toJson)]

def Import.toJson (i : Import) : Json :=
  .record [("module", .text i.target), ("raw", .text i.raw), ("alias", .optional .text i.boundAs),
    ("items", .texts i.items), ("relative", .bool i.relative), ("location", i.location.toJson)]

def Reference.toJson (r : Reference) : Json :=
  .record [("name", .text r.name), ("location", r.location.toJson), ("context", .text r.usage.tag)]

def FileFacts.toJson (f : FileFacts) : Json :=
  .record [("path", .text f.path), ("module", .text f.moduleField), ("language", .text f.language),
    ("package", .optional .text f.package), ("imports", .list (f.imports.map Import.toJson)),
    ("definitions", .list (f.definitions.map Definition.toJson)),
    ("references", .list (f.references.map Reference.toJson)),
    ("local_names", .texts f.localNames)]

end ModuleAtlas
