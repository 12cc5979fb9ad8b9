import ModuleAtlas.Blob.Codec
import ModuleAtlas.Facts

/-! The binary form of facts: the fields one after the other. -/

namespace ModuleAtlas.Blob

open Codec

def location : Codec Location :=
  (uint32.pair uint32).via (fun (line, column) => { line, column }) fun l => (l.line, l.column)

def complexity : Codec Complexity :=
  (uint32.pair <| uint32.pair <| uint32.pair <| uint32.pair uint32.option).via
    (fun (branches, nesting, params, loc, score) => { branches, nesting, params, loc, score })
    fun c => (c.branches, c.nesting, c.params, c.loc, c.score)

def kind : Codec DefinitionKind :=
  oneOf DefinitionKind.all

def definition : Codec Definition :=
  (text.pair <| text.pair <| kind.pair <| location.pair <| bool.pair <| text.option.pair <|
      text.option.pair <| text.option.pair <| text.option.pair <| text.list.pair complexity).via
    (fun (name, qualifiedName, kind, location, exported, visibility, scope, signature, typeHint,
        decorators, complexity) =>
      { name, qualifiedName, kind, location, exported, visibility, scope, signature, typeHint,
        decorators, complexity })
    fun d => (d.name, d.qualifiedName, d.kind, d.location, d.exported, d.visibility, d.scope,
      d.signature, d.typeHint, d.decorators, d.complexity)

def importing : Codec Import :=
  (text.pair <| text.pair <| text.option.pair <| text.list.pair <| bool.pair location).via
    (fun (target, raw, boundAs, items, relative, location) =>
      { target, raw, boundAs, items, relative, location })
    fun i => (i.target, i.raw, i.boundAs, i.items, i.relative, i.location)

def usage : Codec Usage :=
  text.via Usage.ofTag Usage.tag

def reference : Codec Reference :=
  (text.pair <| location.pair usage).via
    (fun (name, location, usage) => { name, location, usage })
    fun r => (r.name, r.location, r.usage)

def facts : Codec FileFacts :=
  (text.pair <| text.pair <| text.pair <| text.option.pair <| importing.list.pair <|
      definition.list.pair <| reference.list.pair text.list).via
    (fun (path, moduleField, language, package, imports, definitions, references, localNames) =>
      { path, moduleField, language, package, imports, definitions, references, localNames })
    fun f => (f.path, f.moduleField, f.language, f.package, f.imports, f.definitions,
      f.references, f.localNames)

end ModuleAtlas.Blob
