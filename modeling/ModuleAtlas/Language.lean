import ModuleAtlas.Facts
import ModuleAtlas.Text.Case

/-! The languages that are known by name: their standard modules, their built-in names, and the
call prefixes that lead out of them into another language, process or service. -/

namespace ModuleAtlas

inductive Language where
  | python
  | go
  | rust
  | javaScript
  | typeScript
  | java
  | c
  | cpp
  | cSharp
  | other
  deriving DecidableEq, Inhabited, Repr

namespace Language

def ofName (name : String) : Language :=
  match Text.lower (Text.trim name) with
  | "python" | "py" => python
  | "go" | "golang" => go
  | "rust" | "rs" => rust
  | "javascript" | "js" | "jsx" | "mjs" => javaScript
  | "typescript" | "ts" | "tsx" => typeScript
  | "java" => java
  | "c" => c
  | "cpp" | "c++" | "cc" | "cxx" => cpp
  | "csharp" | "c#" | "cs" => cSharp
  | _ => other

def label : Language → String
  | python => "Python"
  | go => "Go"
  | rust => "Rust"
  | javaScript => "JavaScript"
  | typeScript => "TypeScript"
  | java => "Java"
  | c => "C"
  | cpp => "Cpp"
  | cSharp => "CSharp"
  | other => "Other"

def pythonLibrary : List String :=
  ["abc", "argparse", "asyncio", "base64", "collections", "contextlib", "copy", "csv",
   "dataclasses", "datetime", "enum", "functools", "glob", "hashlib", "heapq", "inspect", "io",
   "itertools", "json", "logging", "math", "multiprocessing", "os", "pathlib", "pickle",
   "queue", "random", "re", "shutil", "signal", "socket", "sqlite3", "string", "struct",
   "subprocess", "sys", "tempfile", "threading", "time", "traceback", "typing", "unittest",
   "urllib", "uuid", "warnings", "weakref"]

def goLibrary : List String :=
  ["bufio", "bytes", "context", "crypto", "errors", "filepath", "flag", "fmt", "http", "io",
   "ioutil", "json", "log", "math", "net", "os", "path", "reflect", "regexp", "runtime", "sort",
   "strconv", "strings", "sync", "syscall", "testing", "time", "unicode", "url", "atomic",
   "exec", "signal", "rand", "hex", "base64", "binary"]

def rustLibrary : List String :=
  ["std", "core", "alloc", "crate", "super"]

def scriptLibrary : List String :=
  ["Array", "Boolean", "console", "Date", "document", "Error", "exports", "globalThis", "Intl",
   "JSON", "Map", "Math", "module", "Number", "Object", "Promise", "Proxy", "Reflect", "RegExp",
   "Set", "String", "Symbol", "WeakMap", "window", "process", "Buffer", "fs", "path", "os",
   "util", "events", "crypto"]

def javaLibrary : List String :=
  ["java", "javax", "System", "String", "Math", "Integer", "Long", "Double", "Boolean",
   "Character", "Object", "List", "Map", "Set", "Arrays", "Collections", "Optional", "Objects",
   "Thread", "StringBuilder"]

def nativeLibrary : List String :=
  ["std", "printf", "fprintf", "sprintf", "snprintf", "malloc", "calloc", "realloc", "free",
   "memcpy", "memset", "memcmp", "strlen", "strcmp", "strncmp", "strcpy", "strncpy", "fopen",
   "fclose", "fread", "fwrite", "exit", "abort", "assert"]

def cSharpLibrary : List String :=
  ["System", "Console", "Math", "String", "Task", "List", "Dictionary", "Enumerable", "File",
   "Path", "Environment", "Convert", "Guid", "DateTime"]

def pythonBuiltins : List String :=
  ["abs", "all", "any", "bool", "bytes", "callable", "chr", "dict", "dir", "enumerate",
   "Exception", "filter", "float", "format", "frozenset", "getattr", "hasattr", "hash", "id",
   "input", "int", "isinstance", "issubclass", "iter", "KeyError", "len", "list", "map", "max",
   "min", "next", "object", "open", "ord", "print", "property", "range", "repr", "reversed",
   "round", "RuntimeError", "set", "setattr", "sorted", "staticmethod", "classmethod", "str",
   "sum", "tuple", "type", "TypeError", "ValueError", "vars", "zip", "None", "True", "False"]

def goBuiltins : List String :=
  ["append", "cap", "close", "complex", "copy", "delete", "len", "make", "new", "panic",
   "print", "println", "recover", "error", "string", "int", "int64", "int32", "uint", "uint64",
   "float64", "bool", "byte", "rune", "nil", "true", "false", "any"]

def rustBuiltins : List String :=
  ["assert", "assert_eq", "assert_ne", "Box", "debug_assert", "Err", "eprintln", "format",
   "None", "Ok", "Option", "panic", "println", "Result", "Some", "String", "todo",
   "unimplemented", "unreachable", "Vec", "vec", "write", "writeln", "Default", "Clone",
   "Iterator", "Into", "From"]

def scriptBuiltins : List String :=
  ["parseInt", "parseFloat", "isNaN", "isFinite", "setTimeout", "setInterval", "clearTimeout",
   "clearInterval", "encodeURIComponent", "decodeURIComponent", "require", "fetch",
   "structuredClone", "queueMicrotask", "undefined", "NaN", "Infinity"]

def javaBuiltins : List String :=
  ["println", "printf", "valueOf", "toString", "equals", "hashCode", "length", "size",
   "Exception", "RuntimeException", "IllegalArgumentException", "IllegalStateException"]

def nativeBuiltins : List String :=
  ["sizeof", "alignof", "offsetof", "static_cast", "dynamic_cast", "reinterpret_cast",
   "const_cast", "nullptr", "NULL", "main"]

def cSharpBuiltins : List String :=
  ["nameof", "typeof", "sizeof", "default", "var", "await"]

def pythonBridges : List String :=
  ["ctypes.", "cffi.", "ffi.", "subprocess.", "os.system", "os.popen", "grpc.", "requests.",
   "httpx.", "aiohttp."]

def goBridges : List String :=
  ["C.", "exec.Command", "grpc.", "http.Get", "http.Post", "cgo."]

def rustBridges : List String :=
  ["libc::", "ffi::", "std::process::Command", "Command::new", "tonic::", "reqwest::", "pyo3::",
   "napi::"]

def scriptBridges : List String :=
  ["child_process.", "spawn", "execFile", "ffi.", "fetch", "axios.", "grpc.", "WebAssembly."]

def javaBridges : List String :=
  ["System.loadLibrary", "ProcessBuilder", "Runtime.getRuntime", "io.grpc.", "JNI",
   "HttpClient."]

def nativeBridges : List String :=
  ["dlopen", "dlsym", "system", "popen", "execv", "Py", "JNIEnv"]

def cSharpBridges : List String :=
  ["DllImport", "Process.Start", "Grpc.", "HttpClient."]

/-- Roots of the standard library. -/
def library : Language → List String
  | python => pythonLibrary
  | go => goLibrary
  | rust => rustLibrary
  | javaScript | typeScript => scriptLibrary
  | java => javaLibrary
  | c | cpp => nativeLibrary
  | cSharp => cSharpLibrary
  | other => []

def builtins : Language → List String
  | python => pythonBuiltins
  | go => goBuiltins
  | rust => rustBuiltins
  | javaScript | typeScript => scriptBuiltins
  | java => javaBuiltins
  | c | cpp => nativeBuiltins
  | cSharp => cSharpBuiltins
  | other => []

/-- Prefixes of names that lead out of the language; the first that fits counts. -/
def bridgePrefixes : Language → List String
  | python => pythonBridges
  | go => goBridges
  | rust => rustBridges
  | javaScript | typeScript => scriptBridges
  | java => javaBridges
  | c | cpp => nativeBridges
  | cSharp => cSharpBridges
  | other => []

/-- Receivers that stand for the enclosing object. -/
def selfReceivers : List String :=
  ["self", "this", "cls", "super", "Self"]

/-- A name is known by its first identifier or as a whole. -/
def inLibrary (language : Language) (head full : String) : Bool :=
  head ∈ language.library || full ∈ language.library

def isBuiltin (language : Language) (head full : String) : Bool :=
  head ∈ language.builtins || full ∈ language.builtins

def processMarkers : List String :=
  ["process", "exec", "spawn", "system", "popen", "command", "runtime"]

def serviceMarkers : List String :=
  ["grpc", "http", "fetch", "requests", "axios", "tonic", "reqwest", "aiohttp"]

def bridgeUsage (head : String) : Usage :=
  let lowered := Text.lower head
  if processMarkers.any (Text.includes lowered) then .processBridge
  else if serviceMarkers.any (Text.includes lowered) then .serviceBridge
  else .ffiBridge

/-- The kind of bridge that a name hints at by how it starts. -/
def bridgeHint? (language : Language) (name : String) : Option Usage :=
  (language.bridgePrefixes.find? fun head => head.toList.isPrefixOf name.toList).map bridgeUsage

end Language

end ModuleAtlas
