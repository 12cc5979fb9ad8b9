import ModuleAtlas.Blob.Facts
import ModuleAtlas.KeyedHash
import Std.Data.ExtTreeMap

/-! Facts kept in a folder, one file for each path. The name of a file comes from a hash of the
path, so a file that holds the facts of another path counts as none. -/

namespace ModuleAtlas

/-- What stands under a name in the folder: a file, or a folder that is in the way. -/
inductive Holding where
  | file (bytes : Blob.Bytes)
  | folder

structure Store where
  /-- What the folder holds, by file name. -/
  holdings : Std.ExtTreeMap String Holding := ∅
  /-- Whether the folder itself is there. -/
  present : Bool := true

/-- Why the store did not answer. -/
inductive StoreError where
  | create
  | write (key : UInt64)
  | read (key : UInt64)
  | remove (key : UInt64)
  | blob (fault : Blob.Fault)
  deriving DecidableEq, Repr

namespace Store

def folderName : String := "store"

/-- The name of the file for the paths with a hash. -/
def fileName (key : UInt64) : String :=
  "facts_" ++ String.ofList (Nat.toDigits 16 key.toNat) ++ ".bincode"

section

variable (hash : String → UInt64)

def holding? (store : Store) (key : UInt64) : Option Holding :=
  if store.present then store.holdings[fileName key]? else none

def writeFile (store : Store) (key : UInt64) (bytes : Blob.Bytes) : Except StoreError Store :=
  if store.present then
    match store.holdings[fileName key]? with
    | some .folder => .error (.write key)
    | _ => .ok { store with holdings := store.holdings.insert (fileName key) (.file bytes) }
  else .error (.write key)

def save (store : Store) (facts : FileFacts) : Except StoreError Store :=
  store.writeFile (hash facts.path) (Blob.facts.encode facts)

def load (store : Store) (path : String) : Except StoreError (Option FileFacts) :=
  match store.holding? (hash path) with
  | none => .ok none
  | some .folder => .error (.read (hash path))
  | some (.file bytes) =>
    match Blob.facts.decode bytes with
    | .error fault => .error (.blob fault)
    | .ok (facts, _) => .ok (if facts.path = path then some facts else none)

/-- Whether there was a file to remove, and the store without it. -/
def remove (store : Store) (path : String) : Except StoreError (Bool × Store) :=
  match store.holding? (hash path) with
  | none => .ok (false, store)
  | some .folder => .error (.remove (hash path))
  | some (.file _) =>
    .ok (true, { store with holdings := store.holdings.erase (fileName (hash path)) })

end

def size (store : Store) : Nat :=
  if store.present then store.holdings.size else 0

def isEmpty (store : Store) : Bool :=
  store.size = 0

/-- A fresh store. It cannot be made where a file is in the way. -/
def create (blocked : Bool) : Except StoreError Store :=
  if blocked then .error .create else .ok {}

/-- Put a folder where the file of a path belongs. -/
def obstruct (store : Store) (key : UInt64) : Store :=
  { store with holdings := store.holdings.insert (fileName key) .folder }

/-- Delete the folder with all it holds. -/
def drop (_ : Store) : Store := { present := false }

end Store

/-- What is reported, if the problem is not in a file's contents. -/
def StoreError.context? : StoreError → Option String
  | create => some ("Failed to create fact store at " ++ Store.folderName)
  | write key => some ("Failed to write " ++ Store.folderName ++ "/" ++ Store.fileName key)
  | read key => some ("Failed to read " ++ Store.folderName ++ "/" ++ Store.fileName key)
  | remove key => some ("Failed to remove " ++ Store.folderName ++ "/" ++ Store.fileName key)
  | blob _ => none

end ModuleAtlas
