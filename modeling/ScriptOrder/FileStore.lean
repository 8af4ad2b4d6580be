import ScriptOrder.Lines

/-!
# Stores of files

A store holds the files of a machine under their locations, the names on the
way from the top. A file's name is looked up step by step from the working
folder: each step but the last must lead to a folder. A file that is written is
made anew in its folder, which a locked folder refuses; folders missing on the
way to it are made.
-/

set_option autoImplicit false

namespace ScriptOrder

abbrev Location := List Text

inductive Content where
  | text (t : Text)
  | bytes (bs : List UInt8)
deriving DecidableEq

def Content.text? : Content → Option Text
  | text t => some t
  | bytes _ => none

structure Folder where
  place : Location
  /-- Nothing can be made in it. -/
  locked : Bool
deriving DecidableEq

instance : Coe Location Folder := ⟨fun l => ⟨l, false⟩⟩

structure FileStore where
  files : List (Location × Content)
  /-- Folders besides those that the files stand in, and locked ones. -/
  folders : List Folder
  here : Location

namespace FileStore

/-- Whether the location is on the way to a file, or is a folder or on the way
to one. -/
def isFolder (st : FileStore) (l : Location) : Bool :=
  l.isEmpty || l.isPrefixOf st.here || (st.folders.any fun d => l.isPrefixOf d.place) ||
    st.files.any fun f => l.isPrefixOf f.1 && l.length < f.1.length

def enter (l : Location) (name : Text) : Location :=
  if name = [] ∨ name = ['.'] then l
  else if name = ['.', '.'] then l.dropLast
  else l ++ [name]

def walk (st : FileStore) : Location → List Text → Option Location
  | l, [] => some l
  | l, name :: names =>
    if st.isFolder l then st.walk (enter l name) names else none

def passed : Location → List Text → List Location
  | _, [] => []
  | l, name :: names => l :: passed (enter l name) names

def top (st : FileStore) (name : Text) : Location :=
  if name.head? = some '/' then [] else st.here

def locate? (st : FileStore) (name : Text) : Option Location :=
  if name.isEmpty then none else st.walk (st.top name) (name.splitOn '/')

def at? (st : FileStore) (l : Location) : Option Content :=
  (st.files.find? fun f => f.1 = l).map Prod.snd

def content? (st : FileStore) (name : Text) : Option Content := (st.locate? name).bind st.at?

def text? (st : FileStore) (name : Text) : Option Text :=
  (st.content? name).bind Content.text?

def isFile (st : FileStore) (name : Text) : Bool := (st.content? name).isSome

def isLocked (st : FileStore) (l : Location) : Bool :=
  st.folders.any fun d => d.locked && d.place == l.dropLast

/-- Whether no file can be written under a name that leads somewhere. -/
def refuses (st : FileStore) (name : Text) : Bool := (st.locate? name).any st.isLocked

def makeFolder? (st : FileStore) (l : Location) : Option FileStore :=
  if st.isFolder l then some st
  else if (st.at? l).isSome || st.isLocked l then none
  else some { st with folders := st.folders ++ [(l : Folder)] }

def makeFolders? : FileStore → List Location → Option FileStore
  | st, [] => some st
  | st, l :: ls => (st.makeFolder? l).bind fun st => st.makeFolders? ls

def replace (st : FileStore) (l : Location) (t : Text) : FileStore :=
  { st with files := st.files.map fun f => if f.1 = l then (l, .text t) else f }

def put? (st : FileStore) (l : Location) (t : Text) : Option FileStore :=
  if st.isLocked l then none
  else if (st.at? l).isSome then some (st.replace l t)
  else if st.isFolder l then none
  else some { st with files := st.files ++ [(l, .text t)] }

/-- Writes a file; one that is not there is made, and so are the folders on the
way to it. -/
def write? (st : FileStore) (name : Text) (t : Text) : Option FileStore :=
  (st.makeFolders? (passed (st.top name) (name.splitOn '/'))).bind fun st =>
    (st.locate? name).bind fun l => st.put? l t

end FileStore

end ScriptOrder
