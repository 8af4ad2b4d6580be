import ScriptOrder.Session

/-!
# The command

Reads the files that the arguments can name, runs the session on them and
writes what it changed. Where that is refused, the folder counts as locked.
-/

set_option autoImplicit false

namespace ScriptOrder.Main

def contentOf (bytes : ByteArray) : Content :=
  match String.fromUTF8? bytes with
  | some s => .text s.toList
  | none => .bytes bytes.toList

def pathOf (l : Location) : String := "/" ++ "/".intercalate (l.map String.ofList)

def namesOf (asked : Asked) (home : Option Text) : List Text :=
  match asked with
  | .run r =>
    Session.localSettings :: r.config.toList ++ (home.map Session.userSettings).toList ++ r.inputs
  | _ => []

def isFolder (l : Location) : IO Bool := do
  ((← IO.currentDir) / pathOf l).isDir

def readContent (l : Location) : IO (Option Content) :=
  try
    return some (contentOf (← IO.FS.readBinFile (pathOf l)))
  catch _ =>
    return none

def readStore (here : Location) (names : List Text) : IO FileStore := do
  let none : FileStore := ⟨[], [], here⟩
  let passed := names.flatMap fun name => FileStore.passed (none.top name) (name.splitOn '/')
  let folders : List Folder := (← passed.eraseDups.filterM isFolder).map fun l => ⟨l, false⟩
  let empty : FileStore := ⟨[], folders, here⟩
  let files ← (names.filterMap empty.locate?).eraseDups.filterMapM fun l => do
    return (← readContent l).map fun c => (l, c)
  return ⟨files, folders, here⟩

partial def readAll (input : IO.FS.Stream) (bytes : ByteArray) : IO ByteArray := do
  let more ← input.read 65536
  if more.isEmpty then return bytes
  readAll input (bytes ++ more)

/-- Writes the files that differ, up to the first that cannot be written. -/
def writeChanges (before after : FileStore) : IO (Option Location) := do
  for (l, c) in after.files do
    if before.at? l != some c then
      if let .text t := c then
        try IO.FS.writeFile (pathOf l) (String.ofList t)
        catch _ => return some l
  return none

end ScriptOrder.Main

open ScriptOrder in
def main (args : List String) : IO UInt32 := do
  let args := args.map String.toList
  let asked := Request.ofArguments args
  let here := ((← IO.currentDir).toString.toList.splitOn '/').filter (· != [])
  let home := (← IO.getEnv "HOME").map String.toList
  let files ← Main.readStore here (Main.namesOf asked home)
  let stdin ←
    if args.contains ['-'] then Main.readAll (← IO.getStdin) .empty else pure .empty
  let colored ← (← IO.getStdout).isTty
  let session (files : FileStore) :=
    Session.run ⟨files, Main.contentOf stdin, home, colored⟩ args
  let outcome ← match ← Main.writeChanges files (session files).files with
    | none => pure (session files)
    | some l => pure (session { files with folders := ⟨l.dropLast, true⟩ :: files.folders })
  IO.print (String.ofList outcome.stdout)
  IO.eprint (String.ofList outcome.stderr)
  return outcome.code.toUInt32
