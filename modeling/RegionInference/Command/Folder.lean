import RegionInference.Command.Path
import RegionInference.NameMap

/-!
# Files

What a command finds under a path. Files are read as texts in which every line ends with a line
feed, however its end is written. A folder that is wholly known, with its files, answers for the
paths that start in it.
-/

namespace RegionInference.Command

/-- What is found under a path. -/
inductive FileState where
  /-- A file with that text. -/
  | text (contents : String)
  /-- Nothing. -/
  | absent
  /-- A folder. -/
  | folder
  /-- Nothing, because a file stands where the path needs a folder. -/
  | blocked
  /-- Nothing, because the path or a name in it is longer than a path or a name can be. -/
  | tooLong
deriving DecidableEq

/-- Ends every line with a line feed alone. -/
def unifyLineEnds : List Char → List Char
  | [] => []
  | '\r' :: '\n' :: cs => '\n' :: unifyLineEnds cs
  | c :: cs => (if c = '\r' then '\n' else c) :: unifyLineEnds cs

/-- The files of a folder, by the bytes of their paths in it. -/
structure Folder where
  /-- The files. -/
  files : NameMap String

/-- Why a file cannot be put into a folder. -/
inductive Unstorable where
  /-- Its path or its text cannot be written as bytes. -/
  | unwritable
  /-- Its path holds the character zero. -/
  | zero
  /-- Its path leads to a folder. -/
  | folder
  /-- A name in its path is too long. -/
  | tooLong
deriving DecidableEq

namespace Folder

/-- The longest name, in bytes. -/
def maxNameBytes : Nat := 255

/-- The longest path, in bytes. -/
def maxPathBytes : Nat := 4095

/-- The path of a file in the folder without steps that lead nowhere, both as bytes. -/
def plainPath (path : String) : String :=
  "/".intercalate <| (path.splitOn "/").foldl (fun here step =>
    if step == "" || step == "." then here
    else if step == ".." then here.dropLast
    else here ++ [step]) []

/-- Checks that there can be a file with a path and a text. -/
def checkFile (path contents : String) : Except Unstorable Unit := do
  let place := plainPath (encodePath path)
  if (Unwritable.find? isByteHalf path).isSome then throw .unwritable
  if path.toList.contains '\x00' then throw .zero
  if place.isEmpty then throw .folder
  if (place.splitOn "/").any (maxNameBytes < ·.length) then throw .tooLong
  if (Unwritable.find? (fun _ => false) contents).isSome then throw .unwritable

/-- The folder with some files. -/
def ofList (files : List (String × String)) : Except Unstorable Folder := do
  let files ← files.mapM fun (path, contents) => do
    checkFile path contents
    return (plainPath (encodePath path), contents)
  return ⟨.ofList files⟩

/-- The folder in which the folder lies, by its path from the root. -/
def parent : List String := ["tmp"]

/-- The folders outside that every system has, by their paths from the root. -/
def systemFolders : List (List String) :=
  [["bin"], ["dev"], ["etc"], ["lib"], ["opt"], ["proc"], ["sys"], ["tmp"], ["usr"], ["usr", "bin"],
    ["usr", "lib"], ["var"], ["var", "tmp"]]

/-- The path from the root of the file outside that is always there and always empty. -/
def nullDevice : List String := ["dev", "null"]

/-- What is found at the end of some steps outside of the folder, from the folder whose path from
the root is `here`. -/
def followOutside (here : List String) : List String → FileState
  | [] => .folder
  | step :: steps =>
    if step == "" || step == "." then followOutside here steps
    else if step == ".." then followOutside here.dropLast steps
    else if maxNameBytes < step.length then .tooLong
    else
      let path := here ++ [step]
      if path = nullDevice then if steps.isEmpty then .text "" else .blocked
      else if path ∈ systemFolders then followOutside path steps
      else .absent

/-- What is found at the end of some steps, from the folder whose path is `here`. -/
def follow (folder : Folder) (here : List String) : List String → FileState
  | [] => .folder
  | step :: steps =>
    if step == "" || step == "." then folder.follow here steps
    else if step == ".." then
      if here.isEmpty then followOutside parent steps else folder.follow here.dropLast steps
    else if maxNameBytes < step.length then .tooLong
    else
      let path := "/".intercalate (here ++ [step])
      match folder.files.get? path with
      | some contents => if steps.isEmpty then .text contents else .blocked
      | none =>
        if folder.files.keys.any ((path ++ "/").toList.isPrefixOf ·.toList) then
          folder.follow (here ++ [step]) steps
        else .absent

/-- What is found under a path. -/
def find (folder : Folder) (path : String) : FileState :=
  let path := encodePath path
  let steps := path.splitOn "/"
  if path.isEmpty then .absent
  else if maxPathBytes < path.length then .tooLong
  else if path.toList.head? == some '/' then followOutside [] steps
  else folder.follow [] steps

end Folder

end RegionInference.Command
