import Wwan.Bytes
import Wwan.Device.Error

/-!
# Finding devices

A device is named by its path in a tree of files.  A path is followed step by step; what it leads to
can be opened for reading and writing unless it is a directory.
-/

namespace Wwan

/-- A tree of files; `D` tells the devices apart. -/
inductive FileTree (D : Type) where
  | device (d : D)
  | directory (entries : List (String × FileTree D))

namespace FileTree

variable {D : Type}

/-- The number of octets that a step of a path can have. -/
def stepLimit : Nat := 255

/-- The number of octets that a path can have. -/
def pathLimit : Nat := 4095

/-- Follows the steps of a path from a place whose ancestors are given, the nearest first.  The steps
`.` and the empty one stay, `..` goes back; the root is its own ancestor. -/
def follow (ancestors : List (FileTree D)) : FileTree D → List String → Except Fault (FileTree D)
  | t, [] => .ok t
  | device _, _ :: _ => .error .notADirectory
  | directory entries, step :: steps =>
    if step = "" ∨ step = "." then follow ancestors (directory entries) steps
    else if step = ".." then
      match ancestors with
      | [] => follow [] (directory entries) steps
      | t :: rest => follow rest t steps
    else if stepLimit < step.utf8ByteSize then .error .nameTooLong
    else
      match entries.lookup step with
      | none => .error .noSuchFile
      | some t => follow (directory entries :: ancestors) t steps
termination_by _ steps => steps.length

/-- What a path leads to.  One that does not start at the root starts in an empty directory there. -/
def resolve (path : String) (root : FileTree D) : Except Fault (FileTree D) :=
  if path.toList.contains (Char.ofNat 0) then .error .nulInPath
  else if path = "" then .error .noSuchFile
  else if pathLimit < path.utf8ByteSize then .error .nameTooLong
  else match path.splitOn "/" with
    | "" :: steps => follow [] root steps
    | steps => follow [root] (directory []) steps

/-- Opens the device at a path. -/
def openDevice (path : String) (root : FileTree D) : Except DeviceError D :=
  match root.resolve path with
  | .error f => .error (.notOpened path f)
  | .ok (directory _) => .error (.notOpened path .isADirectory)
  | .ok (device d) => .ok d

end FileTree

end Wwan
