/-!
# Failed input and output

A fault is what a read, write or open reports when it fails: a kind, by which callers decide what to
do, and a text, which they show.
-/

namespace Wwan

/-- The kinds of fault that callers tell apart. -/
inductive FaultKind where
  | permissionDenied
  | timedOut
  | wouldBlock
  | notFound
  | brokenPipe
  | unexpectedEof
  | interrupted
  | connectionReset
  | invalidData
  | alreadyExists
  | other
  deriving DecidableEq

/-- A failed operation on a stream or file. -/
structure Fault where
  kind : FaultKind
  text : String
  deriving DecidableEq

namespace Fault

def isInterruption (f : Fault) : Bool :=
  f.kind = .interrupted

/-- A path names nothing. -/
def noSuchFile : Fault :=
  ⟨.notFound, "No such file or directory (os error 2)"⟩

/-- A path goes on behind something that is no directory. -/
def notADirectory : Fault :=
  ⟨.other, "Not a directory (os error 20)"⟩

/-- A directory was to be opened for writing. -/
def isADirectory : Fault :=
  ⟨.other, "Is a directory (os error 21)"⟩

/-- Nobody reads what was to be written. -/
def brokenPipe : Fault :=
  ⟨.brokenPipe, "Broken pipe (os error 32)"⟩

/-- A path or a part of it has too many octets. -/
def nameTooLong : Fault :=
  ⟨.other, "File name too long (os error 36)"⟩

/-- A unit has too many octets. -/
def messageTooLong : Fault :=
  ⟨.other, "Message too long (os error 90)"⟩

/-- A device has no room for what was to be written. -/
def noSpace : Fault :=
  ⟨.other, "No space left on device (os error 28)"⟩

/-- A path holds a NUL character. -/
def nulInPath : Fault :=
  ⟨.other, "file name contained an unexpected NUL byte"⟩

end Fault

end Wwan
