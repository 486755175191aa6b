/-!
# Errors of a host

What the operating system under the client refuses with.
-/

namespace ArmControl

/-- What the operating system of a host refuses with. -/
inductive HostError
  | noSuchFile
  | notDirectory
  | isDirectory
  | invalidArgument
  | brokenPipe
  | nameTooLong
  | addressNotAvailable
  | networkUnreachable
deriving DecidableEq, Repr, Inhabited

namespace HostError

/-- The number of the error. -/
def code : HostError → Nat
  | noSuchFile => 2
  | notDirectory => 20
  | isDirectory => 21
  | invalidArgument => 22
  | brokenPipe => 32
  | nameTooLong => 36
  | addressNotAvailable => 99
  | networkUnreachable => 101

def text : HostError → String
  | noSuchFile => "No such file or directory"
  | notDirectory => "Not a directory"
  | isDirectory => "Is a directory"
  | invalidArgument => "Invalid argument"
  | brokenPipe => "Broken pipe"
  | nameTooLong => "File name too long"
  | addressNotAvailable => "Cannot assign requested address"
  | networkUnreachable => "Network is unreachable"

/-- The class that the error belongs to. -/
def kind : HostError → String
  | noSuchFile => "NotFound"
  | notDirectory => "NotADirectory"
  | isDirectory => "IsADirectory"
  | invalidArgument => "InvalidInput"
  | brokenPipe => "BrokenPipe"
  | nameTooLong => "InvalidFilename"
  | addressNotAvailable => "AddrNotAvailable"
  | networkUnreachable => "NetworkUnreachable"

def message (e : HostError) : String := e.text ++ " (os error " ++ toString e.code ++ ")"

end HostError

/-- Why no path and no address may contain the character with the number zero. -/
def nulMessage : String := "file name contained an unexpected NUL byte"

end ArmControl
