namespace Grapnel

/-- Refusals of the operating system, by their codes. -/
inductive Errno where
  | noEntry
  | noProcess
  | inputOutput
  | noDevice
  | outOfMemory
  | noAccess
  | badAddress
  | alreadyThere
  | notDirectory
  | isDirectory
  | invalid
  | noSpace
  | nameTooLong
  | notEmpty
  | loop
  | addressInUse
  | refused
deriving DecidableEq, Inhabited

namespace Errno

def code : Errno → Nat
  | .noEntry => 2
  | .noProcess => 3
  | .inputOutput => 5
  | .noDevice => 6
  | .outOfMemory => 12
  | .noAccess => 13
  | .badAddress => 14
  | .alreadyThere => 17
  | .notDirectory => 20
  | .isDirectory => 21
  | .invalid => 22
  | .noSpace => 28
  | .nameTooLong => 36
  | .notEmpty => 39
  | .loop => 40
  | .addressInUse => 98
  | .refused => 111

def description : Errno → String
  | .noEntry => "No such file or directory"
  | .noProcess => "No such process"
  | .inputOutput => "Input/output error"
  | .noDevice => "No such device or address"
  | .outOfMemory => "Cannot allocate memory"
  | .noAccess => "Permission denied"
  | .badAddress => "Bad address"
  | .alreadyThere => "File exists"
  | .notDirectory => "Not a directory"
  | .isDirectory => "Is a directory"
  | .invalid => "Invalid argument"
  | .noSpace => "No space left on device"
  | .nameTooLong => "File name too long"
  | .notEmpty => "Directory not empty"
  | .loop => "Too many levels of symbolic links"
  | .addressInUse => "Address already in use"
  | .refused => "Connection refused"

end Errno

inductive IoFault where
  | system (e : Errno)
  | nulInName
  | nulInSocketPath
  | socketPathTooLong
  | notText
  | notSocket
  | permissionDenied
  | entityNotFound
deriving DecidableEq, Inhabited

namespace IoFault

def message : IoFault → String
  | .system e => e.description ++ " (os error " ++ toString e.code ++ ")"
  | .nulInName => "file name contained an unexpected NUL byte"
  | .nulInSocketPath => "paths must not contain interior null bytes"
  | .socketPathTooLong => "path must be shorter than SUN_LEN"
  | .notText => "stream did not contain valid UTF-8"
  | .notSocket => "path exists and is not a socket"
  | .permissionDenied => "permission denied"
  | .entityNotFound => "entity not found"

end IoFault

end Grapnel
