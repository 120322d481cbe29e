/-!
# Storage errors

What can go wrong when files and streams are opened, read or written, with the text of each cause.
-/

namespace HardSector

/-- Why an operation on a file or a stream failed. -/
inductive StorageError where
  | notFound
  | notDirectory
  | isDirectory
  | nameTooLong
  | invalidOffset
  | nulInPath
  | notText
  | nothingWritten
  | beyondReach
  | fault (text : String)
  | interrupted (text : String)
deriving DecidableEq, Repr

namespace StorageError

/-- The text of a storage error. -/
def message : StorageError → String
  | notFound => "No such file or directory (os error 2)"
  | notDirectory => "Not a directory (os error 20)"
  | isDirectory => "Is a directory (os error 21)"
  | nameTooLong => "File name too long (os error 36)"
  | invalidOffset => "Invalid argument (os error 22)"
  | nulInPath => "file name contained an unexpected NUL byte"
  | notText => "stream did not contain valid UTF-8"
  | nothingWritten => "failed to write whole buffer"
  | beyondReach => "stream limit"
  | fault text => text
  | interrupted text => text

end StorageError

/-- Why an operation on a disk failed. -/
inductive DiskError where
  | invalidDrive (drive : Nat)
  | imageExists (path : String)
  | storage (cause : StorageError)
deriving DecidableEq, Repr

namespace DiskError

/-- The text of a disk error. -/
def message : DiskError → String
  | invalidDrive drive => s!"Invalid drive number: {drive}"
  | imageExists path => s!"Disk image already exists: {path}"
  | storage cause => s!"Disk image I/O error: {cause.message}"

end DiskError

end HardSector
