/-!
# Failures of the file system
-/

namespace ScriptCache

inductive IoError where
  | notFound
  | exists
  | notDirectory
  | isDirectory
  | busy
  | notEmpty
  | nameTooLong
  | tooManyLinks
  /-- A path with a zero character names nothing. -/
  | zeroInPath
  /-- No directory on a path could be made. -/
  | noTree
  /-- The content of a file is not UTF-8, where text was asked for. -/
  | notText
  deriving DecidableEq, Repr

namespace IoError

def message : IoError → String
  | .notFound => "No such file or directory (os error 2)"
  | .exists => "File exists (os error 17)"
  | .notDirectory => "Not a directory (os error 20)"
  | .isDirectory => "Is a directory (os error 21)"
  | .busy => "Device or resource busy (os error 16)"
  | .notEmpty => "Directory not empty (os error 39)"
  | .nameTooLong => "File name too long (os error 36)"
  | .tooManyLinks => "Too many levels of symbolic links (os error 40)"
  | .zeroInPath => "file name contained an unexpected NUL byte"
  | .noTree => "failed to create whole tree"
  | .notText => "stream did not contain valid UTF-8"

end IoError

end ScriptCache
