/-! Why a file operation fails, in the words the operating system uses, or in the words of the
library that refuses a path before the system sees it. -/
namespace ChaseProse.Files

inductive Errno where
  | notFound
  | isDirectory
  | alreadyExists
  | notDirectory
  | busy
  | nameTooLong
  | invalidArgument
  /-- A path holding a NUL byte, refused by the standard library before any system call. -/
  | nulInPath
  | noSpace
  | ioError
  | quotaExceeded
  | fileTooLarge
  deriving DecidableEq, Repr

def Errno.message : Errno → String
  | .notFound => "No such file or directory (os error 2)"
  | .isDirectory => "Is a directory (os error 21)"
  | .alreadyExists => "File exists (os error 17)"
  | .notDirectory => "Not a directory (os error 20)"
  | .busy => "Device or resource busy (os error 16)"
  | .nameTooLong => "File name too long (os error 36)"
  | .invalidArgument => "Invalid argument (os error 22)"
  | .nulInPath => "file name contained an unexpected NUL byte"
  | .noSpace => "No space left on device (os error 28)"
  | .ioError => "Input/output error (os error 5)"
  | .quotaExceeded => "Disk quota exceeded (os error 122)"
  | .fileTooLarge => "File too large (os error 27)"

/-- A character as a quoted path shows it: quotes and backslashes escaped, line breaks, tabs and
other control characters as escapes. -/
def escapeChar (c : Char) : String :=
  match c with
  | '"' => "\\\""
  | '\\' => "\\\\"
  | '\n' => "\\n"
  | '\r' => "\\r"
  | '\t' => "\\t"
  | '\x00' => "\\0"
  | c =>
    if c.toNat < 0x20 || c.toNat == 0x7f then
      "\\u" ++ "\x7b" ++ String.ofList (Nat.toDigits 16 c.toNat) ++ "\x7d"
    else String.singleton c

/-- A path in double quotes, escaped. -/
def quotedPath (p : String) : String := "\"" ++ String.join (p.toList.map escapeChar) ++ "\""

/-- A failed operation; creating a temporary file also names the path it tried. -/
structure Fault where
  errno : Errno
  tempPath : Option String := none
  deriving DecidableEq, Repr

def Fault.message (f : Fault) : String :=
  f.errno.message ++
    match f.tempPath with
    | some p => " at path " ++ quotedPath p
    | none => ""

end ChaseProse.Files
