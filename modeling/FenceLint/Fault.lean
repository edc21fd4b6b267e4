/-!
Faults of the operating system: a numbered error of a system call, or a condition described in
words. Numbered errors are worded as Linux words them.
-/

set_option autoImplicit false

namespace FenceLint

/-- The kinds of fault that are told apart. -/
inductive Fault.Kind
  | notFound | permissionDenied | invalidData | other
  deriving DecidableEq, Repr

/-- Why a file operation failed. -/
inductive Fault
  /-- The error with this number. -/
  | system (number : Nat)
  /-- A fault in words. -/
  | described (kind : Fault.Kind) (text : String)
  deriving DecidableEq, Repr

namespace Fault

/-- What each numbered error is called. -/
def wording : List (Nat × String) :=
  [(1, "Operation not permitted"), (2, "No such file or directory"), (3, "No such process"),
    (4, "Interrupted system call"), (5, "Input/output error"), (6, "No such device or address"),
    (7, "Argument list too long"), (8, "Exec format error"), (9, "Bad file descriptor"),
    (10, "No child processes"), (11, "Resource temporarily unavailable"),
    (12, "Cannot allocate memory"), (13, "Permission denied"), (14, "Bad address"),
    (16, "Device or resource busy"), (17, "File exists"), (18, "Invalid cross-device link"),
    (19, "No such device"), (20, "Not a directory"), (21, "Is a directory"),
    (22, "Invalid argument"), (23, "Too many open files in system"), (24, "Too many open files"),
    (26, "Text file busy"), (27, "File too large"), (28, "No space left on device"),
    (29, "Illegal seek"), (30, "Read-only file system"), (31, "Too many links"),
    (32, "Broken pipe"), (36, "File name too long"), (39, "Directory not empty"),
    (40, "Too many levels of symbolic links")]

/-- What a numbered error is called; a number that is not in use has no name of its own. -/
def nameOf (n : Nat) : String := (wording.lookup n).getD s!"Unknown error {n}"

/-- The fault in words, a numbered one with its number. -/
def text : Fault → String
  | system n => s!"{nameOf n} (os error {n})"
  | described _ words => words

/-- The kind of a fault. -/
def kind : Fault → Kind
  | system 1 => .permissionDenied
  | system 2 => .notFound
  | system 13 => .permissionDenied
  | system _ => .other
  | described k _ => k

/-- Nothing has this name. -/
def absent : Fault := .system 2
/-- A name was looked up in something that is no directory. -/
def notDirectory : Fault := .system 20
/-- A directory was read as a file. -/
def isDirectory : Fault := .system 21
/-- A name is longer than names may be. -/
def nameTooLong : Fault := .system 36
/-- Too many links on the way. -/
def linkLoop : Fault := .system 40
/-- The program may not be run. -/
def notPermitted : Fault := .system 13
/-- Nobody reads what is written. -/
def brokenPipe : Fault := .system 32
/-- The bytes of a file are no text. -/
def notText : Fault := .described .invalidData "stream did not contain valid UTF-8"
/-- A path holds a NUL character. -/
def nulInPath : Fault :=
  .described .other "file name contained an unexpected NUL byte"

end Fault

end FenceLint
