/-!
# Reading a file

What there is to be read at a path, in a working directory that is given by the files in
it and below it.

A path is followed one component at a time.  An empty component and `.` stay in place,
`..` goes to the directory around; each of them, like a further component, needs a
directory to start from.  What lies outside of the working directory is not known: it
has directories and no files.  The system bounds the length of a whole path, which is
looked at first, and of each name in it, which is looked at when the path gets there.
-/

namespace Frontend.CommandLine

/-- Why a file cannot be read. -/
inductive ReadFault where
  | missing
  | isDirectory
  | notDirectory
  /-- The path, or a name in it, has more bytes than the system allows. -/
  | nameTooLong
  /-- The bytes of the file are no text. -/
  | notText
deriving DecidableEq

def ReadFault.message : ReadFault → String
  | missing => "No such file or directory (os error 2)"
  | isDirectory => "Is a directory (os error 21)"
  | notDirectory => "Not a directory (os error 20)"
  | nameTooLong => "File name too long (os error 36)"
  | notText => "stream did not contain valid UTF-8"

/-- The text that bytes are. -/
def decode (bytes : ByteArray) : Except ReadFault String :=
  match String.fromUTF8? bytes with
  | some text => .ok text
  | none => .error .notText

/-- The components of a path, including empty ones. -/
def components (path : String) : List String := path.splitOn "/"

/-- The most bytes that a name in a path may have. -/
def nameLimit : Nat := 255

/-- The most bytes that a path may have. -/
def pathLimit : Nat := 4095

/-- The last component of a path that names something, or the whole path if that is
none. -/
def fileName (path : String) : String :=
  match ((components path).filter fun c => c != "" && c != ".").getLast? with
  | none => path
  | some name => if name == ".." then path else name

/-- A working directory, by the files in it and below it: the components of their paths,
and their bytes. -/
structure Directory where
  files : List (List String × ByteArray)

namespace Directory

/-- The directory of the files at the given paths. -/
def ofFiles (files : List (String × ByteArray)) : Directory :=
  ⟨files.map fun file =>
    ((components file.1).filter fun c => c != "" && c != ".", file.2)⟩

/-- A place in the tree of directories. -/
inductive Place where
  /-- The directory below the working directory that its components lead to. -/
  | within (route : List String)
  /-- A directory outside of the working directory. -/
  | outside

def isDirectory (d : Directory) (route : List String) : Bool :=
  route.isEmpty || d.files.any fun file => route.isPrefixOf file.1 && route != file.1

def bytes? (d : Directory) (route : List String) : Option ByteArray :=
  d.files.lookup route

/-- Follows the components of a path from a directory on. -/
def follow (d : Directory) (place : Place) : List String → Except ReadFault ByteArray
  | [] => .error .isDirectory
  | "" :: rest => follow d place rest
  | "." :: rest => follow d place rest
  | ".." :: rest =>
    match place with
    | .within [] => follow d .outside rest
    | .within route => follow d (.within route.dropLast) rest
    | .outside => follow d .outside rest
  | name :: rest =>
    if nameLimit < name.utf8ByteSize then .error .nameTooLong
    else
      match place with
      | .outside => .error .missing
      | .within route =>
        let route := route ++ [name]
        if d.isDirectory route then follow d (.within route) rest
        else
          match d.bytes? route with
          | none => .error .missing
          | some bytes => if rest.isEmpty then .ok bytes else .error .notDirectory

/-- The bytes of the file at a path.  A path that begins with a slash starts outside of
the working directory. -/
def read (d : Directory) (path : String) : Except ReadFault ByteArray :=
  if pathLimit < path.utf8ByteSize then .error .nameTooLong
  else
    match components path with
    | "" :: rest => d.follow .outside rest
    | route => d.follow (.within []) route

end Directory

end Frontend.CommandLine
