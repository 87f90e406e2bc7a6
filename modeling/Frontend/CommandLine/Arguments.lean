import Frontend.Pipeline

/-!
# Command line arguments

    bella [OPTIONS] <FILE>

The arguments are read from left to right, and the first that is wrong decides; so does
a request for help or for the version, if nothing before it was wrong.

* **Options**: `--stage STAGE` or `--stage=STAGE`, `--verbose` or `-v`, `--help` or `-h`,
  `--version` or `-V`.  An option is given once at most.  Options of one letter may share
  a hyphen.
* **File**: the one argument that is no option.  A lone hyphen is one, and behind `--`
  every argument is.  It must not be empty.

The stage of `--stage` may stand in an argument of its own, which is no option then.
-/

namespace Frontend.CommandLine

/-- What a command line asks for. -/
inductive Request where
  /-- To show how the command is used. -/
  | help
  /-- To show the version. -/
  | version
  /-- To show the tree of a file after a stage. -/
  | show (path : String) (stage : Stage)
  /-- Nothing: the command is used in a wrong way. -/
  | misuse
deriving DecidableEq

/-- What the arguments so far have said. -/
structure Settings where
  path? : Option String
  stage? : Option Stage
  verbose : Bool
deriving DecidableEq

namespace Settings

def initial : Settings := ⟨none, none, false⟩

/-- Adds the file; nothing if there is one already or if the name is empty. -/
def addPath? (s : Settings) (path : String) : Option Settings :=
  if s.path?.isSome || path.isEmpty then none else some { s with path? := some path }

/-- Adds the stage; nothing if there is one already or if there is no such stage. -/
def addStage? (s : Settings) (name : String) : Option Settings :=
  if s.stage?.isSome then none
  else (Stage.ofName? name).map fun stage => { s with stage? := some stage }

/-- Adds the wish for more words; nothing if it was there already. -/
def addVerbose? (s : Settings) : Option Settings :=
  if s.verbose then none else some { s with verbose := true }

/-- What all arguments together ask for. -/
def request (s : Settings) : Request :=
  match s.path? with
  | some path => .show path (s.stage?.getD .optimized)
  | none => .misuse

end Settings

/-- What an argument says: the settings after it, or a request that ends the reading. -/
abbrev Reading : Type := Except Request Settings

def orMisuse (settings? : Option Settings) : Reading :=
  match settings? with
  | some settings => .ok settings
  | none => .error .misuse

/-- Reads the letters behind a single hyphen. -/
def readLetters (s : Settings) : List Char → Reading
  | [] => .ok s
  | 'h' :: _ => .error .help
  | 'V' :: _ => .error .version
  | 'v' :: rest =>
    match s.addVerbose? with
    | some s' => readLetters s' rest
    | none => .error .misuse
  | _ :: _ => .error .misuse

/-- Reads a word behind two hyphens, with the text behind an equals sign in it. -/
def readWord (s : Settings) (word : String) (value? : Option String) : Reading :=
  match word, value? with
  | "help", none => .error .help
  | "version", none => .error .version
  | "verbose", none => orMisuse s.addVerbose?
  | "stage", some value => orMisuse (s.addStage? value)
  | _, _ => .error .misuse

/-- A text as the part in front of its first equals sign and the part behind it, if it
has one. -/
def splitValue (text : List Char) : String × Option String :=
  let word := String.ofList (text.takeWhile fun c => c != '=')
  match text.dropWhile fun c => c != '=' with
  | [] => (word, none)
  | _ :: value => (word, some (String.ofList value))

/-- Whether an argument is an option, which begins with a hyphen and does not end there. -/
def isOption (argument : String) : Bool :=
  match argument.toList with
  | '-' :: _ :: _ => true
  | _ => false

/-- Reads the arguments behind `--`. -/
def readFiles (s : Settings) : List String → Reading
  | [] => .ok s
  | argument :: rest =>
    match s.addPath? argument with
    | some s' => readFiles s' rest
    | none => .error .misuse

def readArguments (s : Settings) : List String → Reading
  | [] => .ok s
  | "--" :: rest => readFiles s rest
  | "--stage" :: rest =>
    match rest with
    | [] => .error .misuse
    | value :: rest =>
      if isOption value then .error .misuse
      else
        match s.addStage? value with
        | some s' => readArguments s' rest
        | none => .error .misuse
  | argument :: rest =>
    let this :=
      match argument.toList with
      | '-' :: '-' :: text =>
        let (word, value?) := splitValue text
        readWord s word value?
      | '-' :: letter :: letters => readLetters s (letter :: letters)
      | _ => orMisuse (s.addPath? argument)
    match this with
    | .ok s' => readArguments s' rest
    | .error request => .error request

def Request.ofArguments (arguments : List String) : Request :=
  match readArguments Settings.initial arguments with
  | .ok settings => settings.request
  | .error request => request

end Frontend.CommandLine
