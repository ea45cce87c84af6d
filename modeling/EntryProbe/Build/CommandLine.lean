import EntryProbe.Path

/-!
# The command line

The arguments of the command are read from the left. An option is written out
(`--output=x`, `--output x`) or as a letter (`-ox`, `-o=x`, `-o x`), and letters can
stand together (`-vo x`). Everything else is an input, and so is everything after
`--`. Each option is given at most once.

The first request for help or for the version, and the first mistake, end the
reading.
-/

namespace EntryProbe.Build

/-- What the command is asked to do. -/
structure Options where
  /-- The path of the program that is built. -/
  output : Option Path
  /-- The file that the program writes its profile to. -/
  profile : Option String
  /-- Change the source files where they are. -/
  inPlace : Bool
  /-- Say what is being done. -/
  verbose : Bool
  /-- Name the work directory, and keep it. -/
  keepWork : Bool
  /-- Arguments for the compiler, as one text. -/
  buildFlags : Option String
  /-- Files or a package. -/
  inputs : List Path
  deriving Repr, DecidableEq, Inhabited

/-- The options of a command without arguments. -/
def Options.initial : Options where
  output := none
  profile := none
  inPlace := false
  verbose := false
  keepWork := false
  buildFlags := none
  inputs := []

/-- What a command line asks for. -/
inductive Invocation where
  /-- An explanation of the command. -/
  | help
  /-- The version of the command. -/
  | version
  /-- Something that cannot be understood. -/
  | misuse
  /-- A build. -/
  | build (options : Options)
  deriving Repr, DecidableEq, Inhabited

/-- Options that are given or not. -/
inductive Flag where
  | inPlace
  | verbose
  | keepWork
  deriving Repr, DecidableEq, Inhabited

/-- Options that have a value. -/
inductive Setting where
  | output
  | profile
  | buildFlags
  deriving Repr, DecidableEq, Inhabited

/-- What an option is for. -/
inductive Switch where
  | help
  | version
  | flag (flag : Flag)
  | setting (setting : Setting)
  deriving Repr, DecidableEq, Inhabited

/-- The option with a name. -/
def Switch.ofName? : String → Option Switch
  | "help" => some .help
  | "version" => some .version
  | "inplace" => some (.flag .inPlace)
  | "verbose" => some (.flag .verbose)
  | "work" => some (.flag .keepWork)
  | "output" => some (.setting .output)
  | "profile" => some (.setting .profile)
  | "buildflags" => some (.setting .buildFlags)
  | _ => none

/-- The option with a letter. -/
def Switch.ofLetter? : Char → Option Switch
  | 'h' => some .help
  | 'V' => some .version
  | 'v' => some (.flag .verbose)
  | 'o' => some (.setting .output)
  | 'p' => some (.setting .profile)
  | _ => none

/-- Turns a flag on, if it is not on yet. -/
def Options.raise? (options : Options) : Flag → Option Options
  | .inPlace => if options.inPlace then none else some { options with inPlace := true }
  | .verbose => if options.verbose then none else some { options with verbose := true }
  | .keepWork => if options.keepWork then none else some { options with keepWork := true }

/-- Gives an option its value, if it has none yet. A path is not empty. -/
def Options.assign? (options : Options) (setting : Setting) (value : String) : Option Options :=
  match setting with
  | .output =>
    if options.output.isSome || value.isEmpty then none
    else some { options with output := some ⟨value⟩ }
  | .profile =>
    if options.profile.isSome then none else some { options with profile := some value }
  | .buildFlags =>
    if options.buildFlags.isSome then none else some { options with buildFlags := some value }

/-- Adds an input. -/
def Options.addInput? (options : Options) (input : String) : Option Options :=
  if input.isEmpty then none
  else some { options with inputs := options.inputs ++ [⟨input⟩] }

/-- A text that is an option by its look, and so is no value that stands on its own. -/
def looksLikeOption (text : String) : Bool :=
  text.toList.head? == some '-' && text != "-"

/-- An option takes a text that stands on its own as its value. Only the arguments for
the compiler may look like options. -/
def Setting.takes (setting : Setting) (value : String) : Bool :=
  setting == .buildFlags || !looksLikeOption value

/-- How far an argument brings the reading. -/
inductive Progress where
  /-- The argument is read. -/
  | next (options : Options)
  /-- The value of an option comes with the next argument. -/
  | awaiting (options : Options) (setting : Setting)
  /-- The reading is over. -/
  | stop (invocation : Invocation)
  deriving Repr, DecidableEq, Inhabited

/-- Options after a change that can be a mistake. -/
def Progress.ofOptions? : Option Options → Progress
  | some options => .next options
  | none => .stop .misuse

/-- Reads an option that is written out, with the value after an equals sign. -/
def readLong (options : Options) (name : String) (value : Option String) : Progress :=
  match Switch.ofName? name, value with
  | some (.setting setting), some text => .ofOptions? (options.assign? setting text)
  | some (.setting setting), none => .awaiting options setting
  | some (.flag flag), none => .ofOptions? (options.raise? flag)
  | some .help, none => .stop .help
  | some .version, none => .stop .version
  | _, _ => .stop .misuse

/-- Reads letters that stand together. -/
def readLetters : Options → List Char → Progress
  | options, [] => .next options
  | options, letter :: rest =>
    match Switch.ofLetter? letter with
    | some .help => .stop .help
    | some .version => .stop .version
    | some (.flag flag) =>
      match options.raise? flag with
      | some options => readLetters options rest
      | none => .stop .misuse
    | some (.setting setting) =>
      match rest with
      | [] => .awaiting options setting
      | '=' :: value => .ofOptions? (options.assign? setting (String.ofList value))
      | value => .ofOptions? (options.assign? setting (String.ofList value))
    | none => .stop .misuse

/-- Reads an argument that is not a value. -/
def readArgument (options : Options) (argument : String) : Progress :=
  match argument.toList with
  | '-' :: '-' :: rest =>
    let name := String.ofList (rest.takeWhile fun c => c != '=')
    match rest.dropWhile fun c => c != '=' with
    | [] => readLong options name none
    | _ :: value => readLong options name (some (String.ofList value))
  | '-' :: letter :: rest => readLetters options (letter :: rest)
  | _ => .ofOptions? (options.addInput? argument)

/-- Reads arguments that are all inputs. -/
def readInputs : Options → List String → Invocation
  | options, [] => .build options
  | options, input :: rest =>
    match options.addInput? input with
    | some options => readInputs options rest
    | none => .misuse

/-- Reads arguments, the first of which can be the value of an option. -/
def readArguments : Options → Option Setting → List String → Invocation
  | options, none, [] => .build options
  | _, some _, [] => .misuse
  | options, some setting, value :: rest =>
    if setting.takes value then
      match options.assign? setting value with
      | some options => readArguments options none rest
      | none => .misuse
    else
      .misuse
  | options, none, argument :: rest =>
    if argument = "--" then
      readInputs options rest
    else
      match readArgument options argument with
      | .next options => readArguments options none rest
      | .awaiting options setting => readArguments options (some setting) rest
      | .stop invocation => invocation

/-- **What a command line asks for.** -/
def Invocation.read (arguments : List String) : Invocation :=
  readArguments .initial none arguments

/-- The explanation of the command. -/
def helpText : String := String.intercalate "\n"
  ["Compile Go files or a package into a binary that writes a CPU profile",
   "",
   "Usage: goprofile [OPTIONS] [FILES|PACKAGE]...",
   "",
   "Arguments:",
   "  [FILES|PACKAGE]...  Source files or a package. Defaults to the current directory",
   "",
   "Options:",
   "  -o, --output <PATH>       Path to the instrumented output binary (default: <name>.profile)",
   "  -p, --profile <PATH>      Path the instrumented program writes its profile to (default: " ++
     "<name>.pprof)",
   "      --inplace             Instrument the source files in place. DANGER: this overwrites " ++
     "them. Only use it under version control",
   "  -v, --verbose             Print progress",
   "      --work                Print the name of the temporary work directory and keep it",
   "      --buildflags <FLAGS>  Arguments passed on to 'go build' [default: \"\"]",
   "  -h, --help                Print help",
   "  -V, --version             Print version",
   "",
   "Rule of thumb: 'go build' + profiling instrumentation = goprofile.",
   "",
   "Example: goprofile myprogram.go && ./myprogram.profile && go tool pprof " ++
     "myprogram.profile myprogram.pprof"]

/-- The name and the version of the command. -/
def versionText : String := "goprofile 0.1.0"

end EntryProbe.Build
