import EntryProbe.Text.Words

/-!
# Notes about the progress of a build

A build leaves notes. Each has a level and comes from a part of the program, and a
filter says which notes are shown. A filter is a list of rules, separated by commas:
a level on its own is for all parts, and `part=level` is for the parts whose name
starts like that. Of the rules for a part, the one with the longest name counts.
-/

namespace EntryProbe.Build

/-- How much a note matters. -/
inductive Level where
  | error
  | warn
  | info
  | debug
  | trace
  deriving Repr, DecidableEq, Inhabited

/-- The place of a level, from what matters most. -/
def Level.rank : Level → Nat
  | .error => 1
  | .warn => 2
  | .info => 3
  | .debug => 4
  | .trace => 5

/-- A level as it stands at the start of a note, five characters wide. -/
def Level.label : Level → String
  | .error => "ERROR"
  | .warn => " WARN"
  | .info => " INFO"
  | .debug => "DEBUG"
  | .trace => "TRACE"

/-- The parts of the program that notes come from. -/
inductive Origin where
  /-- The command as a whole. -/
  | command
  /-- Planning and compiling. -/
  | build
  /-- Giving files their second place. -/
  | process
  /-- Changing a syntax tree. -/
  | instrument
  deriving Repr, DecidableEq, Inhabited

/-- The name by which a filter refers to a part. -/
def Origin.name : Origin → String
  | .command => "goprofile"
  | .build => "goprofile::build"
  | .process => "goprofile::process"
  | .instrument => "goprofile::rewrite"

/-- A note. -/
structure Note where
  /-- How much it matters. -/
  level : Level
  /-- Where it comes from. -/
  origin : Origin
  /-- What it says. -/
  text : String
  deriving Repr, DecidableEq, Inhabited

/-- A note as it is shown. -/
def Note.line (note : Note) : String :=
  note.level.label ++ " " ++ note.text

/-! ### Filters -/

/-- A rule of a filter: the notes of the parts whose name starts with `target` are
shown down to a level, or not at all. -/
structure Rule where
  /-- What the name of a part starts with. -/
  target : String
  /-- The last level that is shown. -/
  limit : Option Level
  deriving Repr, DecidableEq, Inhabited

/-- The rule is for a part. -/
def Rule.covers (rule : Rule) (origin : Origin) : Bool :=
  rule.target.toList.isPrefixOf origin.name.toList

/-- A filter. -/
abbrev Filter := List Rule

/-- Of two rules for the same part, the one that counts. -/
def Rule.closer : Option Rule → Rule → Option Rule
  | none, rule => some rule
  | some best, rule => if best.target.length ≤ rule.target.length then some rule else some best

/-- A filter shows a note. -/
def Filter.shows (filter : Filter) (note : Note) : Bool :=
  match (filter.filter fun rule => rule.covers note.origin).foldl Rule.closer none with
  | some ⟨_, some limit⟩ => note.level.rank ≤ limit.rank
  | _ => false

/-- Reads the limit of a rule: the name of a level in any case, or a number. -/
def limitOf? (text : String) : Option (Option Level) :=
  match String.ofList (text.toList.map Char.toLower) with
  | "off" | "0" => some none
  | "error" | "1" => some (some .error)
  | "warn" | "2" => some (some .warn)
  | "info" | "3" => some (some .info)
  | "debug" | "4" => some (some .debug)
  | "trace" | "5" => some (some .trace)
  | _ => none

/-- The text can be the start of the name of a part. -/
def isTarget (text : List Char) : Bool :=
  !text.isEmpty && text.all fun c => isWordContinue c || c == ':' || c == '-'

/-- Reads a rule. A part without a level is shown in full. -/
def ruleOf? (text : List Char) : Option Rule :=
  let target := text.takeWhile fun c => c != '='
  match text.dropWhile fun c => c != '=' with
  | [] =>
    match limitOf? (String.ofList text) with
    | some limit => some ⟨"", limit⟩
    | none => if isTarget text then some ⟨String.ofList text, some .trace⟩ else none
  | _ :: level =>
    if !isTarget target then none
    else if level.isEmpty then some ⟨String.ofList target, some .trace⟩
    else (limitOf? (String.ofList level)).map fun limit => ⟨String.ofList target, limit⟩

/-- The parts of a text between commas that are not empty. -/
def commaParts (text : List Char) : List (List Char) :=
  (text.splitOn ',').filter fun part => !part.isEmpty

/-- Reads a filter. The empty text shows errors only. -/
def filterOf? (text : String) : Option Filter :=
  match commaParts text.toList with
  | [] => some [⟨"", some .error⟩]
  | parts => parts.mapM ruleOf?

/-- **The filter of a run:** the one that was asked for, if it can be read, and else
one for everything that goes down to warnings, or to progress if that is wanted. -/
def Filter.choose (asked : Option String) (verbose : Bool) : Filter :=
  match asked.bind filterOf? with
  | some filter => filter
  | none => [⟨"", some (if verbose then .info else .warn)⟩]

end EntryProbe.Build
