/-
Log filters: which messages of which parts of a program are kept.

A filter is written as directives between commas, each a target with a level, a target alone, or a level alone that
holds for everything else; a later directive for the same target replaces an earlier one. A text with one directive
that cannot be read is no filter at all. The effective filter joins the configured level with the directives of the
environment, and falls back when the joined text, or a part of it, cannot be read.
-/
import CallPlan.Settings
import CallPlan.Text.Alphanumeric
import CallPlan.Text.Blank

namespace CallPlan

inductive LogLevel where
  | off
  | error
  | warn
  | info
  | debug
  | trace
deriving DecidableEq, Repr

namespace LogLevel

/-- the levels from the quietest on, which is the order of their numbers -/
def all : List LogLevel := [.off, .error, .warn, .info, .debug, .trace]

def label : LogLevel → String
  | .off => "off"
  | .error => "error"
  | .warn => "warn"
  | .info => "info"
  | .debug => "debug"
  | .trace => "trace"

/-- a level by its name, in whatever case, or by its number -/
def parse? (cs : List Char) : Option LogLevel :=
  let lower := String.ofList (cs.map Char.toLower)
  match all.find? (·.label == lower) with
  | some level => some level
  | none => (all.zipIdx.find? fun (_, n) => toString n == lower).map (·.1)

end LogLevel

/-! ## Directives -/

/-- the level of each target, and under no target the level of everything else -/
abbrev LogFilter (τ : Type) [BEq τ] := Table (Option τ) LogLevel

/-- how single directives are read: a target, if there is one, and a level -/
abbrev DirectiveReader (τ : Type) := List Char → Option (Option τ × LogLevel)

namespace LogFilter

/-- the characters that a directive may begin with -/
def beginsDirective (c : Char) : Bool := Text.isAlphanumeric c || c == '-' || c == ':' || c == '_'

/-- one directive: its target, if it has one, and its level -/
def readDirective : DirectiveReader String := fun piece =>
  if !piece.head?.any beginsDirective then none
  else
    match piece.dropWhile (· != '=') with
    | [] =>
      match LogLevel.parse? piece with
      | some level => some (none, level)
      | none => some (some (String.ofList piece), .trace)
    | _ :: levelText =>
      let target := some (String.ofList (piece.takeWhile (· != '=')))
      if levelText.isEmpty then some (target, .trace) else (LogLevel.parse? levelText).map (target, ·)

/-- the parts of a text between its commas, empty ones left out -/
def pieces (text : List Char) : List (List Char) := (text.splitOn ',').filter (!·.isEmpty)

/-- the directives of a text, if every one of them can be read -/
def parse? {τ : Type} [BEq τ] (read : DirectiveReader τ) (text : List Char) : Option (LogFilter τ) :=
  ((pieces text).mapM read).map .ofList

/-- the order of targets in the written form: longer ones first, equally long ones in descending order, none last -/
def precedes : Option String → Option String → Bool
  | some a, some b => b.utf8ByteSize < a.utf8ByteSize || (b.utf8ByteSize == a.utf8ByteSize && decide (b ≤ a))
  | _, none => true
  | none, some _ => false

def render (f : LogFilter String) : String :=
  let sorted := f.entries.mergeSort fun a b => precedes a.1 b.1
  String.intercalate "," (sorted.map fun (target, level) => ((target.map (· ++ "=")).getD "") ++ level.label)

/-- the single level that is kept when nothing can be read -/
def infoOnly {τ : Type} [BEq τ] : LogFilter τ := .ofList [(none, .info)]

end LogFilter

/-! ## The effective filter -/

namespace LogSettings

/-- the simple levels in their written form -/
def simpleLevels : List (String × String) :=
  [("trace", "trace"), ("debug", "debug"), ("info", "info"), ("warn", "warn"), ("warning", "warn"), ("error", "error")]

/-- the directives that a configured level stands for: `info` when blank, a simple level in its written form, and
otherwise the text itself without white space around it -/
def directives (level : List Char) : List Char :=
  let trimmed := Text.trimmed level
  if trimmed.isEmpty then "info".toList
  else
    match simpleLevels.lookup (String.ofList (trimmed.map Char.toLower)) with
    | some written => written.toList
    | none => trimmed

section Filter

variable {τ : Type} [BEq τ] (read : DirectiveReader τ)

/-- the filter of a configured level alone -/
def configuredFilter (level : List Char) : LogFilter τ := (LogFilter.parse? read (directives level)).getD .infoOnly

/-- the directives of the environment without white space around them, unless nothing is left of them then -/
def givenDirectives (environment : Option (List Char)) : Option (List Char) :=
  (environment.map Text.trimmed).filter (!·.isEmpty)

/-- the filter of a configured level and the directives of the environment, which count as later ones -/
def effectiveFilter (level : List Char) (environment : Option (List Char)) : LogFilter τ :=
  match givenDirectives environment with
  | none => configuredFilter read level
  | some given =>
    ((LogFilter.parse? read (directives level ++ ',' :: given)) <|> LogFilter.parse? read given).getD
      (configuredFilter read level)

end Filter

/-- the effective filter of these settings -/
def filter (s : LogSettings) (environment : Option String) : LogFilter String :=
  effectiveFilter LogFilter.readDirective s.level.toList (environment.map String.toList)

end LogSettings

end CallPlan
