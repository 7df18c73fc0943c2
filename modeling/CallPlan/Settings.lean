/-
Settings of a build: how bridges are treated, how auxiliary types are named, and what is logged.

Settings are written in TOML, in three sections that may be left out, with keys that may be left out. A section is a
table, or an array that lists the values of its keys in order. Decoding goes through a document in the order it was
written and reports the first fault; a key is refused before its value is looked at. The suffix of auxiliary types is
checked last.
-/
import CallPlan.Bridge
import CallPlan.Registry
import CallPlan.Text.Quoted
import CallPlan.Toml.Document

namespace CallPlan

/-! ## Settings and their faults -/

structure BridgeSettings where
  /-- whether bridges are resolved before super calls are planned -/
  resolve : Bool := true
  conflictPolicy : ConflictPolicy := .failFast
deriving DecidableEq, Repr

structure AuxiliarySettings where
  /-- the infix of the names of auxiliary types -/
  suffix : String := "auxiliary"
deriving DecidableEq, Repr

structure LogSettings where
  /-- a level, or directives -/
  level : String := "info"
  json : Bool := false
  stderr : Bool := true
deriving DecidableEq, Repr

structure Settings where
  bridges : BridgeSettings := {}
  auxiliary : AuxiliarySettings := {}
  logging : LogSettings := {}
deriving DecidableEq, Repr

/-- why a document does not decode -/
inductive DecodeFault where
  | unknownField (name : String) (expected : List String)
  | unknownVariant (name : String) (expected : List String)
  | invalidType (found expected : String)
  /-- a policy that is given neither by name nor as a table with its name as the only key -/
  | noPolicy
deriving DecidableEq, Repr

inductive SettingsError where
  /-- the file cannot be read as text -/
  | unreadable
  /-- the text does not follow the grammar -/
  | malformed
  | undecodable (fault : DecodeFault)
  | emptySuffix
  | suffixHolds (c : Char)
deriving DecidableEq, Repr

namespace DecodeFault

def quoteName (name : String) : String := "`" ++ name ++ "`"

/-- the expected names: one alone, two with `or`, more as a list -/
def alternatives : List String → String
  | [a] => quoteName a
  | [a, b] => quoteName a ++ " or " ++ quoteName b
  | names => "one of " ++ String.intercalate ", " (names.map quoteName)

/-- the wording; a fault without one is reported as a fault and no more -/
def message? : DecodeFault → Option String
  | .unknownField name expected => some ("unknown field " ++ quoteName name ++ ", expected " ++ alternatives expected)
  | .unknownVariant name expected =>
    some ("unknown variant " ++ quoteName name ++ ", expected " ++ alternatives expected)
  | .invalidType found expected => some ("invalid type: " ++ found ++ ", expected " ++ expected)
  | .noPolicy => none

end DecodeFault

namespace SettingsError

def message? : SettingsError → Option String
  | .unreadable | .malformed => none
  | .undecodable fault => fault.message?.map ("failed to parse toml config: " ++ ·)
  | .emptySuffix => some "invalid value for `auxiliary.suffix`: must not be empty"
  | .suffixHolds c =>
    some ("invalid value for `auxiliary.suffix`: must not contain " ++ DecodeFault.quoteName (String.singleton c))

end SettingsError

/-! ## Decoding -/

namespace Settings

open Toml (Value)

abbrev Decoded (α : Type) := Except DecodeFault α

/-- a value as it is named when another type is expected -/
def describeValue : Value → String
  | .string s => "string " ++ Text.quote s
  | .integer n => "integer " ++ DecodeFault.quoteName (toString n)
  | .float x => "floating point " ++ DecodeFault.quoteName x.render
  | .boolean b => "boolean " ++ DecodeFault.quoteName (if b then "true" else "false")
  | .dateTime _ => "map"
  | .array _ => "sequence"
  | .table _ => "map"

def decodeBool : Value → Decoded Bool
  | .boolean b => .ok b
  | v => .error (.invalidType (describeValue v) "a boolean")

def decodeString : Value → Decoded String
  | .string s => .ok s
  | v => .error (.invalidType (describeValue v) "a string")

def decodePolicyName (name : String) : Decoded ConflictPolicy :=
  match ConflictPolicy.ofLabel? name with
  | some policy => .ok policy
  | none => .error (.unknownVariant name (ConflictPolicy.all.map ConflictPolicy.label))

/-- a policy by its name, or as a table whose only key is the name, with an empty table or array as its value -/
def decodePolicy : Value → Decoded ConflictPolicy
  | .string name => decodePolicyName name
  | .table [(name, payload)] => do
    let policy ← decodePolicyName name
    match payload with
    | .table [] | .array [] => return policy
    | _ => .error .noPolicy
  | _ => .error .noPolicy

/-- how a section of type `α` is read: its name, and its keys in order with what each does to the section -/
structure SectionFormat (α : Type) where
  title : String
  keys : List (String × (Value → α → Decoded α))

/-- the key under which a date or a time shows as a table -/
def dateTimeKey : String := "$__toml_private_datetime"

/-- sets the keys of a section one after the other -/
def decodeEntries {α : Type} (format : SectionFormat α) (start : α) (entries : List (String × Value)) : Decoded α :=
  entries.foldlM (fun s (key, v) =>
    match format.keys.lookup key with
    | some set => set v s
    | none => .error (.unknownField key (format.keys.map (·.1)))) start

/-- sets the keys of a section in order, as far as there are items -/
def decodeItems {α : Type} (format : SectionFormat α) (start : α) (items : List Value) : Decoded α :=
  (format.keys.zip items).foldlM (fun s ((_, set), v) => set v s) start

/-- a section over its defaults -/
def decodeSection {α : Type} (format : SectionFormat α) (start : α) : Value → Decoded α
  | .table entries => decodeEntries format start entries
  | .array items => decodeItems format start items
  | .dateTime text => decodeEntries format start [(dateTimeKey, .string text)]
  | v => .error (.invalidType (describeValue v) ("struct " ++ format.title))

def bridgeFormat : SectionFormat BridgeSettings where
  title := "BridgesConfig"
  keys := [
    ("resolve", fun v s => return { s with resolve := ← decodeBool v }),
    ("conflict_policy", fun v s => return { s with conflictPolicy := ← decodePolicy v })]

def auxiliaryFormat : SectionFormat AuxiliarySettings where
  title := "AuxiliaryConfig"
  keys := [("suffix", fun v s => return { s with suffix := ← decodeString v })]

def logFormat : SectionFormat LogSettings where
  title := "LoggingConfig"
  keys := [
    ("level", fun v s => return { s with level := ← decodeString v }),
    ("json", fun v s => return { s with json := ← decodeBool v }),
    ("stderr", fun v s => return { s with stderr := ← decodeBool v })]

/-- the document as a section of sections -/
def documentFormat : SectionFormat Settings where
  title := "Settings"
  keys := [
    ("bridges", fun v s => return { s with bridges := ← decodeSection bridgeFormat {} v }),
    ("auxiliary", fun v s => return { s with auxiliary := ← decodeSection auxiliaryFormat {} v }),
    ("logging", fun v s => return { s with logging := ← decodeSection logFormat {} v })]

/-- the settings of a document, not yet checked -/
def decode (document : List (String × Value)) : Decoded Settings := decodeEntries documentFormat {} document

/-! ## Checking and loading -/

/-- characters that would make the names of auxiliary types ambiguous or no internal names -/
def isSuffixDelimiter (c : Char) : Bool := c == '/' || c == '.' || c == ';' || c == '[' || c == '$'

/-- an auxiliary suffix is not empty and holds no delimiter -/
def check (s : Settings) : Except SettingsError Settings :=
  let suffix := s.auxiliary.suffix.toList
  if suffix.isEmpty then .error .emptySuffix
  else
    match suffix.find? isSuffixDelimiter with
    | some c => .error (.suffixHolds c)
    | none => .ok s

/-- the settings of a document -/
def ofDocument (document : List (String × Value)) : Except SettingsError Settings := do
  check (← (decode document).mapError .undecodable)

/-- the settings that a text writes -/
def load (text : String) : Except SettingsError Settings :=
  match Toml.parse? text with
  | none => .error .malformed
  | some document => ofDocument document

/-- the settings of a file; none is one that does not exist -/
def loadBytes (file : Option ByteArray) : Except SettingsError Settings :=
  match file.bind String.fromUTF8? with
  | none => .error .unreadable
  | some text => load text

/-! ## Use -/

def strategy (s : Settings) : BridgeStrategy :=
  if s.bridges.resolve then .resolveBridges s.bridges.conflictPolicy else .leaveBridges

/-- an empty registry for one build of a type -/
def registryFor {α : Type} [Auxiliary α] (s : Settings) (instrumented : KnownType) : Registry α :=
  .empty instrumented s.auxiliary.suffix

end Settings

end CallPlan
