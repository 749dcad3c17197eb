import Pyramid.Journal
import Pyramid.Toml.Document

/-!
# Settings

The settings of a run: the grammar file, the variable to derive from, the journal's directory and
level, and whether the store is guarded. Each has a default. Settings are changed by a table of
values under the names of the fields (`Settings.override`); an absent value changes nothing. A
table is taken as a whole or refused as a whole, and of several reasons to refuse it the first of
these is given: the reserved name, unknown names, a value of the wrong type, an unknown level.

A settings file is a TOML document; its table `cnfchart` is applied to the defaults.

Specification §6 and §10: the configuration. `Settings.override` is its overriding, `Settings.read`
its reading of a file.
-/

namespace Pyramid

/-- The settings of a run. -/
structure Settings where
  /-- The grammar file; the default bundled grammar is used if there is none. -/
  grammar : Option Text := none
  /-- The variable that a word has to derive from. -/
  start : Text := "S"
  /-- The directory of the journal. -/
  directory : Text := "./logs/"
  /-- The level of the journal. -/
  level : Level := .error
  /-- Is the store guarded? -/
  guarded : Bool := false
deriving DecidableEq, Repr

namespace Settings

/-! ## Fields -/

/-- The fields that a table of values can set. -/
inductive Field where
  | grammar
  | start
  | directory
  | level
  | guarded
deriving DecidableEq, Repr

namespace Field

/-- All fields. -/
def all : List Field := [.grammar, .start, .directory, .level, .guarded]

/-- The name of a field in a table. -/
def name : Field → Text
  | .grammar => "grammar"
  | .start => "start_symbol"
  | .directory => "log_dir"
  | .level => "log_level"
  | .guarded => "thread_safe"

/-- The field of a name. -/
def ofName? (name : Text) : Option Field := all.find? (·.name = name)

theorem ofName?_name (f : Field) : ofName? f.name = some f := by cases f <;> decide

/-- The name of the type of a field's values. -/
def typeName : Field → Text
  | .guarded => "bool"
  | _ => "str"

/-- Is the value of the field's type? An absent value fits every field. -/
def accepts : Field → Value → Bool
  | _, .absent => true
  | .guarded, .bool _ => true
  | .guarded, _ => false
  | _, .text _ => true
  | _, _ => false

end Field

/-! ## Changing settings -/

/-- A name that no entry of a table may have. -/
def reserved : Text := "self"

/-- Why a table of values is refused. -/
inductive Refusal where
  /-- An entry has the reserved name. -/
  | reserved
  /-- There are no fields of these names. -/
  | unknown (names : List Text)
  /-- The value is not of the field's type. -/
  | type (field : Field) (v : Value)
  /-- There is no level of that name. -/
  | level (name : Text)

/-- A refusal as a failure. A value that cannot be shown is a failure of its own. -/
def Refusal.failure : Refusal → Failure
  | .reserved => .illTyped
  | .unknown names =>
    let message : Text := "unknown config keys: " ++ Text.join ", " names
    .fault ⟨.settings, message, none⟩
  | .type field v =>
    match v.display with
    | .error l => .limit l
    | .ok shown =>
      let message : Text := "config key '" ++ field.name ++ "' must be a " ++ field.typeName
        ++ ", got " ++ shown
      .fault ⟨.settings, message, none⟩
  | .level name =>
    let message : Text := "log_level must be one of " ++ Text.join ", " (Level.all.map Level.name)
      ++ ", got '" ++ name ++ "'"
    .fault ⟨.settings, message, none⟩

/-- Sets one field. A value that does not fit leaves the settings as they are. -/
def assign (s : Settings) (field : Field) (v : Value) : Settings :=
  match field, v with
  | .grammar, .text t => { s with grammar := some t }
  | .start, .text t => { s with start := t }
  | .directory, .text t => { s with directory := t }
  | .level, .text t => match Level.ofName? t with
    | some l => { s with level := l }
    | none => s
  | .guarded, .bool b => { s with guarded := b }
  | _, _ => s

/-- The first reason to refuse a table, if there is one. -/
def refusal? (values : Table) : Option Refusal :=
  if values.any (·.1 = reserved) then some .reserved
  else
    let unknown := Text.sort ((values.map (·.1)).filter fun name => (Field.ofName? name).isNone)
    if unknown ≠ [] then some (.unknown unknown)
    else
      let wrong := values.findSome? fun (name, v) =>
        (Field.ofName? name).bind fun f => if f.accepts v then none else some (Refusal.type f v)
      match wrong with
      | some r => some r
      | none =>
        match values.get? Field.level.name with
        | some (.text t) => if (Level.ofName? t).isNone then some (.level t) else none
        | _ => none

/-- The settings with the entries of a table in place of their own. -/
def override (s : Settings) (values : Table) : Except Refusal Settings :=
  match refusal? values with
  | some r => .error r
  | none => .ok (values.foldl (fun s (name, v) => match Field.ofName? name with
      | some f => s.assign f v
      | none => s) s)

/-! ## Settings files -/

/-- The table of a settings file that counts. -/
def tableName : Text := "cnfchart"

/-- The fault of a settings file. -/
def fileFault (message : Text) : Failure := .fault ⟨.settings, message, none⟩

/-- The table of values in the text of a settings file. -/
def tableOf (file text : Text) : Except Failure Table :=
  let document := Toml.joinNewlines text
  match Toml.read document with
  | .error ⟨.limit l, _⟩ => .error (.limit l)
  | .error e =>
    .error (fileFault ("config file '" ++ file ++ "' is not valid TOML: " ++ e.message document))
  | .ok root =>
    match root.get? tableName with
    | none => .ok []
    | some (.table values) => .ok values
    | some _ => .error .illTyped

/-- The settings in a file. -/
def read (d : Disk) (file : Text) : Except Failure Settings :=
  match d.read file with
  | .error .nullCharacter => .error (.disk ⟨.nullCharacter, file⟩)
  | .error r => .error (fileFault ("cannot read config file '" ++ file ++ "': " ++ r.text))
  | .ok bytes =>
    match Utf8.decode bytes with
    | .error f => .error (.encoding f)
    | .ok text => do
      let values ← tableOf file text
      (override {} values).mapError Refusal.failure

end Settings
end Pyramid
