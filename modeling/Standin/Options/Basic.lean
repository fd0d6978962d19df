import Standin.Basic
import Standin.Json.Basic
import Standin.Module
import Standin.Path.Basic

namespace Standin

structure Options where
  entryPath : String := ""
  configDir : String := ""
  /-- Settings of the host, passed through. -/
  core : Option Json := none
  /-- Callees of registration calls: `name`, or `object.name`. -/
  callees : List String := ["registerMock", "sb.mock"]
  preserveLinks : Bool := false
  mocksDir : String := "__mocks__"
  extensions : List String :=
    [".js", ".mjs", ".cjs", ".ts", ".mts", ".cts", ".jsx", ".tsx", ".json"]
  /-- Conditions a package's exports are chosen by. -/
  conditions : List String := ["import", "module", "browser", "default"]
deriving Inhabited

namespace Options

def naming (o : Options) : Module.Naming :=
  if o.preserveLinks then .asWritten else .followingLinks

def entryDir (o : Options) : String := (Path.parent? o.entryPath).getD o.configDir

/-- Whether a text is one directory name: not empty, without separators. -/
def IsDirName (name : String) : Prop :=
  name ≠ "" ∧ '/' ∉ name.toList ∧ '\\' ∉ name.toList

instance (name : String) : Decidable (IsDirName name) :=
  inferInstanceAs (Decidable (_ ∧ _ ∧ _))

def validate (o : Options) : Except Fault Unit :=
  if o.entryPath = "" then .error (.options "config_entry_path must be set")
  else if !Path.isAbsolute o.entryPath then
    .error (.options s!"config_entry_path must be absolute, got {o.entryPath}")
  else if o.callees.isEmpty then
    .error (.options "at least one registration callee name is required")
  else if ¬IsDirName o.mocksDir then
    .error (.options s!"mocks_dir_name must be a single directory name, got '{o.mocksDir}'")
  else .ok ()

theorem isDirName_of_validate {o : Options} (h : o.validate = .ok ()) : IsDirName o.mocksDir := by
  unfold validate at h
  split at h
  · cases h
  · split at h
    · cases h
    · split at h
      · cases h
      · split at h
        · cases h
        · next hName => exact Decidable.not_not.mp hName

end Options

end Standin

namespace Standin.Options

def text? : Json → Option String
  | .string s => some s
  | _ => none

def texts? : Json → Option (List String)
  | .array items => items.mapM text?
  | _ => none

def flag? : Json → Option Bool
  | .bool b => some b
  | _ => none

/-- Any value; null stands for none. -/
def anything (v : Json) : Option Json :=
  match v with
  | .null => none
  | v => some v

def fieldNames : List String :=
  ["config_entry_path", "config_dir", "core_options", "callee_names", "preserve_symlinks",
   "mocks_dir_name", "extensions", "condition_names"]

def setField (o : Options) (name : String) (v : Json) : Option Options :=
  match name with
  | "config_entry_path" => (text? v).map fun s => { o with entryPath := s }
  | "config_dir" => (text? v).map fun s => { o with configDir := s }
  | "core_options" => some { o with core := anything v }
  | "callee_names" => (texts? v).map fun l => { o with callees := l }
  | "preserve_symlinks" => (flag? v).map fun b => { o with preserveLinks := b }
  | "mocks_dir_name" => (text? v).map fun s => { o with mocksDir := s }
  | "extensions" => (texts? v).map fun l => { o with extensions := l }
  | "condition_names" => (texts? v).map fun l => { o with conditions := l }
  | _ => some o

def setFields (o : Options) : List (String × Json) → Option Options
  | [] => some o
  | (name, v) :: more => (o.setField name v).bind fun o => o.setFields more

/-- Options from an object of fields, or from an array of the fields' values in their order. -/
def ofJson? : Json → Option Options
  | .object members => setFields {} members
  | .array items =>
    if items.length ≤ fieldNames.length then setFields {} (fieldNames.zip items) else none
  | _ => none

def toJson (o : Options) : Json :=
  .object
    [("config_entry_path", .string o.entryPath),
     ("config_dir", .string o.configDir),
     ("core_options", o.core.getD .null),
     ("callee_names", .ofStrings o.callees),
     ("preserve_symlinks", .bool o.preserveLinks),
     ("mocks_dir_name", .string o.mocksDir),
     ("extensions", .ofStrings o.extensions),
     ("condition_names", .ofStrings o.conditions)]

end Standin.Options
