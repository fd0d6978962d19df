import Standin.Automock.Removal
import Standin.Basic
import Standin.Module
import Standin.SourceEditor

namespace Standin.Automock

/-- Makes the stand-ins of a module's exports. -/
def mockModuleName : String := "__modmock_mock_module__"

/-- Holds the stand-ins. -/
def mockedModuleName : String := "__modmock_module__"

def standInLines : List String :=
  ["function __modmock_mock_module__(source, spy) \x7b",
   "  const seen = new Map();",
   "  const mocked = \x7b\x7d;",
   "  for (const key of Object.keys(source)) \x7b",
   "    const value = source[key];",
   "    mocked[key] = typeof value === \"function\" ? __modmock_mock_fn__(value, key, spy, " ++
     "seen) : value;",
   "  \x7d",
   "  return mocked;",
   "\x7d",
   "function __modmock_mock_fn__(original, key, spy, seen) \x7b",
   "  const existing = seen.get(original);",
   "  if (existing !== undefined) return existing;",
   "  const state = \x7b callCount: 0, calls: [], results: [], implementation: undefined \x7d;",
   "  const stub = function (...args) \x7b",
   "    state.callCount += 1;",
   "    if (spy) state.calls.push(args);",
   "    try \x7b",
   "      const value = state.implementation === undefined ? undefined : " ++
     "state.implementation.apply(this, args);",
   "      if (spy) state.results.push(\x7b type: \"return\", value \x7d);",
   "      return value;",
   "    \x7d catch (error) \x7b",
   "      if (spy) state.results.push(\x7b type: \"throw\", value: error \x7d);",
   "      throw error;",
   "    \x7d",
   "  \x7d;",
   "  seen.set(original, stub);",
   "  const name = original.name && original.name !== \"__modmock_default__\" ? " ++
     "original.name : key;",
   "  Object.defineProperty(stub, \"name\", \x7b value: name, configurable: true \x7d);",
   "  Object.defineProperty(stub, \"length\", \x7b value: original.length, configurable: " ++
     "true \x7d);",
   "  stub.mock = state;",
   "  stub._isMockFunction = true;",
   "  stub.getMockName = () => key;",
   "  stub.mockImplementation = (implementation) => \x7b",
   "    state.implementation = implementation;",
   "    return stub;",
   "  \x7d;",
   "  stub.mockReturnValue = (value) => stub.mockImplementation(() => value);",
   "  stub.mockClear = () => \x7b",
   "    state.callCount = 0;",
   "    state.calls.length = 0;",
   "    state.results.length = 0;",
   "    return stub;",
   "  \x7d;",
   "  // Classes keep their shape, inherited members included",
   "  if (original.prototype) \x7b",
   "    __modmock_mock_methods__(original.prototype, stub.prototype, Object.prototype, " ++
     "[\"constructor\"], spy, seen);",
   "  \x7d",
   "  __modmock_mock_methods__(original, stub, Function.prototype, [\"length\", \"name\", " ++
     "\"prototype\", \"arguments\", \"caller\"], spy, seen);",
   "  return stub;",
   "\x7d",
   "function __modmock_mock_methods__(source, target, stop, skip, spy, seen) \x7b",
   "  for (let owner = source; owner && owner !== stop; owner = Object.getPrototypeOf(owner)) \x7b",
   "    for (const key of Object.getOwnPropertyNames(owner)) \x7b",
   "      if (skip.includes(key) || Object.prototype.hasOwnProperty.call(target, key)) continue;",
   "      const descriptor = Object.getOwnPropertyDescriptor(owner, key);",
   "      if (descriptor && typeof descriptor.value === \"function\") \x7b",
   "        Object.defineProperty(target, key, \x7b",
   "          value: __modmock_mock_fn__(descriptor.value, key, spy, seen),",
   "          writable: true,",
   "          configurable: true,",
   "        \x7d);",
   "      \x7d",
   "    \x7d",
   "  \x7d",
   "\x7d"]

def standInText : String := "\n" ++ String.join (standInLines.map (· ++ "\n"))

def standInName (index : Nat) : String := s!"__modmock_export_{index}__"

def entry (b : Binding) : String := Json.quote b.exported ++ ": " ++ b.inner

/-- `const private = module["name"];` -/
def standIn (b : Binding) (index : Nat) : String :=
  s!"const {standInName index} = {mockedModuleName}[{Json.quote b.exported}];\n"

def exportEntry (b : Binding) (index : Nat) : String :=
  s!"{standInName index} as {exportName b.exported}"

def epilogue (bindings : List Binding) (spy : Bool) : String :=
  let object := "\x7b " ++ ", ".intercalate (bindings.map entry) ++ " \x7d"
  let indexed := bindings.zipIdx
  s!"\nconst {mockedModuleName} = {mockModuleName}({object}, {spy});\n" ++
    String.join (indexed.map fun (b, i) => standIn b i) ++
    "export \x7b " ++ ", ".intercalate (indexed.map fun (b, i) => exportEntry b i) ++ " \x7d;\n" ++
    standInText

end Standin.Automock

namespace Standin

structure Automocked where
  code : String
  map : SourceMap
  exports : List String
  notes : List String
deriving Repr

namespace Automock

open Standin.Script

def refusal (id : String) (fault : SyntaxFault) : Fault :=
  .transform id s!"the source does not parse at character {fault.position}"

/-- The program of a module without any fault. -/
def program (code id : String) : Except Fault Program :=
  match parse (Dialect.ofModule (Module.strip id)) code.toList with
  | .ok (p, []) => .ok p
  | .ok (_, fault :: _) => .error (refusal id fault)
  | .error fault => .error (refusal id fault)

/-- The editor of a module whose exports are taken out, with the stand-ins behind it where it has
any. -/
def editor (code : String) (r : Removal) (spy : Bool) : SourceEditor :=
  let kept : SourceEditor := { source := code, edits := r.edits }
  if r.bindings.isEmpty then kept else kept.append (epilogue r.bindings spy)

def ofProgram (code id : String) (spy : Bool) (p : Program) : Automocked :=
  let r := removeExports code.toList p
  let finished := (editor code r spy).finish (Module.strip id)
  { code := finished.1
    map := finished.2
    exports := r.bindings.map (·.exported)
    notes := r.notes }

end Automock

/-- The automocked source of the module with an id. A source that does not parse is refused. -/
def automock (code id : String) (spy : Bool) : Except Fault Automocked :=
  (Automock.program code id).map (Automock.ofProgram code id spy)

end Standin
