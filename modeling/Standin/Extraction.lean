import Standin.Basic
import Standin.Mock.Manifest
import Standin.Mock.Match
import Standin.Options.Basic
import Standin.Registration.Basic
import Standin.Resolve.Basic
import Standin.Script.Parse

namespace Standin

namespace Extraction

open Script

inductive DiagnosticKind
  | parse
  /-- A registration is not known without running the script. -/
  | extraction
  | resolution
  | duplicate
deriving DecidableEq, Repr

/-- Where a registration stands: bytes from the start of the text, and the line. -/
structure Spot where
  span : Span
  line : Nat
deriving DecidableEq, Repr

structure Diagnostic where
  kind : DiagnosticKind
  message : String
  spot : Option Spot := none
  specifier : Option String := none
deriving DecidableEq, Repr

/-- The bytes that the first characters of a text take. -/
def byteOffset (text : List Char) (position : Nat) : Nat :=
  (String.ofList (text.take position)).utf8ByteSize

def spotOf (text : List Char) (span : Span) : Spot :=
  ⟨⟨byteOffset text span.start, byteOffset text span.stop⟩,
    (text.take span.start).count '\n' + 1⟩

/-- The program of a configuration and whether anything in it does not parse. A fault that reading
cannot go on from leaves no program. -/
def programOf (d : Dialect) (text : List Char) : Program × Bool :=
  match parse d text with
  | .ok (p, faults) => (p, !faults.isEmpty)
  | .error _ => (.empty, true)

/-- What is reported of one registration call. -/
def reportOf (text : List Char) (site : CallSite) : List Diagnostic :=
  let report (message : String) : List Diagnostic :=
    [⟨.extraction, message, some (spotOf text site.span), none⟩]
  match Registration.ofCall site with
  | .error skipped => report skipped.message
  | .ok (_, some bad) => report bad.message
  | .ok (_, none) => []

def registered (site : CallSite) : Option Registration :=
  match Registration.ofCall site with
  | .ok (registration, _) => some registration
  | .error _ => none

/-- What an extraction depends on besides the configuration's text. -/
structure Setting where
  options : Options
  root : String
  tree : FileTree

namespace Setting

def resolver (s : Setting) : Resolver where
  tree := s.tree
  extensions := s.options.extensions
  conditions := s.options.conditions
  followLinks := !s.options.preserveLinks

def callOf (s : Setting) (r : Registration) : Except Fault Mock.Call :=
  match s.resolver.resolve s.options.entryDir r.specifier with
  | .error failure => .error (.resolution r.specifier s.options.entryDir failure.message)
  | .ok file =>
    let path := Module.normalize s.options.naming s.tree file
    .ok
      { specifier := r.specifier, path, spy := r.spy
        redirect := Mock.manualMock? s.tree s.root s.options.mocksDir r.specifier path }

end Setting

structure Placed where
  call : Mock.Call
  spot : Spot

/-- Resolves registrations in order; those that name no file are reported. -/
def resolveAll (s : Setting) (text : List Char) : List Registration → List Placed × List Diagnostic
  | [] => ([], [])
  | r :: more =>
    let (placed, diagnostics) := resolveAll s text more
    let spot := spotOf text r.span
    match s.callOf r with
    | .ok call => (⟨call, spot⟩ :: placed, diagnostics)
    | .error fault =>
      (placed, ⟨.resolution, fault.message, some spot, some r.specifier⟩ :: diagnostics)

def duplicateOf (p : Placed) : Diagnostic where
  kind := .duplicate
  message := s!"'{p.call.specifier}' mocks {p.call.path} which is already registered, " ++
    "keeping the first registration"
  spot := some p.spot
  specifier := some p.call.specifier

/-- Parts calls from those whose path is taken, each list in order. -/
def distinct (taken : List Placed) : List Placed → List Placed × List Placed
  | [] => ([], [])
  | p :: more =>
    if taken.any fun t => Path.Same t.call.path p.call.path then
      let (kept, dropped) := distinct taken more
      (kept, p :: dropped)
    else
      let (kept, dropped) := distinct (p :: taken) more
      (p :: kept, dropped)

end Extraction

/-- The manifest of a configuration and what was skipped on the way to it. -/
structure Extraction where
  manifest : Mock.Manifest
  diagnostics : List Extraction.Diagnostic

namespace Extraction

def ofText (s : Setting) (text : List Char) : Extraction :=
  let (program, flawed) := programOf (Script.Dialect.ofConfig s.options.entryPath) text
  let sites := Registration.sites s.options.callees program
  let (placed, unresolved) := resolveAll s text (sites.filterMap registered)
  let (kept, dropped) := distinct [] placed
  { manifest := (Mock.Manifest.ofCalls (kept.map (·.call))).1
    diagnostics :=
      (if flawed then [⟨.parse, "the configuration does not parse", none, none⟩] else []) ++
        sites.flatMap (reportOf text) ++ unresolved ++ dropped.map duplicateOf }

end Extraction

open Extraction in
/-- Reads the configuration file and extracts its registrations. -/
def extract (s : Setting) : Except Fault Extraction :=
  match s.tree.readText s.options.entryPath with
  | .ok text => .ok (Extraction.ofText s text.toList)
  | .error failure => .error (.configRead s.options.entryPath failure.message)

end Standin
