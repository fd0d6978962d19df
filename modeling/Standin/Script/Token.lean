import Standin.Path.Basic

namespace Standin.Script

structure Dialect where
  typed : Bool := false
  markup : Bool := false
  /-- The text only declares what exists elsewhere. -/
  ambient : Bool := false
  /-- The text is a module; otherwise the words of a module keep their plain meaning. -/
  modular : Bool := true
deriving DecidableEq, Repr

namespace Dialect

/-- Whether a name without its extension ends in `d`, alone or before one more part. -/
def isDeclarationStem (stem : List Char) : Bool :=
  ((Text.split '.' stem).reverse.take 2).contains ['d']

/-- The dialect that an extension stands for; `stem` is the file name before it. -/
def ofExtension? (stem : List Char) (extension : String) : Option Dialect :=
  let lastIsD := (Text.split '.' stem).getLast? == some ['d']
  match extension with
  | "js" => some {}
  | "mjs" => some {}
  | "cjs" => some { modular := false }
  | "jsx" => some { markup := true }
  | "ts" => some { typed := true, ambient := isDeclarationStem stem }
  | "mts" => some { typed := true, ambient := lastIsD }
  | "cts" => some { typed := true, ambient := lastIsD, modular := false }
  | "tsx" => some { typed := true, markup := true }
  | _ => none

/-- The dialect of a file by its extension; none for an unknown extension. -/
def ofFile? (path : String) : Option Dialect :=
  (Path.fileName? path).bind fun name =>
    let (stem, extension) := Path.cutExtension name.toList
    extension.bind fun extension => ofExtension? stem (String.ofList extension)

/-- Untyped scripts may always hold markup. -/
def withMarkup (d : Dialect) : Dialect := if d.typed then d else { d with markup := true }

def ofModule (path : String) : Dialect :=
  match ofFile? path with
  | some d => d.withMarkup
  | none => {}

def ofConfig (path : String) : Dialect :=
  match ofFile? path with
  | some d => d.withMarkup
  | none => { typed := true, markup := true }

end Dialect

inductive Punct
  | braceL | braceR | parenL | parenR | bracketL | bracketR
  | semicolon | comma | colon | question | dot | ellipsis | optionalDot | arrow | at
  | tilde | bang
  | assign | equal | strictEqual | notEqual | strictNotEqual
  | less | lessEqual | shiftLeft | shiftLeftAssign
  | greater | greaterEqual | shiftRight | shiftRightAssign | shiftZero | shiftZeroAssign
  | plus | increment | plusAssign | minus | decrement | minusAssign
  | star | power | starAssign | powerAssign | percent | percentAssign | slash | slashAssign
  | amp | andAnd | ampAssign | andAssign | bar | orOr | barAssign | orAssign
  | caret | caretAssign | nullish | nullishAssign
deriving DecidableEq, Repr

def Punct.text : Punct → String
  | .braceL => "\x7b" | .braceR => "\x7d" | .parenL => "(" | .parenR => ")"
  | .bracketL => "[" | .bracketR => "]" | .semicolon => ";" | .comma => "," | .colon => ":"
  | .question => "?" | .dot => "." | .ellipsis => "..." | .optionalDot => "?." | .arrow => "=>"
  | .at => "@" | .tilde => "~" | .bang => "!" | .assign => "=" | .equal => "=="
  | .strictEqual => "===" | .notEqual => "!=" | .strictNotEqual => "!==" | .less => "<"
  | .lessEqual => "<=" | .shiftLeft => "<<" | .shiftLeftAssign => "<<=" | .greater => ">"
  | .greaterEqual => ">=" | .shiftRight => ">>" | .shiftRightAssign => ">>=" | .shiftZero => ">>>"
  | .shiftZeroAssign => ">>>=" | .plus => "+" | .increment => "++" | .plusAssign => "+="
  | .minus => "-" | .decrement => "--" | .minusAssign => "-=" | .star => "*" | .power => "**"
  | .starAssign => "*=" | .powerAssign => "**=" | .percent => "%" | .percentAssign => "%="
  | .slash => "/" | .slashAssign => "/=" | .amp => "&" | .andAnd => "&&" | .ampAssign => "&="
  | .andAssign => "&&=" | .bar => "|" | .orOr => "||" | .barAssign => "|=" | .orAssign => "||="
  | .caret => "^" | .caretAssign => "^=" | .nullish => "??" | .nullishAssign => "??="

/-- What a stretch of text is. The scanner yields `>` alone: what may follow it depends on whether
a list of types ends there. -/
inductive TokenKind
  | eof
  /-- Text that begins no token. -/
  | invalid
  /-- A word, its escapes decoded: a name or a keyword. -/
  | word (text : String)
  | privateName (text : String)
  | number
  | string (value : String) (halved : Bool)
  | regex
  /-- A stretch of a template; `last` tells whether a backquote ends it, else a substitution
  follows. -/
  | template (text : Option String) (last : Bool)
  | punct (p : Punct)
  /-- Text between markup elements. -/
  | markupText
deriving DecidableEq, Repr

structure Token where
  kind : TokenKind
  start : Nat
  stop : Nat
  /-- Whether a line ends between the token before and this one. -/
  onNewLine : Bool := false
  /-- Whether a word is written with escapes. -/
  escaped : Bool := false
  /-- Whether the token holds an escape or a flag without meaning. -/
  flawed : Bool := false
deriving DecidableEq, Repr

/-- Words that are never names. -/
def reservedWords : List String :=
  ["break", "case", "catch", "class", "const", "continue", "debugger", "default", "delete", "do",
   "else", "enum", "export", "extends", "false", "finally", "for", "function", "if", "import",
   "in", "instanceof", "new", "null", "return", "super", "switch", "this", "throw", "true", "try",
   "typeof", "var", "void", "while", "with"]

def isReserved (word : String) : Bool := reservedWords.contains word

/-- Words kept back in strict code. -/
def strictWords : List String :=
  ["implements", "interface", "let", "package", "private", "protected", "public", "static"]

end Standin.Script
