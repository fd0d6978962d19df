import Standin.Script.Scan
import Standin.Script.Token
import Standin.Script.Tree

namespace Standin.Script

inductive Reason
  | unexpectedToken
  | expectedSemicolon
  | expectedName
  | reservedWord
  | escapedKeyword
  | meaninglessEscape
  | missingInitializer
  | returnOutsideFunction
  | awaitOutsideAsync
  | yieldOutsideGenerator
  | awaitAsName
  | yieldAsName
  | invalidTarget
  | misplacedRest
  | patternInRest
  | misplacedThis
  | shorthandDefault
  | mixedNullish
  | negatedPower
  | misplacedSuper
  | optionalTemplate
  | optionalNew
  | declarationAsBody
  | functionName
  | constructorForm
  | staticPrototype
  | accessorParams
  | newlineInside
  | loopHead
  | importArguments
  | missingHandler
  | markupMismatch
  | markupExpression
  | exportedLiteral
  | exportedReserved
  | duplicateExport
  | decoratorPlace
  | modifierPlace
  | bodyMissing
  | bodyInDeclaration
  | optionalDefault
  | enumMember
  | typeForm
  | tooDeep
deriving DecidableEq, Repr

structure SyntaxFault where
  position : Nat
  reason : Reason
deriving DecidableEq, Repr

/-- What the surroundings of a piece of text allow. -/
structure Scope where
  awaits : Bool := false
  yields : Bool := false
  returns : Bool := false
  inOperator : Bool := true
  /-- Declarations only describe. -/
  ambient : Bool := false
  /-- A decorator is being read, so `[` begins no access. -/
  decorating : Bool := false
  /-- Conditional types are not read. -/
  unconditional : Bool := false
deriving DecidableEq, Repr

structure State where
  dialect : Dialect
  scope : Scope
  token : Token
  /-- The text from the token on. -/
  here : List Char
  rest : List Char
  /-- Where the token before ended. -/
  lastStop : Nat
  /-- Faults noted, the latest first. -/
  faults : List SyntaxFault := []
  /-- Where shorthand properties with a fallback stand that no pattern has claimed yet. -/
  unclaimed : List Nat := []
  /-- Where spread elements stand that a comma alone follows. -/
  trailing : List Nat := []
  /-- Where a parenthesis was found to begin no arrow function. -/
  noArrow : List Nat := []
  size : Nat

namespace State

/-- Makes the scanned piece the current token. `before` is the text from the piece on. -/
def place (s : State) (before : List Char) (start : Nat) (onNewLine : Bool)
    (found : Scanned) : State :=
  let token : Token :=
    { kind := found.kind, start, stop := start + found.length, onNewLine,
      escaped := found.escaped, flawed := found.flawed }
  { s with
    token, here := before, rest := before.drop found.length
    faults := if found.flawed then ⟨start, .meaninglessEscape⟩ :: s.faults else s.faults }

/-- Scans the token behind the gap at the start of a text that begins at a position. -/
def scanFrom (s : State) (text : List Char) (position : Nat) (lineStart : Bool) : State :=
  let g := gap (!s.dialect.modular) lineStart .plain text
  let before := text.drop g.length
  let found := if g.isOpen then invalid else scan before
  s.place before (position + g.length) g.hasLineEnd found

def next (s : State) : State :=
  { s with lastStop := s.token.stop }.scanFrom s.rest s.token.stop false

/-- The token ends behind its start, which no token before it reaches over, and a word with
characters takes up some of the text. -/
structure Sound (s : State) : Prop where
  stop : s.token.start ≤ s.token.stop
  last : s.lastStop ≤ s.token.start
  word : ∀ w, s.token.kind = .word w → w ≠ "" → s.token.start < s.token.stop

theorem sound_place (s : State) (before : List Char) {start : Nat} (onNewLine : Bool)
    {found : Scanned} (hStart : s.lastStop ≤ start) (h : found.Spelled) :
    (s.place before start onNewLine found).Sound :=
  ⟨Nat.le_add_right _ _, hStart, fun w hKind hSome => Nat.lt_add_of_pos_right (h w hKind hSome)⟩

theorem sound_scanFrom (s : State) (text : List Char) {position : Nat} (lineStart : Bool)
    (h : s.lastStop ≤ position) : (s.scanFrom text position lineStart).Sound := by
  refine sound_place s _ _ (Nat.le_add_right_of_le h) ?_
  split
  · exact spelled_of_ne nofun
  · exact spelled_scan _

/-- A sound state is followed by a sound one that is no further back in the text. -/
def LeadsTo (s t : State) : Prop :=
  s.Sound → t.Sound ∧ s.token.start ≤ t.token.start ∧ s.lastStop ≤ t.lastStop

namespace LeadsTo

variable {s t u : State}

theorem refl (s : State) : s.LeadsTo s := fun h => ⟨h, Nat.le_refl _, Nat.le_refl _⟩

theorem trans (h : s.LeadsTo t) (h' : t.LeadsTo u) : s.LeadsTo u := by
  intro hSound
  obtain ⟨hNext, hStart, hLast⟩ := h hSound
  obtain ⟨hLater, hStart', hLast'⟩ := h' hNext
  exact ⟨hLater, Nat.le_trans hStart hStart', Nat.le_trans hLast hLast'⟩

/-- Where the token stays, only notes are taken. -/
theorem beside (hToken : s.token = t.token) (hLast : s.lastStop = t.lastStop) : s.LeadsTo t := by
  rintro ⟨hStop, hBefore, hWord⟩
  rw [hToken] at hStop hBefore hWord
  rw [hLast] at hBefore
  exact ⟨⟨hStop, hBefore, hWord⟩, Nat.le_of_eq (by rw [hToken]), Nat.le_of_eq hLast⟩

variable {found : Scanned}

theorem again (s : State) (h : found.Spelled) :
    s.LeadsTo (s.place s.here s.token.start s.token.onNewLine found) := fun hSound =>
  ⟨sound_place s _ _ hSound.last h, Nat.le_refl _, Nat.le_refl _⟩

theorem further (s : State) (before : List Char) (onNewLine : Bool) (h : found.Spelled) :
    s.LeadsTo ({ s with lastStop := s.token.stop }.place before s.token.stop onNewLine found) :=
  fun hSound => ⟨sound_place _ _ _ (Nat.le_refl _) h, hSound.stop,
    Nat.le_trans hSound.last hSound.stop⟩

theorem next (s : State) : s.LeadsTo s.next := fun hSound =>
  ⟨sound_scanFrom _ _ _ (Nat.le_refl _), Nat.le_add_right_of_le hSound.stop,
    Nat.le_trans hSound.last hSound.stop⟩

end LeadsTo

end State

/-- A fault that reading cannot go on from is given in place of an outcome; all others are noted in
the state. No reading goes back in the text. -/
structure Reading (α : Type) where
  run : State → EStateM.Result SyntaxFault State α
  forward : ∀ {s a t}, run s = .ok a t → s.LeadsTo t

namespace Reading

instance {α : Type} : CoeFun (Reading α) fun _ => State → EStateM.Result SyntaxFault State α :=
  ⟨run⟩

instance : Monad Reading where
  pure a :=
    { run s := .ok a s
      forward := by
        rintro s _ _ ⟨⟩
        exact .refl s }
  bind x f :=
    { run s := match x s with
        | .ok a t => f a t
        | .error e t => .error e t
      forward := by
        intro s b u h
        split at h
        · next hFirst => exact (x.forward hFirst).trans ((f _).forward h)
        · cases h }

/-- A reading that is put together when it is needed. -/
def later {α : Type} (r : Unit → Reading α) : Reading α where
  run s := r ⟨⟩ s
  forward := (r ⟨⟩).forward

/-- What the state says. -/
def ask {α : Type} (f : State → α) : Reading α where
  run s := .ok (f s) s
  forward := by
    rintro s _ _ ⟨⟩
    exact .refl s

/-- Goes from each state to a later one. -/
def change (f : State → State) (h : ∀ s : State, s.LeadsTo (f s)) : Reading Unit where
  run s := .ok ⟨⟩ (f s)
  forward := by
    rintro s _ _ ⟨⟩
    exact h s

def token : Reading Token := ask (·.token)

def kind : Reading TokenKind := ask (·.token.kind)

def start : Reading Nat := ask (·.token.start)

def lastStop : Reading Nat := ask (·.lastStop)

def scope : Reading Scope := ask (·.scope)

def dialect : Reading Dialect := ask (·.dialect)

def typed : Reading Bool := ask (·.dialect.typed)

/-- The stretch from a start to the end of the last token read. -/
def spanFrom (start : Nat) : Reading Span := ask fun s => ⟨start, s.lastStop⟩

def throwAt {α : Type} (position : Nat) (reason : Reason) : Reading α where
  run s := .error ⟨position, reason⟩ s
  forward := nofun

def refuse {α : Type} (reason : Reason) : Reading α := do throwAt (← start) reason

def unexpected {α : Type} : Reading α := refuse .unexpectedToken

def note (position : Nat) (reason : Reason) : Reading Unit :=
  change (fun s => { s with faults := ⟨position, reason⟩ :: s.faults }) fun _ => .beside rfl rfl

def noteHere (reason : Reason) : Reading Unit := do note (← start) reason

def advance : Reading Unit := change State.next .next

/-- Goes on over a word used as a keyword, which may not be written with escapes. -/
def advanceKeyword : Reading Unit := do
  let t ← token
  if t.escaped then note t.start .escapedKeyword
  advance

/-- Reads the current token again from its start, by another scanner. -/
def rescan (scanner : List Char → Scanned) (h : ∀ text, (scanner text).Spelled) : Reading Unit :=
  change (fun s => s.place s.here s.token.start s.token.onNewLine (scanner s.here)) fun s =>
    .again s (h _)

def isPunct (p : Punct) : Reading Bool := return (← kind) = .punct p

def isWord (w : String) : Reading Bool := return (← kind) = .word w

def onNewLine : Reading Bool := return (← token).onNewLine

def eat (p : Punct) : Reading Bool := do
  if ← isPunct p then
    advance
    return true
  return false

def expect (p : Punct) : Reading Unit := do
  unless ← eat p do unexpected

def eatWord (w : String) : Reading Bool := do
  if ← isWord w then
    advanceKeyword
    return true
  return false

def expectWord (w : String) : Reading Unit := do
  unless ← eatWord w do unexpected

/-- Reads on under a changed scope. -/
def within {α : Type} (change : Scope → Scope) (r : Reading α) : Reading α := do
  let outer ← scope
  Reading.change (fun s => { s with scope := change s.scope }) fun _ => .beside rfl rfl
  let a ← r
  Reading.change (fun s => { s with scope := outer }) fun _ => .beside rfl rfl
  return a

/-- The outcome of a reading that may be given up; parentheses found to begin no arrow function
stay known. -/
def attempt {α : Type} (r : Reading α) : Reading (Option α) where
  run s := match r s with
    | .ok a t => .ok (some a) t
    | .error _ t => .ok none { s with noArrow := t.noArrow }
  forward := by
    intro s a t h
    split at h
    · next hRead =>
      cases h
      exact r.forward hRead
    · cases h
      exact .beside rfl rfl

/-- What a reading would find, without going on. -/
def lookahead {α : Type} (r : Reading α) (otherwise : α) : Reading α :=
  ask fun s => match r s with
    | .ok a _ => a
    | .error .. => otherwise

/-- Reads again and again until there is no further state. The fuel is more than any text has
tokens, and a step without a token would be an error of the grammar. -/
def iterate {α β : Type} (step : α → Reading (α ⊕ β)) : Nat → α → Reading β
  | 0, _ => refuse .tooDeep
  | fuel + 1, a => do
    match ← step a with
    | .inl next => iterate step fuel next
    | .inr done => return done

def loop {α β : Type} (first : α) (step : α → Reading (α ⊕ β)) : Reading β := do
  iterate step ((← ask (·.size)) + 2) first

/-- Items until a closing mark, which stays unread. -/
def many {α : Type} (isEnd : Reading Bool) (item : Reading α) : Reading (List α) := do
  loop [] fun back => do
    if ← isEnd then return .inr back.reverse
    return .inl ((← item) :: back)

/-- Items parted by commas until a closing mark, which stays unread; a comma may follow the last. -/
def separated {α : Type} (close : Punct) (item : Reading α) : Reading (List α) := do
  loop [] fun back => do
    if ← isPunct close then return .inr back.reverse
    let a ← item
    if ← isPunct close then return .inr (a :: back).reverse
    expect .comma
    return .inl (a :: back)

/-- Whether a statement may end here without a semicolon. -/
def canEndHere : Reading Bool := do
  let t ← token
  return t.onNewLine || t.kind == .eof || t.kind == .punct .braceR || t.kind == .punct .semicolon

/-- The end of a statement: a semicolon, or a place where one may be left out. -/
def endStatement : Reading Unit := do
  if ← eat .semicolon then return
  unless ← canEndHere do refuse .expectedSemicolon

/-- `await` and `yield` are no names where they are operators. -/
def checkName (w : String) (position : Nat) (sc : Scope) : Reading Unit := do
  if w = "await" ∧ sc.awaits then note position .awaitAsName
  if w = "yield" ∧ sc.yields then note position .yieldAsName

def anyName : Reading Name := do
  let t ← token
  match t.kind with
  | .word w => advance; return ⟨⟨t.start, t.stop⟩, w⟩
  | _ => unexpected

/-- A word that can name a variable. -/
def variableName : Reading Name := do
  let t ← token
  match t.kind with
  | .word w =>
    if isReserved w then refuse .reservedWord
    checkName w t.start (← scope)
    advance
    return ⟨⟨t.start, t.stop⟩, w⟩
  | _ => refuse .expectedName

def isVariableName : Reading Bool := do
  match ← kind with
  | .word w => return !isReserved w
  | _ => return false

def isAnyName : Reading Bool := do
  match ← kind with
  | .word _ => return true
  | _ => return false

def word? : Reading (Option String) := do
  match ← kind with
  | .word w => return some w
  | _ => return none

/-- What the token after the current one satisfies. -/
def nextIs (p : Token → Bool) : Reading Bool := ask fun s => p s.next.token

/-- Remembers a spread element that only a comma parts from the closing mark. -/
def recordTrailing (close : Punct) (position : Nat) : Reading Unit := do
  if (← isPunct .comma) && (← nextIs (·.kind == .punct close)) then
    change (fun s => { s with trailing := position :: s.trailing }) fun _ => .beside rfl rfl

def stringLiteral : Reading StringLiteral := do
  let t ← token
  match t.kind with
  | .string value halved =>
    advance
    return ⟨⟨t.start, t.stop⟩, value, halved⟩
  | _ => unexpected

def scanGreater (text : List Char) : Scanned :=
  match punctAmong greaterPuncts text with
  | some p => ⟨.punct p, p.text.length, false, false⟩
  | none => invalid

/-- Joins a `>` with what may follow it in an expression. -/
def joinGreater : Reading Unit := do
  if ← isPunct .greater then
    rescan scanGreater fun text => spelled_of_ne (by unfold scanGreater; split <;> nofun)

/-- Splits a `<<` where a list of types may begin. -/
def splitLess : Reading Unit := do
  match ← kind with
  | .punct .shiftLeft | .punct .lessEqual | .punct .shiftLeftAssign =>
    rescan (fun _ => ⟨.punct .less, 1, false, false⟩) fun _ => spelled_of_ne nofun
  | _ => return

/-- Reads a slash again as the start of a regular expression. -/
def asRegex : Reading Unit :=
  rescan (fun text => scanRegex (text.drop 1)) fun text =>
    spelled_of_ne (by unfold scanRegex; split <;> nofun)

/-- Reads a closing brace again as the end of a substitution. -/
def asTemplateRest : Reading Unit :=
  rescan (fun text => scanTemplate (text.drop 1)) fun text =>
    spelled_of_ne (by unfold scanTemplate; split <;> nofun)

/-- What stands between markup elements: their marks, or text up to one. -/
def scanMarkup (text : List Char) : Scanned :=
  match text with
  | [] => ⟨.eof, 0, false, false⟩
  | '<' :: _ => ⟨.punct .less, 1, false, false⟩
  | '\x7b' :: _ => ⟨.punct .braceL, 1, false, false⟩
  | text => ⟨.markupText, (text.takeWhile fun c => c ≠ '<' ∧ c ≠ '\x7b').length, false, false⟩

/-- Goes on from a tag or a closing brace to what stands between markup elements. -/
def advanceInMarkup : Reading Unit :=
  change (fun s => { s with lastStop := s.token.stop }.place s.rest s.token.stop false
    (scanMarkup s.rest)) fun s =>
      .further s _ _ (spelled_of_ne (by unfold scanMarkup; split <;> nofun))

def scanMarkupName (text : List Char) : Scanned :=
  let name := text.takeWhile fun c => Text.isIdContinue c ∨ c = '-'
  ⟨.word (String.ofList name), name.length, false, false⟩

theorem spelled_scanMarkupName (text : List Char) : (scanMarkupName text).Spelled := by
  rintro _ ⟨⟩ hSome
  exact List.length_pos_iff.mpr fun hNone => hSome (congrArg String.ofList hNone)

/-- Lengthens a word by the hyphens that names of markup may hold. Escapes have no place in them. -/
def asMarkupName : Reading Unit := do
  match ← kind with
  | .word _ =>
    if (← token).escaped then unexpected
    rescan scanMarkupName spelled_scanMarkupName
  | _ => return

/-- A string in which nothing is escaped, from its opening quote. -/
def scanMarkupString (quote : Char) (inside : List Char) : Scanned :=
  let text := inside.takeWhile (· ≠ quote)
  if text.length = inside.length then invalid
  else ⟨.string (String.ofList text) false, text.length + 2, false, false⟩

theorem spelled_scanMarkupString (quote : Char) (inside : List Char) :
    (scanMarkupString quote inside).Spelled := by
  unfold scanMarkupString
  dsimp only
  split <;> exact spelled_of_ne nofun

/-- Reads the value of a markup attribute: quoted text has no escapes. -/
def asMarkupString : Reading Unit := do
  match ← ask (·.here) with
  | c :: inside =>
    if c = '"' ∨ c = '\'' then
      change (fun s => { s with faults := if s.token.flawed then s.faults.drop 1 else s.faults })
        fun _ => .beside rfl rfl
      rescan (fun _ => scanMarkupString c inside) fun _ => spelled_scanMarkupString c inside
  | [] => return

end Reading

end Standin.Script
