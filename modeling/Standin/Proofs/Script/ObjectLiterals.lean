import Standin.Script.Tree

namespace Standin.Script

/-- What expressions give, as far as the properties of an object depend on it. -/
inductive Value
  | bool (flag : Bool)
  | text (value : String)
  /-- A number, a big integer, null or a regular expression. -/
  | literal
  | other
deriving DecidableEq, Repr

/-- Whether a number, a big integer, null or a regular expression may have a text. -/
def mayBeLiteralText (text : String) : Bool :=
  text == "null" || text == "Infinity" || text.toList.head?.any fun c => c.isDigit || c == '/'

namespace Value

/-- Whether a value names a property as a key. -/
def mustName (name : String) : Value → Bool
  | .bool flag => toString flag == name
  | .text value => value == name
  | .literal | .other => false

/-- Whether a value may name a property as a key. An object may turn into any text. -/
def mayName (name : String) : Value → Bool
  | .bool flag => toString flag == name
  | .text value => value == name
  | .literal => mayBeLiteralText name
  | .other => true

/-- Whether a value may have a property of its own to copy. A text has its characters. -/
def mayBring (name : String) : Value → Bool
  | .bool _ | .literal => false
  | .text _ => name.toList.head?.any Char.isDigit
  | .other => true

end Value

/-- The value of an expression that is a literal. -/
def Expr.known? : Expr → Option Value
  | .boolean _ flag => some (.bool flag)
  | .string s => some (.text s.value)
  | .literal _ => some .literal
  | .template _ [some text] [] => some (.text text)
  | .paren _ inner | .typed _ inner _ | .asserted _ _ inner | .nonNull _ inner => inner.known?
  | _ => none

/-- The value of a key that is known. -/
def Key.known? : Key → Option Value
  | .word n => some (.text n.text)
  | .string s => some (.text s.value)
  -- a private name is no key of an object
  | .number _ | .privateName _ => some .literal
  | .computed e => e.known?

/-- A value that agrees with what is known. -/
def Agrees (known : Option Value) (v : Value) : Prop := ∀ w, known = some w → v = w

/-- What stands under a name in an object. -/
inductive Slot
  | value (e : Expr)
  | method
  | accessor (hasGetter : Bool)
  | copied

/-- What reading a slot is known to give. -/
def Slot.known? : Slot → Option Value
  | .value e => e.known?
  | .method | .accessor false => some .other
  | .accessor true | .copied => none

namespace Property

def prototype? : Property → Option Expr
  | .pair (.word n) value => if n.text = "__proto__" then some value else none
  | .pair (.string s) value => if s.value = "__proto__" then some value else none
  | _ => none

/-- Whether the prototype may be an object of which nothing is known. -/
def inherits (p : Property) : Bool := p.prototype?.any fun e => e.known?.isNone

def mayDefine (name : String) (p : Property) : Bool :=
  p.prototype?.isNone && match p with
    | .pair key _ | .method key _ _ => key.known?.all (Value.mayName name)
    | .shorthand n _ => n.text == name
    | .spread _ value => value.known?.all (Value.mayBring name)

/-- Whether a property defines a name, whatever expressions give. -/
def mustDefine (name : String) (p : Property) : Bool :=
  p.prototype?.isNone && match p with
    | .pair key _ | .method key _ _ => key.known?.any (Value.mustName name)
    | .shorthand n _ => n.text == name
    | .spread .. => false

/-- What a property puts under a name that has a slot or not. A getter and a setter share one. -/
def slot (old : Option Slot) : Property → Slot
  | .pair _ value => .value value
  | .shorthand n _ => .value (.ident n)
  | .method _ .plain _ => .method
  | .method _ .getter _ => .accessor true
  | .method _ .setter _ => match old with
    | some (.accessor hasGetter) => .accessor hasGetter
    | _ => .accessor false
  | .spread .. => .copied

def flag? : Property → Option Bool
  | .pair _ value => match value.known? with
    | some (.bool flag) => some flag
    | _ => none
  | _ => none

end Property

/-- What an object holds under a name. -/
structure Field where
  own : Option Slot := none
  /-- Whether its prototype is an object of which nothing is known. -/
  inherits : Bool := false

/-- What one property makes of an object. -/
inductive Property.Step (name : String) (p : Property) (f : Field) : Field → Prop
  | defines (h : p.mayDefine name = true) : Step name p f { f with own := some (p.slot f.own) }
  | passes (h : p.mustDefine name = false) : Step name p f f
  | inherits (h : p.inherits = true) : Step name p f { f with inherits := true }

/-- What the properties of a literal make of an object, one after another. -/
inductive Builds (name : String) : Field → List Property → Field → Prop
  | nil (f : Field) : Builds name f [] f
  | cons {p : Property} {ps : List Property} {f next last : Field} (hStep : p.Step name f next)
    (hMore : Builds name next ps last) : Builds name f (p :: ps) last

namespace Builds

variable {name : String} {f last : Field} {ps : List Property}

/-- Properties that cannot define a name leave what stands under it. -/
theorem own_eq (h : Builds name f ps last) (hNone : ∀ p ∈ ps, p.mayDefine name = false) :
    last.own = f.own := by
  induction h with
  | nil => rfl
  | cons hStep hMore ih =>
    obtain ⟨hFirst, hRest⟩ := List.forall_mem_cons.mp hNone
    rw [ih hRest]
    cases hStep with
    | defines hMay => simp [hFirst] at hMay
    | passes | inherits => rfl

/-- Properties that need not define a name may leave the object as it is. -/
theorem of_passes (h : ∀ p ∈ ps, p.mustDefine name = false) : Builds name f ps f := by
  induction ps with
  | nil => exact .nil f
  | cons p more ih =>
    obtain ⟨hFirst, hRest⟩ := List.forall_mem_cons.mp h
    exact .cons (.passes hFirst) (ih hRest)

end Builds

/-- What reading the name gives: a value, or nothing where it is absent. -/
inductive Field.Reads (f : Field) : Option Value → Prop
  | own {slot : Slot} {v : Value} (hOwn : f.own = some slot) (h : Agrees slot.known? v) :
    Reads f (some v)
  | inherited (v : Value) (hOwn : f.own = none) (h : f.inherits = true) : Reads f (some v)
  | absent (hOwn : f.own = none) : Reads f none

/-- A flag is seen where it is read, and one that is not set where nothing is. -/
def Shows (flag : Bool) (seen : Option Value) : Prop :=
  seen = some (.bool flag) ∨ flag = false ∧ seen = none

/-- Reading the name from an object shows a flag. -/
def Field.Shows (f : Field) (flag : Bool) : Prop := ∀ seen, f.Reads seen → Script.Shows flag seen

/-- Whatever expressions give, reading the name from the object of a literal shows a flag. -/
def Sees (name : String) (ps : List Property) (flag : Bool) : Prop :=
  ∀ f, Builds name {} ps f → f.Shows flag

/-- A property keeps a flag where it defines the name with the flag, if at all. -/
def Property.Keeps (name : String) (flag : Bool) (p : Property) : Prop :=
  p.mayDefine name = true → p.flag? = some flag

/-- Some property defines the name with a flag, and all behind it keep the flag. -/
def Fixed (name : String) (flag : Bool) (ps : List Property) : Prop :=
  ∃ before p after, ps = before ++ p :: after ∧ p.mustDefine name = true ∧ p.flag? = some flag ∧
    ∀ q ∈ after, q.Keeps name flag

/-- A flag that a literal says, or one that is not set and that nothing sets. -/
def Settled (name : String) (ps : List Property) (flag : Bool) : Prop :=
  Fixed name flag ps ∨ flag = false ∧ ∀ p ∈ ps, p.Keeps name false ∧ p.inherits = false

section Sees

variable {name : String} {flag : Bool} {p : Property} {ps : List Property} {f next : Field}

/-- A slot is seen as a flag, whatever expressions give, exactly where it is known to be one. -/
theorem Field.shows_of_own {slot : Slot} (hOwn : f.own = some slot) :
    f.Shows flag ↔ slot.known? = some (.bool flag) := by
  constructor
  · intro hShows
    cases hKnown : slot.known? with
    | none =>
      have hAny : Agrees slot.known? .other := by simp [Agrees, hKnown]
      rcases hShows _ (.own hOwn hAny) with h | ⟨-, h⟩ <;> cases h
    | some v =>
      have hSame : Agrees slot.known? v := by simp [Agrees, hKnown]
      rcases hShows _ (.own hOwn hSame) with h | ⟨-, h⟩
      · exact h
      · cases h
  · rintro hKnown seen hReads
    cases hReads with
    | own hOther h =>
      obtain rfl := Option.some.inj (hOwn.symm.trans hOther)
      exact .inl (congrArg some (h _ hKnown))
    | inherited _ hNone => simp [hOwn] at hNone
    | absent hNone => simp [hOwn] at hNone

theorem Field.shows_of_absent (hOwn : f.own = none) :
    f.Shows flag ↔ flag = false ∧ f.inherits = false := by
  constructor
  · intro hShows
    refine ⟨?_, Bool.eq_false_iff.mpr fun hInherits => ?_⟩
    · rcases hShows none (.absent hOwn) with h | ⟨h, -⟩
      · cases h
      · exact h
    · rcases hShows _ (.inherited .other hOwn hInherits) with h | ⟨-, h⟩ <;> cases h
  · rintro ⟨rfl, hNot⟩ seen hReads
    cases hReads with
    | own hOther => simp [hOwn] at hOther
    | inherited _ _ h => simp [hNot] at h
    | absent => exact .inr ⟨rfl, rfl⟩

/-- An object of which nothing is known as a prototype matters only to names the object lacks. -/
theorem Field.shows_inheriting :
    ({ f with inherits := true } : Field).Shows flag ↔ f.own ≠ none ∧ f.Shows flag := by
  obtain ⟨own, inherits⟩ := f
  cases own with
  | none => simp [Field.shows_of_absent (f := ⟨none, true⟩) rfl]
  | some slot =>
    rw [Field.shows_of_own (f := ⟨some slot, true⟩) rfl,
      Field.shows_of_own (f := ⟨some slot, inherits⟩) rfl]
    exact (and_iff_right nofun).symm

theorem Property.known?_slot (old : Option Slot) :
    (p.slot old).known? = some (.bool flag) ↔ p.flag? = some flag := by
  cases p with
  | pair key value =>
    simp only [slot, Slot.known?, flag?]
    cases value.known? with
    | none => simp
    | some v => cases v <;> simp
  | method key kind function =>
    cases kind with
    | plain | getter => simp [slot, Slot.known?, flag?]
    | setter =>
      simp only [slot, flag?]
      split
      · next hasGetter => cases hasGetter <;> simp [Slot.known?]
      · simp [Slot.known?]
  | _ => simp [slot, Slot.known?, Expr.known?, flag?]

theorem Field.shows_slot {f : Field} :
    { f with own := some (p.slot f.own) : Field }.Shows flag ↔ p.flag? = some flag := by
  rw [Field.shows_of_own rfl, Property.known?_slot]

theorem Value.mayName_of_mustName {v : Value} (h : v.mustName name = true) :
    v.mayName name = true := by
  cases v <;> simp_all [mustName, mayName]

theorem Property.mayDefine_of_mustDefine (h : p.mustDefine name = true) :
    p.mayDefine name = true := by
  unfold mustDefine mayDefine at *
  cases p with
  | spread => simp at h
  | shorthand => exact h
  | pair key | method key =>
    cases hKnown : key.known? with
    | none => simp [hKnown] at h
    | some v =>
      simp only [hKnown, Option.any_some, Option.all_some, Bool.and_eq_true] at h ⊢
      exact ⟨h.1, Value.mayName_of_mustName h.2⟩

/-- A property that may give an object another prototype defines nothing. -/
theorem Property.not_mayDefine_of_inherits (h : p.inherits = true) : p.mayDefine name = false := by
  unfold inherits mayDefine at *
  cases hProto : p.prototype? with
  | none => simp [hProto] at h
  | some e => simp

/-- What holds while nothing has fixed the flag: it shows already, and stays. -/
structure Holds (name : String) (flag : Bool) (f : Field) (ps : List Property) : Prop where
  shows : f.Shows flag
  keeps : ∀ p ∈ ps, p.Keeps name flag
  stays : f.own = none → ∀ p ∈ ps, p.inherits = false

theorem not_fixed_nil : ¬Fixed name flag [] := by
  rintro ⟨before, p, after, hSplit, -⟩
  simp at hSplit

theorem fixed_cons : Fixed name flag (p :: ps) ↔ Fixed name flag ps ∨
    p.mustDefine name = true ∧ p.flag? = some flag ∧ ∀ q ∈ ps, q.Keeps name flag := by
  constructor
  · rintro ⟨before, q, after, hSplit, hSets⟩
    cases before with
    | nil =>
      cases hSplit
      exact .inr hSets
    | cons first before =>
      cases hSplit
      exact .inl ⟨before, q, after, rfl, hSets⟩
  · rintro (⟨before, q, after, rfl, hSets⟩ | hSets)
    · exact ⟨p :: before, q, after, rfl, hSets⟩
    · exact ⟨[], p, ps, rfl, hSets⟩

/-- A flag that is fixed stays fixed by what stands last, or is kept there. -/
theorem fixed_append {before after : List Property} (h : Fixed name flag (before ++ after)) :
    Fixed name flag after ∨ ∀ q ∈ after, q.Keeps name flag := by
  induction before with
  | nil => exact .inl h
  | cons p before ih =>
    rcases fixed_cons.mp h with hFixed | ⟨-, -, hKeeps⟩
    · exact ih hFixed
    · exact .inr fun q hMem => hKeeps q (List.mem_append_right before hMem)

theorem Fixed.behind (h : Fixed name flag ps) (before : List Property) :
    Fixed name flag (before ++ ps) := by
  obtain ⟨earlier, p, after, rfl, hSets⟩ := h
  exact ⟨before ++ earlier, p, after, by rw [List.append_assoc], hSets⟩

/-- Behind a property that defines the name with the flag, the flag holds. -/
theorem Holds.of_slot (hFlag : p.flag? = some flag) (hKeeps : ∀ q ∈ ps, q.Keeps name flag) :
    Holds name flag { f with own := some (p.slot f.own) } ps :=
  ⟨Field.shows_slot.mpr hFlag, hKeeps, nofun⟩

theorem Holds.step (h : Holds name flag f (p :: ps)) (hStep : p.Step name f next) :
    Holds name flag next ps := by
  obtain ⟨hFirst, hMore⟩ := List.forall_mem_cons.mp h.keeps
  cases hStep with
  | defines hMay => exact .of_slot (hFirst hMay) hMore
  | passes => exact ⟨h.shows, hMore, fun hOwn => (List.forall_mem_cons.mp (h.stays hOwn)).2⟩
  | inherits hInherits =>
    have hOwn : f.own ≠ none := fun hNone => by
      simp [(List.forall_mem_cons.mp (h.stays hNone)).1] at hInherits
    exact ⟨Field.shows_inheriting.mpr ⟨hOwn, h.shows⟩, hMore, fun hNone => absurd hNone hOwn⟩

/-- Where the flag holds behind a property, however it turns out, the property keeps it. -/
theorem holds_of_steps (h : ∀ next, p.Step name f next → Holds name flag next ps) :
    Fixed name flag (p :: ps) ∨ Holds name flag f (p :: ps) := by
  have hFirst : p.Keeps name flag := fun hMay =>
    Field.shows_slot.mp (h _ (.defines hMay)).shows
  cases hMust : p.mustDefine name with
  | true =>
    have hMay := Property.mayDefine_of_mustDefine hMust
    exact .inl (fixed_cons.mpr (.inr ⟨hMust, hFirst hMay, (h _ (.defines hMay)).keeps⟩))
  | false =>
    have hPassed := h _ (.passes hMust)
    refine .inr ⟨hPassed.shows, List.forall_mem_cons.mpr ⟨hFirst, hPassed.keeps⟩, fun hOwn =>
      List.forall_mem_cons.mpr ⟨Bool.eq_false_iff.mpr fun hInherits => ?_, hPassed.stays hOwn⟩⟩
    exact (Field.shows_inheriting.mp (h _ (.inherits hInherits)).shows).1 hOwn

/-- What must hold before a property is what must hold behind it, however the property turns out. -/
theorem steps_iff : (∀ next, p.Step name f next → Fixed name flag ps ∨ Holds name flag next ps) ↔
    Fixed name flag (p :: ps) ∨ Holds name flag f (p :: ps) := by
  constructor
  · intro h
    by_cases hFixed : Fixed name flag ps
    · exact .inl (fixed_cons.mpr (.inl hFixed))
    · exact holds_of_steps fun next hStep => (h next hStep).resolve_left hFixed
  · rintro (hFixed | hHolds) next hStep
    · rcases fixed_cons.mp hFixed with hFixed | ⟨hMust, hFlag, hKeeps⟩
      · exact .inl hFixed
      · cases hStep with
        | defines => exact .inr (.of_slot hFlag hKeeps)
        | passes hNot => simp [hMust] at hNot
        | inherits hInherits =>
          have hMay := Property.mayDefine_of_mustDefine hMust
          simp [Property.not_mayDefine_of_inherits hInherits] at hMay
    · exact .inr (hHolds.step hStep)

theorem builds_iff : (∀ last, Builds name f ps last → last.Shows flag) ↔
    Fixed name flag ps ∨ Holds name flag f ps := by
  induction ps generalizing f with
  | nil =>
    constructor
    · exact fun h => .inr ⟨h f (.nil f), nofun, fun _ => nofun⟩
    · intro h last hBuilds
      cases hBuilds
      exact (h.resolve_left not_fixed_nil).shows
  | cons p ps ih =>
    rw [← steps_iff]
    constructor
    · exact fun h next hStep => ih.mp fun last hMore => h last (.cons hStep hMore)
    · intro h last hBuilds
      cases hBuilds with
      | cons hStep hMore => exact ih.mpr (h _ hStep) last hMore

/-- A flag is seen, whatever expressions give, exactly where the literal settles it. -/
theorem sees_iff : Sees name ps flag ↔ Settled name ps flag := by
  refine builds_iff.trans (or_congr_right ?_)
  have hShows : ({} : Field).Shows flag ↔ flag = false :=
    (Field.shows_of_absent (f := {}) rfl).trans (and_iff_left rfl)
  constructor
  · intro h
    obtain rfl := hShows.mp h.shows
    exact ⟨rfl, fun p hMem => ⟨h.keeps p hMem, h.stays rfl p hMem⟩⟩
  · rintro ⟨rfl, hAll⟩
    exact ⟨hShows.mpr rfl, fun p hMem => (hAll p hMem).1, fun _ p hMem => (hAll p hMem).2⟩

end Sees

end Standin.Script
