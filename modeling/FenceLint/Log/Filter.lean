import FenceLint.Decimal.Numeral
import FenceLint.Log.Record
import FenceLint.Text.Blank
import FenceLint.Text.Pieces

/-!
Which items of a log are let through. A filter is a list of directives with commas between them,
such as `info`, `engine=debug` or `[validate]=trace`: a level, for all items or for those of the
targets that start with a text, of the spans with a name, or of the spans with a field.

A directive without a span and without a wanted value judges each item by itself; the most specific
one that applies decides. A directive about spans opens up what happens inside the spans it
describes, and those spans are shown for its sake.
-/

set_option autoImplicit false

namespace FenceLint.Log

namespace Level

/-- The level with a number, the most severe first; zero is no level but off. -/
def ofNumber? : Nat → Option (Option Level)
  | 0 => some none
  | 1 => some (some error)
  | 2 => some (some warn)
  | 3 => some (some info)
  | 4 => some (some debug)
  | 5 => some (some trace)
  | _ => none

/-- A limit by its name in any mix of cases or by its number; `off` is the limit without a level. -/
def limit? (text : String) : Option (Option Level) :=
  match Decimal.Numeral.read Decimal.wordBound text with
  | .ok n => ofNumber? n
  | .error _ =>
    let name := text.toLower
    if name = "off" then some none
    else if text.isEmpty then some (some error)
    else (all.find? fun l ↦ l.name = name).map some

/-- Whether a limit lets a level through; without a level it lets none through. -/
def within (level : Level) : Option Level → Bool
  | none => false
  | some limit => level.atLeast limit

end Level

/-- A value that a directive wants a field to have. -/
inductive Wanted
  | count (n : Nat)
  | flag (b : Bool)
  | text (s : String)
  deriving DecidableEq, Repr

namespace Wanted

/-- The value that a text asks for. -/
def ofText (s : String) : Wanted :=
  if s = "true" then flag true
  else if s = "false" then flag false
  else match Decimal.Numeral.read Decimal.wordBound s with
    | .ok n => count n
    | .error _ => text s

/-- Whether a field has the value. -/
def accepts : Wanted → Value → Bool
  | count n, .count m => n = m
  | flag b, .flag c => b = c
  | text s, .shown t => s = t
  | text s, .quoted t => s = t
  | _, _ => false

end Wanted

/-- What a directive asks of the fields of an item. -/
structure FieldTest where
  name : String
  wanted? : Option Wanted
  deriving DecidableEq, Repr

namespace FieldTest

/-- A name, or a name and a value with an equals sign between them; what follows a second sign is
not looked at. -/
def ofChars (cs : List Char) : FieldTest :=
  match Text.pieces '=' cs with
  | name :: value :: _ => ⟨String.ofList name, some (.ofText (String.ofList value))⟩
  | name :: [] => ⟨String.ofList name, none⟩
  | [] => ⟨"", none⟩

end FieldTest

/-- One directive of a filter. -/
structure Directive where
  /-- How severe an item has to be; `none` lets nothing through. -/
  limit : Option Level
  /-- How the target has to start. -/
  target? : Option String
  /-- The name of the span. -/
  span? : Option String
  field? : Option FieldTest
  deriving DecidableEq, Repr

namespace Directive

/-- Everything. -/
def everything : Directive := ⟨some .trace, none, none, none⟩

/-! ### Reading -/

/-- How far the reading of a directive has come. A part is remembered by the place of its first
character. -/
inductive Stage
  | start
  /-- In a level or a target. -/
  | word (first : Nat)
  /-- In the name of a span. -/
  | span (first : Nat)
  | field (first : Nat)
  | afterField
  | afterSpan
  | level (first : Nat)
  deriving DecidableEq, Repr

/-- The characters of a text from one place up to another. -/
def cut (text : List Char) (first last : Nat) : List Char := (text.drop first).take (last - first)

/-- Characters that a level or a target may start with. -/
def isOpening (c : Char) : Bool :=
  c.isAlphanum || c = '-' || c = ':' || c = '_' || (128 ≤ c.toNat && !Text.isBlank c)

/-- One more character, `i` being its place. -/
def step (text : List Char) (d : Directive) (i : Nat) (c : Char) :
    Stage → Option (Directive × Stage)
  | .start =>
    if c = '[' then some (d, .span (i + 1))
    else if isOpening c then some (d, .word i)
    else none
  | .word first =>
    let target := { d with target? := some (String.ofList (cut text first i)) }
    if c = '=' then some (target, .level (i + 1))
    else if c = '[' then some (target, .span (i + 1))
    else some (d, .word first)
  | .span first =>
    let name := String.ofList (cut text first i)
    if c = ']' then some ({ d with span? := some name }, .afterSpan)
    else if c = '{' then
      some ({ d with span? := if name.isEmpty then none else some name }, .field (i + 1))
    else some (d, .span first)
  | .field first =>
    if c = '}' then
      match cut text first i with
      | [] => none
      | cs => some ({ d with field? := some (.ofChars cs) }, .afterField)
    else some (d, .field first)
  | .afterField => if c = ']' then some (d, .afterSpan) else none
  | .afterSpan => if c = '=' then some (d, .level (i + 1)) else none
  | .level first => some (d, .level first)

/-- The end of the text. A word that is no level is a target, and a level that is left out lets
everything through. -/
def finish (text : List Char) (d : Directive) : Stage → Option Directive
  | .word first =>
    let word := String.ofList (text.drop first)
    match Level.limit? word with
    | some limit => some { d with limit := limit }
    | none => some { d with target? := some word }
  | .level first =>
    match text.drop first with
    | [] => some d
    | cs => (Level.limit? (String.ofList cs)).map fun limit ↦ { d with limit := limit }
  | .afterSpan => some d
  | _ => none

/-- Reads a directive. Blanks at its ends are passed over but not taken away: places are counted
from the first character behind them and looked up in the whole text, so a blank in front moves
every part and one at the end belongs to the last. -/
def parse? (text : List Char) : Option Directive := do
  let (d, stage) ← (Text.trim text).zipIdx.foldlM
    (fun (state : Directive × Stage) (c, i) ↦ step text state.1 i c state.2) (everything, .start)
  finish text d stage

/-! ### Meaning -/

/-- Whether the directive is about a target. -/
def coversTarget (d : Directive) (target : String) : Bool :=
  match d.target? with
  | none => true
  | some start => start.toList.isPrefixOf target.toList

/-- Whether the directive judges items by themselves. -/
def isPlain (d : Directive) : Bool :=
  d.span?.isNone && match d.field? with
    | some test => test.wanted?.isNone
    | none => true

/-- Whether the directive is about spans. -/
def isScoped (d : Directive) : Bool := d.span?.isSome || d.field?.isSome

/-- Whether the field of the directive is among these, whatever its value. -/
def hasField (d : Directive) (names : List String) : Bool :=
  match d.field? with
  | none => true
  | some test => names.contains test.name

/-- Whether the directive describes a span, the values of its fields left aside. -/
def describes (d : Directive) (s : Span) : Bool :=
  d.isScoped && d.coversTarget s.target && (d.span?.all fun name ↦ name = s.name) &&
    d.hasField (s.fields.map (·.1))

/-- Whether a span has the value that the directive wants, if it wants one. -/
def valueHolds (d : Directive) (s : Span) : Bool :=
  match d.field? with
  | some ⟨name, some wanted⟩ => (s.fields.lookup name).any wanted.accepts
  | _ => true

/-- How specific a directive is about an item it applies to: first by the length of its target, then
by its field. -/
def weight (d : Directive) : Nat × String :=
  let target := match d.target? with
    | none => 0
    | some start => start.utf8ByteSize + 1
  match d.field? with
  | none => (2 * target, "")
  | some test => (2 * target + 1, test.name)

/-- Whether `a` is at most as specific as `b`. -/
def yields (a b : Directive) : Bool :=
  a.weight.1 < b.weight.1 || (a.weight.1 = b.weight.1 && a.weight.2 ≤ b.weight.2)

/-- The most specific of some directives, and of equally specific ones the last. -/
def mostSpecific? : List Directive → Option Directive
  | [] => none
  | d :: rest =>
    match mostSpecific? rest with
    | none => some d
    | some other => if d.yields other then some other else some d

/-- Directives without those that a later one with the same target, span and field replaces. -/
def latest : List Directive → List Directive
  | [] => []
  | d :: rest =>
    if rest.any fun other ↦ { other with limit := d.limit } = d then latest rest
    else d :: latest rest

end Directive

/-- The directives of a filter. -/
structure Filter where
  directives : List Directive
  deriving DecidableEq, Repr

namespace Filter

/-- A filter that lets through what is at least as severe as a level, or nothing. -/
def ofLimit (limit : Option Level) : Filter := ⟨[{ Directive.everything with limit := limit }]⟩

/-- Reads a filter; one wrong directive spoils it. A filter without directives lets errors
through. -/
def parse? (text : String) : Option Filter := do
  let parts := (Text.pieces ',' text.toList).filter fun part ↦ !part.isEmpty
  let directives ← parts.mapM Directive.parse?
  pure (if directives.isEmpty then ofLimit (some .error) else ⟨directives⟩)

/-- A span that has been entered and not left. -/
structure Opened where
  isShown : Bool
  /-- What the directives about the span let through inside it. -/
  inside : Option Level
  deriving DecidableEq, Repr

/-- The more generous of two limits. -/
def wider : Option Level → Option Level → Option Level
  | none, b => b
  | a, none => a
  | some a, some b => if a.atLeast b then some b else some a

/-- The most generous of some limits. -/
def widest (limits : List (Option Level)) : Option Level := limits.foldr wider none

/-- What the directives that judge items by themselves say of an item. -/
def judges (f : Filter) (applies : Directive → Bool) (level : Level) : Bool :=
  let plain := f.directives.filter fun d ↦ d.isPlain && applies d
  (Directive.mostSpecific? plain).any fun d ↦ level.within d.limit

/-- Whether the spans around an item let a level through. -/
def opened (around : List Opened) (level : Level) : Bool :=
  around.any fun o ↦ level.within o.inside

/-- The least severe level that the filter lets through at all. A directive that wants a value needs
every span to be seen. -/
def reach (f : Filter) : Option Level :=
  if f.directives.any fun d ↦ (d.field?.bind FieldTest.wanted?).isSome then some .trace
  else widest (f.directives.map Directive.limit)

/-- Whether an event is shown. -/
def showsEvent (f : Filter) (around : List Opened) (e : Event) : Bool :=
  f.judges (fun d ↦ d.coversTarget e.target && d.hasField ("message" :: e.fields.map (·.1)))
      e.level ||
    opened around e.level

/-- Whether a span is shown: by itself, by the spans around it, or because a directive describes
it. -/
def showsSpan (f : Filter) (around : List Opened) (s : Span) : Bool :=
  f.judges (fun d ↦ d.coversTarget s.target) s.level || opened around s.level ||
    (s.level.within f.reach && f.directives.any fun d ↦ d.describes s)

/-- A span as it is entered. One that is not shown opens nothing up. -/
def enter (f : Filter) (around : List Opened) (s : Span) : Opened :=
  if f.showsSpan around s then
    let about := (Directive.latest f.directives).filter fun d ↦ d.describes s && d.valueHolds s
    ⟨true, widest (about.map Directive.limit)⟩
  else ⟨false, none⟩

/-- The items that are let through inside some spans. -/
def passFrom (f : Filter) : List Opened → List Item → List Item
  | _, [] => []
  | around, .event e :: rest =>
    if f.showsEvent around e then .event e :: passFrom f around rest else passFrom f around rest
  | around, .enter s :: rest =>
    let o := f.enter around s
    if o.isShown then .enter s :: passFrom f (o :: around) rest
    else passFrom f (o :: around) rest
  | around, .leave s :: rest =>
    if (around.head?.map Opened.isShown).getD true then .leave s :: passFrom f around.tail rest
    else passFrom f around.tail rest
  | around, .note line :: rest => .note line :: passFrom f around rest

/-- The items that are let through, in their order. -/
def pass (f : Filter) (items : List Item) : List Item := f.passFrom [] items

end Filter

end FenceLint.Log
