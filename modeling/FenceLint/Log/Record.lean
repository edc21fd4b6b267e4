/-!
What a run has to say about itself: events, the spans they happen in, and plain notes for the
terminal. A log is a list of items in the order they happened; how it is filtered and written is
decided elsewhere.
-/

set_option autoImplicit false

namespace FenceLint.Log

/-- How much an item matters, the least severe first. -/
inductive Level
  | trace | debug | info | warn | error
  deriving DecidableEq, Repr

namespace Level

/-- Rank on the scale of severity. -/
def rank : Level → Nat
  | trace => 0 | debug => 1 | info => 2 | warn => 3 | error => 4

/-- `a.atLeast b`: `a` is as severe as `b` or more. -/
def atLeast (a b : Level) : Bool := b.rank ≤ a.rank

/-- The level in lower case, as configuration names it. -/
def name : Level → String
  | trace => "trace" | debug => "debug" | info => "info" | warn => "warn" | error => "error"

/-- All levels, the least severe first. -/
def all : List Level := [trace, debug, info, warn, error]

/-- The level in upper case, as log lines show it. -/
def shout : Level → String
  | trace => "TRACE" | debug => "DEBUG" | info => "INFO" | warn => "WARN" | error => "ERROR"

end Level

/-- A value attached to an item. -/
inductive Value
  | count (n : Nat)
  | flag (b : Bool)
  /-- Text that human layouts show bare. -/
  | shown (text : String)
  /-- Text that human layouts put in quotes. -/
  | quoted (text : String)
  deriving DecidableEq, Repr

/-- Something that happened. -/
structure Event where
  level : Level
  /-- The part of the program that speaks. -/
  target : String
  message : String
  fields : List (String × Value)
  deriving DecidableEq, Repr

/-- A stretch of work that events happen in. -/
structure Span where
  level : Level
  target : String
  name : String
  fields : List (String × Value)
  deriving DecidableEq, Repr

/-- One entry of a log. -/
inductive Item
  | event (e : Event)
  | enter (s : Span)
  | leave (s : Span)
  /-- A line for the terminal that no filter touches. -/
  | note (line : String)
  deriving DecidableEq, Repr

/-- The events of a log that are at least as severe as `level`. -/
def eventsFrom (level : Level) (items : List Item) : List Event :=
  items.filterMap fun item ↦ match item with
    | .event e => if e.level.atLeast level then some e else none
    | _ => none

end FenceLint.Log
