import FenceLint.Checker.Run
import FenceLint.Proofs.Related

/-!
Watching a checker at work. A watched world keeps a record of what is asked of the factory and of
the parsers, and every parser carries the number of the call that made it. Watching changes nothing:
a watched run is the plain run with the record added.
-/

set_option autoImplicit false

namespace FenceLint

/-- What a checker asks of its surroundings. -/
inductive Event
  /-- A call of the factory, with the error if it failed. -/
  | drew (error? : Option Error)
  /-- A parser was to get ready. -/
  | prepared (parser : Nat) (answer : Except Failure Unit)
  /-- A parser was asked about a code. -/
  | asked (parser : Nat) (code : String) (limit : Option Duration)
    (answer : Except Failure Unit × Duration)

namespace Event

/-- What a call of the factory came to. -/
def draw? : Event → Option (Option Error)
  | drew error? => some error?
  | prepared _ _ => none
  | asked _ _ _ _ => none

/-- Whether the event concerns the parser with this number. -/
def Concerns (number : Nat) : Event → Prop
  | drew _ => False
  | prepared parser _ => parser = number
  | asked parser _ _ _ => parser = number

/-- The calls of the factory, in order. -/
def draws (events : List Event) : List (Option Error) := events.filterMap draw?

end Event

/-- A world with a record of what was asked in it. -/
structure Watched (ω : Type) where
  world : ω
  events : List Event

variable {ω π : Type}

/-- The error of a result, if it is one. -/
def errorOf {α : Type} : Except Error α → Option Error
  | .ok _ => none
  | .error e => some e

/-- A factory whose calls are recorded and whose parsers are numbered by its calls. -/
def watchedFactory (make : Act ω (Except Error π)) : Act (Watched ω) (Except Error (Nat × π)) :=
  fun w ↦
    let r := make.run w.world
    ⟨r.value.map ((Event.draws w.events).length, ·),
      ⟨r.state, w.events ++ [.drew (errorOf r.value)]⟩, r.log⟩

@[simp] theorem run_watchedFactory (make : Act ω (Except Error π)) (w : Watched ω) :
    (watchedFactory make).run w =
      let r := make.run w.world
      ⟨r.value.map ((Event.draws w.events).length, ·),
        ⟨r.state, w.events ++ [.drew (errorOf r.value)]⟩, r.log⟩ :=
  rfl

/-- A backend whose parsers are numbered and record what they are asked. -/
def Backend.watched (b : Backend ω π) : Backend (Watched ω) (Nat × π) where
  name parser := b.name parser.2
  prepare := fun s ↦
    let r := b.prepare.run (s.1.2, s.2.world)
    ⟨r.value, ((s.1.1, r.state.1), ⟨r.state.2, s.2.events ++ [.prepared s.1.1 r.value]⟩), r.log⟩
  parse code limit := fun s ↦
    let r := (b.parse code limit).run (s.1.2, s.2.world)
    ⟨r.value, ((s.1.1, r.state.1),
      ⟨r.state.2, s.2.events ++ [.asked s.1.1 code limit r.value]⟩), r.log⟩

@[simp] theorem Backend.run_watched_prepare (b : Backend ω π) (number : Nat) (p : π)
    (w : Watched ω) :
    b.watched.prepare.run ((number, p), w) =
      let r := b.prepare.run (p, w.world)
      ⟨r.value, ((number, r.state.1),
        ⟨r.state.2, w.events ++ [.prepared number r.value]⟩), r.log⟩ :=
  rfl

@[simp] theorem Backend.run_watched_parse (b : Backend ω π) (number : Nat) (p : π) (w : Watched ω)
    (code : String) (limit : Option Duration) :
    (b.watched.parse code limit).run ((number, p), w) =
      let r := (b.parse code limit).run (p, w.world)
      ⟨r.value, ((number, r.state.1),
        ⟨r.state.2, w.events ++ [.asked number code limit r.value]⟩), r.log⟩ :=
  rfl

/-- A watched supply. A parser at hand has the number 0. -/
def Supply.watched : Supply ω π → Supply (Watched ω) (Nat × π)
  | .factory make => .factory (watchedFactory make)
  | .single parser? => .single (parser?.map (0, ·))

/-- A checker watched from here on. -/
def Checker.watched (c : Checker ω π) : Checker (Watched ω) (Nat × π) where
  language := c.language
  limit := c.limit
  supply := c.supply.watched
  parser? := c.parser?.map (0, ·)
  setupError? := c.setupError?
  artifacts := c.artifacts
  documents := c.documents

/-- A scene watched from here on. -/
def Scene.watched (s : Scene ω π) : Scene (Watched ω) (Nat × π) :=
  ⟨s.checker.watched, s.area, ⟨s.world, []⟩⟩

/-- A watched scene is a plain one with numbers and a record added. -/
structure Erases (s : Scene (Watched ω) (Nat × π)) (t : Scene ω π) : Prop where
  language : s.checker.language = t.checker.language
  limit : s.checker.limit = t.checker.limit
  supply : s.checker.supply = t.checker.supply.watched
  parser : s.checker.parser?.map Prod.snd = t.checker.parser?
  setupError : s.checker.setupError? = t.checker.setupError?
  artifacts : s.checker.artifacts = t.checker.artifacts
  documents : s.checker.documents = t.checker.documents
  area : s.area = t.area
  world : s.world.world = t.world

theorem erases_watched (s : Scene ω π) : Erases s.watched s where
  language := rfl
  limit := rfl
  supply := rfl
  parser := by
    show (s.checker.parser?.map (0, ·)).map Prod.snd = s.checker.parser?
    rw [Option.map_map]
    exact congrFun Option.map_id s.checker.parser?
  setupError := rfl
  artifacts := rfl
  documents := rfl
  area := rfl
  world := rfl

/-- A parser with its number, or the error in its place. -/
def Numbered : Except Error (Nat × π) → Except Error π → Prop
  | .ok parser, .ok parser' => parser.2 = parser'
  | .error e, .error e' => e = e'
  | _, _ => False

theorem Fence.run_extraction {σ : Type} (language text : String) (s : σ) :
    ((Fence.extraction language text).run s).value = Fence.extract language text ∧
      ((Fence.extraction language text).run s).state = s := by
  constructor <;> simp [Fence.extraction, Fence.extract]

section

open Act Scene

variable (b : Backend ω π)

/-- A watched validation is the plain one. -/
theorem backend_validate_erases (limit : Option Duration) (code : String) :
    Related (fun (s : (Nat × π) × Watched ω) (t : π × ω) ↦ s.1.2 = t.1 ∧ s.2.world = t.2) Eq
      (b.watched.validate limit code) (b.validate limit code) := by
  apply Related.within
  apply Related.bind (R := Eq)
  · rintro ⟨⟨number, p⟩, ⟨w, events⟩⟩ ⟨p', w'⟩ ⟨rfl, rfl⟩
    exact ⟨rfl, rfl, rfl⟩
  rintro answer _ rfl
  rcases answer with failure | _
  · exact .log_bind _ _ _ _ _ (.pure rfl)
  apply Related.bind (R := Eq)
  · rintro ⟨⟨number, p⟩, ⟨w, events⟩⟩ ⟨p', w'⟩ ⟨rfl, rfl⟩
    exact ⟨rfl, rfl, rfl⟩
  rintro answer _ rfl
  apply Related.bind (R := Eq)
  · intro s t hst
    rcases answer with ⟨failure | _, elapsed⟩ <;> exact ⟨rfl, hst⟩
  · rintro _ _ rfl
    exact .pure rfl

theorem keepBlock_erases (document : Nat) (source : String) (block : Block) :
    Related (Erases (ω := ω) (π := π)) Eq (keepBlock document source block)
      (keepBlock document source block) := by
  apply Related.get_bind
  intro s t hst
  rw [hst.artifacts]
  rcases t.checker.artifacts with _ | dir
  · exact .pure rfl
  · apply Related.bind (R := Eq)
    · intro s t hst
      simp only [onArea, run_focus, hst.area]
      exact ⟨trivial, ⟨hst.language, hst.limit, hst.supply, hst.parser, hst.setupError,
        hst.artifacts, hst.documents, rfl, hst.world⟩⟩
    · rintro written _ rfl
      rcases written with e | name
      · exact .log_bind _ _ _ _ _ (.pure rfl)
      · exact .pure rfl

theorem draw_erases : Related (Erases (ω := ω) (π := π)) Numbered draw draw := by
  apply Related.get_bind
  intro s t hst
  rw [hst.supply]
  rcases t.checker.supply with make | _ | parser
  · rintro s t hst
    have hworld := hst.world
    constructor
    · show Numbered ((make.run s.world.world).value.map _) (make.run t.world).value
      rw [hworld]
      rcases (make.run t.world).value with e | parser <;> rfl
    · refine ⟨hst.language, hst.limit, hst.supply, hst.parser, hst.setupError, hst.artifacts,
        hst.documents, hst.area, ?_⟩
      show (make.run s.world.world).state = (make.run t.world).state
      rw [hworld]
  · exact .pure rfl
  · apply Related.bind (R := fun _ _ ↦ True)
    · apply Related.modify
      intro s t hst
      exact ⟨hst.language, hst.limit, rfl, hst.parser, hst.setupError, hst.artifacts,
        hst.documents, hst.area, hst.world⟩
    · intro _ _ _
      exact .pure rfl

theorem parser_erases : Related (Erases (ω := ω) (π := π)) Numbered parser parser := by
  apply Related.get_bind
  intro s t hst
  dsimp only
  rw [hst.setupError, ← hst.parser]
  rcases t.checker.setupError? with _ | message
  · rcases s.checker.parser? with _ | p
    · apply Related.log_bind
      apply Related.bind draw_erases
      rintro (e | p) (e' | p') hdrawn
      · obtain rfl : e = e' := hdrawn
        cases e with
        | setup message =>
          apply Related.bind (R := fun _ _ ↦ True)
          · apply Related.modify
            intro s t hst
            exact ⟨hst.language, hst.limit, hst.supply, hst.parser, rfl, hst.artifacts,
              hst.documents, hst.area, hst.world⟩
          · intro _ _ _
            exact .pure rfl
        | _ => exact .pure rfl
      · exact hdrawn.elim
      · exact hdrawn.elim
      · obtain rfl : p.2 = p' := hdrawn
        apply Related.bind (R := fun _ _ ↦ True)
        · apply Related.modify
          intro s t hst
          exact ⟨hst.language, hst.limit, hst.supply, rfl, hst.setupError, hst.artifacts,
            hst.documents, hst.area, hst.world⟩
        · intro _ _ _
          exact .pure rfl
    · exact .pure rfl
  · exact .pure rfl

theorem validate_erases {p : Nat × π} {p' : π} (hp : p.2 = p') (code : String) :
    Related (Erases (ω := ω) (π := π)) Eq (validate b.watched p code) (validate b p' code) := by
  apply Related.get_bind
  intro s t hst
  dsimp only
  rw [hst.limit]
  intro s' t' hst'
  obtain ⟨hvalue, hparser, hworld⟩ :=
    backend_validate_erases b t.checker.limit code (p, s'.world) (p', t'.world) ⟨hp, hst'.world⟩
  exact ⟨hvalue, hst'.language, hst'.limit, hst'.supply, congrArg some hparser, hst'.setupError,
    hst'.artifacts, hst'.documents, hst'.area, hworld⟩

theorem checkBlock_erases (document : Nat) (source : String) (block : Block) :
    Related (Erases (ω := ω) (π := π)) Eq (checkBlock b.watched document source block)
      (checkBlock b document source block) := by
  apply Related.bind (keepBlock_erases document source block)
  rintro fileName? _ rfl
  apply Related.bind parser_erases
  rintro (e | p) (e' | p') hparser
  · exact .pure (congrArg Except.error hparser)
  · exact hparser.elim
  · exact hparser.elim
  · apply Related.bind (validate_erases b hparser block.code)
    rintro verdict _ rfl
    rcases verdict.isValid
    · exact .log_bind _ _ _ _ _ (.pure rfl)
    · exact .pure rfl

theorem checkBlocks_erases (document : Nat) (source : String) (blocks : List Block)
    (report : Report) :
    Related (Erases (ω := ω) (π := π)) Eq (checkBlocks b.watched document source blocks report)
      (checkBlocks b document source blocks report) := by
  induction blocks generalizing report with
  | nil => exact .pure rfl
  | cons block rest ih =>
    apply Related.bind (checkBlock_erases b document source block)
    rintro (e | checked) _ rfl
    · exact .pure rfl
    · exact ih (report.push checked)

/-- Watching changes nothing of what a text comes to. -/
theorem checkText_erases (source text : String) :
    Related (Erases (ω := ω) (π := π)) Eq (checkText b.watched source text)
      (checkText b source text) := by
  apply Related.within
  apply Related.get_bind
  intro s t hst
  rw [hst.language]
  apply Related.bind (R := fun x y ↦ x = y)
  · intro s' t' hst'
    rw [(Fence.run_extraction _ text s').1, (Fence.run_extraction _ text s').2,
      (Fence.run_extraction _ text t').1, (Fence.run_extraction _ text t').2]
    exact ⟨rfl, hst'⟩
  rintro blocks _ rfl
  rcases blocks.isEmpty
  · apply Related.bind (R := Eq)
    · intro s t hst
      exact ⟨hst.documents, hst.language, hst.limit, hst.supply, hst.parser, hst.setupError,
        hst.artifacts, congrArg (· + 1) hst.documents, hst.area, hst.world⟩
    rintro document _ rfl
    apply Related.bind (checkBlocks_erases b document source blocks (.empty source))
    rintro (e | report) _ rfl
    · exact .pure rfl
    · exact .log_bind _ _ _ _ _ (.pure rfl)
  · exact .log_bind _ _ _ _ _ (.pure rfl)

end

end FenceLint
