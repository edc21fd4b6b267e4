import FenceLint.Proofs.Checker.Watch
import Mathlib.Data.List.Forall2

/-!
The visits of a run. However a checker is used, all that it does is to visit texts one after the
other: a document is a visit to its text, and a list of documents visits the texts that can be read
until an error is fatal. What holds of every visit holds of every run.
-/

set_option autoImplicit false

namespace FenceLint

variable {ω π : Type}

/-- Whatever stands in one of two lists that are related member by member has a partner. -/
theorem exists_partner {α β : Type} {R : α → β → Prop} {xs : List α} {ys : List β}
    (h : List.Forall₂ R xs ys) : ∀ x ∈ xs, ∃ y ∈ ys, R x y := by
  induction h with
  | nil =>
    intro x hx
    exact absurd hx List.not_mem_nil
  | cons hfirst _ ih =>
    intro x hx
    rcases List.mem_cons.mp hx with rfl | hx
    · exact ⟨_, List.mem_cons_self, hfirst⟩
    · obtain ⟨y, hy, hrelated⟩ := ih x hx
      exact ⟨y, List.mem_cons_of_mem _ hy, hrelated⟩

/-- A call on a checker. What reading a path gives may change from call to call. -/
inductive Task
  | text (source text : String)
  | document (read : String → Except Fault String) (path : String)
  | documents (read : String → Except Fault String) (paths : List String)

/-- A text that is checked, and the scene that it is checked in. -/
structure Visit (ω π : Type) where
  source : String
  text : String
  before : Scene ω π

namespace Visit

variable (b : Backend ω π) (v : Visit ω π)

/-- What the visit comes to. -/
def result : Except Error Report := ((Scene.checkText b v.source v.text).run v.before).value

/-- The scene that the visit leaves. -/
def after : Scene ω π := ((Scene.checkText b v.source v.text).run v.before).state

/-- The blocks of the text. -/
def blocks : List Block := Fence.extract v.before.checker.language v.text

end Visit

namespace Task

/-- The scene that a call leaves. -/
def after (b : Backend ω π) (s : Scene ω π) : Task → Scene ω π
  | .text source content => ((Scene.checkText b source content).run s).state
  | .document read path => ((Scene.checkDocument b read path).run s).state
  | .documents read paths => ((Scene.checkDocuments b read paths).run s).state

/-- The visits of checking documents in order. -/
def eachVisit (b : Backend ω π) (read : String → Except Fault String) :
    List String → Scene ω π → List (Visit ω π)
  | [], _ => []
  | path :: rest, s =>
    match read path with
    | .error _ => eachVisit b read rest s
    | .ok content =>
      let v : Visit ω π := ⟨path, content, s⟩
      v :: match v.result b with
        | .ok _ => eachVisit b read rest (v.after b)
        | .error e => if e.isFatal then [] else eachVisit b read rest (v.after b)

/-- The visits of a call. -/
def visits (b : Backend ω π) (s : Scene ω π) : Task → List (Visit ω π)
  | .text source content => [⟨source, content, s⟩]
  | .document read path =>
    match read path with
    | .error _ => []
    | .ok content => [⟨path, content, s⟩]
  | .documents read paths => eachVisit b read paths s

end Task

/-- The scene that some calls leave. -/
def afterTasks (b : Backend ω π) (s : Scene ω π) : List Task → Scene ω π
  | [] => s
  | task :: rest => afterTasks b (task.after b s) rest

/-- The visits of some calls. -/
def visits (b : Backend ω π) (s : Scene ω π) : List Task → List (Visit ω π)
  | [] => []
  | task :: rest => task.visits b s ++ visits b (task.after b s) rest

/-- Visits that follow one another from a scene to a scene. -/
def Follow (b : Backend ω π) : Scene ω π → List (Visit ω π) → Scene ω π → Prop
  | s, [], t => s = t
  | s, v :: rest, t => v.before = s ∧ Follow b (v.after b) rest t

section

variable {b : Backend ω π}

theorem Follow.append {s t u : Scene ω π} {vs ws : List (Visit ω π)} (h : Follow b s vs t)
    (h' : Follow b t ws u) : Follow b s (vs ++ ws) u := by
  induction vs generalizing s with
  | nil =>
    obtain rfl : s = t := h
    exact h'
  | cons v rest ih => exact ⟨h.1, ih h.2⟩

/-- What holds at first and outlives every visit holds before and after each of them. -/
theorem Follow.invariant {P : Scene ω π → Prop}
    (hstep : ∀ v : Visit ω π, P v.before → P (v.after b)) {s t : Scene ω π}
    {vs : List (Visit ω π)} (h : Follow b s vs t) (hs : P s) :
    (∀ v ∈ vs, P v.before ∧ P (v.after b)) ∧ P t := by
  induction vs generalizing s with
  | nil =>
    obtain rfl : s = t := h
    exact ⟨fun v hv ↦ absurd hv List.not_mem_nil, hs⟩
  | cons v rest ih =>
    have hv : P v.before := h.1.symm ▸ hs
    obtain ⟨hrest, ht⟩ := ih h.2 (hstep v hv)
    exact ⟨List.forall_mem_cons.mpr ⟨⟨hv, hstep v hv⟩, hrest⟩, ht⟩

/-- A document that cannot be read is no reason to stop. -/
theorem isFatal_ofReading (path : String) (fault : Fault) :
    (Error.ofReading path fault).isFatal = false := by
  rw [Error.ofReading]
  split <;> rfl

theorem follow_eachVisit (read : String → Except Fault String) (paths : List String)
    (s : Scene ω π) (files : List Report) (failures : List FileFailure) :
    Follow b s (Task.eachVisit b read paths s)
      ((Scene.checkEach b read paths files failures).run s).state := by
  induction paths generalizing s files failures with
  | nil => exact rfl
  | cons path rest ih =>
    rw [Scene.checkEach, Task.eachVisit]
    rcases hread : read path with fault | text
    · have hfault : (Scene.checkDocument b read path).run s =
          ⟨.error (.ofReading path fault), s, []⟩ := by
        rw [Scene.checkDocument, hread]
        rfl
      simp only [Act.run_bind, hfault, isFatal_ofReading]
      exact ih s _ _
    · have hvisit : (Scene.checkDocument b read path).run s =
          (Scene.checkText b path text).run s := by rw [Scene.checkDocument, hread]
      refine ⟨rfl, ?_⟩
      simp only [Act.run_bind, hvisit, Visit.result, Visit.after]
      rcases ((Scene.checkText b path text).run s).value with e | report
      · rcases hfatal : e.isFatal
        · simp only [hfatal]
          exact ih _ _ _
        · simp only [hfatal]
          exact rfl
      · exact ih _ _ _

/-- The visits of a call lead from its scene to the one that it leaves. -/
theorem Task.follow (s : Scene ω π) (task : Task) :
    Follow b s (task.visits b s) (task.after b s) := by
  rcases task with ⟨source, text⟩ | ⟨read, path⟩ | ⟨read, paths⟩
  · exact ⟨rfl, rfl⟩
  · rw [Task.visits, Task.after, Scene.checkDocument]
    rcases read path with fault | text
    · exact rfl
    · exact ⟨rfl, rfl⟩
  · rw [Task.visits, Task.after, Scene.checkDocuments, Act.run_within]
    exact follow_eachVisit read paths s [] []

/-- And so do the visits of a run. -/
theorem follow_visits (s : Scene ω π) (tasks : List Task) :
    Follow b s (visits b s tasks) (afterTasks b s tasks) := by
  induction tasks generalizing s with
  | nil => exact rfl
  | cons task rest ih => exact (task.follow s).append (ih _)

end

/-- A visit of a watched checker is a plain visit with the record added. -/
structure Visit.Mirrors (b : Backend ω π) (v : Visit (Watched ω) (Nat × π)) (v' : Visit ω π) :
    Prop where
  source : v.source = v'.source
  text : v.text = v'.text
  before : Erases v.before v'.before
  result : v.result b.watched = v'.result b
  after : Erases (v.after b.watched) (v'.after b)

section

variable {b : Backend ω π} {s : Scene (Watched ω) (Nat × π)} {t : Scene ω π}

theorem mirrors (h : Erases s t) (source text : String) :
    Visit.Mirrors b ⟨source, text, s⟩ ⟨source, text, t⟩ where
  source := rfl
  text := rfl
  before := h
  result := (checkText_erases b source text s t h).1
  after := (checkText_erases b source text s t h).2

theorem eachVisit_mirrors (h : Erases s t) (read : String → Except Fault String)
    (paths : List String) :
    List.Forall₂ (Visit.Mirrors b) (Task.eachVisit b.watched read paths s)
      (Task.eachVisit b read paths t) := by
  induction paths generalizing s t with
  | nil => exact .nil
  | cons path rest ih =>
    rw [Task.eachVisit, Task.eachVisit]
    rcases read path with fault | text
    · exact ih h
    · have hvisit : Visit.Mirrors b ⟨path, text, s⟩ ⟨path, text, t⟩ := mirrors h path text
      refine .cons hvisit ?_
      rw [hvisit.result]
      rcases (⟨path, text, t⟩ : Visit ω π).result b with e | report
      · rcases hfatal : e.isFatal
        · simp only [hfatal]
          exact ih hvisit.after
        · simp only [hfatal]
          exact .nil
      · exact ih hvisit.after

theorem Task.mirrors (h : Erases s t) (task : Task) :
    List.Forall₂ (Visit.Mirrors b) (task.visits b.watched s) (task.visits b t) := by
  rcases task with ⟨source, text⟩ | ⟨read, path⟩ | ⟨read, paths⟩
  · exact .cons (FenceLint.mirrors h source text) .nil
  · rw [Task.visits, Task.visits]
    rcases read path with fault | text
    · exact .nil
    · exact .cons (FenceLint.mirrors h path text) .nil
  · exact eachVisit_mirrors h read paths

/-- Scenes at the ends of visits that mirror one another are alike. -/
theorem Follow.erases {s' : Scene (Watched ω) (Nat × π)} {t' : Scene ω π}
    {vs : List (Visit (Watched ω) (Nat × π))} {ws : List (Visit ω π)}
    (hvs : List.Forall₂ (Visit.Mirrors b) vs ws) (hs : Follow b.watched s vs s')
    (ht : Follow b t ws t') (h : Erases s t) : Erases s' t' := by
  induction hvs generalizing s t with
  | nil =>
    obtain rfl : s = s' := hs
    obtain rfl : t = t' := ht
    exact h
  | cons hvisit _ ih => exact ih hs.2 ht.2 hvisit.after

/-- Watching changes nothing of what a run comes to. -/
theorem visits_mirrors (h : Erases s t) (tasks : List Task) :
    List.Forall₂ (Visit.Mirrors b) (visits b.watched s tasks) (visits b t tasks) := by
  induction tasks generalizing s t with
  | nil => exact .nil
  | cons task rest ih =>
    have htask : List.Forall₂ (Visit.Mirrors b) (task.visits b.watched s) (task.visits b t) :=
      Task.mirrors h task
    exact List.rel_append htask (ih (Follow.erases htask (task.follow s) (task.follow t) h))

end

end FenceLint
