import B100.Proofs.Assembly.Labels
import B100.Session

/-! # Sessions and their history

Of all that happened in a session, the next assembly depends only on the changes to the instruction
set, on the keys that were bound in the layers and on the last switch of the reports. The sources
that were assembled before, whether or not they failed, and all that was done to their labels are
forgotten.
-/

namespace B100

namespace Session

namespace Step

def changes : Step → List InstructionSet.Change
  | patch changes => changes
  | _ => []

def bound (layer : Nat) : Step → List (Text × Text)
  | set i key value => if i = layer then [(key, value)] else []
  | _ => []

def switch? : Step → Option Bool
  | trace on => some on
  | _ => none

end Step

/-- Binds keys with their values, one after the other, in the layers that are present. -/
def bindIn (pairs : Nat → List (Text × Text)) (layers : List (Option Settings)) :
    List (Option Settings) :=
  layers.mapIdx fun i layer => layer.map fun table =>
    (pairs i).foldl (fun table (key, value) => table.set key value) table

/-- A session that starts afresh, with the instruction set, the settings and the switch that a
history of steps leads to. -/
def fresh (s : Session) (history : List Step) : Session where
  isa := s.isa.patch (history.flatMap Step.changes)
  layers := bindIn (fun i => history.flatMap (Step.bound i)) s.layers
  tracing := (history.filterMap Step.switch?).getLast?.getD s.tracing

@[simp] theorem bindIn_nil (layers : List (Option Settings)) :
    bindIn (fun _ => []) layers = layers := by
  apply List.ext_getElem?
  simp [bindIn]

theorem bindIn_append (xs ys : Nat → List (Text × Text)) (layers : List (Option Settings)) :
    bindIn (fun i => xs i ++ ys i) layers = bindIn ys (bindIn xs layers) := by
  simp [bindIn, List.mapIdx_mapIdx, Function.comp_def]

variable (s : Session)

theorem isa_step (x : Step) : (s.step x).1.isa = s.isa.patch x.changes := by
  cases x <;> rfl

theorem layers_step (x : Step) : (s.step x).1.layers = bindIn x.bound s.layers := by
  cases x with
  | set layer key value =>
    apply List.ext_getElem?
    intro i
    change (s.layers.modify layer _)[i]? = _
    rw [List.getElem?_modify, bindIn, List.getElem?_mapIdx]
    by_cases h : layer = i <;> simp [Step.bound, h]
  | _ => exact (bindIn_nil s.layers).symm

theorem tracing_step (x : Step) : (s.step x).1.tracing = x.switch?.getD s.tracing := by
  cases x <;> rfl

theorem isa_steps (history : List Step) :
    (s.steps history).1.isa = s.isa.patch (history.flatMap Step.changes) := by
  induction history generalizing s with
  | nil => rfl
  | cons x history ih =>
    rw [steps, ih, isa_step, List.flatMap_cons]
    exact List.foldl_append.symm

theorem layers_steps (history : List Step) :
    (s.steps history).1.layers = bindIn (fun i => history.flatMap (Step.bound i)) s.layers := by
  induction history generalizing s with
  | nil => exact (bindIn_nil s.layers).symm
  | cons x history ih =>
    simp only [List.flatMap_cons]
    rw [steps, ih, layers_step, bindIn_append]

theorem tracing_steps (history : List Step) :
    (s.steps history).1.tracing = (history.filterMap Step.switch?).getLast?.getD s.tracing := by
  induction history generalizing s with
  | nil => rfl
  | cons x history ih =>
    rw [steps, ih, tracing_step]
    cases h : x.switch? <;> simp [h, List.getLast?_cons]

/-- But for the labels, a session is what its history leads to. -/
theorem steps_eq_fresh (history : List Step) :
    { (s.steps history).1 with labels := ∅ } = s.fresh history := by
  rw [fresh, ← isa_steps, ← layers_steps, ← tracing_steps]

theorem report_eq_fresh (history : List Step) (src : Text) :
    ((s.steps history).1.assemble src).2 = ((s.fresh history).assemble src).2 := by
  rw [← steps_eq_fresh]
  rfl

theorem steps_append (xs ys : List Step) :
    s.steps (xs ++ ys) =
      (((s.steps xs).1.steps ys).1, (s.steps xs).2 ++ ((s.steps xs).1.steps ys).2) := by
  induction xs generalizing s with
  | nil => rfl
  | cons x xs ih => simp only [List.cons_append, steps, ih]

theorem length_steps (xs : List Step) : (s.steps xs).2.length = xs.length := by
  induction xs generalizing s with
  | nil => rfl
  | cons x xs ih => simp only [steps, List.length_cons, ih]

theorem answer_steps (before after : List Step) (x : Step) :
    (s.steps (before ++ x :: after)).2[before.length]? =
      some ((s.steps before).1.step x).2 := by
  rw [steps_append, ← length_steps s before, List.getElem?_append_right (Nat.le_refl _)]
  simp [steps]

end Session

open Session

/-- Assemblies in one session are independent of each other. The answer to an assembly is that of a
session which starts afresh with the instruction set and the settings of the moment, and but for the
events it does not depend on whether events are reported. The labels are then those of the source,
whether or not it failed, each at the number of instructions before its last line, and a file that
cannot be read leaves them as they were. -/
theorem assemblies_are_independent (s : Session) (before after : List Step) (src : Text) :
    { (s.steps before).1 with labels := ∅ } = s.fresh before ∧
    (s.steps (before ++ .assemble src :: after)).2[before.length]? =
      some (.assembled ((s.fresh before).assemble src).2) ∧
    (∀ on, ∃ report,
      (s.steps (before ++ .trace on :: .assemble src :: after)).2[before.length + 1]? =
        some (.assembled report) ∧
      report.outcome = ((s.fresh before).assemble src).2.outcome ∧
      report.labels = ((s.fresh before).assemble src).2.labels) ∧
    (s.steps (before ++ [.assemble src])).1.labels = Source.labels (Source.lines src) ∧
    Source.Tabulates (Source.lines src) (Source.labels (Source.lines src)) ∧
    ∀ e : FileError, ((s.steps before).1.assembleFile (.error e)).1.labels =
      (s.steps before).1.labels := by
  refine ⟨s.steps_eq_fresh before, ?_, fun on => ?_, ?_, Source.tabulates _, fun e => rfl⟩
  · rw [answer_steps, ← report_eq_fresh]
    rfl
  · refine ⟨((s.steps (before ++ [.trace on])).1.assemble src).2, ?_, ?_, ?_⟩
    · have hanswer := s.answer_steps (before ++ [.trace on]) after (.assemble src)
      rw [List.append_assoc, List.length_append] at hanswer
      exact hanswer
    · rw [← report_eq_fresh, steps_append]
      rfl
    · rw [← report_eq_fresh, steps_append]
      rfl
  · rw [steps_append]
    rfl

end B100
