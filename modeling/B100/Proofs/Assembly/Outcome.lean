import B100.Assembly
import B100.Proofs.Encoding.Running
import B100.Proofs.Traversal
import Mathlib.Control.Monad.Basic

/-! # The outcome of an assembly

An assembly succeeds exactly when every instruction line has a word, and its program is the list of
those words. Otherwise it fails with the error of the first line that has none.
-/

namespace B100

theorem Fault.kind_ne_fileError (f : Fault) : f.kind ≠ .fileError := by
  cases f <;> nofun

namespace Source

def instructions (src : Text) : List Line := (lines src).filter Line.isInstruction

theorem length_instructions (src : Text) : (instructions src).length = size (lines src) :=
  List.countP_eq_length_filter.symm

end Source

namespace Assembly

theorem collect_eq_ok_iff {encoded : List (List Lookup × Except SourceError Word)} {p : Program} :
    (collect encoded).2 = .ok p ↔ encoded.map Prod.snd = p.map .ok := by
  induction encoded generalizing p with
  | nil => cases p <;> simp [collect]
  | cons x encoded ih =>
    obtain ⟨asked, e | w⟩ := x
    · cases p <;> simp [collect, cons]
    · change ((collect encoded).2.map (w :: ·)) = _ ↔ _
      cases h : (collect encoded).2 with
      | error e =>
        cases p with
        | nil => simp [Except.map]
        | cons v p =>
          have hn := mt (ih (p := p)).mpr (by simp [h])
          simp [Except.map, hn]
      | ok q =>
        have hq := ih.mp h
        cases p with
        | nil => simp [Except.map]
        | cons v p =>
          simp [Except.map, hq, List.map_inj_right fun _ _ h => Except.ok.inj h]

theorem collect_eq_error_iff {encoded : List (List Lookup × Except SourceError Word)}
    {e : SourceError} :
    (collect encoded).2 = .error e ↔
      ∃ before x after, encoded = before ++ x :: after ∧ x.2 = .error e ∧
        ∀ y ∈ before, ∃ w, y.2 = .ok w := by
  induction encoded with
  | nil => simp [collect]
  | cons x encoded ih =>
    obtain ⟨asked, f | w⟩ := x
    · change Except.error f = Except.error e ↔ _
      constructor
      · rintro ⟨rfl⟩
        exact ⟨[], _, encoded, rfl, rfl, by simp⟩
      · rintro ⟨_ | ⟨y, before⟩, z, after, he, hz, hb⟩
        · obtain ⟨rfl, -⟩ := List.cons.inj he
          cases hz
          rfl
        · obtain ⟨rfl, -⟩ := List.cons.inj he
          obtain ⟨w, hw⟩ := hb _ List.mem_cons_self
          cases hw
    · have hc : (collect ((asked, .ok w) :: encoded)).2 = .error e ↔
          (collect encoded).2 = .error e := by
        change ((collect encoded).2.map (w :: ·)) = _ ↔ _
        cases (collect encoded).2 <;> simp [Except.map]
      rw [hc, ih]
      constructor
      · rintro ⟨before, x, after, rfl, hx, hb⟩
        refine ⟨(asked, .ok w) :: before, x, after, rfl, hx, ?_⟩
        rintro y (_ | ⟨_, hy⟩)
        · exact ⟨w, rfl⟩
        · exact hb y hy
      · rintro ⟨_ | ⟨y, before⟩, x, after, he, hx, hb⟩
        · obtain ⟨rfl, -⟩ := List.cons.inj he
          cases hx
        · obtain ⟨-, rfl⟩ := List.cons.inj he
          exact ⟨before, x, after, rfl, hx, fun y hy => hb y (List.mem_cons_of_mem _ hy)⟩

variable (isa : InstructionSet) (resolve : Text → Option Text) (src : Text)

/-- How the lines of a source are encoded: against all of its labels. -/
def encoding : Encoding := ⟨isa, Source.labels (Source.lines src)⟩

def word (l : Line) : Except SourceError Word := ((encoding isa src).line resolve l).2

theorem word_eq (l : Line) :
    word isa resolve src l =
      (Encoder.result resolve ((encoding isa src).instruction l.text)).mapError (⟨l.number, ·⟩) :=
  rfl

variable {isa resolve src}

theorem word_eq_ok_iff {l : Line} {w : Word} :
    word isa resolve src l = .ok w ↔
      Encoder.result resolve ((encoding isa src).instruction l.text) = .ok w := by
  rw [word_eq, mapError_eq_ok_iff]

theorem word_eq_error_iff {l : Line} {e : SourceError} :
    word isa resolve src l = .error e ↔ ∃ f,
      Encoder.result resolve ((encoding isa src).instruction l.text) = .error f ∧
        ⟨l.number, f⟩ = e := by
  rw [word_eq, mapError_eq_error_iff]

theorem outcome_eq_ok_iff {p : Program} :
    (assemble isa resolve src).outcome = .ok p ↔
      (Source.instructions src).map (word isa resolve src) = p.map .ok := by
  change (collect _).2 = _ ↔ _
  rw [collect_eq_ok_iff, List.map_map]
  rfl

/-- The first line without a word decides how an assembly fails. -/
theorem outcome_eq_error_iff {e : SourceError} :
    (assemble isa resolve src).outcome = .error e ↔
      ∃ (i : Nat) (l : Line), (Source.instructions src)[i]? = some l ∧
        word isa resolve src l = .error e ∧
        ∀ m ∈ (Source.instructions src).take i, ∃ w, word isa resolve src m = .ok w := by
  change (collect ((Source.instructions src).map ((encoding isa src).line resolve))).2 = _ ↔ _
  rw [collect_eq_error_iff]
  constructor
  · rintro ⟨before, x, after, he, hx, hb⟩
    obtain ⟨ls, ms, hi, rfl, hm⟩ := List.map_eq_append_iff.mp he
    obtain ⟨l, ms, rfl, rfl, rfl⟩ := List.map_eq_cons_iff.mp hm
    refine ⟨ls.length, l, by simp [hi], hx, fun m hm => ?_⟩
    rw [hi, List.take_left] at hm
    exact hb _ (List.mem_map_of_mem hm)
  · rintro ⟨i, l, hl, hw, hb⟩
    obtain ⟨hi, rfl⟩ := List.getElem?_eq_some_iff.mp hl
    refine ⟨((Source.instructions src).take i).map ((encoding isa src).line resolve), _,
      ((Source.instructions src).drop (i + 1)).map ((encoding isa src).line resolve), ?_, hw, ?_⟩
    · rw [← List.map_cons, ← List.map_append, ← List.drop_eq_getElem_cons hi,
        List.take_append_drop]
    · intro y hy
      obtain ⟨m, hm, rfl⟩ := List.mem_map.mp hy
      exact hb m hm

theorem length_of_outcome_eq_ok {p : Program} (h : (assemble isa resolve src).outcome = .ok p) :
    p.length = Source.size (Source.lines src) := by
  have hl := congrArg List.length (outcome_eq_ok_iff.mp h)
  simpa [Source.length_instructions] using hl.symm

theorem getElem?_of_outcome_eq_ok {p : Program} (h : (assemble isa resolve src).outcome = .ok p)
    {i : Nat} {l : Line} (hl : (Source.instructions src)[i]? = some l) :
    ∃ w, p[i]? = some w ∧ word isa resolve src l = .ok w := by
  have hi := congrArg (·[i]?) (outcome_eq_ok_iff.mp h)
  simp only [List.getElem?_map, hl, Option.map_some] at hi
  obtain ⟨w, hw, he⟩ := Option.map_eq_some_iff.mp hi.symm
  exact ⟨w, hw, he.symm⟩

theorem exists_outcome_eq_error {l : Line} {e : SourceError} (hl : l ∈ Source.instructions src)
    (hw : word isa resolve src l = .error e) :
    ∃ f, (assemble isa resolve src).outcome = .error f := by
  cases h : (assemble isa resolve src).outcome with
  | error f => exact ⟨f, rfl⟩
  | ok p =>
    obtain ⟨i, hi⟩ := List.mem_iff_getElem?.mp hl
    obtain ⟨w, -, hok⟩ := getElem?_of_outcome_eq_ok h hi
    cases hok.symm.trans hw

end Assembly

end B100
